import Mathlib.Order.Bounds.Basic
import WebChunk.Terrain.Section

/-!
# The heightmap of a chunk

`genHeightmap` scans the sorted sections from the top down, and keeps for each column the height
of the first block that is not air.
-/

namespace WebChunk.Terrain

open WebChunk.Go WebChunk.Semantics

variable (lib : Library)

/-- The two arrays of `genHeightmap`. -/
structure Heights where
  height : Nat → Int
  set : Nat → Bool

/-- The body of the innermost loop of `genHeightmap`. -/
def heightStep (s : Section) (states : Nat → StateID) (y : Nat) (acc : Heights) (i : Nat) :
    Heights :=
  if acc.set i then acc
  else if isAirState lib (states (y * 16 * 16 + i)) then acc
  else ⟨Function.update acc.height i (s.Y.toInt * 16 + y), Function.update acc.set i true⟩

def genHeightmap (chunk : Chunk) : List Int :=
  let final := eachSection (prepareSectionBlockIDs lib)
    (fun acc s states => (downFrom 16).foldl
      (fun acc y => (downFrom 256).foldl (heightStep lib s states y) acc) acc)
    ⟨fun _ => 0, fun _ => false⟩ (sortedSections lib chunk)
  (List.range 256).map final.height

/-- The height of the first block that is not air. -/
def surface (blocks : List (Int × StateID)) : Option Int :=
  (blocks.find? fun b => !isAirState lib b.2).map Prod.fst

/-! ### The scan -/

def Heights.view (acc : Heights) (i : Nat) : Int × Bool := (acc.height i, acc.set i)

/-- What one block makes of the entries of its column. -/
def heightHere (part : Int × Bool) (b : Int × StateID) : Int × Bool :=
  if part.2 then part else if isAirState lib b.2 then part else (b.1, true)

theorem acts_heightStep (s : Section) (states : Nat → StateID) (y here : Nat) :
    Acts (fun _ => True) Heights.view (fun acc => heightStep lib s states y acc here) fun i part =>
      if i = here then heightHere lib part (s.Y.toInt * 16 + y, states (y * 16 * 16 + i))
      else part := by
  refine ⟨fun _ => trivial, fun acc _ i => ?_⟩
  unfold heightStep heightHere
  by_cases same : i = here
  · subst same
    cases isSet : acc.set i <;> cases isAirState lib (states (y * 16 * 16 + i)) <;>
      simp [Heights.view, isSet]
  · dsimp only
    rw [if_neg same]
    split
    · rfl
    · split
      · rfl
      · simp [Heights.view, Function.update_of_ne same]

/-- A scan that keeps what it has at air, and after the first other block keeps what it made of
its height. -/
theorem foldl_surface {Part : Type} {here : Part → Int × StateID → Part} {start : Part}
    (found : Int → Part) (atAir : ∀ b, isAirState lib b.2 = true → here start b = start)
    (atSolid : ∀ b, isAirState lib b.2 = false → here start b = found b.1)
    (stays : ∀ h b, here (found h) b = found h) (blocks : List (Int × StateID)) :
    blocks.foldl here start = ((surface lib blocks).map found).getD start := by
  have done : ∀ (blocks : List (Int × StateID)) (h : Int),
      blocks.foldl here (found h) = found h := by
    intro blocks h
    induction blocks with
    | nil => rfl
    | cons b rest inductionHypothesis => rw [List.foldl_cons, stays, inductionHypothesis]
  induction blocks with
  | nil => rfl
  | cons b rest inductionHypothesis =>
      rw [List.foldl_cons]
      cases air : isAirState lib b.2 with
      | true =>
          have skipped : surface lib (b :: rest) = surface lib rest := by simp [surface, air]
          rw [skipped, atAir b air, inductionHypothesis]
      | false =>
          have first : surface lib (b :: rest) = some b.1 := by simp [surface, air]
          rw [first, atSolid b air, done]
          rfl

theorem foldl_heightHere (blocks : List (Int × StateID)) :
    blocks.foldl (heightHere lib) (0, false) =
      ((surface lib blocks).getD 0, (surface lib blocks).isSome) := by
  rw [foldl_surface lib (fun h => (h, true)) (fun b air => by simp [heightHere, air])
    (fun b solid => by simp [heightHere, solid]) (fun h b => rfl) blocks]
  cases surface lib blocks <;> rfl

/-- The height of a column is that of its first block that is not air, or 0. -/
theorem genHeightmap_eq (chunk : Chunk) :
    genHeightmap lib chunk = (List.range 256).map fun i =>
      (surface lib (column (prepareSectionBlockIDs lib) i (sortedSections lib chunk))).getD 0 := by
  refine List.map_congr_left fun i member => ?_
  have inside : i < 256 := List.mem_range.mp member
  have scan := acts_eachSection (prepareSectionBlockIDs lib)
    (fun s states y => acts_row fun here _ => acts_heightStep lib s states y here)
    (sortedSections lib chunk)
  have scanned := scan.part ⟨fun _ => 0, fun _ => false⟩ trivial i
  have start : Heights.view ⟨fun _ => 0, fun _ => false⟩ i = (0, false) := rfl
  rw [if_pos inside, start, foldl_heightHere] at scanned
  exact congrArg Prod.fst scanned

/-! ### The surface -/

/-- The heights of the blocks of column `i` that are not air, in sections with data whose palette
can be resolved. -/
def solidHeights (chunk : Chunk) (i : Nat) : Set Int := fun h =>
  ∃ s ∈ chunk.Sections, s.Data ≠ [] ∧ ∃ states, prepareSectionBlockIDs lib s = some states ∧
    ∃ y : Nat, y < 16 ∧ isAirState lib (states (y * 16 * 16 + i)) = false ∧
      h = s.Y.toInt * 16 + y

variable {lib}

theorem mem_solidHeights {chunk : Chunk} {i : Nat} {h : Int} :
    h ∈ solidHeights lib chunk i ↔
      ∃ b ∈ column (prepareSectionBlockIDs lib) i (sortedSections lib chunk),
        isAirState lib b.2 = false ∧ h = b.1 := by
  constructor
  · rintro ⟨s, member, data, states, resolved, y, row, solid, rfl⟩
    exact ⟨_, mem_column.mpr ⟨s, (mem_sortedSections lib).mpr member, data, states, resolved,
      mem_sectionColumn.mpr ⟨y, row, rfl⟩⟩, solid, rfl⟩
  · rintro ⟨b, inColumn, solid, rfl⟩
    obtain ⟨s, member, data, states, resolved, inSection⟩ := mem_column.mp inColumn
    obtain ⟨y, row, rfl⟩ := mem_sectionColumn.mp inSection
    exact ⟨s, (mem_sortedSections lib).mp member, data, states, resolved, y, row, solid, rfl⟩

/-- A column has a surface if some block in it is not air. -/
theorem surface_isSome_iff {chunk : Chunk} {i : Nat} :
    (surface lib (column (prepareSectionBlockIDs lib) i (sortedSections lib chunk))).isSome ↔
      (solidHeights lib chunk i).Nonempty := by
  rw [surface, Option.isSome_map, List.find?_isSome]
  constructor
  · rintro ⟨b, inColumn, solid⟩
    exact ⟨b.1, mem_solidHeights.mpr ⟨b, inColumn, by simpa using solid, rfl⟩⟩
  · rintro ⟨h, solid⟩
    obtain ⟨b, inColumn, notAir, -⟩ := mem_solidHeights.mp solid
    exact ⟨b, inColumn, by simp [notAir]⟩

variable (lib)

/-- In a column of falling heights the surface is the greatest height of a block that is not
air. -/
theorem surface_spec {blocks : List (Int × StateID)}
    (falling : blocks.Pairwise fun a b => b.1 < a.1) :
    (∀ h, surface lib blocks = some h →
      (∃ b ∈ blocks, isAirState lib b.2 = false ∧ h = b.1) ∧
        ∀ b ∈ blocks, isAirState lib b.2 = false → b.1 ≤ h) ∧
      (surface lib blocks = none → ∀ b ∈ blocks, isAirState lib b.2 = true) := by
  induction blocks with
  | nil => simp [surface]
  | cons b rest inductionHypothesis =>
      obtain ⟨below, falling⟩ := List.pairwise_cons.mp falling
      obtain ⟨found, missing⟩ := inductionHypothesis falling
      cases air : isAirState lib b.2 with
      | true =>
          have skipped : surface lib (b :: rest) = surface lib rest := by simp [surface, air]
          rw [skipped]
          constructor
          · intro h here
            obtain ⟨⟨c, member, solid, same⟩, top⟩ := found h here
            refine ⟨⟨c, List.mem_cons_of_mem b member, solid, same⟩, fun d inside solid => ?_⟩
            rcases List.mem_cons.mp inside with rfl | later
            · rw [air] at solid
              cases solid
            · exact top d later solid
          · intro none_ c inside
            rcases List.mem_cons.mp inside with rfl | later
            · exact air
            · exact missing none_ c later
      | false =>
          have first : surface lib (b :: rest) = some b.1 := by simp [surface, air]
          rw [first]
          refine ⟨fun h here => ?_, fun none_ => by cases none_⟩
          cases here
          refine ⟨⟨b, List.mem_cons_self, air, rfl⟩, fun c inside _ => ?_⟩
          rcases List.mem_cons.mp inside with rfl | later
          · exact Int.le_refl _
          · exact Int.le_of_lt (below c later)

/-- The scan of sorted sections of distinct heights ends at the greatest height. -/
theorem surface_isGreatest {chunk : Chunk} (distinct : (chunk.Sections.map Section.Y).Nodup)
    (i : Nat) :
    (IsGreatest (solidHeights lib chunk i)
        ((surface lib (column (prepareSectionBlockIDs lib) i (sortedSections lib chunk))).getD 0)) ∨
      solidHeights lib chunk i = ∅ ∧
        (surface lib (column (prepareSectionBlockIDs lib) i
          (sortedSections lib chunk))).getD 0 = 0 := by
  obtain ⟨found, missing⟩ := surface_spec lib
    (pairwise_column (prepareSectionBlockIDs lib) i
      (pairwise_sortedSections lib distinct))
  cases top : surface lib (column (prepareSectionBlockIDs lib) i (sortedSections lib chunk)) with
  | some h =>
      obtain ⟨there, greatest⟩ := found h top
      refine .inl ⟨mem_solidHeights.mpr there, fun other solid => ?_⟩
      obtain ⟨b, inColumn, notAir, rfl⟩ := mem_solidHeights.mp solid
      exact greatest b inColumn notAir
  | none =>
      refine .inr ⟨Set.eq_empty_iff_forall_notMem.mpr fun h solid => ?_, rfl⟩
      obtain ⟨b, inColumn, notAir, -⟩ := mem_solidHeights.mp solid
      rw [missing top b inColumn] at notAir
      cases notAir

theorem solidHeights_perm {chunk other : Chunk} (same : other.Sections.Perm chunk.Sections)
    (i : Nat) : solidHeights lib other i = solidHeights lib chunk i := by
  ext h
  exact exists_congr fun s => and_congr_left fun _ => same.mem_iff

/-- `genHeightmap` finds the surface of every column, whatever the order of the sections. -/
theorem genHeightmap_surface (chunk : Chunk) (distinct : (chunk.Sections.map Section.Y).Nodup) :
    (genHeightmap lib chunk).length = 256 ∧
      (∀ i, i < 256 → ∃ h, (genHeightmap lib chunk)[i]? = some h ∧
        (IsGreatest (solidHeights lib chunk i) h ∨ solidHeights lib chunk i = ∅ ∧ h = 0)) ∧
      ∀ other : Chunk, other.Sections.Perm chunk.Sections →
        genHeightmap lib other = genHeightmap lib chunk := by
  refine ⟨by simp [genHeightmap_eq], fun i inside => ?_, fun other same => ?_⟩
  · refine ⟨_, ?_, surface_isGreatest lib distinct i⟩
    rw [genHeightmap_eq, List.getElem?_map, List.getElem?_range inside]
    rfl
  · rw [genHeightmap_eq, genHeightmap_eq]
    refine List.map_congr_left fun i _ => ?_
    have distinctOther := (same.map Section.Y).nodup_iff.mpr distinct
    have otherTop := surface_isGreatest lib distinctOther i
    rw [solidHeights_perm lib same i] at otherTop
    rcases otherTop with otherTop | ⟨noneOther, zeroOther⟩ <;>
      rcases surface_isGreatest lib distinct i with top | ⟨none_, zero⟩
    · exact otherTop.unique top
    · exact absurd otherTop.1 (by simp [none_])
    · exact absurd top.1 (by simp [noneOther])
    · exact zeroOther.trans zero.symm

theorem genHeightmap_surface_sample :
    (genHeightmap sampleLibrary sampleChunk).length = 256 ∧
      (∀ i, i < 256 → ∃ h, (genHeightmap sampleLibrary sampleChunk)[i]? = some h ∧
        (IsGreatest (solidHeights sampleLibrary sampleChunk i) h ∨
          solidHeights sampleLibrary sampleChunk i = ∅ ∧ h = 0)) ∧
      ∀ other : Chunk, other.Sections.Perm sampleChunk.Sections →
        genHeightmap sampleLibrary other = genHeightmap sampleLibrary sampleChunk :=
  genHeightmap_surface sampleLibrary sampleChunk (by decide)

end WebChunk.Terrain
