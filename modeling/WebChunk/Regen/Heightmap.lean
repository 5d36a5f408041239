import WebChunk.Terrain.HeightPicture

/-!
# The heightmap that the tool writes

`cmd/regenHeightmaps` makes the scan of the server's `genHeightmap` once more and stores what it
finds in an array of 9-bit values, counted from the height -64. Its copies of `isAirState` and
`prepareSectionBlockstates` are those of the server.
-/

namespace WebChunk.Regen

open WebChunk.Go WebChunk.Semantics WebChunk.Terrain

/-- `level.BitStorage`, by its calls of `Set`, the last one first. -/
structure BitStorage where
  sets : List (Nat × Int)

/-- `level.NewBitStorage` without data. -/
def NewBitStorage : BitStorage := ⟨[]⟩

def BitStorage.Set (b : BitStorage) (i : Nat) (v : Int) : BitStorage := ⟨(i, v) :: b.sets⟩

/-- The last value set, or 0. -/
def BitStorage.Get (b : BitStorage) (i : Nat) : Int :=
  ((b.sets.find? fun call => call.1 == i).map Prod.snd).getD 0

variable (lib : Library)

/-- The variables of `genHeightmap`. -/
structure Scan where
  ws : BitStorage
  set : Nat → Bool

/-- The body of the innermost loop. -/
def regenStep (s : Section) (states : Nat → StateID) (y : Nat) (acc : Scan) (i : Nat) : Scan :=
  if acc.set i then acc
  else if isAirState lib (states (y * 16 * 16 + i)) then acc
  else ⟨acc.ws.Set i (s.Y.toInt * 16 + y + 64), Function.update acc.set i true⟩

/-- The loop over the sections. A broken palette ends the function. -/
def regenSections : Scan → List Section → Option Scan
  | acc, [] => some acc
  | acc, s :: rest =>
      if s.Data.length = 0 then regenSections acc rest
      else
        match prepareSectionBlockstates lib s with
        | none => none
        | some states =>
            regenSections ((downFrom 16).foldl
              (fun acc y => (downFrom 256).foldl (regenStep lib s states y) acc) acc) rest

/-- `genHeightmap` of the tool: the array that it puts under `WORLD_SURFACE`, if it comes to
that. -/
def genHeightmap (chunk : Chunk) : Option BitStorage :=
  (regenSections lib ⟨NewBitStorage, fun _ => false⟩ (sortedSections lib chunk)).map Scan.ws

/-! ### The scan -/

/-- The values set for a column, the last one first, and its flag. -/
def Scan.view (acc : Scan) (i : Nat) : List Int × Bool :=
  ((acc.ws.sets.filter fun call => call.1 == i).map Prod.snd, acc.set i)

/-- What one block makes of its column. -/
def regenHere (part : List Int × Bool) (b : Int × StateID) : List Int × Bool :=
  if part.2 then part else if isAirState lib b.2 then part else ((b.1 + 64) :: part.1, true)

theorem acts_regenStep (s : Section) (states : Nat → StateID) (y here : Nat) :
    Acts (fun _ => True) Scan.view (fun acc => regenStep lib s states y acc here) fun i part =>
      if i = here then regenHere lib part (s.Y.toInt * 16 + y, states (y * 16 * 16 + i))
      else part := by
  refine ⟨fun _ => trivial, fun acc _ i => ?_⟩
  unfold regenStep regenHere
  by_cases same : i = here
  · subst same
    cases isSet : acc.set i <;> cases isAirState lib (states (y * 16 * 16 + i)) <;>
      simp [Scan.view, BitStorage.Set, isSet]
  · dsimp only
    rw [if_neg same]
    split
    · rfl
    · split
      · rfl
      · simp [Scan.view, BitStorage.Set, Function.update_of_ne same, Ne.symm same]

/-- One value is set for a column at most, that of its surface. -/
theorem foldl_regenHere (blocks : List (Int × StateID)) :
    blocks.foldl (regenHere lib) ([], false) =
      ((surface lib blocks).toList.map (· + 64), (surface lib blocks).isSome) := by
  rw [foldl_surface lib (fun h => ([h + 64], true))
    (fun b air => by simp [regenHere, air]) (fun b solid => by simp [regenHere, solid])
    (fun h b => rfl) blocks]
  cases surface lib blocks <;> rfl

/-- Without a broken palette the loop comes to its end. -/
theorem regenSections_eq {sections : List Section}
    (resolved : ∀ s ∈ sections, (prepareSectionBlockstates lib s).isSome) (acc : Scan) :
    regenSections lib acc sections =
      some (eachSection (prepareSectionBlockstates lib)
        (fun acc s states => (downFrom 16).foldl
          (fun acc y => (downFrom 256).foldl (regenStep lib s states y) acc) acc) acc sections) := by
  induction sections generalizing acc with
  | nil => rfl
  | cons s rest inductionHypothesis =>
      have later := inductionHypothesis fun t member => resolved t (List.mem_cons_of_mem s member)
      unfold regenSections eachSection
      split
      · exact later acc
      · obtain ⟨states, whole⟩ := Option.isSome_iff_exists.mp (resolved s List.mem_cons_self)
        rw [whole]
        exact later _

/-- The tool ends with an array that holds, for each column with a surface, its height from -64
on, and nothing else was set. -/
theorem genHeightmap_spec {chunk : Chunk}
    (resolved : ∀ s ∈ chunk.Sections, (prepareSectionBlockstates lib s).isSome) :
    ∃ ws, genHeightmap lib chunk = some ws ∧ ∀ i,
      (ws.sets.filter fun call => call.1 == i).map Prod.snd =
        if i < 256 then (surface lib (column (prepareSectionBlockstates lib) i
          (sortedSections lib chunk))).toList.map (· + 64)
        else [] := by
  have loop := regenSections_eq lib
    (fun s member => resolved s ((mem_sortedSections lib).mp member)) ⟨NewBitStorage, fun _ => false⟩
  have scan := acts_eachSection (prepareSectionBlockstates lib)
    (fun s states y => acts_row fun here _ => acts_regenStep lib s states y here)
    (sortedSections lib chunk)
  refine ⟨_, by rw [genHeightmap, loop, Option.map_some], fun i => ?_⟩
  have scanned := congrArg Prod.fst (scan.part ⟨NewBitStorage, fun _ => false⟩ trivial i)
  have start : Scan.view ⟨NewBitStorage, fun _ => false⟩ i = ([], false) := rfl
  rw [start, foldl_regenHere] at scanned
  refine scanned.trans ?_
  split <;> rfl

/-! ### The stored array -/

/-- Column `i` has a block that is not air, in a section with data or of a single block. -/
def HasBlock (chunk : Chunk) (i : Nat) : Prop :=
  ∃ s ∈ chunk.Sections, (s.Data ≠ [] ∨ s.Palette.length = 1) ∧
    ∃ states, prepareSectionBlockstates lib s = some states ∧
      ∃ y : Nat, y < 16 ∧ isAirState lib (states (y * 16 * 16 + i)) = false

/-- The array has the server's heights from -64 on, in 9 bits, and another value in the columns
without any block. -/
structure KeepsSurface (chunk : Chunk) (ws : BitStorage) : Prop where
  fits : ∀ call ∈ ws.sets, call.1 < 256 ∧ 0 ≤ call.2 ∧ call.2 ≤ 511
  height : ∀ i, i < 256 → HasBlock lib chunk i → ∃ h,
    (Terrain.genHeightmap lib chunk)[i]? = some h ∧ ws.Get i = h + 64
  empty : ∀ i, i < 256 → ¬ HasBlock lib chunk i → ws.Get i = 0
  apart : ∀ i, i < 256 → HasBlock lib chunk i → ws.Get i ≠ 0

variable {lib}

/-- A palette that is resolved with its properties is resolved by its names. -/
theorem prepareSectionBlockIDs_isSome {s : Section}
    (resolved : (prepareSectionBlockstates lib s).isSome) :
    (prepareSectionBlockIDs lib s).isSome := by
  obtain ⟨states, found⟩ := Option.isSome_iff_exists.mp resolved
  obtain ⟨palette, mapped, -⟩ := Option.map_eq_some_iff.mp found
  have named : ∀ v state, blockState lib v = some state → (blockID lib v).isSome := by
    intro v state known
    unfold blockState at known
    unfold blockID
    split at known
    · cases known
    · rename_i b here
      rw [here]
      rfl
  have entries := forall₂_of_mapM mapped
  have ids : ∃ ids, s.Palette.mapM (blockID lib) = some ids := by
    clear mapped found
    generalize s.Palette = entriesOf at entries
    induction entries with
    | nil => exact ⟨[], rfl⟩
    | @cons v state rest _ known _ inductionHypothesis =>
        obtain ⟨others, later⟩ := inductionHypothesis
        obtain ⟨id, here⟩ := Option.isSome_iff_exists.mp (named v state known)
        exact ⟨id :: others, by rw [List.mapM_cons, here, later]; rfl⟩
  obtain ⟨ids, named⟩ := ids
  rw [prepareSectionBlockIDs, named]
  rfl

/-- The value of a column is that of its surface. -/
theorem Get_eq {ws : BitStorage} {i : Nat} {top : Option Int}
    (values : (ws.sets.filter fun call => call.1 == i).map Prod.snd = top.toList.map (· + 64)) :
    ws.Get i = (top.map (· + 64)).getD 0 := by
  have last := congrArg List.head? values
  rw [List.head?_map, List.head?_filter] at last
  rw [BitStorage.Get, last]
  cases top <;> rfl

variable (lib)

theorem greatest_of_surface {chunk : Chunk} (distinct : (chunk.Sections.map Section.Y).Nodup)
    {i : Nat} {h : Int}
    (top : surface lib (column (prepareSectionBlockIDs lib) i (sortedSections lib chunk)) = some h) :
    IsGreatest (solidHeights lib chunk i) h := by
  rcases surface_isGreatest lib distinct i with greatest | ⟨none_, -⟩
  · rwa [top] at greatest
  · have there : (solidHeights lib chunk i).Nonempty := surface_isSome_iff.mp (by rw [top]; rfl)
    rw [none_] at there
    exact absurd there Set.not_nonempty_empty

/-- The heights of the sections that 9 bits have room for. -/
theorem solidHeights_inRange {chunk : Chunk}
    (inRange : ∀ s ∈ chunk.Sections, -4 ≤ s.Y.toInt ∧ s.Y.toInt ≤ 27) {i : Nat} {h : Int}
    (solid : h ∈ solidHeights lib chunk i) : -64 ≤ h ∧ h ≤ 447 := by
  obtain ⟨s, member, _, _, _, y, row, _, rfl⟩ := solid
  have bounds := inRange s member
  omega

/-- A column with a surface has a block. -/
theorem hasBlock_of_surface {chunk : Chunk} {i : Nat} {h : Int}
    (top : surface lib (column (prepareSectionBlockstates lib) i (sortedSections lib chunk)) =
      some h) : HasBlock lib chunk i := by
  obtain ⟨b, found, rfl⟩ := Option.map_eq_some_iff.mp top
  obtain ⟨s, member, data, states, resolved, inSection⟩ :=
    mem_column.mp (List.mem_of_find?_eq_some found)
  obtain ⟨y, row, rfl⟩ := mem_sectionColumn.mp inSection
  have solid := List.find?_some found
  exact ⟨s, (mem_sortedSections lib).mp member, .inl data, states, resolved, y, row,
    by simpa using solid⟩

/-- The two ways to read a palette agree on the surface. -/
theorem surface_alike (airByName : AirByName lib) (reads : ReadsIndices lib) {chunk : Chunk}
    (resolved : ∀ s ∈ chunk.Sections, (prepareSectionBlockstates lib s).isSome) (i : Nat) :
    surface lib (column (prepareSectionBlockstates lib) i (sortedSections lib chunk)) =
      surface lib (column (prepareSectionBlockIDs lib) i (sortedSections lib chunk)) := by
  refine surface_blockstates airByName reads (fun s member => ?_) i
  have whole := resolved s ((mem_sortedSections lib).mp member)
  exact ⟨whole, prepareSectionBlockIDs_isSome whole⟩

/-- The values that are set are heights from -64 on, and fit into 9 bits. -/
theorem calls_fit {chunk : Chunk} {ws : BitStorage}
    (distinct : (chunk.Sections.map Section.Y).Nodup)
    (inRange : ∀ s ∈ chunk.Sections, -4 ≤ s.Y.toInt ∧ s.Y.toInt ≤ 27)
    (values : ∀ i, (ws.sets.filter fun call => call.1 == i).map Prod.snd =
      if i < 256 then (surface lib (column (prepareSectionBlockIDs lib) i
        (sortedSections lib chunk))).toList.map (· + 64)
      else []) : ∀ call ∈ ws.sets, call.1 < 256 ∧ 0 ≤ call.2 ∧ call.2 ≤ 511 := by
  rintro ⟨i, v⟩ member
  have listed : v ∈ (ws.sets.filter fun call => call.1 == i).map Prod.snd :=
    List.mem_map.mpr ⟨(i, v), List.mem_filter.mpr ⟨member, by simp⟩, rfl⟩
  rw [values] at listed
  split at listed
  · rename_i inside
    rw [List.mem_map] at listed
    obtain ⟨h, top, rfl⟩ := listed
    have bounds := solidHeights_inRange lib inRange
      (greatest_of_surface lib distinct (Option.mem_toList.mp top)).1
    exact ⟨inside, by omega, by omega⟩
  · cases listed

/-- What the server's heightmap has for a column. -/
theorem entry_eq (chunk : Chunk) {i : Nat} (inside : i < 256) :
    (Terrain.genHeightmap lib chunk)[i]? = some ((surface lib
      (column (prepareSectionBlockIDs lib) i (sortedSections lib chunk))).getD 0) := by
  rw [genHeightmap_eq, List.getElem?_map, List.getElem?_range inside]
  rfl

/-- The array keeps the surface exactly when each column with a block has one above the height -64
in a section with data. -/
theorem genHeightmap_keepsSurface_iff (airByName : AirByName lib) (reads : ReadsIndices lib)
    (chunk : Chunk) (distinct : (chunk.Sections.map Section.Y).Nodup)
    (inRange : ∀ s ∈ chunk.Sections, -4 ≤ s.Y.toInt ∧ s.Y.toInt ≤ 27)
    (resolved : ∀ s ∈ chunk.Sections, (prepareSectionBlockstates lib s).isSome) :
    (∃ ws, genHeightmap lib chunk = some ws ∧ KeepsSurface lib chunk ws) ↔
      ∀ i, i < 256 → HasBlock lib chunk i → ∃ h ∈ solidHeights lib chunk i, -64 < h := by
  have alike := surface_alike lib airByName reads resolved
  obtain ⟨ws, written, values⟩ := genHeightmap_spec lib resolved
  simp only [alike] at values
  have value : ∀ i, i < 256 → ws.Get i = ((surface lib (column (prepareSectionBlockIDs lib) i
      (sortedSections lib chunk))).map (· + 64)).getD 0 := fun i inside =>
    Get_eq (by rw [values, if_pos inside])
  constructor
  · rintro ⟨ws', same, keeps⟩ i inside block
    cases written.symm.trans same
    have apart := keeps.apart i inside block
    rw [value i inside] at apart
    cases top : surface lib (column (prepareSectionBlockIDs lib) i (sortedSections lib chunk)) with
    | none =>
        rw [top] at apart
        exact absurd rfl apart
    | some h =>
        have solid := (greatest_of_surface lib distinct top).1
        have bounds := solidHeights_inRange lib inRange solid
        rw [top, Option.map_some, Option.getD_some] at apart
        exact ⟨h, solid, by omega⟩
  · intro above
    -- A column with a block has its surface above the lowest height.
    have surfaces : ∀ i, i < 256 → HasBlock lib chunk i → ∃ h, surface lib
        (column (prepareSectionBlockIDs lib) i (sortedSections lib chunk)) = some h ∧ -64 < h := by
      intro i inside block
      obtain ⟨h, solid, high⟩ := above i inside block
      obtain ⟨t, top⟩ := Option.isSome_iff_exists.mp (surface_isSome_iff.mpr ⟨h, solid⟩)
      have atMost := (greatest_of_surface lib distinct top).2 solid
      exact ⟨t, top, by omega⟩
    refine ⟨ws, written, calls_fit lib distinct inRange values, fun i inside block => ?_,
      fun i inside noBlock => ?_, fun i inside block => ?_⟩
    · obtain ⟨h, top, -⟩ := surfaces i inside block
      exact ⟨h, by rw [entry_eq lib chunk inside, top]; rfl, by rw [value i inside, top]; rfl⟩
    · rw [value i inside]
      cases top : surface lib (column (prepareSectionBlockIDs lib) i
          (sortedSections lib chunk)) with
      | none => rfl
      | some h => exact absurd (hasBlock_of_surface lib ((alike i).trans top)) noBlock
    · obtain ⟨h, top, high⟩ := surfaces i inside block
      rw [value i inside, top, Option.map_some, Option.getD_some]
      omega

theorem genHeightmap_keepsSurface_sample :
    (∃ ws, genHeightmap sampleLibrary sampleChunk = some ws ∧
        KeepsSurface sampleLibrary sampleChunk ws) ↔
      ∀ i, i < 256 → HasBlock sampleLibrary sampleChunk i →
        ∃ h ∈ solidHeights sampleLibrary sampleChunk i, -64 < h :=
  genHeightmap_keepsSurface_iff sampleLibrary sampleLibrary_airByName sampleLibrary_readsIndices
    sampleChunk (by decide) (by decide) (by decide)

/-- One block of stone at the bottom of the lowest section. -/
def bottomChunk : Chunk :=
  ⟨[⟨-4, [⟨"minecraft:air", none⟩, ⟨"minecraft:stone", none⟩], [1]⟩]⟩

/-- The column of the block has the value of its neighbour, which has none. -/
theorem bottom_block_looks_empty :
    (∀ s ∈ bottomChunk.Sections, -4 ≤ s.Y.toInt ∧ s.Y.toInt ≤ 27) ∧
      (∀ s ∈ bottomChunk.Sections, (prepareSectionBlockstates sampleLibrary s).isSome) ∧
      HasBlock sampleLibrary bottomChunk 0 ∧
      ∃ ws, genHeightmap sampleLibrary bottomChunk = some ws ∧ ws.Get 0 = 0 ∧ ws.Get 1 = 0 ∧
        ¬ KeepsSurface sampleLibrary bottomChunk ws := by
  have resolved : ∀ s ∈ bottomChunk.Sections,
      (prepareSectionBlockstates sampleLibrary s).isSome := by decide
  obtain ⟨ws, written, values⟩ := genHeightmap_spec sampleLibrary resolved
  have bottom : surface sampleLibrary (column (prepareSectionBlockstates sampleLibrary) 0
      (sortedSections sampleLibrary bottomChunk)) = some (-64) := by decide
  have nothing : surface sampleLibrary (column (prepareSectionBlockstates sampleLibrary) 1
      (sortedSections sampleLibrary bottomChunk)) = none := by decide
  have zero : ws.Get 0 = 0 := Get_eq (i := 0) (by rw [values, bottom]; rfl)
  have other : ws.Get 1 = 0 := Get_eq (i := 1) (by rw [values, nothing]; rfl)
  have block := hasBlock_of_surface sampleLibrary bottom
  exact ⟨by decide, resolved, block, ws, written, zero, other,
    fun keeps => keeps.apart 0 (by decide) block zero⟩

end WebChunk.Regen
