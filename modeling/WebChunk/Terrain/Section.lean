import WebChunk.Go.Image
import WebChunk.Go.Sort
import WebChunk.Semantics.Columns

/-!
# Chunks and their sections

The part of `save.Chunk` that the painters of `terrain.go` read, the decoding of a section's
palette, and the loops over the blocks that the painters share. The packages `block` and `level`
and the table of colors are parameters.
-/

namespace WebChunk.Terrain

open WebChunk.Go WebChunk.Semantics

/-- `block.StateID`. -/
abbrev StateID := Nat

/-- The dynamic types of blocks that `terrain.go` tells apart. -/
inductive BlockKind where
  | Air | CaveAir | VoidAir
  | GrassBlock | Grass | TallGrass | Fern | LargeFern | PottedFern | SugarCane
  | OakLeaves | JungleLeaves | AcaciaLeaves | DarkOakLeaves | BirchLeaves | SpruceLeaves | Vine
  | Water | WaterCauldron
  | other
  deriving DecidableEq

/-- An entry of a palette. The properties are `nbt.RawMessage.Data`, which may be nil. -/
structure BlockState where
  Name : String
  Properties : Option (List UInt8)

/-- `save.Section`. -/
structure Section where
  Y : Int8
  Palette : List BlockState
  Data : List UInt64

/-- `save.Chunk`. -/
structure Chunk where
  Sections : List Section

/-- What is used of the packages `block` and `level`, the table of colors, and `sort.Slice`. -/
structure Library where
  Block : Type
  FromID : String → Option Block
  Unmarshal : List UInt8 → Block → Except String Block
  ToStateID : Block → StateID
  StateList : StateID → Block
  kind : Block → BlockKind
  /-- A palette container, by its method `Get`. -/
  NewStatesPaletteContainerWithData : Nat → List UInt64 → List StateID → Nat → StateID
  colors : StateID → Color64
  slice : SliceSort

variable (lib : Library)

def isAirState (s : StateID) : Bool :=
  match lib.kind (lib.StateList s) with
  | .Air | .CaveAir | .VoidAir => true
  | _ => false

/-- The lookup that both decoders begin with. -/
def blockOf (name : String) : Option lib.Block :=
  match lib.FromID name with
  | some b => some b
  | none => lib.FromID ("minecraft:" ++ name)

/-- An entry of a palette with its properties. -/
def blockState (v : BlockState) : Option StateID :=
  match blockOf lib v.Name with
  | none => none
  | some b =>
      match v.Properties with
      | none => some (lib.ToStateID b)
      | some data =>
          match lib.Unmarshal data b with
          | .error _ => none
          | .ok b => some (lib.ToStateID b)

/-- An entry of a palette by its name. -/
def blockID (v : BlockState) : Option StateID := (blockOf lib v.Name).map lib.ToStateID

/-- `prepareSectionBlockstates`. -/
def prepareSectionBlockstates (s : Section) : Option (Nat → StateID) :=
  (s.Palette.mapM (blockState lib)).map
    (lib.NewStatesPaletteContainerWithData (16 * 16 * 16) s.Data)

/-- `prepareSectionBlockIDs`. -/
def prepareSectionBlockIDs (s : Section) : Option (Nat → StateID) :=
  (s.Palette.mapM (blockID lib)).map
    (lib.NewStatesPaletteContainerWithData (16 * 16 * 16) s.Data)

/-- The comparison by which the painters sort sections. -/
def sectionLess (a b : Section) : Bool := decide (b.Y < a.Y)

/-- The sections of a chunk after `sort.Slice`, from the top down. -/
def sortedSections (chunk : Chunk) : List Section := lib.slice.sort sectionLess chunk.Sections

/-- The values of a loop from `n - 1` down to 0. -/
def downFrom (n : Nat) : List Nat := (List.range n).reverse

/-- The loop over the sections: those without data and those with a broken palette are left
out. -/
def eachSection {State : Type} (prepare : Section → Option (Nat → StateID))
    (body : State → Section → (Nat → StateID) → State) : State → List Section → State
  | state, [] => state
  | state, s :: rest =>
      if s.Data.length = 0 then eachSection prepare body state rest
      else
        match prepare s with
        | none => eachSection prepare body state rest
        | some states => eachSection prepare body (body state s states) rest

/-! ### The blocks of a column -/

/-- The blocks of one section in column `i`, from the top down, with their heights. -/
def sectionColumn (s : Section) (states : Nat → StateID) (i : Nat) : List (Int × StateID) :=
  (downFrom 16).map fun (y : Nat) => (s.Y.toInt * 16 + y, states (y * 16 * 16 + i))

/-- The blocks of column `i` that the loops come across. -/
def column (prepare : Section → Option (Nat → StateID)) (i : Nat) :
    List Section → List (Int × StateID)
  | [] => []
  | s :: rest =>
      if s.Data.length = 0 then column prepare i rest
      else
        match prepare s with
        | none => column prepare i rest
        | some states => sectionColumn s states i ++ column prepare i rest

theorem mem_downFrom {n y : Nat} : y ∈ downFrom n ↔ y < n := by
  simp [downFrom]

theorem nodup_downFrom (n : Nat) : (downFrom n).Nodup :=
  List.nodup_reverse.mpr List.nodup_range

/-- A row of blocks, worked at from the last column to the first. -/
theorem acts_row {State Part : Type} {inv : State → Prop} {view : State → Nat → Part}
    {step : State → Nat → State} {work : Nat → Part → Part}
    (acts : ∀ here, here < 256 → Acts inv view (fun state => step state here) fun i part =>
      if i = here then work i part else part) :
    Acts inv view (fun state => (downFrom 256).foldl step state) fun i part =>
      if i < 256 then work i part else part := by
  have loop := Acts.places (nodup_downFrom 256) fun here member =>
    acts here (mem_downFrom.mp member)
  simpa only [mem_downFrom] using loop

/-- A painter whose rows make of each column what one block makes of it makes of the column
what its blocks make of it, one after the other. -/
theorem acts_eachSection {State Part : Type} {inv : State → Prop} {view : State → Nat → Part}
    (prepare : Section → Option (Nat → StateID))
    {row : Section → (Nat → StateID) → State → Nat → State} {here : Part → Int × StateID → Part}
    (acts : ∀ s states y, Acts inv view (fun state => row s states state y) fun i part =>
      if i < 256 then here part (s.Y.toInt * 16 + y, states (y * 16 * 16 + i)) else part)
    (sections : List Section) :
    Acts inv view (fun state => eachSection prepare
        (fun state s states => (downFrom 16).foldl (row s states) state) state sections)
      fun i part => if i < 256 then (column prepare i sections).foldl here part else part := by
  induction sections with
  | nil => exact ⟨fun holds => holds, fun _ _ i => (ite_self _).symm⟩
  | cons s rest inductionHypothesis =>
      unfold eachSection column
      split
      · exact inductionHypothesis
      · split
        · exact inductionHypothesis
        · rename_i states _
          have rows := Acts.foldl (downFrom 16) fun y _ => acts s states y
          refine ⟨fun holds => inductionHypothesis.kept (rows.kept holds),
            fun state holds i => ?_⟩
          rw [inductionHypothesis.part _ (rows.kept holds) i, rows.part state holds i]
          by_cases inside : i < 256
          · simp only [if_pos inside, List.foldl_append, sectionColumn, List.foldl_map]
          · simp only [if_neg inside, List.foldl_fixed]

theorem mem_sectionColumn {s : Section} {states : Nat → StateID} {i : Nat} {b : Int × StateID} :
    b ∈ sectionColumn s states i ↔
      ∃ y : Nat, y < 16 ∧ b = (s.Y.toInt * 16 + y, states (y * 16 * 16 + i)) := by
  rw [sectionColumn, List.mem_map]
  exact exists_congr fun y => and_congr mem_downFrom eq_comm

theorem mem_column {prepare : Section → Option (Nat → StateID)} {i : Nat}
    {sections : List Section} {b : Int × StateID} :
    b ∈ column prepare i sections ↔ ∃ s ∈ sections, s.Data ≠ [] ∧
      ∃ states, prepare s = some states ∧ b ∈ sectionColumn s states i := by
  induction sections with
  | nil => simp [column]
  | cons s rest inductionHypothesis =>
      unfold column
      split
      · rename_i noData
        simp [inductionHypothesis, List.length_eq_zero_iff.mp noData]
      · rename_i data
        have someData : s.Data ≠ [] := fun none_ => data (by rw [none_]; rfl)
        split
        · rename_i broken
          simp [inductionHypothesis, broken]
        · rename_i states resolved
          simp [inductionHypothesis, resolved, someData]

/-- Down a section, the heights fall. -/
theorem pairwise_sectionColumn (s : Section) (states : Nat → StateID) (i : Nat) :
    (sectionColumn s states i).Pairwise fun a b => b.1 < a.1 := by
  rw [sectionColumn, List.pairwise_map, downFrom, List.pairwise_reverse]
  refine List.pairwise_lt_range.imp fun lower => ?_
  dsimp only
  omega

/-- Down sections of falling heights, the heights fall. -/
theorem pairwise_column (prepare : Section → Option (Nat → StateID)) (i : Nat)
    {sections : List Section} (falling : sections.Pairwise fun a b => b.Y.toInt < a.Y.toInt) :
    (column prepare i sections).Pairwise fun a b => b.1 < a.1 := by
  induction sections with
  | nil => exact .nil
  | cons s rest inductionHypothesis =>
      obtain ⟨below, falling⟩ := List.pairwise_cons.mp falling
      have later := inductionHypothesis falling
      unfold column
      split
      · exact later
      · split
        · exact later
        · rename_i states _
          refine List.pairwise_append.mpr ⟨pairwise_sectionColumn s states i, later, ?_⟩
          intro a first b second
          obtain ⟨y, _, rfl⟩ := mem_sectionColumn.mp first
          obtain ⟨t, member, _, states', _, second⟩ := mem_column.mp second
          obtain ⟨y', row, rfl⟩ := mem_sectionColumn.mp second
          have lower := below t member
          dsimp only
          omega

/-! ### Sorted sections -/

theorem sectionLess_strictWeak : StrictWeak sectionLess where
  asymm a b less := by
    simp only [sectionLess, decide_eq_true_eq, decide_eq_false_iff_not, Int8.lt_iff_toInt_lt] at *
    omega
  trans a b c second third := by
    simp only [sectionLess, decide_eq_false_iff_not, Int8.lt_iff_toInt_lt] at *
    omega

theorem sortedSections_perm (chunk : Chunk) :
    (sortedSections lib chunk).Perm chunk.Sections :=
  lib.slice.perm sectionLess chunk.Sections

theorem mem_sortedSections {chunk : Chunk} {s : Section} :
    s ∈ sortedSections lib chunk ↔ s ∈ chunk.Sections :=
  (sortedSections_perm lib chunk).mem_iff

/-- Sections of distinct heights are sorted from the top down. -/
theorem pairwise_sortedSections {chunk : Chunk} (distinct : (chunk.Sections.map Section.Y).Nodup) :
    (sortedSections lib chunk).Pairwise fun a b => b.Y.toInt < a.Y.toInt := by
  have sorted := lib.slice.sorted sectionLess_strictWeak chunk.Sections
  have once : (lib.slice.sort sectionLess chunk.Sections).Pairwise fun a b => a.Y ≠ b.Y := by
    rw [← List.pairwise_map (f := Section.Y)]
    exact ((sortedSections_perm lib chunk).map Section.Y).nodup_iff.mpr distinct
  refine (sorted.and once).imp fun {a b} both => ?_
  obtain ⟨notLess, different⟩ := both
  have apart : a.Y.toInt ≠ b.Y.toInt := fun same => different (Int8.toInt_inj.mp same)
  simp only [sectionLess, decide_eq_false_iff_not, Int8.lt_iff_toInt_lt] at notLess
  omega

/-- Three blocks, whose states are packed as in sections of at most 16 of them. -/
def sampleLibrary : Library where
  Block := Nat
  FromID name :=
    if name = "minecraft:air" then some 0
    else if name = "minecraft:stone" then some 1
    else if name = "minecraft:water" then some 2
    else none
  Unmarshal _ b := .ok b
  ToStateID b := b
  StateList s := s
  kind b := if b = 0 then .Air else if b = 2 then .Water else .other
  NewStatesPaletteContainerWithData _ data palette j :=
    if data = [] then palette.getD 0 0
    else palette.getD ((data.getD (j / 16) 0 >>> (4 * (j % 16)).toUInt64) &&& 15).toNat 0
  colors s := ⟨1000 * s.toUInt16, 2000, 3000, 65535⟩
  slice := .insertion

/-- A section below the origin and one above it, in the wrong order. -/
def sampleChunk : Chunk :=
  ⟨[⟨-1, [⟨"minecraft:air", none⟩, ⟨"stone", none⟩], [17]⟩,
    ⟨0, [⟨"minecraft:air", none⟩, ⟨"minecraft:water", some [0]⟩], [16]⟩]⟩

end WebChunk.Terrain
