import Mathlib.Algebra.GroupWithZero.Nat
import WebChunk.Terrain.Colors
import WebChunk.Terrain.HeightPicture
import WebChunk.Terrain.Xray

/-!
# Sections of a single block

A section of a single block is stored with one palette entry and without data. The painters
leave out sections without data, so such a section is drawn only if it is written out.
-/

namespace WebChunk.Terrain

open WebChunk.Go WebChunk.Semantics

variable (lib : Library)

/-- The section consists of a single block. -/
structure IsUniform (s : Section) : Prop where
  single : ∃ v, s.Palette = [v]
  noData : s.Data = []

/-- A data array from which a container decodes the single entry of its palette everywhere, as it
does without one. -/
structure WritesOut (data : List UInt64) : Prop where
  nonempty : data ≠ []
  decodes : ∀ (state : StateID) (j : Nat), j < 16 * 16 * 16 →
    lib.NewStatesPaletteContainerWithData (16 * 16 * 16) data [state] j = state
  decodesNone : ∀ (state : StateID) (j : Nat), j < 16 * 16 * 16 →
    lib.NewStatesPaletteContainerWithData (16 * 16 * 16) [] [state] j = state

/-- A section of a chunk, with a data array if it is one of those to be written out. -/
abbrev Part := Section × Option (List UInt64)

/-- The section, written out if it is to be. -/
def written (p : Part) : Section :=
  match p.2 with
  | some data => { p.1 with Data := data }
  | none => p.1

/-- Only sections of a single block are to be written out. -/
def Uniform (parts : List Part) : Prop :=
  ∀ p ∈ parts, ∀ data, p.2 = some data → IsUniform p.1 ∧ WritesOut lib data

def stored (parts : List Part) : Chunk := ⟨parts.map Prod.fst⟩

def writtenOut (parts : List Part) : Chunk := ⟨parts.map written⟩

/-- The four functions make the same of two chunks. -/
structure DrawnAlike (c c' : Chunk) : Prop where
  heightmap : genHeightmap lib c = genHeightmap lib c'
  picture : drawChunk lib (some c) = drawChunk lib (some c')
  heightPicture : drawChunkHeightmap lib c = drawChunkHeightmap lib c'
  xray : drawChunkXray lib c = drawChunkXray lib c'

/-- The parts from the top down. -/
def sortedParts (parts : List Part) : List Part :=
  lib.slice.sort (fun p q => sectionLess p.1 q.1) parts

/-- Both decoders, by the lookup of one entry. -/
def prepareWith (entry : BlockState → Option StateID) (s : Section) : Option (Nat → StateID) :=
  (s.Palette.mapM entry).map (lib.NewStatesPaletteContainerWithData (16 * 16 * 16) s.Data)

/-- The section is drawn as it is stored. -/
def isDrawn (p : Part) : Bool := !p.1.Data.isEmpty

/-- The section is to be written out. -/
def isChosen (p : Part) : Bool := p.2.isSome

/-- The section is drawn when the others are written out. -/
def isCounted (p : Part) : Bool := isDrawn p || isChosen p

section Blocks

variable (entry : BlockState → Option StateID) (i : Nat)

/-- The blocks of a section in column `i`, if its palette can be resolved. -/
def blocksOf (p : Part) : List (Int × StateID) :=
  match prepareWith lib entry p.1 with
  | none => []
  | some states => sectionColumn p.1 states i

/-- The blocks of column `i` in some of the sections. -/
def columnOf (keep : Part → Bool) (parts : List Part) : List (Int × StateID) :=
  (parts.filter keep).flatMap (blocksOf lib entry i)

/-- A block of the section in column `i` is not air. -/
def isSolid (p : Part) : Bool := (blocksOf lib entry i p).any fun b => !isAirState lib b.2

/-- The top block of the section in column `i` is not air. -/
def isSolidOnTop (p : Part) : Bool :=
  (blocksOf lib entry i p).head?.any fun b => !isAirState lib b.2

/-- From the first section that is kept and has a block in column `i` that is not air. -/
def fromSolid (keep : Part → Bool) (parts : List Part) : List Part :=
  parts.dropWhile fun p => !(keep p && isSolid lib entry i p)

/-- If the first section with a block in column `i` that is not air is one to be written out, then
the next one that is drawn has such a block on top, and the same height. -/
def HeightKept (same : Int → Int → Prop) (parts : List Part) : Prop :=
  ∀ p below, fromSolid lib entry i isCounted parts = p :: below → isChosen p →
    ∃ q rest, fromSolid lib entry i isDrawn below = q :: rest ∧ isSolidOnTop lib entry i q ∧
      same q.1.Y.toInt p.1.Y.toInt

end Blocks

/-- A block of the section in column `i` is opaque. -/
def hasOpaque (i : Nat) (p : Part) : Bool :=
  (blocksOf lib (blockState lib) i p).any fun b => isOpaque lib b.2

/-- A section that is to be written out, and not of air, has no opaque block above it in column
`i` that is drawn. -/
def InView (i : Nat) (parts : List Part) : Prop :=
  ∃ p ∈ parts.takeWhile (fun q => !(isDrawn q && hasOpaque lib i q)),
    isChosen p ∧ isSolid lib (blockState lib) i p

/-- The visible blocks of column `i` in some of the sections. -/
def visibleOf (i : Nat) (keep : Part → Bool) (parts : List Part) : List StateID :=
  visible lib ((columnOf lib (blockState lib) i keep parts).map Prod.snd)

/-- The pixel to which they blend. -/
def blended (i : Nat) (keep : Part → Bool) (parts : List Part) : Option Color :=
  (paint lib ⟨[], []⟩ (visibleOf lib i keep parts)).map Color64.toColor

/-- If a section to be written out is in view, then no block of column `i` is opaque, or an opaque
one is drawn and the visible blocks blend to the same pixel. -/
def ViewKept (i : Nat) (parts : List Part) : Prop :=
  InView lib i parts →
    (∀ p ∈ parts, isCounted p → hasOpaque lib i p = false) ∨
    (∃ p ∈ parts, isDrawn p ∧ hasOpaque lib i p) ∧
      blended lib i isDrawn parts = blended lib i isCounted parts

/-- The blocks of which the sections consist that are to be written out. -/
def chosenBlocks (parts : List Part) : List StateID :=
  (parts.filter isChosen).filterMap fun p => p.1.Palette.head?.bind (blockState lib)

/-- The sum of one component of the colors of blocks. -/
def colorSum (component : Color64 → UInt16) (states : List StateID) : Nat :=
  (states.map fun state => (component (lib.colors state)).toNat).sum

/-- The upper byte of a mean, of a sum and a count of 64 bits. -/
def meanByte (sum count : Nat) : Nat := sum % 2 ^ 64 / (count % 2 ^ 64) / 256 % 256

/-- Sixteen blocks more for each section that is to be written out do not change the mean color of
column `i`, in bytes. -/
def MeanKept (i : Nat) (parts : List Part) : Prop :=
  let drawn := (columnOf lib (blockState lib) i isDrawn parts).map Prod.snd
  let more := chosenBlocks lib parts
  (drawn.length % 2 ^ 64 = 0 ↔ (drawn.length + 16 * more.length) % 2 ^ 64 = 0) ∧
    ∀ component ∈ [Color64.r, Color64.g, Color64.b],
      meanByte (colorSum lib component drawn) drawn.length =
        meanByte (colorSum lib component drawn + 16 * colorSum lib component more)
          (drawn.length + 16 * more.length)

/-- The sections that are to be written out do not show in column `i`. -/
structure Hidden (parts : List Part) (i : Nat) : Prop where
  height : HeightKept lib (blockID lib) i (· = ·) (sortedParts lib parts)
  heightByte : HeightKept lib (blockState lib) i (fun Y Y' => Y % 16 = Y' % 16)
    (sortedParts lib parts)
  view : ViewKept lib i (sortedParts lib parts)
  mean : MeanKept lib i parts

/-! ### The columns of both chunks -/

theorem written_Y (p : Part) : (written p).Y = p.1.Y := by
  unfold written
  split <;> rfl

/-- Sorting does not see the data. -/
theorem sortedSections_writtenOut (parts : List Part) :
    sortedSections lib (writtenOut parts) = (sortedParts lib parts).map written :=
  lib.slice.natural written
    (fun p q => by simp only [sectionLess, written_Y]) parts

theorem sortedSections_stored (parts : List Part) :
    sortedSections lib (stored parts) = (sortedParts lib parts).map Prod.fst :=
  lib.slice.natural Prod.fst (fun _ _ => rfl) parts

theorem sortedParts_perm (parts : List Part) : (sortedParts lib parts).Perm parts :=
  lib.slice.perm _ parts

theorem isCounted_of_chosen {p : Part} (chosen : isChosen p) : isCounted p := by
  rw [isCounted, chosen, Bool.or_true]

theorem isCounted_of_not_chosen {p : Part} (stays : isChosen p = false) :
    isCounted p = isDrawn p := by
  rw [isCounted, stays, Bool.or_false]

section Columns

variable (entry : BlockState → Option StateID) (i : Nat)

theorem columnOf_cons (keep : Part → Bool) (p : Part) (rest : List Part) :
    columnOf lib entry i keep (p :: rest) =
      (if keep p then blocksOf lib entry i p else []) ++ columnOf lib entry i keep rest := by
  unfold columnOf
  cases kept : keep p <;> simp [kept]

theorem columnOf_perm (keep : Part → Bool) {parts parts' : List Part}
    (same : parts.Perm parts') :
    (columnOf lib entry i keep parts).Perm (columnOf lib entry i keep parts') :=
  (same.filter keep).flatMap_right _

theorem column_fst (parts : List Part) :
    column (prepareWith lib entry) i (parts.map Prod.fst) =
      columnOf lib entry i isDrawn parts := by
  induction parts with
  | nil => rfl
  | cons p rest inductionHypothesis =>
      rw [List.map_cons, columnOf_cons, column, inductionHypothesis, blocksOf, isDrawn]
      cases p.1.Data with
      | nil => rfl
      | cons word data => cases prepareWith lib entry p.1 <;> rfl

end Columns

variable {lib}

theorem Uniform.tail {p : Part} {rest : List Part} (uniform : Uniform lib (p :: rest)) :
    Uniform lib rest :=
  fun q member => uniform q (List.mem_cons_of_mem p member)

theorem Uniform.sorted {parts : List Part} (uniform : Uniform lib parts) :
    Uniform lib (sortedParts lib parts) :=
  fun p member => uniform p ((sortedParts_perm lib parts).mem_iff.mp member)

/-- A section that is to be written out has no data. -/
theorem Uniform.isDrawn_eq_false {p : Part} {rest : List Part} (uniform : Uniform lib (p :: rest))
    (chosen : isChosen p) : isDrawn p = false := by
  obtain ⟨data, there⟩ := Option.isSome_iff_exists.mp chosen
  have empty := (uniform p List.mem_cons_self data there).1.noData
  simp [isDrawn, empty]

/-- The blocks that a container has in a section of a single block. -/
theorem sectionColumn_single {s : Section} {states : Nat → StateID} {state : StateID} {i : Nat}
    (inside : i < 256) (single : ∀ j, j < 16 * 16 * 16 → states j = state) :
    sectionColumn s states i = (downFrom 16).map fun (y : Nat) => (s.Y.toInt * 16 + y, state) := by
  refine List.map_congr_left fun y member => ?_
  have row := mem_downFrom.mp member
  rw [single _ (by omega)]

/-- A section that is to be written out consists of one block, if this can be resolved. -/
theorem Uniform.blocksOf_eq {entry : BlockState → Option StateID} {p : Part} {rest : List Part}
    (uniform : Uniform lib (p :: rest)) (chosen : isChosen p) {i : Nat} (inside : i < 256) :
    blocksOf lib entry i p = match p.1.Palette.head?.bind entry with
      | none => []
      | some state => (downFrom 16).map fun (y : Nat) => (p.1.Y.toInt * 16 + y, state) := by
  obtain ⟨data, there⟩ := Option.isSome_iff_exists.mp chosen
  obtain ⟨⟨⟨v, palette⟩, empty⟩, writes⟩ := uniform p List.mem_cons_self data there
  unfold blocksOf prepareWith
  rw [palette, empty, List.head?_cons, Option.bind_some]
  cases found : entry v with
  | none => simp [found]
  | some state =>
      simp only [List.mapM_cons, List.mapM_nil, found]
      exact sectionColumn_single inside (writes.decodesNone state)

theorem column_written {entry : BlockState → Option StateID} {parts : List Part}
    (uniform : Uniform lib parts) {i : Nat} (inside : i < 256) :
    column (prepareWith lib entry) i (parts.map written) =
      columnOf lib entry i isCounted parts := by
  induction parts with
  | nil => rfl
  | cons p rest inductionHypothesis =>
      rw [List.map_cons, columnOf_cons, column, inductionHypothesis uniform.tail]
      cases there : p.2 with
      | none =>
          have same : written p = p.1 := by rw [written, there]
          have stays : isChosen p = false := by simp [isChosen, there]
          rw [same, isCounted_of_not_chosen stays, blocksOf, isDrawn]
          cases p.1.Data with
          | nil => rfl
          | cons word data => cases prepareWith lib entry p.1 <;> rfl
      | some data =>
          have chosen : isChosen p := by simp [isChosen, there]
          obtain ⟨⟨⟨v, palette⟩, empty⟩, writes⟩ := uniform p List.mem_cons_self data there
          have out : written p = { p.1 with Data := data } := by rw [written, there]
          have some_ : ¬ data.length = 0 := fun none_ =>
            writes.nonempty (List.length_eq_zero_iff.mp none_)
          rw [if_pos (isCounted_of_chosen chosen), uniform.blocksOf_eq chosen inside, out]
          dsimp only
          rw [if_neg some_, prepareWith, palette, List.head?_cons, Option.bind_some]
          cases found : entry v with
          | none => simp [found]
          | some state =>
              simp only [List.mapM_cons, List.mapM_nil, found]
              refine congrArg (· ++ _) ?_
              exact sectionColumn_single (s := { p.1 with Data := data }) inside
                (writes.decodes state)

theorem column_stored (parts : List Part) (entry : BlockState → Option StateID) (i : Nat) :
    column (prepareWith lib entry) i (sortedSections lib (stored parts)) =
      columnOf lib entry i isDrawn (sortedParts lib parts) := by
  rw [sortedSections_stored, column_fst]

theorem column_writtenOut {parts : List Part} (uniform : Uniform lib parts) {i : Nat}
    (inside : i < 256) (entry : BlockState → Option StateID) :
    column (prepareWith lib entry) i (sortedSections lib (writtenOut parts)) =
      columnOf lib entry i isCounted (sortedParts lib parts) := by
  rw [sortedSections_writtenOut, column_written uniform.sorted inside]

/-! ### Heights -/

section Heights

variable {entry : BlockState → Option StateID} {i : Nat}

theorem surface_append (above below : List (Int × StateID)) :
    surface lib (above ++ below) = (surface lib above).or (surface lib below) := by
  rw [surface, surface, surface, List.find?_append]
  cases above.find? fun b => !isAirState lib b.2 <;> rfl

theorem surface_eq_none_iff {p : Part} :
    surface lib (blocksOf lib entry i p) = none ↔ isSolid lib entry i p = false := by
  rw [surface, Option.map_eq_none_iff, List.find?_eq_none, isSolid, List.any_eq_false]

/-- The first block of a section that is not air. -/
theorem surface_of_isSolid {p : Part} (solid : isSolid lib entry i p) :
    ∃ y : Nat, y < 16 ∧ surface lib (blocksOf lib entry i p) = some (p.1.Y.toInt * 16 + y) ∧
      (y = 15 ↔ isSolidOnTop lib entry i p) := by
  cases resolved : prepareWith lib entry p.1 with
  | none =>
      rw [isSolid, blocksOf, resolved] at solid
      cases solid
  | some states =>
      have rows : downFrom 16 = 15 :: downFrom 15 := rfl
      have blocks : blocksOf lib entry i p = (p.1.Y.toInt * 16 + (15 : Nat),
          states (15 * 16 * 16 + i)) :: (downFrom 15).map fun (y : Nat) =>
            (p.1.Y.toInt * 16 + y, states (y * 16 * 16 + i)) := by
        rw [blocksOf, resolved]
        exact congrArg (List.map _) rows
      rw [isSolid, blocks, List.any_cons] at solid
      rw [isSolidOnTop, blocks, List.head?_cons, Option.any_some]
      cases air : isAirState lib (states (15 * 16 * 16 + i)) with
      | false => exact ⟨15, by omega, by simp [surface, air], by simp⟩
      | true =>
          obtain ⟨b, member, notAir⟩ := List.any_eq_true.mp (by
            simpa only [air, Bool.not_true, Bool.false_or] using solid)
          cases found : surface lib ((downFrom 15).map fun (y : Nat) =>
              (p.1.Y.toInt * 16 + y, states (y * 16 * 16 + i))) with
          | none =>
              rw [surface, Option.map_eq_none_iff, List.find?_eq_none] at found
              exact absurd notAir (found _ member)
          | some h =>
              obtain ⟨c, first, rfl⟩ := Option.map_eq_some_iff.mp found
              obtain ⟨z, low, rfl⟩ := List.mem_map.mp (List.mem_of_find?_eq_some first)
              have bound := mem_downFrom.mp low
              refine ⟨z, by omega, ?_, by simp; omega⟩
              rw [← found]
              simp [surface, air]

/-- A section that is to be written out has its first block on top. -/
theorem Uniform.surface_eq {p : Part} {rest : List Part} (uniform : Uniform lib (p :: rest))
    (chosen : isChosen p) (inside : i < 256) (solid : isSolid lib entry i p) :
    surface lib (blocksOf lib entry i p) = some (p.1.Y.toInt * 16 + 15) := by
  have blocks : blocksOf lib entry i p = _ := uniform.blocksOf_eq chosen inside
  cases found : p.1.Palette.head?.bind entry with
  | none =>
      rw [isSolid, blocks, found] at solid
      cases solid
  | some state =>
      have rows : downFrom 16 = 15 :: downFrom 15 := rfl
      rw [found] at blocks
      dsimp only at blocks
      rw [isSolid, blocks] at solid
      obtain ⟨b, member, notAir⟩ := List.any_eq_true.mp solid
      obtain ⟨y, _, rfl⟩ := List.mem_map.mp member
      have notAir : isAirState lib state = false := by simpa using notAir
      rw [blocks, rows, List.map_cons]
      simp [surface, notAir]

theorem fromSolid_cons (keep : Part → Bool) (p : Part) (rest : List Part) :
    fromSolid lib entry i keep (p :: rest) =
      if keep p && isSolid lib entry i p then p :: rest else fromSolid lib entry i keep rest := by
  rw [fromSolid, List.dropWhile_cons]
  cases keep p && isSolid lib entry i p <;> rfl

/-- A section of air is passed over. -/
theorem surface_columnOf_of_air {keep : Part → Bool} {p : Part} {rest : List Part}
    (air : isSolid lib entry i p = false) :
    surface lib (columnOf lib entry i keep (p :: rest)) =
      surface lib (columnOf lib entry i keep rest) := by
  rw [columnOf_cons, surface_append]
  cases keep p with
  | false => rfl
  | true => rw [if_pos rfl, surface_eq_none_iff.mpr air, Option.none_or]

/-- The surface of a column is that of the first section with a block that is not air. -/
theorem surface_columnOf (keep : Part → Bool) (parts : List Part) :
    surface lib (columnOf lib entry i keep parts) =
      (fromSolid lib entry i keep parts).head?.bind fun p =>
        surface lib (blocksOf lib entry i p) := by
  induction parts with
  | nil => rfl
  | cons p rest inductionHypothesis =>
      rw [columnOf_cons, surface_append, inductionHypothesis, fromSolid_cons]
      cases keep p with
      | false => rfl
      | true =>
          rw [if_pos rfl, Bool.true_and]
          cases solid : isSolid lib entry i p with
          | false => rw [surface_eq_none_iff.mpr solid, if_neg Bool.false_ne_true, Option.none_or]
          | true =>
              obtain ⟨y, _, found, -⟩ := surface_of_isSolid solid
              rw [if_pos rfl, List.head?_cons, Option.bind_some, found, Option.some_or]

theorem isSolid_of_fromSolid {keep : Part → Bool} {parts rest : List Part} {p : Part}
    (first : fromSolid lib entry i keep parts = p :: rest) : isSolid lib entry i p := by
  have found := List.head?_dropWhile_not
    (fun p => !(keep p && isSolid lib entry i p)) parts
  unfold fromSolid at first
  rw [first, List.head?_cons] at found
  simpa using (Bool.and_eq_true_iff.mp (by simpa using found)).2

/-- What is read off the surface tells apart whether it is missing, on top of a section, or below
the top. -/
structure ReadsTop {Value : Type} (value : Option Int → Value) (same : Int → Int → Prop) :
    Prop where
  missing : ∀ Y : Int, value none ≠ value (some (Y * 16 + 15))
  found : ∀ (Y Y' : Int) (y : Nat), y < 16 →
    (value (some (Y' * 16 + y)) = value (some (Y * 16 + 15)) ↔ y = 15 ∧ same Y' Y)

/-- The surface of a section that is to be written out is the same as that below it. -/
theorem reads_chosen_iff {Value : Type} {value : Option Int → Value} {same : Int → Int → Prop}
    (reads : ReadsTop value same) {p : Part} {rest : List Part}
    (uniform : Uniform lib (p :: rest)) (inside : i < 256) (chosen : isChosen p)
    (solid : isSolid lib entry i p) :
    value (surface lib (columnOf lib entry i isDrawn (p :: rest))) =
        value (surface lib (columnOf lib entry i isCounted (p :: rest))) ↔
      ∃ q below, fromSolid lib entry i isDrawn rest = q :: below ∧ isSolidOnTop lib entry i q ∧
        same q.1.Y.toInt p.1.Y.toInt := by
  have top := uniform.surface_eq chosen inside solid
  rw [columnOf_cons, columnOf_cons, uniform.isDrawn_eq_false chosen, isCounted_of_chosen chosen,
    if_neg Bool.false_ne_true, if_pos rfl, List.nil_append, surface_append, top, Option.some_or,
    surface_columnOf]
  cases first : fromSolid lib entry i isDrawn rest with
  | nil =>
      refine iff_of_false (reads.missing _) ?_
      rintro ⟨q, below, found, -⟩
      cases found
  | cons q below =>
      obtain ⟨y, low, found, onTop⟩ := surface_of_isSolid (isSolid_of_fromSolid first)
      rw [List.head?_cons, Option.bind_some, found, reads.found _ _ y low, onTop]
      constructor
      · exact fun kept => ⟨q, below, rfl, kept⟩
      · rintro ⟨q', below', found', kept⟩
        cases found'
        exact kept

theorem heightKept_iff {Value : Type} {value : Option Int → Value} {same : Int → Int → Prop}
    (reads : ReadsTop value same) {parts : List Part} (uniform : Uniform lib parts)
    (inside : i < 256) :
    value (surface lib (columnOf lib entry i isDrawn parts)) =
        value (surface lib (columnOf lib entry i isCounted parts)) ↔
      HeightKept lib entry i same parts := by
  unfold HeightKept
  induction parts with
  | nil => exact iff_of_true rfl fun p below first => by cases first
  | cons p rest inductionHypothesis =>
      have later := inductionHypothesis uniform.tail
      rw [fromSolid_cons]
      cases solid : isSolid lib entry i p with
      | false =>
          rw [Bool.and_false, if_neg Bool.false_ne_true, ← later, surface_columnOf_of_air solid,
            surface_columnOf_of_air solid]
      | true =>
          cases chosen : isChosen p with
          | false =>
              rw [columnOf_cons, columnOf_cons, isCounted_of_not_chosen chosen]
              cases isDrawn p with
              | false => simpa using later
              | true =>
                  obtain ⟨y, _, found, -⟩ := surface_of_isSolid solid
                  refine iff_of_true ?_ fun q below first again => ?_
                  · rw [if_pos rfl, surface_append, surface_append, found]
                    rfl
                  · cases first
                    rw [chosen] at again
                    cases again
          | true =>
              rw [reads_chosen_iff reads uniform inside chosen solid, isCounted_of_chosen chosen,
                Bool.and_true, if_pos rfl]
              constructor
              · intro kept q below first _
                cases first
                exact kept
              · exact fun kept => kept p rest rfl chosen

theorem readsTop_getD : ReadsTop (fun h : Option Int => h.getD 0) (· = ·) where
  missing Y := by
    simp only [Option.getD_none, Option.getD_some]
    omega
  found Y Y' y low := by
    simp only [Option.getD_some]
    omega

theorem readsTop_byte :
    ReadsTop (fun h : Option Int => h.map (· % 256)) fun Y Y' => Y % 16 = Y' % 16 where
  missing Y := by simp
  found Y Y' y low := by
    simp only [Option.map_some, Option.some.injEq]
    omega

end Heights

/-! ### What is in view -/

section View

variable {i : Nat}

theorem visible_append_of_opaque {above : List StateID} (below : List StateID)
    (found : above.any (isOpaque lib)) : visible lib (above ++ below) = visible lib above := by
  induction above with
  | nil => cases found
  | cons state rest inductionHypothesis =>
      rw [List.any_cons, Bool.or_eq_true] at found
      rw [List.cons_append, visible, visible]
      cases opaque_ : isOpaque lib state with
      | true =>
          rw [isAirState_of_isOpaque lib opaque_]
          rfl
      | false => rw [inductionHypothesis (found.resolve_left (by simp [opaque_]))]

theorem visible_append {above : List StateID} (below : List StateID)
    (noOpaque : above.any (isOpaque lib) = false) :
    visible lib (above ++ below) = visible lib above ++ visible lib below := by
  induction above with
  | nil => rfl
  | cons state rest inductionHypothesis =>
      rw [List.any_cons, Bool.or_eq_false_iff] at noOpaque
      rw [List.cons_append, visible, visible, inductionHypothesis noOpaque.2, noOpaque.1]
      split <;> rfl

theorem visible_of_air {states : List StateID} (air : states.any (fun s => !isAirState lib s) =
    false) : visible lib states = [] := by
  induction states with
  | nil => rfl
  | cons state rest inductionHypothesis =>
      rw [List.any_cons, Bool.or_eq_false_iff, Bool.not_eq_false'] at air
      rw [visible, if_pos air.1, inductionHypothesis air.2]

theorem hasOpaque_eq (p : Part) :
    hasOpaque lib i p =
      ((blocksOf lib (blockState lib) i p).map Prod.snd).any (isOpaque lib) := by
  rw [List.any_map]
  rfl

theorem isSolid_eq (p : Part) :
    isSolid lib (blockState lib) i p =
      ((blocksOf lib (blockState lib) i p).map Prod.snd).any fun s => !isAirState lib s := by
  rw [List.any_map]
  rfl

theorem visibleOf_cons (keep : Part → Bool) (p : Part) (rest : List Part) :
    visibleOf lib i keep (p :: rest) =
      if keep p then
        if hasOpaque lib i p then visible lib ((blocksOf lib (blockState lib) i p).map Prod.snd)
        else visible lib ((blocksOf lib (blockState lib) i p).map Prod.snd) ++
          visibleOf lib i keep rest
      else visibleOf lib i keep rest := by
  rw [visibleOf, columnOf_cons, List.map_append]
  cases keep p with
  | false => rfl
  | true =>
      rw [if_pos rfl, if_pos rfl]
      cases found : hasOpaque lib i p with
      | true =>
          rw [hasOpaque_eq] at found
          rw [if_pos rfl, visible_append_of_opaque _ found]
      | false =>
          rw [hasOpaque_eq] at found
          rw [if_neg Bool.false_ne_true, visible_append _ found]
          rfl

theorem hasOpaque_of_air {p : Part} (air : isSolid lib (blockState lib) i p = false) :
    hasOpaque lib i p = false := by
  rw [isSolid, List.any_eq_false] at air
  rw [hasOpaque, List.any_eq_false]
  intro b member opaque_
  refine air b member ?_
  rw [isAirState_of_isOpaque lib opaque_]
  rfl

/-- Sections that are not in view hide nothing. -/
theorem visibleOf_eq {parts : List Part} (uniform : Uniform lib parts)
    (hidden : ¬ InView lib i parts) :
    visibleOf lib i isDrawn parts = visibleOf lib i isCounted parts := by
  induction parts with
  | nil => rfl
  | cons p rest inductionHypothesis =>
      rw [visibleOf_cons, visibleOf_cons]
      cases opaque_ : isDrawn p && hasOpaque lib i p with
      | true =>
          -- Nothing below is seen.
          obtain ⟨drawn, found⟩ := Bool.and_eq_true_iff.mp opaque_
          rw [isCounted, drawn, found]
          rfl
      | false =>
          have above : (p :: rest).takeWhile (fun q => !(isDrawn q && hasOpaque lib i q)) =
              p :: rest.takeWhile fun q => !(isDrawn q && hasOpaque lib i q) := by
            rw [List.takeWhile_cons, opaque_]
            rfl
          rw [InView, above] at hidden
          have later := inductionHypothesis uniform.tail fun ⟨q, member, view⟩ =>
            hidden ⟨q, List.mem_cons_of_mem p member, view⟩
          cases chosen : isChosen p with
          | false =>
              rw [isCounted_of_not_chosen chosen, later]
          | true =>
              have air : isSolid lib (blockState lib) i p = false :=
                Bool.eq_false_iff.mpr fun solid => hidden ⟨p, List.mem_cons_self, chosen, solid⟩
              have nothing := visible_of_air ((isSolid_eq p).symm.trans air)
              rw [uniform.isDrawn_eq_false chosen, hasOpaque_of_air air, nothing, later]
              simp

/-- A column is painted if one of its blocks is opaque. -/
theorem blended_eq_none_iff {keep : Part → Bool} {parts : List Part} :
    blended lib i keep parts = none ↔ ∀ p ∈ parts, keep p → hasOpaque lib i p = false := by
  rw [blended, visibleOf, paint_visible, Option.map_eq_none_iff, ← Option.not_isSome_iff_eq_none,
    paint_isSome_iff]
  constructor
  · intro noOpaque p member kept
    rw [hasOpaque, List.any_eq_false]
    exact fun b inside opaque_ => noOpaque ⟨b.2, List.mem_map_of_mem (List.mem_flatMap.mpr
      ⟨p, List.mem_filter.mpr ⟨member, kept⟩, inside⟩), opaque_⟩
  · rintro noOpaque ⟨state, member, opaque_⟩
    obtain ⟨b, inColumn, rfl⟩ := List.mem_map.mp member
    obtain ⟨p, kept, inside⟩ := List.mem_flatMap.mp inColumn
    have none_ := noOpaque p (List.mem_filter.mp kept).1 (List.mem_filter.mp kept).2
    rw [hasOpaque, List.any_eq_false] at none_
    exact none_ b inside opaque_

theorem viewKept_iff {parts : List Part} (uniform : Uniform lib parts) :
    blended lib i isDrawn parts = blended lib i isCounted parts ↔ ViewKept lib i parts := by
  constructor
  · intro same _
    cases painted : blended lib i isCounted parts with
    | none => exact .inl (blended_eq_none_iff.mp painted)
    | some color =>
        refine .inr ⟨by_contra fun noOpaque => ?_, same.trans painted⟩
        have none_ : blended lib i isDrawn parts = none := by
          refine blended_eq_none_iff.mpr fun p member drawn => Bool.eq_false_iff.mpr fun found => ?_
          exact noOpaque ⟨p, member, drawn, found⟩
        rw [same, painted] at none_
        cases none_
  · intro kept
    by_cases view : InView lib i parts
    · rcases kept view with noOpaque | ⟨_, same⟩
      · rw [blended_eq_none_iff.mpr noOpaque, blended_eq_none_iff]
        exact fun p member drawn => noOpaque p member (by simp [isCounted, drawn])
      · exact same
    · rw [blended, blended, visibleOf_eq uniform view]

end View

/-! ### The mean -/

section Mean

variable {i : Nat}

theorem colorSum_append (component : Color64 → UInt16) (above below : List StateID) :
    colorSum lib component (above ++ below) =
      colorSum lib component above + colorSum lib component below := by
  rw [colorSum, List.map_append, List.sum_append]
  rfl

theorem colorSum_perm (component : Color64 → UInt16) {states states' : List StateID}
    (same : states.Perm states') :
    colorSum lib component states = colorSum lib component states' :=
  (same.map _).sum_nat

/-- The sums over the blocks of a column. -/
theorem foldl_xrayHere (blocks : List (Int × StateID)) (out : XrayOutput) :
    blocks.foldl (xrayHere lib) out =
      ⟨out.sR + .ofNat (colorSum lib Color64.r (blocks.map Prod.snd)),
        out.sG + .ofNat (colorSum lib Color64.g (blocks.map Prod.snd)),
        out.sB + .ofNat (colorSum lib Color64.b (blocks.map Prod.snd)),
        out.sA + .ofNat (colorSum lib Color64.a (blocks.map Prod.snd)),
        out.c + .ofNat blocks.length⟩ := by
  induction blocks generalizing out with
  | nil => simp [colorSum]
  | cons b rest inductionHypothesis =>
      have more : ∀ (sum : UInt64) (component : Color64 → UInt16),
          sum + (component (lib.colors b.2)).toUInt64 +
              .ofNat (colorSum lib component (rest.map Prod.snd)) =
            sum + .ofNat (colorSum lib component ((b :: rest).map Prod.snd)) := by
        intro sum component
        rw [colorSum, colorSum, List.map_cons, List.map_cons, List.sum_cons, UInt64.ofNat_add,
          ← UInt64.add_assoc]
        simp
      rw [List.foldl_cons, inductionHypothesis, xrayHere, XrayOutput.add]
      dsimp only
      rw [more, more, more, more, List.length_cons, Nat.add_comm rest.length, UInt64.ofNat_add,
        ← UInt64.add_assoc]
      rfl

theorem upperByte_mean (sum count : Nat) :
    ((UInt64.ofNat sum / UInt64.ofNat count).toUInt16 >>> 8).toUInt8 =
      UInt8.ofNat (meanByte sum count) := by
  refine UInt8.toNat_inj.mp ?_
  simp only [UInt16.toNat_toUInt8, UInt16.toNat_shiftRight, UInt64.toNat_toUInt16,
    UInt64.toNat_div, UInt64.toNat_ofNat', UInt8.toNat_ofNat', meanByte, UInt16.toNat_ofNat,
    Nat.shiftRight_eq_div_pow]
  generalize sum % 2 ^ 64 / (count % 2 ^ 64) = mean
  have eight : 2 ^ (8 % 2 ^ 16 % 16) = 256 := by decide
  rw [eight]
  omega

theorem meanByte_of_count_eq_zero {sum count : Nat} (none_ : count % 2 ^ 64 = 0) :
    meanByte sum count = 0 := by
  rw [meanByte, none_, Nat.div_zero]

theorem meanByte_inj {sum count sum' count' : Nat} :
    UInt8.ofNat (meanByte sum count) = UInt8.ofNat (meanByte sum' count') ↔
      meanByte sum count = meanByte sum' count' := by
  rw [← UInt8.toNat_inj, UInt8.toNat_ofNat', UInt8.toNat_ofNat', meanByte, meanByte]
  omega

/-- The color of the means, if there is something to take the mean of. -/
def meanOf (sum : (Color64 → UInt16) → Nat) (count : Nat) : Option Color :=
  if count % 2 ^ 64 = 0 then none
  else some ⟨.ofNat (meanByte (sum Color64.r) count), .ofNat (meanByte (sum Color64.g) count),
    .ofNat (meanByte (sum Color64.b) count), 255⟩

theorem meanColor_eq (blocks : List (Int × StateID)) :
    (meanColor lib blocks).map Color64.toColor =
      meanOf (fun component => colorSum lib component (blocks.map Prod.snd)) blocks.length := by
  have zero : UInt64.ofNat blocks.length = 0 ↔ blocks.length % 2 ^ 64 = 0 := by
    rw [← UInt64.toNat_inj, UInt64.toNat_ofNat']
    rfl
  rw [meanColor, foldl_xrayHere, XrayOutput.mean, meanOf]
  simp only [UInt64.zero_add]
  by_cases none_ : blocks.length % 2 ^ 64 = 0
  · rw [if_neg (not_not.mpr (zero.mpr none_)), if_pos none_]
    rfl
  · have full : ((65535 : UInt16) >>> 8).toUInt8 = 255 := by decide
    rw [if_pos (mt zero.mp none_), if_neg none_, Option.map_some, Color64.toColor,
      upperByte_mean, upperByte_mean, upperByte_mean]
    exact congrArg (fun alpha => some (Color.mk _ _ _ alpha)) full

theorem meanOf_eq_iff {sum sum' : (Color64 → UInt16) → Nat} {count count' : Nat} :
    meanOf sum count = meanOf sum' count' ↔
      (count % 2 ^ 64 = 0 ↔ count' % 2 ^ 64 = 0) ∧
        ∀ component ∈ [Color64.r, Color64.g, Color64.b],
          meanByte (sum component) count = meanByte (sum' component) count' := by
  unfold meanOf
  by_cases none_ : count % 2 ^ 64 = 0
  · rw [if_pos none_]
    by_cases none' : count' % 2 ^ 64 = 0
    · rw [if_pos none']
      refine iff_of_true rfl ⟨iff_of_true none_ none', fun component _ => ?_⟩
      rw [meanByte_of_count_eq_zero none_, meanByte_of_count_eq_zero none']
    · rw [if_neg none']
      exact iff_of_false (fun same => by cases same) fun kept => none' (kept.1.mp none_)
  · rw [if_neg none_]
    by_cases none' : count' % 2 ^ 64 = 0
    · rw [if_pos none']
      exact iff_of_false (fun same => by cases same) fun kept => none_ (kept.1.mpr none')
    · rw [if_neg none', Option.some.injEq, Color.mk.injEq, meanByte_inj, meanByte_inj,
        meanByte_inj]
      constructor
      · rintro ⟨red, green, blue, -⟩
        refine ⟨iff_of_false none_ none', fun component member => ?_⟩
        rcases List.mem_cons.mp member with rfl | member
        · exact red
        · rcases List.mem_cons.mp member with rfl | member
          · exact green
          · rw [List.mem_singleton.mp member]
            exact blue
      · rintro ⟨-, same⟩
        exact ⟨same _ (.head _), same _ (.tail _ (.head _)),
          same _ (.tail _ (.tail _ (.head _))), rfl⟩

/-- Every section that is to be written out has sixteen blocks more in the column. -/
theorem counted_sums {parts : List Part} (uniform : Uniform lib parts) (inside : i < 256) :
    (columnOf lib (blockState lib) i isCounted parts).length =
        (columnOf lib (blockState lib) i isDrawn parts).length +
          16 * (chosenBlocks lib parts).length ∧
      ∀ component, colorSum lib component
          ((columnOf lib (blockState lib) i isCounted parts).map Prod.snd) =
        colorSum lib component ((columnOf lib (blockState lib) i isDrawn parts).map Prod.snd) +
          16 * colorSum lib component (chosenBlocks lib parts) := by
  induction parts with
  | nil => exact ⟨rfl, fun _ => rfl⟩
  | cons p rest inductionHypothesis =>
      obtain ⟨lengths, sums⟩ := inductionHypothesis uniform.tail
      rw [columnOf_cons, columnOf_cons, chosenBlocks]
      cases chosen : isChosen p with
      | false =>
          rw [isCounted_of_not_chosen chosen, List.filter_cons_of_neg (by simp [chosen])]
          refine ⟨?_, fun component => ?_⟩
          · rw [List.length_append, List.length_append, lengths, Nat.add_assoc]
            rfl
          · rw [List.map_append, List.map_append, colorSum_append, colorSum_append, sums,
              Nat.add_assoc]
            rfl
      | true =>
          rw [uniform.isDrawn_eq_false chosen, isCounted_of_chosen chosen,
            if_neg Bool.false_ne_true, if_pos rfl, List.nil_append,
            List.filter_cons_of_pos chosen, List.filterMap_cons,
            uniform.blocksOf_eq chosen inside]
          cases p.1.Palette.head?.bind (blockState lib) with
          | none => exact ⟨lengths, sums⟩
          | some state =>
              have sixteen : ((downFrom 16).map fun (y : Nat) =>
                  (p.1.Y.toInt * 16 + (y : Int), state)).map Prod.snd =
                    List.replicate 16 state := rfl
              refine ⟨?_, fun component => ?_⟩
              · rw [List.length_append, lengths, List.length_map]
                have rows : (downFrom 16).length = 16 := rfl
                rw [rows, List.length_cons, chosenBlocks]
                omega
              · rw [List.map_append, sixteen, colorSum_append, sums, chosenBlocks, colorSum,
                  List.map_replicate, List.sum_replicate_nat]
                simp only [colorSum, List.map_cons, List.sum_cons]
                omega

theorem meanKept_iff {parts : List Part} (uniform : Uniform lib parts) (inside : i < 256) :
    (meanColor lib (columnOf lib (blockState lib) i isDrawn
        (sortedParts lib parts))).map Color64.toColor =
      (meanColor lib (columnOf lib (blockState lib) i isCounted
        (sortedParts lib parts))).map Color64.toColor ↔ MeanKept lib i parts := by
  obtain ⟨lengths, sums⟩ := counted_sums uniform inside
  have drawn := columnOf_perm lib (blockState lib) i isDrawn (sortedParts_perm lib parts)
  have counted := columnOf_perm lib (blockState lib) i isCounted (sortedParts_perm lib parts)
  rw [meanColor_eq, meanColor_eq, meanOf_eq_iff, drawn.length_eq, counted.length_eq, lengths,
    MeanKept, List.length_map]
  refine and_congr_right fun _ => forall₂_congr fun component _ => ?_
  rw [colorSum_perm _ (drawn.map Prod.snd), colorSum_perm _ (counted.map Prod.snd), sums]

end Mean

/-! ### When they are drawn alike -/

theorem heightColor_eq_iff {h h' : Int} : heightColor h = heightColor h' ↔ h % 256 = h' % 256 := by
  constructor
  · intro same
    have bytes := congrArg (fun c => (Color.r c).toNat) same
    simp only [heightColor, UInt8.toNat_ofNat'] at bytes
    omega
  · intro same
    rw [heightColor, heightColor, same]

theorem map_heightColor_eq_iff {a b : Option Int} :
    a.map heightColor = b.map heightColor ↔ a.map (· % 256) = b.map (· % 256) := by
  cases a <;> cases b <;> simp [heightColor_eq_iff]

section Functions

variable {parts : List Part} (uniform : Uniform lib parts)

include uniform

theorem genHeightmap_written_iff :
    genHeightmap lib (stored parts) = genHeightmap lib (writtenOut parts) ↔
      ∀ i, i < 256 → HeightKept lib (blockID lib) i (· = ·) (sortedParts lib parts) := by
  rw [genHeightmap_eq, genHeightmap_eq, List.map_inj_left]
  simp only [List.mem_range]
  refine forall₂_congr fun i inside => ?_
  rw [← heightKept_iff readsTop_getD uniform.sorted inside, ← column_stored,
    ← column_writtenOut uniform inside]
  rfl

theorem drawChunkHeightmap_written_iff :
    drawChunkHeightmap lib (stored parts) = drawChunkHeightmap lib (writtenOut parts) ↔
      ∀ i, i < 256 → HeightKept lib (blockState lib) i (fun Y Y' => Y % 16 = Y' % 16)
        (sortedParts lib parts) := by
  rw [(shows_drawChunkHeightmap lib _).eq_iff (shows_drawChunkHeightmap lib _)]
  refine forall₂_congr fun i inside => ?_
  rw [← heightKept_iff readsTop_byte uniform.sorted inside, ← column_stored,
    ← column_writtenOut uniform inside]
  exact map_heightColor_eq_iff

theorem drawChunk_written_iff :
    drawChunk lib (some (stored parts)) = drawChunk lib (some (writtenOut parts)) ↔
      ∀ i, i < 256 → ViewKept lib i (sortedParts lib parts) := by
  rw [(shows_drawChunk lib _).eq_iff (shows_drawChunk lib _)]
  refine forall₂_congr fun i inside => ?_
  rw [← viewKept_iff uniform.sorted, blended, blended, visibleOf, visibleOf, paint_visible,
    paint_visible, ← column_stored, ← column_writtenOut uniform inside]
  rfl

theorem drawChunkXray_written_iff :
    drawChunkXray lib (stored parts) = drawChunkXray lib (writtenOut parts) ↔
      ∀ i, i < 256 → MeanKept lib i parts := by
  rw [(shows_drawChunkXray lib _).eq_iff (shows_drawChunkXray lib _)]
  refine forall₂_congr fun i inside => ?_
  rw [← meanKept_iff uniform inside, ← column_stored, ← column_writtenOut uniform inside]
  rfl

end Functions

theorem columnOf_unknown {entry : BlockState → Option StateID} {parts : List Part}
    (uniform : Uniform lib parts)
    (unknown : ∀ p ∈ parts, isChosen p → p.1.Palette.head?.bind entry = none) {i : Nat}
    (inside : i < 256) :
    columnOf lib entry i isDrawn parts = columnOf lib entry i isCounted parts := by
  induction parts with
  | nil => rfl
  | cons p rest inductionHypothesis =>
      rw [columnOf_cons, columnOf_cons, inductionHypothesis uniform.tail fun q member =>
        unknown q (List.mem_cons_of_mem p member)]
      cases chosen : isChosen p with
      | false => rw [isCounted_of_not_chosen chosen]
      | true =>
          have nothing : blocksOf lib entry i p = [] := by
            rw [uniform.blocksOf_eq chosen inside, unknown p List.mem_cons_self chosen]
          rw [nothing, ite_self, ite_self]

/-- Sections whose block is not known are not drawn in either form. -/
theorem drawnAlike_of_unknown {parts : List Part} (uniform : Uniform lib parts)
    (unknown : ∀ p ∈ parts, isChosen p → p.1.Palette.head?.bind (blockID lib) = none) :
    DrawnAlike lib (stored parts) (writtenOut parts) := by
  have unknownID : ∀ p ∈ sortedParts lib parts, isChosen p →
      p.1.Palette.head?.bind (blockID lib) = none :=
    fun p member => unknown p ((sortedParts_perm lib parts).mem_iff.mp member)
  have unknownState : ∀ p ∈ sortedParts lib parts, isChosen p →
      p.1.Palette.head?.bind (blockState lib) = none := by
    intro p member chosen
    have none_ := unknownID p member chosen
    rw [Option.bind_eq_none_iff] at none_ ⊢
    intro v first
    rw [blockState, Option.map_eq_none_iff.mp (none_ v first)]
  have ids := fun i inside => columnOf_unknown uniform.sorted unknownID (i := i) inside
  have states := fun i inside => columnOf_unknown uniform.sorted unknownState (i := i) inside
  constructor
  · refine (genHeightmap_written_iff uniform).mpr fun i inside => ?_
    rw [← heightKept_iff readsTop_getD uniform.sorted inside, ids i inside]
  · refine (drawChunk_written_iff uniform).mpr fun i inside => ?_
    rw [← viewKept_iff uniform.sorted, blended, blended, visibleOf, visibleOf, states i inside]
  · refine (drawChunkHeightmap_written_iff uniform).mpr fun i inside => ?_
    rw [← heightKept_iff readsTop_byte uniform.sorted inside, states i inside]
  · refine (drawChunkXray_written_iff uniform).mpr fun i inside => ?_
    rw [← meanKept_iff uniform inside, states i inside]

variable (lib)

/-- A section of stone and one of a block that is not known, to be written out, below a section
with data. -/
def sampleParts : List Part :=
  [(⟨0, [⟨"minecraft:stone", none⟩], []⟩, some (List.replicate 256 0)),
    (⟨1, [⟨"minecraft:air", none⟩, ⟨"minecraft:stone", none⟩], [16]⟩, none),
    (⟨2, [⟨"unknown", none⟩], []⟩, some (List.replicate 256 0))]

theorem sampleLibrary_writesOut : WritesOut sampleLibrary (List.replicate 256 0) := by
  have some_ : List.replicate 256 (0 : UInt64) ≠ [] :=
    List.ne_nil_of_length_pos (by rw [List.length_replicate]; decide)
  refine ⟨some_, fun state j inside => ?_, fun state j inside => rfl⟩
  have zero : (List.replicate 256 (0 : UInt64)).getD (j / 16) 0 = 0 := by
    rw [List.getD_eq_getElem?_getD, List.getElem?_replicate]
    split <;> rfl
  have index : ((0 : UInt64) >>> (4 * (j % 16)).toUInt64 &&& 15).toNat = 0 := by simp
  simp only [sampleLibrary, if_neg some_, zero, index]
  rfl

/-- A chunk of one section of stone. -/
def stoneParts : List Part :=
  [(⟨0, [⟨"minecraft:stone", none⟩], []⟩, some (List.replicate 256 0))]

end WebChunk.Terrain
