import WebChunk.Terrain.Picture

/-!
# The picture of a chunk

`drawChunk` collects for each column the colors of the transparent blocks it meets from the top
down, and paints the column when it comes to an opaque block.
-/

namespace WebChunk.Terrain

open WebChunk.Go WebChunk.Semantics

variable (lib : Library)

/-- The switch on the type of a block: `toColor`, `isTransparent` and `isWater`. -/
def blockColor (state : StateID) : Color64 × Bool × Bool :=
  match lib.kind (lib.StateList state) with
  | .GrassBlock => (⟨0x91 * 257, 0xBD * 257, 0x59 * 257, 0xFF * 257⟩, false, false)
  | .Grass | .TallGrass | .Fern | .LargeFern | .PottedFern | .SugarCane =>
      (⟨0x91 * 257, 0xBD * 257, 0x59 * 257, 0x7F * 257⟩, true, false)
  | .OakLeaves | .JungleLeaves | .AcaciaLeaves | .DarkOakLeaves | .Vine =>
      (⟨0x77 * 257, 0xAB * 257, 0x2F * 257, 0xFFFF⟩, false, false)
  | .BirchLeaves => (⟨0x80 * 257, 0xA7 * 257, 0x55 * 257, 0xFFFF⟩, false, false)
  | .SpruceLeaves => (⟨0x61 * 257, 0x99 * 257, 0x61 * 257, 0xFFFF⟩, false, false)
  | .Water => (⟨0x3F * 257, 0x76 * 257, 0xE4 * 257, 0x30 * 257⟩, true, true)
  | .WaterCauldron => (⟨0x3F * 257, 0x76 * 257, 0xE4 * 257, 0xFF * 257⟩, false, false)
  | _ => (lib.colors state, false, false)

/-- `uint16(float64(x)*p + float64(y)*q)`. -/
def mix (x y : UInt16) (p q : Float) : UInt16 := (x.toFloat * p + y.toFloat * q).toUInt16

/-- What an opaque block of the color `toColor` is painted with below the colors `c`. -/
def blend (c : List Color64) (toColor : Color64) : Color64 :=
  match c with
  | c0 :: c1 :: rest =>
      let under := (c1 :: rest).foldl (fun (c0 c1 : Color64) =>
        let cvA := c1.a.toFloat / 65535
        ⟨mix c0.r c1.r (1 - cvA) cvA, mix c0.g c1.g (1 - cvA) cvA, mix c0.b c1.b (1 - cvA) cvA,
          c0.a⟩) c0
      ⟨mix toColor.r under.r 0.3 0.7, mix toColor.g under.g 0.3 0.7, mix toColor.b under.b 0.3 0.7,
        65535⟩
  | _ => { toColor with a := 65535 }

/-- The colors and the blocks that were collected for a column. -/
structure OutputBlock where
  c : List Color64
  b : List lib.Block

/-- The variables of `drawChunk`. -/
structure Canvas where
  img : RGBA
  outputs : Nat → OutputBlock lib
  colored : Nat → Bool

/-- The body of the innermost loop of `drawChunk`. -/
def colorStep (states : Nat → StateID) (y : Nat) (acc : Canvas lib) (i : Nat) : Canvas lib :=
  if acc.colored i then acc
  else
    let state := states (y * 16 * 16 + i)
    if isAirState lib state then acc
    else
      let (toColor, isTransparent, isWater) := blockColor lib state
      let more : OutputBlock lib :=
        ⟨(acc.outputs i).c ++ [toColor], (acc.outputs i).b ++ [lib.StateList state]⟩
      if !isTransparent then
        { acc with
          img := setPixel acc.img i
            (blend (acc.outputs i).c toColor).toColor
          colored := Function.update acc.colored i true }
      else if isWater then
        if (acc.outputs i).b.length < 2 then
          { acc with outputs := Function.update acc.outputs i more }
        else acc
      else { acc with outputs := Function.update acc.outputs i more }

/-- `drawChunk`; a nil pointer is `none`. -/
def drawChunk (chunk : Option Chunk) : RGBA :=
  match chunk with
  | none => filled ⟨0, 0, 0, 0⟩
  | some chunk =>
      if chunk.Sections.length = 0 then filled ⟨0, 0, 0, 0⟩
      else
        (eachSection (prepareSectionBlockstates lib)
          (fun acc _ states => (downFrom 16).foldl
            (fun acc y => (downFrom 256).foldl (colorStep lib states y) acc) acc)
          (⟨filled ⟨0, 0, 0, 0⟩, fun _ => ⟨[], []⟩, fun _ => false⟩ : Canvas lib)
          (sortedSections lib chunk)).img

/-! ### The scan -/

/-- What is kept for one column. -/
structure Spot where
  color : Color
  output : OutputBlock lib
  colored : Bool

def Canvas.view {lib : Library} (acc : Canvas lib) (i : Nat) : Spot lib :=
  ⟨pixel acc.img i, acc.outputs i, acc.colored i⟩

/-- What is kept of a transparent block. -/
def OutputBlock.collect {lib : Library} (out : OutputBlock lib) (state : StateID) :
    OutputBlock lib :=
  let (toColor, _, isWater) := blockColor lib state
  if isWater && 2 ≤ out.b.length then out
  else ⟨out.c ++ [toColor], out.b ++ [lib.StateList state]⟩

/-- A block that is neither air nor one of the transparent cases. -/
def isOpaque (state : StateID) : Bool := !isAirState lib state && !(blockColor lib state).2.1

/-- What one block makes of its column. -/
def colorHere (part : Spot lib) (b : Int × StateID) : Spot lib :=
  if part.colored then part
  else if isAirState lib b.2 then part
  else if isOpaque lib b.2 then
    ⟨(blend part.output.c (blockColor lib b.2).1).toColor, part.output, true⟩
  else { part with output := part.output.collect b.2 }

/-- The color that the blocks of a column are painted with, from the top down. -/
def paint (out : OutputBlock lib) : List StateID → Option Color64
  | [] => none
  | state :: rest =>
      if isAirState lib state then paint out rest
      else if isOpaque lib state then some (blend out.c (blockColor lib state).1)
      else paint (out.collect state) rest

theorem acts_colorStep (states : Nat → StateID) (h : Int) (y : Nat) {here : Nat}
    (inside : here < 256) :
    Acts (fun acc : Canvas lib => Square acc.img) Canvas.view
      (fun acc => colorStep lib states y acc here) fun i part =>
        if i = here then colorHere lib part (h, states (y * 16 * 16 + i)) else part := by
  constructor
  · intro acc square
    unfold colorStep
    dsimp only
    split_ifs <;> exact square
  · intro acc square i
    have painted := fun c => square.pixel_setPixel inside c i
    by_cases same : i = here
    · subst same
      rw [if_pos rfl]
      unfold colorStep colorHere isOpaque OutputBlock.collect Canvas.view
      dsimp only
      cases colored : acc.colored i with
      | true => simp [colored]
      | false =>
          cases air : isAirState lib (states (y * 16 * 16 + i)) with
          | true => simp [colored]
          | false =>
              rcases blockColor lib (states (y * 16 * 16 + i)) with ⟨toColor, transparent, water⟩
              cases transparent with
              | false => simp [painted]
              | true =>
                  cases water with
                  | false => simp [colored]
                  | true =>
                      by_cases full : (acc.outputs i).b.length < 2
                      · simp [colored, full, Nat.not_le.mpr full]
                      · simp [colored, full, Nat.le_of_not_lt full]
    · rw [if_neg same]
      unfold colorStep Canvas.view
      dsimp only
      split_ifs <;> simp [painted, same]

/-- The picture of a column shows what its blocks are painted with. -/
theorem foldl_colorHere (blocks : List (Int × StateID)) (out : OutputBlock lib) :
    (blocks.foldl (colorHere lib) ⟨.blank, out, false⟩).color =
      ((paint lib out (blocks.map Prod.snd)).map Color64.toColor).getD .blank := by
  have stays : ∀ (blocks : List (Int × StateID)) (part : Spot lib), part.colored = true →
      blocks.foldl (colorHere lib) part = part := by
    intro blocks part colored
    induction blocks with
    | nil => rfl
    | cons b rest inductionHypothesis =>
        rw [List.foldl_cons, colorHere, if_pos colored, inductionHypothesis]
  induction blocks generalizing out with
  | nil => rfl
  | cons b rest inductionHypothesis =>
      rw [List.foldl_cons, List.map_cons, colorHere, paint]
      dsimp only
      rw [if_neg (by decide)]
      split
      · exact inductionHypothesis out
      · split
        · rw [stays _ _ rfl]
          rfl
        · exact inductionHypothesis (out.collect b.2)

/-- The states that the scan of a column comes across. -/
def scanned (chunk : Chunk) (i : Nat) : List StateID :=
  (column (prepareSectionBlockstates lib) i (sortedSections lib chunk)).map Prod.snd

theorem acts_drawChunk (chunk : Chunk) :
    Acts (fun acc : Canvas lib => Square acc.img) Canvas.view
      (fun acc => eachSection (prepareSectionBlockstates lib)
        (fun acc _ states => (downFrom 16).foldl
          (fun acc y => (downFrom 256).foldl (colorStep lib states y) acc) acc)
        acc (sortedSections lib chunk)) fun i part =>
      if i < 256 then
        (column (prepareSectionBlockstates lib) i (sortedSections lib chunk)).foldl
          (colorHere lib) part
      else part :=
  acts_eachSection _ (fun s states y => acts_row fun _ inside =>
    acts_colorStep lib states (s.Y.toInt * 16 + y) y inside) (sortedSections lib chunk)

theorem square_drawChunk (chunk : Chunk) : Square (drawChunk lib (some chunk)) := by
  unfold drawChunk
  dsimp only
  split
  · exact square_filled _
  · exact (acts_drawChunk lib chunk).kept (square_filled _)

/-- The pixel of a column shows what its blocks are painted with. -/
theorem pixel_drawChunk (chunk : Chunk) {i : Nat} (inside : i < 256) :
    pixel (drawChunk lib (some chunk)) i =
      ((paint lib ⟨[], []⟩ (scanned lib chunk i)).map Color64.toColor).getD .blank := by
  unfold drawChunk
  dsimp only
  split
  · rename_i empty
    have none_ : sortedSections lib chunk = [] := by
      rw [← List.length_eq_zero_iff, (sortedSections_perm lib chunk).length_eq, empty]
    rw [scanned, none_]
    exact pixel_filled _ inside
  · have scan := (acts_drawChunk lib chunk).part
      (⟨filled ⟨0, 0, 0, 0⟩, fun _ => ⟨[], []⟩, fun _ => false⟩ : Canvas lib)
      (square_filled _) i
    have start : Canvas.view
        (⟨filled ⟨0, 0, 0, 0⟩, fun _ => ⟨[], []⟩, fun _ => false⟩ : Canvas lib) i =
          ⟨.blank, ⟨[], []⟩, false⟩ := by
      rw [Canvas.view, pixel_filled _ inside]
      rfl
    rw [if_pos inside, start] at scan
    exact (congrArg Spot.color scan).trans (foldl_colorHere lib _ _)

/-! ### The visible part of a column -/

/-- The states that are not air, down to and including the first opaque one. -/
def visible : List StateID → List StateID
  | [] => []
  | state :: rest =>
      if isAirState lib state then visible rest
      else if isOpaque lib state then [state]
      else state :: visible rest

theorem isAirState_of_isOpaque {state : StateID} (opaque_ : isOpaque lib state = true) :
    isAirState lib state = false := by
  unfold isOpaque at opaque_
  simpa using (Bool.and_eq_true_iff.mp opaque_).1

/-- What a column is painted with depends on its visible part. -/
theorem paint_visible (out : OutputBlock lib) (l : List StateID) :
    paint lib out (visible lib l) = paint lib out l := by
  induction l generalizing out with
  | nil => rfl
  | cons state rest inductionHypothesis =>
      unfold visible
      split
      · rename_i air
        rw [inductionHypothesis, paint, if_pos air]
      · rename_i solid
        split
        · rename_i opaque_
          simp [paint, solid, opaque_]
        · rename_i transparent
          rw [paint, paint, if_neg solid, if_neg solid, if_neg transparent, if_neg transparent,
            inductionHypothesis]

theorem paint_isSome_iff (out : OutputBlock lib) (l : List StateID) :
    (paint lib out l).isSome ↔ ∃ state ∈ l, isOpaque lib state = true := by
  induction l generalizing out with
  | nil => simp [paint]
  | cons state rest inductionHypothesis =>
      unfold paint
      split
      · rename_i air
        rw [inductionHypothesis, List.exists_mem_cons_iff, or_iff_right]
        intro opaque_
        rw [isAirState_of_isOpaque lib opaque_] at air
        cases air
      · split
        · rename_i opaque_
          simp [opaque_]
        · rename_i transparent
          rw [inductionHypothesis, List.exists_mem_cons_iff, or_iff_right transparent]

theorem blend_a (c : List Color64) (toColor : Color64) : (blend c toColor).a = 65535 := by
  unfold blend
  split <;> rfl

/-- What is painted is opaque. -/
theorem paint_ne_blank {out : OutputBlock lib} {l : List StateID} {c : Color64}
    (painted : paint lib out l = some c) : c.toColor ≠ .blank := by
  induction l generalizing out with
  | nil => cases painted
  | cons state rest inductionHypothesis =>
      unfold paint at painted
      split at painted
      · exact inductionHypothesis painted
      · split at painted
        · cases painted
          exact toColor_ne_blank (blend_a _ _)
        · exact inductionHypothesis painted

theorem shows_drawChunk (chunk : Chunk) :
    Shows (drawChunk lib (some chunk)) .blank fun i =>
      (paint lib ⟨[], []⟩ (scanned lib chunk i)).map Color64.toColor where
  square := square_drawChunk lib chunk
  column _ inside := pixel_drawChunk lib chunk inside
  apart i x found := by
    obtain ⟨color, painted, rfl⟩ := Option.map_eq_some_iff.mp found
    exact paint_ne_blank lib painted

/-! ### The columns of a chunk -/

/-- The block at a height of column `i`, in a section with data whose palette can be resolved. -/
def stateAt (chunk : Chunk) (i : Nat) (h : Int) : Option StateID :=
  (chunk.Sections.find? fun s => s.Y.toInt == h / 16).bind fun s =>
    if s.Data = [] then none
    else (prepareSectionBlockstates lib s).map fun states => states ((h % 16).toNat * 16 * 16 + i)

/-- The states of column `i` from the top down: sections reach from -2048 to 2047. -/
def columnStates (chunk : Chunk) (i : Nat) : List StateID :=
  (List.range 4096).filterMap fun (k : Nat) => stateAt lib chunk i (2047 - k)

theorem find_section_iff {chunk : Chunk} (distinct : (chunk.Sections.map Section.Y).Nodup)
    {q : Int} {s : Section} :
    (chunk.Sections.find? fun s => s.Y.toInt == q) = some s ↔
      s ∈ chunk.Sections ∧ s.Y.toInt = q := by
  constructor
  · intro found
    exact ⟨List.mem_of_find?_eq_some found, by simpa using List.find?_some found⟩
  · rintro ⟨member, height⟩
    cases found : chunk.Sections.find? fun s => s.Y.toInt == q with
    | none =>
        have missing := List.find?_eq_none.mp found s member
        simp [height] at missing
    | some t =>
        have same : t.Y.toInt = q := by simpa using List.find?_some found
        have equal : t.Y = s.Y := Int8.toInt_inj.mp (same.trans height.symm)
        rw [List.inj_on_of_nodup_map distinct (List.mem_of_find?_eq_some found) member equal]

theorem stateAt_iff {chunk : Chunk} (distinct : (chunk.Sections.map Section.Y).Nodup) {i : Nat}
    {h : Int} {state : StateID} :
    stateAt lib chunk i h = some state ↔
      (h, state) ∈ column (prepareSectionBlockstates lib) i (sortedSections lib chunk) := by
  rw [mem_column, stateAt, Option.bind_eq_some_iff]
  refine exists_congr fun s => ?_
  rw [find_section_iff distinct, mem_sortedSections, and_assoc]
  refine and_congr_right fun _ => ?_
  constructor
  · rintro ⟨height, found⟩
    split at found
    · cases found
    · rename_i data
      obtain ⟨states, resolved, rfl⟩ := Option.map_eq_some_iff.mp found
      refine ⟨data, states, resolved, mem_sectionColumn.mpr ⟨(h % 16).toNat, by omega, ?_⟩⟩
      exact Prod.ext (by dsimp only; omega) rfl
  · rintro ⟨data, states, resolved, inSection⟩
    obtain ⟨y, row, same⟩ := mem_sectionColumn.mp inSection
    obtain ⟨rfl, rfl⟩ := Prod.mk.inj same
    refine ⟨by omega, ?_⟩
    rw [if_neg data, resolved, Option.map_some]
    have there : ((s.Y.toInt * 16 + y) % 16).toNat = y := by omega
    rw [there]

/-- The scan comes across the blocks of a column from the top down. -/
theorem scanned_eq {chunk : Chunk} (distinct : (chunk.Sections.map Section.Y).Nodup) (i : Nat) :
    scanned lib chunk i = columnStates lib chunk i := by
  let placed : Nat → Option (Int × StateID) := fun k =>
    (stateAt lib chunk i (2047 - k)).map fun state => (2047 - (k : Int), state)
  have falling : ((List.range 4096).filterMap placed).Pairwise fun a b => b.1 < a.1 := by
    rw [List.pairwise_filterMap]
    refine List.pairwise_lt_range.imp fun {k k'} lower a placedA b placedB => ?_
    obtain ⟨_, _, rfl⟩ := Option.map_eq_some_iff.mp placedA
    obtain ⟨_, _, rfl⟩ := Option.map_eq_some_iff.mp placedB
    dsimp only
    omega
  have scan := pairwise_column (prepareSectionBlockstates lib) i
    (pairwise_sortedSections lib distinct)
  have once : ∀ {l : List (Int × StateID)}, (l.Pairwise fun a b => b.1 < a.1) → l.Nodup :=
    fun falls => falls.imp fun lower same => absurd (same ▸ lower) (Int.lt_irrefl _)
  have members : ∀ b, b ∈ column (prepareSectionBlockstates lib) i (sortedSections lib chunk) ↔
      b ∈ (List.range 4096).filterMap placed := by
    rintro ⟨h, state⟩
    rw [← stateAt_iff lib distinct, List.mem_filterMap]
    constructor
    · intro found
      have bounds : -2048 ≤ h ∧ h ≤ 2047 := by
        obtain ⟨s, _, _, _, _, inSection⟩ := mem_column.mp ((stateAt_iff lib distinct).mp found)
        obtain ⟨y, row, same⟩ := mem_sectionColumn.mp inSection
        have low := s.Y.le_toInt
        have high := s.Y.toInt_lt
        have height : h = s.Y.toInt * 16 + y := (Prod.mk.inj same).1
        omega
      have place : (2047 : Int) - ((2047 - h).toNat : Nat) = h := by omega
      refine ⟨(2047 - h).toNat, List.mem_range.mpr (by omega), ?_⟩
      dsimp only [placed]
      rw [place, found]
      rfl
    · rintro ⟨k, _, here⟩
      obtain ⟨_, found, same⟩ := Option.map_eq_some_iff.mp here
      obtain ⟨rfl, rfl⟩ := Prod.mk.inj same
      exact found
  have same : column (prepareSectionBlockstates lib) i (sortedSections lib chunk) =
      (List.range 4096).filterMap placed :=
    ((List.perm_ext_iff_of_nodup (once scan) (once falling)).mpr members).eq_of_pairwise
      (fun a b _ _ below above => absurd below (Int.not_lt.mpr (Int.le_of_lt above))) scan falling
  rw [scanned, same, List.map_filterMap, columnStates]
  congr 1
  funext k
  simp [placed, Function.comp_def]

/-- `drawChunk` sees the visible part of every column, and paints the columns with an opaque
block. -/
theorem drawChunk_sees_visible :
    (∀ c c' : Chunk, (c.Sections.map Section.Y).Nodup → (c'.Sections.map Section.Y).Nodup →
      (∀ i, i < 256 → visible lib (columnStates lib c i) = visible lib (columnStates lib c' i)) →
        drawChunk lib (some c) = drawChunk lib (some c')) ∧
      ∀ c : Chunk, (c.Sections.map Section.Y).Nodup → ∀ i, i < 256 →
        (pixel (drawChunk lib (some c)) i ≠ .blank ↔
          ∃ state ∈ columnStates lib c i, isOpaque lib state = true) := by
  constructor
  · intro c c' distinct distinct' same
    refine eq_of_pixel (square_drawChunk lib c) (square_drawChunk lib c') fun i inside => ?_
    rw [pixel_drawChunk lib c inside, pixel_drawChunk lib c' inside, scanned_eq lib distinct,
      scanned_eq lib distinct', ← paint_visible, same i inside, paint_visible]
  · intro c distinct i inside
    rw [pixel_drawChunk lib c inside, scanned_eq lib distinct, ← paint_isSome_iff lib ⟨[], []⟩]
    cases painted : paint lib ⟨[], []⟩ (columnStates lib c i) with
    | none => simp
    | some color => simpa using paint_ne_blank lib painted

theorem columnStates_perm {c c' : Chunk} (distinct : (c.Sections.map Section.Y).Nodup)
    (same : c'.Sections.Perm c.Sections) (i : Nat) :
    columnStates lib c' i = columnStates lib c i := by
  have distinct' := (same.map Section.Y).nodup_iff.mpr distinct
  refine List.filterMap_congr fun k _ => ?_
  unfold stateAt
  refine congrArg (Option.bind · _) (Option.ext fun s => ?_)
  rw [find_section_iff distinct, find_section_iff distinct', same.mem_iff]

/-- Sections in another order, and a column with water above stone. -/
theorem drawChunk_sees_visible_sample :
    drawChunk sampleLibrary (some ⟨sampleChunk.Sections.reverse⟩) =
        drawChunk sampleLibrary (some sampleChunk) ∧
      (pixel (drawChunk sampleLibrary (some sampleChunk)) 1 ≠ .blank ↔
        ∃ state ∈ columnStates sampleLibrary sampleChunk 1,
          isOpaque sampleLibrary state = true) :=
  ⟨(drawChunk_sees_visible sampleLibrary).1 _ _ (by decide) (by decide) fun i _ =>
      congrArg (visible sampleLibrary)
        (columnStates_perm sampleLibrary (by decide) (List.reverse_perm _) i),
    (drawChunk_sees_visible sampleLibrary).2 sampleChunk (by decide) 1 (by decide)⟩

end WebChunk.Terrain
