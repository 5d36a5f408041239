import WebChunk.Terrain.Heat

/-!
# The age of lava

`drawChunkLavaAge` looks in each section for a column of lava and counts the layers below its first
block, by the blocks of the section's lowest layer. A picture of one color shows the count.
-/

namespace WebChunk.Terrain

open WebChunk.Go

variable (lib : Library) (ID : lib.Block → String) (lavaid : String)

/-- The variables of the loops; `trycontinue` is -1 or the column that is followed. -/
structure LavaScan where
  trycontinue : Int
  intensity : Int
  deriving DecidableEq

/-- The blocks of lava around block `ii`. All four tests have the bound of the first one. -/
def nearcount (lava : Nat → Bool) (ii : Nat) : Nat :=
  (if ii + 1 < 16 * 16 ∧ lava (ii + 1) then 1 else 0) +
    (if 1 ≤ ii ∧ ii + 1 < 16 * 16 ∧ lava (ii - 1) then 1 else 0) +
    (if ii + 1 < 16 * 16 ∧ lava (ii + 16) then 1 else 0) +
    (if 16 ≤ ii ∧ ii + 1 < 16 * 16 ∧ lava (ii - 16) then 1 else 0)

/-- The last block of lava of a layer. -/
def lastLava (lava : Nat → Bool) (y : Nat) : Option Nat :=
  (downFrom (16 * 16)).find? fun i => lava (y * 16 * 16 + i)

/-- The body of the loop over the layers. The column that is followed is looked up without the
height of the layer. -/
def lavaLayer (lava : Nat → Bool) (scan : LavaScan) (y : Nat) : LavaScan :=
  if scan.trycontinue ≠ -1 then
    if lava scan.trycontinue.toNat then { scan with intensity := scan.intensity + 1 }
    else { scan with trycontinue := -1 }
  else
    match lastLava lava y with
    | none => scan
    | some i =>
        if nearcount lava (y * 16 * 16 + i) < 2 then { scan with trycontinue := i } else scan

/-- The body of the loop over the sections. -/
def lavaSection (scan : LavaScan) (s : Section) : LavaScan :=
  if s.Palette.length = 1 then scan
  else if s.Palette.all (·.Name ≠ lavaid) then { scan with trycontinue := -1 }
  else
    match prepareSectionBlockstates lib s with
    | none => scan
    | some states =>
        (downFrom 16).foldl (lavaLayer fun j => isNamed lib ID lavaid (states j)) scan

/-- The color of an intensity. -/
def lavaColor (intensity : Int) (alpha : UInt8) : Color :=
  if intensity > 12 then
    ⟨.ofNat (if intensity * 3 > 255 then 255 else intensity * 3).toNat, 42, 255, alpha⟩
  else ⟨128, 128, 128, alpha⟩

/-- `drawChunkLavaAge`; `lavaid` is the name of `block.Lava`. The number of layers is far from the
end of an `int`. -/
def drawChunkLavaAge (chunk : Chunk) (alpha : UInt8) : RGBA :=
  filled (lavaColor (chunk.Sections.foldl (lavaSection lib ID lavaid) ⟨-1, -1⟩).intensity alpha)

/-- The section as the loop over the layers gets it, if it does. -/
def lavaStates (s : Section) : Option (Nat → StateID) :=
  if s.Palette.length = 1 ∨ s.Palette.all (·.Name ≠ lavaid) then none
  else prepareSectionBlockstates lib s

/-- The blocks that are lava. -/
def isLava (states : Nat → StateID) (j : Nat) : Bool := isNamed lib ID lavaid (states j)

/-- The color of the picture of a chunk with lava in one section, by the last blocks of lava of the
two upper layers. -/
def singleColor (lava : Nat → Bool) (alpha : UInt8) : Color :=
  match lastLava lava 15 with
  | some i => if lava i then ⟨42, 42, 255, alpha⟩ else ⟨128, 128, 128, alpha⟩
  | none =>
      match lastLava lava 14 with
      | some i => if lava i then ⟨39, 42, 255, alpha⟩ else ⟨128, 128, 128, alpha⟩
      | none => ⟨128, 128, 128, alpha⟩

/-! ### The layers of a section -/

section Layers

variable {lava lava' : Nat → Bool} {i y n : Nat} {k : Int} {scan : LavaScan}

theorem downFrom_succ (n : Nat) : downFrom (n + 1) = n :: downFrom n := by
  simp [downFrom, List.range_succ]

/-- Only in the lowest layer the neighbours are within the bounds. -/
theorem nearcount_above (above : y ≠ 0) : nearcount lava (y * 16 * 16 + i) = 0 := by
  have outside : ¬ y * 16 * 16 + i + 1 < 16 * 16 := by omega
  simp [nearcount, outside]

theorem lavaLayer_found (above : y ≠ 0) (found : lastLava lava y = some i) :
    lavaLayer lava ⟨-1, k⟩ y = ⟨i, k⟩ := by
  rw [lavaLayer, if_neg (not_not_intro rfl), found]
  exact if_pos (by rw [nearcount_above above]; decide)

theorem lavaLayer_none (none_ : lastLava lava y = none) : lavaLayer lava ⟨-1, k⟩ y = ⟨-1, k⟩ := by
  rw [lavaLayer, if_neg (not_not_intro rfl), none_]

theorem column_ne (i : Nat) : (i : Int) ≠ -1 := by omega

theorem lavaLayer_counts (under : lava i = true) : lavaLayer lava ⟨i, k⟩ y = ⟨i, k + 1⟩ := by
  rw [lavaLayer, if_pos (column_ne i)]
  exact if_pos under

theorem lavaLayer_misses (under : ¬ lava i = true) : lavaLayer lava ⟨i, k⟩ y = ⟨-1, k⟩ := by
  rw [lavaLayer, if_pos (column_ne i)]
  exact if_neg under

/-- A column with lava at its bottom is followed through all layers that are left. -/
theorem layers_followed (under : lava i = true) (n : Nat) (k : Int) :
    (downFrom n).foldl (lavaLayer lava) ⟨i, k⟩ = ⟨i, k + n⟩ := by
  induction n generalizing k with
  | zero => simp [downFrom]
  | succ n inductionHypothesis =>
      rw [downFrom_succ, List.foldl_cons, lavaLayer_counts under, inductionHypothesis]
      simp only [LavaScan.mk.injEq, true_and]
      omega

/-- A layer counts at most once, and not in the search. -/
theorem lavaLayer_le (lava : Nat → Bool) (scan : LavaScan) (y : Nat) :
    (lavaLayer lava scan y).intensity ≤ scan.intensity + 1 ∧
      (scan.trycontinue = -1 → (lavaLayer lava scan y).intensity = scan.intensity) := by
  unfold lavaLayer
  split
  · rename_i followed
    refine ⟨?_, fun search => absurd search followed⟩
    split
    · exact le_rfl
    · exact Int.le_add_one le_rfl
  · have same : ∀ next : LavaScan, next.intensity = scan.intensity →
        next.intensity ≤ scan.intensity + 1 ∧
          (scan.trycontinue = -1 → next.intensity = scan.intensity) :=
      fun next same => ⟨by omega, fun _ => same⟩
    split
    · exact same _ rfl
    · split <;> exact same _ rfl

theorem layers_le (lava : Nat → Bool) (n : Nat) (scan : LavaScan) :
    ((downFrom n).foldl (lavaLayer lava) scan).intensity ≤ scan.intensity + n := by
  induction n generalizing scan with
  | zero => simp [downFrom]
  | succ n inductionHypothesis =>
      rw [downFrom_succ, List.foldl_cons]
      have one := (lavaLayer_le lava scan n).1
      have rest := inductionHypothesis (lavaLayer lava scan n)
      omega

/-- The first layer of a search does not count. -/
theorem layers_search_le (lava : Nat → Bool) (n : Nat) (k : Int) :
    ((downFrom (n + 1)).foldl (lavaLayer lava) ⟨-1, k⟩).intensity ≤ k + n := by
  rw [downFrom_succ, List.foldl_cons]
  have one : (lavaLayer lava ⟨-1, k⟩ n).intensity = k := (lavaLayer_le lava ⟨-1, k⟩ n).2 rfl
  have rest := layers_le lava n (lavaLayer lava ⟨-1, k⟩ n)
  omega

/-- The color after the layers of one section. -/
theorem lavaColor_layers (lava : Nat → Bool) (alpha : UInt8) :
    lavaColor ((downFrom 16).foldl (lavaLayer lava) ⟨-1, -1⟩).intensity alpha =
      singleColor lava alpha := by
  have gray : ∀ {intensity : Int}, intensity ≤ 12 →
      lavaColor intensity alpha = ⟨128, 128, 128, alpha⟩ := fun small =>
    if_neg (Int.not_lt.mpr small)
  have upper : downFrom 16 = 15 :: 14 :: downFrom 14 := rfl
  have next : downFrom 14 = 13 :: downFrom 13 := rfl
  rw [upper, List.foldl_cons]
  unfold singleColor
  cases top : lastLava lava 15 with
  | some i =>
      rw [lavaLayer_found (by decide) top]
      dsimp only
      split
      · rename_i under
        rw [List.foldl_cons, lavaLayer_counts under, layers_followed under]
        rfl
      · rename_i under
        rw [List.foldl_cons, lavaLayer_misses under]
        exact gray ((layers_search_le lava 13 (-1)).trans (by decide))
  | none =>
      rw [lavaLayer_none top, List.foldl_cons]
      cases second : lastLava lava 14 with
      | some i =>
          rw [lavaLayer_found (by decide) second]
          dsimp only
          split
          · rename_i under
            rw [layers_followed under]
            rfl
          · rename_i under
            rw [next, List.foldl_cons, lavaLayer_misses under]
            exact gray ((layers_search_le lava 12 (-1)).trans (by decide))
      | none =>
          rw [lavaLayer_none second]
          exact gray ((layers_search_le lava 13 (-1)).trans (by decide))

end Layers

/-! ### The sections of a chunk -/

variable {lib lavaid}

theorem lavaSection_of_none {s : Section} (passed : lavaStates lib lavaid s = none)
    (scan : LavaScan) : lavaSection lib ID lavaid scan s = scan ∨
      lavaSection lib ID lavaid scan s = { scan with trycontinue := -1 } := by
  unfold lavaStates at passed
  unfold lavaSection
  split
  · exact .inl rfl
  · split
    · exact .inr rfl
    · rename_i other lava
      rw [if_neg (not_or.mpr ⟨other, lava⟩)] at passed
      rw [passed]
      exact .inl rfl

theorem lavaSection_of_some {s : Section} {states : Nat → StateID}
    (drawn : lavaStates lib lavaid s = some states) (scan : LavaScan) :
    lavaSection lib ID lavaid scan s =
      (downFrom 16).foldl (lavaLayer (isLava lib ID lavaid states)) scan := by
  unfold lavaStates at drawn
  split at drawn
  · cases drawn
  · rename_i neither
    rw [not_or] at neither
    rw [lavaSection, if_neg neither.1, if_neg neither.2, drawn]
    rfl

/-- Sections that are passed by leave the intensity. -/
theorem intensity_passed {sections : List Section}
    (passed : ∀ s ∈ sections, lavaStates lib lavaid s = none) (scan : LavaScan) :
    (sections.foldl (lavaSection lib ID lavaid) scan).intensity = scan.intensity ∧
      (scan.trycontinue = -1 →
        (sections.foldl (lavaSection lib ID lavaid) scan).trycontinue = -1) := by
  induction sections generalizing scan with
  | nil => exact ⟨rfl, id⟩
  | cons s rest inductionHypothesis =>
      rw [List.foldl_cons]
      have later := inductionHypothesis (fun s member => passed s (.tail _ member))
        (lavaSection lib ID lavaid scan s)
      rcases lavaSection_of_none ID (passed s (.head _)) scan with same | ended
      · rwa [same] at later ⊢
      · rw [ended] at later ⊢
        exact ⟨later.1, fun _ => later.2 rfl⟩

/-- A chunk with lava in one section is shown in the color of old lava exactly if the last block of
lava of the top layer, or of the one below it if there is none in the top layer, is in a column with
lava at the very bottom of the section. Nothing else of the section matters. -/
theorem drawChunkLavaAge_single {before after : List Section} {s : Section}
    {states : Nat → StateID} (drawn : lavaStates lib lavaid s = some states)
    (others : ∀ s' ∈ before ++ after, lavaStates lib lavaid s' = none) (alpha : UInt8) :
    drawChunkLavaAge lib ID lavaid ⟨before ++ s :: after⟩ alpha =
      filled (singleColor (isLava lib ID lavaid states) alpha) := by
  have first := intensity_passed ID
    (fun s member => others s (List.mem_append_left _ member)) ⟨-1, -1⟩
  have untouched : before.foldl (lavaSection lib ID lavaid) ⟨-1, -1⟩ = ⟨-1, -1⟩ := by
    generalize before.foldl (lavaSection lib ID lavaid) ⟨-1, -1⟩ = scan at first
    obtain ⟨trycontinue, intensity⟩ := scan
    obtain ⟨rfl, search⟩ := first
    rw [show trycontinue = -1 from search rfl]
  have last := (intensity_passed ID
    (fun s member => others s (List.mem_append_right _ member))
    (lavaSection lib ID lavaid ⟨-1, -1⟩ s)).1
  rw [drawChunkLavaAge, List.foldl_append, List.foldl_cons, untouched, last,
    lavaSection_of_some ID drawn, lavaColor_layers]

/-- A section full of stone, with air in its palette. -/
def fullOfStones : Section :=
  ⟨0, [⟨"minecraft:air", none⟩, ⟨"minecraft:stone", none⟩],
    List.replicate 256 0x1111111111111111⟩

/-- The names of the blocks of the sample. -/
def stoneID (b : sampleLibrary.Block) : String :=
  if Nat.beq b 1 then "minecraft:stone" else "minecraft:air"

theorem isNamed_stone :
    isNamed sampleLibrary stoneID "minecraft:stone" = fun s => Nat.beq s 1 := by
  funext s
  change ((if Nat.beq s 1 then "minecraft:stone" else "minecraft:air") == "minecraft:stone") =
    Nat.beq s 1
  cases Nat.beq s 1 <;> rfl

/-- In a world in which stone is lava it is fifteen layers deep. -/
theorem drawChunkLavaAge_single_full :
    drawChunkLavaAge sampleLibrary stoneID "minecraft:stone" ⟨[fullOfStones]⟩ 255 =
      filled ⟨42, 42, 255, 255⟩ := by
  have passed : ∀ s ∈ ([] : List Section) ++ [],
      lavaStates sampleLibrary "minecraft:stone" s = none := fun _ none_ => by cases none_
  refine (@drawChunkLavaAge_single _ stoneID _ [] [] fullOfStones _ rfl passed 255).trans
    (congrArg filled ?_)
  unfold isLava
  rw [isNamed_stone]
  decide +kernel

end WebChunk.Terrain
