import Mathlib.Data.Fintype.Prod
import WebChunk.Terrain.Picture

/-!
# Numbers of chunks

`drawNumberOfChunks` writes the last two decimal digits of a number in the upper left corner of a
picture.
-/

namespace WebChunk.Terrain

open WebChunk.Go WebChunk.Semantics

def digits : List (List String) :=
  [["001100", "010010", "010010", "010010", "010010", "001100"],
    ["001100", "010100", "000100", "000100", "000100", "000100"],
    ["001100", "010010", "000100", "001000", "010000", "011110"],
    ["001100", "010010", "000100", "000100", "010010", "001100"],
    ["000010", "000110", "001010", "010010", "011110", "000010"],
    ["011110", "010000", "011100", "000010", "000010", "011100"],
    ["001100", "010000", "011100", "010010", "010010", "001100"],
    ["011110", "000010", "000110", "001100", "011000", "010000"],
    ["001100", "010010", "001100", "001100", "010010", "001100"],
    ["001100", "010010", "001110", "000010", "000010", "001100"]]

/-- `digits[d][i][j] == '1'`. -/
def digitBit (d i j : Nat) : Bool := ((digits.getD d []).getD i "").toList.getD j '0' == '1'

/-- `color.Black` or `color.White`. -/
def digitColor (d i j : Nat) : Color :=
  if digitBit d i j then ⟨0, 0, 0, 255⟩ else ⟨255, 255, 255, 255⟩

/-- The body of the two loops. -/
def numberStep (d1 d2 : Nat) (layerImg : RGBA) (place : Fin 6 × Fin 6) : RGBA :=
  let (i, j) := place
  let layerImg := layerImg.set (j : Nat) (i : Nat) (digitColor d2 i j)
  layerImg.set (7 + (j : Nat)) (i : Nat) (digitColor d1 i j)

/-- The places of a digit, in the order of the two loops. -/
def digitPlaces : List (Fin 6 × Fin 6) :=
  (List.finRange 6).flatMap fun i => (List.finRange 6).map fun j => (i, j)

def drawDigits (d1 d2 : Nat) : RGBA := digitPlaces.foldl (numberStep d1 d2) (RGBA.new 16 16)

/-- `drawNumberOfChunks`; an index below zero panics. -/
def drawNumberOfChunks (c : Int) : Option RGBA :=
  let d1 := c.tmod 10
  let d2 := (c.tdiv 10).tmod 10
  if 0 ≤ d1 ∧ 0 ≤ d2 then some (drawDigits d1.toNat d2.toNat) else none

/-- The two pixels of a place: those of the second last and of the last digit. -/
def digitPixels (img : RGBA) (place : Fin 6 × Fin 6) : Color × Color :=
  (img.pix (place.2 : Nat) (place.1 : Nat), img.pix (7 + (place.2 : Nat)) (place.1 : Nat))

theorem pix_set {img : RGBA} {x y : Int} (inside : img.rect.contains x y) (px py : Int)
    (c : Color) : (img.set px py c).pix x y = if x = px ∧ y = py then c else img.pix x y := by
  simp only [RGBA.set, inside, and_true]

/-- A pixel of two that are set. -/
theorem pix_set_set {img : RGBA} {x y : Int} (inside : img.rect.contains x y) (px px' py : Int)
    (c c' : Color) : ((img.set px py c).set px' py c').pix x y =
      if x = px' ∧ y = py then c' else if x = px ∧ y = py then c else img.pix x y := by
  have still : (img.set px py c).rect.contains x y := inside
  rw [pix_set still, pix_set inside]

theorem acts_numberStep (d1 d2 : Nat) (here : Fin 6 × Fin 6) :
    Acts Square digitPixels (fun img => numberStep d1 d2 img here) fun place part =>
      if place = here then (digitColor d2 place.1 place.2, digitColor d1 place.1 place.2)
      else part := by
  refine ⟨fun square => square, fun img square place => ?_⟩
  obtain ⟨i, j⟩ := here
  obtain ⟨i', j'⟩ := place
  have here_ : ((i', j') = (i, j)) ↔
      ((j' : Nat) : Int) = (j : Nat) ∧ ((i' : Nat) : Int) = (i : Nat) := by
    rw [Prod.mk.injEq, Fin.ext_iff, Fin.ext_iff]
    omega
  have left : img.rect.contains (j' : Nat) (i' : Nat) := by
    rw [square.rect_contains]
    omega
  have right : img.rect.contains (7 + (j' : Nat)) (i' : Nat) := by
    rw [square.rect_contains]
    omega
  have first (c c' : Color) : ((img.set (j : Nat) (i : Nat) c).set (7 + (j : Nat)) (i : Nat) c').pix
      (j' : Nat) (i' : Nat) = if (i', j') = (i, j) then c else img.pix (j' : Nat) (i' : Nat) := by
    rw [pix_set_set left, if_neg (by omega)]
    exact if_congr here_.symm rfl rfl
  have second (c c' : Color) :
      ((img.set (j : Nat) (i : Nat) c).set (7 + (j : Nat)) (i : Nat) c').pix
        (7 + (j' : Nat)) (i' : Nat) =
        if (i', j') = (i, j) then c' else img.pix (7 + (j' : Nat)) (i' : Nat) := by
    have apart : ¬ (7 + ((j' : Nat) : Int) = (j : Nat) ∧ ((i' : Nat) : Int) = (i : Nat)) := by omega
    rw [pix_set_set right, if_neg apart]
    refine if_congr (Iff.trans ?_ here_.symm) rfl rfl
    omega
  unfold digitPixels numberStep
  dsimp only
  rw [first, second]
  by_cases same : (i', j') = (i, j)
  · cases same
    simp
  · simp [same]

theorem nodup_digitPlaces : digitPlaces.Nodup := by decide

theorem mem_digitPlaces (place : Fin 6 × Fin 6) : place ∈ digitPlaces := by
  revert place
  decide

/-- The picture shows the two digits. -/
theorem digitPixels_drawDigits (d1 d2 : Nat) (place : Fin 6 × Fin 6) :
    digitPixels (drawDigits d1 d2) place =
      (digitColor d2 place.1 place.2, digitColor d1 place.1 place.2) := by
  have loop := Acts.places nodup_digitPlaces fun here _ => acts_numberStep d1 d2 here
  exact (loop.part _ square_new place).trans (if_pos (mem_digitPlaces place))

/-- The digits can be told apart. -/
theorem digit_unique : ∀ d < 10, ∀ e < 10,
    (∀ place : Fin 6 × Fin 6, digitBit d place.1 place.2 = digitBit e place.1 place.2) →
      d = e := by
  decide +kernel

theorem digitColor_inj {d e i j : Nat} (same : digitColor d i j = digitColor e i j) :
    digitBit d i j = digitBit e i j := by
  unfold digitColor at same
  cases first : digitBit d i j <;> cases second : digitBit e i j <;> simp_all

theorem drawDigits_inj {d1 d2 e1 e2 : Nat} (hd1 : d1 < 10) (hd2 : d2 < 10) (he1 : e1 < 10)
    (he2 : e2 < 10) (same : drawDigits d1 d2 = drawDigits e1 e2) : d1 = e1 ∧ d2 = e2 := by
  have pixels : ∀ place : Fin 6 × Fin 6,
      (digitColor d2 place.1 place.2, digitColor d1 place.1 place.2) =
        (digitColor e2 place.1 place.2, digitColor e1 place.1 place.2) := by
    intro place
    rw [← digitPixels_drawDigits, same, digitPixels_drawDigits]
  constructor
  · exact digit_unique d1 hd1 e1 he1 fun place =>
      digitColor_inj (congrArg Prod.snd (pixels place))
  · exact digit_unique d2 hd2 e2 he2 fun place =>
      digitColor_inj (congrArg Prod.fst (pixels place))

/-- A number below zero is drawn only if its last two digits are zeros. -/
theorem drawNumberOfChunks_isSome_iff (c : Int) :
    (drawNumberOfChunks c).isSome ↔ 0 ≤ c ∨ 100 ∣ c := by
  have drawn : (drawNumberOfChunks c).isSome ↔ 0 ≤ c.tmod 10 ∧ 0 ≤ (c.tdiv 10).tmod 10 := by
    unfold drawNumberOfChunks
    dsimp only
    split <;> simp_all
  rw [drawn]
  rcases Int.le_total 0 c with nonneg | negative
  · rw [Int.tdiv_eq_ediv_of_nonneg nonneg, Int.tmod_eq_emod_of_nonneg nonneg,
      Int.tmod_eq_emod_of_nonneg (by omega)]
    omega
  · obtain ⟨n, rfl⟩ : ∃ n, c = -n := ⟨-c, (neg_neg c).symm⟩
    rw [Int.neg_tdiv, Int.neg_tmod, Int.neg_tmod, Int.tdiv_eq_ediv_of_nonneg (by omega),
      Int.tmod_eq_emod_of_nonneg (by omega), Int.tmod_eq_emod_of_nonneg (by omega)]
    omega

/-- The digits of a number of chunks. -/
theorem drawNumberOfChunks_of_nonneg {c : Int} (nonneg : 0 ≤ c) :
    drawNumberOfChunks c = some (drawDigits (c % 10).toNat (c / 10 % 10).toNat) := by
  unfold drawNumberOfChunks
  dsimp only
  rw [Int.tdiv_eq_ediv_of_nonneg nonneg, Int.tmod_eq_emod_of_nonneg nonneg,
    Int.tmod_eq_emod_of_nonneg (by omega), if_pos (by omega)]

/-- Two numbers of chunks look the same exactly if their last two digits are the same. -/
theorem drawNumberOfChunks_eq_iff (c c' : Int) (nonneg : 0 ≤ c) (nonneg' : 0 ≤ c') :
    drawNumberOfChunks c = drawNumberOfChunks c' ↔ c % 100 = c' % 100 := by
  rw [drawNumberOfChunks_of_nonneg nonneg, drawNumberOfChunks_of_nonneg nonneg',
    Option.some.injEq]
  constructor
  · intro same
    obtain ⟨last, other⟩ := drawDigits_inj (by omega) (by omega) (by omega) (by omega) same
    omega
  · intro same
    have last : c % 10 = c' % 10 := by omega
    have other : c / 10 % 10 = c' / 10 % 10 := by omega
    rw [last, other]

/-- A place that was written 107 times looks like one that was written 7 times. -/
theorem drawNumberOfChunks_eq_iff_hundred : drawNumberOfChunks 107 = drawNumberOfChunks 7 :=
  (drawNumberOfChunks_eq_iff 107 7 (by decide) (by decide)).mpr (by decide)

end WebChunk.Terrain
