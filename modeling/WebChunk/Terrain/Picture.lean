import WebChunk.Terrain.Section

/-!
# Pictures of a chunk

The painters draw one pixel for each column: column `i` is the pixel `(i % 16, i / 16)` of a
square picture.
-/

namespace WebChunk.Terrain

open WebChunk.Go WebChunk.Semantics

/-- The pixel of a column. -/
def pixel (img : RGBA) (i : Nat) : Color := img.pix (i % 16 : Nat) (i / 16 : Nat)

/-- `img.Set(i%16, i/16, c)`. -/
def setPixel (img : RGBA) (i : Nat) (c : Color) : RGBA :=
  img.set (i % 16 : Nat) (i / 16 : Nat) c

/-- The picture has one pixel for each column. -/
def Square (img : RGBA) : Prop := img.dx = 16 ∧ img.dy = 16

/-- A new picture filled with one color. -/
def filled (c : Color) : RGBA := (RGBA.new 16 16).fill (RGBA.new 16 16).rect c

theorem Square.rect_contains {img : RGBA} (square : Square img) {x y : Int} :
    img.rect.contains x y ↔ 0 ≤ x ∧ x < 16 ∧ 0 ≤ y ∧ y < 16 := by
  obtain ⟨dx, dy⟩ := square
  simp [RGBA.rect, Rect.contains, dx, dy]

theorem Square.contains_column {img : RGBA} (square : Square img) {i : Nat} (inside : i < 256) :
    img.rect.contains (i % 16 : Nat) (i / 16 : Nat) := by
  rw [square.rect_contains]
  omega

/-- Two columns are at the same pixel only if they are the same. -/
theorem column_eq_of_pixel {i j : Nat} (same : ((i % 16 : Nat) : Int) = (j % 16 : Nat) ∧
    ((i / 16 : Nat) : Int) = (j / 16 : Nat)) : i = j := by
  omega

/-- A color that is painted opaque is not that of a new picture. -/
theorem toColor_ne_blank {c : Color64} (full : c.a = 65535) : c.toColor ≠ .blank := by
  intro blank
  have alpha : (c.a >>> 8).toUInt8 = 0 := congrArg Color.a blank
  rw [full] at alpha
  exact absurd alpha (by decide)

theorem square_new : Square (RGBA.new 16 16) := ⟨rfl, rfl⟩

theorem square_filled (c : Color) : Square (filled c) := ⟨rfl, rfl⟩

theorem pixel_new (i : Nat) : pixel (RGBA.new 16 16) i = .blank := rfl

theorem pixel_filled (c : Color) {i : Nat} (inside : i < 256) : pixel (filled c) i = c := by
  have there := square_new.contains_column inside
  exact if_pos ⟨there, there⟩

theorem Square.setPixel {img : RGBA} (square : Square img) (i : Nat) (c : Color) :
    Square (setPixel img i c) := square

/-- Painting a column changes its pixel alone. -/
theorem Square.pixel_setPixel {img : RGBA} (square : Square img) {here : Nat} (inside : here < 256)
    (c : Color) (i : Nat) :
    pixel (Terrain.setPixel img here c) i = if i = here then c else pixel img i := by
  unfold pixel Terrain.setPixel RGBA.set
  dsimp only
  by_cases same : i = here
  · subst same
    rw [if_pos ⟨rfl, rfl, square.contains_column inside⟩, if_pos rfl]
  · rw [if_neg fun painted => same (column_eq_of_pixel ⟨painted.1, painted.2.1⟩), if_neg same]

theorem acts_setPixel {here : Nat} (inside : here < 256) (c : Color) :
    Acts Square pixel (fun img => setPixel img here c) fun i part =>
      if i = here then c else part :=
  ⟨fun square => square.setPixel here c, fun _ square i => square.pixel_setPixel inside c i⟩

/-- Drawing a picture over another. -/
theorem acts_drawOver {layer : RGBA} (square : Square layer) :
    Acts Square pixel (fun img => img.drawOver (.ofCorners 0 0 16 16) layer) fun i part =>
      if i < 256 then part.over (pixel layer i) else part := by
  refine ⟨fun square => square, fun img squareImg i => ?_⟩
  unfold pixel RGBA.drawOver
  dsimp only
  by_cases inside : i < 256
  · have there := squareImg.contains_column inside
    have thereLayer := square.contains_column inside
    have drawn : (Rect.ofCorners 0 0 16 16).contains (i % 16 : Nat) (i / 16 : Nat) := by
      simp only [Rect.ofCorners, Rect.contains]
      omega
    have corner : (Rect.ofCorners 0 0 16 16).x0 = 0 ∧ (Rect.ofCorners 0 0 16 16).y0 = 0 := by
      decide
    rw [corner.1, corner.2, Int.sub_zero, Int.sub_zero, if_pos ⟨there, drawn, thereLayer⟩,
      if_pos inside]
  · rw [if_neg inside, if_neg]
    rintro ⟨there, -⟩
    rw [squareImg.rect_contains] at there
    omega

/-- Square pictures are equal if their columns have the same pixels. -/
theorem eq_of_pixel {left right : RGBA} (squareLeft : Square left) (squareRight : Square right)
    (same : ∀ i, i < 256 → pixel left i = pixel right i) : left = right := by
  refine RGBA.ext (squareLeft.1.trans squareRight.1.symm) (squareLeft.2.trans squareRight.2.symm)
    fun x y => ?_
  by_cases inside : 0 ≤ x ∧ x < 16 ∧ 0 ≤ y ∧ y < 16
  · have column := same (16 * y.toNat + x.toNat) (by omega)
    have place : (((16 * y.toNat + x.toNat) % 16 : Nat) : Int) = x ∧
        (((16 * y.toNat + x.toNat) / 16 : Nat) : Int) = y := by omega
    unfold pixel at column
    rwa [place.1, place.2] at column
  · rw [RGBA.pix_of_not_contains (mt squareLeft.rect_contains.mp inside),
      RGBA.pix_of_not_contains (mt squareRight.rect_contains.mp inside)]

/-- A default that no value has tells the missing value apart. -/
theorem getD_eq_iff {α : Type} {default : α} {a b : Option α}
    (notA : ∀ x, a = some x → x ≠ default) (notB : ∀ x, b = some x → x ≠ default) :
    a.getD default = b.getD default ↔ a = b := by
  cases a with
  | none =>
      cases b with
      | none => simp
      | some y => simpa using (notB y rfl).symm
  | some x =>
      cases b with
      | none => simpa using notA x rfl
      | some y => simp

/-- The picture shows the colors of the columns that are painted, none of which is the color of
the others. -/
structure Shows (img : RGBA) (default : Color) (color : Nat → Option Color) : Prop where
  square : Square img
  column : ∀ i, i < 256 → pixel img i = (color i).getD default
  apart : ∀ i x, color i = some x → x ≠ default

/-- Pictures are equal exactly if they show the same colors. -/
theorem Shows.eq_iff {img img' : RGBA} {default : Color} {color color' : Nat → Option Color}
    (shows : Shows img default color) (shows' : Shows img' default color') :
    img = img' ↔ ∀ i, i < 256 → color i = color' i := by
  have colors : ∀ i, i < 256 → (pixel img i = pixel img' i ↔ color i = color' i) := by
    intro i inside
    rw [shows.column i inside, shows'.column i inside,
      getD_eq_iff (shows.apart i) (shows'.apart i)]
  constructor
  · intro same i inside
    exact (colors i inside).mp (same ▸ rfl)
  · intro same
    exact eq_of_pixel shows.square shows'.square fun i inside =>
      (colors i inside).mpr (same i inside)

end WebChunk.Terrain
