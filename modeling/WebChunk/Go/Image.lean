import Mathlib.Tactic.Common

/-!
# Pictures

`image.RGBA` pictures whose rectangle starts at the origin, as all pictures of this
program do, with the two drawing operations it uses. Pixels outside the rectangle
are blank, so that equal pictures are equal values.
-/

namespace WebChunk.Go

/-- A premultiplied RGBA color. -/
structure Color where
  r : UInt8
  g : UInt8
  b : UInt8
  a : UInt8
  deriving DecidableEq

/-- The color of a new picture. -/
def Color.blank : Color := ⟨0, 0, 0, 0⟩

/-- `color.RGBA64`. -/
structure Color64 where
  r : UInt16
  g : UInt16
  b : UInt16
  a : UInt16
  deriving DecidableEq

/-- `color.RGBAModel.Convert`. -/
def Color64.toColor (c : Color64) : Color :=
  ⟨(c.r >>> 8).toUInt8, (c.g >>> 8).toUInt8, (c.b >>> 8).toUInt8, (c.a >>> 8).toUInt8⟩

/-- One component drawn over another, `alpha` being the alpha of the color drawn. -/
def UInt8.over (below above alpha : UInt8) : UInt8 :=
  .ofNat ((below.toNat * ((65535 - alpha.toNat * 257) * 257) / 65535 + above.toNat * 257) / 256)

/-- A color drawn over another with `draw.Over`. -/
def Color.over (below above : Color) : Color where
  r := UInt8.over below.r above.r above.a
  g := UInt8.over below.g above.g above.a
  b := UInt8.over below.b above.b above.a
  a := UInt8.over below.a above.a above.a

/-- Nothing drawn over a component. -/
theorem UInt8.over_zero (below : UInt8) : UInt8.over below 0 0 = below := by
  have small := below.toNat_lt
  have same : (below.toNat * ((65535 - (0 : UInt8).toNat * 257) * 257) / 65535 +
      (0 : UInt8).toNat * 257) / 256 = below.toNat := by
    simp only [UInt8.toNat_zero]
    omega
  rw [UInt8.over, same, UInt8.ofNat_toNat]

/-- An opaque component drawn over another. -/
theorem UInt8.over_full (below above : UInt8) : UInt8.over below above 255 = above := by
  have small := above.toNat_lt
  have full : (255 : UInt8).toNat = 255 := rfl
  have same : (below.toNat * ((65535 - (255 : UInt8).toNat * 257) * 257) / 65535 +
      above.toNat * 257) / 256 = above.toNat := by
    rw [full]
    omega
  rw [UInt8.over, same, UInt8.ofNat_toNat]

theorem Color.over_blank (below : Color) : below.over .blank = below := by
  simp [Color.over, Color.blank, UInt8.over_zero]

theorem Color.over_opaque (below : Color) (r g b : UInt8) :
    below.over ⟨r, g, b, 255⟩ = ⟨r, g, b, 255⟩ := by
  simp [Color.over, UInt8.over_full]

/-- What is left of a component below has room above. -/
theorem UInt8.over_room (below alpha : UInt8) :
    below.toNat * ((65535 - alpha.toNat * 257) * 257) / 65535 ≤ 65535 - alpha.toNat * 257 := by
  have small := below.toNat_lt
  refine Nat.div_le_of_le_mul ?_
  calc below.toNat * ((65535 - alpha.toNat * 257) * 257)
      ≤ 255 * ((65535 - alpha.toNat * 257) * 257) := Nat.mul_le_mul_right _ (by omega)
    _ = 65535 * (65535 - alpha.toNat * 257) := by omega

theorem UInt8.ofNat_eq_zero_iff {n : Nat} (small : n < 256) : UInt8.ofNat n = 0 ↔ n = 0 := by
  rw [← UInt8.toNat_inj, UInt8.toNat_ofNat_of_lt' small]
  rfl

/-- Only nothing over nothing is transparent. -/
theorem UInt8.over_self_eq_zero_iff (below alpha : UInt8) :
    UInt8.over below alpha alpha = 0 ↔ below = 0 ∧ alpha = 0 := by
  constructor
  · intro same
    have room := UInt8.over_room below alpha
    have small := alpha.toNat_lt
    rw [UInt8.over, UInt8.ofNat_eq_zero_iff (by omega)] at same
    have none_ : alpha = 0 := UInt8.toNat_inj.mp (by rw [UInt8.toNat_zero]; omega)
    subst none_
    refine ⟨UInt8.toNat_inj.mp ?_, rfl⟩
    simp only [UInt8.toNat_zero] at same ⊢
    omega
  · rintro ⟨rfl, rfl⟩
    exact UInt8.over_zero 0

/-- A component that is added to the one below. -/
theorem UInt8.over_transparent_eq_zero_iff (below above : UInt8) :
    UInt8.over below above 0 = 0 ↔ below = 0 ∧ above = 0 := by
  constructor
  · intro same
    have lower := below.toNat_lt
    have upper := above.toNat_lt
    have value := congrArg UInt8.toNat same
    simp only [UInt8.over, UInt8.toNat_ofNat', UInt8.toNat_zero] at value
    -- The sum wraps once at most, and then not to zero.
    have none_ : below.toNat + above.toNat = 0 := by
      have whole : (below.toNat * ((65535 - 0 * 257) * 257) / 65535 + above.toNat * 257) / 256 =
          (below.toNat + above.toNat) * 257 / 256 := by omega
      rw [whole] at value
      have most : below.toNat + above.toNat ≤ 510 := by omega
      generalize below.toNat + above.toNat = sum at value most ⊢
      have once : sum * 257 / 256 / 256 ≤ 1 := by omega
      rcases Nat.le_one_iff_eq_zero_or_eq_one.mp once with none_ | one <;> omega
    constructor <;> refine UInt8.toNat_inj.mp ?_ <;> rw [UInt8.toNat_zero] <;> omega
  · rintro ⟨rfl, rfl⟩
    exact UInt8.over_zero 0

/-- A blank pixel stays blank only under a blank one. -/
theorem Color.over_eq_blank_iff {below above : Color} :
    below.over above = .blank ↔ below = .blank ∧ above = .blank := by
  constructor
  · intro same
    obtain ⟨r, g, b, a⟩ := below
    obtain ⟨r', g', b', a'⟩ := above
    simp only [Color.over, Color.blank, Color.mk.injEq, UInt8.over_self_eq_zero_iff] at same
    obtain ⟨red, green, blue, rfl, rfl⟩ := same
    rw [UInt8.over_transparent_eq_zero_iff] at red green blue
    obtain ⟨rfl, rfl⟩ := red
    obtain ⟨rfl, rfl⟩ := green
    obtain ⟨rfl, rfl⟩ := blue
    exact ⟨rfl, rfl⟩
  · rintro ⟨rfl, rfl⟩
    exact Color.over_blank _

/-- `image.Rectangle`. -/
structure Rect where
  x0 : Int
  y0 : Int
  x1 : Int
  y1 : Int

/-- `image.Rect`. -/
def Rect.ofCorners (x0 y0 x1 y1 : Int) : Rect := ⟨min x0 x1, min y0 y1, max x0 x1, max y0 y1⟩

/-- `Point.In`. -/
def Rect.contains (r : Rect) (x y : Int) : Prop := r.x0 ≤ x ∧ x < r.x1 ∧ r.y0 ≤ y ∧ y < r.y1

instance (r : Rect) (x y : Int) : Decidable (r.contains x y) :=
  inferInstanceAs (Decidable (_ ∧ _ ∧ _ ∧ _))

/-- `image.RGBA`, with the rectangle from the origin to `(dx, dy)`. -/
structure RGBA where
  dx : Nat
  dy : Nat
  pix : Int → Int → Color
  outside : ∀ x y, ¬ (Rect.mk 0 0 dx dy).contains x y → pix x y = .blank

namespace RGBA

/-- `Rect`. -/
def rect (image : RGBA) : Rect := ⟨0, 0, image.dx, image.dy⟩

@[ext] theorem ext {left right : RGBA} (dx : left.dx = right.dx) (dy : left.dy = right.dy)
    (pix : ∀ x y, left.pix x y = right.pix x y) : left = right := by
  cases left
  cases right
  obtain rfl := dx
  obtain rfl := dy
  obtain rfl := funext fun x => funext (pix x)
  rfl

/-- `image.NewRGBA(image.Rect(0, 0, dx, dy))`. -/
def new (dx dy : Nat) : RGBA := ⟨dx, dy, fun _ _ => .blank, fun _ _ _ => rfl⟩

/-- `Set`. -/
def set (image : RGBA) (px py : Int) (c : Color) : RGBA where
  dx := image.dx
  dy := image.dy
  pix x y := if x = px ∧ y = py ∧ image.rect.contains x y then c else image.pix x y
  outside x y out := by
    rw [if_neg fun painted => out painted.2.2]
    exact image.outside x y out

/-- `draw.Draw(dst, r, &image.Uniform{c}, image.Point{}, draw.Src)`. -/
def fill (dst : RGBA) (r : Rect) (c : Color) : RGBA where
  dx := dst.dx
  dy := dst.dy
  pix x y := if dst.rect.contains x y ∧ r.contains x y then c else dst.pix x y
  outside x y out := by
    rw [if_neg fun painted => out painted.1]
    exact dst.outside x y out

/-- `draw.Draw(dst, r, src, image.Point{spx, spy}, draw.Src)`: the part of `r` inside
both pictures is copied. A nil mask makes `draw.DrawMask` the same. -/
def draw (dst : RGBA) (r : Rect) (src : RGBA) (spx spy : Int) : RGBA where
  dx := dst.dx
  dy := dst.dy
  pix x y :=
    if dst.rect.contains x y ∧ r.contains x y ∧
        src.rect.contains (x - r.x0 + spx) (y - r.y0 + spy) then
      src.pix (x - r.x0 + spx) (y - r.y0 + spy)
    else dst.pix x y
  outside x y out := by
    rw [if_neg fun drawn => out drawn.1]
    exact dst.outside x y out

/-- `draw.Draw(dst, r, src, image.Point{}, draw.Over)`. -/
def drawOver (dst : RGBA) (r : Rect) (src : RGBA) : RGBA where
  dx := dst.dx
  dy := dst.dy
  pix x y :=
    if dst.rect.contains x y ∧ r.contains x y ∧ src.rect.contains (x - r.x0) (y - r.y0) then
      (dst.pix x y).over (src.pix (x - r.x0) (y - r.y0))
    else dst.pix x y
  outside x y out := by
    rw [if_neg fun drawn => out drawn.1]
    exact dst.outside x y out

@[simp] theorem rect_x0 (image : RGBA) : image.rect.x0 = 0 := rfl
@[simp] theorem rect_y0 (image : RGBA) : image.rect.y0 = 0 := rfl
@[simp] theorem rect_new (dx dy : Nat) : (new dx dy).rect = ⟨0, 0, dx, dy⟩ := rfl

theorem pix_of_not_contains {image : RGBA} {x y : Int} (out : ¬ image.rect.contains x y) :
    image.pix x y = .blank := image.outside x y out

/-- Drawing a whole picture over one of the same size leaves the picture drawn. -/
theorem draw_whole {dst src : RGBA} (dx : dst.dx = src.dx) (dy : dst.dy = src.dy) :
    dst.draw dst.rect src 0 0 = src := by
  refine RGBA.ext dx dy fun x y => ?_
  have same : dst.rect = src.rect := by rw [rect, rect, dx, dy]
  simp only [draw, same, rect_x0, rect_y0, Int.sub_zero, Int.add_zero]
  by_cases inside : src.rect.contains x y
  · rw [if_pos ⟨inside, inside, inside⟩]
  · rw [if_neg fun drawn => inside drawn.1, pix_of_not_contains (same ▸ inside),
      pix_of_not_contains inside]

/-- The pixels of a fragment cut out of a picture. -/
theorem draw_new_pix (side : Nat) (src : RGBA) (spx spy x y : Int) :
    ((new side side).draw (new side side).rect src spx spy).pix x y =
      if (new side side).rect.contains x y then src.pix (x + spx) (y + spy) else .blank := by
  simp only [draw, rect_x0, rect_y0, Int.sub_zero]
  by_cases inside : (new side side).rect.contains x y
  · by_cases there : src.rect.contains (x + spx) (y + spy)
    · rw [if_pos ⟨inside, inside, there⟩, if_pos inside]
    · rw [if_neg fun drawn => there drawn.2.2, if_pos inside, pix_of_not_contains there]
      rfl
  · rw [if_neg fun drawn => inside drawn.1, if_neg inside]
    rfl

end RGBA

end WebChunk.Go
