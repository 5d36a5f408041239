import WebChunk.Go.Image

/-!
# Pictures in PNG files

Colors are premultiplied in an `image.RGBA`, and not in a PNG file. `png.Encode` and the
`draw.Draw` of what `png.Decode` returns convert the translucent ones, both rounding down.
-/

namespace WebChunk.Go

/-- A component that was written to a file and read back, `alpha` being that of its color. -/
def UInt8.throughPng (c alpha : UInt8) : UInt8 :=
  if alpha = 0 then 0
  else if alpha = 255 then c
  else
    let straight := UInt8.ofNat (c.toNat * 0x101 * 0xffff / (alpha.toNat * 0x101) / 256)
    .ofNat (straight.toNat * (alpha.toNat * 0x101) / 0xff / 256)

def Color.throughPng (c : Color) : Color where
  r := UInt8.throughPng c.r c.a
  g := UInt8.throughPng c.g c.a
  b := UInt8.throughPng c.b c.a
  a := c.a

theorem Color.throughPng_blank : Color.throughPng .blank = .blank := rfl

theorem Color.throughPng_opaque {c : Color} (full : c.a = 255) : c.throughPng = c := by
  have kept : ∀ component, UInt8.throughPng component 255 = component := fun _ => rfl
  rw [throughPng, full, kept, kept, kept, ← full]

example : Color.throughPng ⟨10, 128, 0, 128⟩ = ⟨9, 128, 0, 128⟩ := by decide

/-- The picture that is read back once a picture was written. -/
def RGBA.throughPng (img : RGBA) : RGBA where
  dx := img.dx
  dy := img.dy
  pix x y := (img.pix x y).throughPng
  outside x y out := by rw [img.outside x y out, Color.throughPng_blank]

/-- A picture of opaque and blank pixels is read back as it was. -/
theorem RGBA.throughPng_eq {img : RGBA}
    (plain : ∀ x y, (img.pix x y).a = 255 ∨ img.pix x y = .blank) : img.throughPng = img := by
  refine RGBA.ext rfl rfl fun x y => ?_
  rcases plain x y with full | blank
  · exact Color.throughPng_opaque full
  · change (img.pix x y).throughPng = img.pix x y
    rw [blank, Color.throughPng_blank]

end WebChunk.Go
