import WebChunk.Terrain.Colors
import WebChunk.Terrain.Shading

/-!
# Shaded terrain

`drawShadedTerrain` draws the shading of a chunk over its colors.
-/

namespace WebChunk.Terrain

open WebChunk.Go WebChunk.Semantics

variable (lib : Library)

/-- The chunk as `drawChunk` leaves it, which sorts its sections in place. -/
def drawnChunk (chunk : Chunk) : Chunk := ⟨sortedSections lib chunk⟩

def drawShadedTerrain (chunkContext : ContextedChunkData) : RGBA :=
  let img := drawChunk lib (some chunkContext.center)
  let sh := drawChunkShading lib { chunkContext with center := drawnChunk lib chunkContext.center }
  img.drawOver img.rect sh

/-! ### A pixel -/

/-- The depths of a shade that is there. -/
def depths : List Nat := [16, 32, 48, 64]

/-- A component under a shade, and the alpha of what the shade covers. -/
theorem shaded_bytes : ∀ n ∈ depths, ∀ b < 256,
    (b * ((65535 - n * 257) * 257) / 65535 / 256 ≤ b ∧
      (b * ((65535 - n * 257) * 257) / 65535 / 256 = b ↔ b = 0)) ∧
    (b * ((65535 - n * 257) * 257) / 65535 + n * 257) / 256 < 256 ∧
      ((b * ((65535 - n * 257) * 257) / 65535 + n * 257) / 256 = b ↔ b = 255) := by
  decide +kernel

theorem depth_lt {n : Nat} (depth : n ∈ depths) : n < 256 := by
  have small : ∀ n ∈ depths, n < 256 := by decide
  exact small n depth

/-- A component under a shade gets darker. -/
theorem over_shade (below : UInt8) {n : Nat} (depth : n ∈ depths) :
    UInt8.over below 0 (.ofNat n) ≤ below ∧
      (UInt8.over below 0 (.ofNat n) = below ↔ below = 0) := by
  obtain ⟨⟨darker, same⟩, -⟩ := shaded_bytes n depth below.toNat below.toNat_lt
  have small := below.toNat_lt
  have value : (UInt8.over below 0 (.ofNat n)).toNat =
      below.toNat * ((65535 - n * 257) * 257) / 65535 / 256 := by
    unfold UInt8.over
    rw [UInt8.toNat_ofNat', UInt8.toNat_ofNat', UInt8.toNat_zero,
      Nat.mod_eq_of_lt (depth_lt depth), Nat.zero_mul, Nat.add_zero,
      Nat.mod_eq_of_lt (lt_of_le_of_lt darker small)]
  rw [UInt8.le_iff_toNat_le, ← UInt8.toNat_inj, ← UInt8.toNat_inj, value]
  exact ⟨darker, same⟩

/-- The alpha of what a shade covers grows up to that of an opaque color. -/
theorem over_shade_alpha (below : UInt8) {n : Nat} (depth : n ∈ depths) :
    UInt8.over below (.ofNat n) (.ofNat n) = below ↔ below = 255 := by
  obtain ⟨-, small, same⟩ := shaded_bytes n depth below.toNat below.toNat_lt
  have value : (UInt8.over below (.ofNat n) (.ofNat n)).toNat =
      (below.toNat * ((65535 - n * 257) * 257) / 65535 + n * 257) / 256 := by
    unfold UInt8.over
    rw [UInt8.toNat_ofNat', UInt8.toNat_ofNat', Nat.mod_eq_of_lt (depth_lt depth),
      Nat.mod_eq_of_lt small]
  rw [← UInt8.toNat_inj, ← UInt8.toNat_inj, value]
  exact same

/-- A color with another one over it is no lighter. -/
def Color.NoLighter (c below : Color) : Prop := c.r ≤ below.r ∧ c.g ≤ below.g ∧ c.b ≤ below.b

theorem over_shade_color (below : Color) {n : Nat} (depth : n ∈ depths) :
    Color.NoLighter (below.over ⟨0, 0, 0, .ofNat n⟩) below ∧
      (below.over ⟨0, 0, 0, .ofNat n⟩ = below ↔ below = ⟨0, 0, 0, 255⟩) := by
  have red := over_shade below.r depth
  have green := over_shade below.g depth
  have blue := over_shade below.b depth
  have alpha := over_shade_alpha below.a depth
  refine ⟨⟨red.1, green.1, blue.1⟩, ?_⟩
  obtain ⟨r, g, b, a⟩ := below
  simp only [Color.over, Color.mk.injEq, red.2, green.2, blue.2, alpha]

/-! ### The picture -/

theorem square_drawChunkShading (chunkContext : ContextedChunkData) :
    Square (drawChunkShading lib chunkContext) := by
  have loop := Acts.places (List.nodup_range (n := 16 * 16)) fun here member =>
    acts_shadingStep (genHeightmap lib chunkContext.center)
      (chunkContext.right.map (genHeightmap lib)) (chunkContext.top.map (genHeightmap lib))
      (List.mem_range.mp member)
  have kept := loop.kept (square_filled ⟨0, 0, 0, 0⟩)
  unfold drawChunkShading
  dsimp only
  exact kept

/-- The shading is drawn over the color of each column. -/
theorem pixel_drawShadedTerrain (chunkContext : ContextedChunkData) {i : Nat} (inside : i < 256) :
    pixel (drawShadedTerrain lib chunkContext) i =
      (pixel (drawChunk lib (some chunkContext.center)) i).over
        (pixel (drawChunkShading lib
          { chunkContext with center := drawnChunk lib chunkContext.center }) i) := by
  have square := square_drawChunk lib chunkContext.center
  have rect : (drawChunk lib (some chunkContext.center)).rect = .ofCorners 0 0 16 16 := by
    obtain ⟨dx, dy⟩ := square
    rw [RGBA.rect, dx, dy]
    rfl
  unfold drawShadedTerrain
  dsimp only
  rw [rect, (acts_drawOver (square_drawChunkShading lib _)).part _ square, if_pos inside]

variable {lib} {h : Int → Int → Int} {X Z : Int} {chunkContext : ContextedChunkData}

/-- The height of the column to the north; an absent chunk has the height -1. -/
def northHeight (h : Int → Int → Int) (X Z : Int) (chunkContext : ContextedChunkData)
    (x z : Nat) : Int :=
  if z = 0 ∧ chunkContext.top.isNone then -1 else h (16 * X + x) (16 * Z + z - 1)

/-- The height of the column to the east. -/
def eastHeight (h : Int → Int → Int) (X Z : Int) (chunkContext : ContextedChunkData)
    (x z : Nat) : Int :=
  if x = 15 ∧ chunkContext.right.isNone then -1 else h (16 * X + x + 1) (16 * Z + z)

/-- A column is shaded if a neighbour column is higher. -/
theorem shadeDepth_cases (hc ht hr : Int) :
    shadeDepth hc ht hr = 0 ∧ ht ≤ hc ∧ hr ≤ hc ∨
      (shadeDepth hc ht hr % 256).toNat ∈ depths ∧ ¬ (ht ≤ hc ∧ hr ≤ hc) := by
  rw [shadeDepth_eq]
  simp only [depths, List.mem_cons, List.not_mem_nil, or_false]
  omega

variable (lib)

/-- Shaded terrain is nowhere lighter than the colors of the chunk, and differs from them exactly
at the columns that are lower than a neighbour column, other than opaque black ones. -/
theorem drawShadedTerrain_darkens (h : Int → Int → Int) (X Z : Int)
    (chunkContext : ContextedChunkData)
    (surrounds : Surrounds lib h X Z
      { chunkContext with center := drawnChunk lib chunkContext.center })
    (x z : Nat) (hx : x < 16) (hz : z < 16) :
    Color.NoLighter ((drawShadedTerrain lib chunkContext).pix x z)
        ((drawChunk lib (some chunkContext.center)).pix x z) ∧
      ((drawShadedTerrain lib chunkContext).pix x z =
          (drawChunk lib (some chunkContext.center)).pix x z ↔
        (northHeight h X Z chunkContext x z ≤ h (16 * X + x) (16 * Z + z) ∧
          eastHeight h X Z chunkContext x z ≤ h (16 * X + x) (16 * Z + z)) ∨
        (drawChunk lib (some chunkContext.center)).pix x z = ⟨0, 0, 0, 255⟩) := by
  have column : (16 * z + x) % 16 = x := by omega
  have row : (16 * z + x) / 16 = z := by omega
  have drawn := pixel_drawShadedTerrain lib chunkContext (show 16 * z + x < 256 by omega)
  have shade := pix_drawChunkShading surrounds hx hz
  simp only [pixel, column, row] at drawn
  rw [drawn, shade]
  rcases shadeDepth_cases (h (16 * X + x) (16 * Z + z)) (northHeight h X Z chunkContext x z)
    (eastHeight h X Z chunkContext x z) with ⟨none_, high⟩ | ⟨depth, low⟩
  · unfold northHeight eastHeight at none_
    have blank (c : Color) : c.over ⟨0, 0, 0, .ofNat ((0 : Int) % 256).toNat⟩ = c :=
      Color.over_blank c
    rw [none_, blank]
    exact ⟨⟨UInt8.le_refl _, UInt8.le_refl _, UInt8.le_refl _⟩, fun _ => .inl high, fun _ => rfl⟩
  · obtain ⟨darker, same⟩ := over_shade_color
      ((drawChunk lib (some chunkContext.center)).pix x z) depth
    refine ⟨darker, same.trans ?_⟩
    simp [low]

/-- A chunk without neighbours. -/
def aloneContext : ContextedChunkData := ⟨sampleChunk, none, none, none, none⟩

/-- A column of a chunk without neighbours. -/
theorem drawShadedTerrain_darkens_sample :
    Color.NoLighter ((drawShadedTerrain sampleLibrary aloneContext).pix (3 : Nat) (4 : Nat))
      ((drawChunk sampleLibrary (some aloneContext.center)).pix (3 : Nat) (4 : Nat)) :=
  (drawShadedTerrain_darkens sampleLibrary
    (worldOf sampleLibrary (drawnChunk sampleLibrary sampleChunk)) 0 0 aloneContext
    (surrounds_alone sampleLibrary (drawnChunk sampleLibrary sampleChunk)) 3 4 (by decide)
    (by decide)).1

end WebChunk.Terrain
