import WebChunk.ImageCache.Geometry

/-!
# The squares of the tiles

A location shows a square of chunks, and its picture has 16 by 16 pixels for each of them. A
picture that is cut out along a square keeps the pixels of its chunks, so that cutting twice is
cutting once.
-/

namespace WebChunk.ImageCache

open WebChunk.Go

namespace ImageLocation

/-- The number of chunks along a side. -/
def side (loc : ImageLocation) : Nat := 2 ^ loc.S.toNat

/-- The first chunk of the square. -/
def originX (loc : ImageLocation) : Int := loc.X * loc.side

def originZ (loc : ImageLocation) : Int := loc.Z * loc.side

/-- The chunks that the location shows. -/
def square (loc : ImageLocation) : Rect :=
  ⟨loc.originX, loc.originZ, loc.originX + loc.side, loc.originZ + loc.side⟩

/-- Every chunk of the one location is one of the other. -/
def Inside (inner outer : ImageLocation) : Prop :=
  ∀ x z, inner.square.contains x z → outer.square.contains x z

end ImageLocation

open ImageLocation

/-- The pixel `(a, b)` of a chunk in a picture of a location. -/
def chunkPixel (img : RGBA) (loc : ImageLocation) (cx cz a b : Int) : Color :=
  img.pix ((cx - loc.originX) * 16 + a) ((cz - loc.originZ) * 16 + b)

/-- The square of one location cut out of a picture of another. -/
def cutOut (img : RGBA) (outer inner : ImageLocation) : RGBA :=
  (RGBA.new (inner.side * 16) (inner.side * 16)).draw
    (RGBA.new (inner.side * 16) (inner.side * 16)).rect img
    ((inner.originX - outer.originX) * 16) ((inner.originZ - outer.originZ) * 16)

variable {inner middle outer loc : ImageLocation} {img native : RGBA}

theorem side_pos (loc : ImageLocation) : 0 < loc.side := Nat.two_pow_pos _

/-! ### Squares in squares -/

theorem inside_iff : Inside inner outer ↔
    (outer.originX ≤ inner.originX ∧
      inner.originX + inner.side ≤ outer.originX + outer.side) ∧
    outer.originZ ≤ inner.originZ ∧
      inner.originZ + inner.side ≤ outer.originZ + outer.side := by
  have positive := side_pos inner
  constructor
  · intro inside
    have first := inside inner.originX inner.originZ ⟨by simp [square], by simp [square]; omega,
      by simp [square], by simp [square]; omega⟩
    have last := inside (inner.originX + inner.side - 1) (inner.originZ + inner.side - 1)
      ⟨by simp [square]; omega, by simp [square], by simp [square]; omega, by simp [square]⟩
    obtain ⟨left, -, top, -⟩ := first
    obtain ⟨-, right, -, bottom⟩ := last
    simp only [square] at left top right bottom
    omega
  · rintro ⟨⟨left, right⟩, top, bottom⟩ x z ⟨fromX, toX, fromZ, toZ⟩
    simp only [square] at fromX toX fromZ toZ
    refine ⟨?_, ?_, ?_, ?_⟩ <;> simp only [square] <;> omega

/-! ### Cutting -/

theorem pix_cutOut (x y : Int) : (cutOut img outer inner).pix x y =
    if 0 ≤ x ∧ x < inner.side * 16 ∧ 0 ≤ y ∧ y < inner.side * 16 then
      img.pix (x + (inner.originX - outer.originX) * 16)
        (y + (inner.originZ - outer.originZ) * 16)
    else .blank := by
  rw [cutOut, RGBA.draw_new_pix]
  exact if_congr (by simp [Rect.contains]) rfl rfl

/-- Cutting a square out of a larger one is cutting it out at once. -/
theorem cutOut_cutOut (inside : Inside inner middle) :
    cutOut (cutOut img outer middle) middle inner = cutOut img outer inner := by
  obtain ⟨⟨left, right⟩, top, bottom⟩ := inside_iff.mp inside
  refine RGBA.ext rfl rfl fun x y => ?_
  have atOnce := @pix_cutOut inner outer img x y
  rw [pix_cutOut, atOnce]
  split
  · rename_i there
    obtain ⟨fromX, toX, fromY, toY⟩ := there
    rw [pix_cutOut, if_pos (by omega)]
    congr 1 <;> omega
  · rfl

/-- The pixels of a cut-out picture are those of its chunks. -/
theorem pix_cutOut_chunk {u v : Int} (u₀ : 0 ≤ u) (u₁ : u < inner.side * 16) (v₀ : 0 ≤ v)
    (v₁ : v < inner.side * 16) : (cutOut img outer inner).pix u v =
      chunkPixel img outer (inner.originX + u / 16) (inner.originZ + v / 16) (u % 16) (v % 16) := by
  rw [pix_cutOut, if_pos ⟨u₀, u₁, v₀, v₁⟩, chunkPixel]
  congr 1 <;> omega

/-! ### The storage tile -/

/-- The location of the storage tile, without overflow. -/
def storageTile (loc : ImageLocation) : ImageLocation :=
  { loc with S := StorageLevel, X := loc.originX / 32, Z := loc.originZ / 32 }

theorem side_storageTile (loc : ImageLocation) : (storageTile loc).side = 32 := rfl

theorem originX_storageTile (loc : ImageLocation) :
    (storageTile loc).originX = loc.originX - loc.originX % 32 := by
  change loc.originX / 32 * 32 = _
  omega

theorem originZ_storageTile (loc : ImageLocation) :
    (storageTile loc).originZ = loc.originZ - loc.originZ % 32 := by
  change loc.originZ / 32 * 32 = _
  omega

/-- A square up to the storage level does not leave the 32 chunks that it starts in. -/
theorem remainder_add_side_le (upper : loc.S ≤ StorageLevel) :
    loc.originX % 32 + loc.side ≤ 32 ∧ loc.originZ % 32 + loc.side ≤ 32 := by
  have aligned : ∀ (n : Nat), n ≤ 5 → ∀ c : Int, c * (2 ^ n : Nat) % 32 + (2 ^ n : Nat) ≤ 32 := by
    intro n small c
    interval_cases n <;> omega
  have small : loc.S.toNat ≤ 5 := by
    unfold StorageLevel at upper
    omega
  exact ⟨aligned _ small loc.X, aligned _ small loc.Z⟩

theorem inside_storageTile (upper : loc.S ≤ StorageLevel) : Inside loc (storageTile loc) := by
  obtain ⟨x, z⟩ := remainder_add_side_le upper
  rw [inside_iff, originX_storageTile, originZ_storageTile, side_storageTile]
  omega

/-- Squares inside of each other lie in one storage tile. -/
theorem storageTile_of_inside (upper : outer.S ≤ StorageLevel) (inside : Inside inner outer) :
    storageTile inner = { inner with
      S := StorageLevel, X := (storageTile outer).X, Z := (storageTile outer).Z } := by
  obtain ⟨x, z⟩ := remainder_add_side_le upper
  have positive := side_pos inner
  obtain ⟨⟨left, right⟩, top, bottom⟩ := inside_iff.mp inside
  have sameX : inner.originX / 32 = outer.originX / 32 := by omega
  have sameZ : inner.originZ / 32 = outer.originZ / 32 := by omega
  rw [storageTile, sameX, sameZ]
  rfl

/-- The first chunk of a square inside of another one is an `int` if that of the other is. -/
theorem inInt_of_inside (upper : outer.S ≤ StorageLevel) (inside : Inside inner outer)
    (x : InInt outer.originX) (z : InInt outer.originZ) :
    InInt inner.originX ∧ InInt inner.originZ := by
  obtain ⟨alignedX, alignedZ⟩ := remainder_add_side_le upper
  have positive := side_pos inner
  obtain ⟨⟨left, right⟩, top, bottom⟩ := inside_iff.mp inside
  simp only [InInt] at x z ⊢
  omega

theorem getStorageLevelLoc_eq (lower : 0 ≤ loc.S) (upper : loc.S ≤ StorageLevel)
    (x : InInt loc.originX) (z : InInt loc.originZ) :
    getStorageLevelLoc loc = some (storageTile loc) := by
  have shift : ∀ c : Int, InInt c → wrap c >>> (5 : Nat) = c / 32 := by
    intro c fits
    rw [wrap_of_fits fits.1 fits.2]
    exact Int.shiftRight_eq_div_pow c 5
  have tileX : wrap (loc.X * (2 ^ loc.S.toNat : Nat)) >>> (5 : Nat) = loc.originX / 32 := shift _ x
  have tileZ : wrap (loc.Z * (2 ^ loc.S.toNat : Nat)) >>> (5 : Nat) = loc.originZ / 32 := shift _ z
  simp only [getStorageLevelLoc, (index_powarr lower upper).1, AT, Option.bind_eq_bind,
    Option.bind_some, tileX, tileZ]
  rfl

/-- What `copyFragmentRGBA` copies is the square of the location, cut out of the tile. -/
theorem copyFragmentRGBA_eq (lower : 0 ≤ loc.S) (upper : loc.S ≤ StorageLevel) (native : RGBA) :
    copyFragmentRGBA native loc = some (cutOut native (storageTile loc) loc) := by
  obtain ⟨pow, side⟩ := index_powarr lower upper
  simp only [copyFragmentRGBA, pow, side, Option.bind_eq_bind, Option.bind_some, IN_wrap]
  rw [cutOut, originX_storageTile, originZ_storageTile, Int.sub_sub_self, Int.sub_sub_self]
  rfl

/-- Only the first chunk of the picture that is cut matters. -/
theorem cutOut_congr {outer' : ImageLocation} (x : outer.originX = outer'.originX)
    (z : outer.originZ = outer'.originZ) : cutOut img outer inner = cutOut img outer' inner := by
  rw [cutOut, cutOut, x, z]

/-! ### Fragments -/

/-- The fragment that is cut for a location out of the picture of its storage tile. -/
structure IsFragment (native : RGBA) (loc tile : ImageLocation) (image : RGBA) : Prop where
  storage : tile.square = ⟨tile.X * 32, tile.Z * 32, tile.X * 32 + 32, tile.Z * 32 + 32⟩
  inside : Inside loc tile
  offset : IN loc.originX loc.originZ =
    (loc.originX - tile.originX, loc.originZ - tile.originZ)
  within : let (ax, az) := IN loc.originX loc.originZ
    (0 ≤ ax * 16 ∧ ax * 16 + loc.side * 16 ≤ 512) ∧ 0 ≤ az * 16 ∧ az * 16 + loc.side * 16 ≤ 512
  size : image.dx = loc.side * 16 ∧ image.dy = loc.side * 16
  pixel : ∀ u v : Int, 0 ≤ u → u < loc.side * 16 → 0 ≤ v → v < loc.side * 16 →
    image.pix u v =
      chunkPixel native tile (loc.originX + u / 16) (loc.originZ + v / 16) (u % 16) (v % 16)
  /-- What is cut out of the fragment is what is copied from the tile, which is the same. -/
  nested : ∀ inner : ImageLocation, 0 ≤ inner.S → inner.S ≤ loc.S → Inside inner loc →
    getStorageLevelLoc inner = some { inner with S := StorageLevel, X := tile.X, Z := tile.Z } ∧
      copyFragmentRGBA native inner = some (cutOut image loc inner)

/-- Every location up to the storage level has its fragment, and fragments nest. -/
theorem tileGeometry (loc : ImageLocation) (lower : 0 ≤ loc.S) (upper : loc.S ≤ StorageLevel)
    (x : InInt loc.originX) (z : InInt loc.originZ) (native : RGBA) :
    ∃ tile image, getStorageLevelLoc loc = some tile ∧
      copyFragmentRGBA native loc = some image ∧ IsFragment native loc tile image := by
  obtain ⟨alignedX, alignedZ⟩ := remainder_add_side_le upper
  refine ⟨storageTile loc, _, getStorageLevelLoc_eq lower upper x z,
    copyFragmentRGBA_eq lower upper native, rfl, inside_storageTile upper, ?_, ?_, ⟨rfl, rfl⟩,
    fun u v u₀ u₁ v₀ v₁ => pix_cutOut_chunk u₀ u₁ v₀ v₁, ?_⟩
  · rw [IN, originX_storageTile, originZ_storageTile, Int.sub_sub_self, Int.sub_sub_self]
  · dsimp only [IN]
    omega
  · intro inner lower' smaller inside
    have upper' := smaller.trans upper
    obtain ⟨x', z'⟩ := inInt_of_inside upper inside x z
    have tile := storageTile_of_inside upper inside
    rw [getStorageLevelLoc_eq lower' upper' x' z', copyFragmentRGBA_eq lower' upper',
      cutOut_cutOut inside, tile]
    exact ⟨rfl, congrArg some (cutOut_congr rfl rfl)⟩

/-- A tile whose colors tell the place of a pixel, up to 256. -/
def gradientTile : RGBA where
  dx := 512
  dy := 512
  pix x y :=
    if (Rect.mk 0 0 512 512).contains x y then ⟨.ofNat x.toNat, .ofNat y.toNat, 0, 255⟩
    else .blank
  outside _ _ out := if_neg out

/-- A square of four by four chunks with a negative coordinate. -/
theorem tileGeometry_negative :
    ∃ tile image, getStorageLevelLoc ⟨"w", "d", "v", 2, -3, 5⟩ = some tile ∧
      copyFragmentRGBA gradientTile ⟨"w", "d", "v", 2, -3, 5⟩ = some image ∧
        IsFragment gradientTile ⟨"w", "d", "v", 2, -3, 5⟩ tile image ∧
          image.pix 1 2 = ⟨65, 66, 0, 255⟩ := by
  obtain ⟨tile, image, storage, copied, fragment⟩ :=
    tileGeometry ⟨"w", "d", "v", 2, -3, 5⟩ (by decide) (by decide) (by decide) (by decide)
      gradientTile
  refine ⟨tile, image, storage, copied, fragment, ?_⟩
  obtain rfl : ⟨"w", "d", "v", 5, -1, 0⟩ = tile := Option.some.inj storage
  rw [fragment.pixel 1 2 (by decide) (by decide) (by decide) (by decide)]
  decide

end WebChunk.ImageCache
