import Mathlib.Tactic.IntervalCases
import WebChunk.Go.Image
import WebChunk.Go.Int
import WebChunk.Go.Path

/-!
# Tile locations

The coordinates of a tile at scale `S` count squares of `2 ^ S` chunks; the cache
keeps pictures of `StorageLevel` only. Indexing `powarr` outside its range is the
run-time panic of these functions and is the result `none`.
-/

namespace WebChunk.ImageCache

open WebChunk.Go

/-- `primitives.ImageLocation`. -/
structure ImageLocation where
  World : String
  Dimension : String
  Variant : String
  S : Int
  X : Int
  Z : Int
  deriving DecidableEq

/-- Indexing a table with an `int`. -/
def index (table : List Nat) (i : Int) : Option Nat :=
  if 0 ≤ i then table[i.toNat]? else none

def powarr : List Nat := [1, 2, 4, 8, 16, 32, 64, 128, 256, 512, 1024, 2048, 4096]

def powarr16 : List Nat :=
  [1 * 16, 2 * 16, 4 * 16, 8 * 16, 16 * 16, 32 * 16, 64 * 16, 128 * 16, 256 * 16, 512 * 16,
    1024 * 16, 2048 * 16, 4096 * 16]

def StorageLevel : Int := 5

/-- `AT`: the storage tile of a chunk. -/
def AT (cx cz : Int) : Int × Int := (cx >>> (5 : Nat), cz >>> (5 : Nat))

/-- `IN`: the place of a chunk in its storage tile. The mask `c & 31` of a two's
complement number is its remainder. -/
def IN (cx cz : Int) : Int × Int := (cx % 32, cz % 32)

/-- `getStorageLevelLoc`: the storage tile that a location lies in. -/
def getStorageLevelLoc (loc : ImageLocation) : Option ImageLocation := do
  let pow ← index powarr loc.S
  let (rx, rz) := AT (wrap (loc.X * pow)) (wrap (loc.Z * pow))
  return { loc with S := StorageLevel, X := rx, Z := rz }

/-- `copyFragmentRGBA`, on a picture that is there: the part of a storage tile that a
location shows. -/
def copyFragmentRGBA (source : RGBA) (target : ImageLocation) : Option RGBA := do
  let pow ← index powarr target.S
  let side ← index powarr16 target.S
  let (ax, az) := IN (wrap (target.X * pow)) (wrap (target.Z * pow))
  return (RGBA.new side side).draw (RGBA.new side side).rect source (ax * 16) (az * 16)

/-- `copyRGBA`, on a picture that is there. -/
def copyRGBA (source : RGBA) : RGBA :=
  (RGBA.new source.dx source.dy).draw (RGBA.new source.dx source.dy).rect source 0 0

/-- `cacheGetFilenameLoc` below a root directory. -/
def cacheGetFilenameLoc (root : String) (loc : ImageLocation) : String :=
  Path.join [".", root, loc.World, loc.Dimension, loc.Variant, toString loc.S,
    toString loc.X ++ "x" ++ toString loc.Z ++ ".png"]

@[simp] theorem copyRGBA_eq (source : RGBA) : copyRGBA source = source :=
  RGBA.draw_whole rfl rfl

/-- The table has an entry for every scale up to the storage level. -/
theorem index_powarr {s : Int} (lower : 0 ≤ s) (upper : s ≤ StorageLevel) :
    index powarr s = some (2 ^ s.toNat) ∧ index powarr16 s = some (2 ^ s.toNat * 16) := by
  unfold StorageLevel at upper
  obtain ⟨n, rfl⟩ := Int.eq_ofNat_of_zero_le lower
  have small : n ≤ 5 := by omega
  interval_cases n <;> decide

/-- A location at a scale of the table lies in a storage tile. -/
theorem getStorageLevelLoc_isSome {loc : ImageLocation} (lower : 0 ≤ loc.S)
    (upper : loc.S ≤ StorageLevel) : (getStorageLevelLoc loc).isSome := by
  simp [getStorageLevelLoc, (index_powarr lower upper).1]

/-- Negative scales have no table entry. -/
theorem getStorageLevelLoc_negative {loc : ImageLocation} (negative : loc.S < 0) :
    getStorageLevelLoc loc = none := by
  simp [getStorageLevelLoc, index, Int.not_le.mpr negative]

/-- The first chunk of the storage tile of a chunk. -/
theorem storageStart (c : Int) : c >>> (5 : Nat) * 32 = c - c % 32 := by
  rw [Int.shiftRight_eq_div_pow]
  omega

/-- The place of a chunk in its tile survives the overflow of its coordinates. -/
theorem IN_wrap (x z : Int) : IN (wrap x) (wrap z) = IN x z := by
  have each : ∀ c : Int, wrap c % 32 = c % 32 := by
    intro c
    rw [wrap, Int.bmod_def]
    split <;> omega
  rw [IN, IN, each, each]

end WebChunk.ImageCache
