import Mathlib.Algebra.Ring.Int.Defs
import WebChunk.Go.Image
import WebChunk.Web.TextDecoder

/-!
# The tile message

`marshalBinaryTileUpdate` of the server and the message listener of `view.gohtml` that takes it
apart. The names of a location are the byte strings that they are in Go.
-/

namespace WebChunk.Server

open WebChunk.Go WebChunk.Web

/-- `primitives.ImageLocation`. -/
structure Location where
  World : List UInt8
  Dimension : List UInt8
  Variant : List UInt8
  S : Int
  X : Int
  Z : Int
  deriving DecidableEq

/-! ### The server -/

/-- `binary.Write` of a number converted to `width` bytes. -/
def writeInt (width : Nat) (n : Int) : List UInt8 :=
  bigEndianBytes width (n % 256 ^ width).toNat

/-- A string behind its length. -/
def writeName (name : List UInt8) : List UInt8 := bigEndianBytes 4 name.length ++ name

/-- What `pngEncoder` writes, `Encode` being what it writes for a picture. -/
def payload (Encode : RGBA → List UInt8) : Option RGBA → List UInt8
  | none => []
  | some picture => Encode picture

/-- `marshalBinaryTileUpdate`. -/
def marshalBinaryTileUpdate (Encode : RGBA → List UInt8) (loc : Location) (img : Option RGBA) :
    List UInt8 :=
  writeInt 1 0x01 ++ (writeName loc.World ++ (writeName loc.Dimension ++ (writeName loc.Variant ++
    (writeInt 1 loc.S ++ (writeInt 4 loc.X ++ (writeInt 4 loc.Z ++ payload Encode img))))))

/-- The pictures that the PNG format has room for. -/
def Encodable (picture : RGBA) : Prop :=
  0 < picture.dx ∧ picture.dx < 2 ^ 32 ∧ 0 < picture.dy ∧ picture.dy < 2 ^ 32

instance (picture : RGBA) : Decidable (Encodable picture) := inferInstanceAs (Decidable (_ ∧ _))

/-- `png.Encoder`: a file starts with the signature, and of a picture that the format has no room
for nothing is written. -/
structure WritesPng (Encode : RGBA → List UInt8) : Prop where
  signature : ∀ picture, Encodable picture →
    [0x89, 0x50, 0x4E, 0x47, 0x0D, 0x0A, 0x1A, 0x0A] <+: Encode picture
  refused : ∀ picture, ¬ Encodable picture → Encode picture = []

/-! ### The browser -/

/-- `view.getUint8(offset)` and `view.getUint32(offset)`. Outside the buffer they throw. -/
def getUint (width : Nat) (data : List UInt8) (offset : Nat) : Option Nat :=
  if offset + width ≤ data.length then some (bigEndian ((data.drop offset).take width)) else none

/-- `view.getInt32(offset)`. -/
def getInt32 (data : List UInt8) (offset : Nat) : Option Int :=
  (getUint 4 data offset).map fun n : Nat => (n : Int).bmod (2 ^ 32)

/-- `event.data.slice(start, stop)`. -/
def slice (data : List UInt8) (start stop : Nat) : List UInt8 := (data.drop start).take (stop - start)

/-- The variables that the fields in front of the picture are read into. -/
structure TileHeader where
  sWorld : List Char
  sDimension : List Char
  sLayer : List Char
  cs : Nat
  cx : Int
  cz : Int
  deriving DecidableEq

/-- `coords`. -/
def TileHeader.coords (header : TileHeader) : String :=
  toString header.cx ++ ":" ++ toString header.cz ++ ":" ++ toString header.cs

/-- A length, the text of that many bytes, and the offset behind them. -/
def readName (data : List UInt8) (offset : Nat) : Option (List Char × Nat) := do
  let l ← getUint 4 data offset
  let offset := offset + 4
  return (decode (slice data offset (offset + l)), offset + l)

/-- The fields behind the opcode 1, and the offset behind them. -/
def readTileHeader (data : List UInt8) : Option (TileHeader × Nat) := do
  let (sWorld, offset) ← readName data 1
  let (sDimension, offset) ← readName data offset
  let (sLayer, offset) ← readName data offset
  let cs ← getUint 1 data offset
  let offset := offset + 1
  let cx ← getInt32 data offset
  let offset := offset + 4
  let cz ← getInt32 data offset
  let offset := offset + 4
  return (⟨sWorld, sDimension, sLayer, cs, cx, cz⟩, offset)

/-- How the listener ends: with an error, with a `break` before it has looked for a picture, with
the `break` because there is none, or with a new source for the image of the tile. -/
inductive Shown (Tile : Type)
  | thrown
  | nothing
  | noPayload (tile : Tile)
  | source (tile : Tile) (imgbytes : List UInt8)

/-- The listener on binary messages. `tiles` has the layers by name and in a layer its tiles by
their coordinates. -/
def onMessage {Tile : Type} (tiles : List Char → Option (String → Option Tile))
    (data : List UInt8) : Shown Tile :=
  match getUint 1 data 0 with
  | none => .thrown
  | some 1 =>
      match readTileHeader data with
      | none => .thrown
      | some (header, offset) =>
          match tiles header.sLayer with
          -- `tiles[sLayer][coords]` reads a property of `undefined`.
          | none => .thrown
          | some layer =>
              match layer header.coords with
              | none => .nothing
              | some tile =>
                  if data.length = offset then .noPayload tile
                  else .source tile (slice data offset data.length)
  | some _ => .nothing

/-! ### Reading what was written -/

/-- The locations that the widths of the message have room for. -/
structure Location.Fits (loc : Location) : Prop where
  world : loc.World.length < 2 ^ 32
  dimension : loc.Dimension.length < 2 ^ 32
  variant : loc.Variant.length < 2 ^ 32
  scale : 0 ≤ loc.S ∧ loc.S ≤ 255
  x : -2 ^ 31 ≤ loc.X ∧ loc.X < 2 ^ 31
  z : -2 ^ 31 ≤ loc.Z ∧ loc.Z < 2 ^ 31

@[simp] theorem length_writeInt (width : Nat) (n : Int) : (writeInt width n).length = width :=
  length_bigEndianBytes width _

@[simp] theorem length_writeName (name : List UInt8) :
    (writeName name).length = 4 + name.length := by
  rw [writeName, List.length_append, length_bigEndianBytes]

/-- A number comes back as its remainder. -/
theorem bigEndian_writeInt (width : Nat) (n : Int) :
    (bigEndian (writeInt width n) : Int) = n % 256 ^ width := by
  have positive : (0 : Int) < 256 ^ width := Int.pow_pos (by decide)
  have lower := Int.emod_nonneg n (Int.ne_of_gt positive)
  have upper := Int.emod_lt_of_pos n positive
  have small : (n % 256 ^ width).toNat < 256 ^ width := by
    have cast : ((256 ^ width : Nat) : Int) = 256 ^ width := by push_cast; rfl
    omega
  rw [writeInt, bigEndian_bigEndianBytes, Nat.mod_eq_of_lt small, Int.toNat_of_nonneg lower]

/-- Of what is left behind an offset, a number is read and the rest is left behind it. -/
theorem getUint_of_drop {data digits rest : List UInt8} {offset width : Nat}
    (left : data.drop offset = digits ++ rest) (length : digits.length = width)
    (positive : 0 < width) :
    getUint width data offset = some (bigEndian digits) ∧ data.drop (offset + width) = rest := by
  have total := congrArg List.length left
  rw [List.length_drop, List.length_append, length] at total
  constructor
  · rw [getUint, if_pos (by omega), left, List.take_left' length]
  · rw [← List.drop_drop, left, List.drop_left' length]

theorem readName_of_drop {data name rest : List UInt8} {offset : Nat}
    (left : data.drop offset = writeName name ++ rest) (short : name.length < 2 ^ 32) :
    readName data offset = some (decode name, offset + 4 + name.length) ∧
      data.drop (offset + 4 + name.length) = rest := by
  rw [writeName, List.append_assoc] at left
  obtain ⟨number, behind⟩ := getUint_of_drop left (length_bigEndianBytes 4 _) (by decide)
  rw [bigEndian_bigEndianBytes, show 256 ^ 4 = 2 ^ 32 by decide, Nat.mod_eq_of_lt short] at number
  constructor
  · have bytes : slice data (offset + 4) (offset + 4 + name.length) = name := by
      rw [slice, behind, Nat.add_sub_cancel_left, List.take_left' rfl]
    rw [readName, number]
    exact congrArg (fun name => some (decode name, _)) bytes
  · rw [← List.drop_drop, behind, List.drop_left' rfl]

theorem getInt32_of_drop {data rest : List UInt8} {offset : Nat} {n : Int}
    (left : data.drop offset = writeInt 4 n ++ rest) (fits : -2 ^ 31 ≤ n ∧ n < 2 ^ 31) :
    getInt32 data offset = some n ∧ data.drop (offset + 4) = rest := by
  obtain ⟨number, behind⟩ := getUint_of_drop left (length_writeInt 4 n) (by decide)
  refine ⟨?_, behind⟩
  have modulus : (256 : Int) ^ 4 = (2 ^ 32 : Nat) := by decide
  rw [getInt32, number, Option.map_some, bigEndian_writeInt, modulus, Int.emod_bmod,
    Int.bmod_eq_of_le (by omega) (by omega)]

/-- Pictures without a file leave no bytes. -/
theorem payload_eq_nil_iff {Encode : RGBA → List UInt8} (png : WritesPng Encode)
    (img : Option RGBA) :
    payload Encode img = [] ↔ ∀ picture, img = some picture → ¬ Encodable picture := by
  cases img with
  | none => simp [payload]
  | some picture =>
      constructor
      · intro nothing picture same room
        cases same
        have signature := png.signature picture room
        rw [show Encode picture = [] from nothing] at signature
        exact absurd signature (by decide)
      · exact fun refused => png.refused picture (refused picture rfl)

/-- What the listener has read of a location when it looks for the tile: the names as text. -/
def Location.header (loc : Location) : TileHeader where
  sWorld := decode loc.World
  sDimension := decode loc.Dimension
  sLayer := decode loc.Variant
  cs := loc.S.toNat
  cx := loc.X
  cz := loc.Z

/-- The listener reads the fields that the server wrote, and stands in front of the picture. -/
theorem readTileHeader_marshal (Encode : RGBA → List UInt8) {loc : Location} (fits : loc.Fits)
    (img : Option RGBA) :
    ∃ offset, readTileHeader (marshalBinaryTileUpdate Encode loc img) = some (loc.header, offset) ∧
      (marshalBinaryTileUpdate Encode loc img).drop offset = payload Encode img ∧
      offset ≤ (marshalBinaryTileUpdate Encode loc img).length := by
  have whole : (marshalBinaryTileUpdate Encode loc img).drop 0 = writeInt 1 0x01 ++
      (writeName loc.World ++ (writeName loc.Dimension ++ (writeName loc.Variant ++
        (writeInt 1 loc.S ++ (writeInt 4 loc.X ++ (writeInt 4 loc.Z ++ payload Encode img)))))) := rfl
  generalize marshalBinaryTileUpdate Encode loc img = data at whole
  have total := congrArg List.length whole
  simp only [List.drop_zero, List.length_append, length_writeInt, length_writeName] at total
  obtain ⟨-, left⟩ := getUint_of_drop whole (length_writeInt 1 _) (by decide)
  obtain ⟨world, left⟩ := readName_of_drop left fits.world
  obtain ⟨dimension, left⟩ := readName_of_drop left fits.dimension
  obtain ⟨layer, left⟩ := readName_of_drop left fits.variant
  obtain ⟨scale, left⟩ := getUint_of_drop left (length_writeInt 1 _) (by decide)
  obtain ⟨x, left⟩ := getInt32_of_drop left fits.x
  obtain ⟨z, left⟩ := getInt32_of_drop left fits.z
  have number : bigEndian (writeInt 1 loc.S) = loc.S.toNat := by
    have read := bigEndian_writeInt 1 loc.S
    have range := fits.scale
    omega
  rw [number] at scale
  refine ⟨_, ?_, left, by omega⟩
  simp only [Nat.zero_add] at world
  simp only [readTileHeader, world, dimension, layer, scale, x, z, Option.bind_eq_bind,
    Option.bind_some, Option.pure_def]
  rfl

/-- What the listener does with a message of the server, by what the page has. -/
theorem onMessage_marshal (Encode : RGBA → List UInt8) {loc : Location} (fits : loc.Fits)
    (img : Option RGBA) {Tile : Type} (tiles : List Char → Option (String → Option Tile)) :
    onMessage tiles (marshalBinaryTileUpdate Encode loc img) =
      match tiles (decode loc.Variant) with
      | none => .thrown
      | some layer =>
          match layer loc.header.coords with
          | none => .nothing
          | some tile =>
              if payload Encode img = [] then .noPayload tile
              else .source tile (payload Encode img) := by
  have whole : (marshalBinaryTileUpdate Encode loc img).drop 0 = writeInt 1 0x01 ++ _ := rfl
  obtain ⟨opcode, -⟩ := getUint_of_drop whole (length_writeInt 1 _) (by decide)
  rw [show bigEndian (writeInt 1 0x01) = 1 by decide] at opcode
  obtain ⟨offset, header, left, inside⟩ := readTileHeader_marshal Encode fits img
  have total := congrArg List.length left
  rw [List.length_drop] at total
  have ended : (marshalBinaryTileUpdate Encode loc img).length = offset ↔
      payload Encode img = [] := by
    rw [← List.length_eq_zero_iff]
    omega
  have bytes : slice (marshalBinaryTileUpdate Encode loc img) offset
      (marshalBinaryTileUpdate Encode loc img).length = payload Encode img := by
    rw [slice, left, total, List.take_length]
  unfold onMessage
  simp only [opcode, header, ended, bytes]
  rfl

/-! ### Headers -/

/-- A name and what follows it are told apart by the length in front. -/
theorem writeName_append_inj {name name' rest rest' : List UInt8} (short : name.length < 2 ^ 32)
    (short' : name'.length < 2 ^ 32)
    (same : writeName name ++ rest = writeName name' ++ rest') : name = name' ∧ rest = rest' := by
  rw [writeName, writeName, List.append_assoc, List.append_assoc] at same
  obtain ⟨lengths, behind⟩ := List.append_inj same (by simp)
  have read := congrArg bigEndian lengths
  rw [bigEndian_bigEndianBytes, bigEndian_bigEndianBytes, show 256 ^ 4 = 2 ^ 32 by decide,
    Nat.mod_eq_of_lt short, Nat.mod_eq_of_lt short'] at read
  exact List.append_inj behind read

theorem writeInt_append_inj {width : Nat} {n n' : Int} {rest rest' : List UInt8}
    (same : writeInt width n ++ rest = writeInt width n' ++ rest') :
    n % 256 ^ width = n' % 256 ^ width ∧ rest = rest' := by
  obtain ⟨digits, behind⟩ := List.append_inj same (by simp)
  have read := congrArg (fun digits => (bigEndian digits : Int)) digits
  simp only [bigEndian_writeInt] at read
  exact ⟨read, behind⟩

/-- Messages that agree are of one location. -/
theorem marshalBinaryTileUpdate_inj (Encode : RGBA → List UInt8) {loc loc' : Location}
    (fits : loc.Fits) (fits' : loc'.Fits) {img img' : Option RGBA}
    (same : marshalBinaryTileUpdate Encode loc img = marshalBinaryTileUpdate Encode loc' img') :
    loc = loc' := by
  unfold marshalBinaryTileUpdate at same
  obtain ⟨-, same⟩ := writeInt_append_inj same
  obtain ⟨world, same⟩ := writeName_append_inj fits.world fits'.world same
  obtain ⟨dimension, same⟩ := writeName_append_inj fits.dimension fits'.dimension same
  obtain ⟨variant, same⟩ := writeName_append_inj fits.variant fits'.variant same
  obtain ⟨scale, same⟩ := writeInt_append_inj same
  obtain ⟨x, same⟩ := writeInt_append_inj same
  obtain ⟨z, -⟩ := writeInt_append_inj same
  obtain ⟨-, -, -, scales, xs, zs⟩ := fits
  obtain ⟨-, -, -, scales', xs', zs'⟩ := fits'
  cases loc
  cases loc'
  simp only [Location.mk.injEq] at *
  exact ⟨world, dimension, variant, by omega, by omega, by omega⟩

/-- The listener recovers the location, its names as far as they are text without a byte order
mark. In the tile of the location, if the page has one, it finds the picture as far as the format
has room for it. -/
theorem tileMessage_roundTrip {Encode : RGBA → List UInt8} (png : WritesPng Encode)
    {loc : Location} (fits : loc.Fits) (img : Option RGBA) {Tile : Type}
    (tiles : List Char → Option (String → Option Tile)) :
    (∃ header offset,
      readTileHeader (marshalBinaryTileUpdate Encode loc img) = some (header, offset) ∧
      header.sWorld = decode loc.World ∧ header.sDimension = decode loc.Dimension ∧
      header.sLayer = decode loc.Variant ∧
      (∀ text, text.head? ≠ some byteOrderMark →
        (loc.World = utf8 text → header.sWorld = text) ∧
        (loc.Dimension = utf8 text → header.sDimension = text) ∧
        (loc.Variant = utf8 text → header.sLayer = text)) ∧
      header.cs = loc.S ∧ header.cx = loc.X ∧ header.cz = loc.Z ∧
      (tiles header.sLayer = none →
        onMessage tiles (marshalBinaryTileUpdate Encode loc img) = .thrown) ∧
      ∀ layer, tiles header.sLayer = some layer →
        (layer header.coords = none →
          onMessage tiles (marshalBinaryTileUpdate Encode loc img) = .nothing) ∧
        ∀ tile, layer header.coords = some tile →
          (∀ picture, img = some picture → Encodable picture →
            onMessage tiles (marshalBinaryTileUpdate Encode loc img) =
              .source tile (Encode picture)) ∧
          (onMessage tiles (marshalBinaryTileUpdate Encode loc img) = .noPayload tile ↔
            ∀ picture, img = some picture → ¬ Encodable picture)) ∧
    ∀ loc' : Location, loc'.Fits → ∀ img',
      marshalBinaryTileUpdate Encode loc img = marshalBinaryTileUpdate Encode loc' img' →
      loc = loc' := by
  obtain ⟨offset, read, -⟩ := readTileHeader_marshal Encode fits img
  have listened := onMessage_marshal Encode fits img tiles
  refine ⟨⟨loc.header, offset, read, rfl, rfl, rfl, fun text unmarked => ?_,
    Int.toNat_of_nonneg fits.scale.1, rfl, rfl, fun unknown => ?_, fun layer known =>
      ⟨fun missing => ?_, fun tile onPage => ?_⟩⟩,
    fun loc' fits' img' same => marshalBinaryTileUpdate_inj Encode fits fits' same⟩
  · have name := decode_utf8 unmarked
    exact ⟨fun same => (congrArg decode same).trans name,
      fun same => (congrArg decode same).trans name,
      fun same => (congrArg decode same).trans name⟩
  · rw [listened, show tiles (decode loc.Variant) = none from unknown]
  · rw [listened, show tiles (decode loc.Variant) = some layer from known]
    dsimp only
    rw [missing]
  · rw [show tiles (decode loc.Variant) = some layer from known] at listened
    dsimp only at listened
    rw [onPage] at listened
    dsimp only at listened
    rw [listened, ← payload_eq_nil_iff png img]
    refine ⟨fun picture given room => ?_, ?_⟩
    · have bytes : payload Encode img ≠ [] := fun nothing =>
        (payload_eq_nil_iff png img).mp nothing picture given room
      rw [if_neg bytes, given]
      rfl
    · split
      · rename_i nothing
        exact iff_of_true rfl nothing
      · rename_i bytes
        exact iff_of_false (fun same => by cases same) bytes

/-- A red pixel. -/
def redPixel : RGBA := (RGBA.new 1 1).set 0 0 ⟨255, 0, 0, 255⟩

/-- What the encoder writes for it: the header, one row that is stored and not compressed, and the
end. -/
def redPixelPng : List UInt8 :=
  [0x89, 0x50, 0x4E, 0x47, 0x0D, 0x0A, 0x1A, 0x0A,
    0x00, 0x00, 0x00, 0x0D, 0x49, 0x48, 0x44, 0x52, 0x00, 0x00, 0x00, 0x01, 0x00, 0x00, 0x00, 0x01,
    0x08, 0x02, 0x00, 0x00, 0x00, 0x90, 0x77, 0x53, 0xDE,
    0x00, 0x00, 0x00, 0x14, 0x49, 0x44, 0x41, 0x54, 0x78, 0x01, 0x00, 0x04, 0x00, 0xFB, 0xFF, 0x00,
    0xFF, 0x00, 0x00, 0x01, 0x00, 0x00, 0xFF, 0xFF, 0x03, 0x01, 0x01, 0x00, 0xF9, 0xC3, 0x7E, 0x55,
    0x00, 0x00, 0x00, 0x00, 0x49, 0x45, 0x4E, 0x44, 0xAE, 0x42, 0x60, 0x82]

/-- An encoder as far as a red pixel goes; of other pictures it writes the signature. -/
def samplePng (picture : RGBA) : List UInt8 :=
  if ¬ Encodable picture then []
  else if picture.dx = 1 ∧ picture.dy = 1 ∧ picture.pix 0 0 = ⟨255, 0, 0, 255⟩ then redPixelPng
  else [0x89, 0x50, 0x4E, 0x47, 0x0D, 0x0A, 0x1A, 0x0A]

theorem samplePng_writesPng : WritesPng samplePng where
  signature picture room := by
    rw [samplePng, if_neg (not_not.mpr room)]
    split <;> decide
  refused picture noRoom := if_pos noRoom

/-- `constantiam.net`, `overworld` and `shadedterrain`. -/
def sampleLocation : Location where
  World := [0x63, 0x6F, 0x6E, 0x73, 0x74, 0x61, 0x6E, 0x74, 0x69, 0x61, 0x6D, 0x2E, 0x6E, 0x65, 0x74]
  Dimension := [0x6F, 0x76, 0x65, 0x72, 0x77, 0x6F, 0x72, 0x6C, 0x64]
  Variant := [0x73, 0x68, 0x61, 0x64, 0x65, 0x64, 0x74, 0x65, 0x72, 0x72, 0x61, 0x69, 0x6E]
  S := 5
  X := -1
  Z := 0

/-- A page with the layer `shadedterrain`, which has one tile. -/
def sampleTiles (sLayer : List Char) : Option (String → Option Unit) :=
  if sLayer = "shadedterrain".toList then
    some fun coords => if coords = "-1:0:5" then some () else none
  else none

/-- The bytes of a picture come to the tile of its location. -/
theorem tileMessage_roundTrip_sample : sampleLocation.Fits ∧ WritesPng samplePng ∧
    Encodable redPixel ∧
    onMessage sampleTiles (marshalBinaryTileUpdate samplePng sampleLocation (some redPixel)) =
      .source () redPixelPng ∧
    (∀ loc' : Location, loc'.Fits → ∀ img',
      marshalBinaryTileUpdate samplePng sampleLocation (some redPixel) =
        marshalBinaryTileUpdate samplePng loc' img' → sampleLocation = loc') := by
  have fits : sampleLocation.Fits :=
    ⟨by decide, by decide, by decide, by decide, by decide, by decide⟩
  have room : Encodable redPixel := by decide
  obtain ⟨⟨header, _, -, -, -, layerName, texts, scale, x, z, -, shown⟩, apart⟩ :=
    tileMessage_roundTrip samplePng_writesPng fits (some redPixel) sampleTiles
  have name : header.sLayer = "shadedterrain".toList :=
    (texts _ (by decide)).2.2 (by decide)
  have coords : header.coords = "-1:0:5" := by
    have number : header.cs = 5 := Int.ofNat.inj scale
    rw [TileHeader.coords, x, z, number]
    decide
  obtain ⟨-, tile⟩ := shown _ (by rw [name]; exact if_pos rfl)
  exact ⟨fits, samplePng_writesPng, room,
    (tile () (if_pos coords)).1 redPixel rfl room, apart⟩

/-- A byte that is no text, a byte order mark and a picture without pixels do not come back, in a
tile of the page neither. -/
theorem names_not_recovered :
    (∃ loc : Location, loc.Fits ∧ loc.World = [0xFF] ∧ ∃ header offset,
      readTileHeader (marshalBinaryTileUpdate samplePng loc none) = some (header, offset) ∧
      utf8 header.sWorld ≠ loc.World) ∧
    (∃ loc : Location, loc.Fits ∧ loc.World = utf8 (byteOrderMark :: ['a']) ∧ ∃ header offset,
      readTileHeader (marshalBinaryTileUpdate samplePng loc none) = some (header, offset) ∧
      utf8 header.sWorld ≠ loc.World) ∧
    (∃ loc : Location, loc.Fits ∧
      onMessage (fun _ => some fun _ => some ())
        (marshalBinaryTileUpdate samplePng loc (some (RGBA.new 0 0))) = .noPayload ()) := by
  have fits : ∀ World : List UInt8, World.length < 2 ^ 32 → (Location.mk World [] [] 0 0 0).Fits :=
    fun World short => by refine ⟨short, ?_, ?_, ?_, ?_, ?_⟩ <;> dsimp only <;> decide
  have read (World : List UInt8) (short : World.length < 2 ^ 32) :
      ∃ header offset, readTileHeader (marshalBinaryTileUpdate samplePng
        (Location.mk World [] [] 0 0 0) none) = some (header, offset) ∧
          header.sWorld = decode World := by
    obtain ⟨offset, header, -⟩ := readTileHeader_marshal samplePng (fits World short) none
    exact ⟨_, offset, header, rfl⟩
  refine ⟨⟨⟨[0xFF], [], [], 0, 0, 0⟩, fits _ (by decide), rfl, ?_⟩,
    ⟨⟨utf8 (byteOrderMark :: ['a']), [], [], 0, 0, 0⟩, fits _ (by decide), rfl, ?_⟩,
    ⟨⟨[], [], [], 0, 0, 0⟩, fits _ (by decide), onMessage_marshal _ (fits _ (by decide)) _ _⟩⟩
  · obtain ⟨header, offset, given, world⟩ := read [0xFF] (by decide)
    exact ⟨header, offset, given, by rw [world]; decide⟩
  · obtain ⟨header, offset, given, world⟩ := read (utf8 (byteOrderMark :: ['a'])) (by decide)
    exact ⟨header, offset, given, by rw [world, decode_utf8_marked]; decide⟩

end WebChunk.Server
