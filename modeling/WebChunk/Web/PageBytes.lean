import WebChunk.Go.Decimal
import WebChunk.Server.TileMessage
import WebChunk.Web.MapPage

/-!
# Updates as bytes

The page takes an update as the bytes of a binary message and finds the image by the name of the
layer and the text of the coordinates. For the page of this development that is a `Key`.
-/

namespace WebChunk.Web

open WebChunk.Go WebChunk.ImageCache WebChunk.Server

/-- The property of `tiles[layerName]` that an image is put in. -/
def Key.coords (key : Key) : String :=
  toString key.x ++ ":" ++ toString key.y ++ ":" ++ toString key.s

/-- What stands before the first separator, and what stands behind it. -/
theorem first_separator_inj {char : Char} {front front' rest rest' : List Char}
    (free : char ∉ front) (free' : char ∉ front')
    (same : front ++ char :: rest = front' ++ char :: rest') : front = front' ∧ rest = rest' := by
  have all (text : List Char) (without : char ∉ text) : ∀ c ∈ text, (c != char) = true := by
    intro c member
    simpa using fun equal : c = char => without (equal ▸ member)
  have read (text behind : List Char) (without : char ∉ text) :
      (text ++ char :: behind).takeWhile (· != char) = text ∧
        (text ++ char :: behind).dropWhile (· != char) = char :: behind := by
    rw [List.takeWhile_append_of_pos (all text without),
      List.dropWhile_append_of_pos (all text without)]
    simp
  have fronts := (read front rest free).1.symm.trans (same ▸ (read front' rest' free').1)
  have behind := (read front rest free).2.symm.trans (same ▸ (read front' rest' free').2)
  exact ⟨fronts, (List.cons.inj behind).2⟩

/-- The text of the coordinates has the coordinates. -/
theorem Key.coords_inj {key key' : Key} (layer : key.layerName = key'.layerName)
    (same : key.coords = key'.coords) : key = key' := by
  have texts := congrArg String.toList same
  simp only [Key.coords, String.toList_append, List.append_assoc] at texts
  have colon : ":".toList = [':'] := rfl
  simp only [colon, List.singleton_append] at texts
  have free (n : Int) : ':' ∉ (toString n).toList := notMem_decimal (by decide) (by decide)
  obtain ⟨x, rest⟩ := first_separator_inj (free key.x) (free key'.x) texts
  obtain ⟨y, s⟩ := decimal_pair_inj (by decide) (by decide) rest
  cases key
  cases key'
  simp only [Key.mk.injEq]
  exact ⟨layer, decimal_inj x, y, s⟩

open Classical in
/-- `tiles[sLayer][coords]`, as the key under which the page of this development has the image. -/
noncomputable def Page.image (p : Page) (sLayer : List Char) (coords : String) : Option Key :=
  if found : ∃ key : Key, key.layerName.toList = sLayer ∧ key.coords = coords ∧ p.tiles key ≠ none
  then some found.choose else none

open Classical in
/-- `tiles` of the script. -/
noncomputable def Page.images (p : Page) (sLayer : List Char) : Option (String → Option Key) :=
  if ∃ layer ∈ p.layers, layer.toList = sLayer then some (p.image sLayer) else none

/-- An image is found at its key and nowhere else. -/
theorem Page.image_eq (p : Page) (key : Key) :
    p.image key.layerName.toList key.coords = if p.tiles key = none then none else some key := by
  have only {other : Key} (layer : other.layerName.toList = key.layerName.toList)
      (coords : other.coords = key.coords) : other = key :=
    Key.coords_inj (String.toList_injective layer) coords
  unfold image
  split
  · rename_i found
    obtain ⟨layer, coords, there⟩ := found.choose_spec
    have same := only layer coords
    rw [same] at there
    rw [if_neg there, same]
  · rename_i missing
    refine (if_pos ?_).symm
    by_contra there
    exact missing ⟨key, rfl, rfl, there⟩

/-- The location with its names as they are in Go. -/
def bytesOf (loc : ImageLocation) : Location where
  World := utf8 loc.World.toList
  Dimension := utf8 loc.Dimension.toList
  Variant := utf8 loc.Variant.toList
  S := loc.S
  X := loc.X
  Z := loc.Z

/-- The bytes of an update do to the page what `Page.listen` does at the update. -/
theorem onMessage_update {Encode : RGBA → List UInt8} (png : WritesPng Encode) (p : Page)
    {loc : ImageLocation} (fits : (bytesOf loc).Fits) (layer : loc.Variant ∈ p.layers)
    (unmarked : loc.Variant.toList.head? ≠ some byteOrderMark) {img : Option RGBA}
    (room : ∀ picture, img = some picture → Encodable picture) :
    onMessage p.images (marshalBinaryTileUpdate Encode (bytesOf loc) img) =
      match p.tiles (keyOf loc), img with
      | none, _ => .nothing
      | some _, none => .noPayload (keyOf loc)
      | some _, some picture => .source (keyOf loc) (Encode picture) := by
  have name : decode (bytesOf loc).Variant = loc.Variant.toList := decode_utf8 unmarked
  have known : p.images loc.Variant.toList = some (p.image loc.Variant.toList) :=
    if_pos ⟨_, layer, rfl⟩
  have key : keyOf loc = ⟨loc.Variant, loc.X, loc.Z, loc.S⟩ := by
    obtain ⟨-, -, -, s, x, z⟩ := fits
    dsimp only [bytesOf] at s x z
    rw [keyOf, Int.bmod_eq_of_le (by omega) (by omega), Int.bmod_eq_of_le (by omega) (by omega),
      Int.emod_eq_of_lt s.1 (by omega)]
  have scale : toString loc.S.toNat = toString loc.S := by
    obtain ⟨n, same⟩ := Int.eq_ofNat_of_zero_le fits.scale.1
    rw [show loc.S = n from same]
    rfl
  have coords : (bytesOf loc).header.coords = (keyOf loc).coords := by
    rw [key, Key.coords, ← scale]
    rfl
  have found := p.image_eq (keyOf loc)
  rw [← coords, show (keyOf loc).layerName = loc.Variant from rfl] at found
  rw [onMessage_marshal Encode fits, name, known]
  dsimp only
  rw [found]
  cases tile : p.tiles (keyOf loc) with
  | none => rfl
  | some image =>
      rw [if_neg nofun]
      cases img with
      | none => rfl
      | some picture =>
          have bytes : payload Encode (some picture) ≠ [] := fun nothing =>
            (payload_eq_nil_iff png (some picture)).mp nothing picture rfl (room picture rfl)
          dsimp only
          rw [if_neg bytes]
          rfl

end WebChunk.Web
