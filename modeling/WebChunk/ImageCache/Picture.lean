import WebChunk.ImageCache.Steps

/-!
# The logical picture of a tile

What a tile should show: the picture of its file, overwritten by every set that was
accepted, in this order. It depends on neither the entries of the cache nor what the
files hold later. A get should be answered with the crop of it at its location.
-/

namespace WebChunk.ImageCache

open WebChunk.Go

/-- The storage tile that a location up to the storage level lies in. -/
def tileOf (loc : ImageLocation) : Option ImageLocation :=
  if loc.S = StorageLevel then some loc
  else if loc.S < StorageLevel then getStorageLevelLoc loc
  else none

theorem tileOf_native {loc : ImageLocation} (native : loc.S = StorageLevel) :
    tileOf loc = some loc := by
  rw [tileOf, if_pos native]

theorem tileOf_smaller {loc : ImageLocation} (smaller : loc.S < StorageLevel) :
    tileOf loc = getStorageLevelLoc loc := by
  rw [tileOf, if_neg smaller.ne, if_pos smaller]

theorem tileOf_large {loc : ImageLocation} (large : StorageLevel < loc.S) : tileOf loc = none := by
  rw [tileOf, if_neg large.ne', if_neg large.not_gt]

/-- The square of `2 ^ S` chunks of a tile's picture that a location shows, moved to the
origin. At the storage level it is the whole picture. -/
def crop (whole : RGBA) (loc : ImageLocation) : RGBA :=
  if loc.S = StorageLevel then whole
  else
    { dx := 2 ^ loc.S.toNat * 16
      dy := 2 ^ loc.S.toNat * 16
      pix := fun x y =>
        if (Rect.mk 0 0 (2 ^ loc.S.toNat * 16 : Nat) (2 ^ loc.S.toNat * 16 : Nat)).contains x y then
          whole.pix (x + loc.X * 2 ^ loc.S.toNat % 32 * 16) (y + loc.Z * 2 ^ loc.S.toNat % 32 * 16)
        else .blank
      outside := fun _ _ out => if_neg out }

/-- A set at `S = 0` of a chunk in the tile. -/
def setsBlock (tile loc : ImageLocation) : Prop :=
  loc.S = 0 ∧ getStorageLevelLoc loc = some tile

instance (tile loc : ImageLocation) : Decidable (setsBlock tile loc) :=
  inferInstanceAs (Decidable (_ ∧ _))

/-- The task is a set of the tile, or of a chunk in it. -/
def SetsTile (tile : ImageLocation) (task : CacheTask) : Prop :=
  task.img.isSome ∧ (task.loc = tile ∨ setsBlock tile task.loc)

/-- The picture of a tile after a set: at the storage level the whole tile is
overwritten, at `S = 0` the block of the chunk. -/
def overwritten (tile : ImageLocation) (picture : Option RGBA) (task : CacheTask) : Option RGBA :=
  match task.img with
  | none => picture
  | some image =>
      if task.loc = tile then some image
      else if setsBlock tile task.loc then
        let rx := task.loc.X % 32 * 16
        let rz := task.loc.Z % 32 * 16
        some ((picture.getD blankTile).draw ⟨rx, rz, rx + 16, rz + 16⟩ image 0 0)
      else picture

/-- The logical picture of a tile with the picture `file` on disk, after these sets. -/
def logical (tile : ImageLocation) (file : Option RGBA) (sets : List CacheTask) : Option RGBA :=
  sets.foldl (overwritten tile) file

variable {tile : ImageLocation} {file : Option RGBA} {sets : List CacheTask} {task : CacheTask}

theorem logical_snoc :
    logical tile file (sets ++ [task]) = overwritten tile (logical tile file sets) task := by
  simp [logical]

/-- A set of another tile, or of a chunk elsewhere. -/
theorem overwritten_elsewhere {picture : Option RGBA} (other : task.loc ≠ tile)
    (noBlock : ¬ setsBlock tile task.loc) : overwritten tile picture task = picture := by
  unfold overwritten
  split
  · rfl
  · rw [if_neg other, if_neg noBlock]

theorem overwritten_whole {picture : Option RGBA} {image : RGBA} (isSet : task.img = some image)
    (same : task.loc = tile) : overwritten tile picture task = some image := by
  simp [overwritten, isSet, same]

theorem overwritten_eq_none {picture : Option RGBA} :
    overwritten tile picture task = none ↔ picture = none ∧ ¬ SetsTile tile task := by
  unfold overwritten SetsTile
  split
  · rename_i isGet
    simp [isGet]
  · rename_i image isSet
    by_cases same : task.loc = tile
    · simp [isSet, same]
    · by_cases block : setsBlock tile task.loc
      · simp [isSet, same, block]
      · simp [isSet, same, block]

/-- There is no logical picture exactly when there is neither a file nor a set. -/
theorem logical_eq_none :
    logical tile file sets = none ↔ file = none ∧ ∀ task ∈ sets, ¬ SetsTile tile task := by
  induction sets using List.reverseRecOn with
  | nil => simp [logical]
  | append_singleton sets task inductionHypothesis =>
      rw [logical_snoc, overwritten_eq_none, inductionHypothesis]
      simp [or_imp, forall_and, and_assoc]

/-- A fragment is the crop at its location. -/
theorem copyFragmentRGBA_eq_crop {source image : RGBA} {loc : ImageLocation}
    (smaller : loc.S < StorageLevel) (copied : copyFragmentRGBA source loc = some image) :
    image = crop source loc := by
  have lower : 0 ≤ loc.S := by
    by_contra negative
    simp [copyFragmentRGBA, index, negative] at copied
  obtain ⟨pow, side⟩ := index_powarr lower smaller.le
  simp only [copyFragmentRGBA, pow, side, Option.bind_eq_bind, Option.bind_some, IN_wrap] at copied
  cases copied
  unfold crop
  rw [if_neg smaller.ne]
  refine RGBA.ext rfl rfl fun x y => ?_
  rw [RGBA.draw_new_pix]
  simp [IN]

/-- What an entry answers a get with is the crop of its picture. -/
theorem img_of_answerFrom {l image : CachedImage} {loc : ImageLocation}
    (small : loc.S ≤ StorageLevel) (answered : answerFrom l loc = some image) :
    image.img = l.img.map fun whole => crop whole loc := by
  unfold answerFrom at answered
  split at answered
  · rename_i native
    cases answered
    have whole : (fun whole => crop whole loc) = copyRGBA := by
      funext whole
      rw [copyRGBA_eq, crop, if_pos native]
    rw [whole]
    rfl
  · rename_i other
    have smaller : loc.S < StorageLevel := by omega
    unfold copySmallerCachedImage at answered
    cases there : l.img with
    | none =>
        rw [there] at answered
        cases answered
        rfl
    | some source =>
        rw [there] at answered
        obtain ⟨img, copied, same⟩ := Option.bind_eq_some_iff.mp answered
        obtain ⟨fragment, cut, rfl⟩ := Option.map_eq_some_iff.mp copied
        cases same
        rw [copyFragmentRGBA_eq_crop smaller cut]
        rfl

end WebChunk.ImageCache
