import WebChunk.Go.Decimal
import WebChunk.ImageCache.Geometry

/-!
# The files of the tiles

The names of a location come from the client as they are. They are followed from the root of the
cache element by element; then come the scale and the coordinates, which name one file of that
directory each.
-/

namespace WebChunk.ImageCache

open WebChunk.Go

/-- Where the world, the dimension and the variant of a location lead from the root. -/
def tileDir (root : String) (loc : ImageLocation) : Path.Place :=
  [loc.World, loc.Dimension, loc.Variant].foldl (Path.within false) (Path.placeOf root.toList)

/-- The names of a location lead to a directory that is the root or below it, or the directory
of the scale is the root again. The root is a relative path. -/
def StaysInside (root : String) (loc : ImageLocation) : Prop :=
  Path.isRooted root.toList = false ∧
    ((∃ rest, ['.', '.'] ∉ rest ∧ tileDir root loc = rest ++ Path.placeOf root.toList) ∨
      (toString loc.S).toList :: tileDir root loc = Path.placeOf root.toList)

/-- The locations that were sent have a file each, below the root. -/
structure OwnFiles (root : String) (sent : Set ImageLocation) : Prop where
  distinct : ∀ loc ∈ sent, ∀ loc' ∈ sent, loc ≠ loc' →
    cacheGetFilenameLoc root loc ≠ cacheGetFilenameLoc root loc'
  below : ∀ loc ∈ sent, Path.Below (cacheGetFilenameLoc root loc) root

/-! ### The path of a tile -/

/-- The last element of the path. -/
def baseName (loc : ImageLocation) : String :=
  toString loc.X ++ "x" ++ toString loc.Z ++ ".png"

theorem baseName_toList (loc : ImageLocation) : (baseName loc).toList =
    ((toString loc.X).toList ++ 'x' :: (toString loc.Z).toList) ++ ".png".toList := by
  simp [baseName]

/-- The coordinates and their separator are neither a slash nor dots only. -/
theorem baseName_plain (loc : ImageLocation) : Path.Plain (baseName loc).toList := by
  have named : 'x' ∈ (baseName loc).toList := by simp [baseName_toList]
  refine ⟨List.ne_nil_of_mem named, ?_, ?_, ?_⟩
  · intro dot
    rw [dot] at named
    simp at named
  · intro up
    rw [up] at named
    simp at named
  · have x : '/' ∉ (toString loc.X).toList := notMem_decimal (by decide) (by decide)
    have z : '/' ∉ (toString loc.Z).toList := notMem_decimal (by decide) (by decide)
    rw [baseName_toList]
    simp [x, z, -Int.toString_eq_repr]

/-- The coordinates can be read from the base name. -/
theorem baseName_inj {loc loc' : ImageLocation}
    (same : (baseName loc).toList = (baseName loc').toList) :
    loc.X = loc'.X ∧ loc.Z = loc'.Z := by
  rw [baseName_toList, baseName_toList] at same
  exact decimal_pair_inj (by decide) (by decide) (List.append_cancel_right same)

/-- The place of a tile's file when the root leads to `dir`. -/
def filePlace (dir : Path.Place) (loc : ImageLocation) : Path.Place :=
  (baseName loc).toList :: (toString loc.S).toList ::
    [loc.World, loc.Dimension, loc.Variant].foldl (Path.within false) dir

/-- The path leads from the working directory through the root to the tile's file. -/
theorem cacheGetFilenameLoc_toList (root : String) (loc : ImageLocation) :
    (cacheGetFilenameLoc root loc).toList =
      Path.render false (filePlace (Path.within false [] root) loc) := by
  rw [cacheGetFilenameLoc, Path.join_eq (by decide)]
  simp only [List.foldl_cons, List.foldl_nil]
  rw [Path.within_of_plain decimal_plain]
  exact congrArg (Path.render false) (Path.within_of_plain (baseName_plain loc))

theorem filePlace_isClean {dir : Path.Place} (clean : Path.IsClean false dir)
    (loc : ImageLocation) : Path.IsClean false (filePlace dir loc) :=
  .name (baseName_plain loc) (.name decimal_plain (clean.foldl_within _))

/-- A relative root leads to its own place. -/
theorem within_root {root : String} (relative : Path.isRooted root.toList = false) :
    Path.within false [] root = Path.placeOf root.toList := by
  rw [Path.placeOf, relative]
  rfl

/-! ### Own files -/

/-- The file of a location is below the root when its names stay inside. -/
theorem below_root_iff (root : String) (loc : ImageLocation) :
    Path.Below (cacheGetFilenameLoc root loc) root ↔ StaysInside root loc := by
  have clean := filePlace_isClean (Path.IsClean.nil.within root) loc
  rw [Path.below_iff clean (cacheGetFilenameLoc_toList root loc), StaysInside,
    eq_comm (a := false), and_congr_right_iff]
  intro relative
  rw [within_root relative]
  exact Path.below_file_iff (baseName_plain loc) decimal_plain

/-- Below a relative root two locations share a file when they have the same scale and
coordinates and their names lead to the same directory. -/
theorem cacheGetFilenameLoc_eq_iff {root : String} (relative : Path.isRooted root.toList = false)
    (loc loc' : ImageLocation) :
    cacheGetFilenameLoc root loc = cacheGetFilenameLoc root loc' ↔
      (loc.S, loc.X, loc.Z) = (loc'.S, loc'.X, loc'.Z) ∧ tileDir root loc = tileDir root loc' := by
  have clean : Path.IsClean false _ := Path.IsClean.nil.within root
  rw [← String.toList_inj, cacheGetFilenameLoc_toList, cacheGetFilenameLoc_toList]
  constructor
  · intro same
    have place := (Path.render_inj (filePlace_isClean clean loc)
      (filePlace_isClean clean loc') same).2
    obtain ⟨base, above⟩ := List.cons_eq_cons.mp place
    obtain ⟨scale, dir⟩ := List.cons_eq_cons.mp above
    obtain ⟨x, z⟩ := baseName_inj base
    rw [within_root relative] at dir
    exact ⟨by rw [decimal_inj scale, x, z], dir⟩
  · rintro ⟨coordinates, dir⟩
    simp only [Prod.mk.injEq] at coordinates
    obtain ⟨scale, x, z⟩ := coordinates
    have base : baseName loc = baseName loc' := by rw [baseName, baseName, x, z]
    have place : filePlace (Path.within false [] root) loc =
        filePlace (Path.within false [] root) loc' := by
      rw [within_root relative, filePlace, filePlace, base, scale]
      exact congrArg (_ :: _ :: ·) dir
    rw [place]

/-- Every location that was sent has its own file below the root exactly when the names of each
stay inside the root and no two of the same scale and coordinates lead to one directory. -/
theorem ownFiles_iff (root : String) (sent : Set ImageLocation) :
    OwnFiles root sent ↔
      (∀ loc ∈ sent, StaysInside root loc) ∧
        ∀ loc ∈ sent, ∀ loc' ∈ sent, (loc.S, loc.X, loc.Z) = (loc'.S, loc'.X, loc'.Z) →
          tileDir root loc = tileDir root loc' → loc = loc' := by
  constructor
  · intro own
    have inside : ∀ loc ∈ sent, StaysInside root loc := fun loc member =>
      (below_root_iff root loc).mp (own.below loc member)
    refine ⟨inside, fun loc member loc' member' coordinates dir => ?_⟩
    by_contra differ
    exact own.distinct loc member loc' member' differ
      ((cacheGetFilenameLoc_eq_iff (inside loc member).1 loc loc').mpr ⟨coordinates, dir⟩)
  · rintro ⟨inside, apart⟩
    refine ⟨fun loc member loc' member' differ same => ?_,
      fun loc member => (below_root_iff root loc).mpr (inside loc member)⟩
    obtain ⟨coordinates, dir⟩ :=
      (cacheGetFilenameLoc_eq_iff (inside loc member).1 loc loc').mp same
    exact differ (apart loc member loc' member' coordinates dir)

/-! ### Plain names -/

/-- Every name of a location is a single element. -/
structure PlainNames (loc : ImageLocation) : Prop where
  world : Path.Plain loc.World.toList
  dimension : Path.Plain loc.Dimension.toList
  variant : Path.Plain loc.Variant.toList

theorem PlainNames.tileDir_eq {loc : ImageLocation} (names : PlainNames loc) (root : String) :
    tileDir root loc = loc.Variant.toList :: loc.Dimension.toList :: loc.World.toList ::
      Path.placeOf root.toList := by
  refine Path.foldl_within_of_plain fun part member => ?_
  simp only [List.mem_cons, List.not_mem_nil, or_false] at member
  rcases member with rfl | rfl | rfl
  · exact names.world
  · exact names.dimension
  · exact names.variant

/-- Locations with plain names have files of their own, however many are sent. -/
theorem ownFiles_of_plainNames {root : String} {sent : Set ImageLocation}
    (relative : Path.isRooted root.toList = false) (plain : ∀ loc ∈ sent, PlainNames loc) :
    OwnFiles root sent := by
  refine (ownFiles_iff root sent).mpr ⟨fun loc member => ⟨relative, .inl
    ⟨[loc.Variant.toList, loc.Dimension.toList, loc.World.toList], ?_, ?_⟩⟩, ?_⟩
  · obtain ⟨world, dimension, variant⟩ := plain loc member
    simp [world.notUp.symm, dimension.notUp.symm, variant.notUp.symm]
  · exact (plain loc member).tileDir_eq root
  · intro loc member loc' member' coordinates dir
    rw [(plain loc member).tileDir_eq, (plain loc' member').tileDir_eq] at dir
    simp only [List.cons.injEq, and_true, String.toList_inj] at dir
    simp only [Prod.mk.injEq] at coordinates
    obtain ⟨variant, dimension, world⟩ := dir
    obtain ⟨scale, x, z⟩ := coordinates
    cases loc
    cases loc'
    congr

/-- A slash in a world or in a dimension leads to the same file, and a name that climbs leaves
the root. -/
theorem ownFiles_fails :
    ¬ OwnFiles "tiles" {⟨"a/b", "c", "terrain", 5, 0, 0⟩, ⟨"a", "b/c", "terrain", 5, 0, 0⟩} ∧
      ¬ OwnFiles "tiles" {⟨"..", "..", "terrain", 5, 0, 0⟩} := by
  constructor
  · intro own
    exact own.distinct _ (.inl rfl) _ (.inr rfl) (by decide) (by decide +kernel)
  · intro own
    obtain ⟨-, rest, some_, -, place⟩ := own.below _ rfl
    have outermost : (Path.placeOf (cacheGetFilenameLoc "tiles"
        ⟨"..", "..", "terrain", 5, 0, 0⟩).toList).getLast? = some ['.', '.'] := by
      decide +kernel
    rw [place, show Path.placeOf "tiles".toList = ["tiles".toList] by decide,
      List.getLast?_concat] at outermost
    cases outermost

end WebChunk.ImageCache
