import WebChunk.Go.Decimal
import WebChunk.RegionStore.Worker
import WebChunk.Storages.Creation
import WebChunk.WorldStore.World

/-!
# The directories of the worlds

A world's directory and the paths of its region files are joined from the root of the storage and
the names of the world and the dimension. Three dimensions have the directories of the game; the
others are followed element by element.
-/

namespace WebChunk.RegionStore

open WebChunk.Go WebChunk.Storages

/-- The directory that `AddWorld` creates. -/
def Config.worldDir (cfg : Config) (wname : String) : String := Path.join [cfg.root, wname]

/-- The directories of the worlds and the region files of their dimensions lie below the root,
and every region of every dimension has its own file. -/
structure Apart (cfg : Config) (worlds dims : Set String) : Prop where
  worldBelow : ∀ wname ∈ worlds, Path.Below (cfg.worldDir wname) cfg.root
  regionBelow : ∀ loc : RegionLocator, loc.world ∈ worlds → loc.dimension ∈ dims →
    Path.Below (cfg.getRegionPath loc) cfg.root
  distinct : ∀ loc loc' : RegionLocator, loc.world ∈ worlds → loc.dimension ∈ dims →
    loc'.world ∈ worlds → loc'.dimension ∈ dims → loc ≠ loc' →
      cfg.getRegionPath loc ≠ cfg.getRegionPath loc'

/-- The root of a storage as a place. -/
def Config.rootPlace (cfg : Config) : WorldStore.Root :=
  ⟨Path.isRooted cfg.root.toList, Path.placeOf cfg.root.toList⟩

/-- The directories between a world and the region files of a dimension. -/
def dimParts (dname : String) : List String :=
  if dname = "overworld" then []
  else if dname = "the_end" then ["DIM1"]
  else if dname = "the_nether" then ["DIM-1"]
  else ["dimensions", "webchunk", dname]

/-- Where the names of a world and a dimension lead from the root. -/
def Config.dimPlace (cfg : Config) (wname dname : String) : Path.Place :=
  (dimParts dname).foldl (Path.within cfg.rootPlace.rooted) (cfg.rootPlace.world wname)

/-- Every world leads to a directory strictly below the root and every dimension to one that is
the root or below it, no two worlds and dimensions to the same. With an empty root no world is
an absolute path. -/
structure NamesApart (cfg : Config) (worlds dims : Set String) : Prop where
  relative : cfg.root = "" → ∀ wname ∈ worlds, Path.isRooted wname.toList = false
  world : ∀ wname ∈ worlds, ∃ rest, rest ≠ [] ∧ ['.', '.'] ∉ rest ∧
    cfg.rootPlace.world wname = rest ++ cfg.rootPlace.place
  dimension : ∀ wname ∈ worlds, ∀ dname ∈ dims,
    (∃ rest, ['.', '.'] ∉ rest ∧ cfg.dimPlace wname dname = rest ++ cfg.rootPlace.place) ∨
      "region".toList :: cfg.dimPlace wname dname = cfg.rootPlace.place
  distinct : ∀ wname ∈ worlds, ∀ dname ∈ dims, ∀ wname' ∈ worlds, ∀ dname' ∈ dims,
    cfg.dimPlace wname dname = cfg.dimPlace wname' dname' → (wname, dname) = (wname', dname')

variable {cfg : Config} {worlds dims : Set String}

/-! ### The path of a region -/

/-- The name of a region file. -/
def regionName (loc : RegionLocator) : String := s!"r.{loc.rx}.{loc.rz}.mca"

theorem regionName_toList (loc : RegionLocator) : (regionName loc).toList =
    "r.".toList ++ (((toString loc.rx).toList ++ '.' :: (toString loc.rz).toList) ++
      ".mca".toList) := by
  have shown : ∀ text : String, toString text = text := fun _ => rfl
  simp [regionName, shown]

theorem regionName_plain (loc : RegionLocator) : Path.Plain (regionName loc).toList := by
  have named : 'r' ∈ (regionName loc).toList := by simp [regionName_toList]
  refine ⟨List.ne_nil_of_mem named, ?_, ?_, ?_⟩
  · intro dot
    rw [dot] at named
    simp at named
  · intro up
    rw [up] at named
    simp at named
  · have x : '/' ∉ (toString loc.rx).toList := notMem_decimal (by decide) (by decide)
    have z : '/' ∉ (toString loc.rz).toList := notMem_decimal (by decide) (by decide)
    rw [regionName_toList]
    simp [x, z, -Int.toString_eq_repr]

theorem regionName_inj {loc loc' : RegionLocator}
    (same : (regionName loc).toList = (regionName loc').toList) :
    loc.rx = loc'.rx ∧ loc.rz = loc'.rz := by
  rw [regionName_toList, regionName_toList] at same
  exact decimal_pair_inj (by decide) (by decide)
    (List.append_cancel_right (List.append_cancel_left same))

/-- The folder is joined from the parts of the dimension. -/
theorem getRegionFolder_eq (cfg : Config) (loc : RegionLocator) :
    cfg.getRegionFolder loc =
      Path.join (cfg.root :: loc.world :: (dimParts loc.dimension ++ ["region"])) := by
  unfold Config.getRegionFolder dimParts
  split
  · rfl
  · split
    · rfl
    · split <;> rfl

/-- Not empty, and not absolute when the root is empty. -/
def Follows (cfg : Config) (wname : String) : Prop :=
  wname ≠ "" ∧ (cfg.root = "" → Path.isRooted wname.toList = false)

theorem worldDir_toList {wname : String} (follows : Follows cfg wname) :
    (cfg.worldDir wname).toList =
      Path.render cfg.rootPlace.rooted (cfg.rootPlace.world wname) :=
  Path.join_from follows.1 follows.2 []

/-- The place of a region file. -/
def Config.regionPlace (cfg : Config) (loc : RegionLocator) : Path.Place :=
  (regionName loc).toList :: "region".toList :: cfg.dimPlace loc.world loc.dimension

theorem region_plain : Path.Plain "region".toList :=
  ⟨by decide, by decide, by decide, by decide⟩

theorem worldPlace_isClean (cfg : Config) (wname : String) :
    Path.IsClean cfg.rootPlace.rooted (cfg.rootPlace.world wname) :=
  (Path.placeOf_isClean cfg.root.toList).within wname

theorem dimPlace_isClean (cfg : Config) (wname dname : String) :
    Path.IsClean cfg.rootPlace.rooted (cfg.dimPlace wname dname) :=
  (worldPlace_isClean cfg wname).foldl_within (dimParts dname)

theorem regionPlace_isClean (cfg : Config) (loc : RegionLocator) :
    Path.IsClean cfg.rootPlace.rooted (cfg.regionPlace loc) :=
  .name (regionName_plain loc) (.name region_plain (dimPlace_isClean cfg _ _))

theorem getRegionFolder_toList {loc : RegionLocator} (follows : Follows cfg loc.world) :
    (cfg.getRegionFolder loc).toList = Path.render cfg.rootPlace.rooted
      ("region".toList :: cfg.dimPlace loc.world loc.dimension) := by
  rw [getRegionFolder_eq, Path.join_from follows.1 follows.2, List.foldl_cons, List.foldl_append,
    List.foldl_cons, List.foldl_nil, Path.within_of_plain region_plain]
  rfl

theorem getRegionPath_toList {loc : RegionLocator} (follows : Follows cfg loc.world) :
    (cfg.getRegionPath loc).toList = Path.render cfg.rootPlace.rooted (cfg.regionPlace loc) := by
  have folder := getRegionFolder_toList follows
  have some_ : cfg.getRegionFolder loc ≠ "" := by
    intro nothing
    rw [nothing] at folder
    exact Path.render_ne_nil folder.symm
  obtain ⟨rooted, place⟩ := Path.placeOf_render
    (.name region_plain (dimPlace_isClean cfg loc.world loc.dimension))
  rw [← folder] at rooted place
  rw [Config.getRegionPath, Path.join_eq some_, List.foldl_cons, List.foldl_nil, rooted, place]
  exact congrArg _ (Path.within_of_plain (regionName_plain loc))

/-! ### When the names keep apart -/

theorem worldBelow_iff {wname : String} (follows : Follows cfg wname) :
    Path.Below (cfg.worldDir wname) cfg.root ↔ ∃ rest, rest ≠ [] ∧ ['.', '.'] ∉ rest ∧
      cfg.rootPlace.world wname = rest ++ cfg.rootPlace.place := by
  rw [Path.below_iff (worldPlace_isClean cfg wname) (worldDir_toList follows)]
  exact and_iff_right rfl

theorem regionBelow_iff {loc : RegionLocator} (follows : Follows cfg loc.world) :
    Path.Below (cfg.getRegionPath loc) cfg.root ↔
      (∃ rest, ['.', '.'] ∉ rest ∧
        cfg.dimPlace loc.world loc.dimension = rest ++ cfg.rootPlace.place) ∨
        "region".toList :: cfg.dimPlace loc.world loc.dimension = cfg.rootPlace.place := by
  rw [Path.below_iff (regionPlace_isClean cfg loc) (getRegionPath_toList follows)]
  exact (and_iff_right rfl).trans (Path.below_file_iff (regionName_plain loc) region_plain)

theorem getRegionPath_eq_iff {loc loc' : RegionLocator} (follows : Follows cfg loc.world)
    (follows' : Follows cfg loc'.world) :
    cfg.getRegionPath loc = cfg.getRegionPath loc' ↔ (loc.rx, loc.rz) = (loc'.rx, loc'.rz) ∧
      cfg.dimPlace loc.world loc.dimension = cfg.dimPlace loc'.world loc'.dimension := by
  rw [← String.toList_inj, getRegionPath_toList follows, getRegionPath_toList follows']
  constructor
  · intro same
    have place := (Path.render_inj (regionPlace_isClean cfg loc)
      (regionPlace_isClean cfg loc') same).2
    obtain ⟨name, above⟩ := List.cons_eq_cons.mp place
    obtain ⟨x, z⟩ := regionName_inj name
    exact ⟨by rw [x, z], (List.cons_eq_cons.mp above).2⟩
  · rintro ⟨coordinates, dir⟩
    obtain ⟨x, z⟩ := Prod.mk.inj coordinates
    have name : regionName loc = regionName loc' := by rw [regionName, regionName, x, z]
    rw [Config.regionPlace, Config.regionPlace, name, dir]

/-- A world that is absolute when the root is empty has its directory elsewhere. -/
theorem relative_of_worldBelow {wname : String} (some_ : wname ≠ "") (empty : cfg.root = "")
    (below : Path.Below (cfg.worldDir wname) cfg.root) :
    Path.isRooted wname.toList = false := by
  have joined : cfg.worldDir wname = Path.join [wname] := by
    rw [Config.worldDir, empty]
    rfl
  have clean := Path.placeOf_isClean wname.toList
  have same := ((Path.below_iff clean (joined ▸ Path.join_eq some_ [])).mp below).1
  rw [same, empty]
  rfl

/-- With accepted names of worlds everything stays below the root and apart exactly when the
names lead to directories that do. -/
theorem apart_iff (accepted : ∀ wname ∈ worlds, worldNameRegexp wname) :
    Apart cfg worlds dims ↔ NamesApart cfg worlds dims := by
  have some_ : ∀ wname ∈ worlds, wname ≠ "" := by
    intro wname member empty
    subst empty
    exact absurd (accepted "" member) (by decide)
  constructor
  · intro apart
    have relative : cfg.root = "" → ∀ wname ∈ worlds, Path.isRooted wname.toList = false :=
      fun empty wname member =>
        relative_of_worldBelow (some_ wname member) empty (apart.worldBelow wname member)
    have follows : ∀ wname ∈ worlds, Follows cfg wname := fun wname member =>
      ⟨some_ wname member, fun empty => relative empty wname member⟩
    refine ⟨relative, fun wname member => ?_, fun wname member dname dim => ?_, ?_⟩
    · exact (worldBelow_iff (follows wname member)).mp (apart.worldBelow wname member)
    · let loc : RegionLocator := ⟨wname, dname, 0, 0⟩
      have follow : Follows cfg loc.world := follows wname member
      exact (regionBelow_iff follow).mp (apart.regionBelow loc member dim)
    · intro wname member dname dim wname' member' dname' dim' dir
      by_contra differ
      refine apart.distinct ⟨wname, dname, 0, 0⟩ ⟨wname', dname', 0, 0⟩ member dim member' dim'
        (fun same => differ ?_) ((getRegionPath_eq_iff (follows wname member)
          (follows wname' member')).mpr ⟨rfl, dir⟩)
      injection same with world dimension
      rw [world, dimension]
  · rintro ⟨relative, world, dimension, distinct⟩
    have follows : ∀ wname ∈ worlds, Follows cfg wname := fun wname member =>
      ⟨some_ wname member, fun empty => relative empty wname member⟩
    refine ⟨fun wname member => ?_, fun loc member dim => ?_, ?_⟩
    · exact (worldBelow_iff (follows wname member)).mpr (world wname member)
    · exact (regionBelow_iff (follows loc.world member)).mpr
        (dimension loc.world member loc.dimension dim)
    · intro loc loc' member dim member' dim' differ same
      obtain ⟨coordinates, dir⟩ :=
        (getRegionPath_eq_iff (follows loc.world member) (follows loc'.world member')).mp same
      obtain ⟨x, z⟩ := Prod.mk.inj coordinates
      obtain ⟨named, dimensioned⟩ := Prod.mk.inj (distinct loc.world member loc.dimension dim
        loc'.world member' loc'.dimension dim' dir)
      cases loc
      cases loc'
      exact differ (by congr)

/-! ### Plain names -/

theorem dimParts_cases (dname : String) :
    dname = "overworld" ∧ dimParts dname = [] ∨ dname = "the_end" ∧ dimParts dname = ["DIM1"] ∨
      dname = "the_nether" ∧ dimParts dname = ["DIM-1"] ∨
        dimParts dname = ["dimensions", "webchunk", dname] := by
  unfold dimParts
  split
  · exact .inl ⟨‹_›, rfl⟩
  · split
    · exact .inr (.inl ⟨‹_›, rfl⟩)
    · split
      · exact .inr (.inr (.inl ⟨‹_›, rfl⟩))
      · exact .inr (.inr (.inr rfl))

/-- The dimension can be told from its directories. -/
theorem dimParts_inj {dname dname' : String} (same : dimParts dname = dimParts dname') :
    dname = dname' := by
  rcases dimParts_cases dname with ⟨named, parts⟩ | ⟨named, parts⟩ | ⟨named, parts⟩ | parts <;>
    rcases dimParts_cases dname' with
      ⟨named', parts'⟩ | ⟨named', parts'⟩ | ⟨named', parts'⟩ | parts' <;>
    rw [parts, parts'] at same <;> simp_all

theorem dimParts_plain {dname : String} (plain : Path.Plain dname.toList) :
    ∀ part ∈ dimParts dname, Path.Plain part.toList := by
  intro part member
  rcases dimParts_cases dname with ⟨-, parts⟩ | ⟨-, parts⟩ | ⟨-, parts⟩ | parts
  · rw [parts] at member
    cases member
  · rw [parts, List.mem_singleton] at member
    subst member
    exact ⟨by decide, by decide, by decide, by decide⟩
  · rw [parts, List.mem_singleton] at member
    subst member
    exact ⟨by decide, by decide, by decide, by decide⟩
  · rw [parts] at member
    simp only [List.mem_cons, List.not_mem_nil, or_false] at member
    rcases member with rfl | rfl | rfl
    · exact ⟨by decide, by decide, by decide, by decide⟩
    · exact ⟨by decide, by decide, by decide, by decide⟩
    · exact plain

/-- Names that are single elements keep apart below every root. -/
theorem namesApart_of_plain (plainWorlds : ∀ wname ∈ worlds, Path.Plain wname.toList)
    (plainDims : ∀ dname ∈ dims, Path.Plain dname.toList) : NamesApart cfg worlds dims := by
  have worldPlace : ∀ wname ∈ worlds,
      cfg.rootPlace.world wname = wname.toList :: cfg.rootPlace.place :=
    fun wname member => Path.within_of_plain (plainWorlds wname member)
  have dimPlace : ∀ wname ∈ worlds, ∀ dname ∈ dims, cfg.dimPlace wname dname =
      ((dimParts dname).map String.toList).reverse ++ wname.toList :: cfg.rootPlace.place := by
    intro wname member dname dim
    rw [Config.dimPlace, Path.foldl_within_of_plain (dimParts_plain (plainDims dname dim)),
      worldPlace wname member]
  refine ⟨fun _ wname member => (plainWorlds wname member).isRooted_eq, fun wname member => ?_,
    fun wname member dname dim => .inl ?_, ?_⟩
  · refine ⟨[wname.toList], by simp, ?_, worldPlace wname member⟩
    rw [List.mem_singleton]
    exact (plainWorlds wname member).notUp.symm
  · refine ⟨((dimParts dname).map String.toList).reverse ++ [wname.toList], ?_, ?_⟩
    · intro up
      rw [List.mem_append, List.mem_reverse, List.mem_map, List.mem_singleton] at up
      rcases up with ⟨part, member', up⟩ | up
      · exact (dimParts_plain (plainDims dname dim) part member').notUp up
      · exact (plainWorlds wname member).notUp up.symm
    · rw [dimPlace wname member dname dim, List.append_assoc]
      rfl
  · intro wname member dname dim wname' member' dname' dim' same
    rw [dimPlace wname member dname dim, dimPlace wname' member' dname' dim'] at same
    obtain ⟨parts, names⟩ := List.append_inj' same rfl
    have world := String.toList_inj.mp (List.cons_eq_cons.mp names).1
    have dimension := dimParts_inj (List.map_injective_iff.mpr
      (fun _ _ => String.toList_inj.mp) (List.reverse_injective parts))
    rw [world, dimension]

/-- Names with a dot or a hyphen are as good as others when they have no slash. -/
theorem apart_sample : Apart { root := "storage", timestampIsTime := true }
    {"survival", "play.example-server.net"} {"overworld", "the_end", "moon"} := by
  refine (apart_iff ?_).mpr (namesApart_of_plain ?_ ?_)
  · rintro wname (rfl | rfl) <;> decide
  · rintro wname (rfl | rfl) <;> exact ⟨by decide, by decide, by decide, by decide⟩
  · rintro dname (rfl | rfl | rfl) <;> exact ⟨by decide, by decide, by decide, by decide⟩

/-- Accepted names may climb out of the root, and a world may be a dimension of another. -/
theorem accepted_names_meet :
    (worldNameRegexp ".." ∧
      ¬ Apart { root := "storage", timestampIsTime := true } {".."} {"overworld"}) ∧
    (worldNameRegexp "a" ∧ worldNameRegexp "a/DIM1" ∧ dimNameRegexp "overworld" ∧
      dimNameRegexp "the_end" ∧ ¬ Apart { root := "storage", timestampIsTime := true }
        {"a", "a/DIM1"} {"overworld", "the_end"}) := by
  refine ⟨⟨by decide, fun apart => ?_⟩, by decide, by decide, by decide, by decide,
    fun apart => ?_⟩
  · obtain ⟨rest, -, -, place⟩ := (apart.worldBelow ".." rfl).2
    rw [show Path.placeOf (Config.worldDir _ "..").toList = [] by decide +kernel,
      List.nil_eq, List.append_eq_nil_iff] at place
    exact absurd place.2 (by decide)
  · exact apart.distinct ⟨"a/DIM1", "overworld", 0, 0⟩ ⟨"a", "the_end", 0, 0⟩ (.inr rfl) (.inl rfl)
      (.inl rfl) (.inr rfl) (by decide) (by decide +kernel)

end WebChunk.RegionStore
