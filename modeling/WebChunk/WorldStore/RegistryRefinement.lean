import Mathlib.Data.List.Sort
import WebChunk.Go.Bytes
import WebChunk.WorldStore.AllOrNothing
import WebChunk.WorldStore.Registry

/-!
# The storage refines the registry

As long as no file operation fails and the names are plain, a filesystem storage answers every
sequence of calls as the registry of its worlds does.
-/

namespace WebChunk.WorldStore

open WebChunk.Go
open WebChunk.Go.Path (Place Plain)
open WebChunk.Semantics

variable {LevelData DimensionType : Type}

/-! ### One world -/

variable {enc : Encodings LevelData} {types : String → DimensionType} {root : Root}
  {fs fs' : FileSystem} {wdir v : Place} {w : SWorld LevelData}

theorem defaultDims_below (member : v ∈ defaultDims wdir) : wdir <:+ v := by
  simp only [defaultDims, List.mem_cons, List.not_mem_nil, or_false] at member
  rcases member with rfl | rfl | rfl
  · exact List.suffix_cons _ _
  · exact (List.suffix_cons _ _).trans (List.suffix_cons _ _)
  · exact (List.suffix_cons _ _).trans (List.suffix_cons _ _)

theorem defaultDims_noFile (member : v ∈ defaultDims wdir) :
    ¬ getWorldDirMetaPath wdir <:+ v ∧ ¬ levelPath wdir <:+ v := by
  have listed : (v, (.done : Outcome Nat)) ∈ (defaultDims wdir).zip [.done, .done, .done] := by
    simpa [defaultDims] using member
  exact defaultDims_apart wdir _ _ listed

theorem fileAt_update {p : Place} (apart : ¬ p <:+ v) (node : Option Node) :
    FileSystem.fileAt (Function.update fs p node) v = fs.fileAt v :=
  FileSystem.fileAt_congr fun q above => by
    rw [Function.update_of_ne]
    rintro rfl
    exact apart above

theorem WriteFile_done {p : Place} (noDir : fs p ≠ some .dir) (content : List UInt8) :
    fs.WriteFile p content .done = (none, Function.update fs p (some (.file content))) := by
  unfold FileSystem.WriteFile
  split
  · rename_i isDir
    exact absurd isDir noDir
  · rfl

namespace Holds

theorem stat (holds : Holds enc fs wdir w) : fs.Stat wdir = .ok .dir := by
  unfold FileSystem.Stat
  rw [holds.isDir]

theorem readWorldMeta (holds : Holds enc fs wdir w) (roundTrips : enc.RoundTrips)
    (write : Outcome (List UInt8)) :
    WorldStore.readWorldMeta enc fs wdir write = (.ok ⟨w.Alias, w.IP⟩, fs) := by
  unfold WorldStore.readWorldMeta
  rw [FileSystem.ReadFile_of_file holds.worldMeta]
  dsimp only
  rw [roundTrips.worldMeta]

theorem readSaveLevel (holds : Holds enc fs wdir w) (roundTrips : enc.RoundTrips) :
    WorldStore.readSaveLevel enc fs (levelPath wdir) = .ok w.Data := by
  obtain ⟨b, encoded, file⟩ := holds.level
  unfold WorldStore.readSaveLevel
  rw [FileSystem.ReadFile_of_file file]
  dsimp only
  rw [roundTrips.level _ _ encoded]

theorem getWorld (holds : Holds enc fs (root.world w.Name) w) (roundTrips : enc.RoundTrips)
    (write : Outcome (List UInt8)) :
    GetWorld enc root fs w.Name write = ((some w, none), fs) := by
  unfold GetWorld
  dsimp only
  rw [holds.stat, holds.readWorldMeta roundTrips]
  dsimp only
  rw [holds.readSaveLevel roundTrips]

/-- The rest of the tree does not matter. -/
theorem congr (holds : Holds enc fs wdir w)
    (same : ∀ v q, wdir <:+ v → q <:+ v → fs' q = fs q) : Holds enc fs' wdir w where
  isDir := (same wdir wdir List.suffix_rfl List.suffix_rfl).trans holds.isDir
  worldMeta := (same _ _ (List.suffix_cons _ _) List.suffix_rfl).trans holds.worldMeta
  level := by
    obtain ⟨b, encoded, file⟩ := holds.level
    exact ⟨b, encoded, (same _ _ (List.suffix_cons _ _) List.suffix_rfl).trans file⟩
  dims v member := by
    rw [← holds.dims v member]
    exact FileSystem.fileAt_congr fun q above => by
      rw [same v q (defaultDims_below member) above]

/-- The meta file is written. -/
theorem setMeta (holds : Holds enc fs wdir w) (d : WorldMeta) :
    Holds enc (Function.update fs (getWorldDirMetaPath wdir) (some (.file (enc.marshalMeta d))))
      wdir { w with Alias := d.Alias, IP := d.IP } where
  isDir := by
    exact (Function.update_of_ne (List.cons_ne_self _ _).symm _ _).trans holds.isDir
  worldMeta := Function.update_self _ _ _
  level := by
    obtain ⟨b, encoded, file⟩ := holds.level
    exact ⟨b, encoded, (Function.update_of_ne (levelPath_ne wdir wdir) _ _).trans file⟩
  dims v member := by
    rw [fileAt_update (defaultDims_noFile member).1]
    exact holds.dims v member

/-- `level.dat` is written. -/
theorem setLevel (holds : Holds enc fs wdir w) {data : LevelData} {b : List UInt8}
    (encoded : enc.encodeLevel data = .ok b) :
    Holds enc (Function.update fs (levelPath wdir) (some (.file b))) wdir { w with Data := data }
    where
  isDir := by
    exact (Function.update_of_ne (List.cons_ne_self _ _).symm _ _).trans holds.isDir
  worldMeta := (Function.update_of_ne (levelPath_ne wdir wdir).symm _ _).trans holds.worldMeta
  level := ⟨b, encoded, Function.update_self _ _ _⟩
  dims v member := by
    rw [fileAt_update (defaultDims_noFile member).2]
    exact holds.dims v member

end Holds

/-! ### Adding a world -/

variable {world : SWorld LevelData}

/-- All that is made is on the way to the directories of the dimensions. -/
theorem mem_remains_dirs {o : Outcomes} {q : Place}
    (made : q ∈ (remains enc root fs world o).dirs) :
    ∃ v ∈ defaultDims (root.world world.Name), q <:+ v := by
  have first : ∀ q ∈ madeDirs fs (root.world world.Name) o.dir,
      ∃ v ∈ defaultDims (root.world world.Name), q <:+ v := fun q member =>
    ⟨_, List.mem_cons_self, (suffix_of_mem_madeDirs member).trans (List.suffix_cons _ _)⟩
  have both : ∀ q ∈ madeDirs fs (root.world world.Name) o.dir ++ (dimsMade fs
      ((defaultDims (root.world world.Name)).zip [o.region, o.nether, o.theEnd])).1,
      ∃ v ∈ defaultDims (root.world world.Name), q <:+ v := by
    intro q member
    rcases List.mem_append.mp member with early | late
    · exact first q early
    · obtain ⟨pair, listed, above⟩ := suffix_of_mem_dimsMade late
      exact ⟨pair.1, (List.of_mem_zip listed).1, above⟩
  unfold remains at made
  dsimp only at made
  split at made
  · split at made
    · split at made
      · split at made
        · exact both q made
        · exact both q made
      · exact both q made
    · exact first q made
  · exact first q made

theorem MkdirAll_done {p : Place} (clear : fs.fileAt p = false) :
    (fs.MkdirAll p .done).1 = none := by
  simp [FileSystem.MkdirAll, clear]

theorem dimsMade_done {l : List (Place × Outcome Nat)}
    (clear : ∀ v ∈ l, fs.fileAt v.1 = false ∧ v.2 = .done) : (dimsMade fs l).2 = true := by
  induction l with
  | nil => rfl
  | cons v rest inductionHypothesis =>
      obtain ⟨v, outcome⟩ := v
      obtain ⟨noFile, rfl⟩ := clear _ List.mem_cons_self
      have passed : passes (fs.MkdirAll v .done).1 = true := by rw [MkdirAll_done noFile]; rfl
      rw [dimsMade, if_pos passed]
      exact inductionHypothesis fun w member => clear w (List.mem_cons_of_mem _ member)

/-- All operations succeed where neither a file nor a directory is in the way. -/
theorem remains_complete {b : List UInt8}
    (noMetaDir : fs (getWorldDirMetaPath (root.world world.Name)) ≠ some .dir)
    (noLevelDir : fs (levelPath (root.world world.Name)) ≠ some .dir)
    (dims : ∀ v ∈ defaultDims (root.world world.Name), fs.fileAt v = false)
    (encoded : enc.encodeLevel world.Data = .ok b) :
    (remains enc root fs world allDone).complete = true := by
  have wrote : ∀ p content, fs p ≠ some .dir → (fs.WriteFile p content .done).1 = none :=
    fun p content file => FileSystem.WriteFile_eq_none_iff.mpr ⟨file, rfl⟩
  have dir : fs.fileAt (root.world world.Name) = false := by
    refine Bool.eq_false_iff.mpr fun file => ?_
    have below := FileSystem.fileAt_of_suffix (List.suffix_cons "region".toList _) file
    rw [dims _ List.mem_cons_self] at below
    cases below
  have all : (dimsMade fs ((defaultDims (root.world world.Name)).zip
      [.done, .done, .done])).2 = true := by
    refine dimsMade_done fun v member => ⟨dims _ (List.of_mem_zip member).1, ?_⟩
    simpa using (List.of_mem_zip member).2
  unfold remains
  simp only [allDone, MkdirAll_done dir, wrote _ _ noMetaDir, all, encoded, if_true]
  exact decide_eq_true (wrote _ _ noLevelDir)

/-! ### The registry and its tree -/

variable {reg : Registry LevelData} {wname : String}

/-- A place is below one of the directories of a directory at most. -/
theorem name_unique {first second : String} {dir : Place} (here : first.toList :: dir <:+ v)
    (there : second.toList :: dir <:+ v) : first = second := by
  have same := (List.suffix_of_suffix_length_le here there (by simp)).eq_of_length (by simp)
  exact String.toList_inj.mp (List.cons.inj same).1

theorem not_below {q : Place} (above : q <:+ root.place) : ¬ wname.toList :: root.place <:+ q := by
  intro below
  have longer := (below.trans above).length_le
  simp at longer

namespace Represents

/-- A world is changed or added, and the rest of the tree stays. -/
theorem changed (represents : Represents enc root fs reg) (plain : Plain wname.toList)
    (named : w.Name = wname) (holds : Holds enc fs' (wname.toList :: root.place) w)
    (same : ∀ q, ¬ wname.toList :: root.place <:+ q → fs' q = fs q) :
    Represents enc root fs' (reg.set wname w) where
  above q up := (same q (not_below up)).trans (represents.above q up)
  named other found_ there := by
    rw [Map.get_set] at there
    split at there
    · rename_i here
      cases there
      exact here ▸ ⟨plain, named⟩
    · exact represents.named other found_ there
  holds other found_ there := by
    rw [Map.get_set] at there
    split at there
    · rename_i here
      cases there
      exact here ▸ holds
    · rename_i differ
      exact (represents.holds other found_ there).congr fun place q below up =>
        same q fun inside => differ (name_unique below (inside.trans up))
  nothing other absent q below := by
    rw [Map.get_set] at absent
    split at absent
    · cases absent
    · rename_i differ
      rw [same q fun inside => differ (name_unique below inside)]
      exact represents.nothing other absent q below

/-- No file is in the way of a world that is not there. -/
theorem noFile_absent (represents : Represents enc root fs reg) (absent : reg.get wname = none)
    (below : wname.toList :: root.place <:+ v) : fs.fileAt v = false := by
  refine Bool.eq_false_iff.mpr fun file => ?_
  obtain ⟨p, higher, content, found⟩ := FileSystem.fileAt_iff.mp file
  rcases List.suffix_or_suffix_of_suffix below higher with inside | outside
  · rw [represents.nothing wname absent p inside] at found
    cases found
  · rcases List.suffix_cons_iff.mp outside with rfl | outside
    · rw [represents.nothing wname absent _ List.suffix_rfl] at found
      cases found
    · rw [represents.above p outside] at found
      cases found

theorem stat_absent (represents : Represents enc root fs reg) (absent : reg.get wname = none) :
    fs.Stat (wname.toList :: root.place) = .error .notExist :=
  FileSystem.Stat_notExist_iff.mpr ⟨represents.nothing wname absent _ List.suffix_rfl,
    represents.noFile_absent absent List.suffix_rfl⟩

/-- Nothing is in the way of a world, old or new. -/
theorem accepts (represents : Represents enc root fs reg) (wname : String) :
    fs (getWorldDirMetaPath (wname.toList :: root.place)) ≠ some .dir ∧
      fs (levelPath (wname.toList :: root.place)) ≠ some .dir ∧
      (∀ v ∈ defaultDims (wname.toList :: root.place), fs.fileAt v = false) ∧
      (fs (wname.toList :: root.place) = none ∨ fs (wname.toList :: root.place) = some .dir) := by
  cases known : reg.get wname with
  | none =>
      have nothing := represents.nothing wname known
      have noMeta := nothing (getWorldDirMetaPath _) (List.suffix_cons _ _)
      have noLevel := nothing (levelPath _) (List.suffix_cons _ _)
      exact ⟨by simp [noMeta], by simp [noLevel],
        fun v dim => represents.noFile_absent known (defaultDims_below dim),
        .inl (nothing _ List.suffix_rfl)⟩
  | some w =>
      have holds := represents.holds wname w known
      obtain ⟨content, -, file⟩ := holds.level
      exact ⟨by simp [holds.worldMeta], by simp [file], holds.dims, .inr holds.isDir⟩

/-- `AddWorld` leaves the rest of the tree as it is. -/
theorem left_outside (represents : Represents enc root fs reg)
    (place : root.world world.Name = world.Name.toList :: root.place) {q : Place}
    (outside : ¬ world.Name.toList :: root.place <:+ q) :
    (remains enc root fs world allDone).left fs (world.Name.toList :: root.place) q = fs q := by
  have noMeta : q ≠ getWorldDirMetaPath (world.Name.toList :: root.place) := fun here =>
    outside (here ▸ List.suffix_cons _ _)
  have noLevel : q ≠ levelPath (world.Name.toList :: root.place) := fun here =>
    outside (here ▸ List.suffix_cons _ _)
  rw [left_of_none (content_eq_none noMeta noLevel)]
  refine if_neg fun fresh => ?_
  obtain ⟨v, dim, above⟩ := mem_remains_dirs fresh.1
  rw [place] at dim
  rcases List.suffix_or_suffix_of_suffix (defaultDims_below dim) above with below | higher
  · exact outside below
  · rcases List.suffix_cons_iff.mp higher with rfl | higher
    · exact outside List.suffix_rfl
    · rw [represents.above q higher] at fresh
      cases fresh.2

/-- `AddWorld` adds the world or takes the place of the one of its name. -/
theorem addWorld (represents : Represents enc root fs reg) (plain : Plain world.Name.toList)
    {b : List UInt8} (encoded : enc.encodeLevel world.Data = .ok b) :
    (AddWorld enc root fs world allDone).1 = none ∧
      Represents enc root (AddWorld enc root fs world allDone).2 (reg.set world.Name world) := by
  have place : root.world world.Name = world.Name.toList :: root.place :=
    Path.within_of_plain plain
  obtain ⟨after, success⟩ := AddWorld_left enc root fs world allDone
  obtain ⟨noMetaDir, noLevelDir, dims, dir⟩ := represents.accepts world.Name
  have complete := remains_complete (place ▸ noMetaDir) (place ▸ noLevelDir) (place ▸ dims) encoded
  obtain ⟨member, worldMeta, b', encoded', level⟩ :=
    (remains_fits enc root fs world allDone).whole complete
  rw [place] at member
  rw [after, place]
  refine ⟨success.mpr complete,
    represents.changed plain rfl ?_ fun q outside => represents.left_outside place outside⟩
  refine ⟨?_, left_of_content fs ((if_pos rfl).trans worldMeta), ⟨b', encoded', ?_⟩, ?_⟩
  · rw [left_of_none (content_eq_none (List.cons_ne_self _ _).symm (List.cons_ne_self _ _).symm)]
    rcases dir with absent | there
    · rw [if_pos ⟨member, absent⟩]
    · rw [if_neg (by simp [there]), there]
  · exact left_of_content fs (((if_neg (levelPath_ne _ _)).trans (if_pos rfl)).trans level)
  · intro v dim
    rw [fileAt_left fs _ (defaultDims_noFile dim).1 (defaultDims_noFile dim).2]
    exact dims v dim

/-- A file of a world is written, and the world is another one. -/
theorem update (represents : Represents enc root fs reg) (known : reg.get wname = some w)
    {w' : SWorld LevelData} {name : List Char} {node : Option Node}
    (holds : Holds enc (Function.update fs (name :: wname.toList :: root.place) node)
      (wname.toList :: root.place) w') (named : w'.Name = w.Name) :
    Represents enc root (Function.update fs (name :: wname.toList :: root.place) node)
      (reg.set wname w') := by
  obtain ⟨plain, same⟩ := represents.named wname w known
  refine represents.changed plain (named.trans same) holds fun q outside => ?_
  refine Function.update_of_ne ?_ _ _
  rintro rfl
  exact outside (List.suffix_cons _ _)

/-- The methods that change the meta file change the world, if there is one. -/
theorem setWorldMeta (represents : Represents enc root fs reg) (roundTrips : enc.RoundTrips)
    (plain : Plain wname.toList) {change : WorldMeta → WorldMeta}
    {f : SWorld LevelData → SWorld LevelData}
    (same : ∀ w : SWorld LevelData, f w = { w with
      Alias := (change ⟨w.Alias, w.IP⟩).Alias, IP := (change ⟨w.Alias, w.IP⟩).IP })
    {err : Option WorldError} {after : FileSystem}
    (result : WorldStore.setWorldMeta enc root fs wname change .done .done = (err, after)) :
    (reg.change wname f : Reply LevelData DimensionType × Registry LevelData).1 =
        .done (err.map .world) ∧
      Represents enc root after
        (reg.change wname f : Reply LevelData DimensionType × Registry LevelData).2 := by
  have place : root.world wname = wname.toList :: root.place := Path.within_of_plain plain
  unfold WorldStore.setWorldMeta inDirectory at result
  dsimp only at result
  rw [place] at result
  unfold Registry.change
  cases known : reg.get wname with
  | none =>
      rw [represents.stat_absent known] at result
      cases result
      exact ⟨rfl, represents⟩
  | some w =>
      have holds := represents.holds wname w known
      have noDir : fs (getWorldDirMetaPath (wname.toList :: root.place)) ≠ some .dir :=
        (represents.accepts wname).1
      rw [holds.stat, holds.readWorldMeta roundTrips] at result
      dsimp only at result
      rw [writeWorldMeta, WriteFile_done noDir] at result
      cases result
      dsimp only
      rw [same w]
      exact ⟨rfl, represents.update known (holds.setMeta _) rfl⟩

theorem setWorldData (represents : Represents enc root fs reg) (plain : Plain wname.toList)
    {data : LevelData} {b : List UInt8} (encoded : enc.encodeLevel data = .ok b)
    {err : Option WorldError} {after : FileSystem}
    (result : SetWorldData enc root fs wname data .done = (err, after)) :
    (reg.change wname fun w => { w with Data := data } :
        Reply LevelData DimensionType × Registry LevelData).1 = .done (err.map .world) ∧
      Represents enc root after
        (reg.change wname fun w => { w with Data := data } :
          Reply LevelData DimensionType × Registry LevelData).2 := by
  have place : root.world wname = wname.toList :: root.place := Path.within_of_plain plain
  unfold SetWorldData inDirectory at result
  rw [encoded, place] at result
  dsimp only at result
  unfold Registry.change
  cases known : reg.get wname with
  | none =>
      rw [represents.stat_absent known] at result
      cases result
      exact ⟨rfl, represents⟩
  | some w =>
      have holds := represents.holds wname w known
      have noDir : fs (levelPath (wname.toList :: root.place)) ≠ some .dir :=
        (represents.accepts wname).2.1
      rw [holds.stat] at result
      dsimp only at result
      rw [writeSaveLevel, encoded] at result
      dsimp only at result
      rw [WriteFile_done noDir] at result
      cases result
      have changed := holds.setLevel encoded
      exact ⟨rfl, represents.update known changed rfl⟩

/-! ### Listings -/

theorem getWorld (represents : Represents enc root fs reg) (roundTrips : enc.RoundTrips)
    (plain : Plain wname.toList) (write : Outcome (List UInt8)) :
    GetWorld enc root fs wname write = ((reg.get wname, none), fs) := by
  have place : root.world wname = wname.toList :: root.place := Path.within_of_plain plain
  cases known : reg.get wname with
  | none =>
      unfold GetWorld
      dsimp only
      rw [place, represents.stat_absent known]
  | some w =>
      have named := (represents.named wname w known).2
      have holds := represents.holds wname w known
      rw [← place, ← named] at holds
      rw [← named]
      exact holds.getWorld roundTrips write

/-- Whether the directory of a world is there. -/
theorem stat (represents : Represents enc root fs reg) (plain : Plain wname.toList) :
    fs.Stat (root.world wname) =
      if (reg.get wname).isSome then .ok .dir else .error .notExist := by
  have place : root.world wname = wname.toList :: root.place := Path.within_of_plain plain
  rw [place]
  cases known : reg.get wname with
  | none => exact represents.stat_absent known
  | some w => exact (represents.holds wname w known).stat

theorem listWorldDimensions (represents : Represents enc root fs reg)
    (plain : Plain wname.toList) : ListWorldDimensions types root fs wname =
      if (reg.get wname).isSome then (listedDims types wname, none) else ([], some .noWorld) := by
  unfold ListWorldDimensions
  rw [represents.stat plain]
  cases (reg.get wname).isSome <;> rfl

theorem getDimension (represents : Represents enc root fs reg) (plain : Plain wname.toList)
    (dname : String) : GetDimension types root fs wname dname =
      if (reg.get wname).isSome then
        match dimOf types wname dname with
        | some d => (some d, none)
        | none => (none, some .noDim)
      else (none, some .noWorld) := by
  unfold GetDimension
  rw [represents.stat plain]
  cases (reg.get wname).isSome <;> rfl

/-- The entries of the root are the worlds. -/
theorem entries (represents : Represents enc root fs reg) {dir : List String}
    (lists : Lists fs root.place dir) : dir = reg.names := by
  refine lists.sorted.sortedLT.eq_of_mem_iff reg.keys.sortedLT_sort fun wname => ?_
  rw [lists.there, Registry.names, Finset.mem_sort, reg.mem_keys]
  cases known : reg.get wname with
  | none =>
      rw [represents.nothing wname known _ List.suffix_rfl]
      simp
  | some w =>
      rw [(represents.holds wname w known).isDir]
      simp

theorem world_of_name (reg : Registry LevelData) {wname : String} (member : wname ∈ reg.names) :
    ∃ w, reg.get wname = some w :=
  Option.isSome_iff_exists.mp ((reg.mem_keys wname).mp ((Finset.mem_sort _).mp member))

/-- Every entry of the root is a directory with a `level.dat`. -/
theorem entry_valid (represents : Represents enc root fs reg) (known : reg.get wname = some w) :
    isDirEntry root fs wname = true ∧ checkValidWorld fs (root.world wname) = true := by
  have place : root.world wname = wname.toList :: root.place :=
    Path.within_of_plain (represents.named wname w known).1
  have holds := represents.holds wname w known
  obtain ⟨b, -, file⟩ := holds.level
  unfold isDirEntry checkValidWorld
  rw [place, holds.isDir, file]
  exact ⟨rfl, rfl⟩

theorem listWorldNames (represents : Represents enc root fs reg) {dir : List String}
    (lists : Lists fs root.place dir) : ListWorldNames root fs dir none = (reg.names, none) := by
  have same := represents.entries lists
  subst same
  unfold ListWorldNames
  dsimp only
  congr 1
  refine List.filter_eq_self.mpr fun wname member => ?_
  obtain ⟨w, known⟩ := world_of_name reg member
  obtain ⟨isDir, valid⟩ := represents.entry_valid known
  rw [isDir, valid]
  rfl

theorem listWorldsLoop (represents : Represents enc root fs reg) (roundTrips : enc.RoundTrips)
    (write : Outcome (List UInt8)) {wnames : List String} (listed : ∀ n ∈ wnames, n ∈ reg.names) :
    WorldStore.listWorldsLoop enc root fs write wnames = (wnames.filterMap reg.get, fs) := by
  induction wnames with
  | nil => rfl
  | cons wname rest inductionHypothesis =>
      obtain ⟨w, known⟩ := world_of_name reg (listed wname List.mem_cons_self)
      have plain := (represents.named wname w known).1
      rw [WorldStore.listWorldsLoop, if_pos (represents.entry_valid known).1,
        represents.getWorld roundTrips plain]
      dsimp only
      rw [inductionHypothesis fun n member => listed n (List.mem_cons_of_mem _ member), known,
        List.filterMap_cons_some known]
      rfl

theorem listWorlds (represents : Represents enc root fs reg) (roundTrips : enc.RoundTrips)
    (write : Outcome (List UInt8)) {dir : List String} (lists : Lists fs root.place dir) :
    ListWorlds enc root fs dir none write = ((reg.names.filterMap reg.get, none), fs) := by
  have same := represents.entries lists
  subst same
  unfold ListWorlds
  rw [represents.listWorldsLoop roundTrips write fun _ member => member]

theorem listDimensionsLoop (represents : Represents enc root fs reg) {wnames : List String}
    (listed : ∀ n ∈ wnames, n ∈ reg.names) :
    WorldStore.listDimensionsLoop types root fs wnames =
      (wnames.flatMap (listedDims types), none) := by
  induction wnames with
  | nil => rfl
  | cons wname rest inductionHypothesis =>
      obtain ⟨w, known⟩ := world_of_name reg (listed wname List.mem_cons_self)
      have plain := (represents.named wname w known).1
      rw [WorldStore.listDimensionsLoop, represents.listWorldDimensions plain, known]
      dsimp only [Option.isSome_some, if_true]
      rw [inductionHypothesis fun n member => listed n (List.mem_cons_of_mem _ member)]
      rfl

theorem listDimensions (represents : Represents enc root fs reg) {dir : List String}
    (lists : Lists fs root.place dir) :
    ListDimensions types root fs dir none = (reg.names.flatMap (listedDims types), none) := by
  unfold ListDimensions
  rw [represents.listWorldNames lists]
  exact represents.listDimensionsLoop fun _ member => member

/-- The storage answers each call as the registry does. -/
theorem performed (represents : Represents enc root fs reg) (roundTrips : enc.RoundTrips)
    {call : Call LevelData DimensionType} (permitted : Permitted enc root fs call) :
    (perform enc types root fs call).1 = (reg.answer enc types call).1 ∧
      Represents enc root (perform enc types root fs call).2 (reg.answer enc types call).2 := by
  cases call with
  | listWorlds dir =>
      rw [perform, represents.listWorlds roundTrips .done permitted]
      exact ⟨rfl, represents⟩
  | listWorldNames dir =>
      rw [perform, represents.listWorldNames permitted]
      exact ⟨rfl, represents⟩
  | getWorld wname =>
      rw [perform, represents.getWorld roundTrips permitted]
      exact ⟨rfl, represents⟩
  | addWorld world =>
      obtain ⟨plain, b, encoded⟩ := permitted
      obtain ⟨done, held⟩ := represents.addWorld plain encoded
      rw [perform]
      dsimp only
      rw [done]
      exact ⟨rfl, held⟩
  | setWorldAlias wname newalias =>
      obtain ⟨reply, held⟩ := represents.setWorldMeta roundTrips permitted
        (fun _ => rfl) rfl
      exact ⟨reply.symm, held⟩
  | setWorldIP wname newip =>
      obtain ⟨reply, held⟩ := represents.setWorldMeta roundTrips permitted
        (fun _ => rfl) rfl
      exact ⟨reply.symm, held⟩
  | setWorldData wname data =>
      rw [perform, Registry.answer]
      cases encoded : enc.encodeLevel data with
      | error text =>
          rw [SetWorldData, encoded]
          exact ⟨rfl, represents⟩
      | ok b =>
          obtain ⟨reply, held⟩ := represents.setWorldData permitted encoded rfl
          exact ⟨reply.symm, held⟩
  | listWorldDimensions wname =>
      rw [perform, represents.listWorldDimensions permitted, Registry.answer]
      cases (reg.get wname).isSome <;> exact ⟨rfl, represents⟩
  | listDimensions dir =>
      rw [perform, represents.listDimensions permitted]
      exact ⟨rfl, represents⟩
  | addDimension wname dim | setDimensionData wname dname data => exact ⟨rfl, represents⟩
  | getDimension wname dname =>
      rw [perform, represents.getDimension permitted, Registry.answer]
      cases (reg.get wname).isSome with
      | false => exact ⟨rfl, represents⟩
      | true => cases dimOf types wname dname <;> exact ⟨rfl, represents⟩

end Represents

section

variable [DecidableEq LevelData] [DecidableEq DimensionType]

/-- The storage refines the registry. -/
theorem storage_refines (enc : Encodings LevelData) (types : String → DimensionType) (root : Root)
    (roundTrips : enc.RoundTrips) :
    Machine.Refines (filesystemStorage enc types root) (worldRegistry enc types)
      (fun fs exchange => Permitted enc root fs exchange.1) (Represents enc root) :=
  refines_of_answers fun _ _ _ represents permitted => represents.performed roundTrips permitted

/-- Whatever calls are made one after the other, a storage that holds a registry returns what the
registry returns, and holds it afterwards. -/
theorem answersAsRegistry (enc : Encodings LevelData) (types : String → DimensionType)
    (root : Root) (roundTrips : enc.RoundTrips) {start final : FileSystem}
    {reg : Registry LevelData}
    {exchanges : List (Call LevelData DimensionType × Reply LevelData DimensionType)}
    (represents : Represents enc root start reg)
    (run : (filesystemStorage enc types root).Runs start exchanges final)
    (permitted : (filesystemStorage enc types root).StepsOnly
      (fun fs exchange => Permitted enc root fs exchange.1) start exchanges) :
    ∃ after, (worldRegistry enc types).Runs reg exchanges after ∧
      Represents enc root final after :=
  (storage_refines enc types root roundTrips).runs run permitted represents

end

/-! ### A sample -/

/-- A text in bytes: its characters, and an end. -/
def sampleText : List Char → List UInt8
  | [] => [0]
  | c :: rest => 1 :: bigEndianBytes 3 c.toNat ++ sampleText rest

def readSampleText : List UInt8 → Option (List Char × List UInt8)
  | tag :: a :: b :: c :: rest =>
      if tag = 0 then some ([], a :: b :: c :: rest)
      else (readSampleText rest).map fun read =>
        (Char.ofNat (bigEndian [a, b, c]) :: read.1, read.2)
  | tag :: rest => if tag = 0 then some ([], rest) else none
  | [] => none

theorem readSampleText_end (rest : List UInt8) : readSampleText (0 :: rest) = some ([], rest) := by
  rcases rest with _ | ⟨_, _ | ⟨_, _ | _⟩⟩ <;> rfl

theorem readSampleText_sampleText (text : List Char) (rest : List UInt8) :
    readSampleText (sampleText text ++ rest) = some (text, rest) := by
  induction text with
  | nil => exact readSampleText_end rest
  | cons c text inductionHypothesis =>
      have valid : c.toNat < 0xD800 ∨ 0xDFFF < c.toNat ∧ c.toNat < 0x110000 := c.valid
      have char : Char.ofNat (bigEndian (bigEndianBytes 3 c.toNat)) = c := by
        rw [bigEndian_bigEndianBytes, Nat.mod_eq_of_lt (by omega), Char.ofNat_toNat]
      have bytes : sampleText (c :: text) ++ rest =
          1 :: (bigEndianBytes 3 c.toNat ++ (sampleText text ++ rest)) := by simp [sampleText]
      rw [bytes]
      simp only [bigEndianBytes, List.nil_append, List.cons_append] at char ⊢
      rw [readSampleText, if_neg (by decide), inductionHypothesis, char]
      rfl

/-- Encodings that can be read, where a level is one byte. -/
def sampleFormat : Encodings UInt8 where
  marshalMeta d := sampleText d.Alias.toList ++ sampleText d.IP.toList
  unmarshalMeta b :=
    match readSampleText b with
    | none => .error "unexpected end of JSON input"
    | some (name, rest) =>
        match readSampleText rest with
        | none => .error "unexpected end of JSON input"
        | some (address, _) => .ok ⟨String.ofList name, String.ofList address⟩
  encodeLevel d := .ok [d]
  decodeLevel
    | [d] => .ok d
    | _ => .error "unexpected EOF"

theorem sampleFormat_roundTrips : sampleFormat.RoundTrips where
  worldMeta d := by
    have rest : readSampleText (sampleText d.IP.toList) = some (d.IP.toList, []) := by
      simpa using readSampleText_sampleText d.IP.toList []
    simp [sampleFormat, readSampleText_sampleText, rest]
  level d b encoded := by
    cases encoded
    rfl

/-- An empty directory of worlds. -/
def emptyStorage : FileSystem := fun q => if q <:+ sampleRoot.place then some .dir else none

/-- A world is added, gets another address and is read. -/
def sampleExchanges : List (Call UInt8 Nat × Reply UInt8 Nat) :=
  [(.getWorld "w", .world none none),
    (.setWorldIP "w" "here", .done (some (.world (.file .notExist)))),
    (.addWorld ⟨"w", "alias", "ip", 7⟩, .done none),
    (.setWorldIP "w" "here", .done none),
    (.getWorld "w", .world (some ⟨"w", "alias", "here", 7⟩) none),
    (.getDimension "w" "the_end", .dim (some ⟨"the_end", "w", 0⟩) none)]

theorem emptyStorage_represents : Represents sampleFormat sampleRoot emptyStorage Map.empty where
  above q up := if_pos up
  named wname w found := by cases found
  holds wname w found := by cases found
  nothing wname _ q below := if_neg fun up => not_below up below

theorem plain_w : Plain "w".toList := ⟨by decide, by decide, by decide, by decide⟩

/-- An empty directory answers as the empty registry does. -/
theorem answersAsRegistry_empty : ∃ after,
    (worldRegistry sampleFormat (fun _ => 0)).Runs Map.empty sampleExchanges after ∧
      Represents sampleFormat sampleRoot
        (((filesystemStorage sampleFormat (fun _ => 0) sampleRoot).exec emptyStorage
          sampleExchanges).get (by decide +kernel)) after := by
  refine answersAsRegistry sampleFormat (fun _ => 0) sampleRoot sampleFormat_roundTrips
    emptyStorage_represents (Machine.runs_exec_get (by decide +kernel)) ?_
  intro before exchange part fs _
  have member : exchange ∈ sampleExchanges := part.subset (by simp)
  simp only [sampleExchanges, List.mem_cons, List.not_mem_nil, or_false] at member
  rcases member with rfl | rfl | rfl | rfl | rfl | rfl
  · exact plain_w
  · exact plain_w
  · exact ⟨plain_w, _, rfl⟩
  · exact plain_w
  · exact plain_w
  · exact plain_w

end WebChunk.WorldStore
