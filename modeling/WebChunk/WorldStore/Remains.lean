import WebChunk.WorldStore.World

/-!
# What adding a world leaves behind

What `AddWorld` leaves behind, as a change of the tree that it started with: the directories and
the contents of the two files that it makes up to the operation that fails.
-/

namespace WebChunk.WorldStore

open WebChunk.Go
open WebChunk.Go.Path (Place within)

variable {LevelData : Type} (enc : Encodings LevelData) (root : Root)

/-! ### The operations -/

/-- The directories that `os.MkdirAll` makes, with those that are there. -/
def madeDirs (fs : FileSystem) (p : Place) (outcome : Outcome Nat) : List Place :=
  if fs.fileAt p then []
  else
    match outcome with
    | .done => p.tails
    | .failed _ none => []
    | .failed _ (some n) => (p.drop n).tails

/-- `createDefaultDims` goes on after `os.MkdirAll`. -/
def passes (err : Option FileError) : Bool := err == none || err == some .exist

/-- What `os.WriteFile` leaves in the file, if it touches it. -/
def leftIn (fs : FileSystem) (p : Place) (content : List UInt8) (outcome : Outcome (List UInt8)) :
    Option (List UInt8) :=
  if fs p = some .dir then none
  else
    match outcome with
    | .done => some content
    | .failed _ left => left

/-- What is made of the directories of the dimensions, and whether all of them are. -/
def dimsMade (fs : FileSystem) : List (Place × Outcome Nat) → List Place × Bool
  | [] => ([], true)
  | (v, outcome) :: rest =>
      if passes (fs.MkdirAll v outcome).1 then
        let (dirs, all) := dimsMade fs rest
        (madeDirs fs v outcome ++ dirs, all)
      else (madeDirs fs v outcome, false)

/-- What `AddWorld` makes: directories, and the contents of the two files of the world. -/
structure Remains where
  dirs : List Place
  worldMeta : Option (List UInt8)
  level : Option (List UInt8)
  /-- All operations have succeeded. -/
  complete : Bool

/-- What `AddWorld` makes in a tree, given how its operations end. -/
def remains (fs : FileSystem) (world : SWorld LevelData) (o : Outcomes) : Remains :=
  let wpath := root.world world.Name
  let first := madeDirs fs wpath o.dir
  if (fs.MkdirAll wpath o.dir).1 = none then
    let b := enc.marshalMeta ⟨world.Alias, world.IP⟩
    let worldMeta := leftIn fs (getWorldDirMetaPath wpath) b o.worldMeta
    if (fs.WriteFile (getWorldDirMetaPath wpath) b o.worldMeta).1 = none then
      let (dims, all) := dimsMade fs ((defaultDims wpath).zip [o.region, o.nether, o.theEnd])
      if all then
        match enc.encodeLevel world.Data with
        | .error _ => ⟨first ++ dims, worldMeta, none, false⟩
        | .ok b => ⟨first ++ dims, worldMeta, leftIn fs (levelPath wpath) b o.level,
            (fs.WriteFile (levelPath wpath) b o.level).1 = none⟩
      else ⟨first ++ dims, worldMeta, none, false⟩
    else ⟨first, worldMeta, none, false⟩
  else ⟨first, none, none, false⟩

/-- What was written to a file. -/
def Remains.content (r : Remains) (wpath q : Place) : Option (List UInt8) :=
  if q = getWorldDirMetaPath wpath then r.worldMeta
  else if q = levelPath wpath then r.level
  else none

/-- The tree with what was made. -/
def Remains.left (r : Remains) (fs : FileSystem) (wpath : Place) : FileSystem := fun q =>
  match r.content wpath q with
  | some content => some (.file content)
  | none => if q ∈ r.dirs ∧ fs q = none then some .dir else fs q

/-! ### What is left behind -/

variable {fs : FileSystem} {p wpath : Place} {r : Remains}

theorem suffix_of_mem_madeDirs {outcome : Outcome Nat} {q : Place}
    (made : q ∈ madeDirs fs p outcome) : q <:+ p := by
  unfold madeDirs at made
  split at made
  · cases made
  · split at made
    · exact (List.mem_tails _ _).mp made
    · cases made
    · rename_i n
      exact ((List.mem_tails _ _).mp made).trans (List.drop_suffix n p)

/-- A name in a directory is above the places further down only if it is on the way. -/
theorem mem_of_suffix {name : List Char} (names : List (List Char)) {dir : Place}
    (above : name :: dir <:+ names ++ dir) : name ∈ names := by
  obtain ⟨front, same⟩ := above
  have whole : front ++ [name] ++ dir = names ++ dir := by simpa using same
  rw [← List.append_cancel_right whole]
  simp

theorem content_eq_none {q : Place} (noMeta : q ≠ getWorldDirMetaPath wpath)
    (noLevel : q ≠ levelPath wpath) : r.content wpath q = none := by
  rw [Remains.content, if_neg noMeta, if_neg noLevel]

theorem left_of_content (fs : FileSystem) {q : Place} {content : List UInt8}
    (written : r.content wpath q = some content) : r.left fs wpath q = some (.file content) := by
  rw [Remains.left, written]

theorem left_of_none {q : Place} (untouched : r.content wpath q = none) :
    r.left fs wpath q = if q ∈ r.dirs ∧ fs q = none then some .dir else fs q := by
  rw [Remains.left, untouched]

/-- What was made of directories so far does not put a file anywhere. -/
theorem fileAt_left (fs : FileSystem) (r : Remains) (noMeta : ¬ getWorldDirMetaPath wpath <:+ p)
    (noLevel : ¬ levelPath wpath <:+ p) :
    (r.left fs wpath).fileAt p = fs.fileAt p := by
  refine FileSystem.fileAt_congr fun q above => ?_
  rw [left_of_none (content_eq_none (fun here => noMeta (by rwa [← here]))
    fun here => noLevel (by rwa [← here]))]
  split
  · rename_i made
    simp [made.2]
  · rfl

/-- More directories are made. -/
theorem makeDirs_left :
    (r.left fs wpath).makeDirs p = { r with dirs := r.dirs ++ p.tails }.left fs wpath := by
  funext q
  unfold FileSystem.makeDirs
  cases written : r.content wpath q with
  | some content =>
      have later : { r with dirs := r.dirs ++ p.tails }.left fs wpath q = some (.file content) :=
        left_of_content fs written
      rw [left_of_content fs written, later]
      simp
  | none =>
      have later : { r with dirs := r.dirs ++ p.tails }.left fs wpath q =
          if q ∈ r.dirs ++ p.tails ∧ fs q = none then some .dir else fs q :=
        left_of_none written
      rw [left_of_none written, later]
      simp only [List.mem_append, List.mem_tails]
      by_cases here : fs q = none
      · by_cases made : q ∈ r.dirs <;> simp [here, made]
      · simp [here]

/-- `os.MkdirAll` where no file of the world is in the way. -/
theorem MkdirAll_left (fs : FileSystem) (r : Remains)
    (noMeta : ¬ getWorldDirMetaPath wpath <:+ p)
    (noLevel : ¬ levelPath wpath <:+ p) (outcome : Outcome Nat) :
    (r.left fs wpath).MkdirAll p outcome =
      ((fs.MkdirAll p outcome).1,
        { r with dirs := r.dirs ++ madeDirs fs p outcome }.left fs wpath) := by
  have files := fileAt_left fs r noMeta noLevel
  unfold FileSystem.MkdirAll madeDirs
  rw [files]
  split
  · simp
  · cases outcome with
    | done => exact congrArg _ makeDirs_left
    | failed err left =>
        cases left with
        | none => simp
        | some n => exact congrArg _ makeDirs_left

/-- `os.WriteFile` to a file of the world that was not written yet. -/
theorem WriteFile_left (fs : FileSystem) {after : Remains} {content : List UInt8}
    {outcome : Outcome (List UInt8)} (untouched : r.content wpath p = none) (noDir : p ∉ r.dirs)
    (written : after.content wpath = Function.update (r.content wpath) p
      (leftIn fs p content outcome)) (dirs : after.dirs = r.dirs) :
    (r.left fs wpath).WriteFile p content outcome =
      ((fs.WriteFile p content outcome).1, after.left fs wpath) := by
  have here : r.left fs wpath p = fs p := by
    rw [left_of_none untouched, if_neg fun made => noDir made.1]
  have same : leftIn fs p content outcome = none → after.left fs wpath = r.left fs wpath := by
    intro none_
    have unchanged : after.content wpath = r.content wpath := by
      rw [written, none_, ← untouched, Function.update_eq_self]
    funext q
    unfold Remains.left
    rw [unchanged, dirs]
  have changed : ∀ left, leftIn fs p content outcome = some left →
      after.left fs wpath = Function.update (r.left fs wpath) p (some (.file left)) := by
    intro left some_
    funext q
    by_cases there : q = p
    · subst there
      rw [Function.update_self]
      exact left_of_content fs (by rw [written, Function.update_self, some_])
    · rw [Function.update_of_ne there]
      unfold Remains.left
      rw [written, Function.update_of_ne there, dirs]
  unfold FileSystem.WriteFile
  rw [here]
  unfold leftIn at same changed
  split
  · rename_i isDir
    rw [same (if_pos isDir)]
  · rename_i file
    rw [if_neg file] at same changed
    cases outcome with
    | done => rw [changed content rfl]
    | failed err left =>
        cases left with
        | none => rw [same rfl]
        | some left => rw [changed left rfl]

/-- The directories of the dimensions, made one after the other. -/
theorem createDirs_left (fs : FileSystem) (wpath : Place) (r : Remains)
    (l : List (Place × Outcome Nat))
    (apart : ∀ v ∈ l, ¬ getWorldDirMetaPath wpath <:+ v.1 ∧ ¬ levelPath wpath <:+ v.1) :
    (createDirs (r.left fs wpath) l).2 =
        { r with dirs := r.dirs ++ (dimsMade fs l).1 }.left fs wpath ∧
      ((createDirs (r.left fs wpath) l).1 = none ↔ (dimsMade fs l).2 = true) := by
  induction l generalizing r with
  | nil => simp [createDirs, dimsMade]
  | cons v rest inductionHypothesis =>
      obtain ⟨v, outcome⟩ := v
      obtain ⟨noMeta, noLevel⟩ := apart _ List.mem_cons_self
      have later := inductionHypothesis { r with dirs := r.dirs ++ madeDirs fs v outcome }
        fun w member => apart w (List.mem_cons_of_mem _ member)
      simp only [List.append_assoc] at later
      unfold createDirs dimsMade
      rw [MkdirAll_left fs r noMeta noLevel outcome]
      cases ended : (fs.MkdirAll v outcome).1 with
      | none => simpa [passes] using later
      | some err =>
          cases err with
          | exist => simpa [passes] using later
          | _ => simp [passes]

theorem defaultDims_apart (wpath : Place) (outcomes : List (Outcome Nat)) :
    ∀ v ∈ (defaultDims wpath).zip outcomes,
      ¬ getWorldDirMetaPath wpath <:+ v.1 ∧ ¬ levelPath wpath <:+ v.1 := by
  intro v member
  have listed : ∃ names, v.1 = names ++ wpath ∧ "WebChunk.json".toList ∉ names ∧
      "level.dat".toList ∉ names := by
    have dim := (List.of_mem_zip (a := v.1) (b := v.2) member).1
    simp only [defaultDims, List.mem_cons, List.not_mem_nil, or_false] at dim
    rcases dim with dim | dim | dim
    · exact ⟨["region".toList], dim, by decide, by decide⟩
    · exact ⟨["region".toList, "DIM-1".toList], dim, by decide, by decide⟩
    · exact ⟨["region".toList, "DIM1".toList], dim, by decide, by decide⟩
  obtain ⟨names, place, noMeta, noLevel⟩ := listed
  rw [place]
  exact ⟨fun above => noMeta (mem_of_suffix names above),
    fun above => noLevel (mem_of_suffix names above)⟩

theorem suffix_of_mem_dimsMade {l : List (Place × Outcome Nat)} {q : Place}
    (made : q ∈ (dimsMade fs l).1) : ∃ v ∈ l, q <:+ v.1 := by
  induction l with
  | nil => cases made
  | cons v rest inductionHypothesis =>
      unfold dimsMade at made
      split at made
      · rcases List.mem_append.mp made with first | later
        · exact ⟨v, List.mem_cons_self, suffix_of_mem_madeDirs first⟩
        · obtain ⟨w, member, above⟩ := inductionHypothesis later
          exact ⟨w, List.mem_cons_of_mem _ member, above⟩
      · exact ⟨v, List.mem_cons_self, suffix_of_mem_madeDirs made⟩

theorem nothing_left (fs : FileSystem) (wpath : Place) (complete : Bool) :
    (⟨[], none, none, complete⟩ : Remains).left fs wpath = fs := by
  funext q
  rw [left_of_none (by simp [Remains.content])]
  simp

theorem levelPath_ne (wdir other : Place) : levelPath wdir ≠ getWorldDirMetaPath other :=
  fun same => absurd (List.cons.inj same).1 (by decide)

/-- The files of the world are none of the directories that are made. -/
theorem file_notMem_dirs (fs : FileSystem) (wpath : Place) (o : Outcomes) {name : List Char}
    (noDim : name ∉ ["region".toList, "DIM-1".toList, "DIM1".toList]) :
    name :: wpath ∉ madeDirs fs wpath o.dir ++
      (dimsMade fs ((defaultDims wpath).zip [o.region, o.nether, o.theEnd])).1 := by
  intro made
  rcases List.mem_append.mp made with first | later
  · exact absurd (mem_of_suffix [] (suffix_of_mem_madeDirs first)) (by simp)
  · obtain ⟨v, member, above⟩ := suffix_of_mem_dimsMade later
    have dim := (List.of_mem_zip (a := v.1) (b := v.2) member).1
    simp only [defaultDims, List.mem_cons, List.not_mem_nil, or_false, not_or] at dim noDim
    obtain ⟨noRegion, noNether, noEnd⟩ := noDim
    rcases dim with dim | dim | dim <;> rw [dim] at above
    · have found := mem_of_suffix ["region".toList] above
      simp only [List.mem_singleton] at found
      exact noRegion found
    · have found := mem_of_suffix ["region".toList, "DIM-1".toList] above
      simp only [List.mem_cons, List.not_mem_nil, or_false] at found
      exact found.elim noRegion noNether
    · have found := mem_of_suffix ["region".toList, "DIM1".toList] above
      simp only [List.mem_cons, List.not_mem_nil, or_false] at found
      exact found.elim noRegion noEnd

theorem writeWorldMeta_left {dirs : List Place} (noDir : getWorldDirMetaPath wpath ∉ dirs)
    (complete : Bool) (d : WorldMeta) (write : Outcome (List UInt8)) :
    writeWorldMeta enc ((⟨dirs, none, none, complete⟩ : Remains).left fs wpath) wpath d write =
      ((fs.WriteFile (getWorldDirMetaPath wpath) (enc.marshalMeta d) write).1.map .file,
        (⟨dirs, leftIn fs (getWorldDirMetaPath wpath) (enc.marshalMeta d) write, none,
          complete⟩ : Remains).left fs wpath) := by
  have changed : (⟨dirs, leftIn fs (getWorldDirMetaPath wpath) (enc.marshalMeta d) write, none,
      complete⟩ : Remains).content wpath =
      Function.update ((⟨dirs, none, none, complete⟩ : Remains).content wpath)
        (getWorldDirMetaPath wpath)
        (leftIn fs (getWorldDirMetaPath wpath) (enc.marshalMeta d) write) := by
    funext q
    by_cases here : q = getWorldDirMetaPath wpath <;> simp [Remains.content, here]
  have wrote := WriteFile_left fs (by simp [Remains.content]) noDir changed rfl
  unfold writeWorldMeta
  rw [wrote]

theorem writeSaveLevel_left {dirs : List Place} (noDir : levelPath wpath ∉ dirs)
    (complete : Bool) (worldMeta : Option (List UInt8)) {data : LevelData} {b : List UInt8}
    (encoded : enc.encodeLevel data = .ok b) (write : Outcome (List UInt8)) :
    writeSaveLevel enc ((⟨dirs, worldMeta, none, complete⟩ : Remains).left fs wpath) wpath data
        write =
      ((fs.WriteFile (levelPath wpath) b write).1.map .file,
        (⟨dirs, worldMeta, leftIn fs (levelPath wpath) b write, complete⟩ : Remains).left fs
          wpath) := by
  have changed : (⟨dirs, worldMeta, leftIn fs (levelPath wpath) b write, complete⟩ :
      Remains).content wpath =
      Function.update ((⟨dirs, worldMeta, none, complete⟩ : Remains).content wpath)
        (levelPath wpath) (leftIn fs (levelPath wpath) b write) := by
    funext q
    by_cases here : q = levelPath wpath <;> simp [Remains.content, here, levelPath_ne]
  have wrote := WriteFile_left fs (by simp [Remains.content, levelPath_ne]) noDir changed
    rfl
  unfold writeSaveLevel
  rw [encoded]
  dsimp only
  rw [wrote]

/-- What `AddWorld` leaves behind, and when it succeeds. -/
theorem AddWorld_left (fs : FileSystem) (world : SWorld LevelData) (o : Outcomes) :
    (AddWorld enc root fs world o).2 =
        (remains enc root fs world o).left fs (root.world world.Name) ∧
      ((AddWorld enc root fs world o).1 = none ↔
        (remains enc root fs world o).complete = true) := by
  generalize place : root.world world.Name = wpath
  have noMeta : ¬ getWorldDirMetaPath wpath <:+ wpath :=
    fun above => by simpa using mem_of_suffix [] above
  have noLevel : ¬ levelPath wpath <:+ wpath := fun above => by simpa using mem_of_suffix [] above
  have metaFile : getWorldDirMetaPath wpath ∉ _ := file_notMem_dirs fs wpath o (by decide)
  have levelFile : levelPath wpath ∉ _ := file_notMem_dirs fs wpath o (by decide)
  have made := MkdirAll_left fs ⟨[], none, none, false⟩ noMeta noLevel o.dir
  rw [nothing_left] at made
  unfold AddWorld remains
  rw [place]
  dsimp only
  rw [made]
  cases ended : (fs.MkdirAll wpath o.dir).1 with
  | some err => simp
  | none =>
      simp only [List.nil_append, if_true]
      rw [writeWorldMeta_left _ (fun there => metaFile (List.mem_append_left _ there))]
      cases wrote : (fs.WriteFile (getWorldDirMetaPath wpath)
          (enc.marshalMeta ⟨world.Alias, world.IP⟩) o.worldMeta).1 with
      | some err => simp
      | none =>
          have dims := createDirs_left fs wpath ⟨madeDirs fs wpath o.dir,
            leftIn fs (getWorldDirMetaPath wpath) (enc.marshalMeta ⟨world.Alias, world.IP⟩)
              o.worldMeta, none, false⟩ _ (defaultDims_apart wpath [o.region, o.nether, o.theEnd])
          simp only [Option.map_none, if_true, createDefaultDims]
          obtain ⟨after, all⟩ := dims
          split
          · rename_i err later stopped
            rw [stopped] at after all
            have stops : (dimsMade fs ((defaultDims wpath).zip
                [o.region, o.nether, o.theEnd])).2 = false := by simpa using all
            rw [if_neg (by simp [stops])]
            exact ⟨after, by simp⟩
          · rename_i later passed
            rw [passed] at after all
            have passes : (dimsMade fs ((defaultDims wpath).zip
                [o.region, o.nether, o.theEnd])).2 = true := by simpa using all
            rw [if_pos passes]
            dsimp only at after
            subst after
            cases encoded : enc.encodeLevel world.Data with
            | error text => simp [writeSaveLevel, encoded]
            | ok b =>
                rw [writeSaveLevel_left enc levelFile false _ encoded o.level]
                exact ⟨rfl, by simp⟩

/-! ### Where it is left -/

/-- What is made fits the tree: nothing is made below a file, the files are in the directory of
the world and are not directories, and after all operations both files are there. -/
structure Remains.Fits (r : Remains) (fs : FileSystem) (world : SWorld LevelData)
    (wpath : Place) : Prop where
  clear : ∀ q ∈ r.dirs, fs.fileAt q = false
  noMetaDir : ∀ content, r.worldMeta = some content →
    wpath ∈ r.dirs ∧ fs (getWorldDirMetaPath wpath) ≠ some .dir
  noLevelDir : ∀ content, r.level = some content →
    wpath ∈ r.dirs ∧ fs (levelPath wpath) ≠ some .dir
  whole : r.complete = true → wpath ∈ r.dirs ∧
    r.worldMeta = some (enc.marshalMeta ⟨world.Alias, world.IP⟩) ∧
      ∃ b, enc.encodeLevel world.Data = .ok b ∧ r.level = some b

theorem clear_of_mem_madeDirs {outcome : Outcome Nat} {q : Place}
    (made : q ∈ madeDirs fs p outcome) : fs.fileAt q = false := by
  by_cases file : fs.fileAt p = true
  · simp [madeDirs, file] at made
  · exact Bool.eq_false_iff.mpr fun above =>
      file (FileSystem.fileAt_of_suffix (suffix_of_mem_madeDirs made) above)

theorem clear_of_mem_dimsMade {l : List (Place × Outcome Nat)} {q : Place}
    (made : q ∈ (dimsMade fs l).1) : fs.fileAt q = false := by
  induction l with
  | nil => cases made
  | cons v rest inductionHypothesis =>
      unfold dimsMade at made
      split at made
      · rcases List.mem_append.mp made with first | later
        · exact clear_of_mem_madeDirs first
        · exact inductionHypothesis later
      · exact clear_of_mem_madeDirs made

theorem mem_madeDirs_of_done {outcome : Outcome Nat} (done : (fs.MkdirAll p outcome).1 = none) :
    p ∈ madeDirs fs p outcome := by
  unfold FileSystem.MkdirAll at done
  unfold madeDirs
  split at done
  · cases done
  · rename_i noFile
    rw [if_neg noFile]
    cases outcome with
    | done => exact (List.mem_tails _ _).mpr List.suffix_rfl
    | failed err left => cases left <;> cases done

theorem noDir_of_leftIn {content left : List UInt8} {outcome : Outcome (List UInt8)}
    (written : leftIn fs p content outcome = some left) : fs p ≠ some .dir := by
  intro isDir
  simp [leftIn, isDir] at written

theorem leftIn_of_done {content : List UInt8} {outcome : Outcome (List UInt8)}
    (done : (fs.WriteFile p content outcome).1 = none) :
    leftIn fs p content outcome = some content := by
  unfold FileSystem.WriteFile at done
  unfold leftIn
  split at done
  · cases done
  · rename_i file
    rw [if_neg file]
    cases outcome with
    | done => rfl
    | failed err left => cases left <;> cases done

theorem remains_fits (fs : FileSystem) (world : SWorld LevelData) (o : Outcomes) :
    (remains enc root fs world o).Fits enc fs world (root.world world.Name) := by
  generalize place : root.world world.Name = wpath
  unfold remains
  rw [place]
  dsimp only
  have first : ∀ q ∈ madeDirs fs wpath o.dir, fs.fileAt q = false :=
    fun q made => clear_of_mem_madeDirs made
  have both : ∀ q ∈ madeDirs fs wpath o.dir ++
      (dimsMade fs ((defaultDims wpath).zip [o.region, o.nether, o.theEnd])).1,
      fs.fileAt q = false := fun q made =>
    (List.mem_append.mp made).elim clear_of_mem_madeDirs clear_of_mem_dimsMade
  split
  · rename_i done
    have here := mem_madeDirs_of_done done
    split
    · rename_i wrote
      have metaDone := leftIn_of_done wrote
      have noMetaDir := noDir_of_leftIn metaDone
      split
      · split
        · exact ⟨both, fun _ _ => ⟨List.mem_append_left _ here, noMetaDir⟩, by simp, by simp⟩
        · rename_i b encoded
          refine ⟨both, fun _ _ => ⟨List.mem_append_left _ here, noMetaDir⟩,
            fun content left => ⟨List.mem_append_left _ here, noDir_of_leftIn left⟩,
            fun whole => ⟨List.mem_append_left _ here, metaDone, b, encoded, ?_⟩⟩
          exact leftIn_of_done (of_decide_eq_true whole)
      · exact ⟨both, fun _ _ => ⟨List.mem_append_left _ here, noMetaDir⟩, by simp, by simp⟩
    · exact ⟨first, fun content left => ⟨here, noDir_of_leftIn left⟩, by simp, by simp⟩
  · exact ⟨first, by simp, by simp, by simp⟩

end WebChunk.WorldStore
