import WebChunk.ImageCache.Reads

/-!
# The dirty flag

`processUnload` drops the entries marked as synced, so an entry so marked should have
the picture that its file holds. Saving an entry makes that so, if PNG keeps the picture; a
read that comes back late marks an entry as synced whatever its file holds by then.
-/

namespace WebChunk.ImageCache

open WebChunk.Go WebChunk.Semantics

/-- A synced and loaded entry has exactly the picture of the file of its key, so that an
unload drops nothing that is not on disk. -/
structure DirtyFlagExact (cfg : Config) (s : State) : Prop where
  picture : ∀ loc v, s.p.cache.get loc = some v → v.syncedToDisk = true →
    v.imageUnloaded = false → v.img = s.disk.picture (cfg.filename loc)
  unload : ∀ (interval now : Int) (loc : ImageLocation) (v : CachedImage),
    s.p.cache.get loc = some v → (s.p.processUnload interval now).cache.get loc = none →
      v.img = s.disk.picture (cfg.filename loc)

/-- The inductive form: entries whose file was not read yet count as well. -/
def SyncedExact (cfg : Config) (disk : Disk) (cache : Map ImageLocation CachedImage) : Prop :=
  ∀ loc v, cache.get loc = some v → v.syncedToDisk = true → v.img = disk.picture (cfg.filename loc)

/-- No file operation fails. -/
def noIoErrors : Action → Bool
  | .saveEntry _ (.fails _) => false
  | .ioLoad _ .openFails | .ioLoad _ .decodeFails => false
  | .ioSave _ (.fails _) => false
  | _ => true

/-- What is read for an entry may be marked as synced: the file still holds what was
read, if the entry is new or has no picture of its own; else the entry was saved after
it was set, and what was read has the size of its picture. -/
def mergesCleanly (cfg : Config) (disk : Disk) (loc : ImageLocation) (entry : Option CachedImage)
    (img : Option RGBA) : Prop :=
  match entry with
  | none => img = disk.picture (cfg.filename loc)
  | some t =>
      match t.imageUnloaded, t.img, img with
      | false, _, _ | true, _, none => True
      | true, none, some _ => img = disk.picture (cfg.filename loc)
      | true, some unsaved, some loaded =>
          t.syncedToDisk = true ∧ loaded.dx = unsaved.dx ∧ loaded.dy = unsaved.dy

/-- The steps which keep the dirty flag: reads merge cleanly, and an entry that is saved has a
file of its own and a picture that is read back as it is. -/
def keepsFlag (cfg : Config) (s : State) : Action → Prop
  | .takeReturn _ =>
      match s.ioReturn.buffer with
      | ⟨loc, some image⟩ :: _ => mergesCleanly cfg s.disk loc (s.p.cache.get loc) image.img
      | _ => True
  | .saveEntry loc _ =>
      ∀ v, s.p.cache.get loc = some v → v.syncedToDisk = false →
        (∀ other ∈ s.p.cache.keys, cfg.filename other = cfg.filename loc → other = loc) ∧
          v.img.map cfg.png = v.img
  | _ => True

theorem picture_update (disk : Disk) (path other : String) (file : File) :
    Disk.picture (Function.update disk path (some file)) other =
      if other = path then file.picture else disk.picture other := by
  unfold Disk.picture
  rw [Function.update_apply]
  split
  · rfl
  · rfl

/-- An entry that is replaced by an exact one. -/
theorem SyncedExact.set {cfg : Config} {disk : Disk} {cache : Map ImageLocation CachedImage}
    (sound : SyncedExact cfg disk cache) {loc : ImageLocation} {v : CachedImage}
    (entry : v.syncedToDisk = true → v.img = disk.picture (cfg.filename loc)) :
    SyncedExact cfg disk (cache.set loc v) := by
  intro other v' found synced
  rw [Map.get_set] at found
  split at found
  · rename_i same
    cases found
    rw [same]
    exact entry synced
  · exact sound other v' found synced

/-- A task marks no entry as synced. -/
theorem SyncedExact.taskStep {cfg : Config} {disk : Disk} {p next : Processor} {task : CacheTask}
    {now : Int} (sound : SyncedExact cfg disk p.cache) (taken : TaskStep p task now next) :
    SyncedExact cfg disk next.cache := by
  cases taken with
  | smallerMiss _ _ _ _ | setHit _ _ _ | setMiss _ _ _ _ =>
      exact sound.set fun synced => by cases synced
  | _ => exact sound

/-- A clean merge leaves an exact entry. -/
theorem SyncedExact.entered {cfg : Config} {disk : Disk} {p : Processor}
    (sound : SyncedExact cfg disk p.cache) {loc : ImageLocation} {image : CachedImage}
    (clean : mergesCleanly cfg disk loc (p.cache.get loc) image.img)
    (synced : (p.entered loc image).syncedToDisk = true) :
    (p.entered loc image).img = disk.picture (cfg.filename loc) := by
  unfold Processor.entered at synced ⊢
  split at synced
  · rename_i t found
    have before := sound loc t found
    rw [found] at clean
    unfold processCacheLoad at synced ⊢
    split at synced
    · exact before synced
    · rename_i loaded there
      split at synced
      · rename_i unloaded
        rw [if_pos unloaded]
        cases own : t.img with
        | none => simpa [mergesCleanly, unloaded, own, there] using clean
        | some unsaved =>
            have saved : t.syncedToDisk = true ∧ loaded.dx = unsaved.dx ∧
                loaded.dy = unsaved.dy := by
              simpa [mergesCleanly, unloaded, own, there] using clean
            -- The unsaved picture covers what was read, and it is the saved one.
            rw [← before saved.1, own]
            exact congrArg some (RGBA.draw_whole saved.2.1 saved.2.2)
      · rename_i loadedBefore
        rw [if_neg loadedBefore]
        exact before synced
  · rename_i absent
    rw [absent] at clean
    exact clean

/-- The other entries are in files of their own when `loc` is saved. -/
theorem different_filename {cfg : Config} {s : State} {loc other : ImageLocation}
    {outcome : SaveOutcome} {v : CachedImage} (keeps : keepsFlag cfg s (.saveEntry loc outcome))
    (found : s.p.cache.get loc = some v) (unsynced : v.syncedToDisk = false)
    (stored : (s.p.cache.get other).isSome) (different : other ≠ loc) :
    cfg.filename other ≠ cfg.filename loc :=
  fun shared => different
    ((keeps v found unsynced).1 other ((s.p.cache.mem_keys other).mpr stored) shared)

/-- A load that does not fail leaves the files as they are. -/
theorem disk_of_cacheLoad {cfg : Config} {disk after : Disk} {i : Nat} {loc : ImageLocation}
    {outcome : LoadOutcome} {img : Option CachedImage}
    (noErrors : noIoErrors (.ioLoad i outcome) = true)
    (loaded : cacheLoad cfg disk loc outcome = some (img, after)) : after = disk := by
  cases outcome with
  | openFails | decodeFails => cases noErrors
  | succeeds now =>
      unfold cacheLoad at loaded
      dsimp only at loaded
      split at loaded
      · cases loaded
        rfl
      · split at loaded
        · cases loaded
        · cases loaded
          rfl

/-- The step lemma of the dirty flag. -/
theorem SyncedExact.preserved {cfg : Config} {s next : State} {action : Action}
    (reads : ReadsOnly s) (sound : SyncedExact cfg s.disk s.p.cache)
    (noErrors : noIoErrors action = true) (keeps : keepsFlag cfg s action)
    (transition : Transition cfg s action next) : SyncedExact cfg next.disk next.p.cache := by
  cases transition with
  | takes _ _ processed => exact sound.taskStep (taskStep_of_processTask processed)
  | @returns now task ioReturn p _ received processed =>
      have front := (Chan.receive_received received).1
      obtain ⟨loc, img⟩ := task
      rcases reads.wokenReturn received processed with ⟨_, rfl⟩ | ⟨image, rfl, _, woken⟩
      · exact sound
      · rw [keepsFlag, front] at keeps
        dsimp only
        rw [woken.cache]
        exact sound.set (sound.entered keeps)
  | @saves loc now todo final v picture _ _ found unsynced there =>
      intro other v' stored synced
      rw [picture_update]
      rw [Map.get_set] at stored
      split at stored
      · rename_i same
        cases stored
        have readBack := (keeps v found unsynced).2
        rw [there, Option.map_some] at readBack
        rw [if_pos (by rw [same])]
        exact there.trans readBack.symm
      · rename_i different
        rw [if_neg (different_filename keeps found unsynced (Option.isSome_of_eq_some stored)
          different)]
        exact sound other v' stored synced
  | @savePanics loc now todo final v _ _ found unsynced _ =>
      intro other v' stored synced
      have different : other ≠ loc := by
        rintro rfl
        rw [found] at stored
        cases stored
        rw [unsynced] at synced
        cases synced
      rw [picture_update, if_neg (different_filename keeps found unsynced
        (Option.isSome_of_eq_some stored) different)]
      exact sound other v' stored synced
  | unloads _ => exact fun loc v found => sound loc v (of_get_processUnload found)
  | ioLoads _ loaded =>
      rw [disk_of_cacheLoad noErrors loaded]
      exact sound
  | ioSaves found => cases reads.holding _ _ found
  | saveFails _ _ _ _ => cases noErrors
  | _ => exact sound

/-- In every run without IO errors in which reads merge cleanly and saved entries have
files of their own and pictures that PNG keeps, the flag of every loaded entry is exact. -/
theorem dirtyFlagExact (cfg : Config) (disk : Disk) (actions : List Action)
    (steps : (machine cfg).StepsOnly
      (fun s action => noIoErrors action = true ∧ keepsFlag cfg s action)
      (State.initial cfg disk) actions) :
    (machine cfg).ReachesOnly (DirtyFlagExact cfg) (State.initial cfg disk) actions := by
  have preserved : ∀ {s : State} {action : Action} {next : State},
      ReadsOnly s ∧ SyncedExact cfg s.disk s.p.cache →
      noIoErrors action = true ∧ keepsFlag cfg s action → step cfg s action = some next →
      ReadsOnly next ∧ SyncedExact cfg next.disk next.p.cache := by
    rintro s action next ⟨reads, sound⟩ ⟨noErrors, keeps⟩ transition
    obtain ⟨_, transition⟩ := transition_of_step transition
    exact ⟨reads.preserved transition, sound.preserved reads noErrors keeps transition⟩
  refine steps.reachesOnly ?_ preserved ?_
  · rintro s ⟨_, sound⟩
    exact
      { picture := fun loc v found synced _ => sound loc v found synced
        unload := fun _ _ loc v stored dropped =>
          sound loc v stored (dropped_of_processUnload stored dropped).1 }
  · refine ⟨readsOnly_initial cfg disk, fun loc v found => ?_⟩
    simp [State.initial] at found

/-- A set of a tile that has a file, and then the read of this file. -/
def lateRead : List Action :=
  [.submit { loc := ⟨"world", "overworld", "terrain", 5, 0, 0⟩, img := some paintedTile },
    .takeTask 1] ++
  readBack (.succeeds 2) 3

/-- The read marks the entry as synced, and the file still holds the picture before the
set. -/
theorem late_read_forgets_set : ∃ (cfg : Config) (disk : Disk) (actions : List Action)
    (final : State), (machine cfg).Runs (State.initial cfg disk) actions final ∧
      (machine cfg).StepsOnly (fun _ action => noIoErrors action = true)
        (State.initial cfg disk) actions ∧
      ¬ DirtyFlagExact cfg final := by
  refine ⟨sampleConfig, fun _ => some ⟨some blankTile, 0⟩, lateRead, _,
    Machine.runs_exec_get (by decide), Machine.stepsOnly_of_checkSteps (by decide),
    fun flags => ?_⟩
  have same := flags.picture ⟨"world", "overworld", "terrain", 5, 0, 0⟩ _ rfl rfl rfl
  have pixels := congrArg (Option.map fun picture => picture.pix 0 0) same
  exact absurd pixels (by decide)

/-- A set of a tile without a file, an autosave, an unload and a get which reads the
saved file. -/
def savedThenRead : List Action :=
  [.submit { loc := ⟨"world", "overworld", "terrain", 5, 0, 0⟩, img := some paintedTile },
    .takeTask 1] ++
  readBack (.succeeds 2) 3 ++
  [.autosave, .saveEntry ⟨"world", "overworld", "terrain", 5, 0, 0⟩ (.succeeds 4), .saved,
    .unload 90000000000, .submit { loc := ⟨"world", "overworld", "terrain", 5, 0, 0⟩ },
    .takeTask 90000000001] ++
  readBack (.succeeds 90000000002) 90000000003

theorem dirtyFlagExact_savedThenRead :
    (machine sampleConfig).ReachesOnly (DirtyFlagExact sampleConfig)
      (State.initial sampleConfig fun _ => none) savedThenRead := by
  refine dirtyFlagExact sampleConfig (fun _ => none) savedThenRead
    (Machine.stepsOnly_of_meetsSteps ?_)
  -- The only entry ever saved is the one of this tile.
  have alone : ∀ other ∈ ({⟨"world", "overworld", "terrain", 5, 0, 0⟩} : Finset ImageLocation),
      sampleConfig.filename other =
        sampleConfig.filename ⟨"world", "overworld", "terrain", 5, 0, 0⟩ →
      other = ⟨"world", "overworld", "terrain", 5, 0, 0⟩ :=
    fun other member _ => Finset.mem_singleton.mp member
  exact ⟨⟨rfl, trivial⟩, ⟨rfl, trivial⟩, ⟨rfl, trivial⟩, ⟨rfl, trivial⟩, ⟨rfl, trivial⟩,
    ⟨rfl, trivial⟩, ⟨rfl, trivial⟩, ⟨rfl, trivial⟩,
    ⟨rfl, fun v found _ => by cases found; exact ⟨alone, congrArg some (drawnTile_png rfl)⟩⟩,
    ⟨rfl, trivial⟩, ⟨rfl, trivial⟩, ⟨rfl, trivial⟩, ⟨rfl, trivial⟩, ⟨rfl, trivial⟩,
    ⟨rfl, trivial⟩, ⟨rfl, trivial⟩, ⟨rfl, trivial⟩, ⟨rfl, rfl⟩, trivial⟩

end WebChunk.ImageCache
