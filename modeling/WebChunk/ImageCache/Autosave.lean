import WebChunk.ImageCache.Reads

/-!
# Entries that an autosave would write

`processSave` writes every unsynced entry, and `png.Encode` panics on a picture that is
not there. A smaller get of a tile without an entry makes exactly such an entry; no
other step does.
-/

namespace WebChunk.ImageCache

open WebChunk.Go WebChunk.Semantics

/-- Every entry that `processSave` would write has a picture. -/
def AutosaveSafe (s : State) : Prop :=
  ∀ loc v, s.p.cache.get loc = some v → v.syncedToDisk = false → v.img ≠ none

/-- The task which the processor takes is not a smaller get of a tile without an
entry. -/
def findsEntry (s : State) : Action → Bool
  | .takeTask _ =>
      match s.tasks.buffer with
      | task :: _ =>
          task.img.isSome || !decide (task.loc.S < StorageLevel) ||
            (getStorageLevelLoc task.loc).all fun tile => (s.p.cache.get tile).isSome
      | [] => true
  | _ => true

/-- An entry that is replaced by a safe one. -/
theorem safe_set {cache : Map ImageLocation CachedImage} {loc : ImageLocation} {v : CachedImage}
    (safe : ∀ loc v, cache.get loc = some v → v.syncedToDisk = false → v.img ≠ none)
    (entry : v.syncedToDisk = false → v.img ≠ none) :
    ∀ other v', (cache.set loc v).get other = some v' → v'.syncedToDisk = false → v'.img ≠ none := by
  intro other v' found
  rw [Map.get_set] at found
  split at found
  · cases found
    exact entry
  · exact safe other v' found

/-- What a read leaves in the cache is safe if the cache was. -/
theorem entered_safe {p : Processor} {loc : ImageLocation} {image : CachedImage}
    (safe : ∀ loc v, p.cache.get loc = some v → v.syncedToDisk = false → v.img ≠ none)
    (fresh : image.fresh) (unsynced : (p.entered loc image).syncedToDisk = false) :
    (p.entered loc image).img ≠ none := by
  unfold Processor.entered at unsynced ⊢
  split at unsynced
  · rename_i t found
    unfold processCacheLoad at unsynced ⊢
    split at unsynced
    · exact safe loc t found unsynced
    · split at unsynced
      · cases unsynced
      · rename_i loaded
        rw [if_neg loaded]
        exact safe loc t found unsynced
  · rw [fresh.2] at unsynced
    cases unsynced

/-- The step lemma: the steps that find an entry keep the cache safe. -/
theorem AutosaveSafe.preserved {cfg : Config} {s next : State} {action : Action}
    (invariant : ReadsOnly s ∧ AutosaveSafe s) (finds : findsEntry s action = true)
    (transition : step cfg s action = some next) : ReadsOnly next ∧ AutosaveSafe next := by
  obtain ⟨reads, safe⟩ := invariant
  obtain ⟨_, transition⟩ := transition_of_step transition
  refine ⟨reads.preserved transition, ?_⟩
  cases transition with
  | takes _ received processed =>
      have taken := taskStep_of_processTask processed
      cases taken with
      | smallerMiss isGet smaller tile miss =>
          have front := (Chan.receive_received received).1
          simp [findsEntry, front, isGet, smaller, tile, miss] at finds
      | setHit _ _ _ | setMiss _ _ _ _ => exact safe_set safe fun _ => by simp
      | _ => exact safe
  | returns _ received processed =>
      rcases reads.wokenReturn received processed with ⟨_, rfl⟩ | ⟨image, _, fresh, woken⟩
      · exact safe
      · intro loc v found
        rw [woken.cache] at found
        exact safe_set safe (entered_safe safe fresh) loc v found
  | saves _ _ _ _ _ => exact safe_set safe fun unsynced => by cases unsynced
  | unloads _ =>
      intro loc v found
      exact safe loc v (of_get_processUnload found)
  | ioSaves found => cases reads.holding _ _ found
  | _ => exact safe

/-- A smaller get of a tile without an entry leaves an entry without a picture. -/
theorem not_autosaveSafe_of_smallerMiss {cfg : Config} {s next : State} {action : Action}
    (finds : ¬ findsEntry s action = true) (transition : step cfg s action = some next) :
    ¬ AutosaveSafe next := by
  obtain ⟨_, transition⟩ := transition_of_step transition
  cases action with
  | takeTask now =>
      -- The task that is taken is a smaller get whose tile has no entry.
      have missing : ∀ {task : CacheTask} {tasks : Chan CacheTask},
          s.tasks.receive = .received task tasks → ∃ loc, task.img = none ∧
            task.loc.S < StorageLevel ∧ getStorageLevelLoc task.loc = some loc ∧
            s.p.cache.get loc = none := by
        intro task tasks received
        have front := (Chan.receive_received received).1
        cases native : getStorageLevelLoc task.loc with
        | none => simp [findsEntry, front, native] at finds
        | some loc => exact ⟨loc, by simpa [findsEntry, front, native, and_assoc] using finds⟩
      cases transition with
      | takes _ received processed =>
          obtain ⟨loc, isGet, smaller, native, absent⟩ := missing received
          have large : ¬ StorageLevel < (CacheTask.loc _).S := Int.not_lt.mpr (Int.le_of_lt smaller)
          have other : (CacheTask.loc _).S ≠ StorageLevel := Int.ne_of_lt smaller
          intro safe
          simp only [Processor.processTask, isGet, Processor.processImageGet, if_neg large,
            if_neg other, Processor.processSmallerImageGet, native, absent,
            Option.bind_eq_bind, Option.bind_some] at processed
          cases processed
          exact safe loc _ (Map.get_set_self _ _ _) rfl rfl
      | taskPanics _ received panics =>
          obtain ⟨loc, isGet, smaller, native, absent⟩ := missing received
          have large : ¬ StorageLevel < (CacheTask.loc _).S := Int.not_lt.mpr (Int.le_of_lt smaller)
          have other : (CacheTask.loc _).S ≠ StorageLevel := Int.ne_of_lt smaller
          simp [Processor.processTask, isGet, Processor.processImageGet, if_neg large,
            if_neg other, Processor.processSmallerImageGet, native, absent] at panics
  | _ => exact absurd rfl finds

/-- In every run, the autosave never meets an entry without a picture exactly when no
smaller get is processed while its tile has no entry. -/
theorem autosaveSafe_iff (cfg : Config) (disk : Disk) (actions : List Action) (final : State)
    (run : (machine cfg).Runs (State.initial cfg disk) actions final) :
    (machine cfg).ReachesOnly AutosaveSafe (State.initial cfg disk) actions ↔
      (machine cfg).StepsOnly (fun s action => findsEntry s action = true)
        (State.initial cfg disk) actions := by
  refine run.reachesOnly_iff And.right AutosaveSafe.preserved
    (fun _ finds transition => not_autosaveSafe_of_smallerMiss finds transition) ?_
  refine ⟨readsOnly_initial cfg disk, fun loc v found => ?_⟩
  simp [State.initial] at found

/-- A get below the storage level of a tile that is not in the cache, and an autosave
before its file was read. -/
def autosavedTooEarly : List Action :=
  [.submit { loc := ⟨"world", "overworld", "terrain", 4, 0, 0⟩ }, .takeTask 1, .flush, .autosave,
    .saveEntry ⟨"world", "overworld", "terrain", 5, 0, 0⟩ (.succeeds 2)]

/-- The autosave meets an entry without a picture and panics. -/
theorem autosave_panics : ∃ (cfg : Config) (disk : Disk) (actions : List Action) (final : State),
    (machine cfg).Runs (State.initial cfg disk) actions final ∧
      final.panicked = some .nilImage ∧ ¬ AutosaveSafe final := by
  refine ⟨sampleConfig, fun _ => none, autosavedTooEarly, _,
    Machine.runs_exec_get (by decide), rfl, fun safe => ?_⟩
  exact safe ⟨"world", "overworld", "terrain", 5, 0, 0⟩ _ rfl rfl rfl

/-- A native get of a tile without a file, a set of it, an autosave and a smaller get. -/
def autosavedAfterSet : List Action :=
  [.submit { loc := ⟨"world", "overworld", "terrain", 5, 0, 0⟩, ret := 0 }, .takeTask 1] ++
  readBack (.succeeds 2) 3 ++
  [.submit { loc := ⟨"world", "overworld", "terrain", 5, 0, 0⟩, img := some blankTile },
    .takeTask 4, .autosave, .saveEntry ⟨"world", "overworld", "terrain", 5, 0, 0⟩ (.succeeds 5),
    .saved, .submit { loc := ⟨"world", "overworld", "terrain", 4, 0, 0⟩, ret := 1 }, .takeTask 6]

theorem autosaveSafe_autosavedAfterSet :
    (machine sampleConfig).ReachesOnly AutosaveSafe
      (State.initial sampleConfig fun _ => none) autosavedAfterSet :=
  (autosaveSafe_iff sampleConfig (fun _ => none) autosavedAfterSet _
    (Machine.runs_exec_get (by decide))).mpr (Machine.stepsOnly_of_checkSteps (by decide))

end WebChunk.ImageCache
