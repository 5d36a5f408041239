import WebChunk.ImageCache.Content

/-!
# Restarts

When its context is cancelled the processor saves every entry that is not marked as
synced, and `WaitExit` returns after that. The next process starts from the files alone:
what a tile shows there is what all processes before it were told, in this order.
-/

namespace WebChunk.ImageCache

open WebChunk.Go WebChunk.Semantics

/-- The picture of the tile's file does not come back while a set of the tile is unsaved.
It would mark the entry as synced. -/
def readsWhenSaved (tile : ImageLocation) (s : State) : Action → Prop
  | .takeReturn _ =>
      match s.ioReturn.buffer with
      | ⟨loc, some image⟩ :: _ =>
          loc = tile → image.img.isSome → ∀ t, s.p.cache.get tile = some t →
            t.imageUnloaded = true → t.img.isSome → t.syncedToDisk = true
      | _ => True
  | _ => True

/-- The tile is saved with a picture that is read back as it is. -/
def savesAsRead (cfg : Config) (tile : ImageLocation) (s : State) : Action → Prop
  | .saveEntry loc _ =>
      loc = tile → ∀ v, s.p.cache.get tile = some v → v.syncedToDisk = false →
        v.img.map cfg.png = v.img
  | _ => True

/-- The steps of a process which leaves the logical picture of the tile in its file. -/
structure SavesTile (cfg : Config) (tile : ImageLocation) (s : State) (action : Action) :
    Prop where
  noErrors : noIoErrors action = true
  content : keepsContent cfg tile s action
  reads : readsWhenSaved tile s action
  file : savesAsRead cfg tile s action

/-- One process after the other, each stopped by its context. The indices are the files
before, the sets that were accepted since, and the files after. -/
inductive Sessions (cfg : Config) (tile : ImageLocation) (disk : Disk) :
    List CacheTask → Disk → Prop where
  | start : Sessions cfg tile disk [] disk
  | next {sets : List CacheTask} {between : Disk} {actions : List Action} {final : State}
      (before : Sessions cfg tile disk sets between)
      (run : (machine cfg).Runs (State.initial cfg between) actions final)
      (steps : (machine cfg).StepsOnly (SavesTile cfg tile) (State.initial cfg between) actions)
      (stopped : final.phase = .stopped) :
      Sessions cfg tile disk (sets ++ final.p.sets) final.disk

/-- An entry marked as synced adds nothing to the file of its tile. -/
def MarkExact (tile : ImageLocation) (file : Option RGBA) (cache : Map ImageLocation CachedImage) :
    Prop :=
  ∀ v, cache.get tile = some v → v.syncedToDisk = true → standsFor file (some v) = file

/-- `processSave` need not visit the tile any more. -/
def Phase.passed (tile : ImageLocation) : Phase → Prop
  | .selecting => False
  | .saving todo _ => tile ∉ todo
  | .stopped => True

/-- The mark of the tile is exact, and `processSave` leaves the entry of the tile marked. -/
structure TileSaved (cfg : Config) (tile : ImageLocation) (s : State) : Prop where
  mark : MarkExact tile (s.disk.picture (cfg.filename tile)) s.p.cache
  passed : s.phase.passed tile → ∀ v, s.p.cache.get tile = some v → v.syncedToDisk = true

variable {cfg : Config} {tile : ImageLocation} {file : Option RGBA} {s next : State}
  {p after : Processor} {task : CacheTask} {now : Int} {action : Action}

/-- Only a picture that was read gives an entry its mark. -/
theorem synced_of_processCacheLoad {t image : CachedImage}
    (synced : (processCacheLoad t image).syncedToDisk = true) :
    t.syncedToDisk = true ∨ t.imageUnloaded = true ∧ image.img.isSome := by
  unfold processCacheLoad at synced
  split at synced
  · exact .inl synced
  · rename_i there
    split at synced
    · rename_i unloaded
      exact .inr ⟨unloaded, Option.isSome_of_eq_some there⟩
    · exact .inl synced

namespace MarkExact

/-- The entry of some location is replaced. -/
theorem set {cache : Map ImageLocation CachedImage} (exact : MarkExact tile file cache)
    {loc : ImageLocation} {entry : CachedImage}
    (new : loc = tile → entry.syncedToDisk = true → standsFor file (some entry) = file) :
    MarkExact tile file (cache.set loc entry) := by
  intro v found synced
  rw [Map.get_set] at found
  split at found
  · rename_i same
    cases found
    exact new same.symm synced
  · exact exact v found synced

/-- A task marks no entry. -/
theorem taskStep (exact : MarkExact tile file p.cache) (taken : TaskStep p task now after) :
    MarkExact tile file after.cache := by
  cases taken with
  | smallerMiss _ _ _ _ | setHit _ _ _ | setMiss _ _ _ _ =>
      exact exact.set fun _ synced => by cases synced
  | _ => exact exact

/-- What was read for the tile and merged with its entry is the picture of the file, if
the entry is marked then. -/
theorem entered (exact : MarkExact tile file p.cache) {image : CachedImage}
    (fresh : image.fresh) (fits : readFits file (p.cache.get tile) image.img)
    (saved : image.img.isSome → ∀ t, p.cache.get tile = some t → t.imageUnloaded = true →
      t.img.isSome → t.syncedToDisk = true)
    (synced : (p.entered tile image).syncedToDisk = true) :
    standsFor file (some (p.entered tile image)) = file := by
  have shown := img_entered fits
  rw [standsFor, entered_loaded fresh.1, if_neg Bool.false_ne_true, shown]
  cases found : p.cache.get tile with
  | none => rfl
  | some t =>
      simp only [Processor.entered, found] at synced
      rcases synced_of_processCacheLoad synced with before | ⟨unloaded, there⟩
      · exact exact t found before
      · rw [standsFor, if_pos unloaded]
        cases own : t.img with
        | none => rw [Option.none_or]
        | some picture =>
            have before := exact t found (saved there t found unloaded (by rw [own]; rfl))
            rw [standsFor, if_pos unloaded, own] at before
            exact before

end MarkExact

/-- The step lemma of the saves, as long as nothing panics. -/
theorem TileSaved.preserved (saved : TileSaved cfg tile s) (reads : ReadsOnly s)
    (saves : SavesTile cfg tile s action) (transition : Transition cfg s action next)
    (running : next.panicked = none) : TileSaved cfg tile next := by
  have atSelect : s.ready = true → s.phase = .selecting := by
    unfold State.ready
    split
    · exact fun _ => by assumption
    · intro ready
      cases ready
  cases transition with
  | takes ready _ processed =>
      refine ⟨saved.mark.taskStep (taskStep_of_processTask processed), fun passed => ?_⟩
      rw [atSelect ready] at passed
      exact passed.elim
  | @returns now task ioReturn p ready received processed =>
      have front := (Chan.receive_received received).1
      obtain ⟨loc, img⟩ := task
      refine ⟨?_, fun passed => by rw [atSelect ready] at passed; exact passed.elim⟩
      rcases reads.wokenReturn received processed with ⟨_, rfl⟩ | ⟨image, rfl, fresh, woken⟩
      · exact saved.mark
      · dsimp only
        rw [woken.cache]
        refine saved.mark.set ?_
        rintro rfl
        have fits := saves.content
        have whenSaved := saves.reads
        rw [keepsContent, front] at fits
        rw [readsWhenSaved, front] at whenSaved
        exact saved.mark.entered fresh (fits rfl) (whenSaved rfl)
  | autosaves _ | cancels _ =>
      refine ⟨saved.mark, fun passed v found => ?_⟩
      have member := (s.p.cache.mem_keys tile).mpr (Option.isSome_of_eq_some found)
      exact absurd member passed
  | @keeps loc outcome todo final saving _ synced =>
      refine ⟨saved.mark, fun passed v found => ?_⟩
      by_cases same : tile = loc
      · exact synced v (same ▸ found)
      · have before : s.phase.passed tile := by
          rw [saving]
          exact fun member => passed (Finset.mem_erase.mpr ⟨same, member⟩)
        exact saved.passed before v found
  | saveFails _ _ _ _ => cases saves.noErrors
  | @saves loc now todo final v picture saving _ found unsynced there =>
      by_cases same : loc = tile
      · subst same
        have readBack := saves.file rfl v found unsynced
        rw [there, Option.map_some] at readBack
        constructor
        · intro w stored synced
          rw [Map.get_set, if_pos rfl] at stored
          cases stored
          rw [picture_update, if_pos rfl]
          exact (standsFor_some there).trans readBack.symm
        · intro _ w stored
          rw [Map.get_set, if_pos rfl] at stored
          cases stored
          rfl
      · have file : Disk.picture
            (Function.update s.disk (cfg.filename loc) (some ⟨some (cfg.png picture), now⟩))
            (cfg.filename tile) = s.disk.picture (cfg.filename tile) :=
          picture_saved saves.content found unsynced same
        constructor
        · dsimp only
          rw [file]
          exact saved.mark.set fun contrary => absurd contrary same
        · intro passed w stored
          rw [Map.get_set, if_neg (Ne.symm same)] at stored
          have before : s.phase.passed tile := by
            rw [saving]
            exact fun member => passed (Finset.mem_erase.mpr ⟨Ne.symm same, member⟩)
          exact saved.passed before w stored
  | savePanics _ _ _ _ _ | taskPanics _ _ _ | returnPanics _ _ _ => cases running
  | saved _ => exact ⟨saved.mark, fun passed => passed.elim⟩
  | savedLast saving =>
      refine ⟨saved.mark, fun _ => saved.passed ?_⟩
      rw [saving]
      exact Finset.notMem_empty tile
  | unloads ready =>
      refine ⟨fun v found => saved.mark v (of_get_processUnload found), fun passed => ?_⟩
      rw [atSelect ready] at passed
      exact passed.elim
  | ioLoads _ loaded =>
      rw [disk_of_cacheLoad saves.noErrors loaded]
      exact ⟨saved.mark, saved.passed⟩
  | ioSaves found => cases reads.holding _ _ found
  | submits _ | flushes _ _ | ioTakes _ _ | ioEnds _ _ | ioPushes _ _ =>
      exact ⟨saved.mark, saved.passed⟩

/-- What holds in every state of a process that started on `disk`. -/
structure SessionInvariant (cfg : Config) (disk : Disk) (tile : ImageLocation) (s : State) :
    Prop where
  reads : ReadsOnly s
  kept : ContentKept cfg disk tile s
  saved : s.panicked = none → TileSaved cfg tile s
  stopped : s.phase = .stopped → s.panicked = none

theorem sessionInvariant_initial (cfg : Config) (disk : Disk) (tile : ImageLocation) :
    SessionInvariant cfg disk tile (State.initial cfg disk) where
  reads := readsOnly_initial cfg disk
  kept := contentKept_of_holds ⟨rfl, fun a member => by simp [State.initial] at member⟩
  saved _ := ⟨fun v found => by simp [State.initial] at found, fun passed => passed.elim⟩
  stopped phase := by cases phase

/-- The step lemma of a process. -/
theorem SessionInvariant.preserved {disk : Disk} (storage : tile.S = StorageLevel)
    (inv : SessionInvariant cfg disk tile s) (saves : SavesTile cfg tile s action)
    (taken : step cfg s action = some next) : SessionInvariant cfg disk tile next := by
  obtain ⟨running, transition⟩ := transition_of_step taken
  refine
    { reads := inv.reads.preserved transition
      kept := inv.kept.preserved storage inv.reads saves.noErrors saves.content taken
      saved := (inv.saved running).preserved inv.reads saves transition
      stopped := fun phase => ?_ }
  cases transition with
  | taskPanics ready _ _ | returnPanics ready _ _ =>
      change s.phase = .stopped at phase
      rw [State.ready, phase] at ready
      cases ready
  | savePanics _ _ _ _ _ => cases phase
  | ioSaves found => cases inv.reads.holding _ _ found
  | _ => exact running

theorem sessionInvariant_of_runs {disk : Disk} {actions : List Action} {final : State}
    (storage : tile.S = StorageLevel)
    (run : (machine cfg).Runs (State.initial cfg disk) actions final)
    (steps : (machine cfg).StepsOnly (SavesTile cfg tile) (State.initial cfg disk) actions) :
    SessionInvariant cfg disk tile final :=
  run.invariant (fun inv saves taken => inv.preserved storage saves taken) steps
    (sessionInvariant_initial cfg disk tile)

/-- A process that was stopped has left in the file what the tile shows. -/
theorem SessionInvariant.file_of_stopped {disk : Disk} (inv : SessionInvariant cfg disk tile s)
    (stopped : s.phase = .stopped) : s.disk.picture (cfg.filename tile) =
      logical tile (disk.picture (cfg.filename tile)) s.p.sets := by
  have running := inv.stopped stopped
  have saved := inv.saved running
  rw [(inv.kept.live running).entry]
  cases found : s.p.cache.get tile with
  | none => rfl
  | some v => exact (saved.mark v found (saved.passed (by rw [stopped]; trivial) v found)).symm

theorem logical_append (file : Option RGBA) (before later : List CacheTask) :
    logical tile file (before ++ later) = logical tile (logical tile file before) later :=
  List.foldl_append

/-- After any number of processes the file has what the tile shows. -/
theorem Sessions.picture {disk after : Disk} {sets : List CacheTask}
    (storage : tile.S = StorageLevel)
    (sessions : Sessions cfg tile disk sets after) : after.picture (cfg.filename tile) =
      logical tile (disk.picture (cfg.filename tile)) sets := by
  induction sessions with
  | start => rfl
  | next _ run steps stopped inductionHypothesis =>
      rw [(sessionInvariant_of_runs storage run steps).file_of_stopped stopped,
        inductionHypothesis, ← logical_append]

/-- The picture in every answer of a process is the one after the sets of all processes
before it and its own so far. -/
theorem setsOutliveRestarts (cfg : Config) (disk : Disk) (tile : ImageLocation)
    (storage : tile.S = StorageLevel) (sets : List CacheTask) (between : Disk)
    (actions : List Action) (sessions : Sessions cfg tile disk sets between)
    (steps : (machine cfg).StepsOnly (SavesTile cfg tile) (State.initial cfg between) actions) :
    (machine cfg).ReachesOnly
      (fun s => ∀ a ∈ s.p.answers, tileOf a.loc = some tile →
        a.image.img = (logical tile (disk.picture (cfg.filename tile))
          (sets ++ s.p.sets.take a.after)).map fun whole => crop whole a.loc)
      (State.initial cfg between) actions := by
  have preserved : ∀ {s : State} {action : Action} {next : State},
      SessionInvariant cfg between tile s → SavesTile cfg tile s action →
      step cfg s action = some next → SessionInvariant cfg between tile next :=
    fun inv saves taken => inv.preserved storage saves taken
  refine steps.reachesOnly ?_ preserved (sessionInvariant_initial cfg between tile)
  intro s inv a member inside
  rw [(inv.kept.answers a member).image inside, sessions.picture storage, ← logical_append]

/-- A set, and the stop of the process. -/
def setThenStopped : List Action :=
  [.submit { loc := ⟨"world", "overworld", "terrain", 5, 0, 0⟩, img := some paintedTile },
    .takeTask 1] ++
  readBack (.succeeds 2) 3 ++
  [.cancel, .saveEntry ⟨"world", "overworld", "terrain", 5, 0, 0⟩ (.succeeds 4), .saved]

/-- A get of one chunk of this tile in the next process. -/
def readAfterRestart : List Action :=
  [.submit { loc := ⟨"world", "overworld", "terrain", 0, 0, 0⟩ }, .takeTask 5] ++
  readBack (.succeeds 6) 7

theorem setsOutliveRestarts_sample : ∃ between final,
    (machine sampleConfig).Runs (State.initial sampleConfig between) readAfterRestart final ∧
    final.p.answers.length = 1 ∧ (machine sampleConfig).ReachesOnly
      (fun s => ∀ a ∈ s.p.answers,
        tileOf a.loc = some ⟨"world", "overworld", "terrain", 5, 0, 0⟩ →
        a.image.img = (logical ⟨"world", "overworld", "terrain", 5, 0, 0⟩ none
          ([{ loc := ⟨"world", "overworld", "terrain", 5, 0, 0⟩, img := some paintedTile }] ++
            s.p.sets.take a.after)).map fun whole => crop whole a.loc)
      (State.initial sampleConfig between) readAfterRestart := by
  have first : (machine sampleConfig).StepsOnly
      (SavesTile sampleConfig ⟨"world", "overworld", "terrain", 5, 0, 0⟩)
      (State.initial sampleConfig fun _ => none) setThenStopped := by
    refine Machine.stepsOnly_of_meetsSteps ?_
    exact ⟨⟨rfl, trivial, trivial, trivial⟩,
      ⟨rfl, ⟨by decide, fun _ => ⟨rfl, rfl⟩⟩, trivial, trivial⟩,
      ⟨rfl, trivial, trivial, trivial⟩, ⟨rfl, trivial, trivial, trivial⟩,
      ⟨rfl, trivial, trivial, trivial⟩, ⟨rfl, trivial, trivial, trivial⟩,
      ⟨rfl, fun _ => trivial, fun _ absent => (by cases absent), trivial⟩,
      ⟨rfl, trivial, trivial, trivial⟩,
      ⟨rfl, fun _ => .inl rfl, trivial,
        fun _ v found _ => by cases found; exact congrArg some (drawnTile_png rfl)⟩,
      ⟨rfl, trivial, trivial, trivial⟩, trivial⟩
  have sessions := Sessions.next .start
    (Machine.runs_exec_get (by decide)) first rfl
  refine ⟨_, _, Machine.runs_exec_get (by decide), rfl,
    setsOutliveRestarts sampleConfig (fun _ => none) ⟨"world", "overworld", "terrain", 5, 0, 0⟩ rfl
      _ _ readAfterRestart sessions
    (Machine.stepsOnly_of_meetsSteps ?_)⟩
  exact ⟨⟨rfl, trivial, trivial, trivial⟩,
    ⟨rfl, fun same => absurd same (by decide), trivial, trivial⟩,
    ⟨rfl, trivial, trivial, trivial⟩, ⟨rfl, trivial, trivial, trivial⟩,
    ⟨rfl, trivial, trivial, trivial⟩, ⟨rfl, trivial, trivial, trivial⟩,
    ⟨rfl, fun _ => rfl, fun _ _ t found _ own => (by cases found; cases own), trivial⟩, trivial⟩

end WebChunk.ImageCache
