import WebChunk.ImageCache.Steps
import WebChunk.ImageCache.System

/-!
# What one step can do

`Transition` lists the branches of the image cache's step, each with the guards it
passed and the state it leaves.
-/

namespace WebChunk.ImageCache

open WebChunk.Go WebChunk.Semantics

/-- The branches of `step`. -/
inductive Transition (cfg : Config) (s : State) : Action → State → Prop where
  | submits {task : CacheTask} {tasks : Chan CacheTask} (sent : s.tasks.send task = .sent tasks) :
      Transition cfg s (.submit task) { s with tasks := tasks }
  | takes {now : Int} {task : CacheTask} {tasks : Chan CacheTask} {p : Processor}
      (ready : s.ready = true) (received : s.tasks.receive = .received task tasks)
      (processed : s.p.processTask task now = some p) :
      Transition cfg s (.takeTask now) { s with tasks := tasks, p := p }
  | taskPanics {now : Int} {task : CacheTask} {tasks : Chan CacheTask}
      (ready : s.ready = true) (received : s.tasks.receive = .received task tasks)
      (panics : s.p.processTask task now = none) :
      Transition cfg s (.takeTask now)
        { s with tasks := tasks, panicked := some .indexOutOfRange }
  | returns {now : Int} {task : IoReturn} {ioReturn : Chan IoReturn} {p : Processor}
      (ready : s.ready = true) (received : s.ioReturn.receive = .received task ioReturn)
      (processed : s.p.processReturn task now = some p) :
      Transition cfg s (.takeReturn now) { s with ioReturn := ioReturn, p := p }
  | returnPanics {now : Int} {task : IoReturn} {ioReturn : Chan IoReturn}
      (ready : s.ready = true) (received : s.ioReturn.receive = .received task ioReturn)
      (panics : s.p.processReturn task now = none) :
      Transition cfg s (.takeReturn now)
        { s with ioReturn := ioReturn, panicked := some .indexOutOfRange }
  | flushes {task : CacheTaskIo} {rest : List CacheTaskIo} {ioTasks : Chan CacheTaskIo}
      (hand : s.p.hand = task :: rest) (sent : s.ioTasks.send task = .sent ioTasks) :
      Transition cfg s .flush { s with ioTasks := ioTasks, p := { s.p with hand := rest } }
  | autosaves (ready : s.ready = true) :
      Transition cfg s .autosave { s with phase := .saving s.p.cache.keys false }
  | keeps {loc : ImageLocation} {outcome : SaveOutcome} {todo : Finset ImageLocation}
      {final : Bool} (saving : s.phase = .saving todo final) (member : loc ∈ todo)
      (synced : ∀ v, s.p.cache.get loc = some v → v.syncedToDisk = true) :
      Transition cfg s (.saveEntry loc outcome) { s with phase := .saving (todo.erase loc) final }
  | saveFails {loc : ImageLocation} {left : Option File} {todo : Finset ImageLocation}
      {final : Bool} {v : CachedImage} (saving : s.phase = .saving todo final)
      (member : loc ∈ todo) (found : s.p.cache.get loc = some v)
      (unsynced : v.syncedToDisk = false) :
      Transition cfg s (.saveEntry loc (.fails left))
        { s with
          phase := .saving (todo.erase loc) final
          disk := Function.update s.disk (cfg.filename loc) left }
  | saves {loc : ImageLocation} {now : Int} {todo : Finset ImageLocation} {final : Bool}
      {v : CachedImage} {picture : RGBA} (saving : s.phase = .saving todo final)
      (member : loc ∈ todo) (found : s.p.cache.get loc = some v)
      (unsynced : v.syncedToDisk = false) (there : v.img = some picture) :
      Transition cfg s (.saveEntry loc (.succeeds now))
        { s with
          phase := .saving (todo.erase loc) final
          disk := Function.update s.disk (cfg.filename loc) (some ⟨some (cfg.png picture), now⟩)
          p := { s.p with cache := s.p.cache.set loc { v with syncedToDisk := true } } }
  | savePanics {loc : ImageLocation} {now : Int} {todo : Finset ImageLocation} {final : Bool}
      {v : CachedImage} (saving : s.phase = .saving todo final) (member : loc ∈ todo)
      (found : s.p.cache.get loc = some v) (unsynced : v.syncedToDisk = false)
      (missing : v.img = none) :
      Transition cfg s (.saveEntry loc (.succeeds now))
        { s with
          phase := .saving (todo.erase loc) final
          disk := Function.update s.disk (cfg.filename loc) (some ⟨none, now⟩)
          panicked := some .nilImage }
  | saved (saving : s.phase = .saving ∅ false) :
      Transition cfg s .saved { s with phase := .selecting }
  | savedLast (saving : s.phase = .saving ∅ true) :
      Transition cfg s .saved { s with phase := .stopped, ioTasks := s.ioTasks.close }
  | unloads {now : Int} (ready : s.ready = true) :
      Transition cfg s (.unload now) { s with p := s.p.processUnload cfg.unusedUnload now }
  | cancels (ready : s.ready = true) :
      Transition cfg s .cancel { s with phase := .saving s.p.cache.keys true }
  | ioTakes {i : Nat} {task : CacheTaskIo} {ioTasks : Chan CacheTaskIo}
      (found : s.workers[i]? = some .idle) (received : s.ioTasks.receive = .received task ioTasks) :
      Transition cfg s (.ioTake i)
        { s with ioTasks := ioTasks, workers := s.workers.set i (.holding task) }
  | ioEnds {i : Nat} (found : s.workers[i]? = some .idle) (drained : s.ioTasks.receive = .drained) :
      Transition cfg s (.ioTake i) { s with workers := s.workers.set i .ended }
  | ioLoads {i : Nat} {outcome : LoadOutcome} {loc : ImageLocation} {img : Option CachedImage}
      {disk : Disk} (found : s.workers[i]? = some (.holding ⟨loc, none⟩))
      (loaded : cacheLoad cfg s.disk loc outcome = some (img, disk)) :
      Transition cfg s (.ioLoad i outcome)
        { s with disk := disk, workers := s.workers.set i (.returning ⟨loc, img⟩) }
  | ioSaves {i : Nat} {outcome : SaveOutcome} {loc : ImageLocation} {image : CachedImage}
      {next : State} (found : s.workers[i]? = some (.holding ⟨loc, some image⟩)) :
      Transition cfg s (.ioSave i outcome) next
  | ioPushes {i : Nat} {task : IoReturn} {ioReturn : Chan IoReturn}
      (found : s.workers[i]? = some (.returning task))
      (sent : s.ioReturn.send task = .sent ioReturn) :
      Transition cfg s (.ioPush i)
        { s with ioReturn := ioReturn, workers := s.workers.set i .idle }

variable {cfg : Config} {s next : State}

theorem transition_of_takeTask {now : Int} (takes : s.takeTask now = some next) :
    Transition cfg s (.takeTask now) next := by
  unfold State.takeTask at takes
  split at takes
  · rename_i ready
    split at takes
    · rename_i task tasks received
      cases takes
      unfold State.proceed
      split
      · exact .takes ready received (by assumption)
      · exact .taskPanics ready received (by assumption)
    · cases takes
  · cases takes

theorem transition_of_takeReturn {now : Int} (takes : s.takeReturn now = some next) :
    Transition cfg s (.takeReturn now) next := by
  unfold State.takeReturn at takes
  split at takes
  · rename_i ready
    split at takes
    · rename_i task ioReturn received
      cases takes
      unfold State.proceed
      split
      · exact .returns ready received (by assumption)
      · exact .returnPanics ready received (by assumption)
    · cases takes
  · cases takes

theorem transition_of_flush (flushes : s.flush = some next) : Transition cfg s .flush next := by
  unfold State.flush at flushes
  split at flushes
  · cases flushes
  · rename_i hand
    split at flushes
    · cases flushes
      exact .flushes hand (by assumption)
    · cases flushes

theorem transition_of_saveEntry {loc : ImageLocation} {outcome : SaveOutcome}
    (saves : s.saveEntry cfg loc outcome = some next) :
    Transition cfg s (.saveEntry loc outcome) next := by
  unfold State.saveEntry at saves
  split at saves
  · rename_i todo final saving
    split at saves
    · rename_i member
      dsimp only at saves
      split at saves
      · rename_i missing
        cases saves
        exact .keeps saving member (by simp [missing])
      · rename_i v found
        split at saves
        · rename_i synced
          cases saves
          exact .keeps saving member (by simp [found, synced])
        · rename_i notSynced
          have unsynced : v.syncedToDisk = false := by simpa using notSynced
          split at saves
          · rename_i picture there
            cases outcome with
            | fails left =>
                cases saves
                exact .saveFails saving member found unsynced
            | succeeds now =>
                cases saves
                exact .saves saving member found unsynced there
          · rename_i missing
            cases outcome with
            | fails left =>
                cases saves
                exact .saveFails saving member found unsynced
            | succeeds now =>
                cases saves
                exact .savePanics saving member found unsynced missing
    · cases saves
  · cases saves

theorem transition_of_saved (saves : s.saved = some next) : Transition cfg s .saved next := by
  unfold State.saved at saves
  split at saves
  · rename_i todo final saving
    split at saves
    · rename_i empty
      subst empty
      cases final <;> cases saves
      · exact .saved saving
      · exact .savedLast saving
    · cases saves
  · cases saves

theorem transition_of_ioTake {i : Nat} (takes : s.ioTake i = some next) :
    Transition cfg s (.ioTake i) next := by
  unfold State.ioTake at takes
  split at takes
  · cases takes
    exact .ioTakes (by assumption) (by assumption)
  · cases takes
    exact .ioEnds (by assumption) (by assumption)
  · cases takes

theorem transition_of_ioLoad {i : Nat} {outcome : LoadOutcome}
    (loads : s.ioLoad cfg i outcome = some next) : Transition cfg s (.ioLoad i outcome) next := by
  unfold State.ioLoad at loads
  split at loads
  · split at loads
    · cases loads
      exact .ioLoads (by assumption) (by assumption)
    · cases loads
  · cases loads

theorem transition_of_ioSave {i : Nat} {outcome : SaveOutcome}
    (saves : s.ioSave cfg i outcome = some next) : Transition cfg s (.ioSave i outcome) next := by
  unfold State.ioSave at saves
  split at saves
  · exact .ioSaves (by assumption)
  · cases saves

theorem transition_of_ioPush {i : Nat} (pushes : s.ioPush i = some next) :
    Transition cfg s (.ioPush i) next := by
  unfold State.ioPush at pushes
  split at pushes
  · split at pushes
    · cases pushes
      exact .ioPushes (by assumption) (by assumption)
    · cases pushes
  · cases pushes

/-- Inversion of `step`: it takes one of the branches, in a live process. -/
theorem transition_of_step {action : Action} (transition : step cfg s action = some next) :
    s.panicked = none ∧ Transition cfg s action next := by
  unfold step at transition
  split at transition
  · cases transition
  · rename_i live
    refine ⟨by simpa using live, ?_⟩
    cases action with
    | submit task =>
        dsimp only at transition
        unfold State.submit at transition
        split at transition
        · cases transition
          exact .submits (by assumption)
        · cases transition
    | takeTask now => exact transition_of_takeTask transition
    | takeReturn now => exact transition_of_takeReturn transition
    | flush => exact transition_of_flush transition
    | autosave =>
        simp only [State.autosave, Option.ite_none_right_eq_some, Option.some.injEq] at transition
        obtain ⟨ready, rfl⟩ := transition
        exact .autosaves ready
    | saveEntry loc outcome => exact transition_of_saveEntry transition
    | saved => exact transition_of_saved transition
    | unload now =>
        simp only [State.unload, Option.ite_none_right_eq_some, Option.some.injEq] at transition
        obtain ⟨ready, rfl⟩ := transition
        exact .unloads ready
    | cancel =>
        simp only [State.cancel, Option.ite_none_right_eq_some, Option.some.injEq] at transition
        obtain ⟨ready, rfl⟩ := transition
        exact .cancels ready
    | ioTake i => exact transition_of_ioTake transition
    | ioLoad i outcome => exact transition_of_ioLoad transition
    | ioSave i outcome => exact transition_of_ioSave transition
    | ioPush i => exact transition_of_ioPush transition

end WebChunk.ImageCache
