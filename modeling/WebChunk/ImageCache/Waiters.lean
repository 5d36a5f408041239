import WebChunk.ImageCache.Reads

/-!
# Gets that wait for a file

A get whose tile was not read yet waits in `cacheReturn`, and a placeholder waits in
`cache`, for a read of the tile to come back. A read which comes back with an error
leaves them there.
-/

namespace WebChunk.ImageCache

open WebChunk.Go WebChunk.Semantics

/-- The tile whose task a worker has. -/
def IoWorker.location : IoWorker → Option ImageLocation
  | holding task => some task.loc
  | returning task => some task.loc
  | _ => none

/-- The tiles of the tasks in the processor's hand, in `ioTasks`, at the workers and in
`ioReturn`. -/
def inFlight (hand queue : List CacheTaskIo) (workers : List IoWorker) (back : List IoReturn) :
    List ImageLocation :=
  hand.map CacheTaskIo.loc ++ queue.map CacheTaskIo.loc ++ workers.filterMap IoWorker.location ++
    back.map IoReturn.loc

/-- The tiles with a task in flight. -/
def State.inFlight (s : State) : List ImageLocation :=
  ImageCache.inFlight s.p.hand s.ioTasks.buffer s.workers s.ioReturn.buffer

/-- A get waits for the tile, or its entry was not read yet. -/
def Processor.awaits (p : Processor) (loc : ImageLocation) : Bool :=
  (p.cacheReturn.get loc).any (fun tasks => !tasks.isEmpty) ||
    (p.cache.get loc).any fun v => v.imageUnloaded

/-- Whatever is awaited is in flight. -/
def NoStranded (s : State) : Prop :=
  ∀ loc, s.p.awaits loc = true → loc ∈ s.inFlight

/-- A failed read that comes back is not awaited, or another task of its tile is in
flight. -/
def returnsRead (s : State) : Action → Bool
  | .takeReturn _ =>
      match s.ioReturn.buffer with
      | task :: rest =>
          task.img.isSome || !s.p.awaits task.loc ||
            decide (task.loc ∈ inFlight s.p.hand s.ioTasks.buffer s.workers rest)
      | [] => true
  | _ => true

theorem mem_inFlight {hand queue : List CacheTaskIo} {workers : List IoWorker}
    {back : List IoReturn} {loc : ImageLocation} :
    loc ∈ inFlight hand queue workers back ↔
      (∃ task ∈ hand, task.loc = loc) ∨ (∃ task ∈ queue, task.loc = loc) ∨
        (∃ worker ∈ workers, worker.location = some loc) ∨ ∃ task ∈ back, task.loc = loc := by
  simp [inFlight]

/-- The workers after one of them moved on. -/
theorem location_set {workers : List IoWorker} {i : Nat} {old : IoWorker} (new : IoWorker)
    (found : workers[i]? = some old) {loc : ImageLocation}
    (located : ∃ worker ∈ workers, worker.location = some loc) :
    (∃ worker ∈ workers.set i new, worker.location = some loc) ∨ old.location = some loc := by
  obtain ⟨worker, member, located⟩ := located
  obtain ⟨j, stored⟩ := List.mem_iff_getElem?.mp member
  by_cases same : i = j
  · subst same
    cases found.symm.trans stored
    exact .inr located
  · refine .inl ⟨worker, List.mem_iff_getElem?.mpr ⟨j, ?_⟩, located⟩
    rw [List.getElem?_set_ne same]
    exact stored

theorem mem_set {workers : List IoWorker} {i : Nat} {old new : IoWorker}
    (found : workers[i]? = some old) : new ∈ workers.set i new := by
  refine List.mem_iff_getElem?.mpr ⟨i, ?_⟩
  rw [List.getElem?_set_self (List.getElem?_eq_some_iff.mp found).1]

/-- A get that waits for a tile can be answered from any entry. -/
theorem answerFrom_isSome {loc : ImageLocation} {task : CacheTask} (waits : Waits loc task)
    (l : CachedImage) : (answerFrom l task.loc).isSome := by
  obtain ⟨_, ⟨rfl, native⟩ | ⟨smaller, tile⟩⟩ := waits
  · simp [answerFrom, native]
  · have lower : 0 ≤ task.loc.S := by
      by_contra negative
      rw [getStorageLevelLoc_negative (Int.not_le.mp negative)] at tile
      cases tile
    rw [answerFrom, if_neg (Int.ne_of_lt smaller)]
    exact copySmallerCachedImage_isSome l lower smaller.le

/-- The gets that wait for a tile are all answered without a panic. -/
theorem processTasks_isSome {p : Processor} {loc : ImageLocation} {l : CachedImage}
    {tasks : List CacheTask} {now : Int} (waiting : ∀ task ∈ tasks, Waits loc task)
    (found : p.cache.get loc = some l) (loaded : l.imageUnloaded = false) :
    (p.processTasks tasks now).isSome := by
  induction tasks generalizing p with
  | nil => rfl
  | cons task rest inductionHypothesis =>
      have waits := waiting task List.mem_cons_self
      obtain ⟨image, copied⟩ := Option.isSome_iff_exists.mp (answerFrom_isSome waits l)
      rw [Processor.processTasks, processTask_waiting waits found loaded, copied]
      exact @inductionHypothesis (p.answer task image)
        (fun other member => waiting other (List.mem_cons_of_mem _ member)) found

theorem processReturn_isSome {p : Processor} {task : IoReturn} {now : Int}
    (belong : WaitersBelong p) (fresh : ∀ image, task.img = some image → image.fresh) :
    (p.processReturn task now).isSome := by
  unfold Processor.processReturn
  split
  · rfl
  · rename_i image there
    have loaded : (p.entered task.loc image).imageUnloaded = false :=
      entered_loaded (fresh image there).1
    have found : (p.enterReturn task.loc image).cache.get task.loc =
        some (p.entered task.loc image) := by
      rw [enterReturn_cache, Map.get_set_self]
    dsimp only
    split
    · rfl
    · rename_i waiters waiting
      rw [enterReturn_cacheReturn] at waiting
      have woke : ((p.enterReturn task.loc image).processTasks waiters now).isSome :=
        processTasks_isSome (belong task.loc waiters waiting) found loaded
      obtain ⟨middle, processed⟩ := Option.isSome_iff_exists.mp woke
      simp [processed]

/-- `processReturn` does not panic. -/
theorem ReadsOnly.processReturn_ne_none {s : State} (reads : ReadsOnly s) {task : IoReturn}
    {ioReturn : Chan IoReturn} (received : s.ioReturn.receive = .received task ioReturn)
    (now : Int) : s.p.processReturn task now ≠ none := by
  have front := (Chan.receive_received received).1
  have answered : (s.p.processReturn task now).isSome :=
    processReturn_isSome reads.belong (reads.returned task (front ▸ List.mem_cons_self))
  exact Option.isSome_iff_ne_none.mp answered

/-- A task that comes back is no longer in flight, the others are. -/
theorem inFlight_receive {hand queue : List CacheTaskIo} {workers : List IoWorker}
    {task : IoReturn} {rest : List IoReturn} {loc : ImageLocation}
    (flying : loc ∈ inFlight hand queue workers (task :: rest)) :
    loc ∈ inFlight hand queue workers rest ∨ task.loc = loc := by
  rcases mem_inFlight.mp flying with inHand | queued | atWorker | ⟨other, member, rfl⟩
  · exact .inl (mem_inFlight.mpr (.inl inHand))
  · exact .inl (mem_inFlight.mpr (.inr (.inl queued)))
  · exact .inl (mem_inFlight.mpr (.inr (.inr (.inl atWorker))))
  · rcases List.mem_cons.mp member with rfl | later
    · exact .inr rfl
    · exact .inl (mem_inFlight.mpr (.inr (.inr (.inr ⟨other, later, rfl⟩))))

/-- A task in flight stays in flight when it moves on: only the processor takes one off,
from `ioReturn`. -/
theorem inFlight_of_transition {cfg : Config} {s next : State} {action : Action}
    (reads : ReadsOnly s) (transition : Transition cfg s action next) {loc : ImageLocation}
    (flying : loc ∈ s.inFlight) :
    loc ∈ next.inFlight ∨ ∃ now task rest, action = .takeReturn now ∧
      s.ioReturn.buffer = task :: rest ∧ task.loc = loc := by
  cases transition with
  | takes _ _ processed =>
      refine .inl (mem_inFlight.mpr ?_)
      rcases mem_inFlight.mp flying with ⟨task, member, rfl⟩ | others
      · refine .inl ⟨task, ?_, rfl⟩
        rcases hand_of_taskStep (taskStep_of_processTask processed) with same | ⟨added, grown⟩
        · rw [same]
          exact member
        · rw [grown]
          exact List.mem_append_left _ member
      · exact .inr others
  | @returns now task ioReturn p _ received processed =>
      have front := (Chan.receive_received received).1
      have sameHand : p.hand = s.p.hand := by
        rcases reads.wokenReturn received processed with ⟨_, rfl⟩ | ⟨_, _, _, woken⟩
        · rfl
        · exact woken.hand
      rw [State.inFlight, front] at flying
      rw [State.inFlight, sameHand]
      exact (inFlight_receive flying).imp id fun same => ⟨now, task, _, rfl, front, same⟩
  | @returnPanics now task ioReturn _ received _ =>
      have front := (Chan.receive_received received).1
      rw [State.inFlight, front] at flying
      exact (inFlight_receive flying).imp id fun same => ⟨now, task, _, rfl, front, same⟩
  | @flushes task rest ioTasks hand sent =>
      obtain ⟨_, rfl⟩ := Chan.send_sent sent
      refine .inl (mem_inFlight.mpr ?_)
      rcases mem_inFlight.mp flying with ⟨other, member, rfl⟩ | ⟨other, member, rfl⟩ | others
      · rw [hand] at member
        rcases List.mem_cons.mp member with rfl | later
        · exact .inr (.inl ⟨other, List.mem_append_right _ (List.mem_singleton_self _), rfl⟩)
        · exact .inl ⟨other, later, rfl⟩
      · exact .inr (.inl ⟨other, List.mem_append_left _ member, rfl⟩)
      · exact .inr (.inr others)
  | @ioTakes i task ioTasks found received =>
      have front := (Chan.receive_received received).1
      refine .inl (mem_inFlight.mpr ?_)
      rcases mem_inFlight.mp flying with inHand | ⟨other, member, rfl⟩ | located | back
      · exact .inl inHand
      · rw [front] at member
        rcases List.mem_cons.mp member with rfl | later
        · exact .inr (.inr (.inl ⟨.holding other, mem_set found, rfl⟩))
        · exact .inr (.inl ⟨other, later, rfl⟩)
      · rcases location_set (.holding task) found located with still | idle
        · exact .inr (.inr (.inl still))
        · cases idle
      · exact .inr (.inr (.inr back))
  | ioEnds found _ =>
      refine .inl (mem_inFlight.mpr ?_)
      rcases mem_inFlight.mp flying with inHand | queued | located | back
      · exact .inl inHand
      · exact .inr (.inl queued)
      · rcases location_set .ended found located with still | idle
        · exact .inr (.inr (.inl still))
        · cases idle
      · exact .inr (.inr (.inr back))
  | @ioLoads i outcome tile img disk found _ =>
      refine .inl (mem_inFlight.mpr ?_)
      rcases mem_inFlight.mp flying with inHand | queued | located | back
      · exact .inl inHand
      · exact .inr (.inl queued)
      · rcases location_set (.returning ⟨tile, img⟩) found located with still | here
        · exact .inr (.inr (.inl still))
        · exact .inr (.inr (.inl ⟨.returning ⟨tile, img⟩, mem_set found, here⟩))
      · exact .inr (.inr (.inr back))
  | ioSaves found => cases reads.holding _ _ found
  | @ioPushes i task ioReturn found sent =>
      obtain ⟨_, rfl⟩ := Chan.send_sent sent
      refine .inl (mem_inFlight.mpr ?_)
      rcases mem_inFlight.mp flying with inHand | queued | located | ⟨other, member, same⟩
      · exact .inl inHand
      · exact .inr (.inl queued)
      · rcases location_set .idle found located with still | here
        · exact .inr (.inr (.inl still))
        · have same : task.loc = loc := Option.some.inj here
          refine .inr (.inr (.inr ⟨task, ?_, same⟩))
          exact List.mem_append_right _ (List.mem_singleton_self _)
      · exact .inr (.inr (.inr ⟨other, List.mem_append_left _ member, same⟩))
  | _ => exact .inl flying

/-- What a task makes the processor await, it asks for. -/
theorem awaits_of_taskStep {p next : Processor} {task : CacheTask} {now : Int}
    (taken : TaskStep p task now next) {loc : ImageLocation} (awaits : next.awaits loc = true) :
    p.awaits loc = true ∨ ∃ read ∈ next.hand, read.loc = loc := by
  have asked : ∀ {hand : List CacheTaskIo}, ∃ read ∈ hand ++ [{ loc := loc }], read.loc = loc :=
    ⟨{ loc := loc }, List.mem_append_right _ (List.mem_singleton_self _), rfl⟩
  cases taken with
  | nativeMiss _ _ miss =>
      by_cases same : loc = task.loc
      · subst same
        exact .inr asked
      · left
        simpa [Processor.awaits, Processor.wait, Processor.read, Map.get_set, same] using awaits
  | @smallerWaits tile l _ _ _ hit unloaded =>
      left
      by_cases same : loc = tile
      · subst same
        simp [Processor.awaits, hit, unloaded]
      · simpa [Processor.awaits, Processor.wait, Map.get_set, same] using awaits
  | @smallerMiss tile _ _ _ miss =>
      by_cases same : loc = tile
      · subst same
        exact .inr asked
      · left
        simpa [Processor.awaits, Processor.wait, Processor.read, Map.get_set, same] using awaits
  | setHit _ _ hit =>
      left
      by_cases same : loc = task.loc
      · subst same
        simpa [Processor.awaits, hit] using awaits
      · simpa [Processor.awaits, Map.get_set, same] using awaits
  | setMiss _ _ miss _ =>
      by_cases same : loc = task.loc
      · subst same
        exact .inr asked
      · left
        simpa [Processor.awaits, Processor.read, Map.get_set, same] using awaits
  | _ => exact .inl awaits

/-- After a successful read its tile is not awaited, the others are as before. -/
theorem Woken.awaits {p next : Processor} {loc other : ImageLocation} {image : CachedImage}
    (woken : Woken p loc image next) (fresh : image.fresh) (awaits : next.awaits other = true) :
    other ≠ loc ∧ p.awaits other = true := by
  rw [Processor.awaits, woken.cache, woken.cacheReturn, Map.get_set] at awaits
  by_cases same : other = loc
  · rw [if_pos same, if_pos same] at awaits
    simp [entered_loaded fresh.1] at awaits
  · rw [if_neg same, if_neg same] at awaits
    exact ⟨same, awaits⟩

/-- Marking an entry as saved changes nothing for those who wait. -/
theorem awaits_saved {p : Processor} {loc other : ImageLocation} {v : CachedImage}
    (found : p.cache.get loc = some v) :
    Processor.awaits { p with cache := p.cache.set loc { v with syncedToDisk := true } } other =
      p.awaits other := by
  unfold Processor.awaits
  rw [Map.get_set]
  split
  · rename_i same
    rw [same, found]
    rfl
  · rfl

/-- An unload makes nobody wait. -/
theorem awaits_unload {p : Processor} {interval now : Int} {loc : ImageLocation}
    (awaits : (p.processUnload interval now).awaits loc = true) : p.awaits loc = true := by
  unfold Processor.awaits at awaits ⊢
  rw [Bool.or_eq_true] at awaits ⊢
  refine awaits.imp id fun unloaded => ?_
  cases found : (p.processUnload interval now).cache.get loc with
  | none => simp [found] at unloaded
  | some v =>
      rw [of_get_processUnload found]
      simpa [found] using unloaded

/-- The step lemma: whatever is awaited stays in flight. -/
theorem NoStranded.preserved {cfg : Config} {s next : State} {action : Action}
    (invariant : ReadsOnly s ∧ NoStranded s) (returns : returnsRead s action = true)
    (transition : step cfg s action = some next) : ReadsOnly next ∧ NoStranded next := by
  obtain ⟨reads, stranded⟩ := invariant
  obtain ⟨_, transition⟩ := transition_of_step transition
  refine ⟨reads.preserved transition, fun loc awaits => ?_⟩
  -- Outside `processReturn` a task in flight stays in flight.
  have stays : (∀ now, action ≠ .takeReturn now) → s.p.awaits loc = true → loc ∈ next.inFlight := by
    intro other awaited
    rcases inFlight_of_transition reads transition (stranded loc awaited) with
      still | ⟨now, _, _, taken, _⟩
    · exact still
    · exact absurd taken (other now)
  cases transition with
  | takes _ _ processed =>
      rcases awaits_of_taskStep (taskStep_of_processTask processed) awaits with before | asked
      · exact stays (fun _ same => by cases same) before
      · exact mem_inFlight.mpr (.inl asked)
  | @returns now task ioReturn p _ received processed =>
      have front := (Chan.receive_received received).1
      rcases reads.wokenReturn received processed with ⟨failed, rfl⟩ | ⟨image, _, fresh, woken⟩
      · have flying := stranded loc awaits
        rw [State.inFlight, front] at flying
        rcases inFlight_receive flying with still | rfl
        · exact still
        · have others : task.loc ∈ inFlight s.p.hand s.ioTasks.buffer s.workers ioReturn.buffer := by
            simpa [returnsRead, front, failed, awaits] using returns
          exact others
      · obtain ⟨different, awaited⟩ := woken.awaits fresh awaits
        have flying := stranded loc awaited
        rw [State.inFlight, front] at flying
        rw [State.inFlight, woken.hand]
        rcases inFlight_receive flying with still | same
        · exact still
        · exact absurd same.symm different
  | returnPanics _ received panics =>
      exact absurd panics (reads.processReturn_ne_none received _)
  | saves _ _ found _ _ =>
      exact stays (fun _ same => by cases same) (awaits_saved found ▸ awaits)
  | unloads _ => exact stays (fun _ same => by cases same) (awaits_unload awaits)
  | ioSaves found => cases reads.holding _ _ found
  | submits _ | taskPanics _ _ _ | flushes _ _ | autosaves _ | keeps _ _ _ | saveFails _ _ _ _
  | savePanics _ _ _ _ _ | saved _ | savedLast _ | cancels _ | ioTakes _ _ | ioEnds _ _
  | ioLoads _ _ | ioPushes _ _ =>
      exact stays (fun _ same => by cases same) awaits

/-- A failed read that is awaited and is the last one of its tile strands those who wait. -/
theorem not_noStranded_of_failedRead {cfg : Config} {s next : State} {action : Action}
    (reads : ReadsOnly s) (returns : ¬ returnsRead s action = true)
    (transition : step cfg s action = some next) : ¬ NoStranded next := by
  obtain ⟨_, transition⟩ := transition_of_step transition
  cases transition with
  | @returns now task ioReturn p _ received processed =>
      have front := (Chan.receive_received received).1
      have condition := returns
      simp only [returnsRead, front, Bool.or_eq_true, Bool.not_eq_true', decide_eq_true_eq,
        not_or, Bool.not_eq_true, Option.isSome_eq_false_iff, Option.isNone_iff_eq_none,
        Bool.not_eq_false] at condition
      obtain ⟨⟨failed, awaited⟩, last⟩ := condition
      rcases reads.wokenReturn received processed with ⟨_, rfl⟩ | ⟨image, there, _, _⟩
      · exact fun stranded => last (stranded task.loc awaited)
      · cases failed.symm.trans there
  | returnPanics _ received panics =>
      exact absurd panics (reads.processReturn_ne_none received _)
  | _ => exact absurd rfl returns

/-- In every run, whatever is awaited stays in flight exactly when every failed read that
comes back is not awaited or leaves another task of its tile in flight. -/
theorem noStranded_iff (cfg : Config) (disk : Disk) (actions : List Action) (final : State)
    (run : (machine cfg).Runs (State.initial cfg disk) actions final) :
    (machine cfg).ReachesOnly NoStranded (State.initial cfg disk) actions ↔
      (machine cfg).StepsOnly (fun s action => returnsRead s action = true)
        (State.initial cfg disk) actions := by
  refine run.reachesOnly_iff And.right NoStranded.preserved
    (fun invariant returns transition =>
      not_noStranded_of_failedRead invariant.1 returns transition) ?_
  refine ⟨readsOnly_initial cfg disk, fun loc awaits => ?_⟩
  simp [State.initial, Processor.awaits] at awaits

/-- A get of a tile whose file cannot be decoded. -/
def undecodableTile : List Action :=
  [.submit { loc := ⟨"world", "overworld", "terrain", 5, 0, 0⟩ }, .takeTask 1] ++
  readBack .decodeFails 2

/-- The read fails, and the get waits with nothing in flight. -/
theorem failed_read_strands : ∃ (cfg : Config) (disk : Disk) (actions : List Action)
    (final : State), (machine cfg).Runs (State.initial cfg disk) actions final ∧
      ¬ NoStranded final := by
  refine ⟨sampleConfig, fun _ => some ⟨none, 0⟩, undecodableTile, _,
    Machine.runs_exec_get (by decide), fun stranded => ?_⟩
  have flying := stranded ⟨"world", "overworld", "terrain", 5, 0, 0⟩ rfl
  exact List.not_mem_nil flying

/-- Two gets of one tile, each with a read of its own, of which the first one fails. -/
def readTwice : List Action :=
  [.submit { loc := ⟨"world", "overworld", "terrain", 5, 0, 0⟩, ret := 0 },
    .submit { loc := ⟨"world", "overworld", "terrain", 5, 0, 0⟩, ret := 1 },
    .takeTask 1, .flush, .takeTask 2] ++
  readBack .openFails 3 ++ [.ioTake 1, .ioLoad 1 (.succeeds 4), .ioPush 1, .takeReturn 5]

theorem noStranded_readTwice :
    (machine sampleConfig).ReachesOnly NoStranded
      (State.initial sampleConfig fun _ => some ⟨some blankTile, 0⟩) readTwice :=
  (noStranded_iff sampleConfig (fun _ => some ⟨some blankTile, 0⟩) readTwice _
    (Machine.runs_exec_get (by decide))).mpr (Machine.stepsOnly_of_checkSteps (by decide))

end WebChunk.ImageCache
