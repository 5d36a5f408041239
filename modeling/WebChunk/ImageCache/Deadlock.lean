import WebChunk.ImageCache.Waiters
import WebChunk.Semantics.Processes

/-!
# Deadlock of the image cache

The processor fills `ioTasks` and empties `ioReturn`, the IO workers do the opposite, and
after the context was cancelled nobody empties `ioReturn`. Reads in flight take up room:
one in the processor's hand, those in the two channels, and one at each worker.
-/

namespace WebChunk.ImageCache

open WebChunk.Go WebChunk.Semantics

/-- The processor waits at a channel: with a read in its hand for room in `ioTasks`, or in
its select for a task or a return. -/
def State.processorWaits (s : State) : Prop :=
  match s.p.hand with
  | task :: _ => s.ioTasks.send task = .blocked
  | [] => s.ready = true ∧ s.tasks.receive = .blocked ∧ s.ioReturn.receive = .blocked

/-- The worker waits at a channel or has returned. -/
def State.workerWaits (s : State) : IoWorker → Prop
  | .idle => s.ioTasks.receive = .blocked
  | .holding _ => False
  | .returning task => s.ioReturn.send task = .blocked
  | .ended => True

/-- The context was cancelled: the processor never comes back to its select. -/
def State.cancelled (s : State) : Bool :=
  match s.phase with
  | .selecting => false
  | .saving _ final => final
  | .stopped => true

/-- Tasks, reads or returns are pending. -/
def State.pending (s : State) : Prop := s.tasks.buffer ≠ [] ∨ s.inFlight ≠ []

/-- Nobody can go on: the processor and all workers wait with something pending, or, after
the context was cancelled, `WaitExit` waits for a worker that waits itself. -/
def Deadlocked (s : State) : Prop :=
  s.panicked = none ∧
    (s.processorWaits ∧ (∀ worker ∈ s.workers, s.workerWaits worker) ∧ s.pending ∨
      s.cancelled = true ∧ ∃ task, .returning task ∈ s.workers ∧ s.workerWaits (.returning task))

/-- The processor has to read a file for the task. -/
def Processor.needsRead (p : Processor) (task : CacheTask) : Bool :=
  match task.img with
  | none =>
      decide (task.loc.S = StorageLevel) && (p.cache.get task.loc).isNone ||
        decide (task.loc.S < StorageLevel) &&
          (getStorageLevelLoc task.loc).any fun loc => (p.cache.get loc).isNone
  | some _ =>
      decide (task.loc.S = StorageLevel ∨ task.loc.S = 0) && (p.cache.get task.loc).isNone

/-- A task that needs a read is taken only while the channels and the workers have room for
one more, and the context is cancelled only while `ioReturn` has room for all that are in
flight. -/
def keepsRoom (cfg : Config) (s : State) : Action → Bool
  | .takeTask _ =>
      match s.tasks.buffer with
      | task :: _ =>
          !s.p.needsRead task ||
            decide (s.inFlight.length < 2 * cfg.ioQueueLen + cfg.ioProcessors)
      | [] => true
  | .cancel => decide (s.inFlight.length ≤ cfg.ioQueueLen)
  | _ => true

/-- The worker has a task. -/
def IoWorker.busy (worker : IoWorker) : Bool := worker.location.isSome

theorem inFlight_length (s : State) : s.inFlight.length =
    s.p.hand.length + s.ioTasks.buffer.length + s.workers.countP IoWorker.busy +
      s.ioReturn.buffer.length := by
  simp only [State.inFlight, inFlight, List.length_append, List.length_map,
    List.length_filterMap_eq_countP]
  rfl

/-- Only a task that needs a read puts one into the hand. -/
theorem hand_length_of_taskStep {p next : Processor} {task : CacheTask} {now : Int}
    (taken : TaskStep p task now next) :
    next.hand.length ≤ p.hand.length + if p.needsRead task then 1 else 0 := by
  cases taken with
  | nativeMiss isGet native miss =>
      have needs : p.needsRead task = true := by simp [Processor.needsRead, isGet, native, miss]
      simp [Processor.read, Processor.wait, needs]
  | smallerMiss isGet smaller tile miss =>
      have needs : p.needsRead task = true := by
        simp [Processor.needsRead, isGet, smaller, tile, miss]
      simp [Processor.read, Processor.wait, needs]
  | setMiss isSet scale miss tile =>
      have needs : p.needsRead task = true := by simp [Processor.needsRead, isSet, scale, miss]
      simp [Processor.read, needs]
  | _ => exact Nat.le_add_right _ _

/-- The reads in flight fit into the two channels and the workers, and once the context was
cancelled they fit into `ioReturn`. -/
structure HasRoom (cfg : Config) (s : State) : Prop where
  reads : ReadsOnly s
  queue : s.ioTasks.capacity = cfg.ioQueueLen
  back : s.ioReturn.capacity = cfg.ioQueueLen
  crew : s.workers.length = cfg.ioProcessors
  closed : s.ioTasks.closed = true → s.phase = .stopped
  ended : .ended ∈ s.workers → s.ioTasks.closed = true
  quiet : s.cancelled = true → s.p.hand = []
  room : s.inFlight.length ≤ 2 * cfg.ioQueueLen + cfg.ioProcessors
  roomBack : s.cancelled = true → s.inFlight.length ≤ cfg.ioQueueLen

namespace HasRoom

variable {cfg : Config} {s next : State} {action : Action}

theorem initial (cfg : Config) (disk : Disk) : HasRoom cfg (State.initial cfg disk) where
  reads := readsOnly_initial cfg disk
  queue := rfl
  back := rfl
  crew := by simp [State.initial]
  closed isClosed := by cases isClosed
  ended member := by cases List.eq_of_mem_replicate member
  quiet _ := rfl
  room := by
    rw [inFlight_length]
    simp [State.initial, List.countP_replicate, IoWorker.busy, IoWorker.location]
  roomBack isCancelled := by cases isCancelled

/-- A processor at its select was not cancelled, and has nothing in its hand. -/
theorem of_ready (ready : s.ready = true) : s.cancelled = false ∧ s.p.hand = [] := by
  unfold State.ready at ready
  split at ready
  · rename_i selecting
    exact ⟨by simp [State.cancelled, selecting], by simpa using ready⟩
  · cases ready

theorem not_stopped_of_ready (ready : s.ready = true) : ¬ s.phase = .stopped := by
  intro stopped
  simp [State.ready, stopped] at ready

/-- A worker moves on, and what it has is taken from a channel or put into one. -/
theorem workerMoves (hasRoom : HasRoom cfg s) (reads : ReadsOnly next) {i : Nat}
    {old : IoWorker} (new : IoWorker) (found : s.workers[i]? = some old)
    (moved : next.workers = s.workers.set i new) (same : next.p = s.p ∧ next.phase = s.phase)
    (queue : next.ioTasks.capacity = s.ioTasks.capacity ∧ next.ioTasks.closed = s.ioTasks.closed)
    (back : next.ioReturn.capacity = s.ioReturn.capacity)
    (ends : new = .ended → s.ioTasks.closed = true)
    (kept : next.ioTasks.buffer.length + next.ioReturn.buffer.length +
        (if new.busy then 1 else 0) =
      s.ioTasks.buffer.length + s.ioReturn.buffer.length + if old.busy then 1 else 0) :
    HasRoom cfg next := by
  have busy := countP_set_of_some (p := IoWorker.busy) (b := new) found
  have total : next.inFlight.length = s.inFlight.length := by
    rw [inFlight_length, inFlight_length, moved, same.1]
    omega
  have sameCancelled : next.cancelled = s.cancelled := by simp [State.cancelled, same.2]
  exact {
    reads := reads
    queue := queue.1.trans hasRoom.queue
    back := back.trans hasRoom.back
    crew := by rw [moved, List.length_set, hasRoom.crew]
    closed := fun isClosed => same.2.trans (hasRoom.closed (queue.2 ▸ isClosed))
    ended := fun member => by
      rw [queue.2]
      rw [moved] at member
      exact (List.mem_or_eq_of_mem_set member).elim hasRoom.ended fun new => ends new.symm
    quiet := fun isCancelled => same.1 ▸ hasRoom.quiet (sameCancelled ▸ isCancelled)
    room := total ▸ hasRoom.room
    roomBack := fun isCancelled => total ▸ hasRoom.roomBack (sameCancelled ▸ isCancelled) }

/-- The step lemma. -/
theorem preserved (hasRoom : HasRoom cfg s) (keeps : keepsRoom cfg s action = true)
    (transition : step cfg s action = some next) : HasRoom cfg next := by
  obtain ⟨_, transition⟩ := transition_of_step transition
  have reads : ReadsOnly next := hasRoom.reads.preserved transition
  have room := hasRoom.room
  have roomBack := hasRoom.roomBack
  rw [inFlight_length] at room roomBack
  cases transition with
  | submits _ => exact { hasRoom with reads := reads }
  | @takes now task tasks p ready received processed =>
      obtain ⟨selecting, empty⟩ := of_ready ready
      have front := (Chan.receive_received received).1
      have grows := hand_length_of_taskStep (taskStep_of_processTask processed)
      refine { hasRoom with reads := reads, quiet := ?_, room := ?_, roomBack := ?_ }
      · intro isCancelled
        cases selecting.symm.trans isCancelled
      · rw [inFlight_length]
        simp only [keepsRoom, front, Bool.or_eq_true, Bool.not_eq_true', decide_eq_true_eq] at keeps
        rw [inFlight_length] at keeps
        rcases keeps with needless | fits
        · simp only [needless, Bool.false_eq_true, if_false] at grows
          dsimp only
          omega
        · dsimp only
          split at grows <;> omega
      · intro isCancelled
        cases selecting.symm.trans isCancelled
  | taskPanics _ _ _ => exact { hasRoom with reads := reads }
  | @returns now task ioReturn p ready received processed =>
      obtain ⟨selecting, empty⟩ := of_ready ready
      have front := (Chan.receive_received received).1
      have sameHand : p.hand = s.p.hand := by
        rcases hasRoom.reads.wokenReturn received processed with ⟨_, rfl⟩ | ⟨_, _, _, woken⟩
        · rfl
        · exact woken.hand
      refine { hasRoom with reads := reads, back := ?_, quiet := ?_, room := ?_, roomBack := ?_ }
      · rw [Chan.receive_capacity received, hasRoom.back]
      · intro isCancelled
        cases selecting.symm.trans isCancelled
      · rw [front, List.length_cons] at room
        rw [inFlight_length]
        dsimp only
        rw [sameHand]
        omega
      · intro isCancelled
        cases selecting.symm.trans isCancelled
  | returnPanics ready received _ =>
      obtain ⟨selecting, _⟩ := of_ready ready
      have front := (Chan.receive_received received).1
      refine { hasRoom with reads := reads, back := ?_, room := ?_, roomBack := ?_ }
      · rw [Chan.receive_capacity received, hasRoom.back]
      · rw [front, List.length_cons] at room
        rw [inFlight_length]
        dsimp only
        omega
      · intro isCancelled
        cases selecting.symm.trans isCancelled
  | flushes hand sent =>
      obtain ⟨isOpen, rfl⟩ := Chan.send_sent sent
      have full : ¬ s.cancelled = true := fun isCancelled => by
        cases hand.symm.trans (hasRoom.quiet isCancelled)
      refine { hasRoom with
        reads := reads, quiet := fun isCancelled => absurd isCancelled full, room := ?_,
        roomBack := fun isCancelled => absurd isCancelled full }
      rw [hand, List.length_cons] at room
      rw [inFlight_length]
      simp only [List.length_append, List.length_singleton]
      omega
  | autosaves ready =>
      have selecting := not_stopped_of_ready ready
      exact { hasRoom with
        reads := reads, closed := fun isClosed => absurd (hasRoom.closed isClosed) selecting,
        quiet := nofun, roomBack := nofun }
  | keeps saving _ _ | saveFails saving _ _ _ | saves saving _ _ _ _ | savePanics saving _ _ _ _ =>
      refine { hasRoom with
        reads := reads, closed := fun isClosed => ?_, quiet := fun final => ?_,
        roomBack := fun final => ?_ }
      · cases saving.symm.trans (hasRoom.closed isClosed)
      · exact hasRoom.quiet (by simpa [State.cancelled, saving] using final)
      · exact hasRoom.roomBack (by simpa [State.cancelled, saving] using final)
  | saved saving =>
      refine { hasRoom with
        reads := reads, closed := fun isClosed => ?_, quiet := nofun, roomBack := nofun }
      cases saving.symm.trans (hasRoom.closed isClosed)
  | savedLast saving =>
      have isCancelled : s.cancelled = true := by simp [State.cancelled, saving]
      exact { hasRoom with
        reads := reads, closed := fun _ => rfl, ended := fun _ => rfl,
        quiet := fun _ => hasRoom.quiet isCancelled,
        roomBack := fun _ => hasRoom.roomBack isCancelled }
  | unloads _ => exact { hasRoom with reads := reads }
  | cancels ready =>
      have selecting := not_stopped_of_ready ready
      exact { hasRoom with
        reads := reads, closed := fun isClosed => absurd (hasRoom.closed isClosed) selecting,
        quiet := fun _ => (of_ready ready).2, roomBack := fun _ => of_decide_eq_true keeps }
  | @ioTakes i task ioTasks found received =>
      obtain ⟨front, sameClosed⟩ := Chan.receive_received received
      refine hasRoom.workerMoves reads (.holding task) found rfl ⟨rfl, rfl⟩
        ⟨Chan.receive_capacity received, sameClosed⟩ rfl nofun ?_
      simp [front, IoWorker.busy, IoWorker.location]
      omega
  | ioEnds found drained =>
      exact hasRoom.workerMoves reads .ended found rfl ⟨rfl, rfl⟩ ⟨rfl, rfl⟩ rfl
        (fun _ => Chan.receive_drained drained) rfl
  | @ioLoads i outcome loc img disk found _ =>
      exact hasRoom.workerMoves reads (.returning ⟨loc, img⟩) found rfl ⟨rfl, rfl⟩ ⟨rfl, rfl⟩ rfl
        nofun rfl
  | ioSaves found => cases hasRoom.reads.holding _ _ found
  | @ioPushes i task ioReturn found sent =>
      obtain ⟨_, rfl⟩ := Chan.send_sent sent
      refine hasRoom.workerMoves reads .idle found rfl ⟨rfl, rfl⟩ ⟨rfl, rfl⟩ rfl nofun ?_
      simp [IoWorker.busy, IoWorker.location]
      omega

/-- With a read in the processor's hand, all workers cannot wait: together they would have
more reads than there is room for. -/
theorem not_filled (hasRoom : HasRoom cfg s) (queueLen : 0 < cfg.ioQueueLen)
    (processors : 0 < cfg.ioProcessors) {task : CacheTaskIo} {rest : List CacheTaskIo}
    (hand : s.p.hand = task :: rest) (blocked : s.ioTasks.send task = .blocked)
    (waits : ∀ worker ∈ s.workers, s.workerWaits worker) : False := by
  obtain ⟨isOpen, full⟩ := Chan.send_blocked_iff.mp blocked
  rw [hasRoom.queue] at full
  have returning : ∀ worker ∈ s.workers, worker.busy = true ∧
      cfg.ioQueueLen ≤ s.ioReturn.buffer.length := by
    intro worker member
    have waits := waits worker member
    cases worker with
    | idle =>
        have empty := (Chan.receive_blocked_iff.mp waits).1
        rw [empty, List.length_nil] at full
        omega
    | holding _ => exact waits.elim
    | returning back => exact ⟨rfl, hasRoom.back ▸ (Chan.send_blocked_iff.mp waits).2⟩
    | ended => cases isOpen.symm.trans (hasRoom.ended member)
  have busy : s.workers.countP IoWorker.busy = cfg.ioProcessors :=
    (List.countP_eq_length.mpr fun worker member => (returning worker member).1).trans hasRoom.crew
  obtain ⟨worker, member⟩ : ∃ worker, worker ∈ s.workers :=
    List.exists_mem_of_length_pos (by rw [hasRoom.crew]; exact processors)
  have back := (returning worker member).2
  have room := hasRoom.room
  rw [inFlight_length, hand, List.length_cons] at room
  omega

/-- When the processor and all workers wait for tasks, nothing is pending. -/
theorem not_pending (hasRoom : HasRoom cfg s) (queueLen : 0 < cfg.ioQueueLen)
    (processors : 0 < cfg.ioProcessors) (ready : s.ready = true)
    (noTask : s.tasks.receive = .blocked) (noReturn : s.ioReturn.receive = .blocked)
    (waits : ∀ worker ∈ s.workers, s.workerWaits worker) : ¬ s.pending := by
  have noReturn := (Chan.receive_blocked_iff.mp noReturn).1
  have idle : ∀ worker ∈ s.workers, worker.busy = false ∧ s.ioTasks.buffer = [] := by
    intro worker member
    have waits := waits worker member
    cases worker with
    | idle => exact ⟨rfl, (Chan.receive_blocked_iff.mp waits).1⟩
    | holding _ => exact waits.elim
    | returning back =>
        have full := (Chan.send_blocked_iff.mp waits).2
        rw [hasRoom.back, noReturn, List.length_nil] at full
        omega
    | ended =>
        exact absurd (hasRoom.closed (hasRoom.ended member)) (not_stopped_of_ready ready)
  obtain ⟨worker, member⟩ : ∃ worker, worker ∈ s.workers :=
    List.exists_mem_of_length_pos (by rw [hasRoom.crew]; exact processors)
  have nobody : s.workers.countP IoWorker.busy = 0 :=
    List.countP_eq_zero.mpr fun worker member => by simp [(idle worker member).1]
  have empty : s.inFlight.length = 0 := by
    rw [inFlight_length, (of_ready ready).2, (idle worker member).2, noReturn, nobody]
    rfl
  rintro (task | flying)
  · exact task (Chan.receive_blocked_iff.mp noTask).1
  · exact flying (List.eq_nil_of_length_eq_zero empty)

/-- What has room is not deadlocked. -/
theorem not_deadlocked (hasRoom : HasRoom cfg s) (queueLen : 0 < cfg.ioQueueLen)
    (processors : 0 < cfg.ioProcessors) : ¬ Deadlocked s := by
  rintro ⟨_, ⟨processor, workers, pending⟩ | ⟨isCancelled, task, member, waits⟩⟩
  · unfold State.processorWaits at processor
    split at processor
    · rename_i task rest hand
      exact hasRoom.not_filled queueLen processors hand processor workers
    · obtain ⟨ready, noTask, noReturn⟩ := processor
      exact hasRoom.not_pending queueLen processors ready noTask noReturn workers pending
  · have full := (Chan.send_blocked_iff.mp waits).2
    rw [hasRoom.back] at full
    have busy : 0 < s.workers.countP IoWorker.busy := List.countP_pos_iff.mpr ⟨_, member, rfl⟩
    have room := hasRoom.roomBack isCancelled
    rw [inFlight_length] at room
    omega

end HasRoom

/-- A run whose steps all leave room reaches no deadlock. -/
theorem not_deadlocked_of_keepsRoom (cfg : Config) (disk : Disk) (queueLen : 0 < cfg.ioQueueLen)
    (processors : 0 < cfg.ioProcessors) (actions : List Action)
    (steps : (machine cfg).StepsOnly (fun s action => keepsRoom cfg s action = true)
      (State.initial cfg disk) actions) :
    (machine cfg).ReachesOnly (fun s => ¬ Deadlocked s) (State.initial cfg disk) actions :=
  steps.reachesOnly (fun hasRoom => hasRoom.not_deadlocked queueLen processors)
    HasRoom.preserved (.initial cfg disk)

/-- A cache with the smallest channels and one worker. -/
def smallestConfig : Config where
  root := "cachedImages"
  taskQueueLen := 1
  ioQueueLen := 1
  ioProcessors := 1

/-- A get of the tile in column `x`, taken by the processor. -/
def getTile (x : Int) : List Action :=
  [.submit { loc := ⟨"world", "overworld", "terrain", 5, x, 0⟩ }, .takeTask 1]

/-- Four gets of tiles that are not in the cache. No return is taken meanwhile. -/
def fourGets : List Action :=
  getTile 0 ++ [.flush, .ioTake 0, .ioLoad 0 (.succeeds 1), .ioPush 0] ++
  getTile 1 ++ [.flush, .ioTake 0, .ioLoad 0 (.succeeds 1)] ++
  getTile 2 ++ [.flush] ++ getTile 3

/-- The fourth read has no room in `ioTasks`, and the second one none in `ioReturn`. -/
theorem four_gets_deadlock : ∃ (cfg : Config) (disk : Disk) (actions : List Action)
    (final : State), 0 < cfg.taskQueueLen ∧ 0 < cfg.ioQueueLen ∧ 0 < cfg.ioProcessors ∧
      (machine cfg).Runs (State.initial cfg disk) actions final ∧ Deadlocked final := by
  refine ⟨smallestConfig, fun _ => none, fourGets, _, by decide, by decide, by decide,
    Machine.runs_exec_get (by decide), rfl, .inl ⟨?_, ?_, .inr ?_⟩⟩
  · rfl
  · intro worker member
    cases List.mem_singleton.mp member
    rfl
  · exact List.cons_ne_nil _ _

/-- The third get waits until a return was taken. -/
def threeGets : List Action :=
  getTile 0 ++ [.flush, .ioTake 0, .ioLoad 0 (.succeeds 1), .ioPush 0] ++
  getTile 1 ++ [.flush, .ioTake 0, .ioLoad 0 (.succeeds 1)] ++
  getTile 2 ++ [.flush, .takeReturn 2, .ioPush 0] ++ getTile 3

theorem three_gets_not_deadlocked :
    (machine smallestConfig).ReachesOnly (fun s => ¬ Deadlocked s)
      (State.initial smallestConfig fun _ => none) threeGets :=
  not_deadlocked_of_keepsRoom smallestConfig (fun _ => none) (by decide) (by decide) threeGets
    (Machine.stepsOnly_of_checkSteps (by decide))

end WebChunk.ImageCache
