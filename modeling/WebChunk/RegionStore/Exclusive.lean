import WebChunk.RegionStore.Transition

/-!
# One worker per region file

The router forgets a region as soon as it closes the worker's channel, and starts
another worker at the region's next request. Two workers then hold one region file
open unless the first one has finished by that time; this is the only way, since a
worker whose channel is open is never forgotten.
-/

namespace WebChunk.RegionStore

open WebChunk.Go WebChunk.Semantics

/-- No two workers hold the same region open. -/
def OneWorkerPerRegion (s : State) : Prop :=
  ∀ (i j : Nat) (first second : Worker), s.workers[i]? = some first →
    s.workers[j]? = some second → first.phase.holdsFile = true → second.phase.holdsFile = true →
    first.loc = second.loc → i = j

/-- The inductive form of `OneWorkerPerRegion`: it also counts the workers that have
yet to open their file. -/
def OneWorkerMayHold (s : State) : Prop :=
  ∀ (i j : Nat) (first second : Worker), s.workers[i]? = some first →
    s.workers[j]? = some second → first.phase.mayHoldFile = true →
    second.phase.mayHoldFile = true → first.loc = second.loc → i = j

/-- A worker whose channel is open is the one that its region's entry sends to. -/
def OpenEntered (w : Map RegionLocator RegionInterface) (workers : List Worker) : Prop :=
  ∀ (i : Nat) (worker : Worker), workers[i]? = some worker → worker.ch.closed = false →
    ∃ entry, w.get worker.loc = some entry ∧ entry.existing = true ∧ entry.c = i

/-- When the router starts a worker for a region it has no entry for, the earlier
workers of that region whose channel is closed have closed the region file or failed
to open it. -/
def startsAlone (s : State) : Action → Bool
  | .routerSchedule _ =>
      match s.router with
      | .scheduling loc _ _ =>
          (s.w.get loc).isSome || s.workers.all fun worker =>
            worker.loc != loc || !worker.ch.closed || !worker.phase.mayHoldFile
      | _ => true
  | _ => true

theorem mayHoldFile_of_holdsFile {phase : WorkerPhase} (holds : phase.holdsFile = true) :
    phase.mayHoldFile = true := by
  cases phase <;> simp_all [WorkerPhase.mayHoldFile, WorkerPhase.holdsFile]

/-- A library call never brings back a region file that the worker gave up. -/
theorem mayHoldFile_of_regionWorker {cfg : Config} {loc : RegionLocator} {files : Files}
    {phase : WorkerPhase} {answer : LibraryAnswer} {move : WorkerMove}
    (moves : regionWorker cfg loc files phase answer = some move) :
    phase.mayHoldFile = true := by
  unfold regionWorker at moves
  split at moves
  · rfl
  · rfl
  · rfl
  · cases moves

/-- What a step does to the workers: each of them keeps its region and does not
regain a file, except one that the router has just started. -/
theorem worker_of_transition {cfg : Config} {s next : State} {action : Action}
    (transition : Transition cfg s action next) {i : Nat} {worker : Worker}
    (found : next.workers[i]? = some worker) :
    (∃ before, s.workers[i]? = some before ∧ before.loc = worker.loc ∧
      (worker.phase.mayHoldFile = true → before.phase.mayHoldFile = true)) ∨
    (∃ now rest r, action = .routerSchedule now ∧ s.router = .scheduling worker.loc rest r ∧
      s.w.get worker.loc = none ∧ i = s.workers.length) := by
  -- A modified worker keeps its region; only its new phase has to be compared.
  have modified : ∀ {k : Nat} {f : Worker → Worker},
      (s.workers.modify k f)[i]? = some worker → (∀ before, (f before).loc = before.loc) →
      (∀ before, s.workers[k]? = some before → (f before).phase.mayHoldFile = true →
        before.phase.mayHoldFile = true) →
      ∃ before, s.workers[i]? = some before ∧ before.loc = worker.loc ∧
        (worker.phase.mayHoldFile = true → before.phase.mayHoldFile = true) := by
    intro k f changed keeps falls
    obtain ⟨before, stored, rfl⟩ := getElem?_modify_some changed
    refine ⟨before, stored, ?_, ?_⟩
    · split
      · exact (keeps before).symm
      · rfl
    · split
      · rename_i same
        subst same
        exact falls before stored
      · exact id
  cases transition with
  | workerCalls stored moves =>
      refine .inl (modified found (fun _ => rfl) fun before same _ => ?_)
      cases stored.symm.trans same
      exact mayHoldFile_of_regionWorker moves
  | workerTakes stored selecting _ =>
      refine .inl (modified found (fun _ => rfl) fun before same _ => ?_)
      cases stored.symm.trans same
      rw [selecting]
      rfl
  | workerEnds _ _ _ =>
      exact .inl (modified found (fun _ => rfl) fun _ _ falls => by
        simp [WorkerPhase.mayHoldFile, WorkerPhase.holdsFile] at falls)
  | workerDrained stored draining _ =>
      refine .inl (modified found (fun _ => rfl) fun before same falls => ?_)
      cases stored.symm.trans same
      rw [draining]
      split at falls <;> simp_all [WorkerPhase.mayHoldFile, WorkerPhase.holdsFile]
  | reports stored reporting _ =>
      refine .inl (modified found (fun _ => rfl) fun before same falls => ?_)
      cases stored.symm.trans same
      rw [reporting]
      exact falls
  | workerRefuses _ _ _ => exact .inl (modified found (fun _ => rfl) fun _ _ => id)
  | scheduleSends _ _ _ _ _ => exact .inl (modified found (fun _ => rfl) fun _ _ => id)
  | routerCloses _ _ _ _ => exact .inl (modified found (fun _ => rfl) fun _ _ => id)
  | routerStops _ _ | routerInactive _ _ _ =>
      obtain ⟨before, stored, rfl⟩ := getElem?_mapIdx_some found
      exact .inl ⟨before, stored, by split <;> rfl, by split <;> exact id⟩
  | @scheduleStarts now loc rest r inHand absent =>
      rcases getElem?_concat_some found with stored | ⟨index, rfl⟩
      · exact .inl ⟨worker, stored, rfl, id⟩
      · exact .inr ⟨now, rest, r, rfl, inHand, absent, index⟩
  | _ => exact .inl ⟨worker, found, rfl, id⟩

namespace OpenEntered

variable {w : Map RegionLocator RegionInterface} {workers : List Worker}

/-- A change of one worker that keeps its region and opens no channel. -/
theorem modify (entered : OpenEntered w workers) {k : Nat} {f : Worker → Worker}
    (region : ∀ worker, (f worker).loc = worker.loc)
    (opens : ∀ worker, workers[k]? = some worker → (f worker).ch.closed = false →
      worker.ch.closed = false) : OpenEntered w (workers.modify k f) := by
  intro i worker found isOpen
  obtain ⟨before, stored, rfl⟩ := getElem?_modify_some found
  by_cases same : k = i
  · simp only [same, if_true] at isOpen ⊢
    rw [region]
    exact entered i before stored (opens before (same ▸ stored) isOpen)
  · simp only [same, if_false] at isOpen ⊢
    exact entered i before stored isOpen

/-- The router writes back an entry it has read, with another time stamp. -/
theorem touch (entered : OpenEntered w workers) {loc : RegionLocator} {entry : RegionInterface}
    (found : w.get loc = some entry) (now : Int) :
    OpenEntered (w.set loc { entry with lastRequest := now }) workers := by
  intro i worker stored isOpen
  obtain ⟨named, get, existing, channel⟩ := entered i worker stored isOpen
  rw [Map.get_set]
  split
  · rename_i same
    rw [same] at get
    cases found.symm.trans get
    exact ⟨_, rfl, existing, channel⟩
  · exact ⟨named, get, existing, channel⟩

/-- The worker just started gets the entry of its region, which had none. -/
theorem start (entered : OpenEntered w workers) {loc : RegionLocator} (absent : w.get loc = none)
    (ch : Chan RegionRequest) (phase : WorkerPhase) (now : Int) :
    OpenEntered (w.set loc ⟨true, workers.length, now⟩) (workers ++ [⟨loc, ch, phase⟩]) := by
  intro i worker found isOpen
  rw [Map.get_set]
  rcases getElem?_concat_some found with stored | ⟨index, rfl⟩
  · obtain ⟨entry, get, existing, channel⟩ := entered i worker stored isOpen
    have different : worker.loc ≠ loc := fun same => by simp [same, absent] at get
    exact ⟨entry, by rw [if_neg different, get], existing, channel⟩
  · exact ⟨⟨true, workers.length, now⟩, if_pos rfl, rfl, index.symm⟩

/-- The region's channel is closed and its entry marked as not existing. -/
theorem closeRegion (entered : OpenEntered w workers) {loc : RegionLocator}
    {entry : RegionInterface} (found : w.get loc = some entry) :
    OpenEntered (w.set loc { entry with existing := false })
      (workers.modify entry.c fun worker => { worker with ch := worker.ch.close }) := by
  intro i worker stored isOpen
  obtain ⟨before, storedBefore, rfl⟩ := getElem?_modify_some stored
  by_cases same : entry.c = i
  · simp [same] at isOpen
  · simp only [same, if_false] at isOpen ⊢
    obtain ⟨named, get, existing, channel⟩ := entered i before storedBefore isOpen
    have different : before.loc ≠ loc := by
      intro region
      rw [region, found] at get
      cases get
      exact same channel
    exact ⟨named, by rw [Map.get_set, if_neg different, get], existing, channel⟩

/-- A worker whose channel survives the closing of all doomed entries has an entry
that is not doomed. -/
theorem spared {s : State} (entered : OpenEntered s.w s.workers)
    (doomed : RegionInterface → Bool) {i : Nat} {worker : Worker}
    (found : (s.closeEntries doomed).workers[i]? = some worker)
    (isOpen : worker.ch.closed = false) :
    ∃ entry, s.w.get worker.loc = some entry ∧ entry.existing = true ∧ entry.c = i ∧
      doomed entry = false := by
  obtain ⟨before, stored, rfl⟩ := getElem?_mapIdx_some found
  by_cases closing : s.closing doomed i = true
  · simp [closing] at isOpen
  · simp only [closing] at isOpen ⊢
    obtain ⟨entry, get, existing, channel⟩ := entered i before stored isOpen
    refine ⟨entry, get, existing, channel, ?_⟩
    rw [Bool.eq_false_iff]
    intro doom
    exact closing (State.closing_iff.mpr
      ⟨before.loc, State.closes_iff.mpr ⟨entry, get, existing, doom, channel⟩⟩)

/-- The step lemma of the open channels. It holds in every run. -/
theorem preserved {cfg : Config} {s next : State} {action : Action}
    (entered : OpenEntered s.w s.workers) (transition : Transition cfg s action next) :
    OpenEntered next.w next.workers := by
  cases transition with
  | routerStops _ _ =>
      intro i worker found isOpen
      obtain ⟨entry, get, existing, channel, _⟩ := entered.spared _ found isOpen
      exact ⟨entry, get, existing, channel⟩
  | routerInactive _ _ _ =>
      intro i worker found isOpen
      obtain ⟨entry, get, existing, channel, active⟩ := entered.spared _ found isOpen
      refine ⟨entry, ?_, existing, channel⟩
      simp only [State.closeInactive, Map.get_range]
      rw [show s.w.get worker.loc = some entry from get]
      simp [active]
  | routerCloses _ _ _ found => exact entered.closeRegion found
  | @scheduleSends _ _ _ _ entry ch after _ found _ channel sent =>
      have sends : OpenEntered s.w (s.setChannel entry.c after).workers := by
        refine entered.modify (fun _ => rfl) fun worker stored _ => ?_
        rw [State.channel, stored] at channel
        cases channel
        exact (Chan.send_sent sent).1
      exact sends.touch found _
  | scheduleAnswers _ found _ => exact entered.touch found _
  | scheduleStarts _ absent => exact entered.start absent _ _ _
  | workerTakes stored _ received | workerRefuses stored _ received =>
      refine entered.modify (fun _ => rfl) fun worker same isOpen => ?_
      cases stored.symm.trans same
      exact (Chan.receive_received received).2.symm.trans isOpen
  | workerCalls _ _ | workerEnds _ _ _ | workerDrained _ _ _ | reports _ _ _ =>
      exact entered.modify (fun _ => rfl) fun _ _ => id
  | _ => exact entered

end OpenEntered

/-- The step lemma of the invariant: only starting a worker can add a holder. -/
theorem OneWorkerMayHold.preserved {cfg : Config} {s next : State} {action : Action}
    (holds : OneWorkerMayHold s) (entered : OpenEntered s.w s.workers)
    (alone : startsAlone s action = true) (transition : Transition cfg s action next) :
    OneWorkerMayHold next := by
  -- A worker just started shares its region with no worker that may hold it: one with
  -- an open channel would have an entry, and the others have finished.
  have fresh : ∀ {now rest r loc} {k : Nat} {before : Worker}, action = .routerSchedule now →
      s.router = .scheduling loc rest r → s.w.get loc = none → s.workers[k]? = some before →
      before.loc = loc → before.phase.mayHoldFile = true → False := by
    intro now rest r loc k before called inHand absent stored region holding
    subst called
    simp only [startsAlone, inHand, absent, Option.isSome_none, Bool.false_or,
      List.all_eq_true] at alone
    have finished := alone before (List.mem_of_getElem? stored)
    have isOpen : before.ch.closed = false := by simpa [region, holding] using finished
    obtain ⟨entry, get, _⟩ := entered k before stored isOpen
    rw [region, absent] at get
    cases get
  intro i j first second atFirst atSecond firstHolds secondHolds region
  rcases worker_of_transition transition atFirst with
    ⟨before, stored, kept, falls⟩ | ⟨now, rest, r, called, inHand, absent, index⟩ <;>
  rcases worker_of_transition transition atSecond with
    ⟨before', stored', kept', falls'⟩ | ⟨now', rest', r', called', inHand', absent', index'⟩
  · exact holds i j before before' stored stored' (falls firstHolds) (falls' secondHolds)
      (kept.trans (region.trans kept'.symm))
  · exact (fresh called' inHand' absent' stored (kept.trans region) (falls firstHolds)).elim
  · exact (fresh called inHand absent stored' (kept'.trans region.symm) (falls' secondHolds)).elim
  · exact index.trans index'.symm

/-- In every run in which the router starts a worker only after those of that region
whose channel it has closed have finished with the file, no region is ever held open
twice. -/
theorem oneWorkerPerRegion (cfg : Config) (files : Files) (actions : List Action)
    (alone : (machine cfg).StepsOnly (fun s action => startsAlone s action = true)
      (State.initial cfg files) actions) :
    (machine cfg).ReachesOnly OneWorkerPerRegion (State.initial cfg files) actions := by
  have implies : ∀ {s : State}, OneWorkerMayHold s ∧ OpenEntered s.w s.workers →
      OneWorkerPerRegion s := by
    rintro s ⟨holds, _⟩ i j first second atFirst atSecond firstHolds secondHolds
    exact holds i j first second atFirst atSecond (mayHoldFile_of_holdsFile firstHolds)
      (mayHoldFile_of_holdsFile secondHolds)
  refine alone.reachesOnly implies ?_ ⟨?_, ?_⟩
  · rintro s next action ⟨holds, entered⟩ alone transition
    obtain ⟨_, transition⟩ := transition_of_step transition
    exact ⟨holds.preserved entered alone transition, entered.preserved transition⟩
  · intro i j first second atFirst
    simp [State.initial] at atFirst
  · intro i worker found
    simp [State.initial] at found

/-- A region is closed for inactivity while its worker still has it open, and is
requested again. -/
def reopenedTooEarly : List Action :=
  (ClientCall.getChunkRaw "world" "overworld" 0 0).schedule 0 0 ++
  [.workerCall 0 (.opened (.ok ())), .workerCall 0 (.read (.error .noSector)),
    .tick, .tickSend, .routerReceive 61000000000] ++
  (ClientCall.getChunkRaw "world" "overworld" 1 0).schedule 1 61000000000 ++
  [.workerCall 1 (.opened (.ok ()))]

/-- Two workers hold one region file after an inactivity tick. -/
theorem two_workers_hold_region : ∃ (cfg : Config) (files : Files) (actions : List Action)
    (final : State), (machine cfg).Runs (State.initial cfg files) actions final ∧
      ¬ OneWorkerPerRegion final := by
  refine ⟨sampleConfig, fun _ => some fun _ => none, reopenedTooEarly, _,
    Machine.runs_exec_get (by decide), fun alone => ?_⟩
  exact absurd (alone 0 1 _ _ rfl rfl rfl rfl rfl) (by decide)

/-- The same region, requested again after its first worker has ended. -/
def reopenedAfterDrain : List Action :=
  (ClientCall.getChunkRaw "world" "overworld" 0 0).schedule 0 0 ++
  [.workerCall 0 (.opened (.ok ())), .workerCall 0 (.read (.error .noSector)),
    .tick, .tickSend, .routerReceive 61000000000, .workerReceive 0] ++
  (ClientCall.getChunkRaw "world" "overworld" 1 0).schedule 1 61000000000 ++
  [.workerCall 1 (.opened (.ok ()))]

theorem oneWorkerPerRegion_reopened :
    (machine sampleConfig).ReachesOnly OneWorkerPerRegion
      (State.initial sampleConfig fun _ => some fun _ => none) reopenedAfterDrain :=
  oneWorkerPerRegion sampleConfig (fun _ => some fun _ => none) reopenedAfterDrain
    (Machine.stepsOnly_of_checkSteps (by decide))

end WebChunk.RegionStore
