import WebChunk.RegionStore.ChannelSafety
import WebChunk.RegionStore.WaitGroup

/-!
# `Close` as a barrier

When `Close` returns, the wait group is at zero. Then the router and all workers have
returned, and each of them leaves only when its channel is closed and empty.
-/

namespace WebChunk.RegionStore

open WebChunk.Go WebChunk.Semantics

/-- Nothing is left behind: no request in a channel, no worker, no open region file, and no
request that the router has not passed to a worker or answered. -/
structure Drained (c : Counted) : Prop where
  requests : c.store.requests.buffer = []
  workers : ∀ (i : Nat) (worker : Worker), c.store.workers[i]? = some worker →
    worker.ch.buffer = [] ∧ worker.phase = .ended
  files : ∀ i ∈ c.opened, i ∈ c.closed
  calls : ∀ (id : Nat) (call : Call), c.store.calls[id]? = some call → call.phase ≠ .sending →
    call.call.request id ∈ c.handed

/-- The router's loops find a region for the call: a count needs its upper corner in a
further region than its lower corner, on both axes. -/
def ClientCall.namesRegion : ClientCall → Bool
  | getChunksCountRegion _ _ cx0 cz0 cx1 cz1 =>
      let (x0, z0, x1, z1) := normalizeCoords cx0 cz0 cx1 cz1
      let (rx1, rz1) := regionAt x0 z0
      let (rx2, rz2) := regionAt x1 z1
      rx1 < rx2 && rz1 < rz2
  | _ => true

/-- What a step does to one worker that is there already. -/
inductive WorkerStep (cfg : Config) (s : State) (i : Nat) (before : Worker) :
    Action → Worker → Prop where
  | closes {action : Action} {after : Worker} (phase : after.phase = before.phase)
      (channel : after.ch = before.ch ∨ after.ch = before.ch.close) :
      WorkerStep cfg s i before action after
  | gets {now : Int} {r : RegionRequest} {after : Worker} (phase : after.phase = before.phase)
      (sent : before.ch.send r = .sent after.ch) :
      WorkerStep cfg s i before (.routerSchedule now) after
  | calls {answer : LibraryAnswer} {move : WorkerMove} {files : Files} {after : Worker}
      (moves : regionWorker cfg before.loc files before.phase answer = some move)
      (phase : after.phase = move.phase) (channel : after.ch = before.ch) :
      WorkerStep cfg s i before (.workerCall i answer) after
  | takes {r : RegionRequest} {after : Worker} (selecting : before.phase = .selecting)
      (received : before.ch.receive = .received r after.ch) (phase : after.phase = .processing r) :
      WorkerStep cfg s i before (.workerReceive i) after
  | ends {after : Worker} (selecting : before.phase = .selecting)
      (drained : before.ch.receive = .drained) (phase : after.phase = .ended)
      (channel : after.ch = before.ch) : WorkerStep cfg s i before (.workerReceive i) after
  | refuses {err : RegionError} {held : Bool} {r : RegionRequest} {after : Worker}
      (draining : before.phase = .draining err held)
      (received : before.ch.receive = .received r after.ch) (phase : after.phase = before.phase) :
      WorkerStep cfg s i before (.workerReceive i) after
  | drains {err : RegionError} {held : Bool} {after : Worker}
      (draining : before.phase = .draining err held) (drained : before.ch.receive = .drained)
      (phase : after.phase = if held then .selecting else .ended)
      (channel : after.ch = before.ch) : WorkerStep cfg s i before (.workerReceive i) after
  | reports {err : RegionError} {held : Bool} {after : Worker}
      (reporting : before.phase = .reporting err held) (phase : after.phase = .draining err held)
      (channel : after.ch = before.ch) : WorkerStep cfg s i before (.workerReport i) after

/-- Every worker after a step was there before, or was started by the step. -/
theorem workerStep_of_transition {cfg : Config} {s next : State} {action : Action}
    (transition : Transition cfg s action next) {i : Nat} {after : Worker}
    (found : next.workers[i]? = some after) :
    (∃ before, s.workers[i]? = some before ∧ WorkerStep cfg s i before action after) ∨
      .worker i ∈ s.startsWorker action ∧ ∃ r, after.phase = .opening r := by
  -- A step that modifies worker `k` leaves the others as they are.
  have modified : ∀ {k : Nat} {f : Worker → Worker} {worker : Worker},
      s.workers[k]? = some worker → (s.workers.modify k f)[i]? = some after →
      (k = i → WorkerStep cfg s i worker action (f worker)) →
      ∃ before, s.workers[i]? = some before ∧ WorkerStep cfg s i before action after := by
    intro k f worker stored changed steps
    obtain ⟨before, storedBefore, rfl⟩ := getElem?_modify_some changed
    refine ⟨before, storedBefore, ?_⟩
    split
    · rename_i same
      subst same
      cases stored.symm.trans storedBefore
      exact steps rfl
    · exact .closes rfl (.inl rfl)
  cases transition with
  | routerStops _ _ | routerInactive _ _ _ =>
      obtain ⟨before, stored, rfl⟩ := getElem?_mapIdx_some found
      refine .inl ⟨before, stored, ?_⟩
      split
      · exact .closes rfl (.inr rfl)
      · exact .closes rfl (.inl rfl)
  | @routerCloses now r requests entry _ _ _ _ =>
      obtain ⟨before, stored, rfl⟩ := getElem?_modify_some found
      refine .inl ⟨before, stored, ?_⟩
      split
      · exact .closes rfl (.inr rfl)
      · exact .closes rfl (.inl rfl)
  | @scheduleSends now loc rest r entry ch sentTo _ _ _ channel sent =>
      obtain ⟨worker, backing, rfl⟩ := Option.map_eq_some_iff.mp channel
      exact .inl (modified backing found fun _ => .gets rfl sent)
  | scheduleStarts inHand absent =>
      rcases getElem?_concat_some found with stored | ⟨rfl, rfl⟩
      · exact .inl ⟨after, stored, .closes rfl (.inl rfl)⟩
      · exact .inr ⟨by simp [State.startsWorker, inHand, absent], _, rfl⟩
  | workerCalls stored moves =>
      refine .inl (modified stored found ?_)
      rintro rfl
      exact .calls moves rfl rfl
  | workerTakes stored selecting received =>
      refine .inl (modified stored found ?_)
      rintro rfl
      exact .takes selecting received rfl
  | workerEnds stored selecting drained =>
      refine .inl (modified stored found ?_)
      rintro rfl
      exact .ends selecting drained rfl rfl
  | workerRefuses stored draining received =>
      refine .inl (modified stored found ?_)
      rintro rfl
      exact .refuses draining received rfl
  | workerDrained stored draining drained =>
      refine .inl (modified stored found ?_)
      rintro rfl
      exact .drains draining drained rfl rfl
  | reports stored reporting _ =>
      refine .inl (modified stored found ?_)
      rintro rfl
      exact .reports reporting rfl rfl
  | _ => exact .inl ⟨after, found, .closes rfl (.inl rfl)⟩

/-- A library call does not end the worker, and leaves it with its file open if it was, or if
the call opened it. -/
theorem regionWorker_phase {cfg : Config} {loc : RegionLocator} {files : Files}
    {phase : WorkerPhase} {answer : LibraryAnswer} {move : WorkerMove}
    (moves : regionWorker cfg loc files phase answer = some move) :
    move.phase ≠ .ended ∧ (phase.holdsFile = true ∨ answer = .opened (.ok ()) ∨
      answer = .created (.ok ()) → move.phase.holdsFile = true) := by
  unfold regionWorker at moves
  split at moves
  · rename_i initial result
    cases moves
    unfold openRegion
    split
    · exact ⟨nofun, fun _ => rfl⟩
    · split
      · exact ⟨nofun, fun holds => by simp [WorkerPhase.holdsFile] at holds⟩
      · exact ⟨nofun, fun holds => by simp [WorkerPhase.holdsFile] at holds⟩
    · exact ⟨nofun, fun holds => by simp [WorkerPhase.holdsFile] at holds⟩
  · rename_i initial result
    cases moves
    unfold createRegion
    split
    · exact ⟨nofun, fun _ => rfl⟩
    · exact ⟨nofun, fun holds => by simp [WorkerPhase.holdsFile] at holds⟩
  · unfold processRequest at moves
    split at moves
    case h_4 => split at moves <;> cases moves <;> exact ⟨nofun, fun _ => rfl⟩
    all_goals cases moves <;> exact ⟨nofun, fun _ => rfl⟩
  · cases moves

namespace WorkerStep

variable {cfg : Config} {s : State} {i : Nat} {before after : Worker} {action : Action}

/-- A worker that has returned does nothing more. -/
theorem stays_ended (step : WorkerStep cfg s i before action after)
    (ended : before.phase = .ended) : after.phase = .ended := by
  cases step with
  | closes phase _ => exact phase.trans ended
  | gets phase _ => exact phase.trans ended
  | calls moves _ _ =>
      rw [ended] at moves
      cases moves
  | takes other _ _ | ends other _ _ _ | refuses other _ _ | drains other _ _ _
  | reports other _ _ => cases ended.symm.trans other

/-- A worker returns when its channel is closed and empty, and it stays so. -/
theorem ended_drained (step : WorkerStep cfg s i before action after)
    (drained : before.phase = .ended → before.ch.closed = true ∧ before.ch.buffer = [])
    (ended : after.phase = .ended) : after.ch.closed = true ∧ after.ch.buffer = [] := by
  cases step with
  | closes phase channel =>
      obtain ⟨isClosed, empty⟩ := drained (phase.symm.trans ended)
      rcases channel with same | closed
      · exact same ▸ ⟨isClosed, empty⟩
      · exact closed ▸ ⟨rfl, empty⟩
  | gets phase sent =>
      have isOpen := (Chan.send_sent sent).1
      cases isOpen.symm.trans (drained (phase.symm.trans ended)).1
  | calls moves phase _ => exact absurd (phase.symm.trans ended) (regionWorker_phase moves).1
  | takes _ _ phase => cases phase.symm.trans ended
  | ends _ empty _ channel =>
      exact channel ▸ ⟨Chan.receive_drained empty, Chan.buffer_drained empty⟩
  | refuses draining _ phase => cases draining.symm.trans (phase.symm.trans ended)
  | drains _ empty _ channel =>
      exact channel ▸ ⟨Chan.receive_drained empty, Chan.buffer_drained empty⟩
  | reports _ phase _ => cases phase.symm.trans ended

/-- A worker that has its region file open keeps it open until it closes it. -/
theorem holdsFile (step : WorkerStep cfg s i before action after)
    (found : s.workers[i]? = some before) (holds : before.phase.holdsFile = true) :
    after.phase.holdsFile = true ∨ i ∈ s.closesFile action := by
  cases step with
  | closes phase _ => exact .inl (phase ▸ holds)
  | gets phase _ => exact .inl (phase ▸ holds)
  | calls moves phase _ => exact .inl (phase ▸ (regionWorker_phase moves).2 (.inl holds))
  | takes _ _ phase => exact .inl (phase ▸ rfl)
  | ends selecting drained _ _ =>
      obtain ⟨loc, ch, phase⟩ := before
      cases selecting
      exact .inr (by simp [State.closesFile, found, drained])
  | refuses _ _ phase => exact .inl (phase ▸ holds)
  | drains draining _ phase _ =>
      rw [draining, WorkerPhase.holdsFile] at holds
      exact .inl (by rw [phase, if_pos holds]; rfl)
  | reports reporting phase _ =>
      rw [reporting] at holds
      exact .inl (phase ▸ holds)

end WorkerStep

section Steps

variable {cfg : Config} {s next : State} {action : Action}

/-- Workers are never forgotten. -/
theorem length_of_transition (transition : Transition cfg s action next) :
    s.workers.length ≤ next.workers.length := by
  cases transition with
  | scheduleStarts _ _ =>
      exact (List.prefix_append s.workers _).length_le
  | routerStops _ _ | routerInactive _ _ _ => exact (List.length_mapIdx ..).ge
  | routerCloses _ _ _ _ | scheduleSends _ _ _ _ _ | workerCalls _ _ | workerTakes _ _ _
  | workerEnds _ _ _ | workerRefuses _ _ _ | workerDrained _ _ _ | reports _ _ _ =>
      exact (List.length_modify ..).ge
  | _ => exact Nat.le_refl _

/-- A started worker gets the next number, from a router that has a request in its hand. -/
theorem mem_startsWorker {goroutine : Goroutine} (starts : goroutine ∈ s.startsWorker action) :
    goroutine = .worker s.workers.length ∧ s.router ≠ .stopped := by
  unfold State.startsWorker at starts
  split at starts
  · split at starts
    · rename_i inHand
      split at starts
      · exact ⟨List.mem_singleton.mp starts, by rw [inHand]; nofun⟩
      · cases starts
    · cases starts
  · cases starts

/-- A worker that was there is there after the step. -/
theorem worker_stays (transition : Transition cfg s action next) {i : Nat} {before : Worker}
    (found : s.workers[i]? = some before) :
    ∃ after, next.workers[i]? = some after ∧ WorkerStep cfg s i before action after := by
  have inside := (List.getElem?_eq_some_iff.mp found).1
  have stored := List.getElem?_eq_getElem
    (Nat.lt_of_lt_of_le inside (length_of_transition transition))
  refine ⟨_, stored, ?_⟩
  rcases workerStep_of_transition transition stored with ⟨other, same, step⟩ | ⟨starts, _⟩
  · cases found.symm.trans same
    exact step
  · cases (mem_startsWorker starts).1
    exact absurd inside (Nat.lt_irrefl _)

/-- A worker that opens its region file has it open. -/
theorem holdsFile_of_opens (transition : Transition cfg s action next) {i : Nat}
    (opens : i ∈ State.opensFile action) :
    ∃ worker, next.workers[i]? = some worker ∧ worker.phase.holdsFile = true := by
  cases transition with
  | @workerCalls j answer worker move found moves =>
      have successful : answer = .opened (.ok ()) ∨ answer = .created (.ok ()) := by
        unfold State.opensFile at opens
        split at opens
        · simp_all
        · simp_all
        · cases opens
      obtain rfl : i = j := by
        rcases successful with rfl | rfl <;> simpa [State.opensFile] using opens
      refine
        ⟨{ worker with phase := move.phase }, ?_, (regionWorker_phase moves).2 (.inr successful)⟩
      refine (List.getElem?_modify ..).trans ?_
      simp [found]
  | _ => cases opens

/-- A router that has left its loop found `s.requests` closed and empty, and it stays so. -/
theorem requests_drained (transition : Transition cfg s action next)
    (drained : s.router = .stopped → s.requests.closed = true ∧ s.requests.buffer = [])
    (stopped : next.router = .stopped) :
    next.requests.closed = true ∧ next.requests.buffer = [] := by
  cases transition with
  | routerStops _ empty => exact ⟨Chan.receive_drained empty, Chan.buffer_drained empty⟩
  | clientSends _ _ sent _ | clientSkips _ _ sent _ | tickSends _ sent | reports _ _ sent =>
      cases (Chan.send_sent sent).1.symm.trans (drained stopped).1
  | closes _ _ => exact ⟨rfl, (drained stopped).2⟩
  | routerInactive ready _ _ | routerCloses ready _ _ _ | routerFindsNoRegion ready _ _ _
  | routerIgnores ready _ _ => cases ready.symm.trans stopped
  | routerTakes _ _ _ => cases stopped
  | @routerCounts now r requests _ _ _ =>
      have elsewhere : ∀ regions, RouterPhase.next regions r ≠ .stopped := by
        intro regions
        cases regions <;> nofun
      exact absurd stopped (elsewhere _)
  | @schedulePanics _ _ rest r _ _ _ _ _ _ _ | @scheduleSends _ _ rest r _ _ _ _ _ _ _ _
  | @scheduleAnswers _ _ rest r _ _ _ _ | @scheduleStarts _ _ rest r _ _ =>
      cases rest <;> cases stopped
  | _ => exact drained stopped

/-- What a call that has put its request into the queue was before the step: it had done so,
or does so now. -/
theorem sent_of_transition (transition : Transition cfg s action next) {id : Nat} {after : Call}
    (found : next.calls[id]? = some after) (sent : after.phase ≠ .sending) :
    ∃ before, s.calls[id]? = some before ∧ before.call = after.call ∧
      (before.phase ≠ .sending ∨
        s.requests.send (before.call.request id) = .sent next.requests) := by
  have unchanged : s.calls[id]? = some after → ∃ before, s.calls[id]? = some before ∧
      before.call = after.call ∧ (before.phase ≠ .sending ∨
        s.requests.send (before.call.request id) = .sent next.requests) :=
    fun same => ⟨after, same, rfl, .inl sent⟩
  -- A call that takes no step of its own only gets values on its result channel.
  have delivered : ∀ {result : Option Nat} {replies : List Reply},
      (deliver s.calls result replies)[id]? = some after → ∃ before, s.calls[id]? = some before ∧
        before.call = after.call ∧ (before.phase ≠ .sending ∨
          s.requests.send (before.call.request id) = .sent next.requests) := by
    intro result replies changed
    cases result with
    | none => exact unchanged changed
    | some other =>
        obtain ⟨before, stored, rfl⟩ := getElem?_modify_some changed
        refine ⟨before, stored, ?_, .inl ?_⟩
        · split <;> rfl
        · split at sent <;> exact sent
  cases transition with
  | invoke call =>
      rcases getElem?_concat_some found with old | ⟨_, rfl⟩
      · exact unchanged old
      · exact absurd rfl sent
  | clientSends stored _ enqueued _ | clientSkips stored _ enqueued _ =>
      obtain ⟨before, storedBefore, rfl⟩ := getElem?_modify_some found
      refine ⟨before, storedBefore, by split <;> rfl, ?_⟩
      split at sent
      · rename_i same
        subst same
        cases stored.symm.trans storedBefore
        exact .inr enqueued
      · exact .inl sent
  | clientReturns stored waiting _ _ | clientIgnores stored waiting _ _ =>
      obtain ⟨before, storedBefore, rfl⟩ := getElem?_modify_some found
      refine ⟨before, storedBefore, by split <;> rfl, ?_⟩
      split at sent
      · rename_i same
        subst same
        cases stored.symm.trans storedBefore
        exact .inl (by rw [waiting]; nofun)
      · exact .inl sent
  | scheduleAnswers _ _ _ | workerCalls _ _ | workerRefuses _ _ _ => exact delivered found
  | _ => exact unchanged found

/-- The router finds no region for the request, so it hands it to nobody. -/
def RegionRequest.skipped (r : RegionRequest) : Prop :=
  r.op = .countIndividualChunks ∧ r.regions = []

/-- A call asks for none of the router's own operations. -/
theorem ClientCall.request_op (id : Nat) (call : ClientCall) :
    (call.request id).op ≠ .closeInactive ∧ (call.request id).op ≠ .closeRegion ∧
      (call.request id).op ≠ .countRegionChunks := by
  cases call <;> exact ⟨nofun, nofun, nofun⟩

/-- A request of a call leaves `s.requests` for the router's hand, and the router's hand when
it is handed on, except a count for which the router finds no region. -/
theorem request_of_transition (transition : Transition cfg s action next) {id : Nat}
    {call : ClientCall}
    (way : call.request id ∈ s.requests.buffer ∨ s.router.inHand = some (call.request id)) :
    (call.request id ∈ next.requests.buffer ∨ next.router.inHand = some (call.request id)) ∨
      call.request id ∈ s.handsOn action ∨ (call.request id).skipped := by
  obtain ⟨notInactive, notClose, notCount⟩ := ClientCall.request_op id call
  -- A router at its range loop has nothing in its hand.
  have queued : s.router = .ready → call.request id ∈ s.requests.buffer := by
    intro ready
    rw [ready] at way
    exact way.resolve_right nofun
  -- What the router receives is the request itself or another one.
  have received : ∀ {r requests}, s.router = .ready → s.requests.receive = .received r requests →
      call.request id = r ∨ call.request id ∈ requests.buffer := by
    intro r requests ready received
    have member := queued ready
    rw [(Chan.receive_received received).1] at member
    exact List.mem_cons.mp member
  cases transition with
  | clientSends _ _ sent _ | clientSkips _ _ sent _ | tickSends _ sent | reports _ _ sent =>
      obtain ⟨_, rfl⟩ := Chan.send_sent sent
      exact .inl (way.imp_left fun member => List.mem_append_left _ member)
  | routerStops ready drained =>
      have member := queued ready
      rw [Chan.buffer_drained drained] at member
      cases member
  | routerInactive ready taken op =>
      rcases received ready taken with rfl | later
      · exact absurd op notInactive
      · exact .inl (.inl later)
  | routerCloses ready taken op _ | routerFindsNoRegion ready taken op _ =>
      rcases received ready taken with rfl | later
      · exact absurd op notClose
      · exact .inl (.inl later)
  | routerIgnores ready taken op =>
      rcases received ready taken with rfl | later
      · exact absurd op notCount
      · exact .inl (.inl later)
  | routerTakes ready taken _ =>
      rcases received ready taken with rfl | later
      · exact .inl (.inr rfl)
      · exact .inl (.inl later)
  | routerCounts ready taken op =>
      rcases received ready taken with rfl | later
      · cases regions : (call.request id).regions with
        | nil => exact .inr (.inr ⟨op, regions⟩)
        | cons _ _ =>
            exact .inl (.inr (by
              simp [State.nextRegion, RouterPhase.next, RouterPhase.inHand]))
      · exact .inl (.inl later)
  | schedulePanics inHand _ _ _ _ | scheduleSends inHand _ _ _ _ | scheduleAnswers inHand _ _
  | scheduleStarts inHand _ =>
      rcases way with member | holds
      · exact .inl (.inl member)
      · exact .inr (.inl (by simp [State.handsOn, holds]))
  | _ => exact .inl way

end Steps

/-- What holds in every run: whoever has not returned is counted by the wait group, everything
that has returned left nothing behind, and every request is followed on its way. -/
structure Accounted (c : Counted) : Prop where
  counter : c.wg = c.running.length
  router : c.store.router = .stopped ∨ .router ∈ c.running
  workers : ∀ (i : Nat) (worker : Worker), c.store.workers[i]? = some worker →
    worker.phase = .ended ∨ .worker i ∈ c.running
  requests : c.store.router = .stopped →
    c.store.requests.closed = true ∧ c.store.requests.buffer = []
  channels : ∀ (i : Nat) (worker : Worker), c.store.workers[i]? = some worker →
    worker.phase = .ended → worker.ch.closed = true ∧ worker.ch.buffer = []
  files : ∀ i ∈ c.opened, i ∈ c.closed ∨
    ∃ worker, c.store.workers[i]? = some worker ∧ worker.phase.holdsFile = true
  sent : ∀ (id : Nat) (call : Call), c.store.calls[id]? = some call → call.phase ≠ .sending →
    (call.call.request id ∈ c.store.requests.buffer ∨
      c.store.router.inHand = some (call.call.request id)) ∨
    call.call.request id ∈ c.handed ∨ (call.call.request id).skipped
  inHand : ∀ r, c.store.router.inHand = some r → ¬ r.skipped
  handed : ∀ r ∈ c.handed, ¬ r.skipped
  returned : c.store.closeCall = .returned → c.store.router = .stopped ∧
    ∀ (i : Nat) (worker : Worker), c.store.workers[i]? = some worker → worker.phase = .ended

namespace Accounted

variable {cfg : Config} {c next : Counted} {action : CountedAction}

theorem initial (cfg : Config) (files : Files) : Accounted (.initial cfg files) where
  counter := rfl
  router := .inr List.mem_cons_self
  workers i worker found := by simp [Counted.initial, State.initial] at found
  requests stopped := by cases stopped
  channels i worker found := by simp [Counted.initial, State.initial] at found
  files i opened := by cases opened
  sent id call found := by simp [Counted.initial, State.initial] at found
  inHand r holds := by cases holds
  handed r member := by cases member
  returned done := by cases done

/-- The router's hand after a step of the store. -/
theorem inHand_of_transition {s next : State} {action : Action}
    (transition : Transition cfg s action next) {r : RegionRequest}
    (before : ∀ r, s.router.inHand = some r → ¬ r.skipped)
    (holds : next.router.inHand = some r) : ¬ r.skipped := by
  -- A request that has regions left was in the hand before.
  have nextRegion : ∀ {rest : List RegionLocator} {r' : RegionRequest},
      (RouterPhase.next rest r').inHand = some r → rest ≠ [] ∧ r' = r := by
    intro rest r' holds
    cases rest with
    | nil => cases holds
    | cons _ _ => exact ⟨nofun, Option.some.inj holds⟩
  cases transition with
  | routerStops _ _ => cases holds
  | routerTakes _ _ op =>
      cases holds
      rintro ⟨count, _⟩
      rw [count] at op
      rcases op with other | other | other <;> cases other
  | routerCounts _ _ _ =>
      obtain ⟨named, rfl⟩ := nextRegion holds
      exact fun skipped => named skipped.2
  | schedulePanics inHand _ _ _ _ | scheduleSends inHand _ _ _ _ | scheduleAnswers inHand _ _
  | scheduleStarts inHand _ =>
      obtain ⟨_, rfl⟩ := nextRegion holds
      exact before _ (by rw [inHand]; rfl)
  | _ => exact before r holds

/-- Only the end of `Close` makes it return. -/
theorem returned_of_transition {s next : State} {action : Action} (other : action ≠ .returnClose)
    (transition : Transition cfg s action next) (returned : next.closeCall = .returned) :
    s.closeCall = .returned := by
  cases transition with
  | closes _ _ => cases returned
  | closeReturns _ _ => exact absurd rfl other
  | _ => exact returned

/-- A step of the store. -/
theorem afterStore (accounted : Accounted c) {action : Action} {next : State}
    (transition : Transition cfg c.store action next) (other : action ≠ .returnClose) :
    Accounted (c.after action next) where
  counter := by simp [Counted.after, accounted.counter]
  router := accounted.router.imp (stopped_of_transition transition)
    fun running => List.mem_append_left _ running
  workers i after found := by
    rcases workerStep_of_transition transition found with ⟨before, stored, step⟩ | ⟨starts, _⟩
    · exact (accounted.workers i before stored).imp step.stays_ended
        fun running => List.mem_append_left _ running
    · exact .inr (List.mem_append_right _ starts)
  requests := requests_drained transition accounted.requests
  channels i after found ended := by
    rcases workerStep_of_transition transition found with ⟨before, stored, step⟩ | ⟨_, r, opening⟩
    · exact step.ended_drained (accounted.channels i before stored) ended
    · cases opening.symm.trans ended
  files i opened := by
    rcases List.mem_append.mp opened with old | new
    · rcases accounted.files i old with closed | ⟨before, stored, holds⟩
      · exact .inl (List.mem_append_left _ closed)
      · obtain ⟨after, found, step⟩ := worker_stays transition stored
        exact (step.holdsFile stored holds).symm.imp (fun closes => List.mem_append_right _ closes)
          fun holds => ⟨after, found, holds⟩
    · exact .inr (holdsFile_of_opens transition new)
  sent id after found sent := by
    obtain ⟨before, stored, same, old | sends⟩ := sent_of_transition transition found sent
    · rw [← same]
      rcases accounted.sent id before stored old with way | handed | skipped
      · exact (request_of_transition transition way).imp_right
          (Or.imp_left fun hands => List.mem_append_right _ hands)
      · exact .inr (.inl (List.mem_append_left _ handed))
      · exact .inr (.inr skipped)
    · obtain ⟨_, enqueued⟩ := Chan.send_sent sends
      refine .inl (.inl ?_)
      rw [Counted.after, enqueued, ← same]
      exact List.mem_append_right _ (List.mem_singleton_self _)
  inHand r holds := inHand_of_transition transition accounted.inHand holds
  handed r member := by
    rcases List.mem_append.mp member with old | new
    · exact accounted.handed r old
    · unfold State.handsOn at new
      split at new
      · exact accounted.inHand r (Option.mem_toList.mp new)
      · cases new
  returned done := by
    obtain ⟨stopped, ended⟩ := accounted.returned (returned_of_transition other transition done)
    refine ⟨stopped_of_transition transition stopped, fun i after found => ?_⟩
    rcases workerStep_of_transition transition found with ⟨before, stored, step⟩ | ⟨starts, _⟩
    · exact step.stays_ended (ended i before stored)
    · exact absurd stopped (mem_startsWorker starts).2

theorem finished_router {s : State} (finished : Goroutine.router.finished s = true) :
    s.router = .stopped := by
  simp only [Goroutine.finished] at finished
  split at finished
  · assumption
  · cases finished

theorem finished_worker {s : State} {i : Nat} {worker : Worker}
    (found : s.workers[i]? = some worker)
    (finished : (Goroutine.worker i).finished s = true) : worker.phase = .ended := by
  simp only [Goroutine.finished, found, Option.any_some] at finished
  split at finished
  · assumption
  · cases finished

/-- At zero, the router and all workers have returned. -/
theorem of_zero (accounted : Accounted c) (zero : c.wg = 0) : c.store.router = .stopped ∧
    ∀ (i : Nat) (worker : Worker), c.store.workers[i]? = some worker → worker.phase = .ended := by
  have counter := accounted.counter
  rw [zero] at counter
  have nobody : c.running = [] := List.eq_nil_of_length_eq_zero (by omega)
  refine ⟨accounted.router.resolve_right (by simp [nobody]), fun i worker found => ?_⟩
  exact (accounted.workers i worker found).resolve_right (by simp [nobody])

/-- The step lemma. -/
theorem preserved (accounted : Accounted c) (transition : CountedTransition cfg c action next) :
    Accounted next := by
  cases transition with
  | store other stepped => exact accounted.afterStore (transition_of_step stepped).2 other
  | query wname dname cx cz =>
      let call : ClientCall := .getChunkRaw wname dname cx cz
      have transition : Transition cfg c.store (.invoke call) (c.store.invoke call) := .invoke call
      have invoked := accounted.afterStore transition nofun
      exact { invoked with
        counter := by simp [Counted.query, accounted.counter]
        router := accounted.router.imp id fun running => List.mem_append_left _ running
        workers := fun i worker found => (accounted.workers i worker found).imp id
          fun running => List.mem_append_left _ running }
  | @done goroutine member finished =>
      -- Whoever calls `Done` has finished, the others are still counted.
      have counted : ∀ other ∈ c.running,
          other.finished c.store = true ∨ other ∈ c.running.erase goroutine := by
        intro other running
        by_cases same : other = goroutine
        · exact .inl (same ▸ finished)
        · exact .inr ((List.mem_erase_of_ne same).mpr running)
      refine { accounted with counter := ?_, router := ?_, workers := fun i worker found => ?_ }
      · have positive : 0 < c.running.length := List.length_pos_of_mem member
        simp only [accounted.counter, List.length_erase_of_mem member]
        omega
      · exact accounted.router.elim .inl fun running =>
          (counted .router running).imp finished_router id
      · exact (accounted.workers i worker found).elim .inl fun running =>
          (counted (.worker i) running).imp (finished_worker found) id
  | closeReturns _ zero => exact { accounted with returned := fun _ => accounted.of_zero zero }

end Accounted

/-- The wait group only delays: without it, the run is one of the store, in which `Close`
returns once the router and all workers have returned. -/
theorem Counted.refines (cfg : Config) (files : Files) {actions : List CountedAction}
    {final : Counted} (run : (counted cfg).Runs (.initial cfg files) actions final) :
    Accounted final ∧ ∃ steps, (machine cfg).Runs (State.initial cfg files) steps final.store := by
  induction run with
  | nil => exact ⟨.initial cfg files, [], .nil⟩
  | @snoc _ c next action _ transition inductionHypothesis =>
      obtain ⟨accounted, steps, run⟩ := inductionHypothesis
      obtain ⟨live, taken⟩ := countedTransition_of_step transition
      refine ⟨accounted.preserved taken, ?_⟩
      cases taken with
      | store _ stepped => exact ⟨_, .snoc run stepped⟩
      | query wname dname cx cz =>
          exact ⟨steps ++ [.invoke (.getChunkRaw wname dname cx cz)], .snoc run (by
            simp [machine, step, live, Counted.query, Counted.after])⟩
      | done _ _ => exact ⟨steps, run⟩
      | closeReturns waiting zero =>
          obtain ⟨stopped, ended⟩ := accounted.of_zero zero
          refine ⟨steps ++ [.returnClose], .snoc run ?_⟩
          simp only [machine, step, live, State.returnClose, waiting, stopped]
          refine if_pos (List.all_eq_true.mpr fun worker member => ?_)
          obtain ⟨i, found⟩ := List.mem_iff_getElem?.mp member
          rw [ended i worker found]

/-- The two loops find no region exactly if one of them is empty. -/
theorem RegionRequest.regions_eq_nil_iff (r : RegionRequest) : r.regions = [] ↔
    ¬ ((regionAt r.cx1 r.cz1).1 < (regionAt r.cx2 r.cz2).1 ∧
      (regionAt r.cx1 r.cz1).2 < (regionAt r.cx2 r.cz2).2) := by
  unfold RegionRequest.regions
  simp only [List.flatMap_eq_nil_iff, List.map_eq_nil_iff, List.range_eq_nil, List.mem_range]
  constructor
  · rintro empty ⟨wide, deep⟩
    have none := empty 0 (by omega)
    omega
  · intro empty dz inside
    omega

/-- A call's request is skipped exactly if it names no region. -/
theorem ClientCall.request_skipped_iff (id : Nat) (call : ClientCall) :
    (call.request id).skipped ↔ call.namesRegion = false := by
  cases call with
  | addChunkRaw | getChunkModDate | getChunkRaw =>
      exact iff_of_false (fun skipped => nomatch skipped.1) nofun
  | getChunksCountRegion wname dname cx0 cz0 cx1 cz1 =>
      rw [RegionRequest.skipped, RegionRequest.regions_eq_nil_iff, ← Bool.not_eq_true,
        ClientCall.namesRegion, Bool.and_eq_true, decide_eq_true_iff, decide_eq_true_iff]
      exact and_iff_right rfl

/-- When `Close` has returned, nothing is left behind exactly if every call that has put its
request into the queue names a region. -/
theorem close_drained_iff (cfg : Config) (files : Files) (actions : List CountedAction)
    (final : Counted) (run : (counted cfg).Runs (.initial cfg files) actions final)
    (returned : final.store.closeCall = .returned) :
    Drained final ↔ ∀ (id : Nat) (call : Call), final.store.calls[id]? = some call →
      call.phase ≠ .sending → call.call.namesRegion = true := by
  obtain ⟨accounted, _⟩ := Counted.refines cfg files run
  obtain ⟨stopped, ended⟩ := accounted.returned returned
  obtain ⟨_, empty⟩ := accounted.requests stopped
  have holding : ∀ worker : Worker, worker.phase = .ended → worker.phase.holdsFile = false :=
    fun worker ended => by rw [ended]; rfl
  constructor
  · intro drained id call found sent
    by_contra nameless
    have skipped : (call.call.request id).skipped :=
      (ClientCall.request_skipped_iff id call.call).mpr (by simpa using nameless)
    exact accounted.handed _ (drained.calls id call found sent) skipped
  · intro names
    refine ⟨empty, fun i worker found => ?_, fun i opened => ?_, fun id call found sent => ?_⟩
    · exact ⟨(accounted.channels i worker found (ended i worker found)).2, ended i worker found⟩
    · rcases accounted.files i opened with closed | ⟨worker, found, holds⟩
      · exact closed
      · cases (holding worker (ended i worker found)).symm.trans holds
    · rcases accounted.sent id call found sent with (queued | inHand) | handed | skipped
      · rw [empty] at queued
        cases queued
      · rw [stopped] at inHand
        cases inHand
      · exact handed
      · cases ((ClientCall.request_skipped_iff id call.call).mp skipped).symm.trans
          (names id call found sent)

/-- `Close` is called once every client call has put its request into the queue, and no call
starts afterwards. -/
def closesAfterSends (c : Counted) : CountedAction → Bool
  | .store .callClose => c.store.calls.all (·.phase ≠ .sending)
  | .store (.invoke _) | .query _ _ _ _ => c.store.closeCall = .notCalled
  | _ => true

/-- The chunks of a square inside one region are counted. -/
def countSquare : ClientCall := .getChunksCountRegion "world" "overworld" 0 0 16 16

/-- The count is in the queue when `Close` is called. -/
def closedAfterCount : List CountedAction :=
  [.store (.invoke countSquare), .store (.clientSend 0), .store .callClose,
    .store (.routerReceive 1), .store (.routerReceive 2), .done .router, .returnClose]

/-- The router takes the count and passes it to nobody, and `Close` returns. -/
theorem count_left_behind : ∃ (cfg : Config) (files : Files) (actions : List CountedAction)
    (final : Counted), (counted cfg).Runs (.initial cfg files) actions final ∧
      (counted cfg).StepsOnly (fun c action => closesAfterSends c action = true)
        (.initial cfg files) actions ∧
      final.store.closeCall = .returned ∧ ¬ Drained final := by
  refine ⟨sampleConfig, fun _ => none, closedAfterCount, _, Machine.runs_exec_get (by decide),
    Machine.stepsOnly_of_checkSteps (by decide), rfl, fun drained => ?_⟩
  have handed := drained.calls 0 ⟨countSquare, .waiting, [], 0⟩ rfl nofun
  cases handed

/-- A get, and a query of one chunk of the same region, are in the queue when `Close` is
called. -/
def closedAfterGets : List CountedAction :=
  [.store (.invoke (.getChunkRaw "world" "overworld" 0 0)), .store (.clientSend 0),
    .query "world" "overworld" 1 1, .store (.clientSend 1), .store .callClose,
    .store (.routerReceive 1), .store (.routerSchedule 1), .store (.routerReceive 2),
    .store (.routerSchedule 2), .store (.routerReceive 3), .done .router,
    .store (.workerCall 0 (.opened (.ok ()))), .store (.workerCall 0 (.read (.ok []))),
    .store (.workerReceive 0), .store (.workerCall 0 (.read (.ok []))),
    .store (.workerReceive 0), .done (.worker 0), .store (.clientReceive 0),
    .store (.clientReceive 1), .done (.query 1), .returnClose]

theorem gets_drained : ∃ final,
    (counted sampleConfig).Runs (.initial sampleConfig fun _ => none) closedAfterGets final ∧
      Drained final := by
  refine ⟨_, Machine.runs_exec_get (by decide), ?_⟩
  refine (close_drained_iff sampleConfig (fun _ => none) closedAfterGets _
    (Machine.runs_exec_get (by decide)) rfl).mpr fun id call found _ => ?_
  have names : ∀ call ∈ (((counted sampleConfig).exec (.initial sampleConfig fun _ => none)
      closedAfterGets).get (by decide)).store.calls, call.call.namesRegion = true := by decide
  exact names call (List.mem_of_getElem? found)

end WebChunk.RegionStore
