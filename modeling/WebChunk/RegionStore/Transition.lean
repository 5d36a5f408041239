import WebChunk.RegionStore.System

/-!
# What one step can do

`Transition` lists the branches of the region store's step, each with the guards
it passed and the state it leaves. Every invariant is proved by cases on it.
-/

namespace WebChunk.RegionStore

open WebChunk.Go WebChunk.Semantics

/-- The branches of `step`, named after the statement of the source they take. -/
inductive Transition (cfg : Config) (s : State) : Action → State → Prop where
  | invoke (call : ClientCall) : Transition cfg s (.invoke call) (s.invoke call)
  | clientPanics {id : Nat} {c : Call} (found : s.calls[id]? = some c)
      (sending : c.phase = .sending) (isClosed : s.requests.closed = true) :
      Transition cfg s (.clientSend id) (s.panic .sendOnClosed)
  | clientSends {id : Nat} {c : Call} {requests : Chan RegionRequest}
      (found : s.calls[id]? = some c) (sending : c.phase = .sending)
      (sent : s.requests.send (c.call.request id) = .sent requests)
      (receives : c.call.returnsAtOnce = false) :
      Transition cfg s (.clientSend id)
        ({ s with requests := requests }.setCall id .waiting c.replies)
  | clientSkips {id : Nat} {c : Call} {requests : Chan RegionRequest}
      (found : s.calls[id]? = some c) (sending : c.phase = .sending)
      (sent : s.requests.send (c.call.request id) = .sent requests)
      (returns : c.call.returnsAtOnce = true) :
      Transition cfg s (.clientSend id)
        { { s with requests := requests }.setCall id (.returned .counted s.clock) c.replies with
          clock := s.clock + 1 }
  | clientReturns {id : Nat} {c : Call} {reply : Reply} {replies : List Reply} {ret : Return}
      (found : s.calls[id]? = some c) (waiting : c.phase = .waiting)
      (buffered : c.replies = reply :: replies) (accepts : c.call.receive reply = .returns ret) :
      Transition cfg s (.clientReceive id)
        { s.setCall id (.returned ret s.clock) replies with clock := s.clock + 1 }
  | clientIgnores {id : Nat} {c : Call} {reply : Reply} {replies : List Reply}
      (found : s.calls[id]? = some c) (waiting : c.phase = .waiting)
      (buffered : c.replies = reply :: replies) (ignores : c.call.receive reply = .keepsWaiting) :
      Transition cfg s (.clientReceive id) (s.setCall id .waiting replies)
  | assertionPanics {id : Nat} {c : Call} {reply : Reply} {replies : List Reply}
      (found : s.calls[id]? = some c) (waiting : c.phase = .waiting)
      (buffered : c.replies = reply :: replies) (panics : c.call.receive reply = .panics) :
      Transition cfg s (.clientReceive id) (s.panic .typeAssertion)
  | tick (selecting : s.ticker = .selecting) :
      Transition cfg s .tick { s with ticker := .sending }
  | tickPanics (sending : s.ticker = .sending) (isClosed : s.requests.closed = true) :
      Transition cfg s .tickSend (s.panic .sendOnClosed)
  | tickSends {requests : Chan RegionRequest} (sending : s.ticker = .sending)
      (sent : s.requests.send { op := .closeInactive } = .sent requests) :
      Transition cfg s .tickSend { s with requests := requests, ticker := .selecting }
  | tickStops (selecting : s.ticker = .selecting) (stop : s.closeTicker = true) :
      Transition cfg s .tickStop { s with ticker := .stopped }
  | routerStops {now : Int} (ready : s.router = .ready) (drained : s.requests.receive = .drained) :
      Transition cfg s (.routerReceive now) s.stopRouter
  | routerInactive {now : Int} {r : RegionRequest} {requests : Chan RegionRequest}
      (ready : s.router = .ready) (received : s.requests.receive = .received r requests)
      (op : r.op = .closeInactive) :
      Transition cfg s (.routerReceive now) ({ s with requests := requests }.closeInactive now)
  | routerCloses {now : Int} {r : RegionRequest} {requests : Chan RegionRequest}
      {entry : RegionInterface}
      (ready : s.router = .ready) (received : s.requests.receive = .received r requests)
      (op : r.op = .closeRegion) (entered : s.w.get r.closeLocator = some entry) :
      Transition cfg s (.routerReceive now)
        { s with
          requests := requests
          workers := s.workers.modify entry.c fun worker => { worker with ch := worker.ch.close }
          w := s.w.set r.closeLocator { entry with existing := false }
          panicked := if (s.channel entry).any Chan.closed then some .closeOfClosed
            else s.panicked }
  | routerFindsNoRegion {now : Int} {r : RegionRequest} {requests : Chan RegionRequest}
      (ready : s.router = .ready) (received : s.requests.receive = .received r requests)
      (op : r.op = .closeRegion) (absent : s.w.get r.closeLocator = none) :
      Transition cfg s (.routerReceive now) { s with requests := requests }
  | routerTakes {now : Int} {r : RegionRequest} {requests : Chan RegionRequest}
      (ready : s.router = .ready) (received : s.requests.receive = .received r requests)
      (op : r.op = .getModDate ∨ r.op = .getChunk ∨ r.op = .setChunk) :
      Transition cfg s (.routerReceive now)
        { s with requests := requests, router := .scheduling r.locator [] r }
  | routerCounts {now : Int} {r : RegionRequest} {requests : Chan RegionRequest}
      (ready : s.router = .ready) (received : s.requests.receive = .received r requests)
      (op : r.op = .countIndividualChunks) :
      Transition cfg s (.routerReceive now) ({ s with requests := requests }.nextRegion r.regions r)
  | routerIgnores {now : Int} {r : RegionRequest} {requests : Chan RegionRequest}
      (ready : s.router = .ready) (received : s.requests.receive = .received r requests)
      (op : r.op = .countRegionChunks) :
      Transition cfg s (.routerReceive now) { s with requests := requests }
  | schedulePanics {now : Int} {loc : RegionLocator} {rest : List RegionLocator}
      {r : RegionRequest} {entry : RegionInterface} {ch : Chan RegionRequest}
      (inHand : s.router = .scheduling loc rest r) (entered : s.w.get loc = some entry)
      (existing : entry.existing = true) (channel : s.channel entry = some ch)
      (isClosed : ch.closed = true) :
      Transition cfg s (.routerSchedule now) ((s.panic .sendOnClosed).nextRegion rest r)
  | scheduleSends {now : Int} {loc : RegionLocator} {rest : List RegionLocator}
      {r : RegionRequest} {entry : RegionInterface} {ch after : Chan RegionRequest}
      (inHand : s.router = .scheduling loc rest r) (entered : s.w.get loc = some entry)
      (existing : entry.existing = true) (channel : s.channel entry = some ch)
      (sent : ch.send r = .sent after) :
      Transition cfg s (.routerSchedule now)
        (((s.setChannel entry.c after).touch loc entry now).nextRegion rest r)
  | scheduleAnswers {now : Int} {loc : RegionLocator} {rest : List RegionLocator}
      {r : RegionRequest} {entry : RegionInterface}
      (inHand : s.router = .scheduling loc rest r) (entered : s.w.get loc = some entry)
      (missing : entry.existing = false) :
      Transition cfg s (.routerSchedule now)
        (((s.reply r.result [.nil]).touch loc entry now).nextRegion rest r)
  | scheduleStarts {now : Int} {loc : RegionLocator} {rest : List RegionLocator}
      {r : RegionRequest} (inHand : s.router = .scheduling loc rest r)
      (absent : s.w.get loc = none) :
      Transition cfg s (.routerSchedule now) ((s.startWorker cfg loc r now).nextRegion rest r)
  | workerCalls {i : Nat} {answer : LibraryAnswer} {worker : Worker} {move : WorkerMove}
      (found : s.workers[i]? = some worker)
      (moves : regionWorker cfg worker.loc s.files worker.phase answer = some move) :
      Transition cfg s (.workerCall i answer)
        { (s.setPhase i move.phase).reply (worker.phase.inHand.bind RegionRequest.result)
            move.replies with files := move.files }
  | workerTakes {i : Nat} {worker : Worker} {r : RegionRequest} {ch : Chan RegionRequest}
      (found : s.workers[i]? = some worker) (selecting : worker.phase = .selecting)
      (received : worker.ch.receive = .received r ch) :
      Transition cfg s (.workerReceive i) (s.setWorker i ch (.processing r))
  | workerEnds {i : Nat} {worker : Worker}
      (found : s.workers[i]? = some worker) (selecting : worker.phase = .selecting)
      (drained : worker.ch.receive = .drained) :
      Transition cfg s (.workerReceive i) (s.setPhase i .ended)
  | workerRefuses {i : Nat} {worker : Worker} {err : RegionError} {held : Bool}
      {r : RegionRequest} {ch : Chan RegionRequest}
      (found : s.workers[i]? = some worker) (draining : worker.phase = .draining err held)
      (received : worker.ch.receive = .received r ch) :
      Transition cfg s (.workerReceive i) ((s.setChannel i ch).reply r.result [.error err])
  | workerDrained {i : Nat} {worker : Worker} {err : RegionError} {held : Bool}
      (found : s.workers[i]? = some worker) (draining : worker.phase = .draining err held)
      (drained : worker.ch.receive = .drained) :
      Transition cfg s (.workerReceive i)
        (s.setPhase i (if held then .selecting else .ended))
  | reportPanics {i : Nat} {worker : Worker} {err : RegionError} {held : Bool}
      (found : s.workers[i]? = some worker) (reporting : worker.phase = .reporting err held)
      (isClosed : s.requests.closed = true) :
      Transition cfg s (.workerReport i) (s.panic .sendOnClosed)
  | reports {i : Nat} {worker : Worker} {err : RegionError} {held : Bool}
      {requests : Chan RegionRequest}
      (found : s.workers[i]? = some worker) (reporting : worker.phase = .reporting err held)
      (sent : s.requests.send (.close worker.loc) = .sent requests) :
      Transition cfg s (.workerReport i)
        { s.setPhase i (.draining err held) with requests := requests }
  | closePanics (first : s.closeCall = .notCalled) (isClosed : s.requests.closed = true) :
      Transition cfg s .callClose (s.panic .closeOfClosed)
  | closes (first : s.closeCall = .notCalled) (isOpen : s.requests.closed = false) :
      Transition cfg s .callClose { s with requests := s.requests.close, closeCall := .waiting }
  | closeReturns (waiting : s.closeCall = .waiting) (stopped : s.router = .stopped) :
      Transition cfg s .returnClose { s with closeCall := .returned }

variable {cfg : Config} {s next : State}

theorem transition_of_clientSend {id : Nat} (sends : s.clientSend id = some next) :
    Transition cfg s (.clientSend id) next := by
  simp only [State.clientSend] at sends
  split at sends
  · cases sends
  · rename_i c found
    split at sends
    · rename_i sending
      split at sends
      · cases sends
      · rename_i panics
        cases sends
        exact .clientPanics found sending (Chan.send_panics_iff.mp panics)
      · rename_i requests sent
        split at sends <;> cases sends
        · exact .clientSkips found sending sent (by assumption)
        · exact .clientSends found sending sent (by simp_all)
    · cases sends

theorem transition_of_clientReceive {id : Nat} (receives : s.clientReceive id = some next) :
    Transition cfg s (.clientReceive id) next := by
  simp only [State.clientReceive] at receives
  split at receives
  · cases receives
  · rename_i c found
    split at receives
    · rename_i waiting
      split at receives
      · cases receives
      · rename_i reply replies buffered
        split at receives <;> cases receives
        · exact .clientReturns found waiting buffered (by assumption)
        · exact .clientIgnores found waiting buffered (by assumption)
        · exact .assertionPanics found waiting buffered (by assumption)
    · cases receives

theorem transition_of_tickSend (sends : s.tickSend = some next) :
    Transition cfg s .tickSend next := by
  simp only [State.tickSend] at sends
  split at sends
  · rename_i sending
    split at sends
    · cases sends
    · rename_i panics
      cases sends
      exact .tickPanics sending (Chan.send_panics_iff.mp panics)
    · cases sends
      exact .tickSends sending (by assumption)
  · cases sends

theorem transition_of_routerReceive {now : Int} (receives : s.routerReceive now = some next) :
    Transition cfg s (.routerReceive now) next := by
  simp only [State.routerReceive] at receives
  split at receives
  · rename_i ready
    split at receives
    · cases receives
    · rename_i drained
      cases receives
      exact .routerStops ready drained
    · rename_i r requests received
      split at receives <;> cases receives
      · exact .routerInactive ready received (by assumption)
      · rename_i op
        simp only [State.closeRegion]
        split
        · exact .routerFindsNoRegion ready received op (by assumption)
        · exact .routerCloses ready received op (by assumption)
      · exact .routerTakes ready received (.inl (by assumption))
      · exact .routerTakes ready received (.inr (.inl (by assumption)))
      · exact .routerTakes ready received (.inr (.inr (by assumption)))
      · exact .routerCounts ready received (by assumption)
      · exact .routerIgnores ready received (by assumption)
  · cases receives

theorem transition_of_routerSchedule {now : Int} (schedules : s.routerSchedule cfg now = some next) :
    Transition cfg s (.routerSchedule now) next := by
  simp only [State.routerSchedule] at schedules
  split at schedules
  · rename_i loc rest r inHand
    obtain ⟨scheduled, hands, rfl⟩ := Option.map_eq_some_iff.mp schedules
    simp only [State.scheduleWorker] at hands
    split at hands
    · rename_i entry entered
      split at hands
      · rename_i existing
        split at hands
        · cases hands
        · rename_i ch channel
          split at hands
          · cases hands
          · rename_i panics
            cases hands
            exact .schedulePanics inHand entered existing channel (Chan.send_panics_iff.mp panics)
          · cases hands
            exact .scheduleSends inHand entered existing channel (by assumption)
      · rename_i missing
        cases hands
        exact .scheduleAnswers inHand entered (by simpa using missing)
    · rename_i absent
      cases hands
      exact .scheduleStarts inHand absent
  · cases schedules

theorem transition_of_workerReceive {i : Nat} (receives : s.workerReceive i = some next) :
    Transition cfg s (.workerReceive i) next := by
  simp only [State.workerReceive] at receives
  split at receives
  · cases receives
  · rename_i worker found
    split at receives <;> cases receives
    · exact .workerTakes found (by assumption) (by assumption)
    · exact .workerEnds found (by assumption) (by assumption)
    · exact .workerRefuses found (by assumption) (by assumption)
    · exact .workerDrained found (by assumption) (by assumption)

theorem transition_of_workerReport {i : Nat} (reports : s.workerReport i = some next) :
    Transition cfg s (.workerReport i) next := by
  simp only [State.workerReport] at reports
  split at reports
  · cases reports
  · rename_i worker found
    split at reports
    · rename_i err held reporting
      split at reports
      · cases reports
      · rename_i panics
        cases reports
        exact .reportPanics found reporting (Chan.send_panics_iff.mp panics)
      · cases reports
        exact .reports found reporting (by assumption)
    · cases reports

/-- Inversion of `step`: it takes one of the branches, in a live process. -/
theorem transition_of_step {action : Action} (transition : step cfg s action = some next) :
    s.panicked = none ∧ Transition cfg s action next := by
  unfold step at transition
  split at transition
  · cases transition
  · rename_i live
    refine ⟨by simpa using live, ?_⟩
    cases action with
    | invoke call =>
        cases transition
        exact .invoke call
    | clientSend id => exact transition_of_clientSend transition
    | clientReceive id => exact transition_of_clientReceive transition
    | tick =>
        simp only [State.tick, Option.ite_none_right_eq_some, Option.some.injEq] at transition
        obtain ⟨selecting, rfl⟩ := transition
        exact .tick selecting
    | tickSend => exact transition_of_tickSend transition
    | tickStop =>
        simp only [State.tickStop, Option.ite_none_right_eq_some, Option.some.injEq] at transition
        obtain ⟨⟨selecting, stop⟩, rfl⟩ := transition
        exact .tickStops selecting stop
    | routerReceive now => exact transition_of_routerReceive transition
    | routerSchedule now => exact transition_of_routerSchedule transition
    | workerCall i answer =>
        simp only [State.workerCall] at transition
        split at transition
        · cases transition
        · rename_i worker found
          split at transition <;> cases transition
          exact .workerCalls found (by assumption)
    | workerReceive i => exact transition_of_workerReceive transition
    | workerReport i => exact transition_of_workerReport transition
    | callClose =>
        simp only [State.callClose, Option.ite_none_right_eq_some] at transition
        obtain ⟨first, transition⟩ := transition
        split at transition <;> cases transition
        · exact .closePanics first (by assumption)
        · exact .closes first (by simp_all)
    | returnClose =>
        simp only [State.returnClose] at transition
        split at transition
        · rename_i waiting stopped
          simp only [Option.ite_none_right_eq_some, Option.some.injEq] at transition
          obtain ⟨_, rfl⟩ := transition
          exact .closeReturns waiting stopped
        · cases transition

end WebChunk.RegionStore
