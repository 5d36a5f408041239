import WebChunk.RegionStore.Transition

/-!
# Which channels are closed when

`s.requests` is written by the callers, by the autoclose ticker and by every worker
that fails, and the worker channels are closed by three places of the router. None
of these looks at what the others closed. The invariant below says what has to hold
for that to be safe, and `keepsChannels` which steps keep it.
-/

namespace WebChunk.RegionStore

open WebChunk.Go WebChunk.Semantics

/-- Nobody has sent on a closed channel or closed a channel twice. -/
def ChannelSafe (s : State) : Prop :=
  s.panicked ≠ some .sendOnClosed ∧ s.panicked ≠ some .closeOfClosed

/-- Every entry marked as existing has an open channel, and has it for itself. -/
structure Registered (w : Map RegionLocator RegionInterface) (workers : List Worker) : Prop where
  backed : ∀ loc entry, w.get loc = some entry → entry.existing = true →
    ∃ worker, workers[entry.c]? = some worker ∧ worker.ch.closed = false
  distinct : ∀ loc other entry entry', w.get loc = some entry → w.get other = some entry' →
    entry.existing = true → entry'.existing = true → entry.c = entry'.c → loc = other

/-- Nobody is about to send on `s.requests`. -/
structure Quiet (ticker : TickerPhase) (workers : List Worker) (calls : List Call) : Prop where
  ticker : ticker ≠ .sending
  workers : ∀ (i : Nat) (worker : Worker), workers[i]? = some worker →
    worker.phase.isReporting = false
  calls : ∀ (id : Nat) (c : Call), calls[id]? = some c → c.phase ≠ .sending

/-- What holds as long as every step keeps the channels. -/
structure ChannelsKept (s : State) : Prop where
  safe : ChannelSafe s
  registered : s.router ≠ .stopped → Registered s.w s.workers
  quiet : s.requests.closed = true → Quiet s.ticker s.workers s.calls
  closed : s.requests.closed = true → s.closeCall ≠ .notCalled

/-- The answers of the region library after which the worker sends a close message. -/
def WorkerPhase.failsOn : WorkerPhase → LibraryAnswer → Bool
  | .opening initial, .opened (.error err) => !(err == .notExist && initial.op == .setChunk)
  | .creating _, .created (.error _) => true
  | .processing r, .wrote (.error _) => r.op == .setChunk
  | .processing r, .read (.error err) => r.op == .getChunk && !err.isAbsentChunk
  | _, _ => false

/-- `Close` is called while no client call is pending. -/
def closesIdle (s : State) : Action → Bool
  | .callClose => s.calls.all fun c => match c.phase with | .returned .. => true | _ => false
  | _ => true

/-- The steps which are safe for the channels. `Close` is called while the ticker
and the workers are not about to send on `s.requests`; after it no call starts, the
ticker does not fire and no library call fails; and a close message meets either no
entry or one that still exists. -/
def keepsChannels (s : State) : Action → Bool
  | .callClose =>
      s.ticker != .sending && s.workers.all fun worker => !worker.phase.isReporting
  | .invoke _ | .tick => !s.requests.closed
  | .workerCall i answer =>
      !s.requests.closed || (s.workers[i]?).all fun worker => !worker.phase.failsOn answer
  | .routerReceive _ =>
      match s.requests.buffer with
      | r :: _ => r.op != .closeRegion || (s.w.get r.closeLocator).all (·.existing)
      | [] => true
  | _ => true

/-- `processRequest` reports exactly after a failed write or a failed read. -/
theorem isReporting_processRequest {cfg : Config} {loc : RegionLocator} {r : RegionRequest}
    {files : Files} {answer : LibraryAnswer} {move : WorkerMove}
    (moves : processRequest cfg loc r files answer = some move) :
    move.phase.isReporting = (WorkerPhase.processing r).failsOn answer := by
  rcases answer with _ | _ | _ | (_ | _) | (err | _) | _ <;>
    cases op : r.op <;>
    simp only [processRequest, op, reduceCtorEq, Option.some.injEq] at moves <;>
    try (cases moves; simp [WorkerPhase.failsOn, WorkerPhase.isReporting, op])
  -- What is left is the failed read, which `isAbsentChunk` decides.
  split at moves <;> cases moves <;> simp_all [WorkerPhase.failsOn, WorkerPhase.isReporting]

/-- A library call makes the worker report exactly on the failing answers. -/
theorem isReporting_regionWorker {cfg : Config} {loc : RegionLocator} {files : Files}
    {phase : WorkerPhase} {answer : LibraryAnswer} {move : WorkerMove}
    (moves : regionWorker cfg loc files phase answer = some move) :
    move.phase.isReporting = phase.failsOn answer := by
  unfold regionWorker at moves
  split at moves
  · rename_i initial result
    cases moves
    unfold openRegion WorkerPhase.failsOn
    rcases result with err | _
    · cases err <;> simp only <;> try rfl
      by_cases op : initial.op = .setChunk <;> simp [op, WorkerPhase.isReporting]
    · rfl
  · rename_i initial result
    cases moves
    rcases result with err | _ <;> rfl
  · exact isReporting_processRequest moves
  · cases moves

namespace Registered

variable {w : Map RegionLocator RegionInterface} {workers : List Worker}

/-- A change of one worker that leaves an open channel open. -/
theorem modify (registered : Registered w workers) {i : Nat} {f : Worker → Worker}
    (keeps : ∀ worker, workers[i]? = some worker → worker.ch.closed = false →
      (f worker).ch.closed = false) : Registered w (workers.modify i f) := by
  refine ⟨fun loc entry found existing => ?_, registered.distinct⟩
  obtain ⟨worker, stored, isOpen⟩ := registered.backed loc entry found existing
  by_cases same : i = entry.c
  · refine ⟨f worker, ?_, keeps worker (same ▸ stored) isOpen⟩
    rw [List.getElem?_modify, stored]
    simp [same]
  · refine ⟨worker, ?_, isOpen⟩
    rw [List.getElem?_modify, stored]
    simp [same]

/-- The router writes back an entry it has read, with another time stamp. -/
theorem touch (registered : Registered w workers) {loc : RegionLocator}
    {entry : RegionInterface} (found : w.get loc = some entry) (now : Int) :
    Registered (w.set loc { entry with lastRequest := now }) workers := by
  -- Whatever the new map holds, the old one holds with the same channel and mark.
  have old : ∀ {other entry'}, (w.set loc { entry with lastRequest := now }).get other =
      some entry' → ∃ before, w.get other = some before ∧ before.existing = entry'.existing ∧
        before.c = entry'.c := by
    intro other entry' stored
    rw [Map.get_set] at stored
    split at stored
    · rename_i same
      cases stored
      exact ⟨entry, same ▸ found, rfl, rfl⟩
    · exact ⟨entry', stored, rfl, rfl⟩
  constructor
  · intro other entry' stored existing
    obtain ⟨before, storedBefore, mark, channel⟩ := old stored
    rw [← channel]
    exact registered.backed other before storedBefore (mark.trans existing)
  · intro other other' entry' entry'' stored stored' existing existing' shared
    obtain ⟨before, storedBefore, mark, channel⟩ := old stored
    obtain ⟨before', storedBefore', mark', channel'⟩ := old stored'
    exact registered.distinct other other' before before' storedBefore storedBefore'
      (mark.trans existing) (mark'.trans existing')
      (channel.trans (shared.trans channel'.symm))

/-- A new worker gets an entry and a channel of its own. -/
theorem start (registered : Registered w workers) (loc : RegionLocator) (worker : Worker)
    (isOpen : worker.ch.closed = false) (now : Int) :
    Registered (w.set loc ⟨true, workers.length, now⟩) (workers ++ [worker]) := by
  have bounded : ∀ {other entry}, w.get other = some entry → entry.existing = true →
      entry.c < workers.length := by
    intro other entry stored existing
    obtain ⟨_, backing, _⟩ := registered.backed other entry stored existing
    exact (List.getElem?_eq_some_iff.mp backing).1
  constructor
  · intro other entry stored existing
    rw [Map.get_set] at stored
    split at stored
    · cases stored
      exact ⟨worker, by simp, isOpen⟩
    · obtain ⟨backing, found, openBefore⟩ := registered.backed other entry stored existing
      refine ⟨backing, ?_, openBefore⟩
      rw [List.getElem?_append_left (bounded stored existing)]
      exact found
  · intro other other' entry entry' stored stored' existing existing' shared
    rw [Map.get_set] at stored stored'
    split at stored <;> split at stored'
    · simp_all
    · cases stored
      exact absurd (bounded stored' existing') (by simp [← shared])
    · cases stored'
      exact absurd (bounded stored existing) (by simp [shared])
    · exact registered.distinct other other' entry entry' stored stored' existing existing' shared

/-- Closing the channel of one entry leaves the others theirs, if they have others. -/
theorem closeRegion (registered : Registered w workers) {loc : RegionLocator}
    {entry : RegionInterface} (apart : ∀ other entry', w.get other = some entry' →
      entry'.existing = true → other ≠ loc → entry.c ≠ entry'.c) (f : Worker → Worker) :
    Registered (w.set loc { entry with existing := false }) (workers.modify entry.c f) := by
  have old : ∀ {other entry'}, (w.set loc { entry with existing := false }).get other =
      some entry' → entry'.existing = true → w.get other = some entry' ∧ other ≠ loc := by
    intro other entry' stored existing'
    rw [Map.get_set] at stored
    split at stored
    · cases stored
      cases existing'
    · exact ⟨stored, by assumption⟩
  constructor
  · intro other entry' stored existing'
    obtain ⟨before, different⟩ := old stored existing'
    obtain ⟨worker, backing, isOpen⟩ := registered.backed other entry' before existing'
    refine ⟨worker, ?_, isOpen⟩
    rw [List.getElem?_modify, backing]
    simp [apart other entry' before existing' different]
  · intro other other' entry' entry'' stored stored' existing' existing'' shared
    exact registered.distinct other other' entry' entry'' (old stored existing').1
      (old stored' existing'').1 existing' existing'' shared

end Registered

/-- Registered entries have open channels of their own, so none is closed twice. -/
theorem Registered.not_closesTwice {s : State} (registered : Registered s.w s.workers)
    (doomed : RegionInterface → Bool) : s.closesTwice doomed = false := by
  unfold State.closesTwice
  rw [decide_eq_false_iff_not]
  rintro ⟨i, _, ⟨closing, closedBefore⟩ | ⟨loc, _, other, _, different, closes, closes'⟩⟩
  · obtain ⟨loc, closes⟩ := State.closing_iff.mp closing
    obtain ⟨entry, found, existing, _, rfl⟩ := State.closes_iff.mp closes
    obtain ⟨worker, backing, isOpen⟩ := registered.backed loc entry found existing
    simp [backing, isOpen] at closedBefore
  · obtain ⟨entry, found, existing, _, rfl⟩ := State.closes_iff.mp closes
    obtain ⟨entry', found', existing', _, shared⟩ := State.closes_iff.mp closes'
    exact different (registered.distinct loc other entry entry' found found' existing existing'
      shared.symm)

/-- The inactive entries are closed and forgotten; the others keep their channels. -/
theorem Registered.closeInactive {s : State} (registered : Registered s.w s.workers) (now : Int) :
    Registered (s.closeInactive now).w (s.closeInactive now).workers := by
  have old : ∀ {loc entry}, (s.closeInactive now).w.get loc = some entry →
      s.w.get loc = some entry ∧ State.inactive now entry = false := by
    intro loc entry stored
    simp only [State.closeInactive, Map.get_range] at stored
    obtain ⟨before, storedBefore, kept⟩ := Option.bind_eq_some_iff.mp stored
    split at kept
    · cases kept
    · cases kept
      exact ⟨storedBefore, by simp_all⟩
  constructor
  · intro loc entry stored existing
    obtain ⟨before, active⟩ := old stored
    obtain ⟨worker, backing, isOpen⟩ := registered.backed loc entry before existing
    have spared : s.closing (State.inactive now) entry.c = false := by
      rw [Bool.eq_false_iff]
      intro closing
      obtain ⟨other, closes⟩ := State.closing_iff.mp closing
      obtain ⟨entry', found, existing', inactive, shared⟩ := State.closes_iff.mp closes
      cases registered.distinct other loc entry' entry found before existing' existing shared
      cases before.symm.trans found
      simp [active] at inactive
    refine ⟨worker, ?_, isOpen⟩
    simp only [State.closeInactive, State.closeEntries, List.getElem?_mapIdx, backing,
      Option.map_some, spared]
    rfl
  · intro loc other entry entry' stored stored' existing existing' shared
    exact registered.distinct loc other entry entry' (old stored).1 (old stored').1 existing
      existing' shared

/-- The step lemma for the entries, as long as the router runs: a close message must not
meet an entry that shares its channel with an open one. -/
theorem Registered.preserved_of_apart {cfg : Config} {s next : State} {action : Action}
    (registered : Registered s.w s.workers) (transition : Transition cfg s action next)
    (running : next.router ≠ .stopped)
    (apart : ∀ {now r requests entry}, action = .routerReceive now →
      s.requests.receive = .received r requests → r.op = .closeRegion →
      s.w.get r.closeLocator = some entry → ∀ other entry', s.w.get other = some entry' →
        entry'.existing = true → other ≠ r.closeLocator → entry.c ≠ entry'.c) :
    Registered next.w next.workers := by
  cases transition with
  | routerStops _ _ => exact absurd rfl running
  | routerInactive _ _ _ => exact registered.closeInactive _
  | routerCloses _ received op entered =>
      exact registered.closeRegion (apart rfl received op entered) _
  | scheduleSends _ entered _ channel sent =>
      refine Registered.touch (registered.modify ?_) entered _
      intro worker stored isOpen
      rw [(Chan.send_sent sent).2]
      exact (Chan.send_sent sent).1
  | scheduleAnswers _ entered _ => exact registered.touch entered _
  | @scheduleStarts now loc rest r _ _ =>
      exact registered.start loc ⟨loc, .make cfg.workerCap, .opening r⟩ rfl now
  | workerTakes stored _ received =>
      refine registered.modify fun worker same isOpen => ?_
      cases stored.symm.trans same
      exact (Chan.receive_received received).2.trans isOpen
  | workerRefuses stored _ received =>
      refine registered.modify fun worker same isOpen => ?_
      cases stored.symm.trans same
      exact (Chan.receive_received received).2.trans isOpen
  | workerCalls _ _ | workerEnds _ _ _ | workerDrained _ _ _ | reports _ _ _ =>
      exact registered.modify fun _ _ => id
  | _ => exact registered

/-- A step that keeps the channels closes only the channel of an existing entry. -/
theorem Registered.preserved {cfg : Config} {s next : State} {action : Action}
    (registered : Registered s.w s.workers) (keeps : keepsChannels s action = true)
    (transition : Transition cfg s action next) (running : next.router ≠ .stopped) :
    Registered next.w next.workers := by
  refine registered.preserved_of_apart transition running ?_
  rintro now r requests entry rfl received op entered other entry' found existing' different shared
  have front := (Chan.receive_received received).1
  simp only [keepsChannels, front, op, entered, bne_self_eq_false, Bool.false_or,
    Option.all_some] at keeps
  exact different (registered.distinct other r.closeLocator entry' entry found entered existing'
    keeps shared.symm)

namespace Quiet

variable {ticker : TickerPhase} {workers : List Worker} {calls : List Call}

/-- One worker moves on without becoming a sender. -/
theorem modifyWorker (quiet : Quiet ticker workers calls) {i : Nat} {f : Worker → Worker}
    (silent : ∀ worker, workers[i]? = some worker → (f worker).phase.isReporting = false) :
    Quiet ticker (workers.modify i f) calls := by
  refine ⟨quiet.ticker, fun j worker found => ?_, quiet.calls⟩
  obtain ⟨before, stored, rfl⟩ := getElem?_modify_some found
  split
  · rename_i same
    exact silent before (same ▸ stored)
  · exact quiet.workers j before stored

/-- The router closes channels; the workers stay where they are. -/
theorem mapChannels (quiet : Quiet ticker workers calls) {f : Nat → Worker → Worker}
    (keeps : ∀ i worker, (f i worker).phase = worker.phase) :
    Quiet ticker (workers.mapIdx f) calls := by
  refine ⟨quiet.ticker, fun i worker found => ?_, quiet.calls⟩
  obtain ⟨before, stored, rfl⟩ := getElem?_mapIdx_some found
  rw [keeps]
  exact quiet.workers i before stored

/-- One call moves on, to a phase in which it does not send. -/
theorem modifyCall (quiet : Quiet ticker workers calls) {id : Nat} {f : Call → Call}
    (silent : ∀ c, calls[id]? = some c → (f c).phase ≠ .sending) :
    Quiet ticker workers (calls.modify id f) := by
  refine ⟨quiet.ticker, quiet.workers, fun other c found => ?_⟩
  obtain ⟨before, stored, rfl⟩ := getElem?_modify_some found
  split
  · rename_i same
    exact silent before (same ▸ stored)
  · exact quiet.calls other before stored

/-- A value on a result channel lets no call send. -/
theorem deliver (quiet : Quiet ticker workers calls) (result : Option Nat)
    (replies : List Reply) : Quiet ticker workers (deliver calls result replies) := by
  cases result with
  | none => exact quiet
  | some id => exact quiet.modifyCall fun c stored => quiet.calls id c stored

/-- The step lemma of the senders once `s.requests` is closed. -/
theorem preserved {cfg : Config} {s next : State} {action : Action}
    (quiet : Quiet s.ticker s.workers s.calls) (shut : s.requests.closed = true)
    (keeps : keepsChannels s action = true) (transition : Transition cfg s action next) :
    Quiet next.ticker next.workers next.calls := by
  cases transition with
  | invoke call => simp [keepsChannels, shut] at keeps
  | tick _ => simp [keepsChannels, shut] at keeps
  | clientSends stored sending _ _ | clientSkips stored sending _ _ =>
      exact absurd sending (quiet.calls _ _ stored)
  | clientReturns _ _ _ _ | clientIgnores _ _ _ _ =>
      exact quiet.modifyCall fun _ _ => by simp
  | tickSends sending _ => exact absurd sending quiet.ticker
  | tickStops _ _ => exact ⟨by simp, quiet.workers, quiet.calls⟩
  | routerStops _ _ | routerInactive _ _ _ =>
      exact quiet.mapChannels fun _ _ => by split <;> rfl
  | routerCloses _ _ _ _ | scheduleSends _ _ _ _ _ =>
      exact quiet.modifyWorker fun worker stored => quiet.workers _ worker stored
  | scheduleAnswers _ _ _ => exact quiet.deliver _ _
  | scheduleStarts _ _ =>
      refine ⟨quiet.ticker, fun i worker found => ?_, quiet.calls⟩
      rcases getElem?_concat_some found with stored | ⟨_, rfl⟩
      · exact quiet.workers i worker stored
      · rfl
  | workerCalls stored moves =>
      simp only [keepsChannels, shut, stored, Bool.not_true, Bool.false_or, Option.all_some,
        Bool.not_eq_true'] at keeps
      have silent := (isReporting_regionWorker moves).trans keeps
      exact (quiet.modifyWorker fun _ _ => silent).deliver _ _
  | workerTakes _ _ _ | workerEnds _ _ _ => exact quiet.modifyWorker fun _ _ => rfl
  | workerRefuses stored _ _ =>
      have silent := quiet.workers _ _ stored
      refine (quiet.modifyWorker fun worker same => ?_).deliver _ _
      cases stored.symm.trans same
      exact silent
  | workerDrained _ _ _ =>
      refine quiet.modifyWorker fun _ _ => ?_
      dsimp only
      split <;> rfl
  | reports stored reporting _ =>
      have silent := quiet.workers _ _ stored
      rw [reporting] at silent
      cases silent
  | _ => exact quiet

end Quiet

/-- Only `Close` closes `s.requests`. -/
theorem closed_of_transition {cfg : Config} {s next : State} {action : Action}
    (transition : Transition cfg s action next) (closed : next.requests.closed = true) :
    s.requests.closed = true ∨ action = .callClose ∧ next.closeCall = .waiting ∧
      next.ticker = s.ticker ∧ next.workers = s.workers ∧ next.calls = s.calls := by
  cases transition with
  | closes _ _ => exact .inr ⟨rfl, rfl, rfl, rfl, rfl⟩
  | clientSends _ _ sent _ | clientSkips _ _ sent _ | tickSends _ sent | reports _ _ sent =>
      obtain ⟨isOpen, rfl⟩ := Chan.send_sent sent
      exact .inl closed
  | routerInactive _ received _ | routerCloses _ received _ _
  | routerFindsNoRegion _ received _ _ | routerTakes _ received _ | routerCounts _ received _
  | routerIgnores _ received _ =>
      exact .inl ((Chan.receive_received received).2.symm.trans closed)
  | _ => exact .inl closed

/-- A close call that was made stays made. -/
theorem closeCall_of_transition {cfg : Config} {s next : State} {action : Action}
    (transition : Transition cfg s action next) (called : s.closeCall ≠ .notCalled) :
    next.closeCall ≠ .notCalled := by
  cases transition with
  | closes _ _ | closeReturns _ _ => simp
  | _ => exact called

/-- The router never runs again once it has left its loop. -/
theorem stopped_of_transition {cfg : Config} {s next : State} {action : Action}
    (transition : Transition cfg s action next) (stopped : s.router = .stopped) :
    next.router = .stopped := by
  cases transition with
  | routerStops _ _ => rfl
  | routerTakes running _ _ | routerCounts running _ _ | schedulePanics running _ _ _ _
  | scheduleSends running _ _ _ _ | scheduleAnswers running _ _ | scheduleStarts running _ =>
      rw [stopped] at running
      cases running
  | _ => exact stopped

/-- No step panics on a channel while the invariant holds. -/
theorem ChannelsKept.staysSafe {cfg : Config} {s next : State} {action : Action}
    (kept : ChannelsKept s) (keeps : keepsChannels s action = true)
    (transition : Transition cfg s action next) : ChannelSafe next := by
  cases transition with
  | clientPanics stored sending isClosed =>
      exact absurd sending ((kept.quiet isClosed).calls _ _ stored)
  | tickPanics sending isClosed => exact absurd sending (kept.quiet isClosed).ticker
  | reportPanics stored reporting isClosed =>
      have silent := (kept.quiet isClosed).workers _ _ stored
      rw [reporting] at silent
      cases silent
  | closePanics first isClosed => exact absurd first (kept.closed isClosed)
  | assertionPanics _ _ _ _ => exact ⟨by simp [State.panic], by simp [State.panic]⟩
  | @schedulePanics now loc rest r entry ch inHand entered existing channel isClosed =>
      have registered := kept.registered (by simp [inHand])
      obtain ⟨worker, backing, isOpen⟩ := registered.backed loc entry entered existing
      simp [State.channel, backing] at channel
      simp [← channel, isOpen] at isClosed
  | routerStops ready _ =>
      have once := (kept.registered (by simp [ready])).not_closesTwice fun _ => true
      simpa [ChannelSafe, State.stopRouter, State.closeEntries, once] using kept.safe
  | @routerInactive now r requests ready _ _ =>
      have once : State.closesTwice { s with requests := requests } (State.inactive now) = false :=
        Registered.not_closesTwice (kept.registered (by simp [ready])) _
      simpa [ChannelSafe, State.closeInactive, State.closeEntries, once] using kept.safe
  | @routerCloses now r requests entry ready received op entered =>
      have front := (Chan.receive_received received).1
      simp only [keepsChannels, front, op, entered, bne_self_eq_false, Bool.false_or,
        Option.all_some] at keeps
      obtain ⟨worker, backing, isOpen⟩ :=
        (kept.registered (by simp [ready])).backed r.closeLocator entry entered keeps
      simpa [ChannelSafe, State.channel, backing, isOpen] using kept.safe
  | _ => exact kept.safe

/-- The step lemma of the whole invariant. -/
theorem ChannelsKept.preserved {cfg : Config} {s next : State} {action : Action}
    (kept : ChannelsKept s) (allowed : closesIdle s action = true ∧ keepsChannels s action = true)
    (transition : step cfg s action = some next) : ChannelsKept next := by
  obtain ⟨_, transition⟩ := transition_of_step transition
  obtain ⟨idle, keeps⟩ := allowed
  refine ⟨kept.staysSafe keeps transition, fun running => ?_, fun closed => ?_, fun closed => ?_⟩
  · have ran : s.router ≠ .stopped := fun stopped =>
      running (stopped_of_transition transition stopped)
    exact (kept.registered ran).preserved keeps transition running
  · rcases closed_of_transition transition closed with shut | ⟨rfl, _, ticker, workers, calls⟩
    · exact (kept.quiet shut).preserved shut keeps transition
    · rw [ticker, workers, calls]
      simp only [keepsChannels, Bool.and_eq_true, List.all_eq_true] at keeps
      simp only [closesIdle, List.all_eq_true] at idle
      refine ⟨by simpa using keeps.1, fun i worker stored => ?_, fun id c stored sending => ?_⟩
      · simpa using keeps.2 worker (List.mem_of_getElem? stored)
      · have returned := idle c (List.mem_of_getElem? stored)
        rw [sending] at returned
        cases returned
  · rcases closed_of_transition transition closed with shut | ⟨_, waiting, _⟩
    · exact closeCall_of_transition transition (kept.closed shut)
    · simp [waiting]

/-- With `Close` called when no client call is pending, a run of steps which keep the
channels never sends on a closed channel and never closes one twice. -/
theorem channelSafe (cfg : Config) (files : Files) (actions : List Action)
    (steps : (machine cfg).StepsOnly
      (fun s action => closesIdle s action = true ∧ keepsChannels s action = true)
      (State.initial cfg files) actions) :
    (machine cfg).ReachesOnly ChannelSafe (State.initial cfg files) actions := by
  refine steps.reachesOnly ChannelsKept.safe ChannelsKept.preserved ?_
  exact ⟨⟨by simp [State.initial], by simp [State.initial]⟩,
    fun _ => ⟨by simp [State.initial], by simp [State.initial]⟩,
    by simp [State.initial], by simp [State.initial]⟩

/-- The ticker fires after `Close` and sends on the closed `s.requests`. -/
theorem ticker_sends_on_closed : ∃ (cfg : Config) (files : Files) (actions : List Action)
    (final : State), (machine cfg).StepsOnly (fun s action => closesIdle s action = true)
        (State.initial cfg files) actions ∧
      (machine cfg).Runs (State.initial cfg files) actions final ∧ ¬ ChannelSafe final := by
  refine ⟨sampleConfig, fun _ => none, [.callClose, .tick, .tickSend], _,
    Machine.stepsOnly_of_checkSteps (by decide), Machine.runs_exec_get (by decide), ?_⟩
  exact fun safe => safe.1 rfl

/-- A set that creates its region, an inactivity tick, and `Close` once the call has
returned. -/
def closedWhenIdle : List Action :=
  (ClientCall.addChunkRaw "world" "overworld" 0 0 [1]).schedule 0 0 ++
  [.workerCall 0 (.opened (.error .notExist)), .workerCall 0 (.created (.ok ())),
    .workerCall 0 (.wrote (.ok ())), .clientReceive 0, .tick, .tickSend,
    .routerReceive 61000000000, .callClose, .routerReceive 61000000000, .tickStop,
    .workerReceive 0, .returnClose]

theorem channelSafe_closedWhenIdle :
    (machine sampleConfig).ReachesOnly ChannelSafe
      (State.initial sampleConfig fun _ => none) closedWhenIdle := by
  refine channelSafe sampleConfig (fun _ => none) closedWhenIdle ?_
  have checked : (machine sampleConfig).checkSteps
      (fun s action => closesIdle s action && keepsChannels s action)
      (State.initial sampleConfig fun _ => none) closedWhenIdle = true := by decide
  exact (Machine.stepsOnly_of_checkSteps checked).mono fun _ _ both => by simpa using both

end WebChunk.RegionStore
