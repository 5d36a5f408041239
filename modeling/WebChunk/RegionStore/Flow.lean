import Mathlib.Algebra.BigOperators.Group.List.Basic
import Mathlib.Algebra.Order.Group.Multiset
import Mathlib.Tactic.Abel
import WebChunk.RegionStore.Placement

/-!
# The flow of requests and answers

A step of the region store seen from the calls about one chunk: it makes, sends or
finishes a call, answers a request, or moves requests about. `State.carried` counts
the requests on their way with multiplicity, so that a request which is answered is
known to be gone.
-/

namespace WebChunk.RegionStore

open WebChunk.Go WebChunk.Semantics

/-- The requests about one chunk among `messages`. -/
def chunkRequests (messages : List RegionRequest) : Multiset RegionRequest :=
  ↑(messages.filter RegionRequest.isChunk)

@[simp] theorem chunkRequests_append (left right : List RegionRequest) :
    chunkRequests (left ++ right) = chunkRequests left + chunkRequests right := by
  simp [chunkRequests]

@[simp] theorem chunkRequests_nil : chunkRequests [] = 0 := rfl

theorem chunkRequests_cons (r : RegionRequest) (rest : List RegionRequest) :
    chunkRequests (r :: rest) = chunkRequests [r] + chunkRequests rest :=
  chunkRequests_append [r] rest

theorem chunkRequests_single {r : RegionRequest} (single : r.isChunk = true) :
    chunkRequests [r] = {r} := by
  simp [chunkRequests, single]

theorem chunkRequests_other {r : RegionRequest} (other : r.isChunk = false) :
    chunkRequests [r] = 0 := by
  simp [chunkRequests, other]

/-- The requests about one chunk that a worker has. -/
def Worker.load (worker : Worker) : Multiset RegionRequest :=
  chunkRequests worker.ch.buffer + chunkRequests worker.phase.inHand.toList

/-- What is counted over a list changes by the difference at the modified element. -/
theorem sum_map_modify {α M : Type} [AddCommMonoid M] {l : List α} (g : α → M) (f : α → α)
    {i : Nat} {a : α} (found : l[i]? = some a) :
    ((l.modify i f).map g).sum + g a = (l.map g).sum + g (f a) := by
  induction l generalizing i with
  | nil => simp at found
  | cons head tail inductionHypothesis =>
      cases i with
      | zero =>
          obtain rfl : head = a := by simpa using found
          simp only [List.modify_zero_cons, List.map_cons, List.sum_cons]
          ac_rfl
      | succ i =>
          have later := inductionHypothesis (by simpa using found)
          simp only [List.modify_succ_cons, List.map_cons, List.sum_cons]
          rw [add_assoc, later, add_assoc]

/-- The requests about one chunk in a queue, in the router's hand and at the workers. -/
def inTransit (queue : List RegionRequest) (router : RouterPhase) (workers : List Worker) :
    Multiset RegionRequest :=
  chunkRequests queue + chunkRequests router.inHand.toList + (workers.map Worker.load).sum

/-- The requests about one chunk that are on their way. -/
def State.carried (s : State) : Multiset RegionRequest :=
  inTransit s.requests.buffer s.router s.workers

section InTransit

variable {queue : List RegionRequest} {router : RouterPhase} {workers : List Worker}

theorem inTransit_enqueue (r : RegionRequest) :
    inTransit (queue ++ [r]) router workers =
      chunkRequests [r] + inTransit queue router workers := by
  simp only [inTransit, chunkRequests_append]
  abel

theorem inTransit_dequeue (r : RegionRequest) :
    inTransit (r :: queue) router workers = chunkRequests [r] + inTransit queue router workers := by
  rw [inTransit, chunkRequests_cons, inTransit]
  abel

/-- A request in the router's hand, by itself. -/
theorem inTransit_scheduling (loc : RegionLocator) (rest : List RegionLocator)
    (r : RegionRequest) :
    inTransit queue (.scheduling loc rest r) workers =
      chunkRequests [r] + inTransit queue .ready workers := by
  simp only [inTransit, RouterPhase.inHand, Option.toList, chunkRequests_nil]
  abel

theorem inTransit_idle (idle : router.inHand = none) :
    inTransit queue router workers = inTransit queue .ready workers := by
  simp only [inTransit, idle]
  rfl

/-- Only a count stays in the router's hand after its first region. -/
theorem inTransit_next {rest : List RegionLocator} {r : RegionRequest}
    (single : r.isChunk = true → rest = []) :
    inTransit queue (.next rest r) workers = inTransit queue .ready workers := by
  cases rest with
  | nil => rfl
  | cons other others =>
      have count : r.isChunk = false := by
        rw [Bool.eq_false_iff]
        intro chunk
        cases single chunk
      rw [RouterPhase.next, inTransit_scheduling, chunkRequests_other count, zero_add]

variable (queue router) in
theorem inTransit_modify {i : Nat} (f : Worker → Worker) {worker : Worker}
    (found : workers[i]? = some worker) :
    inTransit queue router (workers.modify i f) + worker.load =
      inTransit queue router workers + (f worker).load := by
  rw [inTransit, add_assoc, sum_map_modify _ _ found, ← add_assoc, inTransit]

theorem inTransit_modify_same {i : Nat} {f : Worker → Worker} {worker : Worker}
    (found : workers[i]? = some worker) (same : (f worker).load = worker.load) :
    inTransit queue router (workers.modify i f) = inTransit queue router workers := by
  have total := inTransit_modify queue router f found
  rw [same] at total
  exact add_right_cancel total

variable (queue router) in
/-- A worker has done with a request. -/
theorem inTransit_serve {i : Nat} (f : Worker → Worker) {worker : Worker} {r : RegionRequest}
    (found : workers[i]? = some worker) (served : worker.load = chunkRequests [r] + (f worker).load) :
    inTransit queue router workers =
      chunkRequests [r] + inTransit queue router (workers.modify i f) := by
  have total := inTransit_modify queue router f found
  rw [served, ← add_assoc, add_comm _ (chunkRequests [r])] at total
  exact (add_right_cancel total).symm

theorem inTransit_mapChannels {f : Nat → Worker → Worker}
    (same : ∀ i worker, (f i worker).load = worker.load) :
    inTransit queue router (workers.mapIdx f) = inTransit queue router workers := by
  have loads : (workers.mapIdx f).map Worker.load = workers.map Worker.load := by
    apply List.ext_getElem?
    intro i
    rw [List.getElem?_map, List.getElem?_mapIdx, List.getElem?_map, Option.map_map]
    congr 1
    funext worker
    exact same i worker
  rw [inTransit, loads, inTransit]

theorem inTransit_start (worker : Worker) :
    inTransit queue router (workers ++ [worker]) =
      worker.load + inTransit queue router workers := by
  simp only [inTransit, List.map_append, List.map_cons, List.map_nil, List.sum_append,
    List.sum_singleton]
  abel

/-- Another request at the head of the queue carries nothing. -/
theorem State.carried_dequeue {s : State} {r : RegionRequest}
    (front : s.requests.buffer = r :: queue) (other : r.isChunk = false) :
    s.carried = inTransit queue s.router s.workers := by
  rw [State.carried, front, inTransit_dequeue, chunkRequests_other other, zero_add]

end InTransit

/-- Where the answer to a request about one chunk comes from, with the region files
after it. -/
inductive Answer (cfg : Config) (s : State) : Action → RegionRequest → List Reply → Files → Prop where
  /-- The region is marked as not existing. -/
  | byRouter {now : Int} {r : RegionRequest} {entry : RegionInterface}
      (inHand : s.router = .scheduling r.locator [] r)
      (entered : s.w.get r.locator = some entry) (missing : entry.existing = false) :
      Answer cfg s (.routerSchedule now) r [.nil] s.files
  /-- A library call of the region's worker. -/
  | byCall {i : Nat} {answer : LibraryAnswer} {worker : Worker} {move : WorkerMove}
      {r : RegionRequest} (found : s.workers[i]? = some worker)
      (inHand : worker.phase.inHand = some r) (region : r.locator = worker.loc)
      (moves : regionWorker cfg worker.loc s.files worker.phase answer = some move)
      (done : move.phase.inHand = none) :
      Answer cfg s (.workerCall i answer) r move.replies move.files
  /-- The region's worker has failed and refuses what it still receives. -/
  | byDrain {i : Nat} {err : RegionError} {r : RegionRequest} :
      Answer cfg s (.workerReceive i) r [.error err] s.files

/-- The calls about one chunk are the same. -/
def SameChunkCalls (calls later : List Call) : Prop :=
  ∀ (id : Nat) (c : Call), c.call.isChunk = true → (later[id]? = some c ↔ calls[id]? = some c)

/-- A step seen from the calls about one chunk. -/
inductive Flow (cfg : Config) (s : State) : Action → State → Prop where
  | invokes {next : State} (call : ClientCall)
      (calls : next.calls = s.calls ++ [⟨call, .sending, [], s.clock⟩])
      (clock : next.clock = s.clock + 1) (carried : next.carried = s.carried)
      (files : next.files = s.files) : Flow cfg s (.invoke call) next
  | sends {next : State} {id : Nat} {c : Call} (found : s.calls[id]? = some c)
      (sending : c.phase = .sending) (single : c.call.isChunk = true)
      (calls : next.calls = s.calls.modify id fun c => { c with phase := .waiting })
      (clock : next.clock = s.clock) (carried : next.carried = c.call.request id ::ₘ s.carried)
      (files : next.files = s.files) : Flow cfg s (.clientSend id) next
  | returns {next : State} {id : Nat} {c : Call} {reply : Reply} {replies : List Reply}
      {ret : Return} (found : s.calls[id]? = some c) (waiting : c.phase = .waiting)
      (single : c.call.isChunk = true) (buffered : c.replies = reply :: replies)
      (accepts : c.call.receive reply = .returns ret)
      (calls : next.calls = s.calls.modify id fun c =>
        { c with phase := .returned ret s.clock, replies := replies })
      (clock : next.clock = s.clock + 1) (carried : next.carried = s.carried)
      (files : next.files = s.files) : Flow cfg s (.clientReceive id) next
  | ignores {next : State} {id : Nat} {c : Call} {reply : Reply} {replies : List Reply}
      (found : s.calls[id]? = some c) (waiting : c.phase = .waiting)
      (single : c.call.isChunk = true) (buffered : c.replies = reply :: replies)
      (ignores : c.call.receive reply = .keepsWaiting)
      (calls : next.calls = s.calls.modify id fun c => { c with replies := replies })
      (clock : next.clock = s.clock) (carried : next.carried = s.carried)
      (files : next.files = s.files) : Flow cfg s (.clientReceive id) next
  | answers {action : Action} {next : State} {id : Nat} {c : Call} {replies : List Reply}
      (found : s.calls[id]? = some c) (single : c.call.isChunk = true)
      (calls : next.calls = s.calls.modify id fun c => { c with replies := c.replies ++ replies })
      (clock : next.clock = s.clock) (carried : s.carried = c.call.request id ::ₘ next.carried)
      (answer : Answer cfg s action (c.call.request id) replies next.files) :
      Flow cfg s action next
  | creates {i : Nat} {next : State} {worker : Worker} {r : RegionRequest}
      (found : s.workers[i]? = some worker) (creating : worker.phase = .creating r)
      (calls : next.calls = s.calls) (clock : next.clock = s.clock)
      (carried : next.carried = s.carried)
      (files : next.files =
        Function.update s.files (cfg.getRegionPath worker.loc) (some fun _ => none)) :
      Flow cfg s (.workerCall i (.created (.ok ()))) next
  /-- Requests move, or a call that is not about one chunk takes a step. -/
  | moves {action : Action} {next : State} (calls : SameChunkCalls s.calls next.calls)
      (clock : s.clock ≤ next.clock) (carried : next.carried = s.carried)
      (files : next.files = s.files) : Flow cfg s action next
  | panics {action : Action} {next : State} (panicked : next.panicked ≠ none)
      (calls : next.calls = s.calls) (clock : next.clock = s.clock)
      (carried : next.carried ≤ s.carried) (files : next.files = s.files) : Flow cfg s action next

theorem SameChunkCalls.refl (calls : List Call) : SameChunkCalls calls calls :=
  fun _ _ _ => Iff.rfl

/-- A step of a call that is not about one chunk. -/
theorem SameChunkCalls.modify {calls : List Call} {id : Nat} {c : Call} {f : Call → Call}
    (found : calls[id]? = some c) (many : c.call.isChunk = false)
    (keeps : ∀ c, (f c).call = c.call) : SameChunkCalls calls (calls.modify id f) := by
  intro other c' single
  rw [List.getElem?_modify]
  by_cases same : id = other
  · subst same
    rw [found]
    constructor
    · intro stored
      have equal : f c = c' := by simpa using stored
      rw [← equal, keeps, many] at single
      cases single
    · intro stored
      cases stored
      rw [many] at single
      cases single
  · simp [same]

/-- Sending nothing to a result channel. -/
theorem deliver_nil (calls : List Call) (result : Option Nat) : deliver calls result [] = calls := by
  cases result with
  | none => rfl
  | some id =>
      simp only [RegionStore.deliver, List.append_nil]
      exact List.modify_id id calls

/-- An answer to a request that is not about one chunk. -/
theorem SameChunkCalls.deliver {calls : List Call} {r : RegionRequest} (origin : Origin calls r)
    (other : r.isChunk = false) (replies : List Reply) :
    SameChunkCalls calls (deliver calls r.result replies) := by
  rcases origin with ⟨_, absent⟩ | ⟨id, c, found, rfl⟩
  · rw [absent]
    exact .refl calls
  · rw [ClientCall.request_isChunk] at other
    rw [ClientCall.request_result]
    exact .modify found other fun _ => rfl

/-- A request about one chunk comes from a call about one chunk. -/
theorem Origin.call {calls : List Call} {r : RegionRequest} (origin : Origin calls r)
    (single : r.isChunk = true) :
    ∃ (id : Nat) (c : Call), calls[id]? = some c ∧ r = c.call.request id ∧
      c.call.isChunk = true := by
  rcases origin with ⟨other, _⟩ | ⟨id, c, found, rfl⟩
  · rw [single] at other
    cases other
  · exact ⟨id, c, found, rfl, by simpa using single⟩

/-- Every step is one of the flow's cases. -/
theorem flow_of_transition {cfg : Config} {s next : State} {action : Action}
    (placed : s.Placed) (transition : Transition cfg s action next) : Flow cfg s action next := by
  cases transition with
  | invoke call => exact .invokes call rfl rfl rfl rfl
  | clientPanics _ _ _ | assertionPanics _ _ _ _ | tickPanics _ _ | reportPanics _ _ _
  | closePanics _ _ => exact .panics (by simp [State.panic]) rfl rfl le_rfl rfl
  | @clientSends id c requests found sending sent receives =>
      obtain ⟨_, rfl⟩ := Chan.send_sent sent
      cases single : c.call.isChunk with
      | true =>
          refine .sends found sending single ?_ rfl ?_ rfl
          · refine List.ext_getElem? fun other => ?_
            simp only [State.setCall, List.getElem?_modify]
            split
            · rename_i same
              subst same
              simp [found]
            · rfl
          · refine (inTransit_enqueue _).trans ?_
            rw [chunkRequests_single (by simpa using single)]
            rfl
      | false =>
          refine .moves (.modify found single fun _ => by rfl) le_rfl ?_ rfl
          refine (inTransit_enqueue _).trans ?_
          rw [chunkRequests_other (by simpa using single), zero_add]
          rfl
  | @clientSkips id c requests found sending sent returns =>
      obtain ⟨_, rfl⟩ := Chan.send_sent sent
      have single : c.call.isChunk = false := by
        rw [Bool.eq_false_iff]
        intro single
        simp [ClientCall.returnsAtOnce_of_isChunk single] at returns
      refine .moves (.modify found single fun _ => by rfl) (Nat.le_succ _) ?_ rfl
      refine (inTransit_enqueue _).trans ?_
      rw [chunkRequests_other (by simpa using single), zero_add]
      rfl
  | @clientReturns id c reply replies ret found waiting buffered accepts =>
      cases single : c.call.isChunk with
      | true => exact .returns found waiting single buffered accepts rfl rfl rfl rfl
      | false => exact .moves (.modify found single fun _ => by rfl) (Nat.le_succ _) rfl rfl
  | @clientIgnores id c reply replies found waiting buffered ignores =>
      cases single : c.call.isChunk with
      | true =>
          refine .ignores found waiting single buffered ignores ?_ rfl rfl rfl
          refine List.ext_getElem? fun other => ?_
          simp only [State.setCall, List.getElem?_modify]
          split
          · rename_i same
            subst same
            simp [found, waiting]
          · rfl
      | false => exact .moves (.modify found single fun _ => by rfl) le_rfl rfl rfl
  | tick _ | tickStops _ _ | closes _ _ | closeReturns _ _ =>
      exact .moves (.refl _) le_rfl rfl rfl
  | tickSends _ sent =>
      obtain ⟨_, rfl⟩ := Chan.send_sent sent
      refine .moves (.refl _) le_rfl ((inTransit_enqueue _).trans ?_) rfl
      rw [chunkRequests_other rfl, zero_add]
      rfl
  | routerStops ready _ =>
      refine .moves (.refl _) le_rfl ?_ rfl
      refine (inTransit_idle rfl).trans ?_
      rw [State.carried, ready]
      exact inTransit_mapChannels fun _ _ => by split <;> rfl
  | @routerInactive now r requests ready received op =>
      have front := (Chan.receive_received received).1
      have other : r.isChunk = false := by simp [RegionRequest.isChunk, op]
      refine .moves (.refl _) le_rfl ?_ rfl
      rw [State.carried_dequeue front other]
      exact inTransit_mapChannels fun _ _ => by split <;> rfl
  | @routerCloses now r requests entry ready received op entered =>
      have front := (Chan.receive_received received).1
      have other : r.isChunk = false := by simp [RegionRequest.isChunk, op]
      obtain ⟨worker, backing, _⟩ := placed.entered _ entry entered
      refine .moves (.refl _) le_rfl ?_ rfl
      rw [State.carried_dequeue front other]
      exact inTransit_modify_same backing rfl
  | @routerFindsNoRegion now r requests ready received op absent =>
      have front := (Chan.receive_received received).1
      have other : r.isChunk = false := by simp [RegionRequest.isChunk, op]
      refine .moves (.refl _) le_rfl ?_ rfl
      exact (State.carried_dequeue front other).symm
  | @routerTakes now r requests ready received op =>
      have front := (Chan.receive_received received).1
      refine .moves (.refl _) le_rfl ?_ rfl
      rw [State.carried, State.carried, front, inTransit_dequeue, inTransit_scheduling, ready]
  | @routerCounts now r requests ready received op =>
      have front := (Chan.receive_received received).1
      have other : r.isChunk = false := by simp [RegionRequest.isChunk, op]
      refine .moves (.refl _) le_rfl ?_ rfl
      rw [State.carried_dequeue front other, ready]
      exact inTransit_next fun single => by simp [single] at other
  | @routerIgnores now r requests ready received op =>
      have front := (Chan.receive_received received).1
      have other : r.isChunk = false := by simp [RegionRequest.isChunk, op]
      refine .moves (.refl _) le_rfl ?_ rfl
      exact (State.carried_dequeue front other).symm
  | @schedulePanics now loc rest r entry ch inHand _ _ _ _ =>
      obtain ⟨_, single⟩ := placed.inHand loc rest r inHand
      refine .panics (by simp [State.panic, State.nextRegion]) rfl rfl ?_ rfl
      rw [State.carried, State.carried, inHand, inTransit_scheduling]
      refine le_trans (le_of_eq ?_) (Multiset.le_add_left _ _)
      exact inTransit_next fun chunk => (single chunk).2
  | @scheduleSends now loc rest r entry ch after inHand entered existing channel sent =>
      obtain ⟨_, single⟩ := placed.inHand loc rest r inHand
      obtain ⟨worker, backing, _⟩ := placed.entered loc entry entered
      obtain ⟨_, rfl⟩ := Chan.send_sent sent
      simp only [State.channel, backing, Option.map_some, Option.some.injEq] at channel
      refine .moves (.refl _) le_rfl ?_ rfl
      refine (inTransit_next fun chunk => (single chunk).2).trans ?_
      rw [State.carried, inHand, inTransit_scheduling]
      have load : Worker.load { worker with ch := { ch with buffer := ch.buffer ++ [r] } } =
          worker.load + chunkRequests [r] := by
        simp only [Worker.load, chunkRequests_append, channel]
        abel
      have grows := inTransit_modify s.requests.buffer .ready
        (fun worker => { worker with ch := { ch with buffer := ch.buffer ++ [r] } }) backing
      rw [load, add_comm worker.load, ← add_assoc, add_comm _ (chunkRequests [r])] at grows
      exact add_right_cancel grows
  | @scheduleAnswers now loc rest r entry inHand entered missing =>
      obtain ⟨origin, single⟩ := placed.inHand loc rest r inHand
      have gone : inTransit s.requests.buffer (.next rest r) s.workers =
          inTransit s.requests.buffer .ready s.workers :=
        inTransit_next fun chunk => (single chunk).2
      cases chunk : r.isChunk with
      | true =>
          obtain ⟨id, c, found, rfl, ofCall⟩ := origin.call chunk
          obtain ⟨rfl, rfl⟩ := single chunk
          refine .answers found ofCall ?_ rfl ?_ (.byRouter inHand entered missing)
          · simp [State.nextRegion, State.touch, State.reply, deliver]
          · rw [State.carried, inHand, inTransit_scheduling, chunkRequests_single chunk]
            rfl
      | false =>
          refine .moves (.deliver origin chunk _) le_rfl ?_ rfl
          rw [State.carried, State.carried, inHand, inTransit_scheduling, chunkRequests_other chunk,
            zero_add]
          exact gone
  | @scheduleStarts now loc rest r inHand absent =>
      obtain ⟨_, single⟩ := placed.inHand loc rest r inHand
      refine .moves (.refl _) le_rfl ?_ rfl
      refine (inTransit_next fun chunk => (single chunk).2).trans ?_
      rw [State.carried, inHand, inTransit_scheduling]
      refine (inTransit_start _).trans ?_
      rfl
  | @workerCalls i answer worker move found moves =>
      obtain ⟨r, inHand, ⟨kept, silent, files⟩ | ⟨done, files⟩⟩ := regionWorker_cases moves
      · have load : Worker.load { worker with phase := move.phase } = worker.load := by
          rw [Worker.load, Worker.load, kept, inHand]
        have calls : deliver s.calls (worker.phase.inHand.bind RegionRequest.result) move.replies =
            s.calls := by
          rw [silent]
          exact deliver_nil _ _
        rcases files with files | ⟨creating, rfl, files⟩
        · refine .moves ?_ le_rfl (inTransit_modify_same found load) files
          exact fun id c _ => iff_of_eq (congrArg (fun calls => calls[id]? = some c) calls)
        · exact .creates found creating calls rfl (inTransit_modify_same found load) files
      · obtain ⟨origin, region⟩ := placed.carried i worker found r (.inr inHand)
        have load : worker.load = chunkRequests [r] +
            Worker.load { worker with phase := move.phase } := by
          simp only [Worker.load, done, inHand, Option.toList, chunkRequests_nil]
          abel
        have served := inTransit_serve s.requests.buffer s.router
          (fun worker => { worker with phase := move.phase }) found load
        cases chunk : r.isChunk with
        | true =>
            obtain ⟨id, c, called, rfl, ofCall⟩ := origin.call chunk
            refine .answers called ofCall ?_ rfl ?_
              (.byCall found inHand (region chunk) moves done)
            · simp [State.reply, State.setPhase, inHand, deliver]
            · rw [chunkRequests_single chunk] at served
              exact served
        | false =>
            rw [chunkRequests_other chunk, zero_add] at served
            refine .moves ?_ le_rfl served.symm (files chunk)
            simp only [inHand]
            exact .deliver origin chunk _
  | @workerTakes i worker r ch found selecting received =>
      have front := (Chan.receive_received received).1
      refine .moves (.refl _) le_rfl (inTransit_modify_same found ?_) rfl
      simp only [Worker.load, selecting, front, WorkerPhase.inHand, Option.toList,
        chunkRequests_cons r ch.buffer, chunkRequests_nil]
      abel
  | workerEnds found selecting _ =>
      refine .moves (.refl _) le_rfl (inTransit_modify_same found ?_) rfl
      rw [Worker.load, Worker.load, selecting]
      rfl
  | @workerRefuses i worker err held r ch found draining received =>
      have front := (Chan.receive_received received).1
      obtain ⟨origin, _⟩ := placed.carried i worker found r (.inl (by simp [front]))
      have load : worker.load = chunkRequests [r] + Worker.load { worker with ch := ch } := by
        simp only [Worker.load, front, chunkRequests_cons r ch.buffer]
        abel
      have served := inTransit_serve s.requests.buffer s.router
        (fun worker => { worker with ch := ch }) found load
      cases chunk : r.isChunk with
      | true =>
          obtain ⟨id, c, called, rfl, ofCall⟩ := origin.call chunk
          refine .answers called ofCall ?_ rfl ?_ (@Answer.byDrain cfg s i err _)
          · simp [State.reply, State.setChannel, deliver]
          · rw [chunkRequests_single chunk] at served
            exact served
      | false =>
          rw [chunkRequests_other chunk, zero_add] at served
          exact .moves (.deliver origin chunk _) le_rfl served.symm rfl
  | workerDrained found draining _ =>
      refine .moves (.refl _) le_rfl (inTransit_modify_same found ?_) rfl
      rw [Worker.load, Worker.load, draining]
      split <;> rfl
  | @reports i worker err held requests found reporting sent =>
      obtain ⟨_, rfl⟩ := Chan.send_sent sent
      refine .moves (.refl _) le_rfl ((inTransit_enqueue _).trans ?_) rfl
      rw [chunkRequests_other rfl, zero_add]
      refine inTransit_modify_same found ?_
      rw [Worker.load, Worker.load, reporting]
      rfl

/-- Nothing is placed anywhere in a new storage. -/
theorem placed_initial (cfg : Config) (files : Files) : (State.initial cfg files).Placed where
  queued _ member := by simp [State.initial] at member
  inHand _ _ _ scheduling := by simp [State.initial] at scheduling
  entered _ _ found := by simp [State.initial] at found
  carried _ _ found := by simp [State.initial] at found

end WebChunk.RegionStore
