import WebChunk.RegionStore.Flow

/-!
# Replies

A call about one chunk waits until a value of a type it knows arrives on its result
channel. The router and the workers answer nearly every request with such a value;
`answersCalls` excludes the steps which do not.
-/

namespace WebChunk.RegionStore

open WebChunk.Go WebChunk.Semantics

/-- The value ends the call. -/
def ClientCall.accepts (call : ClientCall) (reply : Reply) : Bool :=
  match call.receive reply with
  | .returns _ => true
  | _ => false

/-- The queue and all worker channels are empty, and nobody has a request in hand. -/
structure Quiescent (s : State) : Prop where
  live : s.panicked = none
  queue : s.requests.buffer = []
  router : s.router.inHand = none
  channels : ∀ worker ∈ s.workers, worker.ch.buffer = []
  workers : ∀ worker ∈ s.workers, worker.phase.inHand = none

/-- When nothing is on its way, every waiting call has a value that ends it. -/
def NoLostReplies (s : State) : Prop :=
  Quiescent s → ∀ (id : Nat) (c : Call), s.calls[id]? = some c → c.call.isChunk = true →
    c.phase = .waiting → ∃ reply ∈ c.replies, c.call.accepts reply = true

/-- The request of every waiting call is on its way, or a value that ends it is there. -/
def Covered (s : State) : Prop :=
  s.panicked = none → ∀ (id : Nat) (c : Call), s.calls[id]? = some c → c.call.isChunk = true →
    c.phase = .waiting →
    c.call.request id ∈ s.carried ∨ ∃ reply ∈ c.replies, c.call.accepts reply = true

/-- The answers of the region library after which the worker sends a value which its
request's call accepts, or still has the request. -/
def WorkerPhase.answersOn (cfg : Config) : WorkerPhase → LibraryAnswer → Bool
  | .opening initial, .opened (.error _) => initial.op != .getModDate
  | .processing _, .timestamp _ => cfg.timestampIsTime
  | .processing _, .wrote (.error _) => false
  | .processing _, .read (.error err) => err.isAbsentChunk
  | _, _ => true

/-- The steps which lose no reply: writes succeed, reads succeed or find no chunk, and
`GetChunkModDate` only meets regions which exist and whose timestamps are times. -/
def answersCalls (cfg : Config) (s : State) : Action → Bool
  | .workerCall i answer => (s.workers[i]?).all fun worker => worker.phase.answersOn cfg answer
  | .routerSchedule _ =>
      match s.router with
      | .scheduling loc _ r => r.op != .getModDate || (s.w.get loc).all (·.existing)
      | _ => true
  | _ => true

/-- A call about one chunk accepts every error. -/
theorem accepts_error {call : ClientCall} (single : call.isChunk = true) (err : RegionError) :
    call.accepts (.error err) = true := by
  cases call with
  | getChunksCountRegion _ _ _ _ _ _ => cases single
  | _ => rfl

/-- Reads and writes accept `nil`, the modification date does not. -/
theorem accepts_nil {call : ClientCall} {id : Nat} (single : call.isChunk = true)
    (dataOnly : (call.request id).op ≠ .getModDate) : call.accepts .nil = true := by
  cases call with
  | addChunkRaw _ _ _ _ _ | getChunkRaw _ _ _ _ => rfl
  | getChunkModDate _ _ _ _ => exact absurd rfl dataOnly
  | getChunksCountRegion _ _ _ _ _ _ => cases single

/-- On the answers of `answersOn`, a worker that has done with a request has sent a
value that its call accepts. -/
theorem accepts_regionWorker {cfg : Config} {loc : RegionLocator} {files : Files}
    {phase : WorkerPhase} {answer : LibraryAnswer} {move : WorkerMove} {call : ClientCall}
    {id : Nat} (moves : regionWorker cfg loc files phase answer = some move)
    (inHand : phase.inHand = some (call.request id)) (single : call.isChunk = true)
    (done : move.phase.inHand = none) (answers : phase.answersOn cfg answer = true) :
    ∃ reply ∈ move.replies, call.accepts reply = true := by
  unfold regionWorker at moves
  split at moves
  · rename_i initial result
    cases moves
    cases inHand
    rcases result with err | _
    · have dataOnly : (call.request id).op ≠ .getModDate := by
        simpa [WorkerPhase.answersOn] using answers
      have accepted := accepts_nil single dataOnly
      unfold openRegion at done ⊢
      split at done
      · cases done
      · split at done
        · cases done
        · simp_all
      · exact ⟨.nil, List.mem_singleton_self _, accepted⟩
    · cases done
  · rename_i initial result
    cases moves
    cases inHand
    rcases result with err | _
    · exact ⟨.error err, List.mem_singleton_self _, accepts_error single err⟩
    · cases done
  · cases inHand
    -- The operation decides which answers `processRequest` takes.
    cases call with
    | addChunkRaw _ _ _ _ _ =>
        rcases answer with _ | _ | _ | (_ | _) | _ | _ <;> cases moves
        · cases answers
        · exact ⟨.nil, List.mem_singleton_self _, rfl⟩
    | getChunkModDate _ _ _ _ =>
        rcases answer with _ | _ | stamp | _ | _ | _ <;> cases moves
        have isTime : cfg.timestampIsTime = true := answers
        exact ⟨.time stamp, by simp [isTime], rfl⟩
    | getChunkRaw _ _ _ _ =>
        rcases answer with _ | _ | _ | _ | (err | d) | _ <;> try cases moves
        · have absent : err.isAbsentChunk = true := answers
          simp only [processRequest, ClientCall.request, absent, if_true, Option.some.injEq] at moves
          cases moves
          exact ⟨.nil, List.mem_singleton_self _, rfl⟩
        · exact ⟨.bytes d, List.mem_singleton_self _, rfl⟩
    | getChunksCountRegion _ _ _ _ _ _ => cases single
  · cases moves

/-- Whoever answers a request under the condition sends a value that its call accepts. -/
theorem accepts_answer {cfg : Config} {s : State} {action : Action} {call : ClientCall} {id : Nat}
    {replies : List Reply} {files : Files} (single : call.isChunk = true)
    (answers : answersCalls cfg s action = true)
    (answer : Answer cfg s action (call.request id) replies files) :
    ∃ reply ∈ replies, call.accepts reply = true := by
  cases answer with
  | byRouter inHand entered missing =>
      have dataOnly : (call.request id).op ≠ .getModDate := by
        simpa [answersCalls, inHand, entered, missing] using answers
      exact ⟨.nil, List.mem_singleton_self _, accepts_nil single dataOnly⟩
  | byCall found inHand _ moves done =>
      refine accepts_regionWorker moves inHand single done ?_
      simpa [answersCalls, found] using answers
  | byDrain => exact ⟨_, List.mem_singleton_self _, accepts_error single _⟩

/-- The step lemma: a waiting call stays covered. -/
theorem Covered.preserved {cfg : Config} {s next : State} {action : Action}
    (covered : Covered s) (live : s.panicked = none) (answers : answersCalls cfg s action = true)
    (flow : Flow cfg s action next) : Covered next := by
  intro nextLive id c stored single waiting
  cases flow with
  | invokes call calls _ carried _ =>
      rw [calls] at stored
      rw [carried]
      rcases getElem?_concat_some stored with old | ⟨_, rfl⟩
      · exact covered live id c old single waiting
      · cases waiting
  | sends found _ _ calls _ carried _ =>
      rw [calls] at stored
      rw [carried]
      obtain ⟨before, old, rfl⟩ := getElem?_modify_some stored
      split at single
      · rename_i same
        subst same
        cases found.symm.trans old
        rw [if_pos rfl]
        exact .inl (Multiset.mem_cons_self _ _)
      · rename_i different
        rw [if_neg different] at waiting ⊢
        rcases covered live id before old single waiting with onItsWay | accepted
        · exact .inl (Multiset.mem_cons_of_mem onItsWay)
        · exact .inr accepted
  | returns _ _ _ _ _ calls _ carried _ =>
      rw [calls] at stored
      rw [carried]
      obtain ⟨before, old, rfl⟩ := getElem?_modify_some stored
      split at waiting
      · cases waiting
      · rename_i different
        rw [if_neg different] at single ⊢
        exact covered live id before old single waiting
  | ignores found _ _ buffered ignores calls _ carried _ =>
      rw [calls] at stored
      rw [carried]
      obtain ⟨before, old, rfl⟩ := getElem?_modify_some stored
      split at single
      · rename_i same
        subst same
        cases found.symm.trans old
        rw [if_pos rfl] at waiting ⊢
        rcases covered live _ _ old single waiting with onItsWay | ⟨reply, member, accepted⟩
        · exact .inl onItsWay
        · refine .inr ⟨reply, ?_, accepted⟩
          rw [buffered] at member
          rcases List.mem_cons.mp member with rfl | later
          · simp [ClientCall.accepts, ignores] at accepted
          · exact later
      · rename_i different
        rw [if_neg different] at waiting ⊢
        exact covered live id before old single waiting
  | answers found ofCall calls _ carried answer =>
      rw [calls] at stored
      obtain ⟨before, old, rfl⟩ := getElem?_modify_some stored
      split at single
      · rename_i same
        subst same
        cases found.symm.trans old
        rw [if_pos rfl]
        obtain ⟨reply, member, accepted⟩ := accepts_answer ofCall answers answer
        exact .inr ⟨reply, List.mem_append_right _ member, accepted⟩
      · rename_i different
        rw [if_neg different] at waiting ⊢
        rcases covered live id before old single waiting with onItsWay | accepted
        · rw [carried] at onItsWay
          rcases Multiset.mem_cons.mp onItsWay with other | onItsWay
          · have sameResult := congrArg RegionRequest.result other
            simp only [ClientCall.request_result, Option.some.injEq] at sameResult
            exact absurd sameResult.symm different
          · exact .inl onItsWay
        · exact .inr accepted
  | creates _ _ calls _ carried _ =>
      rw [calls] at stored
      rw [carried]
      exact covered live id c stored single waiting
  | moves calls _ carried _ =>
      rw [carried]
      exact covered live id c ((calls id c single).mp stored) single waiting
  | panics panicked _ _ _ _ => exact absurd nextLive panicked

/-- Nothing is carried in a quiescent state. -/
theorem Quiescent.carried {s : State} (quiescent : Quiescent s) : s.carried = 0 := by
  have loads : ∀ load ∈ s.workers.map Worker.load, load = 0 := by
    intro load member
    obtain ⟨worker, present, rfl⟩ := List.mem_map.mp member
    rw [Worker.load, quiescent.channels worker present, quiescent.workers worker present]
    rfl
  rw [State.carried, inTransit, quiescent.queue, quiescent.router, List.sum_eq_zero loads]
  rfl

/-- In a run whose steps all answer, no reply is lost. -/
theorem noLostReplies (cfg : Config) (files : Files) (actions : List Action)
    (steps : (machine cfg).StepsOnly (fun s action => answersCalls cfg s action = true)
      (State.initial cfg files) actions) :
    (machine cfg).ReachesOnly NoLostReplies (State.initial cfg files) actions := by
  have implies : ∀ {s : State}, s.Placed ∧ Covered s → NoLostReplies s := by
    intro s invariant quiescent id c stored single waiting
    rcases invariant.2 quiescent.live id c stored single waiting with onItsWay | accepted
    · rw [quiescent.carried] at onItsWay
      exact absurd onItsWay (Multiset.notMem_zero _)
    · exact accepted
  refine steps.reachesOnly implies ?_ ⟨placed_initial cfg files, fun _ id c stored => ?_⟩
  · intro s action next invariant answers transition
    obtain ⟨live, transition⟩ := transition_of_step transition
    exact ⟨invariant.1.preserved transition,
      invariant.2.preserved live answers (flow_of_transition invariant.1 transition)⟩
  · simp [State.initial] at stored

/-- A set whose write fails, up to the end of its worker. -/
def failedWrite : List Action :=
  (ClientCall.addChunkRaw "world" "overworld" 0 0 [1]).schedule 0 0 ++
  [.workerCall 0 (.opened (.ok ())), .workerCall 0 (.wrote (.error (.other 28, none))),
    .workerReport 0, .routerReceive 1, .workerReceive 0, .workerReceive 0]

/-- The worker that failed to write ends, and the call waits with nothing on its way. -/
theorem failed_write_never_answered : ∃ (cfg : Config) (files : Files) (actions : List Action)
    (final : State), (machine cfg).Runs (State.initial cfg files) actions final ∧
      ¬ NoLostReplies final := by
  refine ⟨sampleConfig, fun _ => some fun _ => none, failedWrite, _,
    Machine.runs_exec_get (by decide), fun answered => ?_⟩
  obtain ⟨reply, member, _⟩ := answered ⟨by decide, by decide, by decide, by decide, by decide⟩
    0 _ rfl rfl rfl
  exact List.not_mem_nil member

/-- A set that creates its region, and the modification date of its chunk. -/
def answeredCalls : List Action :=
  (ClientCall.addChunkRaw "world" "overworld" 0 0 [1]).schedule 0 0 ++
  [.workerCall 0 (.opened (.error .notExist)), .workerCall 0 (.created (.ok ())),
    .workerCall 0 (.wrote (.ok ()))] ++
  (ClientCall.getChunkModDate "world" "overworld" 0 0).schedule 1 1 ++
  [.workerReceive 0, .workerCall 0 (.timestamp 5), .clientReceive 0, .clientReceive 1]

theorem noLostReplies_answeredCalls :
    (machine sampleConfig).ReachesOnly NoLostReplies
      (State.initial sampleConfig fun _ => none) answeredCalls :=
  noLostReplies sampleConfig (fun _ => none) answeredCalls
    (Machine.stepsOnly_of_checkSteps (by decide))

end WebChunk.RegionStore
