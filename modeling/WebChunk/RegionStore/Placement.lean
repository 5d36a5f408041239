import WebChunk.RegionStore.Transition

/-!
# Where the requests are

A request travels from its call through `s.requests`, the router and a worker's
channel into the hands of a worker. On its way it stays the request of its call, and
a request about one chunk only ever reaches a worker of that chunk's region.
-/

namespace WebChunk.RegionStore

open WebChunk.Go WebChunk.Semantics

/-- The request is about one chunk. -/
def RegionRequest.isChunk (r : RegionRequest) : Bool :=
  match r.op with
  | .getModDate | .getChunk | .setChunk => true
  | _ => false

/-- The call is about one chunk, so it waits for one value. -/
def ClientCall.isChunk : ClientCall → Bool
  | addChunkRaw .. | getChunkModDate .. | getChunkRaw .. => true
  | getChunksCountRegion .. => false

@[simp] theorem ClientCall.request_isChunk (id : Nat) (call : ClientCall) :
    (call.request id).isChunk = call.isChunk := by
  cases call <;> rfl

@[simp] theorem ClientCall.request_result (id : Nat) (call : ClientCall) :
    (call.request id).result = some id := by
  cases call <;> rfl

/-- A call about one chunk always receives. -/
theorem ClientCall.returnsAtOnce_of_isChunk {call : ClientCall} (single : call.isChunk = true) :
    call.returnsAtOnce = false := by
  cases call <;> first | rfl | cases single

/-- The request stays the same while the router hands it on. -/
theorem RouterPhase.next_scheduling {regions rest : List RegionLocator} {r r' : RegionRequest}
    {loc : RegionLocator} (scheduling : RouterPhase.next regions r = .scheduling loc rest r') :
    r' = r := by
  cases regions with
  | nil => cases scheduling
  | cons other others =>
      cases scheduling
      rfl

/-- The request in the router's hand. -/
def RouterPhase.inHand : RouterPhase → Option RegionRequest
  | scheduling _ _ r => some r
  | _ => none

/-- The request is in the worker's channel or in its hand. -/
def Worker.carries (worker : Worker) (r : RegionRequest) : Prop :=
  r ∈ worker.ch.buffer ∨ worker.phase.inHand = some r

/-- A request on its way is that of a call, or a close message of the package. -/
def Origin (calls : List Call) (r : RegionRequest) : Prop :=
  r.isChunk = false ∧ r.result = none ∨
    ∃ (id : Nat) (c : Call), calls[id]? = some c ∧ r = c.call.request id

/-- No call is forgotten or turned into another. -/
def Extends (calls later : List Call) : Prop :=
  ∀ (id : Nat) (c : Call), calls[id]? = some c → ∃ c', later[id]? = some c' ∧ c'.call = c.call

theorem Extends.refl (calls : List Call) : Extends calls calls := fun _ c found => ⟨c, found, rfl⟩

theorem Extends.modify (calls : List Call) (id : Nat) {f : Call → Call}
    (keeps : ∀ c, (f c).call = c.call) : Extends calls (calls.modify id f) := by
  intro other c found
  refine ⟨if id = other then f c else c, ?_, ?_⟩
  · rw [List.getElem?_modify, found]
    rfl
  · split
    · exact keeps c
    · rfl

theorem Extends.deliver (calls : List Call) (result : Option Nat) (replies : List Reply) :
    Extends calls (deliver calls result replies) := by
  cases result with
  | none => exact .refl calls
  | some id => exact .modify calls id fun _ => rfl

/-- Calls stay what they are. -/
theorem extends_of_transition {cfg : Config} {s next : State} {action : Action}
    (transition : Transition cfg s action next) : Extends s.calls next.calls := by
  cases transition with
  | invoke call =>
      intro id c found
      exact ⟨c, getElem?_concat_of_some found, rfl⟩
  | clientSends _ _ _ _ | clientSkips _ _ _ _ | clientReturns _ _ _ _ | clientIgnores _ _ _ _ =>
      exact .modify s.calls _ fun _ => rfl
  | scheduleAnswers _ _ _ | workerCalls _ _ | workerRefuses _ _ _ => exact .deliver s.calls _ _
  | _ => exact .refl s.calls

theorem Origin.mono {calls later : List Call} {r : RegionRequest} (origin : Origin calls r)
    (extension : Extends calls later) : Origin later r := by
  rcases origin with own | ⟨id, c, found, rfl⟩
  · exact .inl own
  · obtain ⟨c', found', same⟩ := extension id c found
    exact .inr ⟨id, c', found', by rw [same]⟩

/-- Every request on its way has an origin among the calls, and those about one chunk
are on the way to, or at, a worker of their region. -/
structure Placed (calls : List Call) (queue : List RegionRequest) (router : RouterPhase)
    (w : Map RegionLocator RegionInterface) (workers : List Worker) : Prop where
  queued : ∀ r ∈ queue, Origin calls r
  inHand : ∀ loc rest r, router = .scheduling loc rest r →
    Origin calls r ∧ (r.isChunk = true → loc = r.locator ∧ rest = [])
  entered : ∀ loc entry, w.get loc = some entry →
    ∃ worker, workers[entry.c]? = some worker ∧ worker.loc = loc
  carried : ∀ (i : Nat) (worker : Worker), workers[i]? = some worker → ∀ r, worker.carries r →
    Origin calls r ∧ (r.isChunk = true → r.locator = worker.loc)

/-- `Placed` of all that a state holds. -/
def State.Placed (s : State) : Prop :=
  RegionStore.Placed s.calls s.requests.buffer s.router s.w s.workers

namespace Placed

variable {calls : List Call} {queue : List RegionRequest} {router : RouterPhase}
  {w : Map RegionLocator RegionInterface} {workers : List Worker}

theorem mono {later : List Call} (placed : Placed calls queue router w workers)
    (extension : Extends calls later) : Placed later queue router w workers where
  queued r member := (placed.queued r member).mono extension
  inHand loc rest r scheduling :=
    ⟨(placed.inHand loc rest r scheduling).1.mono extension,
      (placed.inHand loc rest r scheduling).2⟩
  entered := placed.entered
  carried i worker found r carries :=
    ⟨(placed.carried i worker found r carries).1.mono extension,
      (placed.carried i worker found r carries).2⟩

/-- A send into `s.requests`. -/
theorem enqueue (placed : Placed calls queue router w workers) {r : RegionRequest}
    (origin : Origin calls r) : Placed calls (queue ++ [r]) router w workers := by
  refine { placed with queued := fun r' member => ?_ }
  rcases List.mem_append.mp member with old | new
  · exact placed.queued r' old
  · exact List.mem_singleton.mp new ▸ origin

/-- A receive from `s.requests`. -/
theorem dequeue {r : RegionRequest} (placed : Placed calls (r :: queue) router w workers) :
    Placed calls queue router w workers :=
  { placed with queued := fun r' member => placed.queued r' (List.mem_cons_of_mem _ member) }

/-- The router moves on. -/
theorem route (placed : Placed calls queue router w workers) {router' : RouterPhase}
    (inHand : ∀ loc rest r, router' = .scheduling loc rest r →
      Origin calls r ∧ (r.isChunk = true → loc = r.locator ∧ rest = [])) :
    Placed calls queue router' w workers :=
  { placed with inHand := inHand }

/-- After one region the router takes the next one: only a count has one. -/
theorem next {loc : RegionLocator} {rest : List RegionLocator} {r : RegionRequest}
    (placed : Placed calls queue (.scheduling loc rest r) w workers) :
    Placed calls queue (.next rest r) w workers := by
  refine placed.route fun loc' rest' r' scheduling => ?_
  obtain ⟨origin, single⟩ := placed.inHand loc rest r rfl
  cases rest with
  | nil => cases scheduling
  | cons other others =>
      cases scheduling
      exact ⟨origin, fun chunk => by cases (single chunk).2⟩

/-- An entry is replaced by one with the same channel. -/
theorem setEntry (placed : Placed calls queue router w workers) {loc : RegionLocator}
    {entry : RegionInterface} (entry' : RegionInterface) (found : w.get loc = some entry)
    (channel : entry'.c = entry.c) : Placed calls queue router (w.set loc entry') workers := by
  refine { placed with entered := fun other stored get => ?_ }
  rw [Map.get_set] at get
  split at get
  · rename_i same
    cases get
    rw [channel, same]
    exact placed.entered loc entry found
  · exact placed.entered other stored get

/-- Entries are dropped. -/
theorem range (placed : Placed calls queue router w workers)
    {visit : RegionLocator → RegionInterface → Option RegionInterface}
    (keeps : ∀ loc entry entry', visit loc entry = some entry' → entry'.c = entry.c) :
    Placed calls queue router (w.range visit) workers := by
  refine { placed with entered := fun loc entry get => ?_ }
  obtain ⟨before, stored, kept⟩ := Option.bind_eq_some_iff.mp get
  rw [keeps loc before entry kept]
  exact placed.entered loc before stored

/-- One worker moves on within its region; what it now carries, it carried before or
may carry. -/
theorem modifyWorker (placed : Placed calls queue router w workers) {i : Nat}
    (f : Worker → Worker) {worker : Worker} (found : workers[i]? = some worker)
    (region : ∀ any, (f any).loc = any.loc)
    (fewer : ∀ r, (f worker).carries r → worker.carries r ∨
      Origin calls r ∧ (r.isChunk = true → r.locator = worker.loc)) :
    Placed calls queue router w (workers.modify i f) := by
  refine { placed with entered := fun loc entry get => ?_, carried := fun j after stored r => ?_ }
  · obtain ⟨backing, stored, same⟩ := placed.entered loc entry get
    refine ⟨if i = entry.c then f backing else backing, ?_, ?_⟩
    · rw [List.getElem?_modify, stored]
      rfl
    · split
      · exact (region backing).trans same
      · exact same
  · obtain ⟨before, storedBefore, rfl⟩ := getElem?_modify_some stored
    split
    · rename_i same
      subst same
      cases found.symm.trans storedBefore
      intro carries
      rw [region]
      rcases fewer r carries with old | new
      · exact placed.carried i worker found r old
      · exact new
    · exact placed.carried j before storedBefore r

/-- The router closes channels, which keep their buffers. -/
theorem mapChannels (placed : Placed calls queue router w workers) {f : Nat → Worker → Worker}
    (keeps : ∀ i worker, (f i worker).loc = worker.loc ∧
      (f i worker).ch.buffer = worker.ch.buffer ∧ (f i worker).phase = worker.phase) :
    Placed calls queue router w (workers.mapIdx f) := by
  refine { placed with entered := fun loc entry get => ?_, carried := fun j after stored r => ?_ }
  · obtain ⟨backing, stored, same⟩ := placed.entered loc entry get
    refine ⟨f entry.c backing, ?_, (keeps _ backing).1.trans same⟩
    rw [List.getElem?_mapIdx, stored]
    rfl
  · obtain ⟨before, storedBefore, rfl⟩ := getElem?_mapIdx_some stored
    obtain ⟨region, buffer, phase⟩ := keeps j before
    rw [Worker.carries, region, buffer, phase]
    exact placed.carried j before storedBefore r

/-- The router starts a worker for the request in its hand. -/
theorem start {loc : RegionLocator} {rest : List RegionLocator} {r : RegionRequest}
    (placed : Placed calls queue (.scheduling loc rest r) w workers) (capacity : Nat)
    (now : Int) :
    Placed calls queue (.scheduling loc rest r) (w.set loc ⟨true, workers.length, now⟩)
      (workers ++ [⟨loc, .make capacity, .opening r⟩]) := by
  refine { placed with entered := fun other entry get => ?_, carried := fun i worker found => ?_ }
  · rw [Map.get_set] at get
    split at get
    · rename_i same
      cases get
      exact ⟨_, List.getElem?_concat_length, same.symm⟩
    · obtain ⟨worker, stored, same⟩ := placed.entered other entry get
      exact ⟨worker, getElem?_concat_of_some stored, same⟩
  · rcases getElem?_concat_some found with old | ⟨_, rfl⟩
    · exact placed.carried i worker old
    · intro r' carries
      have same : r' = r := by simpa [Worker.carries, WorkerPhase.inHand, eq_comm] using carries
      obtain ⟨origin, single⟩ := placed.inHand loc rest r rfl
      rw [same]
      exact ⟨origin, fun chunk => (single chunk).1.symm⟩

end Placed

/-- The step of a worker's library call: it goes on with its request, or has done
with it. Only a set request changes the files then. -/
theorem regionWorker_cases {cfg : Config} {loc : RegionLocator} {files : Files}
    {phase : WorkerPhase} {answer : LibraryAnswer} {move : WorkerMove}
    (moves : regionWorker cfg loc files phase answer = some move) :
    ∃ r, phase.inHand = some r ∧
      (move.phase.inHand = some r ∧ move.replies = [] ∧ (move.files = files ∨
          phase = .creating r ∧ answer = .created (.ok ()) ∧
          move.files = Function.update files (cfg.getRegionPath loc) (some fun _ => none)) ∨
        move.phase.inHand = none ∧ (r.isChunk = false → move.files = files)) := by
  unfold regionWorker at moves
  split at moves
  · rename_i initial result
    cases moves
    refine ⟨initial, rfl, ?_⟩
    unfold openRegion
    split
    · exact .inl ⟨rfl, rfl, .inl rfl⟩
    · split
      · exact .inl ⟨rfl, rfl, .inl rfl⟩
      · exact .inr ⟨rfl, fun _ => rfl⟩
    · exact .inr ⟨rfl, fun _ => rfl⟩
  · rename_i initial result
    cases moves
    refine ⟨initial, rfl, ?_⟩
    unfold createRegion
    split
    · exact .inl ⟨rfl, rfl, .inr ⟨rfl, rfl, rfl⟩⟩
    · exact .inr ⟨rfl, fun _ => rfl⟩
  · rename_i r
    refine ⟨r, rfl, .inr ?_⟩
    unfold processRequest at moves
    split at moves
    case h_4 =>
      split at moves <;> cases moves <;> exact ⟨rfl, fun _ => rfl⟩
    case h_2 op | h_3 op =>
      cases moves
      exact ⟨rfl, fun other => by simp [RegionRequest.isChunk, op] at other⟩
    all_goals cases moves <;> exact ⟨rfl, fun _ => rfl⟩
  · cases moves

/-- The step lemma of the placement. It holds in every run. -/
theorem State.Placed.preserved {cfg : Config} {s next : State} {action : Action}
    (placed : s.Placed) (transition : Transition cfg s action next) : next.Placed := by
  have placed := Placed.mono placed (extends_of_transition transition)
  cases transition with
  | @clientSends id c requests found sending sent receives =>
      obtain ⟨_, rfl⟩ := Chan.send_sent sent
      refine placed.enqueue (.inr ⟨id, { c with phase := .waiting, replies := c.replies }, ?_, rfl⟩)
      simp [State.setCall, found]
  | @clientSkips id c requests found sending sent returns =>
      obtain ⟨_, rfl⟩ := Chan.send_sent sent
      refine placed.enqueue
        (.inr ⟨id, { c with phase := .returned .counted s.clock, replies := c.replies }, ?_, rfl⟩)
      simp [State.setCall, found]
  | tickSends _ sent =>
      obtain ⟨_, rfl⟩ := Chan.send_sent sent
      exact placed.enqueue (.inl ⟨rfl, rfl⟩)
  | routerStops _ _ =>
      refine (placed.mapChannels fun i worker => ?_).route fun _ _ _ stopped => by cases stopped
      split <;> exact ⟨rfl, rfl, rfl⟩
  | @routerInactive now r requests ready received _ =>
      rw [(Chan.receive_received received).1] at placed
      refine (placed.dequeue.mapChannels fun i worker => ?_).range fun loc entry entry' kept => ?_
      · split <;> exact ⟨rfl, rfl, rfl⟩
      · split at kept <;> cases kept
        rfl
  | @routerCloses now r requests entry _ received _ entered =>
      rw [(Chan.receive_received received).1] at placed
      obtain ⟨worker, backing, _⟩ := placed.entered _ entry entered
      have marked := placed.dequeue.setEntry { entry with existing := false } entered rfl
      exact marked.modifyWorker (fun worker => { worker with ch := worker.ch.close }) backing
        (fun _ => rfl) fun r carries => .inl carries
  | routerFindsNoRegion _ received _ _ | routerIgnores _ received _ =>
      rw [(Chan.receive_received received).1] at placed
      exact placed.dequeue
  | @routerTakes now r requests _ received op =>
      rw [(Chan.receive_received received).1] at placed
      refine placed.dequeue.route fun loc rest r' scheduling => ?_
      cases scheduling
      exact ⟨placed.queued r List.mem_cons_self, fun _ => ⟨rfl, rfl⟩⟩
  | @routerCounts now r requests _ received op =>
      rw [(Chan.receive_received received).1] at placed
      refine placed.dequeue.route fun loc rest r' scheduling => ?_
      rw [RouterPhase.next_scheduling scheduling]
      exact ⟨placed.queued r List.mem_cons_self, fun chunk => by
        simp [RegionRequest.isChunk, op] at chunk⟩
  | schedulePanics inHand _ _ _ _ =>
      rw [inHand] at placed
      exact placed.next
  | @scheduleSends now loc rest r entry ch after inHand entered _ channel sent =>
      rw [inHand] at placed
      obtain ⟨worker, backing, region⟩ := placed.entered loc entry entered
      obtain ⟨origin, single⟩ := placed.inHand loc rest r rfl
      obtain ⟨_, rfl⟩ := Chan.send_sent sent
      simp only [State.channel, backing, Option.map_some, Option.some.injEq] at channel
      have touched := placed.setEntry { entry with lastRequest := now } entered rfl
      refine (touched.modifyWorker _ backing (fun _ => by rfl) ?_).next
      rintro r' (buffered | carried)
      · rcases List.mem_append.mp buffered with old | new
        · exact .inl (.inl (channel ▸ old))
        · rw [List.mem_singleton.mp new, region]
          exact .inr ⟨origin, fun chunk => (single chunk).1.symm⟩
      · exact .inl (.inr carried)
  | @scheduleAnswers now loc rest r entry inHand entered _ =>
      rw [inHand] at placed
      exact (placed.setEntry { entry with lastRequest := now } entered rfl).next
  | scheduleStarts inHand _ =>
      rw [inHand] at placed
      exact (placed.start cfg.workerCap _).next
  | workerCalls found moves =>
      refine placed.modifyWorker _ found (fun _ => rfl) fun r carries => .inl ?_
      rcases carries with buffered | carried
      · exact .inl buffered
      · obtain ⟨r', before, ⟨kept, _⟩ | ⟨gone, _⟩⟩ := regionWorker_cases moves
        · exact .inr (before.trans (kept.symm.trans carried))
        · cases gone.symm.trans carried
  | @workerTakes i worker r ch found _ received =>
      have front := (Chan.receive_received received).1
      refine placed.modifyWorker _ found (fun _ => rfl) fun r' carries => .inl (.inl ?_)
      rw [front]
      rcases carries with buffered | carried
      · exact List.mem_cons_of_mem _ buffered
      · cases carried
        exact List.mem_cons_self
  | workerRefuses found _ received =>
      have front := (Chan.receive_received received).1
      refine placed.modifyWorker _ found (fun _ => rfl) fun r carries => .inl ?_
      rcases carries with buffered | carried
      · exact .inl (front ▸ List.mem_cons_of_mem _ buffered)
      · exact .inr carried
  | workerEnds found _ _ =>
      refine placed.modifyWorker _ found (fun _ => rfl) fun r carries => .inl ?_
      rcases carries with buffered | carried
      · exact .inl buffered
      · cases carried
  | workerDrained found _ _ =>
      refine placed.modifyWorker _ found (fun _ => rfl) fun r carries => .inl ?_
      rcases carries with buffered | carried
      · exact .inl buffered
      · split at carried <;> cases carried
  | @reports i worker err held requests found _ sent =>
      obtain ⟨_, rfl⟩ := Chan.send_sent sent
      have notice : Origin s.calls (.close worker.loc) := .inl ⟨rfl, rfl⟩
      refine (placed.enqueue notice).modifyWorker _ found (fun _ => rfl) fun r carries => .inl ?_
      rcases carries with buffered | carried
      · exact .inl buffered
      · cases carried
  | _ => exact placed

end WebChunk.RegionStore
