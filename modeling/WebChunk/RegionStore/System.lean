import WebChunk.Go.Map
import WebChunk.RegionStore.Worker
import WebChunk.Semantics.Machine
import WebChunk.Semantics.Processes

/-!
# The region store as one machine

The state holds everything that the goroutines of a `FilesystemChunkStorage`
share or keep: `s.requests`, the router with its map `w`, the autoclose ticker,
the region workers with their channels, the client calls with their result
channels, and the region files. An action lets one goroutine take its next
communication or library call. Whatever the environment decides (clock readings,
library answers, new calls) is part of the action.

A result channel is an unbounded list here: the calls of this package keep
receiving until they return, so a full result channel only delays its sender.
-/

namespace WebChunk.RegionStore

open WebChunk.Go WebChunk.Semantics

/-- The router's record of one region. `existing` is the source's `exists`; the
channel is named by the worker that receives from it. -/
structure RegionInterface where
  existing : Bool
  c : Nat
  lastRequest : Int

/-- One goroutine of `regionWorker` and the channel made for it. -/
structure Worker where
  loc : RegionLocator
  ch : Chan RegionRequest
  phase : WorkerPhase

/-- Where the router is: at `range s.requests`, with a request still to be handed
to the regions listed, or past its loop. -/
inductive RouterPhase where
  | ready
  | scheduling (loc : RegionLocator) (rest : List RegionLocator) (r : RegionRequest)
  | stopped

/-- The autoclose goroutine: at its select, sending, or returned. -/
inductive TickerPhase where
  | selecting
  | sending
  | stopped
  deriving DecidableEq

/-- A client call: sending its request, receiving, or returned at a moment of the
logical clock. -/
inductive CallPhase where
  | sending
  | waiting
  | returned (ret : Return) (at_ : Nat)
  deriving DecidableEq

/-- One client call with the values its result channel holds. -/
structure Call where
  call : ClientCall
  phase : CallPhase
  replies : List Reply
  invokedAt : Nat

/-- The one call of `FilesystemChunkStorage.Close`. -/
inductive CloseCall where
  | notCalled
  | waiting
  | returned
  deriving DecidableEq

/-- The run-time panics of these goroutines; each ends the process. -/
inductive Panic where
  | sendOnClosed
  | closeOfClosed
  | typeAssertion
  deriving DecidableEq

structure State where
  requests : Chan RegionRequest
  router : RouterPhase
  w : Map RegionLocator RegionInterface
  ticker : TickerPhase
  closeTicker : Bool
  workers : List Worker
  calls : List Call
  files : Files
  closeCall : CloseCall
  panicked : Option Panic
  /-- Counts the invocations and returns of client calls, to order them. -/
  clock : Nat

/-- `NewFilesystemChunkStorage` over the region files found on disk. -/
def State.initial (cfg : Config) (files : Files) : State where
  requests := .make cfg.requestsCap
  router := .ready
  w := .empty
  ticker := .selecting
  closeTicker := false
  workers := []
  calls := []
  files := files
  closeCall := .notCalled
  panicked := none
  clock := 0

/-- The result channels after values were sent to one of them. -/
def deliver (calls : List Call) (result : Option Nat) (replies : List Reply) : List Call :=
  match result with
  | some id => calls.modify id fun c => { c with replies := c.replies ++ replies }
  | none => calls

/-- The router after a request was handed to one region: on to the next one. -/
def RouterPhase.next (rest : List RegionLocator) (r : RegionRequest) : RouterPhase :=
  match rest with
  | [] => .ready
  | loc :: rest => .scheduling loc rest r

namespace State

def panic (s : State) (p : Panic) : State := { s with panicked := some p }

/-- Send values to the result channel of a request. -/
def reply (s : State) (result : Option Nat) (replies : List Reply) : State :=
  { s with calls := deliver s.calls result replies }

def setPhase (s : State) (i : Nat) (phase : WorkerPhase) : State :=
  { s with workers := s.workers.modify i fun worker => { worker with phase := phase } }

def setChannel (s : State) (i : Nat) (ch : Chan RegionRequest) : State :=
  { s with workers := s.workers.modify i fun worker => { worker with ch := ch } }

def setWorker (s : State) (i : Nat) (ch : Chan RegionRequest) (phase : WorkerPhase) : State :=
  { s with workers := s.workers.modify i fun worker => { worker with ch := ch, phase := phase } }

def setCall (s : State) (id : Nat) (phase : CallPhase) (replies : List Reply) : State :=
  { s with calls := s.calls.modify id fun c => { c with phase := phase, replies := replies } }

/-- The worker channel an entry of the router's map sends to. -/
def channel (s : State) (entry : RegionInterface) : Option (Chan RegionRequest) :=
  (s.workers[entry.c]?).map Worker.ch

/-! ### The router -/

/-- Hand the request in the router's hand on to the remaining regions. -/
def nextRegion (s : State) (rest : List RegionLocator) (r : RegionRequest) : State :=
  { s with router := .next rest r }

/-- `c.lastRequest = time.Now(); w[l] = c`. -/
def touch (s : State) (loc : RegionLocator) (entry : RegionInterface) (now : Int) : State :=
  { s with w := s.w.set loc { entry with lastRequest := now } }

/-- Make a channel, start a worker on it and enter both into the map. -/
def startWorker (cfg : Config) (s : State) (loc : RegionLocator) (r : RegionRequest)
    (now : Int) : State :=
  { s with
    workers := s.workers ++ [⟨loc, .make cfg.workerCap, .opening r⟩]
    w := s.w.set loc ⟨true, s.workers.length, now⟩ }

/-- `scheduleWorker`: send to the region's worker, answer `nil` for a region
marked as not existing, or start a worker. `none` while the worker's channel is
full. -/
def scheduleWorker (cfg : Config) (s : State) (loc : RegionLocator) (r : RegionRequest)
    (now : Int) : Option State :=
  match s.w.get loc with
  | some entry =>
      if entry.existing then
        match s.channel entry with
        | none => none
        | some ch =>
          match ch.send r with
          | .blocked => none
          | .panics => some (s.panic .sendOnClosed)
          | .sent ch => some ((s.setChannel entry.c ch).touch loc entry now)
      else some ((s.reply r.result [.nil]).touch loc entry now)
  | none => some (s.startWorker cfg loc r now)

/-- The entry of `loc` is open and among the doomed ones, and its channel is that
of worker `i`. -/
def closes (s : State) (doomed : RegionInterface → Bool) (loc : RegionLocator) (i : Nat) : Bool :=
  match s.w.get loc with
  | some entry => entry.existing && doomed entry && entry.c == i
  | none => false

/-- Some doomed open entry has the channel of worker `i`. -/
def closing (s : State) (doomed : RegionInterface → Bool) (i : Nat) : Bool :=
  decide (∃ loc ∈ s.w.keys, s.closes doomed loc i)

/-- Closing the channels of all doomed open entries closes one of them a second
time: it is closed already, or two of the entries share it. -/
def closesTwice (s : State) (doomed : RegionInterface → Bool) : Bool :=
  decide (∃ i ∈ List.range s.workers.length,
    (s.closing doomed i ∧ (s.workers[i]?).any fun worker => worker.ch.closed) ∨
    ∃ loc ∈ s.w.keys, ∃ other ∈ s.w.keys,
      loc ≠ other ∧ s.closes doomed loc i ∧ s.closes doomed other i)

theorem closes_iff {s : State} {doomed : RegionInterface → Bool} {loc : RegionLocator} {i : Nat} :
    s.closes doomed loc i = true ↔ ∃ entry, s.w.get loc = some entry ∧ entry.existing = true ∧
      doomed entry = true ∧ entry.c = i := by
  unfold closes
  cases s.w.get loc with
  | none => simp
  | some entry => simp [and_assoc]

theorem closing_iff {s : State} {doomed : RegionInterface → Bool} {i : Nat} :
    s.closing doomed i = true ↔ ∃ loc, s.closes doomed loc i = true := by
  unfold closing
  rw [decide_eq_true_iff]
  constructor
  · rintro ⟨loc, _, closes⟩
    exact ⟨loc, closes⟩
  · rintro ⟨loc, closes⟩
    obtain ⟨entry, found, _⟩ := closes_iff.mp closes
    exact ⟨loc, (s.w.mem_keys loc).mpr (by simp [found]), closes⟩

/-- Close the channels of all doomed open entries. -/
def closeEntries (s : State) (doomed : RegionInterface → Bool) : State :=
  { s with
    workers := s.workers.mapIdx fun i worker =>
      if s.closing doomed i then { worker with ch := worker.ch.close } else worker
    panicked := if s.closesTwice doomed then some .closeOfClosed else s.panicked }

/-- `time.Since(v.lastRequest) > 1*time.Minute`, in nanoseconds. -/
def inactive (now : Int) (entry : RegionInterface) : Bool :=
  now - entry.lastRequest > 60 * 1000000000

/-- `regionRouterCloseInactive`: close and forget every inactive region. -/
def closeInactive (s : State) (now : Int) : State :=
  { s.closeEntries (inactive now) with
    w := s.w.range fun _ entry => if inactive now entry then none else some entry }

/-- `regionRouterCloseRegion`: close the region's channel without looking at
`exists`, and mark it as not existing. -/
def closeRegion (s : State) (loc : RegionLocator) : State :=
  match s.w.get loc with
  | none => s
  | some entry =>
      { s with
        workers := s.workers.modify entry.c fun worker => { worker with ch := worker.ch.close }
        w := s.w.set loc { entry with existing := false }
        panicked := if (s.channel entry).any Chan.closed then some .closeOfClosed else s.panicked }

/-- What follows the router's loop: stop the ticker and close every open region. -/
def stopRouter (s : State) : State :=
  { s.closeEntries (fun _ => true) with router := .stopped, closeTicker := true }

/-- One iteration of `range s.requests`, up to the regions it has to schedule. -/
def routerReceive (s : State) (now : Int) : Option State :=
  match s.router with
  | .ready =>
      match s.requests.receive with
      | .blocked => none
      | .drained => some s.stopRouter
      | .received r requests =>
          let s := { s with requests := requests }
          match r.op with
          | .closeInactive => some (s.closeInactive now)
          | .closeRegion => some (s.closeRegion r.closeLocator)
          | .getModDate | .getChunk | .setChunk => some (s.nextRegion [r.locator] r)
          | .countIndividualChunks => some (s.nextRegion r.regions r)
          | .countRegionChunks => some s
  | _ => none

/-- Schedule the request in the router's hand for its next region. -/
def routerSchedule (cfg : Config) (s : State) (now : Int) : Option State :=
  match s.router with
  | .scheduling loc rest r => (s.scheduleWorker cfg loc r now).map fun s => s.nextRegion rest r
  | _ => none

/-! ### The autoclose ticker -/

/-- `<-autocloseTicker.C` is ready. -/
def tick (s : State) : Option State :=
  if s.ticker = .selecting then some { s with ticker := .sending } else none

/-- Send `regionRouterCloseInactive`. -/
def tickSend (s : State) : Option State :=
  if s.ticker = .sending then
    match s.requests.send { op := .closeInactive } with
    | .blocked => none
    | .panics => some (s.panic .sendOnClosed)
    | .sent requests => some { s with requests := requests, ticker := .selecting }
  else none

/-- `<-closeTicker` is ready. -/
def tickStop (s : State) : Option State :=
  if s.ticker = .selecting ∧ s.closeTicker then some { s with ticker := .stopped } else none

/-! ### The workers -/

/-- One library call of worker `i`. -/
def workerCall (cfg : Config) (s : State) (i : Nat) (answer : LibraryAnswer) : Option State :=
  match s.workers[i]? with
  | none => none
  | some worker =>
      match regionWorker cfg worker.loc s.files worker.phase answer with
      | none => none
      | some move =>
          let result := worker.phase.inHand.bind RegionRequest.result
          some { (s.setPhase i move.phase).reply result move.replies with files := move.files }

/-- A receive of worker `i`, in `workerLoop` or in `closeLoop2`. -/
def workerReceive (s : State) (i : Nat) : Option State :=
  match s.workers[i]? with
  | none => none
  | some worker =>
      match worker.phase, worker.ch.receive with
      | .selecting, .received r ch => some (s.setWorker i ch (.processing r))
      | .selecting, .drained => some (s.setPhase i .ended)
      | .draining err _, .received r ch => some ((s.setChannel i ch).reply r.result [.error err])
      | .draining _ held, .drained => some (s.setPhase i (if held then .selecting else .ended))
      | _, _ => none

/-- The send of `sendClose` in worker `i`. -/
def workerReport (s : State) (i : Nat) : Option State :=
  match s.workers[i]? with
  | none => none
  | some worker =>
      match worker.phase with
      | .reporting err held =>
          match s.requests.send (.close worker.loc) with
          | .blocked => none
          | .panics => some (s.panic .sendOnClosed)
          | .sent requests => some { s.setPhase i (.draining err held) with requests := requests }
      | _ => none

/-! ### The callers -/

/-- A client starts a call. -/
def invoke (s : State) (call : ClientCall) : State :=
  { s with calls := s.calls ++ [⟨call, .sending, [], s.clock⟩], clock := s.clock + 1 }

/-- `s.requests <- regionRequest{..}` of call `id`. -/
def clientSend (s : State) (id : Nat) : Option State :=
  match s.calls[id]? with
  | none => none
  | some c =>
      if c.phase = .sending then
        match s.requests.send (c.call.request id) with
        | .blocked => none
        | .panics => some (s.panic .sendOnClosed)
        | .sent requests =>
            let s := { s with requests := requests }
            if c.call.returnsAtOnce then
              some { s.setCall id (.returned .counted s.clock) c.replies with clock := s.clock + 1 }
            else some (s.setCall id .waiting c.replies)
      else none

/-- Call `id` receives one value from its result channel. -/
def clientReceive (s : State) (id : Nat) : Option State :=
  match s.calls[id]? with
  | none => none
  | some c =>
      if c.phase = .waiting then
        match c.replies with
        | [] => none
        | reply :: replies =>
            match c.call.receive reply with
            | .returns ret =>
                some { s.setCall id (.returned ret s.clock) replies with clock := s.clock + 1 }
            | .keepsWaiting => some (s.setCall id .waiting replies)
            | .panics => some (s.panic .typeAssertion)
      else none

/-- `close(s.requests)` of the one call of `Close`. -/
def callClose (s : State) : Option State :=
  if s.closeCall = .notCalled then
    if s.requests.closed then some (s.panic .closeOfClosed)
    else some { s with requests := s.requests.close, closeCall := .waiting }
  else none

/-- `s.wg.Wait()` is over: the router and every worker have returned. -/
def returnClose (s : State) : Option State :=
  match s.closeCall, s.router with
  | .waiting, .stopped =>
      if s.workers.all fun worker => match worker.phase with | .ended => true | _ => false then
        some { s with closeCall := .returned }
      else none
  | _, _ => none

end State

/-- The next communication or library call of one goroutine. -/
inductive Action where
  | invoke (call : ClientCall)
  | clientSend (id : Nat)
  | clientReceive (id : Nat)
  | tick
  | tickSend
  | tickStop
  | routerReceive (now : Int)
  | routerSchedule (now : Int)
  | workerCall (i : Nat) (answer : LibraryAnswer)
  | workerReceive (i : Nat)
  | workerReport (i : Nat)
  | callClose
  | returnClose

/-- The step of the region store. A panic ends the process. -/
def step (cfg : Config) (s : State) (action : Action) : Option State :=
  if s.panicked.isSome then none
  else
    match action with
    | .invoke call => some (s.invoke call)
    | .clientSend id => s.clientSend id
    | .clientReceive id => s.clientReceive id
    | .tick => s.tick
    | .tickSend => s.tickSend
    | .tickStop => s.tickStop
    | .routerReceive now => s.routerReceive now
    | .routerSchedule now => s.routerSchedule cfg now
    | .workerCall i answer => s.workerCall cfg i answer
    | .workerReceive i => s.workerReceive i
    | .workerReport i => s.workerReport i
    | .callClose => s.callClose
    | .returnClose => s.returnClose

/-- The region store with its environment. -/
def machine (cfg : Config) : Machine State Action := ⟨step cfg⟩

/-- A storage for concrete runs. -/
def sampleConfig : Config where
  root := "storage"
  timestampIsTime := true

/-- The requests and the router's work of one client call on a single region. -/
def ClientCall.schedule (call : ClientCall) (id : Nat) (now : Int) : List Action :=
  [.invoke call, .clientSend id, .routerReceive now, .routerSchedule now]

end WebChunk.RegionStore
