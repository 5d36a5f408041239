import WebChunk.RegionStore.Placement

/-!
# The wait group of the region store

`Close` closes `s.requests` and waits for `s.wg`. The router, every worker and every
goroutine of a region query add themselves to the wait group before they start and call
`Done` when they have returned. The store's own machine knows who has returned; here the
counter is kept as the code keeps it, together with a record of what was handed on and of
the region files that were opened and closed.
-/

namespace WebChunk.RegionStore

open WebChunk.Go WebChunk.Semantics

/-- Those who call `s.wg.Done`: the router, a worker, and the goroutine of a region query
that gets one chunk. -/
inductive Goroutine where
  | router
  | worker (i : Nat)
  | query (id : Nat)
  deriving DecidableEq

/-- The store with its wait group. `running` has not called `Done` yet. The last three
fields record the history: the requests which the router passed to a worker or answered, and
the workers that opened, and closed, their region file. -/
structure Counted where
  store : State
  wg : Int := 1
  running : List Goroutine := [.router]
  handed : List RegionRequest := []
  opened : List Nat := []
  closed : List Nat := []

/-- `NewFilesystemChunkStorage`: the router was added. -/
def Counted.initial (cfg : Config) (files : Files) : Counted where
  store := .initial cfg files

inductive CountedAction where
  | store (action : Action)
  | query (wname dname : String) (cx cz : Int)
  | done (goroutine : Goroutine)
  | returnClose

/-- The goroutine is past its last statement before `s.wg.Done`. -/
def Goroutine.finished (s : State) : Goroutine → Bool
  | .router => match s.router with | .stopped => true | _ => false
  | .worker i =>
      (s.workers[i]?).any fun worker => match worker.phase with | .ended => true | _ => false
  | .query id => (s.calls[id]?).any fun c => match c.phase with | .returned .. => true | _ => false

namespace State

/-- `scheduleWorker` starts a worker, after `s.wg.Add(1)`. -/
def startsWorker (s : State) : Action → List Goroutine
  | .routerSchedule _ =>
      match s.router with
      | .scheduling loc _ _ => if (s.w.get loc).isNone then [.worker s.workers.length] else []
      | _ => []
  | _ => []

/-- `scheduleWorker` hands the router's request on. -/
def handsOn (s : State) : Action → List RegionRequest
  | .routerSchedule _ => s.router.inHand.toList
  | _ => []

/-- `region.Open` or `region.Create` of a worker succeeds. -/
def opensFile : Action → List Nat
  | .workerCall i (.opened (.ok ())) | .workerCall i (.created (.ok ())) => [i]
  | _ => []

/-- A worker finds its channel closed in `workerLoop`, and closes its region file. -/
def closesFile (s : State) : Action → List Nat
  | .workerReceive i =>
      match s.workers[i]? with
      | some ⟨_, ch, .selecting⟩ =>
          match ch.receive with
          | .drained => [i]
          | _ => []
      | _ => []
  | _ => []

end State

namespace Counted

/-- The wait group and the records after a step of the store. -/
def after (c : Counted) (action : Action) (next : State) : Counted where
  store := next
  wg := c.wg + (c.store.startsWorker action).length
  running := c.running ++ c.store.startsWorker action
  handed := c.handed ++ c.store.handsOn action
  opened := c.opened ++ State.opensFile action
  closed := c.closed ++ c.store.closesFile action

/-- One goroutine of `GetChunksRegion` or `GetChunksRegionRaw`: `s.wg.Add(1)`, and the call
that it makes. -/
def query (c : Counted) (wname dname : String) (cx cz : Int) : Counted :=
  let call : ClientCall := .getChunkRaw wname dname cx cz
  { c.after (.invoke call) (c.store.invoke call) with
    wg := c.wg + 1
    running := c.running ++ [.query c.store.calls.length] }

/-- `s.wg.Done()`. -/
def done (c : Counted) (goroutine : Goroutine) : Option Counted :=
  if goroutine ∈ c.running ∧ goroutine.finished c.store then
    some { c with wg := c.wg - 1, running := c.running.erase goroutine }
  else none

/-- `s.wg.Wait()` in `Close` is over. -/
def returnClose (c : Counted) : Option Counted :=
  if c.store.closeCall = .waiting ∧ c.wg = 0 then
    some { c with store := { c.store with closeCall := .returned } }
  else none

end Counted

/-- The step of the store with its wait group. -/
def countedStep (cfg : Config) (c : Counted) : CountedAction → Option Counted
  | .store .returnClose => none
  | .store action => (step cfg c.store action).map (c.after action)
  | .query wname dname cx cz =>
      if c.store.panicked.isSome then none else some (c.query wname dname cx cz)
  | .done goroutine => if c.store.panicked.isSome then none else c.done goroutine
  | .returnClose => if c.store.panicked.isSome then none else c.returnClose

/-- The region store with its wait group. -/
def counted (cfg : Config) : Machine Counted CountedAction := ⟨countedStep cfg⟩

/-- The branches of `countedStep`. -/
inductive CountedTransition (cfg : Config) (c : Counted) : CountedAction → Counted → Prop where
  | store {action : Action} {next : State} (other : action ≠ .returnClose)
      (stepped : step cfg c.store action = some next) :
      CountedTransition cfg c (.store action) (c.after action next)
  | query (wname dname : String) (cx cz : Int) :
      CountedTransition cfg c (.query wname dname cx cz) (c.query wname dname cx cz)
  | done {goroutine : Goroutine} (member : goroutine ∈ c.running)
      (finished : goroutine.finished c.store = true) :
      CountedTransition cfg c (.done goroutine)
        { c with wg := c.wg - 1, running := c.running.erase goroutine }
  | closeReturns (waiting : c.store.closeCall = .waiting) (zero : c.wg = 0) :
      CountedTransition cfg c .returnClose
        { c with store := { c.store with closeCall := .returned } }

/-- Inversion of `countedStep`. -/
theorem countedTransition_of_step {cfg : Config} {c next : Counted} {action : CountedAction}
    (transition : countedStep cfg c action = some next) :
    c.store.panicked = none ∧ CountedTransition cfg c action next := by
  have running : ∀ {result : Option Counted},
      (if c.store.panicked.isSome then none else result) = some next →
        c.store.panicked = none ∧ result = some next := by
    intro result guarded
    split at guarded
    · cases guarded
    · exact ⟨by simp_all, guarded⟩
  unfold countedStep at transition
  split at transition
  · cases transition
  · rename_i action other
    obtain ⟨store, stepped, rfl⟩ := Option.map_eq_some_iff.mp transition
    exact ⟨(transition_of_step stepped).1, .store other stepped⟩
  · obtain ⟨live, same⟩ := running transition
    cases same
    exact ⟨live, .query _ _ _ _⟩
  · obtain ⟨live, leaves⟩ := running transition
    simp only [Counted.done, Option.ite_none_right_eq_some, Option.some.injEq] at leaves
    obtain ⟨⟨member, finished⟩, rfl⟩ := leaves
    exact ⟨live, .done member finished⟩
  · obtain ⟨live, returns⟩ := running transition
    simp only [Counted.returnClose, Option.ite_none_right_eq_some, Option.some.injEq] at returns
    obtain ⟨⟨waiting, zero⟩, rfl⟩ := returns
    exact ⟨live, .closeReturns waiting zero⟩

end WebChunk.RegionStore
