import Mathlib.Data.List.Nodup
import WebChunk.RegionStore.ChannelSafety
import WebChunk.RegionStore.Flow

/-!
# Deadlock of the router and a worker

The router sends requests to the worker channels, and a worker that fails sends its close
message to `s.requests`, which only the router empties. The cycle is closed when the router
waits for room in the channel of a worker that waits for room in `s.requests`.
-/

namespace WebChunk.RegionStore

open WebChunk.Go WebChunk.Semantics

namespace State

/-- The worker whose channel takes the requests of a region, if the channel is full. -/
def fullAt (s : State) (loc : RegionLocator) : Option Nat :=
  match s.w.get loc with
  | some entry => if entry.existing && (s.channel entry).any Chan.full then some entry.c else none
  | none => none

/-- The worker in whose channel the router waits for room. -/
def routerWaitsFor (s : State) : Option Nat :=
  match s.router with
  | .scheduling loc _ _ => s.fullAt loc
  | _ => none

/-- The worker in whose channel the router will wait for room once it has handed its request
to the region it is at. -/
def nextWaitsFor (s : State) : Option Nat :=
  match s.router with
  | .scheduling _ (loc :: _) _ => s.fullAt loc
  | _ => none

/-- The worker is about to send its close message. -/
def reporting (s : State) (i : Nat) : Bool := (s.workers[i]?).any (·.phase.isReporting)

end State

/-- The router waits for room in the channel of a worker, and the worker waits in `sendClose`
for room in `s.requests`. -/
def Deadlocked (s : State) : Prop :=
  s.panicked = none ∧ s.requests.full = true ∧
    ∃ i, s.routerWaitsFor = some i ∧ s.reporting i = true

/-- The steps that close the cycle: the last place in `s.requests` is taken while the router
waits for a reporting worker; the worker that the router waits for gets an error while
`s.requests` is full; or the router turns to a region of such a worker while it is. -/
def closesCycle (s : State) : Action → Bool
  | .clientSend _ | .tickSend => s.requests.lastPlace && s.routerWaitsFor.any s.reporting
  | .workerReport j =>
      s.requests.lastPlace && s.routerWaitsFor.any fun i => i != j && s.reporting i
  | .workerCall j answer =>
      s.requests.full && s.routerWaitsFor == some j &&
        (s.workers[j]?).any fun worker => worker.phase.failsOn answer
  | .routerSchedule _ => s.requests.full && s.nextWaitsFor.any s.reporting
  | _ => false

theorem fullAt_eq_some {s : State} {loc : RegionLocator} {i : Nat} :
    s.fullAt loc = some i ↔ ∃ entry worker, s.w.get loc = some entry ∧ entry.existing = true ∧
      entry.c = i ∧ s.workers[i]? = some worker ∧ worker.ch.full = true := by
  unfold State.fullAt
  split
  · rename_i entry entered
    rw [Option.ite_none_right_eq_some, Bool.and_eq_true, Option.some.injEq]
    constructor
    · rintro ⟨⟨existing, full⟩, rfl⟩
      obtain ⟨ch, channel, full⟩ := (Option.any_eq_true _ _).mp full
      obtain ⟨worker, backing, rfl⟩ := Option.map_eq_some_iff.mp channel
      exact ⟨entry, worker, entered, existing, rfl, backing, full⟩
    · rintro ⟨_, worker, same, existing, rfl, backing, full⟩
      cases entered.symm.trans same
      simp [existing, State.channel, backing, full]
  · rename_i absent
    constructor
    · intro same
      cases same
    · rintro ⟨_, _, same, _⟩
      cases absent.symm.trans same

theorem reporting_iff {s : State} {i : Nat} : s.reporting i = true ↔
    ∃ worker, s.workers[i]? = some worker ∧ worker.phase.isReporting = true := by
  unfold State.reporting
  cases s.workers[i]? <;> simp

/-- The router's place when it waits. -/
theorem routerWaitsFor_eq_some {s : State} {i : Nat} : s.routerWaitsFor = some i ↔
    ∃ loc rest r, s.router = .scheduling loc rest r ∧ s.fullAt loc = some i := by
  unfold State.routerWaitsFor
  split
  · rename_i loc rest r inHand
    exact ⟨fun full => ⟨loc, rest, r, inHand, full⟩, fun ⟨_, _, _, same, full⟩ => by
      cases inHand.symm.trans same
      exact full⟩
  · rename_i elsewhere
    exact ⟨nofun, fun ⟨loc, rest, r, inHand, _⟩ => absurd inHand (elsewhere loc rest r)⟩

/-- A deadlock blocks the router and the worker. -/
theorem Deadlocked.blocks {cfg : Config} {s : State} (deadlocked : Deadlocked s) :
    (∀ now, step cfg s (.routerSchedule now) = none) ∧
      ∃ i, s.reporting i = true ∧ step cfg s (.workerReport i) = none := by
  obtain ⟨live, full, i, waits, reporting⟩ := deadlocked
  obtain ⟨loc, rest, r, inHand, fullAt⟩ := routerWaitsFor_eq_some.mp waits
  obtain ⟨entry, worker, entered, existing, rfl, backing, channelFull⟩ := fullAt_eq_some.mp fullAt
  obtain ⟨_, found, reports⟩ := reporting_iff.mp reporting
  cases backing.symm.trans found
  refine ⟨fun now => ?_, entry.c, reporting, ?_⟩
  · have blocked : worker.ch.send r = .blocked :=
      Chan.send_blocked_iff.mpr (Chan.full_iff.mp channelFull)
    simp [step, live, State.routerSchedule, inHand, State.scheduleWorker, entered, existing,
      State.channel, backing, blocked]
  · have blocked : s.requests.send (.close worker.loc) = .blocked :=
      Chan.send_blocked_iff.mpr (Chan.full_iff.mp full)
    simp only [step, live, State.workerReport, backing]
    cases phase : worker.phase <;> simp [blocked]

/-- What holds in every run: the entries have open channels of their own regions, `s.requests`
holds no more than its capacity, and the router visits no region twice for one request. -/
structure RouterSound (s : State) : Prop where
  placed : s.Placed
  bounded : s.requests.buffer.length ≤ s.requests.capacity
  registered : s.router ≠ .stopped → Registered s.w s.workers
  once : ∀ loc rest r, s.router = .scheduling loc rest r → (loc :: rest).Nodup

/-- A count request names every region once. -/
theorem RegionRequest.regions_nodup (r : RegionRequest) : r.regions.Nodup := by
  unfold RegionRequest.regions
  refine List.nodup_flatMap.mpr ⟨fun dz _ => ?_, ?_⟩
  · refine List.Nodup.map (fun dx dx' same => ?_) List.nodup_range
    simpa using same
  · refine List.nodup_range.pairwise_of_forall_ne fun dz _ dz' _ different => ?_
    intro loc inRow inOther
    simp only [List.mem_map] at inRow inOther
    obtain ⟨_, _, rfl⟩ := inRow
    obtain ⟨_, _, same⟩ := inOther
    simp only [RegionLocator.mk.injEq] at same
    omega

namespace RouterSound

variable {cfg : Config} {s next : State} {action : Action}

theorem initial (cfg : Config) (files : Files) : RouterSound (State.initial cfg files) where
  placed := placed_initial cfg files
  bounded := Nat.zero_le _
  registered _ := ⟨fun loc entry found => by simp [State.initial] at found,
    fun loc other entry entry' found => by simp [State.initial] at found⟩
  once _ _ _ inHand := by cases inHand

/-- The router goes on to a region of the same request. -/
theorem nodup_next {rest : List RegionLocator} {r : RegionRequest} (nodup : rest.Nodup)
    {loc : RegionLocator} {later : List RegionLocator} {r' : RegionRequest}
    (scheduling : RouterPhase.next rest r = .scheduling loc later r') : (loc :: later).Nodup := by
  cases rest with
  | nil => cases scheduling
  | cons _ _ =>
      cases scheduling
      exact nodup

/-- The step lemma. It holds in every run. -/
theorem preserved (sound : RouterSound s) (transition : Transition cfg s action next) :
    RouterSound next := by
  refine ⟨sound.placed.preserved transition, ?_, fun running => ?_, ?_⟩
  · have bounded := sound.bounded
    cases transition with
    | clientSends _ _ sent _ | clientSkips _ _ sent _ | tickSends _ sent | reports _ _ sent =>
        exact Chan.sent_bounded sent
    | routerInactive _ received _ | routerCloses _ received _ _
    | routerFindsNoRegion _ received _ _ | routerTakes _ received _ | routerCounts _ received _
    | routerIgnores _ received _ =>
        exact Chan.received_bounded received bounded
    | _ => exact bounded
  · have ran : s.router ≠ .stopped := fun stopped =>
      running (stopped_of_transition transition stopped)
    refine (sound.registered ran).preserved_of_apart transition running ?_
    intro now r requests entry _ _ _ entered other entry' found _ different shared
    obtain ⟨worker, backing, same⟩ := sound.placed.entered _ entry entered
    obtain ⟨worker', backing', same'⟩ := sound.placed.entered other entry' found
    rw [shared, backing'] at backing
    cases backing
    exact different (same'.symm.trans same)
  · intro loc rest r inHand
    cases transition with
    | routerTakes _ _ _ =>
        cases inHand
        exact List.nodup_singleton _
    | routerCounts _ _ _ => exact nodup_next (RegionRequest.regions_nodup _) inHand
    | schedulePanics before _ _ _ _ | scheduleSends before _ _ _ _ | scheduleAnswers before _ _
    | scheduleStarts before _ =>
        exact nodup_next (List.nodup_cons.mp (sound.once _ _ _ before)).2 inHand
    | routerStops _ _ => cases inHand
    | _ => exact sound.once loc rest r inHand

end RouterSound

/-! ### The steps that close the cycle -/

section Cycle

variable {cfg : Config} {s next : State} {action : Action}

/-- Whether the router waits for a worker depends on the entry and on the worker's channel. -/
theorem fullAt_congr {loc : RegionLocator} {i : Nat} (entry : next.w.get loc = s.w.get loc)
    (channel : (next.workers[i]?).map Worker.ch = (s.workers[i]?).map Worker.ch) :
    next.fullAt loc = some i ↔ s.fullAt loc = some i := by
  have transfer : ∀ {a b : State}, b.w.get loc = a.w.get loc →
      (b.workers[i]?).map Worker.ch = (a.workers[i]?).map Worker.ch →
      a.fullAt loc = some i → b.fullAt loc = some i := by
    intro a b entry channel full
    obtain ⟨found, worker, entered, existing, same, backing, full⟩ := fullAt_eq_some.mp full
    rw [backing] at channel
    obtain ⟨worker', backing', sameChannel⟩ := Option.map_eq_some_iff.mp channel
    exact fullAt_eq_some.mpr
      ⟨found, worker', entry.trans entered, existing, same, backing', sameChannel ▸ full⟩
  exact ⟨transfer entry.symm channel.symm, transfer entry channel⟩

/-- A worker that does not report afterwards closes no cycle. -/
theorem not_deadlocked_of_modify (free : ¬ Deadlocked s) {j : Nat} {f : Worker → Worker}
    {worker : Worker} (found : s.workers[j]? = some worker)
    (moved : next.workers = s.workers.modify j f) (silent : (f worker).phase.isReporting = false)
    (same : next.panicked = s.panicked ∧ next.requests = s.requests ∧ next.router = s.router ∧
      next.w = s.w) : ¬ Deadlocked next := by
  rintro ⟨live, full, i, waits, reporting⟩
  obtain ⟨loc, rest, r, inHand, fullAt⟩ := routerWaitsFor_eq_some.mp waits
  obtain ⟨other, stored, reports⟩ := reporting_iff.mp reporting
  rw [moved] at stored
  obtain ⟨before, storedBefore, rfl⟩ := getElem?_modify_some stored
  by_cases itself : j = i
  · subst itself
    cases found.symm.trans storedBefore
    rw [if_pos rfl, silent] at reports
    cases reports
  · rw [if_neg itself] at reports
    refine free ⟨same.1 ▸ live, same.2.1 ▸ full, i,
      routerWaitsFor_eq_some.mpr ⟨loc, rest, r, same.2.2.1 ▸ inHand, ?_⟩,
      reporting_iff.mpr ⟨before, storedBefore, reports⟩⟩
    refine (fullAt_congr (by rw [same.2.2.2]) ?_).mp fullAt
    rw [moved, stored, if_neg itself, storedBefore]

/-- A router that is not scheduling waits for nobody. -/
theorem not_deadlocked_of_ready (ready : ∀ loc rest r, s.router ≠ .scheduling loc rest r) :
    ¬ Deadlocked s := by
  rintro ⟨_, _, i, waits, _⟩
  obtain ⟨loc, rest, r, inHand, _⟩ := routerWaitsFor_eq_some.mp waits
  exact ready loc rest r inHand

/-- What a step of the router that leaves `s.requests` to others amounts to: it waits at the
next region, if anywhere. -/
theorem deadlocked_iff_of_schedule (sound : RouterSound s) {loc : RegionLocator}
    {rest : List RegionLocator} {r : RegionRequest} (inHand : s.router = .scheduling loc rest r)
    (moved : next.router = .next rest r) (live : next.panicked = none)
    (requests : next.requests = s.requests)
    (entries : ∀ other, other ≠ loc → next.w.get other = s.w.get other)
    (workers : ∀ other entry, other ≠ loc → s.w.get other = some entry →
      next.workers[entry.c]? = s.workers[entry.c]?) :
    Deadlocked next ↔ (s.requests.full && s.nextWaitsFor.any s.reporting) = true := by
  have nodup := sound.once loc rest r inHand
  cases rest with
  | nil =>
      refine iff_of_false (not_deadlocked_of_ready fun _ _ _ => by rw [moved]; nofun) ?_
      simp [State.nextWaitsFor, inHand]
  | cons other later =>
      have different : other ≠ loc := fun same => by
        subst same
        exact (List.nodup_cons.mp nodup).1 List.mem_cons_self
      have waits : next.routerWaitsFor = next.fullAt other := by
        simp [State.routerWaitsFor, moved, RouterPhase.next]
      have willWait : s.nextWaitsFor = s.fullAt other := by simp [State.nextWaitsFor, inHand]
      have sameEntry := entries other different
      rw [willWait, Bool.and_eq_true, Option.any_eq_true, Deadlocked, waits, requests]
      constructor
      · rintro ⟨_, full, i, fullAt, reporting⟩
        obtain ⟨entry, _, entered, _, rfl, _⟩ := fullAt_eq_some.mp fullAt
        have same := workers other entry different (sameEntry.symm.trans entered)
        rw [State.reporting, same] at reporting
        exact ⟨full, entry.c, (fullAt_congr sameEntry (by rw [same])).mp fullAt, reporting⟩
      · rintro ⟨full, i, fullAt, reporting⟩
        obtain ⟨entry, _, entered, _, rfl, _⟩ := fullAt_eq_some.mp fullAt
        have same := workers other entry different entered
        rw [State.reporting, ← same] at reporting
        exact ⟨live, full, entry.c, (fullAt_congr sameEntry (by rw [same])).mpr fullAt, reporting⟩

/-- A send into `s.requests` which leaves the router and the workers where they are. -/
theorem deadlocked_iff_of_sent {r : RegionRequest} {requests : Chan RegionRequest}
    (waits : next.routerWaitsFor = s.routerWaitsFor) (enqueued : next.requests = requests)
    (live : next.panicked = none) (sent : s.requests.send r = .sent requests) :
    Deadlocked next ↔ (s.requests.lastPlace && s.routerWaitsFor.any next.reporting) = true := by
  rw [Deadlocked, enqueued, Chan.full_of_sent sent, waits, Bool.and_eq_true, Option.any_eq_true]
  exact and_iff_right live

/-- A worker that changes its phase leaves the router where it is. -/
theorem routerWaitsFor_modify {j : Nat} {f : Worker → Worker}
    (moved : next.workers = s.workers.modify j f) (channel : ∀ worker, (f worker).ch = worker.ch)
    (router : next.router = s.router) (entries : next.w = s.w) :
    next.routerWaitsFor = s.routerWaitsFor := by
  refine Option.ext fun i => ?_
  have sameAt : ∀ loc, next.fullAt loc = some i ↔ s.fullAt loc = some i := by
    refine fun loc => fullAt_congr (by rw [entries]) ?_
    rw [moved, List.getElem?_modify]
    cases s.workers[i]? with
    | none => rfl
    | some worker => by_cases itself : j = i <;> simp [itself, channel]
  simp only [routerWaitsFor_eq_some, router, sameAt]

/-- Who reports after one worker changed its phase. -/
theorem reporting_modify {j : Nat} {f : Worker → Worker} {worker : Worker}
    (found : s.workers[j]? = some worker) (moved : next.workers = s.workers.modify j f) (i : Nat) :
    next.reporting i = if j = i then (f worker).phase.isReporting else s.reporting i := by
  unfold State.reporting
  rw [moved, List.getElem?_modify]
  by_cases itself : j = i
  · subst itself
    simp [found]
  · simp [itself]

/-- Every step closes the cycle exactly if it is one of those listed. -/
theorem deadlocked_iff (sound : RouterSound s) (free : ¬ Deadlocked s) (live : s.panicked = none)
    (transition : Transition cfg s action next) :
    Deadlocked next ↔ closesCycle s action = true := by
  cases transition with
  | invoke _ | clientReturns _ _ _ _ | clientIgnores _ _ _ _ | tick _ | tickStops _ _
  | closeReturns _ _ => exact iff_of_false free Bool.false_ne_true
  | assertionPanics _ _ _ _ | closePanics _ _ =>
      exact iff_of_false (fun stuck => by cases stuck.1) Bool.false_ne_true
  | clientPanics _ _ isClosed | tickPanics _ isClosed | reportPanics _ _ isClosed =>
      exact iff_of_false (fun stuck => by cases stuck.1)
        (by simp [closesCycle, Chan.lastPlace, isClosed])
  | clientSends _ _ sent _ | clientSkips _ _ sent _ | tickSends _ sent =>
      exact deadlocked_iff_of_sent rfl rfl live sent
  | closes _ _ =>
      refine iff_of_false (fun stuck => ?_) Bool.false_ne_true
      have isOpen := (Chan.full_iff.mp stuck.2.1).1
      cases isOpen
  | routerStops _ _ =>
      exact iff_of_false (not_deadlocked_of_ready fun _ _ _ inHand => by cases inHand)
        Bool.false_ne_true
  | routerInactive ready _ _ | routerCloses ready _ _ _ | routerFindsNoRegion ready _ _ _
  | routerIgnores ready _ _ =>
      exact iff_of_false (not_deadlocked_of_ready fun _ _ _ inHand => by
        cases ready.symm.trans inHand) Bool.false_ne_true
  | routerTakes _ received _ | routerCounts _ received _ =>
      have room := Chan.not_full_of_received received sound.bounded
      exact iff_of_false (fun stuck => Bool.noConfusion (room.symm.trans stuck.2.1))
        Bool.false_ne_true
  | schedulePanics inHand entered existing channel isClosed =>
      obtain ⟨worker, backing, isOpen⟩ :=
        (sound.registered (by simp [inHand])).backed _ _ entered existing
      simp only [State.channel, backing, Option.map_some, Option.some.injEq] at channel
      cases isOpen.symm.trans (channel ▸ isClosed)
  | scheduleSends inHand entered _ _ _ =>
      refine deadlocked_iff_of_schedule sound inHand rfl live rfl
        (fun other different => Map.get_set_of_ne different) fun other entry' different found => ?_
      obtain ⟨worker, backing, region⟩ := sound.placed.entered _ _ entered
      obtain ⟨worker', backing', region'⟩ := sound.placed.entered other entry' found
      have apart : ∀ entry, s.workers[entry]? = some worker → entry ≠ entry'.c := by
        rintro _ backing rfl
        cases backing.symm.trans backing'
        exact different (region'.symm.trans region)
      refine (List.getElem?_modify ..).trans ?_
      simp [apart _ backing]
  | scheduleAnswers inHand _ _ =>
      exact deadlocked_iff_of_schedule sound inHand rfl live rfl
        (fun other different => Map.get_set_of_ne different) fun _ _ _ _ => rfl
  | scheduleStarts inHand _ =>
      refine deadlocked_iff_of_schedule sound inHand rfl live rfl
        (fun other different => Map.get_set_of_ne different) fun other entry different found => ?_
      obtain ⟨_, backing, _⟩ := sound.placed.entered other entry found
      exact (getElem?_concat_of_some backing).trans backing.symm
  | @workerCalls i answer worker move found moves =>
      have reports := isReporting_regionWorker moves
      have waits : State.routerWaitsFor
          { (s.setPhase i move.phase).reply (worker.phase.inHand.bind RegionRequest.result)
              move.replies with files := move.files } = s.routerWaitsFor :=
        routerWaitsFor_modify rfl (fun _ => rfl) rfl rfl
      simp only [closesCycle, found, Option.any_some, Bool.and_eq_true, beq_iff_eq]
      constructor
      · rintro ⟨_, full, k, waitsFor, reporting⟩
        rw [waits] at waitsFor
        rw [reporting_modify found rfl] at reporting
        split at reporting
        · rename_i same
          exact ⟨⟨full, same ▸ waitsFor⟩, reports ▸ reporting⟩
        · exact absurd ⟨live, full, k, waitsFor, reporting⟩ free
      · rintro ⟨⟨full, waitsFor⟩, fails⟩
        refine ⟨live, full, i, waits.trans waitsFor, ?_⟩
        rw [reporting_modify found rfl, if_pos rfl]
        exact reports.trans fails
  | workerTakes found _ _ | workerEnds found _ _ =>
      exact iff_of_false (not_deadlocked_of_modify free found rfl rfl ⟨rfl, rfl, rfl, rfl⟩)
        Bool.false_ne_true
  | workerRefuses found draining _ =>
      refine iff_of_false (not_deadlocked_of_modify free found rfl ?_ ⟨rfl, rfl, rfl, rfl⟩)
        Bool.false_ne_true
      rw [draining]
      rfl
  | @workerDrained i worker err held found _ _ =>
      refine iff_of_false (not_deadlocked_of_modify free found rfl ?_ ⟨rfl, rfl, rfl, rfl⟩)
        Bool.false_ne_true
      cases held <;> rfl
  | @reports i worker err held requests found reporting sent =>
      have waits : State.routerWaitsFor
          { s.setPhase i (.draining err held) with requests := requests } = s.routerWaitsFor :=
        routerWaitsFor_modify rfl (fun _ => rfl) rfl rfl
      refine (deadlocked_iff_of_sent waits rfl live sent).trans ?_
      have others : State.reporting
          { s.setPhase i (.draining err held) with requests := requests } =
            fun k => k != i && s.reporting k := by
        funext k
        rw [reporting_modify found rfl]
        by_cases itself : i = k
        · simp [itself, WorkerPhase.isReporting]
        · simp [itself, Ne.symm itself]
      rw [others]
      rfl

end Cycle

/-- The router and the workers reach no deadlock in exactly the runs in which no step closes
the cycle. -/
theorem not_deadlocked_iff (cfg : Config) (files : Files) (actions : List Action) (final : State)
    (run : (machine cfg).Runs (State.initial cfg files) actions final) :
    (machine cfg).ReachesOnly (fun s => ¬ Deadlocked s) (State.initial cfg files) actions ↔
      (machine cfg).StepsOnly (fun s action => closesCycle s action = false)
        (State.initial cfg files) actions := by
  have initially : RouterSound (State.initial cfg files) ∧ ¬ Deadlocked (State.initial cfg files) :=
    ⟨.initial cfg files, not_deadlocked_of_ready fun _ _ _ inHand => by cases inHand⟩
  refine run.reachesOnly_iff And.right ?_ ?_ initially
  · intro s action next ⟨sound, free⟩ allowed transition
    obtain ⟨live, transition⟩ := transition_of_step transition
    refine ⟨sound.preserved transition, fun stuck => ?_⟩
    cases allowed.symm.trans ((deadlocked_iff sound free live transition).mp stuck)
  · intro s action next ⟨sound, free⟩ closes transition
    obtain ⟨live, transition⟩ := transition_of_step transition
    exact not_not.mpr ((deadlocked_iff sound free live transition).mpr (by simpa using closes))

/-- A storage with the smallest channels. -/
def smallestConfig : Config where
  root := "storage"
  requestsCap := 1
  workerCap := 1
  timestampIsTime := true

/-- A get of one chunk. -/
def getOrigin : ClientCall := .getChunkRaw "world" "overworld" 0 0

/-- The router waits with a third request for the channel of a worker which cannot open its
file. A fourth request fills `s.requests` before the worker could send its close message. -/
def fourRequests : List Action :=
  getOrigin.schedule 0 1 ++ getOrigin.schedule 1 2 ++
  [.invoke getOrigin, .clientSend 2, .routerReceive 3,
    .workerCall 0 (.opened (.error (.other 0))), .invoke getOrigin, .clientSend 3]

/-- Four gets of one chunk of a region that cannot be opened deadlock the store. -/
theorem four_requests_deadlock : ∃ (cfg : Config) (files : Files) (actions : List Action)
    (final : State), 0 < cfg.requestsCap ∧ 0 < cfg.workerCap ∧
      (machine cfg).Runs (State.initial cfg files) actions final ∧ Deadlocked final :=
  ⟨smallestConfig, fun _ => none, fourRequests, _, by decide, by decide,
    Machine.runs_exec_get (by decide), rfl, rfl, 0, rfl, rfl⟩

/-- The worker sends its close message before the fourth request. -/
def reportedInTime : List Action :=
  getOrigin.schedule 0 1 ++ getOrigin.schedule 1 2 ++
  [.invoke getOrigin, .clientSend 2, .routerReceive 3,
    .workerCall 0 (.opened (.error (.other 0))), .workerReport 0, .workerReceive 0,
    .routerSchedule 4, .routerReceive 5, .invoke getOrigin, .clientSend 3, .routerReceive 6,
    .routerSchedule 7]

theorem reported_in_time_not_deadlocked :
    (machine smallestConfig).ReachesOnly (fun s => ¬ Deadlocked s)
      (State.initial smallestConfig fun _ => none) reportedInTime := by
  have checked : (machine smallestConfig).checkSteps (fun s action => !closesCycle s action)
      (State.initial smallestConfig fun _ => none) reportedInTime = true := by decide
  exact (not_deadlocked_iff smallestConfig (fun _ => none) reportedInTime _
    (Machine.runs_exec_get (by decide))).mpr
    ((Machine.stepsOnly_of_checkSteps checked).mono fun _ _ allowed => by simpa using allowed)

end WebChunk.RegionStore
