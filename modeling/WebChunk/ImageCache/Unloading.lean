import WebChunk.ImageCache.Waiters
import WebChunk.Semantics.Recording

/-!
# Are unloaded entries unused?

An unload goes by `lastUse`, which is stamped where an entry is made; a get that is answered
from the entry or a set drawn on it does not renew it. A record of these uses is carried along.
-/

namespace WebChunk.ImageCache

open WebChunk.Go WebChunk.Semantics

/-- The tile from whose entry a get was answered. Above the storage level there is none. -/
def Answer.entry (a : Answer) : Option ImageLocation :=
  if a.loc.S > StorageLevel then none
  else if a.loc.S = StorageLevel then some a.loc
  else getStorageLevelLoc a.loc

/-- The entries from which gets were answered or on which sets were drawn since. -/
def Processor.usedUntil (p next : Processor) : List ImageLocation :=
  (next.answers.drop p.answers.length).filterMap Answer.entry ++
    (next.sets.drop p.sets.length).map CacheTask.loc

/-- The time at which the processor takes a task or a read. -/
def Action.reading : Action → Option Int
  | .takeTask now | .takeReturn now => some now
  | _ => none

/-- The times at which each entry was used since it was made. -/
abbrev Uses := ImageLocation → List Int

def noUses : Uses := fun _ => []

/-- The record after a step. The uses of an entry go with it. -/
def recordUses (uses : Uses) (s : State) (action : Action) (next : State) : Uses := fun loc =>
  if (next.p.cache.get loc).isNone then []
  else if loc ∈ s.p.usedUntil next.p then uses loc ++ action.reading.toList
  else uses loc

/-- The image cache with the record of its uses. -/
def watched (cfg : Config) : Machine (Uses × State) Action := (machine cfg).recording recordUses

/-- The stamp of every entry is the time of its latest use. -/
def StampsLatestUse (s : Uses × State) : Prop :=
  ∀ loc v, s.2.p.cache.get loc = some v → ∀ t, (s.1 loc).getLast? = some t → v.lastUse = t

/-- An unload drops no entry that was used within the interval. -/
def UnloadsUnused (cfg : Config) (s : Uses × State) (action : Action) : Prop :=
  ∀ now, action = .unload now → ∀ loc v, s.2.p.cache.get loc = some v →
    (s.2.p.processUnload cfg.unusedUnload now).cache.get loc = none →
    ∀ t ∈ s.1 loc, now - t > cfg.unusedUnload

/-- The task uses no entry, or one that was stamped at the same time. -/
def Processor.usesAtStamp (p : Processor) (task : CacheTask) (now : Int) : Bool :=
  match task.img with
  | none =>
      if task.loc.S > StorageLevel then true
      else if task.loc.S = StorageLevel then
        (p.cache.get task.loc).all fun v => decide (v.lastUse = now)
      else
        (getStorageLevelLoc task.loc).all fun loc =>
          (p.cache.get loc).all fun v => v.imageUnloaded || decide (v.lastUse = now)
  | some _ =>
      !decide (task.loc.S = StorageLevel ∨ task.loc.S = 0) ||
        (p.cache.get task.loc).all fun v => decide (v.lastUse = now)

/-- The read failed, nobody waits for it, or the stamp of its tile is of the same time. -/
def Processor.wakesAtStamp (p : Processor) (task : IoReturn) (now : Int) : Bool :=
  match task.img with
  | none => true
  | some image =>
      ((p.cacheReturn.get task.loc).getD []).isEmpty ||
        decide ((p.cache.get task.loc).elim image.lastUse CachedImage.lastUse = now)

/-- Entries are used at the time of their stamp only. -/
def usesAtStamp (s : State) : Action → Bool
  | .takeTask now =>
      match s.tasks.buffer with
      | task :: _ => s.p.usesAtStamp task now
      | [] => true
  | .takeReturn now =>
      match s.ioReturn.buffer with
      | task :: _ => s.p.wakesAtStamp task now
      | [] => true
  | _ => true

/-! ### Uses -/

variable {p next : Processor} {task : CacheTask} {now : Int}

theorem usedUntil_of_append {answers : List Answer} {sets : List CacheTask}
    (answered : next.answers = p.answers ++ answers) (accepted : next.sets = p.sets ++ sets) :
    p.usedUntil next = answers.filterMap Answer.entry ++ sets.map CacheTask.loc := by
  rw [Processor.usedUntil, answered, accepted, List.drop_left, List.drop_left]

/-- Without an answer or a set nothing is used. -/
theorem usedUntil_of_same (answers : next.answers = p.answers) (sets : next.sets = p.sets) :
    p.usedUntil next = [] := by
  have answered : next.answers = p.answers ++ [] := by rw [answers, List.append_nil]
  have accepted : next.sets = p.sets ++ [] := by rw [sets, List.append_nil]
  exact usedUntil_of_append answered accepted

theorem usedUntil_set (answers : next.answers = p.answers) (sets : next.sets = p.sets ++ [task]) :
    p.usedUntil next = [task.loc] := by
  have answered : next.answers = p.answers ++ [] := by rw [answers, List.append_nil]
  exact usedUntil_of_append answered sets

theorem usedUntil_answer (p : Processor) (task : CacheTask) (image : CachedImage) :
    p.usedUntil (p.answer task image) =
      (Answer.entry ⟨task.ret, task.loc, image, p.sets.length⟩).toList := by
  have answered : (p.answer task image).answers =
    p.answers ++ [⟨task.ret, task.loc, image, p.sets.length⟩] := rfl
  have accepted : (p.answer task image).sets = p.sets ++ [] := (List.append_nil _).symm
  rw [usedUntil_of_append answered accepted]
  cases used : Answer.entry ⟨task.ret, task.loc, image, p.sets.length⟩ <;> simp [used]

/-- Every entry that was used since has the stamp `now`. -/
def StampedAt (now : Int) (p next : Processor) : Prop :=
  ∀ loc ∈ p.usedUntil next, ∀ v, next.cache.get loc = some v → v.lastUse = now

theorem stampedAt_of_same (answers : next.answers = p.answers) (sets : next.sets = p.sets) :
    StampedAt now p next := by
  intro loc member
  rw [usedUntil_of_same answers sets] at member
  cases member

/-- One entry was used. -/
theorem stampedAt_iff {loc : ImageLocation} {v : CachedImage} (used : p.usedUntil next = [loc])
    (found : next.cache.get loc = some v) : StampedAt now p next ↔ v.lastUse = now := by
  constructor
  · intro stamped
    exact stamped loc (used ▸ List.mem_singleton_self loc) v found
  · intro current other member v' there
    rw [used, List.mem_singleton] at member
    subst member
    cases found.symm.trans there
    exact current

/-- A task uses an entry at the time of its stamp exactly when the condition says so. -/
theorem stampedAt_taskStep_iff (taken : TaskStep p task now next) :
    StampedAt now p next ↔ p.usesAtStamp task now := by
  cases taken with
  | tooLarge isGet large =>
      refine iff_of_true ?_ (by simp [Processor.usesAtStamp, isGet, large])
      intro loc member
      rw [usedUntil_answer] at member
      simp [Answer.entry, large] at member
  | @nativeHit l isGet native hit =>
      have used : p.usedUntil (p.answer task (copyCachedImage l)) = [task.loc] := by
        rw [usedUntil_answer]
        simp [Answer.entry, native]
      rw [stampedAt_iff used hit]
      simp [Processor.usesAtStamp, isGet, native, hit]
  | nativeMiss isGet native miss =>
      exact iff_of_true (stampedAt_of_same rfl rfl)
        (by simp [Processor.usesAtStamp, isGet, native, miss])
  | smallerWaits isGet smaller tile hit unloaded =>
      have notLarge : ¬ task.loc.S > StorageLevel := Int.not_lt.mpr smaller.le
      exact iff_of_true (stampedAt_of_same rfl rfl)
        (by simp [Processor.usesAtStamp, isGet, notLarge, smaller.ne, tile, hit, unloaded])
  | @smallerHit loc l image isGet smaller tile hit loaded copy =>
      have notLarge : ¬ task.loc.S > StorageLevel := Int.not_lt.mpr smaller.le
      have used : p.usedUntil (p.answer task image) = [loc] := by
        rw [usedUntil_answer]
        simp [Answer.entry, notLarge, smaller.ne, tile]
      rw [stampedAt_iff used hit]
      simp [Processor.usesAtStamp, isGet, notLarge, smaller.ne, tile, hit, loaded]
  | smallerMiss isGet smaller tile miss =>
      have notLarge : ¬ task.loc.S > StorageLevel := Int.not_lt.mpr smaller.le
      exact iff_of_true (stampedAt_of_same rfl rfl)
        (by simp [Processor.usesAtStamp, isGet, notLarge, smaller.ne, tile, miss])
  | setIgnored isSet other =>
      exact iff_of_true (stampedAt_of_same rfl rfl)
        (by simp [Processor.usesAtStamp, isSet, other])
  | setHit isSet scale hit =>
      refine Iff.trans (stampedAt_iff (usedUntil_set rfl rfl) (Map.get_set_self _ _ _)) ?_
      simp [Processor.usesAtStamp, isSet, scale, hit]
  | setMiss isSet scale miss tile =>
      refine Iff.trans (stampedAt_iff (usedUntil_set rfl rfl) (Map.get_set_self _ _ _)) ?_
      simp [Processor.usesAtStamp, isSet, miss]

/-- A task that panics uses nothing. -/
theorem usesAtStamp_of_panic (panics : p.processTask task now = none) :
    p.usesAtStamp task now := by
  obtain ⟨isGet, negative⟩ := negative_of_panic panics
  have smaller : task.loc.S < StorageLevel := negative.trans (by decide)
  have notLarge : ¬ task.loc.S > StorageLevel := Int.not_lt.mpr smaller.le
  simp [Processor.usesAtStamp, isGet, notLarge, smaller.ne, getStorageLevelLoc_negative negative]

/-- The gets that waited for a tile are answered from its entry. -/
theorem entry_of_waits {loc : ImageLocation} {a : Answer} (waits : Waits loc task)
    (same : a.loc = task.loc) : a.entry = some loc := by
  obtain ⟨-, ⟨rfl, native⟩ | ⟨smaller, tile⟩⟩ := waits
  · simp [Answer.entry, same, native]
  · have notLarge : ¬ task.loc.S > StorageLevel := Int.not_lt.mpr smaller.le
    simp [Answer.entry, same, notLarge, smaller.ne, tile]

/-- A read that comes back uses the entry of its tile when a get waited for it. -/
theorem mem_usedUntil_processReturn {loc other : ImageLocation} {image : CachedImage}
    (belong : WaitersBelong p) (loaded : image.imageUnloaded = false)
    (processed : p.processReturn ⟨loc, some image⟩ now = some next) :
    other ∈ p.usedUntil next ↔ other = loc ∧ (p.cacheReturn.get loc).getD [] ≠ [] := by
  obtain ⟨answers, _, same, -, each, -⟩ := processReturn_eq belong loaded processed
  have answered : next.answers = p.answers ++ answers := by rw [same]
  have accepted : next.sets = p.sets ++ [] := by
    rw [same, List.append_nil]
    exact enterReturn_sets p loc image
  have waiting := belong.waits loc
  rw [usedUntil_of_append answered accepted, List.map_nil, List.append_nil]
  generalize (p.cacheReturn.get loc).getD [] = waiters at each waiting
  cases each with
  | nil => simp
  | @cons task a waiters answers here later =>
      have from_ : ∀ b ∈ a :: answers, b.entry = some loc := by
        intro b member
        obtain ⟨waiter, inside, image, -, rfl⟩ := exists_of_forall₂ (.cons here later) member
        exact entry_of_waits (waiting waiter inside) rfl
      rw [List.mem_filterMap]
      constructor
      · rintro ⟨b, member, used⟩
        exact ⟨Option.some.inj (used.symm.trans (from_ b member)), List.cons_ne_nil _ _⟩
      · rintro ⟨rfl, -⟩
        exact ⟨a, List.mem_cons_self, from_ a List.mem_cons_self⟩

theorem entered_lastUse (p : Processor) (loc : ImageLocation) (image : CachedImage) :
    (p.entered loc image).lastUse =
      (p.cache.get loc).elim image.lastUse CachedImage.lastUse := by
  unfold Processor.entered
  cases p.cache.get loc with
  | none => rfl
  | some t =>
      simp only [Option.elim_some, processCacheLoad]
      split
      · rfl
      · split <;> rfl

/-- A read is answered from at the time of the stamp exactly when the condition says so. -/
theorem stampedAt_processReturn_iff {task : IoReturn} (belong : WaitersBelong p)
    (fresh : ∀ image, task.img = some image → image.fresh)
    (processed : p.processReturn task now = some next) :
    StampedAt now p next ↔ p.wakesAtStamp task now := by
  obtain ⟨loc, img⟩ := task
  cases img with
  | none =>
      cases processed
      exact iff_of_true (stampedAt_of_same rfl rfl) rfl
  | some image =>
      have loaded := (fresh image rfl).1
      have used : ∀ other, other ∈ p.usedUntil next ↔ _ := fun other =>
        mem_usedUntil_processReturn belong loaded processed
      have entry : next.cache.get loc = some (p.entered loc image) := by
        rw [(woken_of_processReturn belong loaded processed).cache, Map.get_set_self]
      have stamp := entered_lastUse p loc image
      simp only [Processor.wakesAtStamp, Bool.or_eq_true, List.isEmpty_iff, decide_eq_true_eq,
        ← stamp]
      constructor
      · intro stamped
        by_cases nobody : (p.cacheReturn.get loc).getD [] = []
        · exact .inl nobody
        · exact .inr (stamped loc ((used loc).mpr ⟨rfl, nobody⟩) _ entry)
      · rintro condition other member v found
        obtain ⟨rfl, somebody⟩ := (used other).mp member
        cases entry.symm.trans found
        exact condition.resolve_left somebody

/-! ### Stamps -/

/-- Between the two states no entry gets another stamp. -/
def StampsKept (p next : Processor) : Prop :=
  ∀ loc v v', p.cache.get loc = some v → next.cache.get loc = some v' → v'.lastUse = v.lastUse

theorem stampsKept_of_same (cache : next.cache = p.cache) : StampsKept p next := by
  intro loc v v' before after
  rw [cache, before] at after
  cases after
  rfl

/-- An entry is set, with the stamp of the old one if there was one. -/
theorem stampsKept_set {loc : ImageLocation} {entry : CachedImage}
    (cache : next.cache = p.cache.set loc entry)
    (stamp : ∀ v, p.cache.get loc = some v → entry.lastUse = v.lastUse) : StampsKept p next := by
  intro other v v' before after
  rw [cache, Map.get_set] at after
  split at after
  · rename_i same
    cases after
    exact stamp v (same ▸ before)
  · rw [before] at after
    cases after
    rfl

theorem stampsKept_taskStep (taken : TaskStep p task now next) : StampsKept p next := by
  cases taken with
  | smallerMiss _ _ _ miss =>
      refine stampsKept_set rfl fun v found => ?_
      cases miss.symm.trans found
  | setHit _ _ hit =>
      refine stampsKept_set rfl fun v found => ?_
      cases hit.symm.trans found
      rfl
  | setMiss _ _ miss _ =>
      refine stampsKept_set rfl fun v found => ?_
      cases miss.symm.trans found
  | _ => exact stampsKept_of_same rfl

/-- No step renews a stamp. -/
theorem stampsKept_transition {cfg : Config} {s next : State} {action : Action}
    (reads : ReadsOnly s) (transition : Transition cfg s action next) :
    StampsKept s.p next.p := by
  cases transition with
  | takes _ _ processed => exact stampsKept_taskStep (taskStep_of_processTask processed)
  | returns _ received processed =>
      rcases reads.wokenReturn received processed with ⟨_, rfl⟩ | ⟨image, _, _, woken⟩
      · exact stampsKept_of_same rfl
      · refine stampsKept_set woken.cache fun v found => ?_
        rw [entered_lastUse, found]
        rfl
  | saves _ _ found _ _ =>
      refine stampsKept_set rfl fun v there => ?_
      cases found.symm.trans there
      rfl
  | unloads _ =>
      intro loc v v' before after
      cases before.symm.trans (of_get_processUnload after)
      rfl
  | ioSaves found => cases reads.holding _ _ found
  | _ => exact stampsKept_of_same rfl

/-- The uses of every entry are at the time of its stamp. -/
structure Stamped (uses : Uses) (p : Processor) : Prop where
  absent : ∀ loc, p.cache.get loc = none → uses loc = []
  stamps : ∀ loc v, p.cache.get loc = some v → ∀ t ∈ uses loc, v.lastUse = t

theorem Stamped.record {uses : Uses} {s next : State} {action : Action}
    (stamped : Stamped uses s.p) (kept : StampsKept s.p next.p)
    (current : ∀ now, action.reading = some now → StampedAt now s.p next.p) :
    Stamped (recordUses uses s action next) next.p := by
  refine ⟨fun loc missing => ?_, fun loc v found t member => ?_⟩
  · simp [recordUses, missing]
  -- The uses of an entry that was there are of its stamp, another entry has none.
  have before : t ∈ uses loc → v.lastUse = t := by
    intro old
    cases there : s.p.cache.get loc with
    | none =>
        rw [stamped.absent loc there] at old
        cases old
    | some earlier =>
        have stamp := stamped.stamps loc earlier there t old
        exact (kept loc earlier v there found).trans stamp
  simp only [recordUses, found, Option.isNone_some, Bool.false_eq_true, if_false] at member
  split at member
  · rename_i used
    rcases List.mem_append.mp member with old | new
    · exact before old
    · exact current t (Option.mem_toList.mp new) loc used v found
  · exact before member

/-- An entry that is used at another time than its stamp has a later use. -/
theorem not_stampsLatestUse {uses : Uses} {s next : State} {action : Action}
    (reading : action.reading = some now) (other : ¬ StampedAt now s.p next.p) :
    ¬ StampsLatestUse (recordUses uses s action next, next) := by
  intro latest
  refine other fun loc used v found => latest loc v found now ?_
  simp [recordUses, found, used, reading]

/-! ### Runs -/

/-- Where uses are recorded, the condition is about them. -/
theorem usesAtStamp_iff {cfg : Config} {s next : State} {action : Action} (reads : ReadsOnly s)
    (transition : Transition cfg s action next) :
    usesAtStamp s action ↔
      ∀ now, action.reading = some now → StampedAt now s.p next.p := by
  cases transition with
  | @takes now task tasks p _ received processed =>
      have front := (Chan.receive_received received).1
      simp only [usesAtStamp, front, Action.reading, Option.some.injEq, forall_eq']
      exact (stampedAt_taskStep_iff (taskStep_of_processTask processed)).symm
  | @taskPanics now task tasks _ received panics =>
      have front := (Chan.receive_received received).1
      simp only [usesAtStamp, front, Action.reading, Option.some.injEq, forall_eq']
      exact iff_of_true (usesAtStamp_of_panic panics) (stampedAt_of_same rfl rfl)
  | @returns now task ioReturn p _ received processed =>
      have front := (Chan.receive_received received).1
      have fresh := reads.returned task (front ▸ List.mem_cons_self)
      simp only [usesAtStamp, front, Action.reading, Option.some.injEq, forall_eq']
      exact (stampedAt_processReturn_iff reads.belong fresh processed).symm
  | returnPanics _ received panics =>
      exact absurd panics (reads.processReturn_ne_none received _)
  | _ => simp [usesAtStamp, Action.reading]

theorem stamped_preserved {cfg : Config} {s next : Uses × State} {action : Action}
    (invariant : ReadsOnly s.2 ∧ Stamped s.1 s.2.p) (atStamp : usesAtStamp s.2 action = true)
    (taken : (watched cfg).step s action = some next) :
    ReadsOnly next.2 ∧ Stamped next.1 next.2.p := by
  obtain ⟨reads, stamped⟩ := invariant
  obtain ⟨step, recorded⟩ := Machine.step_recording.mp taken
  obtain ⟨_, transition⟩ := transition_of_step step
  have current := (usesAtStamp_iff reads transition).mp atStamp
  have kept := stampsKept_transition reads transition
  exact ⟨reads.preserved transition, recorded ▸ stamped.record kept current⟩

theorem not_stampsLatestUse_of_step {cfg : Config} {s next : Uses × State} {action : Action}
    (reads : ReadsOnly s.2) (elsewhere : ¬ usesAtStamp s.2 action = true)
    (taken : (watched cfg).step s action = some next) : ¬ StampsLatestUse next := by
  obtain ⟨written, after⟩ := next
  obtain ⟨step, recorded⟩ := Machine.step_recording.mp taken
  obtain ⟨_, transition⟩ := transition_of_step step
  rw [usesAtStamp_iff reads transition] at elsewhere
  simp only [not_forall] at elsewhere
  obtain ⟨now, reading, other⟩ := elsewhere
  dsimp only at recorded
  rw [recorded]
  exact not_stampsLatestUse reading other

theorem stampsLatestUse_of_invariant {s : Uses × State}
    (invariant : ReadsOnly s.2 ∧ Stamped s.1 s.2.p) : StampsLatestUse s :=
  fun loc v found t latest => invariant.2.stamps loc v found t (List.mem_of_getLast? latest)

/-- Where all uses are at the time of the stamp, an unload drops what was not used. -/
theorem Stamped.unloadsUnused {cfg : Config} {s : Uses × State} (stamped : Stamped s.1 s.2.p)
    (action : Action) : UnloadsUnused cfg s action := by
  intro now _ loc v stored dropped t used
  rw [← stamped.stamps loc v stored t used]
  exact (dropped_of_processUnload stored dropped).2

/-- In every run, the stamps are those of the latest uses and unloads drop unused entries only
exactly when every entry is used at the time of its stamp only. -/
theorem unloadsUnused_iff (cfg : Config) (disk : Disk) (actions : List Action) (final : State)
    (run : (machine cfg).Runs (State.initial cfg disk) actions final) :
    ((watched cfg).ReachesOnly StampsLatestUse (noUses, State.initial cfg disk) actions ∧
        (watched cfg).StepsOnly (UnloadsUnused cfg) (noUses, State.initial cfg disk) actions) ↔
      (machine cfg).StepsOnly (fun s action => usesAtStamp s action = true)
        (State.initial cfg disk) actions := by
  obtain ⟨uses, recorded⟩ := run.recorded noUses
  have start : ReadsOnly (State.initial cfg disk) ∧ Stamped noUses (State.initial cfg disk).p :=
    ⟨readsOnly_initial cfg disk, fun _ _ => rfl, fun _ _ _ _ member => nomatch member⟩
  have unwatched : (watched cfg).StepsOnly (fun s action => usesAtStamp s.2 action = true)
        (noUses, State.initial cfg disk) actions ↔
      (machine cfg).StepsOnly (fun s action => usesAtStamp s action = true)
        (State.initial cfg disk) actions :=
    Machine.stepsOnly_recording fun s action => usesAtStamp s action = true
  rw [← unwatched]
  constructor
  · rintro ⟨latest, -⟩
    refine (recorded.reachesOnly_iff stampsLatestUse_of_invariant stamped_preserved
      (fun invariant => not_stampsLatestUse_of_step invariant.1) start).mp latest
  · intro steps
    refine ⟨steps.reachesOnly stampsLatestUse_of_invariant stamped_preserved start,
      fun before action part s reached => ?_⟩
    have invariant := steps.reachesOnly And.right stamped_preserved start
    have earlier := (List.prefix_append before [action]).trans part
    exact (invariant before earlier s reached).unloadsUnused action

/-- A get of a tile without a file, and another one half a minute later. -/
def getTwice : List Action :=
  [.submit { loc := ⟨"world", "overworld", "terrain", 5, 0, 0⟩, ret := 0 },
    .takeTask 1000000000] ++
  readBack (.succeeds 2000000000) 3000000000 ++
  [.submit { loc := ⟨"world", "overworld", "terrain", 5, 0, 0⟩, ret := 1 },
    .takeTask 32000000000]

/-- The entry is unloaded a second after a get was answered from it. -/
theorem getTwice_unloaded : ∃ (cfg : Config) (disk : Disk) (actions : List Action),
    (∃ final, (machine cfg).Runs (State.initial cfg disk) actions final) ∧
      ¬ (watched cfg).ReachesOnly StampsLatestUse (noUses, State.initial cfg disk) actions ∧
      ¬ (watched cfg).StepsOnly (UnloadsUnused cfg) (noUses, State.initial cfg disk) actions := by
  have executes : ((watched sampleConfig).exec (noUses, State.initial sampleConfig fun _ => none)
      getTwice).isSome := by decide
  have reached := Machine.runs_exec_get executes
  refine ⟨sampleConfig, fun _ => none, getTwice ++ [.unload 33000000000],
    ⟨_, Machine.runs_exec_get (by decide)⟩, fun latest => ?_, fun unused => ?_⟩
  · have stamp := latest getTwice (List.prefix_append _ _) _ reached
      ⟨"world", "overworld", "terrain", 5, 0, 0⟩ _ rfl 32000000000 rfl
    exact absurd stamp (by decide)
  · have apart := unused getTwice _ List.prefix_rfl _ reached 33000000000 rfl
      ⟨"world", "overworld", "terrain", 5, 0, 0⟩ _ rfl rfl 32000000000 (List.mem_of_getLast? rfl)
    exact absurd apart (by decide)

/-- A set of a tile without a file, an autosave and an unload after the interval. -/
def setOnce : List Action :=
  [.submit { loc := ⟨"world", "overworld", "terrain", 5, 0, 0⟩, img := some blankTile },
    .takeTask 1000000000] ++
  readBack (.succeeds 2000000000) 3000000000 ++
  [.autosave, .saveEntry ⟨"world", "overworld", "terrain", 5, 0, 0⟩ (.succeeds 4000000000),
    .saved, .unload 32000000000]

theorem unloadsUnused_setOnce :
    (watched sampleConfig).ReachesOnly StampsLatestUse
        (noUses, State.initial sampleConfig fun _ => none) setOnce ∧
      (watched sampleConfig).StepsOnly (UnloadsUnused sampleConfig)
        (noUses, State.initial sampleConfig fun _ => none) setOnce :=
  (unloadsUnused_iff sampleConfig (fun _ => none) setOnce _
    (Machine.runs_exec_get (by decide))).mpr (Machine.stepsOnly_of_checkSteps (by decide))

end WebChunk.ImageCache
