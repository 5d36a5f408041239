import WebChunk.Go.MapSum
import WebChunk.ImageCache.Waiters
import WebChunk.Semantics.History

/-!
# Each get is answered once

A get that was submitted is in the queue, waits for a file or was answered, so its result
channel is sent on once at most. A successful read answers all that wait for it, and none of
them waits again.
-/

namespace WebChunk.ImageCache

open WebChunk.Go WebChunk.Semantics

/-- A get with this result channel. -/
def asks (ret : Nat) (task : CacheTask) : Bool := task.img.isNone && task.ret == ret

/-- The tasks that are submitted. -/
def submittedIn (_ : State) (action : Action) (_ : State) : List CacheTask :=
  match action with
  | .submit task => [task]
  | _ => []

/-- What the processor has to do with a result channel: the gets that wait and the answers. -/
def Processor.accounts (p : Processor) (ret : Nat) : Nat :=
  p.cacheReturn.total (List.countP (asks ret)) + p.answers.countP (·.ret == ret)

/-! ### Accounts -/

variable {p next : Processor} {task : CacheTask} {now : Int}

theorem accounts_answer (p : Processor) (task : CacheTask) (image : CachedImage) (ret : Nat)
    (isGet : task.img = none) :
    (p.answer task image).accounts ret = p.accounts ret + [task].countP (asks ret) := by
  simp only [Processor.accounts, Processor.answer, List.countP_append, List.countP_singleton,
    asks, isGet, Option.isNone_none, Bool.true_and]
  omega

theorem accounts_wait (p : Processor) (loc : ImageLocation) (task : CacheTask) (ret : Nat) :
    (p.wait loc task).accounts ret = p.accounts ret + [task].countP (asks ret) := by
  have waiting := p.cacheReturn.total_set loc ((p.cacheReturn.get loc).getD [] ++ [task])
    (List.countP (asks ret))
  have before : (p.cacheReturn.get loc).elim 0 (List.countP (asks ret)) =
      ((p.cacheReturn.get loc).getD []).countP (asks ret) := by
    cases p.cacheReturn.get loc <;> rfl
  rw [before, List.countP_append] at waiting
  simp only [Processor.accounts, Processor.wait]
  omega

/-- A task is entered into the accounts when it is a get. -/
theorem accounts_taskStep (taken : TaskStep p task now next) (ret : Nat) :
    next.accounts ret = p.accounts ret + [task].countP (asks ret) := by
  have ignored : ∀ {image : RGBA}, task.img = some image → [task].countP (asks ret) = 0 := by
    intro image isSet
    simp [asks, isSet]
  cases taken with
  | tooLarge isGet _ => exact accounts_answer p task _ ret isGet
  | nativeHit isGet _ _ => exact accounts_answer p task _ ret isGet
  | nativeMiss _ _ _ => exact accounts_wait p task.loc task ret
  | @smallerWaits loc _ _ _ _ _ _ => exact accounts_wait p loc task ret
  | smallerHit isGet _ _ _ _ _ => exact accounts_answer p task _ ret isGet
  | @smallerMiss loc _ _ _ _ =>
      exact accounts_wait
        { p.read loc with
          cache := p.cache.set loc { img := none, loc := loc, lastUse := now, imageUnloaded := true }
          cacheStatLen := p.cacheStatLen + 1 } loc task ret
  | setIgnored isSet _ => rw [ignored isSet, Nat.add_zero]
  | setHit isSet _ _ =>
      rw [ignored isSet, Nat.add_zero]
      rfl
  | setMiss isSet _ _ _ =>
      rw [ignored isSet, Nat.add_zero]
      rfl

/-- The answers to gets that waited, on a result channel. -/
theorem countP_answers {l : CachedImage} {after : Nat} {tasks : List CacheTask}
    {answers : List Answer} (each : List.Forall₂ (AnsweredFrom l after) tasks answers)
    (gets : ∀ task ∈ tasks, task.img = none) (ret : Nat) :
    answers.countP (·.ret == ret) = tasks.countP (asks ret) := by
  induction each with
  | nil => rfl
  | @cons task a tasks answers here _ inductionHypothesis =>
      obtain ⟨image, -, rfl⟩ := here
      have isGet := gets task List.mem_cons_self
      rw [List.countP_cons, List.countP_cons,
        inductionHypothesis fun other member => gets other (List.mem_cons_of_mem _ member)]
      simp [asks, isGet]

/-- The answers go to the gets in their order. -/
theorem map_answers {l : CachedImage} {after : Nat} {tasks : List CacheTask}
    {answers : List Answer} (each : List.Forall₂ (AnsweredFrom l after) tasks answers) :
    answers.map (fun a => (a.ret, a.loc)) = tasks.map fun task => (task.ret, task.loc) := by
  induction each with
  | nil => rfl
  | cons here _ inductionHypothesis =>
      obtain ⟨_, -, rfl⟩ := here
      rw [List.map_cons, List.map_cons, inductionHypothesis]

/-- A successful read answers all that wait for it, in their order. The loop leaves `cacheReturn`
as it is, and then their list goes. -/
theorem answers_of_processReturn {loc : ImageLocation} {image : CachedImage}
    (belong : WaitersBelong p) (loaded : image.imageUnloaded = false)
    (processed : p.processReturn ⟨loc, some image⟩ now = some next) :
    ∃ answers, next.answers = p.answers ++ answers ∧
      List.Forall₂ (AnsweredFrom (p.entered loc image) p.sets.length)
        ((p.cacheReturn.get loc).getD []) answers ∧
      ((p.enterReturn loc image).processTasks ((p.cacheReturn.get loc).getD []) now).map
        Processor.cacheReturn = some p.cacheReturn := by
  obtain ⟨answers, cacheReturn, rfl, -, each, woke⟩ := processReturn_eq belong loaded processed
  refine ⟨answers, rfl, each, ?_⟩
  rw [woke]
  exact congrArg some (enterReturn_cacheReturn p loc image)

/-- A read moves its waiters to the answers. -/
theorem accounts_processReturn {task : IoReturn} (belong : WaitersBelong p)
    (fresh : ∀ image, task.img = some image → image.fresh)
    (processed : p.processReturn task now = some next) (ret : Nat) :
    next.accounts ret = p.accounts ret := by
  obtain ⟨loc, img⟩ := task
  cases img with
  | none =>
      cases processed
      rfl
  | some image =>
      have loaded := (fresh image rfl).1
      obtain ⟨answers, appended, each, -⟩ := answers_of_processReturn belong loaded processed
      have woken := woken_of_processReturn belong loaded processed
      have gets : ∀ task ∈ (p.cacheReturn.get loc).getD [], task.img = none :=
        fun task member => (belong.waits loc task member).1
      have moved := countP_answers each gets ret
      have removed := p.cacheReturn.total_delete loc (List.countP (asks ret))
      have before : (p.cacheReturn.get loc).elim 0 (List.countP (asks ret)) =
          ((p.cacheReturn.get loc).getD []).countP (asks ret) := by
        cases p.cacheReturn.get loc <;> rfl
      have left : next.cacheReturn.total (List.countP (asks ret)) =
          (p.cacheReturn.delete loc).total (List.countP (asks ret)) :=
        Map.total_congr (fun other => by rw [woken.cacheReturn, Map.get_delete]) _
      rw [before] at removed
      rw [Processor.accounts, Processor.accounts, left, appended, List.countP_append, moved]
      omega

/-! ### Runs -/

/-- The gets that were submitted are in the queue or in the accounts. A panic loses one. -/
structure Accounted (ret : Nat) (submitted : List CacheTask) (s : State) : Prop where
  reads : ReadsOnly s
  most : s.tasks.buffer.countP (asks ret) + s.p.accounts ret ≤ submitted.countP (asks ret)
  all : s.panicked = none →
    s.tasks.buffer.countP (asks ret) + s.p.accounts ret = submitted.countP (asks ret)

theorem Accounted.preserved {cfg : Config} {ret : Nat} {submitted : List CacheTask}
    {s next : State} {action : Action} (accounted : Accounted ret submitted s)
    (transition : step cfg s action = some next) :
    Accounted ret (submitted ++ submittedIn s action next) next := by
  obtain ⟨live, taken⟩ := transition_of_step transition
  have reads := accounted.reads.preserved taken
  have all := accounted.all live
  -- Most steps move no get.
  have unchanged : next.tasks = s.tasks → next.p.accounts ret = s.p.accounts ret →
      Accounted ret (submitted ++ []) next := by
    intro tasks accounts
    rw [List.append_nil]
    exact ⟨reads, by rw [tasks, accounts]; exact accounted.most, fun _ => by
      rw [tasks, accounts]; exact all⟩
  cases taken with
  | @submits task tasks sent =>
      obtain ⟨-, rfl⟩ := Chan.send_sent sent
      have total : (s.tasks.buffer ++ [task]).countP (asks ret) + s.p.accounts ret =
          (submitted ++ [task]).countP (asks ret) := by
        rw [List.countP_append, List.countP_append]
        omega
      exact ⟨reads, le_of_eq total, fun _ => total⟩
  | @takes now task tasks p _ received processed =>
      have front := (Chan.receive_received received).1
      have entered := accounts_taskStep (taskStep_of_processTask processed) ret
      have total : tasks.buffer.countP (asks ret) + p.accounts ret =
          (submitted ++ []).countP (asks ret) := by
        rw [List.append_nil, ← all, front, entered, List.countP_cons, List.countP_cons,
          List.countP_nil]
        omega
      exact ⟨reads, le_of_eq total, fun _ => total⟩
  | @taskPanics now task tasks _ received _ =>
      have front := (Chan.receive_received received).1
      have most : tasks.buffer.countP (asks ret) + s.p.accounts ret ≤
          (submitted ++ []).countP (asks ret) := by
        rw [List.append_nil, ← all, front, List.countP_cons]
        omega
      exact ⟨reads, most, fun still => by cases still⟩
  | @returns now task ioReturn p _ received processed =>
      have front := (Chan.receive_received received).1
      have back := accounted.reads.returned task (front ▸ List.mem_cons_self)
      exact unchanged rfl (accounts_processReturn accounted.reads.belong back processed ret)
  | returnPanics _ received panics =>
      exact absurd panics (accounted.reads.processReturn_ne_none received _)
  | ioSaves found => cases accounted.reads.holding _ _ found
  | _ => exact unchanged rfl rfl

/-- Every get is answered once at most, and a read that succeeds answers all that wait for it
and lets none of them wait again. -/
theorem answeredOnce (cfg : Config) (disk : Disk) (actions : List Action) (final : State)
    (run : (machine cfg).Runs (State.initial cfg disk) actions final) :
    (∀ ret, final.p.answers.countP (·.ret == ret) ≤
      ((machine cfg).history submittedIn (State.initial cfg disk) actions).countP (asks ret)) ∧
    ∀ now loc image rest next, final.ioReturn.buffer = ⟨loc, some image⟩ :: rest →
      step cfg final (.takeReturn now) = some next →
      next.panicked = none ∧
      (∃ answers, next.p.answers = final.p.answers ++ answers ∧
        answers.map (fun a => (a.ret, a.loc)) =
          ((final.p.cacheReturn.get loc).getD []).map fun task => (task.ret, task.loc)) ∧
      (((final.p.enterReturn loc image).processTasks ((final.p.cacheReturn.get loc).getD [])
        now).map Processor.cacheReturn = some final.p.cacheReturn) ∧
      next.p.cacheReturn.get loc = none ∧
      ∀ other, other ≠ loc → next.p.cacheReturn.get other = final.p.cacheReturn.get other := by
  have accounted : ∀ ret, Accounted ret
      ((machine cfg).history submittedIn (State.initial cfg disk) actions) final := fun ret =>
    run.history (Accounted ret) Accounted.preserved
      ⟨readsOnly_initial cfg disk, Nat.le_refl 0, fun _ => rfl⟩
  refine ⟨fun ret => ?_, ?_⟩
  · have most := (accounted ret).most
    unfold Processor.accounts at most
    omega
  · intro now loc image rest next waiting transition
    have reads := (accounted 0).reads
    obtain ⟨live, taken⟩ := transition_of_step transition
    cases taken with
    | @returns _ task ioReturn p _ received processed =>
        have front := (Chan.receive_received received).1
        rw [waiting] at front
        obtain ⟨rfl, -⟩ := List.cons.inj front
        have loaded := (reads.returned ⟨loc, some image⟩ (waiting ▸ List.mem_cons_self)
          image rfl).1
        have woken := woken_of_processReturn reads.belong loaded processed
        obtain ⟨answers, appended, each, loop⟩ :=
          answers_of_processReturn reads.belong loaded processed
        refine ⟨live, ⟨answers, appended, ?_⟩, loop, by rw [woken.cacheReturn, if_pos rfl],
          fun other different => by rw [woken.cacheReturn, if_neg different]⟩
        exact map_answers each
    | returnPanics _ received panics => exact absurd panics (reads.processReturn_ne_none received _)

/-- Two gets of one tile wait for its file, and one of a chunk in it. -/
def threeWait : List Action :=
  [.submit { loc := ⟨"world", "overworld", "terrain", 5, 0, 0⟩, ret := 0 },
    .submit { loc := ⟨"world", "overworld", "terrain", 5, 0, 0⟩, ret := 1 },
    .submit { loc := ⟨"world", "overworld", "terrain", 0, 3, 4⟩, ret := 2 },
    .takeTask 1, .flush, .takeTask 2, .flush, .takeTask 3, .flush] ++
  [.ioTake 0, .ioLoad 0 (.succeeds 4), .ioPush 0]

theorem answeredOnce_threeWait : ∃ final next : State,
    (machine sampleConfig).Runs (State.initial sampleConfig fun _ => some ⟨some blankTile, 0⟩)
      threeWait final ∧
    step sampleConfig final (.takeReturn 5) = some next ∧
    (∀ ret, final.p.answers.countP (·.ret == ret) ≤ ((machine sampleConfig).history submittedIn
      (State.initial sampleConfig fun _ => some ⟨some blankTile, 0⟩) threeWait).countP
        (asks ret)) ∧
    next.panicked = none ∧ next.p.answers.map Answer.ret = [0, 1, 2] ∧
    next.p.cacheReturn.get ⟨"world", "overworld", "terrain", 5, 0, 0⟩ = none := by
  have executes : ((machine sampleConfig).exec
      (State.initial sampleConfig fun _ => some ⟨some blankTile, 0⟩) threeWait).isSome := by decide
  have run := Machine.runs_exec_get executes
  have settled := answeredOnce sampleConfig _ threeWait _ run
  obtain ⟨live, -, -, gone, -⟩ := settled.2 5 ⟨"world", "overworld", "terrain", 5, 0, 0⟩ _ _ _ rfl rfl
  exact ⟨_, _, run, rfl, settled.1, live, rfl, gone⟩

end WebChunk.ImageCache
