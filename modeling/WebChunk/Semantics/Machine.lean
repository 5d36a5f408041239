import Mathlib.Data.List.Infix

/-!
# Executable machines and their runs

`Machine.step` is a partial function: every choice the environment makes is part
of the action, and `none` says that the action is not enabled. A run is a list of
actions together with the states it passes through. The rules at the end carry
an invariant along a run, either outright or under a condition on its steps.
-/

namespace WebChunk.Semantics

universe u v

/-- A state machine whose nondeterminism is named by its actions. -/
structure Machine (State : Type u) (Action : Type v) where
  step : State → Action → Option State

namespace Machine

variable {State : Type u} {Action : Type v} (machine : Machine State Action)

/-- Executing `actions` from `start` ends in the last index. -/
inductive Runs (start : State) : List Action → State → Prop where
  | nil : Runs start [] start
  | snoc {actions : List Action} {state next : State} {action : Action}
      (prior : Runs start actions state)
      (transition : machine.step state action = some next) :
      Runs start (actions ++ [action]) next

/-- The interpreter behind `Runs`, used to evaluate concrete runs. -/
def exec (start : State) : List Action → Option State
  | [] => some start
  | action :: rest => (machine.step start action).bind fun next => exec next rest

/-- Every state that some prefix of `actions` reaches satisfies `property`. -/
def ReachesOnly (property : State → Prop) (start : State) (actions : List Action) : Prop :=
  ∀ before, before <+: actions → ∀ state, machine.Runs start before state → property state

/-- Every step of `actions` is taken in a state that allows it. -/
def StepsOnly (allowed : State → Action → Prop) (start : State)
    (actions : List Action) : Prop :=
  ∀ before action, before ++ [action] <+: actions →
    ∀ state, machine.Runs start before state → allowed state action

/-- Some run of allowed steps from `start` ends in the goal. -/
def CanReach (allowed : State → Action → Prop) (goal : State → Prop) (start : State) : Prop :=
  ∃ actions final,
    machine.Runs start actions final ∧ machine.StepsOnly allowed start actions ∧ goal final

/-- A condition at every step of a concrete run, by evaluation of the run. -/
def MeetsSteps (allowed : State → Action → Prop) (start : State) : List Action → Prop
  | [] => True
  | action :: rest =>
      allowed start action ∧
        (machine.step start action).elim True fun next => MeetsSteps allowed next rest

/-- Evaluate a decidable condition at every step of a concrete run. -/
def checkSteps (allowed : State → Action → Bool) (start : State) : List Action → Bool
  | [] => true
  | action :: rest =>
      allowed start action &&
        ((machine.step start action).elim true fun next => checkSteps allowed next rest)

variable {machine}

/-- A first step followed by a run is a run. -/
theorem Runs.cons {start middle final : State} {action : Action} {actions : List Action}
    (transition : machine.step start action = some middle)
    (rest : machine.Runs middle actions final) :
    machine.Runs start (action :: actions) final := by
  induction rest with
  | nil => simpa using Runs.snoc .nil transition
  | snoc _ last inductionHypothesis => exact .snoc inductionHypothesis last

/-- Whatever the interpreter computes is a run. -/
theorem runs_of_exec {start final : State} {actions : List Action}
    (executed : machine.exec start actions = some final) :
    machine.Runs start actions final := by
  induction actions generalizing start with
  | nil =>
      cases executed
      exact .nil
  | cons action rest inductionHypothesis =>
      obtain ⟨middle, transition, executed⟩ := Option.bind_eq_some_iff.mp executed
      exact .cons transition (inductionHypothesis executed)

/-- The final state of an executed run, as a run. -/
theorem runs_exec_get {start : State} {actions : List Action}
    (executes : (machine.exec start actions).isSome) :
    machine.Runs start actions ((machine.exec start actions).get executes) :=
  runs_of_exec (Option.some_get executes).symm

/-- A run that goes on with another. -/
theorem Runs.append {start middle final : State} {actions later : List Action}
    (run : machine.Runs start actions middle) (more : machine.Runs middle later final) :
    machine.Runs start (actions ++ later) final := by
  induction more with
  | nil => rwa [List.append_nil]
  | snoc _ transition inductionHypothesis =>
      rw [← List.append_assoc]
      exact .snoc inductionHypothesis transition

/-- The last step of a nonempty run and the state before it. -/
theorem Runs.of_snoc {start final : State} {action : Action} {actions : List Action}
    (run : machine.Runs start (actions ++ [action]) final) :
    ∃ state, machine.Runs start actions state ∧ machine.step state action = some final := by
  generalize whole : actions ++ [action] = joined at run
  cases run with
  | nil => simp at whole
  | snoc prior transition =>
      obtain ⟨rfl, same⟩ := List.append_inj' whole rfl
      cases same
      exact ⟨_, prior, transition⟩

/-- Actions carry the whole nondeterminism, so a run has one final state. -/
theorem Runs.final_unique {start : State} {actions : List Action} {left right : State}
    (first : machine.Runs start actions left) (second : machine.Runs start actions right) :
    left = right := by
  induction first generalizing right with
  | nil =>
      generalize whole : ([] : List Action) = empty at second
      cases second with
      | nil => rfl
      | snoc _ _ => simp at whole
  | snoc _ transition inductionHypothesis =>
      obtain ⟨state, prior, last⟩ := second.of_snoc
      cases inductionHypothesis prior
      exact Option.some.inj (transition.symm.trans last)

/-- The first step of a nonempty run and the run that follows it. -/
theorem Runs.of_cons {start final : State} {action : Action} {actions : List Action}
    (run : machine.Runs start (action :: actions) final) :
    ∃ middle, machine.step start action = some middle ∧ machine.Runs middle actions final := by
  generalize whole : action :: actions = joined at run
  induction run generalizing actions with
  | nil => cases whole
  | @snoc earlier state next last prior transition inductionHypothesis =>
      cases earlier with
      | nil =>
          cases prior.final_unique .nil
          cases whole
          exact ⟨next, transition, .nil⟩
      | cons first others =>
          obtain ⟨rfl, rfl⟩ := List.cons.inj whole
          obtain ⟨middle, leading, rest⟩ := inductionHypothesis rfl
          exact ⟨middle, leading, .snoc rest transition⟩

/-- Shorter runs inherit the condition on the steps. -/
theorem StepsOnly.of_prefix {allowed : State → Action → Prop} {start : State}
    {before actions : List Action} (steps : machine.StepsOnly allowed start actions)
    (initialPart : before <+: actions) : machine.StepsOnly allowed start before :=
  fun earlier action shorter => steps earlier action (shorter.trans initialPart)

theorem StepsOnly.nil {allowed : State → Action → Prop} {start : State} :
    machine.StepsOnly allowed start [] := by
  intro before action part
  simp at part

/-- A permitted step in front of permitted steps. -/
theorem StepsOnly.cons {allowed : State → Action → Prop} {start : State} {action : Action}
    {actions : List Action} (permitted : allowed start action)
    (rest : ∀ middle, machine.step start action = some middle →
      machine.StepsOnly allowed middle actions) :
    machine.StepsOnly allowed start (action :: actions) := by
  intro before last part state reached
  cases before with
  | nil =>
      cases reached.final_unique .nil
      obtain ⟨rfl, _⟩ := List.cons_prefix_cons.mp part
      exact permitted
  | cons leading others =>
      obtain ⟨rfl, shorter⟩ := List.cons_prefix_cons.mp part
      obtain ⟨middle, transition, following⟩ := reached.of_cons
      exact rest middle transition others last shorter state following

/-- `MeetsSteps` speaks of the states that the run passes through. -/
theorem stepsOnly_of_meetsSteps {allowed : State → Action → Prop} {start : State}
    {actions : List Action} (meets : machine.MeetsSteps allowed start actions) :
    machine.StepsOnly allowed start actions := by
  induction actions generalizing start with
  | nil => exact .nil
  | cons first rest inductionHypothesis =>
      refine .cons meets.1 fun middle transition => inductionHypothesis ?_
      have later := meets.2
      rwa [transition] at later

theorem meetsSteps_of_checkSteps {allowed : State → Action → Bool} {start : State}
    {actions : List Action} (checked : machine.checkSteps allowed start actions = true) :
    machine.MeetsSteps (fun state action => allowed state action = true) start actions := by
  induction actions generalizing start with
  | nil => trivial
  | cons first rest inductionHypothesis =>
      simp only [checkSteps, Bool.and_eq_true] at checked
      refine ⟨checked.1, ?_⟩
      cases transition : machine.step start first with
      | none => trivial
      | some middle =>
          rw [transition] at checked
          exact inductionHypothesis checked.2

/-- What `checkSteps` accepts is a run whose steps meet the condition. -/
theorem stepsOnly_of_checkSteps {allowed : State → Action → Bool} {start : State}
    {actions : List Action} (checked : machine.checkSteps allowed start actions = true) :
    machine.StepsOnly (fun state action => allowed state action = true) start actions :=
  stepsOnly_of_meetsSteps (meetsSteps_of_checkSteps checked)

/-- A condition on steps may be weakened. -/
theorem StepsOnly.mono {weak strong : State → Action → Prop} {start : State}
    {actions : List Action} (steps : machine.StepsOnly strong start actions)
    (weaker : ∀ state action, strong state action → weak state action) :
    machine.StepsOnly weak start actions :=
  fun before action part state run => weaker _ _ (steps before action part state run)

/-- The invariant rule: what holds at the start and is preserved by every allowed
step holds at the end of every run of allowed steps. -/
theorem Runs.invariant {inv : State → Prop} {allowed : State → Action → Prop}
    (preserved : ∀ {state action next}, inv state → allowed state action →
      machine.step state action = some next → inv next)
    {start final : State} {actions : List Action}
    (run : machine.Runs start actions final)
    (steps : machine.StepsOnly allowed start actions) (holds : inv start) : inv final := by
  induction run with
  | nil => exact holds
  | @snoc actions state next action prior transition inductionHypothesis =>
      have before := inductionHypothesis (steps.of_prefix (List.prefix_append _ _))
      exact preserved before (steps actions action List.prefix_rfl state prior) transition

/-- The invariant rule for every state that a run passes through. -/
theorem StepsOnly.reachesOnly {inv property : State → Prop} {allowed : State → Action → Prop}
    (implies : ∀ {state}, inv state → property state)
    (preserved : ∀ {state action next}, inv state → allowed state action →
      machine.step state action = some next → inv next)
    {start : State} {actions : List Action}
    (steps : machine.StepsOnly allowed start actions) (holds : inv start) :
    machine.ReachesOnly property start actions :=
  fun _ part _ reached => implies (reached.invariant preserved (steps.of_prefix part) holds)

/-- The unconditional case of `Runs.invariant`. -/
theorem Runs.always {inv : State → Prop}
    (preserved : ∀ {state action next}, inv state →
      machine.step state action = some next → inv next)
    {start final : State} {actions : List Action}
    (run : machine.Runs start actions final) (holds : inv start) : inv final := by
  have steps : machine.StepsOnly (fun _ _ => True) start actions := fun _ _ _ _ _ => trivial
  exact run.invariant (fun before _ transition => preserved before transition) steps holds

/-- A weight that every step loses bounds the length of a run. -/
theorem Runs.length_le {weight : State → Nat}
    (lighter : ∀ {state action next}, machine.step state action = some next →
      weight next < weight state)
    {start final : State} {actions : List Action} (run : machine.Runs start actions final) :
    actions.length + weight final ≤ weight start := by
  induction run with
  | nil => simp
  | snoc _ transition inductionHypothesis =>
      have lost := lighter transition
      rw [List.length_append, List.length_singleton]
      omega

/-- The progress rule: away from the goal some allowed step keeps the invariant and loses
weight, so the goal can be reached. -/
theorem canReach_of_progress {inv goal : State → Prop} {allowed : State → Action → Prop}
    (weight : State → Nat)
    (progress : ∀ {state}, inv state → ¬ goal state → ∃ action next, allowed state action ∧
      machine.step state action = some next ∧ inv next ∧ weight next < weight state)
    {start : State} (holds : inv start) : machine.CanReach allowed goal start := by
  induction measured : weight start using Nat.strongRecOn generalizing start with
  | ind n inductionHypothesis =>
      by_cases reached : goal start
      · exact ⟨[], start, .nil, .nil, reached⟩
      · obtain ⟨action, middle, permitted, transition, kept, lighter⟩ := progress holds reached
        obtain ⟨actions, final, run, steps, goal⟩ :=
          inductionHypothesis (weight middle) (measured ▸ lighter) kept rfl
        refine ⟨action :: actions, final, .cons transition run, .cons permitted ?_, goal⟩
        intro next same
        cases transition.symm.trans same
        exact steps

/-- An exact condition: an invariant which the allowed steps preserve, and which a
step outside the condition always breaks, characterizes the runs that keep it. -/
theorem Runs.reachesOnly_iff {inv property : State → Prop} {allowed : State → Action → Prop}
    (implies : ∀ {state}, inv state → property state)
    (preserved : ∀ {state action next}, inv state → allowed state action →
      machine.step state action = some next → inv next)
    (breaks : ∀ {state action next}, inv state → ¬ allowed state action →
      machine.step state action = some next → ¬ property next)
    {start final : State} {actions : List Action}
    (run : machine.Runs start actions final) (holds : inv start) :
    machine.ReachesOnly property start actions ↔ machine.StepsOnly allowed start actions := by
  constructor
  · intro reaches
    induction run with
    | nil => exact .nil
    | @snoc actions state next action prior transition inductionHypothesis =>
        have steps := inductionHypothesis fun before part =>
          reaches before (part.trans (List.prefix_append _ _))
        intro before last part middle reached
        rcases List.prefix_concat_iff.mp part with whole | shorter
        · obtain ⟨rfl, same⟩ := List.append_inj' whole rfl
          cases same
          cases reached.final_unique prior
          by_contra refused
          have reachedInv : inv state := prior.invariant preserved steps holds
          exact breaks reachedInv refused transition
            (reaches _ List.prefix_rfl next (.snoc prior transition))
        · exact steps before last shorter middle reached
  · intro steps
    exact steps.reachesOnly implies preserved holds

end Machine

end WebChunk.Semantics
