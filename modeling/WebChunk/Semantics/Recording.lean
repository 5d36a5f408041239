import WebChunk.Semantics.Machine

/-!
# Recording machines

A record that is carried along a run beside the state, and that no step looks at. The runs
stay the runs of the machine, so a property of the record is proved like one of a state.
-/

namespace WebChunk.Semantics.Machine

universe u v w

variable {State : Type u} {Action : Type v} {Record : Type w} (machine : Machine State Action)

/-- The machine with a record beside its state. -/
def recording (record : Record → State → Action → State → Record) :
    Machine (Record × State) Action where
  step state action :=
    (machine.step state.2 action).map fun next => (record state.1 state.2 action next, next)

variable {machine} {record : Record → State → Action → State → Record}

theorem step_recording {state next : Record × State} {action : Action} :
    (machine.recording record).step state action = some next ↔
      machine.step state.2 action = some next.2 ∧
        next.1 = record state.1 state.2 action next.2 := by
  obtain ⟨written, after⟩ := next
  simp only [recording, Option.map_eq_some_iff, Prod.mk.injEq]
  constructor
  · rintro ⟨middle, transition, rfl, rfl⟩
    exact ⟨transition, rfl⟩
  · rintro ⟨transition, rfl⟩
    exact ⟨after, transition, rfl, rfl⟩

/-- Without its record, a run is a run of the machine. -/
theorem Runs.of_recording {start final : Record × State} {actions : List Action}
    (run : (machine.recording record).Runs start actions final) :
    machine.Runs start.2 actions final.2 := by
  induction run with
  | nil => exact .nil
  | snoc _ transition inductionHypothesis =>
      exact .snoc inductionHypothesis (step_recording.mp transition).1

/-- Every run can be recorded. -/
theorem Runs.recorded {start final : State} {actions : List Action}
    (run : machine.Runs start actions final) (before : Record) :
    ∃ after, (machine.recording record).Runs (before, start) actions (after, final) := by
  induction run with
  | nil => exact ⟨before, .nil⟩
  | @snoc actions state next action _ transition inductionHypothesis =>
      obtain ⟨middle, prior⟩ := inductionHypothesis
      have taken : (machine.recording record).step (middle, state) action =
          some (record middle state action next, next) :=
        step_recording.mpr ⟨transition, rfl⟩
      exact ⟨_, .snoc prior taken⟩

/-- A condition that does not look at the record. -/
theorem stepsOnly_recording (allowed : State → Action → Prop) {start : State} {before : Record}
    {actions : List Action} :
    (machine.recording record).StepsOnly (fun state action => allowed state.2 action)
        (before, start) actions ↔
      machine.StepsOnly allowed start actions := by
  constructor
  · intro steps earlier action part state reached
    obtain ⟨after, recorded⟩ := @Runs.recorded _ _ _ _ record _ _ _ reached before
    exact steps earlier action part (after, state) recorded
  · intro steps earlier action part state reached
    exact steps earlier action part state.2 reached.of_recording

end WebChunk.Semantics.Machine
