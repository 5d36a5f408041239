import WebChunk.Semantics.Machine

/-!
# Histories

What the steps of a run show to an observer, in their order. The rules carry a relation between
the history and the state along a run, compare two observers, and leave out the steps that an
observer is not concerned with.
-/

namespace WebChunk.Semantics.Machine

universe u v w

variable {State : Type u} {Action : Type v} {Event : Type w} (machine : Machine State Action)

/-- The history of `actions` from `start`, as far as they can be taken. -/
def history (shows : State → Action → State → List Event) (start : State) :
    List Action → List Event
  | [] => []
  | action :: rest =>
      (machine.step start action).elim [] fun next =>
        shows start action next ++ history shows next rest

variable {machine} {shows : State → Action → State → List Event} {start final : State}
  {actions : List Action}

theorem history_cons {middle : State} {action : Action}
    (transition : machine.step start action = some middle) :
    machine.history shows start (action :: actions) =
      shows start action middle ++ machine.history shows middle actions := by
  rw [history, transition]
  rfl

/-- One step more. -/
theorem history_snoc {state next : State} {action : Action}
    (run : machine.Runs start actions state) (transition : machine.step state action = some next) :
    machine.history shows start (actions ++ [action]) =
      machine.history shows start actions ++ shows state action next := by
  induction actions generalizing start with
  | nil =>
      cases run.final_unique .nil
      rw [List.nil_append, history_cons transition]
      simp [history]
  | cons first rest inductionHypothesis =>
      obtain ⟨middle, leading, later⟩ := run.of_cons
      rw [List.cons_append, history_cons leading, history_cons leading,
        inductionHypothesis later, List.append_assoc]

/-- The invariant rule with the history. -/
theorem Runs.history (inv : List Event → State → Prop)
    (preserved : ∀ {past state action next}, inv past state →
      machine.step state action = some next → inv (past ++ shows state action next) next)
    (run : machine.Runs start actions final) (holds : inv [] start) :
    inv (machine.history shows start actions) final := by
  induction run with
  | nil => exact holds
  | snoc prior transition inductionHypothesis =>
      rw [history_snoc prior transition]
      exact preserved inductionHypothesis transition

/-- The invariant rule with the histories of two observers. -/
theorem Runs.histories {Other : Type*} {other : State → Action → State → List Other}
    (inv : List Event → List Other → State → Prop)
    (preserved : ∀ {past pastOther state action next}, inv past pastOther state →
      machine.step state action = some next →
      inv (past ++ shows state action next) (pastOther ++ other state action next) next)
    (run : machine.Runs start actions final) (holds : inv [] [] start) :
    inv (machine.history shows start actions) (machine.history other start actions) final := by
  induction run with
  | nil => exact holds
  | snoc prior transition inductionHypothesis =>
      rw [history_snoc prior transition, history_snoc prior transition]
      exact preserved inductionHypothesis transition

/-- The rule of projection. Steps that are left out show nothing and keep the states alike, the
others can be taken in every state alike and show the same there. -/
theorem Runs.filter {keep : Action → Bool} (alike : State → State → Prop)
    (omits : ∀ {state action next twin}, alike state twin → keep action = false →
      machine.step state action = some next → alike next twin ∧ shows state action next = [])
    (keeps : ∀ {state action next twin}, alike state twin → keep action = true →
      machine.step state action = some next → ∃ nextTwin,
        machine.step twin action = some nextTwin ∧ alike next nextTwin ∧
          shows state action next = shows twin action nextTwin)
    (run : machine.Runs start actions final) {startTwin : State} (holds : alike start startTwin) :
    ∃ finalTwin, machine.Runs startTwin (actions.filter keep) finalTwin ∧
      alike final finalTwin ∧
      machine.history shows start actions = machine.history shows startTwin (actions.filter keep) := by
  induction run with
  | nil => exact ⟨startTwin, .nil, holds, rfl⟩
  | @snoc actions state next action prior transition inductionHypothesis =>
      obtain ⟨twin, twinRun, similar, same⟩ := inductionHypothesis
      rw [history_snoc prior transition, List.filter_append]
      cases kept : keep action with
      | false =>
          obtain ⟨still, nothing⟩ := omits similar kept transition
          rw [List.filter_cons_of_neg (by simp [kept]), List.filter_nil, List.append_nil, nothing,
            List.append_nil]
          exact ⟨twin, twinRun, still, same⟩
      | true =>
          obtain ⟨nextTwin, taken, still, shown⟩ := keeps similar kept transition
          rw [List.filter_cons_of_pos kept, List.filter_nil, history_snoc twinRun taken, same, shown]
          exact ⟨nextTwin, .snoc twinRun taken, still, rfl⟩

end WebChunk.Semantics.Machine
