import Mathlib.Algebra.Order.Group.Multiset
import WebChunk.Semantics.History

/-!
# Conservation

Items go into a system, are somewhere inside it for a while and leave it. If every step keeps the
balance, then after any run what went in is what came out and what is still inside, each item as
often as it went in. Rules for what observers see of a run, and a lemma that takes the items
apart which numbered processes hold.
-/

namespace WebChunk.Semantics

universe u v w

namespace Machine

variable {State : Type u} {Action : Type v} {Item : Type w} {machine : Machine State Action}
  {start final : State} {actions : List Action}

/-- The rule of conservation, under an invariant, for runs that have not come to a state after
which nothing is said any more. -/
theorem Runs.conserved (inv lives : State → Prop) (inside : State → Multiset Item)
    (enters leaves : State → Action → State → List Item)
    (preserved : ∀ {state action next}, inv state → machine.step state action = some next →
      inv next)
    (balanced : ∀ {state action next}, inv state → machine.step state action = some next →
      lives next → lives state ∧
        inside state + enters state action next = leaves state action next + inside next)
    (run : machine.Runs start actions final) (holds : inv start) (living : lives final) :
    inside start + machine.history enters start actions =
      machine.history leaves start actions + inside final := by
  suffices kept : inv final ∧ (lives final → inside start + machine.history enters start actions =
      machine.history leaves start actions + inside final) from kept.2 living
  clear living
  induction run with
  | nil => exact ⟨holds, fun _ => add_comm _ _⟩
  | @snoc actions state next action prior transition inductionHypothesis =>
      obtain ⟨before, sum⟩ := inductionHypothesis
      refine ⟨preserved before transition, fun living => ?_⟩
      obtain ⟨lived, balance⟩ := balanced before transition living
      rw [history_snoc prior transition, history_snoc prior transition, ← Multiset.coe_add,
        ← Multiset.coe_add, ← add_assoc, sum lived, add_assoc, balance, add_assoc]

/-- What two observers see together. -/
theorem history_append (left right : State → Action → State → List Item) (start : State)
    (actions : List Action) :
    (machine.history (fun s a next => left s a next ++ right s a next) start actions :
        Multiset Item) =
      machine.history left start actions + machine.history right start actions := by
  induction actions generalizing start with
  | nil => rfl
  | cons action rest inductionHypothesis =>
      cases taken : machine.step start action with
      | none => simp only [history, taken, Option.elim_none, Multiset.coe_nil, add_zero]
      | some next =>
          rw [history_cons taken, history_cons taken, history_cons taken, ← Multiset.coe_add,
            ← Multiset.coe_add, ← Multiset.coe_add, ← Multiset.coe_add, inductionHypothesis]
          exact add_add_add_comm _ _ _ _

/-- An observer of what is made from the items. -/
theorem history_map {Other : Type*} (f : Item → Other)
    (shows : State → Action → State → List Item) (start : State) (actions : List Action) :
    machine.history (fun s a next => (shows s a next).map f) start actions =
      (machine.history shows start actions).map f := by
  induction actions generalizing start with
  | nil => rfl
  | cons action rest inductionHypothesis =>
      cases taken : machine.step start action with
      | none => simp only [history, taken, Option.elim_none, List.map_nil]
      | some next =>
          rw [history_cons taken, history_cons taken, List.map_append, inductionHypothesis]

/-- The invariant rule with the history, for runs of allowed steps. -/
theorem Runs.observed {shows : State → Action → State → List Item}
    {allowed : State → Action → Prop} (inv : List Item → State → Prop)
    (preserved : ∀ {past state action next}, inv past state → allowed state action →
      machine.step state action = some next → inv (past ++ shows state action next) next)
    (run : machine.Runs start actions final) (steps : machine.StepsOnly allowed start actions)
    (holds : inv [] start) : inv (machine.history shows start actions) final := by
  induction run with
  | nil => exact holds
  | @snoc actions state next action prior transition inductionHypothesis =>
      have before := inductionHypothesis (steps.of_prefix (List.prefix_append _ _))
      rw [history_snoc prior transition]
      exact preserved before (steps actions action List.prefix_rfl state prior) transition

end Machine

/-- What the processes hold after one of them was replaced. -/
theorem flatMap_set_of_some {α : Type u} {β : Type v} {l : List α} {i : Nat} {a b : α}
    (f : α → List β) (found : l[i]? = some a) :
    ((l.set i b).flatMap f : Multiset β) + f a = (l.flatMap f : Multiset β) + f b := by
  induction l generalizing i with
  | nil => cases found
  | cons first rest inductionHypothesis =>
      cases i with
      | zero =>
          cases found
          simp only [List.set_cons_zero, List.flatMap_cons, ← Multiset.coe_add]
          rw [add_right_comm, add_comm (f b : Multiset β), add_right_comm]
      | succ i =>
          have replaced := inductionHypothesis (by simpa using found)
          simp only [List.set_cons_succ, List.flatMap_cons, ← Multiset.coe_add]
          rw [add_assoc, replaced, add_assoc]

end WebChunk.Semantics
