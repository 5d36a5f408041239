import WebChunk.Semantics.Machine

/-!
# Refinement between machines

A machine refines another one along a relation of their states if every step that its
environment may take is a step of the other one under the same action. Where the actions carry
what a call returns, the callers of the two then cannot tell them apart.
-/

namespace WebChunk.Semantics

universe u v w x

/-- A system that answers calls, as a machine: an action is a call with what it returned. -/
def answering {State : Type u} {Call : Type v} {Reply : Type w} [DecidableEq Reply]
    (answer : State → Call → Reply × State) : Machine State (Call × Reply) where
  step state exchange :=
    if (answer state exchange.1).1 = exchange.2 then some (answer state exchange.1).2 else none

namespace Machine

variable {Lower : Type u} {Upper : Type v} {Action : Type w}

/-- The allowed steps of `lower` are steps of `upper`, from states that are related to states
that are. -/
structure Refines (lower : Machine Lower Action) (upper : Machine Upper Action)
    (allowed : Lower → Action → Prop) (related : Lower → Upper → Prop) : Prop where
  simulated : ∀ {low next : Lower} {up : Upper} {action : Action}, related low up →
    allowed low action → lower.step low action = some next →
    ∃ above, upper.step up action = some above ∧ related next above

variable {lower : Machine Lower Action} {upper : Machine Upper Action}
  {allowed : Lower → Action → Prop} {related : Lower → Upper → Prop}

/-- Every run of allowed steps is a run of the upper machine, under the same actions. -/
theorem Refines.runs (refines : Refines lower upper allowed related) {start final : Lower}
    {actions : List Action} (run : lower.Runs start actions final)
    (steps : lower.StepsOnly allowed start actions) {first : Upper} (begin_ : related start first) :
    ∃ last, upper.Runs first actions last ∧ related final last := by
  induction run with
  | nil => exact ⟨first, .nil, begin_⟩
  | snoc prior transition inductionHypothesis =>
      have last := steps _ _ List.prefix_rfl _ prior
      obtain ⟨up, above, held⟩ := inductionHypothesis (steps.of_prefix (List.prefix_append _ _))
      obtain ⟨next, step, kept⟩ := refines.simulated held last transition
      exact ⟨next, .snoc above step, kept⟩

end Machine

section

variable {Low : Type u} {Up : Type v} {Call : Type w} {Reply : Type x} [DecidableEq Reply]
  {answer : Low → Call → Reply × Low} {specify : Up → Call → Reply × Up}
  {allowed : Low → Call → Prop} {related : Low → Up → Prop}

/-- Systems refine each other call by call if their replies to each call are the same. -/
theorem refines_of_answers (same : ∀ low up call, related low up → allowed low call →
      (answer low call).1 = (specify up call).1 ∧
        related (answer low call).2 (specify up call).2) :
    Machine.Refines (answering answer) (answering specify)
      (fun low exchange => allowed low exchange.1) related where
  simulated {low next up} exchange held may taken := by
    obtain ⟨reply, kept⟩ := same low up exchange.1 held may
    simp only [answering] at taken ⊢
    split at taken
    · rename_i replied
      cases taken
      exact ⟨_, if_pos (reply ▸ replied), kept⟩
    · cases taken

end

end WebChunk.Semantics
