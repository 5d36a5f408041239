import Mathlib.Tactic.Common

/-!
# Deterministic loops

A loop as the partial function that one iteration is: `none` says that the loop has ended.
Invariants hold of every state that it reaches, and a measure that every iteration makes
smaller bounds the number of iterations.
-/

namespace WebChunk.Semantics

universe u

/-- A loop by its iterations. -/
structure Loop (State : Type u) where
  step : State → Option State

namespace Loop

variable {State : Type u} (loop : Loop State)

/-- After this many iterations the loop is in the last state. -/
inductive Reaches (start : State) : Nat → State → Prop where
  | refl : Reaches start 0 start
  | next {n : Nat} {state next : State} (prior : Reaches start n state)
      (transition : loop.step state = some next) : Reaches start (n + 1) next

/-- At most `n` iterations. -/
def run : Nat → State → State
  | 0, state => state
  | n + 1, state =>
      match loop.step state with
      | none => state
      | some next => run n next

/-- There is no further iteration. -/
def Ended (state : State) : Prop := loop.step state = none

variable {loop} {start middle final : State} {m n : Nat}

theorem Reaches.trans (first : loop.Reaches start m middle)
    (second : loop.Reaches middle n final) : loop.Reaches start (m + n) final := by
  induction second with
  | refl => exact first
  | next _ transition inductionHypothesis => exact .next inductionHypothesis transition

theorem Reaches.one (transition : loop.step start = some final) : loop.Reaches start 1 final :=
  .next .refl transition

/-- A first iteration and those after it. -/
theorem Reaches.of_succ (reaches : loop.Reaches start (n + 1) final) :
    ∃ next, loop.step start = some next ∧ loop.Reaches next n final := by
  generalize whole : n + 1 = count at reaches
  induction reaches generalizing n with
  | refl => cases whole
  | @next before state next prior transition inductionHypothesis =>
      obtain rfl := Nat.succ.inj whole
      cases n with
      | zero =>
          cases prior
          exact ⟨next, transition, .refl⟩
      | succ n =>
          obtain ⟨first, leading, rest⟩ := inductionHypothesis rfl
          exact ⟨first, leading, .next rest transition⟩

/-- The invariant rule. -/
theorem Reaches.invariant (inv : State → Prop)
    (preserved : ∀ {state next}, inv state → loop.step state = some next → inv next)
    (reaches : loop.Reaches start n final) (holds : inv start) : inv final := by
  induction reaches with
  | refl => exact holds
  | next _ transition inductionHypothesis => exact preserved inductionHypothesis transition

/-- What the interpreter computes is reached, and if iterations are left, the loop has ended. -/
theorem reaches_run (loop : Loop State) (start : State) (n : Nat) :
    ∃ k, k ≤ n ∧ loop.Reaches start k (loop.run n start) ∧
      (k < n → loop.Ended (loop.run n start)) := by
  induction n generalizing start with
  | zero => exact ⟨0, (Nat.le_refl _), .refl, fun less => absurd less (Nat.lt_irrefl 0)⟩
  | succ n inductionHypothesis =>
      unfold run
      cases transition : loop.step start with
      | none => exact ⟨0, Nat.zero_le _, .refl, fun _ => transition⟩
      | some next =>
          obtain ⟨k, less, reaches, ended⟩ := inductionHypothesis next
          refine ⟨1 + k, by omega, (Reaches.one transition).trans reaches, fun fewer => ?_⟩
          exact ended (by omega)

/-- A loop runs straight on: what is reached later is reached from what is reached earlier. -/
theorem Reaches.between (first : loop.Reaches start m middle)
    (second : loop.Reaches start n final) (less : m ≤ n) : loop.Reaches middle (n - m) final := by
  induction first generalizing n with
  | refl => simpa using second
  | @next m state next prior transition inductionHypothesis =>
      have rest := inductionHypothesis second (by omega)
      obtain ⟨k, more⟩ : ∃ k, n - m = k + 1 := ⟨n - m - 1, by omega⟩
      rw [more] at rest
      obtain ⟨other, again, rest⟩ := rest.of_succ
      rw [transition] at again
      cases again
      rwa [show n - (m + 1) = k by omega]

/-- Nothing is reached after the end. -/
theorem Reaches.le_of_ended (ended : loop.Reaches start m middle) (last : loop.Ended middle)
    (reaches : loop.Reaches start n final) : n ≤ m := by
  by_contra later
  have rest := ended.between reaches (by omega)
  obtain ⟨k, more⟩ : ∃ k, n - m = k + 1 := ⟨n - m - 1, by omega⟩
  rw [more] at rest
  obtain ⟨next, transition, _⟩ := rest.of_succ
  rw [last] at transition
  cases transition

theorem Reaches.unique (first : loop.Reaches start n middle)
    (second : loop.Reaches start n final) : middle = final := by
  have rest := first.between second (Nat.le_refl _)
  rw [Nat.sub_self] at rest
  cases rest
  rfl

/-- A loop ends in one state at most. -/
theorem Reaches.ended_unique (first : loop.Reaches start m middle) (ended : loop.Ended middle)
    (second : loop.Reaches start n final) (last : loop.Ended final) : middle = final := by
  have same : m = n :=
    Nat.le_antisymm (second.le_of_ended last first) (first.le_of_ended ended second)
  subst same
  exact first.unique second

/-- A state that an iteration does not change is never left. -/
theorem Reaches.not_ended_of_stuck (reaches : loop.Reaches start m middle)
    (stuck : loop.step middle = some middle) (second : loop.Reaches start n final) :
    ¬ loop.Ended final := by
  intro ended
  have rest := reaches.between second (second.le_of_ended ended reaches)
  have same : final = middle := rest.invariant (· = middle)
    (fun here transition => by
      subst here
      exact Option.some.inj (transition.symm.trans stuck)) rfl
  rw [same, Ended, stuck] at ended
  cases ended

/-- While every iteration keeps an invariant and makes a measure smaller, the loop ends. -/
theorem exists_ended {inv : State → Prop} (measure : State → Nat)
    (decreases : ∀ {state next}, inv state → loop.step state = some next →
      inv next ∧ measure next < measure state)
    (holds : inv start) : ∃ n final, loop.Reaches start n final ∧ loop.Ended final := by
  induction measured : measure start using Nat.strongRecOn generalizing start with
  | ind size inductionHypothesis =>
      cases transition : loop.step start with
      | none => exact ⟨0, start, .refl, transition⟩
      | some next =>
          obtain ⟨kept, smaller⟩ := decreases holds transition
          obtain ⟨n, final, reaches, ended⟩ :=
            inductionHypothesis (measure next) (measured ▸ smaller) kept rfl
          exact ⟨1 + n, final, (Reaches.one transition).trans reaches, ended⟩

/-- The interpreter finds the end of a loop that ends within the iterations it has. -/
theorem run_eq_of_ended (reaches : loop.Reaches start m final) (ended : loop.Ended final)
    (enough : m ≤ n) : loop.run n start = final := by
  obtain ⟨k, _, reached, stopped⟩ := reaches_run loop start n
  have less : k ≤ m := reaches.le_of_ended ended reached
  rcases Nat.lt_or_ge k n with early | late
  · have more := reached.le_of_ended (stopped early) reaches
    obtain rfl : k = m := by omega
    exact reached.unique reaches
  · obtain rfl : k = m := by omega
    exact reached.unique reaches

section Measure

variable {measure : State → Nat} (decreases : ∀ state next, loop.step state = some next →
  measure next < measure state)

include decreases

/-- The measure pays for the iterations. -/
theorem Reaches.add_measure_le (reaches : loop.Reaches start n final) :
    n + measure final ≤ measure start := by
  induction reaches with
  | refl => omega
  | @next n state next _ transition inductionHypothesis =>
      have less := decreases state next transition
      omega

/-- As many iterations as the measure allows are enough. -/
theorem run_ended (enough : measure start ≤ n) : loop.Ended (loop.run n start) := by
  obtain ⟨k, _, reached, stopped⟩ := reaches_run loop start n
  have paid := reached.add_measure_le decreases
  rcases Nat.lt_or_ge k n with early | late
  · exact stopped early
  · by_contra more
    obtain ⟨next, transition⟩ := Option.ne_none_iff_exists'.mp more
    have less := decreases _ next transition
    omega

end Measure

end Loop

end WebChunk.Semantics
