import Mathlib.Algebra.BigOperators.Group.Finset.Basic
import Mathlib.Algebra.Order.Group.Multiset
import Mathlib.Data.Fintype.Basic
import Mathlib.Tactic.Abel
import WebChunk.Semantics.Machine

/-!
# Fanning out and counting down

One goroutine is started for each of finitely many jobs; each sends one value on one of
several buffered channels. The starter then collects the values, counts them down, and
returns when the count is zero. Whatever the order of the steps, the values received are
those of the jobs, and the collector neither stops early nor waits for more.
-/

namespace WebChunk.Semantics

universe u v w

/-- The jobs in the order in which they are started, with the channel that each sends on and
the value that it sends. -/
structure FanOut (J : Type u) (C : Type v) (V : Type w) where
  jobs : List J
  outlet : J → C
  result : J → V
  capacity : C → Nat

namespace FanOut

variable {J : Type u} {C : Type v} {V : Type w}

/-- The starter with its counter `t`, the goroutines that have not sent yet, and the values
in the channels and those received, oldest first. -/
structure State (J : Type u) (C : Type v) (V : Type w) where
  unstarted : List J
  running : List J
  buffer : C → List V
  t : Int
  received : List V
  returned : Bool

inductive Action (C : Type v) where
  /-- Count a job and start its goroutine. -/
  | start
  /-- One of the goroutines sends its value. -/
  | deliver (i : Nat)
  /-- The collector takes a value from one of the channels. -/
  | collect (c : C)

variable [DecidableEq C]

/-- No goroutine is started yet. -/
def initial (f : FanOut J C V) : State J C V := ⟨f.jobs, [], fun _ => [], 0, [], false⟩

def step (f : FanOut J C V) (s : State J C V) : Action C → Option (State J C V)
  | .start =>
      match s.unstarted with
      | [] => none
      | j :: rest => some { s with unstarted := rest, running := s.running ++ [j], t := s.t + 1 }
  | .deliver i =>
      match s.running[i]? with
      | none => none
      | some j =>
          if (s.buffer (f.outlet j)).length < f.capacity (f.outlet j) then
            some { s with
              running := s.running.eraseIdx i
              buffer := Function.update s.buffer (f.outlet j)
                (s.buffer (f.outlet j) ++ [f.result j]) }
          else none
  | .collect c =>
      match s.unstarted, s.returned, s.buffer c with
      | [], false, v :: rest =>
          some { s with
            buffer := Function.update s.buffer c rest
            t := s.t - 1
            received := s.received ++ [v]
            returned := s.t - 1 = 0 }
      | _, _, _ => none

def machine (f : FanOut J C V) : Machine (State J C V) (Action C) := ⟨f.step⟩

variable {f : FanOut J C V} {s next : State J C V} {action : Action C}

/-- What a step does. -/
inductive Transition (f : FanOut J C V) (s : State J C V) : State J C V → Prop where
  | start {j : J} {rest : List J} (first : s.unstarted = j :: rest) :
      Transition f s
        { s with unstarted := rest, running := s.running ++ [j], t := s.t + 1 }
  | deliver {i : Nat} {j : J} (there : s.running[i]? = some j) :
      Transition f s
        { s with
          running := s.running.eraseIdx i
          buffer := Function.update s.buffer (f.outlet j)
            (s.buffer (f.outlet j) ++ [f.result j]) }
  | collect {c : C} {v : V} {rest : List V} (started : s.unstarted = [])
      (waits : s.returned = false) (oldest : s.buffer c = v :: rest) :
      Transition f s
        { s with
          buffer := Function.update s.buffer c rest
          t := s.t - 1
          received := s.received ++ [v]
          returned := s.t - 1 = 0 }

theorem transition_of_step (taken : f.step s action = some next) : f.Transition s next := by
  cases action with
  | start =>
      simp only [step] at taken
      split at taken
      · cases taken
      · rename_i first
        cases taken
        exact .start first
  | deliver i =>
      simp only [step] at taken
      split at taken
      · cases taken
      · rename_i there
        split at taken
        · cases taken
          exact .deliver there
        · cases taken
  | collect c =>
      simp only [step] at taken
      split at taken
      · rename_i started waits oldest
        cases taken
        exact .collect started waits oldest
      · cases taken

variable [Fintype C]

/-- The values in the channels. -/
def State.buffered (s : State J C V) : Multiset V := ∑ c, (s.buffer c : Multiset V)

theorem sum_update (buffer : C → List V) (c : C) (after : List V) :
    (∑ other, (Function.update buffer c after other : Multiset V)) + (buffer c : Multiset V) =
      (∑ other, (buffer other : Multiset V)) + (after : Multiset V) := by
  have split : ∀ g : C → List V, (∑ other, (g other : Multiset V)) =
      (g c : Multiset V) + ∑ other ∈ Finset.univ.erase c, (g other : Multiset V) :=
    fun g => (Finset.add_sum_erase _ _ (Finset.mem_univ c)).symm
  have others : ∑ other ∈ Finset.univ.erase c, (Function.update buffer c after other : Multiset V) =
      ∑ other ∈ Finset.univ.erase c, (buffer other : Multiset V) :=
    Finset.sum_congr rfl fun other member => by
      rw [Function.update_of_ne (Finset.ne_of_mem_erase member)]
  rw [split (Function.update buffer c after), split buffer, others, Function.update_self]
  abel

/-- Nothing is lost and nothing is made up: every job's value is on its way exactly once, and
`t` counts those that were started and not received. -/
structure Counted (f : FanOut J C V) (s : State J C V) : Prop where
  values : (s.received : Multiset V) + s.buffered + (s.running.map f.result : Multiset V) +
    (s.unstarted.map f.result : Multiset V) = (f.jobs.map f.result : Multiset V)
  count : s.t = (s.buffered.card : Int) + s.running.length
  returned : s.returned = true → s.unstarted = [] ∧ s.t = 0
  waits : s.returned = false → s.unstarted = [] → s.t ≠ 0

omit [DecidableEq C] in
theorem Counted.initial (jobs : f.jobs ≠ []) : f.Counted f.initial where
  values := by simp [FanOut.initial, State.buffered]
  count := by simp [FanOut.initial, State.buffered]
  returned := fun returned => by cases returned
  waits := fun _ none_ => absurd none_ jobs

/-- A running job and the others. -/
theorem perm_eraseIdx {l : List J} {i : Nat} {j : J} (there : l[i]? = some j) :
    l.Perm (j :: l.eraseIdx i) := by
  obtain ⟨inside, rfl⟩ := List.getElem?_eq_some_iff.mp there
  exact (List.getElem_cons_eraseIdx_perm inside).symm

theorem Counted.preserved (counted : f.Counted s) (taken : f.step s action = some next) :
    f.Counted next := by
  obtain ⟨values, count, returned, waits⟩ := counted
  cases transition_of_step taken with
  | @start j rest first =>
      refine ⟨?_, ?_, ?_, ?_⟩
      · rw [← values, first]
        simp only [State.buffered, List.map_append, List.map_cons, List.map_nil,
          ← Multiset.coe_add, ← Multiset.cons_coe, ← Multiset.singleton_add]
        simp only [Multiset.coe_nil, add_zero]
        abel
      · simp only [State.buffered, List.length_append, List.length_singleton] at count ⊢
        omega
      · intro done
        have started := (returned done).1
        rw [first] at started
        cases started
      · intro _ _
        have := count
        dsimp only
        omega
  | @deliver i j there =>
      have apart := perm_eraseIdx there
      have moved := sum_update s.buffer (f.outlet j) (s.buffer (f.outlet j) ++ [f.result j])
      rw [← Multiset.coe_add, ← add_assoc, add_right_comm] at moved
      have more : (∑ c, (Function.update s.buffer (f.outlet j)
          (s.buffer (f.outlet j) ++ [f.result j]) c : Multiset V)) =
          s.buffered + {f.result j} := add_right_cancel moved
      refine ⟨?_, ?_, returned, waits⟩
      · rw [← values]
        have whole : (s.running.map f.result : Multiset V) =
            {f.result j} + ((s.running.eraseIdx i).map f.result : Multiset V) := by
          rw [Multiset.singleton_add, Multiset.cons_coe, ← List.map_cons]
          exact Multiset.coe_eq_coe.mpr (apart.map f.result)
        rw [whole]
        simp only [State.buffered] at more ⊢
        rw [more]
        abel
      · have fewer := apart.length_eq
        rw [List.length_cons] at fewer
        simp only [State.buffered] at more count ⊢
        rw [more, Multiset.card_add, Multiset.card_singleton]
        omega
  | @collect c v rest started open_ oldest =>
      have moved := sum_update s.buffer c rest
      rw [oldest, ← Multiset.cons_coe, ← Multiset.singleton_add, ← add_assoc] at moved
      have fewer : (∑ other, (Function.update s.buffer c rest other : Multiset V)) + {v} =
          s.buffered := add_right_cancel moved
      refine ⟨?_, ?_, ?_, ?_⟩
      · rw [← values, ← fewer]
        simp only [State.buffered, ← Multiset.coe_add, Multiset.coe_singleton]
        abel
      · rw [← fewer, Multiset.card_add, Multiset.card_singleton] at count
        simp only [State.buffered]
        omega
      · intro done
        exact ⟨started, by simpa using done⟩
      · intro done _
        simpa using done

/-- The steps that are left at most. -/
def State.weight (s : State J C V) : Nat :=
  3 * s.unstarted.length + 2 * s.running.length + s.buffered.card

/-- Every step is paid for. -/
theorem weight_of_step (taken : f.step s action = some next) : next.weight + 1 = s.weight := by
  cases transition_of_step taken with
  | @start j rest first =>
      simp only [State.weight, State.buffered, first, List.length_append, List.length_cons,
        List.length_nil]
      omega
  | @deliver i j there =>
      have moved := congrArg Multiset.card
        (sum_update s.buffer (f.outlet j) (s.buffer (f.outlet j) ++ [f.result j]))
      have fewer := (perm_eraseIdx there).length_eq
      simp only [Multiset.card_add, Multiset.coe_card, List.length_append, List.length_cons,
        List.length_nil] at moved fewer
      simp only [State.weight, State.buffered]
      omega
  | @collect c v rest _ _ oldest =>
      have moved := congrArg Multiset.card (sum_update s.buffer c rest)
      rw [oldest] at moved
      simp only [Multiset.card_add, Multiset.coe_card, List.length_cons] at moved
      simp only [State.weight, State.buffered]
      omega

/-- Until the collector has returned there is a next step. -/
theorem Counted.exists_step (counted : f.Counted s) (room : ∀ c, 0 < f.capacity c)
    (waits : s.returned = false) : ∃ action next, f.step s action = some next := by
  cases first : s.unstarted with
  | cons j rest => exact ⟨.start, _, by simp only [step, first]; rfl⟩
  | nil =>
      by_cases buffered : ∃ c, s.buffer c ≠ []
      · obtain ⟨c, some_⟩ := buffered
        obtain ⟨v, rest, oldest⟩ := List.exists_cons_of_ne_nil some_
        exact ⟨.collect c, _, by simp only [step, first, waits, oldest]; rfl⟩
      · -- The channels are empty, so a goroutine is left that finds room in its own.
        have empty : ∀ c, s.buffer c = [] := fun c => by
          by_contra some_
          exact buffered ⟨c, some_⟩
        have none_ : s.buffered = 0 := by simp [State.buffered, empty]
        have count := counted.count
        have left := counted.waits waits first
        rw [none_, Multiset.card_zero] at count
        obtain ⟨j, rest, running⟩ : ∃ j rest, s.running = j :: rest := by
          refine List.exists_cons_of_ne_nil fun idle => left ?_
          rw [count, idle]
          rfl
        refine ⟨.deliver 0, Option.isSome_iff_exists.mp ?_⟩
        simp only [step, running, List.getElem?_cons_zero, empty, List.length_nil]
        rw [if_pos (room _)]
        rfl

variable {actions : List (Action C)} {final : State J C V}

theorem counted_of_runs (jobs : f.jobs ≠ []) (run : f.machine.Runs f.initial actions final) :
    f.Counted final :=
  run.always (fun counted taken => counted.preserved taken) (.initial jobs)

/-- A run has three steps for each job at most. -/
theorem length_of_runs (run : f.machine.Runs f.initial actions final) :
    actions.length + final.weight = 3 * f.jobs.length := by
  induction run with
  | nil => simp [State.weight, initial, State.buffered]
  | snoc _ taken inductionHypothesis =>
      have paid := weight_of_step taken
      rw [List.length_append, List.length_singleton]
      omega

/-- What a collector that has returned has received. -/
theorem received_perm (jobs : f.jobs ≠ []) (run : f.machine.Runs f.initial actions final)
    (returned : final.returned = true) : final.received.Perm (f.jobs.map f.result) := by
  have counted := counted_of_runs jobs run
  obtain ⟨started, zero⟩ := counted.returned returned
  have count := counted.count
  have buffered : final.buffered = 0 := Multiset.card_eq_zero.mp (by omega)
  have running : final.running = [] := List.length_eq_zero_iff.mp (by omega)
  have values := counted.values
  rw [buffered, running, started] at values
  simpa using values

end FanOut

end WebChunk.Semantics
