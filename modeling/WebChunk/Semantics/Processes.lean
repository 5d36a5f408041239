import Mathlib.Algebra.GroupWithZero.Nat
import Mathlib.Data.List.Basic

/-!
# Numbered processes

A system keeps its processes in a list and names each by its place, so that a process
never changes its number: the list is only appended to and modified in place. These
lemmas take such a change apart.
-/

namespace WebChunk.Semantics

universe u

variable {α : Type u} {l : List α} {a b : α} {j : Nat}

/-- An element of a list after one of its elements was modified. -/
theorem getElem?_modify_some {f : α → α} {i : Nat}
    (found : (l.modify i f)[j]? = some b) :
    ∃ a, l[j]? = some a ∧ b = if i = j then f a else a := by
  rw [List.getElem?_modify] at found
  obtain ⟨a, before, rfl⟩ := Option.map_eq_some_iff.mp found
  exact ⟨a, before, rfl⟩

/-- An element of a list after one element was appended. -/
theorem getElem?_concat_some
    (found : (l ++ [a])[j]? = some b) : l[j]? = some b ∨ j = l.length ∧ b = a := by
  rcases Nat.lt_or_ge j l.length with old | new
  · exact .inl (by rwa [List.getElem?_append_left old] at found)
  · rw [List.getElem?_append_right new, List.getElem?_singleton] at found
    split at found
    · cases found
      exact .inr ⟨by omega, rfl⟩
    · cases found

/-- An element of a list after all elements were visited. -/
theorem getElem?_mapIdx_some {f : Nat → α → α}
    (found : (l.mapIdx f)[j]? = some b) : ∃ a, l[j]? = some a ∧ b = f j a := by
  rw [List.getElem?_mapIdx] at found
  obtain ⟨a, before, rfl⟩ := Option.map_eq_some_iff.mp found
  exact ⟨a, before, rfl⟩

/-- The number of processes at a place after one of them was replaced. -/
theorem countP_set_of_some {p : α → Bool} {i : Nat} (found : l[i]? = some a) :
    (l.set i b).countP p + (if p a then 1 else 0) = l.countP p + if p b then 1 else 0 := by
  obtain ⟨inside, rfl⟩ := List.getElem?_eq_some_iff.mp found
  have counted : p l[i] = true → 0 < l.countP p := fun there =>
    List.countP_pos_iff.mpr ⟨_, List.getElem_mem inside, there⟩
  rw [List.countP_set inside]
  split <;> split <;> simp_all

/-- The weight of all processes after one of them was replaced. -/
theorem sum_map_set_of_some {f : α → Nat} {i : Nat} (found : l[i]? = some a) :
    ((l.set i b).map f).sum + f a = (l.map f).sum + f b := by
  induction l generalizing i with
  | nil => cases found
  | cons first rest inductionHypothesis =>
      cases i with
      | zero =>
          cases found
          simp only [List.set_cons_zero, List.map_cons, List.sum_cons]
          omega
      | succ i =>
          have replaced := inductionHypothesis (by simpa using found)
          simp only [List.set_cons_succ, List.map_cons, List.sum_cons]
          omega

/-- A process keeps its number when another one is started. -/
theorem getElem?_concat_of_some (found : l[j]? = some b) : (l ++ [a])[j]? = some b :=
  (List.getElem?_append_left (List.getElem?_eq_some_iff.mp found).1).trans found

end WebChunk.Semantics
