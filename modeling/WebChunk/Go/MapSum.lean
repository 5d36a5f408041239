import Mathlib.Algebra.BigOperators.Group.Finset.Piecewise
import WebChunk.Go.Map

/-!
# Sums over the entries of a map

A count of entries, or of what they hold, follows the map entry by entry.
-/

namespace WebChunk.Go.Map

universe u v

variable {K : Type u} {V : Type v}

/-- The weights of the entries, added up. -/
def total (m : Map K V) (weight : V → Nat) : Nat := ∑ key ∈ m.keys, (m.get key).elim 0 weight

/-- The total depends on the lookup alone. -/
theorem total_congr {m m' : Map K V} (same : ∀ key, m.get key = m'.get key) (weight : V → Nat) :
    m.total weight = m'.total weight := by
  have keys : m.keys = m'.keys := by
    ext key
    rw [m.mem_keys, m'.mem_keys, same]
  unfold total
  rw [keys]
  exact Finset.sum_congr rfl fun key _ => by rw [same]

/-- The number of keys. -/
theorem total_one (m : Map K V) : (m.total fun _ => 1) = m.keys.card := by
  rw [Finset.card_eq_sum_ones]
  refine Finset.sum_congr rfl fun key member => ?_
  obtain ⟨value, found⟩ := Option.isSome_iff_exists.mp ((m.mem_keys key).mp member)
  rw [found]
  rfl

/-- The number of keys whose value passes a test. -/
theorem total_test (m : Map K V) (test : V → Bool) :
    (m.total fun value => if test value then 1 else 0) =
      (m.keys.filter fun key => (m.get key).any test).card := by
  rw [Finset.card_filter]
  refine Finset.sum_congr rfl fun key _ => ?_
  cases m.get key <;> rfl

@[simp] theorem total_empty (weight : V → Nat) : (empty : Map K V).total weight = 0 := rfl

variable [DecidableEq K]

/-- Two totals over the keys of both, which differ at one key. -/
theorem sum_replace {keys : Finset K} {key : K} (member : key ∈ keys) {f g : K → Nat}
    (others : ∀ other, other ≠ key → f other = g other) :
    (∑ other ∈ keys, f other) + g key = (∑ other ∈ keys, g other) + f key := by
  have rest : ∑ other ∈ keys.erase key, f other = ∑ other ∈ keys.erase key, g other :=
    Finset.sum_congr rfl fun other inside => others other (Finset.ne_of_mem_erase inside)
  rw [← Finset.add_sum_erase keys f member, ← Finset.add_sum_erase keys g member, rest]
  omega

/-- A key without an entry weighs nothing. -/
theorem total_eq_insert (m : Map K V) (key : K) (weight : V → Nat) :
    m.total weight = ∑ other ∈ insert key m.keys, (m.get other).elim 0 weight := by
  refine (Finset.sum_insert_of_eq_zero_if_notMem fun absent => ?_).symm
  have none_ : m.get key = none := by
    rw [m.mem_keys, Option.not_isSome_iff_eq_none] at absent
    exact absent
  rw [none_]
  rfl

theorem total_set (m : Map K V) (key : K) (value : V) (weight : V → Nat) :
    (m.set key value).total weight + (m.get key).elim 0 weight = m.total weight + weight value := by
  rw [total_eq_insert m key]
  have replaced := sum_replace (Finset.mem_insert_self key m.keys)
    (f := fun other => ((m.set key value).get other).elim 0 weight)
    (g := fun other => (m.get other).elim 0 weight)
    fun other different => by rw [get_set_of_ne different]
  rw [get_set_self] at replaced
  exact replaced

theorem total_delete (m : Map K V) (key : K) (weight : V → Nat) :
    (m.delete key).total weight + (m.get key).elim 0 weight = m.total weight := by
  have removed := total_eq_insert (m.delete key) key weight
  have keys : insert key (m.delete key).keys = insert key m.keys := by
    ext other
    by_cases same : other = key <;> simp [delete, same]
  rw [removed, keys, total_eq_insert m key]
  have replaced := sum_replace (Finset.mem_insert_self key m.keys)
    (f := fun other => ((m.delete key).get other).elim 0 weight)
    (g := fun other => (m.get other).elim 0 weight)
    fun other different => by rw [get_delete, if_neg different]
  rw [get_delete, if_pos rfl] at replaced
  exact replaced

end WebChunk.Go.Map
