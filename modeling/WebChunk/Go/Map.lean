import Mathlib.Data.Finset.Dedup
import Mathlib.Data.Finset.Erase
import Mathlib.Data.Finset.Insert
import Mathlib.Data.Finset.Filter

/-!
# Maps

A Go map as its lookup function together with its finitely many keys. A range
loop visits the keys in no particular order, so the loops of this development
are stated per key: `range` applies one visit to every entry.
-/

namespace WebChunk.Go

universe u v

/-- A finite map; the last field ties the keys to the lookup. -/
structure Map (K : Type u) (V : Type v) where
  get : K → Option V
  keys : Finset K
  mem_keys : ∀ key, key ∈ keys ↔ (get key).isSome

namespace Map

variable {K : Type u} {V : Type v}

/-- `map[K]V{}`. -/
def empty : Map K V := ⟨fun _ => none, ∅, fun _ => by simp⟩

/-- A range loop whose body keeps an entry, replaces its value or deletes it. -/
def range (m : Map K V) (visit : K → V → Option V) : Map K V where
  get key := (m.get key).bind (visit key)
  keys := m.keys.filter fun key => ((m.get key).bind (visit key)).isSome
  mem_keys key := by
    simp only [Finset.mem_filter, m.mem_keys, and_iff_right_iff_imp]
    cases m.get key <;> simp

/-- The keys in the order in which some range loop meets them. -/
structure RangeOrder (m : Map K V) where
  order : List K
  nodup : order.Nodup
  mem_order : ∀ key, key ∈ order ↔ key ∈ m.keys

/-- An order that a range loop may take. -/
noncomputable def someOrder (m : Map K V) : m.RangeOrder :=
  ⟨m.keys.toList, m.keys.nodup_toList, fun _ => Finset.mem_toList⟩

/-- Any key can be the first one. -/
theorem exists_order_from (m : Map K V) {key : K} (member : key ∈ m.keys) :
    ∃ order : m.RangeOrder, ∃ rest, order.order = key :: rest := by
  classical
  refine ⟨⟨key :: (m.keys.erase key).toList, ?_, fun other => ?_⟩, _, rfl⟩
  · rw [List.nodup_cons]
    exact ⟨by simp, Finset.nodup_toList _⟩
  · by_cases same : other = key
    · simp [same, member]
    · simp [same]

@[simp] theorem get_empty (key : K) : (empty : Map K V).get key = none := rfl

@[simp] theorem get_range (m : Map K V) (visit : K → V → Option V) (key : K) :
    (m.range visit).get key = (m.get key).bind (visit key) := rfl

variable [DecidableEq K]

/-- `m[key] = value`. -/
def set (m : Map K V) (key : K) (value : V) : Map K V where
  get other := if other = key then some value else m.get other
  keys := insert key m.keys
  mem_keys other := by
    by_cases same : other = key
    · simp [same]
    · simp [same, m.mem_keys]

/-- `delete(m, key)`. -/
def delete (m : Map K V) (key : K) : Map K V where
  get other := if other = key then none else m.get other
  keys := m.keys.filter (· ≠ key)
  mem_keys other := by
    by_cases same : other = key
    · simp [same]
    · simp [same, m.mem_keys]

theorem get_set (m : Map K V) (key other : K) (value : V) :
    (m.set key value).get other = if other = key then some value else m.get other := rfl

@[simp] theorem get_set_self (m : Map K V) (key : K) (value : V) :
    (m.set key value).get key = some value := by simp [get_set]

theorem get_set_of_ne {m : Map K V} {key other : K} {value : V} (different : other ≠ key) :
    (m.set key value).get other = m.get other := by
  rw [get_set, if_neg different]

theorem get_delete (m : Map K V) (key other : K) :
    (m.delete key).get other = if other = key then none else m.get other := rfl

end Map

end WebChunk.Go
