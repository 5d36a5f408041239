import Mathlib.Algebra.BigOperators.Group.List.Lemmas
import Mathlib.Algebra.GroupWithZero.Nat
import WebChunk.Sql.Ranking

/-!
# Groups and strictly ordered rows

`select .., count(*) .. group by ..`, and the order of rows whose keys increase as they are stored.
-/

namespace WebChunk.Sql

universe u v w

variable {Row : Type u} {Key : Type v} {Part : Type w}

section Groups

variable [DecidableEq Part] {part : Row → Part} {rows : List Row}

/-- The groups of the rows with the number of rows in each. -/
def groupCounts (part : Row → Part) (rows : List Row) : List (Part × Nat) :=
  (rows.map part).dedup.map fun p => (p, rows.countP fun row => part row = p)

theorem countP_part (p : Part) :
    rows.countP (fun row => part row = p) = @List.count Part instBEqOfDecidableEq p
      (rows.map part) := by
  rw [List.count_eq_countP, List.countP_map]
  exact List.countP_congr fun row _ => by simp

/-- A group is listed once, if it has rows at all. -/
theorem groupCounts_filter (p : Part) :
    (groupCounts part rows).filter (fun group => group.1 = p) =
      if 0 < rows.countP (fun row => part row = p) then
        [(p, rows.countP fun row => part row = p)] else [] := by
  rw [groupCounts, List.filter_map]
  have alone : (rows.map part).dedup.filter ((fun group : Part × Nat => decide (group.1 = p)) ∘
      fun p => (p, rows.countP fun row => part row = p)) =
        if p ∈ rows.map part then [p] else [] := by
    refine (List.filter_eq p).trans ?_
    rw [List.count_dedup]
    split <;> rfl
  rw [alone]
  simp only [countP_part p, List.count_pos_iff]
  split
  · rw [List.map_singleton, countP_part p]
  · rfl

/-- Every row is counted in one group. -/
theorem groupCounts_sum : ((groupCounts part rows).map Prod.snd).sum = rows.length := by
  rw [groupCounts, List.map_map, ← List.length_map part, ← List.sum_map_count_dedup_eq_length]
  congr 1
  exact List.map_congr_left fun p _ => countP_part p

end Groups

section Ordered

variable [LinearOrder Key] {key : Row → Key} {rows : List Row} {row : Row}

/-- Where the keys increase, the latest row is the last one. -/
theorem Latest.getLast? (latest : Latest key rows row)
    (increasing : rows.Pairwise fun first second => key first < key second) :
    rows.getLast? = some row := by
  rcases List.eq_nil_or_concat rows with empty | ⟨before, last, whole⟩
  · rw [empty] at latest
    cases latest.mem
  · subst whole
    rw [List.concat_eq_append] at *
    rw [List.getLast?_append_of_ne_nil _ (List.cons_ne_nil _ _), List.getLast?_singleton]
    rcases List.mem_append.mp latest.mem with early | same
    · have later := (List.pairwise_append.mp increasing).2.2 row early last
        (List.mem_singleton_self last)
      have largest := latest.largest last (List.mem_append_right _ (List.mem_singleton_self last))
      exact absurd later (not_lt.mpr largest)
    · rw [List.mem_singleton.mp same]

/-- Where the keys increase, a server puts the last row first. -/
theorem Server.head_eq_getLast? (server : Server key)
    (increasing : rows.Pairwise fun first second => key first < key second) :
    (server.orderDesc rows).head? = rows.getLast? := by
  cases first : (server.orderDesc rows).head? with
  | none =>
      have empty := List.head?_eq_none_iff.mp first
      have perm := server.orderDesc_perm rows
      rw [empty] at perm
      rw [List.nil_perm.mp perm]
      rfl
  | some row => exact ((server.head_latest first).getLast? increasing).symm

end Ordered

end WebChunk.Sql
