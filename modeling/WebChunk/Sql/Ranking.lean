import Mathlib.Data.List.Sort

/-!
# Ordered rows and ranks

What a query answers that takes the first row of an order, largest key first, and the rank of a
row in its partition. Rows with equal keys may come in any order and have equal ranks.
-/

namespace WebChunk.Sql

universe u v w

variable {Row : Type u} {Key : Type v} {Part : Type w} [LinearOrder Key]

/-- How a server arranges the rows of an answer: as it likes, or by a key in descending order. -/
structure Server (key : Row → Key) where
  send : List Row → List Row
  send_perm : ∀ rows, (send rows).Perm rows
  orderDesc : List Row → List Row
  orderDesc_perm : ∀ rows, (orderDesc rows).Perm rows
  orderDesc_sorted : ∀ rows, (orderDesc rows).Pairwise fun first second => key second ≤ key first

/-- A row with the largest key. -/
structure Latest (key : Row → Key) (rows : List Row) (row : Row) : Prop where
  mem : row ∈ rows
  largest : ∀ other ∈ rows, key other ≤ key row

/-- `rank() over (partition by .. order by key desc)`. -/
def rank [DecidableEq Part] (key : Row → Key) (part : Row → Part) (rows : List Row)
    (row : Row) : Nat :=
  rows.countP (fun other => part other = part row ∧ key row < key other) + 1

variable {key : Row → Key} {part : Row → Part} {rows : List Row} {row : Row}

/-- The rows of rank one are the latest of their partition. -/
theorem rank_eq_one_iff [DecidableEq Part] (member : row ∈ rows) :
    rank key part rows row = 1 ↔ Latest key (rows.filter (part · = part row)) row := by
  have none_ : rank key part rows row = 1 ↔
      ∀ other ∈ rows, part other = part row → key other ≤ key row := by
    rw [rank, Nat.add_eq_right, List.countP_eq_zero]
    simp
  rw [none_]
  constructor
  · intro largest
    refine ⟨List.mem_filter.mpr ⟨member, by simp⟩, fun other inside => ?_⟩
    obtain ⟨here, same⟩ := List.mem_filter.mp inside
    exact largest other here (by simpa using same)
  · rintro ⟨-, largest⟩ other here same
    exact largest other (List.mem_filter.mpr ⟨here, by simpa using same⟩)

/-- The first row of the order is a latest one. -/
theorem Server.head_latest (server : Server key)
    (first : (server.orderDesc rows).head? = some row) : Latest key rows row := by
  obtain ⟨rest, ordered⟩ := List.head?_eq_some_iff.mp first
  have sorted := server.orderDesc_sorted rows
  rw [ordered, List.pairwise_cons] at sorted
  have perm := server.orderDesc_perm rows
  rw [ordered] at perm
  refine ⟨perm.subset List.mem_cons_self, fun other member => ?_⟩
  rcases List.mem_cons.mp (perm.symm.subset member) with rfl | later
  · exact le_rfl
  · exact sorted.1 other later

/-- There is a first row when there are rows. -/
theorem Server.head_isSome (server : Server key) (member : row ∈ rows) :
    ∃ first, (server.orderDesc rows).head? = some first := by
  have inside := (server.orderDesc_perm rows).symm.subset member
  cases ordered : server.orderDesc rows with
  | nil =>
      rw [ordered] at inside
      cases inside
  | cons first rest => exact ⟨first, rfl⟩

/-- Descending order by insertion. -/
def sortDesc (key : Row → Key) (rows : List Row) : List Row :=
  rows.insertionSort fun first second => key second ≤ key first

theorem sortDesc_sorted (key : Row → Key) (rows : List Row) :
    (sortDesc key rows).Pairwise fun first second => key second ≤ key first := by
  have total : Std.Total fun first second : Row => key second ≤ key first :=
    ⟨fun first second => le_total (key second) (key first)⟩
  have transitive : IsTrans Row fun first second => key second ≤ key first :=
    ⟨fun _ _ _ later earlier => le_trans earlier later⟩
  exact List.pairwise_insertionSort _ rows

/-- A server that sends rows as they are stored and sorts by insertion. -/
def Server.insertion (key : Row → Key) : Server key where
  send rows := rows
  send_perm _ := List.Perm.refl _
  orderDesc := sortDesc key
  orderDesc_perm rows := List.perm_insertionSort _ rows
  orderDesc_sorted := sortDesc_sorted key

/-- Some server puts a given latest row first. -/
theorem Server.exists_head (latest : Latest key rows row) :
    ∃ server : Server key, (server.orderDesc rows).head? = some row := by
  classical
  refine ⟨{ Server.insertion key with
    orderDesc := fun rows =>
      if Latest key rows row then row :: sortDesc key (rows.erase row) else sortDesc key rows
    orderDesc_perm := fun rows => ?_
    orderDesc_sorted := fun rows => ?_ }, ?_⟩
  · split
    · rename_i here
      exact ((List.perm_insertionSort _ _).cons row).trans (List.perm_cons_erase here.mem).symm
    · exact List.perm_insertionSort _ rows
  · split
    · rename_i here
      refine List.pairwise_cons.mpr ⟨fun other member => ?_, sortDesc_sorted key _⟩
      exact here.largest other (List.mem_of_mem_erase ((List.mem_insertionSort _).mp member))
    · exact sortDesc_sorted key rows
  · exact congrArg List.head? (if_pos latest)

end WebChunk.Sql
