import Mathlib.Data.List.Sort

/-!
# Sorting

`sort.Slice` sorts by a comparison and need not be stable. It sees the elements only through the
comparison, so slices that compare alike are sorted alike.
-/

namespace WebChunk.Go

/-- A strict weak order, as `sort.Slice` requires of its comparison. -/
structure StrictWeak {α : Type} (less : α → α → Bool) : Prop where
  asymm : ∀ a b, less a b = true → less b a = false
  trans : ∀ a b c, less b a = false → less c b = false → less c a = false

/-- `sort.Slice`. -/
structure SliceSort where
  sort : {α : Type} → (α → α → Bool) → List α → List α
  perm : ∀ {α : Type} (less : α → α → Bool) (l : List α), (sort less l).Perm l
  sorted : ∀ {α : Type} {less : α → α → Bool}, StrictWeak less → ∀ l : List α,
    (sort less l).Pairwise fun a b => less b a = false
  natural : ∀ {α β : Type} {less : α → α → Bool} {less' : β → β → Bool} (f : α → β),
    (∀ a b, less' (f a) (f b) = less a b) → ∀ l : List α,
      sort less' (l.map f) = (sort less l).map f

/-- The insertion sort that is used for short slices. -/
def SliceSort.insertion : SliceSort where
  sort less l := l.insertionSort fun a b => less b a = false
  perm less l := List.perm_insertionSort _ l
  sorted {α less} weak l := by
    let r : α → α → Prop := fun a b => less b a = false
    have total : Std.Total r := ⟨fun a b => by
      cases second : less b a with
      | false => exact .inl second
      | true => exact .inr (weak.asymm b a second)⟩
    have trans_ : IsTrans α r := ⟨fun a b c => weak.trans a b c⟩
    exact List.pairwise_insertionSort r l
  natural {α β less less'} f same l := by
    induction l with
    | nil => rfl
    | cons a l inductionHypothesis =>
        rw [List.map_cons, List.insertionSort_cons, inductionHypothesis, List.insertionSort_cons]
        generalize l.insertionSort (fun a b => less b a = false) = sorted
        induction sorted with
        | nil => rfl
        | cons b rest inductionHypothesis =>
            simp only [List.map_cons, List.orderedInsert_cons, same]
            split
            · rfl
            · rw [List.map_cons, inductionHypothesis]

end WebChunk.Go
