import Mathlib.Tactic.Common

/-!
# Counted brackets

Sequences of items with two kinds of brackets: a group is closed by an explicit end, and a
list announces its number of elements and is closed by the last of them. A stack holds
the nodes that are open, the innermost first; `accept` takes one more item, or refuses it.
-/

namespace WebChunk.Semantics

universe u v

/-- A node that is open. -/
inductive Open (Name : Type u) where
  | group (name : Name)
  | list (name : Name) (size delivered : Nat)
  deriving DecidableEq

/-- What may come next: something without parts, the start of a node, or the end of a group. -/
inductive Item (Name : Type u) where
  | atom
  | group (name : Name)
  | list (name : Name) (size : Nat)
  | close

/-- The elements delivered are at most those announced. -/
def Open.Within {Name : Type u} : Open Name → Prop
  | .group _ => True
  | .list _ size delivered => delivered ≤ size

namespace Nesting

variable {Name : Type u} {Node : Type v}

/-- A list with all its elements is complete, and so are then the lists that it completes. -/
def settle : List (Open Name) → List (Open Name)
  | .list name size delivered :: rest =>
      if delivered = size then settle rest else .list name size delivered :: rest
  | stack => stack

/-- A further direct child of the innermost node; a complete list has none. -/
def child : List (Open Name) → Option (List (Open Name))
  | .list name size delivered :: rest =>
      if delivered < size then some (.list name size (delivered + 1) :: rest) else none
  | stack => some stack

/-- The open nodes around an item, and those after it. -/
def step (stack : List (Open Name)) : Item Name → Option (List (Open Name) × List (Open Name))
  | .atom => (child stack).map fun around => (around, settle around)
  | .group name => (child stack).map fun around => (around, .group name :: around)
  | .list name size =>
      (child stack).map fun around => (around, settle (.list name size 0 :: around))
  | .close =>
      match stack with
      | .group name :: rest => some (.group name :: rest, settle rest)
      | _ => none

variable (node : Open Name → Node) [DecidableEq Node]

/-- One more item, if the path that it comes with is that of the open nodes around it. -/
def accept (stack : List (Open Name)) (entry : List Node × Item Name) :
    Option (List (Open Name)) :=
  (step stack entry.2).bind fun (around, next) =>
    if around.map node = entry.1 then some next else none

/-- The nodes that are open after a sequence of items with their paths, if it is well
bracketed. -/
def replay (entries : List (List Node × Item Name)) : Option (List (Open Name)) :=
  entries.foldlM (accept node) []

@[simp] theorem replay_nil : replay node [] = some [] := rfl

theorem replay_concat (entries : List (List Node × Item Name)) (entry : List Node × Item Name) :
    replay node (entries ++ [entry]) = (replay node entries).bind fun stack =>
      accept node stack entry := by
  simp [replay, List.foldlM_append]

variable {node}

/-- An item that the stack takes with its path. -/
theorem accept_of_step {stack around next : List (Open Name)} {item : Item Name}
    (taken : step stack item = some (around, next)) :
    accept node stack (around.map node, item) = some next := by
  rw [accept, taken, Option.bind_some]
  exact if_pos rfl

/-- Under a group nothing settles. -/
theorem settle_ne_nil (front : List (Open Name)) (name : Name) :
    settle (front ++ [.group name]) ≠ [] := by
  induction front with
  | nil => simp [settle]
  | cons o rest inductionHypothesis =>
      cases o with
      | group _ => simp [settle]
      | list _ size delivered =>
          rw [List.cons_append, settle]
          split
          · exact inductionHypothesis
          · simp

end Nesting

end WebChunk.Semantics
