import WebChunk.Nbt.Iteration
import WebChunk.Semantics.Nesting

/-!
# The stack of the walker

Whatever the bytes are, the tags that the walker visits are well bracketed, its stack is
that of the nodes that are open, and it consumes the encodings of the tags one after the
other.
-/

namespace WebChunk.Nbt

open WebChunk.Go WebChunk.Semantics WebChunk.Semantics.Nesting

/-- The node that stands for an open compound or list. -/
def nodeOf : Open (List UInt8) → NBTnode
  | .group n => { T := TagCompound, N := n }
  | .list n size delivered => { T := TagList, N := n, S := size, toRead := size - delivered }

/-- A tag as an item of a bracket sequence. -/
def Event.item : Event → Item (List UInt8)
  | .tag _ (.leaf _) => .atom
  | .tag n (.list _ l) => .list n l
  | .tag n .compound => .group n
  | .tagEnd => .close

/-- A visit as an item with its path. -/
def Visit.entry (v : Visit) : List NBTnode × Item (List UInt8) := (v.path, v.event.item)

/-- The nodes that are open after the visits, if these are well bracketed and every path is
that of the nodes open around its tag. -/
def openNodes (visits : List Visit) : Option (List (Open (List UInt8))) :=
  replay nodeOf (visits.map Visit.entry)

/-- The stack after the value of a tag, before complete lists are dropped. -/
def opened (n : List UInt8) (stack : List (Open (List UInt8))) :
    Value → List (Open (List UInt8))
  | .leaf _ => stack
  | .list _ l => .list n l 0 :: stack
  | .compound => .group n :: stack

theorem push_eq (n : List UInt8) (stack : List (Open (List UInt8))) (value : Value) :
    push n (stack.map nodeOf) value = (opened n stack value).map nodeOf := by
  cases value <;> rfl

theorem step_tag {n : List UInt8} {stack around : List (Open (List UInt8))} (value : Value)
    (taken : child stack = some around) :
    step stack (Event.tag n value).item = some (around, settle (opened n around value)) := by
  cases value <;> simp [Event.item, step, taken, opened, settle]

theorem loopHead_compound (n : List UInt8) (rest : List NBTnode) :
    loopHead ({ T := TagCompound, N := n } :: rest) = some ({ T := TagCompound, N := n } :: rest) :=
  rfl

theorem loopHead_list (n : List UInt8) (size toRead : Nat) (rest : List NBTnode) :
    loopHead (⟨TagList, n, size, toRead⟩ :: rest) =
      if toRead = 0 then none else some (⟨TagList, n, size, toRead - 1⟩ :: rest) := rfl

/-- The head of the loop drops a complete list, or it counts a child. -/
theorem loopHead_map {stack : List (Open (List UInt8))} (within : ∀ o ∈ stack, o.Within) :
    (loopHead (stack.map nodeOf) = none ∧ ∃ n size rest, stack = .list n size size :: rest) ∨
    ∃ around, loopHead (stack.map nodeOf) = some (around.map nodeOf) ∧
      child stack = some around ∧ settle stack = stack ∧ ∀ o ∈ around, o.Within := by
  cases stack with
  | nil => exact .inr ⟨[], rfl, rfl, rfl, within⟩
  | cons o rest =>
      cases o with
      | group n => exact .inr ⟨.group n :: rest, loopHead_compound _ _, rfl, rfl, within⟩
      | list n size delivered =>
          have few : delivered ≤ size := within _ List.mem_cons_self
          rw [List.map_cons, nodeOf, loopHead_list]
          by_cases complete : delivered = size
          · subst complete
            exact .inl ⟨if_pos (Nat.sub_self _), n, delivered, rest, rfl⟩
          · refine .inr ⟨.list n size (delivered + 1) :: rest, ?_, ?_, ?_, ?_⟩
            · rw [if_neg (by omega)]
              rfl
            · rw [child, if_pos (by omega)]
            · rw [settle, if_neg complete]
            · intro o member
              rcases List.mem_cons.mp member with rfl | later
              · change delivered + 1 ≤ size
                omega
              · exact within o (List.mem_cons_of_mem _ later)

theorem within_opened (n : List UInt8) {stack : List (Open (List UInt8))}
    (within : ∀ o ∈ stack, o.Within) (value : Value) : ∀ o ∈ opened n stack value, o.Within := by
  cases value with
  | leaf l => exact within
  | list t l => exact List.forall_mem_cons.mpr ⟨Nat.zero_le l, within⟩
  | compound => exact List.forall_mem_cons.mpr ⟨trivial, within⟩

/-- Only a group stands for a compound. -/
theorem group_of_compound {around : List (Open (List UInt8))} {top : NBTnode}
    {below : List NBTnode} (path : around.map nodeOf = top :: below)
    (compound : top.T = TagCompound) :
    ∃ n others, around = .group n :: others ∧ others.map nodeOf = below := by
  cases around with
  | nil => cases path
  | cons o others =>
      obtain ⟨rfl, rfl⟩ := List.cons.inj path
      cases o with
      | group n => exact ⟨n, others, rfl, rfl⟩
      | list n size delivered => exact absurd compound (by simp only [nodeOf]; decide)

theorem stack_of_child_group {stack others : List (Open (List UInt8))} {n : List UInt8}
    (taken : child stack = some (.group n :: others)) : stack = .group n :: others := by
  unfold child at taken
  split at taken
  · split at taken
    · cases taken
    · cases taken
  · exact Option.some.inj taken

/-- While the walk goes on, and when it returns without an error, the stack is that of the
open nodes, up to complete lists that are still to be dropped. -/
structure Disciplined (w : Walker) (stack : List (Open (List UInt8))) : Prop where
  p : w.p = stack.map nodeOf
  within : ∀ o ∈ stack, o.Within
  replayed : openNodes w.visits = some (settle stack)

/-- What holds of every state of a walk: the visits are well bracketed, and unless the walk
has failed, its stack is theirs and it has consumed the encodings of the tags visited. -/
structure WalkInv (data : Slice) (w : Walker) : Prop where
  bracketed : (openNodes w.visits).isSome
  consumed : encodeEvents w.events <+: data.bytes
  going : w.stop = none →
    (∃ stack, Disciplined w stack) ∧ data.bytes.take w.i = encodeEvents w.events ∧ w.i ≤ data.len
  returned : w.stop = some (.returned none) → openNodes w.visits = some []

variable {data : Slice} {cb : WalkerCallbacks} {w : Walker}

theorem openNodes_concat (visits : List Visit) (v : Visit) :
    openNodes (visits ++ [v]) =
      (openNodes visits).bind fun stack => accept nodeOf stack v.entry := by
  rw [openNodes, List.map_append, List.map_singleton, replay_concat]
  rfl

theorem take_follows {i : Nat} {bytes rest : List UInt8}
    (follows : data.bytes.drop i = bytes ++ rest) (inside : i ≤ data.len) :
    data.bytes.take (i + bytes.length) = data.bytes.take i ++ bytes ∧
      i + bytes.length ≤ data.len := by
  constructor
  · rw [List.take_add, follows, List.take_left]
  · have lengths := congrArg List.length follows
    rw [List.length_drop, List.length_append] at lengths
    unfold Slice.len at inside ⊢
    omega

/-- A further tag that the open nodes take. -/
theorem WalkInv.visit {w next : Walker} {stack : List (Open (List UInt8))}
    (inv : WalkInv data w) (after : List (Open (List UInt8))) (v : Visit)
    (running : w.running data) (disciplined : Disciplined w stack)
    {rest : List UInt8} (follows : data.bytes.drop w.i = v.event.encode ++ rest)
    (admitted : accept nodeOf (settle stack) v.entry = some (settle after))
    (visits : next.visits = w.visits ++ [v]) (i : next.i = w.i + v.event.encode.length)
    (p : next.p = after.map nodeOf) (within : ∀ o ∈ after, o.Within)
    (stop : next.stop = none ∨ after = [] ∧ next.stop = some (.returned none)) :
    WalkInv data next := by
  obtain ⟨_, read, inside⟩ := inv.going running.1
  have replayed : openNodes next.visits = some (settle after) := by
    rw [visits, openNodes_concat, disciplined.replayed, Option.bind_some, admitted]
  have events : encodeEvents next.events = data.bytes.take next.i := by
    rw [i, (take_follows follows inside).1, read, Walker.events, visits, List.map_append,
      encodeEvents_append, List.map_singleton, encodeEvents_singleton]
    rfl
  refine ⟨by rw [replayed]; rfl, ?_,
    fun going => ⟨⟨after, p, within, replayed⟩, events.symm, ?_⟩, ?_⟩
  · rw [events]
    exact List.take_prefix _ _
  · rw [i]
    exact (take_follows follows inside).2
  · intro ended
    rcases stop with going | ⟨rfl, -⟩
    · cases ended.symm.trans going
    · exact replayed

/-- Every iteration keeps the discipline. -/
theorem WalkInv.step {next : Walker} (inv : WalkInv data w)
    (step : (walk data cb).step w = some next) : WalkInv data next := by
  have running := (of_step step).1
  obtain ⟨⟨stack, disciplined⟩, read, inside⟩ := inv.going running.1
  have head := loopHead_map disciplined.within
  rw [← disciplined.p] at head
  cases iterates_of_step step with
  | rootListDone done root =>
      obtain ⟨-, n, size, rest, rfl⟩ | ⟨around, same, -⟩ := head
      · rw [disciplined.p, List.map_cons, List.tail_cons, List.map_eq_nil_iff] at root
        subst root
        refine ⟨inv.bracketed, inv.consumed, by simp [Walker.halt], fun _ => ?_⟩
        exact disciplined.replayed.trans (by simp [settle])
      · cases done.symm.trans same
  | listDone done inner =>
      obtain ⟨-, n, size, rest, rfl⟩ | ⟨around, same, -⟩ := head
      · refine ⟨inv.bracketed, inv.consumed, fun _ => ⟨⟨rest, ?_, ?_, ?_⟩, read, inside⟩, ?_⟩
        · rw [disciplined.p]
          rfl
        · exact fun o member => disciplined.within o (List.mem_cons_of_mem _ member)
        · exact disciplined.replayed.trans (by simp [settle])
        · intro ended
          cases running.1.symm.trans ended
      · cases done.symm.trans same
  | failed | panicked =>
      exact ⟨inv.bracketed, inv.consumed, by simp [Walker.halt], by simp [Walker.halt]⟩
  | @closed top below rest counted compound follows =>
      obtain ⟨done, -⟩ | ⟨around, same, taken, settled, within⟩ := head
      · cases done.symm.trans counted
      · have path := Option.some.inj (same.symm.trans counted)
        obtain ⟨n, others, rfl, rfl⟩ := group_of_compound path compound
        have unchanged := stack_of_child_group taken
        refine inv.visit others ⟨(Open.group n :: others).map nodeOf, .tagEnd, cb.CbEnd⟩ running
          disciplined follows ?_ ?_ rfl rfl ?_ ?_
        · rw [settled, unchanged]
          exact accept_of_step rfl
        · rw [path]
        · exact fun o member => within o (List.mem_cons_of_mem _ member)
        · cases others with
          | nil => exact .inr ⟨rfl, rfl⟩
          | cons o rest => exact .inl running.1
  | @visited p n rest value counted small follows behind =>
      obtain ⟨done, -⟩ | ⟨around, same, taken, settled, within⟩ := head
      · cases done.symm.trans counted
      · obtain rfl := Option.some.inj (same.symm.trans counted)
        refine inv.visit (opened n around value) ⟨around.map nodeOf, .tag n value, cb.has value⟩
          running disciplined follows ?_ rfl rfl (push_eq n around value)
          (within_opened n within value) (.inl running.1)
        rw [settled]
        exact accept_of_step (step_tag value taken)

theorem walkInv_start (data : Slice) : WalkInv data {} where
  bracketed := rfl
  consumed := List.nil_prefix
  going _ := ⟨⟨[], rfl, by simp, rfl⟩, by simp [Walker.events], Nat.zero_le _⟩
  returned := by simp

theorem walkInv_of_reaches {n : Nat} (reaches : (walk data cb).Reaches {} n w) :
    WalkInv data w :=
  reaches.invariant (WalkInv data) (fun inv step => inv.step step) (walkInv_start data)

/-- The read offset never decreases. -/
theorem i_le_of_step {next : Walker} (step : (walk data cb).step w = some next) :
    w.i ≤ next.i := by
  cases iterates_of_step step with
  | rootListDone | listDone => exact Nat.le_refl _
  | failed i err counted later => exact later
  | panicked i panic counted later notSafe => exact later
  | closed => exact Nat.le_succ _
  | visited => exact Nat.le_add_right _ _

/-- With all callbacks set, every tag that is visited is reported. -/
theorem called_of_reaches {n : Nat} (reaches : (walk data {}).Reaches {} n w) :
    ∀ v ∈ w.visits, v.called = true := by
  refine reaches.invariant (fun w => ∀ v ∈ w.visits, v.called = true) ?_ (by simp)
  intro w next called step
  cases iterates_of_step step with
  | rootListDone | listDone | failed | panicked => exact called
  | closed =>
      intro v member
      rcases List.mem_append.mp member with before | last
      · exact called v before
      · rw [List.mem_singleton.mp last]
  | @visited p n rest value =>
      intro v member
      rcases List.mem_append.mp member with before | last
      · exact called v before
      · rw [List.mem_singleton.mp last]
        cases value with
        | leaf l => cases l <;> rfl
        | list t l => rfl
        | compound => rfl

/-- After any number of iterations on any bytes: the callbacks are well bracketed, each with
the path of the nodes that are open around it, and no list has more children than announced;
they were handed values whose encodings stand one behind the other from the beginning of the
slice; the next iteration does not go back; and there were at most two for each byte. -/
theorem callbacksWellBracketed (data : Slice) (n : Nat) (w : Walker)
    (reaches : (walk data {}).Reaches {} n w) :
    (∃ stack, openNodes w.visits = some stack) ∧ (∀ v ∈ w.visits, v.called = true) ∧
      encodeEvents w.events <+: data.bytes ∧
      (∀ next, (walk data {}).step w = some next → w.i ≤ next.i) ∧ n ≤ 2 * data.len := by
  have inv := walkInv_of_reaches reaches
  exact ⟨Option.isSome_iff_exists.mp inv.bracketed, called_of_reaches reaches, inv.consumed,
    fun next step => i_le_of_step step, reaches_le reaches⟩

/-- An empty list in a compound, up to the end of the compound. -/
theorem callbacksWellBracketed_emptyList :
    ∃ w, (walk ⟨[10, 0, 0, 9, 0, 0, 1, 0, 0, 0, 0, 0], []⟩ {}).Reaches {} 4 w ∧
      (∃ stack, openNodes w.visits = some stack) ∧ ∀ v ∈ w.visits, v.called = true := by
  have reaches : (walk ⟨[10, 0, 0, 9, 0, 0, 1, 0, 0, 0, 0, 0], []⟩ {}).Reaches {} 4 _ :=
    .next (.next (.next (.next .refl rfl) rfl) rfl) rfl
  have disciplined := callbacksWellBracketed _ 4 _ reaches
  exact ⟨_, reaches, disciplined.1, disciplined.2.1⟩

end WebChunk.Nbt
