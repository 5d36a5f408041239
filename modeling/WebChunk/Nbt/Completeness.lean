import WebChunk.Nbt.Discipline

/-!
# When nil means a complete document

The walk returns nil at the end of the root, when the root is a list without further elements,
and when it runs out of bytes. The last is no error, and inside a compound it is one that
is missed.
-/

namespace WebChunk.Nbt

open WebChunk.Go WebChunk.Semantics WebChunk.Semantics.Nesting

/-- Every compound that was entered was closed by its own end, and every list that was entered
delivered the elements that it announced. -/
def Complete (visits : List Visit) : Prop := openNodes visits = some []

/-- All that is left of the slice is the end of a compound that is not the root, or a
`TagByte` with its name and its payload. -/
def TakesLast (data : Slice) (w : Walker) : Prop :=
  ∃ p, loopHead w.p = some p ∧
    ((data.bytes.drop w.i = Event.tagEnd.encode ∧
        ∃ top below, p = top :: below ∧ top.T = TagCompound ∧ below ≠ []) ∨
      ∃ n val, n.length < 2 ^ 16 ∧
        data.bytes.drop w.i = (Event.tag n (.leaf (.byte val))).encode)

variable {data : Slice} {cb : WalkerCallbacks} {w : Walker}

/-! ### The root stays open -/

/-- The outermost node is a compound. -/
def Rooted (p : List NBTnode) : Prop :=
  ∃ front n, p = front ++ [{ T := TagCompound, N := n }]

theorem Rooted.loopHead_some {p next : List NBTnode} (rooted : Rooted p)
    (head : loopHead p = some next) : Rooted next := by
  obtain ⟨front, n, rfl⟩ := rooted
  cases front with
  | nil => exact ⟨[], n, (Option.some.inj head).symm⟩
  | cons top rest =>
      unfold loopHead at head
      simp only [List.cons_append] at head
      split at head
      · split at head
        · cases head
        · exact ⟨_ :: rest, n, (Option.some.inj head).symm⟩
      · exact ⟨top :: rest, n, (Option.some.inj head).symm⟩

theorem Rooted.tail {p : List NBTnode} (rooted : Rooted p) (inner : p.tail ≠ []) :
    Rooted p.tail := by
  obtain ⟨front, n, rfl⟩ := rooted
  cases front with
  | nil => exact absurd rfl inner
  | cons top rest => exact ⟨rest, n, rfl⟩

theorem Rooted.push {p : List NBTnode} (rooted : Rooted p) (n : List UInt8) (value : Value) :
    Rooted (push n p value) := by
  obtain ⟨front, root, rfl⟩ := rooted
  cases value with
  | leaf l => exact ⟨front, root, rfl⟩
  | list t l => exact ⟨_ :: front, root, rfl⟩
  | compound => exact ⟨_ :: front, root, rfl⟩

/-- As long as the walk goes on, a compound that was the first tag is open. -/
theorem rooted_of_reaches (first : data.index 0 = some TagCompound) {n : Nat}
    (reaches : (walk data cb).Reaches {} n w) (going : w.stop = none) : w = {} ∨ Rooted w.p := by
  refine reaches.invariant (fun w => w.stop = none → w = {} ∨ Rooted w.p) ?_
    (fun _ => .inl rfl) going
  intro w next inv step going
  have running := (of_step step).1
  have before := inv running.1
  cases iterates_of_step step with
  | rootListDone | failed | panicked => cases going
  | listDone done inner =>
      rcases before with rfl | rooted
      · cases done
      · exact .inr (rooted.tail inner)
  | @closed top below rest head compound follows =>
      rcases before with rfl | rooted
      · cases head
      · right
        have inner : below ≠ [] := by
          rintro rfl
          cases going
        exact (rooted.loopHead_some head).tail inner
  | @visited p n rest value head small follows behind =>
      right
      rcases before with rfl | rooted
      · obtain rfl := Option.some.inj head
        have tag : value.tag = TagCompound := by
          have there := drop_eq_of_index first
          rw [follows, Event.encode] at there
          exact (List.cons.inj there).1
        cases value with
        | leaf l => cases l <;> exact absurd tag (by simp only [Value.tag, Leaf.tag]; decide)
        | list t l => exact absurd tag (by simp only [Value.tag]; decide)
        | compound => exact ⟨[], n, rfl⟩
      · exact (rooted.loopHead_some head).push n value

/-- Under an open compound something is missing. -/
theorem not_complete (inv : WalkInv data w) (going : w.stop = none) (rooted : Rooted w.p) :
    ¬ Complete w.visits := by
  obtain ⟨⟨stack, disciplined⟩, -⟩ := inv.going going
  obtain ⟨front, n, root⟩ := rooted
  rw [disciplined.p, List.map_eq_append_iff] at root
  obtain ⟨openFront, last, rfl, -, root⟩ := root
  obtain ⟨name, others, rfl, none⟩ := group_of_compound root rfl
  rw [List.map_eq_nil_iff] at none
  subst none
  rw [Complete, disciplined.replayed, Option.some.injEq]
  exact settle_ne_nil openFront name

/-! ### The last byte -/

/-- A walk that takes the last byte in this way runs out of bytes. -/
theorem exhausted_of_takesLast (cb : WalkerCallbacks) (running : w.running data)
    (takes : TakesLast data w) :
    ∃ next, (walk data cb).step w = some next ∧ next.stop = none ∧ ¬ next.running data := by
  refine ⟨_, step_of_running running, ?_⟩
  obtain ⟨p, head, ⟨last, top, below, rfl, compound, inner⟩ | ⟨n, val, named, last⟩⟩ := takes
  · have length := congrArg List.length last
    rw [List.length_drop, Event.encode, List.length_singleton] at length
    rw [iteration_tagEnd head compound (last.trans (List.append_nil _).symm), if_neg inner]
    refine ⟨running.1, fun more => ?_⟩
    have inside := more.2
    unfold Slice.len at inside
    dsimp only at inside
    omega
  · have length := congrArg List.length last
    rw [List.length_drop, length_encode_tag] at length
    have one : (Value.leaf (.byte val)).encode.length = 1 := rfl
    have start : data.bytes.drop w.i = [TagByte] ++ (encodeBytes 2 n ++ [val]) := by
      rw [last]
      rfl
    have behindTag := follows_append start
    have behindName := follows_append behindTag
    rw [length_encodeBytes, List.length_singleton, ← Nat.add_assoc] at behindName
    have name := readName_of_follows (by simp) behindTag named
    have payload : readPayload data TagByte (w.i + 1 + 2 + n.length) =
        .ok (.leaf (.byte val), w.i + 1 + 2 + n.length + 1) := by
      change readByte data _ = _
      rw [readByte, if_neg, index_of_drop behindName]
      unfold Slice.len
      omega
    have there : data.index w.i = some (Value.leaf (.byte val)).tag := index_of_drop start
    rw [iteration_of_reads head there name payload (.inr rfl)]
    refine ⟨running.1, fun more => ?_⟩
    have inside := more.2
    unfold Slice.len at inside
    dsimp only at inside
    omega

theorem byte_of_tag {value : Value} (tag : value.tag = TagByte) :
    ∃ val, value = .leaf (.byte val) := by
  cases value with
  | leaf l =>
      cases l with
      | byte val => exact ⟨val, rfl⟩
      | _ => exact absurd tag (by simp only [Value.tag, Leaf.tag]; decide)
  | list t l => exact absurd tag (by simp only [Value.tag]; decide)
  | compound => exact absurd tag (by simp only [Value.tag]; decide)

/-- A walk that runs out of bytes has taken the last of them in this way. -/
theorem takesLast_of_exhausted {next : Walker}
    (step : (walk data cb).step w = some next) (going : next.stop = none)
    (finished : ¬ next.running data) : TakesLast data w := by
  have running := (of_step step).1
  have inside := running.2
  have outside : data.len ≤ next.i := by
    by_contra more
    exact finished ⟨going, Nat.lt_of_not_le more⟩
  unfold Slice.len at inside outside
  cases iterates_of_step step with
  | rootListDone | failed | panicked => cases going
  | listDone done inner => exact absurd inside (Nat.not_lt.mpr outside)
  | @closed top below rest head compound follows =>
      have length := congrArg List.length follows
      rw [List.length_drop, List.length_append, Event.encode, List.length_singleton] at length
      dsimp only at outside
      have none : rest = [] := List.eq_nil_of_length_eq_zero (by omega)
      subst none
      refine ⟨_, head, .inl ⟨follows.trans (List.append_nil _), top, below, rfl, compound, ?_⟩⟩
      rintro rfl
      cases going
  | @visited p n rest value head small follows behind =>
      have length := congrArg List.length follows
      rw [List.length_drop, List.length_append] at length
      dsimp only at outside
      have none : rest = [] := List.eq_nil_of_length_eq_zero (by omega)
      have tag := behind none
      subst none
      obtain ⟨val, rfl⟩ := byte_of_tag tag
      exact ⟨p, head, .inr ⟨n, val, small, follows.trans (List.append_nil _)⟩⟩

/-- A walk over a compound that returns nil has read a complete document exactly when no
iteration takes the last byte of the slice as the end of an inner compound or as the payload
of a `TagByte`. -/
theorem nilMeansComplete_iff (data : Slice) (cb : WalkerCallbacks)
    (first : data.index 0 = some TagCompound) :
    ((WalkNBT data cb).result = .returned none → Complete (WalkNBT data cb).visits) ↔
      ∀ n w, (walk data cb).Reaches {} n w → w.running data → ¬ TakesLast data w := by
  have starts : ({} : Walker).running data := ⟨rfl, (List.getElem?_eq_some_iff.mp first).1⟩
  constructor
  · intro complete n w reaches running takes
    obtain ⟨next, step, going, finished⟩ := exhausted_of_takesLast cb running takes
    have last := reaches.next step
    rw [walkNBT_eq last finished] at complete
    have closed := complete (by rw [Walker.result, going]; rfl)
    refine not_complete (walkInv_of_reaches last) going ?_ closed
    rcases rooted_of_reaches first last going with rfl | rooted
    · exact absurd starts finished
    · exact rooted
  · intro never returnedNil
    obtain ⟨n, reaches⟩ := reaches_walkNBT data cb
    have inv := walkInv_of_reaches reaches
    cases stop : (WalkNBT data cb).stop with
    | some stopped =>
        rw [Walker.result, stop] at returnedNil
        exact inv.returned (stop.trans (congrArg some returnedNil))
    | none =>
        have finished := ended_iff.mp (walkNBT_ended data cb)
        generalize WalkNBT data cb = last at reaches stop finished
        cases reaches with
        | refl => exact absurd starts finished
        | @next n before _ prior step =>
            exact absurd (takesLast_of_exhausted step stop finished)
              (never n before prior (of_step step).1)

/-- A document with an inner compound, cut off before the end of the root. -/
theorem nilMeansComplete_iff_cut :
    ((WalkNBT ⟨[10, 0, 0, 10, 0, 0, 0], []⟩ {}).result = .returned none →
        Complete (WalkNBT ⟨[10, 0, 0, 10, 0, 0, 0], []⟩ {}).visits) ↔
      ∀ n w, (walk ⟨[10, 0, 0, 10, 0, 0, 0], []⟩ {}).Reaches {} n w →
        w.running ⟨[10, 0, 0, 10, 0, 0, 0], []⟩ → ¬ TakesLast ⟨[10, 0, 0, 10, 0, 0, 0], []⟩ w :=
  nilMeansComplete_iff _ _ rfl

/-- The same document: the walk returns nil, and the root is still open. -/
theorem cut_document_accepted :
    ¬ ∀ (data : Slice) (cb : WalkerCallbacks), data.index 0 = some TagCompound →
      (WalkNBT data cb).result = .returned none → Complete (WalkNBT data cb).visits := by
  intro complete
  have closed := complete ⟨[10, 0, 0, 10, 0, 0, 0], []⟩ {} rfl (by decide)
  have root : openNodes (WalkNBT ⟨[10, 0, 0, 10, 0, 0, 0], []⟩ {}).visits = some [.group []] := by
    decide
  exact absurd (closed.symm.trans root) (by simp)

end WebChunk.Nbt
