import WebChunk.Nbt.Reading

/-!
# One iteration of the walker

What an iteration can do, whatever the bytes are, and what it does at the encoding of a tag.
-/

namespace WebChunk.Nbt

open WebChunk.Go WebChunk.Semantics

variable {data : Slice} {cb : WalkerCallbacks} {w : Walker}

/-- The tags that were visited. -/
def Walker.events (w : Walker) : List Event := w.visits.map Visit.event

/-- The iteration does not panic: behind a tag with a name there are two bytes within the
capacity, and a callback that is called without a test is set. -/
def Safe (data : Slice) (cb : WalkerCallbacks) (w : Walker) : Prop :=
  ∀ p t, loopHead w.p = some p → data.index w.i = some t → t ≠ TagEnd →
    w.i + 1 + 2 ≤ data.cap ∧
    ∀ n i value next, readName data (w.i + 1) = .ok (n, i) →
      readPayload data t i = .ok (value, next) → cb.has value = true ∨ value.guarded = true

/-- The state that an iteration leaves. -/
inductive Iterates (data : Slice) (cb : WalkerCallbacks) (w : Walker) : Walker → Prop where
  | rootListDone (done : loopHead w.p = none) (root : w.p.tail = []) :
      Iterates data cb w (w.halt (.returned none))
  | listDone (done : loopHead w.p = none) (inner : w.p.tail ≠ []) :
      Iterates data cb w { w with p := w.p.tail }
  | failed {p : List NBTnode} (i : Nat) (err : WalkError) (head : loopHead w.p = some p)
      (later : w.i ≤ i) : Iterates data cb w ({ w with p := p, i := i }.halt (.returned (some err)))
  | panicked {p : List NBTnode} (i : Nat) (panic : WalkPanic) (head : loopHead w.p = some p)
      (later : w.i ≤ i) (notSafe : ¬ Safe data cb w) :
      Iterates data cb w ({ w with p := p, i := i }.halt (.panicked panic))
  | closed {top : NBTnode} {below : List NBTnode} {rest : List UInt8}
      (head : loopHead w.p = some (top :: below)) (compound : top.T = TagCompound)
      (follows : data.bytes.drop w.i = Event.tagEnd.encode ++ rest) :
      Iterates data cb w
        { w with
          i := w.i + 1
          p := below
          visits := w.visits ++ [⟨top :: below, .tagEnd, cb.CbEnd⟩]
          stop := if below = [] then some (.returned none) else w.stop }
  | visited {p : List NBTnode} {n rest : List UInt8} {value : Value}
      (head : loopHead w.p = some p)
      (named : n.length < 2 ^ 16)
      (follows : data.bytes.drop w.i = (Event.tag n value).encode ++ rest)
      (behind : rest = [] → value.tag = TagByte) :
      Iterates data cb w
        { w with
          i := w.i + (Event.tag n value).encode.length
          p := push n p value
          visits := w.visits ++ [⟨p, .tag n value, cb.has value⟩] }

theorem iterates_walkEnd {p : List NBTnode} (head : loopHead w.p = some p)
    (there : data.index w.i = some TagEnd) :
    Iterates data cb w (Walker.walkEnd cb { w with p := p, i := w.i + 1 }) := by
  unfold Walker.walkEnd
  dsimp only
  split
  · exact .failed _ _ head (Nat.le_succ _)
  · rename_i top below
    split
    · exact .failed _ _ head (Nat.le_succ _)
    · rename_i compound
      have closed : Iterates data cb w _ :=
        .closed head (not_not.mp compound) (drop_eq_of_index there)
      split
      · rename_i last
        subst last
        exact closed
      · rename_i inner
        rwa [if_neg inner] at closed

theorem iterates_walkNamed {p : List NBTnode} {t : UInt8} (head : loopHead w.p = some p)
    (there : data.index w.i = some t) (named : t ≠ TagEnd) :
    Iterates data cb w (Walker.walkNamed data cb t { w with p := p, i := w.i + 1 }) := by
  have start := drop_eq_of_index there
  have nameReading := readName_reading data (w.i + 1)
  unfold Walker.walkNamed
  dsimp only
  generalize nameRead : readName data (w.i + 1) = name at nameReading
  cases nameReading with
  | outOfRange short =>
      refine .panicked _ _ head (Nat.le_succ _) fun safe => ?_
      have enough := (safe p t head there named).1
      omega
  | absent _ err => exact .failed _ _ head (Nat.le_succ _)
  | @found _ n rest small follows more =>
      dsimp only
      have behindName := follows_append follows
      rw [length_encodeBytes, ← Nat.add_assoc] at behindName
      have inside := lt_of_follows follows more
      rw [length_encodeBytes] at inside
      have payloadReading := readPayload_reading data t (w.i + 1 + 2 + n.length) (by omega)
      generalize payloadRead : readPayload data t (w.i + 1 + 2 + n.length) = payload
        at payloadReading
      cases payloadReading with
      | absent err => exact .failed _ _ head (by omega)
      | @found value after tag payload behind =>
          dsimp only
          unfold Walker.callback
          split
          · rename_i missing
            refine .panicked _ _ head (by omega) fun safe => ?_
            have called := (safe p t head there named).2 n _ value _ nameRead payloadRead
            rw [missing.1, missing.2] at called
            simp at called
          · have written : data.bytes.drop w.i = (Event.tag n value).encode ++ after := by
              rw [start, follows, ← behindName, payload, ← tag]
              simp [Event.encode]
            have visited : Iterates data cb w _ :=
              .visited head small written fun last => tag.trans (behind last)
            rw [length_encode_tag, show w.i + (3 + n.length + value.encode.length) =
              w.i + 1 + 2 + n.length + value.encode.length by omega] at visited
            exact visited

/-- An iteration is one of these. -/
theorem iterates (running : w.running data) : Iterates data cb w (w.iteration data cb) := by
  obtain ⟨t, there⟩ := index_inside data w.i running.2
  unfold Walker.iteration
  cases head : loopHead w.p with
  | none =>
      dsimp only
      split
      · rename_i root
        exact .rootListDone head root
      · rename_i inner
        exact .listDone head inner
  | some p =>
      dsimp only
      rw [there]
      dsimp only
      split
      · rename_i ended
        rw [ended] at there
        exact iterates_walkEnd head there
      · rename_i named
        exact iterates_walkNamed head there named

/-- An iteration at a tag with a name. -/
theorem iteration_named {p : List NBTnode} {t : UInt8} (head : loopHead w.p = some p)
    (there : data.index w.i = some t) (named : t ≠ TagEnd) :
    w.iteration data cb = Walker.walkNamed data cb t { w with p := p, i := w.i + 1 } := by
  rw [Walker.iteration, head]
  dsimp only
  rw [there]
  exact if_neg named

/-- An iteration that is not safe panics. -/
theorem iteration_panics (notSafe : ¬ Safe data cb w) :
    ∃ panic, (w.iteration data cb).stop = some (.panicked panic) := by
  unfold Safe at notSafe
  push Not at notSafe
  obtain ⟨p, t, head, there, named, refused⟩ := notSafe
  rw [iteration_named head there named]
  unfold Walker.walkNamed
  dsimp only
  by_cases enough : w.i + 1 + 2 ≤ data.cap
  · obtain ⟨n, i, value, next, nameRead, payloadRead, missing, unguarded⟩ := refused enough
    rw [nameRead]
    dsimp only
    rw [payloadRead]
    refine ⟨.nilCallback, ?_⟩
    dsimp only
    rw [Walker.callback, if_pos ⟨by simpa using missing, by simpa using unguarded⟩]
    rfl
  · have nameReading := readName_reading data (w.i + 1)
    generalize readName data (w.i + 1) = name at nameReading
    cases nameReading with
    | outOfRange _ => exact ⟨.outOfRange, rfl⟩
    | absent inside _ => exact absurd inside enough
    | found inside _ _ => exact absurd inside enough

/-! ### At the encoding of a tag -/

theorem index_of_drop {i : Nat} {t : UInt8} {rest : List UInt8}
    (follows : data.bytes.drop i = t :: rest) : data.index i = some t := by
  rw [Slice.index, ← List.head?_drop, follows]
  rfl

/-- The end of a compound. -/
theorem iteration_tagEnd {top : NBTnode} {below : List NBTnode} {rest : List UInt8}
    (head : loopHead w.p = some (top :: below)) (compound : top.T = TagCompound)
    (follows : data.bytes.drop w.i = Event.tagEnd.encode ++ rest) :
    w.iteration data cb =
      { w with
        i := w.i + 1
        p := below
        visits := w.visits ++ [⟨top :: below, .tagEnd, cb.CbEnd⟩]
        stop := if below = [] then some (.returned none) else w.stop } := by
  have there : data.index w.i = some TagEnd := index_of_drop follows
  rw [Walker.iteration, head]
  dsimp only
  rw [there]
  dsimp only
  rw [if_pos rfl, Walker.walkEnd]
  dsimp only
  rw [if_neg (not_not_intro compound)]
  split <;> rfl

/-- A tag whose name and value are read, and whose callback is set or may be nil. -/
theorem iteration_of_reads {p : List NBTnode} {n : List UInt8} {value : Value} {i next : Nat}
    (head : loopHead w.p = some p) (there : data.index w.i = some value.tag)
    (name : readName data (w.i + 1) = .ok (n, i))
    (payload : readPayload data value.tag i = .ok (value, next))
    (called : cb.has value = true ∨ value.guarded = true) :
    w.iteration data cb =
      { w with
        i := next
        p := push n p value
        visits := w.visits ++ [⟨p, .tag n value, cb.has value⟩] } := by
  rw [iteration_named head there value.tag_ne_tagEnd, Walker.walkNamed]
  dsimp only
  rw [name]
  dsimp only
  rw [payload]
  dsimp only
  rw [Walker.callback, if_neg]
  rintro ⟨missing, unguarded⟩
  rw [missing, unguarded] at called
  simp at called

/-- A tag that is followed by a further byte. -/
theorem iteration_tag {p : List NBTnode} {n rest : List UInt8} {value : Value}
    (head : loopHead w.p = some p) (more : rest ≠ [])
    (follows : data.bytes.drop w.i = (Event.tag n value).encode ++ rest)
    (named : n.length < 2 ^ 16) (fits : value.fits)
    (called : cb.has value = true ∨ value.guarded = true) :
    w.iteration data cb =
      { w with
        i := w.i + (Event.tag n value).encode.length
        p := push n p value
        visits := w.visits ++ [⟨p, .tag n value, cb.has value⟩] } := by
  have start : data.bytes.drop w.i =
      [value.tag] ++ (encodeBytes 2 n ++ (value.encode ++ rest)) := by
    rw [follows]
    simp [Event.encode]
  have behindTag := follows_append start
  have behindName := follows_append behindTag
  rw [length_encodeBytes, List.length_singleton, ← Nat.add_assoc] at behindName
  rw [iteration_of_reads head (index_of_drop start)
    (readName_of_follows (by simp [more]) behindTag named)
    (readPayload_of_follows more behindName fits) called, length_encode_tag]
  congr 1
  omega

/-! ### The whole walk -/

theorem step_of_running (running : w.running data) :
    (walk data cb).step w = some (w.iteration data cb) := if_pos running

/-- A step of the loop is an iteration of a walk that is not over. -/
theorem of_step {next : Walker} (step : (walk data cb).step w = some next) :
    w.running data ∧ next = w.iteration data cb := by
  change (if w.running data then some (w.iteration data cb) else none) = some next at step
  split at step
  · rename_i running
    exact ⟨running, (Option.some.inj step).symm⟩
  · cases step

theorem iterates_of_step {next : Walker} (step : (walk data cb).step w = some next) :
    Iterates data cb w next := by
  obtain ⟨running, rfl⟩ := of_step step
  exact iterates running

theorem ended_iff : (walk data cb).Ended w ↔ ¬ w.running data := by
  change (if w.running data then some (w.iteration data cb) else none) = none ↔ _
  split
  · rename_i running
    simp [running]
  · rename_i finished
    simp [finished]

theorem length_loopHead {p next : List NBTnode} (head : loopHead p = some next) :
    next.length = p.length := by
  unfold loopHead at head
  split at head
  · cases head
    rfl
  · split at head
    · split at head
      · cases head
      · cases head
        rfl
    · cases head
      rfl

theorem length_push (n : List UInt8) (p : List NBTnode) (value : Value) :
    (push n p value).length ≤ p.length + 1 := by
  cases value <;> simp [push]

/-- An iteration either consumes a byte, or it makes the stack smaller. -/
def remaining (data : Slice) (w : Walker) : Nat :=
  if w.stop = none then 2 * (data.len - w.i) + w.p.length else 0

theorem remaining_le (w : Walker) : remaining data w ≤ 2 * (data.len - w.i) + w.p.length := by
  unfold remaining
  split <;> omega

theorem remaining_lt (w next : Walker) (step : (walk data cb).step w = some next) :
    remaining data next < remaining data w := by
  have running := (of_step step).1
  have inside := running.2
  have before : remaining data w = 2 * (data.len - w.i) + w.p.length := if_pos running.1
  cases iterates_of_step step with
  | rootListDone | failed | panicked =>
      have after : ∀ (u : Walker) (stop : Stop), remaining data (u.halt stop) = 0 :=
        fun u stop => if_neg (by simp [Walker.halt])
      rw [after]
      omega
  | listDone done inner =>
      have stack : w.p.tail.length + 1 = w.p.length := by
        cases stack : w.p with
        | nil => simp [stack] at inner
        | cons top below => rfl
      rw [remaining]
      dsimp only
      rw [if_pos running.1]
      omega
  | closed head compound follows =>
      have length := length_loopHead head
      rw [List.length_cons] at length
      refine Nat.lt_of_le_of_lt (remaining_le _) ?_
      rw [before]
      dsimp only
      omega
  | @visited p n rest value head small follows behind =>
      have length := length_loopHead head
      have pushed := length_push n p value
      have consumed := length_encode_tag n value
      refine Nat.lt_of_le_of_lt (remaining_le _) ?_
      rw [before]
      dsimp only
      omega

/-- `WalkNBT` returns: it has as many iterations as it needs. -/
theorem walkNBT_ended (data : Slice) (cb : WalkerCallbacks) :
    (walk data cb).Ended (WalkNBT data cb) := by
  refine Loop.run_ended remaining_lt ?_
  simp [remaining]

/-- The end of the walk is a state that it reaches. -/
theorem reaches_walkNBT (data : Slice) (cb : WalkerCallbacks) :
    ∃ n, (walk data cb).Reaches {} n (WalkNBT data cb) := by
  obtain ⟨n, _, reaches, _⟩ := Loop.reaches_run (walk data cb) {} (2 * data.len)
  exact ⟨n, reaches⟩

/-- No walk has more than two iterations for each byte. -/
theorem reaches_le {n : Nat} (reaches : (walk data cb).Reaches {} n w) : n ≤ 2 * data.len := by
  have paid := reaches.add_measure_le remaining_lt
  have start : remaining data {} = 2 * data.len := by simp [remaining]
  omega

/-- A walk that ends in a state is the walk of `WalkNBT`. -/
theorem walkNBT_eq {n : Nat} (reaches : (walk data cb).Reaches {} n w)
    (finished : ¬ w.running data) : WalkNBT data cb = w :=
  Loop.run_eq_of_ended reaches (ended_iff.mpr finished) (reaches_le reaches)

/-- An iteration panics only if it is not safe. -/
theorem not_safe_of_step {next : Walker} {panic : WalkPanic}
    (step : (walk data cb).step w = some next) (panicked : next.stop = some (.panicked panic)) :
    ¬ Safe data cb w := by
  have going := (of_step step).1.1
  cases iterates_of_step step with
  | rootListDone | failed => cases panicked
  | listDone => cases going.symm.trans panicked
  | panicked i other head later notSafe => exact notSafe
  | closed =>
      dsimp only at panicked
      split at panicked
      · cases panicked
      · cases going.symm.trans panicked
  | visited => cases going.symm.trans panicked

/-- The walk returns, with nil or an error, exactly when all iterations that it reaches are
safe. -/
theorem walkNBT_returns_iff (data : Slice) (cb : WalkerCallbacks) :
    (∃ err, (WalkNBT data cb).result = .returned err) ↔
      ∀ n w, (walk data cb).Reaches {} n w → w.running data → Safe data cb w := by
  constructor
  · rintro ⟨err, returned⟩ n w reaches running
    by_contra notSafe
    obtain ⟨panic, panicked⟩ := iteration_panics notSafe
    have finished : ¬ (w.iteration data cb).running data := by
      rintro ⟨going, -⟩
      cases going.symm.trans panicked
    rw [walkNBT_eq (reaches.next (step_of_running running)) finished, Walker.result, panicked]
      at returned
    cases returned
  · intro safe
    obtain ⟨n, reaches⟩ := reaches_walkNBT data cb
    generalize WalkNBT data cb = last at reaches
    cases stop : last.stop with
    | none => exact ⟨none, by rw [Walker.result, stop]; rfl⟩
    | some stopped =>
        cases stopped with
        | returned err => exact ⟨err, by rw [Walker.result, stop]; rfl⟩
        | panicked panic =>
            cases reaches with
            | refl => cases stop
            | @next n before _ prior step =>
                exact absurd (safe n before prior (of_step step).1) (not_safe_of_step step stop)

/-- A slice of one byte: its tag has no name, and `data[1:3]` is out of range. -/
theorem one_byte_panics :
    ¬ ∀ (data : Slice) (cb : WalkerCallbacks), ∃ err, (WalkNBT data cb).result = .returned err := by
  intro returns
  obtain ⟨err, returned⟩ := returns ⟨[10], []⟩ {}
  have panics : (WalkNBT ⟨[10], []⟩ {}).result = .panicked .outOfRange := by decide
  cases panics.symm.trans returned

end WebChunk.Nbt
