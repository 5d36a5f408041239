import WebChunk.Nbt.Discipline

/-!
# Documents

Trees of the format with their standard encoding and the callbacks they should cause: the
members of a compound have tags and names of their own, the elements of a list have neither.
The walker reports documents without lists as they are. It reads the elements of a list as
if they were members.
-/

namespace WebChunk.Nbt

open WebChunk.Go WebChunk.Semantics

mutual

/-- What a named tag or a list element consists of. -/
inductive Payload where
  | leaf (l : Leaf)
  | list (t : UInt8) (elements : Elements)
  | compound (members : Members)

inductive Elements where
  | nil
  | cons (element : Payload) (rest : Elements)

inductive Members where
  | nil
  | cons (n : List UInt8) (member : Payload) (rest : Members)

end

def Elements.length : Elements → Nat
  | .nil => 0
  | .cons _ rest => rest.length + 1

/-- What the callback of the payload's tag gets. -/
def Payload.value : Payload → Value
  | .leaf l => .leaf l
  | .list t elements => .list t elements.length
  | .compound _ => .compound

mutual

/-- The bytes behind the value. -/
def Payload.body : Payload → List UInt8
  | .leaf _ => []
  | .list _ elements => elements.encode
  | .compound members => members.encode ++ Event.tagEnd.encode

def Elements.encode : Elements → List UInt8
  | .nil => []
  | .cons element rest => element.value.encode ++ (element.body ++ rest.encode)

def Members.encode : Members → List UInt8
  | .nil => []
  | .cons n member rest => (Event.tag n member.value).encode ++ (member.body ++ rest.encode)

end

mutual

/-- The length fields can hold the lengths, and the elements of a list are of its type. -/
def Payload.fits : Payload → Prop
  | .leaf l => l.fits
  | .list t elements => t ≤ 12 ∧ elements.length < 2 ^ 31 ∧ elements.fits t
  | .compound members => members.fits

def Elements.fits (t : UInt8) : Elements → Prop
  | .nil => True
  | .cons element rest => element.value.tag = t ∧ element.fits ∧ rest.fits t

def Members.fits : Members → Prop
  | .nil => True
  | .cons n member rest => n.length < 2 ^ 16 ∧ member.fits ∧ rest.fits

end

mutual

/-- There is no list inside. -/
def Payload.listFree : Payload → Prop
  | .leaf _ => True
  | .list _ _ => False
  | .compound members => members.listFree

def Members.listFree : Members → Prop
  | .nil => True
  | .cons _ member rest => member.listFree ∧ rest.listFree

end

mutual

/-- The callbacks of a payload without lists in pre-order, under its name and the compounds
around it. -/
def Payload.visits (n : List UInt8) (path : List NBTnode) : Payload → List Visit
  | .leaf l => [⟨path, .tag n (.leaf l), true⟩]
  | .list t elements => [⟨path, .tag n (.list t elements.length), true⟩]
  | .compound members =>
      ⟨path, .tag n .compound, true⟩ ::
        (members.visits ({ T := TagCompound, N := n } :: path) ++
          [⟨{ T := TagCompound, N := n } :: path, .tagEnd, true⟩])

def Members.visits (path : List NBTnode) : Members → List Visit
  | .nil => []
  | .cons n member rest => member.visits n path ++ rest.visits path

end

/-- A named compound as a document. -/
def encodeDocument (n : List UInt8) (members : Members) : List UInt8 :=
  (Event.tag n .compound).encode ++ (members.encode ++ Event.tagEnd.encode)

/-! ### Documents without lists -/

theorem Payload.value_fits {payload : Payload} (fits : payload.fits) : payload.value.fits := by
  cases payload with
  | leaf l => rwa [Payload.fits] at fits
  | list t elements =>
      rw [Payload.fits] at fits
      exact ⟨fits.1, fits.2.1⟩
  | compound members => trivial

theorem has_all (value : Value) : ({} : WalkerCallbacks).has value = true := by
  cases value with
  | leaf l => cases l <;> rfl
  | list t l => rfl
  | compound => rfl

variable {data : Slice}

/-- The walk goes on in a compound. -/
def Inside (w : Walker) : Prop :=
  w.stop = none ∧ ∃ n below, w.p = { T := TagCompound, N := n } :: below

theorem Inside.head {w : Walker} (inside : Inside w) : loopHead w.p = some w.p := by
  obtain ⟨-, n, below, p⟩ := inside
  rw [p]
  exact loopHead_compound n below

/-- The iteration at the tag of a payload. -/
theorem reaches_tag {w : Walker} {p : List NBTnode} {n rest : List UInt8} {value : Value}
    (going : w.stop = none) (head : loopHead w.p = some p) (more : rest ≠ [])
    (follows : data.bytes.drop w.i = (Event.tag n value).encode ++ rest)
    (named : n.length < 2 ^ 16) (fits : value.fits) :
    (walk data {}).Reaches w 1
      { w with
        i := w.i + (Event.tag n value).encode.length
        p := push n p value
        visits := w.visits ++ [⟨p, .tag n value, true⟩] } := by
  have inside := lt_of_follows follows more
  refine .one ((step_of_running ⟨going, by omega⟩).trans ?_)
  rw [iteration_tag head more follows named fits (.inl (has_all value)), has_all]

/-- The iteration at the end of a compound. -/
theorem reaches_tagEnd {w : Walker} {n rest : List UInt8} {below : List NBTnode}
    (going : w.stop = none) (p : w.p = { T := TagCompound, N := n } :: below)
    (follows : data.bytes.drop w.i = Event.tagEnd.encode ++ rest) :
    (walk data {}).Reaches w 1
      { w with
        i := w.i + 1
        p := below
        visits := w.visits ++ [⟨{ T := TagCompound, N := n } :: below, .tagEnd, true⟩]
        stop := if below = [] then some (.returned none) else none } := by
  have lengths := congrArg List.length follows
  rw [List.length_drop, List.length_append, Event.encode, List.length_singleton] at lengths
  have head : loopHead w.p = some ({ T := TagCompound, N := n } :: below) := by
    rw [p]
    exact loopHead_compound n below
  refine .one ((step_of_running ⟨going, ?_⟩).trans ?_)
  · unfold Slice.len
    omega
  · rw [iteration_tagEnd head rfl follows, going]

/-- The iteration that drops a list without further elements. -/
theorem reaches_drop {w : Walker} {n : List UInt8} {size : Nat} {below : List NBTnode}
    (going : w.stop = none) (further : w.i < data.len) (p : w.p = ⟨TagList, n, size, 0⟩ :: below)
    (inner : below ≠ []) : (walk data {}).Reaches w 1 { w with p := below } := by
  refine .one ((step_of_running ⟨going, further⟩).trans ?_)
  rw [Walker.iteration, p, loopHead_list, if_pos rfl]
  dsimp only
  rw [List.tail_cons, if_neg inner]

/-- The walker behind some bytes, with further visits. -/
def Walker.past (w : Walker) (bytes : List UInt8) (visits : List Visit) : Walker :=
  { w with i := w.i + bytes.length, visits := w.visits ++ visits }

theorem Inside.past {w : Walker} (inside : Inside w) (bytes : List UInt8) (visits : List Visit) :
    Inside (w.past bytes visits) := inside

/-- The walker behind the tag of a compound. -/
def Walker.enter (w : Walker) (n : List UInt8) : Walker :=
  { w with
    i := w.i + (Event.tag n .compound).encode.length
    p := { T := TagCompound, N := n } :: w.p
    visits := w.visits ++ [⟨w.p, .tag n .compound, true⟩] }

theorem past_past (w : Walker) (first second : List UInt8) (before after : List Visit) :
    (w.past first before).past second after = w.past (first ++ second) (before ++ after) := by
  simp [Walker.past, Nat.add_assoc]

mutual

/-- Inside a compound the walker reports a member without lists as it is. -/
theorem Payload.reaches {w : Walker} (inside : Inside w) (payload : Payload) (n : List UInt8)
    (named : n.length < 2 ^ 16) (fits : payload.fits) (free : payload.listFree)
    {rest : List UInt8} (more : rest ≠ [])
    (follows : data.bytes.drop w.i = (Event.tag n payload.value).encode ++ (payload.body ++ rest)) :
    ∃ k, (walk data {}).Reaches w k
      (w.past ((Event.tag n payload.value).encode ++ payload.body) (payload.visits n w.p)) := by
  have first := reaches_tag inside.1 inside.head (by simp [more]) follows named
    (Payload.value_fits fits)
  match payload with
  | .leaf l =>
      refine ⟨1, ?_⟩
      simpa [Walker.past, Payload.value, Payload.body, Payload.visits, push] using first
  | .list t elements => rw [Payload.listFree] at free; exact free.elim
  | .compound members =>
      rw [Payload.fits] at fits
      rw [Payload.listFree] at free
      have behind := follows_append follows
      rw [Payload.body, List.append_assoc] at behind
      obtain ⟨k, middle⟩ := Members.reaches (w := w.enter n) ⟨inside.1, n, w.p, rfl⟩ members fits
        free (by simp [Event.encode]) behind
      have last := reaches_tagEnd
        (w := (w.enter n).past members.encode (members.visits (w.enter n).p)) inside.1 rfl
        (follows_append (i := (w.enter n).i) behind)
      refine ⟨1 + k + 1, ?_⟩
      convert (first.trans middle).trans last using 1
      obtain ⟨going, name, below, p⟩ := inside
      simp [Walker.past, Walker.enter, Payload.value, Payload.visits, Payload.body, Event.encode, p,
        going, Nat.add_assoc]
      omega

/-- And so it does with all members of a compound. -/
theorem Members.reaches {w : Walker} (inside : Inside w) (members : Members) (fits : members.fits)
    (free : members.listFree) {rest : List UInt8} (more : rest ≠ [])
    (follows : data.bytes.drop w.i = members.encode ++ rest) :
    ∃ k, (walk data {}).Reaches w k (w.past members.encode (members.visits w.p)) := by
  match members with
  | .nil => exact ⟨0, by simpa [Walker.past, Members.encode, Members.visits] using .refl⟩
  | .cons n member others =>
      rw [Members.fits] at fits
      rw [Members.listFree] at free
      rw [Members.encode] at follows
      simp only [List.append_assoc] at follows
      obtain ⟨k, first⟩ := Payload.reaches inside member n fits.1 fits.2.1 free.1
        (by simp [more]) follows
      rw [← List.append_assoc] at follows
      obtain ⟨l, later⟩ := Members.reaches (inside.past _ _) others fits.2.2 free.2 more
        (follows_append follows)
      refine ⟨k + l, ?_⟩
      have whole := first.trans later
      rw [past_past] at whole
      rwa [Members.encode, Members.visits, ← List.append_assoc]

end

/-- A document without lists, whatever follows it: the walk returns nil, it has reported
exactly what the document has, in pre-order, and it has stopped behind the end of the root. -/
theorem walkNBT_document (n : List UInt8) (members : Members) (named : n.length < 2 ^ 16)
    (fits : members.fits) (free : members.listFree) (after spare : List UInt8) :
    WalkNBT ⟨encodeDocument n members ++ after, spare⟩ {} =
      { i := (encodeDocument n members).length
        p := []
        visits := (Payload.compound members).visits n []
        stop := some (.returned none) } := by
  generalize whole : (⟨encodeDocument n members ++ after, spare⟩ : Slice) = data
  have follows : data.bytes.drop ({} : Walker).i =
      (Event.tag n .compound).encode ++ (members.encode ++ (Event.tagEnd.encode ++ after)) := by
    rw [← whole]
    simp [encodeDocument]
  have fitsRoot : Value.compound.fits := trivial
  have first := reaches_tag rfl rfl (by simp [Event.encode]) follows named fitsRoot
  have behind := follows_append follows
  obtain ⟨k, middle⟩ := Members.reaches (w := Walker.enter {} n) ⟨rfl, n, [], rfl⟩ members fits free
    (by simp [Event.encode]) behind
  have last := reaches_tagEnd
    (w := (Walker.enter {} n).past members.encode (members.visits (Walker.enter {} n).p)) rfl rfl
    (follows_append (i := (Walker.enter {} n).i) behind)
  rw [walkNBT_eq ((first.trans middle).trans last) (by simp [Walker.running])]
  simp [Walker.past, Walker.enter, Payload.visits, encodeDocument, Event.encode]
  omega

/-- A byte and a string in an inner compound, with two bytes behind the document. -/
theorem walkNBT_document_nested :
    WalkNBT ⟨encodeDocument [82] (.cons [65] (.compound (.cons [66] (.leaf (.byte 7))
        (.cons [] (.leaf (.string [72, 105])) .nil))) .nil) ++ [1, 2], []⟩ {} =
      { i := (encodeDocument [82] (.cons [65] (.compound (.cons [66] (.leaf (.byte 7))
          (.cons [] (.leaf (.string [72, 105])) .nil))) .nil)).length
        p := []
        visits := (Payload.compound (.cons [65] (.compound (.cons [66] (.leaf (.byte 7))
          (.cons [] (.leaf (.string [72, 105])) .nil))) .nil)).visits [82] []
        stop := some (.returned none) } := by
  refine walkNBT_document _ _ (by decide) ?_ ?_ _ _
  · simp [Members.fits, Payload.fits, Leaf.fits]
  · simp [Members.listFree, Payload.listFree]

/-! ### Lists -/

mutual

/-- The tags report a payload under a name. -/
def Payload.reportedAs (n : List UInt8) : Payload → List Event → Prop
  | .leaf l, events => events = [.tag n (.leaf l)]
  | .list t elements, events =>
      ∃ inner, events = .tag n (.list t elements.length) :: inner ∧ elements.reportedAs inner
  | .compound members, events =>
      ∃ inner, events = .tag n .compound :: (inner ++ [.tagEnd]) ∧ members.reportedAs inner

/-- They report elements one by one, under whatever names. -/
def Elements.reportedAs : Elements → List Event → Prop
  | .nil, events => events = []
  | .cons element rest, events =>
      ∃ n first later, events = first ++ later ∧ element.reportedAs n first ∧ rest.reportedAs later

def Members.reportedAs : Members → List Event → Prop
  | .nil, events => events = []
  | .cons n member rest, events =>
      ∃ first later, events = first ++ later ∧ member.reportedAs n first ∧ rest.reportedAs later

end

/-- From a list in a compound on, the walker reports the list and then its elements, and gets to
the tag behind it with the stack that it had in front of it. -/
def DeliversList (data : Slice) (w : Walker) (n : List UInt8) (t : UInt8)
    (elements : Elements) : Prop :=
  ∃ k next events, (walk data {}).Reaches w k next ∧ next.stop = none ∧ next.p = w.p ∧
    next.i = w.i + ((Event.tag n (.list t elements.length)).encode ++ elements.encode).length ∧
    next.events = w.events ++ .tag n (.list t elements.length) :: events ∧
    elements.reportedAs events

mutual

/-- Reporting a payload takes its bytes and those of a tag with its name. -/
theorem Payload.length_reported {n : List UInt8} {events : List Event} (payload : Payload)
    (reported : payload.reportedAs n events) :
    3 + n.length + (payload.value.encode ++ payload.body).length ≤
      (encodeEvents events).length := by
  match payload with
  | .leaf l =>
      rw [Payload.reportedAs] at reported
      subst reported
      simp only [encodeEvents_singleton, length_encode_tag, Payload.body, List.append_nil,
        Payload.value, Nat.le_refl]
  | .list t elements =>
      rw [Payload.reportedAs] at reported
      obtain ⟨inner, rfl, delivered⟩ := reported
      have enough := Elements.length_reported elements delivered
      simp only [encodeEvents_cons, List.length_append, length_encode_tag, Payload.body,
        Payload.value]
      omega
  | .compound members =>
      rw [Payload.reportedAs] at reported
      obtain ⟨inner, rfl, delivered⟩ := reported
      have enough := Members.length_reported members delivered
      simp only [encodeEvents_cons, encodeEvents_append, encodeEvents_nil, List.append_nil,
        List.length_append, length_encode_tag, Payload.body, Payload.value]
      omega

/-- Every element takes at least three bytes more than it has in the list. -/
theorem Elements.length_reported {events : List Event} (elements : Elements)
    (reported : elements.reportedAs events) :
    elements.encode.length + 3 * elements.length ≤ (encodeEvents events).length := by
  match elements with
  | .nil => exact Nat.zero_le _
  | .cons element rest =>
      rw [Elements.reportedAs] at reported
      obtain ⟨n, first, later, rfl, reportedFirst, reportedLater⟩ := reported
      have one := Payload.length_reported element reportedFirst
      have others := Elements.length_reported rest reportedLater
      rw [encodeEvents_append, List.length_append]
      rw [List.length_append] at one
      rw [Elements.encode, Elements.length, List.length_append, List.length_append]
      omega

theorem Members.length_reported {events : List Event} (members : Members)
    (reported : members.reportedAs events) :
    members.encode.length ≤ (encodeEvents events).length := by
  match members with
  | .nil => exact Nat.zero_le _
  | .cons n member rest =>
      rw [Members.reportedAs] at reported
      obtain ⟨first, later, rfl, reportedFirst, reportedLater⟩ := reported
      have one := Payload.length_reported member reportedFirst
      have others := Members.length_reported rest reportedLater
      rw [encodeEvents_append, List.length_append]
      rw [List.length_append] at one
      rw [Members.encode, List.length_append, List.length_append, length_encode_tag]
      omega

end

/-- How far a walk that goes on has come. -/
theorem i_eq_of_reaches {cb : WalkerCallbacks} {k : Nat} {w : Walker}
    (reaches : (walk data cb).Reaches {} k w) (going : w.stop = none) :
    w.i = (encodeEvents w.events).length := by
  obtain ⟨-, consumed, inside⟩ := (walkInv_of_reaches reaches).going going
  unfold Slice.len at inside
  rw [← consumed, List.length_take]
  omega

/-- Only a list without elements leaves the bytes for it. -/
theorem DeliversList.length_eq_zero {k : Nat} {w : Walker} {n : List UInt8} {t : UInt8}
    {elements : Elements} (reached : (walk data {}).Reaches {} k w) (going : w.stop = none)
    (delivers : DeliversList data w n t elements) : elements.length = 0 := by
  obtain ⟨l, next, events, reaches, nextGoing, -, i, reported, delivered⟩ := delivers
  have start := i_eq_of_reaches reached going
  have finish := i_eq_of_reaches (reached.trans reaches) nextGoing
  have enough := Elements.length_reported elements delivered
  rw [reported, encodeEvents_append, encodeEvents_cons, List.length_append,
    List.length_append] at finish
  rw [List.length_append] at i
  omega

/-- A list in a compound is delivered, and the walk continues behind it, exactly when the list
has no elements. -/
theorem listDelivered_iff (data : Slice) (k : Nat) (w : Walker)
    (reached : (walk data {}).Reaches {} k w) (inside : Inside w) (n : List UInt8) (t : UInt8)
    (elements : Elements) (named : n.length < 2 ^ 16) (fits : (Payload.list t elements).fits)
    (rest : List UInt8) (more : rest ≠ [])
    (follows : data.bytes.drop w.i =
      (Event.tag n (.list t elements.length)).encode ++ (elements.encode ++ rest)) :
    DeliversList data w n t elements ↔ elements = .nil := by
  constructor
  · intro delivers
    have none := delivers.length_eq_zero reached inside.1
    cases elements with
    | nil => rfl
    | cons element others => cases none
  · rintro rfl
    have first := reaches_tag inside.1 inside.head more follows named (Payload.value_fits fits)
    obtain ⟨going, name, below, p⟩ := inside
    have further := lt_of_follows follows more
    have second := first.trans (reaches_drop going further rfl (by simp [p]))
    refine ⟨2, _, [], second, going, rfl, ?_, ?_, rfl⟩
    · simp [Elements.length, Elements.encode]
    · simp [Walker.events, Elements.length]

/-- An empty list in front of the end of the root. -/
theorem listDelivered_iff_empty :
    DeliversList ⟨[10, 0, 0, 9, 0, 0, 1, 0, 0, 0, 0, 0], []⟩
        { i := 3, p := [{ T := TagCompound, N := [] }], visits := [⟨[], .tag [] .compound, true⟩] }
        [] 1 .nil ↔ Elements.nil = .nil :=
  listDelivered_iff _ 1 _ (.one (by decide)) ⟨rfl, [], [], rfl⟩ [] 1 .nil (by decide)
    (by simp [Payload.fits, Elements.fits, Elements.length]) [0] (by simp) (by decide)

/-- A list with one byte: the byte is taken for a tag, and the walk ends with an error. -/
theorem list_not_delivered :
    ¬ ∀ (data : Slice) (k : Nat) (w : Walker), (walk data {}).Reaches {} k w → Inside w →
      ∀ (n : List UInt8) (t : UInt8) (elements : Elements), n.length < 2 ^ 16 →
      (Payload.list t elements).fits → ∀ rest, rest ≠ [] →
      data.bytes.drop w.i =
        (Event.tag n (.list t elements.length)).encode ++ (elements.encode ++ rest) →
      DeliversList data w n t elements := by
  intro all
  have delivers := all ⟨[10, 0, 0, 9, 0, 0, 1, 0, 0, 0, 1, 0, 0], []⟩ 1
    { i := 3, p := [{ T := TagCompound, N := [] }], visits := [⟨[], .tag [] .compound, true⟩] }
    (.one (by decide)) ⟨rfl, [], [], rfl⟩ [] 1 (.cons (.leaf (.byte 0)) .nil) (by decide)
    (by simp [Payload.fits, Elements.fits, Elements.length, Payload.value, Value.tag, Leaf.tag,
      Leaf.fits])
    [0] (by simp) (by decide)
  have none := delivers.length_eq_zero (.one (by decide)) rfl
  cases none

end WebChunk.Nbt
