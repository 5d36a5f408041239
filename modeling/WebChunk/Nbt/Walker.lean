import WebChunk.Nbt.Format
import WebChunk.Semantics.Loop

/-!
# The walker

`WalkNBT` goes over a document in one loop with a stack of its own and calls back at every
tag. The callbacks only look at what they are handed. The innermost node of the stack stands
first. Besides the calls the walker here logs the tags whose callback is nil, so that
what it has read does not depend on the callbacks.
-/

namespace WebChunk.Nbt

open WebChunk.Go WebChunk.Semantics

inductive SentinelError where
  | ErrUnknownTag
  | ErrUnexpectedEndTag
  | ErrNegativeSize
  | ErrOutOfBounds
  deriving DecidableEq

/-- An error of the walker: a `ConextedError`, or one of the errors above as it is. -/
inductive WalkError where
  | conexted (E : SentinelError) (ReadingStage : String) (Offset : Nat)
  | bare (E : SentinelError)
  deriving DecidableEq

inductive WalkPanic where
  | outOfRange
  | nilCallback
  deriving DecidableEq

/-- How the walk ends. -/
inductive Stop where
  | returned (err : Option WalkError)
  | panicked (panic : WalkPanic)
  deriving DecidableEq

/-- An error is returned. -/
abbrev Stop.err (E : SentinelError) (stage : String) (offset : Nat) : Stop :=
  .returned (some (.conexted E stage offset))

/-- A node of the stack; a compound has neither a size nor elements to read. -/
structure NBTnode where
  T : UInt8
  N : List UInt8
  S : Nat := 0
  toRead : Nat := 0
  deriving DecidableEq

/-- Which callbacks are set. -/
structure WalkerCallbacks where
  CbEnd : Bool := true
  CbByte : Bool := true
  CbShort : Bool := true
  CbInt : Bool := true
  CbLong : Bool := true
  CbFloat : Bool := true
  CbDouble : Bool := true
  CbByteArray : Bool := true
  CbString : Bool := true
  CbList : Bool := true
  CbCompound : Bool := true
  CbIntArray : Bool := true
  CbLongArray : Bool := true

/-- The callback for a value is set. -/
def WalkerCallbacks.has (cb : WalkerCallbacks) : Value → Bool
  | .leaf (.byte _) => cb.CbByte
  | .leaf (.short _) => cb.CbShort
  | .leaf (.int _) => cb.CbInt
  | .leaf (.long _) => cb.CbLong
  | .leaf (.float _) => cb.CbFloat
  | .leaf (.double _) => cb.CbDouble
  | .leaf (.byteArray _) => cb.CbByteArray
  | .leaf (.string _) => cb.CbString
  | .list _ _ => cb.CbList
  | .compound => cb.CbCompound
  | .leaf (.intArray _) => cb.CbIntArray
  | .leaf (.longArray _) => cb.CbLongArray

/-- The callback for a value is compared with nil before it is called. -/
def Value.guarded : Value → Bool
  | .leaf (.byte _) | .leaf (.short _) | .leaf (.int _) | .leaf (.long _) | .leaf (.float _)
  | .leaf (.double _) => true
  | _ => false

/-- A tag that was read, with the path its callback gets; it was called if it is set. -/
structure Visit where
  path : List NBTnode
  event : Event
  called : Bool
  deriving DecidableEq

/-- The variables of `WalkNBT` with what it has visited, and how it has ended. -/
structure Walker where
  i : Nat := 0
  p : List NBTnode := []
  visits : List Visit := []
  stop : Option Stop := none
  deriving DecidableEq

/-! ### Payloads

A reader returns a value with the offset behind it. -/

/-- `UintN(data[i:])`, `N` being eight times the width. -/
def readUint (data : Slice) (i width : Nat) : Except Stop Nat :=
  match (data.sliceFrom i).bind (bigEndianUint width) with
  | none => .error (.panicked .outOfRange)
  | some n => .ok n

/-- The payload of a `TagByte`. -/
def readByte (data : Slice) (i : Nat) : Except Stop (Value × Nat) :=
  if i ≥ data.len then .error (.err .ErrOutOfBounds "payload absent" i)
  else match data.index i with
    | none => .error (.panicked .outOfRange)
    | some val => .ok (.leaf (.byte val), i + 1)

/-- The payloads of the wider numbers. -/
def readNumber (data : Slice) (i width : Nat) (make : Nat → Leaf) : Except Stop (Value × Nat) :=
  if i + width ≥ data.len then .error (.err .ErrOutOfBounds "payload absent" i)
  else do
    let val ← readUint data i width
    return (.leaf (make val), i + width)

/-- The payloads of byte arrays and strings. -/
def readBytes (data : Slice) (i width : Nat) (sizeAbsent tooBig : String)
    (make : List UInt8 → Leaf) : Except Stop (Value × Nat) :=
  if i + width ≥ data.len then .error (.err .ErrOutOfBounds sizeAbsent i)
  else do
    let s ← readUint data i width
    if i + width + s ≥ data.len then .error (.err .ErrOutOfBounds tooBig i)
    else match data.slice (i + width) (i + width + s) with
      | none => .error (.panicked .outOfRange)
      | some val => return (.leaf (make val), i + width + s)

/-- The loop over the elements of an array, which stand one after the other. -/
def readUints (data : Slice) (width : Nat) : Nat → Nat → Except Stop (List Nat)
  | _, 0 => .ok []
  | i, s + 1 => do
      let n ← readUint data i width
      let arr ← readUints data width (i + width) s
      return n :: arr

/-- The payloads of arrays of wider numbers; `s` is an `int32`. -/
def readArray (data : Slice) (i width : Nat) (make : List Nat → Leaf) :
    Except Stop (Value × Nat) :=
  if i + 4 ≥ data.len then .error (.err .ErrOutOfBounds "array length absent" i)
  else do
    let s ← readUint data i 4
    if s ≥ 2 ^ 31 then .error (.returned (some (.bare .ErrNegativeSize)))
    else if i + 4 + s * width ≥ data.len then
      .error (.err .ErrOutOfBounds "array too big" (i + 4))
    else do
      let arr ← readUints data width (i + 4) s
      return (.leaf (make arr), i + 4 + s * width)

/-- The header of a list. -/
def readList (data : Slice) (i : Nat) : Except Stop (Value × Nat) :=
  if i + 4 + 1 ≥ data.len then .error (.err .ErrOutOfBounds "length absent" i)
  else match data.index i with
    | none => .error (.panicked .outOfRange)
    | some lt =>
        if lt > 12 then .error (.err .ErrUnknownTag "list type is weird" i)
        else do
          let ls ← readUint data (i + 1) 4
          return (.list lt ls, i + 4 + 1)

/-- The switch over the tag, up to the callbacks. -/
def readPayload (data : Slice) (t : UInt8) (i : Nat) : Except Stop (Value × Nat) :=
  if t = TagByte then readByte data i
  else if t = TagShort then readNumber data i 2 fun n => .short (.ofNat n)
  else if t = TagInt then readNumber data i 4 fun n => .int (.ofNat n)
  else if t = TagLong then readNumber data i 8 fun n => .long (.ofNat n)
  else if t = TagFloat then readNumber data i 4 fun n => .float (.ofNat n)
  else if t = TagDouble then readNumber data i 8 fun n => .double (.ofNat n)
  else if t = TagByteArray then
    readBytes data i 4 "payload length absent" "array size too big" .byteArray
  else if t = TagString then readBytes data i 2 "sting size absent" "string size too big" .string
  else if t = TagList then readList data i
  else if t = TagCompound then .ok (.compound, i)
  else if t = TagIntArray then readArray data i 4 fun arr => .intArray (arr.map .ofNat)
  else if t = TagLongArray then readArray data i 8 fun arr => .longArray (arr.map .ofNat)
  else .error (.returned (some (.bare .ErrUnknownTag)))

/-- The name of a tag, from the offset behind the tag. -/
def readName (data : Slice) (i : Nat) : Except Stop (List UInt8 × Nat) :=
  match (data.slice i (i + 2)).bind (bigEndianUint 2) with
  | none => .error (.panicked .outOfRange)
  | some ns =>
      if i + 2 + ns ≥ data.len then
        .error (.err .ErrOutOfBounds
          ("name too big (" ++ toString (i + 2 + ns) ++ " >= " ++ toString data.len ++ ")") i)
      else match data.slice (i + 2) (i + 2 + ns) with
        | none => .error (.panicked .outOfRange)
        | some n => .ok (n, i + 2 + ns)

/-! ### The loop -/

/-- The head of the loop: the innermost list has one element less to read, and there is no
stack to go on with if it has none. -/
def loopHead : List NBTnode → Option (List NBTnode)
  | [] => some []
  | top :: rest =>
      if top.T = TagList then
        if top.toRead = 0 then none else some ({ top with toRead := top.toRead - 1 } :: rest)
      else some (top :: rest)

/-- The stack after a callback. -/
def push (n : List UInt8) (p : List NBTnode) : Value → List NBTnode
  | .leaf _ => p
  | .list _ ls => { T := TagList, N := n, S := ls, toRead := ls } :: p
  | .compound => { T := TagCompound, N := n } :: p

namespace Walker

def halt (w : Walker) (stop : Stop) : Walker := { w with stop := some stop }

/-- A `TagEnd`, from the offset behind it. -/
def walkEnd (cb : WalkerCallbacks) (w : Walker) : Walker :=
  match w.p with
  | [] => w.halt (.err .ErrUnexpectedEndTag "end at the root" w.i)
  | top :: rest =>
      if top.T ≠ TagCompound then
        w.halt (.err .ErrUnexpectedEndTag "TagEnd that has no compound" w.i)
      else
        let w := { w with p := rest, visits := w.visits ++ [⟨w.p, .tagEnd, cb.CbEnd⟩] }
        if rest = [] then w.halt (.returned none) else w

/-- The callback of a value; calling nil panics. -/
def callback (cb : WalkerCallbacks) (w : Walker) (n : List UInt8) (value : Value) : Walker :=
  if cb.has value = false ∧ value.guarded = false then w.halt (.panicked .nilCallback)
  else
    { w with
      p := push n w.p value
      visits := w.visits ++ [⟨w.p, .tag n value, cb.has value⟩] }

/-- A tag with a name, from the offset behind it. -/
def walkNamed (data : Slice) (cb : WalkerCallbacks) (t : UInt8) (w : Walker) : Walker :=
  match readName data w.i with
  | .error stop => w.halt stop
  | .ok (n, i) =>
      match readPayload data t i with
      | .error stop => { w with i := i }.halt stop
      | .ok (value, i) => callback cb { w with i := i } n value

/-- One iteration. -/
def iteration (data : Slice) (cb : WalkerCallbacks) (w : Walker) : Walker :=
  match loopHead w.p with
  | none => if w.p.tail = [] then w.halt (.returned none) else { w with p := w.p.tail }
  | some p =>
      match data.index w.i with
      | none => w.halt (.panicked .outOfRange)
      | some t =>
          if t = TagEnd then walkEnd cb { w with p := p, i := w.i + 1 }
          else walkNamed data cb t { w with p := p, i := w.i + 1 }

/-- The loop is not over. -/
def running (data : Slice) (w : Walker) : Prop := w.stop = none ∧ w.i < data.len

instance (data : Slice) (w : Walker) : Decidable (w.running data) :=
  inferInstanceAs (Decidable (_ ∧ _))

/-- How the walk ends; the loop that runs out of bytes is followed by a `return nil`. -/
def result (w : Walker) : Stop := w.stop.getD (.returned none)

end Walker

/-- The loop of `WalkNBT`. -/
def walk (data : Slice) (cb : WalkerCallbacks) : Loop Walker where
  step w := if w.running data then some (w.iteration data cb) else none

/-- `WalkNBT`, with as many iterations as it can need. -/
def WalkNBT (data : Slice) (cb : WalkerCallbacks) : Walker := (walk data cb).run (2 * data.len) {}

end WebChunk.Nbt
