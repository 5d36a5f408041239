import WebChunk.Go.Bytes

/-!
# The binary format

Tags, the values that follow them, and how both are written. Names and strings are their
bytes, floating-point numbers their bits.
-/

namespace WebChunk.Nbt

open WebChunk.Go

abbrev TagEnd : UInt8 := 0
abbrev TagByte : UInt8 := 1
abbrev TagShort : UInt8 := 2
abbrev TagInt : UInt8 := 3
abbrev TagLong : UInt8 := 4
abbrev TagFloat : UInt8 := 5
abbrev TagDouble : UInt8 := 6
abbrev TagByteArray : UInt8 := 7
abbrev TagString : UInt8 := 8
abbrev TagList : UInt8 := 9
abbrev TagCompound : UInt8 := 10
abbrev TagIntArray : UInt8 := 11
abbrev TagLongArray : UInt8 := 12

/-- A value without further tags in it. -/
inductive Leaf where
  | byte (val : UInt8)
  | short (val : UInt16)
  | int (val : UInt32)
  | long (val : UInt64)
  | float (bits : UInt32)
  | double (bits : UInt64)
  | byteArray (val : List UInt8)
  | string (val : List UInt8)
  | intArray (val : List UInt32)
  | longArray (val : List UInt64)
  deriving DecidableEq

/-- What follows the name of a tag: a whole value, or the header of a list or a compound. -/
inductive Value where
  | leaf (leaf : Leaf)
  | list (t : UInt8) (l : Nat)
  | compound
  deriving DecidableEq

/-- A tag of a document, in the order of its bytes. -/
inductive Event where
  | tag (n : List UInt8) (value : Value)
  | tagEnd
  deriving DecidableEq

def Leaf.tag : Leaf → UInt8
  | .byte _ => TagByte
  | .short _ => TagShort
  | .int _ => TagInt
  | .long _ => TagLong
  | .float _ => TagFloat
  | .double _ => TagDouble
  | .byteArray _ => TagByteArray
  | .string _ => TagString
  | .intArray _ => TagIntArray
  | .longArray _ => TagLongArray

def Value.tag : Value → UInt8
  | .leaf l => l.tag
  | .list _ _ => TagList
  | .compound => TagCompound

/-! ### Writing -/

/-- A number of bytes with their count in front. -/
def encodeBytes (width : Nat) (val : List UInt8) : List UInt8 :=
  bigEndianBytes width val.length ++ val

/-- Numbers of a fixed width with their count in front. -/
def encodeArray (width : Nat) (val : List Nat) : List UInt8 :=
  bigEndianBytes 4 val.length ++ val.flatMap (bigEndianBytes width)

def Leaf.encode : Leaf → List UInt8
  | .byte val => [val]
  | .short val => bigEndianBytes 2 val.toNat
  | .int val => bigEndianBytes 4 val.toNat
  | .long val => bigEndianBytes 8 val.toNat
  | .float bits => bigEndianBytes 4 bits.toNat
  | .double bits => bigEndianBytes 8 bits.toNat
  | .byteArray val => encodeBytes 4 val
  | .string val => encodeBytes 2 val
  | .intArray val => encodeArray 4 (val.map UInt32.toNat)
  | .longArray val => encodeArray 8 (val.map UInt64.toNat)

def Value.encode : Value → List UInt8
  | .leaf l => l.encode
  | .list t l => t :: bigEndianBytes 4 l
  | .compound => []

def Event.encode : Event → List UInt8
  | .tag n value => value.tag :: (encodeBytes 2 n ++ value.encode)
  | .tagEnd => [TagEnd]

/-- The bytes of a sequence of tags. -/
def encodeEvents (events : List Event) : List UInt8 := events.flatMap Event.encode

/-- The length fields, signed where they have four bytes, can hold the lengths. -/
def Leaf.fits : Leaf → Prop
  | .byteArray val => val.length < 2 ^ 31
  | .string val => val.length < 2 ^ 16
  | .intArray val => val.length < 2 ^ 31
  | .longArray val => val.length < 2 ^ 31
  | _ => True

def Value.fits : Value → Prop
  | .leaf l => l.fits
  | .list t l => t ≤ 12 ∧ l < 2 ^ 31
  | .compound => True

@[simp] theorem length_encodeBytes (width : Nat) (val : List UInt8) :
    (encodeBytes width val).length = width + val.length := by
  simp [encodeBytes]

@[simp] theorem length_encodeArray (width : Nat) (val : List Nat) :
    (encodeArray width val).length = 4 + val.length * width := by
  simp [encodeArray, List.length_flatMap, List.map_const']

@[simp] theorem length_encode_tag (n : List UInt8) (value : Value) :
    (Event.tag n value).encode.length = 3 + n.length + value.encode.length := by
  simp [Event.encode]
  omega

@[simp] theorem encodeEvents_nil : encodeEvents [] = [] := rfl

@[simp] theorem encodeEvents_cons (event : Event) (events : List Event) :
    encodeEvents (event :: events) = event.encode ++ encodeEvents events :=
  List.flatMap_cons

@[simp] theorem encodeEvents_append (left right : List Event) :
    encodeEvents (left ++ right) = encodeEvents left ++ encodeEvents right :=
  List.flatMap_append

theorem encodeEvents_singleton (event : Event) : encodeEvents [event] = event.encode := by
  simp

/-- No named tag has the number of an end. -/
theorem Value.tag_ne_tagEnd (value : Value) : value.tag ≠ TagEnd := by
  cases value with
  | leaf l => cases l <;> simp only [Value.tag, Leaf.tag] <;> decide
  | list t l =>
      simp only [Value.tag]
      decide
  | compound =>
      simp only [Value.tag]
      decide

end WebChunk.Nbt
