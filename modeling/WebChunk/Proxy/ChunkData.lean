import WebChunk.Semantics.Loop

/-!
# The sections of a chunk packet

A chunk packet holds its sections one behind the other, and does not say how many there are.
`deserializeChunkPacket` reads one after the other until fewer than 200 bytes are left. The
reader of one section, `level.Section.ReadFrom`, is a parameter.
-/

namespace WebChunk.Proxy

open WebChunk.Semantics

/-- An error of `ReadFrom`, as `errors.Is` tells it apart. -/
inductive ReadError where
  | EOF
  | ErrUnexpectedEOF
  | other (text : String)
  deriving DecidableEq

/-- The data ended. -/
def ReadError.ended : ReadError → Bool
  | .EOF | .ErrUnexpectedEOF => true
  | .other _ => false

/-- A call of `ss.ReadFrom(d)`: what it returns, what is in `ss` afterwards, and what is left to
be read from `d`. -/
structure Reading (S : Type) where
  n : Nat
  err : Option ReadError
  ss : S
  rest : List UInt8

/-- What is assumed of `level.Section.ReadFrom` and of the encoding that it reads: it decodes one
section from the front, reports the bytes that it has consumed, and fails on anything else. An
encoding has at least eight bytes. -/
structure ReadsSections {S : Type} (encode : S → List UInt8) (ReadFrom : List UInt8 → Reading S) :
    Prop where
  decodes : ∀ s rest, ReadFrom (encode s ++ rest) = ⟨(encode s).length, none, s, rest⟩
  reports : ∀ d, (ReadFrom d).rest = d.drop (ReadFrom d).n ∧ (ReadFrom d).n ≤ d.length
  fails : ∀ d, (ReadFrom d).err = none → d = encode (ReadFrom d).ss ++ (ReadFrom d).rest
  short : ∀ s, 8 ≤ (encode s).length

/-- The variables of the section loop. Every section in `cc.Sections` is kept with the call that
has read it. -/
structure SectionLoop (S : Type) where
  d : List UInt8
  dl : Int
  readings : List (Reading S)

variable {S : Type}

/-- The loop before its first iteration. -/
def SectionLoop.initial (sectionsData : List UInt8) : SectionLoop S where
  d := sectionsData
  dl := sectionsData.length
  readings := []

/-- One iteration; none is one of the three breaks. -/
def sectionStep (ReadFrom : List UInt8 → Reading S) (s : SectionLoop S) : Option (SectionLoop S) :=
  if s.dl = 0 then none
  else if s.dl < 200 then none
  else
    let r := ReadFrom s.d
    if r.err.any ReadError.ended then none
    else if r.n = 0 then some { s with d := r.rest }
    else some { d := r.rest, dl := s.dl - r.n, readings := s.readings ++ [r] }

/-- The section loop. -/
def sectionLoop (ReadFrom : List UInt8 → Reading S) : Loop (SectionLoop S) := ⟨sectionStep ReadFrom⟩

/-- The parts of a chunk packet, as `p.Scan` reads them. -/
structure ScannedChunk (Pos BlockEntity : Type) where
  cpos : Pos
  MotionBlocking : List UInt64
  WorldSurface : List UInt64
  sectionsData : List UInt8
  blockEntity : List BlockEntity

/-- `level.Chunk`; a height map is the data of its bit storage. -/
structure LevelChunk (S BlockEntity : Type) where
  Sections : List S
  MotionBlocking : Option (List UInt64)
  WorldSurface : Option (List UInt64)
  blockEntity : List BlockEntity

/-- A height map of another length is left out. -/
def heightMap (data : List UInt64) : Option (List UInt64) :=
  if data.length = 37 then some data else none

/-- `deserializeChunkPacket` returns this for a packet that could be scanned. The sections of
the chunk are what these calls of `ReadFrom` have read. -/
def Deserializes {Pos BlockEntity : Type} (ReadFrom : List UInt8 → Reading S)
    (p : ScannedChunk Pos BlockEntity) (cpos : Pos) (cc : LevelChunk S BlockEntity)
    (readings : List (Reading S)) : Prop :=
  ∃ k final, (sectionLoop ReadFrom).Reaches (.initial p.sectionsData) k final ∧
    (sectionLoop ReadFrom).Ended final ∧ final.readings = readings ∧ cpos = p.cpos ∧
    cc = ⟨readings.map Reading.ss, heightMap p.MotionBlocking, heightMap p.WorldSurface,
      p.blockEntity⟩

end WebChunk.Proxy
