import Mathlib.Data.Finset.Card
import WebChunk.Go.Int
import WebChunk.Go.Map

/-!
# The packet processor of the proxy

`packetAcceptor` follows the packets that a player's server sends and passes the chunks on to
`SaveChannel`, labelled with the world and its height. A packet is given as `p.Scan` reads it,
with none where it fails, and as far as the processor looks at it. The processor keeps the
name of the current world and, apart from it, the dimension types of the registries that it
has seen; its cache of incomplete chunks is never filled.
-/

namespace WebChunk.Proxy

open WebChunk.Go

/-- `level.ChunkPos`. -/
structure ChunkPos where
  x : Int
  z : Int
  deriving DecidableEq

/-- `pk.Position`. -/
structure Position where
  X : Int
  Y : Int
  Z : Int
  deriving DecidableEq

/-- `nbt.RawMessage`. -/
structure RawMessage where
  type : Nat
  data : List UInt8
  deriving DecidableEq

/-- `level.BlockEntity`. -/
structure BlockEntity where
  XZ : Int
  Y : Int
  type : Int
  Data : RawMessage
  deriving DecidableEq

/-- `level.Section`, with the block state at each of its 4096 places. -/
structure Section where
  BlockCount : Int
  GetBlock : Nat → Int

/-- `level.Chunk`, without its height maps. -/
structure Chunk where
  Sections : List Section
  BlockEntity : List BlockEntity

/-- What the NBT decoder makes of a tag that is decoded into an `interface{}`. -/
inductive Value where
  | compound (fields : List (String × Value))
  | list (values : List Value)
  | string (value : String)
  | int (value : Int)
  | other

/-- The parts of a login packet that are used. `dimCodec` is none if it cannot be unmarshalled
into a map. -/
structure Login where
  dimCodec : Option (List (String × Value))
  dim : String
  dimName : String

/-- A packet of the server. -/
inductive Packet where
  | levelChunkWithLight (content : Option (ChunkPos × Chunk))
  | blockEntityData (content : Option (Position × Int × RawMessage))
  | forgetLevelChunk (content : Option (Int × Int))
  | respawn (content : Option (String × String))
  | login (content : Option Login)
  | other

/-- `loadedDim`. -/
structure LoadedDim where
  id : Int
  minY : Int
  height : Int
  totalHeight : Int
  deriving DecidableEq

structure ProxiedChunk where
  Username : String
  Server : String
  Dimension : String
  DimensionLowestY : Int
  DimensionBuildLimit : Int
  Pos : ChunkPos
  Data : Chunk

structure CachePos where
  pos : ChunkPos
  dim : String
  deriving DecidableEq

structure CacheChunk where
  chunk : Chunk
  tofind : Map Position Int

/-- The player's name and destination, and the length of `block.StateList`. -/
structure ClientInfo where
  name : String
  dest : String
  states : Nat

/-- The variables of `packetAcceptor`, what it has sent to `SaveChannel` and the action bar
texts that it has pushed. -/
structure Acceptor where
  c : Map CachePos CacheChunk
  loadedDims : Map String LoadedDim
  currentDim : String
  SaveChannel : List ProxiedChunk
  pushed : List String
  panicked : Bool

/-- `packetAcceptor` before its first packet. -/
def Acceptor.initial : Acceptor where
  c := .empty
  loadedDims := .empty
  currentDim := ""
  SaveChannel := []
  pushed := []
  panicked := false

/-- `compactBlockEntityPos`. -/
def compactBlockEntityPos (x z : Int) : Int := (x % 16 * 16 + z % 16).bmod (2 ^ 8)

namespace Value

/-- `v.(map[string]interface{})`. -/
def compound? : Value → Option (List (String × Value))
  | .compound fields => some fields
  | _ => none

/-- `v.([]interface{})`. -/
def list? : Value → Option (List Value)
  | .list values => some values
  | _ => none

/-- `v.(string)`. -/
def string? : Value → Option String
  | .string value => some value
  | _ => none

/-- `v.(int32)`. -/
def int? : Value → Option Int
  | .int value => some value
  | _ => none

end Value

/-- The elements of the dimension type registry. -/
def registryValue (cod : List (String × Value)) : Option (List Value) := do
  let dtypes ← (cod.lookup "minecraft:dimension_type").bind Value.compound?
  (dtypes.lookup "value").bind Value.list?

/-- An element of the registry that the loop over it does not skip. -/
def dimension (element : Value) : Option (String × LoadedDim) := do
  let dd ← element.compound?
  let dimname ← (dd.lookup "name").bind Value.string?
  let dimid ← (dd.lookup "id").bind Value.int?
  let de ← (dd.lookup "element").bind Value.compound?
  let miny ← (de.lookup "min_y").bind Value.int?
  let height ← (de.lookup "height").bind Value.int?
  some (dimname, ⟨dimid, miny, height, (height - miny).bmod (2 ^ 32)⟩)

/-- The loop over the blocks of a section looks each state up in `block.StateList`. -/
def Section.known (cl : ClientInfo) (sect : Section) : Bool :=
  sect.BlockCount == 0 ||
    (List.range 4096).all fun i =>
      decide (0 ≤ sect.GetBlock i) && decide (sect.GetBlock i < cl.states)

/-- No index of the loop over the blocks is out of range. What the loop collects is logged
only, now that the cache is not filled. -/
def Chunk.known (cl : ClientInfo) (cc : Chunk) : Bool := cc.Sections.all (Section.known cl)

namespace Acceptor

/-- A value for `SaveChannel`, with the current world. -/
def proxied (cl : ClientInfo) (s : Acceptor) (dim : LoadedDim) (pos : ChunkPos) (cc : Chunk) :
    ProxiedChunk where
  Username := cl.name
  Server := cl.dest
  Dimension := s.currentDim
  DimensionLowestY := dim.minY
  DimensionBuildLimit := dim.height
  Pos := pos
  Data := cc

/-- `sp.SaveChannel <- chunk`. -/
def save (s : Acceptor) (chunk : ProxiedChunk) : Acceptor :=
  { s with SaveChannel := s.SaveChannel ++ [chunk] }

/-- The case of a chunk packet. The flag of this and the other cases says that the case is
left at its end, and not by a continue. -/
def levelChunkWithLight (cl : ClientInfo) (s : Acceptor) (content : Option (ChunkPos × Chunk)) :
    Acceptor × Bool :=
  if s.currentDim = "" then (s, false)
  else
    match s.loadedDims.get s.currentDim with
    | none => (s, false)
    | some dim =>
        match content with
        | none => (s, false)
        | some (cpos, cc) =>
            if cc.known cl then (s.save (s.proxied cl dim cpos cc), true)
            else ({ s with panicked := true }, false)

/-- The case of a block entity packet. -/
def blockEntityData (cl : ClientInfo) (s : Acceptor)
    (content : Option (Position × Int × RawMessage)) : Acceptor × Bool :=
  match s.loadedDims.get s.currentDim with
  | none => (s, false)
  | some dim =>
      match content with
      | none => (s, false)
      | some (loc, t, data) =>
          if data.type = 0 then (s, false)
          else
            let cpos : ChunkPos := ⟨(loc.X.tdiv 16).bmod (2 ^ 32), (loc.Z.tdiv 16).bmod (2 ^ 32)⟩
            match s.c.get ⟨cpos, s.currentDim⟩ with
            | none => (s, false)
            | some cachedLevel =>
                match cachedLevel.tofind.get loc with
                | none => (s, false)
                | some beid =>
                    if beid ≠ t then (s, false)
                    else
                      let tofind := cachedLevel.tofind.delete loc
                      let be : BlockEntity :=
                        ⟨compactBlockEntityPos loc.X loc.Z, loc.Y.bmod (2 ^ 16), t, data⟩
                      let chunk := { cachedLevel.chunk with
                        BlockEntity := cachedLevel.chunk.BlockEntity ++ [be] }
                      -- The map of a cached chunk is shared, its chunk is a copy.
                      let s := { s with
                        c := s.c.set ⟨cpos, s.currentDim⟩ { cachedLevel with tofind := tofind } }
                      if tofind.keys.card = 0 then (s.save (s.proxied cl dim cpos chunk), true)
                      else (s, true)

/-- The case of an unload packet. -/
def forgetLevelChunk (cl : ClientInfo) (s : Acceptor) (content : Option (Int × Int)) :
    Acceptor × Bool :=
  match s.loadedDims.get s.currentDim with
  | none => (s, false)
  | some dim =>
      match content with
      | none => (s, false)
      | some (x, z) =>
          match s.c.get ⟨⟨x, z⟩, s.currentDim⟩ with
          | none => (s, false)
          | some cachedLevel => (s.save (s.proxied cl dim ⟨x, z⟩ cachedLevel.chunk), true)

/-- The case of a respawn packet. -/
def respawn (s : Acceptor) (content : Option (String × String)) : Acceptor × Bool :=
  match content with
  | none => (s, false)
  | some (_, dimName) => ({ s with currentDim := dimName }, true)

/-- One iteration of the loop over the dimension type registry. -/
def loadDim (loadedDims : Map String LoadedDim) (element : Value) : Map String LoadedDim :=
  match dimension element with
  | none => loadedDims
  | some (dimname, dim) => loadedDims.set dimname dim

/-- The case of a login packet. -/
def login (s : Acceptor) (content : Option Login) : Acceptor × Bool :=
  match content with
  | none => (s, false)
  | some content =>
      let s := { s with currentDim := content.dimName }
      match content.dimCodec.bind registryValue with
      | none => (s, false)
      | some dims => ({ s with loadedDims := dims.foldl loadDim s.loadedDims }, true)

/-- The switch on the packet. -/
def handle (cl : ClientInfo) (s : Acceptor) : Packet → Acceptor × Bool
  | .levelChunkWithLight content => s.levelChunkWithLight cl content
  | .blockEntityData content => s.blockEntityData cl content
  | .forgetLevelChunk content => s.forgetLevelChunk cl content
  | .respawn content => s.respawn content
  | .login content => s.login content
  | .other => (s, true)

/-- The action bar text after a packet. -/
def text (s : Acceptor) : String := "Cached chunks: " ++ toString s.c.keys.card

/-- `conn.Push` at the end of the loop body. -/
def push (s : Acceptor) : Acceptor := { s with pushed := s.pushed ++ [s.text] }

/-- One iteration of the loop over the packets. -/
def accept (cl : ClientInfo) (s : Acceptor) (p : Packet) : Acceptor :=
  if s.panicked then s
  else
    match s.handle cl p with
    | (s, true) => s.push
    | (s, false) => s

/-- One iteration of the loop that flushes the cache. -/
def flushNext (cl : ClientInfo) (s : Acceptor) (i : CachePos) : Acceptor :=
  match s.c.get i, s.loadedDims.get s.currentDim with
  | some j, some dim => s.save (s.proxied cl dim i.pos j.chunk)
  | _, _ => s

end Acceptor

/-- The loop over the packets that were received. -/
def received (cl : ClientInfo) (packets : List Packet) : Acceptor :=
  packets.foldl (Acceptor.accept cl) .initial

/-- `packetAcceptor`, with the order in which the last loop ranges over the cache. -/
def packetAcceptor (cl : ClientInfo) (packets : List Packet) (order : List CachePos) : Acceptor :=
  let s := received cl packets
  if s.panicked then s else order.foldl (Acceptor.flushNext cl) s

end WebChunk.Proxy
