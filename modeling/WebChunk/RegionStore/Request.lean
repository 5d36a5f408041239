/-!
# Requests, replies and the calls behind them

The messages of `chunkStorage/filesystemChunkStorage/region.go`: what a client
call puts into `s.requests`, what may come back on its result channel, and which
of those answers end the call. The data that a chunk holds is left as raw bytes.
-/

namespace WebChunk.RegionStore

/-- Raw chunk data. -/
abbrev Bytes := List UInt8

/-- One region file of one dimension of one world. -/
structure RegionLocator where
  world : String
  dimension : String
  rx : Int
  rz : Int
  deriving DecidableEq

/-- The operations of a `regionRequest`. -/
inductive RegionRouterComand where
  | closeRegion
  | closeInactive
  | getChunk
  | setChunk
  | getModDate
  | countRegionChunks
  | countIndividualChunks
  deriving DecidableEq

/-- A message on `s.requests` or on a worker's channel. `result` names the call
whose result channel the message carries; the close messages carry none. -/
structure RegionRequest where
  op : RegionRouterComand
  world : String := ""
  dimension : String := ""
  cx1 : Int := 0
  cx2 : Int := 0
  cz1 : Int := 0
  cz2 : Int := 0
  data : Bytes := []
  result : Option Nat := none
  deriving DecidableEq

/-- `region.At`: the region of a chunk, `c >> 5` on both axes. -/
def regionAt (cx cz : Int) : Int × Int := (cx >>> (5 : Nat), cz >>> (5 : Nat))

/-- `region.In`: the place of a chunk in its region. The mask `c & 31` of a
two's complement number is its remainder. -/
def regionIn (cx cz : Int) : Int × Int := (cx % 32, cz % 32)

/-- The errors of the region library that the worker tells apart. -/
inductive RegionError where
  | notExist
  | noData
  | noSector
  | sectorNegativeLength
  | tooLarge
  | other (code : Nat)
  deriving DecidableEq

/-- A value on a result channel, by its dynamic type. -/
inductive Reply where
  | nil
  | error (err : RegionError)
  | bytes (data : Bytes)
  | time (stamp : Int)
  | int32 (stamp : Int)
  | int (count : Nat)
  | chunkData (x z : Int) (data : Int)
  deriving DecidableEq

/-- The client calls that talk to the router. -/
inductive ClientCall where
  | addChunkRaw (wname dname : String) (cx cz : Int) (dat : Bytes)
  | getChunkModDate (wname dname : String) (cx cz : Int)
  | getChunkRaw (wname dname : String) (cx cz : Int)
  | getChunksCountRegion (wname dname : String) (cx0 cz0 cx1 cz1 : Int)
  deriving DecidableEq

/-- What a call gives back to its caller. -/
inductive Return where
  | ok
  | bytes (data : Bytes)
  | modDate (stamp : Int)
  | failed (err : RegionError)
  | noResponse
  | counted
  deriving DecidableEq

/-- How a call reacts to one value received from its result channel. -/
inductive Received where
  | returns (ret : Return)
  | keepsWaiting
  | panics
  deriving DecidableEq

/-- Order the two corners of a rectangle on each axis. -/
def normalizeCoords (x0 z0 x1 z1 : Int) : Int × Int × Int × Int :=
  let (x0, x1) := if x0 > x1 then (x1, x0) else (x0, x1)
  let (z0, z1) := if z0 > z1 then (z1, z0) else (z0, z1)
  (x0, z0, x1, z1)

namespace ClientCall

/-- The request a call puts into `s.requests`; `id` is its result channel. -/
def request (id : Nat) : ClientCall → RegionRequest
  | addChunkRaw wname dname cx cz dat =>
      { op := .setChunk, world := wname, dimension := dname, cx1 := cx, cz1 := cz,
        data := dat, result := some id }
  | getChunkModDate wname dname cx cz =>
      { op := .getModDate, world := wname, dimension := dname, cx1 := cx, cz1 := cz,
        result := some id }
  | getChunkRaw wname dname cx cz =>
      { op := .getChunk, world := wname, dimension := dname, cx1 := cx, cz1 := cz,
        result := some id }
  | getChunksCountRegion wname dname cx0 cz0 cx1 cz1 =>
      let (x0, z0, x1, z1) := normalizeCoords cx0 cz0 cx1 cz1
      { op := .countIndividualChunks, world := wname, dimension := dname,
        cx1 := x0, cx2 := x1, cz1 := z0, cz2 := z1, result := some id }

/-- The type switch each call runs on a received value. `AddChunkRaw` and
`GetChunkModDate` stay in their receive loop on a value of another type,
`GetChunkRaw` leaves its loop, and the type assertion of `GetChunksCountRegion`
panics. The counter of the latter never advances, so it keeps receiving. -/
def receive : ClientCall → Reply → Received
  | addChunkRaw .., .error err => .returns (.failed err)
  | addChunkRaw .., .nil => .returns .ok
  | addChunkRaw .., _ => .keepsWaiting
  | getChunkModDate .., .error err => .returns (.failed err)
  | getChunkModDate .., .time stamp => .returns (.modDate stamp)
  | getChunkModDate .., _ => .keepsWaiting
  | getChunkRaw .., .error err => .returns (.failed err)
  | getChunkRaw .., .bytes data => .returns (.bytes data)
  | getChunkRaw .., .nil => .returns (.bytes [])
  | getChunkRaw .., _ => .returns .noResponse
  | getChunksCountRegion .., .chunkData .. => .keepsWaiting
  | getChunksCountRegion .., _ => .panics

/-- The calls whose receive loop does not run at all: an empty rectangle. -/
def returnsAtOnce : ClientCall → Bool
  | getChunksCountRegion _ _ cx0 cz0 cx1 cz1 =>
      let (x0, z0, x1, z1) := normalizeCoords cx0 cz0 cx1 cz1
      (x1 - x0) * (z1 - z0) ≤ 0
  | _ => false

end ClientCall

namespace RegionRequest

/-- The region of the chunk a request names. -/
def locator (r : RegionRequest) : RegionLocator :=
  let (rx, rz) := regionAt r.cx1 r.cz1
  ⟨r.world, r.dimension, rx, rz⟩

/-- The place of that chunk in its region file. -/
def sector (r : RegionRequest) : Int × Int := regionIn r.cx1 r.cz1

/-- The message `sendClose` puts into `s.requests`. -/
def close (loc : RegionLocator) : RegionRequest :=
  { op := .closeRegion, world := loc.world, dimension := loc.dimension,
    cx1 := loc.rx, cz1 := loc.rz }

/-- The region a close message names: its coordinates are region coordinates. -/
def closeLocator (r : RegionRequest) : RegionLocator := ⟨r.world, r.dimension, r.cx1, r.cz1⟩

/-- The regions of a count request in the order of the router's two loops. -/
def regions (r : RegionRequest) : List RegionLocator :=
  let (rx1, rz1) := regionAt r.cx1 r.cz1
  let (rx2, rz2) := regionAt r.cx2 r.cz2
  (List.range (rz2 - rz1).toNat).flatMap fun (dz : Nat) =>
    (List.range (rx2 - rx1).toNat).map fun (dx : Nat) =>
      ⟨r.world, r.dimension, rx1 + dx, rz1 + dz⟩

end RegionRequest

/-- The chunk coordinates are determined by the region and the place in it. -/
theorem regionAt_regionIn_injective {cx cz cx' cz' : Int}
    (sameRegion : regionAt cx cz = regionAt cx' cz')
    (samePlace : regionIn cx cz = regionIn cx' cz') : cx = cx' ∧ cz = cz' := by
  simp only [regionAt, regionIn, Prod.mk.injEq, Int.shiftRight_eq_div_pow] at *
  omega

end WebChunk.RegionStore
