import Mathlib.Logic.Function.Basic
import WebChunk.Go.Channel
import WebChunk.Go.Path
import WebChunk.RegionStore.Request

/-!
# The region worker

`regionWorker` as a sequence of phases. A move of the worker which calls the
region library takes the library's answer as an input, so that every outcome of
`region.Open`, `region.Create`, `ReadSector` and `WriteSector` is covered; the
moves which use a channel are part of the system's step.
-/

namespace WebChunk.RegionStore

open WebChunk.Go

/-- The chunks of one region file, by their place in it. -/
abbrev Sectors := Int × Int → Option Bytes

/-- The region files, by path; `none` is an absent file. -/
abbrev Files := String → Option Sectors

/-- What is fixed for one storage: its root directory, the channel capacities, and
whether the region library keeps its timestamps as `time.Time` values. -/
structure Config where
  root : String
  requestsCap : Nat := 2048 * 64
  workerCap : Nat := 32
  timestampIsTime : Bool

/-- `getRegionFolder`: the vanilla dimensions keep the directories of the game. -/
def Config.getRegionFolder (cfg : Config) (loc : RegionLocator) : String :=
  if loc.dimension = "overworld" then Path.join [cfg.root, loc.world, "region"]
  else if loc.dimension = "the_end" then Path.join [cfg.root, loc.world, "DIM1", "region"]
  else if loc.dimension = "the_nether" then Path.join [cfg.root, loc.world, "DIM-1", "region"]
  else Path.join [cfg.root, loc.world, "dimensions", "webchunk", loc.dimension, "region"]

/-- `getRegionPath`. -/
def Config.getRegionPath (cfg : Config) (loc : RegionLocator) : String :=
  Path.join [cfg.getRegionFolder loc, s!"r.{loc.rx}.{loc.rz}.mca"]

/-- Where a worker is. `held` says whether `sendClose` runs while the region file
is open. -/
inductive WorkerPhase where
  /-- About to call `region.Open`. -/
  | opening (initial : RegionRequest)
  /-- About to call `region.Create` for a set request. -/
  | creating (initial : RegionRequest)
  /-- In `processRequest`. -/
  | processing (r : RegionRequest)
  /-- At the select of `workerLoop`. -/
  | selecting
  /-- In `sendClose`, before the close message is in `s.requests`. -/
  | reporting (err : RegionError) (held : Bool)
  /-- In `closeLoop2` of `sendClose`. -/
  | draining (err : RegionError) (held : Bool)
  /-- Returned, the region file closed if it was open. -/
  | ended

namespace WorkerPhase

/-- The request the worker works on. -/
def inHand : WorkerPhase → Option RegionRequest
  | opening r | creating r | processing r => some r
  | _ => none

/-- The worker has the region file open. -/
def holdsFile : WorkerPhase → Bool
  | processing _ | selecting => true
  | reporting _ held | draining _ held => held
  | _ => false

/-- The worker has the region file open or may still open it. -/
def mayHoldFile : WorkerPhase → Bool
  | opening _ | creating _ => true
  | phase => phase.holdsFile

/-- The worker is about to put its close message into `s.requests`. -/
def isReporting : WorkerPhase → Bool
  | reporting .. => true
  | _ => false

end WorkerPhase

/-- The answer of one call into the region library. -/
inductive LibraryAnswer where
  | opened (result : Except RegionError Unit)
  | created (result : Except RegionError Unit)
  | timestamp (stamp : Int)
  /-- A failed write may leave anything in the sector it was to write. -/
  | wrote (result : Except (RegionError × Option Bytes) Unit)
  | read (result : Except RegionError Bytes)
  | exist (sector : Int × Int → Bool)

/-- What one library call of a worker amounts to: its next phase, the values it
sends to the result channel of the request in hand, and the region files. -/
structure WorkerMove where
  phase : WorkerPhase
  replies : List Reply
  files : Files

/-- The region files after one sector of one of them changed. -/
def Files.write (files : Files) (path : String) (sector : Int × Int)
    (content : Option Bytes) : Files :=
  Function.update files path
    (some (Function.update ((files path).getD fun _ => none) sector content))

/-- The content of one sector. -/
def Files.read (files : Files) (path : String) (sector : Int × Int) : Option Bytes :=
  (files path).bind fun sectors => sectors sector

/-- The places of a region in the order of the worker's two loops. -/
def regionPlaces : List (Int × Int) :=
  (List.range 32).flatMap fun (x : Nat) => (List.range 32).map fun (z : Nat) => ((x : Int), (z : Int))

/-- The replies to a count request. A place is multiplied by the region
coordinate, and both branches of the source answer `int(1)`. -/
def countIndividualChunks (loc : RegionLocator) (r : RegionRequest)
    (exist : Int × Int → Bool) : List Reply :=
  regionPlaces.filterMap fun (rx, rz) =>
    let x := rx * loc.rx
    let z := rz * loc.rz
    if x ≥ r.cx1 ∧ x ≤ r.cx2 ∧ z ≥ r.cz1 ∧ z ≤ r.cz2 then
      if exist (rx, rz) then some (.chunkData x z 1) else some (.chunkData x z 1)
    else none

/-- The read errors that `processRequest` answers as an absent chunk. -/
def RegionError.isAbsentChunk : RegionError → Bool
  | noData | noSector | sectorNegativeLength | tooLarge => true
  | _ => false

/-- The start of `regionWorker`: the answers of `region.Open`. -/
def openRegion (initial : RegionRequest) (files : Files) :
    Except RegionError Unit → WorkerMove
  | .ok () => ⟨.processing initial, [], files⟩
  | .error .notExist =>
      if initial.op = .setChunk then ⟨.creating initial, [], files⟩
      else ⟨.reporting .notExist false, [.nil], files⟩
  | .error err => ⟨.reporting err false, [.nil], files⟩

/-- The answers of `region.Create`: a created file is an empty region. -/
def createRegion (path : String) (initial : RegionRequest) (files : Files) :
    Except RegionError Unit → WorkerMove
  | .ok () => ⟨.processing initial, [], Function.update files path (some fun _ => none)⟩
  | .error err => ⟨.reporting err false, [.error err], files⟩

/-- `processRequest` on an open region. A failed write and a failed read go
through `sendClose` without a value for the request's own result channel. The
operations of the router have no case here. -/
def processRequest (cfg : Config) (loc : RegionLocator) (r : RegionRequest) (files : Files) :
    LibraryAnswer → Option WorkerMove := fun answer =>
  match r.op, answer with
  | .getModDate, .timestamp stamp =>
      some ⟨.selecting, [if cfg.timestampIsTime then .time stamp else .int32 stamp], files⟩
  | .setChunk, .wrote (.error (err, left)) =>
      some ⟨.reporting err true, [], files.write (cfg.getRegionPath loc) r.sector left⟩
  | .setChunk, .wrote (.ok ()) =>
      some ⟨.selecting, [.nil], files.write (cfg.getRegionPath loc) r.sector (some r.data)⟩
  | .getChunk, .read (.error err) =>
      if err.isAbsentChunk then some ⟨.selecting, [.nil], files⟩
      else some ⟨.reporting err true, [], files⟩
  | .getChunk, .read (.ok d) => some ⟨.selecting, [.bytes d], files⟩
  | .countRegionChunks, .exist present =>
      some ⟨.selecting, [.int ((regionPlaces.filter present).length)], files⟩
  | .countIndividualChunks, .exist present =>
      some ⟨.selecting, countIndividualChunks loc r present, files⟩
  | .closeRegion, _ | .closeInactive, _ => some ⟨.selecting, [], files⟩
  | _, _ => none

/-- One library call of `regionWorker`, from the phase that makes it. -/
def regionWorker (cfg : Config) (loc : RegionLocator) (files : Files)
    (phase : WorkerPhase) (answer : LibraryAnswer) : Option WorkerMove :=
  match phase, answer with
  | .opening initial, .opened result => some (openRegion initial files result)
  | .creating initial, .created result =>
      some (createRegion (cfg.getRegionPath loc) initial files result)
  | .processing r, answer => processRequest cfg loc r files answer
  | _, _ => none

end WebChunk.RegionStore
