import WebChunk.Go.Channel
import WebChunk.Go.Int
import WebChunk.Go.Map
import WebChunk.RegionStore.Request

/-!
# Chunk storages

The part of the interface `ChunkStorage` that the ingest paths and the renderer use, and
the two lookups of a storage. A session is what one goroutine does with the drivers: it
logs every call with what came back. Level data, dimension types and times, which only
the drivers read, are left out. The methods that read a rectangle may panic, and which of
their calls do is part of a driver.
-/

namespace WebChunk.Storages

open WebChunk.Go

abbrev Bytes := List UInt8

inductive StorageError where
  | notImplemented
  | alreadyExists
  | readOnly
  | noWorld
  | noDim
  | other (text : String)
  deriving DecidableEq

def StorageError.text : StorageError → String
  | .notImplemented => "not implemented"
  | .alreadyExists => "already exists"
  | .readOnly => "storage is read-only"
  | .noWorld => "world not found"
  | .noDim => "dimension not found"
  | .other text => text

structure SWorld where
  Name : String
  Alias : String
  IP : String

structure SDim where
  Name : String
  World : String

/-- `save.Chunk`, by the serialized form that it was loaded from. -/
structure SaveChunk where
  raw : Bytes
  deriving DecidableEq

/-- A chunk with its neighbours; a nil pointer is `none`. -/
structure ContextedChunkData where
  center : SaveChunk
  top : Option SaveChunk
  bottom : Option SaveChunk
  left : Option SaveChunk
  right : Option SaveChunk
  deriving DecidableEq

/-- The dynamic types of the values in a `ChunkData` or handed to a painter. -/
inductive DynamicType where
  | chunk
  | chunkPointer
  | contextedChunkData
  | int
  deriving DecidableEq

/-- The values in a `ChunkData` or handed to a painter. -/
inductive Datum where
  | chunk (c : SaveChunk)
  | chunkPointer (c : SaveChunk)
  | contextedChunkData (d : ContextedChunkData)
  | int (n : Int)
  deriving DecidableEq

/-- The type that a type assertion compares. -/
def Datum.type : Datum → DynamicType
  | .chunk _ => .chunk
  | .chunkPointer _ => .chunkPointer
  | .contextedChunkData _ => .contextedChunkData
  | .int _ => .int

structure ChunkData where
  X : Int
  Z : Int
  Data : Datum
  deriving DecidableEq

structure StorageAbilities where
  CanCreateWorldsDimensions : Bool
  CanAddChunks : Bool

/-- Why a call does not return: a panic, which nobody recovers from, or a wait without end. -/
inductive Stop where
  | indexOutOfRange
  | nilStorage
  | divisionByZero
  | hugeRectangle
  | hugeChannel
  | closedChannel
  | typeAssertion
  | waits
  deriving DecidableEq

/-- The call ends in a panic. -/
def Panics {Result : Type} (call : Except Stop Result) : Prop :=
  ∃ stop, call = .error stop ∧ stop ≠ .waits

@[simp] theorem not_panics_ok {Result : Type} (result : Result) :
    ¬ Panics (.ok result : Except Stop Result) := by
  rintro ⟨stop, same, -⟩
  cases same

@[simp] theorem panics_error {Result : Type} (stop : Stop) :
    Panics (.error stop : Except Stop Result) ↔ stop ≠ .waits := by
  constructor
  · rintro ⟨other, same, panic⟩
    cases same
    exact panic
  · exact fun panic => ⟨stop, rfl, panic⟩

/-- `(cx1-cx0)*(cz1-cz0)` of the normalised rectangle. -/
def rectCount (cx0 cz0 cx1 cz1 : Int) : Int :=
  let (cx0, cz0, cx1, cz1) := RegionStore.normalizeCoords cx0 cz0 cx1 cz1
  wrap (wrap (cx1 - cx0) * wrap (cz1 - cz0))

/-- The two drivers, as far as their calls can panic. That of the filesystem makes a channel with
a place for each chunk of a rectangle, or for every second one that is counted; `limit` and
`countLimit` are the sizes for which there is an address space. Its channel `requests` is open
until `Close`, and the worker of a region counts if it has a file. -/
inductive DriverKind (St : Type) where
  | postgres
  | filesystem (limit countLimit : Nat) (isOpen : St → Bool)
      (hasFile : St → RegionStore.RegionLocator → Bool)

/-- A call of `GetChunksRegion` panics: in `make`, or in the goroutine of one of its chunks that
sends a request. -/
def DriverKind.regionPanics {St : Type} (kind : DriverKind St) (st : St)
    (cx0 cz0 cx1 cz1 : Int) : Prop :=
  match kind with
  | .postgres => False
  | .filesystem limit _ isOpen _ =>
      Chan.makeSize limit (rectCount cx0 cz0 cx1 cz1) = none ∨
        isOpen st = false ∧ cx0 ≠ cx1 ∧ cz0 ≠ cz1

/-- A call of `GetChunksCountRegion` panics: in `make`, where it sends its request, or in the type
assertion of a value, for the worker of a region without a file sends a nil. -/
def DriverKind.countPanics {St : Type} (kind : DriverKind St) (st : St) (wname dname : String)
    (cx0 cz0 cx1 cz1 : Int) : Prop :=
  match kind with
  | .postgres => False
  | .filesystem _ countLimit isOpen hasFile =>
      Chan.makeSize countLimit ((rectCount cx0 cz0 cx1 cz1).tdiv 2) = none ∨ isOpen st = false ∨
        0 < rectCount cx0 cz0 cx1 cz1 ∧ ∃ loc ∈
          ((RegionStore.ClientCall.getChunksCountRegion wname dname cx0 cz0 cx1 cz1).request
            0).regions, hasFile st loc = false

/-- An initialised driver; `St` is the state of all that the drivers keep. A method
returns its results, of which the error may be nil, as Go does. -/
structure ChunkStorage (St : Type) where
  kind : DriverKind St
  GetAbilities : StorageAbilities
  GetWorld : St → String → Option SWorld × Option StorageError
  AddWorld : St → SWorld → Option StorageError × St
  GetDimension : St → String → String → Option SDim × Option StorageError
  AddDimension : St → String → SDim → Option StorageError × St
  AddChunkRaw : St → String → String → Int → Int → Bytes → Option StorageError × St
  GetChunksRegion : St → String → String → Int → Int → Int → Int →
    Except Stop (Except StorageError (List ChunkData))
  GetChunksCountRegion : St → String → String → Int → Int → Int → Int →
    Except Stop (Except StorageError (List ChunkData))
  region_panics : ∀ st wname dname cx0 cz0 cx1 cz1,
    Panics (GetChunksRegion st wname dname cx0 cz0 cx1 cz1) ↔
      kind.regionPanics st cx0 cz0 cx1 cz1
  count_panics : ∀ st wname dname cx0 cz0 cx1 cz1,
    Panics (GetChunksCountRegion st wname dname cx0 cz0 cx1 cz1) ↔
      kind.countPanics st wname dname cx0 cz0 cx1 cz1

/-- A configured storage; a storage that could not be initialised has no driver. -/
structure Storage (St : Type) where
  Driver : Option (ChunkStorage St)

variable {St : Type}

/-- The driver under a name, if there is an initialised one. -/
def driverOf (storages : Map String (Storage St)) (name : String) : Option (ChunkStorage St) :=
  (storages.get name).bind Storage.Driver

/-- `GetWorldStorage`; the list is the order in which the range loop meets the names. -/
def GetWorldStorage (storages : Map String (Storage St)) (st : St) (wname : String) :
    List String → Option SWorld × Option (ChunkStorage St) × Option StorageError
  | [] => (none, none, none)
  | name :: rest =>
      match driverOf storages name with
      | none => GetWorldStorage storages st wname rest
      | some driver =>
          match driver.GetWorld st wname with
          | (_, some err) => (none, none, some err)
          | (some w, none) => (some w, some driver, none)
          | (none, none) => GetWorldStorage storages st wname rest

/-- The test in the range loop of `findCapableStorage`. -/
def capable (storages : Map String (Storage St)) (sn : String) : Option (ChunkStorage St) :=
  if sn = "" then none
  else (driverOf storages sn).filter fun driver =>
    driver.GetAbilities.CanCreateWorldsDimensions && driver.GetAbilities.CanAddChunks

/-- `findCapableStorage`: a storage named `pref` is taken as it is. -/
def findCapableStorage (storages : Map String (Storage St)) (pref : String)
    (order : List String) : Option (ChunkStorage St) :=
  match storages.get pref with
  | some p => p.Driver
  | none => order.findSome? (capable storages)

/-! ### Sessions -/

/-- A call of a driver, or a lookup over all of them, with what came back. -/
inductive DriverCall where
  | getWorldStorage (wname : String) (found : Option SWorld) (err : Option StorageError)
  | addWorld (world : SWorld) (err : Option StorageError)
  | getDimension (wname dname : String) (found : Option SDim) (err : Option StorageError)
  | addDimension (wname : String) (dim : SDim) (err : Option StorageError)
  | addChunkRaw (wname dname : String) (cx cz : Int) (dat : Bytes) (err : Option StorageError)

/-- The call succeeded: it has no error, or `ErrNoDim` instead of a dimension, and what was
found has the name that was asked for. -/
def DriverCall.succeeded : DriverCall → Prop
  | .getWorldStorage wname found err => err = none ∧ ∀ w, found = some w → w.Name = wname
  | .getDimension wname dname found err =>
      (err = none ∨ err = some .noDim ∧ found = none) ∧
        ∀ d, found = some d → d.Name = dname ∧ d.World = wname
  | .addWorld _ err | .addDimension _ _ err | .addChunkRaw _ _ _ _ _ err => err = none

/-- A chunk that was stored, with its key. -/
structure StoredChunk where
  wname : String
  dname : String
  cx : Int
  cz : Int
  dat : Bytes

/-- What a call stored. -/
def DriverCall.stored : DriverCall → Option StoredChunk
  | .addChunkRaw wname dname cx cz dat none => some ⟨wname, dname, cx, cz, dat⟩
  | _ => none

structure Session (St : Type) where
  st : St
  calls : List DriverCall := []

namespace Session

/-- Every driver call succeeded. -/
def Succeeded (x : Session St) : Prop := ∀ call ∈ x.calls, call.succeeded

/-- The chunks stored so far. -/
def stored (x : Session St) : List StoredChunk := x.calls.filterMap DriverCall.stored

def log (x : Session St) (call : DriverCall) : Session St := { x with calls := x.calls ++ [call] }

def getWorldStorage (x : Session St) (storages : Map String (Storage St)) (wname : String)
    (order : List String) :
    (Option SWorld × Option (ChunkStorage St) × Option StorageError) × Session St :=
  let found := GetWorldStorage storages x.st wname order
  (found, x.log (.getWorldStorage wname found.1 found.2.2))

def addWorld (x : Session St) (s : ChunkStorage St) (world : SWorld) :
    Option StorageError × Session St :=
  match s.AddWorld x.st world with
  | (err, st) => (err, { x with st := st }.log (.addWorld world err))

def getDimension (x : Session St) (s : ChunkStorage St) (wname dname : String) :
    (Option SDim × Option StorageError) × Session St :=
  let found := s.GetDimension x.st wname dname
  (found, x.log (.getDimension wname dname found.1 found.2))

def addDimension (x : Session St) (s : ChunkStorage St) (wname : String) (dim : SDim) :
    Option StorageError × Session St :=
  match s.AddDimension x.st wname dim with
  | (err, st) => (err, { x with st := st }.log (.addDimension wname dim err))

def addChunkRaw (x : Session St) (s : ChunkStorage St) (wname dname : String) (cx cz : Int)
    (dat : Bytes) : Option StorageError × Session St :=
  match s.AddChunkRaw x.st wname dname cx cz dat with
  | (err, st) => (err, { x with st := st }.log (.addChunkRaw wname dname cx cz dat err))

@[simp] theorem log_st (x : Session St) (call : DriverCall) : (x.log call).st = x.st := rfl

@[simp] theorem succeeded_log (x : Session St) (call : DriverCall) :
    (x.log call).Succeeded ↔ x.Succeeded ∧ call.succeeded := by
  simp [Succeeded, log, or_imp, forall_and]

@[simp] theorem stored_log (x : Session St) (call : DriverCall) :
    (x.log call).stored = x.stored ++ call.stored.toList := by
  unfold stored log
  rw [List.filterMap_append]
  cases found : call.stored <;> simp [found]

@[simp] theorem succeeded_with_st (x : Session St) (st : St) :
    ({ x with st := st } : Session St).Succeeded ↔ x.Succeeded := Iff.rfl

@[simp] theorem stored_with_st (x : Session St) (st : St) :
    ({ x with st := st } : Session St).stored = x.stored := rfl

/-- What comes back from a call, and the session with its log entry. -/
theorem addWorld_eq (x : Session St) (s : ChunkStorage St) (world : SWorld) :
    ∃ err st, s.AddWorld x.st world = (err, st) ∧
      x.addWorld s world = (err, { x with st := st }.log (.addWorld world err)) :=
  ⟨_, _, rfl, rfl⟩

theorem addDimension_eq (x : Session St) (s : ChunkStorage St) (wname : String) (dim : SDim) :
    ∃ err st, x.addDimension s wname dim =
      (err, { x with st := st }.log (.addDimension wname dim err)) :=
  ⟨_, _, rfl⟩

theorem addChunkRaw_eq (x : Session St) (s : ChunkStorage St) (wname dname : String) (cx cz : Int)
    (dat : Bytes) :
    ∃ err st, x.addChunkRaw s wname dname cx cz dat =
      (err, { x with st := st }.log (.addChunkRaw wname dname cx cz dat err)) :=
  ⟨_, _, rfl⟩

theorem succeeded_before_addChunkRaw {x : Session St} {s : ChunkStorage St} {wname dname : String}
    {cx cz : Int} {dat : Bytes}
    (succeeded : (x.addChunkRaw s wname dname cx cz dat).2.Succeeded) : x.Succeeded := by
  obtain ⟨err, st, same⟩ := x.addChunkRaw_eq s wname dname cx cz dat
  rw [same] at succeeded
  simp only [succeeded_log, succeeded_with_st] at succeeded
  exact succeeded.1

end Session

end WebChunk.Storages
