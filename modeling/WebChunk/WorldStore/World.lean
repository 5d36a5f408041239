import WebChunk.Go.Files

/-!
# The worlds of a filesystem storage

`chunkStorage/filesystemChunkStorage/world.go` and the files of `level.go` that it uses. A world
is a directory with the files `WebChunk.json` and `level.dat` and a directory for each of the
three dimensions. How the two files are encoded is a parameter.
-/

namespace WebChunk.WorldStore

open WebChunk.Go
open WebChunk.Go.Path (Place within)

/-- An error of one of the methods. -/
inductive WorldError where
  | alreadyExists
  | file (err : FileError)
  | encoding (text : String)
  deriving DecidableEq

/-- The record of a world. Alias and address are text: of other byte strings `json.MarshalIndent`
replaces what is not UTF-8. -/
structure WorldMeta where
  Alias : String
  IP : String
  deriving DecidableEq

/-- `chunkStorage.SWorld`; `LevelData` is `save.LevelData`. The two times are not stored. -/
structure SWorld (LevelData : Type) where
  Name : String
  Alias : String
  IP : String
  Data : LevelData
  deriving DecidableEq

/-- The encodings of the two files: JSON, and NBT compressed with gzip. -/
structure Encodings (LevelData : Type) where
  marshalMeta : WorldMeta → List UInt8
  unmarshalMeta : List UInt8 → Except String WorldMeta
  encodeLevel : LevelData → Except String (List UInt8)
  decodeLevel : List UInt8 → Except String LevelData

/-- What was encoded is decoded again. -/
structure Encodings.RoundTrips {LevelData : Type} (enc : Encodings LevelData) : Prop where
  worldMeta : ∀ d, enc.unmarshalMeta (enc.marshalMeta d) = .ok d
  level : ∀ d b, enc.encodeLevel d = .ok b → enc.decodeLevel b = .ok d

/-- The root directory of a storage. -/
structure Root where
  rooted : Bool
  place : Place

/-- `path.Join(s.Root, wname)`. -/
def Root.world (root : Root) (wname : String) : Place := within root.rooted root.place wname

/-- `getWorldDirMetaPath`. -/
def getWorldDirMetaPath (wdir : Place) : Place := "WebChunk.json".toList :: wdir

/-- `path.Join(wdir, "level.dat")`. -/
def levelPath (wdir : Place) : Place := "level.dat".toList :: wdir

variable {LevelData : Type} (enc : Encodings LevelData) (root : Root)

def writeWorldMeta (fs : FileSystem) (wdir : Place) (d : WorldMeta)
    (write : Outcome (List UInt8)) : Option WorldError × FileSystem :=
  match fs.WriteFile (getWorldDirMetaPath wdir) (enc.marshalMeta d) write with
  | (err, fs) => (err.map .file, fs)

/-- `readWorldMeta`; a file that does not exist is written. -/
def readWorldMeta (fs : FileSystem) (wdir : Place) (write : Outcome (List UInt8)) :
    Except WorldError WorldMeta × FileSystem :=
  match fs.ReadFile (getWorldDirMetaPath wdir) with
  | .error .notExist =>
      match writeWorldMeta enc fs wdir ⟨"", ""⟩ write with
      | (some err, fs) => (.error err, fs)
      | (none, fs) => (.ok ⟨"", ""⟩, fs)
  | .error err => (.error (.file err), fs)
  | .ok b =>
      match enc.unmarshalMeta b with
      | .error text => (.error (.encoding text), fs)
      | .ok d => (.ok d, fs)

/-- `readSaveLevel`. -/
def readSaveLevel (fs : FileSystem) (path : Place) : Except WorldError LevelData :=
  match fs.ReadFile path with
  | .error err => .error (.file err)
  | .ok b =>
      match enc.decodeLevel b with
      | .error text => .error (.encoding text)
      | .ok d => .ok d

/-- `writeSaveLevel`. -/
def writeSaveLevel (fs : FileSystem) (dir : Place) (d : LevelData)
    (write : Outcome (List UInt8)) : Option WorldError × FileSystem :=
  match enc.encodeLevel d with
  | .error text => (some (.encoding text), fs)
  | .ok b =>
      match fs.WriteFile (levelPath dir) b write with
      | (err, fs) => (err.map .file, fs)

/-- `GetWorld`. A directory without a `level.dat` that can be read is an error. -/
def GetWorld (fs : FileSystem) (wname : String) (write : Outcome (List UInt8)) :
    (Option (SWorld LevelData) × Option WorldError) × FileSystem :=
  let wdir := root.world wname
  match fs.Stat wdir with
  | .error .notExist => ((none, none), fs)
  | _ =>
      match readWorldMeta enc fs wdir write with
      | (worldMeta, fs) =>
          let d : WorldMeta := match worldMeta with
            | .error _ => ⟨"", ""⟩
            | .ok d => d
          match readSaveLevel enc fs (levelPath wdir) with
          | .error err => ((none, some err), fs)
          | .ok data => ((some ⟨wname, d.Alias, d.IP, data⟩, none), fs)

/-- The directories of `createDefaultDims`. -/
def defaultDims (wroot : Place) : List Place :=
  ["region".toList :: wroot, "region".toList :: "DIM-1".toList :: wroot,
    "region".toList :: "DIM1".toList :: wroot]

/-- The loop of `createDefaultDims`. -/
def createDirs (fs : FileSystem) : List (Place × Outcome Nat) → Option WorldError × FileSystem
  | [] => (none, fs)
  | (v, outcome) :: rest =>
      match fs.MkdirAll v outcome with
      | (none, fs) => createDirs fs rest
      | (some .exist, fs) => createDirs fs rest
      | (some err, fs) => (some (.file err), fs)

/-- How the file operations of `AddWorld` end. -/
structure Outcomes where
  dir : Outcome Nat
  worldMeta : Outcome (List UInt8)
  region : Outcome Nat
  nether : Outcome Nat
  theEnd : Outcome Nat
  level : Outcome (List UInt8)

def createDefaultDims (fs : FileSystem) (wroot : Place) (o : Outcomes) :
    Option WorldError × FileSystem :=
  createDirs fs ((defaultDims wroot).zip [o.region, o.nether, o.theEnd])

/-- `AddWorld`. -/
def AddWorld (fs : FileSystem) (world : SWorld LevelData) (o : Outcomes) :
    Option WorldError × FileSystem :=
  let wpath := root.world world.Name
  match fs.MkdirAll wpath o.dir with
  | (some err, fs) => (some (.file err), fs)
  | (none, fs) =>
      match writeWorldMeta enc fs wpath ⟨world.Alias, world.IP⟩ o.worldMeta with
      | (some err, fs) => (some err, fs)
      | (none, fs) =>
          match createDefaultDims fs wpath o with
          | (some err, fs) => (some err, fs)
          | (none, fs) => writeSaveLevel enc fs wpath world.Data o.level

end WebChunk.WorldStore
