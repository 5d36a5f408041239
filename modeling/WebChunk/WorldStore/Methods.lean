import WebChunk.Storages.Driver
import WebChunk.WorldStore.World

/-!
# The methods of a filesystem storage for worlds and dimensions

The other methods of `chunkStorage/filesystemChunkStorage/world.go`, those of `dimension.go`, and
`checkValidWorld` of `level.go`. A method that reads a directory takes what `os.ReadDir` returns
as an argument. The times, which are those of the directories, are left out.
-/

namespace WebChunk.WorldStore

open WebChunk.Go
open WebChunk.Go.Path (Place)
open WebChunk.Storages (StorageError)

/-- `chunkStorage.SDim`; `DimensionType` is `save.DimensionType`. -/
structure SDim (DimensionType : Type) where
  Name : String
  World : String
  Data : DimensionType
  deriving DecidableEq

/-- An error of a method: of the files, or of the interface. -/
inductive MethodError where
  | world (err : WorldError)
  | storage (err : StorageError)
  deriving DecidableEq

/-- What `os.ReadDir` returns: the names in the directory, sorted. -/
structure Lists (fs : FileSystem) (dir : Place) (names : List String) : Prop where
  isDir : fs dir = some .dir
  sorted : names.Pairwise (· < ·)
  there : ∀ name, name ∈ names ↔ (fs (name.toList :: dir)).isSome

variable {LevelData DimensionType : Type} (enc : Encodings LevelData)
  (types : String → DimensionType) (root : Root)

/-! ### Worlds -/

/-- Both files of a world are read and written in its directory; without it each call fails. -/
def inDirectory (fs : FileSystem) (wdir : Place)
    (call : Option WorldError × FileSystem) : Option WorldError × FileSystem :=
  match fs.Stat wdir with
  | .error err => (some (.file err), fs)
  | .ok (.file _) => (some (.file .notDir), fs)
  | .ok .dir => call

/-- The two methods that change the meta file, by what they do to it. -/
def setWorldMeta (fs : FileSystem) (wname : String) (change : WorldMeta → WorldMeta)
    (write rewrite : Outcome (List UInt8)) : Option WorldError × FileSystem :=
  let wpath := root.world wname
  inDirectory fs wpath <|
    match readWorldMeta enc fs wpath write with
    | (.error err, fs) => (some err, fs)
    | (.ok d, fs) => writeWorldMeta enc fs wpath (change d) rewrite

/-- `SetWorldAlias`. -/
def SetWorldAlias (fs : FileSystem) (wname newalias : String)
    (write rewrite : Outcome (List UInt8)) : Option WorldError × FileSystem :=
  setWorldMeta enc root fs wname (fun d => { d with Alias := newalias }) write rewrite

/-- `SetWorldIP`. -/
def SetWorldIP (fs : FileSystem) (wname newip : String)
    (write rewrite : Outcome (List UInt8)) : Option WorldError × FileSystem :=
  setWorldMeta enc root fs wname (fun d => { d with IP := newip }) write rewrite

/-- `SetWorldData`. -/
def SetWorldData (fs : FileSystem) (wname : String) (data : LevelData)
    (write : Outcome (List UInt8)) : Option WorldError × FileSystem :=
  match enc.encodeLevel data with
  | .error text => (some (.encoding text), fs)
  | .ok _ => inDirectory fs (root.world wname) (writeSaveLevel enc fs (root.world wname) data write)

/-- `d.IsDir()` for an entry of the root. -/
def isDirEntry (fs : FileSystem) (name : String) : Bool :=
  fs (name.toList :: root.place) == some .dir

/-- `checkValidWorld`: the loop over the entries looks for a regular file of one name. -/
def checkValidWorld (fs : FileSystem) (path : Place) : Bool :=
  match fs path, fs (levelPath path) with
  | some .dir, some (.file _) => true
  | _, _ => false

/-- `ListWorldNames`. -/
def ListWorldNames (fs : FileSystem) (dir : List String) (err : Option FileError) :
    List String × Option FileError :=
  match err with
  | some err => ([], some err)
  | none =>
      (dir.filter fun name => isDirEntry root fs name && checkValidWorld fs (root.world name), none)

/-- The loop of `ListWorlds`; an error of `GetWorld` is only logged. -/
def listWorldsLoop (fs : FileSystem) (write : Outcome (List UInt8)) :
    List String → List (SWorld LevelData) × FileSystem
  | [] => ([], fs)
  | name :: rest =>
      if isDirEntry root fs name then
        match GetWorld enc root fs name write with
        | ((w, _), fs) =>
            match listWorldsLoop fs write rest with
            | (worlds, fs) => (w.toList ++ worlds, fs)
      else listWorldsLoop fs write rest

/-- `ListWorlds`: what was read of the directory is listed also after an error. -/
def ListWorlds (fs : FileSystem) (dir : List String) (err : Option FileError)
    (write : Outcome (List UInt8)) :
    (List (SWorld LevelData) × Option FileError) × FileSystem :=
  match listWorldsLoop enc root fs write dir with
  | (worlds, fs) => ((worlds, err), fs)

/-! ### Dimensions -/

/-- The dimensions of every world, as they are listed. -/
def listedDims (wname : String) : List (SDim DimensionType) :=
  [⟨"overworld", wname, types "minecraft:overworld"⟩,
    ⟨"the_nether", wname, types "minecraft:the_nether"⟩,
    ⟨"the_end", wname, types "minecraft:the_end"⟩]

/-- `ListWorldDimensions`; `types` is `save.DefaultDimensionsTypes`. -/
def ListWorldDimensions (fs : FileSystem) (wname : String) :
    List (SDim DimensionType) × Option StorageError :=
  match fs.Stat (root.world wname) with
  | .ok .dir => (listedDims types wname, none)
  | _ => ([], some .noWorld)

/-- The loop of `ListDimensions`. -/
def listDimensionsLoop (fs : FileSystem) :
    List String → List (SDim DimensionType) × Option MethodError
  | [] => ([], none)
  | wname :: rest =>
      match ListWorldDimensions types root fs wname with
      | (_, some err) => ([], some (.storage err))
      | (d, none) =>
          match listDimensionsLoop fs rest with
          | (dims, err) => (d ++ dims, err)

/-- `ListDimensions`. -/
def ListDimensions (fs : FileSystem) (dir : List String) (err : Option FileError) :
    List (SDim DimensionType) × Option MethodError :=
  match ListWorldNames root fs dir err with
  | (_, some err) => ([], some (.world (.file err)))
  | (wnames, none) => listDimensionsLoop types root fs wnames

/-- The dimension of a name; its data is looked up by the bare name. -/
def dimOf (wname dname : String) : Option (SDim DimensionType) :=
  match dname with
  | "overworld" => some ⟨"overworld", wname, types "overworld"⟩
  | "the_nether" => some ⟨"the_nether", wname, types "the_nether"⟩
  | "the_end" => some ⟨"the_end", wname, types "the_end"⟩
  | _ => none

/-- `GetDimension`. -/
def GetDimension (fs : FileSystem) (wname dname : String) :
    Option (SDim DimensionType) × Option StorageError :=
  match fs.Stat (root.world wname) with
  | .ok .dir =>
      match dimOf types wname dname with
      | some d => (some d, none)
      | none => (none, some .noDim)
  | _ => (none, some .noWorld)

/-- `AddDimension`. -/
def AddDimension (_ : String) (_ : SDim DimensionType) : Option StorageError :=
  some .notImplemented

/-- `SetDimensionData`. -/
def SetDimensionData (_ _ : String) (_ : DimensionType) : Option StorageError :=
  some .notImplemented

end WebChunk.WorldStore
