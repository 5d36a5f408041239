import Mathlib.Data.Finset.Sort
import Mathlib.Data.String.Basic
import WebChunk.Go.CleanPath
import WebChunk.Go.Map
import WebChunk.Semantics.Refinement
import WebChunk.WorldStore.Methods

/-!
# The registry of worlds

What the methods of a filesystem storage for worlds and dimensions are for: a map from names to
worlds. The storage and the map are machines that answer the same calls.
-/

namespace WebChunk.WorldStore

open WebChunk.Go
open WebChunk.Go.Path (Place Plain)
open WebChunk.Semantics
open WebChunk.Storages (StorageError)

variable (LevelData DimensionType : Type)

/-- The calls. One that reads the root takes the names that `os.ReadDir` returns. -/
inductive Call where
  | listWorlds (dir : List String)
  | listWorldNames (dir : List String)
  | getWorld (wname : String)
  | addWorld (world : SWorld LevelData)
  | setWorldAlias (wname newalias : String)
  | setWorldIP (wname newip : String)
  | setWorldData (wname : String) (data : LevelData)
  | listWorldDimensions (wname : String)
  | listDimensions (dir : List String)
  | addDimension (wname : String) (dim : SDim DimensionType)
  | getDimension (wname dname : String)
  | setDimensionData (wname dname : String) (data : DimensionType)

/-- What they return. -/
inductive Reply where
  | done (err : Option MethodError)
  | world (found : Option (SWorld LevelData)) (err : Option WorldError)
  | worlds (listed : List (SWorld LevelData)) (err : Option FileError)
  | names (listed : List String) (err : Option FileError)
  | dim (found : Option (SDim DimensionType)) (err : Option StorageError)
  | dims (listed : List (SDim DimensionType)) (err : Option MethodError)
  deriving DecidableEq

variable {LevelData DimensionType} (enc : Encodings LevelData) (types : String → DimensionType)
  (root : Root)

/-! ### The storage -/

/-- No file operation fails. -/
def allDone : Outcomes := ⟨.done, .done, .done, .done, .done, .done⟩

/-- A call of the storage where no file operation fails. -/
def perform (fs : FileSystem) : Call LevelData DimensionType →
    Reply LevelData DimensionType × FileSystem
  | .listWorlds dir =>
      match ListWorlds enc root fs dir none .done with
      | ((listed, err), fs) => (.worlds listed err, fs)
  | .listWorldNames dir =>
      match ListWorldNames root fs dir none with
      | (listed, err) => (.names listed err, fs)
  | .getWorld wname =>
      match GetWorld enc root fs wname .done with
      | ((found, err), fs) => (.world found err, fs)
  | .addWorld world =>
      match AddWorld enc root fs world allDone with
      | (err, fs) => (.done (err.map .world), fs)
  | .setWorldAlias wname newalias =>
      match SetWorldAlias enc root fs wname newalias .done .done with
      | (err, fs) => (.done (err.map .world), fs)
  | .setWorldIP wname newip =>
      match SetWorldIP enc root fs wname newip .done .done with
      | (err, fs) => (.done (err.map .world), fs)
  | .setWorldData wname data =>
      match SetWorldData enc root fs wname data .done with
      | (err, fs) => (.done (err.map .world), fs)
  | .listWorldDimensions wname =>
      match ListWorldDimensions types root fs wname with
      | (listed, err) => (.dims listed (err.map .storage), fs)
  | .listDimensions dir =>
      match ListDimensions types root fs dir none with
      | (listed, err) => (.dims listed err, fs)
  | .addDimension wname dim => (.done ((AddDimension wname dim).map .storage), fs)
  | .getDimension wname dname =>
      match GetDimension types root fs wname dname with
      | (found, err) => (.dim found err, fs)
  | .setDimensionData wname dname data =>
      (.done ((SetDimensionData wname dname data).map .storage), fs)

/-- A call as its callers may make it: names are elements of a path, a level that is added can be
encoded, and a directory is listed as it is. -/
def Permitted (fs : FileSystem) : Call LevelData DimensionType → Prop
  | .listWorlds dir | .listWorldNames dir | .listDimensions dir => Lists fs root.place dir
  | .addWorld world => Plain world.Name.toList ∧ ∃ b, enc.encodeLevel world.Data = .ok b
  | .getWorld wname | .setWorldAlias wname _ | .setWorldIP wname _ | .setWorldData wname _
  | .listWorldDimensions wname | .getDimension wname _ => Plain wname.toList
  | .addDimension _ _ | .setDimensionData _ _ _ => True

/-! ### The registry -/

/-- The worlds by name. -/
abbrev Registry (LevelData : Type) := Map String (SWorld LevelData)

namespace Registry

def names (reg : Registry LevelData) : List String := reg.keys.sort (· ≤ ·)

/-- A world that exists is changed. -/
def change (reg : Registry LevelData) (wname : String)
    (f : SWorld LevelData → SWorld LevelData) :
    Reply LevelData DimensionType × Registry LevelData :=
  match reg.get wname with
  | none => (.done (some (.world (.file .notExist))), reg)
  | some w => (.done none, reg.set wname (f w))

/-- What the calls are for. A world that is added takes the place of the one of its name. -/
def answer (reg : Registry LevelData) : Call LevelData DimensionType →
    Reply LevelData DimensionType × Registry LevelData
  | .listWorlds _ => (.worlds (reg.names.filterMap reg.get) none, reg)
  | .listWorldNames _ => (.names reg.names none, reg)
  | .getWorld wname => (.world (reg.get wname) none, reg)
  | .addWorld world => (.done none, reg.set world.Name world)
  | .setWorldAlias wname newalias => reg.change wname fun w => { w with Alias := newalias }
  | .setWorldIP wname newip => reg.change wname fun w => { w with IP := newip }
  | .setWorldData wname data =>
      match enc.encodeLevel data with
      | .error text => (.done (some (.world (.encoding text))), reg)
      | .ok _ => reg.change wname fun w => { w with Data := data }
  | .listWorldDimensions wname =>
      if (reg.get wname).isSome then (.dims (listedDims types wname) none, reg)
      else (.dims [] (some (.storage .noWorld)), reg)
  | .listDimensions _ => (.dims (reg.names.flatMap (listedDims types)) none, reg)
  | .addDimension _ _ | .setDimensionData _ _ _ =>
      (.done (some (.storage .notImplemented)), reg)
  | .getDimension wname dname =>
      if (reg.get wname).isSome then
        match dimOf types wname dname with
        | some d => (.dim (some d) none, reg)
        | none => (.dim none (some .noDim), reg)
      else (.dim none (some .noWorld), reg)

end Registry

section

variable [DecidableEq LevelData] [DecidableEq DimensionType]

/-- The storage, answering calls. -/
def filesystemStorage :
    Machine FileSystem (Call LevelData DimensionType × Reply LevelData DimensionType) :=
  answering (perform enc types root)

/-- The registry, answering calls. -/
def worldRegistry : Machine (Registry LevelData)
    (Call LevelData DimensionType × Reply LevelData DimensionType) :=
  answering (Registry.answer enc types)

end

/-! ### How the storage holds the registry -/

/-- A world as it is held in its directory. -/
structure Holds (fs : FileSystem) (wdir : Place) (w : SWorld LevelData) : Prop where
  isDir : fs wdir = some .dir
  worldMeta : fs (getWorldDirMetaPath wdir) = some (.file (enc.marshalMeta ⟨w.Alias, w.IP⟩))
  level : ∃ b, enc.encodeLevel w.Data = .ok b ∧ fs (levelPath wdir) = some (.file b)
  dims : ∀ v ∈ defaultDims wdir, fs.fileAt v = false

/-- The root holds the worlds of the registry and nothing else. -/
structure Represents (fs : FileSystem) (reg : Registry LevelData) : Prop where
  above : ∀ q, q <:+ root.place → fs q = some .dir
  named : ∀ wname w, reg.get wname = some w → Plain wname.toList ∧ w.Name = wname
  holds : ∀ wname w, reg.get wname = some w → Holds enc fs (wname.toList :: root.place) w
  nothing : ∀ wname, reg.get wname = none → ∀ q, wname.toList :: root.place <:+ q → fs q = none

end WebChunk.WorldStore
