import WebChunk.Go.CleanPath
import WebChunk.Go.Files
import WebChunk.Go.Int

/-!
# The credentials manager

`credentials/cred.go`. The calls of package `gmma` are answers of a call's surroundings, as are the
clock and the outcomes of the file operations; how credentials are encoded is a parameter, as is the
type of the Microsoft credentials, of which only the access token is used here.
-/

namespace WebChunk.Credentials

open WebChunk.Go
open WebChunk.Go.Path (Place resolve)

structure MicrosoftCredentialsManager where
  Root : String
  AppID : String

/-- `gmma.MCauth`. -/
structure MCauth where
  Token : String
  ExpiresAfter : Int
  deriving DecidableEq

/-- `gmma.BotAuth`. -/
structure BotAuth where
  Name : String
  UUID : String
  AsTk : String
  deriving DecidableEq

structure StoredMicrosoftCredentials (MSauth : Type) where
  Microsoft : MSauth
  Minecraft : MCauth
  MinecraftUUID : String
  deriving DecidableEq

inductive AuthError where
  | file (err : FileError)
  | encoding (text : String)
  | service (text : String)
  deriving DecidableEq

/-- `json.Marshal` and `json.Unmarshal` of stored credentials. -/
structure Encoding (MSauth : Type) where
  marshal : StoredMicrosoftCredentials MSauth → Except String (List UInt8)
  unmarshal : List UInt8 → Except String (StoredMicrosoftCredentials MSauth)

/-- What was encoded is decoded again. -/
structure Encoding.RoundTrips {MSauth : Type} (enc : Encoding MSauth) : Prop where
  stored : ∀ cred b, enc.marshal cred = .ok b → enc.unmarshal b = .ok cred

/-- The surroundings of one call: what the services answer, what the clock shows, why the file
cannot be read if that fails for a reason of its own, and how writing it ends. -/
structure Surroundings (MSauth XBL XSTS : Type) where
  /-- The credentials after the call, which may have been replaced also when it fails. -/
  CheckRefreshMS : MSauth → String → MSauth × Option String
  AuthXBL : String → Except String XBL
  AuthXSTS : XBL → Except String XSTS
  AuthMC : XSTS → Except String MCauth
  GetMCprofile : String → Except String BotAuth
  now : Int
  readFails : Option FileError
  write : Outcome (List UInt8)

variable {MSauth XBL XSTS : Type}

def MicrosoftCredentialsManager.GetFilePath (c : MicrosoftCredentialsManager)
    (username : String) : String :=
  Path.join [c.Root, username ++ ".json"]

/-- What is fixed for all calls. -/
structure Setting (MSauth : Type) where
  manager : MicrosoftCredentialsManager
  workingDir : Place
  enc : Encoding MSauth
  AccessToken : MSauth → String

variable (cfg : Setting MSauth)

namespace Setting

/-- Where the file of a user is. -/
def file (username : String) : Place :=
  resolve cfg.workingDir (cfg.manager.GetFilePath username)

/-- `json.Unmarshal` of a file; the record that comes with an error is not used. -/
def decode (filebytes : List UInt8) : Except AuthError (StoredMicrosoftCredentials MSauth) :=
  match cfg.enc.unmarshal filebytes with
  | .error text => .error (.encoding text)
  | .ok s => .ok s

def ReadCredentials (fs : FileSystem) (path : Place) :
    Except AuthError (StoredMicrosoftCredentials MSauth) :=
  match fs.ReadFile path with
  | .error err => .error (.file err)
  | .ok filebytes => cfg.decode filebytes

def WriteCredentials (fs : FileSystem) (path : Place) (cred : StoredMicrosoftCredentials MSauth)
    (write : Outcome (List UInt8)) : Option AuthError × FileSystem :=
  match cfg.enc.marshal cred with
  | .error text => (some (.encoding text), fs)
  | .ok filebytes =>
      match fs.WriteFile path filebytes write with
      | (err, fs) => (err.map .file, fs)

/-- The services after `CheckRefreshMS`, one after the other. -/
def authenticate (o : Surroundings MSauth XBL XSTS) (Microsoft : MSauth) :
    Except String (MCauth × BotAuth) := do
  let XBLa ← o.AuthXBL (cfg.AccessToken Microsoft)
  let XSTSa ← o.AuthXSTS XBLa
  let MCa ← o.AuthMC XSTSa
  let resauth ← o.GetMCprofile MCa.Token
  return (MCa, { resauth with AsTk := MCa.Token })

/-- The first step of a call. -/
def read (fs : FileSystem) (username : String) (o : Surroundings MSauth XBL XSTS) :
    Except AuthError (StoredMicrosoftCredentials MSauth) :=
  match o.readFails with
  | some err => .error (.file err)
  | none => cfg.ReadCredentials fs (cfg.file username)

/-- The Minecraft token has expired, or is about to. -/
def expired (s : StoredMicrosoftCredentials MSauth) (now : Int) : Bool :=
  wrap (s.Minecraft.ExpiresAfter - 3) < now

def GetAuthForUsername (fs : FileSystem) (username : String) (o : Surroundings MSauth XBL XSTS) :
    (Option BotAuth × Option AuthError) × FileSystem :=
  match cfg.read fs username o with
  | .error err => ((none, some err), fs)
  | .ok s =>
      if expired s o.now then
        match o.CheckRefreshMS s.Microsoft cfg.manager.AppID with
        | (_, some err) => ((none, some (.service err)), fs)
        | (Microsoft, none) =>
            match cfg.authenticate o Microsoft with
            | .error err => ((none, some (.service err)), fs)
            | .ok (MCa, resauth) =>
                match cfg.WriteCredentials fs (cfg.file resauth.Name)
                    ⟨Microsoft, MCa, resauth.UUID⟩ o.write with
                | (err, fs) => ((some resauth, err), fs)
      else ((some ⟨username, s.MinecraftUUID, s.Minecraft.Token⟩, none), fs)

end Setting

variable {cfg} {fs : FileSystem} {path other : Place} {username : String}
  {cred : StoredMicrosoftCredentials MSauth} {o : Surroundings MSauth XBL XSTS}

/-! ### Reading and writing credentials -/

theorem decode_eq_ok {filebytes : List UInt8} :
    cfg.decode filebytes = .ok cred ↔ cfg.enc.unmarshal filebytes = .ok cred := by
  unfold Setting.decode
  split
  · rename_i text failed
    rw [failed]
    exact iff_of_false (fun same => by cases same) (fun same => by cases same)
  · rename_i s decoded
    rw [decoded, Except.ok.injEq, Except.ok.injEq]

theorem ReadCredentials_of_file {content : List UInt8} (found : fs path = some (.file content)) :
    cfg.ReadCredentials fs path = cfg.decode content := by
  rw [Setting.ReadCredentials, FileSystem.ReadFile_of_file found]

/-- Credentials are read from a file. -/
theorem file_of_ReadCredentials (stored : cfg.ReadCredentials fs path = .ok cred) :
    ∃ content, fs path = some (.file content) := by
  unfold Setting.ReadCredentials at stored
  split at stored
  · cases stored
  · rename_i filebytes read
    exact ⟨filebytes, FileSystem.file_of_ReadFile read⟩

/-- Credentials that are read are not lost by writing another file. -/
theorem ReadCredentials_write_other (stored : cfg.ReadCredentials fs path = .ok cred)
    (elsewhere : other ≠ path) (written : StoredMicrosoftCredentials MSauth)
    (outcome : Outcome (List UInt8)) :
    cfg.ReadCredentials (cfg.WriteCredentials fs other written outcome).2 path = .ok cred := by
  obtain ⟨content, found⟩ := file_of_ReadCredentials stored
  unfold Setting.WriteCredentials
  split
  · exact stored
  · rename_i filebytes _
    dsimp only
    obtain ⟨node, changed⟩ := fs.WriteFile_update other filebytes outcome
    have kept : (fs.WriteFile other filebytes outcome).2 path = some (.file content) := by
      rw [changed, Function.update_of_ne (Ne.symm elsewhere), found]
    rw [ReadCredentials_of_file kept, ← ReadCredentials_of_file found, stored]

/-- What is read from the file that was written, or was to be. -/
theorem ReadCredentials_write_same (stored : cfg.ReadCredentials fs path = .ok cred)
    (written : StoredMicrosoftCredentials MSauth) (outcome : Outcome (List UInt8)) :
    cfg.ReadCredentials (cfg.WriteCredentials fs path written outcome).2 path =
      match cfg.enc.marshal written, outcome with
      | .ok filebytes, .done => cfg.decode filebytes
      | .ok _, .failed _ (some left) => cfg.decode left
      | _, _ => .ok cred := by
  obtain ⟨content, found⟩ := file_of_ReadCredentials stored
  unfold Setting.WriteCredentials
  cases cfg.enc.marshal written with
  | error text => exact stored
  | ok filebytes =>
      have file := @FileSystem.WriteFile_of_file fs path content filebytes outcome found
      dsimp only
      rcases outcome with _ | ⟨err, _ | left⟩
      · exact ReadCredentials_of_file file
      · exact (ReadCredentials_of_file file).trans ((ReadCredentials_of_file found).symm.trans stored)
      · exact ReadCredentials_of_file file

/-- The credentials that a complete write leaves are read again. -/
theorem decode_marshal (roundTrips : cfg.enc.RoundTrips) {filebytes : List UInt8}
    (encoded : cfg.enc.marshal cred = .ok filebytes) : cfg.decode filebytes = .ok cred :=
  decode_eq_ok.mpr (roundTrips.stored cred filebytes encoded)

end WebChunk.Credentials
