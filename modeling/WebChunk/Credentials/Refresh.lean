import WebChunk.Credentials.Manager
import WebChunk.Go.Bytes
import WebChunk.Semantics.Machine

/-!
# Refreshed credentials

Calls of `GetAuthForUsername` for one user. A refresh may replace the Microsoft credentials at its
first step and writes them at its last; what it writes goes into the file that is named after the
profile.
-/

namespace WebChunk.Credentials

open WebChunk.Go WebChunk.Semantics

variable {MSauth XBL XSTS : Type} (cfg : Setting MSauth) (username : String)

/-- The files, the latest Microsoft credentials of the user that are known, and the Minecraft token
that the last call returned if it returned without an error. -/
structure Account (MSauth : Type) where
  fs : FileSystem
  latest : Option MSauth
  returned : Option String

/-- Before the first call, the credentials that were stored are the latest. -/
def Account.start (fs : FileSystem) : Account MSauth :=
  ⟨fs, (cfg.ReadCredentials fs (cfg.file username)).toOption.map (·.Microsoft), none⟩

/-- The credentials that a call finds expired, and therefore refreshes. -/
def refreshing (fs : FileSystem) (o : Surroundings MSauth XBL XSTS) :
    Option (StoredMicrosoftCredentials MSauth) :=
  match cfg.read fs username o with
  | .error _ => none
  | .ok s => if Setting.expired s o.now then some s else none

/-- What the first step of a refresh makes of the Microsoft credentials, and its error. -/
def checked (o : Surroundings MSauth XBL XSTS) (cred : StoredMicrosoftCredentials MSauth) :
    MSauth × Option String :=
  o.CheckRefreshMS cred.Microsoft cfg.manager.AppID

/-- The latest credentials after a call. -/
def latestAfter [DecidableEq MSauth] (a : Account MSauth)
    (o : Surroundings MSauth XBL XSTS) : Option MSauth :=
  match refreshing cfg username a.fs o with
  | none => a.latest
  | some s =>
      if (checked cfg o s).1 = s.Microsoft then a.latest
      else some (checked cfg o s).1

/-- The token that a call returns. -/
def tokenOf : Option BotAuth × Option AuthError → Option String
  | (some auth, none) => some auth.AsTk
  | _ => none

/-- A call of `GetAuthForUsername`. -/
def call [DecidableEq MSauth] (a : Account MSauth) (o : Surroundings MSauth XBL XSTS) :
    Account MSauth :=
  match cfg.GetAuthForUsername a.fs username o with
  | (result, fs) => ⟨fs, latestAfter cfg username a o, tokenOf result⟩

def authMachine [DecidableEq MSauth] :
    Machine (Account MSauth) (Surroundings MSauth XBL XSTS) where
  step a o := some (call cfg username a o)

/-- In the user's file are the latest Microsoft credentials, and the Minecraft token that was just
returned. -/
def NothingLost (a : Account MSauth) : Prop :=
  ∀ token, a.latest = some token →
    ∃ cred, cfg.ReadCredentials a.fs (cfg.file username) = .ok cred ∧ cred.Microsoft = token ∧
      ∀ t, a.returned = some t → cred.Minecraft.Token = t

/-! ### The condition -/

/-- The user's file has these Microsoft credentials after it was written, or was to be. -/
def WriteKeeps (cred written : StoredMicrosoftCredentials MSauth)
    (outcome : Outcome (List UInt8)) : Prop :=
  match cfg.enc.marshal written, outcome with
  | .ok _, .done => True
  | .ok _, .failed _ (some left) =>
      ∃ kept, cfg.enc.unmarshal left = .ok kept ∧ kept.Microsoft = written.Microsoft
  | _, _ => written.Microsoft = cred.Microsoft

/-- The write completes. -/
def Completes (fs : FileSystem) (path : Path.Place) (written : StoredMicrosoftCredentials MSauth)
    (outcome : Outcome (List UInt8)) : Prop :=
  (∃ filebytes, cfg.enc.marshal written = .ok filebytes) ∧ fs path ≠ some .dir ∧ outcome = .done

/-- A refresh of these credentials loses nothing: without a write the Microsoft credentials stay,
also if the file of another name is written; the Minecraft token then has to be the same. -/
def RefreshKeeps (fs : FileSystem) (o : Surroundings MSauth XBL XSTS)
    (cred : StoredMicrosoftCredentials MSauth) : Prop :=
  match checked cfg o cred with
  | (Microsoft, some _) => Microsoft = cred.Microsoft
  | (Microsoft, none) =>
      match cfg.authenticate o Microsoft with
      | .error _ => Microsoft = cred.Microsoft
      | .ok (MCa, resauth) =>
          if cfg.file resauth.Name = cfg.file username then
            WriteKeeps cfg cred ⟨Microsoft, MCa, resauth.UUID⟩ o.write
          else
            Microsoft = cred.Microsoft ∧
              (Completes cfg fs (cfg.file resauth.Name) ⟨Microsoft, MCa, resauth.UUID⟩ o.write →
                MCa.Token = cred.Minecraft.Token)

/-- If the call refreshes, the refresh loses nothing. -/
def Keeps (a : Account MSauth) (o : Surroundings MSauth XBL XSTS) : Prop :=
  ∀ cred, refreshing cfg username a.fs o = some cred → RefreshKeeps cfg username a.fs o cred

/-! ### One call -/

/-- The latest credentials are those in the user's file, if any. -/
structure Stored (a : Account MSauth) : Prop where
  latest : a.latest =
    (cfg.ReadCredentials a.fs (cfg.file username)).toOption.map (·.Microsoft)
  returned : ∀ t, a.returned = some t → ∃ cred,
    cfg.ReadCredentials a.fs (cfg.file username) = .ok cred ∧ cred.Minecraft.Token = t

variable {cfg username} {a : Account MSauth} {o : Surroundings MSauth XBL XSTS}
  {cred written : StoredMicrosoftCredentials MSauth} {token : MSauth}

theorem stored_start (fs : FileSystem) : Stored cfg username (Account.start cfg username fs) :=
  ⟨rfl, fun t none_ => by cases none_⟩

theorem Stored.nothingLost (stored : Stored cfg username a) : NothingLost cfg username a := by
  intro token known
  rw [stored.latest] at known
  cases read : cfg.ReadCredentials a.fs (cfg.file username) with
  | error err =>
      rw [read] at known
      cases known
  | ok cred =>
      rw [read] at known
      refine ⟨cred, rfl, Option.some.inj known, fun t returned => ?_⟩
      obtain ⟨cred', read', same⟩ := stored.returned t returned
      rw [read] at read'
      cases read'
      exact same

theorem NothingLost.stored (nothing : NothingLost cfg username a) (known : a.latest = some token) :
    Stored cfg username a := by
  obtain ⟨cred, read, same, returned⟩ := nothing token known
  refine ⟨?_, fun t just => ⟨cred, read, returned t just⟩⟩
  rw [known, read, ← same]
  rfl

/-- What it takes if the file can be read. -/
theorem nothingLost_iff (known : a.latest = some token)
    (read : cfg.ReadCredentials a.fs (cfg.file username) = .ok cred) :
    NothingLost cfg username a ↔
      token = cred.Microsoft ∧ ∀ t, a.returned = some t → t = cred.Minecraft.Token := by
  constructor
  · intro nothing
    obtain ⟨cred', read', same, returned⟩ := nothing token known
    rw [read] at read'
    cases read'
    exact ⟨same.symm, fun t just => (returned t just).symm⟩
  · rintro ⟨same, returned⟩ token' known'
    rw [known] at known'
    cases known'
    exact ⟨cred, read, same.symm, fun t just => (returned t just).symm⟩

theorem ReadCredentials_of_refreshing (found : refreshing cfg username a.fs o = some cred) :
    cfg.read a.fs username o = .ok cred ∧ Setting.expired cred o.now = true ∧
      cfg.ReadCredentials a.fs (cfg.file username) = .ok cred := by
  unfold refreshing at found
  split at found
  · cases found
  · rename_i s read
    split at found
    · rename_i late
      cases found
      refine ⟨read, late, ?_⟩
      unfold Setting.read at read
      split at read
      · cases read
      · exact read
    · cases found

/-- The profile is returned with the token for which it was fetched. -/
theorem asTk_of_authenticate {microsoft : MSauth} {MCa : MCauth} {resauth : BotAuth}
    (answered : cfg.authenticate o microsoft = .ok (MCa, resauth)) : resauth.AsTk = MCa.Token := by
  have bound : ∀ {α β : Type} {x : Except String α} {f : α → Except String β} {y : β},
      x >>= f = .ok y → ∃ z, f z = .ok y := by
    intro α β x f y whole
    cases x with
    | error err => cases whole
    | ok z => exact ⟨z, whole⟩
  obtain ⟨XBLa, answered⟩ := bound answered
  obtain ⟨XSTSa, answered⟩ := bound answered
  obtain ⟨MCa', answered⟩ := bound answered
  obtain ⟨profile, answered⟩ := bound answered
  cases answered
  rfl

/-- A write has no error exactly if it completes. -/
theorem WriteCredentials_eq_none_iff {fs : FileSystem} {path : Path.Place}
    {outcome : Outcome (List UInt8)} :
    (cfg.WriteCredentials fs path written outcome).1 = none ↔
      Completes cfg fs path written outcome := by
  unfold Setting.WriteCredentials Completes
  split
  · rename_i text failed
    rw [failed]
    constructor
    · intro none_
      cases none_
    · rintro ⟨⟨filebytes, encoded⟩, -⟩
      cases encoded
  · rename_i filebytes encoded
    dsimp only
    rw [Option.map_eq_none_iff, FileSystem.WriteFile_eq_none_iff]
    exact ⟨fun allowed => ⟨⟨filebytes, encoded⟩, allowed⟩, fun completes => completes.2⟩

/-- A refresh returns the token of the profile exactly if its write completes. -/
theorem tokenOf_written_iff {fs : FileSystem} {path : Path.Place} {outcome : Outcome (List UInt8)}
    {resauth : BotAuth} {t : String} :
    tokenOf (some resauth, (cfg.WriteCredentials fs path written outcome).1) = some t ↔
      Completes cfg fs path written outcome ∧ t = resauth.AsTk := by
  rw [← WriteCredentials_eq_none_iff]
  cases (cfg.WriteCredentials fs path written outcome).1 with
  | none => simp [tokenOf, eq_comm]
  | some err => simp [tokenOf]

/-- The file that is written over: what is read from it afterwards has the Microsoft credentials
exactly if the write keeps them, and the Minecraft token if the write completes. -/
theorem nothingLost_write_iff (roundTrips : cfg.enc.RoundTrips)
    (read : cfg.ReadCredentials a.fs (cfg.file username) = .ok cred)
    {outcome : Outcome (List UInt8)} {next : Account MSauth}
    (fs : next.fs = (cfg.WriteCredentials a.fs (cfg.file username) written outcome).2)
    (latest : next.latest = some written.Microsoft)
    (returned : ∀ t, next.returned = some t →
      Completes cfg a.fs (cfg.file username) written outcome ∧ t = written.Minecraft.Token) :
    NothingLost cfg username next ↔ WriteKeeps cfg cred written outcome := by
  have readAfter := ReadCredentials_write_same read written outcome
  rw [← fs] at readAfter
  unfold WriteKeeps
  -- With an error no token is returned.
  have failed : ¬ Completes cfg a.fs (cfg.file username) written outcome →
      ∀ t, next.returned ≠ some t := fun incomplete t just =>
    incomplete (returned t just).1
  cases encoded : cfg.enc.marshal written with
  | error text =>
      rw [encoded] at readAfter
      rw [nothingLost_iff latest readAfter]
      refine and_iff_left fun t just => absurd just (failed ?_ t)
      rintro ⟨⟨filebytes, encoded'⟩, -⟩
      rw [encoded] at encoded'
      cases encoded'
  | ok filebytes =>
      rw [encoded] at readAfter
      rcases outcome with _ | ⟨err, _ | left⟩
      · dsimp only at readAfter ⊢
        rw [decode_marshal roundTrips encoded] at readAfter
        rw [nothingLost_iff latest readAfter]
        exact iff_of_true ⟨rfl, fun t just => (returned t just).2⟩ trivial
      · dsimp only at readAfter ⊢
        rw [nothingLost_iff latest readAfter]
        exact and_iff_left fun t just => absurd just (failed (fun completes => by
          cases completes.2.2) t)
      · dsimp only at readAfter ⊢
        constructor
        · intro nothing
          obtain ⟨kept, read, same, -⟩ := nothing _ latest
          exact ⟨kept, decode_eq_ok.mp (readAfter.symm.trans read), same⟩
        · rintro ⟨kept, decoded, same⟩
          rw [decode_eq_ok.mpr decoded] at readAfter
          refine (nothingLost_iff latest readAfter).mpr ⟨same.symm, fun t just => ?_⟩
          exact absurd just (failed (fun completes => by cases completes.2.2) t)

section Call

variable [DecidableEq MSauth]

/-- A refresh begins with the latest credentials. -/
theorem latestAfter_refreshing (stored : Stored cfg username a)
    (found : refreshing cfg username a.fs o = some cred) :
    latestAfter cfg username a o = some (checked cfg o cred).1 := by
  obtain ⟨-, -, read⟩ := ReadCredentials_of_refreshing found
  unfold latestAfter
  rw [found]
  dsimp only
  split
  · rename_i same
    rw [same, stored.latest, read]
    rfl
  · rfl

/-- A call that refreshes nothing leaves the file alone and returns the stored token, if any. -/
theorem Stored.call_unrefreshed (stored : Stored cfg username a)
    (none_ : refreshing cfg username a.fs o = none) : Stored cfg username (call cfg username a o) := by
  have latest : latestAfter cfg username a o = a.latest := by
    unfold latestAfter
    rw [none_]
  unfold call Setting.GetAuthForUsername
  unfold refreshing at none_
  cases read : cfg.read a.fs username o with
  | error err =>
      dsimp only
      rw [latest]
      exact ⟨stored.latest, fun t just => by cases just⟩
  | ok s =>
      rw [read] at none_
      dsimp only at none_ ⊢
      split at none_
      · cases none_
      · rename_i valid
        rw [if_neg valid, latest]
        refine ⟨stored.latest, fun t just => ⟨s, ?_, Option.some.inj just⟩⟩
        unfold Setting.read at read
        split at read
        · cases read
        · exact read

/-- A refresh loses nothing exactly under the condition. -/
theorem nothingLost_call_iff (roundTrips : cfg.enc.RoundTrips) (stored : Stored cfg username a)
    (found : refreshing cfg username a.fs o = some cred) :
    NothingLost cfg username (call cfg username a o) ↔ RefreshKeeps cfg username a.fs o cred := by
  obtain ⟨begun, late, read⟩ := ReadCredentials_of_refreshing found
  have latest := latestAfter_refreshing stored found
  -- Without a write the file is as it was.
  have unwritten : ∀ {next : Account MSauth}, next.fs = a.fs →
      next.latest = some (checked cfg o cred).1 → next.returned = none →
        (NothingLost cfg username next ↔
          (checked cfg o cred).1 = cred.Microsoft) := by
    intro next fs known none_
    rw [← fs] at read
    rw [nothingLost_iff known read, none_]
    exact and_iff_left fun t just => by cases just
  unfold call Setting.GetAuthForUsername RefreshKeeps
  rw [begun, latest]
  dsimp only
  rw [if_pos late]
  have firstStep : o.CheckRefreshMS cred.Microsoft cfg.manager.AppID = checked cfg o cred := rfl
  rw [firstStep]
  rcases refreshed : checked cfg o cred with ⟨microsoft, _ | err⟩
  · rw [refreshed] at unwritten
    dsimp only
    cases answered : cfg.authenticate o microsoft with
    | error err => exact unwritten rfl rfl rfl
    | ok answer =>
        obtain ⟨MCa, resauth⟩ := answer
        have token := asTk_of_authenticate answered
        dsimp only
        by_cases same : cfg.file resauth.Name = cfg.file username
        · rw [if_pos same, same]
          refine nothingLost_write_iff roundTrips read rfl rfl fun t just => ?_
          obtain ⟨completes, isToken⟩ := tokenOf_written_iff.mp just
          exact ⟨completes, isToken.trans token⟩
        · have kept := ReadCredentials_write_other read same ⟨microsoft, MCa, resauth.UUID⟩ o.write
          rw [if_neg same]
          refine Iff.trans (nothingLost_iff rfl kept) (and_congr_right' ?_)
          constructor
          · intro tokens completes
            exact tokens MCa.Token (tokenOf_written_iff.mpr ⟨completes, token.symm⟩)
          · intro tokens t just
            obtain ⟨completes, isToken⟩ := tokenOf_written_iff.mp just
            exact (isToken.trans token).trans (tokens completes)
  · rw [refreshed] at unwritten
    exact unwritten rfl rfl rfl

theorem Stored.preserved (roundTrips : cfg.enc.RoundTrips) (stored : Stored cfg username a)
    (keeps : Keeps cfg username a o) : Stored cfg username (call cfg username a o) := by
  cases found : refreshing cfg username a.fs o with
  | none => exact stored.call_unrefreshed found
  | some cred =>
      exact ((nothingLost_call_iff roundTrips stored found).mpr (keeps cred found)).stored
        (latestAfter_refreshing stored found)

theorem Stored.breaks (roundTrips : cfg.enc.RoundTrips) (stored : Stored cfg username a)
    (loses : ¬ Keeps cfg username a o) : ¬ NothingLost cfg username (call cfg username a o) := by
  intro nothing
  refine loses fun cred found => ?_
  exact (nothingLost_call_iff roundTrips stored found).mp nothing

/-- Every sequence of calls is a run. -/
theorem exists_runs (cfg : Setting MSauth) (username : String) (start : Account MSauth)
    (calls : List (Surroundings MSauth XBL XSTS)) :
    ∃ final, (authMachine cfg username).Runs start calls final := by
  induction calls using List.reverseRecOn with
  | nil => exact ⟨start, .nil⟩
  | append_singleton calls o inductionHypothesis =>
      obtain ⟨final, run⟩ := inductionHypothesis
      exact ⟨call cfg username final o, .snoc run rfl⟩

/-- Along every sequence of calls, from any files, nothing is ever lost exactly if no refresh loses
anything. -/
theorem nothingLost_iff_keeps (cfg : Setting MSauth) (username : String)
    (roundTrips : cfg.enc.RoundTrips) (fs : FileSystem)
    (calls : List (Surroundings MSauth XBL XSTS)) :
    (authMachine cfg username).ReachesOnly (NothingLost cfg username)
        (Account.start cfg username fs) calls ↔
      (authMachine cfg username).StepsOnly (Keeps cfg username)
        (Account.start cfg username fs) calls := by
  obtain ⟨final, run⟩ := exists_runs cfg username (Account.start cfg username fs) calls
  refine run.reachesOnly_iff Stored.nothingLost ?_ ?_ (stored_start fs)
  · rintro a o next stored keeps ⟨⟩
    exact stored.preserved roundTrips keeps
  · rintro a o next stored loses ⟨⟩
    exact stored.breaks roundTrips loses

end Call

/-! ### Samples -/

/-- Two records, and what `json.Marshal` makes of them. -/
def storedBefore : StoredMicrosoftCredentials String := ⟨"ms1", ⟨"mc1", 1000⟩, "id"⟩

def storedAfter : StoredMicrosoftCredentials String := ⟨"ms2", ⟨"mc2", 9000⟩, "id"⟩

def textBefore : List UInt8 :=
  asciiBytes ("\x7b\"Microsoft\":\"ms1\",\"Minecraft\":\x7b\"Token\":\"mc1\"," ++
    "\"ExpiresAfter\":1000\x7d,\"MinecraftUUID\":\"id\"\x7d")

def textAfter : List UInt8 :=
  asciiBytes ("\x7b\"Microsoft\":\"ms2\",\"Minecraft\":\x7b\"Token\":\"mc2\"," ++
    "\"ExpiresAfter\":9000\x7d,\"MinecraftUUID\":\"id\"\x7d")

def sampleEncoding : Encoding String where
  marshal cred :=
    if cred = storedBefore then .ok textBefore
    else if cred = storedAfter then .ok textAfter
    else .error "json: unsupported value"
  unmarshal filebytes :=
    if filebytes = textBefore then .ok storedBefore
    else if filebytes = textAfter then .ok storedAfter
    else .error "unexpected end of JSON input"

theorem sampleEncoding_roundTrips : sampleEncoding.RoundTrips where
  stored cred b encoded := by
    unfold sampleEncoding at encoded ⊢
    dsimp only at encoded ⊢
    split at encoded
    · rename_i before
      cases encoded
      rw [before, if_pos rfl]
    · split at encoded
      · rename_i after
        cases encoded
        have differ : textAfter ≠ textBefore := by decide +kernel
        rw [after, if_neg differ, if_pos rfl]
      · cases encoded

def sampleSetting : Setting String where
  manager := ⟨"auth", "app"⟩
  workingDir := ["srv".toList]
  enc := sampleEncoding
  AccessToken := id

/-- One file. -/
def sampleFiles : FileSystem := fun p =>
  if p = ["notch.json".toList, "auth".toList, "srv".toList] then some (.file textBefore)
  else none

/-- A refresh by services that all work, of a profile of the given name. -/
def refreshAs (name : String) : Surroundings String Unit Unit where
  CheckRefreshMS _ _ := ("ms2", none)
  AuthXBL _ := .ok ()
  AuthXSTS _ := .ok ()
  AuthMC _ := .ok ⟨"mc2", 9000⟩
  GetMCprofile _ := .ok ⟨name, "id", ""⟩
  now := 2000
  readFails := none
  write := .done

/-- One in which `AuthXBL` fails after the credentials have been replaced. -/
def refreshFails : Surroundings String Unit Unit :=
  { refreshAs "notch" with AuthXBL := fun _ => .error "service unavailable" }

theorem sample_refreshing (o : Surroundings String Unit Unit) (late : o.now = 2000)
    (readable : o.readFails = none) :
    refreshing sampleSetting "notch" sampleFiles o = some storedBefore := by
  have read : sampleSetting.ReadCredentials sampleFiles (sampleSetting.file "notch") =
      .ok storedBefore := by rfl
  unfold refreshing Setting.read
  rw [readable]
  dsimp only
  rw [read, late]
  rfl

/-- A refresh under the user's own name. -/
theorem nothingLost_ownName :
    (authMachine sampleSetting "notch").ReachesOnly (NothingLost sampleSetting "notch")
      (Account.start sampleSetting "notch" sampleFiles) [refreshAs "notch"] := by
  refine (nothingLost_iff_keeps sampleSetting "notch" sampleEncoding_roundTrips sampleFiles
    [refreshAs "notch"]).mpr (Machine.stepsOnly_of_meetsSteps ⟨?_, trivial⟩)
  intro cred found
  obtain rfl := Option.some.inj ((sample_refreshing (refreshAs "notch") rfl rfl).symm.trans found)
  have answered : sampleSetting.authenticate (refreshAs "notch") "ms2" =
      .ok (⟨"mc2", 9000⟩, ⟨"notch", "id", "mc2"⟩) := rfl
  unfold RefreshKeeps checked
  dsimp only [refreshAs] at answered ⊢
  rw [answered]
  dsimp only
  rw [if_pos rfl]
  trivial

/-- What the call leaves is not what was obtained last. -/
theorem not_nothingLost_after {o : Surroundings String Unit Unit}
    {cred : StoredMicrosoftCredentials String} {token : String}
    (read : sampleSetting.ReadCredentials
      (call sampleSetting "notch" (.start sampleSetting "notch" sampleFiles) o).fs
        (sampleSetting.file "notch") = .ok cred)
    (latest : (call sampleSetting "notch"
      (.start sampleSetting "notch" sampleFiles) o).latest = some token)
    (differs : token ≠ cred.Microsoft) :
    ¬ (authMachine sampleSetting "notch").ReachesOnly (NothingLost sampleSetting "notch")
      (Account.start sampleSetting "notch" sampleFiles) [o] := by
  intro reaches
  have nothing := reaches [o] List.prefix_rfl _ (.snoc .nil rfl)
  exact differs ((nothingLost_iff latest read).mp nothing).1

/-- The credentials that were obtained are lost when a later service fails, and when the profile's
name has another spelling. -/
theorem obtained_credentials_lost :
    (sampleSetting.ReadCredentials sampleFiles (sampleSetting.file "notch") = .ok storedBefore ∧
      (sampleSetting.GetAuthForUsername sampleFiles "notch" refreshFails).1 =
        (none, some (.service "service unavailable")) ∧
      ¬ (authMachine sampleSetting "notch").ReachesOnly (NothingLost sampleSetting "notch")
        (Account.start sampleSetting "notch" sampleFiles) [refreshFails]) ∧
    (sampleSetting.GetAuthForUsername sampleFiles "notch" (refreshAs "Notch")).1 =
        (some ⟨"Notch", "id", "mc2"⟩, none) ∧
      ¬ (authMachine sampleSetting "notch").ReachesOnly (NothingLost sampleSetting "notch")
        (Account.start sampleSetting "notch" sampleFiles) [refreshAs "Notch"] := by
  refine ⟨⟨by rfl, by rfl, @not_nothingLost_after refreshFails storedBefore "ms2" (by rfl)
    (by decide +kernel) (by decide)⟩, by rfl, @not_nothingLost_after (refreshAs "Notch")
    storedBefore "ms2" (by rfl) (by decide +kernel) (by decide)⟩

end WebChunk.Credentials
