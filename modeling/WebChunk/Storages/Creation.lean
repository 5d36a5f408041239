import WebChunk.Storages.Driver

/-!
# Adding worlds and dimensions

`apiAddWorld` and `apiAddDimension`. Names come from a form; all that is asked of them is that a
regular expression without anchors matches somewhere.
-/

namespace WebChunk.Storages

open WebChunk.Go

/-- The class `[\-a-zA-Z0-9.]`. -/
def nameChar (char : Char) : Bool := char == '-' || char.isAlphanum || char == '.'

/-- `Match` of `[\-a-zA-Z0-9.]+`: one character of the class, wherever it stands, is a match. -/
def nameMatch (name : String) : Bool := name.toList.any nameChar

def worldNameRegexp (name : String) : Bool := nameMatch name

def worldIPRegexp (ip : String) : Bool := nameMatch ip

def dimNameRegexp (name : String) : Bool := nameMatch name

/-- `marshalOrFail`, of what `json.Marshal` returned. -/
def marshalOrFail (code : Nat) : Except String String → Nat × String
  | .error err => (500, "JSON serialization failed: " ++ err)
  | .ok resp => (code, resp ++ "\n")

variable {St : Type} (storages : Map String (Storage St))

/-- `apiAddWorld`; `none` is a form that cannot be parsed. -/
def apiAddWorld (marshal : SWorld → Except String String) (form : Option (String → String))
    (x : Session St) : (Nat × String) × Session St :=
  match form with
  | none => ((400, "Unable to parse form parameters"), x)
  | some formValue =>
      let name := formValue "name"
      let ip := formValue "ip"
      if !worldNameRegexp name then ((400, "Invalid world name"), x)
      else if !worldIPRegexp ip then ((400, "Invalid world ip"), x)
      else
        match driverOf storages (formValue "storage") with
        | none => ((400, "Storage not found or not initialized"), x)
        | some driver =>
            let world : SWorld := ⟨name, name, ip⟩
            match x.addWorld driver world with
            | (some err, x) => ((500, "Failed to add world: " ++ err.text), x)
            | (none, x) => (marshalOrFail 200 (marshal world), x)

/-- `apiAddDimension`; the range loop of the lookup meets the storages in the given order. -/
def apiAddDimension (order : List String) (marshal : SDim → Except String String)
    (form : Option (String → String)) (x : Session St) : (Nat × String) × Session St :=
  match form with
  | none => ((400, "Unable to parse form parameters"), x)
  | some formValue =>
      let tdim : SDim := ⟨formValue "name", formValue "world"⟩
      if !dimNameRegexp tdim.Name then ((400, "Invalid dimension name"), x)
      else if !worldNameRegexp tdim.World then ((400, "Invalid world name"), x)
      else
        match x.getWorldStorage storages tdim.World order with
        | ((_, _, some err), x) => ((500, "Error getting world storage: " ++ err.text), x)
        | ((_, none, none), x) => ((404, "World does not exist"), x)
        | ((_, some s, none), x) =>
            match x.addDimension s tdim.World tdim with
            | (some err, x) => ((500, "Failed to add dimension: " ++ err.text), x)
            | (none, x) => (marshalOrFail 200 (marshal tdim), x)

/-! ### Accepted names -/

/-- Some request has a driver asked to add a world of this name. -/
def WorldAccepted (marshal : SWorld → Except String String) (name : String) : Prop :=
  ∃ form x world err, (apiAddWorld storages marshal form x).2.calls =
    x.calls ++ [.addWorld world err] ∧ world.Name = name

/-- Some request has a driver asked to add a dimension of this name. -/
def DimensionAccepted (order : List String) (marshal : SDim → Except String String)
    (name : String) : Prop :=
  ∃ form x looked wname dim err, (apiAddDimension storages order marshal form x).2.calls =
    x.calls ++ [looked, .addDimension wname dim err] ∧ dim.Name = name

variable {storages}

/-- A world's name is accepted when it matches. -/
theorem worldAccepted_iff {marshal : SWorld → Except String String} {sname : String}
    {driver : ChunkStorage St} (st : St) (initialised : driverOf storages sname = some driver)
    (name : String) : WorldAccepted storages marshal name ↔ worldNameRegexp name := by
  constructor
  · rintro ⟨form, x, world, err, asked, rfl⟩
    unfold apiAddWorld at asked
    split at asked
    · simp at asked
    · rename_i formValue
      dsimp only at asked
      split at asked
      · simp at asked
      · rename_i matched
        split at asked
        · simp at asked
        · split at asked
          · simp at asked
          · rename_i target _
            obtain ⟨err', st', -, added⟩ := x.addWorld_eq target
              ⟨formValue "name", formValue "name", formValue "ip"⟩
            rw [added] at asked
            have named : world.Name = formValue "name" := by
              cases err' <;> simp [Session.log] at asked <;> rw [← asked.1]
            rw [named]
            simpa using matched
  · intro matched
    obtain ⟨formValue, named, address, chosen⟩ : ∃ formValue : String → String,
        formValue "name" = name ∧ formValue "ip" = "-" ∧ formValue "storage" = sname :=
      ⟨fun key => if key = "name" then name else if key = "ip" then "-" else sname, rfl, rfl, rfl⟩
    obtain ⟨err, st', -, added⟩ := Session.addWorld_eq ⟨st, []⟩ driver ⟨name, name, "-"⟩
    have ip : worldIPRegexp "-" := by decide
    refine ⟨some formValue, ⟨st, []⟩, ⟨name, name, "-"⟩, err, ?_, rfl⟩
    simp only [apiAddWorld, named, address, chosen, matched, ip, initialised, added]
    cases err <;> rfl

/-- A dimension's name is accepted when it matches. -/
theorem dimensionAccepted_iff {order : List String} {marshal : SDim → Except String String}
    {st : St} {wname : String} {w : Option SWorld} {driver : ChunkStorage St}
    (known : GetWorldStorage storages st wname order = (w, some driver, none))
    (named : worldNameRegexp wname) (name : String) :
    DimensionAccepted storages order marshal name ↔ dimNameRegexp name := by
  constructor
  · rintro ⟨form, x, looked, wname, dim, err, asked, rfl⟩
    unfold apiAddDimension at asked
    split at asked
    · simp at asked
    · rename_i formValue
      dsimp only [Session.getWorldStorage] at asked
      split at asked
      · simp at asked
      · rename_i matched
        split at asked
        · simp at asked
        · split at asked
          · rename_i found
            rw [← (Prod.mk.inj found).2] at asked
            simp [Session.log] at asked
          · rename_i found
            rw [← (Prod.mk.inj found).2] at asked
            simp [Session.log] at asked
          · rename_i s x' found
            obtain ⟨err', st', added⟩ := x'.addDimension_eq s (formValue "world")
              ⟨formValue "name", formValue "world"⟩
            rw [added] at asked
            have same : dim.Name = formValue "name" := by
              rw [← (Prod.mk.inj found).2] at asked
              cases err' <;> simp [Session.log] at asked <;> rw [← asked.2.2.1]
            rw [same]
            simpa using matched
  · intro matched
    obtain ⟨formValue, nameField, worldField⟩ : ∃ formValue : String → String,
        formValue "name" = name ∧ formValue "world" = wname :=
      ⟨fun key => if key = "name" then name else wname, rfl, rfl⟩
    obtain ⟨err, st', added⟩ := ((⟨st, []⟩ : Session St).log
      (.getWorldStorage wname w none)).addDimension_eq driver wname ⟨name, wname⟩
    refine ⟨some formValue, ⟨st, []⟩, .getWorldStorage wname w none, wname, ⟨name, wname⟩, err,
      ?_, rfl⟩
    simp only [apiAddDimension, nameField, worldField, matched, named, Session.getWorldStorage,
      known, added]
    cases err <;> rfl

end WebChunk.Storages
