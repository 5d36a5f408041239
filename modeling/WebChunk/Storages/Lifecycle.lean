import Mathlib.Data.Finset.Erase
import WebChunk.Semantics.Machine
import WebChunk.Storages.Driver

/-!
# The life of a storage driver

The map `storages` while it is changed: `apiStorageAdd` and `apiStorageReinit` hold
`storagesLock`, `CloseStorages` and the handlers do not. Drivers are numbered in the order
in which they were made. Of a call it only matters here whether its driver was closed.
-/

namespace WebChunk.Storages

open WebChunk.Go WebChunk.Semantics

/-- `Storage`, with the number of its driver if it has one. -/
structure StorageEntry where
  type : String
  Address : String
  Driver : Option Nat

/-- How `Close` ends. A `Close` that returns an error may leave the driver closed. -/
inductive CloseResult where
  | closes
  | fails (err : StorageError) (closed : Bool)

/-- The driver is closed afterwards. -/
def CloseResult.closed : CloseResult → Bool
  | .closes => true
  | .fails _ closed => closed

/-- `errStorageTypeNotImplemented`. -/
def errStorageTypeNotImplemented : StorageError := .other "storage type not implemented"

/-- `newStorage`; `failure` is the error of the driver's constructor. -/
def newStorage (storageStype : String) (failure : Option StorageError) : Option StorageError :=
  if storageStype = "postgres" ∨ storageStype = "filesystem" then failure
  else some errStorageTypeNotImplemented

/-- Where the one handler that holds `storagesLock` is: `apiStorageReinit` before `Close`,
`newStorage` and `GetStatus`, `apiStorageAdd` before `newStorage` and `GetStatus`. -/
inductive Critical where
  | closing (sname : String) (s : StorageEntry)
  | reopening (sname : String) (s : StorageEntry)
  | rechecking (sname : String) (s : StorageEntry) (d : Nat)
  | opening (name t address : String)
  | checking (name t address : String) (d : Nat)

/-- The map, the drivers and those who use them. `closing` is what `CloseStorages` has still to
visit, `looked` are the drivers that handlers have looked up. -/
structure StoragesState where
  storages : Map String StorageEntry
  made : Nat
  closed : List Nat := []
  critical : Option Critical := none
  closing : Option (Finset String) := none
  looked : List Nat := []
  /-- A method of a closed driver was called. -/
  misused : Bool := false
  responses : List (Nat × String) := []

/-- After `storagesInit`: the configured storages, some of them with a driver. -/
def StoragesState.initial (storages : Map String StorageEntry) (made : Nat) : StoragesState where
  storages := storages
  made := made

inductive StoragesAction where
  | apiStorageReinit (sname : String)
  | close (result : CloseResult)
  | apiStorageAdd (name address t : String)
  | newStorage (failure : Option StorageError)
  | getStatus (result : Except StorageError String)
  | closeStorages
  | closeNext (sn : String) (result : CloseResult)
  | lookUp (sn : String)
  | call (d : Nat)

namespace StoragesState

/-- A handler returns, and `storagesLock` is unlocked. -/
def respond (x : StoragesState) (code : Nat) (text : String) : StoragesState :=
  { x with critical := none, responses := x.responses ++ [(code, text)] }

/-- A method of a driver is called. -/
def use (x : StoragesState) (d : Nat) : StoragesState :=
  { x with misused := x.misused || decide (d ∈ x.closed) }

/-- `Close` of a driver. -/
def closeDriver (x : StoragesState) (d : Nat) (result : CloseResult) : StoragesState :=
  { x.use d with closed := if result.closed then d :: x.closed else x.closed }

/-- `apiStorageReinit` gets the lock and looks the storage up. -/
def apiStorageReinit (x : StoragesState) (sname : String) : Option StoragesState :=
  match x.critical with
  | some _ => none
  | none =>
      match x.storages.get sname with
      | none => some (x.respond 204 "No such storage")
      | some s =>
          match s.Driver with
          | some _ => some { x with critical := some (.closing sname s) }
          | none => some { x with critical := some (.reopening sname s) }

/-- `s.Driver.Close()` in `apiStorageReinit`. -/
def close (x : StoragesState) (result : CloseResult) : Option StoragesState :=
  match x.critical with
  | some (.closing sname s) =>
      match s.Driver with
      | none => none
      | some d =>
          let x := x.closeDriver d result
          match result with
          | .closes => some { x with critical := some (.reopening sname s) }
          | .fails err _ => some (x.respond 500 ("Failed to close storage: " ++ err.text))
  | _ => none

/-- `apiStorageAdd` up to `newStorage`. -/
def apiStorageAdd (x : StoragesState) (name address t : String) : Option StoragesState :=
  match x.critical with
  | some _ => none
  | none =>
      if name = "" then some (x.respond 400 "Empty name")
      else if address = "" then some (x.respond 400 "Empty address")
      else if t = "" then some (x.respond 400 "Empty type")
      else
        match x.storages.get name with
        | some _ => some (x.respond 400 "Storage with that name already exists")
        | none => some { x with critical := some (.opening name t address) }

/-- `newStorage` in either handler. -/
def newStorage (x : StoragesState) (failure : Option StorageError) : Option StoragesState :=
  match x.critical with
  | some (.reopening sname s) =>
      match Storages.newStorage s.type failure with
      | some err => some (x.respond 500 err.text)
      | none =>
          some { x with critical := some (.rechecking sname s x.made), made := x.made + 1 }
  | some (.opening name t address) =>
      match Storages.newStorage t failure with
      | some err =>
          some (x.respond (if err = errStorageTypeNotImplemented then 400 else 500) err.text)
      | none =>
          some { x with critical := some (.checking name t address x.made), made := x.made + 1 }
  | _ => none

/-- `GetStatus` of the new driver, which then goes into the map. -/
def getStatus (x : StoragesState) (result : Except StorageError String) : Option StoragesState :=
  match x.critical with
  | some (.rechecking sname s d) =>
      match result with
      | .error err => some ((x.use d).respond 500 err.text)
      | .ok c =>
          let storages := x.storages.set sname { s with Driver := some d }
          some { (x.use d).respond 200 c with storages := storages }
  | some (.checking name t address d) =>
      match result with
      | .error err => some ((x.use d).respond 500 err.text)
      | .ok ver =>
          some { (x.use d).respond 200 ver with
            storages := x.storages.set name ⟨t, address, some d⟩ }
  | _ => none

/-- `CloseStorages` starts its range loop. -/
def closeStorages (x : StoragesState) : Option StoragesState :=
  match x.closing with
  | some _ => none
  | none => some { x with closing := some x.storages.keys }

/-- One iteration: the entry is a copy, and setting its driver to nil changes nothing in the
map. -/
def closeNext (x : StoragesState) (sn : String) (result : CloseResult) : Option StoragesState :=
  match x.closing with
  | none => none
  | some todo =>
      if sn ∈ todo then
        let x := { x with closing := some (todo.erase sn) }
        match (x.storages.get sn).bind StorageEntry.Driver with
        | some d => some (x.closeDriver d result)
        | none => some x
      else none

/-- A handler finds a driver in the map, without the lock. -/
def lookUp (x : StoragesState) (sn : String) : Option StoragesState :=
  match (x.storages.get sn).bind StorageEntry.Driver with
  | some d => some { x with looked := x.looked ++ [d] }
  | none => none

/-- A handler calls a method of a driver it has looked up. -/
def call (x : StoragesState) (d : Nat) : Option StoragesState :=
  if d ∈ x.looked then some (x.use d) else none

end StoragesState

def storagesStep (x : StoragesState) : StoragesAction → Option StoragesState
  | .apiStorageReinit sname => x.apiStorageReinit sname
  | .close result => x.close result
  | .apiStorageAdd name address t => x.apiStorageAdd name address t
  | .newStorage failure => x.newStorage failure
  | .getStatus result => x.getStatus result
  | .closeStorages => x.closeStorages
  | .closeNext sn result => x.closeNext sn result
  | .lookUp sn => x.lookUp sn
  | .call d => x.call d

/-- The storages map and its users. -/
def storagesMachine : Machine StoragesState StoragesAction := ⟨storagesStep⟩

/-- The map holds no closed driver, and no method of a closed driver was called. -/
structure DriversUsable (x : StoragesState) : Prop where
  held : ∀ sn s d, x.storages.get sn = some s → s.Driver = some d → d ∉ x.closed
  used : x.misused = false

/-- No driver is closed: `Close` in `apiStorageReinit`, which is only called for a storage with
a driver, fails and leaves the driver open, and so does `CloseStorages` at every storage with a
driver. -/
def leavesOpen (x : StoragesState) : StoragesAction → Bool
  | .close result => !result.closed
  | .closeNext sn result =>
      ((x.storages.get sn).bind StorageEntry.Driver).isNone || !result.closed
  | _ => true

/-- Nothing is closed, and `apiStorageReinit` works on a copy of the entry in the map. -/
structure NothingClosed (x : StoragesState) : Prop where
  closed : x.closed = []
  used : x.misused = false
  copy : ∀ sname s, x.critical = some (.closing sname s) → x.storages.get sname = some s

namespace NothingClosed

variable {x next : StoragesState} {action : StoragesAction}

theorem driversUsable (nothing : NothingClosed x) : DriversUsable x :=
  ⟨fun _ _ _ _ _ => by simp [nothing.closed], nothing.used⟩

/-- Using a driver does no harm then. -/
theorem use (nothing : NothingClosed x) (d : Nat) : NothingClosed (x.use d) :=
  { nothing with used := by simp [StoragesState.use, nothing.closed, nothing.used] }

/-- Nothing is closed, and whoever holds the lock needs no copy of an entry. -/
theorem leave (nothing : NothingClosed x) (closed : next.closed = x.closed)
    (used : next.misused = x.misused)
    (elsewhere : ∀ sname s, next.critical ≠ some (.closing sname s)) : NothingClosed next :=
  ⟨closed.trans nothing.closed, used.trans nothing.used,
    fun sname s same => absurd same (elsewhere sname s)⟩

theorem closeDriver (nothing : NothingClosed x) (d : Nat) {result : CloseResult}
    (stays : result.closed = false) : NothingClosed (x.closeDriver d result) :=
  { nothing.use d with closed := by simp [StoragesState.closeDriver, stays, nothing.closed] }

/-- The step lemma. -/
theorem preserved (nothing : NothingClosed x) (leaves : leavesOpen x action = true)
    (transition : storagesStep x action = some next) : NothingClosed next := by
  cases action with
  | apiStorageReinit sname =>
      simp only [storagesStep, StoragesState.apiStorageReinit] at transition
      split at transition
      · cases transition
      · split at transition
        · cases transition
          exact nothing.leave rfl rfl nofun
        · rename_i s found
          split at transition <;> cases transition
          · refine ⟨nothing.closed, nothing.used, fun other s' same => ?_⟩
            cases same
            exact found
          · exact nothing.leave rfl rfl nofun
  | close result =>
      have stays : result.closed = false := by simpa [leavesOpen] using leaves
      simp only [storagesStep, StoragesState.close] at transition
      split at transition
      · split at transition
        · cases transition
        · split at transition <;> cases transition
          · cases stays
          · exact (nothing.closeDriver _ stays).leave rfl rfl nofun
      · cases transition
  | apiStorageAdd name address t =>
      simp only [storagesStep, StoragesState.apiStorageAdd] at transition
      split at transition
      · cases transition
      · split at transition
        · cases transition
          exact nothing.leave rfl rfl nofun
        · split at transition
          · cases transition
            exact nothing.leave rfl rfl nofun
          · split at transition
            · cases transition
              exact nothing.leave rfl rfl nofun
            · split at transition <;> cases transition <;> exact nothing.leave rfl rfl nofun
  | newStorage failure =>
      simp only [storagesStep, StoragesState.newStorage] at transition
      split at transition
      · split at transition <;> cases transition <;> exact nothing.leave rfl rfl nofun
      · split at transition <;> cases transition <;> exact nothing.leave rfl rfl nofun
      · cases transition
  | getStatus result =>
      simp only [storagesStep, StoragesState.getStatus] at transition
      split at transition
      · split at transition <;> cases transition <;> exact (nothing.use _).leave rfl rfl nofun
      · split at transition <;> cases transition <;> exact (nothing.use _).leave rfl rfl nofun
      · cases transition
  | closeStorages =>
      simp only [storagesStep, StoragesState.closeStorages] at transition
      split at transition <;> cases transition
      exact ⟨nothing.closed, nothing.used, nothing.copy⟩
  | closeNext sn result =>
      simp only [storagesStep, StoragesState.closeNext] at transition
      split at transition
      · cases transition
      · rename_i todo _
        split at transition
        · have visited : NothingClosed { x with closing := some (todo.erase sn) } :=
            ⟨nothing.closed, nothing.used, nothing.copy⟩
          split at transition <;> cases transition
          · rename_i d driver
            exact visited.closeDriver d (by simpa [leavesOpen, driver] using leaves)
          · exact visited
        · cases transition
  | lookUp sn =>
      simp only [storagesStep, StoragesState.lookUp] at transition
      split at transition <;> cases transition
      exact ⟨nothing.closed, nothing.used, nothing.copy⟩
  | call d =>
      simp only [storagesStep, StoragesState.call, Option.ite_none_right_eq_some,
        Option.some.injEq] at transition
      obtain ⟨_, rfl⟩ := transition
      exact nothing.use d

/-- A driver that is closed is still in the map. -/
theorem breaks (nothing : NothingClosed x) (closes : ¬ leavesOpen x action = true)
    (transition : storagesStep x action = some next) : ¬ DriversUsable next := by
  cases action with
  | close result =>
      have closed : result.closed = true := by simpa [leavesOpen] using closes
      simp only [storagesStep, StoragesState.close] at transition
      split at transition
      · rename_i sname s critical
        have stored := nothing.copy sname s critical
        split at transition
        · cases transition
        · rename_i d driver
          intro usable
          have member : d ∈ (x.closeDriver d result).closed := by
            simp [StoragesState.closeDriver, closed]
          split at transition <;> cases transition <;>
            exact usable.held sname s d stored driver member
      · cases transition
  | closeNext sn result =>
      simp only [leavesOpen, Bool.or_eq_true, Option.isNone_iff_eq_none, Bool.not_eq_true', not_or,
        Bool.not_eq_false] at closes
      obtain ⟨there, closed⟩ := closes
      simp only [storagesStep, StoragesState.closeNext] at transition
      split at transition
      · cases transition
      · split at transition
        · split at transition
          · rename_i d driver
            cases transition
            obtain ⟨s, stored, driver⟩ := Option.bind_eq_some_iff.mp driver
            intro usable
            exact usable.held sn s d stored driver (by simp [StoragesState.closeDriver, closed])
          · rename_i absent
            exact absurd absent there
        · cases transition
  | _ => exact absurd rfl closes

end NothingClosed

/-- From any map of configured storages, the drivers stay usable in exactly the runs that close
no driver. -/
theorem driversUsable_iff (storages : Map String StorageEntry) (made : Nat)
    (actions : List StoragesAction) (final : StoragesState)
    (run : storagesMachine.Runs (.initial storages made) actions final) :
    storagesMachine.ReachesOnly DriversUsable (.initial storages made) actions ↔
      storagesMachine.StepsOnly (fun x action => leavesOpen x action = true)
        (.initial storages made) actions :=
  run.reachesOnly_iff NothingClosed.driversUsable NothingClosed.preserved NothingClosed.breaks
    ⟨rfl, rfl, nofun⟩

/-- A storage is reinitialised, its database cannot be reached, and a handler uses it. -/
def reinitFails : List StoragesAction :=
  [.apiStorageReinit "main", .close .closes, .newStorage (some (.other "connection refused")),
    .lookUp "main", .call 0]

/-- The handler calls the driver that `apiStorageReinit` has closed. -/
theorem closed_driver_called : ∃ (storages : Map String StorageEntry) (made : Nat)
    (actions : List StoragesAction) (final : StoragesState),
    storagesMachine.Runs (.initial storages made) actions final ∧ ¬ DriversUsable final := by
  refine ⟨Map.empty.set "main" ⟨"postgres", "postgres://main", some 0⟩, 1, reinitFails, _,
    Machine.runs_exec_get (by decide), fun usable => ?_⟩
  cases usable.used

/-- A storage that could not be initialised at the start is reinitialised, another one is added,
and both are used. -/
def reinitAndAdd : List StoragesAction :=
  [.apiStorageReinit "main", .newStorage none, .getStatus (.ok "PostgreSQL"),
    .apiStorageAdd "second" "./storage" "filesystem", .newStorage none, .getStatus (.ok "ok"),
    .lookUp "main", .call 0, .lookUp "second", .call 1]

theorem driversUsable_reinitAndAdd : storagesMachine.ReachesOnly DriversUsable
    (.initial (Map.empty.set "main" ⟨"postgres", "postgres://main", none⟩) 0) reinitAndAdd :=
  (driversUsable_iff (Map.empty.set "main" ⟨"postgres", "postgres://main", none⟩) 0 reinitAndAdd _
    (Machine.runs_exec_get (by decide))).mpr (Machine.stepsOnly_of_checkSteps (by decide))

end WebChunk.Storages
