import WebChunk.Storages.Agreement

/-!
# Does the lookup of a world depend on the order of the storages?

A range loop may meet the storages in any order, and `GetWorldStorage` ends at the first one that
knows the world or that fails.
-/

namespace WebChunk.Storages

open WebChunk.Go

variable {St : Type} (storages : Map String (Storage St)) (st : St) (wname : String)

/-- An initialised driver has the world. -/
def HasWorld (driver : ChunkStorage St) (w : SWorld) : Prop :=
  (∃ name, driverOf storages name = some driver) ∧ driver.GetWorld st wname = (some w, none)

/-- The call of some initialised driver fails. -/
def SomeFails : Prop :=
  ∃ name driver w err, driverOf storages name = some driver ∧
    driver.GetWorld st wname = (w, some err)

/-- The lookup finds the same in every order, and a world that some driver has; so both ingest
paths send its chunks to one storage. -/
structure OrderIndependent : Prop where
  same : ∀ first second : storages.RangeOrder,
    (GetWorldStorage storages st wname first.order).1 =
        (GetWorldStorage storages st wname second.order).1 ∧
      (GetWorldStorage storages st wname first.order).2.1 =
        (GetWorldStorage storages st wname second.order).2.1
  found : ∀ {driver w}, HasWorld storages st wname driver w → ∀ order : storages.RangeOrder,
    ∃ driver w, HasWorld storages st wname driver w ∧
      GetWorldStorage storages st wname order.order = (some w, some driver, none)
  routed : ∀ {driver w}, HasWorld storages st wname driver w →
    ∃ w target, ∀ (pref place : String) (lookup fallback : storages.RangeOrder)
      (x : Session St), x.st = st →
        (apiWorldStorage storages pref lookup.order fallback.order wname place x).1 = .ok target ∧
        (consumerWorldStorage storages pref lookup.order fallback.order wname x).1 =
          some (w, target)

variable {storages st wname}

/-! ### One order -/

theorem mem_keys_of_driverOf {name : String} {driver : ChunkStorage St}
    (initialised : driverOf storages name = some driver) : name ∈ storages.keys := by
  rw [storages.mem_keys]
  cases stored : storages.get name with
  | none => simp [driverOf, stored] at initialised
  | some s => rfl

/-- The first driver decides if it has the world or fails. -/
theorem GetWorldStorage_cons {name : String} {rest : List String} {driver : ChunkStorage St}
    (initialised : driverOf storages name = some driver) :
    (∀ w, driver.GetWorld st wname = (some w, none) →
        GetWorldStorage storages st wname (name :: rest) = (some w, some driver, none)) ∧
      ∀ w err, driver.GetWorld st wname = (w, some err) →
        GetWorldStorage storages st wname (name :: rest) = (none, none, some err) := by
  constructor
  · intro w known
    rw [GetWorldStorage, initialised]
    dsimp only
    rw [known]
  · intro w err failed
    rw [GetWorldStorage, initialised]
    dsimp only
    rw [failed]

theorem someFails_of_GetWorldStorage {order : List String} {w : Option SWorld}
    {s : Option (ChunkStorage St)} {err : StorageError}
    (failed : GetWorldStorage storages st wname order = (w, s, some err)) :
    SomeFails storages st wname := by
  induction order with
  | nil => cases failed
  | cons name rest inductionHypothesis =>
      unfold GetWorldStorage at failed
      split at failed
      · exact inductionHypothesis failed
      · rename_i driver initialised
        split at failed
        · rename_i w' err' failing
          exact ⟨name, driver, w', err', initialised, failing⟩
        · cases failed
        · exact inductionHypothesis failed

/-- Where no driver fails, a world that some driver has is found. -/
theorem found_of_not_someFails (noFailure : ¬ SomeFails storages st wname)
    {driver : ChunkStorage St} {w : SWorld} (known : HasWorld storages st wname driver w)
    (order : storages.RangeOrder) :
    ∃ driver w, HasWorld storages st wname driver w ∧
      GetWorldStorage storages st wname order.order = (some w, some driver, none) := by
  have result := lookupResult storages st wname order.order
  generalize looked : GetWorldStorage storages st wname order.order = found at result ⊢
  cases result with
  | found _ driver known => exact ⟨_, _, ⟨⟨_, driver⟩, known⟩, rfl⟩
  | failed err => exact absurd (someFails_of_GetWorldStorage looked) noFailure
  | nowhere unknown =>
      obtain ⟨⟨name, initialised⟩, known⟩ := known
      have listed := (order.mem_order name).mpr (mem_keys_of_driverOf initialised)
      rw [unknown name listed driver initialised] at known
      cases known

/-- Where no driver has the world, no world and no driver is found. -/
theorem nothing_of_unknown (unknown : ∀ driver w, ¬ HasWorld storages st wname driver w)
    (order : List String) :
    (GetWorldStorage storages st wname order).1 = none ∧
      (GetWorldStorage storages st wname order).2.1 = none := by
  have result := lookupResult storages st wname order
  generalize GetWorldStorage storages st wname order = found at result ⊢
  cases result with
  | found _ driver known => exact absurd ⟨⟨_, driver⟩, known⟩ (unknown _ _)
  | failed err => exact ⟨rfl, rfl⟩
  | nowhere _ => exact ⟨rfl, rfl⟩

/-- What both ingest paths make of a world that is found. -/
theorem routed_of_found {order : List String} {driver : ChunkStorage St} {w : SWorld}
    (found : GetWorldStorage storages st wname order = (some w, some driver, none))
    (pref place : String) (fallback : List String) {x : Session St} (here : x.st = st) :
    (apiWorldStorage storages pref order fallback wname place x).1 = .ok driver ∧
      (consumerWorldStorage storages pref order fallback wname x).1 = some (w, driver) := by
  subst here
  constructor
  · simp [apiWorldStorage, Session.getWorldStorage, found]
  · simp [consumerWorldStorage, Session.getWorldStorage, found]

/-! ### All orders -/

/-- The lookup is independent of the order exactly when no driver has the world, or none fails
and all that have it agree. -/
theorem getWorldStorage_orderIndependent_iff (storages : Map String (Storage St)) (st : St)
    (wname : String) :
    OrderIndependent storages st wname ↔
      (∀ driver w, ¬ HasWorld storages st wname driver w) ∨
        ¬ SomeFails storages st wname ∧
          ∀ driver w driver' w', HasWorld storages st wname driver w →
            HasWorld storages st wname driver' w' → driver = driver' ∧ w = w' := by
  constructor
  · intro independent
    by_cases unknown : ∀ driver w, ¬ HasWorld storages st wname driver w
    · exact .inl unknown
    · right
      simp only [not_forall, not_not] at unknown
      obtain ⟨driver, w, known⟩ := unknown
      constructor
      · rintro ⟨name, failing, w', err, initialised, failed⟩
        obtain ⟨order, rest, first⟩ :=
          storages.exists_order_from (mem_keys_of_driverOf initialised)
        obtain ⟨_, _, _, found⟩ := independent.found known order
        rw [first, (GetWorldStorage_cons initialised).2 w' err failed] at found
        cases found
      · rintro driver w driver' w' ⟨⟨name, initialised⟩, known⟩ ⟨⟨name', initialised'⟩, known'⟩
        obtain ⟨order, rest, first⟩ :=
          storages.exists_order_from (mem_keys_of_driverOf initialised)
        obtain ⟨order', rest', first'⟩ :=
          storages.exists_order_from (mem_keys_of_driverOf initialised')
        have same := independent.same order order'
        rw [first, first', (GetWorldStorage_cons initialised).1 w known,
          (GetWorldStorage_cons initialised').1 w' known'] at same
        exact ⟨Option.some.inj same.2, Option.some.inj same.1⟩
  · rintro (unknown | ⟨noFailure, agree⟩)
    · refine ⟨fun first second => ?_, fun known => absurd known (unknown _ _),
        fun known => absurd known (unknown _ _)⟩
      obtain ⟨noWorld, noDriver⟩ := nothing_of_unknown unknown first.order
      obtain ⟨noWorld', noDriver'⟩ := nothing_of_unknown unknown second.order
      exact ⟨noWorld.trans noWorld'.symm, noDriver.trans noDriver'.symm⟩
    · have found : ∀ {driver w}, HasWorld storages st wname driver w →
          ∀ order : storages.RangeOrder,
            GetWorldStorage storages st wname order.order = (some w, some driver, none) := by
        intro driver w known order
        obtain ⟨driver', w', known', looked⟩ := found_of_not_someFails noFailure known order
        obtain ⟨rfl, rfl⟩ := agree _ _ _ _ known known'
        exact looked
      refine ⟨fun first second => ?_, fun known order => ⟨_, _, known, found known order⟩,
        fun known => ⟨_, _, fun pref place lookup fallback x here =>
          routed_of_found (found known lookup) pref place fallback.order here⟩⟩
      by_cases unknown : ∀ driver w, ¬ HasWorld storages st wname driver w
      · obtain ⟨noWorld, noDriver⟩ := nothing_of_unknown unknown first.order
        obtain ⟨noWorld', noDriver'⟩ := nothing_of_unknown unknown second.order
        exact ⟨noWorld.trans noWorld'.symm, noDriver.trans noDriver'.symm⟩
      · simp only [not_forall, not_not] at unknown
        obtain ⟨driver, w, known⟩ := unknown
        rw [found known first, found known second]
        exact ⟨rfl, rfl⟩

/-- A storage whose database is down, and one that has the world. -/
def halfDownStorages : Map String (Storage Shelf) :=
  (Map.empty.set "database"
    ⟨some { shelfStorage with GetWorld := fun _ _ => (none, some (.other "down")) }⟩).set "files"
      ⟨some shelfStorage⟩

/-- The world is there, and is found in one of the two orders. -/
theorem world_lost_in_one_order :
    ∃ first second : halfDownStorages.RangeOrder,
      GetWorldStorage halfDownStorages { worlds := [⟨"w", "", ""⟩] } "w" first.order =
        (none, none, some (.other "down")) ∧
      GetWorldStorage halfDownStorages { worlds := [⟨"w", "", ""⟩] } "w" second.order =
        (some ⟨"w", "", ""⟩, some shelfStorage, none) ∧
      ¬ OrderIndependent halfDownStorages { worlds := [⟨"w", "", ""⟩] } "w" := by
  have keys : ∀ key, key ∈ halfDownStorages.keys ↔ key = "files" ∨ key = "database" := by
    intro key
    simp [halfDownStorages, Map.set, Map.empty]
  have lost : GetWorldStorage halfDownStorages { worlds := [⟨"w", "", ""⟩] } "w"
      ["database", "files"] = (none, none, some (.other "down")) := rfl
  have found : GetWorldStorage halfDownStorages { worlds := [⟨"w", "", ""⟩] } "w"
      ["files", "database"] = (some ⟨"w", "", ""⟩, some shelfStorage, none) := rfl
  let first : halfDownStorages.RangeOrder :=
    ⟨["database", "files"], by decide, fun key => by simp [keys, or_comm]⟩
  let second : halfDownStorages.RangeOrder :=
    ⟨["files", "database"], by decide, fun key => by simp [keys]⟩
  refine ⟨first, second, lost, found, fun independent => ?_⟩
  have known : HasWorld halfDownStorages { worlds := [⟨"w", "", ""⟩] } "w" shelfStorage
      ⟨"w", "", ""⟩ := ⟨⟨"files", rfl⟩, rfl⟩
  obtain ⟨_, _, _, looked⟩ := independent.found known first
  cases lost.symm.trans looked

end WebChunk.Storages
