import WebChunk.Postgres.Reads
import WebChunk.Storages.Agreement

/-!
# Chunks on their way into the database

The driver behind the interface of the storages, and the two ingest paths over it. Between two
chunks other clients may change the tables and the clock may go on.
-/

namespace WebChunk.Postgres

open WebChunk.Go WebChunk.Storages WebChunk.Sql WebChunk.Semantics

/-- A database with the clock of its server. -/
structure Instance (Time L D : Type) where
  db : Database Time L D
  now : Time

variable {Time L D Chunk Level : Type}

/-- What the driver is given: the order in which its server sends rows, the level data and the
dimension type of a new world and dimension, the texts of refusals and the reader of a chunk. -/
structure PostgresChunkStorage (Time L D : Type) [LinearOrder Time] where
  server : PgServer Time
  counts : CountServer
  CreateDefaultLevelData : String → L
  GuessDimTypeFromName : String → D
  text : Refusal → String
  ConvFlexibleNBTtoSave : Bytes → Except String SaveChunk

/-- `DBPool.Exec`. -/
def Instance.exec (st : Instance Time L D) (text : Refusal → String)
    (statement : Statement Time L D) : Option StorageError × Instance Time L D :=
  ((st.db.execute statement).2.map fun refusal => .other (text refusal),
    { st with db := (st.db.execute statement).1 })

section Driver

variable [LinearOrder Time] (s : PostgresChunkStorage Time L D)

namespace PostgresChunkStorage

/-- The error of a query whose parameters cannot be bound. -/
def unbound : StorageError := .other (s.text .invalidText)

/-- `GetWorld`, which does not select the alias. -/
def GetWorld (st : Instance Time L D) (wname : String) : Option SWorld × Option StorageError :=
  if encodable wname then
    ((st.db.worlds.find? fun w => w.name = wname).map fun w => ⟨w.name, "", w.ip⟩, none)
  else (none, some s.unbound)

def GetDimension (st : Instance Time L D) (wname dname : String) :
    Option SDim × Option StorageError :=
  if encodable wname && encodable dname then
    ((st.db.dimensions.find? fun d => d.world = wname ∧ d.name = dname).map
      fun d => ⟨d.name, d.world⟩, none)
  else (none, some s.unbound)

/-- `GetChunksRegion`; a chunk that cannot be read is logged and left out. -/
def GetChunksRegion (st : Instance Time L D) (wname dname : String) (cx0 cz0 cx1 cz1 : Int) :
    Except StorageError (List Storages.ChunkData) :=
  if encodable wname && encodable dname then
    match GetChunksRegionRaw s.server st.db.tables none none wname dname cx0 cz0 cx1 cz1 with
    | (_, some err) => .error err
    | (ar, none) => .ok <| ar.filterMap fun entry =>
        match s.ConvFlexibleNBTtoSave entry.Data with
        | .ok c => some ⟨entry.X, entry.Z, .chunk c⟩
        | .error _ => none
  else .error s.unbound

/-- `GetChunksCountRegion` with its counts as `ChunkData`. -/
def GetChunksCountRegion (st : Instance Time L D) (wname dname : String)
    (cx0 cz0 cx1 cz1 : Int) : Except StorageError (List Storages.ChunkData) :=
  if encodable wname && encodable dname then
    match Postgres.GetChunksCountRegion s.counts st.db none wname dname cx0 cz0 cx1 cz1 with
    | (_, some err) => .error err
    | (cc, none) => .ok <| cc.map fun entry => ⟨entry.X, entry.Z, .int entry.Data⟩
  else .error s.unbound

/-- The driver. -/
def driver : ChunkStorage (Instance Time L D) where
  kind := .postgres
  GetAbilities := ⟨true, true⟩
  GetWorld := s.GetWorld
  AddWorld st world := st.exec s.text
    (.addWorld st.now world.Name world.Alias world.IP (s.CreateDefaultLevelData world.Name))
  GetDimension := s.GetDimension
  AddDimension st wname dim := st.exec s.text
    (.addDimension st.now wname dim.Name (s.GuessDimTypeFromName dim.Name))
  AddChunkRaw st wname dname cx cz dat := st.exec s.text
    (.addChunkRaw st.now wname dname cx cz (some dat))
  GetChunksRegion st wname dname cx0 cz0 cx1 cz1 :=
    .ok (s.GetChunksRegion st wname dname cx0 cz0 cx1 cz1)
  GetChunksCountRegion st wname dname cx0 cz0 cx1 cz1 :=
    .ok (s.GetChunksCountRegion st wname dname cx0 cz0 cx1 cz1)
  region_panics _ _ _ _ _ _ _ := iff_of_false (not_panics_ok _) id
  count_panics _ _ _ _ _ _ _ := iff_of_false (not_panics_ok _) id

/-- The storage is the only one. -/
def storages (sname : String) : Map String (Storage (Instance Time L D)) :=
  Map.empty.set sname ⟨some s.driver⟩

end PostgresChunkStorage

end Driver

/-! ### Both paths -/

/-- A chunk from a proxy, a submission, a statement of another client, or the clock. -/
inductive IngestAction (Time L D Level : Type) where
  | consume (r : ProxiedChunk Level)
  | submit (request : SubmitRequest)
  | execute (statement : Statement Time L D)
  | tick (now : Time)

section Paths

variable [LinearOrder Time] (s : PostgresChunkStorage Time L D) (formats : Formats Chunk Level)
  (sname pref : String)

/-- What the handler makes of a submission. -/
def answer (st : Instance Time L D) (request : SubmitRequest) :
    Response × Session (Instance Time L D) :=
  apiAddChunkHandler formats (s.storages sname) pref [sname] [sname] request ⟨st, []⟩

def ingestStep (st : Instance Time L D) :
    IngestAction Time L D Level → Option (Instance Time L D)
  | .consume r =>
      some (chunkConsumer formats (s.storages sname) pref [sname] [sname] r ⟨st, []⟩).st
  | .submit request => some (answer s formats sname pref st request).2.st
  | .execute statement => some { st with db := (st.db.execute statement).1 }
  | .tick now => some { st with now := now }

/-- The ingest paths over one database, one chunk after the other. -/
def ingest : Machine (Instance Time L D) (IngestAction Time L D Level) :=
  ⟨ingestStep s formats sname pref⟩

end Paths

/-- The insert is accepted. -/
def insertable (db : Database Time L D) (cx cz : Int) : Prop :=
  InInt4 cx ∧ InInt4 cz ∧ db.chunkSeq < serialLimit

instance (db : Database Time L D) (cx cz : Int) : Decidable (insertable db cx cz) :=
  inferInstanceAs (Decidable (_ ∧ _))

/-- The dimension is there. -/
def hasDimension (db : Database Time L D) (wname dname : String) : Bool :=
  !(db.tables.dimensionIds wname dname).isEmpty

/-- The names of a chunk from a proxy can be stored, and no sequence is at its end. -/
def consumable (st : Instance Time L D) (r : ProxiedChunk Level) : Prop :=
  let dname := TrimPrefix r.Dimension "minecraft:"
  ¬ (r.Dimension = "" ∨ r.Server = "") ∧ encodable r.Server ∧ encodable dname ∧
    (hasDimension st.db r.Server dname ∨ st.db.dimensionSeq < serialLimit) ∧
    insertable st.db r.Pos.1 r.Pos.2

instance (st : Instance Time L D) (r : ProxiedChunk Level) : Decidable (consumable st r) :=
  inferInstanceAs (Decidable (_ ∧ _))

/-- The writes that a chunk from a proxy should make: one, if it can be marshalled and stored. -/
def consumed (formats : Formats Chunk Level) (st : Instance Time L D) (r : ProxiedChunk Level) :
    List (Write Time) :=
  match formats.marshal r.Pos r.DimensionLowestY r.Data with
  | .error _ => []
  | .ok bytes =>
      if consumable st r then
        [⟨r.Server, TrimPrefix r.Dimension "minecraft:", r.Pos.1, r.Pos.2, st.now, bytes⟩]
      else []

/-- The writes that a submission should make: one, unless it cannot be read, or its dimension is not
there, or no value of the sequence is left. -/
def submitted (formats : Formats Chunk Level) (st : Instance Time L D) (request : SubmitRequest) :
    List (Write Time) :=
  match request.body with
  | .error _ => []
  | .ok body =>
      match formats.ConvFlexibleNBTtoSave body with
      | .error _ => []
      | .ok col =>
          if encodable request.world ∧ encodable request.dim ∧
              hasDimension st.db request.world request.dim ∧
              insertable st.db (formats.XPos col) (formats.ZPos col) then
            [⟨request.world, request.dim, formats.XPos col, formats.ZPos col, st.now, body⟩]
          else []

/-- The writes of a step. -/
def ingested (formats : Formats Chunk Level) (st : Instance Time L D) :
    IngestAction Time L D Level → Instance Time L D → List (Write Time)
  | .consume r, _ => consumed formats st r
  | .submit request, _ => submitted formats st request
  | .execute statement, next => accepted st.db statement next.db
  | .tick _, _ => []

/-! ### What the driver does -/

section Statements

variable {st : Instance Time L D} {wname dname : String}

theorem hasDimension_iff {db : Database Time L D} :
    hasDimension db wname dname = true ↔ ∃ d ∈ db.dimensions, d.world = wname ∧ d.name = dname := by
  have listed : hasDimension db wname dname = true ↔
      ∃ did, did ∈ db.tables.dimensionIds wname dname := by
    rw [hasDimension, Bool.not_eq_true', List.isEmpty_eq_false_iff_exists_mem]
  rw [listed]
  simp only [Database.mem_dimensionIds]
  constructor
  · rintro ⟨_, d, member, world, name, -⟩
    exact ⟨d, member, world, name⟩
  · rintro ⟨d, member, world, name⟩
    exact ⟨_, d, member, world, name, rfl⟩

/-- Between the tables nothing is written to `chunks`. -/
structure Prepared (st next : Instance Time L D) : Prop where
  log : ∀ {log}, LogOf log st.db → LogOf log next.db
  now : next.now = st.now
  chunkSeq : next.db.chunkSeq = st.db.chunkSeq

theorem Prepared.refl (st : Instance Time L D) : Prepared st st := ⟨id, rfl, rfl⟩

theorem Prepared.trans {middle next : Instance Time L D} (first : Prepared st middle)
    (second : Prepared middle next) : Prepared st next :=
  ⟨fun logOf => second.log (first.log logOf), second.now.trans first.now,
    second.chunkSeq.trans first.chunkSeq⟩

/-- A statement that writes no chunk. -/
theorem prepared_exec {statement : Statement Time L D} (text : Refusal → String)
    (quiet : ∀ next, accepted st.db statement next = [])
    (chunkSeq : (st.db.execute statement).1.chunkSeq = st.db.chunkSeq) :
    Prepared st (st.exec text statement).2 := by
  refine ⟨fun {log} logOf => ?_, rfl, chunkSeq⟩
  have after : LogOf (log ++ accepted st.db statement (st.db.execute statement).1)
      (st.db.execute statement).1 := logOf.step rfl
  rwa [quiet, List.append_nil] at after

/-- A world is added under a name that is free. -/
theorem exec_addWorld (world : SWorld) (data : L) (text : Refusal → String)
    (bound : encodable world.Name = true ∧ encodable world.Alias = true ∧
      encodable world.IP = true)
    (free : world.Name ∉ st.db.worlds.map WorldRow.name) :
    ∃ next, st.exec text (.addWorld st.now world.Name world.Alias world.IP data) = (none, next) ∧
      Prepared st next ∧ next.db.dimensions = st.db.dimensions ∧
      next.db.dimensionSeq = st.db.dimensionSeq ∧
      world.Name ∈ next.db.worlds.map WorldRow.name := by
  have texts : (Statement.addWorld (D := D) st.now world.Name world.Alias world.IP
      data).texts.all encodable = true := by
    simp [Statement.texts, bound]
  have executed := st.db.execute_eq texts
  rw [Database.apply, Database.AddWorld, dif_pos free] at executed
  refine ⟨(st.exec text _).2, Prod.ext ?_ rfl,
    prepared_exec text (fun _ => rfl) (congrArg (fun result => result.1.chunkSeq) executed),
    congrArg (fun result => result.1.dimensions) executed,
    congrArg (fun result => result.1.dimensionSeq) executed, ?_⟩
  · simp [Instance.exec, executed]
  · simp [Instance.exec, executed]

/-- A dimension that is not there is added to its world, if an id is left for it. -/
theorem exec_addDimension (data : D) (text : Refusal → String)
    (bound : encodable wname = true ∧ encodable dname = true)
    (known : wname ∈ st.db.worlds.map WorldRow.name)
    (absent : hasDimension st.db wname dname = false) :
    ∃ refusal next, st.exec text (.addDimension st.now wname dname data) = (refusal, next) ∧
      Prepared st next ∧ (refusal = none ↔ st.db.dimensionSeq < serialLimit) ∧
      (refusal = none → hasDimension next.db wname dname = true) := by
  have texts : (Statement.addDimension (L := L) st.now wname dname data).texts.all encodable =
      true := by
    simp [Statement.texts, bound]
  have free : (wname, dname) ∉ st.db.dimensions.map fun d => (d.world, d.name) := by
    intro member
    obtain ⟨d, here, names⟩ := List.mem_map.mp member
    exact Bool.eq_false_iff.mp absent (hasDimension_iff.mpr ⟨d, here, Prod.ext_iff.mp names⟩)
  have executed := st.db.execute_eq texts
  rw [Database.apply, Database.AddDimension, dif_pos free, dif_pos known] at executed
  refine ⟨_, _, rfl, prepared_exec text (fun _ => rfl) ?_, ?_⟩
  · rw [executed]
    split <;> rfl
  · simp only [executed]
    by_cases room : st.db.dimensionSeq < serialLimit
    · rw [if_neg (Nat.not_le.mpr room)]
      refine ⟨by simp [room], fun _ => hasDimension_iff.mpr ?_⟩
      exact ⟨_, List.mem_append_right _ (List.mem_singleton_self _), rfl, rfl⟩
    · rw [if_pos (Nat.not_lt.mp room)]
      exact ⟨by simp [room], fun other => absurd other (Option.some_ne_none _)⟩

/-- When the insert of a chunk whose parameters could be bound is accepted. -/
theorem AddChunkRaw_iff {db : Database Time L D} {now : Time} {cx cz : Int} {data : Bytes} :
    (db.AddChunkRaw now wname dname cx cz (some data)).2 = none ↔
      hasDimension db wname dname = true ∧ insertable db cx cz := by
  have there : hasDimension db wname dname = true ↔
      (db.tables.dimensionIds wname dname).head? ≠ none := by
    rw [hasDimension, Bool.not_eq_true', List.isEmpty_eq_false_iff, Ne, Ne, List.head?_eq_none_iff]
  rw [there, insertable]
  unfold Database.AddChunkRaw
  split
  · rename_i outside
    simp only [Option.some_ne_none, false_iff]
    exact fun all => outside ⟨all.2.1, all.2.2.1⟩
  · rename_i inside
    rw [not_not] at inside
    split
    · rename_i full
      simp only [Option.some_ne_none, false_iff]
      exact fun all => absurd all.2.2.2 (Nat.not_lt.mpr full)
    · rename_i room
      split
      · rename_i absent
        simp [absent]
      · simp_all
      · rename_i did _ selected same
        simp [selected, inside, Nat.not_le.mp room]

/-- When the insert of a chunk is accepted. -/
theorem execute_addChunkRaw_iff {db : Database Time L D} {now : Time} {cx cz : Int}
    {data : Bytes} :
    (db.execute (.addChunkRaw now wname dname cx cz (some data))).2 = none ↔
      encodable wname = true ∧ encodable dname = true ∧ hasDimension db wname dname = true ∧
        insertable db cx cz := by
  by_cases bound : encodable wname = true ∧ encodable dname = true
  case neg =>
    have texts : ¬ (Statement.addChunkRaw (L := L) (D := D) now wname dname cx cz
        (some data)).texts.all encodable = true := by
      simpa [Statement.texts] using bound
    rw [Database.execute, if_neg texts]
    simp only [Option.some_ne_none, false_iff]
    exact fun all => bound ⟨all.1, all.2.1⟩
  have texts : (Statement.addChunkRaw (L := L) (D := D) now wname dname cx cz
      (some data)).texts.all encodable = true := by
    simpa [Statement.texts] using bound
  rw [Database.execute_eq texts]
  exact AddChunkRaw_iff.trans ⟨fun both => ⟨bound.1, bound.2, both⟩, fun all => all.2.2⟩

theorem consumed_eq_nil (formats : Formats Chunk Level) {r : ProxiedChunk Level}
    (refused : ¬ consumable st r) : consumed formats st r = [] := by
  unfold consumed
  split
  · rfl
  · exact if_neg refused

theorem hasDimension_congr {db next : Database Time L D}
    (dimensions : next.dimensions = db.dimensions) :
    hasDimension next wname dname = hasDimension db wname dname := by
  rw [Bool.eq_iff_iff, hasDimension_iff, hasDimension_iff, dimensions]

end Statements

section Calls

variable [LinearOrder Time] {s : PostgresChunkStorage Time L D} {st : Instance Time L D}
  {wname dname sname pref : String}

/-- The outcomes of the lookup of a world. -/
inductive WorldLookup (s : PostgresChunkStorage Time L D) (st : Instance Time L D)
    (wname : String) :
    Option SWorld × Option (ChunkStorage (Instance Time L D)) × Option StorageError → Prop where
  | refused (unbound : encodable wname = false) :
      WorldLookup s st wname (none, none, some s.unbound)
  | found (w : SWorld) (bound : encodable wname = true) (named : w.Name = wname)
      (known : wname ∈ st.db.worlds.map WorldRow.name) :
      WorldLookup s st wname (some w, some s.driver, none)
  | missing (bound : encodable wname = true) (free : wname ∉ st.db.worlds.map WorldRow.name) :
      WorldLookup s st wname (none, none, none)

theorem worldLookup (s : PostgresChunkStorage Time L D) (st : Instance Time L D)
    (sname wname : String) :
    WorldLookup s st wname (GetWorldStorage (s.storages sname) st wname [sname]) := by
  have here : driverOf (s.storages sname) sname = some s.driver := by
    simp [driverOf, PostgresChunkStorage.storages]
  have answer : s.driver.GetWorld st wname = s.GetWorld st wname := rfl
  simp only [GetWorldStorage, here, answer, PostgresChunkStorage.GetWorld]
  cases bound : encodable wname with
  | false => exact .refused bound
  | true =>
      cases found : st.db.worlds.find? fun w => w.name = wname with
      | none =>
          refine .missing bound fun member => ?_
          obtain ⟨w, member, named⟩ := List.mem_map.mp member
          exact absurd (decide_eq_true named) (List.find?_eq_none.mp found w member)
      | some w =>
          have named := List.find?_some found
          exact .found _ bound (of_decide_eq_true named) (List.mem_map.mpr
            ⟨w, List.mem_of_find?_eq_some found, of_decide_eq_true named⟩)

/-- The outcomes of the lookup of a dimension. -/
inductive DimensionLookup (s : PostgresChunkStorage Time L D) (st : Instance Time L D)
    (wname dname : String) : Option SDim × Option StorageError → Prop where
  | refused (unbound : ¬ (encodable wname = true ∧ encodable dname = true)) :
      DimensionLookup s st wname dname (none, some s.unbound)
  | found (bound : encodable wname = true ∧ encodable dname = true)
      (there : hasDimension st.db wname dname = true) :
      DimensionLookup s st wname dname (some ⟨dname, wname⟩, none)
  | missing (bound : encodable wname = true ∧ encodable dname = true)
      (absent : hasDimension st.db wname dname = false) :
      DimensionLookup s st wname dname (none, none)

theorem dimensionLookup (s : PostgresChunkStorage Time L D) (st : Instance Time L D)
    (wname dname : String) : DimensionLookup s st wname dname (s.GetDimension st wname dname) := by
  unfold PostgresChunkStorage.GetDimension
  split
  · rename_i bound
    rw [Bool.and_eq_true] at bound
    cases found : st.db.dimensions.find? fun d => d.world = wname ∧ d.name = dname with
    | none =>
        refine .missing bound (Bool.eq_false_iff.mpr fun there => ?_)
        obtain ⟨d, member, names⟩ := hasDimension_iff.mp there
        exact absurd (decide_eq_true names) (List.find?_eq_none.mp found d member)
    | some d =>
        have names := List.find?_some found
        obtain ⟨rfl, rfl⟩ := of_decide_eq_true names
        exact .found bound (hasDimension_iff.mpr ⟨d, List.mem_of_find?_eq_some found, rfl, rfl⟩)
  · rename_i unbound
    exact .refused (by rwa [Bool.and_eq_true] at unbound)

/-- The storage can take chunks of new worlds. -/
theorem findCapableStorage_driver (named : sname ≠ "") :
    findCapableStorage (s.storages sname) pref [sname] = some s.driver := by
  by_cases preferred : pref = sname
  · simp [findCapableStorage, PostgresChunkStorage.storages, preferred]
  · simp [findCapableStorage, PostgresChunkStorage.storages, Map.get_set, preferred, capable, named,
      driverOf, PostgresChunkStorage.driver]

/-! ### The consumer -/

/-- The consumer finds the world or adds it. -/
theorem consumerWorldStorage_driver (named : sname ≠ "") (pref : String)
    (x : Session (Instance Time L D)) (server : String) :
    ∃ outcome y, consumerWorldStorage (s.storages sname) pref [sname] [sname] server x =
        (outcome, y) ∧ Prepared x.st y.st ∧
      (encodable server = false → outcome = none) ∧
      (encodable server = true → ∃ w, outcome = some (w, s.driver) ∧ w.Name = server ∧
        y.st.db.dimensions = x.st.db.dimensions ∧
        y.st.db.dimensionSeq = x.st.db.dimensionSeq ∧
        server ∈ y.st.db.worlds.map WorldRow.name) := by
  have looked := worldLookup s x.st sname server
  unfold consumerWorldStorage Session.getWorldStorage
  generalize GetWorldStorage (s.storages sname) x.st server [sname] = found at looked
  cases looked with
  | refused unbound =>
      exact ⟨_, _, rfl, .refl _, fun _ => rfl, fun bound => by cases unbound.symm.trans bound⟩
  | found w bound here known =>
      exact ⟨_, _, rfl, .refl _, fun unbound => by (cases bound.symm.trans unbound),
        fun _ => ⟨w, rfl, here, rfl, rfl, known⟩⟩
  | missing bound free =>
      have blank : encodable "" = true := rfl
      obtain ⟨next, added, prepared, dimensions, dimensionSeq, known⟩ :=
        exec_addWorld ⟨server, "", server⟩ (s.CreateDefaultLevelData server) s.text
          ⟨bound, blank, bound⟩ free
      have asked : s.driver.AddWorld x.st ⟨server, "", server⟩ = (none, next) := added
      dsimp only
      rw [findCapableStorage_driver named]
      simp only [Session.addWorld, Session.log_st, asked]
      exact ⟨_, _, rfl, prepared, fun unbound => by (cases bound.symm.trans unbound),
        fun _ => ⟨_, rfl, rfl, dimensions, dimensionSeq, known⟩⟩

/-- The consumer finds the dimension or adds it. -/
theorem consumerDimension_driver {w : SWorld} (dname : String) (x : Session (Instance Time L D))
    (bound : encodable w.Name = true) (known : w.Name ∈ x.st.db.worlds.map WorldRow.name) :
    ∃ outcome y, consumerDimension s.driver w dname x = (outcome, y) ∧ Prepared x.st y.st ∧
      if encodable dname = true ∧
          (hasDimension x.st.db w.Name dname = true ∨ x.st.db.dimensionSeq < serialLimit) then
        outcome = some ⟨dname, w.Name⟩ ∧ hasDimension y.st.db w.Name dname = true
      else outcome = none := by
  have looked : DimensionLookup s x.st w.Name dname (s.driver.GetDimension x.st w.Name dname) :=
    dimensionLookup s x.st w.Name dname
  unfold consumerDimension Session.getDimension
  generalize s.driver.GetDimension x.st w.Name dname = found at looked
  cases looked with
  | refused unbound =>
      have failed : some s.unbound ≠ none ∧ some s.unbound ≠ some .noDim :=
        ⟨Option.some_ne_none _, fun same => by cases same⟩
      dsimp only
      rw [if_pos failed]
      exact ⟨_, _, rfl, .refl _, by rw [if_neg fun all => unbound ⟨bound, all.1⟩]⟩
  | found both there =>
      exact ⟨_, _, rfl, .refl _, by rw [if_pos ⟨both.2, .inl there⟩]; exact ⟨rfl, there⟩⟩
  | missing both absent =>
      obtain ⟨refusal, next, executed, prepared, room, there⟩ :=
        exec_addDimension (s.GuessDimTypeFromName dname) s.text both known absent
      have asked : s.driver.AddDimension x.st w.Name ⟨dname, w.Name⟩ = (refusal, next) := executed
      simp only [Session.addDimension, Session.log_st, asked, both, absent, Bool.false_eq_true,
        true_and, false_or, ← room]
      cases refusal with
      | none => exact ⟨_, _, rfl, prepared, by rw [if_pos rfl]; exact ⟨rfl, there rfl⟩⟩
      | some refusal =>
          exact ⟨_, _, rfl, prepared, by rw [if_neg (Option.some_ne_none refusal)]⟩

/-- The insert of a chunk writes its row exactly if it does not fail. -/
theorem addChunkRaw_driver (s : PostgresChunkStorage Time L D) (x : Session (Instance Time L D))
    (wname dname : String) (cx cz : Int) (dat : Bytes) :
    ∃ err y, x.addChunkRaw s.driver wname dname cx cz dat = (err, y) ∧
      (err = none ↔ encodable wname = true ∧ encodable dname = true ∧
        hasDimension x.st.db wname dname = true ∧ insertable x.st.db cx cz) ∧
      ∀ {log}, LogOf log x.st.db →
        LogOf (log ++ if err = none then [⟨wname, dname, cx, cz, x.st.now, dat⟩] else [])
          y.st.db := by
  refine ⟨_, _, rfl, ?_, fun {log} logOf => ?_⟩
  · rw [← execute_addChunkRaw_iff]
    exact Option.map_eq_none_iff
  · have after : LogOf (log ++ accepted x.st.db (.addChunkRaw x.st.now wname dname cx cz (some dat))
        (x.st.db.execute (.addChunkRaw x.st.now wname dname cx cz (some dat))).1)
          (x.st.db.execute (.addChunkRaw x.st.now wname dname cx cz (some dat))).1 :=
      logOf.step rfl
    simpa only [accepted, PostgresChunkStorage.driver, Instance.exec, Option.map_eq_none_iff,
      Session.log_st] using after

/-- The consumer writes what it should. -/
theorem chunkConsumer_log (formats : Formats Chunk Level) (named : sname ≠ "") (pref : String)
    (r : ProxiedChunk Level) {log : List (Write Time)} (logOf : LogOf log st.db) :
    LogOf (log ++ consumed formats st r)
      (chunkConsumer formats (s.storages sname) pref [sname] [sname] r ⟨st, []⟩).st.db := by
  unfold chunkConsumer
  split
  · rename_i blank
    rw [consumed_eq_nil formats fun all => all.1 blank]
    exact logOf.quiet
  rename_i named'
  obtain ⟨outcome, y, searched, prepared, missing, found⟩ :=
    consumerWorldStorage_driver (s := s) named pref ⟨st, []⟩ r.Server
  dsimp only
  rw [searched]
  cases bound : encodable r.Server with
  | false =>
      rw [missing bound, consumed_eq_nil formats fun all => by (cases bound.symm.trans all.2.1)]
      exact (prepared.log logOf).quiet
  | true =>
      obtain ⟨w, rfl, here, dimensions, dimensionSeq, known⟩ := found bound
      rw [← here] at bound known
      obtain ⟨outcome, z, checked, prepared', result⟩ := consumerDimension_driver (s := s)
        (TrimPrefix r.Dimension "minecraft:") y bound known
      rw [hasDimension_congr dimensions, dimensionSeq, here] at result
      have ready := prepared.trans prepared'
      dsimp only
      rw [checked]
      split at result
      · rename_i open_
        obtain ⟨rfl, there⟩ := result
        dsimp only
        rw [if_neg (not_not_intro here.symm), here]
        rw [here] at bound
        cases marshalled : formats.marshal r.Pos r.DimensionLowestY r.Data with
        | error err =>
            simp only [consumed, marshalled]
            exact (ready.log logOf).quiet
        | ok bytes =>
            obtain ⟨err, last, inserted, done, written⟩ := addChunkRaw_driver s z r.Server
              (TrimPrefix r.Dimension "minecraft:") r.Pos.1 r.Pos.2 bytes
            have written := written (ready.log logOf)
            have sameRoom : insertable z.st.db r.Pos.1 r.Pos.2 ↔
                insertable st.db r.Pos.1 r.Pos.2 := by
              rw [insertable, insertable, ready.chunkSeq]
            have all : consumable st r ↔ insertable z.st.db r.Pos.1 r.Pos.2 := by
              rw [sameRoom]
              exact ⟨fun all => all.2.2.2.2, fun room =>
                ⟨named', bound, open_.1, open_.2, room⟩⟩
            simp only [bound, open_.1, there, true_and, ← all] at done
            simp only [consumed, marshalled, inserted]
            simp only [done, ready.now] at written
            exact written
      · rename_i closed
        rw [result, consumed_eq_nil formats fun all => closed ⟨all.2.2.1, all.2.2.2.1⟩]
        exact (ready.log logOf).quiet

/-! ### The handler -/

/-- The handler finds the world or adds it. -/
theorem apiWorldStorage_driver (named : sname ≠ "") (pref place : String)
    (x : Session (Instance Time L D)) (wname : String) :
    ∃ outcome y, apiWorldStorage (s.storages sname) pref [sname] [sname] wname place x =
        (outcome, y) ∧ Prepared x.st y.st ∧
      (encodable wname = false → ∃ response, outcome = .error response ∧
        response.success = false) ∧
      (encodable wname = true → outcome = .ok s.driver ∧
        y.st.db.dimensions = x.st.db.dimensions ∧
        wname ∈ y.st.db.worlds.map WorldRow.name) := by
  have looked := worldLookup s x.st sname wname
  unfold apiWorldStorage Session.getWorldStorage
  generalize GetWorldStorage (s.storages sname) x.st wname [sname] = found at looked
  cases looked with
  | refused unbound =>
      exact ⟨_, _, rfl, .refl _, fun _ => ⟨_, rfl, rfl⟩,
        fun bound => by (cases unbound.symm.trans bound)⟩
  | found w bound here known =>
      exact ⟨_, _, rfl, .refl _, fun unbound => by (cases bound.symm.trans unbound),
        fun _ => ⟨rfl, rfl, known⟩⟩
  | missing bound free =>
      have blank : encodable "" = true := rfl
      obtain ⟨next, added, prepared, dimensions, -, known⟩ :=
        exec_addWorld ⟨wname, wname, ""⟩ (s.CreateDefaultLevelData wname) s.text
          ⟨bound, bound, blank⟩ free
      have asked : s.driver.AddWorld x.st ⟨wname, wname, ""⟩ = (none, next) := added
      dsimp only
      rw [findCapableStorage_driver named]
      simp only [Session.addWorld, Session.log_st, asked]
      exact ⟨_, _, rfl, prepared, fun unbound => by (cases bound.symm.trans unbound),
        fun _ => ⟨rfl, dimensions, known⟩⟩

/-- The handler goes on if the dimension is there. -/
theorem apiDimension_driver (x : Session (Instance Time L D)) (dname : String)
    (bound : encodable wname = true) (known : wname ∈ x.st.db.worlds.map WorldRow.name) :
    ∃ outcome y, apiDimension s.driver wname dname x = (outcome, y) ∧ Prepared x.st y.st ∧
      if encodable dname = true ∧ hasDimension x.st.db wname dname = true then
        outcome = none ∧ hasDimension y.st.db wname dname = true
      else ∃ response, outcome = some response ∧ response.success = false := by
  have looked : DimensionLookup s x.st wname dname (s.driver.GetDimension x.st wname dname) :=
    dimensionLookup s x.st wname dname
  unfold apiDimension Session.getDimension
  generalize s.driver.GetDimension x.st wname dname = found at looked
  cases looked with
  | refused unbound =>
      refine ⟨_, _, rfl, .refl _, ?_⟩
      rw [if_neg fun all => unbound ⟨bound, all.1⟩]
      exact ⟨_, rfl, rfl⟩
  | found both there =>
      exact ⟨_, _, rfl, .refl _, by rw [if_pos ⟨both.2, there⟩]; exact ⟨rfl, there⟩⟩
  | missing both absent =>
      obtain ⟨refusal, next, executed, prepared, -, -⟩ :=
        exec_addDimension (s.GuessDimTypeFromName dname) s.text both known absent
      have asked : s.driver.AddDimension x.st wname ⟨dname, wname⟩ = (refusal, next) := executed
      simp only [Session.addDimension, Session.log_st, asked, absent, Bool.false_eq_true,
        and_false, if_false]
      cases refusal <;> exact ⟨_, _, rfl, prepared, _, rfl, rfl⟩

/-- The handler writes what it should, and answers with success if it has and no picture is asked
for. -/
theorem answer_log (formats : Formats Chunk Level) (named : sname ≠ "") (pref : String)
    (request : SubmitRequest) :
    (∀ {log}, LogOf log st.db → LogOf (log ++ submitted formats st request)
        (answer s formats sname pref st request).2.st.db) ∧
      ((answer s formats sname pref st request).1.success = true ↔
        submitted formats st request ≠ [] ∧ request.drawTTYPE = "") := by
  unfold answer apiAddChunkHandler submitted
  cases read : request.body with
  | error err => exact ⟨LogOf.quiet, by simp [Response.success]⟩
  | ok body =>
  cases parsed : formats.ConvFlexibleNBTtoSave body with
  | error err =>
      dsimp only
      rw [parsed]
      exact ⟨LogOf.quiet, by simp [Response.success]⟩
  | ok col =>
  dsimp only
  rw [parsed]
  dsimp only
  generalize toString (formats.XPos col) ++ ":" ++ toString (formats.ZPos col) = place
  obtain ⟨outcome, y, searched, prepared, missing, found⟩ :=
    apiWorldStorage_driver (s := s) named pref place ⟨st, []⟩ request.world
  rw [searched]
  cases bound : encodable request.world with
  | false =>
      obtain ⟨response, rfl, refused⟩ := missing bound
      simp only [Bool.false_eq_true, false_and, if_false]
      exact ⟨fun logOf => (prepared.log logOf).quiet, by simp [refused]⟩
  | true =>
  obtain ⟨rfl, dimensions, known⟩ := found bound
  obtain ⟨outcome, z, checked, prepared', result⟩ :=
    apiDimension_driver (s := s) y request.dim bound known
  rw [hasDimension_congr dimensions] at result
  have ready := prepared.trans prepared'
  dsimp only
  rw [checked]
  split at result
  · rename_i open_
    obtain ⟨rfl, there⟩ := result
    dsimp only
    obtain ⟨err, last, inserted, done, written⟩ := addChunkRaw_driver s z request.world
      request.dim (formats.XPos col) (formats.ZPos col) body
    have sameRoom : insertable z.st.db (formats.XPos col) (formats.ZPos col) ↔
        insertable st.db (formats.XPos col) (formats.ZPos col) := by
      rw [insertable, insertable, ready.chunkSeq]
    simp only [bound, open_.1, there, true_and, sameRoom] at done
    simp only [open_, true_and, inserted]
    simp only [done, ready.now] at written
    cases err with
    | some err =>
        have refused := done.not.mp (Option.some_ne_none err)
        simp only [if_neg refused] at written ⊢
        exact ⟨fun logOf => written (ready.log logOf), by simp [Response.success]⟩
    | none =>
        have accepted := done.mp rfl
        simp only [if_pos accepted] at written ⊢
        exact ⟨fun logOf => written (ready.log logOf), by simp [apiPaint_success]⟩
  · rename_i closed
    obtain ⟨response, rfl, refused⟩ := result
    rw [if_neg fun all => closed ⟨all.2.1, all.2.2.1⟩]
    exact ⟨fun logOf => (ready.log logOf).quiet, by simp [refused]⟩

end Calls

/-! ### All runs -/

section Runs

variable [LinearOrder Time] (s : PostgresChunkStorage Time L D) (formats : Formats Chunk Level)
  (sname pref : String)

/-- Whether a submission is answered with success. -/
def answered (st : Instance Time L D) :
    IngestAction Time L D Level → Instance Time L D → List Bool
  | .submit request, _ => [(answer s formats sname pref st request).1.success]
  | _, _ => []

/-- Whether a submission should be answered with success: its chunk is written, and no picture is
asked for. -/
def acknowledged (st : Instance Time L D) :
    IngestAction Time L D Level → Instance Time L D → List Bool
  | .submit request, _ => [!(submitted formats st request).isEmpty && request.drawTTYPE == ""]
  | _, _ => []

variable {s formats sname pref}

theorem answered_eq (named : sname ≠ "") (st next : Instance Time L D)
    (action : IngestAction Time L D Level) :
    answered s formats sname pref st action next = acknowledged formats st action next := by
  cases action with
  | submit request =>
      refine congrArg (fun success => [success]) (Bool.eq_iff_iff.mpr ?_)
      rw [(answer_log formats named pref request).2, Bool.and_eq_true, Bool.not_eq_true',
        List.isEmpty_eq_false_iff, beq_iff_eq]
  | consume r => rfl
  | execute statement => rfl
  | tick now => rfl

/-- The step lemma. -/
theorem ingested_log (named : sname ≠ "") {st next : Instance Time L D}
    {action : IngestAction Time L D Level} {log : List (Write Time)} (logOf : LogOf log st.db)
    (transition : (ingest s formats sname pref).step st action = some next) :
    LogOf (log ++ ingested formats st action next) next.db := by
  cases action with
  | consume r =>
      cases transition
      exact chunkConsumer_log formats named pref r logOf
  | submit request =>
      cases transition
      exact (answer_log formats named pref request).1 logOf
  | execute statement =>
      cases transition
      exact logOf.step rfl
  | tick now =>
      cases transition
      exact logOf.quiet

/-- Over a database of their own, whatever other clients do between two chunks, the ingest paths
write one row for each chunk that can be stored, in their order and under the names that it came
with; and a submission is answered with success exactly if its row was written and it asks for no
picture. -/
theorem ingestLogged (named : sname ≠ "") {now : Time} {actions : List (IngestAction Time L D Level)}
    {final : Instance Time L D}
    (run : (ingest s formats sname pref).Runs ⟨.empty, now⟩ actions final) :
    LogOf ((ingest s formats sname pref).history (ingested formats) ⟨.empty, now⟩ actions)
        final.db ∧
      (ingest s formats sname pref).history (answered s formats sname pref) ⟨.empty, now⟩ actions =
        (ingest s formats sname pref).history (acknowledged formats) ⟨.empty, now⟩ actions := by
  have same : answered s formats sname pref = fun st action next =>
      acknowledged formats st action next := by
    funext st action next
    exact answered_eq named st next action
  exact ⟨run.history (fun (log : List (Write Time)) (st : Instance Time L D) => LogOf log st.db)
    (ingested_log named) .nil, by rw [same]⟩

end Runs

def samplePostgres : PostgresChunkStorage Nat Unit Unit where
  server := Server.insertion _
  counts := Server.insertion _
  CreateDefaultLevelData _ := ()
  GuessDimTypeFromName _ := ()
  text _ := "refused"
  ConvFlexibleNBTtoSave raw := .ok ⟨raw⟩

/-- The first chunk of a world comes from the proxy, the second one is submitted; another one is
submitted to a dimension that is not there, and comes again from the proxy. -/
def sampleIngest : List (IngestAction Nat Unit Unit Unit) :=
  [.consume sampleChunk, .tick 1, .submit sampleRequest, .tick 2,
    .submit { sampleRequest with dim := "the_nether" }, .tick 3,
    .consume { sampleChunk with Dimension := "minecraft:the_nether" }]

theorem ingestLogged_sample :
    let machine := ingest samplePostgres sampleFormats "main" ""
    let final := (machine.exec ⟨.empty, 0⟩ sampleIngest).get rfl
    LogOf (machine.history (ingested sampleFormats) ⟨.empty, 0⟩ sampleIngest) final.db ∧
      machine.history (answered samplePostgres sampleFormats "main" "") ⟨.empty, 0⟩ sampleIngest =
        machine.history (acknowledged sampleFormats) ⟨.empty, 0⟩ sampleIngest :=
  ingestLogged (by decide) (Machine.runs_exec_get rfl)

example : ((ingest samplePostgres sampleFormats "main" "").history (ingested sampleFormats)
    ⟨.empty, 0⟩ sampleIngest).map (fun v => (v.dimension, v.time)) =
      [("overworld", 0), ("overworld", 1), ("the_nether", 3)] := by
  decide +kernel

end WebChunk.Postgres
