import Mathlib.Data.List.Forall2
import WebChunk.Postgres.Database
import WebChunk.Semantics.History

/-!
# Versions of chunks

Whatever statements run, the table `chunks` is the log of the accepted writes, so that what the
reads answer is a function of that log.
-/

namespace WebChunk.Postgres

open WebChunk.Storages WebChunk.Sql WebChunk.Semantics

/-- The statements of the storage that change the tables; `now` is the time of the server. -/
inductive Statement (Time L D : Type) where
  | addWorld (now : Time) (name alias_ ip : String) (data : L)
  | setWorldAlias (wname newalias : String)
  | setWorldIP (wname newip : String)
  | setWorldData (wname : String) (data : L)
  | addDimension (now : Time) (wname name : String) (data : D)
  | setDimensionData (wname dname : String) (data : D)
  | addChunkRaw (now : Time) (wname dname : String) (cx cz : Int) (dat : Option Bytes)

variable {Time L D : Type}

/-- The texts among the parameters. -/
def Statement.texts : Statement Time L D → List String
  | .addWorld _ name alias_ ip _ => [name, alias_, ip]
  | .setWorldAlias wname newalias => [wname, newalias]
  | .setWorldIP wname newip => [wname, newip]
  | .setWorldData wname _ => [wname]
  | .addDimension _ wname name _ => [wname, name]
  | .setDimensionData wname dname _ => [wname, dname]
  | .addChunkRaw _ wname dname _ _ _ => [wname, dname]

/-- A `text` has no character of code zero. -/
def encodable (text : String) : Bool := !text.toList.contains '\x00'

/-- A statement whose parameters could be bound. -/
def Database.apply (db : Database Time L D) :
    Statement Time L D → Database Time L D × Option Refusal
  | .addWorld now name alias_ ip data => db.AddWorld now name alias_ ip data
  | .setWorldAlias wname newalias => (db.SetWorldAlias wname newalias, none)
  | .setWorldIP wname newip => (db.SetWorldIP wname newip, none)
  | .setWorldData wname data => (db.SetWorldData wname data, none)
  | .addDimension now wname name data => db.AddDimension now wname name data
  | .setDimensionData wname dname data => (db.SetDimensionData wname dname data, none)
  | .addChunkRaw now wname dname cx cz dat => db.AddChunkRaw now wname dname cx cz dat

/-- The tables after a statement, and whether it was refused. -/
def Database.execute (db : Database Time L D) (statement : Statement Time L D) :
    Database Time L D × Option Refusal :=
  if statement.texts.all encodable then db.apply statement else (db, some .invalidText)

/-- The database with its clients, one statement after the other. -/
def pgStorage : Machine (Database Time L D) (Statement Time L D) :=
  ⟨fun db statement => some (db.execute statement).1⟩

/-- A write of a chunk. -/
structure Write (Time : Type) where
  world : String
  dimension : String
  x : Int
  z : Int
  time : Time
  data : Bytes

/-- The write that a statement makes, if it is accepted. -/
def accepted (db : Database Time L D) (statement : Statement Time L D)
    (_ : Database Time L D) : List (Write Time) :=
  match statement with
  | .addChunkRaw now wname dname cx cz (some data) =>
      if (db.execute (.addChunkRaw now wname dname cx cz (some data))).2 = none then
        [⟨wname, dname, cx, cz, now, data⟩] else []
  | _ => []

/-- The row of a write. -/
structure RowOf (db : Database Time L D) (c : ChunkRow Time) (v : Write Time) : Prop where
  dim : c.dim ∈ db.tables.dimensionIds v.world v.dimension
  x : c.x = v.x
  z : c.z = v.z
  created_at : c.created_at = v.time
  data : c.data = v.data

/-- The rows of `chunks` are those of the writes, in their order. -/
def LogOf (log : List (Write Time)) (db : Database Time L D) : Prop :=
  List.Forall₂ (RowOf db) db.chunks log

/-- The dimensions of `next` have the ids that they have in `db`. -/
def KeepsIds (db next : Database Time L D) : Prop :=
  ∀ wname dname did, did ∈ db.tables.dimensionIds wname dname →
    did ∈ next.tables.dimensionIds wname dname

/-- A statement that leaves the chunks and keeps the ids. -/
theorem LogOf.keeps {log : List (Write Time)} {db next : Database Time L D} (logOf : LogOf log db)
    (chunks : next.chunks = db.chunks) (ids : KeepsIds db next) : LogOf log next := by
  unfold LogOf at logOf ⊢
  rw [chunks]
  exact logOf.imp fun c v row =>
    ⟨ids _ _ _ row.dim, row.x, row.z, row.created_at, row.data⟩

namespace Database

/-- What `AddDimension` leaves alone. -/
theorem AddDimension_keeps (db : Database Time L D) (now : Time) (wname name : String) (data : D) :
    (db.AddDimension now wname name data).1.chunks = db.chunks ∧
      KeepsIds db (db.AddDimension now wname name data).1 := by
  have same : KeepsIds db db.drawDimension := fun _ _ _ member => member
  unfold AddDimension
  split
  · exact ⟨rfl, fun _ _ _ member => member⟩
  · split
    · split
      · refine ⟨rfl, fun w d did member => ?_⟩
        obtain ⟨row, old, names⟩ := mem_dimensionIds.mp member
        exact mem_dimensionIds.mpr ⟨row, List.mem_append_left _ old, names⟩
      · exact ⟨rfl, same⟩
    · exact ⟨rfl, same⟩

/-- What `SetDimensionData` leaves alone. -/
theorem SetDimensionData_keeps (db : Database Time L D) (wname dname : String) (data : D) :
    KeepsIds db (db.SetDimensionData wname dname data) := by
  intro w d did member
  obtain ⟨row, old, names⟩ := mem_dimensionIds.mp member
  refine mem_dimensionIds.mpr ⟨_, List.mem_map_of_mem old, ?_⟩
  split <;> exact names

/-- A write is refused and leaves the chunks, or it adds its row. -/
theorem AddChunkRaw_cases (db : Database Time L D) (now : Time) (wname dname : String)
    (cx cz : Int) (dat : Option Bytes) :
    (∃ refusal, (db.AddChunkRaw now wname dname cx cz dat).2 = some refusal ∧
      (db.AddChunkRaw now wname dname cx cz dat).1.chunks = db.chunks ∧
      KeepsIds db (db.AddChunkRaw now wname dname cx cz dat).1) ∨
    ∃ did data known, dat = some data ∧ did ∈ db.tables.dimensionIds wname dname ∧
      db.AddChunkRaw now wname dname cx cz dat =
        (db.insertChunk now did cx cz data known, none) := by
  unfold AddChunkRaw
  split
  · exact .inl ⟨_, rfl, rfl, fun _ _ _ member => member⟩
  · split
    · exact .inl ⟨_, rfl, rfl, fun _ _ _ member => member⟩
    · split
      · exact .inl ⟨_, rfl, rfl, fun _ _ _ member => member⟩
      · exact .inl ⟨_, rfl, rfl, fun _ _ _ member => member⟩
      · rename_i did data selected
        have member := List.mem_of_head? selected
        exact .inr ⟨did, data, known_of_mem member, rfl, member, rfl⟩

end Database

/-- A statement that is no accepted write. -/
theorem LogOf.quiet {log : List (Write Time)} {db : Database Time L D} (logOf : LogOf log db) :
    LogOf (log ++ []) db := by
  rwa [List.append_nil]

theorem Database.execute_eq {db : Database Time L D} {statement : Statement Time L D}
    (bound : statement.texts.all encodable = true) : db.execute statement = db.apply statement :=
  if_pos bound

/-- A statement that is refused writes nothing. -/
theorem accepted_refused {db next : Database Time L D} {statement : Statement Time L D}
    {refusal : Refusal} (refused : (db.execute statement).2 = some refusal) :
    accepted db statement next = [] := by
  unfold accepted
  split
  · exact if_neg (by rw [refused]; exact Option.some_ne_none _)
  · rfl

/-- A statement leaves the chunks and keeps the ids, or it is an accepted write and adds its row. -/
theorem Database.execute_cases (db : Database Time L D) (statement : Statement Time L D) :
    ((db.execute statement).1.chunks = db.chunks ∧ KeepsIds db (db.execute statement).1 ∧
      ∀ next, accepted db statement next = []) ∨
    ∃ now wname dname cx cz data did known,
      statement = .addChunkRaw now wname dname cx cz (some data) ∧
      did ∈ db.tables.dimensionIds wname dname ∧
      db.execute statement = (db.insertChunk now did cx cz data known, none) := by
  have same : KeepsIds db db := fun _ _ _ member => member
  by_cases bound : statement.texts.all encodable = true
  case neg =>
    have refused : db.execute statement = (db, some .invalidText) := if_neg bound
    refine .inl ⟨congrArg (fun result => result.1.chunks) refused, ?_, fun next =>
      accepted_refused (congrArg Prod.snd refused)⟩
    rw [refused]
    exact same
  have executed := db.execute_eq bound
  cases statement with
  | addWorld now name alias_ ip data =>
      refine .inl ⟨?_, ?_, fun _ => rfl⟩ <;> rw [executed] <;>
        dsimp only [Database.apply, Database.AddWorld] <;> split
      · rfl
      · rfl
      · exact same
      · exact same
  | setWorldAlias | setWorldIP | setWorldData =>
      rw [executed]
      exact .inl ⟨rfl, same, fun _ => rfl⟩
  | addDimension now wname name data =>
      rw [executed]
      obtain ⟨chunks, ids⟩ := db.AddDimension_keeps now wname name data
      exact .inl ⟨chunks, ids, fun _ => rfl⟩
  | setDimensionData wname dname data =>
      rw [executed]
      exact .inl ⟨rfl, db.SetDimensionData_keeps wname dname data, fun _ => rfl⟩
  | addChunkRaw now wname dname cx cz dat =>
      rcases db.AddChunkRaw_cases now wname dname cx cz dat with
        ⟨refusal, refused, chunks, ids⟩ | ⟨did, data, known, rfl, member, done⟩
      · refine .inl ⟨?_, ?_, fun next =>
          accepted_refused ((congrArg Prod.snd executed).trans refused)⟩ <;> rw [executed]
        · exact chunks
        · exact ids
      · exact .inr ⟨now, wname, dname, cx, cz, data, did, known, rfl, member,
          executed.trans done⟩

/-- A statement writes its row behind the others, if it is an accepted write, and leaves the
chunks alone otherwise. -/
theorem LogOf.step {log : List (Write Time)} {db next : Database Time L D}
    {statement : Statement Time L D} (logOf : LogOf log db)
    (transition : pgStorage.step db statement = some next) :
    LogOf (log ++ accepted db statement next) next := by
  cases transition
  rcases db.execute_cases statement with ⟨chunks, ids, nothing⟩ |
    ⟨now, wname, dname, cx, cz, data, did, known, rfl, member, done⟩
  · rw [nothing]
    exact LogOf.quiet (logOf.keeps chunks ids)
  · have written (next : Database Time L D) :
        accepted db (.addChunkRaw now wname dname cx cz (some data)) next =
          [⟨wname, dname, cx, cz, now, data⟩] := if_pos (congrArg Prod.snd done)
    rw [written, done]
    exact List.rel_append
      (logOf.imp fun _ _ row => ⟨row.dim, row.x, row.z, row.created_at, row.data⟩)
      (.cons ⟨member, rfl, rfl, rfl, rfl⟩ .nil)

/-- The table of chunks is the log of the accepted writes. -/
theorem logOf_run {statements : List (Statement Time L D)} {db : Database Time L D}
    (run : pgStorage.Runs .empty statements db) :
    LogOf (pgStorage.history accepted .empty statements) db :=
  run.history LogOf LogOf.step .nil

end WebChunk.Postgres
