import WebChunk.Postgres.Chunks

/-!
# The database

The tables that `init.sh` creates, with their constraints as fields, and the statements of the
storage that change them. A statement is one transaction: it is applied, or refused because of a
constraint and leaves the rows alone. The default ids come from sequences, which a refused insert
advances all the same.
-/

namespace WebChunk.Postgres

open WebChunk.Storages WebChunk.Sql

structure WorldRow (Time L : Type) where
  name : String
  alias_ : String
  ip : String
  created_at : WithTop Time
  data : L

structure FullDimensionRow (Time D : Type) extends DimensionRow where
  created_at : WithTop Time
  data : D

section Keys

variable {Row Key : Type} {rows : List Row} {row : Row} {key : Row → Key}

/-- A row with a key of its own may be inserted. -/
theorem keys_concat (keys : (rows.map key).Nodup) (free : key row ∉ rows.map key) :
    ((rows ++ [row]).map key).Nodup := by
  rw [List.map_append, List.map_singleton, ← List.concat_eq_append]
  exact keys.concat free

/-- A row that is referred to stays. -/
theorem mem_keys_concat {k : Key} (member : k ∈ rows.map key) : k ∈ (rows ++ [row]).map key := by
  rw [List.map_append]
  exact List.mem_append_left _ member

/-- What the old rows and the new one have in common. -/
theorem forall_concat {property : Row → Prop} (old : ∀ r ∈ rows, property r)
    (new : property row) : ∀ r ∈ rows ++ [row], property r := by
  intro r member
  rcases List.mem_append.mp member with before | added
  · exact old r before
  · exact List.mem_singleton.mp added ▸ new

/-- The next value of a sequence is no id yet. -/
theorem next_free {id : Row → Nat} {last : Nat} (issued : ∀ r ∈ rows, id r ≤ last) :
    last + 1 ∉ rows.map id := by
  intro member
  obtain ⟨r, here, same⟩ := List.mem_map.mp member
  have bounded := issued r here
  omega

end Keys

/-- Why a statement is refused, with the constraint, the column or the sequence; the last two are
parameters that cannot be bound. -/
inductive Refusal where
  | uniqueViolation (constraint : String)
  | foreignKeyViolation (constraint : String)
  | notNullViolation (column : String)
  | sequenceLimit (sequence : String)
  | outOfRange
  | invalidText
  deriving DecidableEq

/-- The range of the type `integer`. -/
def InInt4 (n : Int) : Prop := -2147483648 ≤ n ∧ n ≤ 2147483647

instance (n : Int) : Decidable (InInt4 n) := inferInstanceAs (Decidable (_ ∧ _))

/-- The last value of the sequence of a `SERIAL` column. -/
def serialLimit : Nat := 2147483647

/-- The three tables and the last values that their sequences have given. Level data and dimension
types are opaque. -/
structure Database (Time L D : Type) where
  worlds : List (WorldRow Time L)
  dimensions : List (FullDimensionRow Time D)
  chunks : List (ChunkRow Time)
  dimensionSeq : Nat
  chunkSeq : Nat
  worldNames : (worlds.map WorldRow.name).Nodup
  dimensionNames : (dimensions.map fun d => (d.world, d.name)).Nodup
  dimensionKeys : (dimensions.map fun d => d.id).Nodup
  chunkKeys : (chunks.map ChunkRow.id).Nodup
  inWorld : ∀ d ∈ dimensions, d.world ∈ worlds.map WorldRow.name
  inDimension : ∀ c ∈ chunks, c.dim ∈ dimensions.map fun d => d.id
  dimensionsIssued : ∀ d ∈ dimensions, d.id ≤ dimensionSeq
  chunksIssued : ∀ c ∈ chunks, c.id ≤ chunkSeq

namespace Database

variable {Time L D : Type}

/-- The tables as `init.sh` leaves them. -/
def empty : Database Time L D where
  worlds := []
  dimensions := []
  chunks := []
  dimensionSeq := 0
  chunkSeq := 0
  worldNames := .nil
  dimensionNames := .nil
  dimensionKeys := .nil
  chunkKeys := .nil
  inWorld := nofun
  inDimension := nofun
  dimensionsIssued := nofun
  chunksIssued := nofun

/-- What the reads of chunks look at. -/
def tables (db : Database Time L D) : Tables Time where
  dimensions := db.dimensions.map FullDimensionRow.toDimensionRow
  chunks := db.chunks
  unique := List.pairwise_map.mpr (List.pairwise_map.mp db.dimensionNames)
  primary := List.pairwise_map.mp db.chunkKeys

theorem mem_dimensionIds {db : Database Time L D} {wname dname : String} {did : Nat} :
    did ∈ db.tables.dimensionIds wname dname ↔
      ∃ d ∈ db.dimensions, d.world = wname ∧ d.name = dname ∧ d.id = did := by
  simp [Tables.dimensionIds, tables, and_assoc]

/-- A selected id is one of the table. -/
theorem known_of_mem {db : Database Time L D} {wname dname : String} {did : Nat}
    (member : did ∈ db.tables.dimensionIds wname dname) :
    did ∈ db.dimensions.map fun d => d.id := by
  obtain ⟨d, here, -, -, same⟩ := mem_dimensionIds.mp member
  exact List.mem_map.mpr ⟨d, here, same⟩

/-! ### Worlds -/

/-- `AddWorld`. -/
def AddWorld (db : Database Time L D) (now : Time) (name alias_ ip : String) (data : L) :
    Database Time L D × Option Refusal :=
  if free : name ∉ db.worlds.map WorldRow.name then
    ({ db with
        worlds := db.worlds ++ [⟨name, alias_, ip, now, data⟩]
        worldNames := keys_concat db.worldNames free
        inWorld := fun d member => mem_keys_concat (db.inWorld d member) }, none)
  else (db, some (.uniqueViolation "worlds_pkey"))

/-- `UPDATE worlds SET .. WHERE name = wname`. -/
def updateWorld (db : Database Time L D) (wname : String) (set : WorldRow Time L → WorldRow Time L)
    (named : ∀ w, (set w).name = w.name) : Database Time L D :=
  have names : (db.worlds.map fun w => if w.name = wname then set w else w).map WorldRow.name =
      db.worlds.map WorldRow.name := by
    rw [List.map_map]
    refine List.map_congr_left fun w _ => ?_
    rw [Function.comp_apply]
    split
    · exact named w
    · rfl
  { db with
    worlds := db.worlds.map fun w => if w.name = wname then set w else w
    worldNames := names ▸ db.worldNames
    inWorld := fun d member => names ▸ db.inWorld d member }

def SetWorldAlias (db : Database Time L D) (wname newalias : String) : Database Time L D :=
  db.updateWorld wname (fun w => { w with alias_ := newalias }) fun _ => rfl

def SetWorldIP (db : Database Time L D) (wname newip : String) : Database Time L D :=
  db.updateWorld wname (fun w => { w with ip := newip }) fun _ => rfl

def SetWorldData (db : Database Time L D) (wname : String) (data : L) : Database Time L D :=
  db.updateWorld wname (fun w => { w with data := data }) fun _ => rfl

/-! ### Dimensions -/

/-- `nextval` of the sequence of `dimensions`. -/
def drawDimension (db : Database Time L D) : Database Time L D :=
  { db with
    dimensionSeq := db.dimensionSeq + 1
    dimensionsIssued := fun d member => Nat.le_succ_of_le (db.dimensionsIssued d member) }

/-- `AddDimension`. -/
def AddDimension (db : Database Time L D) (now : Time) (wname name : String) (data : D) :
    Database Time L D × Option Refusal :=
  if db.dimensionSeq ≥ serialLimit then (db, some (.sequenceLimit "dimensions_id_seq"))
  else if free : (wname, name) ∉ db.dimensions.map fun d => (d.world, d.name) then
    if known : wname ∈ db.worlds.map WorldRow.name then
      ({ db.drawDimension with
          dimensions := db.dimensions ++ [⟨⟨db.dimensionSeq + 1, wname, name⟩, now, data⟩]
          dimensionNames := keys_concat db.dimensionNames free
          dimensionKeys := keys_concat db.dimensionKeys (next_free db.dimensionsIssued)
          inWorld := forall_concat db.inWorld known
          inDimension := fun c member => mem_keys_concat (db.inDimension c member)
          dimensionsIssued := forall_concat db.drawDimension.dimensionsIssued (Nat.le_refl _) },
        none)
    else (db.drawDimension, some (.foreignKeyViolation "dimensions_world_fkey"))
  else (db.drawDimension, some (.uniqueViolation "dimensions_world_name_key"))

/-- `SetDimensionData`. -/
def SetDimensionData (db : Database Time L D) (wname dname : String) (data : D) :
    Database Time L D :=
  let set := fun d : FullDimensionRow Time D =>
    if d.name = dname ∧ d.world = wname then { d with data := data } else d
  have row : ∀ d, (set d).toDimensionRow = d.toDimensionRow := fun d => by
    dsimp only [set]
    split <;> rfl
  have same {α : Type} (f : DimensionRow → α) :
      (db.dimensions.map set).map (fun d => f d.toDimensionRow) =
        db.dimensions.map fun d => f d.toDimensionRow := by
    rw [List.map_map]
    exact List.map_congr_left fun d _ => congrArg f (row d)
  { db with
    dimensions := db.dimensions.map set
    dimensionNames := (same fun d => (d.world, d.name)) ▸ db.dimensionNames
    dimensionKeys := (same DimensionRow.id) ▸ db.dimensionKeys
    inWorld := fun d member => by
      obtain ⟨old, here, rfl⟩ := List.mem_map.mp member
      rw [row]
      exact db.inWorld old here
    inDimension := fun c member => (same DimensionRow.id) ▸ db.inDimension c member
    dimensionsIssued := fun d member => by
      obtain ⟨old, here, rfl⟩ := List.mem_map.mp member
      rw [row]
      exact db.dimensionsIssued old here }

/-! ### Chunks -/

/-- `nextval` of the sequence of `chunks`. -/
def drawChunk (db : Database Time L D) : Database Time L D :=
  { db with
    chunkSeq := db.chunkSeq + 1
    chunksIssued := fun c member => Nat.le_succ_of_le (db.chunksIssued c member) }

/-- A row behind the others, with a fresh id. -/
def insertChunk (db : Database Time L D) (now : Time) (did : Nat) (cx cz : Int) (data : Bytes)
    (known : did ∈ db.dimensions.map fun d => d.id) : Database Time L D :=
  { db.drawChunk with
    chunks := db.chunks ++ [⟨db.chunkSeq + 1, did, now, cx, cz, data⟩]
    chunkKeys := keys_concat db.chunkKeys (next_free db.chunksIssued)
    inDimension := forall_concat db.inDimension known
    chunksIssued := forall_concat db.drawChunk.chunksIssued (Nat.le_refl _) }

/-- `AddChunkRaw`; a nil slice is `none`, which becomes null, as does the subquery on a dimension
that is not there. -/
def AddChunkRaw (db : Database Time L D) (now : Time) (wname dname : String) (cx cz : Int)
    (dat : Option Bytes) : Database Time L D × Option Refusal :=
  if ¬ (InInt4 cx ∧ InInt4 cz) then (db, some .outOfRange)
  else if db.chunkSeq ≥ serialLimit then (db, some (.sequenceLimit "chunks_id_seq"))
  else
    match selected : (db.tables.dimensionIds wname dname).head?, dat with
    | none, _ => (db.drawChunk, some (.notNullViolation "dim"))
    | some _, none => (db.drawChunk, some (.notNullViolation "data"))
    | some did, some data =>
        (db.insertChunk now did cx cz data (known_of_mem (List.mem_of_head? selected)), none)

end Database

end WebChunk.Postgres
