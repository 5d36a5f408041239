import WebChunk.Postgres.Versions
import WebChunk.Sql.Groups

/-!
# What the reads answer after any run

The counts of the storage are counts of accepted writes. The reads of one chunk and of a rectangle
return the last accepted write of a chunk, if the clock of the server has gone on between the
writes of that chunk.
-/

namespace WebChunk.Postgres

open WebChunk.Storages WebChunk.Sql WebChunk.Semantics

variable {Time L D : Type}

/-! ### Counts -/

/-- `GetChunksCount`. -/
def GetChunksCount (db : Database Time L D) : Nat := db.chunks.length

/-- `GetDimensionChunksCount`. -/
def GetDimensionChunksCount (db : Database Time L D) (wname dname : String) :
    Nat × Option StorageError :=
  match (db.tables.dimensionIds wname dname).head? with
  | none => (0, some (.other "world/dimension not found"))
  | some dimID => (db.chunks.countP fun c => c.dim = dimID, none)

/-- `chunkStorage.ChunkData` with a count. -/
structure ChunkCount where
  X : Int
  Z : Int
  Data : Nat
  deriving DecidableEq

/-- The largest counts come first. -/
abbrev CountServer := Server fun c : ChunkCount => c.Data

/-- `GetChunksCountRegion`; `failed` is an error of the query other than `pgx.ErrNoRows`. -/
def GetChunksCountRegion (server : CountServer) (db : Database Time L D)
    (failed : Option StorageError) (wname dname : String) (cx0 cz0 cx1 cz1 : Int) :
    List ChunkCount × Option StorageError :=
  match failed with
  | some err => ([], some err)
  | none =>
      let rows := db.chunks.filter fun c =>
        c.dim ∈ db.tables.dimensionIds wname dname ∧
          c.x ≥ cx0 ∧ c.z ≥ cz0 ∧ c.x < cx1 ∧ c.z < cz1
      let groups := groupCounts (fun c : ChunkRow Time => (c.x, c.z)) rows
      (server.orderDesc (groups.map fun g => ⟨g.1.1, g.1.2, g.2⟩), none)

/-- A write of this dimension. -/
def Write.inDimension (wname dname : String) (v : Write Time) : Bool :=
  v.world = wname ∧ v.dimension = dname

/-- A write of this chunk. -/
def Write.ofChunk (wname dname : String) (x z : Int) (v : Write Time) : Bool :=
  v.inDimension wname dname ∧ v.x = x ∧ v.z = z

/-! ### Rows and writes -/

namespace Database

variable {db : Database Time L D} {wname dname : String} {did : Nat}

/-- An id is that of one name. -/
theorem names_unique {wname' dname' : String} (member : did ∈ db.tables.dimensionIds wname dname)
    (member' : did ∈ db.tables.dimensionIds wname' dname') : wname = wname' ∧ dname = dname' := by
  obtain ⟨d, here, rfl, rfl, rfl⟩ := mem_dimensionIds.mp member
  obtain ⟨d', here', rfl, rfl, same⟩ := mem_dimensionIds.mp member'
  have equal : d' = d := List.inj_on_of_nodup_map db.dimensionKeys here' here same
  rw [equal]
  exact ⟨rfl, rfl⟩

theorem ids_eq (member : did ∈ db.tables.dimensionIds wname dname) :
    db.tables.dimensionIds wname dname = [did] := by
  rcases dimensionIds_cases db.tables wname dname with unknown | ⟨only, known⟩
  · rw [unknown] at member
    cases member
  · rw [known] at member ⊢
    rw [List.mem_singleton.mp member]

end Database

/-- A row lies in the dimension that its write names. -/
theorem RowOf.dim_iff {db : Database Time L D} {c : ChunkRow Time} {v : Write Time}
    (row : RowOf db c v) {wname dname : String} :
    c.dim ∈ db.tables.dimensionIds wname dname ↔ v.inDimension wname dname = true := by
  simp only [Write.inDimension, decide_eq_true_eq]
  constructor
  · exact fun member => Database.names_unique row.dim member
  · rintro ⟨rfl, rfl⟩
    exact row.dim

namespace LogOf

variable {db : Database Time L D} {log : List (Write Time)}

/-- Rows and writes that correspond are selected together. -/
theorem filter (logOf : LogOf log db) {p : ChunkRow Time → Bool} {q : Write Time → Bool}
    (same : ∀ c v, RowOf db c v → (p c = true ↔ q v = true)) :
    List.Forall₂ (RowOf db) (db.chunks.filter p) (log.filter q) := by
  unfold LogOf at logOf
  generalize db.chunks = table at logOf ⊢
  induction logOf with
  | nil => exact .nil
  | @cons c v rows writes row rest inductionHypothesis =>
      by_cases selected : p c = true
      · rw [List.filter_cons_of_pos selected,
          List.filter_cons_of_pos ((same c v row).mp selected)]
        exact .cons row inductionHypothesis
      · rw [List.filter_cons_of_neg selected,
          List.filter_cons_of_neg fun other => selected ((same c v row).mpr other)]
        exact inductionHypothesis

/-- The versions of a chunk are its writes. -/
theorem versions (logOf : LogOf log db) {wname dname : String} {did : Nat}
    (known : did ∈ db.tables.dimensionIds wname dname) (x z : Int) :
    List.Forall₂ (RowOf db) (db.tables.versions did x z)
      (log.filter (Write.ofChunk wname dname x z)) := by
  refine logOf.filter fun c v row => ?_
  have dim : c.dim = did ↔ c.dim ∈ db.tables.dimensionIds wname dname := by
    rw [Database.ids_eq known, List.mem_singleton]
  simp only [decide_eq_true_eq, Write.ofChunk, dim, row.dim_iff, row.x, row.z]
  tauto

/-- Nothing was written into a dimension that is not there. -/
theorem unknown (logOf : LogOf log db) {wname dname : String}
    (missing : db.tables.dimensionIds wname dname = []) :
    ∀ v ∈ log, v.inDimension wname dname = false := by
  intro v member
  have pairs : List.Forall₂ (RowOf db) (db.chunks.filter fun c =>
      c.dim ∈ db.tables.dimensionIds wname dname) (log.filter (Write.inDimension wname dname)) :=
    logOf.filter fun c v row => by rw [decide_eq_true_eq, row.dim_iff]
  rw [missing] at pairs
  simp only [List.not_mem_nil, decide_false, List.filter_false] at pairs
  have nothing := List.forall₂_nil_left_iff.mp pairs
  exact Bool.eq_false_iff.mpr fun inside => (List.filter_eq_nil_iff.mp nothing v member) inside

end LogOf

instance (cx0 cz0 cx1 cz1 x z : Int) : Decidable (InRegion cx0 cz0 cx1 cz1 x z) :=
  inferInstanceAs (Decidable (_ ∧ _))

/-- The entries of a count for one chunk. -/
def countEntries (cc : List ChunkCount) (x z : Int) : List ChunkCount :=
  cc.filter fun entry => entry.X = x ∧ entry.Z = z

/-- The rows of a rectangle that `GetChunksCountRegion` groups. -/
def countedRows (db : Database Time L D) (wname dname : String) (cx0 cz0 cx1 cz1 : Int) :
    List (ChunkRow Time) :=
  db.chunks.filter fun c =>
    c.dim ∈ db.tables.dimensionIds wname dname ∧
      c.x ≥ cx0 ∧ c.z ≥ cz0 ∧ c.x < cx1 ∧ c.z < cz1

/-- The rows of a chunk in a rectangle are its writes. -/
theorem count_countedRows {db : Database Time L D} {log : List (Write Time)} (logOf : LogOf log db)
    (wname dname : String) (cx0 cz0 cx1 cz1 x z : Int) :
    (countedRows db wname dname cx0 cz0 cx1 cz1).countP (fun c => (c.x, c.z) = (x, z)) =
      if InRegion cx0 cz0 cx1 cz1 x z then log.countP (Write.ofChunk wname dname x z) else 0 := by
  rw [countedRows, List.countP_filter, List.countP_eq_length_filter]
  split
  · rename_i inside
    obtain ⟨left, top, right, bottom⟩ := inside
    rw [List.countP_eq_length_filter]
    refine (logOf.filter fun c v row => ?_).length_eq
    simp only [Bool.and_eq_true, Prod.mk.injEq, decide_eq_true_eq, Write.ofChunk, row.dim_iff,
      row.x, row.z]
    constructor
    · rintro ⟨⟨rfl, rfl⟩, dim, -⟩
      exact ⟨dim, rfl, rfl⟩
    · rintro ⟨dim, rfl, rfl⟩
      exact ⟨⟨rfl, rfl⟩, dim, left, top, right, bottom⟩
  · rename_i outside
    rw [List.length_eq_zero_iff, List.filter_eq_nil_iff]
    intro c member selected
    simp only [Bool.and_eq_true, Prod.mk.injEq, decide_eq_true_eq] at selected
    obtain ⟨⟨rfl, rfl⟩, -, left, top, right, bottom⟩ := selected
    exact outside ⟨left, top, right, bottom⟩

/-- The groups of a rectangle, as they are listed. -/
def countGroups (db : Database Time L D) (wname dname : String) (cx0 cz0 cx1 cz1 : Int) :
    List ChunkCount :=
  (groupCounts (fun c : ChunkRow Time => (c.x, c.z))
    (countedRows db wname dname cx0 cz0 cx1 cz1)).map fun g => ⟨g.1.1, g.1.2, g.2⟩

theorem countEntries_groups {db : Database Time L D} {log : List (Write Time)}
    (logOf : LogOf log db) (wname dname : String) (cx0 cz0 cx1 cz1 x z : Int) :
    countEntries (countGroups db wname dname cx0 cz0 cx1 cz1) x z =
      if InRegion cx0 cz0 cx1 cz1 x z ∧ 0 < log.countP (Write.ofChunk wname dname x z) then
        [⟨x, z, log.countP (Write.ofChunk wname dname x z)⟩] else [] := by
  have number := count_countedRows logOf wname dname cx0 cz0 cx1 cz1 x z
  have place : ((fun entry : ChunkCount => decide (entry.X = x ∧ entry.Z = z)) ∘
      fun g : (Int × Int) × Nat => (⟨g.1.1, g.1.2, g.2⟩ : ChunkCount)) =
      fun g => decide (g.1 = (x, z)) := by
    funext g
    simp [Prod.ext_iff]
  rw [countEntries, countGroups, List.filter_map, place, groupCounts_filter, number]
  by_cases inside : InRegion cx0 cz0 cx1 cz1 x z
  · simp only [inside, if_true, true_and]
    split <;> rfl
  · simp only [inside, if_false, false_and, Nat.lt_irrefl, List.map_nil]

/-- The entries count the rows of the rectangle. -/
theorem countGroups_sum (db : Database Time L D) (wname dname : String)
    (cx0 cz0 cx1 cz1 : Int) :
    ((countGroups db wname dname cx0 cz0 cx1 cz1).map ChunkCount.Data).sum =
      (countedRows db wname dname cx0 cz0 cx1 cz1).length := by
  rw [countGroups, List.map_map]
  exact groupCounts_sum

/-- The answer has one entry for each chunk of the rectangle with writes. -/
theorem countEntries_region {db : Database Time L D} {log : List (Write Time)}
    (logOf : LogOf log db) (server : CountServer) (wname dname : String)
    (cx0 cz0 cx1 cz1 x z : Int) :
    countEntries (GetChunksCountRegion server db none wname dname cx0 cz0 cx1 cz1).1 x z =
      if InRegion cx0 cz0 cx1 cz1 x z ∧ 0 < log.countP (Write.ofChunk wname dname x z) then
        [⟨x, z, log.countP (Write.ofChunk wname dname x z)⟩] else [] := by
  have perm : (countEntries (GetChunksCountRegion server db none wname dname
      cx0 cz0 cx1 cz1).1 x z).Perm
        (countEntries (countGroups db wname dname cx0 cz0 cx1 cz1) x z) :=
    (server.orderDesc_perm _).filter _
  rw [countEntries_groups logOf] at perm
  split at perm
  · rw [if_pos ‹_›]
    exact List.perm_singleton.mp perm
  · rw [if_neg ‹_›]
    exact List.perm_nil.mp perm

/-- The rows of a rectangle are the writes in it. -/
theorem length_countedRows {db : Database Time L D} {log : List (Write Time)}
    (logOf : LogOf log db) (wname dname : String) (cx0 cz0 cx1 cz1 : Int) :
    (countedRows db wname dname cx0 cz0 cx1 cz1).length =
      log.countP fun v => v.inDimension wname dname ∧ InRegion cx0 cz0 cx1 cz1 v.x v.z := by
  rw [List.countP_eq_length_filter]
  refine (logOf.filter fun c v row => ?_).length_eq
  simp only [decide_eq_true_eq, row.dim_iff, row.x, row.z]
  exact Iff.rfl

/-- The counts of the storage are the numbers of accepted writes, in all, in a dimension and of each
chunk of a rectangle, whose entries come with the largest first and add up to its writes. -/
theorem countsAreWrites {statements : List (Statement Time L D)} {db : Database Time L D}
    (run : pgStorage.Runs .empty statements db) :
    let log := pgStorage.history accepted .empty statements
    GetChunksCount db = log.length ∧
      (∀ wname dname, GetDimensionChunksCount db wname dname =
        if db.tables.dimensionIds wname dname = [] then
          (0, some (.other "world/dimension not found"))
        else (log.countP (Write.inDimension wname dname), none)) ∧
      ∀ (server : CountServer) (wname dname : String) (cx0 cz0 cx1 cz1 : Int),
        (∀ x z, countEntries
            (GetChunksCountRegion server db none wname dname cx0 cz0 cx1 cz1).1 x z =
          if InRegion cx0 cz0 cx1 cz1 x z ∧ 0 < log.countP (Write.ofChunk wname dname x z) then
            [⟨x, z, log.countP (Write.ofChunk wname dname x z)⟩] else []) ∧
        (GetChunksCountRegion server db none wname dname cx0 cz0 cx1 cz1).1.Pairwise
          (fun first second => second.Data ≤ first.Data) ∧
        ((GetChunksCountRegion server db none wname dname cx0 cz0 cx1 cz1).1.map
          ChunkCount.Data).sum =
            log.countP fun v => v.inDimension wname dname ∧ InRegion cx0 cz0 cx1 cz1 v.x v.z := by
  intro log
  have logOf : LogOf log db := logOf_run run
  refine ⟨logOf.length_eq, fun wname dname => ?_, fun server wname dname cx0 cz0 cx1 cz1 =>
    ⟨countEntries_region logOf server wname dname cx0 cz0 cx1 cz1, server.orderDesc_sorted _,
      ((server.orderDesc_perm _).map _).sum_eq.trans ((countGroups_sum ..).trans
        (length_countedRows logOf wname dname cx0 cz0 cx1 cz1))⟩⟩
  rcases dimensionIds_cases db.tables wname dname with unknown | ⟨did, known⟩
  · rw [if_pos unknown, GetDimensionChunksCount, unknown]
    rfl
  · rw [if_neg (by rw [known]; exact List.cons_ne_nil _ _), GetDimensionChunksCount, known]
    dsimp only [List.head?_cons]
    rw [List.countP_eq_length_filter, List.countP_eq_length_filter]
    refine congrArg (·, none) (logOf.filter fun c v row => ?_).length_eq
    rw [decide_eq_true_eq, ← row.dim_iff, known, List.mem_singleton]

/-- A world, a dimension, two versions of a chunk, and a write into a dimension that is not there. -/
def sampleStatements : List (Statement Nat Unit Unit) :=
  [.addWorld 1 "survival" "" "" (), .addDimension 2 "survival" "overworld" (),
    .addChunkRaw 3 "survival" "overworld" 0 0 (some [1]),
    .addChunkRaw 4 "survival" "overworld" 0 0 (some [2]),
    .addChunkRaw 5 "survival" "the_nether" 0 0 (some [3])]

def sampleDatabase : Database Nat Unit Unit :=
  (pgStorage.exec .empty sampleStatements).get rfl

theorem countsAreWrites_sample :
    let log := pgStorage.history accepted .empty sampleStatements
    GetChunksCount sampleDatabase = log.length ∧
      (∀ wname dname, GetDimensionChunksCount sampleDatabase wname dname =
        if sampleDatabase.tables.dimensionIds wname dname = [] then
          (0, some (.other "world/dimension not found"))
        else (log.countP (Write.inDimension wname dname), none)) ∧
      ∀ (server : CountServer) (wname dname : String) (cx0 cz0 cx1 cz1 : Int),
        (∀ x z, countEntries
            (GetChunksCountRegion server sampleDatabase none wname dname cx0 cz0 cx1 cz1).1 x z =
          if InRegion cx0 cz0 cx1 cz1 x z ∧ 0 < log.countP (Write.ofChunk wname dname x z) then
            [⟨x, z, log.countP (Write.ofChunk wname dname x z)⟩] else []) ∧
        (GetChunksCountRegion server sampleDatabase none wname dname cx0 cz0 cx1 cz1).1.Pairwise
          (fun first second => second.Data ≤ first.Data) ∧
        ((GetChunksCountRegion server sampleDatabase none wname dname cx0 cz0 cx1 cz1).1.map
          ChunkCount.Data).sum =
            log.countP fun v => v.inDimension wname dname ∧ InRegion cx0 cz0 cx1 cz1 v.x v.z :=
  countsAreWrites (Machine.runs_exec_get rfl)

/-! ### The last write -/

/-- `GetChunkModDate`; `failed` is an error of the query other than `pgx.ErrNoRows`, and `scan` the
error of scanning a null. -/
def GetChunkModDate [LinearOrder Time] (server : PgServer Time) (db : Tables Time)
    (failed : Option StorageError) (scan : StorageError) (wname dname : String) (cx cz : Int) :
    Option Time × Option StorageError :=
  match failed with
  | some err => (none, some err)
  | none =>
      match db.dimensionIds wname dname with
      | [] => (none, none)
      | [did] =>
          match (server.orderDesc (db.versions did cx cz)).head? with
          | none => (none, none)
          | some c =>
              match c.created_at with
              | none => (none, some scan)
              | some t => (some t, none)
      | _ => (none, some (.other "more than one row returned by a subquery"))

/-- The clock of the server is past all versions of the chunk that is written. -/
def clockGoesOn [LinearOrder Time] (db : Database Time L D) : Statement Time L D → Bool
  | .addChunkRaw now wname dname cx cz _ =>
      (db.tables.dimensionIds wname dname).all fun did =>
        (db.tables.versions did cx cz).all fun c => decide (c.created_at < now)
  | _ => true

/-- The versions of a chunk are stored in the order of their times. -/
def Ordered [LinearOrder Time] (db : Database Time L D) : Prop :=
  ∀ did x z, (db.tables.versions did x z).Pairwise fun c c' => c.created_at < c'.created_at

/-- Corresponding lists end alike. -/
theorem getLast?_rows {db : Database Time L D} {rows : List (ChunkRow Time)}
    {writes : List (Write Time)}
    (pairs : List.Forall₂ (RowOf db) rows writes) :
    rows.getLast?.map (fun c => (c.created_at, c.data)) =
      writes.getLast?.map fun v => ((v.time : WithTop Time), v.data) := by
  induction pairs with
  | nil => rfl
  | @cons c v rows writes row rest inductionHypothesis =>
      cases rest with
      | nil =>
          rw [List.getLast?_singleton, List.getLast?_singleton, Option.map_some, Option.map_some,
            row.created_at, row.data]
      | cons => simpa [List.getLast?_cons_cons] using inductionHypothesis

/-- Corresponding lists are ordered alike. -/
theorem pairwise_of_forall₂ {α β : Type*} {R : α → β → Prop} {P : β → β → Prop}
    {Q : α → α → Prop} {xs : List α} {ys : List β} (pairs : List.Forall₂ R xs ys)
    (ordered : ys.Pairwise P) (reflects : ∀ {x x' y y'}, R x y → R x' y' → P y y' → Q x x') :
    xs.Pairwise Q := by
  have same := pairs.length_eq
  rw [List.pairwise_iff_getElem] at ordered ⊢
  intro i j here there before
  exact reflects (pairs.get here (same ▸ here)) (pairs.get there (same ▸ there))
    (ordered i j _ _ before)

section LastWrite

variable [LinearOrder Time] {db next : Database Time L D} {log : List (Write Time)}

theorem Ordered.step (ordered : Ordered db) {statement : Statement Time L D}
    (later : clockGoesOn db statement = true)
    (transition : pgStorage.step db statement = some next) : Ordered next := by
  cases transition
  intro did x z
  have versions : (db.execute statement).1.tables.versions did x z =
      (db.execute statement).1.chunks.filter fun c => c.x = x ∧ c.z = z ∧ c.dim = did := rfl
  rw [versions]
  rcases db.execute_cases statement with ⟨same, -, -⟩ |
    ⟨now, wname, dname, cx, cz, data, own, known, rfl, member, done⟩
  · rw [same]
    exact ordered did x z
  · have added : (db.insertChunk now own cx cz data known).chunks =
        db.chunks ++ [⟨db.chunkSeq + 1, own, now, cx, cz, data⟩] := rfl
    rw [done, added, List.filter_append]
    refine List.pairwise_append.mpr ⟨ordered did x z, List.Pairwise.filter _
      (List.pairwise_singleton _ _), fun old here new there => ?_⟩
    obtain ⟨single, place⟩ := List.mem_filter.mp there
    rw [List.mem_singleton.mp single] at place ⊢
    simp only [decide_eq_true_eq] at place
    obtain ⟨rfl, rfl, rfl⟩ := place
    exact of_decide_eq_true (List.all_eq_true.mp (List.all_eq_true.mp later own member) old here)

theorem ordered_run {statements : List (Statement Time L D)}
    (run : pgStorage.Runs .empty statements db)
    (steps : pgStorage.StepsOnly (fun db statement => clockGoesOn db statement = true) .empty
      statements) : Ordered db :=
  run.invariant (fun ordered later transition => Ordered.step ordered later transition) steps
    fun _ _ _ => .nil

/-- What is read of the versions of a chunk is the last write of it. -/
theorem head_versions (logOf : LogOf log db) (ordered : Ordered db) (server : PgServer Time)
    {wname dname : String} {did : Nat} (known : did ∈ db.tables.dimensionIds wname dname)
    (x z : Int) :
    (server.orderDesc (db.tables.versions did x z)).head?.map (fun c => (c.created_at, c.data)) =
      (log.filter (Write.ofChunk wname dname x z)).getLast?.map
        fun v => ((v.time : WithTop Time), v.data) := by
  rw [server.head_eq_getLast? (ordered did x z)]
  exact getLast?_rows (logOf.versions known x z)

/-- The entries of a rectangle for a chunk are its last write. -/
theorem entries_last (logOf : LogOf log db) (ordered : Ordered db) (server : PgServer Time)
    {wname dname : String} {did : Nat} (known : db.tables.dimensionIds wname dname = [did])
    (x z cx0 cz0 cx1 cz1 : Int) :
    entries (GetChunksRegionRaw server db.tables none none wname dname cx0 cz0 cx1 cz1).1 x z =
      if InRegion cx0 cz0 cx1 cz1 x z then
        ((log.filter (Write.ofChunk wname dname x z)).getLast?.map
          fun v => (⟨x, z, v.data⟩ : ChunkData)).toList
      else [] := by
  have member : did ∈ db.tables.dimensionIds wname dname := known ▸ List.mem_singleton_self did
  have pairs := logOf.versions member x z
  have noTies : NoTies db.tables wname dname cx0 cz0 cx1 cz1 := by
    intro did' _ x z _ v v' latest latest'
    have same := (latest.getLast? (ordered did' x z)).symm.trans
      (latest'.getLast? (ordered did' x z))
    exact Option.some.inj same
  rw [GetChunksRegionRaw_known server known]
  split
  · rename_i inside
    by_cases stored : db.tables.versions did x z = []
    · have nothing : ¬ (InRegion cx0 cz0 cx1 cz1 x z ∧ Stored db.tables wname dname x z) :=
        fun both => (stored_iff known x z).mp both.2 stored
      rw [stored] at pairs
      rw [entries_outside server known nothing, List.forall₂_nil_left_iff.mp pairs]
      rfl
    · obtain ⟨v, latest, only⟩ := entry_of_noTies server known noTies inside stored
      have last := getLast?_rows pairs
      rw [latest.getLast? (ordered did x z), Option.map_some] at last
      obtain ⟨write, found, same⟩ := Option.map_eq_some_iff.mp last.symm
      have data : write.data = v.data := (Prod.ext_iff.mp same).2
      rw [only, found, ← data]
      rfl
  · rename_i outside
    exact entries_outside server known fun both => outside both.1

/-- The reads of a chunk, if its versions are in the order of their times. -/
theorem reads_of_log (logOf : LogOf log db) (ordered : Ordered db) (server : PgServer Time)
    (scan : StorageError) (wname dname : String) (x z : Int) :
    let last := (log.filter (Write.ofChunk wname dname x z)).getLast?
    GetChunkRaw server db.tables none wname dname x z = (last.map Write.data, none) ∧
      GetChunkModDate server db.tables none scan wname dname x z = (last.map Write.time, none) ∧
      ∀ cx0 cz0 cx1 cz1,
        entries (GetChunksRegionRaw server db.tables none none wname dname cx0 cz0 cx1 cz1).1 x z =
          if InRegion cx0 cz0 cx1 cz1 x z then
            (last.map fun v => (⟨x, z, v.data⟩ : ChunkData)).toList
          else [] := by
  rcases dimensionIds_cases db.tables wname dname with unknown | ⟨did, known⟩
  · have nothing : log.filter (Write.ofChunk wname dname x z) = [] := by
      refine List.filter_eq_nil_iff.mpr fun v member inside => ?_
      simp only [Write.ofChunk, logOf.unknown unknown v member, decide_eq_true_eq] at inside
      exact absurd inside.1 Bool.false_ne_true
    rw [nothing]
    refine ⟨?_, ?_, fun cx0 cz0 cx1 cz1 => ?_⟩
    · rw [GetChunkRaw, unknown]
      rfl
    · rw [GetChunkModDate, unknown]
      rfl
    · have none_ : (GetChunksRegionRaw server db.tables none none wname dname cx0 cz0 cx1 cz1).1 =
          [] := by
        rw [GetChunksRegionRaw, unknown]
        rfl
      rw [none_]
      split <;> rfl
  · have member : did ∈ db.tables.dimensionIds wname dname := known ▸ List.mem_singleton_self did
    have first := head_versions logOf ordered server member x z
    refine ⟨?_, ?_, entries_last logOf ordered server known x z⟩
    · rw [GetChunkRaw, known]
      have data := congrArg (Option.map Prod.snd) first
      rw [Option.map_map, Option.map_map] at data
      exact congrArg (·, none) data
    · rw [GetChunkModDate, known]
      dsimp only
      generalize (log.filter _).getLast? = last at first ⊢
      cases head : (server.orderDesc (db.tables.versions did x z)).head? with
      | none =>
          rw [head] at first
          rw [Option.map_eq_none_iff.mp first.symm]
          rfl
      | some c =>
          rw [head] at first
          obtain ⟨v, rfl, same⟩ := Option.map_eq_some_iff.mp first.symm
          have time : c.created_at = some v.time := (Prod.ext_iff.mp same).1.symm
          simp only [time]
          rfl

/-- If the clock goes on between the writes of a chunk, every read of it, alone or with a
rectangle, has the data of its last accepted write, and its modification date is the time of that
write; a chunk that was never written is not found. -/
theorem readsLastWrite {statements : List (Statement Time L D)}
    (run : pgStorage.Runs .empty statements db)
    (steps : pgStorage.StepsOnly (fun db statement => clockGoesOn db statement = true) .empty
      statements) (server : PgServer Time) (scan : StorageError) (wname dname : String)
    (x z : Int) :
    let last := ((pgStorage.history accepted .empty statements).filter
      (Write.ofChunk wname dname x z)).getLast?
    GetChunkRaw server db.tables none wname dname x z = (last.map Write.data, none) ∧
      GetChunkModDate server db.tables none scan wname dname x z = (last.map Write.time, none) ∧
      ∀ cx0 cz0 cx1 cz1,
        entries (GetChunksRegionRaw server db.tables none none wname dname cx0 cz0 cx1 cz1).1 x z =
          if InRegion cx0 cz0 cx1 cz1 x z then
            (last.map fun v => (⟨x, z, v.data⟩ : ChunkData)).toList
          else [] :=
  reads_of_log (logOf_run run) (ordered_run run steps) server scan wname dname x z

/-- Two writes of one chunk have times in their order. -/
def TimesRise (log : List (Write Time)) : Prop :=
  log.Pairwise fun v v' => v'.ofChunk v.world v.dimension v.x v.z = true → v.time < v'.time

instance (log : List (Write Time)) : Decidable (TimesRise log) :=
  inferInstanceAs (Decidable (log.Pairwise _))

/-- Then its versions are stored in the order of their times. -/
theorem ordered_of_log (logOf : LogOf log db) (rise : TimesRise log) : Ordered db := by
  suffices rows : db.chunks.Pairwise fun c c' =>
      c'.dim = c.dim → c'.x = c.x → c'.z = c.z → c.created_at < c'.created_at by
    intro did x z
    refine (List.Pairwise.filter _ rows).imp_of_mem fun {c c'} member member' later => ?_
    obtain ⟨-, place⟩ := List.mem_filter.mp member
    obtain ⟨-, place'⟩ := List.mem_filter.mp member'
    simp only [decide_eq_true_eq] at place place'
    exact later (place'.2.2.trans place.2.2.symm) (place'.1.trans place.1.symm)
      (place'.2.1.trans place.2.1.symm)
  refine pairwise_of_forall₂ logOf rise fun {c c' v v'} row row' later dim x z => ?_
  obtain ⟨world, dimension⟩ := Database.names_unique (dim ▸ row'.dim) row.dim
  rw [row.created_at, row'.created_at, WithTop.coe_lt_coe]
  refine later (decide_eq_true ⟨decide_eq_true ⟨world, dimension⟩, ?_, ?_⟩)
  · rw [← row'.x, x, row.x]
  · rw [← row'.z, z, row.z]

end LastWrite

theorem readsLastWrite_sample :
    let last := ((pgStorage.history accepted .empty sampleStatements).filter
      (Write.ofChunk "survival" "overworld" 0 0)).getLast?
    GetChunkRaw (Server.insertion _) sampleDatabase.tables none "survival" "overworld" 0 0 =
        (last.map Write.data, none) ∧
      GetChunkModDate (Server.insertion _) sampleDatabase.tables none .notImplemented "survival"
        "overworld" 0 0 = (last.map Write.time, none) ∧
      ∀ cx0 cz0 cx1 cz1,
        entries (GetChunksRegionRaw (Server.insertion _) sampleDatabase.tables none none "survival"
            "overworld" cx0 cz0 cx1 cz1).1 0 0 =
          if InRegion cx0 cz0 cx1 cz1 0 0 then
            (last.map fun v => (⟨0, 0, v.data⟩ : ChunkData)).toList
          else [] :=
  readsLastWrite (Machine.runs_exec_get rfl) (Machine.stepsOnly_of_checkSteps (by decide +kernel))
    _ _ _ _ _ _

end WebChunk.Postgres
