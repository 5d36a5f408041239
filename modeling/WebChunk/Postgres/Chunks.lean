import Mathlib.Order.WithBot
import WebChunk.Sql.Ranking
import WebChunk.Storages.Driver

/-!
# Chunks in the database

The tables `dimensions` and `chunks`, and the reads of one chunk and of a rectangle. Every chunk
may have many versions; the single read orders them, the read of a rectangle ranks them.
-/

namespace WebChunk.Postgres

open WebChunk.Storages WebChunk.Sql

structure DimensionRow where
  id : Nat
  world : String
  name : String

/-- A row of `chunks`. `created_at` may be null, which sorts as larger than every time. -/
structure ChunkRow (Time : Type) where
  id : Nat
  dim : Nat
  created_at : WithTop Time
  x : Int
  z : Int
  data : Bytes

/-- What `init.sh` makes sure of: a dimension's name is unique in its world, and ids are keys. -/
structure Tables (Time : Type) where
  dimensions : List DimensionRow
  chunks : List (ChunkRow Time)
  unique : dimensions.Pairwise fun d d' => (d.world, d.name) ≠ (d'.world, d'.name)
  primary : chunks.Pairwise fun c c' => c.id ≠ c'.id

/-- `chunkStorage.ChunkData` with the raw data of a chunk. -/
structure ChunkData where
  X : Int
  Z : Int
  Data : Bytes
  deriving DecidableEq

variable {Time : Type}

/-- The ids that `where world = .. and name = ..` selects. -/
def Tables.dimensionIds (db : Tables Time) (wname dname : String) : List Nat :=
  (db.dimensions.filter fun d => d.world = wname ∧ d.name = dname).map DimensionRow.id

/-- The versions of a chunk in a dimension. -/
def Tables.versions (db : Tables Time) (did : Nat) (cx cz : Int) : List (ChunkRow Time) :=
  db.chunks.filter fun c => c.x = cx ∧ c.z = cz ∧ c.dim = did

/-- Versions are ordered by their time. -/
abbrev PgServer (Time : Type) [LinearOrder Time] :=
  Server fun c : ChunkRow Time => c.created_at

variable [LinearOrder Time]

/-- `GetChunkRaw`; `failed` is an error of the query other than `pgx.ErrNoRows`. -/
def GetChunkRaw (server : PgServer Time) (db : Tables Time) (failed : Option StorageError)
    (wname dname : String) (cx cz : Int) : Option Bytes × Option StorageError :=
  match failed with
  | some err => (none, some err)
  | none =>
      match db.dimensionIds wname dname with
      -- The subquery is null, and nothing equals null.
      | [] => (none, none)
      | [did] => ((server.orderDesc (db.versions did cx cz)).head?.map ChunkRow.data, none)
      | _ => (none, some (.other "more than one row returned by a subquery"))

/-- The query of `GetChunksRegionRaw`. -/
def regionRows (server : PgServer Time) (db : Tables Time) (cx0 cz0 cx1 cz1 : Int)
    (dimID : Nat) : List (ChunkRow Time) :=
  let grp := db.chunks.filter fun c => c.dim = dimID
  server.send (grp.filter fun c =>
    c.x ≥ cx0 ∧ c.z ≥ cz0 ∧ c.x < cx1 ∧ c.z < cz1 ∧
      rank ChunkRow.created_at (fun c => (c.x, c.z)) grp c = 1 ∧ c.dim = dimID)

/-- `GetChunksRegionRaw`; `lookup` and `query` are the errors of its two queries other than
`pgx.ErrNoRows`. The second one fails when a bound is not an `int4`, which is left out: such an
error is a `query` like any other. -/
def GetChunksRegionRaw (server : PgServer Time) (db : Tables Time)
    (lookup query : Option StorageError) (wname dname : String) (cx0 cz0 cx1 cz1 : Int) :
    List ChunkData × Option StorageError :=
  match lookup with
  | some err => ([], some err)
  | none =>
      match (db.dimensionIds wname dname).head? with
      | none => ([], none)
      | some dimID =>
          match query with
          | some err => ([], some err)
          | none =>
              ((regionRows server db cx0 cz0 cx1 cz1 dimID).map fun c => ⟨c.x, c.z, c.data⟩, none)

/-! ### One entry for each chunk -/

/-- The half-open rectangle of a read. -/
def InRegion (cx0 cz0 cx1 cz1 x z : Int) : Prop := cx0 ≤ x ∧ cz0 ≤ z ∧ x < cx1 ∧ z < cz1

/-- Some row of the dimension has the chunk. -/
def Stored (db : Tables Time) (wname dname : String) (x z : Int) : Prop :=
  ∃ did ∈ db.dimensionIds wname dname, db.versions did x z ≠ []

/-- The entries of an answer for one chunk. -/
def entries (c : List ChunkData) (x z : Int) : List ChunkData :=
  c.filter fun entry => entry.X = x ∧ entry.Z = z

/-- The answer has one entry for each stored chunk of the rectangle, with data that a single read
may return, and nothing else. -/
structure EqualsSingleReads (db : Tables Time) (wname dname : String) (cx0 cz0 cx1 cz1 : Int)
    (c : List ChunkData) : Prop where
  stored : ∀ x z, InRegion cx0 cz0 cx1 cz1 x z → Stored db wname dname x z →
    ∃ data, entries c x z = [⟨x, z, data⟩] ∧
      ∃ server, GetChunkRaw server db none wname dname x z = (some data, none)
  nothing : ∀ x z, ¬ (InRegion cx0 cz0 cx1 cz1 x z ∧ Stored db wname dname x z) →
    entries c x z = []

/-- No two versions of a chunk of the rectangle are the latest together. -/
def NoTies (db : Tables Time) (wname dname : String) (cx0 cz0 cx1 cz1 : Int) : Prop :=
  ∀ did ∈ db.dimensionIds wname dname, ∀ x z, InRegion cx0 cz0 cx1 cz1 x z →
    ∀ v v', Latest ChunkRow.created_at (db.versions did x z) v →
      Latest ChunkRow.created_at (db.versions did x z) v' → v = v'

variable {db : Tables Time} {wname dname : String} {cx0 cz0 cx1 cz1 : Int}

omit [LinearOrder Time] in
/-- A name selects one dimension at most. -/
theorem dimensionIds_cases (db : Tables Time) (wname dname : String) :
    db.dimensionIds wname dname = [] ∨ ∃ did, db.dimensionIds wname dname = [did] := by
  have apart : (db.dimensions.filter fun d => d.world = wname ∧ d.name = dname).Pairwise
      fun d d' => (d.world, d.name) ≠ (d'.world, d'.name) := db.unique.filter _
  have named : ∀ d ∈ db.dimensions.filter fun d => d.world = wname ∧ d.name = dname,
      (d.world, d.name) = (wname, dname) := by
    intro d member
    simpa using (List.mem_filter.mp member).2
  unfold Tables.dimensionIds
  generalize db.dimensions.filter (fun d => d.world = wname ∧ d.name = dname) = selected
    at apart named ⊢
  rcases selected with _ | ⟨d, _ | ⟨d', rest⟩⟩
  · exact .inl rfl
  · exact .inr ⟨d.id, rfl⟩
  · refine absurd ?_ ((List.pairwise_cons.mp apart).1 d' List.mem_cons_self)
    rw [named d List.mem_cons_self, named d' (.tail _ List.mem_cons_self)]

/-- The versions of a chunk that have rank one in their dimension. -/
def newest (db : Tables Time) (did : Nat) (x z : Int) : List (ChunkRow Time) :=
  (db.versions did x z).filter fun c =>
    rank ChunkRow.created_at (fun c => (c.x, c.z)) (db.chunks.filter fun c => c.dim = did) c = 1

theorem mem_newest_iff {did : Nat} {x z : Int} {v : ChunkRow Time} :
    v ∈ newest db did x z ↔ Latest ChunkRow.created_at (db.versions did x z) v := by
  have own : ∀ c ∈ db.versions did x z, c ∈ db.chunks.filter (fun c => c.dim = did) ∧
      (db.chunks.filter fun c => c.dim = did).filter (fun c' => (c'.x, c'.z) = (c.x, c.z)) =
        db.versions did x z := by
    intro c member
    obtain ⟨here, place⟩ := List.mem_filter.mp member
    simp only [decide_eq_true_eq] at place
    obtain ⟨rfl, rfl, dim⟩ := place
    refine ⟨List.mem_filter.mpr ⟨here, by simpa using dim⟩, ?_⟩
    rw [List.filter_filter]
    exact List.filter_congr fun c' _ => by simp [Bool.and_assoc]
  unfold newest
  rw [List.mem_filter, decide_eq_true_eq]
  constructor
  · rintro ⟨member, first⟩
    obtain ⟨here, partition⟩ := own v member
    exact partition ▸ (rank_eq_one_iff here).mp first
  · intro latest
    obtain ⟨here, partition⟩ := own v latest.mem
    exact ⟨latest.mem, (rank_eq_one_iff here).mpr (partition ▸ latest)⟩

/-- The entries of a chunk of the rectangle are its newest versions. -/
theorem entries_inside (server : PgServer Time) (db : Tables Time) (did : Nat) {x z : Int}
    (inside : InRegion cx0 cz0 cx1 cz1 x z) :
    (entries ((regionRows server db cx0 cz0 cx1 cz1 did).map fun c => ⟨c.x, c.z, c.data⟩)
      x z).Perm ((newest db did x z).map fun c => ⟨x, z, c.data⟩) := by
  have selected : ∀ rows : List (ChunkRow Time),
      entries (rows.map fun c => ⟨c.x, c.z, c.data⟩) x z =
        (rows.filter fun c => c.x = x ∧ c.z = z).map fun c => ⟨x, z, c.data⟩ := by
    intro rows
    rw [entries, List.filter_map]
    refine List.map_congr_left fun c member => ?_
    have place := (List.mem_filter.mp member).2
    simp only [Function.comp_apply, decide_eq_true_eq] at place
    rw [place.1, place.2]
  rw [selected]
  refine (((server.send_perm _).filter _).trans (List.Perm.of_eq ?_)).map _
  unfold newest Tables.versions
  rw [List.filter_filter, List.filter_filter, List.filter_filter]
  refine List.filter_congr fun c _ => ?_
  obtain ⟨left, top, right, bottom⟩ := inside
  rw [Bool.eq_iff_iff]
  simp only [Bool.and_eq_true, decide_eq_true_eq]
  constructor
  · rintro ⟨⟨⟨rfl, rfl⟩, -, -, -, -, first, -⟩, dim⟩
    exact ⟨first, rfl, rfl, dim⟩
  · rintro ⟨first, rfl, rfl, dim⟩
    exact ⟨⟨⟨rfl, rfl⟩, left, top, right, bottom, first, dim⟩, dim⟩

/-- The rows of an answer lie in the rectangle and the dimension. -/
theorem mem_regionRows (server : PgServer Time) {did : Nat} {c : ChunkRow Time}
    (member : c ∈ regionRows server db cx0 cz0 cx1 cz1 did) :
    InRegion cx0 cz0 cx1 cz1 c.x c.z ∧ c ∈ db.versions did c.x c.z := by
  obtain ⟨grouped, place⟩ := List.mem_filter.mp ((server.send_perm _).subset member)
  simp only [decide_eq_true_eq] at place
  obtain ⟨left, top, right, bottom, -, dim⟩ := place
  refine ⟨⟨left, top, right, bottom⟩, List.mem_filter.mpr ⟨(List.mem_filter.mp grouped).1, ?_⟩⟩
  simpa using dim

/-- A chunk with versions has a newest one. -/
theorem newest_ne_nil {did : Nat} {x z : Int} (some_ : db.versions did x z ≠ []) :
    newest db did x z ≠ [] := by
  obtain ⟨v, member⟩ := List.exists_mem_of_ne_nil _ some_
  obtain ⟨first, found⟩ := (Server.insertion fun c : ChunkRow Time => c.created_at).head_isSome
    member
  exact List.ne_nil_of_mem (mem_newest_iff.mpr (Server.head_latest _ found))

/-- A list of keyed rows whose members are all the same has one member at most. -/
theorem length_newest_le_one_iff {did : Nat} {x z : Int} :
    (newest db did x z).length ≤ 1 ↔
      ∀ v ∈ newest db did x z, ∀ v' ∈ newest db did x z, v = v' := by
  have apart : (newest db did x z).Pairwise fun c c' => c.id ≠ c'.id :=
    (db.primary.filter _).filter _
  generalize newest db did x z = rows at apart ⊢
  rcases rows with _ | ⟨v, _ | ⟨v', rest⟩⟩
  · simp
  · simp
  · constructor
    · intro short
      simp at short
    · intro same
      have differ := (List.pairwise_cons.mp apart).1 v' List.mem_cons_self
      rw [same v List.mem_cons_self v' (.tail _ List.mem_cons_self)] at differ
      exact absurd rfl differ

/-- What comes back when the dimension is there. -/
theorem GetChunksRegionRaw_known (server : PgServer Time) {did : Nat}
    (known : db.dimensionIds wname dname = [did]) :
    (GetChunksRegionRaw server db none none wname dname cx0 cz0 cx1 cz1).1 =
      (regionRows server db cx0 cz0 cx1 cz1 did).map fun c => ⟨c.x, c.z, c.data⟩ := by
  unfold GetChunksRegionRaw
  rw [known]
  rfl

/-- A latest version is what some single read returns. -/
theorem GetChunkRaw_of_latest {did : Nat} {x z : Int} {v : ChunkRow Time}
    (known : db.dimensionIds wname dname = [did])
    (latest : Latest ChunkRow.created_at (db.versions did x z) v) :
    ∃ server, GetChunkRaw server db none wname dname x z = (some v.data, none) := by
  obtain ⟨server, first⟩ := Server.exists_head latest
  refine ⟨server, ?_⟩
  unfold GetChunkRaw
  rw [known]
  dsimp only
  rw [first]
  rfl

omit [LinearOrder Time] in
theorem stored_iff {did : Nat} (known : db.dimensionIds wname dname = [did]) (x z : Int) :
    Stored db wname dname x z ↔ db.versions did x z ≠ [] := by
  simp [Stored, known]

/-- Without ties a stored chunk of the rectangle has one entry, its latest version. -/
theorem entry_of_noTies (server : PgServer Time) {did : Nat} {x z : Int}
    (known : db.dimensionIds wname dname = [did])
    (noTies : NoTies db wname dname cx0 cz0 cx1 cz1) (inside : InRegion cx0 cz0 cx1 cz1 x z)
    (some_ : db.versions did x z ≠ []) :
    ∃ v, Latest ChunkRow.created_at (db.versions did x z) v ∧
      entries ((regionRows server db cx0 cz0 cx1 cz1 did).map fun c => ⟨c.x, c.z, c.data⟩) x z =
        [⟨x, z, v.data⟩] := by
  have short : (newest db did x z).length ≤ 1 := length_newest_le_one_iff.mpr
    fun v member v' member' => noTies did (known ▸ List.mem_singleton_self did) x z inside
      v v' (mem_newest_iff.mp member) (mem_newest_iff.mp member')
  have long := List.length_pos_iff.mpr (newest_ne_nil some_)
  obtain ⟨v, only⟩ : ∃ v, newest db did x z = [v] := by
    apply List.length_eq_one_iff.mp
    omega
  have perm := entries_inside server db did inside
  rw [only] at perm
  refine ⟨v, ?_, List.perm_singleton.mp perm⟩
  exact mem_newest_iff.mp (only ▸ List.mem_singleton_self v)

/-- An entry is one of a stored chunk of the rectangle. -/
theorem entries_outside (server : PgServer Time) {did : Nat} {x z : Int}
    (known : db.dimensionIds wname dname = [did])
    (outside : ¬ (InRegion cx0 cz0 cx1 cz1 x z ∧ Stored db wname dname x z)) :
    entries ((regionRows server db cx0 cz0 cx1 cz1 did).map fun c => ⟨c.x, c.z, c.data⟩) x z =
      [] := by
  apply List.eq_nil_iff_forall_not_mem.mpr
  intro entry member
  obtain ⟨sent, place⟩ := List.mem_filter.mp member
  obtain ⟨c, row, rfl⟩ := List.mem_map.mp sent
  simp only [decide_eq_true_eq] at place
  obtain ⟨rfl, rfl⟩ := place
  obtain ⟨inside, version⟩ := mem_regionRows server row
  exact outside ⟨inside, (stored_iff known c.x c.z).mpr (List.ne_nil_of_mem version)⟩

/-- A dimension that is not there has no chunk, and the read returns none. -/
theorem equalsSingleReads_of_unknown (server : PgServer Time)
    (unknown : db.dimensionIds wname dname = []) :
    EqualsSingleReads db wname dname cx0 cz0 cx1 cz1
      (GetChunksRegionRaw server db none none wname dname cx0 cz0 cx1 cz1).1 := by
  have empty : (GetChunksRegionRaw server db none none wname dname cx0 cz0 cx1 cz1).1 = [] := by
    unfold GetChunksRegionRaw
    rw [unknown]
    rfl
  rw [empty]
  refine ⟨fun x z _ stored => ?_, fun _ _ _ => rfl⟩
  obtain ⟨did, member, -⟩ := stored
  rw [unknown] at member
  cases member

/-- The read of a rectangle equals single reads exactly when no two versions of a chunk of the
rectangle are the latest together. -/
theorem GetChunksRegionRaw_equalsSingleReads_iff (server : PgServer Time) (db : Tables Time)
    (wname dname : String) (cx0 cz0 cx1 cz1 : Int) :
    EqualsSingleReads db wname dname cx0 cz0 cx1 cz1
        (GetChunksRegionRaw server db none none wname dname cx0 cz0 cx1 cz1).1 ↔
      NoTies db wname dname cx0 cz0 cx1 cz1 := by
  rcases dimensionIds_cases db wname dname with unknown | ⟨did, known⟩
  · refine iff_of_true (equalsSingleReads_of_unknown server unknown) fun did member => ?_
    rw [unknown] at member
    cases member
  · rw [GetChunksRegionRaw_known server known]
    constructor
    · intro equal did' member x z inside v v' latest latest'
      rw [known, List.mem_singleton] at member
      subst member
      obtain ⟨data, only, -⟩ := equal.stored x z inside
        ((stored_iff known x z).mpr (List.ne_nil_of_mem latest.mem))
      have length := (entries_inside server db did' inside).length_eq
      rw [only, List.length_map, List.length_singleton] at length
      exact length_newest_le_one_iff.mp length.ge v (mem_newest_iff.mpr latest) v'
        (mem_newest_iff.mpr latest')
    · intro noTies
      refine ⟨fun x z inside stored => ?_, fun x z outside => entries_outside server known outside⟩
      obtain ⟨v, latest, only⟩ :=
        entry_of_noTies server known noTies inside ((stored_iff known x z).mp stored)
      exact ⟨v.data, only, GetChunkRaw_of_latest known latest⟩

/-- Two versions that one transaction has written. -/
def twoVersions : Tables Nat where
  dimensions := [⟨1, "survival", "overworld"⟩]
  chunks := [⟨1, 1, WithTop.some 5, 0, 0, [1]⟩, ⟨2, 1, WithTop.some 5, 0, 0, [2]⟩]
  unique := List.pairwise_singleton _ _
  primary := List.pairwise_pair.mpr (Nat.ne_of_lt Nat.one_lt_two)

/-- Both of them are returned. -/
theorem tied_versions_both_returned :
    ¬ EqualsSingleReads twoVersions "survival" "overworld" 0 0 1 1
      (GetChunksRegionRaw (Server.insertion _) twoVersions none none "survival" "overworld"
        0 0 1 1).1 := by
  intro equal
  have both : entries (GetChunksRegionRaw (Server.insertion _) twoVersions none none "survival"
      "overworld" 0 0 1 1).1 0 0 = [⟨0, 0, [1]⟩, ⟨0, 0, [2]⟩] := by decide +kernel
  have inside : InRegion 0 0 1 1 0 0 := by simp [InRegion]
  obtain ⟨data, only, -⟩ := equal.stored 0 0 inside ⟨1, by decide, by decide⟩
  rw [both] at only
  simp at only

end WebChunk.Postgres
