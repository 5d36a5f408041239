import WebChunk.RegionStore.Collect

/-!
# Reading a rectangle of raw chunks

`GetChunksRegionRaw` collects from two channels, one for the data and one for the errors. The
result of `multierror.Append` is dropped, so that no error is ever returned, and a chunk that
is not stored is listed with empty data. `ChunkStorage` says of all its methods that an object
which is not found gives an empty slice, and an error "only in case of abnormal things".
-/

namespace WebChunk.RegionStore

open WebChunk.Go WebChunk.Semantics WebChunk.Storages

/-- The two channels of the call. -/
inductive RawOutlet where
  | r
  | e
  deriving DecidableEq

instance : Fintype RawOutlet := ⟨{.r, .e}, fun c => by cases c <;> simp⟩

/-- A `ChunkData` with the data of a chunk. -/
structure RawChunkData where
  X : Int
  Z : Int
  Data : Bytes
  deriving DecidableEq

/-- What the goroutine of a chunk sends. -/
abbrev RawResult := Except StorageError RawChunkData

def fetchChunkRaw (GetChunkRaw : Int → Int → Except StorageError Bytes) (k : Int × Int) :
    RawResult :=
  match GetChunkRaw k.1 k.2 with
  | .error err => .error err
  | .ok d => .ok ⟨k.1, k.2, d⟩

/-- The goroutines of a call of `GetChunksRegionRaw`. -/
def GetChunksRegionRaw (GetChunkRaw : Int → Int → Except StorageError Bytes)
    (cx0 cz0 cx1 cz1 : Int) : FanOut (Int × Int) RawOutlet RawResult :=
  let (cx0, cz0, cx1, cz1) := normalizeCoords cx0 cz0 cx1 cz1
  { jobs := rectPlaces ⟨cx0, cz0, cx1, cz1⟩
    outlet := fun k =>
      match fetchChunkRaw GetChunkRaw k with
      | .error _ => .e
      | .ok _ => .r
    result := fetchChunkRaw GetChunkRaw
    capacity := fun
      | .r => 16
      | .e => 2 }

/-- The two cases of the collecting loop. -/
def collectChunkRaw (answer : List RawChunkData × Option StorageError) (result : RawResult) :
    List RawChunkData × Option StorageError :=
  match result with
  | .ok d => (answer.1 ++ [d], answer.2)
  -- `multierror.Append(errs, err)` returns the new error and leaves `errs` as it is.
  | .error _ => answer

/-- What `GetChunksRegionRaw` returns. -/
def regionRawAnswer (received : List RawResult) : List RawChunkData × Option StorageError :=
  received.foldl collectChunkRaw ([], none)

/-- The answer has an error if and only if some read has failed, and lists the stored chunks
of the rectangle, each once. -/
structure ReportsRegion (GetChunkRaw : Int → Int → Except StorageError Bytes) (r : Rect)
    (answer : List RawChunkData × Option StorageError) : Prop where
  failed : answer.2.isSome ↔ ∃ x z, r.contains x z ∧ ∃ err, GetChunkRaw x z = .error err
  once : (answer.1.map fun d => (d.X, d.Z)).Nodup
  mem : ∀ d, d ∈ answer.1 ↔
    r.contains d.X d.Z ∧ GetChunkRaw d.X d.Z = .ok d.Data ∧ d.Data ≠ []

theorem GetChunksRegionRaw_jobs (GetChunkRaw : Int → Int → Except StorageError Bytes)
    (cx0 cz0 cx1 cz1 : Int) : (GetChunksRegionRaw GetChunkRaw cx0 cz0 cx1 cz1).jobs =
      rectPlaces (.ofCorners cx0 cz0 cx1 cz1) := by
  unfold GetChunksRegionRaw
  rw [normalizeCoords_eq]
  rfl

theorem foldl_collectChunkRaw (received : List RawResult)
    (answer : List RawChunkData × Option StorageError) :
    received.foldl collectChunkRaw answer =
      (answer.1 ++ received.filterMap Except.toOption, answer.2) := by
  induction received generalizing answer with
  | nil => simp
  | cons result rest inductionHypothesis =>
      rw [List.foldl_cons, inductionHypothesis, List.filterMap_cons]
      cases result with
      | error err => rfl
      | ok d => simp [collectChunkRaw, Except.toOption]

/-- The list has an entry for every read that did not fail, and there is no error. -/
theorem regionRawAnswer_lists {GetChunkRaw : Int → Int → Except StorageError Bytes} {r : Rect}
    {received : List RawResult}
    (arrived : received.Perm ((rectPlaces r).map (fetchChunkRaw GetChunkRaw))) :
    (regionRawAnswer received).2 = none ∧
      ((regionRawAnswer received).1.map fun d => (d.X, d.Z)).Nodup ∧
      ∀ d, d ∈ (regionRawAnswer received).1 ↔
        r.contains d.X d.Z ∧ GetChunkRaw d.X d.Z = .ok d.Data := by
  have made : (received.filterMap Except.toOption).Perm
      ((rectPlaces r).filterMap fun k => (fetchChunkRaw GetChunkRaw k).toOption) := by
    have mapped := arrived.filterMap Except.toOption
    rwa [List.filterMap_map] at mapped
  have entry : ∀ (k : Int × Int) d, (fetchChunkRaw GetChunkRaw k).toOption = some d ↔
      (d.X, d.Z) = k ∧ GetChunkRaw k.1 k.2 = .ok d.Data := by
    intro k d
    unfold fetchChunkRaw
    cases GetChunkRaw k.1 k.2 with
    | error err => simp [Except.toOption]
    | ok data =>
        obtain ⟨X, Z, Data⟩ := d
        simp only [Except.toOption, Option.some.injEq, RawChunkData.mk.injEq, Except.ok.injEq,
          Prod.ext_iff]
        grind
  obtain ⟨once, member⟩ := listed_once (nodup_rectPlaces r)
    (fun k d found => ((entry k d).mp found).1) made
  rw [regionRawAnswer, foldl_collectChunkRaw, List.nil_append]
  refine ⟨rfl, once, fun d => ?_⟩
  rw [member, mem_rectPlaces, entry]
  simp

/-- The answer is right if and only if every chunk of the rectangle is stored and could be
read. -/
theorem regionRawAnswer_reports_iff {GetChunkRaw : Int → Int → Except StorageError Bytes}
    {r : Rect} {received : List RawResult}
    (arrived : received.Perm ((rectPlaces r).map (fetchChunkRaw GetChunkRaw))) :
    ReportsRegion GetChunkRaw r (regionRawAnswer received) ↔
      ∀ x z, r.contains x z → ∃ d, d ≠ [] ∧ GetChunkRaw x z = .ok d := by
  obtain ⟨noError, once, member⟩ := regionRawAnswer_lists arrived
  constructor
  · intro reports x z inside
    cases read : GetChunkRaw x z with
    | error err =>
        have failed := reports.failed.mpr ⟨x, z, inside, err, read⟩
        rw [noError] at failed
        cases failed
    | ok d =>
        have listed := (member ⟨x, z, d⟩).mpr ⟨inside, read⟩
        exact ⟨d, ((reports.mem _).mp listed).2.2, rfl⟩
  · intro stored
    refine ⟨?_, once, fun d => ?_⟩
    · rw [noError]
      constructor
      · intro failed
        cases failed
      · rintro ⟨x, z, inside, err, failed⟩
        obtain ⟨d, _, read⟩ := stored x z inside
        rw [read] at failed
        cases failed
    · rw [member]
      constructor
      · rintro ⟨inside, read⟩
        obtain ⟨data, some_, same⟩ := stored d.X d.Z inside
        rw [read] at same
        cases same
        exact ⟨inside, read, some_⟩
      · rintro ⟨inside, read, _⟩
        exact ⟨inside, read⟩

/-- Every call returns, and what it returns is right if and only if every chunk of the
rectangle is stored and could be read. -/
theorem getChunksRegionRaw_reports_iff
    (GetChunkRaw : Int → Int → Except StorageError Bytes) {cx0 cz0 cx1 cz1 : Int}
    (width : cx0 ≠ cx1) (height : cz0 ≠ cz1) {actions : List (FanOut.Action RawOutlet)}
    {final : FanOut.State (Int × Int) RawOutlet RawResult}
    (run : (GetChunksRegionRaw GetChunkRaw cx0 cz0 cx1 cz1).machine.Runs
      (GetChunksRegionRaw GetChunkRaw cx0 cz0 cx1 cz1).initial actions final) :
    actions.length ≤ 3 * ((cx1 - cx0).natAbs * (cz1 - cz0).natAbs) ∧
    (final.returned = false → ∃ action next,
      (GetChunksRegionRaw GetChunkRaw cx0 cz0 cx1 cz1).step final action = some next) ∧
    (final.returned = true →
      (ReportsRegion GetChunkRaw (.ofCorners cx0 cz0 cx1 cz1) (regionRawAnswer final.received) ↔
        ∀ x z, (Rect.ofCorners cx0 cz0 cx1 cz1).contains x z →
          ∃ d, d ≠ [] ∧ GetChunkRaw x z = .ok d)) := by
  have area : (GetChunksRegionRaw GetChunkRaw cx0 cz0 cx1 cz1).jobs.length =
      (cx1 - cx0).natAbs * (cz1 - cz0).natAbs := by
    rw [GetChunksRegionRaw_jobs, length_rectPlaces]
    congr 1 <;> dsimp only [Rect.ofCorners] <;> omega
  have jobs : (GetChunksRegionRaw GetChunkRaw cx0 cz0 cx1 cz1).jobs ≠ [] := by
    rw [← List.length_pos_iff, area]
    exact Nat.mul_pos (by omega) (by omega)
  have bounded := FanOut.length_of_runs run
  refine ⟨by omega, (FanOut.counted_of_runs jobs run).exists_step ?_, ?_⟩
  · intro c
    cases c <;> exact Nat.succ_pos _
  · intro returned
    have arrived := FanOut.received_perm jobs run returned
    rw [GetChunksRegionRaw_jobs] at arrived
    exact regionRawAnswer_reports_iff arrived

/-- A call for two chunks, of which the second arrives first. -/
theorem getChunksRegionRaw_reports_iff_stored :
    ∃ actions final,
      (GetChunksRegionRaw (fun _ _ => .ok [1]) 0 0 2 1).machine.Runs
        (GetChunksRegionRaw (fun _ _ => .ok [1]) 0 0 2 1).initial actions final ∧
      final.returned = true ∧
      ReportsRegion (fun _ _ => .ok [1]) (.ofCorners 0 0 2 1) (regionRawAnswer final.received) := by
  have run : (GetChunksRegionRaw (fun _ _ => .ok [1]) 0 0 2 1).machine.Runs
      (GetChunksRegionRaw (fun _ _ => .ok [1]) 0 0 2 1).initial
      [.start, .start, .deliver 1, .deliver 0, .collect .r, .collect .r] _ :=
    Machine.runs_exec_get (by decide)
  refine ⟨_, _, run, by decide, ?_⟩
  exact ((getChunksRegionRaw_reports_iff _ (by decide) (by decide) run).2.2 (by decide)).mpr
    fun _ _ _ => ⟨[1], by decide, rfl⟩

/-- A failed read is not reported. -/
theorem failed_read_not_reported :
    ∃ actions final,
      (GetChunksRegionRaw (fun _ _ => .error (.other "read")) 0 0 1 1).machine.Runs
        (GetChunksRegionRaw (fun _ _ => .error (.other "read")) 0 0 1 1).initial actions final ∧
      final.returned = true ∧ regionRawAnswer final.received = ([], none) ∧
      ¬ ReportsRegion (fun _ _ => .error (.other "read")) (.ofCorners 0 0 1 1)
        (regionRawAnswer final.received) := by
  have run : (GetChunksRegionRaw (fun _ _ => .error (.other "read")) 0 0 1 1).machine.Runs
      (GetChunksRegionRaw (fun _ _ => .error (.other "read")) 0 0 1 1).initial
      [.start, .deliver 0, .collect .e] _ :=
    Machine.runs_exec_get (by decide)
  refine ⟨_, _, run, by decide, by decide, fun reports => ?_⟩
  have failed := reports.failed.mpr ⟨0, 0, by decide, _, rfl⟩
  revert failed
  decide

end WebChunk.RegionStore
