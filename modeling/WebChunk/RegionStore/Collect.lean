import WebChunk.Go.Channel
import WebChunk.Go.Int
import WebChunk.Render.Context
import WebChunk.RegionStore.Request
import WebChunk.Semantics.FanOut

/-!
# Reading a rectangle of chunks

`GetChunksRegion` starts a goroutine for each chunk of a rectangle, which reads the chunk and
sends the result, and collects as many results as it has started goroutines. What the single
reads return is a parameter.
-/

namespace WebChunk.RegionStore

open WebChunk.Go WebChunk.Render WebChunk.Semantics WebChunk.Storages

/-! ### The rectangle -/

/-- The values of `v` in `for v := low; v < high; v++`. -/
def countUp (low high : Int) : List Int := 
  (List.range (high - low).toNat).map fun (n : Nat) => low + n

/-- The chunks of a rectangle in the order of the two loops. -/
def rectPlaces (r : Rect) : List (Int × Int) :=
  (countUp r.x0 r.x1).flatMap fun x => (countUp r.y0 r.y1).map fun z => (x, z)

theorem mem_countUp {low high v : Int} : v ∈ countUp low high ↔ low ≤ v ∧ v < high := by
  simp only [countUp, List.mem_map, List.mem_range]
  constructor
  · rintro ⟨n, inside, rfl⟩
    omega
  · rintro ⟨lower, upper⟩
    exact ⟨(v - low).toNat, by omega, by omega⟩

theorem nodup_countUp (low high : Int) : (countUp low high).Nodup :=
  List.Nodup.map (fun _ _ same => by simpa using same) List.nodup_range

theorem length_countUp (low high : Int) : (countUp low high).length = (high - low).toNat := by
  simp [countUp]

theorem mem_rectPlaces {r : Rect} {k : Int × Int} : k ∈ rectPlaces r ↔ r.contains k.1 k.2 := by
  obtain ⟨x, z⟩ := k
  simp [rectPlaces, mem_countUp, Rect.contains, and_assoc]

theorem nodup_rectPlaces (r : Rect) : (rectPlaces r).Nodup := by
  refine List.nodup_flatMap.mpr ⟨fun x _ => ?_, ?_⟩
  · exact (nodup_countUp _ _).map fun _ _ same => (Prod.mk.inj same).2
  · refine (nodup_countUp r.x0 r.x1).imp fun {x y} different => ?_
    intro k first second
    obtain ⟨_, _, rfl⟩ := List.mem_map.mp first
    obtain ⟨_, _, same⟩ := List.mem_map.mp second
    exact different (Prod.mk.inj same).1.symm

theorem length_rectPlaces (r : Rect) :
    (rectPlaces r).length = (r.x1 - r.x0).toNat * (r.y1 - r.y0).toNat := by
  simp [rectPlaces, List.length_flatMap, length_countUp]

/-- The normalised rectangle. -/
theorem normalizeCoords_eq (x0 z0 x1 z1 : Int) :
    normalizeCoords x0 z0 x1 z1 = (min x0 x1, min z0 z1, max x0 x1, max z0 z1) := by
  unfold normalizeCoords
  split_ifs <;> simp only [Prod.mk.injEq] <;> omega

/-! ### The call -/

/-- `GetChunk`, given what `GetChunkRaw` returns and the error of `c.Load`. A chunk that fails
to load comes with its error. -/
def GetChunk (GetChunkRaw : Int → Int → Except StorageError Bytes)
    (Load : Bytes → Option StorageError) (cx cz : Int) : Option SaveChunk × Option StorageError :=
  match GetChunkRaw cx cz with
  | .error err => (none, some err)
  | .ok [] => (none, none)
  | .ok d => (some ⟨d⟩, Load d)

/-- The `Data` of a result: an error, or a pointer to a chunk, which may be nil. -/
inductive Fetched where
  | error (err : StorageError)
  | chunk (c : Option SaveChunk)

/-- A result on the channel `r`. -/
structure RegionResult where
  X : Int
  Z : Int
  Data : Fetched

/-- What the goroutine of a chunk sends. -/
def fetchChunk (getChunk : Int → Int → Option SaveChunk × Option StorageError)
    (k : Int × Int) : RegionResult :=
  match getChunk k.1 k.2 with
  | (_, some err) => ⟨k.1, k.2, .error err⟩
  | (d, none) => ⟨k.1, k.2, .chunk d⟩

/-- The switch of the collecting loop. A nil pointer in an interface is not the nil of
`case nil`, but is left out by the default case. -/
def collectChunk (ret : List ChunkData) (d : RegionResult) : List ChunkData :=
  match d.Data with
  | .error _ => ret
  | .chunk none => ret
  | .chunk (some dd) => ret ++ [⟨d.X, d.Z, .chunk dd⟩]

/-- The goroutines of a call of `GetChunksRegion`, or none if `make` panics. -/
def GetChunksRegion (limit : Nat)
    (getChunk : Int → Int → Option SaveChunk × Option StorageError) (cx0 cz0 cx1 cz1 : Int) :
    Option (FanOut (Int × Int) Unit RegionResult) :=
  let (cx0, cz0, cx1, cz1) := normalizeCoords cx0 cz0 cx1 cz1
  (Chan.makeSize limit (wrap (wrap (cx1 - cx0) * wrap (cz1 - cz0)))).map fun capacity =>
    { jobs := rectPlaces ⟨cx0, cz0, cx1, cz1⟩
      outlet := fun _ => ()
      result := fetchChunk getChunk
      capacity := fun _ => capacity }

/-- An open driver panics in `make` only. -/
theorem GetChunksRegion_eq_none_iff {limit : Nat}
    {getChunk : Int → Int → Option SaveChunk × Option StorageError} {cx0 cz0 cx1 cz1 : Int} :
    GetChunksRegion limit getChunk cx0 cz0 cx1 cz1 = none ↔
      Chan.makeSize limit (rectCount cx0 cz0 cx1 cz1) = none :=
  Option.map_eq_none_iff

/-- What `GetChunksRegion` returns: nothing assigns `errs`. -/
def regionAnswer (received : List RegionResult) : List ChunkData × Option StorageError :=
  (received.foldl collectChunk [], none)

/-! ### The answer -/

/-- Entries made of distinct keys, in any order: each is listed once, and the key of an entry
says whether it is listed. -/
theorem listed_once {K E : Type} {keys : List K} (distinct : keys.Nodup) {make : K → Option E}
    {key : E → K} (keyed : ∀ k e, make k = some e → key e = k) {l : List E}
    (made : l.Perm (keys.filterMap make)) :
    (l.map key).Nodup ∧ ∀ e, e ∈ l ↔ key e ∈ keys ∧ make (key e) = some e := by
  constructor
  · rw [(made.map key).nodup_iff, List.map_filterMap]
    refine distinct.filterMap fun k other place first second => ?_
    obtain ⟨e, one, rfl⟩ := Option.map_eq_some_iff.mp first
    obtain ⟨e', two, same⟩ := Option.map_eq_some_iff.mp second
    rw [← keyed k e one, ← keyed other e' two, same]
  · intro e
    rw [made.mem_iff, List.mem_filterMap]
    constructor
    · rintro ⟨k, member, entry⟩
      rw [keyed k e entry]
      exact ⟨member, entry⟩
    · rintro ⟨member, entry⟩
      exact ⟨key e, member, entry⟩

/-- The entry that a result makes. -/
def RegionResult.entry (d : RegionResult) : Option ChunkData :=
  match d.Data with
  | .chunk (some dd) => some ⟨d.X, d.Z, .chunk dd⟩
  | _ => none

theorem foldl_collectChunk (received : List RegionResult) (ret : List ChunkData) :
    received.foldl collectChunk ret = ret ++ received.filterMap RegionResult.entry := by
  induction received generalizing ret with
  | nil => simp
  | cons d rest inductionHypothesis =>
      rw [List.foldl_cons, inductionHypothesis, List.filterMap_cons]
      unfold collectChunk RegionResult.entry
      cases d.Data with
      | error err => rfl
      | chunk c =>
          cases c with
          | none => rfl
          | some dd => simp

/-- A chunk that was read: `GetChunk` returned one and no error. -/
def readChunk (getChunk : Int → Int → Option SaveChunk × Option StorageError) (k : Int × Int) :
    Option SaveChunk :=
  match getChunk k.1 k.2 with
  | (some c, none) => some c
  | _ => none

theorem entry_fetchChunk (getChunk : Int → Int → Option SaveChunk × Option StorageError)
    (k : Int × Int) : (fetchChunk getChunk k).entry =
      (asData (readChunk getChunk) k).map fun data => ⟨k.1, k.2, data⟩ := by
  unfold fetchChunk asData readChunk
  rcases getChunk k.1 k.2 with ⟨_ | c, _ | err⟩ <;> rfl

/-- Whatever the order of the results is, the answer lists the chunks that were read. -/
theorem regionAnswer_lists {getChunk : Int → Int → Option SaveChunk × Option StorageError}
    {r : Rect} {received : List RegionResult}
    (arrived : received.Perm ((rectPlaces r).map (fetchChunk getChunk))) :
    Lists (asData (readChunk getChunk)) r (regionAnswer received).1 := by
  have made : (received.filterMap RegionResult.entry).Perm
      ((rectPlaces r).filterMap fun k => (fetchChunk getChunk k).entry) := by
    have mapped := arrived.filterMap RegionResult.entry
    rwa [List.filterMap_map] at mapped
  have keyed : ∀ (k : Int × Int) e, (fetchChunk getChunk k).entry = some e → (e.X, e.Z) = k := by
    intro k e entry
    rw [entry_fetchChunk] at entry
    obtain ⟨data, _, rfl⟩ := Option.map_eq_some_iff.mp entry
    rfl
  obtain ⟨once, member⟩ := listed_once (nodup_rectPlaces r) keyed made
  rw [regionAnswer, foldl_collectChunk, List.nil_append]
  refine ⟨once, fun d => ?_⟩
  rw [member, mem_rectPlaces, entry_fetchChunk, Option.map_eq_some_iff]
  refine and_congr_right fun _ => ⟨?_, fun found => ⟨_, found, rfl⟩⟩
  rintro ⟨data, found, same⟩
  rw [found, ← same]

/-- The number of goroutines of a rectangle that `make` accepts. -/
theorem GetChunksRegion_eq {limit : Nat}
    {getChunk : Int → Int → Option SaveChunk × Option StorageError} {cx0 cz0 cx1 cz1 : Int}
    (limitFits : limit < 2 ^ 63)
    (fits : (cx1 - cx0).natAbs * (cz1 - cz0).natAbs ≤ limit) :
    GetChunksRegion limit getChunk cx0 cz0 cx1 cz1 =
      some
        { jobs := rectPlaces (.ofCorners cx0 cz0 cx1 cz1)
          outlet := fun _ => ()
          result := fetchChunk getChunk
          capacity := fun _ => (cx1 - cx0).natAbs * (cz1 - cz0).natAbs } := by
  have size : wrap (wrap (max cx0 cx1 - min cx0 cx1) * wrap (max cz0 cz1 - min cz0 cz1)) =
      ((cx1 - cx0).natAbs * (cz1 - cz0).natAbs : Nat) := by
    have width : max cx0 cx1 - min cx0 cx1 = (cx1 - cx0).natAbs := by omega
    have height : max cz0 cz1 - min cz0 cz1 = (cz1 - cz0).natAbs := by omega
    rw [width, height, wrap, wrap, wrap, Int.bmod_mul_bmod, Int.mul_bmod_bmod,
      ← Nat.cast_mul]
    exact wrap_of_fits (by omega) (by omega)
  unfold GetChunksRegion
  rw [normalizeCoords_eq]
  simp only [size, Chan.makeSize]
  rw [if_pos (by omega)]
  rfl

/-- For every outcome of the reads and every order of the goroutines, the call returns, after
as many results as there are chunks in the rectangle, with the chunks that were read. -/
theorem getChunksRegion_exact {limit : Nat} (limitFits : limit < 2 ^ 63)
    (getChunk : Int → Int → Option SaveChunk × Option StorageError) {cx0 cz0 cx1 cz1 : Int}
    (width : cx0 ≠ cx1) (height : cz0 ≠ cz1)
    (fits : (cx1 - cx0).natAbs * (cz1 - cz0).natAbs ≤ limit) :
    ∃ f, GetChunksRegion limit getChunk cx0 cz0 cx1 cz1 = some f ∧
      ∀ {actions final}, f.machine.Runs f.initial actions final →
        actions.length ≤ 3 * ((cx1 - cx0).natAbs * (cz1 - cz0).natAbs) ∧
        (final.returned = false → ∃ action next, f.step final action = some next) ∧
        (final.returned = true →
          final.received.length = (cx1 - cx0).natAbs * (cz1 - cz0).natAbs ∧
          Lists (asData (readChunk getChunk)) (.ofCorners cx0 cz0 cx1 cz1)
            (regionAnswer final.received).1) := by
  have area : (rectPlaces (.ofCorners cx0 cz0 cx1 cz1)).length =
      (cx1 - cx0).natAbs * (cz1 - cz0).natAbs := by
    rw [length_rectPlaces]
    congr 1 <;> dsimp only [Rect.ofCorners] <;> omega
  have some_ : 0 < (cx1 - cx0).natAbs * (cz1 - cz0).natAbs :=
    Nat.mul_pos (by omega) (by omega)
  refine ⟨_, GetChunksRegion_eq limitFits fits, fun {actions final} run => ?_⟩
  have jobs : rectPlaces (.ofCorners cx0 cz0 cx1 cz1) ≠ [] := by
    rw [← List.length_pos_iff, area]
    exact some_
  have bounded := FanOut.length_of_runs run
  dsimp only at bounded
  rw [area] at bounded
  refine ⟨by omega, (FanOut.counted_of_runs jobs run).exists_step fun _ => some_, ?_⟩
  intro returned
  have arrived := FanOut.received_perm jobs run returned
  refine ⟨?_, regionAnswer_lists arrived⟩
  rw [arrived.length_eq, List.length_map, area]

/-- A chunk, an absent chunk, one that does not load, and a failed read. -/
def sampleRead (cx cz : Int) : Except StorageError Bytes :=
  if cx = -1 then .ok (if cz = 0 then [1] else [2])
  else if cz = 0 then .ok []
  else .error (.other "read")

theorem getChunksRegion_exact_swapped :
    ∃ f, GetChunksRegion 1024
        (GetChunk sampleRead fun d => if d = [2] then some (.other "load") else none) 1 0 (-1) 2 =
          some f ∧
      ∀ {actions final}, f.machine.Runs f.initial actions final →
        actions.length ≤ 3 * 4 ∧
        (final.returned = false → ∃ action next, f.step final action = some next) ∧
        (final.returned = true → final.received.length = 4 ∧
          Lists (asData (readChunk (GetChunk sampleRead fun d =>
              if d = [2] then some (.other "load") else none))) (.ofCorners 1 0 (-1) 2)
            (regionAnswer final.received).1) :=
  getChunksRegion_exact (by decide) _ (by decide) (by decide) (by decide)

/-- The number of chunks of a rectangle can leave the `int` range, and `make` panics. -/
theorem huge_rectangle_panics :
    GetChunksRegion (2 ^ 63 - 1) (fun _ _ => (none, none)) 0 0 (2 ^ 31) (2 ^ 32) = none := by
  decide

end WebChunk.RegionStore
