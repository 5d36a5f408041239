import WebChunk.Render.Tile

/-!
# The context of a chunk

A chunk that is drawn with shading needs its four neighbours, which may lie outside the
tile. They are fetched with a margin of one chunk, so that the context depends on the
stored chunks alone and not on the rectangle that was asked for.
-/

namespace WebChunk.Render

open WebChunk.Go WebChunk.Storages

/-- The list has every datum of the content inside the half-open rectangle exactly once. -/
structure Lists (content : Int × Int → Option Datum) (r : Rect) (l : List ChunkData) : Prop where
  once : (l.map fun d => (d.X, d.Z)).Nodup
  mem : ∀ d, d ∈ l ↔ r.contains d.X d.Z ∧ content (d.X, d.Z) = some d.Data

/-- A rectangle between two corners in the `int` range that are the right way round. -/
structure Proper (r : Rect) : Prop where
  width : r.x0 < r.x1
  height : r.y0 < r.y1
  left : -2 ^ 63 ≤ r.x0
  top : -2 ^ 63 ≤ r.y0
  right : r.x1 < 2 ^ 63
  bottom : r.y1 < 2 ^ 63

/-- A getter returns what is stored in every proper rectangle, in any order. Where a coordinate
has wrapped, so that the corners are the wrong way round and further apart than an `int` holds,
it may panic or fail or never return, but it returns no chunk. -/
structure Serves
    (getter : Int → Int → Int → Int → Except Stop (Except StorageError (List ChunkData)))
    (content : Int × Int → Option Datum) : Prop where
  lists : ∀ cx0 cz0 cx1 cz1, Proper ⟨cx0, cz0, cx1, cz1⟩ →
    ∃ l, getter cx0 cz0 cx1 cz1 = .ok (.ok l) ∧ Lists content ⟨cx0, cz0, cx1, cz1⟩ l
  wrapped : ∀ cx0 cz0 cx1 cz1, cx0 - cx1 ≥ 2 ^ 63 ∨ cz0 - cz1 ≥ 2 ^ 63 →
    ∀ l, getter cx0 cz0 cx1 cz1 = .ok (.ok l) → l = []

/-- The stored chunks as data. -/
def asData (stored : Int × Int → Option SaveChunk) (k : Int × Int) : Option Datum :=
  (stored k).map .chunk

/-- A stored chunk with the stored chunks around it. -/
def contextOf (stored : Int × Int → Option SaveChunk) (k : Int × Int) :
    Option ContextedChunkData :=
  (stored k).map fun c =>
    { center := c
      top := stored (k.1, k.2 - 1)
      bottom := stored (k.1, k.2 + 1)
      left := stored (k.1 - 1, k.2)
      right := stored (k.1 + 1, k.2) }

/-- The stored chunks with their context, as data. -/
def asContextedData (stored : Int × Int → Option SaveChunk) (k : Int × Int) : Option Datum :=
  (contextOf stored k).map .contextedChunkData

/-- The rectangle with its margin of one chunk does not leave the `int` range. -/
def marginFits (r : Rect) : Prop :=
  -2 ^ 63 < r.x0 ∧ -2 ^ 63 < r.y0 ∧ r.x1 < 2 ^ 63 - 1 ∧ r.y1 < 2 ^ 63 - 1

instance (r : Rect) : Decidable (marginFits r) := inferInstanceAs (Decidable (_ ∧ _ ∧ _ ∧ _))

namespace Lists

variable {content : Int × Int → Option Datum} {r : Rect} {l : List ChunkData}

/-- A rectangle without stored data. -/
theorem eq_nil_iff (lists : Lists content r l) :
    l = [] ↔ ∀ x z, r.contains x z → content (x, z) = none := by
  constructor
  · rintro rfl x z inside
    cases found : content (x, z) with
    | none => rfl
    | some d => exact absurd ((lists.mem ⟨x, z, d⟩).mpr ⟨inside, found⟩) (by simp)
  · intro empty
    refine List.eq_nil_iff_forall_not_mem.mpr fun d member => ?_
    obtain ⟨inside, found⟩ := (lists.mem d).mp member
    rw [empty d.X d.Z inside] at found
    cases found

end Lists

/-- The same datum at some places, as far as they are inside the rectangle. -/
def spread (places : List (Int × Int)) (v : Datum) (r : Rect) : List ChunkData :=
  (places.filter fun k => r.contains k.1 k.2).map fun k => ⟨k.1, k.2, v⟩

theorem lists_spread {places : List (Int × Int)} (once : places.Nodup) (v : Datum) (r : Rect) :
    Lists (fun k => if k ∈ places then some v else none) r (spread places v r) where
  once := by
    rw [spread, List.map_map]
    simpa [Function.comp_def] using once.filter _
  mem d := by
    simp only [spread, List.mem_map, List.mem_filter, decide_eq_true_eq]
    constructor
    · rintro ⟨k, ⟨member, inside⟩, rfl⟩
      exact ⟨inside, if_pos member⟩
    · rintro ⟨inside, found⟩
      rw [ite_eq_iff] at found
      obtain ⟨member, data⟩ := found.resolve_right (by simp)
      exact ⟨(d.X, d.Z), ⟨member, inside⟩, by rw [Option.some.inj data]⟩

/-- A read-only storage with the same chunk at some places. -/
def holding (places : List (Int × Int)) (c : SaveChunk) : ChunkStorage Unit where
  kind := .postgres
  GetAbilities := ⟨false, false⟩
  GetWorld _ wname := (some ⟨wname, "", ""⟩, none)
  AddWorld _ _ := (some .readOnly, ())
  GetDimension _ wname dname := (some ⟨dname, wname⟩, none)
  AddDimension _ _ _ := (some .readOnly, ())
  AddChunkRaw _ _ _ _ _ _ := (some .readOnly, ())
  GetChunksRegion _ _ _ cx0 cz0 cx1 cz1 :=
    .ok (.ok (spread places (.chunk c) ⟨cx0, cz0, cx1, cz1⟩))
  GetChunksCountRegion _ _ _ cx0 cz0 cx1 cz1 :=
    .ok (.ok (spread places (.int 1) ⟨cx0, cz0, cx1, cz1⟩))
  region_panics _ _ _ _ _ _ _ := iff_of_false (not_panics_ok _) id
  count_panics _ _ _ _ _ _ _ := iff_of_false (not_panics_ok _) id

/-- What `holding` stores. -/
def held (places : List (Int × Int)) (c : SaveChunk) (k : Int × Int) : Option SaveChunk :=
  if k ∈ places then some c else none

theorem holding_serves {places : List (Int × Int)} (once : places.Nodup) (c : SaveChunk)
    (st : Unit) (wname dname : String) :
    Serves ((holding places c).GetChunksRegion st wname dname) (asData (held places c)) where
  lists cx0 cz0 cx1 cz1 _ := by
    refine ⟨_, rfl, ?_⟩
    have same : asData (held places c) = fun k => if k ∈ places then some (.chunk c) else none := by
      funext k
      unfold asData held
      split <;> rfl
    rw [same]
    exact lists_spread once _ _
  wrapped cx0 cz0 cx1 cz1 apart l answer := by
    cases answer
    refine List.map_eq_nil_iff.mpr (List.filter_eq_nil_iff.mpr fun k _ inside => ?_)
    obtain ⟨left, right, top, bottom⟩ := of_decide_eq_true inside
    dsimp only at left right top bottom
    omega

/-! ### The map of the fetched chunks -/

/-- One iteration of the loop that fills the map. -/
def enterChunk (bunch : Map (Int × Int) SaveChunk) (v : ChunkData) : Map (Int × Int) SaveChunk :=
  match v.Data with
  | .chunk c => bunch.set (v.X, v.Z) c
  | _ => bunch

theorem bunchOf_eq (l : List ChunkData) : bunchOf l = l.foldl enterChunk .empty := rfl

/-- Data at other places leave an entry as it is. -/
theorem get_foldl_enterChunk_of_absent {l : List ChunkData} {k : Int × Int}
    (absent : k ∉ l.map fun d => (d.X, d.Z)) (bunch : Map (Int × Int) SaveChunk) :
    (l.foldl enterChunk bunch).get k = bunch.get k := by
  induction l generalizing bunch with
  | nil => rfl
  | cons v rest inductionHypothesis =>
      rw [List.map_cons, List.mem_cons, not_or] at absent
      rw [List.foldl_cons, inductionHypothesis absent.2]
      unfold enterChunk
      split
      · rw [Map.get_set, if_neg absent.1]
      · rfl

/-- A chunk that is listed once ends up in the map. -/
theorem get_foldl_enterChunk_of_mem {l : List ChunkData}
    (once : (l.map fun d => (d.X, d.Z)).Nodup) {v : ChunkData} (member : v ∈ l) {c : SaveChunk}
    (data : v.Data = .chunk c) (bunch : Map (Int × Int) SaveChunk) :
    (l.foldl enterChunk bunch).get (v.X, v.Z) = some c := by
  induction l generalizing bunch with
  | nil => cases member
  | cons first rest inductionHypothesis =>
      rw [List.map_cons, List.nodup_cons] at once
      rw [List.foldl_cons]
      rcases List.mem_cons.mp member with rfl | later
      · rw [get_foldl_enterChunk_of_absent once.1]
        simp [enterChunk, data]
      · exact inductionHypothesis once.2 later _

/-- The map holds the stored chunks of the rectangle. -/
theorem get_bunchOf {stored : Int × Int → Option SaveChunk} {r : Rect} {l : List ChunkData}
    (lists : Lists (asData stored) r l) (k : Int × Int) :
    (bunchOf l).get k = if r.contains k.1 k.2 then stored k else none := by
  rw [bunchOf_eq]
  cases found : (if r.contains k.1 k.2 then stored k else none) with
  | some c =>
      rw [ite_eq_iff] at found
      obtain ⟨inside, there⟩ := found.resolve_right (by simp)
      have member : (⟨k.1, k.2, .chunk c⟩ : ChunkData) ∈ l :=
        (lists.mem _).mpr ⟨inside, by simp [asData, there]⟩
      exact get_foldl_enterChunk_of_mem lists.once member rfl .empty
  | none =>
      rw [get_foldl_enterChunk_of_absent]
      · rfl
      · intro member
        obtain ⟨v, listed, rfl⟩ := List.mem_map.mp member
        obtain ⟨inside, there⟩ := (lists.mem v).mp listed
        rw [if_pos inside] at found
        simp [asData, found] at there

/-! ### The answer -/

variable {St : Type} {cs : ChunkStorage St} {st : St} {wname dname : String}
  {stored : Int × Int → Option SaveChunk}

/-- Around a chunk of the rectangle the map has what is stored. -/
theorem withContext_eq {r : Rect} {l : List ChunkData} (fits : marginFits r)
    (lists : Lists (asData stored) ⟨r.x0 - 1, r.y0 - 1, r.x1 + 1, r.y1 + 1⟩ l) {k : Int × Int}
    (inside : r.contains k.1 k.2) :
    ((bunchOf l).get k).map (withContext (bunchOf l) k) = contextOf stored k := by
  obtain ⟨lowX, lowZ, highX, highZ⟩ := fits
  obtain ⟨left, right, top, bottom⟩ := inside
  have near : ∀ x z, k.1 - 1 ≤ x → x ≤ k.1 + 1 → k.2 - 1 ≤ z → z ≤ k.2 + 1 →
      (bunchOf l).get (x, z) = stored (x, z) := by
    intro x z _ _ _ _
    rw [get_bunchOf lists, if_pos]
    refine ⟨?_, ?_, ?_, ?_⟩ <;> dsimp only <;> omega
  have center : (bunchOf l).get k = stored k :=
    near k.1 k.2 (by omega) (by omega) (by omega) (by omega)
  have context : ∀ v, withContext (bunchOf l) k v =
      { center := v
        top := stored (k.1, k.2 - 1)
        bottom := stored (k.1, k.2 + 1)
        left := stored (k.1 - 1, k.2)
        right := stored (k.1 + 1, k.2) } := by
    intro v
    rw [withContext, wrap_of_fits (by omega) (by omega), wrap_of_fits (by omega) (by omega),
      wrap_of_fits (by omega) (by omega), wrap_of_fits (by omega) (by omega),
      near _ _ (by omega) (by omega) (by omega) (by omega),
      near _ _ (by omega) (by omega) (by omega) (by omega),
      near _ _ (by omega) (by omega) (by omega) (by omega),
      near _ _ (by omega) (by omega) (by omega) (by omega)]
  rw [center, contextOf]
  exact congrFun (congrArg Option.map (funext context)) _

/-- The second loop: the chunks of the map inside the rectangle, with their context. -/
def contexted (bunchOrder : BunchOrder) (bunch : Map (Int × Int) SaveChunk) (r : Rect) :
    List ChunkData :=
  (bunchOrder bunch).order.filterMap fun k =>
    if r.contains k.1 k.2 then
      ((bunch.get k).map (withContext bunch k)).map fun d => ⟨k.1, k.2, .contextedChunkData d⟩
    else none

theorem contexted_eq (bunchOrder : BunchOrder) (bunch : Map (Int × Int) SaveChunk) (r : Rect) :
    ((bunchOrder bunch).order.filterMap fun k =>
      if k.1 < r.x0 ∨ k.1 ≥ r.x1 ∨ k.2 < r.y0 ∨ k.2 ≥ r.y1 then none
      else (bunch.get k).map fun v =>
        (⟨k.1, k.2, .contextedChunkData (withContext bunch k v)⟩ : ChunkData)) =
      contexted bunchOrder bunch r := by
  refine List.filterMap_congr fun k _ => ?_
  have excluded : (k.1 < r.x0 ∨ k.1 ≥ r.x1 ∨ k.2 < r.y0 ∨ k.2 ≥ r.y1) ↔ ¬ r.contains k.1 k.2 := by
    unfold Rect.contains
    omega
  by_cases inside : r.contains k.1 k.2
  · rw [if_neg (by rw [excluded]; exact not_not_intro inside), if_pos inside, Option.map_map]
    rfl
  · rw [if_pos (excluded.mpr inside), if_neg inside]

/-- The answer once the chunks are fetched. -/
theorem getChunksRegionWithContext_eq (bunchOrder : BunchOrder) {unsorted : List ChunkData}
    {cx0 cz0 cx1 cz1 : Int}
    (fetched : cs.GetChunksRegion st wname dname (wrap (cx0 - 1)) (wrap (cz0 - 1)) (wrap (cx1 + 1))
      (wrap (cz1 + 1)) = .ok (.ok unsorted)) :
    getChunksRegionWithContext bunchOrder cs st wname dname cx0 cz0 cx1 cz1 =
      .ok (.ok (contexted bunchOrder (bunchOf unsorted) ⟨cx0, cz0, cx1, cz1⟩)) := by
  unfold getChunksRegionWithContext
  rw [fetched]
  exact congrArg (fun l => Except.ok (Except.ok l))
    (contexted_eq bunchOrder (bunchOf unsorted) ⟨cx0, cz0, cx1, cz1⟩)

/-- An entry of the answer is a chunk of the map inside the rectangle. -/
theorem mem_contexted {bunchOrder : BunchOrder} {bunch : Map (Int × Int) SaveChunk} {r : Rect}
    {d : ChunkData} :
    d ∈ contexted bunchOrder bunch r ↔ r.contains d.X d.Z ∧
      ((bunch.get (d.X, d.Z)).map (withContext bunch (d.X, d.Z))).map .contextedChunkData =
        some d.Data := by
  unfold contexted
  rw [List.mem_filterMap]
  constructor
  · rintro ⟨k, _, made⟩
    rw [ite_eq_iff] at made
    obtain ⟨inside, made⟩ := made.resolve_right (by simp)
    obtain ⟨context, there, rfl⟩ := Option.map_eq_some_iff.mp made
    exact ⟨inside, by rw [there]; rfl⟩
  · rintro ⟨inside, made⟩
    obtain ⟨context, there, data⟩ := Option.map_eq_some_iff.mp made
    refine ⟨(d.X, d.Z), ?_, ?_⟩
    · obtain ⟨v, entry, _⟩ := Option.map_eq_some_iff.mp there
      rw [(bunchOrder bunch).mem_order, bunch.mem_keys, entry]
      rfl
    · rw [if_pos inside, there, Option.map_some, data]

/-- A range loop meets every key once. -/
theorem contexted_once (bunchOrder : BunchOrder) (bunch : Map (Int × Int) SaveChunk) (r : Rect) :
    ((contexted bunchOrder bunch r).map fun d => (d.X, d.Z)).Nodup := by
  unfold contexted
  rw [List.map_filterMap]
  refine (bunchOrder bunch).nodup.filterMap fun k other place first second => ?_
  have placed : ∀ {key}, place ∈ (if r.contains key.1 key.2 then
      ((bunch.get key).map (withContext bunch key)).map fun d =>
        (⟨key.1, key.2, .contextedChunkData d⟩ : ChunkData) else none).map
          (fun d => (d.X, d.Z)) → key = place := by
    intro key made
    obtain ⟨d, found, rfl⟩ := Option.map_eq_some_iff.mp made
    rw [ite_eq_iff] at found
    obtain ⟨context, _, rfl⟩ := Option.map_eq_some_iff.mp (found.resolve_right (by simp)).2
    rfl
  exact (placed first).trans (placed second).symm

/-- The answer lists the stored chunks of the rectangle with their context. -/
theorem getChunksRegionWithContext_lists (bunchOrder : BunchOrder)
    (serves : Serves (cs.GetChunksRegion st wname dname) (asData stored))
    {cx0 cz0 cx1 cz1 : Int} (width : cx0 < cx1) (height : cz0 < cz1)
    (fits : marginFits ⟨cx0, cz0, cx1, cz1⟩) :
    ∃ l, getChunksRegionWithContext bunchOrder cs st wname dname cx0 cz0 cx1 cz1 = .ok (.ok l) ∧
      Lists (asContextedData stored) ⟨cx0, cz0, cx1, cz1⟩ l := by
  obtain ⟨lowX, lowZ, highX, highZ⟩ := id fits
  dsimp only at lowX lowZ highX highZ
  have proper : Proper ⟨cx0 - 1, cz0 - 1, cx1 + 1, cz1 + 1⟩ := by
    constructor <;> dsimp only <;> omega
  obtain ⟨unsorted, fetched, lists⟩ := serves.lists _ _ _ _ proper
  refine ⟨contexted bunchOrder (bunchOf unsorted) ⟨cx0, cz0, cx1, cz1⟩, ?_, ?_, ?_⟩
  · apply getChunksRegionWithContext_eq
    rw [wrap_of_fits (by omega) (by omega), wrap_of_fits (by omega) (by omega),
      wrap_of_fits (by omega) (by omega), wrap_of_fits (by omega) (by omega), fetched]
  · exact contexted_once _ _ _
  · intro d
    rw [mem_contexted]
    constructor
    · rintro ⟨inside, found⟩
      rw [withContext_eq fits lists inside] at found
      exact ⟨inside, found⟩
    · rintro ⟨inside, found⟩
      refine ⟨inside, ?_⟩
      rw [withContext_eq fits lists inside]
      exact found

/-- What the data of an entry are, given that they are what is stored. -/
theorem centered {k : Int × Int} {data : Datum} {a : ContextedChunkData}
    (found : asContextedData stored k = some data) (same : data = .contextedChunkData a) :
    stored k = some a.center ∧
      a = ⟨a.center, stored (k.1, k.2 - 1), stored (k.1, k.2 + 1), stored (k.1 - 1, k.2),
        stored (k.1 + 1, k.2)⟩ := by
  rw [same] at found
  obtain ⟨context, made, unfolded⟩ := Option.map_eq_some_iff.mp found
  obtain rfl := Datum.contextedChunkData.inj unfolded
  obtain ⟨c, there, rfl⟩ := Option.map_eq_some_iff.mp made
  exact ⟨there, rfl⟩

/-- Whatever the rectangles and the orders of the range loops are, each answer lists the
stored chunks of its rectangle with what is stored around them, a chunk in both answers has
the same data in both, and neighbours have each other as context. -/
theorem contextIndependentOfRectangle (cs : ChunkStorage St) (st : St) (wname dname : String)
    (stored : Int × Int → Option SaveChunk)
    (serves : Serves (cs.GetChunksRegion st wname dname) (asData stored))
    (firstOrder secondOrder : BunchOrder) (r q : Rect)
    (rWidth : r.x0 < r.x1) (rHeight : r.y0 < r.y1) (rFits : marginFits r)
    (qWidth : q.x0 < q.x1) (qHeight : q.y0 < q.y1) (qFits : marginFits q) :
    ∃ l m,
      getChunksRegionWithContext firstOrder cs st wname dname r.x0 r.y0 r.x1 r.y1 =
        .ok (.ok l) ∧
      getChunksRegionWithContext secondOrder cs st wname dname q.x0 q.y0 q.x1 q.y1 =
        .ok (.ok m) ∧
      Lists (asContextedData stored) r l ∧ Lists (asContextedData stored) q m ∧
      (∀ d ∈ l, ∀ e ∈ m, d.X = e.X → d.Z = e.Z → d.Data = e.Data) ∧
      (∀ d ∈ l, ∀ e ∈ m, ∀ a b, d.Data = .contextedChunkData a → e.Data = .contextedChunkData b →
        (e.X = d.X + 1 → e.Z = d.Z → a.right = some b.center ∧ b.left = some a.center) ∧
        (e.X = d.X → e.Z = d.Z + 1 → a.bottom = some b.center ∧ b.top = some a.center)) := by
  obtain ⟨l, lAnswer, lLists⟩ :=
    getChunksRegionWithContext_lists firstOrder serves rWidth rHeight rFits
  obtain ⟨m, mAnswer, mLists⟩ :=
    getChunksRegionWithContext_lists secondOrder serves qWidth qHeight qFits
  refine ⟨l, m, lAnswer, mAnswer, lLists, mLists, ?_, ?_⟩
  · intro d dListed e eListed sameX sameZ
    have dFound := ((lLists.mem d).mp dListed).2
    have eFound := ((mLists.mem e).mp eListed).2
    rw [sameX, sameZ, eFound] at dFound
    exact (Option.some.inj dFound).symm
  · intro d dListed e eListed a b aData bData
    have aStored := centered ((lLists.mem d).mp dListed).2 aData
    have bStored := centered ((mLists.mem e).mp eListed).2 bData
    constructor
    · intro nextX sameZ
      rw [nextX, sameZ] at bStored
      rw [aStored.2, bStored.2]
      simp [aStored.1, bStored.1]
    · intro sameX nextZ
      rw [sameX, nextZ] at bStored
      rw [aStored.2, bStored.2]
      simp [aStored.1, bStored.1]

/-- Two overlapping rectangles over two neighbouring chunks. -/
theorem contextIndependentOfRectangle_overlap :
    ∃ l m,
      getChunksRegionWithContext Map.someOrder (holding [(0, 0), (1, 0)] ⟨[]⟩) () "" "" 0 0 1 1 =
        .ok (.ok l) ∧
      getChunksRegionWithContext Map.someOrder (holding [(0, 0), (1, 0)] ⟨[]⟩) () "" "" 0 0 2 1 =
        .ok (.ok m) ∧
      (∀ d ∈ l, ∀ e ∈ m, d.X = e.X → d.Z = e.Z → d.Data = e.Data) := by
  obtain ⟨l, m, lAnswer, mAnswer, _, _, same, _⟩ :=
    contextIndependentOfRectangle (holding [(0, 0), (1, 0)] ⟨[]⟩) () "" ""
      (held [(0, 0), (1, 0)] ⟨[]⟩) (holding_serves (by decide) _ _ _ _) Map.someOrder Map.someOrder
      ⟨0, 0, 1, 1⟩ ⟨0, 0, 2, 1⟩ (by decide) (by decide) (by decide) (by decide) (by decide)
      (by decide)
  exact ⟨l, m, lAnswer, mAnswer, same⟩

/-- The margin of a rectangle at the end of the `int` range wraps, and nothing is found. -/
theorem context_lost_at_int_end :
    Serves ((holding [(2 ^ 63 - 2, 0)] ⟨[]⟩).GetChunksRegion () "" "")
        (asData (held [(2 ^ 63 - 2, 0)] ⟨[]⟩)) ∧
      (Rect.mk (2 ^ 63 - 2) 0 (2 ^ 63 - 1) 1).contains (2 ^ 63 - 2) 0 ∧
      held [(2 ^ 63 - 2, 0)] ⟨[]⟩ (2 ^ 63 - 2, 0) = some ⟨[]⟩ ∧
      ¬ ∃ l, getChunksRegionWithContext Map.someOrder (holding [(2 ^ 63 - 2, 0)] ⟨[]⟩) () "" ""
          (2 ^ 63 - 2) 0 (2 ^ 63 - 1) 1 = .ok (.ok l) ∧
        Lists (asContextedData (held [(2 ^ 63 - 2, 0)] ⟨[]⟩)) ⟨2 ^ 63 - 2, 0, 2 ^ 63 - 1, 1⟩ l := by
  refine ⟨holding_serves (by decide) _ _ _ _, by decide, by decide, ?_⟩
  rintro ⟨l, answer, lists⟩
  have nothing : spread [(2 ^ 63 - 2, 0)] (.chunk ⟨[]⟩)
      ⟨wrap (2 ^ 63 - 2 - 1), wrap (0 - 1), wrap (2 ^ 63 - 1 + 1), wrap (1 + 1)⟩ = [] := by decide
  rw [getChunksRegionWithContext_eq _ (congrArg (fun l => Except.ok (Except.ok l)) nothing)] at answer
  cases answer
  have empty : contexted Map.someOrder (bunchOf []) ⟨2 ^ 63 - 2, 0, 2 ^ 63 - 1, 1⟩ = [] :=
    List.eq_nil_iff_forall_not_mem.mpr fun d member => by
      have found := (mem_contexted.mp member).2
      cases found
  have missing := lists.eq_nil_iff.mp empty (2 ^ 63 - 2) 0 (by decide)
  revert missing
  decide

end WebChunk.Render
