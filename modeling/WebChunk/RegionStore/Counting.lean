import WebChunk.Go.Channel
import WebChunk.RegionStore.Collect
import WebChunk.RegionStore.Transition

/-!
# Counting the chunks of a rectangle

`GetChunksCountRegion` sends one request, which the router hands to the workers of several
regions, and each worker answers once for every chunk that it takes to be in the rectangle.
The call counts the answers with a variable that it never advances.
-/

namespace WebChunk.RegionStore

open WebChunk.Go WebChunk.Semantics

/-- What a store holds: for each region that has a file, the result of `ExistSector`. -/
abbrev RegionContent := RegionLocator → Option (Int × Int → Bool)

/-- The chunk is stored. -/
def RegionContent.stores (content : RegionContent) (wname dname : String) (k : Int × Int) : Bool :=
  let (rx, rz) := regionAt k.1 k.2
  (content ⟨wname, dname, rx, rz⟩).any fun present => present (regionIn k.1 k.2)

/-- The values that the router and the workers send for a count request. A worker whose region
has no file sends a nil. -/
def countReplies (r : RegionRequest) (content : RegionContent) : List Reply :=
  r.regions.flatMap fun loc =>
    match content loc with
    | none => [.nil]
    | some present => countIndividualChunks loc r present

/-- The values that a count request asks for. -/
def expectedReplies (r : RegionRequest) (content : RegionContent) : List Reply :=
  (rectPlaces ⟨r.cx1, r.cz1, r.cx2, r.cz2⟩).map fun k =>
    .chunkData k.1 k.2 (if content.stores r.world r.dimension k then 1 else 0)

/-- How far a call of `GetChunksCountRegion` comes with the values it is sent: it returns, with
some of them not received, waits for another one, or panics. -/
inductive CountOutcome where
  | returned (ret : List (Int × Int × Int)) (left : List Reply)
  | waiting (ret : List (Int × Int × Int))
  | panicked

/-- The loop of `GetChunksCountRegion`. No case of its switch changes `resGot`; a value that is
not a `ChunkData` fails the type assertion. -/
def receiveCounts (resCount resGot : Int) (ret : List (Int × Int × Int))
    (replies : List Reply) : CountOutcome :=
  if resGot < resCount then
    match replies with
    | [] => .waiting ret
    | .chunkData x z d :: rest => receiveCounts resCount resGot (ret ++ [(x, z, d)]) rest
    | _ :: _ => .panicked
  else .returned ret replies

/-- `GetChunksCountRegion`, given the values that arrive on its channel. -/
def GetChunksCountRegion (limit : Nat) (cx0 cz0 cx1 cz1 : Int) (replies : List Reply) :
    CountOutcome :=
  let (cx0, cz0, cx1, cz1) := normalizeCoords cx0 cz0 cx1 cz1
  let resCount := wrap (wrap (cx1 - cx0) * wrap (cz1 - cz0))
  match Chan.makeSize limit (resCount.tdiv 2) with
  | none => .panicked
  | some _ => receiveCounts resCount 0 [] replies

/-- The request is answered with one value for each chunk of the rectangle, and the call
returns after the last one, in whatever order they arrive. -/
structure CountsRegion (limit : Nat) (wname dname : String) (content : RegionContent)
    (cx0 cz0 cx1 cz1 : Int) : Prop where
  replies : (countReplies ((ClientCall.getChunksCountRegion wname dname cx0 cz0 cx1 cz1).request 0)
      content).Perm
    (expectedReplies ((ClientCall.getChunksCountRegion wname dname cx0 cz0 cx1 cz1).request 0)
      content)
  returns : ∀ order, order.Perm
      (countReplies ((ClientCall.getChunksCountRegion wname dname cx0 cz0 cx1 cz1).request 0)
        content) →
    ∃ ret, GetChunksCountRegion limit cx0 cz0 cx1 cz1 order = .returned ret []

/-- A loop that has to receive a value never returns. -/
theorem receiveCounts_not_returned {resCount resGot : Int} (more : resGot < resCount)
    (ret final : List (Int × Int × Int)) (replies left : List Reply) :
    receiveCounts resCount resGot ret replies ≠ .returned final left := by
  induction replies generalizing ret with
  | nil =>
      unfold receiveCounts
      rw [if_pos more]
      exact fun returned => by cases returned
  | cons reply rest inductionHypothesis =>
      unfold receiveCounts
      rw [if_pos more]
      cases reply with
      | chunkData x z d => exact inductionHypothesis _
      | _ => exact fun returned => by cases returned

/-- The call returns without having received anything, or not at all. -/
theorem GetChunksCountRegion_returned {limit : Nat} {cx0 cz0 cx1 cz1 : Int}
    {replies left : List Reply} {ret : List (Int × Int × Int)}
    (returned : GetChunksCountRegion limit cx0 cz0 cx1 cz1 replies = .returned ret left) :
    left = replies := by
  unfold GetChunksCountRegion at returned
  dsimp only at returned
  split at returned
  · cases returned
  · by_cases more : 0 < wrap (wrap ((normalizeCoords cx0 cz0 cx1 cz1).2.2.1 -
        (normalizeCoords cx0 cz0 cx1 cz1).1) * wrap ((normalizeCoords cx0 cz0 cx1 cz1).2.2.2 -
        (normalizeCoords cx0 cz0 cx1 cz1).2.1))
    · exact absurd returned (receiveCounts_not_returned more _ _ _ _)
    · unfold receiveCounts at returned
      rw [if_neg more] at returned
      cases returned
      rfl

/-- No rectangle is counted: if its chunks are all answered for, the call waits for another
value after the last one. -/
theorem countsRegion_never (limit : Nat) (wname dname : String) (content : RegionContent)
    {cx0 cz0 cx1 cz1 : Int} (width : cx0 < cx1) (height : cz0 < cz1) :
    ¬ CountsRegion limit wname dname content cx0 cz0 cx1 cz1 := by
  rintro ⟨replies, returns⟩
  obtain ⟨ret, returned⟩ := returns _ (.refl _)
  have none_ := GetChunksCountRegion_returned returned
  rw [← none_] at replies
  have corner : (cx0, cz0) ∈ rectPlaces ⟨cx0, cz0, cx1, cz1⟩ :=
    mem_rectPlaces.mpr ⟨Int.le_refl _, width, Int.le_refl _, height⟩
  have expected := replies.symm.eq_nil
  simp only [expectedReplies, ClientCall.request, normalizeCoords, if_neg (Int.not_lt.mpr width.le),
    if_neg (Int.not_lt.mpr height.le), List.map_eq_nil_iff] at expected
  rw [expected] at corner
  cases corner

theorem countsRegion_never_stored :
    ¬ CountsRegion 1024 "w" "overworld" (fun _ => some fun _ => true) (-31) (-31) 1 1 :=
  countsRegion_never _ _ _ _ (by decide) (by decide)

/-- A chunk that is stored: the router finds no region in the rectangle, and the call waits. -/
theorem stored_chunk_not_counted :
    countReplies ((ClientCall.getChunksCountRegion "w" "overworld" 0 0 1 1).request 0)
        (fun _ => some fun _ => true) = [] ∧
      GetChunksCountRegion 1024 0 0 1 1 [] = .waiting [] ∧
      ¬ CountsRegion 1024 "w" "overworld" (fun _ => some fun _ => true) 0 0 1 1 := by
  have none_ : countReplies ((ClientCall.getChunksCountRegion "w" "overworld" 0 0 1 1).request 0)
      (fun _ => some fun _ => true) = [] := by decide
  have waits : GetChunksCountRegion 1024 0 0 1 1 [] = .waiting [] := rfl
  refine ⟨none_, waits, fun counts => ?_⟩
  obtain ⟨ret, returned⟩ := counts.returns [] (none_ ▸ .refl _)
  rw [waits] at returned
  cases returned

/-! ### The values that are sent -/

/-- A rectangle between two chunks of one row or column of regions gets no answer, since the
router leaves out the region of the second one. -/
theorem countReplies_of_same_region {r : RegionRequest} {content : RegionContent}
    (same : (regionAt r.cx1 r.cz1).1 = (regionAt r.cx2 r.cz2).1 ∨
      (regionAt r.cx1 r.cz1).2 = (regionAt r.cx2 r.cz2).2) : countReplies r content = [] := by
  have none_ : r.regions = [] := by
    unfold RegionRequest.regions
    rcases same with column | row
    · simp [column]
    · simp [row]
  rw [countReplies, none_, List.flatMap_nil]

/-- Whether a chunk is stored or not, its value says that it is. -/
theorem data_of_countReplies {r : RegionRequest} {content : RegionContent} {x z data : Int}
    (sent : .chunkData x z data ∈ countReplies r content) : data = 1 := by
  obtain ⟨loc, _, sent⟩ := List.mem_flatMap.mp sent
  split at sent
  · simp at sent
  · rw [countIndividualChunks, List.mem_filterMap] at sent
    obtain ⟨place, _, made⟩ := sent
    dsimp only at made
    split at made
    · rw [ite_self, Option.some.injEq, Reply.chunkData.injEq] at made
      exact made.2.2.symm
    · cases made

/-- A loop that has to receive a value panics if one of them is no `ChunkData`. -/
theorem receiveCounts_panicked_iff {resCount resGot : Int} (more : resGot < resCount)
    (ret : List (Int × Int × Int)) (replies : List Reply) :
    receiveCounts resCount resGot ret replies = .panicked ↔
      ∃ reply ∈ replies, ∀ x z data, reply ≠ .chunkData x z data := by
  induction replies generalizing ret with
  | nil =>
      unfold receiveCounts
      simp [more]
  | cons reply rest inductionHypothesis =>
      unfold receiveCounts
      rw [if_pos more]
      cases reply with
      | chunkData x z d => simp [inductionHypothesis]
      | _ => simp

/-- A value that is no `ChunkData` comes from a region without a file. -/
theorem exists_countReplies_iff {r : RegionRequest} {content : RegionContent} :
    (∃ reply ∈ countReplies r content, ∀ x z data, reply ≠ .chunkData x z data) ↔
      ∃ loc ∈ r.regions, content loc = none := by
  constructor
  · rintro ⟨reply, sent, other⟩
    obtain ⟨loc, asked, sent⟩ := List.mem_flatMap.mp sent
    split at sent
    · rename_i missing
      exact ⟨loc, asked, missing⟩
    · rw [countIndividualChunks, List.mem_filterMap] at sent
      obtain ⟨place, _, made⟩ := sent
      dsimp only at made
      split at made
      · rw [ite_self] at made
        exact absurd (Option.some.inj made).symm (other _ _ _)
      · cases made
  · rintro ⟨loc, asked, missing⟩
    refine ⟨.nil, List.mem_flatMap.mpr ⟨loc, asked, ?_⟩, fun x z data same => by cases same⟩
    rw [missing]
    exact List.mem_singleton_self _

/-- An open driver panics in `make`, or because one of the regions that it asks has no file. -/
theorem GetChunksCountRegion_panicked_iff {limit : Nat} {cx0 cz0 cx1 cz1 : Int}
    {wname dname : String} {content : RegionContent} {order : List Reply}
    (sent : order.Perm (countReplies
      ((ClientCall.getChunksCountRegion wname dname cx0 cz0 cx1 cz1).request 0) content)) :
    GetChunksCountRegion limit cx0 cz0 cx1 cz1 order = .panicked ↔
      Chan.makeSize limit ((Storages.rectCount cx0 cz0 cx1 cz1).tdiv 2) = none ∨
        0 < Storages.rectCount cx0 cz0 cx1 cz1 ∧ ∃ loc ∈
          ((ClientCall.getChunksCountRegion wname dname cx0 cz0 cx1 cz1).request 0).regions,
          content loc = none := by
  have outcome : GetChunksCountRegion limit cx0 cz0 cx1 cz1 order =
      match Chan.makeSize limit ((Storages.rectCount cx0 cz0 cx1 cz1).tdiv 2) with
      | none => .panicked
      | some _ => receiveCounts (Storages.rectCount cx0 cz0 cx1 cz1) 0 [] order := rfl
  rw [outcome, ← exists_countReplies_iff]
  cases Chan.makeSize limit ((Storages.rectCount cx0 cz0 cx1 cz1).tdiv 2) with
  | none => simp
  | some capacity =>
      dsimp only
      by_cases more : 0 < Storages.rectCount cx0 cz0 cx1 cz1
      · rw [receiveCounts_panicked_iff more]
        simp [more, sent.mem_iff]
      · unfold receiveCounts
        simp [more]

/-! ### The call in the store -/

/-- A count call over a nonempty rectangle has not returned. -/
def CountsOpen (s : State) : Prop :=
  ∀ (id : Nat) (c : Call), s.calls[id]? = some c → c.call.returnsAtOnce = false →
    (∀ reply ret, c.call.receive reply ≠ .returns ret) → ∀ ret at_, c.phase ≠ .returned ret at_

theorem CountsOpen.preserved {cfg : Config} {s next : State} {action : Action}
    (isOpen : CountsOpen s) (taken : step cfg s action = some next) : CountsOpen next := by
  intro id after found more never
  -- A call that takes no step of its own keeps its phase.
  have delivered : ∀ {result : Option Nat} {replies : List Reply},
      (deliver s.calls result replies)[id]? = some after →
        ∀ ret at_, after.phase ≠ .returned ret at_ := by
    intro result replies changed
    cases result with
    | none => exact isOpen _ _ changed more never
    | some other =>
        obtain ⟨before, stored, rfl⟩ := getElem?_modify_some changed
        by_cases same : other = id
        · rw [if_pos same] at more never ⊢
          exact isOpen id before stored more never
        · rw [if_neg same] at more never ⊢
          exact isOpen _ _ stored more never
  cases (transition_of_step taken).2 with
  | invoke call =>
      rcases getElem?_concat_some found with old | ⟨_, rfl⟩
      · exact isOpen _ _ old more never
      · exact fun _ _ returns => by cases returns
  | @clientSends other _ _ stored _ _ _ | @clientIgnores other _ _ _ stored _ _ _ =>
      obtain ⟨before, storedBefore, rfl⟩ := getElem?_modify_some found
      by_cases same : other = id
      · rw [if_pos same]
        exact fun _ _ returns => by cases returns
      · rw [if_neg same] at more never ⊢
        exact isOpen _ _ storedBefore more never
  | @clientSkips other c _ stored _ _ returns =>
      obtain ⟨before, storedBefore, rfl⟩ := getElem?_modify_some found
      by_cases same : other = id
      · subst same
        cases stored.symm.trans storedBefore
        rw [if_pos rfl] at more
        exact absurd (returns.symm.trans more) (by decide)
      · rw [if_neg same] at more never ⊢
        exact isOpen _ _ storedBefore more never
  | @clientReturns other c reply replies ret stored _ _ accepts =>
      obtain ⟨before, storedBefore, rfl⟩ := getElem?_modify_some found
      by_cases same : other = id
      · subst same
        cases stored.symm.trans storedBefore
        rw [if_pos rfl] at never
        exact absurd accepts (never reply ret)
      · rw [if_neg same] at more never ⊢
        exact isOpen _ _ storedBefore more never
  | scheduleAnswers _ _ _ | workerCalls _ _ | workerRefuses _ _ _ => exact delivered found
  | _ => exact isOpen _ _ found more never

/-- In no run of the store, whatever its files hold, does a call for the number of chunks of a
nonempty rectangle return. -/
theorem count_call_stays {cfg : Config} {files : Files} {actions : List Action} {final : State}
    (run : (machine cfg).Runs (.initial cfg files) actions final) {id : Nat} {c : Call}
    (found : final.calls[id]? = some c) {wname dname : String} {cx0 cz0 cx1 cz1 : Int}
    (call : c.call = .getChunksCountRegion wname dname cx0 cz0 cx1 cz1)
    (width : cx0 < cx1) (height : cz0 < cz1) : ∀ ret at_, c.phase ≠ .returned ret at_ := by
  have isOpen : CountsOpen final :=
    run.always (fun isOpen taken => isOpen.preserved taken)
      fun _ _ found => by simp [State.initial] at found
  refine isOpen _ _ found ?_ ?_
  · have area : 0 < (cx1 - cx0) * (cz1 - cz0) := Int.mul_pos (by omega) (by omega)
    rw [call]
    simp only [ClientCall.returnsAtOnce, normalizeCoords, if_neg (Int.not_lt.mpr width.le),
      if_neg (Int.not_lt.mpr height.le)]
    simpa using area
  · intro reply ret
    rw [call]
    cases reply <;> exact fun returns => by cases returns

end WebChunk.RegionStore
