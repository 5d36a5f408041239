import Mathlib.Data.Multiset.Count
import WebChunk.RegionStore.Flow

/-!
# At most one answer

A call about one chunk puts one request on its way, and whoever answers it takes it
off. Its request, its unread values and its end are therefore at most one thing.
-/

namespace WebChunk.RegionStore

open WebChunk.Go WebChunk.Semantics

/-- What a flow step does to one call about one chunk that was already made. -/
inductive CallStep (cfg : Config) (s : State) (action : Action) (next : State) (id : Nat)
    (c : Call) : Call → Prop where
  | same : CallStep cfg s action next id c c
  | sends (sending : c.phase = .sending) :
      CallStep cfg s action next id c { c with phase := .waiting }
  | returns {reply : Reply} {replies : List Reply} {ret : Return} (waiting : c.phase = .waiting)
      (buffered : c.replies = reply :: replies) (accepts : c.call.receive reply = .returns ret)
      (clock : next.clock = s.clock + 1) (files : next.files = s.files) :
      CallStep cfg s action next id c
        { c with phase := .returned ret s.clock, replies := replies }
  | ignores {reply : Reply} {replies : List Reply} (buffered : c.replies = reply :: replies)
      (ignores : c.call.receive reply = .keepsWaiting) :
      CallStep cfg s action next id c { c with replies := replies }
  | answers {replies : List Reply}
      (answer : Answer cfg s action (c.call.request id) replies next.files) :
      CallStep cfg s action next id c { c with replies := c.replies ++ replies }

/-- A call after a step was made by the step, or went through a `CallStep`. -/
theorem call_of_flow {cfg : Config} {s next : State} {action : Action}
    (flow : Flow cfg s action next) {id : Nat} {after : Call}
    (found : next.calls[id]? = some after) (single : after.call.isChunk = true) :
    (∃ c, s.calls[id]? = some c ∧ CallStep cfg s action next id c after) ∨
    (id = s.calls.length ∧ action = .invoke after.call ∧
      after = ⟨after.call, .sending, [], s.clock⟩ ∧ next.clock = s.clock + 1) := by
  cases flow with
  | invokes call calls clock _ _ =>
      rw [calls] at found
      rcases getElem?_concat_some found with old | ⟨index, rfl⟩
      · exact .inl ⟨after, old, .same⟩
      · exact .inr ⟨index, rfl, rfl, clock⟩
  | sends stored sending _ calls _ _ _ =>
      rw [calls] at found
      obtain ⟨before, old, rfl⟩ := getElem?_modify_some found
      refine .inl ⟨before, old, ?_⟩
      split
      · rename_i same
        cases stored.symm.trans (same ▸ old)
        exact .sends sending
      · exact .same
  | returns stored waiting _ buffered accepts calls clock _ files =>
      rw [calls] at found
      obtain ⟨before, old, rfl⟩ := getElem?_modify_some found
      refine .inl ⟨before, old, ?_⟩
      split
      · rename_i same
        cases stored.symm.trans (same ▸ old)
        exact .returns waiting buffered accepts clock files
      · exact .same
  | ignores stored _ _ buffered ignores calls _ _ _ =>
      rw [calls] at found
      obtain ⟨before, old, rfl⟩ := getElem?_modify_some found
      refine .inl ⟨before, old, ?_⟩
      split
      · rename_i same
        cases stored.symm.trans (same ▸ old)
        exact .ignores buffered ignores
      · exact .same
  | answers stored _ calls _ _ answer =>
      rw [calls] at found
      obtain ⟨before, old, rfl⟩ := getElem?_modify_some found
      refine .inl ⟨before, old, ?_⟩
      split
      · rename_i same
        subst same
        cases stored.symm.trans old
        exact .answers answer
      · exact .same
  | creates _ _ calls _ _ _ => exact .inl ⟨after, calls ▸ found, .same⟩
  | moves calls _ _ _ => exact .inl ⟨after, (calls id after single).mp found, .same⟩
  | panics _ calls _ _ _ => exact .inl ⟨after, calls ▸ found, .same⟩

theorem CallStep.call {cfg : Config} {s next : State} {action : Action} {id : Nat}
    {c after : Call} (step : CallStep cfg s action next id c after) : after.call = c.call := by
  cases step <;> rfl

theorem CallStep.invokedAt {cfg : Config} {s next : State} {action : Action} {id : Nat}
    {c after : Call} (step : CallStep cfg s action next id c after) :
    after.invokedAt = c.invokedAt := by
  cases step <;> rfl

/-- Requests of different calls differ. -/
theorem request_ne {id other : Nat} {call call' : ClientCall} (different : id ≠ other) :
    call.request id ≠ call'.request other := by
  intro same
  have results := congrArg RegionRequest.result same
  simp only [ClientCall.request_result, Option.some.injEq] at results
  exact different results

/-- An element of a sum of multisets is in one of them. -/
theorem mem_sum_map {α β : Type} {l : List α} {g : α → Multiset β} {b : β}
    (member : b ∈ (l.map g).sum) : ∃ a ∈ l, b ∈ g a := by
  induction l with
  | nil => simp at member
  | cons head tail inductionHypothesis =>
      rw [List.map_cons, List.sum_cons] at member
      rcases Multiset.mem_add.mp member with here | later
      · exact ⟨head, List.mem_cons_self, here⟩
      · obtain ⟨a, present, inside⟩ := inductionHypothesis later
        exact ⟨a, List.mem_cons_of_mem _ present, inside⟩

/-- What is on its way comes from a call. -/
theorem mem_carried {s : State} (placed : s.Placed) {r : RegionRequest} (member : r ∈ s.carried) :
    ∃ (id : Nat) (c : Call), s.calls[id]? = some c ∧ r = c.call.request id ∧
      c.call.isChunk = true := by
  simp only [State.carried, inTransit, chunkRequests, Multiset.mem_add, Multiset.mem_coe,
    List.mem_filter, Option.mem_toList] at member
  rcases member with (⟨queued, single⟩ | ⟨inHand, single⟩) | atWorker
  · exact (placed.queued r queued).call single
  · cases phase : s.router with
    | scheduling loc rest r' =>
        rw [phase] at inHand
        cases inHand
        exact (placed.inHand loc rest r phase).1.call single
    | _ =>
        rw [phase] at inHand
        cases inHand
  · obtain ⟨worker, present, loaded⟩ := mem_sum_map atWorker
    simp only [Worker.load, chunkRequests, Multiset.mem_add, Multiset.mem_coe, List.mem_filter,
      Option.mem_toList] at loaded
    obtain ⟨i, found⟩ := List.mem_iff_getElem?.mp present
    rcases loaded with ⟨buffered, single⟩ | ⟨inHand, single⟩
    · exact (placed.carried i worker found r (.inl buffered)).1.call single
    · exact (placed.carried i worker found r (.inr inHand)).1.call single

/-- How often the request of a call, a value for it or its end (or its beginning) is
there. -/
def tokens (s : State) (id : Nat) (c : Call) : Nat :=
  s.carried.count (c.call.request id) + c.replies.length + if c.phase = .waiting then 0 else 1

/-- Every call about one chunk has at most one of these. -/
def AtMostOnce (s : State) : Prop :=
  ∀ (id : Nat) (c : Call), s.calls[id]? = some c → c.call.isChunk = true → tokens s id c ≤ 1

/-- A library call sends at most one value for a request about one chunk. -/
theorem replies_length_regionWorker {cfg : Config} {loc : RegionLocator} {files : Files}
    {phase : WorkerPhase} {answer : LibraryAnswer} {move : WorkerMove} {r : RegionRequest}
    (moves : regionWorker cfg loc files phase answer = some move)
    (inHand : phase.inHand = some r) (single : r.isChunk = true) : move.replies.length ≤ 1 := by
  unfold regionWorker at moves
  split at moves
  · cases moves
    unfold openRegion
    split
    · exact Nat.zero_le 1
    · split
      · exact Nat.zero_le 1
      · exact Nat.le_refl 1
    · exact Nat.le_refl 1
  · cases moves
    unfold createRegion
    split
    · exact Nat.zero_le 1
    · exact Nat.le_refl 1
  · cases inHand
    unfold processRequest at moves
    split at moves
    case h_4 =>
      split at moves
      · cases moves
        exact Nat.le_refl 1
      · cases moves
        exact Nat.zero_le 1
    case h_7 op =>
      simp [RegionRequest.isChunk, op] at single
    all_goals
      cases moves <;> simp
  · cases moves

theorem replies_length_answer {cfg : Config} {s : State} {action : Action} {r : RegionRequest}
    {replies : List Reply} {files : Files} (answer : Answer cfg s action r replies files)
    (single : r.isChunk = true) : replies.length ≤ 1 := by
  cases answer with
  | byRouter _ _ _ => exact Nat.le_refl 1
  | byCall _ inHand _ moves _ => exact replies_length_regionWorker moves inHand single
  | byDrain => exact Nat.le_refl 1

/-- A request that enters or leaves does not count for the other calls. -/
theorem count_cons_other {carried : Multiset RegionRequest} {id other : Nat}
    {call call' : ClientCall} (different : id ≠ other) :
    (call.request id ::ₘ carried).count (call'.request other) =
      carried.count (call'.request other) :=
  Multiset.count_cons_of_ne (request_ne different.symm) carried

/-- The step lemma: nothing is answered twice. -/
theorem AtMostOnce.preserved {cfg : Config} {s next : State} {action : Action} (placed : s.Placed)
    (once : AtMostOnce s) (flow : Flow cfg s action next) : AtMostOnce next := by
  intro id c stored single
  cases flow with
  | invokes call calls _ carried _ =>
      rw [calls] at stored
      rw [tokens, carried]
      rcases getElem?_concat_some stored with old | ⟨index, rfl⟩
      · exact once id c old single
      · have fresh : s.carried.count (call.request id) = 0 := by
          rw [Multiset.count_eq_zero]
          intro member
          obtain ⟨other, c', found, same, _⟩ := mem_carried placed member
          have results := congrArg RegionRequest.result same
          simp only [ClientCall.request_result, Option.some.injEq] at results
          rw [← results, index] at found
          simp at found
        simp [fresh]
  | sends found sending _ calls _ carried _ =>
      rw [calls] at stored
      rw [tokens, carried]
      obtain ⟨before, old, rfl⟩ := getElem?_modify_some stored
      split at single
      · rename_i same
        subst same
        cases found.symm.trans old
        have few := once _ _ old single
        rw [tokens, sending] at few
        rw [if_pos rfl, Multiset.count_cons_self]
        simp only [reduceCtorEq, if_false] at few
        simp only [if_true]
        omega
      · rename_i different
        rw [if_neg different, count_cons_other different]
        exact once id before old single
  | returns found waiting _ buffered _ calls _ carried _ =>
      rw [calls] at stored
      rw [tokens, carried]
      obtain ⟨before, old, rfl⟩ := getElem?_modify_some stored
      split at single
      · rename_i same
        subst same
        cases found.symm.trans old
        have few := once _ _ old single
        rw [tokens, waiting, buffered, List.length_cons] at few
        rw [if_pos rfl]
        simp only [reduceCtorEq, if_true, if_false] at few ⊢
        omega
      · rename_i different
        rw [if_neg different]
        exact once id before old single
  | ignores found _ _ buffered _ calls _ carried _ =>
      rw [calls] at stored
      rw [tokens, carried]
      obtain ⟨before, old, rfl⟩ := getElem?_modify_some stored
      split at single
      · rename_i same
        subst same
        cases found.symm.trans old
        have few := once _ _ old single
        rw [tokens, buffered, List.length_cons] at few
        rw [if_pos rfl]
        dsimp only
        omega
      · rename_i different
        rw [if_neg different]
        exact once id before old single
  | answers found ofCall calls _ carried answer =>
      rw [calls] at stored
      obtain ⟨before, old, rfl⟩ := getElem?_modify_some stored
      split at single
      · rename_i same
        subst same
        cases found.symm.trans old
        have few := once _ _ old single
        have short := replies_length_answer answer (by simpa using ofCall)
        rw [tokens, carried, Multiset.count_cons_self] at few
        rw [if_pos rfl, tokens]
        simp only [List.length_append]
        omega
      · rename_i different
        have few := once id before old single
        rw [tokens, carried, count_cons_other different] at few
        rw [if_neg different]
        exact few
  | creates _ _ calls _ carried _ =>
      rw [calls] at stored
      rw [tokens, carried]
      exact once id c stored single
  | moves calls _ carried _ =>
      rw [tokens, carried]
      exact once id c ((calls id c single).mp stored) single
  | panics _ calls _ carried _ =>
      rw [calls] at stored
      have fewer := Multiset.count_le_of_le (c.call.request id) carried
      have few := once id c stored single
      rw [tokens] at few ⊢
      omega

/-- A call that has an unread value or has returned has no request on its way. -/
theorem AtMostOnce.not_carried {s : State} (once : AtMostOnce s) {id : Nat} {c : Call}
    (found : s.calls[id]? = some c) (single : c.call.isChunk = true)
    (answered : c.replies ≠ [] ∨ c.phase ≠ .waiting) : c.call.request id ∉ s.carried := by
  rw [← Multiset.count_eq_zero]
  have few := once id c found single
  rw [tokens] at few
  rcases answered with unread | ended
  · have := List.length_pos_iff.mpr unread
    omega
  · rw [if_neg ended] at few
    omega

end WebChunk.RegionStore
