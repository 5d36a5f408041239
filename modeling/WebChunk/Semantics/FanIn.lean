import Mathlib.Algebra.BigOperators.Group.Finset.Basic
import Mathlib.Algebra.Order.BigOperators.Group.Finset
import Mathlib.Data.Fintype.Basic
import WebChunk.Semantics.History

/-!
# Fanning in

Several producers, each a machine of its own, send items on one buffered channel to one consumer,
whose state others may use as well. A run of the whole holds a run of every producer and one of the
consumer, and the consumer takes what the producers have sent: of each producer in its order, and
nothing twice.
-/

namespace WebChunk.Semantics

/-- The producers with what their states say that they have sent, and the consumer. A step of which
a producer `waits` comes after all its sends; a producer that is `dead` stops the whole. Of the
calls of the consumer `takes` is the one for an item, and those `apart` take none. -/
structure FanIn (ι Producer Step Consumer Call Item : Type*) where
  producer : ι → Machine Producer Step
  sent : Producer → List Item
  waits : Step → Bool
  dead : Producer → Bool
  capacity : Nat
  consumer : Machine Consumer Call
  takes : Item → Call
  apart : Call → Bool

namespace FanIn

variable {ι Producer Step Consumer Call Item : Type*}

/-- The parties, the number of items that each producer has brought into the channel, and the
channel, oldest first. -/
structure State (ι Producer Consumer Item : Type*) where
  producers : ι → Producer
  handed : ι → Nat
  buffer : List Item
  consumer : Consumer
  stopped : Bool

inductive Action (ι Step Call : Type*) where
  | produce (i : ι) (a : Step)
  /-- The oldest item of a producer that is not in the channel gets into it. -/
  | hand (i : ι)
  /-- The consumer takes an item. -/
  | take
  | other (call : Call)
  /-- The consumer takes no further item. -/
  | stop

variable (f : FanIn ι Producer Step Consumer Call Item)

/-- Nothing was handed over. -/
def initial (producers : ι → Producer) (consumer : Consumer) :
    State ι Producer Consumer Item :=
  ⟨producers, fun _ => 0, [], consumer, false⟩

/-- What a producer has sent and is not in the channel. -/
def unhanded (s : State ι Producer Consumer Item) (i : ι) : List Item :=
  (f.sent (s.producers i)).drop (s.handed i)

section Machine

variable [DecidableEq ι] [Fintype ι]

def step (s : State ι Producer Consumer Item) (action : Action ι Step Call) :
    Option (State ι Producer Consumer Item) :=
  if ∃ i, f.dead (s.producers i) = true then none
  else
    match action with
    | .produce i a =>
        if f.waits a && !(f.unhanded s i).isEmpty then none
        else ((f.producer i).step (s.producers i) a).map fun next =>
          { s with producers := Function.update s.producers i next }
    | .hand i =>
        match f.unhanded s i with
        | [] => none
        | item :: _ =>
            if s.buffer.length < f.capacity then
              some { s with
                handed := Function.update s.handed i (s.handed i + 1)
                buffer := s.buffer ++ [item] }
            else none
    | .take =>
        match s.stopped, s.buffer with
        | false, item :: rest => (f.consumer.step s.consumer (f.takes item)).map fun next =>
            { s with buffer := rest, consumer := next }
        | _, _ => none
    | .other call =>
        if f.apart call then
          (f.consumer.step s.consumer call).map fun next => { s with consumer := next }
        else none
    | .stop => some { s with stopped := true }

def machine : Machine (State ι Producer Consumer Item) (Action ι Step Call) := ⟨f.step⟩

/-! ### What a step does -/

inductive Transition (s : State ι Producer Consumer Item) :
    Action ι Step Call → State ι Producer Consumer Item → Prop where
  | produces (i : ι) (a : Step) (next : Producer)
      (taken : (f.producer i).step (s.producers i) a = some next) :
      Transition s (.produce i a) { s with producers := Function.update s.producers i next }
  | hands (i : ι) (item : Item) (rest : List Item) (first : f.unhanded s i = item :: rest)
      (room : s.buffer.length < f.capacity) :
      Transition s (.hand i) { s with
        handed := Function.update s.handed i (s.handed i + 1)
        buffer := s.buffer ++ [item] }
  | takes (item : Item) (rest : List Item) (next : Consumer) (oldest : s.buffer = item :: rest)
      (taken : f.consumer.step s.consumer (f.takes item) = some next) :
      Transition s .take { s with buffer := rest, consumer := next }
  | others (call : Call) (next : Consumer) (apart : f.apart call = true)
      (taken : f.consumer.step s.consumer call = some next) :
      Transition s (.other call) { s with consumer := next }
  | stops : Transition s .stop { s with stopped := true }

variable {f} {s next : State ι Producer Consumer Item} {action : Action ι Step Call}

theorem transition_of_step (transition : f.step s action = some next) :
    (∀ i, f.dead (s.producers i) = false) ∧ f.Transition s action next := by
  unfold step at transition
  split at transition
  · cases transition
  rename_i alive
  refine ⟨fun i => Bool.eq_false_iff.mpr fun dead => alive ⟨i, dead⟩, ?_⟩
  cases action with
  | produce i a =>
      dsimp only at transition
      split at transition
      · cases transition
      · obtain ⟨next, taken, rfl⟩ := Option.map_eq_some_iff.mp transition
        exact .produces i a next taken
  | hand i =>
      dsimp only at transition
      split at transition
      · cases transition
      · rename_i item rest first
        split at transition <;> cases transition
        exact .hands i item rest first ‹_›
  | take =>
      dsimp only at transition
      split at transition
      · obtain ⟨next, taken, rfl⟩ := Option.map_eq_some_iff.mp transition
        exact .takes _ _ next ‹_› taken
      · cases transition
  | other call =>
      dsimp only at transition
      split at transition
      · obtain ⟨next, taken, rfl⟩ := Option.map_eq_some_iff.mp transition
        exact .others call next ‹_› taken
      · cases transition
  | stop =>
      cases transition
      exact .stops

end Machine

/-! ### What is seen of a run -/

section Observers

variable [DecidableEq ι]

/-- The steps of one producer. -/
def produced (i : ι) (_ : State ι Producer Consumer Item) (action : Action ι Step Call)
    (_ : State ι Producer Consumer Item) : List Step :=
  match action with
  | .produce j a => if j = i then [a] else []
  | _ => []

/-- What gets into the channel, with its producer. -/
def handings (s : State ι Producer Consumer Item) (action : Action ι Step Call)
    (_ : State ι Producer Consumer Item) : List (ι × Item) :=
  match action with
  | .hand i => ((f.unhanded s i).head?.map fun item => (i, item)).toList
  | _ => []

/-- What gets into the channel from one producer. -/
def handingsOf (i : ι) (handings : List (ι × Item)) : List Item :=
  (handings.filter fun h => h.1 = i).map Prod.snd

/-- What the consumer takes. -/
def taken (s : State ι Producer Consumer Item) (action : Action ι Step Call)
    (_ : State ι Producer Consumer Item) : List Item :=
  match action with
  | .take => s.buffer.head?.toList
  | _ => []

/-- The calls of the consumer. -/
def calls (s : State ι Producer Consumer Item) (action : Action ι Step Call)
    (_ : State ι Producer Consumer Item) : List Call :=
  match action with
  | .take => (s.buffer.head?.map f.takes).toList
  | .other call => [call]
  | _ => []

/-- An observer of one producer. -/
def ofProducer {Event : Type*} (i : ι) (shows : Producer → Step → Producer → List Event)
    (s : State ι Producer Consumer Item) (action : Action ι Step Call)
    (next : State ι Producer Consumer Item) : List Event :=
  (produced i s action next).flatMap fun a => shows (s.producers i) a (next.producers i)

/-- An observer of the consumer. -/
def ofConsumer {Event : Type*} (shows : Consumer → Call → Consumer → List Event)
    (s : State ι Producer Consumer Item) (action : Action ι Step Call)
    (next : State ι Producer Consumer Item) : List Event :=
  (f.calls s action next).flatMap fun call => shows s.consumer call next.consumer

end Observers

/-! ### The parties of a run -/

section Runs

variable [DecidableEq ι] [Fintype ι] {f} {s next start final : State ι Producer Consumer Item}
  {action : Action ι Step Call} {actions : List (Action ι Step Call)}

/-- What a step is for a producer: nothing, or a step of its own. -/
theorem produced_cases (i : ι) (transition : f.step s action = some next) :
    (produced i s action next = [] ∧ next.producers i = s.producers i) ∨
      ∃ a, produced i s action next = [a] ∧
        (f.producer i).step (s.producers i) a = some (next.producers i) := by
  cases (transition_of_step transition).2 with
  | produces j a reached stepped =>
      by_cases same : j = i
      · subst same
        refine .inr ⟨a, if_pos rfl, ?_⟩
        dsimp only
        rw [Function.update_self]
        exact stepped
      · exact .inl ⟨if_neg same, Function.update_of_ne (Ne.symm same) _ _⟩
  | hands | takes | others | stops => exact .inl ⟨rfl, rfl⟩

/-- Every producer runs by itself. -/
theorem producer_runs (run : f.machine.Runs start actions final) (i : ι) :
    (f.producer i).Runs (start.producers i) (f.machine.history (produced i) start actions)
      (final.producers i) := by
  refine run.history (fun past s => (f.producer i).Runs (start.producers i) past (s.producers i))
    (fun {past s action next} before transition => ?_) .nil
  rcases produced_cases i transition with ⟨none_, same⟩ | ⟨a, one, stepped⟩
  · rw [none_, same, List.append_nil]
    exact before
  · rw [one]
    exact .snoc before stepped

/-- What is seen of a producer in the whole is what is seen of it in its own run. -/
theorem history_ofProducer {Event : Type*} (i : ι)
    (shows : Producer → Step → Producer → List Event)
    (run : f.machine.Runs start actions final) :
    f.machine.history (ofProducer i shows) start actions =
      (f.producer i).history shows (start.producers i)
        (f.machine.history (produced i) start actions) := by
  induction run with
  | nil => rfl
  | @snoc actions s next action prior transition inductionHypothesis =>
      rw [Machine.history_snoc prior transition, Machine.history_snoc prior transition,
        inductionHypothesis]
      rcases produced_cases i transition with ⟨none_, same⟩ | ⟨a, one, stepped⟩
      · rw [ofProducer, none_, List.flatMap_nil, List.append_nil, List.append_nil]
      · rw [ofProducer, one, List.flatMap_singleton,
          Machine.history_snoc (producer_runs prior i) stepped]

/-- What a step is for the consumer: no call, or one. -/
theorem calls_cases (transition : f.step s action = some next) :
    (f.calls s action next = [] ∧ next.consumer = s.consumer) ∨
      ∃ call, f.calls s action next = [call] ∧
        f.consumer.step s.consumer call = some next.consumer := by
  cases (transition_of_step transition).2 with
  | produces | hands | stops => exact .inl ⟨rfl, rfl⟩
  | takes item rest reached oldest stepped =>
      refine .inr ⟨f.takes item, ?_, stepped⟩
      rw [calls, oldest]
      rfl
  | others call reached apart stepped => exact .inr ⟨call, rfl, stepped⟩

/-- The consumer runs by itself. -/
theorem consumer_runs (run : f.machine.Runs start actions final) :
    f.consumer.Runs start.consumer (f.machine.history f.calls start actions) final.consumer := by
  refine run.history (fun past s => f.consumer.Runs start.consumer past s.consumer)
    (fun {past s action next} before transition => ?_) .nil
  rcases calls_cases transition with ⟨none_, same⟩ | ⟨call, one, stepped⟩
  · rw [none_, same, List.append_nil]
    exact before
  · rw [one]
    exact .snoc before stepped

/-- What is seen of the consumer in the whole is what is seen of it in its own run. -/
theorem history_ofConsumer {Event : Type*} (shows : Consumer → Call → Consumer → List Event)
    (run : f.machine.Runs start actions final) :
    f.machine.history (f.ofConsumer shows) start actions =
      f.consumer.history shows start.consumer (f.machine.history f.calls start actions) := by
  induction run with
  | nil => rfl
  | @snoc actions s next action prior transition inductionHypothesis =>
      rw [Machine.history_snoc prior transition, Machine.history_snoc prior transition,
        inductionHypothesis]
      rcases calls_cases transition with ⟨none_, same⟩ | ⟨call, one, stepped⟩
      · rw [ofConsumer, none_, List.flatMap_nil, List.append_nil, List.append_nil]
      · rw [ofConsumer, one, List.flatMap_singleton,
          Machine.history_snoc (consumer_runs prior) stepped]

/-! ### The channel -/

/-- The producers' items in the channel and those that were taken out of it. -/
structure Flow (f : FanIn ι Producer Step Consumer Call Item) (handings : List (ι × Item))
    (taken : List Item) (s : State ι Producer Consumer Item) : Prop where
  handed : ∀ i, s.handed i ≤ (f.sent (s.producers i)).length
  ofProducer : ∀ i, handingsOf i handings = (f.sent (s.producers i)).take (s.handed i)
  inOrder : handings.map Prod.snd = taken ++ s.buffer
  bounded : s.buffer.length ≤ f.capacity

namespace Flow

variable {past : List (ι × Item)} {before : List Item}

omit [Fintype ι] in
theorem initial (producers : ι → Producer) (consumer : Consumer) :
    f.Flow [] [] (initial producers consumer) where
  handed := fun _ => Nat.zero_le _
  ofProducer := fun _ => rfl
  inOrder := rfl
  bounded := Nat.zero_le _

omit [Fintype ι] in
/-- What a producer has sent is what it has brought into the channel and what is left. -/
theorem sent_eq (flow : f.Flow past before s) (i : ι) :
    f.sent (s.producers i) = handingsOf i past ++ f.unhanded s i := by
  rw [flow.ofProducer i, unhanded, List.take_append_drop]

theorem preserved (grows : ∀ i {s a next}, (f.producer i).step s a = some next →
      f.sent s <+: f.sent next)
    (flow : f.Flow past before s) (transition : f.step s action = some next) :
    f.Flow (past ++ f.handings s action next) (before ++ taken s action next) next := by
  cases (transition_of_step transition).2 with
  | produces j a reached stepped =>
      simp only [handings, taken, List.append_nil]
      have more : ∀ i, f.sent (s.producers i) <+:
          f.sent (Function.update s.producers j reached i) := by
        intro i
        by_cases same : i = j
        · subst same
          rw [Function.update_self]
          exact grows _ stepped
        · rw [Function.update_of_ne same]
      refine ⟨fun i => (flow.handed i).trans (more i).length_le, fun i => ?_, flow.inOrder,
        flow.bounded⟩
      obtain ⟨added, longer⟩ := more i
      rw [flow.ofProducer i, ← longer, List.take_append_of_le_length (flow.handed i)]
  | hands j item rest first room =>
      have shown : ∀ next, f.handings s (.hand j) next = [(j, item)] := by
        intro next
        rw [handings, first]
        rfl
      have inside : s.handed j < (f.sent (s.producers j)).length := by
        have some_ := congrArg List.length first
        rw [unhanded, List.length_drop, List.length_cons] at some_
        omega
      have next_ : (f.sent (s.producers j))[s.handed j]? = some item := by
        have head := congrArg List.head? first
        rwa [unhanded, List.head?_drop] at head
      rw [shown]
      simp only [taken, List.append_nil]
      refine ⟨fun i => ?_, fun i => ?_, ?_, ?_⟩
      · by_cases same : i = j
        · subst same
          dsimp only
          rw [Function.update_self]
          exact inside
        · dsimp only
          rw [Function.update_of_ne same]
          exact flow.handed i
      · rw [handingsOf, List.filter_append, List.map_append]
        by_cases same : i = j
        · subst same
          dsimp only
          rw [Function.update_self, List.take_add_one, next_, ← flow.ofProducer i, handingsOf]
          simp
        · dsimp only
          rw [Function.update_of_ne same, ← flow.ofProducer i, handingsOf]
          simp [Ne.symm same]
      · rw [List.map_append, flow.inOrder, List.append_assoc]
        rfl
      · rw [List.length_append, List.length_singleton]
        exact room
  | takes item rest reached oldest stepped =>
      simp only [handings, taken, oldest, List.append_nil]
      refine ⟨flow.handed, flow.ofProducer, ?_, ?_⟩
      · rw [flow.inOrder, oldest]
        simp
      · have bounded := flow.bounded
        rw [oldest, List.length_cons] at bounded
        exact Nat.le_of_succ_le bounded
  | others | stops =>
      simp only [handings, taken, List.append_nil]
      exact ⟨flow.handed, flow.ofProducer, flow.inOrder, flow.bounded⟩

end Flow

/-- In every run the items flow. -/
theorem flow_of_runs {producers : ι → Producer} {consumer : Consumer}
    (grows : ∀ i {s a next}, (f.producer i).step s a = some next → f.sent s <+: f.sent next)
    (run : f.machine.Runs (initial producers consumer) actions final) :
    f.Flow (f.machine.history f.handings (initial producers consumer) actions)
      (f.machine.history taken (initial producers consumer) actions) final :=
  run.histories f.Flow (fun flow transition => flow.preserved grows transition)
    (.initial producers consumer)

/-! ### What is on its way -/

/-- The items alone move. -/
def Action.moves : Action ι Step Call → Bool
  | .hand _ | .take => true
  | _ => false

variable (f) in
/-- The moves that are left: two for an item that is not in the channel, one for another. -/
def onWay (s : State ι Producer Consumer Item) : Nat :=
  (∑ i, 2 * (f.unhanded s i).length) + s.buffer.length

omit [DecidableEq ι] in
theorem onWay_eq_zero : f.onWay s = 0 ↔ (∀ i, f.unhanded s i = []) ∧ s.buffer = [] := by
  rw [onWay, Nat.add_eq_zero_iff, Finset.sum_eq_zero_iff, List.length_eq_zero_iff]
  refine and_congr_left fun _ => forall_congr' fun i => ⟨fun none_ => ?_, fun none_ _ => ?_⟩
  · have length := none_ (Finset.mem_univ i)
    exact List.length_eq_zero_iff.mp (by omega)
  · rw [none_]
    rfl

/-- A move leaves the producers alone, and one move less to make. -/
theorem onWay_of_moves (transition : f.step s action = some next) (moves : action.moves = true) :
    f.onWay next + 1 = f.onWay s ∧ next.producers = s.producers ∧ next.stopped = s.stopped := by
  cases (transition_of_step transition).2 with
  | produces | others | stops => cases moves
  | hands j item rest first room =>
      refine ⟨?_, rfl, rfl⟩
      have others : ∀ i ∈ Finset.univ.erase j, 2 * (f.unhanded { s with
          handed := Function.update s.handed j (s.handed j + 1)
          buffer := s.buffer ++ [item] } i).length = 2 * (f.unhanded s i).length := by
        intro i member
        simp only [unhanded, Function.update_of_ne (Finset.ne_of_mem_erase member)]
      have one : f.unhanded { s with
          handed := Function.update s.handed j (s.handed j + 1)
          buffer := s.buffer ++ [item] } j = rest := by
        have tail := congrArg List.tail first
        rw [unhanded, List.tail_drop] at tail
        simp only [unhanded, Function.update_self, tail, List.tail_cons]
      rw [onWay, onWay, ← Finset.add_sum_erase _ _ (Finset.mem_univ j),
        ← Finset.add_sum_erase (a := j) _ (fun i => 2 * (f.unhanded s i).length)
          (Finset.mem_univ j), Finset.sum_congr rfl others, one, first, List.length_append,
        List.length_singleton, List.length_cons]
      omega
  | takes item rest reached oldest stepped =>
      refine ⟨?_, rfl, rfl⟩
      simp only [onWay, unhanded, oldest, List.length_cons]
      omega

/-- As many moves as are left can be made. -/
theorem length_of_moves (run : f.machine.Runs s actions final)
    (moves : ∀ action ∈ actions, action.moves = true) :
    actions.length + f.onWay final = f.onWay s ∧ final.producers = s.producers ∧
      final.stopped = s.stopped := by
  induction run with
  | nil => simp
  | @snoc actions middle next action prior transition inductionHypothesis =>
      obtain ⟨paid, producers, stopped⟩ := inductionHypothesis fun action member =>
        moves action (List.mem_append_left _ member)
      obtain ⟨less, same, same'⟩ := onWay_of_moves transition (moves action (by simp))
      refine ⟨?_, same.trans producers, same'.trans stopped⟩
      rw [List.length_append, List.length_singleton]
      omega

/-- As long as the consumer takes what comes, a move can be made. -/
theorem exists_move (alive : ∀ i, f.dead (s.producers i) = false) (running : s.stopped = false)
    (room : 0 < f.capacity)
    (accepts : ∀ item, (f.consumer.step s.consumer (f.takes item)).isSome = true)
    (waiting : f.onWay s ≠ 0) :
    ∃ (action : Action ι Step Call) (next : State ι Producer Consumer Item),
      action.moves = true ∧ f.step s action = some next := by
  have living : ¬ ∃ i, f.dead (s.producers i) = true := by
    rintro ⟨i, dead⟩
    cases (alive i).symm.trans dead
  cases buffer : s.buffer with
  | cons item rest =>
      obtain ⟨reached, stepped⟩ := Option.isSome_iff_exists.mp (accepts item)
      refine ⟨.take, { s with buffer := rest, consumer := reached }, rfl, ?_⟩
      rw [step, if_neg living]
      simp only [running, buffer, stepped, Option.map_some]
  | nil =>
      obtain ⟨i, left⟩ : ∃ i, f.unhanded s i ≠ [] := by
        by_contra none_
        push Not at none_
        exact waiting (onWay_eq_zero.mpr ⟨none_, buffer⟩)
      obtain ⟨item, rest, first⟩ := List.exists_cons_of_ne_nil left
      refine ⟨.hand i, { s with
        handed := Function.update s.handed i (s.handed i + 1)
        buffer := s.buffer ++ [item] }, rfl, ?_⟩
      rw [step, if_neg living]
      simp only [first, buffer, List.length_nil, room, if_true]

end Runs

end FanIn

end WebChunk.Semantics
