import Mathlib.Tactic.Abel
import WebChunk.Regen.Outstanding
import WebChunk.Semantics.Conservation

/-!
# What the heightmap tool writes back

Chunks of one file are handed to three workers and come back in any order, some of them not at
all. The main loop leaves a file only when its counter is zero, so no chunk outlives the file it
was read from.
-/

namespace WebChunk.Regen

open WebChunk.Go WebChunk.Semantics

/-- The chunk before a worker gave it a result. -/
def ChunkWithPos.asRead (t : ChunkWithPos) : ChunkWithPos := { t with ret := [] }

/-- The file that is open in the main loop. -/
def MainLoop.openFile : MainLoop → Option RegionFile
  | .reading r _ | .handing r _ _ | .waiting r | .writing r _ | .closing r => some r
  | _ => none

/-- The chunk in the hand of the main loop. -/
def MainLoop.held : MainLoop → List ChunkWithPos
  | .handing _ t _ | .writing _ t => [t.asRead]
  | _ => []

/-- The chunk in the hand of a worker. -/
def Worker.held : Worker → List ChunkWithPos
  | .idle | .ended => []
  | .loading t | .loaded t | .marshaling t | .marshaled t | .sending t => [t.asRead]

/-- A chunk with the file that was open. -/
abbrev FileChunk := RegionFile × ChunkWithPos

namespace RegenState

def inFlight (s : RegenState) : List ChunkWithPos :=
  s.main.held ++ s.taskch.buffer.map ChunkWithPos.asRead ++ s.workers.flatMap Worker.held ++
    s.retch.buffer.map ChunkWithPos.asRead

/-- Chunks with the file that is open now. -/
def ofFile (s : RegenState) (chunks : List ChunkWithPos) : List FileChunk :=
  match s.main.openFile with
  | none => []
  | some r => chunks.map (Prod.mk r)

def inside (s : RegenState) : Multiset FileChunk := s.ofFile s.inFlight

end RegenState

/-- The chunks that `ReadSector` gave, with the file. -/
def chunksRead (s : RegenState) (action : RegenAction) (_ : RegenState) :
    List FileChunk :=
  match action, s.main with
  | .read (some cd), .reading r ((x, z) :: _) => [(r, ⟨x, z, r.rx, r.rz, cd, []⟩)]
  | _, _ => []

/-- The calls of `WriteSector`, with the file that they are made on. -/
def chunksWritten (s : RegenState) (action : RegenAction) (next : RegenState) :
    List FileChunk :=
  match action, s.main, next.main with
  | .write _, .writing r t, .waiting _ => [(r, t)]
  | _, _, _ => []

/-- The chunks that a worker drops, or that are left when the process ends. -/
def chunksLost (s : RegenState) (action : RegenAction) (next : RegenState) :
    List FileChunk :=
  match action with
  | .testLoad i | .testMarshal i =>
      if s.err then s.ofFile ((s.workers[i]?.map Worker.held).getD []) else []
  | .write _ => if next.exits then s.ofFile s.inFlight else []
  | _ => []

/-- What the workers made of the chunks. -/
def chunksMarshaled (s : RegenState) (action : RegenAction) (_ : RegenState) :
    List ChunkWithPos :=
  match action with
  | .marshal i _ ret =>
      match s.workers[i]? with
      | some (.marshaling t) => [{ t with ret := ret }]
      | _ => []
  | _ => []

/-- The chunks on their way are counted, in every run. -/
structure Contained (s : RegenState) : Prop where
  counted : s.outstanding ≤ s.chunks
  between : s.main.between → s.chunks = 0

variable {s next : RegenState} {action : RegenAction}

namespace Contained

/-- A worker goes on, with its chunk or without it. -/
theorem worker {i : Nat} {w w' : Worker} {tasks results : List ChunkWithPos} {err : Bool}
    (contained : Contained s) (found : s.workers[i]? = some w)
    (fewer : tasks.length + (if w'.busy then 1 else 0) + results.length ≤
      s.taskch.buffer.length + (if w.busy then 1 else 0) + s.retch.buffer.length) :
    Contained { s with
      taskch := { s.taskch with buffer := tasks }, retch := { s.retch with buffer := results }
      workers := s.workers.set i w', err := err } := by
  refine ⟨?_, contained.between⟩
  have busy := countP_set_of_some (p := Worker.busy) (b := w') found
  have total := contained.counted
  simp only [RegenState.outstanding] at total ⊢
  omega

/-- The step lemma of the counter, dropped chunks included. -/
theorem step (contained : Contained s) (transition : RegenTransition s action next) :
    Contained next := by
  have total := contained.counted
  have between := contained.between
  unfold RegenState.outstanding at total
  cases transition with
  | noEntry main _ | notOpened main _ =>
      rw [main] at total between
      exact ⟨total, fun _ => between rfl⟩
  | passedOver _ _ => exact ⟨total, between⟩
  | opened main _ =>
      rw [main] at total between
      rw [between rfl] at total
      exact ⟨total, fun before => by cases before⟩
  | readAll main | unreadable main | written main =>
      rw [main] at total
      exact ⟨total, fun before => by cases before⟩
  | empty main =>
      rw [main] at total
      exact ⟨total, fun before => by cases before⟩
  | countedIn main =>
      rw [main] at total
      refine ⟨?_, fun before => by cases before⟩
      simp only [RegenState.outstanding, MainLoop.inHand] at total ⊢
      omega
  | handed main =>
      rw [main] at total
      refine ⟨?_, fun before => by cases before⟩
      simp only [RegenState.outstanding, MainLoop.inHand, List.length_append,
        List.length_singleton] at total ⊢
      omega
  | taken main more found =>
      rw [main, found] at total
      refine ⟨?_, fun before => by cases before⟩
      simp only [RegenState.outstanding, MainLoop.inHand, List.length_cons] at total ⊢
      omega
  | allTaken main none_ =>
      rw [main] at total
      exact ⟨total, fun _ => none_⟩
  | fileClosed main | waited main _ =>
      rw [main] at total between
      exact ⟨total, fun _ => between rfl⟩
  | received found task =>
      refine contained.worker found ?_
      change _ + 1 + s.retch.buffer.length ≤ s.taskch.buffer.length + 0 + s.retch.buffer.length
      rw [task, List.length_cons]
  | ended found _ _ => exact contained.worker found le_rfl
  | loaded found | marshaled found => exact contained.worker found le_rfl
  | testedLoad found | testedMarshal found =>
      refine contained.worker found ?_
      split <;> simp [Worker.busy]
  | sent found =>
      refine contained.worker found ?_
      change s.taskch.buffer.length + 0 + (s.retch.buffer ++ [_]).length ≤
        s.taskch.buffer.length + 1 + s.retch.buffer.length
      rw [List.length_append, List.length_singleton]
      omega

/-- Between two files nothing is on its way. -/
theorem inFlight_between (contained : Contained s) (between : s.main.between) :
    s.inFlight = [] := by
  have total := contained.counted
  rw [contained.between between, Nat.le_zero, RegenState.outstanding] at total
  have held : s.main.held = [] := by
    cases main : s.main with
    | handing _ _ _ | writing _ _ =>
        rw [main] at between
        cases between
    | _ => rfl
  have tasks : s.taskch.buffer = [] := List.eq_nil_of_length_eq_zero (by omega)
  have results : s.retch.buffer = [] := List.eq_nil_of_length_eq_zero (by omega)
  have idle : s.workers.countP Worker.busy = 0 := by omega
  have hands : s.workers.flatMap Worker.held = [] := by
    rw [List.flatMap_eq_nil_iff]
    intro w member
    have notBusy := List.countP_eq_zero.mp idle w member
    cases w with
    | idle | ended => rfl
    | _ => exact absurd rfl notBusy
  rw [RegenState.inFlight, held, tasks, results, hands]
  rfl

end Contained

/-! ### The balance -/

namespace RegenState

theorem ofFile_append (s : RegenState) (l l' : List ChunkWithPos) :
    s.ofFile (l ++ l') = s.ofFile l ++ s.ofFile l' := by
  unfold ofFile
  split
  · rfl
  · exact List.map_append

/-- The order of the chunks does not matter. -/
theorem ofFile_perm (s : RegenState) {l l' : List ChunkWithPos}
    (same : (l : Multiset ChunkWithPos) = l') :
    (s.ofFile l : Multiset FileChunk) = s.ofFile l' := by
  unfold ofFile
  split
  · rfl
  · exact Multiset.coe_eq_coe.mpr ((Multiset.coe_eq_coe.mp same).map _)

/-- A worker goes on: what it and the channels held before, they hold after, or it is lost. -/
theorem inside_worker {i : Nat} {w w' : Worker} {tasks results : List ChunkWithPos} {err : Bool}
    (lost : List ChunkWithPos) (found : s.workers[i]? = some w)
    (balance : (s.taskch.buffer.map ChunkWithPos.asRead + w.held +
        s.retch.buffer.map ChunkWithPos.asRead : Multiset ChunkWithPos) =
      lost + tasks.map ChunkWithPos.asRead + w'.held + results.map ChunkWithPos.asRead) :
    s.inside = s.ofFile lost + inside { s with
      taskch := { s.taskch with buffer := tasks }, retch := { s.retch with buffer := results }
      workers := s.workers.set i w', err := err } := by
  have replaced := flatMap_set_of_some (b := w') Worker.held found
  change (s.ofFile s.inFlight : Multiset FileChunk) =
    s.ofFile lost + (s.ofFile (inFlight _) : Multiset FileChunk)
  rw [Multiset.coe_add, ← ofFile_append]
  apply ofFile_perm
  simp only [inFlight, ← Multiset.coe_add]
  apply add_right_cancel (b := (w.held : Multiset ChunkWithPos))
  calc _ = (s.main.held : Multiset ChunkWithPos) + s.workers.flatMap Worker.held +
        (s.taskch.buffer.map ChunkWithPos.asRead + w.held +
          s.retch.buffer.map ChunkWithPos.asRead) := by abel
    _ = s.main.held + (s.workers.flatMap Worker.held + w'.held) +
        (lost + tasks.map ChunkWithPos.asRead + results.map ChunkWithPos.asRead) := by
      rw [balance]
      abel
    _ = _ := by
      rw [← replaced]
      abel

@[simp] theorem ofFile_nil (s : RegenState) : s.ofFile [] = [] := by
  unfold ofFile
  split <;> rfl

/-- A worker goes on and nothing is lost. -/
theorem inside_worker_keeps {i : Nat} {w w' : Worker} {tasks results : List ChunkWithPos}
    {err : Bool} (found : s.workers[i]? = some w)
    (balance : (s.taskch.buffer.map ChunkWithPos.asRead + w.held +
        s.retch.buffer.map ChunkWithPos.asRead : Multiset ChunkWithPos) =
      tasks.map ChunkWithPos.asRead + w'.held + results.map ChunkWithPos.asRead) :
    s.inside = inside { s with
      taskch := { s.taskch with buffer := tasks }, retch := { s.retch with buffer := results }
      workers := s.workers.set i w', err := err } := by
  have kept : s.inside = s.ofFile [] + inside { s with
      taskch := { s.taskch with buffer := tasks }, retch := { s.retch with buffer := results }
      workers := s.workers.set i w', err := err } :=
    inside_worker [] found (by rw [balance, Multiset.coe_nil, zero_add])
  rwa [ofFile_nil, Multiset.coe_nil, zero_add] at kept

/-- A worker tests the error variable, and drops its chunk or keeps it. -/
theorem inside_tested {i : Nat} {w w' : Worker} {t : ChunkWithPos} (found : s.workers[i]? = some w)
    (holds : w.held = [t.asRead]) (keeps : w'.held = [t.asRead]) :
    s.inside = (if s.err then s.ofFile [t.asRead] else [] : List FileChunk) +
      (s.setWorker i (if s.err then .idle else w')).inside := by
  cases s.err with
  | false =>
      refine Eq.trans ?_ (zero_add _).symm
      exact inside_worker_keeps found (by rw [holds, ← keeps]; rfl)
  | true =>
      refine inside_worker [t.asRead] found ?_
      rw [holds]
      simp only [Worker.held, ↓reduceIte, Multiset.coe_nil]
      abel

/-- The main loop goes on with its file. -/
theorem inside_mainLoop {m m' : MainLoop} {r : RegionFile} {chunks : Nat}
    {tasks results : List ChunkWithPos} (read gone : List ChunkWithPos) (main : s.main = m)
    (file : m.openFile = some r) (sameFile : m'.openFile = some r)
    (balance : (s.taskch.buffer.map ChunkWithPos.asRead + m.held +
        s.retch.buffer.map ChunkWithPos.asRead + read : Multiset ChunkWithPos) =
      gone + tasks.map ChunkWithPos.asRead + m'.held + results.map ChunkWithPos.asRead) :
    s.inside + read.map (Prod.mk r) = gone.map (Prod.mk r) + inside { s with
        main := m', chunks := chunks
        taskch := { s.taskch with buffer := tasks }
        retch := { s.retch with buffer := results } } := by
  subst main
  simp only [inside, ofFile, file, sameFile, Multiset.coe_add, ← List.map_append]
  apply Multiset.coe_eq_coe.mpr
  refine (Multiset.coe_eq_coe.mp ?_).map _
  simp only [inFlight, ← Multiset.coe_add]
  calc _ = (s.workers.flatMap Worker.held : Multiset ChunkWithPos) +
        (s.taskch.buffer.map ChunkWithPos.asRead + s.main.held +
          s.retch.buffer.map ChunkWithPos.asRead + read) := by abel
    _ = _ := by
      rw [balance]
      abel

theorem inside_of_closed (closed : s.main.openFile = none) : s.inside = 0 := by
  rw [inside, ofFile, closed]
  rfl

theorem inside_of_empty (empty : s.inFlight = []) : s.inside = 0 := by
  unfold inside ofFile
  rw [empty]
  split <;> rfl

end RegenState

/-- What leaves the workers and the main loop. -/
def chunksGone (s : RegenState) (action : RegenAction) (next : RegenState) : List FileChunk :=
  (chunksWritten s action next).map (Prod.map id ChunkWithPos.asRead) ++ chunksLost s action next

open RegenState in
/-- Every step keeps the balance. -/
theorem chunks_balanced (contained : Contained s) (transition : RegenTransition s action next) :
    s.inside + chunksRead s action next = chunksGone s action next + next.inside := by
  cases transition with
  | noEntry main _ | notOpened main _ | waited main _ =>
      rw [inside_of_closed (by rw [main]; rfl)]
      rfl
  | passedOver main _ =>
      rw [inside_of_closed (by rw [main]; rfl), inside_of_closed (by rw [main]; rfl)]
      rfl
  | @opened r rest main _ =>
      have empty := contained.inFlight_between (by rw [main]; rfl)
      rw [inside_of_closed (by rw [main]; rfl), inside_of_empty]
      · rfl
      · rw [inFlight, main] at empty
        exact empty
  | @readAll raw r main =>
      have quiet : chunksRead s (.read raw) { s with main := .waiting r } = [] := by
        cases raw <;> simp [chunksRead, main]
      rw [quiet]
      exact inside_mainLoop [] [] main rfl rfl (by simp only [MainLoop.held]; abel)
  | unreadable main =>
      exact inside_mainLoop [] [] main rfl rfl (by simp only [MainLoop.held]; abel)
  | @countedIn cd r x z rest main =>
      have shown (next : RegenState) :
          chunksRead s (.read (some cd)) next = [(r, ⟨x, z, r.rx, r.rz, cd, []⟩)] := by
        simp [chunksRead, main]
      rw [shown]
      exact inside_mainLoop [⟨x, z, r.rx, r.rz, cd, []⟩] [] main rfl rfl
        (by simp only [MainLoop.held, ChunkWithPos.asRead]; abel)
  | @handed r t rest main =>
      refine inside_mainLoop [] [] main rfl rfl ?_
      simp only [MainLoop.held, List.map_append, ← Multiset.coe_add, List.map_singleton]
      abel
  | @taken r t rest main more found =>
      refine inside_mainLoop [] [] main rfl rfl ?_
      simp only [MainLoop.held, found, List.map_cons, ← Multiset.cons_coe,
        ← Multiset.singleton_add, Multiset.coe_nil]
      abel
  | allTaken main none_ =>
      exact inside_mainLoop [] [] main rfl rfl (by simp only [MainLoop.held]; abel)
  | @empty ok r t main =>
      have gone : chunksGone s (.write ok) { s with main := .exited } = s.ofFile s.inFlight := by
        simp [chunksGone, chunksWritten, chunksLost, main, exits]
      rw [gone, inside_of_closed (s := { s with main := .exited }) rfl]
      rfl
  | @written ok r t main =>
      have gone : chunksGone s (.write ok) { s with main := .waiting r } = [(r, t.asRead)] := by
        simp [chunksGone, chunksWritten, chunksLost, main, exits]
      rw [gone]
      exact inside_mainLoop [] [t.asRead] main rfl rfl (by simp only [MainLoop.held]; abel)
  | fileClosed main =>
      have empty := contained.inFlight_between (by rw [main]; rfl)
      rw [inside_of_empty empty, inside_of_closed rfl]
      rfl
  | @received i t rest found task =>
      refine (add_zero _).trans (Eq.trans ?_ (zero_add _).symm)
      refine inside_worker_keeps found ?_
      simp only [Worker.held, task, List.map_cons, ← Multiset.cons_coe,
        ← Multiset.singleton_add, Multiset.coe_nil]
      abel
  | ended found _ _ | loaded found | marshaled found =>
      refine (add_zero _).trans (Eq.trans ?_ (zero_add _).symm)
      exact inside_worker_keeps found rfl
  | @testedLoad i t found =>
      have gone (next : RegenState) : chunksGone s (.testLoad i) next =
          if s.err then s.ofFile [t.asRead] else [] := by
        simp [chunksGone, chunksWritten, chunksLost, found, Worker.held]
      rw [gone]
      exact (add_zero _).trans (inside_tested found rfl rfl)
  | @testedMarshal i t found =>
      have gone (next : RegenState) : chunksGone s (.testMarshal i) next =
          if s.err then s.ofFile [t.asRead] else [] := by
        simp [chunksGone, chunksWritten, chunksLost, found, Worker.held]
      rw [gone]
      exact (add_zero _).trans (inside_tested found rfl rfl)
  | @sent i t found =>
      refine (add_zero _).trans (Eq.trans ?_ (zero_add _).symm)
      refine inside_worker_keeps found ?_
      simp only [Worker.held, List.map_append, ← Multiset.coe_add, List.map_singleton,
        Multiset.coe_nil]
      abel

/-! ### The results -/

/-- The result that a worker holds. -/
def Worker.answer : Worker → List ChunkWithPos
  | .marshaled t | .sending t => [t]
  | _ => []

/-- The result that the main loop is about to write. -/
def MainLoop.answer : MainLoop → List ChunkWithPos
  | .writing _ t => [t]
  | _ => []

/-- The results on their way were all made by a worker. -/
structure Answered (made : List ChunkWithPos) (s : RegenState) : Prop where
  workers : ∀ w ∈ s.workers, ∀ t ∈ w.answer, t ∈ made
  results : ∀ t ∈ s.retch.buffer, t ∈ made
  hand : ∀ t ∈ s.main.answer, t ∈ made

/-- What holds of all workers holds after one of them went on. -/
theorem forall_mem_set {P : Worker → Prop} {workers : List Worker} {i : Nat} {w' : Worker}
    (all : ∀ w ∈ workers, P w) (new : P w') : ∀ w ∈ workers.set i w', P w := by
  intro w member
  rcases List.mem_or_eq_of_mem_set member with old | rfl
  · exact all w old
  · exact new

/-- Results are made by `c.Data` only. -/
theorem Answered.step {made : List ChunkWithPos} (answered : Answered made s)
    (transition : RegenTransition s action next) :
    Answered (made ++ chunksMarshaled s action next) next := by
  have older : Answered (made ++ chunksMarshaled s action next) s :=
    { workers := fun w member t own => List.mem_append_left _ (answered.workers w member t own)
      results := fun t member => List.mem_append_left _ (answered.results t member)
      hand := fun t member => List.mem_append_left _ (answered.hand t member) }
  cases transition with
  | noEntry _ _ | notOpened _ _ | opened _ _ | unreadable _ | countedIn _ | handed _
  | allTaken _ _ | fileClosed _ | waited _ _ | readAll _ | empty _ | written _ =>
      exact { older with hand := fun t member => by cases member }
  | passedOver _ _ => exact { older with }
  | taken _ _ found =>
      refine { older with results := fun t member => ?_, hand := fun t member => ?_ }
      · exact older.results t (found ▸ List.mem_cons_of_mem _ member)
      · rw [List.mem_singleton.mp member]
        exact older.results _ (found ▸ List.mem_cons_self)
  | received _ _ | ended _ _ _ | loaded _ =>
      exact { older with workers := forall_mem_set older.workers fun t own => by cases own }
  | testedLoad found =>
      refine { older with workers := forall_mem_set older.workers ?_ }
      split <;> exact fun t own => by cases own
  | @marshaled i ok ret t found =>
      refine { older with workers := forall_mem_set older.workers fun t' own => ?_ }
      rw [List.mem_singleton.mp own]
      exact List.mem_append_right _ (by simp [chunksMarshaled, found])
  | testedMarshal found =>
      refine { older with workers := forall_mem_set older.workers ?_ }
      split
      · exact fun t own => by cases own
      · exact fun t' own => older.workers _ (List.mem_of_getElem? found) t' own
  | @sent i t found =>
      refine { older with
        workers := forall_mem_set older.workers fun t own => by cases own
        results := fun t' member => ?_ }
      rcases List.mem_append.mp member with old | new
      · exact older.results t' old
      · rw [List.mem_singleton.mp new]
        exact older.workers _ (List.mem_of_getElem? found) t List.mem_cons_self

/-- `WriteSector` is called with the chunk in the hand of the main loop. -/
theorem mem_chunksWritten {call : FileChunk} (member : call ∈ chunksWritten s action next) :
    call.2 ∈ s.main.answer := by
  unfold chunksWritten at member
  split at member
  · rename_i main _
    rw [main, List.mem_singleton.mp member]
    exact List.mem_cons_self
  · cases member

/-! ### Every run -/

theorem contained_initial (entries : List DirEntry) : Contained (.initial entries) where
  counted := le_rfl
  between _ := rfl

theorem answered_initial (entries : List DirEntry) : Answered [] (.initial entries) where
  workers w member t own := by
    rw [List.eq_of_mem_replicate member] at own
    cases own
  results t member := by cases member
  hand t member := by cases member

/-- Every result that was written was made before. -/
theorem written_of_runs {entries : List DirEntry} {actions : List RegenAction}
    {final : RegenState} (run : regenMachine.Runs (.initial entries) actions final) :
    Answered (regenMachine.history chunksMarshaled (.initial entries) actions) final ∧
      ∀ call ∈ regenMachine.history chunksWritten (.initial entries) actions,
        call.2 ∈ regenMachine.history chunksMarshaled (.initial entries) actions := by
  refine run.histories (fun made (written : List FileChunk) s =>
    Answered made s ∧ ∀ call ∈ written, call.2 ∈ made) ?_
    ⟨answered_initial entries, fun call member => by cases member⟩
  rintro made written s action next ⟨answered, known⟩ taken
  refine ⟨answered.step (regenTransition_of_step taken), fun call member => ?_⟩
  apply List.mem_append_left
  rcases List.mem_append.mp member with old | new
  · exact known call old
  · exact answered.hand _ (mem_chunksWritten new)

/-- Nothing is lost in a process that goes on and whose workers drop no chunk. -/
theorem nothing_lost {entries : List DirEntry} {actions : List RegenAction} {final : RegenState}
    (run : regenMachine.Runs (.initial entries) actions final)
    (steps : regenMachine.StepsOnly (fun s action => keepsChunks s action = true)
      (.initial entries) actions) (running : final.exits = false) :
    regenMachine.history chunksLost (.initial entries) actions = [] := by
  refine run.observed (fun lost s => s.exits = false → lost = []) ?_ steps (fun _ => rfl) running
  intro lost s action next before keeps taken goesOn
  have ran : s.exits = false := by
    rw [← Bool.not_eq_true]
    intro exits
    have none_ : regenProgramStep s action = none := by
      unfold regenProgramStep
      rw [if_pos exits]
    cases none_.symm.trans taken
  rw [before ran, List.nil_append]
  cases action with
  | testLoad i | testMarshal i =>
      have nil : s.err = false := by simpa [keepsChunks] using keeps
      simp [chunksLost, nil]
  | write ok => simp [chunksLost, goesOn]
  | _ => rfl

theorem exits_of_between (between : s.main.between = true) : s.exits = false := by
  unfold RegenState.exits
  split
  · rename_i main
    rw [main] at between
    cases between
  · rfl

/-- Nothing is taken for another chunk: whatever `WriteSector` is called with is a chunk read
before from the same file, with a result that a worker made for it, and each chunk is written at
most once. If no worker drops one, all of them are once their file is done. -/
theorem chunksWrittenBack (entries : List DirEntry) (actions : List RegenAction)
    (final : RegenState) (run : regenMachine.Runs (.initial entries) actions final) :
    let read := regenMachine.history chunksRead (.initial entries) actions
    let written := regenMachine.history chunksWritten (.initial entries) actions
    (written.map (Prod.map id ChunkWithPos.asRead) : Multiset FileChunk) ≤ read ∧
      (∀ call ∈ written,
        call.2 ∈ regenMachine.history chunksMarshaled (.initial entries) actions) ∧
      (regenMachine.StepsOnly (fun s action => keepsChunks s action = true) (.initial entries)
          actions → final.main.between = true →
        (written.map (Prod.map id ChunkWithPos.asRead)).Perm read) := by
  intro read written
  have preserved : ∀ {s : RegenState} {action : RegenAction} {next : RegenState}, Contained s →
      regenProgramStep s action = some next → Contained next :=
    fun contained taken => contained.step (regenTransition_of_step taken)
  have balance := run.conserved Contained (fun _ => True) RegenState.inside chunksRead chunksGone
    preserved (fun contained taken _ =>
      ⟨trivial, chunks_balanced contained (regenTransition_of_step taken)⟩)
    (contained_initial entries) trivial
  unfold chunksGone at balance
  rw [RegenState.inside_of_closed rfl, zero_add, Machine.history_append,
    Machine.history_map] at balance
  refine ⟨?_, (written_of_runs run).2, fun keeps between => ?_⟩
  · rw [balance, add_assoc]
    exact Multiset.le_add_right _ _
  · have contained := run.always preserved (contained_initial entries)
    rw [nothing_lost run keeps (exits_of_between between),
      RegenState.inside_of_empty (contained.inFlight_between between)] at balance
    exact Multiset.coe_eq_coe.mp (by rw [balance, Multiset.coe_nil, add_zero, add_zero])

theorem chunksWrittenBack_rewritten :
    ((regenMachine.history chunksWritten (.initial oneChunk) rewritten).map
        (Prod.map id ChunkWithPos.asRead)).Perm
      (regenMachine.history chunksRead (.initial oneChunk) rewritten) :=
  (chunksWrittenBack oneChunk rewritten _ (Machine.runs_exec_get (by decide +kernel))).2.2
    (Machine.stepsOnly_of_checkSteps (by decide +kernel)) (by decide +kernel)

/-! ### The shared error variable -/

/-- What succeeds, and what is written. -/
inductive RegenEvent where
  | loaded (t : ChunkWithPos)
  | marshaled (t : ChunkWithPos)
  | written (r : RegionFile) (t : ChunkWithPos)

def regenEvents (s : RegenState) (action : RegenAction) (next : RegenState) : List RegenEvent :=
  match action with
  | .load i true =>
      match s.workers[i]? with
      | some (.loading t) => [.loaded t.asRead]
      | _ => []
  | .marshal i true ret =>
      match s.workers[i]? with
      | some (.marshaling t) => [.marshaled { t with ret := ret }]
      | _ => []
  | .write ok => (chunksWritten s (.write ok) next).map fun call => .written call.1 call.2
  | _ => []

/-- The worker has assigned its error and has not tested it yet. -/
def Worker.testing : Worker → Bool
  | .loaded _ | .marshaled _ => true
  | _ => false

/-- No worker assigns the error variable between the assignment and the test of another. -/
def assignsAlone (s : RegenState) : RegenAction → Bool
  | .load _ _ | .marshal _ _ _ => s.workers.all fun w => !w.testing
  | _ => true

/-- The chunk was loaded, and its result marshalled, without an error. -/
def Good (past : List RegenEvent) (t : ChunkWithPos) : Prop :=
  .loaded t.asRead ∈ past ∧ .marshaled t ∈ past

/-- What holds of the chunk of a worker while the error variable has this value. -/
def Worker.Fine (past : List RegenEvent) (err : Bool) : Worker → Prop
  | .loaded t => err = false → .loaded t.asRead ∈ past
  | .marshaling t => .loaded t.asRead ∈ past
  | .marshaled t => .loaded t.asRead ∈ past ∧ (err = false → .marshaled t ∈ past)
  | .sending t => Good past t
  | _ => True

/-- Every chunk that goes on was good so far. -/
structure GoesOnGood (past : List RegenEvent) (s : RegenState) : Prop where
  workers : ∀ w ∈ s.workers, w.Fine past s.err
  results : ∀ t ∈ s.retch.buffer, Good past t
  hand : ∀ t ∈ s.main.answer, Good past t
  written : ∀ r t, .written r t ∈ past → Good past t

theorem Good.append {past : List RegenEvent} {t : ChunkWithPos} (good : Good past t)
    (later : List RegenEvent) : Good (past ++ later) t :=
  ⟨List.mem_append_left _ good.1, List.mem_append_left _ good.2⟩

theorem Worker.Fine.append {past : List RegenEvent} {err : Bool} {w : Worker}
    (fine : w.Fine past err) (later : List RegenEvent) : w.Fine (past ++ later) err := by
  cases w with
  | loaded t => exact fun nil => List.mem_append_left _ (fine nil)
  | marshaling t => exact List.mem_append_left _ fine
  | marshaled t =>
      exact ⟨List.mem_append_left _ fine.1, fun nil => List.mem_append_left _ (fine.2 nil)⟩
  | sending t => exact Good.append fine later
  | _ => trivial

/-- The error variable matters only to a worker in front of its test. -/
theorem Worker.Fine.assign {past : List RegenEvent} {err err' : Bool} {w : Worker}
    (fine : w.Fine past err) (notTesting : w.testing = false) : w.Fine past err' := by
  cases w with
  | loaded _ | marshaled _ => cases notTesting
  | _ => exact fine

theorem answer_of_written {r : RegionFile} {t : ChunkWithPos}
    (member : .written r t ∈ regenEvents s action next) : t ∈ s.main.answer := by
  unfold regenEvents at member
  split at member
  · split at member <;> simp at member
  · split at member <;> simp at member
  · obtain ⟨call, written, same⟩ := List.mem_map.mp member
    cases same
    exact mem_chunksWritten written
  · cases member

/-- The step lemma of the error variable. -/
theorem GoesOnGood.step {past : List RegenEvent} (good : GoesOnGood past s)
    (alone : assignsAlone s action = true) (transition : RegenTransition s action next) :
    GoesOnGood (past ++ regenEvents s action next) next := by
  have older : GoesOnGood (past ++ regenEvents s action next) s :=
    { workers := fun w member => (good.workers w member).append _
      results := fun t member => (good.results t member).append _
      hand := fun t member => (good.hand t member).append _
      written := fun r t member => by
        rcases List.mem_append.mp member with old | new
        · exact (good.written r t old).append _
        · exact (good.hand t (answer_of_written new)).append _ }
  cases transition with
  | noEntry _ _ | notOpened _ _ | opened _ _ | unreadable _ | countedIn _ | handed _
  | allTaken _ _ | fileClosed _ | waited _ _ | readAll _ | empty _ | written _ =>
      exact { older with hand := fun t member => by cases member }
  | passedOver _ _ => exact { older with }
  | taken _ _ found =>
      refine { older with results := fun t member => ?_, hand := fun t member => ?_ }
      · exact older.results t (found ▸ List.mem_cons_of_mem _ member)
      · rw [List.mem_singleton.mp member]
        exact older.results _ (found ▸ List.mem_cons_self)
  | received _ _ | ended _ _ _ =>
      exact { older with workers := forall_mem_set older.workers trivial }
  | @loaded i ok t found =>
      have others : ∀ w ∈ s.workers, w.Fine _ (!ok) := fun w member =>
        (older.workers w member).assign (by simpa using List.all_eq_true.mp alone w member)
      refine { older with workers := forall_mem_set others fun nil => ?_ }
      cases ok with
      | false => cases nil
      | true => exact List.mem_append_right _ (by simp [regenEvents, found])
  | @testedLoad i t found =>
      have fine := older.workers _ (List.mem_of_getElem? found)
      cases failed : s.err with
      | true => exact { older with workers := forall_mem_set (failed ▸ older.workers) trivial }
      | false =>
          exact { older with workers := forall_mem_set (failed ▸ older.workers) (fine failed) }
  | @marshaled i ok ret t found =>
      have fine := older.workers _ (List.mem_of_getElem? found)
      have others : ∀ w ∈ s.workers, w.Fine _ (!ok) := fun w member =>
        (older.workers w member).assign (by simpa using List.all_eq_true.mp alone w member)
      refine { older with workers := forall_mem_set others ⟨fine, fun nil => ?_⟩ }
      cases ok with
      | false => cases nil
      | true => exact List.mem_append_right _ (by simp [regenEvents, found])
  | @testedMarshal i t found =>
      have fine := older.workers _ (List.mem_of_getElem? found)
      cases failed : s.err with
      | true => exact { older with workers := forall_mem_set (failed ▸ older.workers) trivial }
      | false =>
          exact { older with
            workers := forall_mem_set (failed ▸ older.workers) ⟨fine.1, fine.2 failed⟩ }
  | @sent i t found =>
      have fine := older.workers _ (List.mem_of_getElem? found)
      refine { older with
        workers := forall_mem_set older.workers trivial, results := fun t' member => ?_ }
      rcases List.mem_append.mp member with old | new
      · exact older.results t' old
      · rw [List.mem_singleton.mp new]
        exact fine

/-- As long as the workers do not meet at the error variable, only chunks that were loaded and
marshalled without an error are written back. -/
theorem onlyGoodChunksWritten (entries : List DirEntry) (actions : List RegenAction)
    (final : RegenState) (run : regenMachine.Runs (.initial entries) actions final)
    (alone : regenMachine.StepsOnly (fun s action => assignsAlone s action = true)
      (.initial entries) actions) (r : RegionFile) (t : ChunkWithPos)
    (written : .written r t ∈ regenMachine.history regenEvents (.initial entries) actions) :
    Good (regenMachine.history regenEvents (.initial entries) actions) t := by
  have preserved : ∀ {past : List RegenEvent} {s : RegenState} {action : RegenAction}
      {next : RegenState}, GoesOnGood past s → assignsAlone s action = true →
      regenProgramStep s action = some next →
      GoesOnGood (past ++ regenEvents s action next) next :=
    fun good alone taken => good.step alone (regenTransition_of_step taken)
  have initial : GoesOnGood [] (.initial entries) :=
    { workers := fun w member => by
        rw [List.eq_of_mem_replicate member]
        trivial
      results := fun t member => by cases member
      hand := fun t member => by cases member
      written := fun r t member => by cases member }
  exact (run.observed GoesOnGood preserved alone initial).written r t written

def RegenEvent.result? : RegenEvent → Option ChunkWithPos
  | .written _ t => some t
  | _ => none

theorem onlyGoodChunksWritten_rewritten :
    Good (regenMachine.history regenEvents (.initial oneChunk) rewritten)
      ⟨0, 0, 0, 0, plainChunk, gzippedChunk⟩ := by
  have results : (regenMachine.history regenEvents (.initial oneChunk) rewritten).filterMap
      RegenEvent.result? = [⟨0, 0, 0, 0, plainChunk, gzippedChunk⟩] := by decide +kernel
  obtain ⟨event, member, result⟩ := List.mem_filterMap.mp (results ▸ List.mem_singleton_self _)
  cases event with
  | written r t =>
      cases result
      exact onlyGoodChunksWritten oneChunk rewritten _
        (Machine.runs_exec_get (by decide +kernel))
        (Machine.stepsOnly_of_checkSteps (by decide +kernel)) r _ member
  | _ => cases result

end WebChunk.Regen
