import WebChunk.BlockFinder.Search
import WebChunk.Semantics.Processes

/-!
# What the block finder has written when it returns

The workers are waited for, so every chunk is searched and every line is taken by the file writer.
The file writer is not waited for, so the last line may be missing.
-/

namespace WebChunk.BlockFinder

open WebChunk.Go WebChunk.Semantics

/-- The chunks that were searched. -/
def chunksSearched (s : Finder) (action : FinderAction) (_ : Finder) : List XzCoord :=
  match action with
  | .load i (some _) =>
      match s.workers[i]? with
      | some (.loading j) => [j]
      | _ => []
  | _ => []

/-- The lines for what was found. -/
def linesFound (s : Finder) (action : FinderAction) (_ : Finder) : List String :=
  match action with
  | .load i (some sections) =>
      match s.workers[i]? with
      | some (.loading j) => matchesIn j sections
      | _ => []
  | _ => []

/-- The lines that the file writer took. -/
def linesTaken (s : Finder) (action : FinderAction) (_ : Finder) : List String :=
  match action with
  | .send i =>
      match s.workers[i]? with
      | some (.sending line _) => [line]
      | _ => []
  | _ => []

/-- Writing to the file succeeds. -/
def FinderAction.writes : FinderAction → Bool
  | .write ok => ok
  | _ => true

namespace FinderMain

/-- The chunks that were not handed over. -/
def rest : FinderMain → List XzCoord
  | .handing rest => rest
  | _ => []

/-- `jobs` was closed. -/
def pastJobs : FinderMain → Bool
  | .waiting | .leaving | .returned => true
  | _ => false

/-- The workers were waited for. -/
def pastWorkers : FinderMain → Bool
  | .leaving | .returned => true
  | _ => false

end FinderMain

/-- The chunk that a worker is about to load. -/
def FinderWorker.job : FinderWorker → List XzCoord
  | .loading j => [j]
  | _ => []

/-- The lines that a worker has to send. -/
def FinderWorker.lines : FinderWorker → List String
  | .sending line rest => line :: rest
  | _ => []

/-- The line that the file writer has. -/
def FileWriter.held : FileWriter → List String
  | .writing r => [r]
  | _ => []

def Finder.unsearched (s : Finder) : Multiset XzCoord :=
  s.main.rest + s.jobs.buffer + s.workers.flatMap FinderWorker.job

def Finder.unsent (s : Finder) : Multiset String := s.workers.flatMap FinderWorker.lines

/-- A worker ends only on a closed and empty channel. -/
structure Crewed (crew : Nat) (s : Finder) : Prop where
  crew : s.workers.length = crew
  capacity : s.jobs.capacity = 64
  closed : s.jobs.closed = s.main.pastJobs
  drained : .done ∈ s.workers → s.jobs.closed = true ∧ s.jobs.buffer = []
  ended : s.main.pastWorkers → ∀ w ∈ s.workers, w = .done

variable {maxConns crew : Nat} {s next : Finder} {action : FinderAction}

@[simp] theorem lines_withLines (lines : List String) :
    (FinderWorker.withLines lines).lines = lines := by
  cases lines <;> rfl

@[simp] theorem job_withLines (lines : List String) : (FinderWorker.withLines lines).job = [] := by
  cases lines <;> rfl

theorem withLines_ne_done (lines : List String) : FinderWorker.withLines lines ≠ .done := by
  cases lines <;> simp [FinderWorker.withLines]

/-- A worker goes on before the end. -/
theorem Crewed.worker {i : Nat} {w w' : FinderWorker} {jobs : Chan XzCoord} {writer : FileWriter}
    (crewed : Crewed crew s) (found : s.workers[i]? = some w) (alive : w ≠ .done)
    (goesOn : w' ≠ .done)
    (same : jobs.closed = s.jobs.closed ∧ jobs.capacity = s.jobs.capacity)
    (fewer : s.jobs.buffer = [] → jobs.buffer = []) :
    Crewed crew { s with jobs := jobs, writer := writer, workers := s.workers.set i w' } where
  crew := List.length_set.trans crewed.crew
  capacity := same.2.trans crewed.capacity
  closed := same.1.trans crewed.closed
  drained member := by
    rcases List.mem_or_eq_of_mem_set member with old | new
    · obtain ⟨closed, empty⟩ := crewed.drained old
      exact ⟨same.1.trans closed, fewer empty⟩
    · exact absurd new.symm goesOn
  ended past := absurd (crewed.ended past w (List.mem_of_getElem? found)) alive

theorem Crewed.step (crewed : Crewed crew s)
    (transition : FinderTransition maxConns s action next) :
    Crewed crew next := by
  cases transition with
  | handed main isOpen =>
      have still := crewed.closed
      rw [main] at still
      refine { crewed with
        closed := still, drained := fun member => ?_, ended := fun past => by cases past }
      rw [(crewed.drained member).1] at isOpen
      cases isOpen
  | closed main =>
      exact { crewed with
        closed := rfl, drained := fun member => ⟨rfl, (crewed.drained member).2⟩
        ended := fun past => by cases past }
  | waited main all =>
      have still := crewed.closed
      rw [main] at still
      exact { crewed with closed := still, ended := fun _ => all }
  | left main =>
      have still := crewed.closed
      have all := crewed.ended
      rw [main] at still all
      exact { crewed with closed := still, ended := fun _ => all rfl }
  | acquired found _ => exact crewed.worker found (by simp) (by simp) ⟨rfl, rfl⟩ id
  | received found task =>
      exact crewed.worker found (by simp) (by simp) ⟨rfl, rfl⟩ fun empty => by
        rw [task] at empty
        cases empty
  | ended found empty closed =>
      refine { crewed with
        crew := List.length_set.trans crewed.crew, drained := fun _ => ⟨closed, empty⟩
        ended := fun past => ?_ }
      exact absurd (crewed.ended past _ (List.mem_of_getElem? found)) (by simp)
  | loaded found => exact crewed.worker found (by simp) (withLines_ne_done _) ⟨rfl, rfl⟩ id
  | sent found _ => exact crewed.worker found (by simp) (withLines_ne_done _) ⟨rfl, rfl⟩ id
  | opened _ | wrote _ | failed _ => exact { crewed with }

theorem crewed_initial (threads : Int) (coordlist : List XzCoord) :
    Crewed (threads + 1).toNat (.initial threads coordlist) where
  crew := List.length_replicate
  capacity := rfl
  closed := rfl
  drained member := by cases List.eq_of_mem_replicate member
  ended past := by cases past

/-! ### The balance -/

/-- A worker goes on with the chunks. -/
theorem unsearched_worker {i : Nat} {w w' : FinderWorker} {jobs : Chan XzCoord}
    {writer : FileWriter} (searched : List XzCoord) (found : s.workers[i]? = some w)
    (balance : (s.jobs.buffer + w.job : Multiset XzCoord) = searched + jobs.buffer + w'.job) :
    s.unsearched = searched + Finder.unsearched { s with
      jobs := jobs, writer := writer, workers := s.workers.set i w' } := by
  have replaced := flatMap_set_of_some (b := w') FinderWorker.job found
  apply add_right_cancel (b := (w.job : Multiset XzCoord))
  calc
    s.unsearched + w.job =
        (s.main.rest + s.workers.flatMap FinderWorker.job : Multiset XzCoord) +
          (s.jobs.buffer + w.job) := by
      unfold Finder.unsearched
      abel
    _ = s.main.rest + (s.workers.flatMap FinderWorker.job + w'.job) +
        (searched + jobs.buffer) := by
      rw [balance]
      abel
    _ = _ := by
      rw [← replaced]
      unfold Finder.unsearched
      abel

/-- A worker goes on with its lines. -/
theorem unsent_worker {i : Nat} {w w' : FinderWorker} {jobs : Chan XzCoord} {writer : FileWriter}
    (found_ taken : List String) (found : s.workers[i]? = some w)
    (balance : (w.lines + found_ : Multiset String) = taken + w'.lines) :
    s.unsent + found_ = taken + Finder.unsent { s with
      jobs := jobs, writer := writer, workers := s.workers.set i w' } := by
  have replaced := flatMap_set_of_some (b := w') FinderWorker.lines found
  apply add_right_cancel (b := (w.lines : Multiset String))
  calc
    s.unsent + found_ + w.lines =
        (s.workers.flatMap FinderWorker.lines : Multiset String) + (w.lines + found_) := by
      unfold Finder.unsent
      abel
    _ = (s.workers.flatMap FinderWorker.lines + w'.lines) + taken := by
      rw [balance]
      abel
    _ = _ := by
      rw [← replaced]
      unfold Finder.unsent
      abel

/-- A chunk is searched when it leaves the coordinates, the channel and the workers. -/
theorem searched_balanced (transition : FinderTransition maxConns s action next) :
    s.unsearched = chunksSearched s action next + next.unsearched := by
  cases transition with
  | handed main _ =>
      simp only [Finder.unsearched, chunksSearched, main, FinderMain.rest, ← Multiset.coe_add,
        ← Multiset.cons_coe, ← Multiset.singleton_add, Multiset.coe_nil]
      abel
  | closed main | waited main _ | left main =>
      simp [Finder.unsearched, chunksSearched, main, FinderMain.rest]
  | acquired found _ | ended found _ _ => exact unsearched_worker [] found rfl
  | received found task =>
      refine unsearched_worker [] found ?_
      simp only [FinderWorker.job, task, ← Multiset.cons_coe, ← Multiset.singleton_add,
        Multiset.coe_nil]
      abel
  | @loaded i j sections found =>
      have searched (next : Finder) : chunksSearched s (.load i (some sections)) next = [j] := by
        simp [chunksSearched, found]
      rw [searched]
      refine unsearched_worker [j] found ?_
      rw [job_withLines]
      simp only [FinderWorker.job, Multiset.coe_nil]
      abel
  | @sent i line rest found _ =>
      refine unsearched_worker [] found ?_
      rw [job_withLines]
      rfl
  | opened _ | wrote _ | failed _ => exact (zero_add _).symm

/-- A line is found by a worker and leaves it for the file writer. -/
theorem lines_balanced (transition : FinderTransition maxConns s action next) :
    s.unsent + linesFound s action next = linesTaken s action next + next.unsent := by
  cases transition with
  | handed _ _ | closed _ | waited _ _ | left _ | opened _ | wrote _ | failed _ =>
      exact add_comm _ _
  | acquired found _ | ended found _ _ | received found _ => exact unsent_worker [] [] found rfl
  | @loaded i j sections found =>
      have lines (next : Finder) :
          linesFound s (.load i (some sections)) next = matchesIn j sections := by
        simp [linesFound, found]
      rw [lines]
      refine unsent_worker (matchesIn j sections) [] found ?_
      rw [lines_withLines]
      rfl
  | @sent i line rest found _ =>
      have taken (next : Finder) : linesTaken s (.send i) next = [line] := by
        simp [linesTaken, found]
      rw [taken]
      refine unsent_worker [] [line] found ?_
      rw [lines_withLines]
      simp only [FinderWorker.lines, ← Multiset.cons_coe, ← Multiset.singleton_add,
        Multiset.coe_nil]
      abel

/-! ### The file -/

/-- The file has the lines that the file writer took, up to the one it still has. -/
theorem written_of_transition {taken : List String}
    (transition : FinderTransition maxConns s action next)
    (written : taken.map fileLine = s.file ++ s.writer.held.map fileLine)
    (writes : action.writes = true) :
    (taken ++ linesTaken s action next).map fileLine =
      next.file ++ next.writer.held.map fileLine := by
  rw [List.map_append, written]
  cases transition with
  | handed _ _ | closed _ | waited _ _ | left _ | acquired _ _ | received _ _ | ended _ _ _
  | loaded _ => exact List.append_nil _
  | @sent i line rest found idle =>
      rw [idle]
      simp [linesTaken, found, FileWriter.held, Finder.setWorker]
  | opened writer =>
      rw [writer]
      exact List.append_nil _
  | wrote writer =>
      rw [writer]
      simp [linesTaken, FileWriter.held]
  | failed _ => cases writes

/-- A process that takes a step has not died. -/
theorem lives_of_step (step : finderStep maxConns s action = some next) : s.main ≠ .died := by
  intro died
  simp [finderStep, Finder.exited, died] at step

/-- The workers are there in every run, as long as the process is. -/
theorem crewed_of_runs {threads : Int} {coordlist : List XzCoord} {actions : List FinderAction}
    {final : Finder} (run : (finder maxConns).Runs (.initial threads coordlist) actions final)
    (lives : final.main ≠ .died) : Crewed (threads + 1).toNat final := by
  have preserved : ∀ {s : Finder} {action : FinderAction} {next : Finder},
      (s.main ≠ .died → Crewed (threads + 1).toNat s) →
      finderStep maxConns s action = some next → next.main ≠ .died →
      Crewed (threads + 1).toNat next :=
    fun crewed step lives =>
      (crewed (lives_of_step step)).step (finderTransition_of_step step lives)
  exact run.always preserved (fun _ => crewed_initial threads coordlist) lives

/-- When the main loop has left, nothing is left to search or to send. -/
theorem Crewed.nothingLeft (crewed : Crewed crew s) (some_ : 0 < crew)
    (past : s.main.pastWorkers = true) :
    s.unsearched = 0 ∧ s.unsent = 0 := by
  have ended := crewed.ended past
  obtain ⟨w, member⟩ := List.exists_mem_of_length_pos (crewed.crew ▸ some_)
  have empty := (crewed.drained (ended w member ▸ member)).2
  have rest : s.main.rest = [] := by
    cases main : s.main with
    | handing _ =>
        rw [main] at past
        cases past
    | _ => rfl
  have jobs : s.workers.flatMap FinderWorker.job = [] :=
    List.flatMap_eq_nil_iff.mpr fun w member => by rw [ended w member]; rfl
  have lines : s.workers.flatMap FinderWorker.lines = [] :=
    List.flatMap_eq_nil_iff.mpr fun w member => by rw [ended w member]; rfl
  rw [Finder.unsearched, Finder.unsent, rest, empty, jobs, lines]
  exact ⟨rfl, rfl⟩

/-- Every chunk was searched, or is still to be. -/
theorem searched_of_runs {threads : Int} {coordlist : List XzCoord} {actions : List FinderAction}
    {final : Finder} (run : (finder maxConns).Runs (.initial threads coordlist) actions final)
    (lives : final.main ≠ .died) : (coordlist : Multiset XzCoord) =
      (finder maxConns).history chunksSearched (.initial threads coordlist) actions +
        final.unsearched := by
  have balance := run.conserved (fun _ => True) (fun s => s.main ≠ .died) Finder.unsearched
    (fun _ _ _ => []) chunksSearched (fun _ _ => trivial)
    (fun _ step lives => ⟨lives_of_step step,
      (add_zero _).trans (searched_balanced (finderTransition_of_step step lives))⟩) trivial lives
  have nothing : (finder maxConns).history (fun _ _ _ => ([] : List XzCoord))
      (.initial threads coordlist) actions = [] :=
    run.history (fun past _ => past = []) (fun none_ _ => by rw [none_]; rfl) rfl
  have all : (Finder.initial threads coordlist).unsearched = coordlist := by
    have noJob : (Finder.initial threads coordlist).workers.flatMap FinderWorker.job = [] :=
      List.flatMap_eq_nil_iff.mpr fun w member => by rw [List.eq_of_mem_replicate member]; rfl
    rw [Finder.unsearched, noJob]
    exact (add_zero _).trans (add_zero _)
  rw [nothing, Multiset.coe_nil, add_zero, all] at balance
  exact balance

/-- Every line that was found was taken by the file writer, or is still to be. -/
theorem taken_of_runs {threads : Int} {coordlist : List XzCoord} {actions : List FinderAction}
    {final : Finder} (run : (finder maxConns).Runs (.initial threads coordlist) actions final)
    (lives : final.main ≠ .died) :
    ((finder maxConns).history linesFound (.initial threads coordlist) actions : Multiset String) =
      (finder maxConns).history linesTaken (.initial threads coordlist) actions + final.unsent := by
  have balance := run.conserved (fun _ => True) (fun s => s.main ≠ .died) Finder.unsent
    linesFound linesTaken (fun _ _ => trivial)
    (fun _ step lives => ⟨lives_of_step step,
      lines_balanced (finderTransition_of_step step lives)⟩) trivial lives
  have none_ : (Finder.initial threads coordlist).unsent = 0 := by
    have noLine : (Finder.initial threads coordlist).workers.flatMap FinderWorker.lines = [] :=
      List.flatMap_eq_nil_iff.mpr fun w member => by rw [List.eq_of_mem_replicate member]; rfl
    rw [Finder.unsent, noLine]
    rfl
  rw [none_, zero_add] at balance
  exact balance

/-- When `main` has returned every chunk was searched once, and the file has the lines of all that
was found, up to the last one, which the file writer may still have. -/
theorem everyMatchWritten (maxConns : Nat) (threads : Int) (someThreads : 0 ≤ threads)
    (coordlist : List XzCoord) (actions : List FinderAction) (final : Finder)
    (run : (finder maxConns).Runs (.initial threads coordlist) actions final)
    (returned : final.main = .returned)
    (writes : (finder maxConns).StepsOnly (fun _ action => action.writes = true)
      (.initial threads coordlist) actions) :
    ((finder maxConns).history chunksSearched (.initial threads coordlist) actions).Perm coordlist ∧
      ∃ missing, missing.length ≤ 1 ∧ (final.file ++ missing).Perm
        (((finder maxConns).history linesFound (.initial threads coordlist) actions).map
          fileLine) := by
  have lives : final.main ≠ .died := by
    rw [returned]
    simp
  obtain ⟨searchedAll, sentAll⟩ :=
    (crewed_of_runs run lives).nothingLeft (by omega) (by rw [returned]; rfl)
  have searched := searched_of_runs run lives
  have found := taken_of_runs run lives
  rw [searchedAll, add_zero] at searched
  rw [sentAll, add_zero] at found
  have preserved : ∀ {taken : List String} {s : Finder} {action : FinderAction} {next : Finder},
      (s.main ≠ .died → taken.map fileLine = s.file ++ s.writer.held.map fileLine) →
      action.writes = true → finderStep maxConns s action = some next → next.main ≠ .died →
      (taken ++ linesTaken s action next).map fileLine =
        next.file ++ next.writer.held.map fileLine :=
    fun written writes step lives => written_of_transition (finderTransition_of_step step lives)
      (written (lives_of_step step)) writes
  have written := run.observed (fun (taken : List String) s => s.main ≠ .died →
    taken.map fileLine = s.file ++ s.writer.held.map fileLine) preserved writes (fun _ => rfl) lives
  refine ⟨(Multiset.coe_eq_coe.mp searched).symm, final.writer.held.map fileLine, ?_, ?_⟩
  · rw [List.length_map]
    cases final.writer with
    | writing r => exact le_rfl
    | _ => exact Nat.zero_le 1
  · rw [← written]
    exact ((Multiset.coe_eq_coe.mp found).map fileLine).symm

/-! ### Going on -/

/-- A worker before its end can go on, or the file writer which it waits for, if there is a
connection for each of the workers. -/
theorem Crewed.worker_goesOn (crewed : Crewed crew s) (enough : crew ≤ maxConns)
    (running : s.exited = false) {w : FinderWorker} (member : w ∈ s.workers) (alive : w ≠ .done)
    (task : s.jobs.buffer ≠ [] ∨ s.jobs.closed = true) :
    ∃ action, (finderStep maxConns s action).isSome := by
  obtain ⟨i, worker⟩ := List.mem_iff_getElem?.mp member
  cases w with
  | acquiring =>
      have free : s.conns < maxConns := by
        refine lt_of_lt_of_le ?_ enough
        rw [← crewed.crew, Finder.conns]
        exact List.countP_lt_length_iff.mpr ⟨_, member, rfl⟩
      exact ⟨.acquire i true, by simp [finderStep, running, Finder.acquire, worker, free]⟩
  | idle =>
      refine ⟨.receive i, ?_⟩
      cases found : s.jobs.buffer with
      | nil =>
          have closed := task.resolve_left (absurd found)
          simp [finderStep, running, Finder.receive, worker, Chan.receive, found, closed]
      | cons j rest => simp [finderStep, running, Finder.receive, worker, Chan.receive, found]
  | loading j => exact ⟨.load i (some []), by simp [finderStep, running, Finder.load, worker]⟩
  | sending line rest =>
      cases writer : s.writer with
      | opening => exact ⟨.openFile true, by simp [finderStep, running, Finder.openFile, writer]⟩
      | idle => exact ⟨.send i, by simp [finderStep, running, Finder.send, worker, writer]⟩
      | writing r => exact ⟨.write true, by simp [finderStep, running, Finder.write, writer]⟩
  | done => exact absurd rfl alive

theorem Crewed.goesOn (crewed : Crewed crew s) (some_ : 0 < crew) (enough : crew ≤ maxConns)
    (running : s.exited = false) : ∃ action, (finderStep maxConns s action).isSome := by
  have closed := crewed.closed
  cases main : s.main with
  | handing rest =>
      rw [main] at closed
      cases rest with
      | nil => exact ⟨.closeJobs, by simp [finderStep, running, Finder.closeJobs, main]⟩
      | cons coords rest =>
          by_cases room : s.jobs.buffer.length < 64
          · have sent : s.jobs.send coords =
                .sent { s.jobs with buffer := s.jobs.buffer ++ [coords] } := by
              rw [Chan.send, if_neg (by rw [closed]; simp [FinderMain.pastJobs]),
                if_pos (by rw [crewed.capacity]; exact room)]
            exact ⟨.hand none, by simp [finderStep, running, Finder.hand, main, sent]⟩
          · -- The channel is full, so a worker has something to do.
            obtain ⟨w, member⟩ := List.exists_mem_of_length_pos (crewed.crew ▸ some_)
            refine crewed.worker_goesOn enough running member ?_ (.inl fun empty => ?_)
            · rintro rfl
              have contrary := (crewed.drained member).1
              rw [closed] at contrary
              cases contrary
            · rw [empty] at room
              exact room (by simp)
  | waiting =>
      rw [main] at closed
      by_cases all : s.workers.all (· = .done)
      · exact ⟨.wait, by simp [finderStep, running, Finder.wait, main, all]⟩
      · obtain ⟨w, member, alive⟩ : ∃ w ∈ s.workers, w ≠ .done := by simpa using all
        exact crewed.worker_goesOn enough running member alive (.inr closed)
  | leaving => exact ⟨.leave, by simp [finderStep, running, Finder.leave, main]⟩
  | returned | died =>
      rw [Finder.exited, main] at running
      cases running

@[simp] theorem connected_withLines (lines : List String) :
    (FinderWorker.withLines lines).connected = true := by
  cases lines <;> rfl

/-- No more connections are in use than the pool has. -/
theorem conns_of_transition (transition : FinderTransition maxConns s action next)
    (within : s.conns ≤ maxConns) : next.conns ≤ maxConns := by
  have kept : ∀ {i : Nat} {w w' : FinderWorker}, s.workers[i]? = some w → w.connected = true →
      w'.connected = true → (s.workers.set i w').countP FinderWorker.connected ≤ maxConns := by
    intro i w w' found before after
    have replaced := countP_set_of_some (p := FinderWorker.connected) (b := w') found
    rw [if_pos before, if_pos after] at replaced
    have same := Nat.add_right_cancel replaced
    exact same ▸ within
  cases transition with
  | @acquired i found free =>
      have replaced := countP_set_of_some (p := FinderWorker.connected) (b := .idle) found
      have more : (s.setWorker i .idle).conns = s.conns + 1 := replaced
      exact more ▸ free
  | received found _ | ended found _ _ => exact kept found rfl rfl
  | loaded found | sent found _ => exact kept found rfl (connected_withLines _)
  | _ => exact within

/-- If the pool has a connection for each of the workers, someone can go on until `main` has
returned or the process has died. If it has not, `main` never returns. -/
theorem search_goesOn (maxConns : Nat) (threads : Int) (someThreads : 0 ≤ threads)
    (coordlist : List XzCoord) (actions : List FinderAction) (final : Finder)
    (run : (finder maxConns).Runs (.initial threads coordlist) actions final) :
    (threads + 1 ≤ maxConns →
        final.exited = true ∨ ∃ action next, (finder maxConns).step final action = some next) ∧
      (final.main = .returned → threads + 1 ≤ maxConns) := by
  constructor
  · intro enough
    have room : (threads + 1).toNat ≤ maxConns := by omega
    by_cases ended : final.exited = true
    · exact .inl ended
    · rw [Bool.not_eq_true] at ended
      have lives : final.main ≠ .died := by
        intro died
        simp [Finder.exited, died] at ended
      obtain ⟨action, taken⟩ := (crewed_of_runs run lives).goesOn (by omega) room ended
      exact .inr ⟨action, Option.isSome_iff_exists.mp taken⟩
  · intro returned
    have lives : final.main ≠ .died := by
      rw [returned]
      simp
    have preserved : ∀ {s : Finder} {action : FinderAction} {next : Finder},
        (s.main ≠ .died → s.conns ≤ maxConns) → finderStep maxConns s action = some next →
        next.main ≠ .died → next.conns ≤ maxConns :=
      fun within step lives =>
        conns_of_transition (finderTransition_of_step step lives) (within (lives_of_step step))
    have none_ : (Finder.initial threads coordlist).conns = 0 := by
      simp [Finder.conns, Finder.initial, FinderWorker.connected]
    have within := run.always preserved (fun _ => none_ ▸ Nat.zero_le _) lives
    have crewed := crewed_of_runs run lives
    have all : final.conns = final.workers.length := by
      rw [Finder.conns, List.countP_eq_length]
      intro w member
      rw [crewed.ended (by rw [returned]; rfl) w member]
      rfl
    rw [all, crewed.crew] at within
    omega

/-- One chunk with a portal, searched by one worker, and its line written. -/
def portalFound : List FinderAction :=
  [.acquire 0 true, .openFile true, .hand none, .receive 0,
    .load 0 (some [["minecraft:netherrack"], ["minecraft:nether_portal"]]), .send 0, .closeJobs,
    .receive 0, .wait, .write true, .leave]

theorem everyMatchWritten_portalFound :
    ∃ final, (finder 1).Runs (.initial 0 [⟨3, -7⟩]) portalFound final ∧
      ((finder 1).history chunksSearched (.initial 0 [⟨3, -7⟩]) portalFound).Perm [⟨3, -7⟩] ∧
      ∃ missing, missing.length ≤ 1 ∧ (final.file ++ missing).Perm
        (((finder 1).history linesFound (.initial 0 [⟨3, -7⟩]) portalFound).map fileLine) :=
  ⟨_, Machine.runs_exec_get (by decide +kernel),
    everyMatchWritten 1 0 le_rfl [⟨3, -7⟩] portalFound _
    (Machine.runs_exec_get (by decide +kernel)) (by decide +kernel)
    (Machine.stepsOnly_of_checkSteps (by decide +kernel))⟩

theorem search_goesOn_portalFound :
    ∃ final, (finder 1).Runs (.initial 0 [⟨3, -7⟩]) portalFound final ∧
      ((0 : Int) + 1 ≤ (1 : Nat) →
        final.exited = true ∨ ∃ action next, (finder 1).step final action = some next) ∧
      (final.main = .returned → (0 : Int) + 1 ≤ (1 : Nat)) :=
  ⟨_, Machine.runs_exec_get (by decide +kernel), search_goesOn 1 0 le_rfl [⟨3, -7⟩] portalFound _
    (Machine.runs_exec_get (by decide +kernel))⟩

/-- Without the write in between the line is missing. -/
example : ∃ final, (finder 1).Runs (.initial 0 [⟨3, -7⟩])
    [.acquire 0 true, .openFile true, .hand none, .receive 0,
      .load 0 (some [["minecraft:nether_portal"]]), .send 0, .closeJobs, .receive 0, .wait,
      .leave] final ∧ final.main = .returned ∧ final.file = [] :=
  ⟨_, Machine.runs_exec_get (by decide +kernel), by decide +kernel, by decide +kernel⟩

end WebChunk.BlockFinder
