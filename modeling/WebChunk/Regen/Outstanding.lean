import WebChunk.Regen.Transition

/-!
# Does the main loop wait for a chunk that will not come?

The counter of the main loop is the number of chunks on their way, in its hand, in a channel or
at a worker, as long as no worker drops one at a test of the error variable.
-/

namespace WebChunk.Regen

open WebChunk.Go WebChunk.Semantics

/-- The main loop is in front of its select, or about to leave the loop around it. -/
def MainLoop.isWaiting : MainLoop → Bool
  | .waiting _ => true
  | _ => false

/-- The main loop waits for a result while nothing is in a channel or at a worker. -/
def WaitsInVain (s : RegenState) : Prop :=
  s.main.isWaiting ∧ 0 < s.chunks ∧ s.taskch.buffer = [] ∧ s.retch.buffer = [] ∧
    ∀ w ∈ s.workers, w = .idle

instance (s : RegenState) : Decidable (WaitsInVain s) :=
  inferInstanceAs (Decidable (_ ∧ _ ∧ _ ∧ _ ∧ _))

/-- The files that are to be closed, in the order of the directory. -/
def regions (entries : List DirEntry) : List (Int × Int) :=
  entries.filterMap fun
    | .region r => some (r.rx, r.rz)
    | .other => none

/-- `regen` is over, or the process is. -/
def RegenState.Over (s : RegenState) : Prop := s.main = .returned ∨ s.main = .exited

/-- The main loop does not wait in vain, something can go on until everything is over, and then
every file was closed in its turn, unless the process was ended. -/
structure FinishesFiles (entries : List DirEntry) (s : RegenState) : Prop where
  notInVain : ¬ WaitsInVain s
  goesOn : s.Over ∨ ∃ action next, regenMachine.step s action = some next
  inTurn : s.main ≠ .exited → s.closed <+: regions entries
  finished : s.main = .returned → s.closed = regions entries

/-- No worker drops a chunk: the error variable is nil at its tests. -/
def keepsChunks (s : RegenState) : RegenAction → Bool
  | .testLoad _ | .testMarshal _ => !s.err
  | _ => true

/-! ### The chunks on their way -/

/-- The worker has a chunk. -/
def Worker.busy : Worker → Bool
  | .idle | .ended => false
  | _ => true

/-- The chunk between its count and the channel. -/
def MainLoop.inHand : MainLoop → Nat
  | .handing .. => 1
  | _ => 0

/-- The places of the file that are still to be looked at. -/
def MainLoop.left : MainLoop → Nat
  | .reading _ rest | .handing _ _ rest => rest.length
  | _ => 0

/-- The file that is open. -/
def MainLoop.file : MainLoop → List (Int × Int)
  | .reading r _ | .handing r _ _ | .waiting r | .writing r _ | .closing r => [(r.rx, r.rz)]
  | _ => []

/-- No file is in work. -/
def MainLoop.between : MainLoop → Bool
  | .next | .closing _ | .stopping | .returned => true
  | _ => false

/-- `taskch` was closed. -/
def MainLoop.pastEntries : MainLoop → Bool
  | .stopping | .returned => true
  | _ => false

def RegenState.outstanding (s : RegenState) : Nat :=
  s.main.inHand + s.taskch.buffer.length + s.workers.countP Worker.busy + s.retch.buffer.length

/-- The counter is right, and the channels have room for a whole file. -/
structure Counted (entries : List DirEntry) (s : RegenState) : Prop where
  counted : s.chunks = s.outstanding
  between : s.main.between → s.chunks = 0
  room : s.chunks + s.main.left ≤ 32 * 32
  taskRoom : s.taskch.capacity = 32 * 32
  retRoom : s.retch.capacity = 32 * 32
  taskClosed : s.taskch.closed = s.main.pastEntries
  retOpen : s.retch.closed = false
  crew : s.workers ≠ []
  ended : .ended ∈ s.workers → s.taskch.closed = true
  returned : s.main = .returned → ∀ w ∈ s.workers, w = .ended
  files : s.closed ++ s.main.file ++ regions s.entries = regions entries
  past : s.main.pastEntries → s.entries = []

theorem sectors_length (r : RegionFile) : r.sectors.length ≤ 32 * 32 := by
  refine (List.length_filter_le _ _).trans ?_
  simp [List.length_flatMap]

namespace Counted

variable {entries : List DirEntry} {s next : RegenState}

theorem initial (entries : List DirEntry) : Counted entries (.initial entries) where
  counted := rfl
  between _ := rfl
  room := Nat.zero_le _
  taskRoom := rfl
  retRoom := rfl
  taskClosed := rfl
  retOpen := rfl
  crew := by simp [RegenState.initial]
  ended member := by cases List.eq_of_mem_replicate member
  returned now := by cases now
  files := rfl
  past now := by cases now

/-- A worker goes on: what leaves one place comes to another. -/
theorem worker {i : Nat} {w w' : Worker} {tasks results : List ChunkWithPos} {err : Bool}
    (counted : Counted entries s) (found : s.workers[i]? = some w) (alive : w ≠ .ended)
    (ending : w' = .ended → s.taskch.closed = true)
    (balance : tasks.length + (if w'.busy then 1 else 0) + results.length =
      s.taskch.buffer.length + (if w.busy then 1 else 0) + s.retch.buffer.length) :
    Counted entries { s with
      taskch := { s.taskch with buffer := tasks }, retch := { s.retch with buffer := results }
      workers := s.workers.set i w', err := err } := by
  have busy := countP_set_of_some (p := Worker.busy) (b := w') found
  refine { counted with
    counted := ?_, crew := ?_, ended := fun member => ?_, returned := fun now => ?_ }
  · have total := counted.counted
    simp only [RegenState.outstanding] at total ⊢
    omega
  · rw [Ne, List.set_eq_nil_iff]
    exact counted.crew
  · rcases List.mem_or_eq_of_mem_set member with old | new
    · exact counted.ended old
    · exact ending new.symm
  · exact absurd (counted.returned now w (List.mem_of_getElem? found)) alive

/-- The main loop goes on with its file: what it counts, takes and gives is in balance. -/
theorem mainLoop {m m' : MainLoop} {chunks : Nat} {tasks results : List ChunkWithPos}
    (counted : Counted entries s) (main : s.main = m)
    (balance : chunks + (m.inHand + s.taskch.buffer.length + s.retch.buffer.length) =
      s.chunks + (m'.inHand + tasks.length + results.length))
    (between : m'.between → chunks = 0) (room : chunks + m'.left ≤ s.chunks + m.left)
    (past : m'.pastEntries = m.pastEntries) (file : m'.file = m.file) (stays : m' ≠ .returned) :
    Counted entries { s with
      main := m', chunks := chunks
      taskch := { s.taskch with buffer := tasks }
      retch := { s.retch with buffer := results } } := by
  subst main
  refine { counted with
    counted := ?_, between := between, room := room.trans counted.room, taskClosed := ?_
    returned := fun now => absurd now stays, files := ?_, past := fun now => ?_ }
  · have total := counted.counted
    simp only [RegenState.outstanding] at total ⊢
    omega
  · exact counted.taskClosed.trans past.symm
  · rw [file]
    exact counted.files
  · exact counted.past (past ▸ now)

/-- A step that drops no chunk keeps the counter right, unless it ends the process. -/
theorem step {action : RegenAction} (counted : Counted entries s)
    (keeps : keepsChunks s action) (transition : RegenTransition s action next) :
    next.main = .exited ∨ Counted entries next := by
  have total := counted.counted
  have files := counted.files
  have room := counted.room
  unfold RegenState.outstanding at total
  cases transition with
  | notOpened _ _ => exact .inl rfl
  | empty _ => exact .inl rfl
  | noEntry main none_ =>
      rw [main] at total room files
      exact .inr { counted with
        counted := total, between := fun _ => counted.between (by rw [main]; rfl), room := room
        taskClosed := rfl, ended := fun _ => rfl, returned := nofun, files := files
        past := fun _ => none_ }
  | passedOver main found =>
      rw [found] at files
      exact .inr { counted with
        files := files, past := fun now => by rw [main] at now; cases now }
  | opened main found =>
      have none_ := counted.between (by rw [main]; rfl)
      rw [main] at total files
      rw [found] at files
      refine .inr { counted with
        counted := none_ ▸ total, between := nofun
        room := (Nat.zero_add _).trans_le (sectors_length _)
        taskClosed := ?_, returned := nofun, files := ?_, past := nofun }
      · rw [counted.taskClosed, main]
        rfl
      · rw [← files]
        simp [MainLoop.file, regions]
  | readAll main => exact .inr (counted.mainLoop main rfl nofun le_rfl rfl rfl nofun)
  | unreadable main =>
      exact .inr (counted.mainLoop main rfl nofun (Nat.le_succ _) rfl rfl nofun)
  | countedIn main =>
      refine .inr (counted.mainLoop main ?_ nofun ?_ rfl rfl nofun)
      · change s.chunks + 1 + (0 + s.taskch.buffer.length + s.retch.buffer.length) =
          s.chunks + (1 + s.taskch.buffer.length + s.retch.buffer.length)
        omega
      · simp only [MainLoop.left, List.length_cons]
        omega
  | @handed r t rest main =>
      refine .inr (counted.mainLoop main ?_ nofun le_rfl rfl rfl nofun)
      change s.chunks + (1 + s.taskch.buffer.length + s.retch.buffer.length) =
        s.chunks + (0 + (s.taskch.buffer ++ [t]).length + s.retch.buffer.length)
      rw [List.length_append, List.length_singleton]
      omega
  | @taken r t rest main more found =>
      refine .inr (counted.mainLoop main ?_ nofun (Nat.sub_le _ _) rfl rfl nofun)
      change s.chunks - 1 + (0 + s.taskch.buffer.length + s.retch.buffer.length) =
        s.chunks + (0 + s.taskch.buffer.length + rest.length)
      rw [found, List.length_cons]
      omega
  | allTaken main none_ =>
      exact .inr (counted.mainLoop main rfl (fun _ => none_) le_rfl rfl rfl nofun)
  | written main => exact .inr (counted.mainLoop main rfl nofun le_rfl rfl rfl nofun)
  | fileClosed main =>
      have none_ := counted.between (by rw [main]; rfl)
      rw [main] at total room files
      refine .inr { counted with
        counted := total, between := fun _ => none_, room := room, taskClosed := ?_
        returned := nofun, files := ?_, past := nofun }
      · rw [counted.taskClosed, main]
        rfl
      · rw [← files]
        simp [MainLoop.file]
  | waited main all =>
      have none_ := counted.between (by rw [main]; rfl)
      rw [main] at total room files
      refine .inr { counted with
        counted := total, between := fun _ => none_, room := room, taskClosed := ?_
        returned := fun _ => all, files := files, past := fun _ => ?_ }
      · rw [counted.taskClosed, main]
        rfl
      · exact counted.past (by rw [main]; rfl)
  | @received i t rest found task =>
      refine .inr (counted.worker found nofun nofun ?_)
      change rest.length + 1 + s.retch.buffer.length = s.taskch.buffer.length + 0 + _
      rw [task, List.length_cons]
  | ended found none_ closed => exact .inr (counted.worker found nofun (fun _ => closed) rfl)
  | loaded found => exact .inr (counted.worker found nofun nofun rfl)
  | testedLoad found =>
      have nil : s.err = false := by simpa [keepsChunks] using keeps
      rw [if_neg (by simp [nil])]
      exact .inr (counted.worker found nofun nofun rfl)
  | marshaled found => exact .inr (counted.worker found nofun nofun rfl)
  | testedMarshal found =>
      have nil : s.err = false := by simpa [keepsChunks] using keeps
      rw [if_neg (by simp [nil])]
      exact .inr (counted.worker found nofun nofun rfl)
  | @sent i t found =>
      refine .inr (counted.worker found nofun nofun ?_)
      change s.taskch.buffer.length + 0 + (s.retch.buffer ++ [t]).length =
        s.taskch.buffer.length + 1 + s.retch.buffer.length
      rw [List.length_append, List.length_singleton]
      omega

/-! ### Going on -/

/-- A worker with a chunk can go on, since all results of a file fit into `retch`. -/
theorem busy_goesOn {w : Worker} (counted : Counted entries s) (running : s.exits = false)
    (member : w ∈ s.workers) (busy : w.busy) : ∃ action, (regenProgramStep s action).isSome := by
  obtain ⟨i, worker⟩ := List.mem_iff_getElem?.mp member
  cases w with
  | idle => cases busy
  | ended => cases busy
  | loading t => exact ⟨.load i true, by simp [regenProgramStep, running, RegenState.load, worker]⟩
  | loaded t => exact ⟨.testLoad i, by simp [regenProgramStep, running, RegenState.testLoad, worker]⟩
  | marshaling t =>
      exact ⟨.marshal i true [], by simp [regenProgramStep, running, RegenState.marshal, worker]⟩
  | marshaled t =>
      exact ⟨.testMarshal i, by simp [regenProgramStep, running, RegenState.testMarshal, worker]⟩
  | sending t =>
      have some_ : 0 < s.workers.countP Worker.busy := List.countP_pos_iff.mpr ⟨_, member, busy⟩
      have total := counted.counted
      have room := counted.room
      unfold RegenState.outstanding at total
      have fits : s.retch.buffer.length < s.retch.capacity := by
        rw [counted.retRoom]
        omega
      exact ⟨.send i, by simp [regenProgramStep, running, RegenState.send, worker, Chan.send,
        counted.retOpen, fits]⟩

/-- A worker at its range loop can go on when there is a task or `taskch` was closed. -/
theorem idle_goesOn (running : s.exits = false) (member : .idle ∈ s.workers)
    (task : s.taskch.buffer ≠ [] ∨ s.taskch.closed = true) :
    ∃ action, (regenProgramStep s action).isSome := by
  obtain ⟨i, worker⟩ := List.mem_iff_getElem?.mp member
  refine ⟨.receive i, ?_⟩
  cases found : s.taskch.buffer with
  | nil =>
      have closed := task.resolve_left (absurd found)
      simp [regenProgramStep, running, RegenState.receive, worker, Chan.receive, found, closed]
  | cons t rest => simp [regenProgramStep, running, RegenState.receive, worker, Chan.receive, found]

/-- Someone goes on while the main loop waits for a chunk. -/
theorem waiting_goesOn {r : RegionFile} (counted : Counted entries s) (main : s.main = .waiting r)
    (more : 0 < s.chunks) : ∃ action, (regenProgramStep s action).isSome := by
  have running : s.exits = false := by simp [RegenState.exits, main]
  cases results : s.retch.buffer with
  | cons t rest =>
      exact ⟨.take, by simp [regenProgramStep, running, RegenState.take, main, more, Chan.receive,
        results]⟩
  | nil =>
      by_cases working : ∃ w ∈ s.workers, w.busy
      · obtain ⟨w, member, busy⟩ := working
        exact counted.busy_goesOn running member busy
      · have total := counted.counted
        have none_ : s.workers.countP Worker.busy = 0 :=
          List.countP_eq_zero.mpr fun w member busy => working ⟨w, member, busy⟩
        rw [RegenState.outstanding, main, results, none_] at total
        have tasks : s.taskch.buffer ≠ [] := by
          intro empty
          rw [empty] at total
          simp only [MainLoop.inHand, List.length_nil] at total
          omega
        obtain ⟨w, member⟩ := List.exists_mem_of_ne_nil _ counted.crew
        cases w with
        | idle => exact idle_goesOn running member (.inl tasks)
        | ended =>
            have closed := counted.ended member
            rw [counted.taskClosed, main] at closed
            cases closed
        | _ => exact absurd ⟨_, member, rfl⟩ working

/-- Someone goes on while the main loop waits for its workers. -/
theorem stopping_goesOn (counted : Counted entries s) (main : s.main = .stopping) :
    ∃ action, (regenProgramStep s action).isSome := by
  have running : s.exits = false := by simp [RegenState.exits, main]
  have closed : s.taskch.closed = true := by
    rw [counted.taskClosed, main]
    rfl
  by_cases all : s.workers.all (· = .ended)
  · exact ⟨.wait, by simp [regenProgramStep, running, RegenState.wait, main, all]⟩
  · have total := counted.counted
    rw [counted.between (by rw [main]; rfl), RegenState.outstanding] at total
    have resting : s.workers.countP Worker.busy = 0 := by omega
    rw [Bool.not_eq_true, List.all_eq_false] at all
    obtain ⟨w, member, alive⟩ := all
    have free := List.countP_eq_zero.mp resting w member
    cases w with
    | idle => exact idle_goesOn running member (.inr closed)
    | ended => simp at alive
    | _ => exact absurd rfl free

theorem goesOn (counted : Counted entries s) :
    s.Over ∨ ∃ action next, regenMachine.step s action = some next := by
  have some_ : s.Over ∨ ∃ action, (regenProgramStep s action).isSome := by
    cases main : s.main with
    | returned => exact .inl (.inl main)
    | exited => exact .inl (.inr main)
    | next =>
        refine .inr ⟨.nextEntry true, ?_⟩
        rcases found : s.entries with _ | ⟨_ | _, rest⟩ <;>
          simp [regenProgramStep, RegenState.exits, RegenState.nextEntry, main, found]
    | reading r places =>
        refine .inr ⟨.read none, ?_⟩
        cases places <;> simp [regenProgramStep, RegenState.exits, RegenState.read, main]
    | handing r t places =>
        have isOpen : s.taskch.closed = false := by
          rw [counted.taskClosed, main]
          rfl
        have total := counted.counted
        have room := counted.room
        rw [RegenState.outstanding, main] at total
        rw [main] at room
        simp only [MainLoop.inHand, MainLoop.left] at total room
        have fits : s.taskch.buffer.length < s.taskch.capacity := by
          rw [counted.taskRoom]
          omega
        exact .inr ⟨.hand, by simp [regenProgramStep, RegenState.exits, RegenState.hand, main,
          Chan.send, isOpen, fits]⟩
    | waiting r =>
        by_cases none_ : s.chunks = 0
        · exact .inr ⟨.take, by simp [regenProgramStep, RegenState.exits, RegenState.take, main, none_]⟩
        · exact .inr (counted.waiting_goesOn main (Nat.pos_of_ne_zero none_))
    | writing r t =>
        refine .inr ⟨.write true, ?_⟩
        by_cases short : t.ret.length = 11 <;>
          simp [regenProgramStep, RegenState.exits, RegenState.write, main, short]
    | closing r =>
        exact .inr ⟨.closeFile, by simp [regenProgramStep, RegenState.exits, RegenState.closeFile, main]⟩
    | stopping => exact .inr (counted.stopping_goesOn main)
  exact some_.imp_right fun ⟨action, possible⟩ => ⟨action, Option.isSome_iff_exists.mp possible⟩

/-- With a right counter every file is finished in its turn. -/
theorem finishesFiles (counted : Counted entries s) : FinishesFiles entries s where
  notInVain := by
    rintro ⟨waiting, more, tasks, results, idle⟩
    have total := counted.counted
    have none_ : s.workers.countP Worker.busy = 0 :=
      List.countP_eq_zero.mpr fun w member => by simp [idle w member, Worker.busy]
    have notHeld : s.main.inHand = 0 := by
      cases main : s.main with
      | handing r t rest =>
          rw [main] at waiting
          cases waiting
      | _ => rfl
    rw [RegenState.outstanding, notHeld, tasks, results, none_] at total
    rw [total] at more
    exact absurd more (Nat.lt_irrefl 0)
  goesOn := counted.goesOn
  inTurn _ := ⟨_, by rw [← counted.files, List.append_assoc]⟩
  finished main := by
    have files := counted.files
    rw [main, counted.past (by rw [main]; rfl)] at files
    simpa [MainLoop.file, regions] using files

end Counted

/-! ### Every run ends -/

/-- More than the steps that an entry takes after it was met. -/
def DirEntry.weight : DirEntry → Nat
  | .region _ => 10 * (32 * 32) + 4
  | .other => 1

/-- The steps of a worker, with the ten that a chunk takes spread over its way. -/
def Worker.weight : Worker → Nat
  | .idle => 1
  | .loading _ => 8
  | .loaded _ => 7
  | .marshaling _ => 6
  | .marshaled _ => 5
  | .sending _ => 4
  | .ended => 0

def MainLoop.weight : MainLoop → Nat
  | .next => 2
  | .reading _ rest => 10 * rest.length + 5
  | .handing _ _ rest => 10 * rest.length + 14
  | .waiting _ => 4
  | .writing _ _ => 5
  | .closing _ => 3
  | .stopping => 1
  | .returned | .exited => 0

/-- What is left to do. -/
def RegenState.weight (s : RegenState) : Nat :=
  (s.entries.map DirEntry.weight).sum + s.main.weight + 8 * s.taskch.buffer.length +
    (s.workers.map Worker.weight).sum + 2 * s.retch.buffer.length

/-- A worker that goes on loses weight with what it takes and gives. -/
theorem weight_worker {s : RegenState} {i : Nat} {w w' : Worker}
    {tasks results : List ChunkWithPos} {err : Bool} (found : s.workers[i]? = some w)
    (lighter : 8 * tasks.length + w'.weight + 2 * results.length <
      8 * s.taskch.buffer.length + w.weight + 2 * s.retch.buffer.length) :
    RegenState.weight { s with
      taskch := { s.taskch with buffer := tasks }, retch := { s.retch with buffer := results }
      workers := s.workers.set i w', err := err } < s.weight := by
  have replaced := sum_map_set_of_some (f := Worker.weight) (b := w') found
  simp only [RegenState.weight]
  omega

/-- A worker drops its chunk or goes on with it. -/
theorem weight_test {s : RegenState} {i : Nat} {w w' : Worker} (found : s.workers[i]? = some w)
    (dropped : 1 < w.weight) (kept : w'.weight < w.weight) :
    (s.setWorker i (if s.err then .idle else w')).weight < s.weight := by
  split
  · exact weight_worker found (by simpa [Worker.weight] using dropped)
  · exact weight_worker found (by simpa using kept)

/-- Every step leaves less to do. -/
theorem weight_lt {s next : RegenState} {action : RegenAction}
    (step : regenMachine.step s action = some next) : next.weight < s.weight := by
  cases regenTransition_of_step step with
  | noEntry main _ | notOpened main _ | allTaken main _ | waited main _
  | readAll main | unreadable main | countedIn main
  | empty main | written main | fileClosed main =>
      simp only [RegenState.weight, main, MainLoop.weight, List.length_cons, List.length_nil,
        Chan.close_buffer]
      omega
  | passedOver main found =>
      simp only [RegenState.weight, main, found, MainLoop.weight, DirEntry.weight, List.map_cons,
        List.sum_cons]
      omega
  | @opened r rest main found =>
      have length := sectors_length r
      simp only [RegenState.weight, main, found, MainLoop.weight, DirEntry.weight, List.map_cons,
        List.sum_cons]
      omega
  | handed main =>
      simp only [RegenState.weight, main, MainLoop.weight, List.length_append,
        List.length_singleton]
      omega
  | taken main _ found =>
      simp only [RegenState.weight, main, found, MainLoop.weight, List.length_cons]
      omega
  | @received i t rest found task =>
      refine weight_worker found ?_
      change 8 * rest.length + 8 + 2 * s.retch.buffer.length <
        8 * s.taskch.buffer.length + 1 + 2 * s.retch.buffer.length
      rw [task, List.length_cons]
      omega
  | ended found _ _ => exact weight_worker found (by simp [Worker.weight])
  | loaded found => exact weight_worker found (by simp [Worker.weight])
  | testedLoad found => exact weight_test found (by simp [Worker.weight]) (by simp [Worker.weight])
  | marshaled found => exact weight_worker found (by simp [Worker.weight])
  | testedMarshal found =>
      exact weight_test found (by simp [Worker.weight]) (by simp [Worker.weight])
  | @sent i t found =>
      refine weight_worker found ?_
      change 8 * s.taskch.buffer.length + 1 + 2 * (s.retch.buffer ++ [t]).length <
        8 * s.taskch.buffer.length + 4 + 2 * s.retch.buffer.length
      rw [List.length_append, List.length_singleton]
      omega

/-! ### Runs -/

/-- The process has ended, or the counter is right. -/
def RightUntilExit (entries : List DirEntry) (s : RegenState) : Prop :=
  s.main = .exited ∨ Counted entries s

theorem rightUntilExit_of_run {entries : List DirEntry} {actions : List RegenAction}
    {s : RegenState} (run : regenMachine.Runs (.initial entries) actions s)
    (keeps : regenMachine.StepsOnly (fun s action => keepsChunks s action = true)
      (.initial entries) actions) : RightUntilExit entries s := by
  have preserved : ∀ {s action next}, RightUntilExit entries s → keepsChunks s action = true →
      regenMachine.step s action = some next → RightUntilExit entries next := by
    intro s action next right keeps step
    rcases right with exited | counted
    · simp [regenMachine, regenProgramStep, RegenState.exits, exited] at step
    · exact counted.step keeps (regenTransition_of_step step)
  exact run.invariant preserved keeps (.inr (.initial entries))

/-- The load or the marshalling of the step succeeds. -/
def RegenAction.succeeds : RegenAction → Bool
  | .load _ ok | .marshal _ ok _ => ok
  | _ => true

/-- No chunk is dropped in a run without a failing load or marshalling. -/
theorem keepsChunks_of_succeeds {entries : List DirEntry} {actions : List RegenAction}
    (succeed : regenMachine.StepsOnly (fun _ action => action.succeeds = true)
      (.initial entries) actions) :
    regenMachine.StepsOnly (fun s action => keepsChunks s action = true)
      (.initial entries) actions := by
  intro before action part s reached
  have nil : s.err = false := by
    have sooner : before <+: actions := (List.prefix_append _ _).trans part
    clear part
    induction reached with
    | nil => rfl
    | @snoc earlier s next last prior step inductionHypothesis =>
        have succeeds := succeed earlier last sooner s prior
        have nil := inductionHypothesis ((List.prefix_append _ _).trans sooner)
        cases regenTransition_of_step step with
        | loaded _ => exact congrArg not succeeds
        | marshaled _ => exact congrArg not succeeds
        | _ => exact nil
  cases action <;> simp [keepsChunks, nil]

theorem finishesFiles_of_exited {entries : List DirEntry} {s : RegenState}
    (exited : s.main = .exited) : FinishesFiles entries s where
  notInVain := by
    rintro ⟨waiting, -⟩
    rw [exited] at waiting
    cases waiting
  goesOn := .inl (.inr exited)
  inTurn running := absurd exited running
  finished main := by
    rw [exited] at main
    cases main

/-- In every run in which no worker drops a chunk, the main loop never waits in vain: every file
is finished and closed in its turn, after a bounded number of steps. -/
theorem regen_finishesFiles (entries : List DirEntry) (actions : List RegenAction)
    (final : RegenState) (run : regenMachine.Runs (.initial entries) actions final)
    (keeps : regenMachine.StepsOnly (fun s action => keepsChunks s action = true)
      (.initial entries) actions) :
    regenMachine.ReachesOnly (FinishesFiles entries) (.initial entries) actions ∧
      actions.length ≤ (RegenState.initial entries).weight := by
  refine ⟨fun before part s reached => ?_, ?_⟩
  · rcases rightUntilExit_of_run reached (keeps.of_prefix part) with exited | counted
    · exact finishesFiles_of_exited exited
    · exact counted.finishesFiles
  · have bounded := run.length_le weight_lt
    omega

/-- One region file with one chunk. -/
def oneChunk : List DirEntry := [.region ⟨0, 0, fun x z => x == 0 && z == 0⟩]

/-- The chunk can be read but not loaded: no compression has the number 0. -/
def unloadable : List RegenAction :=
  [.nextEntry true, .read (some [0, 10, 0, 0, 0]), .hand, .read none, .receive 0, .load 0 false,
    .testLoad 0]

/-- The main loop waits for the chunk that was dropped. -/
theorem unloadable_waitsInVain :
    ∃ s, regenMachine.Runs (.initial oneChunk) unloadable s ∧ WaitsInVain s :=
  ⟨_, Machine.runs_exec_get (by decide +kernel), by decide +kernel⟩

/-- An empty compound without compression, and with that of number 1. -/
def plainChunk : List UInt8 := [3, 10, 0, 0, 0]

def gzippedChunk : List UInt8 :=
  [1, 31, 139, 8, 0, 0, 0, 0, 0, 0, 255, 227, 98, 96, 96, 0, 0, 120, 63, 249, 78, 4, 0, 0, 0]

/-- A chunk loaded, marshalled and written back, to the end of the tool. -/
def rewritten : List RegenAction :=
  [.nextEntry true, .read (some plainChunk), .hand, .read none, .receive 0, .load 0 true,
    .testLoad 0, .marshal 0 true gzippedChunk, .testMarshal 0, .send 0, .take, .write false, .take,
    .closeFile, .nextEntry true, .receive 0, .receive 1, .receive 2, .wait]

theorem regen_finishesFiles_rewritten :
    regenMachine.ReachesOnly (FinishesFiles oneChunk) (.initial oneChunk) rewritten ∧
      rewritten.length ≤ (RegenState.initial oneChunk).weight :=
  regen_finishesFiles oneChunk rewritten _ (Machine.runs_exec_get (by decide +kernel))
    (Machine.stepsOnly_of_checkSteps (by decide +kernel))

end WebChunk.Regen
