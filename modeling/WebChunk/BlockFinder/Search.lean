import Mathlib.Tactic.Abel
import WebChunk.Go.Channel
import WebChunk.Semantics.Conservation

/-!
# The block finder

`tools/blockfinder`: the main loop hands the coordinates of all chunks of a dimension to the
workers, which look for portals in the palettes and pass a line for each to the file writer. The
channel of the lines has no buffer, and nobody waits for the file writer.
-/

namespace WebChunk.BlockFinder

open WebChunk.Go WebChunk.Semantics

/-- `xzcoord`. -/
structure XzCoord where
  x : Int
  z : Int
  deriving DecidableEq

/-- The names of the blocks in the palettes of a chunk, section by section. -/
abbrev Palettes := List (List String)

/-- `strings.Contains(b.Name, "portal")`. -/
def isPortal (name : String) : Bool := decide ("portal".toList <:+: name.toList)

/-- The lines for one chunk. -/
def matchesIn (j : XzCoord) (sections : Palettes) : List String :=
  sections.zipIdx.flatMap fun (palette, si) => (palette.filter isPortal).map fun name =>
    "CHUNK x" ++ toString j.x ++ " z" ++ toString j.z ++ " section " ++ toString si ++
      " palette match " ++ name

/-- A line as the file writer writes it. -/
def fileLine (r : String) : String := if "\n".toList <:+ r.toList then r else r ++ "\n"

/-- Where a worker is: before `Acquire`, at its range loop, before `ConnGetChunkByDID`, at
`results <- ..` with the lines that follow, or past its loop. -/
inductive FinderWorker where
  | acquiring
  | idle
  | loading (j : XzCoord)
  | sending (line : String) (rest : List String)
  | done
  deriving DecidableEq

/-- The worker has a connection. It never releases it. -/
def FinderWorker.connected : FinderWorker → Bool
  | .acquiring => false
  | _ => true

/-- A worker with lines to send. -/
def FinderWorker.withLines : List String → FinderWorker
  | [] => .idle
  | line :: rest => .sending line rest

/-- Where the file writer is: before `os.OpenFile`, at its range loop, or with a line. -/
inductive FileWriter where
  | opening
  | idle
  | writing (r : String)
  deriving DecidableEq

/-- Where `main` is: in its loop, at `wg.Wait`, past it, or returned. A failed `must` and a panic
end the process. -/
inductive FinderMain where
  | handing (rest : List XzCoord)
  | waiting
  | leaving
  | returned
  | died
  deriving DecidableEq

/-- `i` and `prevchunks` count for the report of the main loop. -/
structure Finder where
  main : FinderMain
  i : Nat
  prevchunks : Nat
  jobs : Chan XzCoord
  workers : List FinderWorker
  writer : FileWriter
  file : List String

/-- One worker more than `threads` is started. -/
def Finder.initial (threads : Int) (coordlist : List XzCoord) : Finder where
  main := .handing coordlist
  i := 0
  prevchunks := 0
  jobs := .make 64
  workers := List.replicate (threads + 1).toNat .acquiring
  writer := .opening
  file := []

/-- The steps; what a library call returns is part of its step. `elapsed` is the number of whole
seconds since the last report, if this is more than one second ago. -/
inductive FinderAction where
  | hand (elapsed : Option Nat)
  | closeJobs
  | wait
  | leave
  | acquire (i : Nat) (ok : Bool)
  | receive (i : Nat)
  | load (i : Nat) (c : Option Palettes)
  | send (i : Nat)
  | openFile (ok : Bool)
  | write (ok : Bool)

namespace Finder

def setWorker (s : Finder) (i : Nat) (w : FinderWorker) : Finder :=
  { s with workers := s.workers.set i w }

/-- The report after a job was handed over: it divides by the chunks per second. -/
def report (s : Finder) (elapsed : Option Nat) : Finder :=
  match elapsed with
  | none => { s with i := s.i + 1 }
  | some seconds =>
      if (s.i - s.prevchunks) / seconds = 0 then { s with main := .died }
      else { s with prevchunks := s.i, i := s.i + 1 }

/-- `jobs <- coords`. -/
def hand (s : Finder) (elapsed : Option Nat) : Option Finder :=
  match s.main with
  | .handing (coords :: rest) =>
      match s.jobs.send coords with
      | .sent jobs => some ({ s with main := .handing rest, jobs := jobs }.report elapsed)
      | _ => none
  | _ => none

/-- `close(jobs)`. -/
def closeJobs (s : Finder) : Option Finder :=
  match s.main with
  | .handing [] => some { s with main := .waiting, jobs := s.jobs.close }
  | _ => none

/-- `wg.Wait()`. -/
def wait (s : Finder) : Option Finder :=
  match s.main with
  | .waiting => if s.workers.all (· = .done) then some { s with main := .leaving } else none
  | _ => none

/-- `close(results)` and the return of `main`, which ends the process. -/
def leave (s : Finder) : Option Finder :=
  match s.main with
  | .leaving => some { s with main := .returned }
  | _ => none

/-- The connections in use. -/
def conns (s : Finder) : Nat := s.workers.countP FinderWorker.connected

/-- `cs.DBPool.Acquire`, which waits for a connection that is not in use. -/
def acquire (maxConns : Nat) (s : Finder) (i : Nat) (ok : Bool) : Option Finder :=
  match s.workers[i]? with
  | some .acquiring =>
      if s.conns < maxConns then
        some (if ok then s.setWorker i .idle else { s with main := .died })
      else none
  | _ => none

/-- The range loop of a worker, with `wg.Done()` at its end. -/
def receive (s : Finder) (i : Nat) : Option Finder :=
  match s.workers[i]? with
  | some .idle =>
      match s.jobs.receive with
      | .received j jobs => some ({ s with jobs := jobs }.setWorker i (.loading j))
      | .drained => some (s.setWorker i .done)
      | .blocked => none
  | _ => none

/-- `ConnGetChunkByDID`, and the search through the chunk. -/
def load (s : Finder) (i : Nat) (c : Option Palettes) : Option Finder :=
  match s.workers[i]?, c with
  | some (.loading _), none => some { s with main := .died }
  | some (.loading j), some sections =>
      some (s.setWorker i (.withLines (matchesIn j sections)))
  | _, _ => none

/-- `results <- line`, taken by the file writer. -/
def send (s : Finder) (i : Nat) : Option Finder :=
  match s.workers[i]?, s.writer with
  | some (.sending line rest), .idle =>
      some ({ s with writer := .writing line }.setWorker i (.withLines rest))
  | _, _ => none

/-- `os.OpenFile`. -/
def openFile (s : Finder) (ok : Bool) : Option Finder :=
  match s.writer with
  | .opening => some (if ok then { s with writer := .idle } else { s with main := .died })
  | _ => none

/-- `file.WriteString(r)`; its error is ignored. -/
def write (s : Finder) (ok : Bool) : Option Finder :=
  match s.writer with
  | .writing r =>
      some { s with writer := .idle, file := if ok then s.file ++ [fileLine r] else s.file }
  | _ => none

/-- The process has ended. -/
def exited (s : Finder) : Bool :=
  match s.main with
  | .returned | .died => true
  | _ => false

end Finder

def finderStep (maxConns : Nat) (s : Finder) (action : FinderAction) : Option Finder :=
  if s.exited then none
  else
    match action with
    | .hand elapsed => s.hand elapsed
    | .closeJobs => s.closeJobs
    | .wait => s.wait
    | .leave => s.leave
    | .acquire i ok => s.acquire maxConns i ok
    | .receive i => s.receive i
    | .load i c => s.load i c
    | .send i => s.send i
    | .openFile ok => s.openFile ok
    | .write ok => s.write ok

/-- `main` with its workers and the file writer, over a pool of `maxConns` connections. -/
def finder (maxConns : Nat) : Machine Finder FinderAction where
  step := finderStep maxConns

/-- The branches of a step that does not end the process. -/
inductive FinderTransition (maxConns : Nat) (s : Finder) : FinderAction → Finder → Prop where
  | handed {coords : XzCoord} {rest : List XzCoord} {elapsed : Option Nat} {i prevchunks : Nat}
      (main : s.main = .handing (coords :: rest)) (open_ : s.jobs.closed = false) :
      FinderTransition maxConns s (.hand elapsed) { s with
        main := .handing rest, i := i, prevchunks := prevchunks
        jobs := { s.jobs with buffer := s.jobs.buffer ++ [coords] } }
  | closed (main : s.main = .handing []) :
      FinderTransition maxConns s .closeJobs { s with main := .waiting, jobs := s.jobs.close }
  | waited (main : s.main = .waiting) (all : ∀ w ∈ s.workers, w = .done) :
      FinderTransition maxConns s .wait { s with main := .leaving }
  | left (main : s.main = .leaving) :
      FinderTransition maxConns s .leave { s with main := .returned }
  | acquired {i : Nat} (worker : s.workers[i]? = some .acquiring) (free : s.conns < maxConns) :
      FinderTransition maxConns s (.acquire i true) (s.setWorker i .idle)
  | received {i : Nat} {j : XzCoord} {rest : List XzCoord} (worker : s.workers[i]? = some .idle)
      (found : s.jobs.buffer = j :: rest) :
      FinderTransition maxConns s (.receive i)
        ({ s with jobs := { s.jobs with buffer := rest } }.setWorker i (.loading j))
  | ended {i : Nat} (worker : s.workers[i]? = some .idle) (empty : s.jobs.buffer = [])
      (closed : s.jobs.closed = true) :
      FinderTransition maxConns s (.receive i) (s.setWorker i .done)
  | loaded {i : Nat} {j : XzCoord} {sections : Palettes}
      (worker : s.workers[i]? = some (.loading j)) :
      FinderTransition maxConns s (.load i (some sections))
        (s.setWorker i (.withLines (matchesIn j sections)))
  | sent {i : Nat} {line : String} {rest : List String}
      (worker : s.workers[i]? = some (.sending line rest)) (idle : s.writer = .idle) :
      FinderTransition maxConns s (.send i)
        ({ s with writer := .writing line }.setWorker i (.withLines rest))
  | opened (writer : s.writer = .opening) :
      FinderTransition maxConns s (.openFile true) { s with writer := .idle }
  | wrote {r : String} (writer : s.writer = .writing r) :
      FinderTransition maxConns s (.write true)
        { s with writer := .idle, file := s.file ++ [fileLine r] }
  | failed {r : String} (writer : s.writer = .writing r) :
      FinderTransition maxConns s (.write false) { s with writer := .idle }

variable {maxConns : Nat} {s next : Finder} {action : FinderAction}

theorem finderTransition_of_hand {elapsed : Option Nat} (step : s.hand elapsed = some next)
    (lives : next.main ≠ .died) : FinderTransition maxConns s (.hand elapsed) next := by
  unfold Finder.hand at step
  split at step
  · rename_i main
    split at step
    · rename_i sent
      obtain ⟨isOpen, rfl⟩ := Chan.send_sent sent
      cases step
      unfold Finder.report at lives ⊢
      split
      · exact .handed main isOpen
      · split
        · rename_i zero
          exact absurd (by simp [zero]) lives
        · exact .handed main isOpen
    · cases step
  · cases step

/-- Inversion of `finderStep`: it takes one of the branches, or the process dies. -/
theorem finderTransition_of_step (step : finderStep maxConns s action = some next)
    (lives : next.main ≠ .died) : FinderTransition maxConns s action next := by
  unfold finderStep at step
  split at step
  · cases step
  · cases action with
    | hand elapsed => exact finderTransition_of_hand step lives
    | closeJobs =>
        dsimp only [Finder.closeJobs] at step
        split at step
        · rename_i main
          cases step
          exact .closed main
        · cases step
    | wait =>
        dsimp only [Finder.wait] at step
        split at step
        · rename_i main
          split at step
          · rename_i all
            cases step
            exact .waited main (by simpa using all)
          · cases step
        · cases step
    | leave =>
        dsimp only [Finder.leave] at step
        split at step
        · rename_i main
          cases step
          exact .left main
        · cases step
    | acquire i ok =>
        dsimp only [Finder.acquire] at step
        split at step
        · rename_i worker
          split at step
          · rename_i free
            cases step
            cases ok with
            | false => exact absurd rfl lives
            | true => exact .acquired worker free
          · cases step
        · cases step
    | receive i =>
        dsimp only [Finder.receive] at step
        split at step
        · rename_i worker
          split at step
          · rename_i j after received
            obtain ⟨rest, found, rfl⟩ := Chan.receive_takes received
            cases step
            exact .received worker found
          · rename_i drained
            cases step
            exact .ended worker (Chan.buffer_drained drained) (Chan.receive_drained drained)
          · cases step
        · cases step
    | load i c =>
        dsimp only [Finder.load] at step
        split at step
        · cases step
          exact absurd rfl lives
        · rename_i worker
          cases step
          exact .loaded worker
        · cases step
    | send i =>
        dsimp only [Finder.send] at step
        split at step
        · rename_i worker idle
          cases step
          exact .sent worker idle
        · cases step
    | openFile ok =>
        dsimp only [Finder.openFile] at step
        split at step
        · rename_i writer
          cases step
          cases ok with
          | false => exact absurd rfl lives
          | true => exact .opened writer
        · cases step
    | write ok =>
        dsimp only [Finder.write] at step
        split at step
        · rename_i writer
          cases step
          cases ok with
          | false => exact .failed writer
          | true => exact .wrote writer
        · cases step

end WebChunk.BlockFinder
