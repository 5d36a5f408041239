import WebChunk.Go.Channel
import WebChunk.Semantics.Machine
import WebChunk.Semantics.Processes

/-!
# The workers of the heightmap tool

`regen` without a cancellation. The main loop reads the chunks of one region file after the
other, counts them and hands them to three workers, then waits for as many results and writes
them back. The workers assign their errors to one variable, that of `os.ReadDir`.
-/

namespace WebChunk.Regen

open WebChunk.Go WebChunk.Semantics

abbrev Bytes := List UInt8

/-- `chunkWithPos`. -/
structure ChunkWithPos where
  x : Nat
  z : Nat
  rx : Int
  rz : Int
  raw : Bytes
  ret : Bytes
  deriving DecidableEq

/-- A region file that can be opened. -/
structure RegionFile where
  rx : Int
  rz : Int
  ExistSector : Nat → Nat → Bool

/-- An entry of the directory: a region file, or one that is passed over, a directory or a file
with another name. -/
inductive DirEntry where
  | region (r : RegionFile)
  | other

/-- The chunks that the two loops find in a region file. -/
def RegionFile.sectors (r : RegionFile) : List (Nat × Nat) :=
  ((List.range 32).flatMap fun x => (List.range 32).map fun z => (x, z)).filter fun place =>
    r.ExistSector place.1 place.2

/-- Where a worker is: at its range loop, or with a task before `c.Load`, before the test of its
error, before `genHeightmap` and `c.Data`, before the test of that error, or at `retch <- t`. -/
inductive Worker where
  | idle
  | loading (t : ChunkWithPos)
  | loaded (t : ChunkWithPos)
  | marshaling (t : ChunkWithPos)
  | marshaled (t : ChunkWithPos)
  | sending (t : ChunkWithPos)
  | ended
  deriving DecidableEq

/-- Where the main loop is: at its range loop, in one of the loops over a file, at
`taskch <- ..`, in front of the select, before `WriteSector`, before `r.Close`, at the last
`wg.Wait`, or at its end. A failed `must` and `os.Exit` end the process. -/
inductive MainLoop where
  | next
  | reading (r : RegionFile) (places : List (Nat × Nat))
  | handing (r : RegionFile) (t : ChunkWithPos) (places : List (Nat × Nat))
  | waiting (r : RegionFile)
  | writing (r : RegionFile) (t : ChunkWithPos)
  | closing (r : RegionFile)
  | stopping
  | returned
  | exited

/-- The two channels, the workers with their error variable, and the main loop with the entries
it has not met yet. `closed` lists the files that were closed. -/
structure RegenState where
  entries : List DirEntry
  main : MainLoop
  chunks : Nat
  taskch : Chan ChunkWithPos
  retch : Chan ChunkWithPos
  workers : List Worker
  err : Bool
  closed : List (Int × Int)

def RegenState.initial (entries : List DirEntry) : RegenState where
  entries := entries
  main := .next
  chunks := 0
  taskch := .make (32 * 32)
  retch := .make (32 * 32)
  workers := List.replicate 3 .idle
  err := false
  closed := []

/-- The steps; what a library call returns is part of its step. -/
inductive RegenAction where
  | nextEntry (opened : Bool)
  | read (raw : Option Bytes)
  | hand
  | take
  | write (ok : Bool)
  | closeFile
  | wait
  | receive (i : Nat)
  | load (i : Nat) (ok : Bool)
  | testLoad (i : Nat)
  | marshal (i : Nat) (ok : Bool) (ret : Bytes)
  | testMarshal (i : Nat)
  | send (i : Nat)

namespace RegenState

def setWorker (s : RegenState) (i : Nat) (w : Worker) : RegenState :=
  { s with workers := s.workers.set i w }

/-- The head of the range loop over the directory. -/
def nextEntry (s : RegenState) (opened : Bool) : Option RegenState :=
  match s.main, s.entries with
  | .next, [] => some { s with main := .stopping, taskch := s.taskch.close }
  | .next, .other :: rest => some { s with entries := rest }
  | .next, .region r :: rest =>
      if opened then
        some { s with entries := rest, main := .reading r r.sectors, chunks := 0 }
      else some { s with main := .exited }
  | _, _ => none

/-- `ReadSector`; a chunk that cannot be read is not counted. -/
def read (s : RegenState) (raw : Option Bytes) : Option RegenState :=
  match s.main with
  | .reading r [] => some { s with main := .waiting r }
  | .reading r ((x, z) :: rest) =>
      match raw with
      | none => some { s with main := .reading r rest }
      | some cd => some { s with
          main := .handing r ⟨x, z, r.rx, r.rz, cd, []⟩ rest, chunks := s.chunks + 1 }
  | _ => none

/-- `taskch <- chunkWithPos{..}`. -/
def hand (s : RegenState) : Option RegenState :=
  match s.main with
  | .handing r t rest =>
      match s.taskch.send t with
      | .sent after => some { s with taskch := after, main := .reading r rest }
      | _ => none
  | _ => none

/-- The loop `for chunks > 0`, and its receive. -/
def take (s : RegenState) : Option RegenState :=
  match s.main with
  | .waiting r =>
      if 0 < s.chunks then
        match s.retch.receive with
        | .received t after =>
            some { s with retch := after, main := .writing r t, chunks := s.chunks - 1 }
        | _ => none
      else some { s with main := .closing r }
  | _ => none

/-- A result of eleven bytes ends the process; a failing `WriteSector` is passed over. -/
def write (s : RegenState) (_ok : Bool) : Option RegenState :=
  match s.main with
  | .writing r t =>
      if t.ret.length = 11 then some { s with main := .exited }
      else some { s with main := .waiting r }
  | _ => none

/-- `r.Close()`. -/
def closeFile (s : RegenState) : Option RegenState :=
  match s.main with
  | .closing r => some { s with main := .next, closed := s.closed ++ [(r.rx, r.rz)] }
  | _ => none

/-- `wg.Wait()` after the last entry. -/
def wait (s : RegenState) : Option RegenState :=
  match s.main with
  | .stopping => if s.workers.all (· = .ended) then some { s with main := .returned } else none
  | _ => none

/-- The range loop of a worker. -/
def receive (s : RegenState) (i : Nat) : Option RegenState :=
  match s.workers[i]? with
  | some .idle =>
      match s.taskch.receive with
      | .received t after => some ({ s with taskch := after }.setWorker i (.loading t))
      | .drained => some (s.setWorker i .ended)
      | .blocked => none
  | _ => none

/-- `err = c.Load(t.raw)`. -/
def load (s : RegenState) (i : Nat) (ok : Bool) : Option RegenState :=
  match s.workers[i]? with
  | some (.loading t) => some ({ s with err := !ok }.setWorker i (.loaded t))
  | _ => none

/-- `if err != nil` after the load: the task is dropped. -/
def testLoad (s : RegenState) (i : Nat) : Option RegenState :=
  match s.workers[i]? with
  | some (.loaded t) => some (s.setWorker i (if s.err then .idle else .marshaling t))
  | _ => none

/-- `genHeightmap(&c)` and `t.ret, err = c.Data(1)`. -/
def marshal (s : RegenState) (i : Nat) (ok : Bool) (ret : Bytes) : Option RegenState :=
  match s.workers[i]? with
  | some (.marshaling t) =>
      some ({ s with err := !ok }.setWorker i (.marshaled { t with ret := ret }))
  | _ => none

/-- `if err != nil` after the marshalling: the task is dropped. -/
def testMarshal (s : RegenState) (i : Nat) : Option RegenState :=
  match s.workers[i]? with
  | some (.marshaled t) => some (s.setWorker i (if s.err then .idle else .sending t))
  | _ => none

/-- `retch <- t`. -/
def send (s : RegenState) (i : Nat) : Option RegenState :=
  match s.workers[i]? with
  | some (.sending t) =>
      match s.retch.send t with
      | .sent after => some ({ s with retch := after }.setWorker i .idle)
      | _ => none
  | _ => none

/-- The process has ended. -/
def exits (s : RegenState) : Bool := match s.main with | .exited => true | _ => false

end RegenState

def regenProgramStep (s : RegenState) (action : RegenAction) : Option RegenState :=
  if s.exits then none
  else
    match action with
    | .nextEntry opened => s.nextEntry opened
    | .read raw => s.read raw
    | .hand => s.hand
    | .take => s.take
    | .write ok => s.write ok
    | .closeFile => s.closeFile
    | .wait => s.wait
    | .receive i => s.receive i
    | .load i ok => s.load i ok
    | .testLoad i => s.testLoad i
    | .marshal i ok ret => s.marshal i ok ret
    | .testMarshal i => s.testMarshal i
    | .send i => s.send i

/-- The tool as a machine. -/
def regenMachine : Machine RegenState RegenAction where
  step := regenProgramStep

end WebChunk.Regen
