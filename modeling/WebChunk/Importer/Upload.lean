import WebChunk.Go.Channel
import WebChunk.Semantics.Machine

/-!
# The importer

`importer/main.go`: `sendThreadedHttpChunks` reads the region files of a directory and hands the
chunks over a channel to workers that post them to the server. `wg` counts the workers and the
chunks that are not posted; the channel is never closed, so the workers never end.
-/

namespace WebChunk.Importer

open WebChunk.Go WebChunk.Semantics

abbrev Bytes := List UInt8

/-- `threadscount`. -/
def threadscount : Nat := 8

/-- A worker: at its range loop, or posting a chunk. -/
inductive UploadWorker where
  | idle
  | posting (data : Bytes)
  deriving DecidableEq

/-- The main loop: at the next file, in a region file with the places that follow, before
`c <- data`, or at `wg.Wait`. `log.Fatal` ends the process. -/
inductive UploadMain where
  | files (de : List String)
  | sectors (places : List (Nat × Nat)) (de : List String)
  | handing (data : Bytes) (places : List (Nat × Nat)) (de : List String)
  | waiting
  | returned
  | died
  deriving DecidableEq

structure Upload where
  main : UploadMain
  wg : Nat
  c : Chan Bytes
  workers : List UploadWorker

def Upload.initial (de : List String) : Upload where
  main := .files de
  wg := threadscount
  c := .make (threadscount * 32 * 32)
  workers := List.replicate threadscount .idle

/-- The places of a region file, in the order of the loops over `x` and `z`. -/
def places : List (Nat × Nat) :=
  (List.range 32).flatMap fun x => (List.range 32).map fun z => (x, z)

/-- The steps. `openFile` is told whether the name is that of a region and the file can be opened,
`sector` what `ReadSector` returns for a sector that exists; its error is only logged. -/
inductive UploadAction where
  | openFile (ok : Bool)
  | sector (data : Option Bytes)
  | hand
  | closeFile
  | wait
  | receive (i : Nat)
  | post (i : Nat) (ok : Bool)

namespace Upload

def setWorker (s : Upload) (i : Nat) (w : UploadWorker) : Upload :=
  { s with workers := s.workers.set i w }

/-- The next entry of the directory, or the end of the loop. -/
def openFile (s : Upload) (ok : Bool) : Option Upload :=
  match s.main with
  | .files (_ :: de) => some { s with main := if ok then .sectors places de else .files de }
  | _ => none

/-- `ExistSector`, `ReadSector` and `wg.Add(1)`. -/
def sector (s : Upload) (data : Option Bytes) : Option Upload :=
  match s.main, data with
  | .sectors (_ :: places) de, none => some { s with main := .sectors places de }
  | .sectors (_ :: places) de, some data =>
      some { s with main := .handing data places de, wg := s.wg + 1 }
  | _, _ => none

/-- `c <- data`. -/
def hand (s : Upload) : Option Upload :=
  match s.main with
  | .handing data places de =>
      match s.c.send data with
      | .sent c => some { s with main := .sectors places de, c := c }
      | _ => none
  | _ => none

/-- `r.Close()`. -/
def closeFile (s : Upload) : Option Upload :=
  match s.main with
  | .sectors [] de => some { s with main := .files de }
  | _ => none

/-- `wg.Wait()`, after the loop. -/
def wait (s : Upload) : Option Upload :=
  match s.main with
  | .files [] => some { s with main := .waiting }
  | .waiting => if s.wg = 0 then some { s with main := .returned } else none
  | _ => none

/-- The range loop of a worker. -/
def receive (s : Upload) (i : Nat) : Option Upload :=
  match s.workers[i]? with
  | some .idle =>
      match s.c.receive with
      | .received data c => some ({ s with c := c }.setWorker i (.posting data))
      | _ => none
  | _ => none

/-- `http.Post` with what follows, and `wg.Done()`. -/
def post (s : Upload) (i : Nat) (ok : Bool) : Option Upload :=
  match s.workers[i]? with
  | some (.posting _) =>
      some (if ok then { s with wg := s.wg - 1 }.setWorker i .idle else { s with main := .died })
  | _ => none

end Upload

def uploadStep (s : Upload) (action : UploadAction) : Option Upload :=
  if s.main = .returned ∨ s.main = .died then none
  else
    match action with
    | .openFile ok => s.openFile ok
    | .sector data => s.sector data
    | .hand => s.hand
    | .closeFile => s.closeFile
    | .wait => s.wait
    | .receive i => s.receive i
    | .post i ok => s.post i ok

/-- `sendThreadedHttpChunks` with its workers. -/
def upload : Machine Upload UploadAction where
  step := uploadStep

/-! ### The branches of a step -/

/-- The branches of a step that does not end the process. -/
inductive UploadTransition (s : Upload) : UploadAction → Upload → Prop where
  | opened {d : String} {de : List String} (main : s.main = .files (d :: de)) :
      UploadTransition s (.openFile true) { s with main := .sectors places de }
  | ignored {d : String} {de : List String} (main : s.main = .files (d :: de)) :
      UploadTransition s (.openFile false) { s with main := .files de }
  | noSector {p : Nat × Nat} {places : List (Nat × Nat)} {de : List String}
      (main : s.main = .sectors (p :: places) de) :
      UploadTransition s (.sector none) { s with main := .sectors places de }
  | read {p : Nat × Nat} {places : List (Nat × Nat)} {de : List String} {data : Bytes}
      (main : s.main = .sectors (p :: places) de) :
      UploadTransition s (.sector (some data))
        { s with main := .handing data places de, wg := s.wg + 1 }
  | handed {data : Bytes} {places : List (Nat × Nat)} {de : List String}
      (main : s.main = .handing data places de) (open_ : s.c.closed = false) :
      UploadTransition s .hand
        { s with main := .sectors places de, c := { s.c with buffer := s.c.buffer ++ [data] } }
  | closed {de : List String} (main : s.main = .sectors [] de) :
      UploadTransition s .closeFile { s with main := .files de }
  | looped (main : s.main = .files []) : UploadTransition s .wait { s with main := .waiting }
  | waited (main : s.main = .waiting) (none_ : s.wg = 0) :
      UploadTransition s .wait { s with main := .returned }
  | received {i : Nat} {data : Bytes} {rest : List Bytes} (worker : s.workers[i]? = some .idle)
      (found : s.c.buffer = data :: rest) :
      UploadTransition s (.receive i)
        ({ s with c := { s.c with buffer := rest } }.setWorker i (.posting data))
  | posted {i : Nat} {data : Bytes} (worker : s.workers[i]? = some (.posting data)) :
      UploadTransition s (.post i true) ({ s with wg := s.wg - 1 }.setWorker i .idle)

variable {s next : Upload} {action : UploadAction}

/-- Inversion of `uploadStep`: it takes one of the branches, or a post has failed. -/
theorem uploadTransition_of_step (step : uploadStep s action = some next) :
    UploadTransition s action next ∨
      ∃ (i : Nat) (data : Bytes), s.workers[i]? = some (.posting data) ∧
        next = { s with main := .died } := by
  unfold uploadStep at step
  split at step
  · cases step
  · cases action with
    | openFile ok =>
        dsimp only [Upload.openFile] at step
        split at step
        · rename_i main
          cases step
          cases ok with
          | false => exact .inl (.ignored main)
          | true => exact .inl (.opened main)
        · cases step
    | sector data =>
        cases main : s.main with
        | sectors rest de =>
            cases rest with
            | nil => simp [Upload.sector, main] at step
            | cons p rest =>
                cases data with
                | none =>
                    simp only [Upload.sector, main, Option.some.injEq] at step
                    cases step
                    exact .inl (.noSector main)
                | some data =>
                    simp only [Upload.sector, main, Option.some.injEq] at step
                    cases step
                    exact .inl (.read main)
        | _ => simp [Upload.sector, main] at step
    | hand =>
        dsimp only [Upload.hand] at step
        split at step
        · rename_i main
          split at step
          · rename_i sent
            obtain ⟨isOpen, rfl⟩ := Chan.send_sent sent
            cases step
            exact .inl (.handed main isOpen)
          · cases step
        · cases step
    | closeFile =>
        dsimp only [Upload.closeFile] at step
        split at step
        · rename_i main
          cases step
          exact .inl (.closed main)
        · cases step
    | wait =>
        dsimp only [Upload.wait] at step
        split at step
        · rename_i main
          cases step
          exact .inl (.looped main)
        · rename_i main
          split at step
          · rename_i none_
            cases step
            exact .inl (.waited main none_)
          · cases step
        · cases step
    | receive i =>
        dsimp only [Upload.receive] at step
        split at step
        · rename_i worker
          split at step
          · rename_i received
            obtain ⟨rest, found, rfl⟩ := Chan.receive_takes received
            cases step
            exact .inl (.received worker found)
          · cases step
        · cases step
    | post i ok =>
        dsimp only [Upload.post] at step
        split at step
        · rename_i data worker
          cases ok with
          | false =>
              cases step
              exact .inr ⟨i, data, worker, rfl⟩
          | true =>
              cases step
              exact .inl (.posted worker)
        · cases step

end WebChunk.Importer
