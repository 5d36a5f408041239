import WebChunk.Regen.Workers

/-!
# What a step of the heightmap tool does

Every step as one case, with what it finds and what it leaves.
-/

namespace WebChunk.Regen

open WebChunk.Go

/-- The steps of the main loop and the workers, one constructor for each branch. -/
inductive RegenTransition (s : RegenState) : RegenAction → RegenState → Prop where
  | noEntry {opened : Bool} (main : s.main = .next) (none_ : s.entries = []) :
      RegenTransition s (.nextEntry opened) { s with main := .stopping, taskch := s.taskch.close }
  | passedOver {opened : Bool} {rest : List DirEntry} (main : s.main = .next)
      (found : s.entries = .other :: rest) :
      RegenTransition s (.nextEntry opened) { s with entries := rest }
  | opened {r : RegionFile} {rest : List DirEntry} (main : s.main = .next)
      (found : s.entries = .region r :: rest) :
      RegenTransition s (.nextEntry true)
        { s with entries := rest, main := .reading r r.sectors, chunks := 0 }
  | notOpened {r : RegionFile} {rest : List DirEntry} (main : s.main = .next)
      (found : s.entries = .region r :: rest) :
      RegenTransition s (.nextEntry false) { s with main := .exited }
  | readAll {raw : Option Bytes} {r : RegionFile} (main : s.main = .reading r []) :
      RegenTransition s (.read raw) { s with main := .waiting r }
  | unreadable {r : RegionFile} {place : Nat × Nat} {rest : List (Nat × Nat)}
      (main : s.main = .reading r (place :: rest)) :
      RegenTransition s (.read none) { s with main := .reading r rest }
  | countedIn {cd : Bytes} {r : RegionFile} {x z : Nat} {rest : List (Nat × Nat)}
      (main : s.main = .reading r ((x, z) :: rest)) :
      RegenTransition s (.read (some cd))
        { s with main := .handing r ⟨x, z, r.rx, r.rz, cd, []⟩ rest, chunks := s.chunks + 1 }
  | handed {r : RegionFile} {t : ChunkWithPos} {rest : List (Nat × Nat)}
      (main : s.main = .handing r t rest) :
      RegenTransition s .hand { s with
        main := .reading r rest, taskch := { s.taskch with buffer := s.taskch.buffer ++ [t] } }
  | taken {r : RegionFile} {t : ChunkWithPos} {rest : List ChunkWithPos}
      (main : s.main = .waiting r) (more : 0 < s.chunks) (found : s.retch.buffer = t :: rest) :
      RegenTransition s .take { s with
        main := .writing r t, chunks := s.chunks - 1, retch := { s.retch with buffer := rest } }
  | allTaken {r : RegionFile} (main : s.main = .waiting r) (none_ : s.chunks = 0) :
      RegenTransition s .take { s with main := .closing r }
  | empty {ok : Bool} {r : RegionFile} {t : ChunkWithPos} (main : s.main = .writing r t) :
      RegenTransition s (.write ok) { s with main := .exited }
  | written {ok : Bool} {r : RegionFile} {t : ChunkWithPos} (main : s.main = .writing r t) :
      RegenTransition s (.write ok) { s with main := .waiting r }
  | fileClosed {r : RegionFile} (main : s.main = .closing r) :
      RegenTransition s .closeFile { s with main := .next, closed := s.closed ++ [(r.rx, r.rz)] }
  | waited (main : s.main = .stopping) (all : ∀ w ∈ s.workers, w = .ended) :
      RegenTransition s .wait { s with main := .returned }
  | received {i : Nat} {t : ChunkWithPos} {rest : List ChunkWithPos}
      (worker : s.workers[i]? = some .idle) (found : s.taskch.buffer = t :: rest) :
      RegenTransition s (.receive i)
        ({ s with taskch := { s.taskch with buffer := rest } }.setWorker i (.loading t))
  | ended {i : Nat} (worker : s.workers[i]? = some .idle) (none_ : s.taskch.buffer = [])
      (closed : s.taskch.closed = true) :
      RegenTransition s (.receive i) (s.setWorker i .ended)
  | loaded {i : Nat} {ok : Bool} {t : ChunkWithPos} (worker : s.workers[i]? = some (.loading t)) :
      RegenTransition s (.load i ok) ({ s with err := !ok }.setWorker i (.loaded t))
  | testedLoad {i : Nat} {t : ChunkWithPos} (worker : s.workers[i]? = some (.loaded t)) :
      RegenTransition s (.testLoad i) (s.setWorker i (if s.err then .idle else .marshaling t))
  | marshaled {i : Nat} {ok : Bool} {ret : Bytes} {t : ChunkWithPos}
      (worker : s.workers[i]? = some (.marshaling t)) :
      RegenTransition s (.marshal i ok ret)
        ({ s with err := !ok }.setWorker i (.marshaled { t with ret := ret }))
  | testedMarshal {i : Nat} {t : ChunkWithPos} (worker : s.workers[i]? = some (.marshaled t)) :
      RegenTransition s (.testMarshal i) (s.setWorker i (if s.err then .idle else .sending t))
  | sent {i : Nat} {t : ChunkWithPos} (worker : s.workers[i]? = some (.sending t)) :
      RegenTransition s (.send i) ({ s with
        retch := { s.retch with buffer := s.retch.buffer ++ [t] } }.setWorker i .idle)

variable {s next : RegenState}

theorem regenTransition_of_nextEntry {opened : Bool} (step : s.nextEntry opened = some next) :
    RegenTransition s (.nextEntry opened) next := by
  unfold RegenState.nextEntry at step
  split at step
  · rename_i main none_
    cases step
    exact .noEntry main none_
  · rename_i main found
    cases step
    exact .passedOver main found
  · rename_i main found
    split at step
    · rename_i yes
      cases step
      subst yes
      exact .opened main found
    · rename_i no
      cases step
      rw [Bool.not_eq_true] at no
      subst no
      exact .notOpened main found
  · cases step

theorem regenTransition_of_read {raw : Option Bytes} (step : s.read raw = some next) :
    RegenTransition s (.read raw) next := by
  unfold RegenState.read at step
  split at step
  · rename_i main
    cases step
    exact .readAll main
  · rename_i main
    split at step
    · cases step
      exact .unreadable main
    · cases step
      exact .countedIn main
  · cases step

theorem regenTransition_of_hand (step : s.hand = some next) : RegenTransition s .hand next := by
  unfold RegenState.hand at step
  split at step
  · rename_i main
    split at step
    · rename_i sent
      cases step
      rw [(Chan.send_sent sent).2]
      exact .handed main
    · cases step
  · cases step

theorem regenTransition_of_take (step : s.take = some next) : RegenTransition s .take next := by
  unfold RegenState.take at step
  split at step
  · rename_i main
    split at step
    · rename_i more
      split at step
      · rename_i t after received
        cases step
        obtain ⟨rest, found, rfl⟩ := Chan.receive_takes received
        exact .taken main more found
      · cases step
    · rename_i none_
      cases step
      exact .allTaken main (Nat.eq_zero_of_not_pos none_)
  · cases step

theorem regenTransition_of_write {ok : Bool} (step : s.write ok = some next) :
    RegenTransition s (.write ok) next := by
  unfold RegenState.write at step
  split at step
  · rename_i main
    split at step
    · cases step
      exact .empty main
    · cases step
      exact .written main
  · cases step

theorem regenTransition_of_wait (step : s.wait = some next) : RegenTransition s .wait next := by
  unfold RegenState.wait at step
  split at step
  · rename_i main
    split at step
    · rename_i all
      cases step
      exact .waited main (by simpa using all)
    · cases step
  · cases step

theorem regenTransition_of_receive {i : Nat} (step : s.receive i = some next) :
    RegenTransition s (.receive i) next := by
  unfold RegenState.receive at step
  split at step
  · rename_i worker
    split at step
    · rename_i t after received
      cases step
      obtain ⟨rest, found, rfl⟩ := Chan.receive_takes received
      exact .received worker found
    · rename_i drained
      cases step
      exact .ended worker (Chan.buffer_drained drained) (Chan.receive_drained drained)
    · cases step
  · cases step

theorem regenTransition_of_send {i : Nat} (step : s.send i = some next) :
    RegenTransition s (.send i) next := by
  unfold RegenState.send at step
  split at step
  · rename_i worker
    split at step
    · rename_i sent
      cases step
      rw [(Chan.send_sent sent).2]
      exact .sent worker
    · cases step
  · cases step

/-- Inversion of `regenProgramStep`: it takes one of the branches. -/
theorem regenTransition_of_step {action : RegenAction}
    (step : regenProgramStep s action = some next) : RegenTransition s action next := by
  unfold regenProgramStep at step
  split at step
  · cases step
  · cases action with
    | nextEntry opened => exact regenTransition_of_nextEntry step
    | read raw => exact regenTransition_of_read step
    | hand => exact regenTransition_of_hand step
    | take => exact regenTransition_of_take step
    | write ok => exact regenTransition_of_write step
    | closeFile =>
        dsimp only [RegenState.closeFile] at step
        split at step
        · rename_i main
          cases step
          exact .fileClosed main
        · cases step
    | wait => exact regenTransition_of_wait step
    | receive i => exact regenTransition_of_receive step
    | load i ok =>
        dsimp only [RegenState.load] at step
        split at step
        · rename_i worker
          cases step
          exact .loaded worker
        · cases step
    | testLoad i =>
        dsimp only [RegenState.testLoad] at step
        split at step
        · rename_i worker
          cases step
          exact .testedLoad worker
        · cases step
    | marshal i ok ret =>
        dsimp only [RegenState.marshal] at step
        split at step
        · rename_i worker
          cases step
          exact .marshaled worker
        · cases step
    | testMarshal i =>
        dsimp only [RegenState.testMarshal] at step
        split at step
        · rename_i worker
          cases step
          exact .testedMarshal worker
        · cases step
    | send i => exact regenTransition_of_send step

end WebChunk.Regen
