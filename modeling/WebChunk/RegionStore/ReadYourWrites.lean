import WebChunk.RegionStore.Once

/-!
# Reading back what was written

A set that returned without error should have its data in the region file, and a
later get should return it. Whoever answers `nil` decides: the worker after a write,
or the router and a starting worker without one. `keepsWrites` excludes the latter.
-/

namespace WebChunk.RegionStore

open WebChunk.Go WebChunk.Semantics

/-- The content of the region files at the chunk that a request names. -/
def chunkContent (cfg : Config) (files : Files) (r : RegionRequest) : Option Bytes :=
  files.read (cfg.getRegionPath r.locator) r.sector

/-- A call that came back with an error, or with these bytes. -/
def Return.honest (dat : Bytes) : Return → Prop
  | .failed _ | .noResponse => True
  | .bytes d => d = dat
  | _ => False

/-- No other set of the chunk runs concurrently with call `id` or after it. -/
def Unrivalled (s : State) (id : Nat) (c : Call) (wname dname : String) (cx cz : Int) : Prop :=
  ∀ (other : Nat) (c' : Call) (dat : Bytes), s.calls[other]? = some c' →
    c'.call = .addChunkRaw wname dname cx cz dat → other ≠ id →
    ∃ ret ended, c'.phase = .returned ret ended ∧ ended < c.invokedAt

/-- After a set without rivals has returned without error, the region file holds its
data, and every get that starts later and returns without error returns them. -/
def ReadYourWrites (cfg : Config) (s : State) : Prop :=
  ∀ (id : Nat) (c : Call) (wname dname : String) (cx cz : Int) (dat : Bytes) (ended : Nat),
    s.calls[id]? = some c → c.call = .addChunkRaw wname dname cx cz dat →
    c.phase = .returned .ok ended → Unrivalled s id c wname dname cx cz →
    chunkContent cfg s.files (c.call.request id) = some dat ∧
    ∀ (reader : Nat) (g : Call) (ret : Return) (later : Nat), s.calls[reader]? = some g →
      g.call = .getChunkRaw wname dname cx cz → ended < g.invokedAt →
      g.phase = .returned ret later → ret.honest dat

/-- What is assumed of the region library: `Open` fails with `ErrNotExist` exactly when
the file is absent, and `ReadSector` reads back what the file holds. -/
def libraryFaithful (cfg : Config) (s : State) : Action → Bool
  | .workerCall i answer =>
      (s.workers[i]?).all fun worker =>
        let path := cfg.getRegionPath worker.loc
        match worker.phase, answer with
        | .opening _, .opened (.ok ()) => (s.files path).isSome
        | .opening _, .opened (.error err) => (err == .notExist) == (s.files path).isNone
        | .processing r, .read (.ok d) => s.files.read path r.sector == some d
        | .processing r, .read (.error err) =>
            !err.isAbsentChunk || (s.files.read path r.sector).isNone
        | _, _ => true
  | _ => true

/-- The request is a set, or a get of a chunk that the region file holds. -/
def needsFile (cfg : Config) (s : State) (r : RegionRequest) : Bool :=
  r.op == .setChunk || r.op == .getChunk && (chunkContent cfg s.files r).isSome

/-- The steps which keep writes: a set, or a get of a stored chunk, does not meet a
region marked as not existing or a region file that is there but cannot be opened; a
file is created only while it is absent; and two regions in use have two paths. -/
def keepsWrites (cfg : Config) (s : State) : Action → Bool
  | .invoke call =>
      s.calls.all fun c =>
        let mine := (call.request 0).locator
        let its := (c.call.request 0).locator
        !(call.isChunk && c.call.isChunk) || cfg.getRegionPath mine != cfg.getRegionPath its ||
          mine == its
  | .routerSchedule _ =>
      match s.router with
      | .scheduling loc _ r => (s.w.get loc).all fun entry => entry.existing || !needsFile cfg s r
      | _ => true
  | .workerCall i answer =>
      (s.workers[i]?).all fun worker =>
        match worker.phase, answer with
        | .opening initial, .opened (.error err) => err == .notExist || !needsFile cfg s initial
        | .creating _, .created (.ok ()) => (s.files (cfg.getRegionPath worker.loc)).isNone
        | _, _ => true
  | _ => true

/-! ### Which region file a request is about -/

theorem ClientCall.request_locator (id : Nat) (call : ClientCall) :
    (call.request id).locator = (call.request 0).locator := by
  cases call <;> rfl

/-- Calls about one chunk whose regions share a path are about the same region. -/
def PathsApart (cfg : Config) (s : State) : Prop :=
  ∀ (id other : Nat) (c c' : Call), s.calls[id]? = some c → s.calls[other]? = some c' →
    c.call.isChunk = true → c'.call.isChunk = true →
    cfg.getRegionPath (c.call.request 0).locator = cfg.getRegionPath (c'.call.request 0).locator →
    (c.call.request 0).locator = (c'.call.request 0).locator

/-- Times of calls lie in the past. -/
def Dated (s : State) : Prop :=
  ∀ (id : Nat) (c : Call), s.calls[id]? = some c → c.call.isChunk = true →
    c.invokedAt < s.clock ∧ ∀ ret ended, c.phase = .returned ret ended → ended < s.clock

/-- The clock does not run backwards. -/
theorem clock_of_flow {cfg : Config} {s next : State} {action : Action}
    (flow : Flow cfg s action next) : s.clock ≤ next.clock := by
  cases flow with
  | moves _ clock _ _ => exact clock
  | invokes _ _ clock _ _ | returns _ _ _ _ _ _ clock _ _ =>
      rw [clock]
      exact Nat.le_succ _
  | sends _ _ _ _ clock _ _ | ignores _ _ _ _ _ _ clock _ _ | answers _ _ _ clock _ _
  | creates _ _ _ clock _ _ | panics _ _ clock _ _ => exact clock.ge

theorem Dated.preserved {cfg : Config} {s next : State} {action : Action} (dated : Dated s)
    (flow : Flow cfg s action next) : Dated next := by
  intro id after stored single
  have forward := clock_of_flow flow
  rcases call_of_flow flow stored single with ⟨c, old, step⟩ | ⟨_, _, new, clock⟩
  · obtain ⟨invoked, ended⟩ := dated id c old (step.call ▸ single)
    refine ⟨?_, fun ret last phase => ?_⟩
    · rw [step.invokedAt]
      exact Nat.lt_of_lt_of_le invoked forward
    · cases step with
      | returns _ _ _ clock _ =>
          cases phase
          omega
      | sends _ => cases phase
      | same | ignores _ _ | answers _ => exact Nat.lt_of_lt_of_le (ended ret last phase) forward
  · rw [new]
    refine ⟨by simp [clock], fun ret last phase => ?_⟩
    cases phase

theorem PathsApart.preserved {cfg : Config} {s next : State} {action : Action}
    (apart : PathsApart cfg s) (keeps : keepsWrites cfg s action = true)
    (flow : Flow cfg s action next) : PathsApart cfg next := by
  -- The call that the step made, against a call that was there.
  have fresh : ∀ {call : ClientCall} {other : Nat} {c : Call}, action = .invoke call →
      s.calls[other]? = some c → call.isChunk = true → c.call.isChunk = true →
      cfg.getRegionPath (call.request 0).locator = cfg.getRegionPath (c.call.request 0).locator →
      (call.request 0).locator = (c.call.request 0).locator := by
    intro call other c invoked old single single' path
    subst invoked
    simp only [keepsWrites, List.all_eq_true] at keeps
    have kept := keeps c (List.mem_of_getElem? old)
    simpa [single, single', path] using kept
  intro id other after after' stored stored' single single' path
  rcases call_of_flow flow stored single with ⟨c, old, step⟩ | ⟨index, invoked, _⟩ <;>
  rcases call_of_flow flow stored' single' with ⟨c', old', step'⟩ | ⟨index', invoked', _⟩
  · rw [step.call] at single path ⊢
    rw [step'.call] at single' path ⊢
    exact apart id other c c' old old' single single' path
  · rw [step.call] at single path ⊢
    exact (fresh invoked' old single' single path.symm).symm
  · rw [step'.call] at single' path ⊢
    exact fresh invoked old' single single' path
  · rw [index, ← index', stored'] at stored
    cases stored
    rfl

/-! ### What an answer says about the region file -/

/-- Where a worker is when it has done with a request. -/
theorem regionWorker_done {cfg : Config} {loc : RegionLocator} {files : Files}
    {phase : WorkerPhase} {answer : LibraryAnswer} {move : WorkerMove} {r : RegionRequest}
    (moves : regionWorker cfg loc files phase answer = some move)
    (inHand : phase.inHand = some r) (done : move.phase.inHand = none) :
    (∃ err, phase = .opening r ∧ answer = .opened (.error err) ∧
        ¬ (err = .notExist ∧ r.op = .setChunk) ∧ move.replies = [.nil] ∧ move.files = files) ∨
    (∃ err, phase = .creating r ∧ move.replies = [.error err] ∧ move.files = files) ∨
    phase = .processing r ∧ processRequest cfg loc r files answer = some move := by
  unfold regionWorker at moves
  split at moves
  · rename_i initial result
    cases moves
    cases inHand
    rcases result with err | _
    · by_cases creates : err = .notExist ∧ r.op = .setChunk
      · obtain ⟨rfl, set⟩ := creates
        simp [openRegion, set, WorkerPhase.inHand] at done
      · have fails : openRegion r files (.error err) = ⟨.reporting err false, [.nil], files⟩ := by
          cases err <;> simp_all [openRegion]
        exact .inl ⟨err, rfl, rfl, creates, by rw [fails], by rw [fails]⟩
    · cases done
  · rename_i initial result
    cases moves
    cases inHand
    rcases result with err | _
    · exact .inr (.inl ⟨err, rfl, rfl, rfl⟩)
    · cases done
  · cases inHand
    exact .inr (.inr ⟨rfl, moves⟩)
  · cases moves

/-- `processRequest` for a set: the write went through, or it failed without a value
for the caller. -/
theorem processRequest_set {cfg : Config} {loc : RegionLocator} {files : Files}
    {answer : LibraryAnswer} {move : WorkerMove} {r : RegionRequest}
    (moves : processRequest cfg loc r files answer = some move) (set : r.op = .setChunk) :
    (move.replies = [.nil] ∧
        move.files = files.write (cfg.getRegionPath loc) r.sector (some r.data)) ∨
      move.replies = [] ∧
        ∃ left, move.files = files.write (cfg.getRegionPath loc) r.sector left := by
  rcases answer with _ | _ | _ | (⟨err, left⟩ | _) | _ | _ <;>
    simp only [processRequest, set, reduceCtorEq, Option.some.injEq] at moves
  · cases moves
    exact .inr ⟨rfl, left, rfl⟩
  · cases moves
    exact .inl ⟨rfl, rfl⟩

/-- `processRequest` for a get: what was read, `nil` for an absent chunk, or nothing. -/
theorem processRequest_get {cfg : Config} {loc : RegionLocator} {files : Files}
    {answer : LibraryAnswer} {move : WorkerMove} {r : RegionRequest}
    (moves : processRequest cfg loc r files answer = some move) (get : r.op = .getChunk) :
    (∃ d, answer = .read (.ok d) ∧ move.replies = [.bytes d]) ∨
      (∃ err, answer = .read (.error err) ∧ err.isAbsentChunk = true ∧ move.replies = [.nil]) ∨
      move.replies = [] := by
  rcases answer with _ | _ | _ | _ | (err | d) | _ <;>
    simp only [processRequest, get, reduceCtorEq, Option.some.injEq] at moves
  · split at moves <;> cases moves
    · exact .inr (.inl ⟨err, rfl, by assumption, rfl⟩)
    · exact .inr (.inr rfl)
  · cases moves
    exact .inl ⟨d, rfl, rfl⟩

/-- Only a set changes a region file that exists, and only at its own place. -/
theorem processRequest_files {cfg : Config} {loc : RegionLocator} {files : Files}
    {answer : LibraryAnswer} {move : WorkerMove} {r : RegionRequest}
    (moves : processRequest cfg loc r files answer = some move) :
    move.files = files ∨ r.op = .setChunk ∧
      ∃ left, move.files = files.write (cfg.getRegionPath loc) r.sector left := by
  by_cases set : r.op = .setChunk
  · rcases processRequest_set moves set with ⟨_, written⟩ | ⟨_, left, written⟩
    · exact .inr ⟨set, _, written⟩
    · exact .inr ⟨set, left, written⟩
  · unfold processRequest at moves
    split at moves
    case h_2 op | h_3 op => exact absurd op set
    case h_4 => split at moves <;> cases moves <;> exact .inl rfl
    all_goals cases moves <;> exact .inl rfl

section Answers

variable {cfg : Config} {s : State} {action : Action} {r : RegionRequest} {replies : List Reply}
  {files : Files}

/-- Whoever answers, only a set changes a file, and only at its own place. -/
theorem files_answer (answer : Answer cfg s action r replies files) :
    files = s.files ∨ r.op = .setChunk ∧
      ∃ left, files = s.files.write (cfg.getRegionPath r.locator) r.sector left := by
  cases answer with
  | byRouter _ _ _ | byDrain => exact .inl rfl
  | byCall _ inHand region moves done =>
      rw [region]
      rcases regionWorker_done moves inHand done with
        ⟨_, _, _, _, _, same⟩ | ⟨_, _, _, same⟩ | ⟨_, processed⟩
      · exact .inl same
      · exact .inl same
      · exact processRequest_files processed

/-- Under the condition a set gets `nil` only from the write of its data. -/
theorem nil_answer_set (answer : Answer cfg s action r replies files)
    (keeps : keepsWrites cfg s action = true) (set : r.op = .setChunk) (success : .nil ∈ replies) :
    files = s.files.write (cfg.getRegionPath r.locator) r.sector (some r.data) := by
  cases answer with
  | byRouter inHand entered missing =>
      simp [keepsWrites, inHand, entered, missing, needsFile, set] at keeps
  | byDrain => simp at success
  | byCall found inHand region moves done =>
      rw [region]
      rcases regionWorker_done moves inHand done with
        ⟨err, phase, rfl, refused, _, _⟩ | ⟨err, _, failed, _⟩ | ⟨_, processed⟩
      · have known : err = .notExist := by
          simpa [keepsWrites, found, phase, needsFile, set] using keeps
        exact absurd ⟨known, set⟩ refused
      · simp [failed] at success
      · rcases processRequest_set processed set with ⟨_, written⟩ | ⟨silent, _⟩
        · exact written
        · simp [silent] at success

/-- Under the condition a get of a stored chunk gets its content or an error. -/
theorem honest_answer_get (answer : Answer cfg s action r replies files)
    (faithful : libraryFaithful cfg s action = true) (keeps : keepsWrites cfg s action = true)
    (get : r.op = .getChunk) {dat : Bytes} (stored : chunkContent cfg s.files r = some dat)
    {reply : Reply} (member : reply ∈ replies) :
    reply = .bytes dat ∨ ∃ err, reply = .error err := by
  cases answer with
  | byRouter inHand entered missing =>
      simp [keepsWrites, inHand, entered, missing, needsFile, get, stored] at keeps
  | byDrain => exact .inr ⟨_, List.mem_singleton.mp member⟩
  | @byCall i answer worker move r found inHand region moves done =>
      rw [chunkContent, region] at stored
      rcases regionWorker_done moves inHand done with
        ⟨err, phase, rfl, _, _, _⟩ | ⟨err, _, failed, _⟩ | ⟨phase, processed⟩
      · -- The file is there, so a failing `Open` is one the condition excludes.
        have present : s.files (cfg.getRegionPath worker.loc) ≠ none := by
          intro absent
          simp [Files.read, absent] at stored
        have known : err = .notExist := by
          simpa [keepsWrites, found, phase, needsFile, get, chunkContent, region, stored] using keeps
        simp [libraryFaithful, found, phase, known, present] at faithful
      · rw [failed] at member
        exact .inr ⟨err, List.mem_singleton.mp member⟩
      · rcases processRequest_get processed get with
          ⟨d, rfl, read⟩ | ⟨err, rfl, absent, _⟩ | silent
        · rw [read] at member
          have same : some dat = some d := by
            simpa [libraryFaithful, found, phase, stored] using faithful
          cases same
          exact .inl (List.mem_singleton.mp member)
        · simp [libraryFaithful, found, phase, absent, stored] at faithful
        · simp [silent] at member

end Answers

/-! ### The invariant -/

/-- A set that was told `nil`. -/
def Call.toldNil (c : Call) : Prop :=
  .nil ∈ c.replies ∨ ∃ ended, c.phase = .returned .ok ended

/-- A get that, now or later, returns an error or these bytes. -/
structure Call.honest (dat : Bytes) (g : Call) : Prop where
  unread : ∀ reply ∈ g.replies, ∀ ret, g.call.receive reply = .returns ret → ret.honest dat
  returned : ∀ ret later, g.phase = .returned ret later → ret.honest dat

/-- A set without rivals that was told `nil` has its data in the region file; once it
has returned, the gets that start later are honest. -/
def Kept (cfg : Config) (s : State) : Prop :=
  ∀ (id : Nat) (c : Call) (wname dname : String) (cx cz : Int) (dat : Bytes),
    s.calls[id]? = some c → c.call = .addChunkRaw wname dname cx cz dat →
    Unrivalled s id c wname dname cx cz →
    (c.toldNil → chunkContent cfg s.files (c.call.request id) = some dat) ∧
    ∀ ended, c.phase = .returned .ok ended → ∀ (reader : Nat) (g : Call),
      s.calls[reader]? = some g → g.call = .getChunkRaw wname dname cx cz →
      ended < g.invokedAt → g.honest dat

/-- The whole invariant of the runs that keep writes. -/
structure WritesKept (cfg : Config) (s : State) : Prop where
  placed : s.Placed
  once : AtMostOnce s
  dated : Dated s
  apart : PathsApart cfg s
  kept : Kept cfg s

/-- A call that is still there when a step has been taken. -/
theorem call_later {cfg : Config} {s next : State} {action : Action}
    (extension : Extends s.calls next.calls) (flow : Flow cfg s action next) {id : Nat} {c : Call}
    (found : s.calls[id]? = some c) (single : c.call.isChunk = true) :
    ∃ after, next.calls[id]? = some after ∧ CallStep cfg s action next id c after := by
  obtain ⟨after, stored, same⟩ := extension id c found
  rcases call_of_flow flow stored (same ▸ single) with ⟨c', old, step⟩ | ⟨index, _⟩
  · cases found.symm.trans old
    exact ⟨after, stored, step⟩
  · rw [index] at found
    simp at found

/-- A call without rivals after a step had none before it. -/
theorem Unrivalled.before {cfg : Config} {s next : State} {action : Action} (dated : Dated s)
    (extension : Extends s.calls next.calls) (flow : Flow cfg s action next) {id : Nat}
    {c after : Call} {wname dname : String} {cx cz : Int} (found : s.calls[id]? = some c)
    (single : c.call.isChunk = true) (step : CallStep cfg s action next id c after)
    (unrivalled : Unrivalled next id after wname dname cx cz) :
    Unrivalled s id c wname dname cx cz := by
  intro other c' dat old call different
  have single' : c'.call.isChunk = true := by rw [call]; rfl
  obtain ⟨after', stored, step'⟩ := call_later extension flow old single'
  obtain ⟨ret, ended, phase, before⟩ :=
    unrivalled other after' dat stored (step'.call.trans call) different
  rw [step.invokedAt] at before
  have invoked := (dated id c found single).1
  cases step' with
  | returns _ _ _ _ _ =>
      cases phase
      omega
  | sends _ => cases phase
  | same | ignores _ _ | answers _ => exact ⟨ret, ended, phase, before⟩

/-- Requests about one place of one file are about one chunk. -/
theorem same_chunk {cfg : Config} {s : State} (apart : PathsApart cfg s) {id other : Nat}
    {c c' : Call} {wname dname : String} {cx cz : Int} {dat : Bytes}
    (found : s.calls[id]? = some c) (found' : s.calls[other]? = some c')
    (call : c.call = .addChunkRaw wname dname cx cz dat) (single' : c'.call.isChunk = true)
    (set : (c'.call.request other).op = .setChunk)
    (path : cfg.getRegionPath (c.call.request id).locator =
      cfg.getRegionPath (c'.call.request other).locator)
    (sector : (c.call.request id).sector = (c'.call.request other).sector) :
    ∃ dat', c'.call = .addChunkRaw wname dname cx cz dat' := by
  rw [ClientCall.request_locator id, ClientCall.request_locator other] at path
  have region := apart id other c c' found found' (by rw [call]; rfl) single' path
  cases call' : c'.call with
  | addChunkRaw wname' dname' cx' cz' dat' =>
      rw [call, call'] at region sector
      simp only [RegionRequest.locator, ClientCall.request, RegionLocator.mk.injEq] at region
      obtain ⟨rfl, rfl, rx, rz⟩ := region
      obtain ⟨rfl, rfl⟩ := regionAt_regionIn_injective (Prod.ext rx rz) sector
      exact ⟨dat', rfl⟩
  | _ =>
      rw [call'] at set
      cases set

theorem read_write (files : Files) (path path' : String) (sector sector' : Int × Int)
    (content : Option Bytes) :
    (files.write path sector content).read path' sector' =
      if path' = path ∧ sector' = sector then content else files.read path' sector' := by
  simp only [Files.write, Files.read, Function.update_apply]
  by_cases samePath : path' = path
  · subst samePath
    by_cases sameSector : sector' = sector
    · simp [sameSector]
    · cases files path' <;> simp [sameSector]
  · simp [samePath]

/-- The data of a set without rivals, whose own request is gone, stay in the file: who
writes there now would be a rival, and nobody creates a file that is there. -/
theorem content_kept {cfg : Config} {s next : State} {action : Action} (once : AtMostOnce s)
    (apart : PathsApart cfg s) (keeps : keepsWrites cfg s action = true)
    (flow : Flow cfg s action next) {id : Nat} {c : Call} {wname dname : String} {cx cz : Int}
    {dat : Bytes} (found : s.calls[id]? = some c) (call : c.call = .addChunkRaw wname dname cx cz dat)
    (unrivalled : Unrivalled s id c wname dname cx cz) (gone : c.call.request id ∉ s.carried)
    (stored : chunkContent cfg s.files (c.call.request id) = some dat) :
    chunkContent cfg next.files (c.call.request id) = some dat := by
  cases flow with
  | invokes _ _ _ _ files | sends _ _ _ _ _ _ files | returns _ _ _ _ _ _ _ _ files
  | ignores _ _ _ _ _ _ _ _ files | moves _ _ _ files | panics _ _ _ _ files =>
      rw [files]
      exact stored
  | @creates i _ worker r atWorker creating _ _ _ files =>
      have absent : s.files (cfg.getRegionPath worker.loc) = none := by
        simpa [keepsWrites, atWorker, creating] using keeps
      rw [files, chunkContent, Files.read, Function.update_apply]
      split
      · rename_i path
        rw [chunkContent, path, Files.read, absent] at stored
        cases stored
      · exact stored
  | @answers _ _ other c' replies atCall single _ _ carried answer =>
      rcases files_answer answer with same | ⟨set, left, written⟩
      · rw [same]
        exact stored
      · rw [written, chunkContent, read_write]
        split
        · rename_i place
          exfalso
          obtain ⟨dat', call'⟩ := same_chunk apart found atCall call single set place.1 place.2
          have onItsWay : c'.call.request other ∈ s.carried := by
            rw [carried]
            exact Multiset.mem_cons_self _ _
          by_cases same : other = id
          · subst same
            cases found.symm.trans atCall
            exact gone onItsWay
          · obtain ⟨ret, ended, phase, _⟩ := unrivalled other c' dat' atCall call' same
            exact once.not_carried atCall single (.inr (by simp [phase])) onItsWay
        · exact stored

/-- The data of a set are in the file once it was told `nil`. -/
theorem Kept.stored {cfg : Config} {s next : State} {action : Action} (invariant : WritesKept cfg s)
    (keeps : keepsWrites cfg s action = true) (flow : Flow cfg s action next) {id : Nat}
    {c after : Call} {wname dname : String} {cx cz : Int} {dat : Bytes}
    (found : s.calls[id]? = some c) (call : c.call = .addChunkRaw wname dname cx cz dat)
    (unrivalled : Unrivalled s id c wname dname cx cz)
    (step : CallStep cfg s action next id c after) (told : after.toldNil) :
    chunkContent cfg next.files (after.call.request id) = some dat := by
  have single : c.call.isChunk = true := by rw [call]; rfl
  -- Told before the step: the data are there and stay.
  have before : c.toldNil → chunkContent cfg next.files (c.call.request id) = some dat := by
    intro toldBefore
    refine content_kept invariant.once invariant.apart keeps flow found call
      unrivalled ?_ ((invariant.kept id c wname dname cx cz dat found call unrivalled).1 toldBefore)
    refine invariant.once.not_carried found single ?_
    rcases toldBefore with unread | ⟨ended, phase⟩
    · exact .inl (List.ne_nil_of_mem unread)
    · exact .inr (by simp [phase])
  rw [step.call]
  cases step with
  | same => exact before told
  | sends sending =>
      rcases told with unread | ⟨ended, phase⟩
      · exact before (.inl unread)
      · cases phase
  | ignores buffered _ =>
      rcases told with unread | returned
      · exact before (.inl (by rw [buffered]; exact List.mem_cons_of_mem _ unread))
      · exact before (.inr returned)
  | @returns reply replies ret waiting buffered accepts _ _ =>
      refine before (.inl ?_)
      rw [buffered]
      rcases told with unread | ⟨ended, phase⟩
      · exact List.mem_cons_of_mem _ unread
      · -- Only `nil` makes a set return without error.
        cases phase
        rw [call] at accepts
        cases reply <;> simp_all [ClientCall.receive]
  | @answers replies answer =>
      rcases told with unread | returned
      · rcases List.mem_append.mp unread with old | new
        · exact before (.inl old)
        · have set : (c.call.request id).op = .setChunk := by rw [call]; rfl
          have written := nil_answer_set answer keeps set new
          rw [chunkContent, written, read_write, if_pos ⟨rfl, rfl⟩, call]
          rfl
      · exact before (.inr returned)

/-- A get that started after the return of the set stays honest. -/
theorem Kept.reader {cfg : Config} {s next : State} {action : Action} (invariant : WritesKept cfg s)
    (faithful : libraryFaithful cfg s action = true) (keeps : keepsWrites cfg s action = true)
    {id : Nat} {c : Call} {wname dname : String} {cx cz : Int} {dat : Bytes}
    (found : s.calls[id]? = some c) (call : c.call = .addChunkRaw wname dname cx cz dat)
    (unrivalled : Unrivalled s id c wname dname cx cz) {ended : Nat}
    (phase : c.phase = .returned .ok ended) {reader : Nat} {g after : Call}
    (reads : s.calls[reader]? = some g) (get : g.call = .getChunkRaw wname dname cx cz)
    (later : ended < g.invokedAt) (step : CallStep cfg s action next reader g after) :
    after.honest dat := by
  obtain ⟨told, readers⟩ := invariant.kept id c wname dname cx cz dat found call unrivalled
  have honest := readers ended phase reader g reads get later
  cases step with
  | same => exact honest
  | sends _ => exact ⟨honest.unread, fun _ _ phase => by cases phase⟩
  | ignores buffered _ =>
      refine ⟨fun reply member => honest.unread reply ?_, honest.returned⟩
      rw [buffered]
      exact List.mem_cons_of_mem _ member
  | @returns reply replies ret _ buffered accepts _ _ =>
      constructor
      · intro reply member
        refine honest.unread reply ?_
        rw [buffered]
        exact List.mem_cons_of_mem _ member
      · intro ret' last phase
        cases phase
        refine honest.unread reply ?_ ret accepts
        rw [buffered]
        exact List.mem_cons_self
  | answers answer =>
      refine ⟨fun reply member => ?_, honest.returned⟩
      rcases List.mem_append.mp member with old | new
      · exact honest.unread reply old
      · have getOp : (g.call.request reader).op = .getChunk := by rw [get]; rfl
        have stored : chunkContent cfg s.files (g.call.request reader) = some dat := by
          have written := told (.inr ⟨ended, phase⟩)
          rw [call] at written
          rw [get]
          exact written
        intro ret accepts
        rw [get] at accepts
        rcases honest_answer_get answer faithful keeps getOp stored new with rfl | ⟨err, rfl⟩
        · cases accepts
          rfl
        · cases accepts
          trivial

/-- The step lemma of the kept writes. -/
theorem Kept.preserved {cfg : Config} {s next : State} {action : Action}
    (invariant : WritesKept cfg s) (faithful : libraryFaithful cfg s action = true)
    (keeps : keepsWrites cfg s action = true) (extension : Extends s.calls next.calls)
    (flow : Flow cfg s action next) : Kept cfg next := by
  intro id after wname dname cx cz dat stored call unrivalled
  have single : after.call.isChunk = true := by rw [call]; rfl
  rcases call_of_flow flow stored single with ⟨c, found, step⟩ | ⟨_, _, new, _⟩
  · have callBefore : c.call = .addChunkRaw wname dname cx cz dat := step.call ▸ call
    have unrivalledBefore := unrivalled.before invariant.dated extension flow found
      (step.call ▸ single) step
    constructor
    · exact Kept.stored invariant keeps flow found callBefore unrivalledBefore step
    · intro ended phase reader g reads get later
      have singleReader : g.call.isChunk = true := by rw [get]; rfl
      rcases call_of_flow flow reads singleReader with ⟨g', readsBefore, step'⟩ | ⟨_, _, newReader, _⟩
      · -- A set that returns in this step returns after every get that is there.
        have phaseBefore : c.phase = .returned .ok ended := by
          cases step with
          | sends _ => cases phase
          | @returns reply replies ret _ _ _ _ _ =>
              cases phase
              rw [step'.invokedAt] at later
              have started := (invariant.dated reader g' readsBefore (step'.call ▸ singleReader)).1
              omega
          | same | ignores _ _ | answers _ => exact phase
        exact Kept.reader invariant faithful keeps found callBefore unrivalledBefore phaseBefore
          readsBefore (step'.call ▸ get) (step'.invokedAt ▸ later) step'
      · rw [newReader]
        refine ⟨fun reply member => ?_, fun ret last phase => ?_⟩
        · simp at member
        · cases phase
  · rw [new]
    constructor
    · rintro (unread | ⟨ended, phase⟩)
      · simp at unread
      · cases phase
    · intro ended phase
      cases phase

/-- In a run of a faithful region library whose steps keep writes, what a set without
rivals has written is in its file and is read back. -/
theorem readYourWrites (cfg : Config) (files : Files) (actions : List Action)
    (steps : (machine cfg).StepsOnly
      (fun s action => libraryFaithful cfg s action = true ∧ keepsWrites cfg s action = true)
      (State.initial cfg files) actions) :
    (machine cfg).ReachesOnly (ReadYourWrites cfg) (State.initial cfg files) actions := by
  have implies : ∀ {s : State}, WritesKept cfg s → ReadYourWrites cfg s := by
    intro s invariant id c wname dname cx cz dat ended found call phase unrivalled
    obtain ⟨told, readers⟩ := invariant.kept id c wname dname cx cz dat found call unrivalled
    refine ⟨told (.inr ⟨ended, phase⟩), fun reader g ret last reads get later returned => ?_⟩
    exact (readers ended phase reader g reads get later).returned ret last returned
  refine steps.reachesOnly implies ?_ ?_
  · rintro s action next invariant ⟨faithful, keeps⟩ transition
    obtain ⟨_, transition⟩ := transition_of_step transition
    have flow := flow_of_transition invariant.placed transition
    exact
      { placed := invariant.placed.preserved transition
        once := invariant.once.preserved invariant.placed flow
        dated := invariant.dated.preserved flow
        apart := invariant.apart.preserved keeps flow
        kept := Kept.preserved invariant faithful keeps (extends_of_transition transition) flow }
  · exact
      { placed := placed_initial cfg files
        once := fun id c found => by simp [State.initial] at found
        dated := fun id c found => by simp [State.initial] at found
        apart := fun id other c c' found => by simp [State.initial] at found
        kept := fun id c wname dname cx cz dat found => by simp [State.initial] at found }

/-- A get of an absent region, which the router marks as not existing, and then a set
of the same chunk. -/
def writeToMarkedRegion : List Action :=
  (ClientCall.getChunkRaw "world" "overworld" 0 0).schedule 0 0 ++
  [.workerCall 0 (.opened (.error .notExist)), .clientReceive 0, .workerReport 0,
    .routerReceive 0] ++
  (ClientCall.addChunkRaw "world" "overworld" 0 0 [1]).schedule 1 1 ++ [.clientReceive 1]

/-- The set returns without error and nothing is written. -/
theorem write_to_marked_region_lost : ∃ (cfg : Config) (files : Files) (actions : List Action)
    (final : State), (machine cfg).StepsOnly
        (fun s action => libraryFaithful cfg s action = true) (State.initial cfg files) actions ∧
      (machine cfg).Runs (State.initial cfg files) actions final ∧ ¬ ReadYourWrites cfg final := by
  obtain ⟨final, executed, calls, files⟩ : ∃ final : State,
      (machine sampleConfig).exec (State.initial sampleConfig fun _ => none) writeToMarkedRegion =
          some final ∧
        final.calls = [⟨.getChunkRaw "world" "overworld" 0 0, .returned (.bytes []) 1, [], 0⟩,
          ⟨.addChunkRaw "world" "overworld" 0 0 [1], .returned .ok 3, [], 2⟩] ∧
        final.files = fun _ => none := ⟨_, rfl, rfl, rfl⟩
  refine ⟨sampleConfig, fun _ => none, writeToMarkedRegion, final,
    Machine.stepsOnly_of_checkSteps (by decide), Machine.runs_of_exec executed, fun kept => ?_⟩
  have unrivalled : Unrivalled final 1 ⟨.addChunkRaw "world" "overworld" 0 0 [1],
      .returned .ok 3, [], 2⟩ "world" "overworld" 0 0 := by
    intro other c' dat found call different
    rw [calls] at found
    rcases other with _ | _ | other
    · cases found
      cases call
    · exact absurd rfl different
    · simp at found
  have stored := (kept 1 _ "world" "overworld" 0 0 [1] 3 (by rw [calls]; rfl) rfl rfl unrivalled).1
  rw [files] at stored
  cases stored

/-- A set that creates its region, and a get that starts after it. -/
def writeThenRead : List Action :=
  (ClientCall.addChunkRaw "world" "overworld" 0 0 [1]).schedule 0 0 ++
  [.workerCall 0 (.opened (.error .notExist)), .workerCall 0 (.created (.ok ())),
    .workerCall 0 (.wrote (.ok ())), .clientReceive 0] ++
  (ClientCall.getChunkRaw "world" "overworld" 0 0).schedule 1 1 ++
  [.workerReceive 0, .workerCall 0 (.read (.ok [1])), .clientReceive 1]

theorem readYourWrites_writeThenRead :
    (machine sampleConfig).ReachesOnly (ReadYourWrites sampleConfig)
      (State.initial sampleConfig fun _ => none) writeThenRead := by
  refine readYourWrites sampleConfig (fun _ => none) writeThenRead ?_
  have checked : (machine sampleConfig).checkSteps
      (fun s action => libraryFaithful sampleConfig s action && keepsWrites sampleConfig s action)
      (State.initial sampleConfig fun _ => none) writeThenRead = true := by decide
  exact (Machine.stepsOnly_of_checkSteps checked).mono fun _ _ both => by simpa using both

end WebChunk.RegionStore
