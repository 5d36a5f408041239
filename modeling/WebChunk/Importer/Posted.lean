import Mathlib.Tactic.Abel
import WebChunk.Importer.Upload
import WebChunk.Semantics.Conservation
import WebChunk.Semantics.Processes

/-!
# What the importer has posted

Every chunk that was read is posted, unless a post fails. After that nothing goes on: the main
loop waits for the workers, which wait for more chunks.
-/

namespace WebChunk.Importer

open WebChunk.Go WebChunk.Semantics

variable {s next : Upload} {action : UploadAction}

/-! ### What is on its way -/

/-- The chunks that the main loop read. -/
def chunksRead (_ : Upload) (action : UploadAction) (_ : Upload) : List Bytes :=
  match action with
  | .sector (some data) => [data]
  | _ => []

/-- The chunks that the server took. -/
def chunksPosted (s : Upload) (action : UploadAction) (_ : Upload) : List Bytes :=
  match action with
  | .post i true =>
      match s.workers[i]? with
      | some (.posting data) => [data]
      | _ => []
  | _ => []

/-- The chunk that the main loop has. -/
def UploadMain.held : UploadMain → List Bytes
  | .handing data _ _ => [data]
  | _ => []

/-- The chunk that a worker has. -/
def UploadWorker.held : UploadWorker → List Bytes
  | .idle => []
  | .posting data => [data]

/-- The chunks on their way. -/
def Upload.unposted (s : Upload) : Multiset Bytes :=
  s.main.held + s.c.buffer + s.workers.flatMap UploadWorker.held

/-- The workers are waited for like the chunks on their way, but never end. -/
structure Uploading (s : Upload) : Prop where
  crew : s.workers.length = threadscount
  capacity : s.c.capacity = threadscount * 32 * 32
  isOpen : s.c.closed = false
  counted : s.main ≠ .died → s.wg = threadscount + s.unposted.card
  waits : s.main ≠ .returned

/-- A worker goes on with the chunks. -/
theorem unposted_worker {i : Nat} {w w' : UploadWorker} {c : Chan Bytes} (wg : Nat)
    (posted : List Bytes) (found : s.workers[i]? = some w)
    (balance : (s.c.buffer + w.held : Multiset Bytes) = posted + c.buffer + w'.held) :
    s.unposted = posted + Upload.unposted { s with
      c := c, wg := wg, workers := s.workers.set i w' } := by
  have replaced := flatMap_set_of_some (b := w') UploadWorker.held found
  apply add_right_cancel (b := (w.held : Multiset Bytes))
  calc
    s.unposted + w.held =
        (s.main.held + s.workers.flatMap UploadWorker.held : Multiset Bytes) +
          (s.c.buffer + w.held) := by
      unfold Upload.unposted
      abel
    _ = s.main.held + (s.workers.flatMap UploadWorker.held + w'.held) + (posted + c.buffer) := by
      rw [balance]
      abel
    _ = _ := by
      rw [← replaced]
      unfold Upload.unposted
      abel

/-- A chunk is on its way from the read to the post. -/
theorem chunks_balanced (transition : UploadTransition s action next) :
    s.unposted + chunksRead s action next = chunksPosted s action next + next.unposted := by
  cases transition with
  | opened main | ignored main | noSector main | closed main | looped main | waited main _ =>
      simp [Upload.unposted, chunksRead, chunksPosted, main, UploadMain.held]
  | read main =>
      simp only [Upload.unposted, chunksRead, chunksPosted, main, UploadMain.held,
        Multiset.coe_nil]
      abel
  | handed main _ =>
      simp only [Upload.unposted, chunksRead, chunksPosted, main, UploadMain.held,
        ← Multiset.coe_add, Multiset.coe_nil]
      abel
  | received found task =>
      refine (add_zero _).trans (unposted_worker s.wg [] found ?_)
      simp only [UploadWorker.held, task, ← Multiset.cons_coe, ← Multiset.singleton_add,
        Multiset.coe_nil]
      abel
  | @posted i data found =>
      have taken (next : Upload) : chunksPosted s (.post i true) next = [data] := by
        simp [chunksPosted, found]
      rw [taken]
      refine (add_zero _).trans (unposted_worker (s.wg - 1) [data] found ?_)
      simp only [UploadWorker.held, Multiset.coe_nil]
      abel

theorem Uploading.step (uploading : Uploading s) (lives : s.main ≠ .died)
    (transition : UploadTransition s action next) : Uploading next := by
  have total := uploading.counted lives
  have balance := congrArg Multiset.card (chunks_balanced transition)
  rw [Multiset.card_add, Multiset.card_add] at balance
  cases transition with
  | opened main | ignored main | noSector main | closed main | looped main =>
      refine { uploading with counted := fun _ => ?_, waits := by simp }
      simp only [chunksRead, chunksPosted, Multiset.coe_nil, Multiset.card_zero] at balance
      dsimp only
      omega
  | read main =>
      refine { uploading with counted := fun _ => ?_, waits := by simp }
      simp only [chunksRead, chunksPosted, Multiset.coe_nil, Multiset.card_zero,
        Multiset.coe_singleton, Multiset.card_singleton] at balance
      dsimp only
      omega
  | handed main _ =>
      refine { uploading with counted := fun _ => ?_, waits := by simp }
      simp only [chunksRead, chunksPosted, Multiset.coe_nil, Multiset.card_zero] at balance
      dsimp only
      omega
  | waited main none_ =>
      rw [none_, threadscount] at total
      omega
  | received found task =>
      refine { uploading with
        crew := List.length_set.trans uploading.crew, counted := fun _ => ?_ }
      simp only [chunksRead, chunksPosted, Multiset.coe_nil, Multiset.card_zero] at balance
      dsimp only [Upload.setWorker] at balance ⊢
      omega
  | @posted i data found =>
      refine { uploading with
        crew := List.length_set.trans uploading.crew, counted := fun _ => ?_ }
      simp only [chunksRead, chunksPosted, found, Multiset.coe_nil, Multiset.card_zero,
        Multiset.coe_singleton, Multiset.card_singleton] at balance
      dsimp only [Upload.setWorker] at balance ⊢
      omega

theorem unposted_initial (de : List String) : (Upload.initial de).unposted = 0 := rfl

theorem uploading_initial (de : List String) : Uploading (.initial de) where
  crew := List.length_replicate
  capacity := rfl
  isOpen := rfl
  counted _ := by
    rw [unposted_initial]
    rfl
  waits := by simp [Upload.initial]

/-- The process has ended. -/
theorem lives_of_step (step : uploadStep s action = some next) : s.main ≠ .died := by
  intro died
  simp [uploadStep, died] at step

/-- The step lemma. -/
theorem Uploading.preserved (uploading : Uploading s)
    (step : uploadStep s action = some next) : Uploading next := by
  rcases uploadTransition_of_step step with transition | ⟨i, data, worker, rfl⟩
  · exact uploading.step (lives_of_step step) transition
  · exact { uploading with counted := fun lives => absurd rfl lives, waits := by simp }

/-! ### The end -/

/-- The steps that are left. -/
def UploadMain.weight : UploadMain → Nat
  | .files de => 4098 * de.length + 2
  | .sectors places de => 4 * places.length + 1 + (4098 * de.length + 2)
  | .handing _ places de => 3 + (4 * places.length + 1 + (4098 * de.length + 2))
  | .waiting => 1
  | .returned | .died => 0

def UploadWorker.posts : UploadWorker → Bool
  | .idle => false
  | .posting _ => true

def Upload.weight (s : Upload) : Nat :=
  s.main.weight + 2 * s.c.buffer.length + s.workers.countP UploadWorker.posts

theorem length_places : places.length = 1024 := by decide +kernel

/-- Every step loses weight. -/
theorem lighter (step : uploadStep s action = some next) : next.weight < s.weight := by
  have running : s.main ≠ .returned ∧ s.main ≠ .died := by
    constructor <;> intro ended <;> simp [uploadStep, ended] at step
  rcases uploadTransition_of_step step with transition | ⟨i, data, worker, rfl⟩
  · cases transition with
    | opened main | ignored main =>
        simp only [Upload.weight, main, UploadMain.weight, List.length_cons, length_places]
        omega
    | noSector main | read main =>
        simp only [Upload.weight, main, UploadMain.weight, List.length_cons]
        omega
    | handed main _ =>
        simp only [Upload.weight, main, UploadMain.weight, List.length_append,
          List.length_singleton]
        omega
    | closed main | looped main | waited main _ =>
        simp only [Upload.weight, main, UploadMain.weight, List.length_nil]
        omega
    | @received i data rest found task =>
        have busy := countP_set_of_some (p := UploadWorker.posts) (b := .posting data) found
        simp only [UploadWorker.posts, if_true, Bool.false_eq_true, if_false] at busy
        simp only [Upload.weight, Upload.setWorker, task, List.length_cons]
        omega
    | @posted i data found =>
        have busy := countP_set_of_some (p := UploadWorker.posts) (b := .idle) found
        simp only [UploadWorker.posts, if_true, Bool.false_eq_true, if_false] at busy
        simp only [Upload.weight, Upload.setWorker]
        omega
  · have some_ : 0 < s.main.weight := by
      cases main : s.main with
      | returned => exact absurd main running.1
      | died => exact absurd main running.2
      | files | sectors | handing | waiting =>
          simp only [UploadMain.weight]
          omega
    have none_ : UploadMain.died.weight = 0 := rfl
    simp only [Upload.weight, none_]
    omega

/-- A chunk in the channel or with a worker goes on. -/
theorem Uploading.goesOn (uploading : Uploading s) (running : s.main ≠ .died)
    (task : s.c.buffer ≠ [] ∨ s.workers.flatMap UploadWorker.held ≠ []) :
    ∃ action, (uploadStep s action).isSome := by
  have live : ¬ (s.main = .returned ∨ s.main = .died) := not_or.mpr ⟨uploading.waits, running⟩
  by_cases posting : ∃ (i : Nat) (data : Bytes), s.workers[i]? = some (.posting data)
  · obtain ⟨i, data, worker⟩ := posting
    refine ⟨.post i true, ?_⟩
    rw [uploadStep, if_neg live]
    simp [Upload.post, worker]
  · have idle : ∀ w ∈ s.workers, w = .idle := by
      intro w member
      obtain ⟨i, worker⟩ := List.mem_iff_getElem?.mp member
      cases w with
      | idle => rfl
      | posting data => exact absurd ⟨i, data, worker⟩ posting
    have first : s.workers[0]? = some .idle := by
      have inside : 0 < s.workers.length := by rw [uploading.crew]; decide
      rw [List.getElem?_eq_getElem inside, idle _ (List.getElem_mem inside)]
    have buffered : s.c.buffer ≠ [] := by
      refine task.resolve_right fun held => held ?_
      exact List.flatMap_eq_nil_iff.mpr fun w member => by rw [idle w member]; rfl
    obtain ⟨data, rest, found⟩ := List.exists_cons_of_ne_nil buffered
    refine ⟨.receive 0, ?_⟩
    rw [uploadStep, if_neg live]
    simp [Upload.receive, first, Chan.receive, found]

/-- Nothing goes on only when a post has failed or nothing is on its way. -/
theorem Uploading.stuck (uploading : Uploading s)
    (stuck : ∀ action, uploadStep s action = none) :
    s.main = .died ∨ s.main = .waiting ∧ s.unposted = 0 := by
  by_cases died : s.main = .died
  · exact .inl died
  · have live : ¬ (s.main = .returned ∨ s.main = .died) := not_or.mpr ⟨uploading.waits, died⟩
    have step := fun action => (if_neg live).symm.trans (stuck action)
    have noTask : s.c.buffer = [] ∧ s.workers.flatMap UploadWorker.held = [] := by
      by_contra task
      obtain ⟨action, taken⟩ := uploading.goesOn died (not_and_or.mp task)
      rw [stuck action] at taken
      cases taken
    refine .inr ?_
    cases main : s.main with
    | files de =>
        cases de with
        | nil => simpa [Upload.wait, main] using step .wait
        | cons d de => simpa [Upload.openFile, main] using step (.openFile true)
    | sectors places de =>
        cases places with
        | nil => simpa [Upload.closeFile, main] using step .closeFile
        | cons p places => simpa [Upload.sector, main] using step (.sector none)
    | handing data places de =>
        have sent : s.c.send data = .sent { s.c with buffer := s.c.buffer ++ [data] } := by
          rw [Chan.send, if_neg (by rw [uploading.isOpen]; simp),
            if_pos (by rw [noTask.1, uploading.capacity]; decide)]
        simpa [Upload.hand, main, sent] using step .hand
    | waiting =>
        refine ⟨rfl, ?_⟩
        rw [Upload.unposted, main, noTask.1, noTask.2]
        rfl
    | returned => exact absurd main uploading.waits
    | died => exact absurd main died

/-- The importer never returns and takes boundedly many steps. What it has read is posted or on
its way, and when nothing goes on, a post has failed or all of it is posted. -/
theorem everyChunkPosted (de : List String) (actions : List UploadAction) (final : Upload)
    (run : upload.Runs (.initial de) actions final) :
    final.main ≠ .returned ∧ actions.length ≤ 4098 * de.length + 2 ∧
      (final.main ≠ .died → (upload.history chunksRead (.initial de) actions : Multiset Bytes) =
        upload.history chunksPosted (.initial de) actions + final.unposted) ∧
      ((∀ action, upload.step final action = none) → final.main = .died ∨
        (upload.history chunksRead (.initial de) actions).Perm
          (upload.history chunksPosted (.initial de) actions)) := by
  have uploading : Uploading final :=
    run.always (fun uploading step => uploading.preserved step) (uploading_initial de)
  have balance : final.main ≠ .died →
      (upload.history chunksRead (.initial de) actions : Multiset Bytes) =
        upload.history chunksPosted (.initial de) actions + final.unposted := by
    intro lives
    have sum := run.conserved Uploading (·.main ≠ .died) Upload.unposted chunksRead chunksPosted
      (fun uploading step => uploading.preserved step) ?_ (uploading_initial de) lives
    · rwa [unposted_initial, zero_add] at sum
    · intro s action next _ step lives
      rcases uploadTransition_of_step step with transition | ⟨i, data, worker, rfl⟩
      · exact ⟨lives_of_step step, chunks_balanced transition⟩
      · exact absurd rfl lives
  refine ⟨uploading.waits, ?_, balance, fun stuck => ?_⟩
  · have bound := run.length_le lighter
    have start : (Upload.initial de).weight = 4098 * de.length + 2 := rfl
    omega
  · rcases uploading.stuck stuck with died | ⟨waiting, empty⟩
    · exact .inl died
    · have sum := balance (by rw [waiting]; simp)
      rw [empty, add_zero] at sum
      exact .inr (Multiset.coe_eq_coe.mp sum)

/-- One chunk of a region file is read and posted. -/
def oneChunkPosted : List UploadAction :=
  [.openFile true, .sector none, .sector (some [7]), .hand, .receive 3, .post 3 true, .sector none]

theorem everyChunkPosted_oneChunk :
    ∃ final, upload.Runs (.initial ["r.0.0.mca"]) oneChunkPosted final ∧
      final.main ≠ .returned ∧
      upload.history chunksPosted (.initial ["r.0.0.mca"]) oneChunkPosted = [[7]] := by
  have run : upload.Runs (.initial ["r.0.0.mca"]) oneChunkPosted _ :=
    Machine.runs_exec_get (by decide +kernel)
  exact ⟨_, run, (everyChunkPosted _ _ _ run).1, by decide +kernel⟩

end WebChunk.Importer
