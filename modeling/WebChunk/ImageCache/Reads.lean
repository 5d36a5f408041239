import WebChunk.ImageCache.Transition

/-!
# Reads

The processor only ever asks its IO workers to read. What holds of the tasks between
them in every reachable state, whatever the callers, the clock and the files do.
-/

namespace WebChunk.ImageCache

open WebChunk.Go WebChunk.Semantics

/-- A picture as `cacheLoad` returns it. -/
def CachedImage.fresh (image : CachedImage) : Prop :=
  image.imageUnloaded = false ∧ image.syncedToDisk = true

/-- Tasks on their way to the workers are reads, those on their way back carry what
`cacheLoad` returned, and every waiting get waits for its own tile. -/
structure ReadsOnly (s : State) : Prop where
  hand : ∀ task ∈ s.p.hand, task.img = none
  queued : ∀ task ∈ s.ioTasks.buffer, task.img = none
  holding : ∀ (i : Nat) (task : CacheTaskIo), s.workers[i]? = some (.holding task) →
    task.img = none
  returning : ∀ (i : Nat) (task : IoReturn), s.workers[i]? = some (.returning task) →
    ∀ image, task.img = some image → image.fresh
  returned : ∀ task ∈ s.ioReturn.buffer, ∀ image, task.img = some image → image.fresh
  belong : WaitersBelong s.p

/-- A task adds at most one read to the hand. -/
theorem hand_of_taskStep {p next : Processor} {task : CacheTask} {now : Int}
    (taken : TaskStep p task now next) :
    next.hand = p.hand ∨ ∃ loc, next.hand = p.hand ++ [{ loc := loc }] := by
  cases taken with
  | nativeMiss _ _ _ | smallerMiss _ _ _ _ | setMiss _ _ _ _ => exact .inr ⟨_, rfl⟩
  | _ => exact .inl rfl

/-- What `cacheLoad` returns is fresh. -/
theorem fresh_of_cacheLoad {cfg : Config} {disk after : Disk} {loc : ImageLocation}
    {outcome : LoadOutcome} {image : CachedImage}
    (loaded : cacheLoad cfg disk loc outcome = some (some image, after)) : image.fresh := by
  unfold cacheLoad at loaded
  split at loaded
  · cases loaded
  · split at loaded <;> cases loaded
  · split at loaded
    · cases loaded
      exact ⟨rfl, rfl⟩
    · split at loaded
      · cases loaded
      · cases loaded
        exact ⟨rfl, rfl⟩

/-- A worker after one of the workers was replaced. -/
theorem getElem?_set_some {α : Type} {l : List α} {i j : Nat} {a b : α}
    (found : (l.set i a)[j]? = some b) : b = a ∨ l[j]? = some b := by
  rw [List.getElem?_set] at found
  split at found
  · split at found
    · cases found
      exact .inl rfl
    · cases found
  · exact .inr found

/-- The state after a successful read was processed. -/
theorem ReadsOnly.wokenReturn {s : State} (reads : ReadsOnly s) {task : IoReturn}
    {ioReturn : Chan IoReturn} {p : Processor} {now : Int}
    (received : s.ioReturn.receive = .received task ioReturn)
    (processed : s.p.processReturn task now = some p) :
    task.img = none ∧ p = s.p ∨ ∃ image, task.img = some image ∧ image.fresh ∧
      Woken s.p task.loc image p := by
  obtain ⟨loc, img⟩ := task
  cases img with
  | none =>
      cases processed
      exact .inl ⟨rfl, rfl⟩
  | some image =>
      have front := (Chan.receive_received received).1
      have fresh := reads.returned ⟨loc, some image⟩ (by rw [front]; exact List.mem_cons_self)
        image rfl
      exact .inr ⟨image, rfl, fresh, woken_of_processReturn reads.belong fresh.1 processed⟩

/-- One worker moves on. -/
theorem ReadsOnly.setIoWorker {s : State} (reads : ReadsOnly s) (i : Nat) (worker : IoWorker)
    (holds : ∀ task, worker = .holding task → task.img = none)
    (gives : ∀ task, worker = .returning task → ∀ image, task.img = some image → image.fresh) :
    ReadsOnly (s.setIoWorker i worker) := by
  refine { reads with holding := fun j task stored => ?_, returning := fun j task stored => ?_ }
  · rcases getElem?_set_some stored with new | old
    · exact holds task new.symm
    · exact reads.holding j task old
  · rcases getElem?_set_some stored with new | old
    · exact gives task new.symm
    · exact reads.returning j task old

/-- The step lemma. It holds in every run. -/
theorem ReadsOnly.preserved {cfg : Config} {s next : State} {action : Action} (reads : ReadsOnly s)
    (transition : Transition cfg s action next) : ReadsOnly next := by
  cases transition with
  | takes _ _ processed =>
      have taken := taskStep_of_processTask processed
      refine { reads with hand := fun task member => ?_, belong := reads.belong.taskStep taken }
      rcases hand_of_taskStep taken with same | ⟨loc, grown⟩
      · exact reads.hand task (same ▸ member)
      · rcases List.mem_append.mp (grown ▸ member) with old | new
        · exact reads.hand task old
        · rw [List.mem_singleton.mp new]
  | returns _ received processed =>
      have later : ∀ task ∈ _, ∀ image, IoReturn.img task = some image → image.fresh :=
        fun task member => reads.returned task
          ((Chan.receive_received received).1 ▸ List.mem_cons_of_mem _ member)
      rcases reads.wokenReturn received processed with ⟨_, rfl⟩ | ⟨image, _, _, woken⟩
      · exact { reads with returned := later }
      · exact { reads with
          returned := later
          hand := fun task member => reads.hand task (woken.hand ▸ member)
          belong := reads.belong.woken woken }
  | returnPanics _ received _ =>
      exact { reads with
        returned := fun task member => reads.returned task
          ((Chan.receive_received received).1 ▸ List.mem_cons_of_mem _ member) }
  | @flushes task rest ioTasks hand sent =>
      obtain ⟨_, rfl⟩ := Chan.send_sent sent
      refine { reads with hand := fun other member => ?_, queued := fun other member => ?_ }
      · exact reads.hand other (hand ▸ List.mem_cons_of_mem _ member)
      · rcases List.mem_append.mp member with old | new
        · exact reads.queued other old
        · rw [List.mem_singleton.mp new]
          exact reads.hand task (hand ▸ List.mem_cons_self)
  | @ioTakes i task ioTasks found received =>
      have front := (Chan.receive_received received).1
      have taken := reads.queued task (front ▸ List.mem_cons_self)
      exact { reads.setIoWorker i (.holding task)
          (fun other same => by cases same; exact taken) (fun _ same => by cases same) with
        queued := fun other member => reads.queued other (front ▸ List.mem_cons_of_mem _ member) }
  | ioEnds _ _ =>
      exact reads.setIoWorker _ .ended (fun _ same => by cases same) (fun _ same => by cases same)
  | @ioLoads i outcome loc img disk _ loaded =>
      refine { reads.setIoWorker i (.returning ⟨loc, img⟩) (fun _ same => by cases same)
        (fun other same image there => ?_) with }
      cases same
      cases there
      exact fresh_of_cacheLoad loaded
  | ioSaves found => cases reads.holding _ _ found
  | @ioPushes i task ioReturn found sent =>
      obtain ⟨_, rfl⟩ := Chan.send_sent sent
      refine { reads.setIoWorker i (.idle) (fun _ same => by cases same)
        (fun _ same => by cases same) with returned := fun other member => ?_ }
      rcases List.mem_append.mp member with old | new
      · exact reads.returned other old
      · rw [List.mem_singleton.mp new]
        exact reads.returning i task found
  | submits _ | taskPanics _ _ _ | autosaves _ | keeps _ _ _ | saveFails _ _ _ _ | saves _ _ _ _ _
  | savePanics _ _ _ _ _ | saved _ | savedLast _ | unloads _ | cancels _ =>
      exact { reads with }

/-- Nothing is asked of the workers of a new cache. -/
theorem readsOnly_initial (cfg : Config) (disk : Disk) : ReadsOnly (State.initial cfg disk) where
  hand _ member := by simp [State.initial] at member
  queued _ member := by simp [State.initial] at member
  holding i task found := by
    simp only [State.initial, List.getElem?_replicate] at found
    split at found <;> cases found
  returning i task found := by
    simp only [State.initial, List.getElem?_replicate] at found
    split at found <;> cases found
  returned _ member := by simp [State.initial] at member
  belong loc tasks found := by simp [State.initial] at found

end WebChunk.ImageCache
