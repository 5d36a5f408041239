import WebChunk.ImageCache.Processor

/-!
# What processing one task can do

`TaskStep` lists the branches of `processTask`. A successful read leaves a loaded entry,
from which all gets that waited for it are answered: `Woken` says what remains of
`processReturn` then.
-/

namespace WebChunk.ImageCache

open WebChunk.Go

/-- The answer to a get from an entry that is hit. -/
def answerFrom (l : CachedImage) (loc : ImageLocation) : Option CachedImage :=
  if loc.S = StorageLevel then some (copyCachedImage l) else copySmallerCachedImage l loc

/-- The branches of `processTask`. -/
inductive TaskStep (p : Processor) (task : CacheTask) (now : Int) : Processor → Prop where
  | tooLarge (isGet : task.img = none) (large : StorageLevel < task.loc.S) :
      TaskStep p task now (p.answer task { img := none, loc := task.loc })
  | nativeHit {l : CachedImage} (isGet : task.img = none) (native : task.loc.S = StorageLevel)
      (hit : p.cache.get task.loc = some l) :
      TaskStep p task now (p.answer task (copyCachedImage l))
  | nativeMiss (isGet : task.img = none) (native : task.loc.S = StorageLevel)
      (miss : p.cache.get task.loc = none) :
      TaskStep p task now ((p.wait task.loc task).read task.loc)
  | smallerWaits {loc : ImageLocation} {l : CachedImage} (isGet : task.img = none)
      (smaller : task.loc.S < StorageLevel) (tile : getStorageLevelLoc task.loc = some loc)
      (hit : p.cache.get loc = some l) (unloaded : l.imageUnloaded = true) :
      TaskStep p task now (p.wait loc task)
  | smallerHit {loc : ImageLocation} {l image : CachedImage} (isGet : task.img = none)
      (smaller : task.loc.S < StorageLevel) (tile : getStorageLevelLoc task.loc = some loc)
      (hit : p.cache.get loc = some l) (loaded : l.imageUnloaded = false)
      (copy : copySmallerCachedImage l task.loc = some image) :
      TaskStep p task now (p.answer task image)
  | smallerMiss {loc : ImageLocation} (isGet : task.img = none)
      (smaller : task.loc.S < StorageLevel) (tile : getStorageLevelLoc task.loc = some loc)
      (miss : p.cache.get loc = none) :
      TaskStep p task now
        ({ p.read loc with
            cache := p.cache.set loc
              { img := none, loc := loc, lastUse := now, imageUnloaded := true }
            cacheStatLen := p.cacheStatLen + 1 }.wait loc task)
  | setIgnored {image : RGBA} (isSet : task.img = some image)
      (other : task.loc.S ≠ StorageLevel ∧ task.loc.S ≠ 0) : TaskStep p task now p
  | setHit {image : RGBA} {t : CachedImage} (isSet : task.img = some image)
      (scale : task.loc.S = StorageLevel ∨ task.loc.S = 0) (hit : p.cache.get task.loc = some t) :
      TaskStep p task now
        { p with
          sets := p.sets ++ [task]
          cache := p.cache.set task.loc
            { t with syncedToDisk := false, img := some (drawSet (t.img.getD blankTile) task image) } }
  | setMiss {image : RGBA} {native : ImageLocation} (isSet : task.img = some image)
      (scale : task.loc.S = StorageLevel ∨ task.loc.S = 0) (miss : p.cache.get task.loc = none)
      (tile : getStorageLevelLoc task.loc = some native) :
      TaskStep p task now
        { { p with sets := p.sets ++ [task] }.read task.loc with
          cache := p.cache.set task.loc
            { img := some (drawSet blankTile task image), loc := native, lastUse := now,
              imageUnloaded := true }
          cacheStatUncommited := p.cacheStatUncommited + 1
          cacheStatLen := p.cacheStatLen + 1 }

variable {p next : Processor} {task : CacheTask} {now : Int}

theorem taskStep_of_processSmallerImageGet (isGet : task.img = none)
    (smaller : task.loc.S < StorageLevel)
    (processed : p.processSmallerImageGet task now = some next) : TaskStep p task now next := by
  obtain ⟨loc, tile, rest⟩ := Option.bind_eq_some_iff.mp processed
  split at rest
  · rename_i l hit
    split at rest
    · cases rest
      exact .smallerWaits isGet smaller tile hit (by assumption)
    · rename_i loaded
      obtain ⟨image, copy, same⟩ := Option.bind_eq_some_iff.mp rest
      cases same
      exact .smallerHit isGet smaller tile hit (by simpa using loaded) copy
  · rename_i miss
    cases rest
    exact .smallerMiss isGet smaller tile miss

theorem taskStep_of_processImageSet {image : RGBA} (isSet : task.img = some image)
    (processed : p.processImageSet task image now = some next) : TaskStep p task now next := by
  unfold Processor.processImageSet at processed
  split at processed
  · cases processed
    exact .setIgnored isSet (by assumption)
  · rename_i accepted
    have scale : task.loc.S = StorageLevel ∨ task.loc.S = 0 := by
      by_contra neither
      exact accepted (not_or.mp neither)
    dsimp only at processed
    split at processed
    · cases processed
      exact .setHit isSet scale (by assumption)
    · rename_i miss
      obtain ⟨native, tile, same⟩ := Option.bind_eq_some_iff.mp processed
      cases same
      exact .setMiss isSet scale miss tile

/-- Inversion of `processTask`. -/
theorem taskStep_of_processTask (processed : p.processTask task now = some next) :
    TaskStep p task now next := by
  unfold Processor.processTask at processed
  split at processed
  · rename_i isGet
    unfold Processor.processImageGet at processed
    split at processed
    · cases processed
      exact .tooLarge isGet (by assumption)
    · rename_i small
      split at processed
      · rename_i native
        cases processed
        unfold Processor.processNativeImageGet
        split
        · exact .nativeHit isGet native (by assumption)
        · exact .nativeMiss isGet native (by assumption)
      · rename_i other
        have smaller : task.loc.S < StorageLevel := by omega
        exact taskStep_of_processSmallerImageGet isGet smaller processed
  · exact taskStep_of_processImageSet (by assumption) processed

/-! ### Panics -/

/-- A picture can be cut at every scale of the table. -/
theorem copySmallerCachedImage_isSome (l : CachedImage) {loc : ImageLocation} (lower : 0 ≤ loc.S)
    (upper : loc.S ≤ StorageLevel) : (copySmallerCachedImage l loc).isSome := by
  obtain ⟨pow, side⟩ := index_powarr lower upper
  unfold copySmallerCachedImage
  cases l.img <;> simp [copyFragmentRGBA, pow, side]

/-- A set does not panic: it is ignored at every scale but two. -/
theorem processImageSet_isSome (p : Processor) (task : CacheTask) (image : RGBA) (now : Int) :
    (p.processImageSet task image now).isSome := by
  unfold Processor.processImageSet
  split
  · rfl
  · rename_i accepted
    have scale : 0 ≤ task.loc.S ∧ task.loc.S ≤ StorageLevel := by
      unfold StorageLevel at accepted ⊢
      omega
    obtain ⟨native, tile⟩ :=
      Option.isSome_iff_exists.mp (getStorageLevelLoc_isSome scale.1 scale.2)
    dsimp only
    split
    · rfl
    · simp [tile]

/-- A get panics exactly at the negative scales. -/
theorem processImageGet_isSome {p : Processor} {task : CacheTask} {now : Int} :
    (p.processImageGet task now).isSome ↔ 0 ≤ task.loc.S := by
  unfold Processor.processImageGet
  split
  · rename_i large
    unfold StorageLevel at large
    simp only [Option.isSome_some, true_iff]
    omega
  · rename_i notLarge
    split
    · rename_i native
      simp [native, StorageLevel]
    · rename_i notNative
      have upper : task.loc.S ≤ StorageLevel := Int.not_lt.mp notLarge
      constructor
      · intro processed
        by_contra negative
        rw [Processor.processSmallerImageGet,
          getStorageLevelLoc_negative (Int.not_le.mp negative)] at processed
        cases processed
      · intro lower
        obtain ⟨loc, tile⟩ := Option.isSome_iff_exists.mp (getStorageLevelLoc_isSome lower upper)
        simp only [Processor.processSmallerImageGet, tile, Option.bind_eq_bind, Option.bind_some]
        split
        · rename_i l hit
          split
          · rfl
          · obtain ⟨image, copied⟩ :=
              Option.isSome_iff_exists.mp (copySmallerCachedImage_isSome l lower upper)
            simp [copied]
        · rfl

/-- Only a get at a negative scale panics. -/
theorem negative_of_panic (panics : p.processTask task now = none) :
    task.img = none ∧ task.loc.S < 0 := by
  unfold Processor.processTask at panics
  split at panics
  · rename_i isGet
    have failed : ¬ (p.processImageGet task now).isSome := by simp [panics]
    exact ⟨isGet, Int.not_le.mp (processImageGet_isSome.not.mp failed)⟩
  · rename_i image _
    have answered := processImageSet_isSome p task image now
    rw [panics] at answered
    cases answered

/-! ### Waiting gets -/

/-- A get that waits for the tile `loc`. -/
def Waits (loc : ImageLocation) (task : CacheTask) : Prop :=
  task.img = none ∧ (task.loc = loc ∧ loc.S = StorageLevel ∨
    task.loc.S < StorageLevel ∧ getStorageLevelLoc task.loc = some loc)

/-- Every waiting get waits for the tile it shows. -/
def WaitersBelong (p : Processor) : Prop :=
  ∀ loc tasks, p.cacheReturn.get loc = some tasks → ∀ task ∈ tasks, Waits loc task

theorem WaitersBelong.waits (belong : WaitersBelong p) (loc : ImageLocation) :
    ∀ task ∈ (p.cacheReturn.get loc).getD [], Waits loc task := by
  intro task member
  cases waiting : p.cacheReturn.get loc with
  | none => simp [waiting] at member
  | some waiters =>
      rw [waiting] at member
      exact belong loc waiters waiting task member

theorem WaitersBelong.wait (belong : WaitersBelong p) {loc : ImageLocation}
    (waits : Waits loc task) : WaitersBelong (p.wait loc task) := by
  intro other tasks found waiting member
  rw [Processor.wait, Map.get_set] at found
  split at found
  · rename_i same
    subst same
    cases found
    rcases List.mem_append.mp member with old | new
    · cases before : p.cacheReturn.get other with
      | none => simp [before] at old
      | some earlier =>
          rw [before] at old
          exact belong other earlier before waiting old
    · rw [List.mem_singleton.mp new]
      exact waits
  · exact belong other tasks found waiting member

theorem WaitersBelong.taskStep (belong : WaitersBelong p) (taken : TaskStep p task now next) :
    WaitersBelong next := by
  cases taken with
  | nativeMiss isGet native miss => exact WaitersBelong.wait belong ⟨isGet, .inl ⟨rfl, native⟩⟩
  | smallerWaits isGet smaller tile _ _ => exact belong.wait ⟨isGet, .inr ⟨smaller, tile⟩⟩
  | smallerMiss isGet smaller tile miss =>
      refine WaitersBelong.wait ?_ ⟨isGet, .inr ⟨smaller, tile⟩⟩
      exact belong
  | _ => exact belong

/-- A loaded entry answers every get that waited for its tile. -/
theorem processTask_waiting {loc : ImageLocation} {l : CachedImage} (waits : Waits loc task)
    (found : p.cache.get loc = some l) (loaded : l.imageUnloaded = false) :
    p.processTask task now = (answerFrom l task.loc).map (p.answer task) := by
  obtain ⟨isGet, ⟨rfl, native⟩ | ⟨smaller, tile⟩⟩ := waits
  · simp [Processor.processTask, isGet, Processor.processImageGet, native, answerFrom,
      Processor.processNativeImageGet, found]
  · have notLarge : ¬ task.loc.S > StorageLevel := by omega
    have notNative : task.loc.S ≠ StorageLevel := by omega
    simp only [Processor.processTask, isGet, Processor.processImageGet, if_neg notLarge,
      if_neg notNative, Processor.processSmallerImageGet, tile, Option.bind_eq_bind,
      Option.bind_some, found, loaded, answerFrom]
    cases copySmallerCachedImage l task.loc <;> rfl

/-- The partner of an entry on the right. -/
theorem exists_of_forall₂ {α β : Type*} {related : α → β → Prop} {xs : List α} {ys : List β}
    (pairs : List.Forall₂ related xs ys) {y : β} (member : y ∈ ys) : ∃ x ∈ xs, related x y := by
  induction pairs with
  | nil => cases member
  | cons here _ inductionHypothesis =>
      rcases List.mem_cons.mp member with rfl | later
      · exact ⟨_, List.mem_cons_self, here⟩
      · obtain ⟨x, inside, there⟩ := inductionHypothesis later
        exact ⟨x, List.mem_cons_of_mem _ inside, there⟩

/-- The answer to a get from an entry, when so many sets were accepted. -/
def AnsweredFrom (l : CachedImage) (after : Nat) (task : CacheTask) (a : Answer) : Prop :=
  ∃ image, answerFrom l task.loc = some image ∧ a = ⟨task.ret, task.loc, image, after⟩

/-- The gets that waited for a tile, answered from its entry one by one. -/
theorem processTasks_waiting {loc : ImageLocation} {l : CachedImage} {tasks : List CacheTask}
    (waiting : ∀ task ∈ tasks, Waits loc task) (found : p.cache.get loc = some l)
    (loaded : l.imageUnloaded = false) (processed : p.processTasks tasks now = some next) :
    ∃ answers, next = { p with answers := p.answers ++ answers } ∧
      List.Forall₂ (AnsweredFrom l p.sets.length) tasks answers := by
  induction tasks generalizing p with
  | nil =>
      cases processed
      exact ⟨[], by simp, .nil⟩
  | cons task rest inductionHypothesis =>
      obtain ⟨middle, first, later⟩ := Option.bind_eq_some_iff.mp processed
      have waits := waiting task List.mem_cons_self
      rw [processTask_waiting waits found loaded] at first
      obtain ⟨image, copied, rfl⟩ := Option.map_eq_some_iff.mp first
      obtain ⟨answers, same, each⟩ := @inductionHypothesis
        (p.answer task image) (fun other member => waiting other (List.mem_cons_of_mem _ member))
        found later
      refine ⟨⟨task.ret, task.loc, image, p.sets.length⟩ :: answers, ?_, ?_⟩
      · rw [same]
        simp [Processor.answer]
      · exact .cons ⟨image, copied, rfl⟩ each

/-- The entry of a tile after a file was read for it. -/
def Processor.entered (p : Processor) (loc : ImageLocation) (image : CachedImage) : CachedImage :=
  match p.cache.get loc with
  | some t => processCacheLoad t image
  | none => image

theorem enterReturn_cache (p : Processor) (loc : ImageLocation) (image : CachedImage) :
    (p.enterReturn loc image).cache = p.cache.set loc (p.entered loc image) := by
  unfold Processor.enterReturn Processor.entered
  cases p.cache.get loc <;> rfl

@[simp] theorem enterReturn_cacheReturn (p : Processor) (loc : ImageLocation)
    (image : CachedImage) : (p.enterReturn loc image).cacheReturn = p.cacheReturn := by
  unfold Processor.enterReturn
  split <;> rfl

@[simp] theorem enterReturn_hand (p : Processor) (loc : ImageLocation) (image : CachedImage) :
    (p.enterReturn loc image).hand = p.hand := by
  unfold Processor.enterReturn
  split <;> rfl

@[simp] theorem enterReturn_sets (p : Processor) (loc : ImageLocation) (image : CachedImage) :
    (p.enterReturn loc image).sets = p.sets := by
  unfold Processor.enterReturn
  split <;> rfl

@[simp] theorem enterReturn_answers (p : Processor) (loc : ImageLocation) (image : CachedImage) :
    (p.enterReturn loc image).answers = p.answers := by
  unfold Processor.enterReturn
  split <;> rfl

/-- After a read the entry counts as loaded. -/
theorem entered_loaded {loc : ImageLocation} {image : CachedImage}
    (loaded : image.imageUnloaded = false) : (p.entered loc image).imageUnloaded = false := by
  unfold Processor.entered
  split
  · unfold processCacheLoad
    split
    · rfl
    · split
      · rfl
      · simp_all
  · exact loaded

/-- What `processReturn` amounts to after a successful read: the entry is loaded, the
gets that waited for it are answered from it, and nothing else changes. -/
structure Woken (p : Processor) (loc : ImageLocation) (image : CachedImage) (next : Processor) :
    Prop where
  cache : next.cache = p.cache.set loc (p.entered loc image)
  cacheReturn : ∀ other, next.cacheReturn.get other =
    if other = loc then none else p.cacheReturn.get other
  hand : next.hand = p.hand
  sets : next.sets = p.sets
  answers : ∃ answers, next.answers = p.answers ++ answers ∧ ∀ a ∈ answers, ∃ task copied,
    Waits loc task ∧ answerFrom (p.entered loc image) task.loc = some copied ∧
      a = ⟨task.ret, task.loc, copied, p.sets.length⟩

/-- `processReturn` after a successful read: the gets that waited are answered one by one, and
then their list goes. -/
theorem processReturn_eq {loc : ImageLocation} {image : CachedImage} (belong : WaitersBelong p)
    (loaded : image.imageUnloaded = false)
    (processed : p.processReturn ⟨loc, some image⟩ now = some next) :
    ∃ answers cacheReturn,
      next = { p.enterReturn loc image with
        answers := p.answers ++ answers, cacheReturn := cacheReturn } ∧
      (∀ other, cacheReturn.get other =
        if other = loc then none else p.cacheReturn.get other) ∧
      List.Forall₂ (AnsweredFrom (p.entered loc image) p.sets.length)
        ((p.cacheReturn.get loc).getD []) answers ∧
      (p.enterReturn loc image).processTasks ((p.cacheReturn.get loc).getD []) now =
        some { p.enterReturn loc image with answers := p.answers ++ answers } := by
  unfold Processor.processReturn at processed
  dsimp only at processed
  rw [enterReturn_cacheReturn] at processed
  cases waiting : p.cacheReturn.get loc with
  | none =>
      rw [waiting] at processed
      cases processed
      have same : p.enterReturn loc image =
          { p.enterReturn loc image with answers := p.answers ++ [] } := by
        rw [List.append_nil, ← enterReturn_answers p loc image]
      refine ⟨[], p.cacheReturn, ?_, fun other => ?_, .nil, congrArg some same⟩
      · rw [List.append_nil, ← enterReturn_answers p loc image,
          ← enterReturn_cacheReturn p loc image]
      · split
        · rename_i here
          rw [here]
          exact waiting
        · rfl
  | some waiters =>
      rw [waiting] at processed
      obtain ⟨middle, woke, same⟩ := Option.bind_eq_some_iff.mp processed
      cases same
      have found : (p.enterReturn loc image).cache.get loc = some (p.entered loc image) := by
        rw [enterReturn_cache, Map.get_set_self]
      obtain ⟨answers, rfl, each⟩ := processTasks_waiting (belong loc waiters waiting) found
        (entered_loaded loaded) woke
      rw [enterReturn_sets] at each
      rw [enterReturn_answers] at woke
      refine ⟨answers, p.cacheReturn.delete loc, ?_, Map.get_delete _ _, each, woke⟩
      rw [← enterReturn_cacheReturn p loc image, ← enterReturn_answers p loc image]

theorem woken_of_processReturn {loc : ImageLocation} {image : CachedImage}
    (belong : WaitersBelong p) (loaded : image.imageUnloaded = false)
    (processed : p.processReturn ⟨loc, some image⟩ now = some next) : Woken p loc image next := by
  obtain ⟨answers, cacheReturn, rfl, deleted, each, -⟩ := processReturn_eq belong loaded processed
  refine ⟨enterReturn_cache p loc image, deleted, by simp, by simp, answers, rfl, ?_⟩
  intro a member
  obtain ⟨task, waiter, copied, answered, same⟩ := exists_of_forall₂ each member
  exact ⟨task, copied, belong.waits loc task waiter, answered, same⟩

theorem WaitersBelong.woken {loc : ImageLocation} {image : CachedImage} (belong : WaitersBelong p)
    (woken : Woken p loc image next) : WaitersBelong next := by
  intro other tasks found
  rw [woken.cacheReturn] at found
  split at found
  · cases found
  · exact belong other tasks found

/-- What an unload keeps was there. -/
theorem of_get_processUnload {interval : Int} {loc : ImageLocation} {v : CachedImage}
    (found : (p.processUnload interval now).cache.get loc = some v) :
    p.cache.get loc = some v := by
  obtain ⟨before, stored, kept⟩ := Option.bind_eq_some_iff.mp found
  dsimp only at kept
  split at kept
  · cases kept
  · cases kept
    exact stored

/-- What an unload drops was synced, and as its stamp has it not used for longer than the
interval. -/
theorem dropped_of_processUnload {interval : Int} {loc : ImageLocation} {v : CachedImage}
    (stored : p.cache.get loc = some v)
    (dropped : (p.processUnload interval now).cache.get loc = none) :
    v.syncedToDisk = true ∧ now - v.lastUse > interval := by
  simp only [Processor.processUnload, Map.get_range, stored, Option.bind_some] at dropped
  split at dropped
  · rename_i unused
    exact unused
  · cases dropped

end WebChunk.ImageCache
