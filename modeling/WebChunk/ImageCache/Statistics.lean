import WebChunk.Go.MapSum
import WebChunk.ImageCache.Waiters

/-!
# Are the statistics exact?

`GetStats` reports two counters that the processor keeps beside its cache. Where entries are made
both are counted up, an unload counts anew; what makes an entry unsynced or synced otherwise
does not look at them.
-/

namespace WebChunk.ImageCache

open WebChunk.Go WebChunk.Semantics

/-- What `GetStats` reports. -/
structure Stats where
  root : String
  ioQueueCapacity : Nat
  ioQueueLength : Nat
  taskQueueCapacity : Nat
  taskQueueLength : Nat
  cachedImages : Int
  unwrittenImages : Int

def State.GetStats (cfg : Config) (s : State) : Stats where
  root := cfg.root
  ioQueueCapacity := s.ioTasks.capacity
  ioQueueLength := s.ioTasks.buffer.length
  taskQueueCapacity := s.tasks.capacity
  taskQueueLength := s.tasks.buffer.length
  cachedImages := s.p.cacheStatLen
  unwrittenImages := s.p.cacheStatUncommited

/-- The number of entries that are not synced. -/
def unsyncedCount (cache : Map ImageLocation CachedImage) : Nat :=
  (cache.keys.filter fun key => (cache.get key).any fun v => !v.syncedToDisk).card

/-- The counters are the numbers of entries and of unsynced entries. -/
structure Processor.Exact (p : Processor) : Prop where
  len : p.cacheStatLen = p.cache.keys.card
  uncommited : p.cacheStatUncommited = unsyncedCount p.cache

/-- `GetStats` reports the true numbers. -/
def StatsExact (cfg : Config) (s : State) : Prop :=
  (s.GetStats cfg).cachedImages = s.p.cache.keys.card ∧
    (s.GetStats cfg).unwrittenImages = unsyncedCount s.p.cache

/-- The task is neither a smaller get of a tile without an entry nor a set to a synced one. -/
def Processor.countsTask (p : Processor) (task : CacheTask) : Bool :=
  match task.img with
  | none =>
      !decide (task.loc.S < StorageLevel) ||
        (getStorageLevelLoc task.loc).all fun loc => (p.cache.get loc).isSome
  | some _ =>
      !decide (task.loc.S = StorageLevel ∨ task.loc.S = 0) ||
        (p.cache.get task.loc).all fun t => !t.syncedToDisk

/-- The read failed, or its tile has an entry, and if that is unsynced and not loaded yet no
file was found. -/
def Processor.countsReturn (p : Processor) (task : IoReturn) : Bool :=
  match task.img with
  | none => true
  | some image =>
      (p.cache.get task.loc).any fun t =>
        t.syncedToDisk || !t.imageUnloaded || image.img.isNone

/-- The step changes the number of unsynced entries no more than it counts. -/
def countsChange (s : State) : Action → Bool
  | .takeTask _ =>
      match s.tasks.buffer with
      | task :: _ => s.p.countsTask task
      | [] => true
  | .takeReturn _ =>
      match s.ioReturn.buffer with
      | task :: _ => s.p.countsReturn task
      | [] => true
  | .saveEntry loc (.succeeds _) =>
      (s.p.cache.get loc).all fun v => v.syncedToDisk || v.img.isNone
  | _ => true

/-! ### Counting entries -/

/-- What an entry adds to the unsynced ones. -/
def owed (v : CachedImage) : Nat := if !v.syncedToDisk then 1 else 0

theorem unsyncedCount_set (cache : Map ImageLocation CachedImage) (loc : ImageLocation)
    (v : CachedImage) :
    unsyncedCount (cache.set loc v) + (cache.get loc).elim 0 owed =
      unsyncedCount cache + owed v := by
  have counted : ∀ cache : Map ImageLocation CachedImage,
      unsyncedCount cache = cache.total owed := fun cache =>
    (cache.total_test fun v => !v.syncedToDisk).symm
  rw [counted, counted]
  exact cache.total_set loc v owed

theorem card_set (cache : Map ImageLocation CachedImage) (loc : ImageLocation)
    (v : CachedImage) :
    (cache.set loc v).keys.card + (cache.get loc).elim 0 (fun _ => 1) = cache.keys.card + 1 := by
  rw [← Map.total_one, ← Map.total_one]
  exact cache.total_set loc v fun _ => 1

variable {p next : Processor}

/-- An entry is set and the counter of entries moves. -/
theorem len_set_iff {loc : ImageLocation} {v : CachedImage} (entries : Int)
    (exact_ : p.cacheStatLen = p.cache.keys.card) (cache : next.cache = p.cache.set loc v)
    (len : next.cacheStatLen = p.cacheStatLen + entries) :
    next.cacheStatLen = next.cache.keys.card ↔
      entries + ((p.cache.get loc).elim 0 (fun _ => 1) : Nat) = 1 := by
  have card := card_set p.cache loc v
  rw [cache]
  omega

/-- An entry is set and the counter of unsynced entries moves. -/
theorem uncommited_set_iff {loc : ImageLocation} {v : CachedImage} (unsynced : Int)
    (exact_ : p.cacheStatUncommited = unsyncedCount p.cache)
    (cache : next.cache = p.cache.set loc v)
    (uncommited : next.cacheStatUncommited = p.cacheStatUncommited + unsynced) :
    next.cacheStatUncommited = unsyncedCount next.cache ↔
      unsynced + ((p.cache.get loc).elim 0 owed : Nat) = owed v := by
  have count := unsyncedCount_set p.cache loc v
  rw [cache]
  omega

/-- An entry is set and the counters move: they stay exact when they move with the entry. -/
theorem exact_set_iff {loc : ImageLocation} {v : CachedImage} (entries unsynced : Int)
    (exact_ : p.Exact) (cache : next.cache = p.cache.set loc v)
    (len : next.cacheStatLen = p.cacheStatLen + entries)
    (uncommited : next.cacheStatUncommited = p.cacheStatUncommited + unsynced) :
    next.Exact ↔ entries + ((p.cache.get loc).elim 0 (fun _ => 1) : Nat) = 1 ∧
      unsynced + ((p.cache.get loc).elim 0 owed : Nat) = owed v := by
  rw [← len_set_iff entries exact_.len cache len,
    ← uncommited_set_iff unsynced exact_.uncommited cache uncommited]
  exact ⟨fun ⟨moved, owing⟩ => ⟨moved, owing⟩, fun ⟨moved, owing⟩ => ⟨moved, owing⟩⟩

/-- Nothing changes. -/
theorem Processor.Exact.of_same (exact_ : p.Exact) (cache : next.cache = p.cache)
    (len : next.cacheStatLen = p.cacheStatLen)
    (uncommited : next.cacheStatUncommited = p.cacheStatUncommited) : next.Exact := by
  obtain ⟨oldLen, oldUncommited⟩ := exact_
  constructor
  · rw [cache, len, oldLen]
  · rw [cache, uncommited, oldUncommited]

/-- A task keeps the counters exact when it counts its change. -/
theorem exact_taskStep_iff {task : CacheTask} {now : Int} (exact_ : p.Exact)
    (taken : TaskStep p task now next) : next.Exact ↔ p.countsTask task := by
  cases taken with
  | tooLarge isGet large =>
      have other : ¬ task.loc.S < StorageLevel := Int.not_lt.mpr large.le
      exact iff_of_true (exact_.of_same rfl rfl rfl) (by simp [Processor.countsTask, isGet, other])
  | nativeHit isGet native _ | nativeMiss isGet native _ =>
      have other : ¬ task.loc.S < StorageLevel := Int.not_lt.mpr native.ge
      exact iff_of_true (exact_.of_same rfl rfl rfl) (by simp [Processor.countsTask, isGet, other])
  | smallerWaits isGet _ tile hit _ | smallerHit isGet _ tile hit _ _ =>
      exact iff_of_true (exact_.of_same rfl rfl rfl)
        (by simp [Processor.countsTask, isGet, tile, hit])
  | smallerMiss isGet smaller tile miss =>
      refine Iff.trans (exact_set_iff 1 0 exact_ rfl rfl (Int.add_zero _).symm) ?_
      simp [Processor.countsTask, isGet, smaller, tile, miss, owed]
  | setIgnored isSet other =>
      exact iff_of_true exact_ (by simp [Processor.countsTask, isSet, other])
  | @setHit image t isSet scale hit =>
      refine Iff.trans
        (exact_set_iff 0 0 exact_ rfl (Int.add_zero _).symm (Int.add_zero _).symm) ?_
      cases synced : t.syncedToDisk <;> simp [Processor.countsTask, isSet, scale, hit, owed, synced]
  | setMiss isSet scale miss tile =>
      refine Iff.trans (exact_set_iff 1 1 exact_ rfl rfl rfl) ?_
      simp [Processor.countsTask, isSet, miss, owed]

/-- A task that panics would have counted its change. -/
theorem countsTask_of_panic {task : CacheTask} {now : Int}
    (panics : p.processTask task now = none) : p.countsTask task := by
  obtain ⟨isGet, negative⟩ := negative_of_panic panics
  simp [Processor.countsTask, isGet, getStorageLevelLoc_negative negative]

/-! ### Reads that come back -/

/-- The gets that waited leave the counters as they are. -/
theorem counters_of_processReturn {loc : ImageLocation} {image : CachedImage} {now : Int}
    (belong : WaitersBelong p) (loaded : image.imageUnloaded = false)
    (processed : p.processReturn ⟨loc, some image⟩ now = some next) :
    next.cacheStatLen = (p.enterReturn loc image).cacheStatLen ∧
      next.cacheStatUncommited = (p.enterReturn loc image).cacheStatUncommited := by
  obtain ⟨_, _, rfl, -⟩ := processReturn_eq belong loaded processed
  exact ⟨rfl, rfl⟩

/-- A read keeps the counters exact when it counts its change. -/
theorem exact_processReturn_iff {task : IoReturn} {now : Int} (exact_ : p.Exact)
    (belong : WaitersBelong p) (fresh : ∀ image, task.img = some image → image.fresh)
    (processed : p.processReturn task now = some next) : next.Exact ↔ p.countsReturn task := by
  obtain ⟨loc, img⟩ := task
  cases img with
  | none =>
      cases processed
      exact iff_of_true exact_ rfl
  | some image =>
      obtain ⟨loaded, synced⟩ := fresh image rfl
      have woken := woken_of_processReturn belong loaded processed
      obtain ⟨len, uncommited⟩ := counters_of_processReturn belong loaded processed
      have entry := woken.cache
      cases found : p.cache.get loc with
      | none =>
          simp only [Processor.enterReturn, found] at len uncommited
          refine (exact_set_iff 1 1 exact_ entry len uncommited).trans ?_
          simp [Processor.countsReturn, Processor.entered, found, owed, synced]
      | some t =>
          simp only [Processor.enterReturn, found] at len uncommited
          refine (exact_set_iff 0 0 exact_ entry (len.trans (Int.add_zero _).symm)
            (uncommited.trans (Int.add_zero _).symm)).trans ?_
          have change : owed t = owed (processCacheLoad t image) ↔
              t.syncedToDisk || !t.imageUnloaded || image.img.isNone := by
            cases there : image.img <;> cases unloaded : t.imageUnloaded <;>
              cases known : t.syncedToDisk <;>
              simp [processCacheLoad, there, unloaded, known, owed]
          simp only [Processor.countsReturn, Processor.entered, found, Option.elim_some,
            Option.any_some, ← change]
          omega

/-! ### Runs -/

/-- The step lemma: the counters stay exact exactly when the step counts its change. -/
theorem exact_transition_iff {cfg : Config} {s next : State} {action : Action}
    (reads : ReadsOnly s) (exact_ : s.p.Exact) (transition : Transition cfg s action next) :
    next.p.Exact ↔ countsChange s action := by
  cases transition with
  | @takes now task tasks p _ received processed =>
      have front := (Chan.receive_received received).1
      rw [exact_taskStep_iff exact_ (taskStep_of_processTask processed)]
      simp only [countsChange, front]
  | @taskPanics now task tasks _ received panics =>
      have front := (Chan.receive_received received).1
      have counts := countsTask_of_panic panics
      exact iff_of_true exact_ (by simpa only [countsChange, front] using counts)
  | @returns now task ioReturn p _ received processed =>
      have front := (Chan.receive_received received).1
      have fresh := reads.returned task (front ▸ List.mem_cons_self)
      rw [exact_processReturn_iff exact_ reads.belong fresh processed]
      simp only [countsChange, front]
  | returnPanics _ received panics =>
      exact absurd panics (reads.processReturn_ne_none received _)
  | @keeps loc outcome _ _ _ _ synced =>
      refine iff_of_true exact_ ?_
      cases outcome with
      | fails left => rfl
      | succeeds now =>
          cases found : s.p.cache.get loc with
          | none => simp [countsChange, found]
          | some v => simp [countsChange, found, synced v found]
  | saves _ _ found unsynced there =>
      refine Iff.trans
        (exact_set_iff 0 0 exact_ rfl (Int.add_zero _).symm (Int.add_zero _).symm) ?_
      simp [countsChange, found, unsynced, there, owed]
  | savePanics _ _ found _ missing =>
      exact iff_of_true exact_ (by simp [countsChange, found, missing])
  | unloads _ => exact iff_of_true ⟨rfl, rfl⟩ rfl
  | ioSaves found => cases reads.holding _ _ found
  | flushes _ _ => exact iff_of_true (exact_.of_same rfl rfl rfl) rfl
  | submits _ | autosaves _ | saveFails _ _ _ _ | saved _ | savedLast _ | cancels _
  | ioTakes _ _ | ioEnds _ _ | ioLoads _ _ | ioPushes _ _ => exact iff_of_true exact_ rfl

/-- `GetStats` reports the two counters as they are. -/
theorem statsExact_iff_exact {cfg : Config} {s : State} : StatsExact cfg s ↔ s.p.Exact :=
  ⟨fun ⟨len, uncommited⟩ => ⟨len, uncommited⟩, fun ⟨len, uncommited⟩ => ⟨len, uncommited⟩⟩

/-- In every run the statistics are exact in every state exactly when every step counts the
change it makes. -/
theorem statsExact_iff (cfg : Config) (disk : Disk) (actions : List Action) (final : State)
    (run : (machine cfg).Runs (State.initial cfg disk) actions final) :
    (machine cfg).ReachesOnly (StatsExact cfg) (State.initial cfg disk) actions ↔
      (machine cfg).StepsOnly (fun s action => countsChange s action = true)
        (State.initial cfg disk) actions := by
  refine @Machine.Runs.reachesOnly_iff _ _ (machine cfg) (fun s => ReadsOnly s ∧ s.p.Exact)
    (StatsExact cfg) _ (fun invariant => statsExact_iff_exact.mpr invariant.2) ?_ ?_ _ _ _ run
    ⟨readsOnly_initial cfg disk, rfl, rfl⟩
  · rintro s action next ⟨reads, exact_⟩ counts step
    obtain ⟨_, transition⟩ := transition_of_step step
    exact ⟨reads.preserved transition, (exact_transition_iff reads exact_ transition).mpr counts⟩
  · rintro s action next ⟨reads, exact_⟩ changes step exactNext
    obtain ⟨_, transition⟩ := transition_of_step step
    exact changes ((exact_transition_iff reads exact_ transition).mp
      (statsExact_iff_exact.mp exactNext))

/-! ### The number of entries -/

theorem len_taskStep {task : CacheTask} {now : Int} (exact_ : p.cacheStatLen = p.cache.keys.card)
    (taken : TaskStep p task now next) : next.cacheStatLen = next.cache.keys.card := by
  cases taken with
  | smallerMiss _ _ _ miss => exact (len_set_iff 1 exact_ rfl rfl).mpr (by simp [miss])
  | setHit _ _ hit =>
      refine Iff.mpr (len_set_iff 0 exact_ rfl (Int.add_zero _).symm) ?_
      simp [hit]
  | setMiss _ _ miss _ => exact (len_set_iff 1 exact_ rfl rfl).mpr (by simp [miss])
  | _ => exact exact_

theorem len_processReturn {loc : ImageLocation} {image : CachedImage} {now : Int}
    (exact_ : p.cacheStatLen = p.cache.keys.card) (belong : WaitersBelong p)
    (loaded : image.imageUnloaded = false)
    (processed : p.processReturn ⟨loc, some image⟩ now = some next) :
    next.cacheStatLen = next.cache.keys.card := by
  have entry := (woken_of_processReturn belong loaded processed).cache
  have len := (counters_of_processReturn belong loaded processed).1
  cases found : p.cache.get loc with
  | none =>
      simp only [Processor.enterReturn, found] at len
      exact (len_set_iff 1 exact_ entry len).mpr (by simp [found])
  | some t =>
      simp only [Processor.enterReturn, found] at len
      exact (len_set_iff 0 exact_ entry (len.trans (Int.add_zero _).symm)).mpr (by simp [found])

/-- The number of cached images is exact in every run. -/
theorem cachedImages_exact (cfg : Config) (disk : Disk) (actions : List Action) (final : State)
    (run : (machine cfg).Runs (State.initial cfg disk) actions final) :
    (final.GetStats cfg).cachedImages = final.p.cache.keys.card := by
  have invariant : ReadsOnly final ∧ final.p.cacheStatLen = final.p.cache.keys.card := by
    refine @Machine.Runs.always _ _ (machine cfg)
      (fun s => ReadsOnly s ∧ s.p.cacheStatLen = s.p.cache.keys.card) ?_ _ _ _ run
      ⟨readsOnly_initial cfg disk, rfl⟩
    rintro s action next ⟨reads, exact_⟩ step
    obtain ⟨_, transition⟩ := transition_of_step step
    refine ⟨reads.preserved transition, ?_⟩
    cases transition with
    | takes _ _ processed => exact len_taskStep exact_ (taskStep_of_processTask processed)
    | @returns now task ioReturn p _ received processed =>
        have front := (Chan.receive_received received).1
        have fresh := reads.returned task (front ▸ List.mem_cons_self)
        obtain ⟨loc, img⟩ := task
        cases img with
        | none =>
            cases processed
            exact exact_
        | some image => exact len_processReturn exact_ reads.belong (fresh image rfl).1 processed
    | saves _ _ found _ _ =>
        refine Iff.mpr (len_set_iff 0 exact_ rfl (Int.add_zero _).symm) ?_
        simp [found]
    | unloads _ => rfl
    | ioSaves found => cases reads.holding _ _ found
    | _ => exact exact_
  exact invariant.2

/-- A native get of a tile without a file. -/
def readOnce : List Action :=
  [.submit { loc := ⟨"world", "overworld", "terrain", 5, 0, 0⟩ }, .takeTask 1] ++
  readBack (.succeeds 2) 3

/-- The entry of the tile is synced, and counted as unwritten. -/
theorem readOnce_countsUnwritten : ∃ (cfg : Config) (disk : Disk) (actions : List Action)
    (final : State), (machine cfg).Runs (State.initial cfg disk) actions final ∧
      final.ready = true ∧ ¬ StatsExact cfg final := by
  refine ⟨sampleConfig, fun _ => none, readOnce, _, Machine.runs_exec_get (by decide),
    by decide, fun exact_ => ?_⟩
  exact absurd exact_.2 (by decide)

/-- A set of a tile without a file, another one, an autosave that fails, a smaller get and an
unload. -/
def setTwice : List Action :=
  [.submit { loc := ⟨"world", "overworld", "terrain", 5, 0, 0⟩, img := some blankTile },
    .takeTask 1] ++
  readBack (.succeeds 2) 3 ++
  [.submit { loc := ⟨"world", "overworld", "terrain", 5, 0, 0⟩, img := some paintedTile },
    .takeTask 4, .autosave,
    .saveEntry ⟨"world", "overworld", "terrain", 5, 0, 0⟩ (.fails none), .saved,
    .submit { loc := ⟨"world", "overworld", "terrain", 4, 0, 0⟩ }, .takeTask 5, .unload 6]

theorem statsExact_setTwice :
    (machine sampleConfig).ReachesOnly (StatsExact sampleConfig)
      (State.initial sampleConfig fun _ => none) setTwice :=
  (statsExact_iff sampleConfig (fun _ => none) setTwice _
    (Machine.runs_exec_get (by decide))).mpr (Machine.stepsOnly_of_checkSteps (by decide))

end WebChunk.ImageCache
