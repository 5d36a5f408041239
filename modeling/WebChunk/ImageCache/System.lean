import WebChunk.Go.Channel
import WebChunk.Go.Png
import WebChunk.ImageCache.Processor
import WebChunk.Semantics.Machine

/-!
# The image cache as one machine

The processor, its IO workers and the tile files. An action lets one of them take its
next step; clock readings and the outcomes of file operations are part of the action.
Saving walks over the cache entry by entry, since the IO workers read files meanwhile.
The callers of the cache are ready to receive their answers.
-/

namespace WebChunk.ImageCache

open WebChunk.Go WebChunk.Semantics

/-- What is configured: the root directory, the queue lengths, the number of IO workers
and `unusedUnload` in nanoseconds; and what a picture is read back as once `png.Encode`
wrote it. -/
structure Config where
  root : String
  taskQueueLen : Nat := 256
  ioQueueLen : Nat := 256
  ioProcessors : Nat := 4
  unusedUnload : Int := 30 * 1000000000
  png : RGBA → RGBA := RGBA.throughPng

/-- `cacheGetFilenameLoc`. -/
def Config.filename (cfg : Config) (loc : ImageLocation) : String :=
  cacheGetFilenameLoc cfg.root loc

/-- A file, with the picture it decodes to if it does. -/
structure File where
  picture : Option RGBA
  modTime : Int

/-- The files, by path. -/
abbrev Disk := String → Option File

/-- The picture that the file at a path holds; an absent file holds none. -/
def Disk.picture (disk : Disk) (path : String) : Option RGBA :=
  (disk path).bind File.picture

/-- How `cacheLoad` ends: `os.Open` fails for another reason than an absent file,
`png.Decode` fails, or neither. -/
inductive LoadOutcome where
  | openFails
  | decodeFails
  | succeeds (now : Int)

/-- How `cacheSave` ends: with an error, leaving some file or none, or with success. -/
inductive SaveOutcome where
  | fails (left : Option File)
  | succeeds (now : Int)

/-- `cacheLoad`: the loaded picture, `none` on an error, and the files. A file that
cannot be decoded is removed. -/
def cacheLoad (cfg : Config) (disk : Disk) (loc : ImageLocation) :
    LoadOutcome → Option (Option CachedImage × Disk)
  | .openFails => some (none, disk)
  | .decodeFails =>
      match disk (cfg.filename loc) with
      | none => none
      | some _ => some (none, Function.update disk (cfg.filename loc) none)
  | .succeeds now =>
      match disk (cfg.filename loc) with
      | none => some (some { img := none, loc := loc, syncedToDisk := true, lastUse := now }, disk)
      | some file =>
          match file.picture with
          | none => none
          | some picture =>
              some (some { img := some picture, loc := loc, syncedToDisk := true, lastUse := now,
                           modTime := file.modTime }, disk)

/-- `cacheSave` of a picture that is there. The result says whether it succeeded. -/
def cacheSave (cfg : Config) (disk : Disk) (picture : RGBA) (loc : ImageLocation) :
    SaveOutcome → Bool × Disk
  | .fails left => (false, Function.update disk (cfg.filename loc) left)
  | .succeeds now =>
      (true, Function.update disk (cfg.filename loc) (some ⟨some (cfg.png picture), now⟩))

/-- One goroutine of `processorIO`: at its range loop, with a task, about to put the
task into `ioReturn`, or returned. -/
inductive IoWorker where
  | idle
  | holding (task : CacheTaskIo)
  | returning (task : IoReturn)
  | ended

/-- Where the processor is: at its select, in `processSave` with the entries still to be
visited, or past its loop. `final` is the save after the context was cancelled. -/
inductive Phase where
  | selecting
  | saving (todo : Finset ImageLocation) (final : Bool)
  | stopped

/-- The run-time panics of the processor; each ends the process. -/
inductive Panic where
  | indexOutOfRange
  | nilImage
  deriving DecidableEq

structure State where
  tasks : Chan CacheTask
  ioTasks : Chan CacheTaskIo
  ioReturn : Chan IoReturn
  p : Processor
  phase : Phase
  workers : List IoWorker
  disk : Disk
  panicked : Option Panic

/-- `NewImageCache` over the files found on disk. -/
def State.initial (cfg : Config) (disk : Disk) : State where
  tasks := .make cfg.taskQueueLen
  ioTasks := .make cfg.ioQueueLen
  ioReturn := .make cfg.ioQueueLen
  p := {}
  phase := .selecting
  workers := List.replicate cfg.ioProcessors .idle
  disk := disk
  panicked := none

inductive Action where
  | submit (task : CacheTask)
  | takeTask (now : Int)
  | takeReturn (now : Int)
  | flush
  | autosave
  | saveEntry (loc : ImageLocation) (outcome : SaveOutcome)
  | saved
  | unload (now : Int)
  | cancel
  | ioTake (i : Nat)
  | ioLoad (i : Nat) (outcome : LoadOutcome)
  | ioSave (i : Nat) (outcome : SaveOutcome)
  | ioPush (i : Nat)

namespace State

/-- The processor is at its select with nothing left in its hand. -/
def ready (s : State) : Bool :=
  match s.phase with
  | .selecting => s.p.hand.isEmpty
  | _ => false

/-- The processor after a task, or the panic in it. -/
def proceed (s : State) (outcome : Option Processor) : State :=
  match outcome with
  | some p => { s with p := p }
  | none => { s with panicked := some .indexOutOfRange }

/-- `c.tasks <- task`. -/
def submit (s : State) (task : CacheTask) : Option State :=
  match s.tasks.send task with
  | .sent tasks => some { s with tasks := tasks }
  | _ => none

/-- `case task := <-c.tasks`. -/
def takeTask (s : State) (now : Int) : Option State :=
  if s.ready then
    match s.tasks.receive with
    | .received task tasks =>
        some ({ s with tasks := tasks }.proceed (s.p.processTask task now))
    | _ => none
  else none

/-- `case ret := <-c.ioReturn`. -/
def takeReturn (s : State) (now : Int) : Option State :=
  if s.ready then
    match s.ioReturn.receive with
    | .received task ioReturn =>
        some ({ s with ioReturn := ioReturn }.proceed (s.p.processReturn task now))
    | _ => none
  else none

/-- A read in the processor's hand finds room in `ioTasks`. -/
def flush (s : State) : Option State :=
  match s.p.hand with
  | [] => none
  | task :: rest =>
      match s.ioTasks.send task with
      | .sent ioTasks => some { s with ioTasks := ioTasks, p := { s.p with hand := rest } }
      | _ => none

/-- `case <-autosaveTimer.C`. -/
def autosave (s : State) : Option State :=
  if s.ready then some { s with phase := .saving s.p.cache.keys false } else none

/-- `processSave` at one entry: an unsynced one is written, and a picture that is not
there panics in `png.Encode` after the file was truncated. -/
def saveEntry (cfg : Config) (s : State) (loc : ImageLocation) (outcome : SaveOutcome) :
    Option State :=
  match s.phase with
  | .saving todo final =>
      if loc ∈ todo then
        let s := { s with phase := .saving (todo.erase loc) final }
        match s.p.cache.get loc with
        | none => some s
        | some v =>
            if v.syncedToDisk then some s
            else
              match v.img with
              | some picture =>
                  match cacheSave cfg s.disk picture loc outcome with
                  | (false, disk) => some { s with disk := disk }
                  | (true, disk) =>
                      let cache := s.p.cache.set loc { v with syncedToDisk := true }
                      some { s with disk := disk, p := { s.p with cache := cache } }
              | none =>
                  match outcome with
                  | .fails left =>
                      some { s with disk := Function.update s.disk (cfg.filename loc) left }
                  | .succeeds now =>
                      let disk := Function.update s.disk (cfg.filename loc) (some ⟨none, now⟩)
                      some { s with disk := disk, panicked := some .nilImage }
      else none
  | _ => none

/-- `processSave` has visited every entry. After the last save `ioTasks` is closed. -/
def saved (s : State) : Option State :=
  match s.phase with
  | .saving todo final =>
      if todo = ∅ then
        if final then some { s with phase := .stopped, ioTasks := s.ioTasks.close }
        else some { s with phase := .selecting }
      else none
  | _ => none

/-- `case <-unloadTimer.C`. -/
def unload (cfg : Config) (s : State) (now : Int) : Option State :=
  if s.ready then some { s with p := s.p.processUnload cfg.unusedUnload now } else none

/-- `case <-c.ctx.Done()`. -/
def cancel (s : State) : Option State :=
  if s.ready then some { s with phase := .saving s.p.cache.keys true } else none

def setIoWorker (s : State) (i : Nat) (worker : IoWorker) : State :=
  { s with workers := s.workers.set i worker }

/-- `for task := range in` of worker `i`. -/
def ioTake (s : State) (i : Nat) : Option State :=
  match s.workers[i]?, s.ioTasks.receive with
  | some .idle, .received task ioTasks =>
      some ({ s with ioTasks := ioTasks }.setIoWorker i (.holding task))
  | some .idle, .drained => some (s.setIoWorker i .ended)
  | _, _ => none

/-- `cacheLoad` in worker `i`, for a task without a picture. -/
def ioLoad (cfg : Config) (s : State) (i : Nat) (outcome : LoadOutcome) : Option State :=
  match s.workers[i]? with
  | some (.holding ⟨loc, none⟩) =>
      match cacheLoad cfg s.disk loc outcome with
      | some (img, disk) =>
          some ({ s with disk := disk }.setIoWorker i (.returning ⟨loc, img⟩))
      | none => none
  | _ => none

/-- `cacheSave` in worker `i`, for a task with a picture. -/
def ioSave (cfg : Config) (s : State) (i : Nat) (outcome : SaveOutcome) : Option State :=
  match s.workers[i]? with
  | some (.holding ⟨loc, some image⟩) =>
      match image.img with
      | none => some { s with panicked := some .nilImage }
      | some picture =>
          match cacheSave cfg s.disk picture loc outcome with
          | (success, disk) =>
              let back : IoReturn := ⟨loc, if success then some image else none⟩
              some ({ s with disk := disk }.setIoWorker i (.returning back))
  | _ => none

/-- `out <- task` of worker `i`. -/
def ioPush (s : State) (i : Nat) : Option State :=
  match s.workers[i]? with
  | some (.returning task) =>
      match s.ioReturn.send task with
      | .sent ioReturn => some ({ s with ioReturn := ioReturn }.setIoWorker i .idle)
      | _ => none
  | _ => none

end State

/-- The step of the image cache. A panic ends the process. -/
def step (cfg : Config) (s : State) (action : Action) : Option State :=
  if s.panicked.isSome then none
  else
    match action with
    | .submit task => s.submit task
    | .takeTask now => s.takeTask now
    | .takeReturn now => s.takeReturn now
    | .flush => s.flush
    | .autosave => s.autosave
    | .saveEntry loc outcome => s.saveEntry cfg loc outcome
    | .saved => s.saved
    | .unload now => s.unload cfg now
    | .cancel => s.cancel
    | .ioTake i => s.ioTake i
    | .ioLoad i outcome => s.ioLoad cfg i outcome
    | .ioSave i outcome => s.ioSave cfg i outcome
    | .ioPush i => s.ioPush i

/-- The image cache with its environment. -/
def machine (cfg : Config) : Machine State Action := ⟨step cfg⟩

/-- A cache for concrete runs. -/
def sampleConfig : Config where
  root := "cachedImages"

/-- A tile with one pixel painted on it, for concrete runs. -/
def paintedTile : RGBA where
  dx := tileSide
  dy := tileSide
  pix x y := if x = 0 ∧ y = 0 then ⟨255, 0, 0, 255⟩ else .blank
  outside x y out := by
    rw [if_neg]
    rintro ⟨rfl, rfl⟩
    exact out (by decide)

/-- The painted tile is read back as it was set. -/
theorem drawnTile_png {task : CacheTask} (storage : task.loc.S = StorageLevel) :
    sampleConfig.png (drawSet blankTile task paintedTile) = drawSet blankTile task paintedTile := by
  have whole : drawSet blankTile task paintedTile = paintedTile :=
    drawSet_whole storage ⟨rfl, rfl⟩
  rw [whole]
  refine RGBA.throughPng_eq fun x y => ?_
  unfold paintedTile
  dsimp only
  split
  · exact .inl rfl
  · exact .inr rfl

/-- A read taken by IO worker 0 and returned to the processor. -/
def readBack (outcome : LoadOutcome) (now : Int) : List Action :=
  [.flush, .ioTake 0, .ioLoad 0 outcome, .ioPush 0, .takeReturn now]

end WebChunk.ImageCache
