import Mathlib.Data.Finset.Card
import WebChunk.Go.Map
import WebChunk.ImageCache.Geometry

/-!
# The image cache processor

What the one goroutine of `processor` does to its two maps: `cache`, with the
pictures it holds, and `cacheReturn`, with the gets that wait for a file. A read
which it has to put into `ioTasks` is left in `hand`; the system lets the processor
go on only when there was room for it. Times are nanoseconds, the zero time is 0.
-/

namespace WebChunk.ImageCache

open WebChunk.Go

structure CachedImage where
  img : Option RGBA
  loc : ImageLocation := ⟨"", "", "", 0, 0, 0⟩
  syncedToDisk : Bool := false
  lastUse : Int := 0
  modTime : Int := 0
  imageUnloaded : Bool := false

/-- `cacheTask`: a set when it has a picture, else a get. The result channel of a get
is named by a number. -/
structure CacheTask where
  loc : ImageLocation
  img : Option RGBA := none
  ret : Nat := 0

/-- `cacheTaskIO` on its way to the IO workers: a read, or a save when it has a
picture. -/
structure CacheTaskIo where
  loc : ImageLocation
  img : Option CachedImage := none

/-- `cacheTaskIO` on its way back, with the picture or without one when it has an
error. -/
structure IoReturn where
  loc : ImageLocation
  img : Option CachedImage

/-- A value sent to the result channel of a get, with the number of sets that were
accepted before. -/
structure Answer where
  ret : Nat
  loc : ImageLocation
  image : CachedImage
  after : Nat

/-- The state of the processor. The last two fields record its history. -/
structure Processor where
  cache : Map ImageLocation CachedImage := .empty
  cacheReturn : Map ImageLocation (List CacheTask) := .empty
  cacheStatLen : Int := 0
  cacheStatUncommited : Int := 0
  hand : List CacheTaskIo := []
  answers : List Answer := []
  sets : List CacheTask := []

/-- The side of a storage tile in pixels. -/
def tileSide : Nat := 512

/-- A picture with nothing drawn on it. -/
def blankTile : RGBA := .new tileSide tileSide

/-- `copyCachedImage`. -/
def copyCachedImage (image : CachedImage) : CachedImage where
  img := image.img.map copyRGBA
  syncedToDisk := image.syncedToDisk
  lastUse := image.lastUse
  modTime := image.modTime

/-- `copySmallerCachedImage`. -/
def copySmallerCachedImage (image : CachedImage) (target : ImageLocation) : Option CachedImage := do
  let img ← match image.img with
    | none => some none
    | some source => (copyFragmentRGBA source target).map some
  return { image with img := img, imageUnloaded := false }

/-- The picture of a set drawn on a picture of the cache. -/
def drawSet (picture : RGBA) (task : CacheTask) (image : RGBA) : RGBA :=
  if task.loc.S = 0 then
    let (rx, rz) := IN task.loc.X task.loc.Z
    picture.draw ⟨rx * 16, rz * 16, rx * 16 + 16, rz * 16 + 16⟩ image 0 0
  else picture.draw picture.rect image 0 0

/-- A whole tile drawn on a picture of its size. -/
theorem drawSet_whole {picture image : RGBA} {task : CacheTask}
    (storage : task.loc.S = StorageLevel)
    (size : picture.dx = image.dx ∧ picture.dy = image.dy) : drawSet picture task image = image := by
  have notBlock : task.loc.S ≠ 0 := by
    rw [storage]
    decide
  rw [drawSet, if_neg notBlock]
  exact RGBA.draw_whole size.1 size.2

/-- `processCacheLoad`: the entry after a file was read for it. -/
def processCacheLoad (t image : CachedImage) : CachedImage :=
  match image.img with
  | none => { t with imageUnloaded := false }
  | some loaded =>
      if t.imageUnloaded then
        let merged := match t.img with
          | none => loaded
          | some unsaved => loaded.draw loaded.rect unsaved 0 0
        { t with img := some merged, imageUnloaded := false, syncedToDisk := true }
      else t

namespace Processor

/-- `task.ret <- image`. -/
def answer (p : Processor) (task : CacheTask) (image : CachedImage) : Processor :=
  { p with answers := p.answers ++ [⟨task.ret, task.loc, image, p.sets.length⟩] }

/-- `c.ioTasks <- &cacheTaskIO{loc: loc}`. -/
def read (p : Processor) (loc : ImageLocation) : Processor :=
  { p with hand := p.hand ++ [{ loc := loc }] }

/-- Append a task to the gets waiting for `loc`. -/
def wait (p : Processor) (loc : ImageLocation) (task : CacheTask) : Processor :=
  { p with cacheReturn := p.cacheReturn.set loc ((p.cacheReturn.get loc).getD [] ++ [task]) }

/-- `processNativeImageGet`: any entry is a hit, also one whose file was not read yet. -/
def processNativeImageGet (p : Processor) (task : CacheTask) : Processor :=
  match p.cache.get task.loc with
  | some l => p.answer task (copyCachedImage l)
  | none => (p.wait task.loc task).read task.loc

/-- `processSmallerImageGet` on the storage tile of the task: without an entry it makes
one that has no picture yet. -/
def processSmallerImageGet (p : Processor) (task : CacheTask) (now : Int) : Option Processor := do
  let loc ← getStorageLevelLoc task.loc
  match p.cache.get loc with
  | some l =>
      if l.imageUnloaded then return p.wait loc task
      else return p.answer task (← copySmallerCachedImage l task.loc)
  | none =>
      let l : CachedImage := { img := none, loc := loc, lastUse := now, imageUnloaded := true }
      let p := { p.read loc with cache := p.cache.set loc l, cacheStatLen := p.cacheStatLen + 1 }
      return p.wait loc task

/-- `processImageGet`. -/
def processImageGet (p : Processor) (task : CacheTask) (now : Int) : Option Processor :=
  if task.loc.S > StorageLevel then some (p.answer task { img := none, loc := task.loc })
  else if task.loc.S = StorageLevel then some (p.processNativeImageGet task)
  else p.processSmallerImageGet task now

/-- `processImageSet`: the entry has the key of the task, at both scales it accepts. -/
def processImageSet (p : Processor) (task : CacheTask) (image : RGBA) (now : Int) :
    Option Processor := do
  if task.loc.S ≠ StorageLevel ∧ task.loc.S ≠ 0 then return p
  let p := { p with sets := p.sets ++ [task] }
  match p.cache.get task.loc with
  | some t =>
      let picture := drawSet (t.img.getD blankTile) task image
      return { p with
        cache := p.cache.set task.loc { t with syncedToDisk := false, img := some picture } }
  | none =>
      let native ← getStorageLevelLoc task.loc
      let t : CachedImage :=
        { img := some (drawSet blankTile task image), loc := native, lastUse := now,
          imageUnloaded := true }
      return { p.read task.loc with
        cache := p.cache.set task.loc t
        cacheStatUncommited := p.cacheStatUncommited + 1
        cacheStatLen := p.cacheStatLen + 1 }

/-- `processTask`. -/
def processTask (p : Processor) (task : CacheTask) (now : Int) : Option Processor :=
  match task.img with
  | none => p.processImageGet task now
  | some image => p.processImageSet task image now

/-- The waiting gets, one after the other. -/
def processTasks (p : Processor) (tasks : List CacheTask) (now : Int) : Option Processor :=
  match tasks with
  | [] => some p
  | task :: rest => do
      let p ← p.processTask task now
      p.processTasks rest now

/-- The first half of `processReturn`: what was read goes into the cache. -/
def enterReturn (p : Processor) (loc : ImageLocation) (image : CachedImage) : Processor :=
  match p.cache.get loc with
  | some t => { p with cache := p.cache.set loc (processCacheLoad t image) }
  | none =>
      { p with
        cache := p.cache.set loc image
        cacheStatUncommited := p.cacheStatUncommited + 1
        cacheStatLen := p.cacheStatLen + 1 }

/-- `processReturn`: a failed read leaves everything as it is. -/
def processReturn (p : Processor) (task : IoReturn) (now : Int) : Option Processor :=
  match task.img with
  | none => some p
  | some image =>
      let p := p.enterReturn task.loc image
      match p.cacheReturn.get task.loc with
      | none => some p
      | some ret => do
          let p ← p.processTasks ret now
          return { p with cacheReturn := p.cacheReturn.delete task.loc }

/-- `processUnload`: synced entries not used for longer than `interval` are dropped. -/
def processUnload (p : Processor) (interval now : Int) : Processor :=
  let cache := p.cache.range fun _ v =>
    if v.syncedToDisk ∧ now - v.lastUse > interval then none else some v
  { p with
    cache := cache
    cacheStatLen := cache.keys.card
    cacheStatUncommited :=
      (cache.keys.filter fun k => (cache.get k).any fun v => !v.syncedToDisk).card }

end Processor

end WebChunk.ImageCache
