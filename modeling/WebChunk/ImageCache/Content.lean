import WebChunk.ImageCache.DirtyFlag
import WebChunk.ImageCache.Picture

/-!
# The content of the image cache

Between its steps the processor keeps the logical picture of a tile in the entry of the
tile, or in the file while there is no entry or the entry waits for its file. The steps
that may lose it are those which `keepsContent` refuses.
-/

namespace WebChunk.ImageCache

open WebChunk.Go WebChunk.Semantics

/-- Every answer to a get in the tile is the crop of the logical picture at that time. It
is nil only when the tile had neither a file nor a set. -/
def AnswersRight (cfg : Config) (disk : Disk) (tile : ImageLocation) (s : State) : Prop :=
  ∀ a ∈ s.p.answers, tileOf a.loc = some tile →
    let file := disk.picture (cfg.filename tile)
    let sets := s.p.sets.take a.after
    match a.image.img with
    | some picture => ∃ whole, logical tile file sets = some whole ∧ picture = crop whole a.loc
    | none => file = none ∧ ∀ task ∈ sets, ¬ SetsTile tile task

/-- A read fits the entry of its tile: the file still holds what was read, unless the
entry has a picture of its own, which must then cover what was read. -/
def readFits (file : Option RGBA) (entry : Option CachedImage) (img : Option RGBA) : Prop :=
  match entry with
  | none => img = file
  | some t =>
      match t.imageUnloaded, t.img, img with
      | false, _, _ => True
      | true, none, _ => img = file
      | true, some _, none => True
      | true, some unsaved, some loaded => loaded.dx = unsaved.dx ∧ loaded.dy = unsaved.dy

/-- The steps which keep the logical picture of a tile: a native get does not meet an
entry that still waits for an existing file; a set of the tile has the size of the
picture it is drawn on; no set at `S = 0` is in the tile; reads of the tile fit; nothing
else is saved in its file; and an entry is unloaded only if its file has its picture. -/
def keepsContent (cfg : Config) (tile : ImageLocation) (s : State) : Action → Prop
  | .takeTask _ =>
      match s.tasks.buffer with
      | [] => True
      | ⟨loc, none, _⟩ :: _ =>
          loc = tile → ∀ v, s.p.cache.get tile = some v → v.imageUnloaded = true → v.img = none →
            s.disk.picture (cfg.filename tile) = none
      | ⟨loc, some image, _⟩ :: _ =>
          ¬ setsBlock tile loc ∧ (loc = tile →
            let before := ((s.p.cache.get tile).bind CachedImage.img).getD blankTile
            before.dx = image.dx ∧ before.dy = image.dy)
  | .takeReturn _ =>
      match s.ioReturn.buffer with
      | ⟨loc, some image⟩ :: _ =>
          loc = tile →
            readFits (s.disk.picture (cfg.filename tile)) (s.p.cache.get tile) image.img
      | _ => True
  | .saveEntry loc _ =>
      cfg.filename loc = cfg.filename tile →
        loc = tile ∨ ∀ v, s.p.cache.get loc = some v → v.syncedToDisk = true
  | .unload now =>
      ∀ v, s.p.cache.get tile = some v → v.syncedToDisk = true →
        now - v.lastUse > cfg.unusedUnload → v.img = s.disk.picture (cfg.filename tile)
  | _ => True

/-- The picture that an entry, or no entry, stands for while the file holds `file`. -/
def standsFor (file : Option RGBA) : Option CachedImage → Option RGBA
  | none => file
  | some v => if v.imageUnloaded then v.img.or file else v.img

/-- An answer in the tile is the crop of the logical picture after the sets before it. -/
structure RightAnswer (tile : ImageLocation) (file : Option RGBA) (sets : List CacheTask)
    (a : Answer) : Prop where
  after : a.after ≤ sets.length
  image : tileOf a.loc = some tile →
    a.image.img = (logical tile file (sets.take a.after)).map fun whole => crop whole a.loc

/-- The processor has answered rightly and has the logical picture. `before` is what the
file held at the start, `file` what it holds now. -/
structure HoldsPicture (tile : ImageLocation) (before file : Option RGBA) (p : Processor) :
    Prop where
  entry : logical tile before p.sets = standsFor file (p.cache.get tile)
  answers : ∀ a ∈ p.answers, RightAnswer tile before p.sets a

variable {tile : ImageLocation} {before file : Option RGBA} {p next : Processor}
  {task : CacheTask} {now : Int}

/-- Waiting gets are in the tile they wait for. -/
theorem Waits.tileOf_eq {loc : ImageLocation} (waits : Waits loc task) :
    tileOf task.loc = some loc ∧ task.loc.S ≤ StorageLevel := by
  obtain ⟨_, ⟨rfl, native⟩ | ⟨smaller, found⟩⟩ := waits
  · exact ⟨tileOf_native native, native.le⟩
  · exact ⟨(tileOf_smaller smaller).trans found, smaller.le⟩

/-- Later sets do not matter to an answer. -/
theorem RightAnswer.snoc {sets : List CacheTask} {a : Answer}
    (right : RightAnswer tile before sets a) : RightAnswer tile before (sets ++ [task]) a where
  after := by
    have earlier := right.after
    simp only [List.length_append, List.length_singleton]
    omega
  image inside := by
    rw [List.take_append_of_le_length right.after]
    exact right.image inside

/-- An entry with a picture stands for it, whatever its file holds. -/
theorem standsFor_some {v : CachedImage} {picture : RGBA} (own : v.img = some picture) :
    standsFor file (some v) = some picture := by
  rw [standsFor, own]
  split
  · rfl
  · rfl

/-- A picture that is the crop of the logical one now is a right answer. -/
theorem rightAnswer_now {sets : List CacheTask} {image : CachedImage}
    (right : tileOf task.loc = some tile →
      image.img = (logical tile before sets).map fun whole => crop whole task.loc) :
    RightAnswer tile before sets ⟨task.ret, task.loc, image, sets.length⟩ where
  after := Nat.le_refl _
  image inside := by
    rw [List.take_length]
    exact right inside

/-- A read that fits leaves the picture that the entry stood for. -/
theorem img_processCacheLoad {t image : CachedImage} (fits : readFits file (some t) image.img) :
    (processCacheLoad t image).img = standsFor file (some t) := by
  unfold processCacheLoad standsFor
  cases unloaded : t.imageUnloaded with
  | false => cases image.img <;> simp [unloaded]
  | true =>
      cases own : t.img with
      | none =>
          have same : image.img = file := by simpa [readFits, unloaded, own] using fits
          rw [same]
          cases file <;> simp [own, unloaded]
      | some unsaved =>
          cases there : image.img with
          | none => simp [own, unloaded]
          | some loaded =>
              have size : loaded.dx = unsaved.dx ∧ loaded.dy = unsaved.dy := by
                simpa [readFits, unloaded, own, there] using fits
              simp [own, unloaded, RGBA.draw_whole size.1 size.2]

theorem img_entered {image : CachedImage} (fits : readFits file (p.cache.get tile) image.img) :
    (p.entered tile image).img = standsFor file (p.cache.get tile) := by
  unfold Processor.entered
  cases found : p.cache.get tile with
  | none =>
      rw [found] at fits
      exact fits
  | some t =>
      rw [found] at fits
      exact img_processCacheLoad fits

namespace HoldsPicture

/-- One more answer. -/
theorem answer (holds : HoldsPicture tile before file p) {image : CachedImage}
    (right : tileOf task.loc = some tile →
      image.img = (logical tile before p.sets).map fun whole => crop whole task.loc) :
    HoldsPicture tile before file (p.answer task image) where
  entry := holds.entry
  answers a member := by
    rcases List.mem_append.mp member with old | new
    · exact holds.answers a old
    · rw [List.mem_singleton.mp new]
      exact rightAnswer_now right

/-- An answer from the entry of the tile, whose picture is the logical one. -/
theorem answerEntry (holds : HoldsPicture tile before file p) {loc : ImageLocation}
    {l image : CachedImage} (inside : tileOf task.loc = some loc)
    (small : task.loc.S ≤ StorageLevel)
    (logically : loc = tile → logical tile before p.sets = l.img)
    (answered : answerFrom l task.loc = some image) :
    HoldsPicture tile before file (p.answer task image) := by
  refine holds.answer fun here => ?_
  have same : loc = tile := Option.some.inj (inside.symm.trans here)
  rw [logically same]
  exact img_of_answerFrom small answered

/-- A set that was accepted, with the entry it leaves. -/
theorem accept (holds : HoldsPicture tile before file p)
    (same : p.answers = next.answers) (sets : next.sets = p.sets ++ [task])
    (entry : overwritten tile (logical tile before p.sets) task =
      standsFor file (next.cache.get tile)) :
    HoldsPicture tile before file next where
  entry := by
    rw [sets, logical_snoc]
    exact entry
  answers a member := by
    rw [sets]
    exact (holds.answers a (same ▸ member)).snoc

/-- What the tile stands for once the task has drawn its picture on an entry. -/
theorem drawn (holds : HoldsPicture tile before file p) (storage : tile.S = StorageLevel)
    {image : RGBA} {t : CachedImage} (isSet : task.img = some image)
    (shown : t.img =
      some (drawSet (((p.cache.get task.loc).bind CachedImage.img).getD blankTile) task image))
    (noBlock : ¬ setsBlock tile task.loc)
    (size : task.loc = tile →
      let picture := ((p.cache.get tile).bind CachedImage.img).getD blankTile
      picture.dx = image.dx ∧ picture.dy = image.dy) :
    overwritten tile (logical tile before p.sets) task =
      standsFor file ((p.cache.set task.loc t).get tile) := by
  rw [Map.get_set]
  split
  · rename_i same
    have fits := size same.symm
    rw [same] at fits
    rw [overwritten_whole isSet same.symm, standsFor_some shown]
    exact congrArg some (drawSet_whole (same ▸ storage) fits).symm
  · rename_i other
    rw [overwritten_elsewhere (Ne.symm other) noBlock]
    exact holds.entry

/-- The step lemma for a task. -/
theorem taskStep (holds : HoldsPicture tile before file p) (storage : tile.S = StorageLevel)
    (taken : TaskStep p task now next)
    (getFits : task.img = none → task.loc = tile → ∀ v, p.cache.get tile = some v →
      v.imageUnloaded = true → v.img = none → file = none)
    (setFits : ∀ image, task.img = some image → ¬ setsBlock tile task.loc ∧ (task.loc = tile →
      let picture := ((p.cache.get tile).bind CachedImage.img).getD blankTile
      picture.dx = image.dx ∧ picture.dy = image.dy)) :
    HoldsPicture tile before file next := by
  have entry := holds.entry
  cases taken with
  | tooLarge _ large =>
      refine holds.answer fun inside => ?_
      rw [tileOf_large large] at inside
      cases inside
  | @nativeHit l isGet native hit =>
      refine holds.answerEntry (tileOf_native native) native.le (fun same => ?_)
        (by rw [answerFrom, if_pos native])
      rw [same] at hit
      rw [hit] at entry
      rw [entry, standsFor]
      split
      · rename_i unloaded
        cases own : l.img with
        | none => rw [getFits isGet same l hit unloaded own]; rfl
        | some picture => rfl
      · rfl
  | nativeMiss _ _ _ | smallerWaits _ _ _ _ _ => exact ⟨holds.entry, holds.answers⟩
  | @smallerHit loc l image _ smaller found hit loaded copy =>
      refine holds.answerEntry ((tileOf_smaller smaller).trans found) smaller.le (fun same => ?_)
        (by rw [answerFrom, if_neg smaller.ne]; exact copy)
      rw [same] at hit
      rw [entry, hit, standsFor, loaded]
      rfl
  | @smallerMiss loc _ _ _ miss =>
      refine ⟨?_, holds.answers⟩
      change logical tile before p.sets = standsFor file ((p.cache.set loc _).get tile)
      rw [Map.get_set]
      split
      · rename_i same
        rw [entry, same, miss]
        rfl
      · exact entry
  | setIgnored _ _ => exact holds
  | @setHit image t isSet scale hit =>
      obtain ⟨noBlock, size⟩ := setFits image isSet
      refine holds.accept rfl rfl (holds.drawn storage isSet ?_ noBlock size)
      rw [hit]
      rfl
  | @setMiss image native isSet scale miss found =>
      obtain ⟨noBlock, size⟩ := setFits image isSet
      refine holds.accept rfl rfl (holds.drawn storage isSet ?_ noBlock size)
      rw [miss]
      rfl

/-- The step lemma for a successful read. -/
theorem woken (holds : HoldsPicture tile before file p) {loc : ImageLocation}
    {image : CachedImage} (loaded : image.imageUnloaded = false) (woken : Woken p loc image next)
    (fits : loc = tile → readFits file (p.cache.get tile) image.img) :
    HoldsPicture tile before file next := by
  have logically : loc = tile → logical tile before p.sets = (p.entered loc image).img := by
    intro same
    rw [holds.entry, same, img_entered (fits same)]
  constructor
  · rw [woken.sets, woken.cache, Map.get_set]
    split
    · rename_i same
      rw [logically same.symm, standsFor, entered_loaded loaded]
      rfl
    · exact holds.entry
  · obtain ⟨answers, grown, each⟩ := woken.answers
    intro a member
    rw [woken.sets]
    rw [grown] at member
    rcases List.mem_append.mp member with old | new
    · exact holds.answers a old
    · obtain ⟨task, copied, waits, answered, rfl⟩ := each a new
      obtain ⟨inside, small⟩ := waits.tileOf_eq
      refine rightAnswer_now fun here => ?_
      have same : loc = tile := Option.some.inj (inside.symm.trans here)
      rw [logically same]
      exact img_of_answerFrom small answered

/-- The step lemma for an unload. -/
theorem unload (holds : HoldsPicture tile before file p) {interval : Int}
    (fits : ∀ v, p.cache.get tile = some v → v.syncedToDisk = true →
      now - v.lastUse > interval → v.img = file) :
    HoldsPicture tile before file (p.processUnload interval now) := by
  refine ⟨?_, holds.answers⟩
  have entry := holds.entry
  simp only [Processor.processUnload, Map.get_range]
  cases found : p.cache.get tile with
  | none =>
      rw [found] at entry
      exact entry
  | some v =>
      rw [found] at entry
      rw [Option.bind_some]
      split
      · rename_i unused
        have picture := fits v found unused.1 unused.2
        rw [entry, standsFor, standsFor, picture]
        cases file <;> simp
      · exact entry

end HoldsPicture

/-- The inductive form of `AnswersRight`. A process that panics keeps its answers. -/
structure ContentKept (cfg : Config) (disk : Disk) (tile : ImageLocation) (s : State) : Prop where
  live : s.panicked = none → HoldsPicture tile (disk.picture (cfg.filename tile))
    (s.disk.picture (cfg.filename tile)) s.p
  answers : ∀ a ∈ s.p.answers, RightAnswer tile (disk.picture (cfg.filename tile)) s.p.sets a

theorem contentKept_of_holds {cfg : Config} {disk : Disk} {s : State}
    (holds : HoldsPicture tile (disk.picture (cfg.filename tile))
      (s.disk.picture (cfg.filename tile)) s.p) : ContentKept cfg disk tile s :=
  ⟨fun _ => holds, holds.answers⟩

/-- Saving another entry does not touch the file of the tile. -/
theorem picture_saved {cfg : Config} {s : State} {loc : ImageLocation} {v : CachedImage}
    {outcome : SaveOutcome} {file : File} (keeps : keepsContent cfg tile s (.saveEntry loc outcome))
    (found : s.p.cache.get loc = some v) (unsynced : v.syncedToDisk = false) (other : loc ≠ tile) :
    Disk.picture (Function.update s.disk (cfg.filename loc) (some file)) (cfg.filename tile) =
      s.disk.picture (cfg.filename tile) := by
  rw [picture_update, if_neg]
  intro shared
  rcases keeps shared.symm with same | synced
  · exact other same
  · rw [synced v found] at unsynced
    cases unsynced

/-- The step lemma of the content. -/
theorem ContentKept.preserved {cfg : Config} {disk : Disk} {s next : State} {action : Action}
    (storage : tile.S = StorageLevel) (reads : ReadsOnly s) (kept : ContentKept cfg disk tile s)
    (noErrors : noIoErrors action = true) (keeps : keepsContent cfg tile s action)
    (transition : step cfg s action = some next) : ContentKept cfg disk tile next := by
  obtain ⟨running, transition⟩ := transition_of_step transition
  have holds := kept.live running
  cases transition with
  | @takes now task tasks p _ received processed =>
      have front := (Chan.receive_received received).1
      obtain ⟨loc, img, ret⟩ := task
      refine contentKept_of_holds
        (holds.taskStep storage (taskStep_of_processTask processed) ?_ ?_)
      · rintro rfl
        rw [keepsContent, front] at keeps
        exact keeps
      · rintro image rfl
        rw [keepsContent, front] at keeps
        exact keeps
  | @returns now task ioReturn p _ received processed =>
      have front := (Chan.receive_received received).1
      obtain ⟨loc, img⟩ := task
      rcases reads.wokenReturn received processed with ⟨_, rfl⟩ | ⟨image, rfl, fresh, woken⟩
      · exact contentKept_of_holds holds
      · rw [keepsContent, front] at keeps
        exact contentKept_of_holds (holds.woken fresh.1 woken keeps)
  | @saves loc now todo final v picture _ _ found unsynced there =>
      refine contentKept_of_holds ⟨?_, holds.answers⟩
      dsimp only
      rw [Map.get_set]
      split
      · rename_i same
        subst same
        have entry := holds.entry
        rw [found, standsFor_some there] at entry
        rw [entry]
        exact (standsFor_some there).symm
      · rename_i other
        rw [picture_saved keeps found unsynced (Ne.symm other)]
        exact holds.entry
  | @savePanics loc now todo final v _ _ _ _ _ =>
      exact ⟨fun live => (by cases live), kept.answers⟩
  | unloads _ => exact contentKept_of_holds (holds.unload keeps)
  | ioLoads _ loaded =>
      refine contentKept_of_holds ?_
      rw [disk_of_cacheLoad noErrors loaded]
      exact holds
  | ioSaves found => cases reads.holding _ _ found
  | saveFails _ _ _ _ => cases noErrors
  | taskPanics _ _ _ | returnPanics _ _ _ => exact ⟨fun live => (by cases live), kept.answers⟩
  | submits _ | autosaves _ | keeps _ _ _ | saved _ | savedLast _ | cancels _ | ioTakes _ _
  | ioEnds _ _ | ioPushes _ _ => exact contentKept_of_holds holds
  | flushes _ _ => exact contentKept_of_holds ⟨holds.entry, holds.answers⟩

/-- In every run without IO errors whose steps keep the content of a tile, every answer in
this tile is right. -/
theorem answersRight (cfg : Config) (disk : Disk) (tile : ImageLocation)
    (storage : tile.S = StorageLevel) (actions : List Action)
    (steps : (machine cfg).StepsOnly
      (fun s action => noIoErrors action = true ∧ keepsContent cfg tile s action)
      (State.initial cfg disk) actions) :
    (machine cfg).ReachesOnly (AnswersRight cfg disk tile) (State.initial cfg disk) actions := by
  have preserved : ∀ {s : State} {action : Action} {next : State},
      ReadsOnly s ∧ ContentKept cfg disk tile s →
      noIoErrors action = true ∧ keepsContent cfg tile s action → step cfg s action = some next →
      ReadsOnly next ∧ ContentKept cfg disk tile next := by
    rintro s action next ⟨reads, kept⟩ ⟨noErrors, keeps⟩ transition
    exact ⟨reads.preserved (transition_of_step transition).2,
      kept.preserved storage reads noErrors keeps transition⟩
  refine steps.reachesOnly ?_ preserved ?_
  · rintro s ⟨_, kept⟩ a member inside
    have right := (kept.answers a member).image inside
    dsimp only
    split
    · rename_i picture shown
      rw [shown] at right
      obtain ⟨whole, logically, same⟩ := Option.map_eq_some_iff.mp right.symm
      exact ⟨whole, logically, same.symm⟩
    · rename_i absent
      rw [absent] at right
      exact logical_eq_none.mp (Option.map_eq_none_iff.mp right.symm)
  · refine ⟨readsOnly_initial cfg disk, contentKept_of_holds ⟨rfl, fun a member => ?_⟩⟩
    simp [State.initial] at member

/-- A set of one chunk, and a get of this chunk after both reads came back. -/
def setOneChunk : List Action :=
  [.submit { loc := ⟨"world", "overworld", "terrain", 0, 0, 0⟩, img := some (.new 16 16) },
    .takeTask 1] ++
  readBack (.succeeds 2) 3 ++
  [.submit { loc := ⟨"world", "overworld", "terrain", 0, 0, 0⟩ }, .takeTask 4] ++
  readBack (.succeeds 5) 6

/-- The set went into an entry of its own, so the get is answered with no picture. -/
theorem set_chunk_not_in_tile : ∃ (cfg : Config) (disk : Disk) (tile : ImageLocation)
    (actions : List Action) (final : State),
    tile.S = StorageLevel ∧ (machine cfg).Runs (State.initial cfg disk) actions final ∧
      (machine cfg).StepsOnly (fun _ action => noIoErrors action = true)
        (State.initial cfg disk) actions ∧
      ¬ AnswersRight cfg disk tile final := by
  refine ⟨sampleConfig, fun _ => none, ⟨"world", "overworld", "terrain", 5, 0, 0⟩, setOneChunk, _,
    rfl, Machine.runs_exec_get (by decide), Machine.stepsOnly_of_checkSteps (by decide),
    fun right => ?_⟩
  have noSet := (right _ List.mem_cons_self rfl).2
  exact noSet _ List.mem_cons_self ⟨rfl, .inr (by decide)⟩

/-- The saved tile is read again by a native get, and a smaller get is answered from it. -/
def savedThenReadTwice : List Action :=
  savedThenRead ++ [.submit { loc := ⟨"world", "overworld", "terrain", 4, 0, 0⟩ }, .takeTask 90000000004]

theorem answersRight_savedThenReadTwice :
    (machine sampleConfig).ReachesOnly
      (AnswersRight sampleConfig (fun _ => none) ⟨"world", "overworld", "terrain", 5, 0, 0⟩)
      (State.initial sampleConfig fun _ => none) savedThenReadTwice := by
  refine answersRight sampleConfig (fun _ => none) ⟨"world", "overworld", "terrain", 5, 0, 0⟩ rfl
    savedThenReadTwice (Machine.stepsOnly_of_meetsSteps ?_)
  exact ⟨⟨rfl, trivial⟩, ⟨rfl, by decide, fun _ => ⟨rfl, rfl⟩⟩, ⟨rfl, trivial⟩, ⟨rfl, trivial⟩,
    ⟨rfl, trivial⟩, ⟨rfl, trivial⟩, ⟨rfl, fun _ => trivial⟩, ⟨rfl, trivial⟩,
    ⟨rfl, fun _ => .inl rfl⟩, ⟨rfl, trivial⟩,
    ⟨rfl, fun v found _ _ => by cases found; exact congrArg some (drawnTile_png rfl).symm⟩,
    ⟨rfl, trivial⟩, ⟨rfl, fun _ v found => by cases found⟩, ⟨rfl, trivial⟩, ⟨rfl, trivial⟩,
    ⟨rfl, trivial⟩, ⟨rfl, trivial⟩, ⟨rfl, fun _ => rfl⟩, ⟨rfl, trivial⟩,
    ⟨rfl, fun same => absurd same (by decide)⟩, trivial⟩

end WebChunk.ImageCache
