import WebChunk.ImageCache.System

/-!
# The file of one tile

`cacheSave` in the processor and `cacheLoad` in the IO workers, file step by file step, on
the file of one tile. A path names a file or none, and a file that was opened can be read
and written after its path was removed. Every file step may fail.
-/

namespace WebChunk.ImageCache

open WebChunk.Go WebChunk.Semantics

/-- What a file holds: the encoding of a picture, or bytes that do not decode. -/
inductive Content where
  | torn
  | whole (picture : RGBA)

/-- Where the processor is in `cacheSave`, if it saves this tile: before each of its file
steps, from `os.Create` on with the file that it made. -/
inductive Saver where
  | idle
  | makingDir (picture : RGBA)
  | creating (picture : RGBA)
  | encoding (picture : RGBA) (file : Nat)
  | closing (picture : RGBA) (file : Nat)

/-- Where an IO worker is in `cacheLoad` of this tile. -/
inductive Loader where
  | opening
  | decoding (file : Nat)
  | removing
  | returned

/-- The files that the path of the tile has named, what it names now, and who works on
them. `synced` is the picture of the last save that returned success. -/
structure TileState where
  files : List Content
  path : Option Nat
  saver : Saver
  loaders : List Loader
  synced : Option RGBA

/-- Before the first save of the tile, with the file that was found. -/
def TileState.found : Option Content → TileState
  | none => ⟨[], none, .idle, [], none⟩
  | some content => ⟨[content], some 0, .idle, [], none⟩

/-- The file steps. A step that is not `ok` fails; a failing `png.Encode` or `Close` leaves
something in the file. -/
inductive TileAction where
  | save (picture : RGBA)
  | mkdirAll (ok : Bool)
  | create (ok : Bool)
  | encode (left : Option Content)
  | close (left : Option Content)
  | load
  | openFile (i : Nat) (ok : Bool)
  | decode (i : Nat) (ok : Bool)
  | remove (i : Nat) (ok : Bool)

namespace TileState

/-- The content of the tile's file. -/
def file (s : TileState) : Option Content := s.path.bind (s.files[·]?)

def setLoader (s : TileState) (i : Nat) (loader : Loader) : TileState :=
  { s with loaders := s.loaders.set i loader }

/-- `processSave` calls `cacheSave` for this tile. -/
def save (s : TileState) (picture : RGBA) : Option TileState :=
  match s.saver with
  | .idle => some { s with saver := .makingDir picture }
  | _ => none

/-- `os.MkdirAll`. -/
def mkdirAll (s : TileState) (ok : Bool) : Option TileState :=
  match s.saver with
  | .makingDir picture => some { s with saver := if ok then .creating picture else .idle }
  | _ => none

/-- `os.Create` truncates the file that the path names, or makes one. -/
def create (s : TileState) (ok : Bool) : Option TileState :=
  match s.saver with
  | .creating picture =>
      if ok then
        match s.path with
        | some file =>
            some { s with files := s.files.set file .torn, saver := .encoding picture file }
        | none =>
            some { s with
              files := s.files ++ [.torn]
              path := some s.files.length
              saver := .encoding picture s.files.length }
      else some { s with saver := .idle }
  | _ => none

/-- `png.Encode` has written everything, or fails and leaves something behind. -/
def encode (s : TileState) (left : Option Content) : Option TileState :=
  match s.saver with
  | .encoding picture file =>
      match left with
      | none =>
          some { s with
            files := s.files.set file (.whole picture), saver := .closing picture file }
      | some content => some { s with files := s.files.set file content, saver := .idle }
  | _ => none

/-- `file.Close` at the end of `cacheSave`. -/
def close (s : TileState) (left : Option Content) : Option TileState :=
  match s.saver with
  | .closing picture file =>
      match left with
      | none => some { s with saver := .idle, synced := some picture }
      | some content => some { s with files := s.files.set file content, saver := .idle }
  | _ => none

/-- `os.Open`: without a file `cacheLoad` returns at once, as after another error. -/
def openFile (s : TileState) (i : Nat) (ok : Bool) : Option TileState :=
  match s.loaders[i]? with
  | some .opening =>
      match ok, s.path with
      | true, some file => some (s.setLoader i (.decoding file))
      | _, _ => some (s.setLoader i .returned)
  | _ => none

/-- `png.Decode` of what the opened file holds now. -/
def decode (s : TileState) (i : Nat) (ok : Bool) : Option TileState :=
  match s.loaders[i]? with
  | some (.decoding file) =>
      if ok then
        match s.files[file]? with
        | some (.whole _) => some (s.setLoader i .returned)
        | _ => none
      else some (s.setLoader i .removing)
  | _ => none

/-- `os.Remove` of the path, whatever file it names now. Its error is ignored. -/
def remove (s : TileState) (i : Nat) (ok : Bool) : Option TileState :=
  match s.loaders[i]? with
  | some .removing =>
      some ({ s with path := if ok then none else s.path }.setLoader i .returned)
  | _ => none

end TileState

def tileStep (s : TileState) : TileAction → Option TileState
  | .save picture => s.save picture
  | .mkdirAll ok => s.mkdirAll ok
  | .create ok => s.create ok
  | .encode left => s.encode left
  | .close left => s.close left
  | .load => some { s with loaders := s.loaders ++ [.opening] }
  | .openFile i ok => s.openFile i ok
  | .decode i ok => s.decode i ok
  | .remove i ok => s.remove i ok

/-- The saves and loads of one tile. -/
def tileFile : Machine TileState TileAction := ⟨tileStep⟩

/-- While no save runs, the tile's file is there and holds the picture of the last save that
returned success. -/
def TileState.Kept (s : TileState) : Prop :=
  s.saver = .idle → ∀ picture, s.synced = some picture → s.file = some (.whole picture)

/-- The file that the running save has made or truncated. -/
def Saver.made : Saver → Option Nat
  | .encoding _ file => some file
  | .closing _ file => some file
  | _ => none

/-- The steps after which the file is kept. A load may remove the file only before the first
success or while a save runs, and then only before its `os.Create`: the save returns success
while the path names a file. A save may fail before `os.Create` if no load has removed the
file meanwhile, and after it only before the first success, or leaving the synced picture
behind. -/
def TileState.keepsFile (s : TileState) : TileAction → Prop
  | .remove _ true => s.synced = none ∨ s.saver ≠ .idle
  | .mkdirAll false | .create false => s.synced = none ∨ s.path ≠ none
  | .encode (some left) | .close (some left) =>
      ∀ picture, s.synced = some picture → s.path ≠ none ∧ left = .whole picture
  | .close none => s.path ≠ none
  | _ => True

/-- What a step does to the files, the path and the save. -/
inductive TileTransition (s : TileState) : TileAction → TileState → Prop where
  | saves {picture : RGBA} (idle : s.saver = .idle) :
      TileTransition s (.save picture) { s with saver := .makingDir picture }
  | makesDir {picture : RGBA} (making : s.saver = .makingDir picture) :
      TileTransition s (.mkdirAll true) { s with saver := .creating picture }
  | mkdirFails {picture : RGBA} (making : s.saver = .makingDir picture) :
      TileTransition s (.mkdirAll false) { s with saver := .idle }
  | truncates {picture : RGBA} {file : Nat} (creating : s.saver = .creating picture)
      (named : s.path = some file) :
      TileTransition s (.create true)
        { s with files := s.files.set file .torn, saver := .encoding picture file }
  | creates {picture : RGBA} (creating : s.saver = .creating picture) (absent : s.path = none) :
      TileTransition s (.create true)
        { s with
          files := s.files ++ [.torn]
          path := some s.files.length
          saver := .encoding picture s.files.length }
  | createFails {picture : RGBA} (creating : s.saver = .creating picture) :
      TileTransition s (.create false) { s with saver := .idle }
  | encodes {picture : RGBA} {file : Nat} (encoding : s.saver = .encoding picture file) :
      TileTransition s (.encode none)
        { s with files := s.files.set file (.whole picture), saver := .closing picture file }
  | encodeFails {picture : RGBA} {file : Nat} {left : Content}
      (encoding : s.saver = .encoding picture file) :
      TileTransition s (.encode (some left))
        { s with files := s.files.set file left, saver := .idle }
  | closes {picture : RGBA} {file : Nat} (closing : s.saver = .closing picture file) :
      TileTransition s (.close none) { s with saver := .idle, synced := some picture }
  | closeFails {picture : RGBA} {file : Nat} {left : Content}
      (closing : s.saver = .closing picture file) :
      TileTransition s (.close (some left))
        { s with files := s.files.set file left, saver := .idle }
  | removes {i : Nat} {loaders : List Loader} :
      TileTransition s (.remove i true) { s with path := none, loaders := loaders }
  | loads {action : TileAction} {loaders : List Loader}
      (keeps : s.keepsFile action) : TileTransition s action { s with loaders := loaders }

/-- Every step is one of these. -/
theorem tileTransition_of_step {s next : TileState} {action : TileAction}
    (transition : tileStep s action = some next) : TileTransition s action next := by
  cases action with
  | save picture =>
      simp only [tileStep, TileState.save] at transition
      split at transition <;> cases transition
      rename_i idle
      exact .saves idle
  | mkdirAll ok =>
      simp only [tileStep, TileState.mkdirAll] at transition
      split at transition <;> cases transition
      rename_i making
      cases ok with
      | true => exact .makesDir making
      | false => exact .mkdirFails making
  | create ok =>
      simp only [tileStep, TileState.create] at transition
      split at transition
      · rename_i creating
        cases ok with
        | true =>
            simp only [if_true] at transition
            split at transition <;> cases transition
            · rename_i named
              exact .truncates creating named
            · rename_i absent
              exact .creates creating absent
        | false =>
            cases transition
            exact .createFails creating
      · cases transition
  | encode left =>
      simp only [tileStep, TileState.encode] at transition
      split at transition
      · rename_i encoding
        cases left <;> cases transition
        · exact .encodes encoding
        · exact .encodeFails encoding
      · cases transition
  | close left =>
      simp only [tileStep, TileState.close] at transition
      split at transition
      · rename_i closing
        cases left <;> cases transition
        · exact .closes closing
        · exact .closeFails closing
      · cases transition
  | load =>
      cases transition
      exact .loads trivial
  | openFile i ok =>
      simp only [tileStep, TileState.openFile] at transition
      split at transition
      · split at transition <;> cases transition <;> exact .loads trivial
      · cases transition
  | decode i ok =>
      simp only [tileStep, TileState.decode] at transition
      split at transition
      · split at transition
        · split at transition <;> cases transition
          exact .loads trivial
        · cases transition
          exact .loads trivial
      · cases transition
  | remove i ok =>
      simp only [tileStep, TileState.remove] at transition
      split at transition <;> cases transition
      cases ok with
      | true => exact .removes
      | false => exact .loads trivial

/-- What the save has done so far. Until its `os.Create` the file of the last success is
untouched; from then on the path names the file that the save made, or none. -/
structure TileState.Intact (s : TileState) : Prop where
  named : ∀ file, s.path = some file → file < s.files.length
  present : s.saver = .idle → s.synced ≠ none → s.path ≠ none
  untouched : s.saver.made = none → ∀ picture, s.synced = some picture →
    ∀ file, s.path = some file → s.files[file]? = some (.whole picture)
  own : ∀ file, s.saver.made = some file →
    file < s.files.length ∧ (s.path ≠ none → s.path = some file)
  encoded : ∀ picture file, s.saver = .closing picture file →
    s.files[file]? = some (.whole picture)

namespace TileState.Intact

variable {s next : TileState} {action : TileAction}

theorem found (content : Option Content) : (TileState.found content).Intact := by
  cases content <;> constructor <;> simp [TileState.found, Saver.made]

theorem kept (intact : s.Intact) : s.Kept := by
  intro idle picture synced
  obtain ⟨file, named⟩ := Option.ne_none_iff_exists'.mp (intact.present idle (by simp [synced]))
  have holds := intact.untouched (by rw [idle]; rfl) picture synced file named
  simp [TileState.file, named, holds]

/-- The save gives up after `os.Create`, leaving `left` in its file. -/
theorem afterFailure (intact : s.Intact) {file : Nat} (made : s.saver.made = some file)
    {left : Content}
    (keeps : ∀ picture, s.synced = some picture → s.path ≠ none ∧ left = .whole picture) :
    TileState.Intact { s with files := s.files.set file left, saver := .idle } where
  named other names := by simpa using intact.named other names
  present _ synced := by
    obtain ⟨picture, synced⟩ := Option.ne_none_iff_exists'.mp synced
    exact (keeps picture synced).1
  untouched _ picture synced other names := by
    obtain ⟨inside, own⟩ := intact.own file made
    obtain ⟨there, rfl⟩ := keeps picture synced
    cases names.symm.trans (own there)
    simp [inside]
  own _ made := by cases made
  encoded _ _ closing := by cases closing

/-- The save gives up before `os.Create`. -/
theorem afterEarlyFailure (intact : s.Intact) (made : s.saver.made = none)
    (keeps : s.synced = none ∨ s.path ≠ none) :
    TileState.Intact { s with saver := .idle } where
  named := intact.named
  present _ synced := keeps.resolve_left synced
  untouched _ := intact.untouched made
  own _ made := by cases made
  encoded _ _ closing := by cases closing

/-- The step lemma. -/
theorem preserved (intact : s.Intact) (keeps : s.keepsFile action)
    (transition : tileStep s action = some next) : next.Intact := by
  cases tileTransition_of_step transition with
  | saves idle =>
      exact ⟨intact.named, nofun, fun _ => intact.untouched (by rw [idle]; rfl), nofun, nofun⟩
  | makesDir making =>
      exact ⟨intact.named, nofun, fun _ => intact.untouched (by rw [making]; rfl), nofun, nofun⟩
  | mkdirFails making => exact intact.afterEarlyFailure (by rw [making]; rfl) keeps
  | createFails creating => exact intact.afterEarlyFailure (by rw [creating]; rfl) keeps
  | truncates creating named =>
      refine ⟨fun other names => ?_, nofun, nofun, fun other made => ?_, nofun⟩
      · simpa using intact.named other names
      · cases made
        exact ⟨by simpa using intact.named _ named, fun _ => named⟩
  | creates creating absent =>
      refine ⟨fun other names => ?_, nofun, nofun, fun other made => ?_, nofun⟩
      · cases names
        simp
      · cases made
        exact ⟨by simp, fun _ => rfl⟩
  | @encodes picture file encoding =>
      obtain ⟨inside, own⟩ := intact.own file (by rw [encoding]; rfl)
      refine ⟨fun other names => ?_, nofun, nofun, fun other made => ?_, fun _ _ closing => ?_⟩
      · simpa using intact.named other names
      · cases made
        exact ⟨by simpa using inside, own⟩
      · cases closing
        simp [inside]
  | encodeFails encoding => exact intact.afterFailure (by rw [encoding]; rfl) keeps
  | @closes picture file closing =>
      obtain ⟨_, own⟩ := intact.own file (by rw [closing]; rfl)
      refine ⟨intact.named, fun _ _ => keeps, fun _ other synced last names => ?_, nofun, nofun⟩
      cases synced
      cases names.symm.trans (own keeps)
      exact intact.encoded _ _ closing
  | closeFails closing => exact intact.afterFailure (by rw [closing]; rfl) keeps
  | removes =>
      refine ⟨nofun, fun idle synced => ?_, nofun, fun file made => ?_, intact.encoded⟩
      · exact absurd idle (keeps.resolve_left synced)
      · exact ⟨(intact.own file made).1, fun there => absurd rfl there⟩
  | loads _ => exact ⟨intact.named, intact.present, intact.untouched, intact.own, intact.encoded⟩

/-- A save that gives up breaks the promise unless it left the synced picture behind. -/
theorem breaks_of_failure (intact : s.Intact) {file : Nat} (made : s.saver.made = some file)
    {left : Content}
    (spoils : ¬ ∀ picture, s.synced = some picture → s.path ≠ none ∧ left = .whole picture) :
    ¬ TileState.Kept { s with files := s.files.set file left, saver := .idle } := by
  intro kept
  refine spoils fun picture synced => ?_
  have holds := kept rfl picture synced
  obtain ⟨inside, own⟩ := intact.own file made
  cases named : s.path with
  | none => simp [TileState.file, named] at holds
  | some other =>
      cases named.symm.trans (own (by simp [named]))
      simpa [TileState.file, named, inside] using holds

/-- Outside the condition, the step leaves the tile without its picture. -/
theorem breaks (intact : s.Intact) (spoils : ¬ s.keepsFile action)
    (transition : tileStep s action = some next) : ¬ next.Kept := by
  -- A path that names nothing cannot hold the synced picture.
  have lost : ∀ {state : TileState}, state.saver = .idle → state.synced ≠ none →
      state.path = none → ¬ state.Kept := by
    intro state idle synced absent kept
    obtain ⟨picture, synced⟩ := Option.ne_none_iff_exists'.mp synced
    have holds := kept idle picture synced
    simp [TileState.file, absent] at holds
  cases tileTransition_of_step transition with
  | saves _ | makesDir _ | truncates _ _ | creates _ _ | encodes _ =>
      exact absurd trivial spoils
  | mkdirFails _ | createFails _ =>
      simp only [TileState.keepsFile, not_or, not_not] at spoils
      exact lost rfl spoils.1 spoils.2
  | encodeFails encoding => exact intact.breaks_of_failure (by rw [encoding]; rfl) spoils
  | closeFails closing => exact intact.breaks_of_failure (by rw [closing]; rfl) spoils
  | closes closing => exact lost rfl nofun (not_not.mp spoils)
  | removes =>
      simp only [TileState.keepsFile, not_or, not_not] at spoils
      exact lost spoils.2 spoils.1 rfl
  | loads keeps => exact absurd keeps spoils

end TileState.Intact

/-- In every run over the file that was found, the tile's file is kept exactly when every
step keeps it. -/
theorem tileFile_kept_iff (content : Option Content) {actions : List TileAction}
    {final : TileState} (run : tileFile.Runs (.found content) actions final) :
    tileFile.ReachesOnly TileState.Kept (.found content) actions ↔
      tileFile.StepsOnly TileState.keepsFile (.found content) actions :=
  run.reachesOnly_iff TileState.Intact.kept TileState.Intact.preserved TileState.Intact.breaks
    (.found content)

/-- A load opens the file that a save has just truncated, and removes it after the save
returned success. -/
def removedRun (picture : RGBA) : List TileAction :=
  [.save picture, .mkdirAll true, .create true, .load, .openFile 0 true, .decode 0 false,
    .encode none, .close none, .remove 0 true]

/-- Saving the tile again keeps its file, also while a load removes it meanwhile. -/
def savedAgainRun (picture : RGBA) : List TileAction :=
  [.save picture, .mkdirAll true, .create true, .encode none, .close none, .load,
    .openFile 0 true, .decode 0 false, .save picture, .mkdirAll true, .remove 0 true,
    .create true, .encode none, .close none]

/-- The picture of a successful save is lost. -/
theorem load_removes_saved_tile : ∃ actions,
    ¬ tileFile.ReachesOnly TileState.Kept (.found none) actions := by
  refine ⟨removedRun paintedTile, fun reaches => ?_⟩
  have kept := reaches _ List.prefix_rfl _ (Machine.runs_of_exec rfl) rfl paintedTile rfl
  cases kept

/-- The second save brings the file back that a load removed. -/
theorem saved_again_kept : tileFile.ReachesOnly TileState.Kept (.found none)
    (savedAgainRun paintedTile) := by
  refine (tileFile_kept_iff none (Machine.runs_of_exec rfl)).mpr
    (Machine.stepsOnly_of_meetsSteps ?_)
  simp [savedAgainRun, Machine.MeetsSteps, tileFile, tileStep, TileState.found, TileState.save,
    TileState.mkdirAll, TileState.create, TileState.encode, TileState.close, TileState.openFile,
    TileState.decode, TileState.remove, TileState.setLoader, TileState.keepsFile]

/-! ### Without interleaving -/

/-- The picture that a content decodes to. -/
def Content.picture (cfg : Config) : Content → Option RGBA
  | .torn => none
  | .whole picture => some (cfg.png picture)

/-- The tile's file is the one that the disk has at a path. -/
def TileState.Shows (cfg : Config) (s : TileState) (disk : Disk) (path : String) : Prop :=
  s.file.map (Content.picture cfg) = (disk path).map File.picture

/-- The file steps of a save that succeeds, or whose `png.Encode` fails. -/
def saveSteps (picture : RGBA) : Option Content → List TileAction
  | none => [.save picture, .mkdirAll true, .create true, .encode none, .close none]
  | some left => [.save picture, .mkdirAll true, .create true, .encode (some left)]

/-- The outcome of `cacheSave` with these file steps. -/
def saveOutcome (cfg : Config) (now : Int) : Option Content → SaveOutcome
  | none => .succeeds now
  | some left => .fails (some ⟨left.picture cfg, now⟩)

/-- `cacheSave` is the file steps of a save which nothing disturbs. -/
theorem saveSteps_cacheSave (cfg : Config) (disk : Disk) (loc : ImageLocation) {s : TileState}
    (intact : s.Intact) (idle : s.saver = .idle) (picture : RGBA) (left : Option Content)
    (now : Int) : ∃ final, tileFile.Runs s (saveSteps picture left) final ∧
      final.Shows cfg (cacheSave cfg disk picture loc (saveOutcome cfg now left)).2
        (cfg.filename loc) := by
  obtain ⟨files, path, saver, loaders, synced⟩ := s
  cases idle
  cases path with
  | none =>
      cases left <;> refine ⟨_, Machine.runs_of_exec rfl, ?_⟩ <;>
        simp [TileState.Shows, TileState.file, cacheSave, saveOutcome, Content.picture]
  | some file =>
      have inside : file < files.length := intact.named file rfl
      cases left <;> refine ⟨_, Machine.runs_of_exec rfl, ?_⟩ <;>
        simp [TileState.Shows, TileState.file, cacheSave, saveOutcome, Content.picture, inside]

/-- The file steps of load `i`, if there is a file. -/
def loadSteps (i : Nat) (there : Bool) : LoadOutcome → List TileAction
  | .openFails => [.load, .openFile i false]
  | .decodeFails => [.load, .openFile i true, .decode i false, .remove i true]
  | .succeeds _ =>
      if there then [.load, .openFile i true, .decode i true] else [.load, .openFile i true]

/-- `cacheLoad` is the file steps of a load which nothing disturbs. -/
theorem loadSteps_cacheLoad (cfg : Config) {disk after : Disk} (loc : ImageLocation)
    {s : TileState} (intact : s.Intact) (shows : s.Shows cfg disk (cfg.filename loc))
    {outcome : LoadOutcome} {image : Option CachedImage}
    (loads : cacheLoad cfg disk loc outcome = some (image, after)) :
    ∃ final, tileFile.Runs s (loadSteps s.loaders.length s.file.isSome outcome) final ∧
      final.Shows cfg after (cfg.filename loc) ∧ final.loaders = s.loaders ++ [.returned] := by
  obtain ⟨files, path, saver, loaders, synced⟩ := s
  cases outcome with
  | openFails =>
      cases loads
      refine ⟨⟨files, path, saver, loaders ++ [.returned], synced⟩, Machine.runs_of_exec ?_, shows,
        rfl⟩
      simp [loadSteps, Machine.exec, tileFile, tileStep, TileState.openFile, TileState.setLoader]
  | decodeFails =>
      simp only [cacheLoad] at loads
      split at loads
      · cases loads
      · rename_i found
        cases loads
        cases path with
        | none => simp [TileState.Shows, TileState.file, found] at shows
        | some file =>
            refine ⟨⟨files, none, saver, loaders ++ [.returned], synced⟩,
              Machine.runs_of_exec ?_, by simp [TileState.Shows, TileState.file], rfl⟩
            simp [loadSteps, Machine.exec, tileFile, tileStep, TileState.openFile,
              TileState.decode, TileState.remove, TileState.setLoader]
  | succeeds now =>
      refine ⟨⟨files, path, saver, loaders ++ [.returned], synced⟩, Machine.runs_of_exec ?_, ?_,
        rfl⟩
      · cases path with
        | none =>
            simp [loadSteps, Machine.exec, tileFile, tileStep, TileState.file,
              TileState.openFile, TileState.setLoader]
        | some file =>
            have inside : file < files.length := intact.named file rfl
            -- The file is there, and the load succeeds, so it holds a picture.
            obtain ⟨picture, holds⟩ : ∃ picture, files[file] = .whole picture := by
              cases content : files[file] with
              | whole picture => exact ⟨picture, rfl⟩
              | torn =>
                  simp only [TileState.Shows, TileState.file, Option.bind_some,
                    List.getElem?_eq_getElem inside, content, Option.map_some] at shows
                  obtain ⟨found, there, torn⟩ := Option.map_eq_some_iff.mp shows.symm
                  simp [cacheLoad, there, torn, Content.picture] at loads
            simp [loadSteps, Machine.exec, tileFile, tileStep, TileState.file,
              TileState.openFile, TileState.decode, TileState.setLoader, inside, holds]
      · have unchanged : after = disk := by
          simp only [cacheLoad] at loads
          split at loads
          · cases loads
            rfl
          · split at loads <;> cases loads
            rfl
        rw [unchanged]
        exact shows

end WebChunk.ImageCache
