import Mathlib.Logic.Encodable.Basic
import Mathlib.Logic.Equiv.List
import WebChunk.Go.Bytes
import WebChunk.WorldStore.Remains

/-!
# Adding a world is all or nothing

When `AddWorld` adds a whole world or changes nothing. It does not look whether there is a world,
and does not take back what it made before an operation failed.
-/

namespace WebChunk.WorldStore

open WebChunk.Go
open WebChunk.Go.Path (Place within)

variable {LevelData : Type} (enc : Encodings LevelData) (root : Root)

/-- The world is added as a whole, or nothing changes for any world, and a world that exists is
reported. -/
structure AllOrNothing (fs : FileSystem) (world : SWorld LevelData)
    (result : Option WorldError × FileSystem) : Prop where
  added : result.1 = none → ∀ before after,
    (GetWorld enc root fs world.Name before).1.1 = none ∧
      (GetWorld enc root result.2 world.Name after).1 = (some world, none)
  unchanged : ∀ err, result.1 = some err → ∀ wname before after,
    (GetWorld enc root result.2 wname after).1 = (GetWorld enc root fs wname before).1
  existing : ∀ before, (GetWorld enc root fs world.Name before).1.1 ≠ none →
    result.1 = some .alreadyExists

/-- What the decoders make of the contents of a `level.dat`. -/
def levelIn (content : List UInt8) : Except WorldError LevelData :=
  match enc.decodeLevel content with
  | .error text => .error (.encoding text)
  | .ok d => .ok d

/-- Whatever was made under the name of some world was there before, and what is left in
`level.dat` reads as what was there. -/
def Remains.harmless (r : Remains) (fs : FileSystem) (wname : String) : Prop :=
  (∀ other, root.world other ∈ r.dirs ∨
      (r.content (root.world wname) (root.world other)).isSome → fs (root.world other) ≠ none) ∧
    ∀ content, r.level = some content →
      levelIn enc content = readSaveLevel enc fs (levelPath (root.world wname))

/-! ### What is found -/

/-- The alias and the address that `GetWorld` reads. -/
def metaIn (fs : FileSystem) (wdir : Place) : WorldMeta :=
  match fs.ReadFile (getWorldDirMetaPath wdir) with
  | .error _ => ⟨"", ""⟩
  | .ok b =>
      match enc.unmarshalMeta b with
      | .error _ => ⟨"", ""⟩
      | .ok d => d

/-- What `GetWorld` returns, without the meta file that it may write. -/
def found (fs : FileSystem) (wname : String) : Option (SWorld LevelData) × Option WorldError :=
  let wdir := root.world wname
  if fs.Stat wdir = .error .notExist then (none, none)
  else
    match readSaveLevel enc fs (levelPath wdir) with
    | .error err => (none, some err)
    | .ok data => (some ⟨wname, (metaIn enc fs wdir).Alias, (metaIn enc fs wdir).IP, data⟩, none)

theorem readSaveLevel_congr {fs fs' : FileSystem} {path : Place}
    (same : fs.ReadFile path = fs'.ReadFile path) :
    readSaveLevel enc fs path = readSaveLevel enc fs' path := by
  unfold readSaveLevel
  rw [same]

/-- Writing one file of the world does not change what the other one holds. -/
theorem ReadFile_level_update (fs : FileSystem) (wdir : Place) (node : Option Node) :
    FileSystem.ReadFile (Function.update fs (getWorldDirMetaPath wdir) node) (levelPath wdir) =
      fs.ReadFile (levelPath wdir) := by
  have apart : ∀ q, q <:+ levelPath wdir →
      Function.update fs (getWorldDirMetaPath wdir) node q = fs q := by
    intro q above
    refine Function.update_of_ne ?_ _ _
    intro here
    rw [here] at above
    exact absurd (mem_of_suffix ["level.dat".toList] above) (by decide)
  refine FileSystem.ReadFile_congr (apart _ List.suffix_rfl) ?_
  exact FileSystem.fileAt_congr fun q above => by rw [apart q above]

theorem readWorldMeta_level (fs : FileSystem) (wdir : Place) (write : Outcome (List UInt8)) :
    readSaveLevel enc (readWorldMeta enc fs wdir write).2 (levelPath wdir) =
      readSaveLevel enc fs (levelPath wdir) := by
  have wrote : ∀ d, readSaveLevel enc (writeWorldMeta enc fs wdir d write).2 (levelPath wdir) =
      readSaveLevel enc fs (levelPath wdir) := by
    intro d
    obtain ⟨node, after⟩ := fs.WriteFile_update (getWorldDirMetaPath wdir) (enc.marshalMeta d) write
    refine readSaveLevel_congr enc ?_
    rw [← ReadFile_level_update fs wdir node, ← after]
    rfl
  unfold readWorldMeta
  split
  · have same := wrote ⟨"", ""⟩
    split <;> rename_i after ended <;> rw [ended] at same <;> exact same
  · rfl
  · split <;> rfl

theorem readWorldMeta_meta (fs : FileSystem) (wdir : Place) (write : Outcome (List UInt8)) :
    (match (readWorldMeta enc fs wdir write).1 with
      | .error _ => ⟨"", ""⟩
      | .ok d => d) = metaIn enc fs wdir := by
  unfold readWorldMeta metaIn
  cases read : fs.ReadFile (getWorldDirMetaPath wdir) with
  | error err =>
      cases err with
      | notExist =>
          dsimp only
          split <;> rename_i ended <;> split at ended <;> simp_all
      | _ => rfl
  | ok b =>
      dsimp only
      cases enc.unmarshalMeta b <;> rfl

theorem GetWorld_found (fs : FileSystem) (wname : String) (write : Outcome (List UInt8)) :
    (GetWorld enc root fs wname write).1 = found enc root fs wname := by
  have level := readWorldMeta_level enc fs (root.world wname) write
  have meta_ := readWorldMeta_meta enc fs (root.world wname) write
  unfold GetWorld found
  dsimp only
  split
  · rename_i absent
    rw [if_pos absent]
  · rename_i there
    rw [if_neg there]
    rw [← level, ← meta_]
    cases readWorldMeta enc fs (root.world wname) write with
    | mk worldMeta after =>
        dsimp only
        cases readSaveLevel enc after (levelPath (root.world wname)) <;> rfl

theorem found_none_iff {fs : FileSystem} {wname : String} :
    (found enc root fs wname).1 = none ↔ fs.Stat (root.world wname) = .error .notExist ∨
      ∃ err, readSaveLevel enc fs (levelPath (root.world wname)) = .error err := by
  unfold found
  dsimp only
  split
  · rename_i absent
    simp [absent]
  · rename_i there
    cases readSaveLevel enc fs (levelPath (root.world wname)) <;> simp [there]

theorem found_error_iff {fs : FileSystem} {wname : String} {err : WorldError} :
    found enc root fs wname = (none, some err) ↔
      ¬ fs.Stat (root.world wname) = .error .notExist ∧
        readSaveLevel enc fs (levelPath (root.world wname)) = .error err := by
  unfold found
  dsimp only
  split
  · rename_i absent
    simp [absent]
  · rename_i there
    cases readSaveLevel enc fs (levelPath (root.world wname)) <;> simp [there]

/-- What is found depends on whether the directory is there and on the two files. -/
theorem found_congr {fs fs' : FileSystem} {wname : String}
    (stat : fs.Stat (root.world wname) = .error .notExist ↔
      fs'.Stat (root.world wname) = .error .notExist)
    (level : readSaveLevel enc fs (levelPath (root.world wname)) =
      readSaveLevel enc fs' (levelPath (root.world wname)))
    (worldMeta : (found enc root fs' wname).1 ≠ none →
      metaIn enc fs (root.world wname) = metaIn enc fs' (root.world wname)) :
    found enc root fs wname = found enc root fs' wname := by
  by_cases absent : fs'.Stat (root.world wname) = .error .notExist
  · simp [found, absent, stat.mpr absent]
  · have absent' : ¬ fs.Stat (root.world wname) = .error .notExist := fun none_ =>
      absent (stat.mp none_)
    cases read : readSaveLevel enc fs' (levelPath (root.world wname)) with
    | error err => simp [found, absent, absent', level, read]
    | ok data =>
        have same := worldMeta fun none_ => by simp [found_none_iff, absent, read] at none_
        simp [found, absent, absent', level, read, same]

/-! ### The names of the files -/

theorem world_level (wname : String) :
    root.world (wname ++ "/" ++ "level.dat") = levelPath (root.world wname) := by
  rw [Root.world, Path.within_append]
  exact Path.within_of_name _ _ (by decide) (by decide)

theorem world_meta (wname : String) :
    root.world (wname ++ "/" ++ "WebChunk.json") = getWorldDirMetaPath (root.world wname) := by
  rw [Root.world, Path.within_append]
  exact Path.within_of_name _ _ (by decide) (by decide)

/-! ### Nothing changes -/

variable {fs : FileSystem} {world : SWorld LevelData} {r : Remains}

theorem content_cases {wpath q : Place} {content : List UInt8}
    (written : r.content wpath q = some content) :
    (q = getWorldDirMetaPath wpath ∧ r.worldMeta = some content) ∨
      q = levelPath wpath ∧ r.level = some content := by
  unfold Remains.content at written
  split at written
  · exact .inl ⟨‹_›, written⟩
  · split at written
    · exact .inr ⟨‹_›, written⟩
    · cases written

section

variable (fits : r.Fits enc fs world (root.world world.Name))
  (harmless : r.harmless enc root fs world.Name)

include harmless in
/-- What was made at a place that a name reaches was there before. -/
theorem left_eq_none_iff (other : String) :
    r.left fs (root.world world.Name) (root.world other) = none ↔ fs (root.world other) = none := by
  have there := harmless.1 other
  cases written : r.content (root.world world.Name) (root.world other) with
  | some content => simpa [left_of_content fs written, written] using there
  | none =>
      rw [left_of_none written]
      split
      · rename_i made
        exact absurd made.2 (there (.inl made.1))
      · rfl

include fits harmless in
/-- A file is a file as before. -/
theorem left_file_iff (q : Place) :
    (∃ content, r.left fs (root.world world.Name) q = some (.file content)) ↔
      ∃ content, fs q = some (.file content) := by
  cases written : r.content (root.world world.Name) q with
  | none =>
      rw [left_of_none written]
      split
      · rename_i made
        simp [made.2]
      · rfl
  | some content =>
      have before : fs q ≠ none ∧ fs q ≠ some .dir := by
        rcases content_cases written with ⟨rfl, left⟩ | ⟨rfl, left⟩
        · refine ⟨?_, (fits.noMetaDir content left).2⟩
          rw [← world_meta]
          exact harmless.1 _ (.inr (by rw [world_meta, written]; rfl))
        · refine ⟨?_, (fits.noLevelDir content left).2⟩
          rw [← world_level]
          exact harmless.1 _ (.inr (by rw [world_level, written]; rfl))
      rw [left_of_content fs written]
      refine ⟨fun _ => ?_, fun _ => ⟨content, rfl⟩⟩
      obtain ⟨node, found⟩ := Option.ne_none_iff_exists'.mp before.1
      cases node with
      | dir => exact absurd found before.2
      | file content => exact ⟨content, found⟩

include fits harmless in
theorem left_fileAt (q : Place) :
    (r.left fs (root.world world.Name)).fileAt q = fs.fileAt q :=
  FileSystem.fileAt_congr fun p _ => left_file_iff enc root fits harmless p

include fits harmless in
theorem left_Stat_notExist_iff (other : String) :
    (r.left fs (root.world world.Name)).Stat (root.world other) = .error .notExist ↔
      fs.Stat (root.world other) = .error .notExist := by
  rw [FileSystem.Stat_notExist_iff, FileSystem.Stat_notExist_iff,
    left_eq_none_iff enc root harmless, left_fileAt enc root fits harmless]

include fits harmless in
/-- A place that a name reaches and that was not written reads as before. -/
theorem left_ReadFile (other : String)
    (untouched : r.content (root.world world.Name) (root.world other) = none) :
    (r.left fs (root.world world.Name)).ReadFile (root.world other) =
      fs.ReadFile (root.world other) := by
  refine FileSystem.ReadFile_congr ?_ (left_fileAt enc root fits harmless _)
  rw [left_of_none untouched, if_neg]
  exact fun made => harmless.1 other (.inl made.1) made.2

include fits harmless in
theorem left_level (other : String) :
    readSaveLevel enc (r.left fs (root.world world.Name)) (levelPath (root.world other)) =
      readSaveLevel enc fs (levelPath (root.world other)) := by
  rw [← world_level]
  cases written : r.content (root.world world.Name) (root.world (other ++ "/" ++ "level.dat")) with
  | none => exact readSaveLevel_congr enc (left_ReadFile enc root fits harmless _ written)
  | some content =>
      have read := FileSystem.ReadFile_of_file (left_of_content fs written)
      rw [readSaveLevel, read]
      rw [world_level] at written ⊢
      rcases content_cases written with ⟨clash, -⟩ | ⟨here, left⟩
      · exact absurd clash (levelPath_ne _ _)
      · rw [here, ← harmless.2 content left]
        rfl

include fits harmless in
theorem left_meta {other : String} (elsewhere : root.world other ≠ root.world world.Name) :
    metaIn enc (r.left fs (root.world world.Name)) (root.world other) =
      metaIn enc fs (root.world other) := by
  have untouched : r.content (root.world world.Name) (getWorldDirMetaPath (root.world other)) =
      none :=
    content_eq_none (fun here => elsewhere (List.cons.inj here).2) fun here =>
      levelPath_ne _ _ here.symm
  rw [← world_meta] at untouched
  have read := left_ReadFile enc root fits harmless _ untouched
  rw [world_meta] at read
  unfold metaIn
  rw [read]

include fits harmless in
theorem found_left_of_harmless (noWorld : (found enc root fs world.Name).1 = none)
    (other : String) :
    found enc root (r.left fs (root.world world.Name)) other = found enc root fs other := by
  refine found_congr enc root (left_Stat_notExist_iff enc root fits harmless other)
    (left_level enc root fits harmless other) fun found => ?_
  refine left_meta enc root fits harmless fun here => found ?_
  rw [found_none_iff] at noWorld ⊢
  rwa [here]

include fits in
/-- What was made is not below a file. -/
theorem clear_of_made {q : Place}
    (made : q ∈ r.dirs ∨ (r.content (root.world world.Name) q).isSome) (absent : fs q = none) :
    fs.Stat q = .error .notExist := by
  rw [FileSystem.Stat_notExist_iff]
  refine ⟨absent, ?_⟩
  rcases made with dir | file
  · exact fits.clear q dir
  · obtain ⟨content, written⟩ := Option.isSome_iff_exists.mp file
    have inside : root.world world.Name ∈ r.dirs ∧ ∃ name, q = name :: root.world world.Name := by
      rcases content_cases written with ⟨rfl, left⟩ | ⟨rfl, left⟩
      · exact ⟨(fits.noMetaDir content left).1, _, rfl⟩
      · exact ⟨(fits.noLevelDir content left).1, _, rfl⟩
    obtain ⟨member, name, rfl⟩ := inside
    have above := fits.clear _ member
    refine Bool.eq_false_iff.mpr fun below => ?_
    obtain ⟨p, suffix, file⟩ := FileSystem.fileAt_iff.mp below
    rcases List.suffix_cons_iff.mp suffix with rfl | suffix
    · obtain ⟨content, file⟩ := file
      rw [absent] at file
      cases file
    · rw [FileSystem.fileAt_iff.mpr ⟨p, suffix, file⟩] at above
      cases above

/-- What was made is there. -/
theorem left_ne_none_of_made {wpath q : Place}
    (made : q ∈ r.dirs ∨ (r.content wpath q).isSome) : r.left fs wpath q ≠ none := by
  cases written : r.content wpath q with
  | some content => simp [left_of_content fs written]
  | none =>
      have dir : q ∈ r.dirs := by simpa [written] using made
      rw [left_of_none written]
      split
      · simp
      · rename_i there
        exact fun absent => there ⟨dir, absent⟩

include fits in
/-- If every world is found as before, then what was left is harmless. -/
theorem harmless_of_unchanged (noWorld : (found enc root fs world.Name).1 = none)
    (same : ∀ other, found enc root (r.left fs (root.world world.Name)) other =
      found enc root fs other) : r.harmless enc root fs world.Name := by
  have there : ∀ q, r.left fs (root.world world.Name) q ≠ none →
      ¬ (r.left fs (root.world world.Name)).Stat q = .error .notExist :=
    fun q present absent => present (FileSystem.Stat_notExist_iff.mp absent).1
  constructor
  · intro other made absent
    have before : found enc root fs other = (none, none) := by
      simp [found, clear_of_made enc root fits made absent]
    have after := same other
    rw [before] at after
    unfold found at after
    rw [if_neg (there _ (left_ne_none_of_made made))] at after
    split at after <;> cases after
  · intro content left
    have dir := (fits.noLevelDir content left).1
    have written : r.content (root.world world.Name) (levelPath (root.world world.Name)) =
        some content := by
      simp [Remains.content, levelPath_ne, left]
    have read : readSaveLevel enc (r.left fs (root.world world.Name))
        (levelPath (root.world world.Name)) = levelIn enc content := by
      rw [readSaveLevel, FileSystem.ReadFile_of_file (left_of_content fs written)]
      rfl
    have after := same world.Name
    rw [← after, found_none_iff] at noWorld
    have present := there _ (left_ne_none_of_made (.inl dir))
    obtain ⟨err, failed⟩ := noWorld.resolve_left present
    rw [(found_error_iff enc root).mpr ⟨present, failed⟩] at after
    rw [← read, failed, ((found_error_iff enc root).mp after.symm).2]

include fits in
/-- A world that was added as a whole is found. -/
theorem found_left_of_complete (roundTrips : enc.RoundTrips) (complete : r.complete = true) :
    found enc root (r.left fs (root.world world.Name)) world.Name = (some world, none) := by
  obtain ⟨dir, worldMeta, b, encoded, level⟩ := fits.whole complete
  have present : ¬ (r.left fs (root.world world.Name)).Stat (root.world world.Name) =
      .error .notExist :=
    fun absent => left_ne_none_of_made (.inl dir) (FileSystem.Stat_notExist_iff.mp absent).1
  have metaFile := FileSystem.ReadFile_of_file (left_of_content fs
    (show r.content (root.world world.Name) (getWorldDirMetaPath (root.world world.Name)) = _ from
      (if_pos rfl).trans worldMeta))
  have levelFile := FileSystem.ReadFile_of_file (left_of_content fs
    (show r.content (root.world world.Name) (levelPath (root.world world.Name)) = _ from
      ((if_neg (levelPath_ne _ _)).trans (if_pos rfl)).trans level))
  simp [found, present, readSaveLevel, metaIn, metaFile, levelFile, roundTrips.worldMeta,
    roundTrips.level _ _ encoded]

end

/-! ### When it holds -/

theorem createDirs_ne_alreadyExists (fs : FileSystem) (dirs : List (Place × Outcome Nat)) :
    (createDirs fs dirs).1 ≠ some .alreadyExists := by
  fun_induction createDirs fs dirs <;> simp_all

/-- `AddWorld` does not report a world that exists. -/
theorem AddWorld_ne_alreadyExists (fs : FileSystem) (world : SWorld LevelData) (o : Outcomes) :
    (AddWorld enc root fs world o).1 ≠ some .alreadyExists := by
  have files : ∀ err : Option FileError, err.map .file ≠ some WorldError.alreadyExists := by
    intro err
    cases err <;> simp
  unfold AddWorld
  dsimp only
  split
  · simp
  · split
    · rename_i err after wrote
      rw [writeWorldMeta, Prod.mk.injEq] at wrote
      exact wrote.1 ▸ files _
    · split
      · rename_i err after stopped
        rw [← congrArg Prod.fst stopped]
        exact createDirs_ne_alreadyExists _ _
      · unfold writeSaveLevel
        split
        · simp
        · exact files _

/-- Adding a world is all or nothing exactly when `GetWorld` finds no world of the name, and
either all operations succeed or what was made before one failed is harmless. -/
theorem addWorld_allOrNothing_iff (roundTrips : enc.RoundTrips) (fs : FileSystem)
    (world : SWorld LevelData) (o : Outcomes) :
    AllOrNothing enc root fs world (AddWorld enc root fs world o) ↔
      (∀ write, (GetWorld enc root fs world.Name write).1.1 = none) ∧
        ((remains enc root fs world o).complete = true ∨
          (remains enc root fs world o).harmless enc root fs world.Name) := by
  have fits := remains_fits enc root fs world o
  obtain ⟨tree, success⟩ := AddWorld_left enc root fs world o
  simp only [GetWorld_found]
  constructor
  · intro whole
    have noWorld : (found enc root fs world.Name).1 = none := by
      by_contra exists_
      refine AddWorld_ne_alreadyExists enc root fs world o (whole.existing .done ?_)
      rwa [GetWorld_found]
    refine ⟨fun _ => noWorld, ?_⟩
    cases ended : (AddWorld enc root fs world o).1 with
    | none => exact .inl (success.mp ended)
    | some err =>
        refine .inr (harmless_of_unchanged enc root fits noWorld fun other => ?_)
        have same := whole.unchanged err ended other .done .done
        rwa [GetWorld_found, GetWorld_found, tree] at same
  · rintro ⟨noWorld, rest⟩
    have absent := noWorld .done
    refine ⟨?_, ?_, ?_⟩
    · intro ended before after
      rw [GetWorld_found, GetWorld_found, tree]
      exact ⟨absent, found_left_of_complete enc root fits roundTrips (success.mp ended)⟩
    · intro err ended other before after
      rw [GetWorld_found, GetWorld_found, tree]
      have failed : ¬ (remains enc root fs world o).complete = true := by
        rw [← success, ended]
        simp
      exact found_left_of_harmless enc root fits (rest.resolve_left failed) absent other
    · intro before exists_
      rw [GetWorld_found] at exists_
      exact absurd absent exists_

/-- What `json.MarshalIndent` makes of the record of a world. -/
def metaText : List UInt8 :=
  asciiBytes "\x7b\n\t\"Alias\": \"alias\",\n\t\"IP\": \"ip\"\n\x7d"

/-- Encodings where a level is one byte. The records of other worlds are told apart by the length of
their encodings. -/
def sampleEncodings : Encodings UInt8 where
  marshalMeta d :=
    if d = ⟨"alias", "ip"⟩ then metaText
    else List.replicate
      (Encodable.encode (d.Alias.toList.map Char.toNat, d.IP.toList.map Char.toNat)) 0
  unmarshalMeta b :=
    if b = metaText then .ok ⟨"alias", "ip"⟩
    else
      match (Encodable.decode b.length : Option (List Nat × List Nat)) with
      | none => .error "unexpected end of JSON input"
      | some (name, address) =>
          .ok ⟨String.ofList (name.map Char.ofNat), String.ofList (address.map Char.ofNat)⟩
  encodeLevel d := .ok [d]
  decodeLevel
    | [d] => .ok d
    | _ => .error "unexpected EOF"

theorem sampleEncodings_roundTrips : sampleEncodings.RoundTrips where
  worldMeta d := by
    by_cases sample : d = ⟨"alias", "ip"⟩
    · rw [sample]
      simp only [sampleEncodings, if_true]
    · have differ : ∀ n, List.replicate n 0 ≠ metaText := by
        intro n same
        have brace : 123 ∈ List.replicate n (0 : UInt8) := same ▸ (by decide)
        exact absurd (List.eq_of_mem_replicate brace) (by decide)
      have chars : (Char.ofNat ∘ Char.toNat) = id := funext Char.ofNat_toNat
      simp [sampleEncodings, sample, differ, chars]
  level d b encoded := by
    cases encoded
    rfl

/-- A storage without worlds. -/
def sampleRoot : Root := ⟨false, ["storage".toList]⟩

/-- A world is added to an empty storage. -/
theorem addWorld_allOrNothing_empty :
    AllOrNothing sampleEncodings sampleRoot (fun _ => none) ⟨"w", "alias", "ip", 7⟩
      (AddWorld sampleEncodings sampleRoot (fun _ => none) ⟨"w", "alias", "ip", 7⟩
        ⟨.done, .done, .done, .done, .done, .done⟩) :=
  (addWorld_allOrNothing_iff sampleEncodings sampleRoot sampleEncodings_roundTrips _ _ _).mpr
    ⟨fun _ => rfl, .inl (by decide)⟩

/-- There is no space for `level.dat`: the new world was not there and is an error now. -/
theorem full_disk_leaves_world :
    ∃ o : Outcomes,
      (AddWorld sampleEncodings sampleRoot (fun _ => none) ⟨"w", "alias", "ip", 7⟩ o).1 =
        some (.file (.other 28)) ∧
      (GetWorld sampleEncodings sampleRoot (fun _ => none) "w" .done).1 = (none, none) ∧
      (GetWorld sampleEncodings sampleRoot
        (AddWorld sampleEncodings sampleRoot (fun _ => none) ⟨"w", "alias", "ip", 7⟩ o).2 "w"
          .done).1 = (none, some (.file .notExist)) ∧
      ¬ AllOrNothing sampleEncodings sampleRoot (fun _ => none) ⟨"w", "alias", "ip", 7⟩
        (AddWorld sampleEncodings sampleRoot (fun _ => none) ⟨"w", "alias", "ip", 7⟩ o) := by
  have before : (GetWorld sampleEncodings sampleRoot (fun _ => none) "w" .done).1 =
      (none, none) := rfl
  have failed : (AddWorld sampleEncodings sampleRoot (fun _ => none) ⟨"w", "alias", "ip", 7⟩
      ⟨.done, .done, .done, .done, .done, .failed (.other 28) none⟩).1 =
        some (.file (.other 28)) := by decide
  have after : (GetWorld sampleEncodings sampleRoot (AddWorld sampleEncodings sampleRoot
      (fun _ => none) ⟨"w", "alias", "ip", 7⟩
        ⟨.done, .done, .done, .done, .done, .failed (.other 28) none⟩).2 "w" .done).1 =
          (none, some (.file .notExist)) := by
    rw [GetWorld_found]
    decide
  refine ⟨_, failed, before, after, fun whole => ?_⟩
  have same := whole.unchanged _ failed "w" .done .done
  rw [after, before] at same
  cases same

end WebChunk.WorldStore
