import Mathlib.Data.List.Infix
import Mathlib.Logic.Function.Basic
import WebChunk.Go.Path

/-!
# Files and directories

The calls of package `os` on a tree of files, given by the places that exist. A call that
changes the tree may fail for a reason of its own and leave a part of its work behind, so it
takes its outcome as an argument; where the tree does not allow it, it fails anyway.
-/

namespace WebChunk.Go

open WebChunk.Go.Path (Place)

inductive Node where
  | dir
  | file (content : List UInt8)
  deriving DecidableEq

/-- The errors that callers tell apart. `exist` is the value `os.ErrExist` itself, as `==` sees
it; an error that wraps it is one of the others. -/
inductive FileError where
  | notExist
  | exist
  | notDir
  | isDir
  | other (code : Nat)
  deriving DecidableEq

/-- How a call ends if the tree allows it. `left` is what a failed call leaves behind. -/
inductive Outcome (Left : Type) where
  | done
  | failed (err : FileError) (left : Option Left)
  deriving DecidableEq

/-- A tree of files. -/
abbrev FileSystem := Place → Option Node

namespace FileSystem

/-- The place or a directory above it is a file. -/
def fileAt (fs : FileSystem) (p : Place) : Bool :=
  p.tails.any fun q => match fs q with
    | some (.file _) => true
    | _ => false

/-- `os.Stat`. -/
def Stat (fs : FileSystem) (p : Place) : Except FileError Node :=
  match fs p with
  | some node => .ok node
  | none => if fs.fileAt p then .error .notDir else .error .notExist

/-- `os.ReadFile`. -/
def ReadFile (fs : FileSystem) (p : Place) : Except FileError (List UInt8) :=
  match fs.Stat p with
  | .error err => .error err
  | .ok .dir => .error .isDir
  | .ok (.file content) => .ok content

/-- The tree with the missing directories down to a place. -/
def makeDirs (fs : FileSystem) (p : Place) : FileSystem := fun q =>
  if q <:+ p ∧ fs q = none then some .dir else fs q

/-- `os.MkdirAll`. Directories are made from the top down, so a failed call leaves those down to
some place `p.drop n`. -/
def MkdirAll (fs : FileSystem) (p : Place) (outcome : Outcome Nat) :
    Option FileError × FileSystem :=
  if fs.fileAt p then (some .notDir, fs)
  else
    match outcome with
    | .done => (none, fs.makeDirs p)
    | .failed err none => (some err, fs)
    | .failed err (some n) => (some err, fs.makeDirs (p.drop n))

/-- `os.WriteFile` to a place whose directory exists. A failed call may have truncated the file
and written a part. -/
def WriteFile (fs : FileSystem) (p : Place) (content : List UInt8)
    (outcome : Outcome (List UInt8)) : Option FileError × FileSystem :=
  match fs p with
  | some .dir => (some .isDir, fs)
  | _ =>
      match outcome with
      | .done => (none, Function.update fs p (some (.file content)))
      | .failed err none => (some err, fs)
      | .failed err (some left) => (some err, Function.update fs p (some (.file left)))

variable {fs fs' : FileSystem} {p : Place}

theorem fileAt_iff : fs.fileAt p = true ↔
    ∃ q, q <:+ p ∧ ∃ content, fs q = some (.file content) := by
  unfold fileAt
  rw [List.any_eq_true]
  constructor
  · rintro ⟨q, above, file⟩
    refine ⟨q, (List.mem_tails _ _).mp above, ?_⟩
    split at file
    · rename_i content found
      exact ⟨content, found⟩
    · cases file
  · rintro ⟨q, above, content, found⟩
    exact ⟨q, (List.mem_tails _ _).mpr above, by rw [found]⟩

theorem fileAt_of_suffix {q : Place} (above : q <:+ p) (file : fs.fileAt q = true) :
    fs.fileAt p = true := by
  obtain ⟨r, higher, found⟩ := fileAt_iff.mp file
  exact fileAt_iff.mpr ⟨r, higher.trans above, found⟩

/-- Whether a file is in the way depends on which places are files. -/
theorem fileAt_congr (same : ∀ q, q <:+ p →
    ((∃ content, fs q = some (.file content)) ↔ ∃ content, fs' q = some (.file content))) :
    fs.fileAt p = fs'.fileAt p := by
  rw [Bool.eq_iff_iff, fileAt_iff, fileAt_iff]
  exact exists_congr fun q => and_congr_right (same q)

/-- A place without a file in the way, by what is there. -/
theorem Stat_notExist_iff : fs.Stat p = .error .notExist ↔ fs p = none ∧ fs.fileAt p = false := by
  unfold Stat
  split
  · rename_i node found
    simp [found]
  · rename_i absent
    split
    · rename_i file
      simp [file]
    · rename_i noFile
      simp [absent, noFile]

/-- What is read depends on the place and on where files are. -/
theorem ReadFile_congr (here : fs p = fs' p) (files : fs.fileAt p = fs'.fileAt p) :
    fs.ReadFile p = fs'.ReadFile p := by
  unfold ReadFile Stat
  rw [here, files]

theorem ReadFile_of_file {content : List UInt8} (found : fs p = some (.file content)) :
    fs.ReadFile p = .ok content := by
  unfold ReadFile Stat
  rw [found]

/-- Only a file is read. -/
theorem file_of_ReadFile {content : List UInt8} (read : fs.ReadFile p = .ok content) :
    fs p = some (.file content) := by
  unfold ReadFile Stat at read
  cases found : fs p with
  | none =>
      rw [found] at read
      dsimp only at read
      by_cases file : fs.fileAt p = true
      · rw [if_pos file] at read
        cases read
      · rw [if_neg file] at read
        cases read
  | some node =>
      rw [found] at read
      cases node with
      | dir => cases read
      | file content' =>
          cases read
          rfl

/-- Only the file that is written changes. -/
theorem WriteFile_update (fs : FileSystem) (p : Place) (content : List UInt8)
    (outcome : Outcome (List UInt8)) :
    ∃ node, (fs.WriteFile p content outcome).2 = Function.update fs p node := by
  have untouched : ∃ node, fs = Function.update fs p node :=
    ⟨fs p, (Function.update_eq_self p fs).symm⟩
  unfold WriteFile
  split
  · exact untouched
  · rcases outcome with _ | ⟨err, _ | left⟩
    · exact ⟨_, rfl⟩
    · exact untouched
    · exact ⟨_, rfl⟩

/-- A write has no error exactly if the tree allows it and it is done. -/
theorem WriteFile_eq_none_iff {content : List UInt8} {outcome : Outcome (List UInt8)} :
    (fs.WriteFile p content outcome).1 = none ↔ fs p ≠ some .dir ∧ outcome = .done := by
  unfold WriteFile
  split
  · rename_i isDir
    simp [isDir]
  · rename_i notDir
    rcases outcome with _ | ⟨err, _ | left⟩
    · simpa using notDir
    · simp
    · simp

/-- A file is replaced, kept or cut short. -/
theorem WriteFile_of_file {content content' : List UInt8} {outcome : Outcome (List UInt8)}
    (found : fs p = some (.file content)) : (fs.WriteFile p content' outcome).2 p =
      match outcome with
      | .done => some (.file content')
      | .failed _ none => some (.file content)
      | .failed _ (some left) => some (.file left) := by
  unfold WriteFile
  rw [found]
  rcases outcome with _ | ⟨err, _ | left⟩
  · exact Function.update_self p _ fs
  · exact found
  · exact Function.update_self p _ fs

end FileSystem

end WebChunk.Go
