/-!
# Slash-separated paths

`path.Clean` and `path.Join`, on the characters of the path.
-/

namespace WebChunk.Go.Path

/-- The elements between the slashes. -/
def elements : List Char → List (List Char)
  | [] => [[]]
  | char :: rest =>
      if char = '/' then [] :: elements rest
      else
        match elements rest with
        | [] => [[char]]
        | first :: others => (char :: first) :: others

/-- `path.Clean` at one element: `kept` are the elements kept so far, the last one
first. -/
def keep (rooted : Bool) (kept : List (List Char)) (element : List Char) : List (List Char) :=
  if element = [] ∨ element = ['.'] then kept
  else if element = ['.', '.'] then
    match kept with
    | [] => if rooted then [] else [element]
    | last :: others => if last = ['.', '.'] then element :: kept else others
  else element :: kept

/-- `path.Clean`. -/
def clean (path : List Char) : List Char :=
  let rooted := path.head? == some '/'
  let kept := (elements path).foldl (keep rooted) []
  let body := ['/'].intercalate kept.reverse
  if rooted then '/' :: body else if body = [] then ['.'] else body

/-- `path.Join`: empty elements are ignored, and nothing but those joins to nothing. -/
def join (parts : List String) : String :=
  match parts.filter (· ≠ "") with
  | [] => ""
  | present => String.ofList (clean (['/'].intercalate (present.map String.toList)))

/-- A place in the file system: the elements of a cleaned path, the last one first. -/
abbrev Place := List (List Char)

/-- The place of `path.Join(dir, path)`. -/
def within (rooted : Bool) (dir : Place) (path : String) : Place :=
  (elements path.toList).foldl (keep rooted) dir

theorem elements_append (first second : List Char) :
    elements (first ++ '/' :: second) = elements first ++ elements second := by
  induction first with
  | nil => simp [elements]
  | cons char rest inductionHypothesis =>
      have some_ : ∀ path, elements path ≠ [] := by
        intro path
        induction path with
        | nil => simp [elements]
        | cons char rest _ =>
            unfold elements
            split
            · simp
            · split <;> simp
      rw [List.cons_append, elements, elements, inductionHypothesis]
      split
      · rfl
      · obtain ⟨head, others, found⟩ := List.exists_cons_of_ne_nil (some_ rest)
        rw [found]
        rfl

/-- A path continued by one that is joined to it. -/
theorem within_append (rooted : Bool) (dir : Place) (first second : String) :
    within rooted dir (first ++ "/" ++ second) =
      within rooted (within rooted dir first) second := by
  have split : (first ++ "/" ++ second).toList = first.toList ++ '/' :: second.toList := by simp
  rw [within, split, elements_append, List.foldl_append]
  rfl

theorem elements_of_noSlash {path : List Char} (noSlash : '/' ∉ path) :
    elements path = [path] := by
  induction path with
  | nil => rfl
  | cons char rest inductionHypothesis =>
      rw [List.mem_cons, not_or] at noSlash
      rw [elements, if_neg (Ne.symm noSlash.1), inductionHypothesis noSlash.2]

/-- A plain name is a place in the directory. -/
theorem within_of_name (rooted : Bool) (dir : Place) {name : String}
    (noSlash : '/' ∉ name.toList)
    (kept : name.toList ≠ [] ∧ name.toList ≠ ['.'] ∧ name.toList ≠ ['.', '.']) :
    within rooted dir name = name.toList :: dir := by
  obtain ⟨nonempty, notDot, notDots⟩ := kept
  rw [within, elements_of_noSlash noSlash, List.foldl_cons, List.foldl_nil]
  unfold keep
  rw [if_neg (not_or.mpr ⟨nonempty, notDot⟩), if_neg notDots]

example : join ["storage", "w/../v", "", "./region"] = "storage/v/region" := by decide

end WebChunk.Go.Path
