import Mathlib.Data.List.Infix
import WebChunk.Go.Path

/-!
# Cleaned paths

A cleaned path is a list of names, behind some `..` when it has no root. What it was written as
can be read from it again, so two cleaned paths are the same string only if they are the same
place, and a join is followed part by part.
-/

namespace WebChunk.Go.Path

/-- An element that cleaning keeps as a name. -/
structure Plain (element : List Char) : Prop where
  nonempty : element ≠ []
  notDot : element ≠ ['.']
  notUp : element ≠ ['.', '.']
  noSlash : '/' ∉ element

theorem within_of_plain {rooted : Bool} {dir : Place} {name : String} (plain : Plain name.toList) :
    within rooted dir name = name.toList :: dir :=
  within_of_name rooted dir plain.noSlash ⟨plain.nonempty, plain.notDot, plain.notUp⟩

theorem foldl_within_of_plain {rooted : Bool} {dir : Place} {parts : List String}
    (plain : ∀ part ∈ parts, Plain part.toList) :
    parts.foldl (within rooted) dir = (parts.map String.toList).reverse ++ dir := by
  induction parts generalizing dir with
  | nil => rfl
  | cons first rest inductionHypothesis =>
      rw [List.foldl_cons, within_of_plain (plain first List.mem_cons_self),
        inductionHypothesis fun part member => plain part (List.mem_cons_of_mem _ member)]
      simp

/-- The places that cleaning leads to. -/
inductive IsClean (rooted : Bool) : Place → Prop where
  | nil : IsClean rooted []
  | up {place : Place} (relative : rooted = false) (ups : ∀ element ∈ place, element = ['.', '.'])
      (above : IsClean rooted place) : IsClean rooted (['.', '.'] :: place)
  | name {place : Place} {element : List Char} (plain : Plain element)
      (above : IsClean rooted place) : IsClean rooted (element :: place)

variable {rooted : Bool} {place : Place} {element : List Char}

/-- One element more. -/
theorem IsClean.keep (clean : IsClean rooted place) (noSlash : '/' ∉ element) :
    IsClean rooted (keep rooted place element) := by
  unfold Path.keep
  split
  · exact clean
  · rename_i kept
    rw [not_or] at kept
    split
    · rename_i up
      subst up
      cases clean with
      | nil =>
          dsimp only
          split
          · exact .nil
          · rename_i relative
            exact .up (by simpa using relative) (by simp) .nil
      | up relative ups above =>
          refine .up relative (fun element member => ?_) (.up relative ups above)
          rcases List.mem_cons.mp member with rfl | inside
          · rfl
          · exact ups element inside
      | name plain above =>
          dsimp only
          rw [if_neg plain.notUp]
          exact above
    · rename_i notUp
      exact .name ⟨kept.1, kept.2, notUp, noSlash⟩ clean

theorem noSlash_of_mem_elements {path : List Char} (member : element ∈ elements path) :
    '/' ∉ element := by
  induction path generalizing element with
  | nil =>
      rw [List.mem_singleton.mp member]
      exact List.not_mem_nil
  | cons char rest inductionHypothesis =>
      rw [elements] at member
      split at member
      · rcases List.mem_cons.mp member with rfl | later
        · exact List.not_mem_nil
        · exact inductionHypothesis later
      · rename_i notSlash
        split at member
        · rw [List.mem_singleton.mp member]
          simpa using Ne.symm notSlash
        · rename_i first others found
          rcases List.mem_cons.mp member with rfl | later
          · rw [List.mem_cons, not_or]
            exact ⟨Ne.symm notSlash, inductionHypothesis (found ▸ List.mem_cons_self)⟩
          · exact inductionHypothesis (found ▸ List.mem_cons_of_mem _ later)

theorem IsClean.foldl (clean : IsClean rooted place) {path : List (List Char)}
    (noSlash : ∀ element ∈ path, '/' ∉ element) :
    IsClean rooted (path.foldl (Path.keep rooted) place) := by
  induction path generalizing place with
  | nil => exact clean
  | cons first rest inductionHypothesis =>
      exact inductionHypothesis (clean.keep (noSlash first List.mem_cons_self))
        fun element member => noSlash element (List.mem_cons_of_mem _ member)

theorem IsClean.within (clean : IsClean rooted place) (path : String) :
    IsClean rooted (within rooted place path) :=
  clean.foldl fun _ member => noSlash_of_mem_elements member

theorem IsClean.foldl_within (clean : IsClean rooted place) (parts : List String) :
    IsClean rooted (parts.foldl (Path.within rooted) place) := by
  induction parts generalizing place with
  | nil => exact clean
  | cons first rest inductionHypothesis => exact inductionHypothesis (clean.within first)

/-- A clean place is kept as it is. -/
theorem foldl_keep_reverse (clean : IsClean rooted place) :
    place.reverse.foldl (keep rooted) [] = place := by
  induction clean with
  | nil => rfl
  | @up place relative ups _ inductionHypothesis =>
      rw [List.reverse_cons, List.foldl_append, inductionHypothesis, List.foldl_cons,
        List.foldl_nil]
      unfold keep
      rw [if_neg (by decide), if_pos rfl]
      cases place with
      | nil => simp [relative]
      | cons last others => exact if_pos (ups last List.mem_cons_self)
  | name plain _ inductionHypothesis =>
      rw [List.reverse_cons, List.foldl_append, inductionHypothesis, List.foldl_cons,
        List.foldl_nil]
      unfold keep
      rw [if_neg (not_or.mpr ⟨plain.nonempty, plain.notDot⟩), if_neg plain.notUp]

/-! ### Writing a place -/

/-- The string of a place. -/
def render (rooted : Bool) (place : Place) : List Char :=
  let body := ['/'].intercalate place.reverse
  if rooted then '/' :: body else if body = [] then ['.'] else body

/-- Whether a path starts at the root. -/
def isRooted (path : List Char) : Bool := path.head? == some '/'

theorem Plain.isRooted_eq (plain : Plain element) : isRooted element = false := by
  obtain ⟨char, rest, chars⟩ := List.exists_cons_of_ne_nil plain.nonempty
  have notSlash : char ≠ '/' := fun same => plain.noSlash (chars ▸ same ▸ List.mem_cons_self)
  simp [chars, isRooted, notSlash]

/-- The place of a path. -/
def placeOf (path : List Char) : Place := (elements path).foldl (keep (isRooted path)) []

theorem clean_eq (path : List Char) : clean path = render (isRooted path) (placeOf path) := rfl

theorem placeOf_isClean (path : List Char) : IsClean (isRooted path) (placeOf path) :=
  IsClean.nil.foldl fun _ member => noSlash_of_mem_elements member

/-- The elements of parts with slashes between them. -/
theorem elements_intercalate {parts : List (List Char)} (some_ : parts ≠ []) :
    elements (['/'].intercalate parts) = parts.flatMap elements := by
  induction parts with
  | nil => exact absurd rfl some_
  | cons first rest inductionHypothesis =>
      cases rest with
      | nil => simp [List.intercalate]
      | cons second others =>
          have split : ['/'].intercalate (first :: second :: others) =
              first ++ '/' :: ['/'].intercalate (second :: others) := by
            simp [List.intercalate]
          rw [split, elements_append, inductionHypothesis (by simp), List.flatMap_cons,
            List.flatMap_cons, List.flatMap_cons]

theorem flatMap_elements {parts : List (List Char)} (noSlash : ∀ part ∈ parts, '/' ∉ part) :
    parts.flatMap elements = parts := by
  induction parts with
  | nil => rfl
  | cons first rest inductionHypothesis =>
      rw [List.flatMap_cons, elements_of_noSlash (noSlash first List.mem_cons_self),
        inductionHypothesis fun part member => noSlash part (List.mem_cons_of_mem _ member)]
      rfl

/-- What holds of dots and of names holds of every element of a clean place. -/
theorem IsClean.forall_mem {holds : List Char → Prop} (dots : holds ['.', '.'])
    (names : ∀ {element}, Plain element → holds element) (clean : IsClean rooted place) :
    ∀ element ∈ place, holds element := by
  induction clean with
  | nil => exact fun _ member => absurd member List.not_mem_nil
  | up _ _ _ inductionHypothesis =>
      intro element member
      rcases List.mem_cons.mp member with rfl | above
      · exact dots
      · exact inductionHypothesis element above
  | name plain _ inductionHypothesis =>
      intro element member
      rcases List.mem_cons.mp member with rfl | above
      · exact names plain
      · exact inductionHypothesis element above

theorem IsClean.noSlash (clean : IsClean rooted place) : ∀ element ∈ place, '/' ∉ element :=
  clean.forall_mem (by decide) Plain.noSlash

theorem IsClean.nonempty (clean : IsClean rooted place) : ∀ element ∈ place, element ≠ [] :=
  clean.forall_mem (by simp) Plain.nonempty

/-- The elements of a written place. -/
theorem elements_body (clean : IsClean rooted place) (some_ : place ≠ []) :
    elements (['/'].intercalate place.reverse) = place.reverse := by
  rw [elements_intercalate (by simpa using some_), flatMap_elements fun part member =>
    clean.noSlash part (List.mem_reverse.mp member)]

theorem body_ne_nil (clean : IsClean rooted place) (some_ : place ≠ []) :
    ['/'].intercalate place.reverse ≠ [] := by
  intro nothing
  have body := elements_body clean some_
  rw [nothing] at body
  have only : place.reverse = [[]] := body.symm
  exact clean.nonempty [] (List.mem_reverse.mp (only ▸ List.mem_cons_self)) rfl

/-- What stands behind the last slash of a written place. -/
theorem getLastD_elements_render {name : List Char} {dir : Place}
    (clean : IsClean rooted (name :: dir)) :
    (elements (render rooted (name :: dir))).getLastD [] = name := by
  have some_ : name :: dir ≠ [] := List.cons_ne_nil name dir
  have body := elements_body clean some_
  cases rooted with
  | true =>
      change (elements ('/' :: _)).getLastD [] = name
      rw [elements, if_pos rfl, body, List.getLastD_cons, List.reverse_cons, List.getLastD_concat]
  | false =>
      have same : render false (name :: dir) = ['/'].intercalate (name :: dir).reverse :=
        if_neg (body_ne_nil clean some_)
      rw [same, body, List.reverse_cons, List.getLastD_concat]

/-- A place without a root is not written with a slash in front. -/
theorem not_isRooted_body (clean : IsClean rooted place) (some_ : place ≠ []) :
    isRooted (['/'].intercalate place.reverse) = false := by
  obtain ⟨first, others, split⟩ := List.exists_cons_of_ne_nil (show place.reverse ≠ [] by simpa)
  have member : first ∈ place := List.mem_reverse.mp (split ▸ List.mem_cons_self)
  obtain ⟨char, rest, chars⟩ := List.exists_cons_of_ne_nil (clean.nonempty first member)
  have notSlash : char ≠ '/' := fun same =>
    clean.noSlash first member (chars ▸ same ▸ List.mem_cons_self)
  rw [split, chars]
  cases others <;> simp [List.intercalate, isRooted, notSlash]

/-- A place is read from the string it is written as. -/
theorem placeOf_render (clean : IsClean rooted place) :
    isRooted (render rooted place) = rooted ∧ placeOf (render rooted place) = place := by
  by_cases empty : place = []
  · subst empty
    cases rooted <;> decide
  · have body := elements_body clean empty
    have relative := not_isRooted_body clean empty
    have kept := foldl_keep_reverse clean
    cases rooted with
    | true =>
        refine ⟨rfl, ?_⟩
        change (elements ('/' :: _)).foldl (keep true) [] = place
        rw [elements, if_pos rfl, body]
        exact kept
    | false =>
        have same : render false place = ['/'].intercalate place.reverse :=
          if_neg (body_ne_nil clean empty)
        rw [same]
        refine ⟨relative, ?_⟩
        rw [placeOf, relative, body]
        exact kept

/-- Two clean places are written alike only if they are the same. -/
theorem render_inj {rooted' : Bool} {place' : Place} (clean : IsClean rooted place)
    (clean' : IsClean rooted' place') (same : render rooted place = render rooted' place') :
    rooted = rooted' ∧ place = place' := by
  have read := placeOf_render clean
  have read' := placeOf_render clean'
  rw [same] at read
  exact ⟨read.1.symm.trans read'.1, read.2.symm.trans read'.2⟩

/-! ### Joining -/

/-- Empty parts lead nowhere. -/
theorem foldl_within_filter (parts : List String) :
    (parts.filter (· ≠ "")).foldl (within rooted) place = parts.foldl (within rooted) place := by
  induction parts generalizing place with
  | nil => rfl
  | cons first rest inductionHypothesis =>
      by_cases empty : first = ""
      · subst empty
        exact inductionHypothesis
      · rw [List.filter_cons_of_pos (by simpa using empty)]
        exact inductionHypothesis

theorem foldl_flatMap_elements (parts : List String) :
    ((parts.map String.toList).flatMap elements).foldl (keep rooted) place =
      parts.foldl (within rooted) place := by
  induction parts generalizing place with
  | nil => rfl
  | cons first rest inductionHypothesis =>
      rw [List.map_cons, List.flatMap_cons, List.foldl_append, inductionHypothesis]
      rfl

/-- A join leads from the place of its first part on, part by part. -/
theorem join_eq {first : String} (some_ : first ≠ "") (parts : List String) :
    (join (first :: parts)).toList = render (isRooted first.toList)
      (parts.foldl (within (isRooted first.toList)) (placeOf first.toList)) := by
  have present : (first :: parts).filter (· ≠ "") = first :: parts.filter (· ≠ "") :=
    List.filter_cons_of_pos (by simpa using some_)
  have head : isRooted (['/'].intercalate ((first :: parts.filter (· ≠ "")).map String.toList)) =
      isRooted first.toList := by
    obtain ⟨char, rest, chars⟩ := List.exists_cons_of_ne_nil
      (show first.toList ≠ [] from fun nothing => some_ (String.toList_eq_nil_iff.mp nothing))
    rw [List.map_cons, chars]
    cases parts.filter (· ≠ "") <;> simp [List.intercalate, isRooted]
  rw [join, present]
  dsimp only
  rw [String.toList_ofList, clean_eq, placeOf, head,
    elements_intercalate (by simp), foldl_flatMap_elements, List.foldl_cons, foldl_within_filter]
  rfl

theorem render_ne_nil : render rooted place ≠ [] := by
  unfold render
  dsimp only
  split
  · exact List.cons_ne_nil _ _
  · split
    · exact List.cons_ne_nil _ _
    · assumption

/-- A join of parts that are not all empty is not empty. -/
theorem join_ne_empty {part : String} {parts : List String} (member : part ∈ parts)
    (some_ : part ≠ "") : join parts ≠ "" := by
  have present : part ∈ parts.filter (· ≠ "") := by
    simpa using ⟨member, some_⟩
  unfold join
  split
  · rename_i nothing
    rw [nothing] at present
    cases present
  · intro empty
    have chars := congrArg String.toList empty
    rw [String.toList_ofList, clean_eq] at chars
    exact render_ne_nil chars

/-- A join leads on from its first part also when that is empty, unless the second is then
absolute. -/
theorem join_from {root first : String} (some_ : first ≠ "")
    (kept : root = "" → isRooted first.toList = false) (parts : List String) :
    (join (root :: first :: parts)).toList = render (isRooted root.toList)
      ((first :: parts).foldl (within (isRooted root.toList)) (placeOf root.toList)) := by
  by_cases empty : root = ""
  · have relative := kept empty
    subst empty
    have skipped : join ("" :: first :: parts) = join (first :: parts) := rfl
    have start : placeOf first.toList = within false [] first := by
      rw [placeOf, relative]
      rfl
    rw [skipped, join_eq some_, relative, start]
    rfl
  · exact join_eq empty (first :: parts)

/-- The place that a path leads to from a working directory. -/
def resolve (workingDir : Place) (path : String) : Place :=
  within true (if isRooted path.toList then [] else workingDir) path

/-! ### Below a directory -/

/-- A path leads to a place strictly below a directory: the directory's elements with some more,
of which none climbs. -/
def Below (path dir : String) : Prop :=
  isRooted path.toList = isRooted dir.toList ∧
    ∃ rest, rest ≠ [] ∧ ['.', '.'] ∉ rest ∧ placeOf path.toList = rest ++ placeOf dir.toList

/-- Whether a path that was written for a place is below a directory. -/
theorem below_iff {path dir : String} (clean : IsClean rooted place)
    (written : path.toList = render rooted place) :
    Below path dir ↔ rooted = isRooted dir.toList ∧
      ∃ rest, rest ≠ [] ∧ ['.', '.'] ∉ rest ∧ place = rest ++ placeOf dir.toList := by
  obtain ⟨root, read⟩ := placeOf_render clean
  rw [Below, written, root, read]

/-- A file in a named directory is below another directory when the place of its directory's
name is, or when the named directory is that other one. -/
theorem below_file_iff {file last : List Char} {dir base : Place} (filePlain : Plain file)
    (lastPlain : Plain last) :
    (∃ rest, rest ≠ [] ∧ ['.', '.'] ∉ rest ∧ file :: last :: dir = rest ++ base) ↔
      (∃ rest, ['.', '.'] ∉ rest ∧ dir = rest ++ base) ∨ last :: dir = base := by
  constructor
  · rintro ⟨rest, some_, plain, split⟩
    obtain ⟨nothing, -⟩ | ⟨above, rfl, named⟩ := List.cons_eq_append_iff.mp split
    · exact absurd nothing some_
    obtain ⟨rfl, own⟩ | ⟨further, rfl, inside⟩ := List.cons_eq_append_iff.mp named
    · exact .inr own.symm
    · exact .inl ⟨further, fun up => plain (.tail _ (.tail _ up)), inside⟩
  · rintro (⟨rest, plain, inside⟩ | own)
    · refine ⟨file :: last :: rest, by simp, ?_, congrArg (file :: last :: ·) inside⟩
      rw [List.mem_cons, List.mem_cons, not_or, not_or]
      exact ⟨filePlain.notUp.symm, lastPlain.notUp.symm, plain⟩
    · refine ⟨[file], by simp, ?_, congrArg (file :: ·) own⟩
      rw [List.mem_singleton]
      exact filePlain.notUp.symm

end WebChunk.Go.Path
