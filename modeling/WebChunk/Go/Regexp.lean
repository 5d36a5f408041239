import Mathlib.Tactic.Common

/-!
# Regular expressions

What the program uses of `regexp`: classes of characters, their repetition, options, groups and
the two anchors. An expression has successes in the order in which a backtracking matcher comes to
them; the first one is the match. A string is the characters that `regexp` reads, so a byte that
is no UTF-8 is the character U+FFFD.
-/

namespace WebChunk.Go

inductive Regexp where
  | empty
  /-- One character of a class. -/
  | char (accepts : Char → Bool)
  /-- `+` of a class. -/
  | many (accepts : Char → Bool)
  /-- `?` -/
  | optional (inner : Regexp)
  /-- A group whose text is kept. -/
  | group (inner : Regexp)
  | seq (first second : Regexp)
  /-- `^` -/
  | beginText
  /-- `$` -/
  | endText

/-- The text that was matched, the texts of the groups, and what follows. -/
structure Match where
  text : List Char
  groups : List (List Char)
  rest : List Char
  deriving DecidableEq

/-- A match continued by one of what follows it. -/
def Match.followedBy (m next : Match) : Match :=
  ⟨m.text ++ next.text, m.groups ++ next.groups, next.rest⟩

namespace Regexp

/-- An expression for a text. -/
def literal : List Char → Regexp
  | [] => empty
  | c :: text => seq (char (· == c)) (literal text)

def numGroups : Regexp → Nat
  | optional inner => inner.numGroups
  | group inner => inner.numGroups + 1
  | seq first second => first.numGroups + second.numGroups
  | _ => 0

/-- The successes of a repetition, the longest one first. -/
def repetitions (accepts : Char → Bool) : List Char → List Match
  | [] => []
  | c :: rest =>
      if accepts c then
        (repetitions accepts rest).map (fun m => { m with text := c :: m.text }) ++ [⟨[c], [], rest⟩]
      else []

/-- All ways to match what stands at the beginning of the characters, the preferred ones first.
The flag says whether nothing stands in front of them. -/
def successes : Regexp → Bool → List Char → List Match
  | empty, _, s => [⟨[], [], s⟩]
  | char _, _, [] => []
  | char accepts, _, c :: rest => if accepts c then [⟨[c], [], rest⟩] else []
  | many accepts, _, s => repetitions accepts s
  | optional inner, start, s =>
      inner.successes start s ++ [⟨[], List.replicate inner.numGroups [], s⟩]
  | group inner, start, s =>
      (inner.successes start s).map fun m => { m with groups := m.text :: m.groups }
  | seq first second, start, s =>
      (first.successes start s).flatMap fun m =>
        (second.successes (start && m.text.isEmpty) m.rest).map m.followedBy
  | beginText, start, s => if start then [⟨[], [], s⟩] else []
  | endText, _, s => if s = [] then [⟨[], [], []⟩] else []

/-- The leftmost match. -/
def find (r : Regexp) : Bool → List Char → Option Match
  | start, [] => (r.successes start []).head?
  | start, c :: rest =>
      match (r.successes start (c :: rest)).head? with
      | some m => some m
      | none => r.find false rest

/-- `allMatches`: an empty match does not count where another match has just ended, and is
followed by the search from the next character on. -/
def allMatches (r : Regexp) : Nat → Bool → Bool → List Char → List Match
  | 0, _, _, _ => []
  | n + 1, start, adjacent, s =>
      match r.find start s with
      | none => []
      | some m =>
          if m.rest.length = s.length then
            (if adjacent then [] else [m]) ++
              match s with
              | [] => []
              | _ :: rest => r.allMatches n false false rest
          else m :: r.allMatches n false true m.rest

/-- `FindAllStringSubmatch(s, -1)`; a search begins at most once at every place. -/
def FindAllStringSubmatch (r : Regexp) (s : String) : List (List String) :=
  (r.allMatches (s.toList.length + 1) true false s.toList).map fun m =>
    (m.text :: m.groups).map String.ofList

/-- The texts that an expression without anchors describes, with the texts of its groups. -/
def Language : Regexp → List Char → List (List Char) → Prop
  | empty, text, groups => text = [] ∧ groups = []
  | char accepts, text, groups => (∃ c, accepts c ∧ text = [c]) ∧ groups = []
  | many accepts, text, groups => (text ≠ [] ∧ ∀ c ∈ text, accepts c) ∧ groups = []
  | optional inner, text, groups =>
      inner.Language text groups ∨ text = [] ∧ groups = List.replicate inner.numGroups []
  | group inner, text, groups => ∃ inside, inner.Language text inside ∧ groups = text :: inside
  | seq first second, text, groups =>
      ∃ text₁ groups₁ text₂ groups₂, first.Language text₁ groups₁ ∧
        second.Language text₂ groups₂ ∧ text = text₁ ++ text₂ ∧ groups = groups₁ ++ groups₂
  | beginText, _, _ => False
  | endText, _, _ => False

def AnchorFree : Regexp → Prop
  | optional inner => inner.AnchorFree
  | group inner => inner.AnchorFree
  | seq first second => first.AnchorFree ∧ second.AnchorFree
  | beginText => False
  | endText => False
  | _ => True

variable {accepts : Char → Bool} {r : Regexp} {start : Bool} {s text : List Char}
  {groups : List (List Char)} {m : Match}

/-! ### The matcher and the language -/

theorem mem_repetitions : m ∈ repetitions accepts s ↔
    ((m.text ≠ [] ∧ ∀ c ∈ m.text, accepts c) ∧ m.groups = []) ∧ s = m.text ++ m.rest := by
  induction s generalizing m with
  | nil =>
      constructor
      · intro member
        cases member
      · rintro ⟨⟨⟨some_, -⟩, -⟩, split⟩
        exact absurd (List.append_eq_nil_iff.mp split.symm).1 some_
  | cons c rest inductionHypothesis =>
      rw [repetitions]
      split
      · rename_i accepted
        rw [List.mem_append, List.mem_map, List.mem_singleton]
        constructor
        · rintro (⟨longer, member, rfl⟩ | rfl)
          · obtain ⟨⟨⟨-, all⟩, noGroups⟩, split⟩ := inductionHypothesis.mp member
            refine ⟨⟨⟨List.cons_ne_nil _ _, ?_⟩, noGroups⟩, by rw [split]; rfl⟩
            exact List.forall_mem_cons.mpr ⟨accepted, all⟩
          · exact ⟨⟨⟨List.cons_ne_nil _ _, by simpa using accepted⟩, rfl⟩, rfl⟩
        · rintro ⟨⟨⟨some_, all⟩, noGroups⟩, split⟩
          obtain ⟨text, groups, left⟩ := m
          obtain ⟨d, tail, rfl⟩ := List.exists_cons_of_ne_nil some_
          dsimp only at all split noGroups
          subst noGroups
          obtain ⟨rfl, rest⟩ := List.cons_eq_cons.mp split
          by_cases one : tail = []
          · subst one
            exact .inr (by rw [rest]; rfl)
          · have all := (List.forall_mem_cons.mp all).2
            exact .inl ⟨⟨tail, [], left⟩, inductionHypothesis.mpr ⟨⟨⟨one, all⟩, rfl⟩, rest⟩, rfl⟩
      · rename_i refused
        constructor
        · intro member
          cases member
        · rintro ⟨⟨⟨some_, all⟩, -⟩, split⟩
          obtain ⟨d, tail, text⟩ := List.exists_cons_of_ne_nil some_
          rw [text] at all split
          obtain ⟨rfl, -⟩ := List.cons_eq_cons.mp split
          exact absurd (all c List.mem_cons_self) refused

/-- The successes of an expression without anchors are the texts of its language with which the
characters begin. -/
theorem mem_successes (free : r.AnchorFree) : m ∈ r.successes start s ↔
    r.Language m.text m.groups ∧ s = m.text ++ m.rest := by
  induction r generalizing start s m with
  | empty =>
      rw [successes, List.mem_singleton]
      constructor
      · rintro rfl
        exact ⟨⟨rfl, rfl⟩, rfl⟩
      · obtain ⟨text, groups, rest⟩ := m
        rintro ⟨⟨noText, noGroups⟩, split⟩
        dsimp only at noText noGroups split
        rw [noText, noGroups, split, noText]
        rfl
  | char accepts =>
      cases s with
      | nil =>
          constructor
          · intro member
            cases member
          · rintro ⟨⟨⟨c, -, one⟩, -⟩, split⟩
            rw [one] at split
            cases split
      | cons c rest =>
          rw [successes]
          split
          · rename_i accepted
            rw [List.mem_singleton]
            constructor
            · rintro rfl
              exact ⟨⟨⟨c, accepted, rfl⟩, rfl⟩, rfl⟩
            · obtain ⟨text, groups, left⟩ := m
              rintro ⟨⟨⟨d, -, one⟩, noGroups⟩, split⟩
              dsimp only at one noGroups split
              rw [one] at split
              obtain ⟨rfl, rfl⟩ := List.cons_eq_cons.mp split
              rw [one, noGroups]
          · rename_i refused
            constructor
            · intro member
              cases member
            · rintro ⟨⟨⟨d, accepted, one⟩, -⟩, split⟩
              rw [one] at split
              obtain ⟨rfl, -⟩ := List.cons_eq_cons.mp split
              exact absurd accepted refused
  | many accepts => exact mem_repetitions
  | optional inner inductionHypothesis =>
      rw [successes, List.mem_append, List.mem_singleton, inductionHypothesis free]
      constructor
      · rintro (⟨described, split⟩ | rfl)
        · exact ⟨.inl described, split⟩
        · exact ⟨.inr ⟨rfl, rfl⟩, rfl⟩
      · obtain ⟨text, groups, rest⟩ := m
        rintro ⟨described | ⟨noText, noGroups⟩, split⟩
        · exact .inl ⟨described, split⟩
        · dsimp only at noText noGroups split
          rw [noText, noGroups, split, noText]
          exact .inr rfl
  | group inner inductionHypothesis =>
      rw [successes, List.mem_map]
      constructor
      · rintro ⟨m', member, rfl⟩
        obtain ⟨described, split⟩ := (inductionHypothesis free).mp member
        exact ⟨⟨m'.groups, described, rfl⟩, split⟩
      · obtain ⟨text, groups, rest⟩ := m
        rintro ⟨⟨inside, described, shape⟩, split⟩
        dsimp only at described shape split
        rw [shape]
        exact ⟨⟨text, inside, rest⟩, (inductionHypothesis free).mpr ⟨described, split⟩, rfl⟩
  | seq first second firstHypothesis secondHypothesis =>
      simp only [successes, List.mem_flatMap, List.mem_map]
      constructor
      · rintro ⟨m₁, member₁, m₂, member₂, rfl⟩
        obtain ⟨described₁, split₁⟩ := (firstHypothesis free.1).mp member₁
        obtain ⟨described₂, split₂⟩ := (secondHypothesis free.2).mp member₂
        refine ⟨⟨_, _, _, _, described₁, described₂, rfl, rfl⟩, ?_⟩
        rw [split₁, split₂, ← List.append_assoc]
        rfl
      · obtain ⟨text, groups, rest⟩ := m
        rintro ⟨⟨text₁, groups₁, text₂, groups₂, described₁, described₂, whole, all⟩, split⟩
        dsimp only at whole all split
        rw [whole, all]
        refine ⟨⟨text₁, groups₁, text₂ ++ rest⟩, (firstHypothesis free.1).mpr ⟨described₁, ?_⟩,
          ⟨text₂, groups₂, rest⟩, (secondHypothesis free.2).mpr ⟨described₂, rfl⟩, rfl⟩
        rw [split, whole, List.append_assoc]
  | beginText => exact free.elim
  | endText => exact free.elim

/-- A text describes itself. -/
theorem language_literal {word : List Char} :
    (literal word).Language text groups ↔ text = word ∧ groups = [] := by
  induction word generalizing text groups with
  | nil => exact Iff.rfl
  | cons c word inductionHypothesis =>
      constructor
      · rintro ⟨text₁, groups₁, text₂, groups₂, ⟨⟨d, same, rfl⟩, rfl⟩, later, rfl, rfl⟩
        obtain ⟨rfl, rfl⟩ := inductionHypothesis.mp later
        obtain rfl := eq_of_beq same
        exact ⟨rfl, rfl⟩
      · rintro ⟨rfl, rfl⟩
        exact ⟨[c], [], word, [], ⟨⟨c, BEq.rfl, rfl⟩, rfl⟩, inductionHypothesis.mpr ⟨rfl, rfl⟩,
          rfl, rfl⟩

theorem anchorFree_literal (word : List Char) : (literal word).AnchorFree := by
  induction word with
  | nil => trivial
  | cons c word inductionHypothesis => exact ⟨trivial, inductionHypothesis⟩

/-! ### Anchored expressions -/

theorem successes_begin_inside (r : Regexp) (s : List Char) :
    (seq beginText r).successes false s = [] := rfl

theorem successes_begin (r : Regexp) (s : List Char) :
    (seq beginText r).successes true s = r.successes true s := by
  have same : Match.followedBy ⟨[], [], s⟩ = id := funext fun m => rfl
  simp [successes, same]

theorem find_begin_inside (r : Regexp) (s : List Char) : (seq beginText r).find false s = none := by
  induction s with
  | nil => rfl
  | cons c rest inductionHypothesis =>
      rw [find, successes_begin_inside, List.head?_nil]
      exact inductionHypothesis

theorem find_begin (r : Regexp) (s : List Char) :
    (seq beginText r).find true s = (r.successes true s).head? := by
  cases s with
  | nil => rw [find, successes_begin]
  | cons c rest =>
      rw [find, successes_begin, find_begin_inside]
      split <;> simp_all

/-- An expression that is anchored at the beginning has at most one match. -/
theorem findAll_begin (r : Regexp) (s : String) :
    (seq beginText r).FindAllStringSubmatch s =
      ((r.successes true s.toList).head?.map fun m =>
        (m.text :: m.groups).map String.ofList).toList := by
  have inside : ∀ n adjacent rest, (seq beginText r).allMatches n false adjacent rest = [] := by
    intro n adjacent rest
    cases n with
    | zero => rfl
    | succ n =>
        unfold allMatches
        rw [find_begin_inside]
  unfold FindAllStringSubmatch allMatches
  rw [find_begin]
  cases (r.successes true s.toList).head? with
  | none => rfl
  | some m =>
      dsimp only
      rw [inside]
      split
      · cases s.toList with
        | nil => rfl
        | cons c rest =>
            dsimp only
            rw [inside]
            rfl
      · rfl

/-- What is followed by the end of the text describes all of it. -/
theorem mem_successes_end (free : r.AnchorFree) : m ∈ (seq r endText).successes start s ↔
    r.Language s m.groups ∧ m = ⟨s, m.groups, []⟩ := by
  simp only [successes, List.mem_flatMap, List.mem_map, mem_successes free]
  constructor
  · rintro ⟨m₁, ⟨described, split⟩, m₂, member, rfl⟩
    split at member
    · rename_i noRest
      obtain rfl := List.mem_singleton.mp member
      rw [noRest, List.append_nil] at split
      rw [split]
      simp only [Match.followedBy, List.append_nil]
      exact ⟨described, trivial⟩
    · cases member
  · rintro ⟨described, shape⟩
    refine ⟨m, ⟨?_, ?_⟩, ⟨[], [], []⟩, ?_, ?_⟩ <;> rw [shape]
    · exact described
    · exact (List.append_nil s).symm
    · exact List.mem_singleton.mpr rfl
    · simp only [Match.followedBy, List.append_nil]

/-- An expression that is anchored at both ends matches a string, once, exactly if it describes
it. -/
theorem findAll_whole (free : r.AnchorFree) (s : String) :
    (∃ groups, r.Language s.toList groups ∧
      (seq beginText (seq r endText)).FindAllStringSubmatch s =
        [s :: groups.map String.ofList]) ∨
    (∀ groups, ¬ r.Language s.toList groups) ∧
      (seq beginText (seq r endText)).FindAllStringSubmatch s = [] := by
  rw [findAll_begin]
  cases matched : ((seq r endText).successes true s.toList).head? with
  | none =>
      refine .inr ⟨fun groups described => ?_, rfl⟩
      have member : (⟨s.toList, groups, []⟩ : Match) ∈
          (seq r endText).successes true s.toList := (mem_successes_end free).mpr ⟨described, rfl⟩
      rw [List.head?_eq_none_iff.mp matched] at member
      cases member
  | some m =>
      obtain ⟨described, shape⟩ := (mem_successes_end free).mp (List.mem_of_head? matched)
      refine .inl ⟨m.groups, described, ?_⟩
      rw [shape, Option.map_some, Option.toList_some, List.map_cons, String.ofList_toList]

example : (seq beginText (group (optional (many Char.isDigit)))).FindAllStringSubmatch "12a3" =
    [["12", "12"]] := by decide

end Regexp

end WebChunk.Go
