import WebChunk.Go.Numerals
import WebChunk.Go.Regexp
import WebChunk.RegionStore.Paths

/-!
# The names of region files

The listings find the region files of a directory by their names: `ExtractRegionPath` reads from a
name what `getRegionPath` writes into it.
-/

namespace WebChunk.RegionStore

open WebChunk.Go

/-- `-?\d+` -/
def numeralRegexp : Regexp := .seq (.optional (.char (· == '-'))) (.many Char.isDigit)

/-- `r\.(-?\d+)\.(-?\d+)\.mca` -/
def regionFnameBody : Regexp :=
  .seq (.literal ['r', '.']) (.seq (.group numeralRegexp) (.seq (.literal ['.'])
    (.seq (.group numeralRegexp) (.literal ['.', 'm', 'c', 'a']))))

def regionFnameRegexp : Regexp := .seq .beginText (.seq regionFnameBody .endText)

/-- `ExtractRegionPath`, with the variables that the pointers lead to before and after the call;
`none` is a nil pointer. -/
def ExtractRegionPath (fname : String) (xx zz : Option Int) : Bool × Option Int × Option Int :=
  let r := regionFnameRegexp.FindAllStringSubmatch fname
  if r.length ≠ 1 then (false, xx, zz)
  else
    let first := r.getD 0 []
    if first.length ≠ 3 then (false, xx, zz)
    else
      match Atoi (first.getD 1 "") with
      | .error _ => (false, xx, zz)
      | .ok x =>
          match Atoi (first.getD 2 "") with
          | .error _ => (false, xx, zz)
          | .ok z => (true, xx.map fun _ => x, zz.map fun _ => z)

/-- The name of a file in its directory: what stands behind the last slash of its path. -/
def fileName (path : String) : String :=
  .ofList ((Path.elements path.toList).getLastD [])

/-- `r.`, a numeral, a dot, a numeral and `.mca`. -/
def nameWith (a b : List Char) : List Char :=
  "r.".toList ++ a ++ ".".toList ++ b ++ ".mca".toList

/-- The string is a name with numerals whose values are `int`s. -/
def NamesRegion (fname : String) (x z : Int) : Prop :=
  ∃ a b, IsNumeral a ∧ IsNumeral b ∧ fname.toList = nameWith a b ∧
    (numeralValue a = x ∧ InInt x) ∧ (numeralValue b = z ∧ InInt z)

variable {text a b a' b' : List Char} {groups : List (List Char)} {fname : String}
  {xx zz : Option Int}

/-! ### What the expression describes -/

theorem language_numeral : numeralRegexp.Language text groups ↔ IsNumeral text ∧ groups = [] := by
  constructor
  · rintro ⟨sign, groups₁, digits, groups₂, signed, ⟨⟨some_, all⟩, rfl⟩, rfl, rfl⟩
    rcases signed with ⟨⟨c, minus, rfl⟩, rfl⟩ | ⟨rfl, rfl⟩
    · obtain rfl := eq_of_beq minus
      exact ⟨⟨digits, some_, all, .inr rfl⟩, rfl⟩
    · exact ⟨⟨digits, some_, all, .inl rfl⟩, rfl⟩
  · rintro ⟨⟨digits, some_, all, rfl | rfl⟩, rfl⟩
    · exact ⟨[], [], text, [], .inr ⟨rfl, rfl⟩, ⟨⟨some_, all⟩, rfl⟩, rfl, rfl⟩
    · exact ⟨['-'], [], digits, [], .inl ⟨⟨'-', rfl, rfl⟩, rfl⟩, ⟨⟨some_, all⟩, rfl⟩, rfl, rfl⟩

theorem language_group_numeral : (Regexp.group numeralRegexp).Language text groups ↔
    IsNumeral text ∧ groups = [text] := by
  constructor
  · rintro ⟨inside, described, rfl⟩
    obtain ⟨numeral, rfl⟩ := language_numeral.mp described
    exact ⟨numeral, rfl⟩
  · rintro ⟨numeral, rfl⟩
    exact ⟨[], language_numeral.mpr ⟨numeral, rfl⟩, rfl⟩

theorem language_regionFname : regionFnameBody.Language text groups ↔
    ∃ a b, IsNumeral a ∧ IsNumeral b ∧ groups = [a, b] ∧ text = nameWith a b := by
  constructor
  · rintro ⟨t₁, g₁, u₁, h₁, first, ⟨a, g₂, u₂, h₂, x, ⟨t₃, g₃, u₃, h₃, dot,
      ⟨b, g₄, t₅, g₅, z, last, rfl, rfl⟩, rfl, rfl⟩, rfl, rfl⟩, rfl, rfl⟩
    obtain ⟨rfl, rfl⟩ := Regexp.language_literal.mp first
    obtain ⟨rfl, rfl⟩ := Regexp.language_literal.mp dot
    obtain ⟨rfl, rfl⟩ := Regexp.language_literal.mp last
    obtain ⟨numeral, rfl⟩ := language_group_numeral.mp x
    obtain ⟨numeral', rfl⟩ := language_group_numeral.mp z
    exact ⟨a, b, numeral, numeral', rfl, by simp [nameWith]⟩
  · rintro ⟨a, b, numeral, numeral', rfl, rfl⟩
    have literal : ∀ word, (Regexp.literal word).Language word [] :=
      fun word => Regexp.language_literal.mpr ⟨rfl, rfl⟩
    exact ⟨_, _, _, _, literal _, ⟨_, _, _, _, language_group_numeral.mpr ⟨numeral, rfl⟩,
      ⟨_, _, _, _, literal _, ⟨_, _, _, _, language_group_numeral.mpr ⟨numeral', rfl⟩,
        literal _, rfl, rfl⟩, rfl, rfl⟩, rfl, rfl⟩, by simp [nameWith], rfl⟩

theorem regionFnameBody_anchorFree : regionFnameBody.AnchorFree :=
  ⟨Regexp.anchorFree_literal _, ⟨trivial, trivial⟩, Regexp.anchorFree_literal _,
    ⟨trivial, trivial⟩, Regexp.anchorFree_literal _⟩

/-- The numerals can be told from the name. -/
theorem nameWith_inj (x : IsNumeral a) (z : IsNumeral b)
    (same : nameWith a b = nameWith a' b') : a = a' ∧ b = b' := by
  have split : ∀ c d, nameWith c d = "r.".toList ++ ((c ++ '.' :: d) ++ ".mca".toList) := by
    intro c d
    simp [nameWith]
  rw [split, split] at same
  obtain ⟨first, -, second⟩ := (List.append_cons_inj_of_notMem
    (x.notMem (by decide) (by decide)) (z.notMem (by decide) (by decide))).mp
    (List.append_cancel_right (List.append_cancel_left same))
  exact ⟨first, second⟩

/-! ### What is extracted -/

/-- The numbers are extracted together or not at all. -/
theorem extractRegionPath_name (x : IsNumeral a) (z : IsNumeral b)
    (named : fname.toList = nameWith a b) :
    ExtractRegionPath fname xx zz =
      if InInt (numeralValue a) ∧ InInt (numeralValue b) then
        (true, xx.map fun _ => numeralValue a, zz.map fun _ => numeralValue b)
      else (false, xx, zz) := by
  rcases Regexp.findAll_whole regionFnameBody_anchorFree fname with
    ⟨groups, described, found⟩ | ⟨none_, -⟩
  · obtain ⟨a', b', -, -, rfl, named'⟩ := language_regionFname.mp described
    obtain ⟨rfl, rfl⟩ := nameWith_inj x z (named.symm.trans named')
    unfold ExtractRegionPath regionFnameRegexp
    have one : [fname :: [a, b].map String.ofList].length = 1 := rfl
    have texts : [fname :: [a, b].map String.ofList].getD 0 [] =
        [fname, .ofList a, .ofList b] := rfl
    have three : [fname, String.ofList a, String.ofList b].length = 3 := rfl
    have textX : [fname, String.ofList a, String.ofList b].getD 1 "" = .ofList a := rfl
    have textZ : [fname, String.ofList a, String.ofList b].getD 2 "" = .ofList b := rfl
    rw [found]
    dsimp only
    rw [texts, if_neg (not_not.mpr one), if_neg (not_not.mpr three), textX, textZ, atoi_numeral x]
    by_cases fitsX : InInt (numeralValue a)
    · rw [if_pos fitsX]
      dsimp only
      rw [atoi_numeral z]
      by_cases fitsZ : InInt (numeralValue b)
      · rw [if_pos fitsZ, if_pos ⟨fitsX, fitsZ⟩]
      · rw [if_neg fitsZ, if_neg fun both => fitsZ both.2]
    · rw [if_neg fitsX, if_neg fun both => fitsX both.1]
  · exact absurd (language_regionFname.mpr ⟨a, b, x, z, rfl, named⟩) (none_ _)

/-- Nothing is extracted from any other string. -/
theorem extractRegionPath_other
    (other : ∀ a b, IsNumeral a → IsNumeral b → fname.toList ≠ nameWith a b) :
    ExtractRegionPath fname xx zz = (false, xx, zz) := by
  rcases Regexp.findAll_whole regionFnameBody_anchorFree fname with
    ⟨groups, described, -⟩ | ⟨-, nothing⟩
  · obtain ⟨a, b, x, z, -, named⟩ := language_regionFname.mp described
    exact absurd named (other a b x z)
  · unfold ExtractRegionPath regionFnameRegexp
    rw [nothing]
    rfl

theorem namesRegion_regionName (loc : RegionLocator) (x : InInt loc.rx) (z : InInt loc.rz) :
    NamesRegion (regionName loc) loc.rx loc.rz := by
  obtain ⟨numeral, value⟩ := numeral_toString loc.rx
  obtain ⟨numeral', value'⟩ := numeral_toString loc.rz
  refine ⟨_, _, numeral, numeral', ?_, ⟨value, x⟩, ⟨value', z⟩⟩
  rw [regionName_toList]
  simp [nameWith]

/-- Either the string names a region and its coordinates are extracted, or it names none and
both variables are left as they are. -/
theorem extractRegionPath_cases (fname : String) (xx zz : Option Int) :
    (∃ x z, NamesRegion fname x z ∧
      ExtractRegionPath fname xx zz = (true, xx.map fun _ => x, zz.map fun _ => z)) ∨
    (∀ x z, ¬ NamesRegion fname x z) ∧ ExtractRegionPath fname xx zz = (false, xx, zz) := by
  by_cases named : ∃ a b, IsNumeral a ∧ IsNumeral b ∧ fname.toList = nameWith a b
  · obtain ⟨a, b, x, z, named⟩ := named
    rw [extractRegionPath_name x z named]
    by_cases fits : InInt (numeralValue a) ∧ InInt (numeralValue b)
    · rw [if_pos fits]
      exact .inl ⟨_, _, ⟨a, b, x, z, named, ⟨rfl, fits.1⟩, ⟨rfl, fits.2⟩⟩, rfl⟩
    · rw [if_neg fits]
      refine .inr ⟨?_, rfl⟩
      rintro _ _ ⟨a', b', -, -, named', ⟨rfl, fitsX⟩, ⟨rfl, fitsZ⟩⟩
      obtain ⟨rfl, rfl⟩ := nameWith_inj x z (named.symm.trans named')
      exact fits ⟨fitsX, fitsZ⟩
  · refine .inr ⟨?_, extractRegionPath_other fun a b x z same => named ⟨a, b, x, z, same⟩⟩
    rintro _ _ ⟨a, b, x, z, same, -, -⟩
    exact named ⟨a, b, x, z, same⟩

theorem namesRegion_unique {x z x' z' : Int} (names : NamesRegion fname x z)
    (names' : NamesRegion fname x' z') : x = x' ∧ z = z' := by
  obtain ⟨a, b, numeral, numeral', named, ⟨rfl, -⟩, ⟨rfl, -⟩⟩ := names
  obtain ⟨a', b', -, -, named', ⟨rfl, -⟩, ⟨rfl, -⟩⟩ := names'
  obtain ⟨rfl, rfl⟩ := nameWith_inj numeral numeral' (named.symm.trans named')
  exact ⟨rfl, rfl⟩

/-! ### The name that a path ends with -/

theorem fileName_getRegionPath (cfg : Config) (loc : RegionLocator) :
    fileName (cfg.getRegionPath loc) = regionName loc := by
  have plain := regionName_plain loc
  have folder : cfg.getRegionFolder loc ≠ "" := by
    rw [getRegionFolder_eq]
    exact @Path.join_ne_empty "region" _ (by simp) (by decide)
  have clean : Path.IsClean (Path.isRooted (cfg.getRegionFolder loc).toList)
      ((regionName loc).toList :: Path.placeOf (cfg.getRegionFolder loc).toList) :=
    .name plain (Path.placeOf_isClean _)
  have path : (cfg.getRegionPath loc).toList =
      Path.render (Path.isRooted (cfg.getRegionFolder loc).toList)
        ((regionName loc).toList :: Path.placeOf (cfg.getRegionFolder loc).toList) := by
    rw [Config.getRegionPath, Path.join_eq folder, List.foldl_cons, List.foldl_nil]
    exact congrArg _ (Path.within_of_plain plain)
  rw [fileName, path, Path.getLastD_elements_render clean, String.ofList_toList]

/-- What is written into the name of a region file is what is read from it, for every pair of
64-bit numbers, and nothing is read from a string that is no such name. -/
theorem extractRegionPath_roundTrip :
    (∀ (cfg : Config) (world dimension : String) (rx rz : Int64) (xx zz : Option Int),
      ExtractRegionPath
          (fileName (cfg.getRegionPath ⟨world, dimension, rx.toInt, rz.toInt⟩)) xx zz =
        (true, xx.map fun _ => rx.toInt, zz.map fun _ => rz.toInt)) ∧
    ∀ (fname : String) (xx zz : Option Int),
      (∃ x z, NamesRegion fname x z ∧
        ExtractRegionPath fname xx zz = (true, xx.map fun _ => x, zz.map fun _ => z)) ∨
      (∀ x z, ¬ NamesRegion fname x z) ∧ ExtractRegionPath fname xx zz = (false, xx, zz) := by
  refine ⟨fun cfg world dimension rx rz xx zz => ?_, extractRegionPath_cases⟩
  have named := namesRegion_regionName ⟨world, dimension, rx.toInt, rz.toInt⟩
    ⟨rx.le_toInt, rx.toInt_lt⟩ ⟨rz.le_toInt, rz.toInt_lt⟩
  rw [fileName_getRegionPath]
  rcases extractRegionPath_cases (regionName ⟨world, dimension, rx.toInt, rz.toInt⟩) xx zz with
    ⟨x, z, names, extracted⟩ | ⟨none_, -⟩
  · obtain ⟨rfl, rfl⟩ := namesRegion_unique names named
    exact extracted
  · exact absurd named (none_ _ _)

/-- The second number is no `int`, so the first one is not written either. -/
example : ExtractRegionPath "r.1.9223372036854775808.mca" (some 7) (some 8) =
    (false, some 7, some 8) := by decide +kernel

end WebChunk.RegionStore
