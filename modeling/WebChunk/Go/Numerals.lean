import WebChunk.Go.Int
import WebChunk.Go.Strconv

/-!
# Numbers that are read

`strconv.Atoi` reads a numeral, digits that may have a minus in front, exactly if its value is an
`int`; every `int` is written as a numeral of its value.
-/

namespace WebChunk.Go

/-- `Atoi`, which reads as `ParseInt` does. -/
def Atoi (s : String) : Except NumError Int :=
  match ParseInt s 64 with
  | .error e => .error { e with Func := "Atoi" }
  | .ok n => .ok n

/-- Digits, with or without a minus in front. -/
def IsNumeral (text : List Char) : Prop :=
  ∃ digits, digits ≠ [] ∧ (∀ c ∈ digits, c.isDigit) ∧ (text = digits ∨ text = '-' :: digits)

/-- The value of a numeral. -/
def numeralValue : List Char → Int
  | '-' :: digits => -(Nat.ofDigitChars 10 digits 0 : Nat)
  | digits => (Nat.ofDigitChars 10 digits 0 : Nat)

variable {n maxVal : Nat} {digits text : List Char}

theorem IsNumeral.nonempty (numeral : IsNumeral text) : text ≠ [] := by
  obtain ⟨digits, some_, -, rfl | rfl⟩ := numeral
  · exact some_
  · exact List.cons_ne_nil _ _

/-- A numeral has no other characters. -/
theorem IsNumeral.notMem {char : Char} (numeral : IsNumeral text) (notMinus : char ≠ '-')
    (notDigit : char.isDigit = false) : char ∉ text := by
  obtain ⟨digits, -, all, form⟩ := numeral
  have notIn : char ∉ digits := by
    intro inside
    have digit := all char inside
    rw [notDigit] at digit
    cases digit
  rcases form with rfl | rfl
  · exact notIn
  · exact List.not_mem_cons_of_ne_of_not_mem notMinus notIn

/-- Further digits make a number no smaller. -/
theorem le_ofDigitChars (n : Nat) (digits : List Char) : n ≤ Nat.ofDigitChars 10 digits n := by
  induction digits generalizing n with
  | nil => rw [Nat.ofDigitChars_nil]
  | cons c rest inductionHypothesis =>
      rw [Nat.ofDigitChars_cons]
      exact le_trans (by omega) (inductionHypothesis _)

/-- The loop over digits finds their value, or that it is too large. -/
theorem parseDigits_eq (all : ∀ c ∈ digits, c.isDigit) (small : n ≤ maxVal) :
    parseDigits maxVal n digits =
      if Nat.ofDigitChars 10 digits n ≤ maxVal then .ok (Nat.ofDigitChars 10 digits n)
      else .error errRange := by
  induction digits generalizing n with
  | nil => rw [parseDigits, Nat.ofDigitChars_nil, if_pos small]
  | cons c rest inductionHypothesis =>
      obtain ⟨digit, all⟩ := List.forall_mem_cons.mp all
      rw [parseDigits, if_neg (not_not.mpr digit), Nat.ofDigitChars_cons, Nat.mul_comm n 10]
      split
      · rename_i large
        have grows := le_ofDigitChars (10 * n + (c.toNat - '0'.toNat)) rest
        rw [if_neg (by omega)]
      · rename_i fits
        exact inductionHypothesis all (by omega)

theorem parseUint_eq (some_ : digits ≠ []) (all : ∀ c ∈ digits, c.isDigit) (bitSize : Nat) :
    parseUint digits bitSize =
      if Nat.ofDigitChars 10 digits 0 < 2 ^ bitSize then .ok (Nat.ofDigitChars 10 digits 0)
      else .error errRange := by
  have positive := Nat.two_pow_pos bitSize
  rw [parseUint, if_neg some_, parseDigits_eq all (Nat.zero_le _)]
  exact if_congr (by omega) rfl rfl

theorem digits_head (some_ : digits ≠ []) (all : ∀ c ∈ digits, c.isDigit) :
    ∃ c rest, digits = c :: rest ∧ c ≠ '+' ∧ c ≠ '-' := by
  obtain ⟨c, rest, rfl⟩ := List.exists_cons_of_ne_nil some_
  have digit := all c List.mem_cons_self
  refine ⟨c, rest, rfl, ?_, ?_⟩ <;> rintro rfl <;> exact absurd digit (by decide)

theorem numeralValue_digits (some_ : digits ≠ []) (all : ∀ c ∈ digits, c.isDigit) :
    numeralValue digits = (Nat.ofDigitChars 10 digits 0 : Nat) := by
  obtain ⟨c, rest, rfl, -, notMinus⟩ := digits_head some_ all
  unfold numeralValue
  split
  · rename_i same
    exact absurd (List.cons_eq_cons.mp same).1 notMinus
  · rfl

/-- What `ParseInt` makes of the sign and the digits behind it. -/
theorem signed_eq (neg : Bool) (s : String) (some_ : digits ≠ [])
    (all : ∀ c ∈ digits, c.isDigit) :
    (match parseUint digits 64 with
      | .error err => .error ⟨"ParseInt", s, err⟩
      | .ok un =>
          let cutoff := 2 ^ (64 - 1)
          if neg = false ∧ un ≥ cutoff ∨ neg = true ∧ un > cutoff then
            .error ⟨"ParseInt", s, errRange⟩
          else .ok (if neg then -(un : Int) else un) : Except NumError Int) =
      let value : Int := (Nat.ofDigitChars 10 digits 0 : Nat)
      if InInt (if neg then -value else value) then .ok (if neg then -value else value)
      else .error ⟨"ParseInt", s, errRange⟩ := by
  rw [parseUint_eq some_ all]
  generalize Nat.ofDigitChars 10 digits 0 = value
  dsimp only
  by_cases fits : value < 2 ^ 64
  · have cut : (neg = false ∧ value ≥ 2 ^ (64 - 1) ∨ neg = true ∧ value > 2 ^ (64 - 1)) ↔
        ¬ InInt (if neg then -(value : Int) else value) := by
      cases neg with
      | false =>
          simp only [InInt, true_and, reduceCtorEq, false_and, or_false, if_false]
          omega
      | true =>
          simp only [InInt, true_and, reduceCtorEq, false_and, false_or, if_true]
          omega
    rw [if_pos fits]
    dsimp only
    rw [if_congr cut rfl rfl, ite_not]
  · have outside : ¬ InInt (if neg then -(value : Int) else value) := by
      cases neg <;> simp [InInt] <;> omega
    rw [if_neg fits, if_neg outside]

/-- A numeral is read exactly if its value is an `int`. -/
theorem parseInt_numeral (numeral : IsNumeral text) :
    ParseInt (.ofList text) 64 =
      if InInt (numeralValue text) then .ok (numeralValue text)
      else .error ⟨"ParseInt", .ofList text, errRange⟩ := by
  obtain ⟨digits, some_, all, rfl | rfl⟩ := numeral
  · obtain ⟨c, rest, rfl, notPlus, notMinus⟩ := digits_head some_ all
    rw [numeralValue_digits some_ all]
    unfold ParseInt
    rw [String.toList_ofList]
    split
    rename_i neg digits signed
    split at signed
    · rename_i plus
      exact absurd (List.cons_eq_cons.mp plus).1 notPlus
    · rename_i minus
      exact absurd (List.cons_eq_cons.mp minus).1 notMinus
    · cases signed
      exact signed_eq false (.ofList (c :: rest)) some_ all
  · unfold ParseInt
    rw [String.toList_ofList]
    exact signed_eq true (.ofList ('-' :: digits)) some_ all

theorem atoi_numeral (numeral : IsNumeral text) :
    Atoi (.ofList text) =
      if InInt (numeralValue text) then .ok (numeralValue text)
      else .error ⟨"Atoi", .ofList text, errRange⟩ := by
  rw [Atoi, parseInt_numeral numeral]
  by_cases fits : InInt (numeralValue text)
  · rw [if_pos fits, if_pos fits]
  · rw [if_neg fits, if_neg fits]

/-- A number is written as a numeral of its value. -/
theorem numeral_toString (n : Int) :
    IsNumeral (toString n).toList ∧ numeralValue (toString n).toList = n := by
  have digits : ∀ m : Nat, m.repr.toList = Nat.toDigits 10 m := fun m => Nat.toList_repr
  have all : ∀ m : Nat, ∀ c ∈ Nat.toDigits 10 m, c.isDigit := fun m c member =>
    Nat.isDigit_of_mem_toDigits (by decide) (by decide) member
  have value : ∀ m : Nat, Nat.ofDigitChars 10 (Nat.toDigits 10 m) 0 = m := fun m =>
    Nat.ofDigitChars_ten_toDigits
  rw [Int.toString_eq_repr, Int.repr_eq_if]
  split
  · rename_i positive
    rw [digits]
    have some_ : Nat.toDigits 10 n.toNat ≠ [] := Nat.toDigits_ne_nil
    refine ⟨⟨_, some_, all _, .inl rfl⟩, ?_⟩
    rw [numeralValue_digits some_ (all _), value]
    omega
  · rename_i negative
    rw [String.toList_append, digits]
    refine ⟨⟨_, Nat.toDigits_ne_nil, all _, .inr rfl⟩, ?_⟩
    have minus : numeralValue ("-".toList ++ Nat.toDigits 10 (-n).toNat) =
        -(Nat.ofDigitChars 10 (Nat.toDigits 10 (-n).toNat) 0 : Nat) := rfl
    rw [minus, value]
    omega

end WebChunk.Go
