import Mathlib.Algebra.Order.Field.Basic
import Mathlib.Algebra.Order.Field.Rat
import Mathlib.Tactic.NormNum
import WebChunk.Go.Float
import WebChunk.Go.Int
import WebChunk.Semantics.Loop

/-!
# Numbers of bytes on the pages

`ByteCountIEC` of `misc.go`, which the templates call `FormatBytes`. The loop finds the unit in
integers; what is printed is the quotient in `float64`, rounded to one decimal.
-/

namespace WebChunk.Server

open WebChunk.Go WebChunk.Semantics

/-- The variables of the loop of `ByteCountIEC`. -/
structure Scaling where
  n : UInt64
  div : Int
  exp : Int

/-- One iteration. -/
def scaling : Loop Scaling where
  step s :=
    if s.n ≥ 1024 then some ⟨s.n / 1024, wrap (s.div * 1024), wrap (s.exp + 1)⟩ else none

/-- The variables before the loop. -/
def Scaling.start (b : UInt64) : Scaling := ⟨b / 1024, 1024, 0⟩

/-- `"KMGTPE"[exp]`, which panics outside of the string. -/
def unitLetter (exp : Int) : Option Char :=
  if 0 ≤ exp then "KMGTPE".toList[exp.toNat]? else none

/-- `float64(b)/float64(div)`. -/
def quotient (b : UInt64) (div : Int) : ℚ := float64 (float64 b.toNat / float64 div)

/-- `ByteCountIEC`; `none` is a panic. The loop has an iteration for each bit of the number. -/
def ByteCountIEC (b : UInt64) : Option String :=
  if b < 1024 then some s!"{b}B"
  else
    let s := scaling.run 64 (.start b)
    (unitLetter s.exp).map fun letter => s!"{formatTenths (quotient b s.div)}{letter}iB"

/-- After `k` iterations the divisor is the next power and still not above the number. -/
structure Scaling.At (b : UInt64) (k : Nat) (s : Scaling) : Prop where
  n : s.n.toNat = b.toNat / 1024 ^ (k + 1)
  div : s.div = 1024 ^ (k + 1)
  exp : s.exp = k
  least : 1024 ^ (k + 1) ≤ b.toNat

/-- The unit is one that has a letter, the divisor is its size, and the number has at least one
and less than 1024 of them. -/
structure Scaling.Fits (b : UInt64) (s : Scaling) : Prop where
  exp : 0 ≤ s.exp ∧ s.exp ≤ 5
  div : s.div = 1024 ^ (s.exp.toNat + 1)
  noOverflow : s.div < 2 ^ 63
  least : s.div ≤ b.toNat
  most : (b.toNat : Int) < 1024 * s.div

variable {b : UInt64} {k : Nat} {s next : Scaling}

/-- There is no seventh power below the largest number. -/
theorem lt_six (least : 1024 ^ (k + 1) ≤ b.toNat) : k < 6 := by
  by_contra late
  have power : 1024 ^ (6 + 1) ≤ 1024 ^ (k + 1) := Nat.pow_le_pow_right (by decide) (by omega)
  have small := b.toNat_lt
  omega

/-- The sixth power is far inside the `int64` range. -/
theorem power_le (few : k < 6) : (1024 : Int) ^ (k + 1) ≤ 2 ^ 60 := by
  have power : (1024 : Int) ^ (k + 1) ≤ 1024 ^ (5 + 1) :=
    pow_le_pow_right₀ (by decide) (by omega)
  exact power.trans (by decide)

theorem Scaling.At.start (large : 1024 ≤ b) : Scaling.At b 0 (.start b) where
  n := UInt64.toNat_div b 1024
  div := rfl
  exp := rfl
  least := UInt64.le_iff_toNat_le.mp large

/-- An iteration takes the next power, which is not above the number either. -/
theorem Scaling.At.step (here : Scaling.At b k s) (transition : scaling.step s = some next) :
    Scaling.At b (k + 1) next := by
  unfold scaling at transition
  dsimp only at transition
  split at transition
  · rename_i more
    have large : 1024 ≤ b.toNat / 1024 ^ (k + 1) := by
      rw [← here.n]
      exact UInt64.le_iff_toNat_le.mp more
    have positive : 0 < 1024 ^ (k + 1) := Nat.pow_pos (by decide)
    have least : 1024 ^ (k + 1 + 1) ≤ b.toNat := by
      rw [Nat.pow_succ, Nat.mul_comm]
      exact (Nat.le_div_iff_mul_le positive).mp large
    have few := lt_six least
    cases transition
    refine ⟨?_, ?_, ?_, least⟩ <;> dsimp only
    · rw [UInt64.toNat_div, here.n, Nat.div_div_eq_div_mul]
      rfl
    · have power := power_le few
      have above : (0 : Int) < 1024 ^ (k + 1 + 1) := pow_pos (by decide) _
      rw [here.div, ← pow_succ]
      exact wrap_of_fits (by omega) (by omega)
    · rw [here.exp]
      exact wrap_of_fits (by omega) (by omega)
  · cases transition

/-- Every state of the loop. -/
theorem Scaling.At.of_reaches (large : 1024 ≤ b) (reaches : scaling.Reaches (.start b) k s) :
    Scaling.At b k s := by
  induction reaches with
  | refl => exact .start large
  | next _ transition inductionHypothesis => exact inductionHypothesis.step transition

theorem scaling_ended_iff : scaling.Ended s ↔ s.n.toNat < 1024 := by
  rw [Loop.Ended, scaling, ite_eq_right_iff, ← not_le]
  constructor
  · intro ended more
    cases ended (UInt64.le_iff_toNat_le.mpr more)
  · intro less more
    exact absurd (UInt64.le_iff_toNat_le.mp more) less

/-- At the end less than 1024 units are left. -/
theorem Scaling.At.fits (here : Scaling.At b k s) (ended : scaling.Ended s) : s.Fits b := by
  have few := lt_six here.least
  have power := power_le few
  have index : s.exp.toNat = k := by
    rw [here.exp]
    exact Int.toNat_natCast k
  have divisor : s.div = (1024 ^ (k + 1) : Nat) := by
    rw [here.div]
    push_cast
    rfl
  have left : b.toNat < 1024 * 1024 ^ (k + 1) := by
    have less := scaling_ended_iff.mp ended
    rw [here.n] at less
    exact (Nat.div_lt_iff_lt_mul (Nat.pow_pos (by decide))).mp less
  have least := here.least
  have exp := here.exp
  refine ⟨⟨by omega, by omega⟩, by rw [index, here.div], by rw [here.div]; omega, ?_, ?_⟩
  · rw [divisor]
    exact_mod_cast least
  · rw [divisor]
    exact_mod_cast left

/-- Six iterations are enough. -/
theorem scaling_ended (large : 1024 ≤ b) : ∃ k, k ≤ 5 ∧
    scaling.Reaches (.start b) k (scaling.run 64 (.start b)) ∧
      scaling.Ended (scaling.run 64 (.start b)) := by
  obtain ⟨k, -, reaches, ended⟩ := Loop.reaches_run scaling (.start b) 64
  have few := lt_six (Scaling.At.of_reaches large reaches).least
  exact ⟨k, by omega, reaches, ended (by omega)⟩

theorem unitLetter_isSome {exp : Int} (least : 0 ≤ exp) (most : exp ≤ 5) :
    (unitLetter exp).isSome := by
  have length : "KMGTPE".toList.length = 6 := by decide
  rw [unitLetter, if_pos least, List.getElem?_eq_getElem (by omega), Option.isSome_some]

/-- The divisor is a power of two, so that dividing by it rounds nothing. -/
theorem Scaling.Fits.quotient_eq (fits : s.Fits b) (large : 1024 ≤ b) :
    quotient b s.div = float64 b.toNat / s.div := by
  have positive : (0 : ℚ) < b.toNat := by
    exact_mod_cast lt_of_lt_of_le (by decide) (UInt64.le_iff_toNat_le.mp large)
  have power : (s.div : ℚ) = 2 ^ (10 * (s.exp.toNat + 1)) := by
    rw [fits.div, pow_mul]
    norm_num
  rw [quotient, power, float64_two_pow, float64_div positive]

/-- The number that is divided has at least one of the unit and at most 1024. -/
theorem Scaling.Fits.float64_mem (fits : s.Fits b) :
    (s.div : ℚ) ≤ float64 b.toNat ∧ float64 b.toNat ≤ 1024 * s.div := by
  have power : s.div = 2 ^ (10 * (s.exp.toNat + 1)) := by
    rw [fits.div, pow_mul]
    norm_num
  have next : 1024 * s.div = 2 ^ (10 * (s.exp.toNat + 1) + 10) := by
    rw [power, pow_add]
    ring
  have least := fits.least
  have most := fits.most
  rw [power] at least
  rw [next] at most
  have least : (2 : ℚ) ^ (10 * (s.exp.toNat + 1)) ≤ b.toNat := by exact_mod_cast least
  have most : (b.toNat : ℚ) < 2 ^ (10 * (s.exp.toNat + 1) + 10) := by exact_mod_cast most
  have upper := float64_le_two_pow (lt_of_lt_of_le (by positivity) least) most
  constructor
  · rw [power]
    exact_mod_cast two_pow_le_float64 least
  · calc float64 b.toNat ≤ 2 ^ (10 * (s.exp.toNat + 1) + 10) := upper
      _ = 1024 * s.div := by exact_mod_cast next.symm

/-- What is printed is at least 1.0 and at most 1024.0, and 1024.0 from the number on that is as
near to it as to 1023.9. -/
theorem Scaling.Fits.printed (fits : s.Fits b) (large : 1024 ≤ b) :
    10 ≤ tenths (quotient b s.div) ∧ tenths (quotient b s.div) ≤ 10240 ∧
      (tenths (quotient b s.div) = 10240 ↔ (1024 - 1 / 20) * s.div ≤ float64 b.toNat) := by
  obtain ⟨least, most⟩ := fits.float64_mem
  have positive : (0 : ℚ) < s.div := by
    rw [fits.div]
    positivity
  rw [← one_le_div positive] at least
  rw [← div_le_iff₀ positive] at most
  rw [← le_div_iff₀ positive, ← fits.quotient_eq large]
  rw [← fits.quotient_eq large] at least most
  generalize quotient b s.div = q at least most
  have lower : (10 : ℤ) ≤ roundEven (q * 10) := le_roundEven (by push_cast; linarith)
  have upper : roundEven (q * 10) ≤ (10240 : ℤ) := roundEven_le (by push_cast; linarith)
  have full : (10239 : ℤ) < roundEven (q * 10) ↔ 1024 - 1 / 20 ≤ q := by
    rw [lt_roundEven_iff]
    constructor
    · rintro (past | ⟨half, -⟩) <;> push_cast at * <;> linarith
    · intro near
      rcases near.lt_or_eq with past | half
      · exact .inl (by push_cast; linarith)
      · exact .inr ⟨by push_cast; linarith, by decide⟩
  unfold tenths
  exact ⟨by omega, by omega, by rw [← full]; omega⟩

/-- From 1024 bytes on the loop ends, with the unit of which the number has at least one and less
than 1024; no product before it has left the `int64`, the letter of the unit is there, and what is
printed is at least 1.0 and at most 1024.0 of the unit. -/
theorem byteCountIEC_inRange (b : UInt64) (large : 1024 ≤ b) :
    (∀ k s, scaling.Reaches (.start b) k s → k ≤ 5 ∧ s.exp = k ∧ s.div = 1024 ^ (k + 1) ∧
      s.div < 2 ^ 63 ∧ s.div ≤ b.toNat) ∧
    ∃ k s, scaling.Reaches (.start b) k s ∧ scaling.Ended s ∧ s.Fits b ∧
      (∃ letter, unitLetter s.exp = some letter ∧
        ByteCountIEC b = some s!"{formatTenths (quotient b s.div)}{letter}iB") ∧
      10 ≤ tenths (quotient b s.div) ∧ tenths (quotient b s.div) ≤ 10240 ∧
      (tenths (quotient b s.div) = 10240 ↔ (1024 - 1 / 20) * s.div ≤ float64 b.toNat) := by
  constructor
  · intro k s reaches
    have here := Scaling.At.of_reaches large reaches
    have few := lt_six here.least
    have power := power_le few
    refine ⟨by omega, here.exp, here.div, by rw [here.div]; omega, ?_⟩
    rw [here.div]
    exact_mod_cast here.least
  · obtain ⟨k, -, reaches, ended⟩ := scaling_ended large
    have fits := (Scaling.At.of_reaches large reaches).fits ended
    obtain ⟨letter, named⟩ := Option.isSome_iff_exists.mp
      (unitLetter_isSome fits.exp.1 fits.exp.2)
    refine ⟨k, _, reaches, ended, fits, ⟨letter, named, ?_⟩, fits.printed large⟩
    rw [ByteCountIEC, if_neg (UInt64.not_lt.mpr large)]
    dsimp only
    rw [named, Option.map_some]

/-- The largest number: sixteen of the largest unit, of which it has one byte less. -/
theorem byteCountIEC_inRange_largest :
    (1024 : UInt64) ≤ 18446744073709551615 ∧
    ∃ k s, scaling.Reaches (.start 18446744073709551615) k s ∧ scaling.Ended s ∧
      s.Fits 18446744073709551615 ∧ tenths (quotient 18446744073709551615 s.div) ≤ 10240 :=
  have large : (1024 : UInt64) ≤ 18446744073709551615 := by decide
  have ⟨k, s, reaches, ended, fits, _, _, most, _⟩ :=
    (byteCountIEC_inRange 18446744073709551615 large).2
  ⟨large, k, s, reaches, ended, fits, most⟩

/-- One byte less than a mebibyte is printed as 1024 of the unit below. -/
theorem byteCountIEC_full : (1024 : UInt64) ≤ 1048575 ∧
    ByteCountIEC 1048575 = some "1024.0KiB" ∧
    ¬ (tenths (quotient 1048575 (scaling.run 64 (.start 1048575)).div) : ℚ) / 10 < 1024 := by
  decide +kernel

example : ByteCountIEC 18446744073709551615 = some "16.0EiB" := by decide +kernel

end WebChunk.Server
