import Mathlib.Algebra.Order.Archimedean.Basic
import Mathlib.Data.Int.Log
import Mathlib.Data.Rat.Floor
import Mathlib.Tactic.FieldSimp
import Mathlib.Tactic.Linarith

/-!
# 64-bit floating point

The values of `float64` as the rationals they are, for positive numbers of the normal range: a
computation leaves the nearest number with 53 significant bits, and of two that are equally near
the one whose last bit is 0. `%.1f` rounds by the same rule to tenths.
-/

namespace WebChunk.Go

/-- The nearest integer; of two the even one. -/
def roundEven (q : ℚ) : ℤ :=
  if Int.fract q < 1 / 2 then ⌊q⌋
  else if 1 / 2 < Int.fract q then ⌊q⌋ + 1
  else if ⌊q⌋ % 2 = 0 then ⌊q⌋ else ⌊q⌋ + 1

/-- The exponent of the last of the 53 bits. -/
def lastBit (q : ℚ) : ℤ := Int.log 2 q - 52

/-- What a computation with the exact result `q` leaves. -/
def float64 (q : ℚ) : ℚ := roundEven (q / 2 ^ lastBit q) * 2 ^ lastBit q

/-- The tenths that `%.1f` prints. -/
def tenths (q : ℚ) : ℕ := (roundEven (q * 10)).toNat

/-- The text of `%.1f`. -/
def formatTenths (q : ℚ) : String := s!"{tenths q / 10}.{tenths q % 10}"

variable {q : ℚ} {n : ℤ}

theorem le_roundEven (less : (n : ℚ) ≤ q) : n ≤ roundEven q := by
  have floor : n ≤ ⌊q⌋ := Int.le_floor.mpr less
  unfold roundEven
  split_ifs <;> omega

/-- Past an odd number and a half, and past an even number and more than a half. -/
theorem lt_roundEven_iff : n < roundEven q ↔
    (n : ℚ) + 1 / 2 < q ∨ (n : ℚ) + 1 / 2 = q ∧ n % 2 = 1 := by
  have parts := Int.floor_add_fract q
  have least := Int.fract_nonneg q
  have most := Int.fract_lt_one q
  -- Between two integers, `n` compares with the lower one as it does with `q`.
  have below : (n : ℚ) + 1 ≤ (⌊q⌋ : ℚ) ↔ n < ⌊q⌋ := by
    rw [← Int.add_one_le_iff]
    exact_mod_cast Iff.rfl
  have above : (⌊q⌋ : ℚ) + 1 ≤ n ↔ ⌊q⌋ < n := by
    rw [← Int.add_one_le_iff]
    exact_mod_cast Iff.rfl
  rcases lt_trichotomy n ⌊q⌋ with less | same | more
  · have far := below.mpr less
    have past : (n : ℚ) + 1 / 2 < q := by linarith
    refine iff_of_true ?_ (.inl past)
    unfold roundEven
    split_ifs <;> omega
  · subst same
    unfold roundEven
    split_ifs with lower upper even
    · refine iff_of_false (lt_irrefl _) ?_
      rintro (past | ⟨half, -⟩) <;> linarith
    · exact iff_of_true (by omega) (.inl (by linarith))
    · refine iff_of_false (lt_irrefl _) ?_
      rintro (past | ⟨-, odd⟩)
      · linarith
      · omega
    · refine iff_of_true (by omega) (.inr ⟨?_, by omega⟩)
      linarith [le_antisymm (not_lt.mp upper) (not_lt.mp lower)]
  · have far := above.mpr more
    refine iff_of_false ?_ ?_
    · unfold roundEven
      split_ifs <;> omega
    · rintro (past | ⟨half, -⟩) <;> linarith

theorem roundEven_le (less : q ≤ n) : roundEven q ≤ n := by
  by_contra more
  rcases lt_roundEven_iff.mp (not_le.mp more) with past | ⟨half, -⟩ <;> linarith

/-- As near to 1023.9 as to 1024.0. -/
example : formatTenths (1023 + 19 / 20) = "1024.0" := by decide +kernel

@[simp] theorem roundEven_intCast (n : ℤ) : roundEven n = n :=
  le_antisymm (roundEven_le le_rfl) (le_roundEven le_rfl)

/-- The number in units of its last bit. -/
theorem scaled_mem (positive : 0 < q) :
    2 ^ 52 ≤ q / 2 ^ lastBit q ∧ q / 2 ^ lastBit q < 2 ^ 53 := by
  have unit : (0 : ℚ) < 2 ^ lastBit q := zpow_pos (by decide) _
  have least : (2 : ℚ) ^ Int.log 2 q ≤ q := Int.zpow_log_le_self (by decide) positive
  have most : q < (2 : ℚ) ^ (Int.log 2 q + 1) := Int.lt_zpow_succ_log_self (by decide) q
  rw [le_div_iff₀ unit, div_lt_iff₀ unit, ← zpow_natCast, ← zpow_natCast,
    ← zpow_add₀ (by decide), ← zpow_add₀ (by decide)]
  unfold lastBit
  constructor
  · rwa [show ((52 : ℕ) : ℤ) + (Int.log 2 q - 52) = Int.log 2 q by push_cast; ring]
  · rwa [show ((53 : ℕ) : ℤ) + (Int.log 2 q - 52) = Int.log 2 q + 1 by push_cast; ring]

/-- A number with 53 significant bits is left as it is. -/
theorem float64_eq_self {m e : ℤ} (least : 2 ^ 52 ≤ m) (most : m < 2 ^ 53) :
    float64 (m * 2 ^ e) = m * 2 ^ e := by
  have unit : (0 : ℚ) < 2 ^ e := zpow_pos (by decide) e
  have positive : (0 : ℚ) < m * 2 ^ e := mul_pos (by exact_mod_cast (by omega : 0 < m)) unit
  have exponent : Int.log 2 ((m : ℚ) * 2 ^ e) = e + 52 := by
    refine le_antisymm ?_ ?_
    · rw [← Int.lt_add_one_iff, ← Int.lt_zpow_iff_log_lt (by decide) positive,
        show e + 52 + 1 = 53 + e by ring, zpow_add₀ (by decide)]
      refine mul_lt_mul_of_pos_right ?_ unit
      exact_mod_cast most
    · rw [← Int.zpow_le_iff_le_log (by decide) positive, add_comm e, zpow_add₀ (by decide)]
      refine mul_le_mul_of_nonneg_right ?_ unit.le
      exact_mod_cast least
  have last : lastBit ((m : ℚ) * 2 ^ e) = e := by
    rw [lastBit, exponent]
    ring
  rw [float64, last, mul_div_cancel_right₀ _ unit.ne', roundEven_intCast]

/-- One bit more: both neighbours of 2 ^ 53 + 1 are as near, and the lower one is even. -/
example : float64 9007199254740993 = 9007199254740992 := by decide +kernel

/-- Rounding leaves a number with 53 significant bits. -/
theorem float64_bits (positive : 0 < q) :
    ∃ m e : ℤ, 2 ^ 52 ≤ m ∧ m < 2 ^ 53 ∧ float64 q = m * 2 ^ e := by
  obtain ⟨least, most⟩ := scaled_mem positive
  have lower : (2 : ℤ) ^ 52 ≤ roundEven (q / 2 ^ lastBit q) :=
    le_roundEven (by exact_mod_cast least)
  have upper : roundEven (q / 2 ^ lastBit q) ≤ 2 ^ 53 :=
    roundEven_le (by exact_mod_cast most.le)
  rcases upper.lt_or_eq with less | same
  · exact ⟨_, _, lower, less, rfl⟩
  · -- The carry leaves one more bit, and a zero at the end of the number.
    refine ⟨2 ^ 52, lastBit q + 1, le_rfl, by decide, ?_⟩
    rw [float64, same, zpow_add₀ (by decide)]
    push_cast
    ring

/-- A quotient by a power of two is rounded as the number is. -/
theorem float64_div (positive : 0 < q) (k : ℕ) :
    float64 (float64 q / 2 ^ k) = float64 q / 2 ^ k := by
  obtain ⟨m, e, least, most, bits⟩ := float64_bits positive
  have shifted : float64 q / 2 ^ k = m * 2 ^ (e - k) := by
    rw [bits, zpow_sub₀ (by decide), zpow_natCast, mul_div_assoc]
  rw [shifted, float64_eq_self least most]

/-- Powers of two have one bit. -/
theorem float64_two_pow (k : ℕ) : float64 (2 ^ k) = 2 ^ k := by
  have bits : (2 : ℚ) ^ k = ((2 ^ 52 : ℤ) : ℚ) * 2 ^ ((k : ℤ) - 52) := by
    rw [zpow_sub₀ (by decide), zpow_natCast]
    push_cast
    field_simp
  rw [bits, float64_eq_self le_rfl (by decide)]

/-- Rounding does not pass a power of two downwards. -/
theorem two_pow_le_float64 {k : ℕ} (least : 2 ^ k ≤ q) : 2 ^ k ≤ float64 q := by
  have positive : 0 < q := lt_of_lt_of_le (by positivity) least
  have unit : (0 : ℚ) < 2 ^ lastBit q := zpow_pos (by decide) _
  have exponent : (k : ℤ) ≤ Int.log 2 q := by
    rw [← Int.zpow_le_iff_le_log (by decide) positive]
    exact_mod_cast least
  have lower : (2 : ℤ) ^ 52 ≤ roundEven (q / 2 ^ lastBit q) :=
    le_roundEven (by exact_mod_cast (scaled_mem positive).1)
  calc (2 : ℚ) ^ k ≤ 2 ^ Int.log 2 q := by
        rw [← zpow_natCast]
        exact zpow_le_zpow_right₀ (by decide) exponent
    _ = 2 ^ 52 * 2 ^ lastBit q := by
        rw [← zpow_natCast, ← zpow_add₀ (by decide), lastBit]
        congr 1
        push_cast
        ring
    _ ≤ float64 q := mul_le_mul_of_nonneg_right (by exact_mod_cast lower) unit.le

/-- Nor upwards. -/
theorem float64_le_two_pow {k : ℕ} (positive : 0 < q) (most : q < 2 ^ k) :
    float64 q ≤ 2 ^ k := by
  have unit : (0 : ℚ) < 2 ^ lastBit q := zpow_pos (by decide) _
  have exponent : Int.log 2 q < k := by
    rw [← Int.lt_zpow_iff_log_lt (by decide) positive]
    exact_mod_cast most
  have upper : roundEven (q / 2 ^ lastBit q) ≤ 2 ^ 53 :=
    roundEven_le (by exact_mod_cast (scaled_mem positive).2.le)
  calc float64 q ≤ 2 ^ 53 * 2 ^ lastBit q :=
        mul_le_mul_of_nonneg_right (by exact_mod_cast upper) unit.le
    _ = 2 ^ (Int.log 2 q + 1) := by
        rw [← zpow_natCast, ← zpow_add₀ (by decide), lastBit]
        congr 1
        push_cast
        ring
    _ ≤ 2 ^ k := by
        rw [← zpow_natCast]
        exact zpow_le_zpow_right₀ (by decide) (by omega)

end WebChunk.Go
