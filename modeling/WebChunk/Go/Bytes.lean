import Mathlib.Algebra.Ring.Nat
import Mathlib.Data.List.Induction
import Mathlib.Tactic.Common

/-!
# Byte slices and big-endian numbers

A slice has bytes up to its length, and behind them the spare bytes up to its capacity:
`s[a:b]` may reach into these, `s[i]` and `s[a:]` may not. What is out of range is `none`.
-/

namespace WebChunk.Go

/-- `[]byte`. -/
structure Slice where
  bytes : List UInt8
  spare : List UInt8 := []

namespace Slice

/-- `len`. -/
def len (s : Slice) : Nat := s.bytes.length

/-- `cap`. -/
def cap (s : Slice) : Nat := s.bytes.length + s.spare.length

/-- `s[i]`. -/
def index (s : Slice) (i : Nat) : Option UInt8 := s.bytes[i]?

/-- `s[a:b]`, as far as its length. -/
def slice (s : Slice) (a b : Nat) : Option (List UInt8) :=
  if a ≤ b ∧ b ≤ s.cap then some (((s.bytes ++ s.spare).drop a).take (b - a)) else none

/-- `s[a:]`. -/
def sliceFrom (s : Slice) (a : Nat) : Option (List UInt8) :=
  if a ≤ s.len then some (s.bytes.drop a) else none

end Slice

/-- `[]byte(text)` of an ASCII text. -/
def asciiBytes (text : String) : List UInt8 := text.toList.map fun c => .ofNat c.toNat

/-! ### `binary.BigEndian` -/

/-- The number that bytes are the base-256 digits of. -/
def bigEndian (bytes : List UInt8) : Nat := bytes.foldl (fun n b => n * 256 + b.toNat) 0

/-- `Uint16`, `Uint32` and `Uint64`, by their number of bytes. -/
def bigEndianUint (width : Nat) (bytes : List UInt8) : Option Nat :=
  if width ≤ bytes.length then some (bigEndian (bytes.take width)) else none

/-- `AppendUint16`, `AppendUint32` and `AppendUint64` to nothing. -/
def bigEndianBytes : Nat → Nat → List UInt8
  | 0, _ => []
  | width + 1, n => bigEndianBytes width (n / 256) ++ [UInt8.ofNat n]

@[simp] theorem length_bigEndianBytes (width n : Nat) :
    (bigEndianBytes width n).length = width := by
  induction width generalizing n with
  | zero => rfl
  | succ width inductionHypothesis => simp [bigEndianBytes, inductionHypothesis]

@[simp] theorem bigEndian_nil : bigEndian [] = 0 := rfl

theorem bigEndian_concat (bytes : List UInt8) (b : UInt8) :
    bigEndian (bytes ++ [b]) = bigEndian bytes * 256 + b.toNat := by
  simp [bigEndian]

/-- Writing a number keeps its last digits. -/
theorem bigEndian_bigEndianBytes (width n : Nat) :
    bigEndian (bigEndianBytes width n) = n % 256 ^ width := by
  induction width generalizing n with
  | zero => simp [bigEndianBytes, Nat.mod_one]
  | succ width inductionHypothesis =>
      have digits : n % 256 ^ (width + 1) = n % 256 + 256 * (n / 256 % 256 ^ width) := by
        rw [Nat.pow_succ, Nat.mul_comm, Nat.mod_mul]
      rw [bigEndianBytes, bigEndian_concat, inductionHypothesis, UInt8.toNat_ofNat', digits]
      omega

theorem bigEndian_lt (bytes : List UInt8) : bigEndian bytes < 256 ^ bytes.length := by
  induction bytes using List.reverseRecOn with
  | nil => decide
  | append_singleton bytes b inductionHypothesis =>
      have digit := b.toNat_lt
      rw [bigEndian_concat, List.length_append, List.length_singleton, Nat.pow_succ]
      omega

/-- Reading bytes and writing the number again. -/
theorem bigEndianBytes_bigEndian (bytes : List UInt8) :
    bigEndianBytes bytes.length (bigEndian bytes) = bytes := by
  induction bytes using List.reverseRecOn with
  | nil => rfl
  | append_singleton bytes b inductionHypothesis =>
      have digit := b.toNat_lt
      rw [List.length_append, List.length_singleton, bigEndianBytes, bigEndian_concat,
        show (bigEndian bytes * 256 + b.toNat) / 256 = bigEndian bytes by omega,
        inductionHypothesis]
      congr 2
      apply UInt8.toNat_inj.mp
      rw [UInt8.toNat_ofNat']
      omega

/-- A number is read from what was written, whatever follows. -/
theorem bigEndianUint_append {width n : Nat} (small : n < 256 ^ width) (rest : List UInt8) :
    bigEndianUint width (bigEndianBytes width n ++ rest) = some n := by
  rw [bigEndianUint, if_pos (by simp), List.take_append_of_le_length (by simp),
    List.take_of_length_le (by simp), bigEndian_bigEndianBytes, Nat.mod_eq_of_lt small]

/-- The bytes that a number was read from. -/
theorem eq_of_bigEndianUint {width n : Nat} {bytes : List UInt8}
    (read : bigEndianUint width bytes = some n) :
    n < 256 ^ width ∧ ∃ rest, bytes = bigEndianBytes width n ++ rest := by
  unfold bigEndianUint at read
  split at read
  · rename_i enough
    cases read
    have length : (bytes.take width).length = width := by simp [enough]
    refine ⟨?_, bytes.drop width, ?_⟩
    · have bound := bigEndian_lt (bytes.take width)
      rwa [length] at bound
    · have written := bigEndianBytes_bigEndian (bytes.take width)
      rw [length] at written
      rw [written, List.take_append_drop]
  · cases read

end WebChunk.Go
