import Mathlib.Algebra.Ring.Int.Defs
import Mathlib.Algebra.Ring.Nat
import Mathlib.Tactic.Common

/-!
# Numbers in strings

`strconv.ParseInt` in base ten.
-/

namespace WebChunk.Go

/-- `NumError`; `Err` is the text of its cause. -/
structure NumError where
  Func : String
  Num : String
  Err : String
  deriving DecidableEq

/-- `Quote`, of a string that needs no escapes. -/
def quote (s : String) : String := "\"" ++ s ++ "\""

def NumError.Error (e : NumError) : String :=
  "strconv." ++ e.Func ++ ": parsing " ++ quote e.Num ++ ": " ++ e.Err

def errSyntax : String := "invalid syntax"

def errRange : String := "value out of range"

/-- The loop of `ParseUint`: it stops at the first character that is no digit or that makes
the number too large. -/
def parseDigits (maxVal : Nat) : Nat → List Char → Except String Nat
  | n, [] => .ok n
  | n, c :: rest =>
      if ¬ c.isDigit then .error errSyntax
      else if n * 10 + (c.toNat - '0'.toNat) > maxVal then .error errRange
      else parseDigits maxVal (n * 10 + (c.toNat - '0'.toNat)) rest

/-- `ParseUint(s, 10, bitSize)`, up to the text of the cause of its error. -/
def parseUint (s : List Char) (bitSize : Nat) : Except String Nat :=
  if s = [] then .error errSyntax else parseDigits (2 ^ bitSize - 1) 0 s

/-- `ParseInt(s, 10, bitSize)`. -/
def ParseInt (s : String) (bitSize : Nat) : Except NumError Int :=
  let (neg, digits) := match s.toList with
    | '+' :: digits => (false, digits)
    | '-' :: digits => (true, digits)
    | digits => (false, digits)
  match parseUint digits bitSize with
  | .error err => .error ⟨"ParseInt", s, err⟩
  | .ok un =>
      let cutoff := 2 ^ (bitSize - 1)
      if neg = false ∧ un ≥ cutoff ∨ neg = true ∧ un > cutoff then .error ⟨"ParseInt", s, errRange⟩
      else .ok (if neg then -un else un)

/-- A number that is read fits into the bits that were asked for. -/
theorem parseInt_bounds {s : String} {bitSize : Nat} {n : Int}
    (read : ParseInt s bitSize = .ok n) : -2 ^ (bitSize - 1) ≤ n ∧ n < 2 ^ (bitSize - 1) := by
  unfold ParseInt at read
  split at read
  rename_i neg digits _
  split at read
  · cases read
  · rename_i un _
    dsimp only at read
    split at read
    · cases read
    · rename_i small
      cases read
      have cast : (2 : Int) ^ (bitSize - 1) = (2 ^ (bitSize - 1) : Nat) := by push_cast; rfl
      have positive := Nat.two_pow_pos (bitSize - 1)
      rw [cast]
      cases neg <;> simp at small ⊢ <;> omega

example : ParseInt "-12" 32 = .ok (-12) := by rfl
example : (ParseInt "2147483648" 32).toOption = none := by decide

end WebChunk.Go
