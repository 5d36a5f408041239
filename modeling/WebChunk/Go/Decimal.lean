import WebChunk.Go.CleanPath
import WebChunk.Go.Numerals

/-!
# Numbers in file names

A number that is written in base ten has digits and at most a minus, so it is a plain name, and
two numbers with a separator between them can be read again.
-/

namespace WebChunk.Go

variable {n : Int} {char : Char}

theorem notMem_decimal (notMinus : char ≠ '-') (notDigit : char.isDigit = false) :
    char ∉ (toString n).toList :=
  (numeral_toString n).1.notMem notMinus notDigit

/-- A number is a name of its own. -/
theorem decimal_plain : Path.Plain (toString n).toList where
  nonempty := (numeral_toString n).1.nonempty
  notDot := fun dot => notMem_decimal (n := n) (by decide) (by decide) (dot ▸ List.mem_cons_self)
  notUp := fun up => notMem_decimal (n := n) (by decide) (by decide) (up ▸ List.mem_cons_self)
  noSlash := notMem_decimal (by decide) (by decide)

theorem decimal_inj {x z : Int} (same : (toString x).toList = (toString z).toList) : x = z := by
  rw [← (numeral_toString x).2, ← (numeral_toString z).2, same]

/-- Two numbers are read from what stands on both sides of the separator. -/
theorem decimal_pair_inj {x z x' z' : Int} (notMinus : char ≠ '-')
    (notDigit : char.isDigit = false)
    (same : (toString x).toList ++ char :: (toString z).toList =
      (toString x').toList ++ char :: (toString z').toList) : x = x' ∧ z = z' := by
  obtain ⟨first, -, second⟩ := (List.append_cons_inj_of_notMem
    (notMem_decimal notMinus notDigit) (notMem_decimal notMinus notDigit)).mp same
  exact ⟨decimal_inj first, decimal_inj second⟩

end WebChunk.Go
