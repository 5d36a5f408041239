import WebChunk.Go.Bytes

/-!
# Text decoding in the browser

`TextDecoder` for UTF-8, byte by byte: what is no UTF-8 becomes replacement characters, and a byte
order mark at the start is left out.
-/

namespace WebChunk.Web

/-- The variables of the UTF-8 decoder. -/
structure Utf8 where
  codePoint : Nat := 0
  bytesSeen : Nat := 0
  bytesNeeded : Nat := 0
  lowerBoundary : Nat := 0x80
  upperBoundary : Nat := 0xBF
  deriving DecidableEq

def replacement : Char := Char.ofNat 0xFFFD

def byteOrderMark : Char := Char.ofNat 0xFEFF

namespace Utf8

/-- The first byte of a character. -/
def lead (byte : Nat) : Utf8 × List Char :=
  if byte ≤ 0x7F then ({}, [Char.ofNat byte])
  else if 0xC2 ≤ byte ∧ byte ≤ 0xDF then ({ codePoint := byte % 32, bytesNeeded := 1 }, [])
  else if 0xE0 ≤ byte ∧ byte ≤ 0xEF then
    ({ codePoint := byte % 16, bytesNeeded := 2,
       lowerBoundary := if byte = 0xE0 then 0xA0 else 0x80,
       upperBoundary := if byte = 0xED then 0x9F else 0xBF }, [])
  else if 0xF0 ≤ byte ∧ byte ≤ 0xF4 then
    ({ codePoint := byte % 8, bytesNeeded := 3,
       lowerBoundary := if byte = 0xF0 then 0x90 else 0x80,
       upperBoundary := if byte = 0xF4 then 0x8F else 0xBF }, [])
  else ({}, [replacement])

/-- One byte. A byte that does not continue a character is read again as the first of one. -/
def feed (d : Utf8) (byte : Nat) : Utf8 × List Char :=
  if d.bytesNeeded = 0 then lead byte
  else if byte < d.lowerBoundary ∨ d.upperBoundary < byte then
    ((lead byte).1, replacement :: (lead byte).2)
  else if d.bytesSeen + 1 = d.bytesNeeded then
    ({}, [Char.ofNat (d.codePoint * 64 + byte % 64)])
  else
    ({ codePoint := d.codePoint * 64 + byte % 64, bytesSeen := d.bytesSeen + 1,
       bytesNeeded := d.bytesNeeded }, [])

/-- The bytes up to the end of the queue. -/
def run : Utf8 → List UInt8 → List Char
  | d, [] => if d.bytesNeeded = 0 then [] else [replacement]
  | d, byte :: rest => (d.feed byte.toNat).2 ++ run (d.feed byte.toNat).1 rest

end Utf8

/-- `utf8decoder.decode`. -/
def decode (bytes : List UInt8) : List Char :=
  match Utf8.run {} bytes with
  | [] => []
  | c :: text => if c = byteOrderMark then text else c :: text

/-- The bytes of a text in UTF-8. -/
def utf8 (text : List Char) : List UInt8 := text.flatMap String.utf8EncodeChar

namespace Utf8

theorem run_cons {d d' : Utf8} {b : Nat} {chars : List Char} (small : b < 256)
    (step : d.feed b = (d', chars)) (rest : List UInt8) :
    run d (UInt8.ofNat b :: rest) = chars ++ run d' rest := by
  have same : (UInt8.ofNat b).toNat = b := by
    rw [UInt8.toNat_ofNat']
    exact Nat.mod_eq_of_lt small
  rw [run, same, step]

/-- A byte that ends a character. -/
theorem feed_last {cp n lower upper b : Nat} (within : lower ≤ b ∧ b ≤ upper) :
    feed ⟨cp, n, n + 1, lower, upper⟩ b = ({}, [Char.ofNat (cp * 64 + b % 64)]) := by
  have inside : ¬ (b < lower ∨ upper < b) := by omega
  simp [feed, inside]

/-- A byte after which the character goes on. -/
theorem feed_middle {cp n needed lower upper b : Nat} (more : n + 1 < needed)
    (within : lower ≤ b ∧ b ≤ upper) :
    feed ⟨cp, n, needed, lower, upper⟩ b = (⟨cp * 64 + b % 64, n + 1, needed, 0x80, 0xBF⟩, []) := by
  have inside : ¬ (b < lower ∨ upper < b) := by omega
  have goesOn : n + 1 ≠ needed := by omega
  have some_ : needed ≠ 0 := by omega
  simp [feed, inside, goesOn, some_]

theorem run_one {v : Nat} (upper : v ≤ 0x7F) (rest : List UInt8) :
    run {} (UInt8.ofNat v :: rest) = Char.ofNat v :: run {} rest := by
  have first : feed {} v = ({}, [Char.ofNat v]) := by rw [feed, if_pos rfl, lead, if_pos upper]
  rw [run_cons (by omega) first]
  rfl

theorem run_two {v : Nat} (lower : 0x80 ≤ v) (upper : v ≤ 0x7FF) (rest : List UInt8) :
    run {} (UInt8.ofNat (v / 64 % 0x20 + 0xC0) :: UInt8.ofNat (v % 0x40 + 0x80) :: rest) =
      Char.ofNat v :: run {} rest := by
  have first : feed {} (v / 64 % 0x20 + 0xC0) = (⟨v / 64, 0, 1, 0x80, 0xBF⟩, []) := by
    have top : (v / 64 % 0x20 + 0xC0) % 32 = v / 64 := by omega
    rw [feed, if_pos rfl, lead, if_neg (by omega), if_pos (by omega), top]
  have second : feed ⟨v / 64, 0, 1, 0x80, 0xBF⟩ (v % 0x40 + 0x80) = ({}, [Char.ofNat v]) := by
    have number : v / 64 * 64 + (v % 0x40 + 0x80) % 64 = v := by omega
    rw [feed_last (by omega), number]
  rw [run_cons (by omega) first, run_cons (by omega) second]
  rfl

/-- The bounds of the second byte keep out the shorter forms and the surrogates. -/
theorem run_three {v : Nat} (lower : 0x800 ≤ v) (upper : v ≤ 0xFFFF)
    (valid : v < 0xD800 ∨ 0xDFFF < v) (rest : List UInt8) :
    run {} (UInt8.ofNat (v / 4096 % 0x10 + 0xE0) :: UInt8.ofNat (v / 64 % 0x40 + 0x80) ::
      UInt8.ofNat (v % 0x40 + 0x80) :: rest) = Char.ofNat v :: run {} rest := by
  have first : feed {} (v / 4096 % 0x10 + 0xE0) =
      (⟨v / 4096, 0, 2, if v / 4096 % 0x10 + 0xE0 = 0xE0 then 0xA0 else 0x80,
        if v / 4096 % 0x10 + 0xE0 = 0xED then 0x9F else 0xBF⟩, []) := by
    have top : (v / 4096 % 0x10 + 0xE0) % 16 = v / 4096 := by omega
    rw [feed, if_pos rfl, lead, if_neg (by omega), if_neg (by omega), if_pos (by omega), top]
  have second : feed ⟨v / 4096, 0, 2, if v / 4096 % 0x10 + 0xE0 = 0xE0 then 0xA0 else 0x80,
        if v / 4096 % 0x10 + 0xE0 = 0xED then 0x9F else 0xBF⟩ (v / 64 % 0x40 + 0x80) =
      (⟨v / 64, 1, 2, 0x80, 0xBF⟩, []) := by
    have number : v / 4096 * 64 + (v / 64 % 0x40 + 0x80) % 64 = v / 64 := by omega
    rw [feed_middle (by omega) (by split <;> split <;> omega), number]
  have third : feed ⟨v / 64, 1, 2, 0x80, 0xBF⟩ (v % 0x40 + 0x80) = ({}, [Char.ofNat v]) := by
    have number : v / 64 * 64 + (v % 0x40 + 0x80) % 64 = v := by omega
    rw [feed_last (by omega), number]
  rw [run_cons (by omega) first, run_cons (by omega) second, run_cons (by omega) third]
  rfl

/-- Here they keep out the shorter forms and what lies above the last character. -/
theorem run_four {v : Nat} (lower : 0x10000 ≤ v) (upper : v < 0x110000) (rest : List UInt8) :
    run {} (UInt8.ofNat (v / 262144 % 0x08 + 0xF0) :: UInt8.ofNat (v / 4096 % 0x40 + 0x80) ::
      UInt8.ofNat (v / 64 % 0x40 + 0x80) :: UInt8.ofNat (v % 0x40 + 0x80) :: rest) =
      Char.ofNat v :: run {} rest := by
  have first : feed {} (v / 262144 % 0x08 + 0xF0) =
      (⟨v / 262144, 0, 3, if v / 262144 % 0x08 + 0xF0 = 0xF0 then 0x90 else 0x80,
        if v / 262144 % 0x08 + 0xF0 = 0xF4 then 0x8F else 0xBF⟩, []) := by
    have top : (v / 262144 % 0x08 + 0xF0) % 8 = v / 262144 := by omega
    rw [feed, if_pos rfl, lead, if_neg (by omega), if_neg (by omega), if_neg (by omega),
      if_pos (by omega), top]
  have second : feed ⟨v / 262144, 0, 3,
        if v / 262144 % 0x08 + 0xF0 = 0xF0 then 0x90 else 0x80,
        if v / 262144 % 0x08 + 0xF0 = 0xF4 then 0x8F else 0xBF⟩ (v / 4096 % 0x40 + 0x80) =
      (⟨v / 4096, 1, 3, 0x80, 0xBF⟩, []) := by
    have number : v / 262144 * 64 + (v / 4096 % 0x40 + 0x80) % 64 = v / 4096 := by omega
    rw [feed_middle (by omega) (by split <;> split <;> omega), number]
  have third : feed ⟨v / 4096, 1, 3, 0x80, 0xBF⟩ (v / 64 % 0x40 + 0x80) =
      (⟨v / 64, 2, 3, 0x80, 0xBF⟩, []) := by
    have number : v / 4096 * 64 + (v / 64 % 0x40 + 0x80) % 64 = v / 64 := by omega
    rw [feed_middle (by omega) (by omega), number]
  have fourth : feed ⟨v / 64, 2, 3, 0x80, 0xBF⟩ (v % 0x40 + 0x80) = ({}, [Char.ofNat v]) := by
    have number : v / 64 * 64 + (v % 0x40 + 0x80) % 64 = v := by omega
    rw [feed_last (by omega), number]
  rw [run_cons (by omega) first, run_cons (by omega) second, run_cons (by omega) third,
    run_cons (by omega) fourth]
  rfl

/-- A character is read from its bytes, whatever follows. -/
theorem run_utf8EncodeChar (c : Char) (rest : List UInt8) :
    run {} (String.utf8EncodeChar c ++ rest) = c :: run {} rest := by
  have valid : c.val.toNat < 0xD800 ∨ 0xDFFF < c.val.toNat ∧ c.val.toNat < 0x110000 := c.valid
  have same : Char.ofNat c.val.toNat = c := Char.ofNat_toNat c
  unfold String.utf8EncodeChar
  dsimp only
  split
  · rename_i one
    have read := run_one one rest
    rwa [same] at read
  · split
    · rename_i above two
      have read := run_two (by omega) two rest
      rwa [same] at read
    · split
      · rename_i above three
        have read := run_three (by omega) three (by omega) rest
        rwa [same] at read
      · rename_i above
        have read := run_four (v := c.val.toNat) (by omega) (by omega) rest
        rwa [same] at read

theorem run_utf8 (text : List Char) : run {} (utf8 text) = text := by
  induction text with
  | nil => rfl
  | cons c text inductionHypothesis =>
      rw [utf8, List.flatMap_cons, run_utf8EncodeChar, ← utf8, inductionHypothesis]

end Utf8

/-- A text without a byte order mark is what its bytes are decoded to. -/
theorem decode_utf8 {text : List Char} (unmarked : text.head? ≠ some byteOrderMark) :
    decode (utf8 text) = text := by
  rw [decode, Utf8.run_utf8]
  cases text with
  | nil => rfl
  | cons c text => exact if_neg fun mark => unmarked (congrArg some mark)

/-- With a byte order mark the decoder loses it. -/
theorem decode_utf8_marked (text : List Char) :
    decode (utf8 (byteOrderMark :: text)) = text := by
  rw [decode, Utf8.run_utf8]
  exact if_pos rfl

end WebChunk.Web
