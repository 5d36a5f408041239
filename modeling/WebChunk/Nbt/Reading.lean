import WebChunk.Nbt.Walker

/-!
# What the readers read

A reader either reports that its bytes are not there, or it returns a value whose encoding
stands at the offset that it started from. Behind the value there is a further byte: the
readers ask for one more than they need, except that of a `TagByte`.
-/

namespace WebChunk.Nbt

open WebChunk.Go

variable {data : Slice} {i width : Nat}

/-- The bytes from an offset on that are not the last ones of the slice. -/
theorem lt_of_follows {bytes rest : List UInt8} (follows : data.bytes.drop i = bytes ++ rest)
    (more : rest ≠ []) : i + bytes.length < data.len := by
  have lengths := congrArg List.length follows
  have positive := List.length_pos_iff.mpr more
  rw [List.length_drop, List.length_append] at lengths
  unfold Slice.len
  omega

/-- The bytes behind those at an offset. -/
theorem follows_append {bytes rest : List UInt8} (follows : data.bytes.drop i = bytes ++ rest) :
    data.bytes.drop (i + bytes.length) = rest := by
  rw [← List.drop_drop, follows, List.drop_left]

theorem ne_nil_of_lt {bytes rest : List UInt8} (follows : data.bytes.drop i = bytes ++ rest)
    (inside : i + bytes.length < data.len) : rest ≠ [] := by
  rintro rfl
  have lengths := congrArg List.length follows
  rw [List.length_drop, List.append_nil] at lengths
  unfold Slice.len at inside
  omega

theorem index_inside (data : Slice) (i : Nat) (inside : i < data.len) :
    ∃ t, data.index i = some t :=
  ⟨_, List.getElem?_eq_getElem inside⟩

theorem drop_eq_of_index {t : UInt8} (there : data.index i = some t) :
    data.bytes.drop i = t :: data.bytes.drop (i + 1) := by
  obtain ⟨inside, rfl⟩ := List.getElem?_eq_some_iff.mp there
  exact List.drop_eq_getElem_cons inside

/-! ### Numbers -/

theorem readUint_of_follows {n : Nat} {rest : List UInt8}
    (follows : data.bytes.drop i = bigEndianBytes width n ++ rest) (small : n < 256 ^ width)
    (inside : i ≤ data.len) : readUint data i width = .ok n := by
  rw [readUint, Slice.sliceFrom, if_pos inside, Option.bind_some, follows,
    bigEndianUint_append small]

theorem readUint_inside (data : Slice) (i width : Nat) (inside : i + width ≤ data.len) :
    ∃ n rest, readUint data i width = .ok n ∧ n < 256 ^ width ∧
      data.bytes.drop i = bigEndianBytes width n ++ rest := by
  have enough : width ≤ (data.bytes.drop i).length := by
    rw [List.length_drop]
    unfold Slice.len at inside
    omega
  have read : bigEndianUint width (data.bytes.drop i) =
      some (bigEndian ((data.bytes.drop i).take width)) := if_pos enough
  obtain ⟨small, rest, follows⟩ := eq_of_bigEndianUint read
  exact ⟨_, rest, readUint_of_follows follows small (by omega), small, follows⟩

/-! ### Slices -/

/-- Slicing inside the length leaves the spare bytes alone. -/
theorem slice_inside {a b : Nat} (ordered : a ≤ b) (inside : b ≤ data.len) :
    data.slice a b = some ((data.bytes.drop a).take (b - a)) := by
  unfold Slice.len at inside
  rw [Slice.slice, if_pos ⟨ordered, by unfold Slice.cap; omega⟩,
    List.drop_append_of_le_length (by omega), List.take_append_of_le_length]
  rw [List.length_drop]
  omega

theorem slice_of_follows {val rest : List UInt8} (follows : data.bytes.drop i = val ++ rest)
    (inside : i + val.length ≤ data.len) : data.slice i (i + val.length) = some val := by
  rw [slice_inside (by omega) inside, follows, Nat.add_sub_cancel_left, List.take_left]

/-- The bytes of a slice, and those behind them. -/
theorem slice_split (data : Slice) (i length : Nat) (inside : i + length ≤ data.len) :
    ∃ val rest, data.slice i (i + length) = some val ∧ val.length = length ∧
      data.bytes.drop i = val ++ rest := by
  refine ⟨_, (data.bytes.drop i).drop length, slice_inside (by omega) inside, ?_, ?_⟩
  · unfold Slice.len at inside
    rw [List.length_take, List.length_drop]
    omega
  · rw [Nat.add_sub_cancel_left, List.take_append_drop]

/-! ### What comes out -/

/-- The outcome of reading the payload of a tag at an offset. -/
inductive Reading (data : Slice) (t : UInt8) (i : Nat) : Except Stop (Value × Nat) → Prop where
  | absent (err : WalkError) : Reading data t i (.error (.returned (some err)))
  | found {value : Value} {rest : List UInt8} (tag : value.tag = t)
      (follows : data.bytes.drop i = value.encode ++ rest) (behind : rest = [] → t = TagByte) :
      Reading data t i (.ok (value, i + value.encode.length))

variable {t : UInt8}

theorem Reading.ite {c : Prop} [Decidable c] {left right : Except Stop (Value × Nat)}
    (yes : c → Reading data t i left) (no : Reading data t i right) :
    Reading data t i (if c then left else right) := by
  split
  · rename_i holds
    exact yes holds
  · exact no

theorem readByte_reading : Reading data TagByte i (readByte data i) := by
  unfold readByte
  split
  · exact .absent _
  · rename_i inside
    obtain ⟨val, there⟩ := index_inside data i (Nat.lt_of_not_le inside)
    rw [there]
    change Reading data TagByte i
      (.ok (.leaf (.byte val), i + (Value.leaf (.byte val)).encode.length))
    exact .found rfl (drop_eq_of_index there) fun _ => rfl

theorem readNumber_reading {make : Nat → Leaf} (tag : ∀ n, (make n).tag = t)
    (encode : ∀ n, n < 256 ^ width → (make n).encode = bigEndianBytes width n) :
    Reading data t i (readNumber data i width make) := by
  unfold readNumber
  split
  · exact .absent _
  · rename_i inside
    obtain ⟨n, rest, read, small, follows⟩ := readUint_inside data i width (by omega)
    have length : (make n).encode.length = width := by
      rw [encode n small, length_bigEndianBytes]
    have more := ne_nil_of_lt follows (by rw [length_bigEndianBytes]; omega)
    rw [read]
    have found : Reading data t i (.ok (.leaf (make n), i + (Value.leaf (make n)).encode.length)) :=
      .found (tag n) (follows.trans (by rw [Value.encode, encode n small]))
        fun none => absurd none more
    rwa [Value.encode, length] at found

theorem readBytes_reading {sizeAbsent tooBig : String} {make : List UInt8 → Leaf}
    (tag : ∀ val, (make val).tag = t) (encode : ∀ val, (make val).encode = encodeBytes width val) :
    Reading data t i (readBytes data i width sizeAbsent tooBig make) := by
  unfold readBytes
  split
  · exact .absent _
  · rename_i inside
    obtain ⟨s, behind, read, -, follows⟩ := readUint_inside data i width (by omega)
    rw [read]
    change Reading data t i (if i + width + s ≥ data.len then _ else _)
    split
    · exact .absent _
    · rename_i fits
      obtain ⟨val, rest, sliced, rfl, after⟩ := slice_split data (i + width) s (by omega)
      rw [sliced]
      have more := ne_nil_of_lt after (by omega)
      have skipped := follows_append follows
      rw [length_bigEndianBytes, after] at skipped
      have found : Reading data t i
          (.ok (.leaf (make val), i + (Value.leaf (make val)).encode.length)) :=
        .found (tag val)
          (by rw [Value.encode, encode, encodeBytes, follows, ← skipped, List.append_assoc])
          fun none => absurd none more
      rwa [Value.encode, encode, length_encodeBytes, ← Nat.add_assoc] at found

/-- The elements of an array that is inside the slice. -/
theorem readUints_inside (data : Slice) (i width s : Nat) (inside : i + s * width ≤ data.len) :
    ∃ arr rest, readUints data width i s = .ok arr ∧ arr.length = s ∧
      (∀ n ∈ arr, n < 256 ^ width) ∧
      data.bytes.drop i = arr.flatMap (bigEndianBytes width) ++ rest := by
  induction s generalizing i with
  | zero => exact ⟨[], _, rfl, rfl, by simp, rfl⟩
  | succ s inductionHypothesis =>
      rw [Nat.succ_mul] at inside
      obtain ⟨n, behind, read, small, follows⟩ := readUint_inside data i width (by omega)
      obtain ⟨arr, rest, readRest, rfl, smallRest, after⟩ :=
        inductionHypothesis (i + width) (by omega)
      have skipped := follows_append follows
      rw [length_bigEndianBytes, after] at skipped
      refine ⟨n :: arr, rest, ?_, rfl, ?_, ?_⟩
      · unfold readUints
        rw [read]
        change (do let arr ← readUints data width (i + width) arr.length; return n :: arr) = _
        rw [readRest]
        rfl
      · intro m member
        rcases List.mem_cons.mp member with rfl | later
        · exact small
        · exact smallRest m later
      · rw [follows, ← skipped, List.flatMap_cons, List.append_assoc]

theorem readArray_reading {make : List Nat → Leaf} (tag : ∀ arr, (make arr).tag = t)
    (encode : ∀ arr, (∀ n ∈ arr, n < 256 ^ width) → (make arr).encode = encodeArray width arr) :
    Reading data t i (readArray data i width make) := by
  unfold readArray
  split
  · exact .absent _
  · rename_i inside
    obtain ⟨s, behind, read, -, follows⟩ := readUint_inside data i 4 (by omega)
    rw [read]
    change Reading data t i (if s ≥ 2 ^ 31 then _ else _)
    split
    · exact .absent _
    split
    · exact .absent _
    · rename_i fits
      obtain ⟨arr, rest, readArr, rfl, small, after⟩ :=
        readUints_inside data (i + 4) width s (by omega)
      rw [readArr]
      have written : arr.flatMap (bigEndianBytes width) = (encodeArray width arr).drop 4 := by
        rw [encodeArray, List.drop_left' (by simp)]
      have long := length_encodeArray width arr
      have more : rest ≠ [] := by
        refine ne_nil_of_lt after ?_
        rw [written, List.length_drop]
        omega
      have skipped := follows_append follows
      rw [length_bigEndianBytes, after] at skipped
      have found : Reading data t i
          (.ok (.leaf (make arr), i + (Value.leaf (make arr)).encode.length)) :=
        .found (tag arr)
          (by
            rw [Value.encode, encode arr small, encodeArray, follows, ← skipped,
              List.append_assoc])
          fun none => absurd none more
      rwa [Value.encode, encode arr small, length_encodeArray, ← Nat.add_assoc] at found

theorem readList_reading : Reading data TagList i (readList data i) := by
  unfold readList
  split
  · exact .absent _
  · rename_i inside
    obtain ⟨lt, there⟩ := index_inside data i (by omega)
    have first := drop_eq_of_index there
    rw [there]
    change Reading data TagList i (if lt > 12 then _ else _)
    split
    · exact .absent _
    · obtain ⟨ls, rest, read, small, follows⟩ := readUint_inside data (i + 1) 4 (by omega)
      rw [read]
      have more := ne_nil_of_lt follows (by rw [length_bigEndianBytes]; omega)
      have found : Reading data TagList i
          (.ok (.list lt ls, i + (Value.list lt ls).encode.length)) :=
        .found rfl (by rw [first, follows]; rfl) fun none => absurd none more
      rwa [Value.encode, List.length_cons, length_bigEndianBytes] at found

/-- Numbers that fit survive the conversion of the array that holds them. -/
theorem map_roundTrip {α : Type} {toNat : α → Nat} {ofNat : Nat → α} {bound : Nat}
    (roundTrip : ∀ n, n < bound → toNat (ofNat n) = n) {arr : List Nat}
    (small : ∀ n ∈ arr, n < bound) : (arr.map ofNat).map toNat = arr := by
  rw [List.map_map]
  exact (List.map_congr_left fun n member => roundTrip n (small n member)).trans (List.map_id arr)

/-- Whatever the tag is, a value is returned only if its encoding stands there. -/
theorem readPayload_reading (data : Slice) (t : UInt8) (i : Nat) (inside : i < data.len) :
    Reading data t i (readPayload data t i) := by
  have roundTrip16 : ∀ n, n < 256 ^ 2 → (UInt16.ofNat n).toNat = n := fun n small =>
    UInt16.toNat_ofNat_of_lt' small
  have roundTrip32 : ∀ n, n < 256 ^ 4 → (UInt32.ofNat n).toNat = n := fun n small =>
    UInt32.toNat_ofNat_of_lt' small
  have roundTrip64 : ∀ n, n < 256 ^ 8 → (UInt64.ofNat n).toNat = n := fun n small =>
    UInt64.toNat_ofNat_of_lt' small
  unfold readPayload
  refine .ite (fun byte => ?_) ?_
  · subst byte
    exact readByte_reading
  refine .ite (fun short => ?_) ?_
  · subst short
    exact readNumber_reading (fun _ => rfl) fun n small => by rw [Leaf.encode, roundTrip16 n small]
  refine .ite (fun int => ?_) ?_
  · subst int
    exact readNumber_reading (fun _ => rfl) fun n small => by rw [Leaf.encode, roundTrip32 n small]
  refine .ite (fun long => ?_) ?_
  · subst long
    exact readNumber_reading (fun _ => rfl) fun n small => by rw [Leaf.encode, roundTrip64 n small]
  refine .ite (fun float => ?_) ?_
  · subst float
    exact readNumber_reading (fun _ => rfl) fun n small => by rw [Leaf.encode, roundTrip32 n small]
  refine .ite (fun double => ?_) ?_
  · subst double
    exact readNumber_reading (fun _ => rfl) fun n small => by rw [Leaf.encode, roundTrip64 n small]
  refine .ite (fun byteArray => ?_) ?_
  · subst byteArray
    exact readBytes_reading (fun _ => rfl) fun _ => rfl
  refine .ite (fun string => ?_) ?_
  · subst string
    exact readBytes_reading (fun _ => rfl) fun _ => rfl
  refine .ite (fun list => ?_) ?_
  · subst list
    exact readList_reading
  refine .ite (fun compound => ?_) ?_
  · subst compound
    change Reading data TagCompound i (.ok (.compound, i + Value.compound.encode.length))
    refine .found rfl (List.nil_append _).symm fun none => ?_
    rw [List.drop_eq_nil_iff] at none
    unfold Slice.len at inside
    omega
  refine .ite (fun intArray => ?_) ?_
  · subst intArray
    exact readArray_reading (fun _ => rfl) fun arr small => by
      rw [Leaf.encode, map_roundTrip roundTrip32 small]
  refine .ite (fun longArray => ?_) (.absent _)
  subst longArray
  exact readArray_reading (fun _ => rfl) fun arr small => by
    rw [Leaf.encode, map_roundTrip roundTrip64 small]

/-- The outcome of reading a name behind a tag. -/
inductive NameReading (data : Slice) (i : Nat) : Except Stop (List UInt8 × Nat) → Prop where
  | outOfRange (short : data.cap < i + 2) : NameReading data i (.error (.panicked .outOfRange))
  | absent (enough : i + 2 ≤ data.cap) (err : WalkError) :
      NameReading data i (.error (.returned (some err)))
  | found (enough : i + 2 ≤ data.cap) {n rest : List UInt8} (small : n.length < 2 ^ 16)
      (follows : data.bytes.drop i = encodeBytes 2 n ++ rest) (more : rest ≠ []) :
      NameReading data i (.ok (n, i + 2 + n.length))

theorem readName_reading (data : Slice) (i : Nat) : NameReading data i (readName data i) := by
  unfold readName
  by_cases enough : i + 2 ≤ data.cap
  · have sliced : data.slice i (i + 2) = some (((data.bytes ++ data.spare).drop i).take 2) := by
      rw [Slice.slice, if_pos ⟨by omega, enough⟩, Nat.add_sub_cancel_left]
    have long : (((data.bytes ++ data.spare).drop i).take 2).length = 2 := by
      unfold Slice.cap at enough
      rw [List.length_take, List.length_drop, List.length_append]
      omega
    rw [sliced, Option.bind_some, bigEndianUint, if_pos (Nat.le_of_eq long.symm)]
    dsimp only
    split
    · exact .absent enough _
    · rename_i fits
      obtain ⟨bytes, behind, again, length, follows⟩ := slice_split data i 2 (by omega)
      obtain rfl := Option.some.inj (sliced.symm.trans again)
      rw [List.take_of_length_le (Nat.le_of_eq long)] at fits ⊢
      generalize ((data.bytes ++ data.spare).drop i).take 2 = bytes at *
      obtain ⟨n, rest, slicedName, named, after⟩ :=
        slice_split data (i + 2) (bigEndian bytes) (by omega)
      rw [slicedName, ← named]
      have skipped := follows_append follows
      rw [length, after] at skipped
      have small := bigEndian_lt bytes
      rw [length, ← named] at small
      refine .found enough small ?_ (ne_nil_of_lt after (by omega))
      have written := bigEndianBytes_bigEndian bytes
      rw [length, ← named] at written
      rw [encodeBytes, written, follows, ← skipped, List.append_assoc]
  · have sliced : data.slice i (i + 2) = none := if_neg fun both => enough both.2
    rw [sliced]
    exact .outOfRange (by omega)

/-! ### What is written is read -/

section Written

variable {rest : List UInt8} (more : rest ≠ [])

include more

theorem readName_of_follows {n : List UInt8}
    (follows : data.bytes.drop i = encodeBytes 2 n ++ rest) (small : n.length < 2 ^ 16) :
    readName data i = .ok (n, i + 2 + n.length) := by
  have inside := lt_of_follows follows more
  rw [length_encodeBytes] at inside
  rw [encodeBytes, List.append_assoc] at follows
  have count := slice_of_follows follows (by rw [length_bigEndianBytes]; omega)
  have skipped := follows_append follows
  rw [length_bigEndianBytes] at count skipped
  have number : bigEndianUint 2 (bigEndianBytes 2 n.length) = some n.length := by
    have read : bigEndianUint 2 (bigEndianBytes 2 n.length ++ []) = some n.length :=
      bigEndianUint_append small []
    rwa [List.append_nil] at read
  rw [readName, count, Option.bind_some, number]
  dsimp only
  rw [if_neg (by omega), slice_of_follows skipped (by omega)]

theorem readNumber_of_follows {make : Nat → Leaf} {n : Nat}
    (follows : data.bytes.drop i = bigEndianBytes width n ++ rest) (small : n < 256 ^ width) :
    readNumber data i width make = .ok (.leaf (make n), i + width) := by
  have inside := lt_of_follows follows more
  rw [length_bigEndianBytes] at inside
  rw [readNumber, if_neg (by omega), readUint_of_follows follows small (by omega)]
  rfl

theorem readBytes_of_follows {sizeAbsent tooBig : String} {make : List UInt8 → Leaf}
    {val : List UInt8} (follows : data.bytes.drop i = encodeBytes width val ++ rest)
    (small : val.length < 256 ^ width) :
    readBytes data i width sizeAbsent tooBig make =
      .ok (.leaf (make val), i + width + val.length) := by
  have inside := lt_of_follows follows more
  rw [length_encodeBytes] at inside
  rw [encodeBytes, List.append_assoc] at follows
  have skipped := follows_append follows
  rw [length_bigEndianBytes] at skipped
  rw [readBytes, if_neg (by omega), readUint_of_follows follows small (by omega)]
  change (if i + width + val.length ≥ data.len then _ else _) = _
  rw [if_neg (by omega), slice_of_follows skipped (by omega)]
  rfl

omit more in
theorem readUints_of_follows {arr : List Nat}
    (follows : data.bytes.drop i = arr.flatMap (bigEndianBytes width) ++ rest)
    (small : ∀ n ∈ arr, n < 256 ^ width) (inside : i + arr.length * width ≤ data.len) :
    readUints data width i arr.length = .ok arr := by
  induction arr generalizing i with
  | nil => rfl
  | cons n arr inductionHypothesis =>
      rw [List.length_cons, Nat.succ_mul] at inside
      rw [List.flatMap_cons, List.append_assoc] at follows
      have skipped := follows_append follows
      rw [length_bigEndianBytes] at skipped
      have first := readUint_of_follows follows (small n List.mem_cons_self) (by omega)
      have later := inductionHypothesis skipped
        (fun m member => small m (List.mem_cons_of_mem _ member)) (by omega)
      rw [List.length_cons, readUints, first]
      change (do let arr ← readUints data width (i + width) arr.length; return n :: arr) = _
      rw [later]
      rfl

theorem readArray_of_follows {make : List Nat → Leaf} {arr : List Nat}
    (follows : data.bytes.drop i = encodeArray width arr ++ rest)
    (few : arr.length < 2 ^ 31) (small : ∀ n ∈ arr, n < 256 ^ width) :
    readArray data i width make = .ok (.leaf (make arr), i + 4 + arr.length * width) := by
  have inside := lt_of_follows follows more
  rw [length_encodeArray] at inside
  rw [encodeArray, List.append_assoc] at follows
  have skipped := follows_append follows
  rw [length_bigEndianBytes] at skipped
  rw [readArray, if_neg (by omega), readUint_of_follows follows (by omega) (by omega)]
  change (if arr.length ≥ 2 ^ 31 then _ else _) = _
  rw [if_neg (by omega), if_neg (by omega), readUints_of_follows skipped small (by omega)]
  rfl

theorem readList_of_follows {t : UInt8} {l : Nat}
    (follows : data.bytes.drop i = t :: bigEndianBytes 4 l ++ rest) (known : t ≤ 12)
    (small : l < 2 ^ 31) : readList data i = .ok (.list t l, i + 4 + 1) := by
  have inside := lt_of_follows follows more
  rw [List.length_cons, length_bigEndianBytes] at inside
  have there : data.index i = some t := by
    rw [Slice.index, ← List.head?_drop, follows]
    rfl
  have skipped : data.bytes.drop (i + 1) = bigEndianBytes 4 l ++ rest := by
    have split : data.bytes.drop i = [t] ++ (bigEndianBytes 4 l ++ rest) := follows
    exact follows_append split
  rw [readList, if_neg (by omega), there]
  change (if t > 12 then _ else _) = _
  rw [if_neg (UInt8.not_lt.mpr known), readUint_of_follows skipped (by omega) (by omega)]
  rfl

/-- A value is read back from its encoding, if there is a further byte behind it. -/
theorem readPayload_of_follows {value : Value}
    (follows : data.bytes.drop i = value.encode ++ rest) (fits : value.fits) :
    readPayload data value.tag i = .ok (value, i + value.encode.length) := by
  cases value with
  | leaf l =>
      cases l with
      | byte val =>
          have inside := lt_of_follows follows more
          have there : data.index i = some val := by
            rw [Slice.index, ← List.head?_drop, follows]
            rfl
          change readByte data i = _
          rw [readByte, if_neg (by omega), there]
          rfl
      | short val =>
          refine (readNumber_of_follows more follows val.toNat_lt).trans ?_
          rw [UInt16.ofNat_toNat]
          simp [Value.encode, Leaf.encode]
      | int val =>
          refine (readNumber_of_follows more follows val.toNat_lt).trans ?_
          rw [UInt32.ofNat_toNat]
          simp [Value.encode, Leaf.encode]
      | long val =>
          refine (readNumber_of_follows more follows val.toNat_lt).trans ?_
          rw [UInt64.ofNat_toNat]
          simp [Value.encode, Leaf.encode]
      | float bits =>
          refine (readNumber_of_follows more follows bits.toNat_lt).trans ?_
          rw [UInt32.ofNat_toNat]
          simp [Value.encode, Leaf.encode]
      | double bits =>
          refine (readNumber_of_follows more follows bits.toNat_lt).trans ?_
          rw [UInt64.ofNat_toNat]
          simp [Value.encode, Leaf.encode]
      | byteArray val =>
          have small : val.length < 2 ^ 31 := fits
          refine (readBytes_of_follows more follows (by omega)).trans ?_
          simp [Value.encode, Leaf.encode, Nat.add_assoc]
      | string val =>
          refine (readBytes_of_follows more follows fits).trans ?_
          simp [Value.encode, Leaf.encode, Nat.add_assoc]
      | intArray val =>
          have small : ∀ n ∈ val.map UInt32.toNat, n < 256 ^ 4 := by
            intro n member
            obtain ⟨v, _, rfl⟩ := List.mem_map.mp member
            exact v.toNat_lt
          have few : (val.map UInt32.toNat).length < 2 ^ 31 := by rwa [List.length_map]
          refine (readArray_of_follows more follows few small).trans ?_
          simp [Value.encode, Leaf.encode, Nat.add_assoc, Function.comp_def]
      | longArray val =>
          have small : ∀ n ∈ val.map UInt64.toNat, n < 256 ^ 8 := by
            intro n member
            obtain ⟨v, _, rfl⟩ := List.mem_map.mp member
            exact v.toNat_lt
          have few : (val.map UInt64.toNat).length < 2 ^ 31 := by rwa [List.length_map]
          refine (readArray_of_follows more follows few small).trans ?_
          simp [Value.encode, Leaf.encode, Nat.add_assoc, Function.comp_def]
  | list t l =>
      refine (readList_of_follows more follows fits.1 fits.2).trans ?_
      simp [Value.encode, Nat.add_assoc]
  | compound => rfl

end Written

end WebChunk.Nbt
