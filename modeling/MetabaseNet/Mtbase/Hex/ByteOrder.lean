import MetabaseNet.Mtbase.ByteSwap
import MetabaseNet.Mtbase.Hex.ReverseNumeric
import MetabaseNet.Mtbase.Hex.Numeric

/-! Byte order seen on words and on their hex text. `ReverseHexString` and
`ReverseHexNumericString` applied to `UIntToHexString(n)` give `UIntToHexString` of the
byte-swapped word, so `BSwap32` and `BSwap64` and the two string reversals are one operation;
`BSwap16` returns a `uint32`, whose string has four zero digits in front of the reversed
`uint16` string. `ParseHexString` reads the swapped word's string as the bytes of `n` least
significant first, and `ParseNumericHexString` reads the reversed string of `n` as `BSwap(n)`.
The `sprintf` text of `ToHexString(n)`, reversed by `ReverseHexNumericString`, parses to the
bytes of `n` least significant first, as many as its digit pairs.
-/

namespace MetabaseNet.Mtbase

-----------------------------------------------------------------------------------------
-- Byte lists in both orders
-----------------------------------------------------------------------------------------

/-- Values of `w` bytes in mirrored order have mirrored big-endian byte lists. -/
theorem bytesBE_eq_reverse {w x y : Nat} (mirror : ∀ j < w, byteAt x j = byteAt y (w - 1 - j))
    : bytesBE w x = (bytesBE w y).reverse := by
  apply List.ext_getElem (by simp)
  intro i inside _
  rw [length_bytesBE] at inside
  simp only [bytesBE, List.getElem_map, List.getElem_range, List.getElem_reverse, List.length_map,
    List.length_range, mirror (w - 1 - i) (by omega)]

/-- The big-endian bytes are the little-endian ones in reverse order. -/
theorem bytesBE_eq_reverse_bytesLE (w x : Nat)
    : bytesBE w x = ((bytesLE w x).map UInt8.ofNat).reverse := by
  apply List.ext_getElem (by simp)
  intro i inside _
  rw [length_bytesBE] at inside
  simp only [bytesBE, bytesLE, List.getElem_map, List.getElem_range, List.getElem_reverse,
    List.length_map, List.length_range]

-----------------------------------------------------------------------------------------
-- The reversals on the digits of a byte list
-----------------------------------------------------------------------------------------

theorem reverseHexGroups_flatMap_hexByte (v : List UInt8)
    : reverseHexGroups (v.flatMap hexByte) = v.reverse.flatMap hexByte := by
  have grouped : hexGroups (v.flatMap hexByte) = v.map hexByte := by
    rw [List.flatMap, hexGroups_flatten (by simp [hexByte])]
  rw [reverseHexGroups, grouped]
  simp [List.flatMap, List.map_reverse]

theorem even_flatMap_hexByte (v : List UInt8) : (v.flatMap hexByte).length % 2 = 0 := by
  rw [length_flatMap_hexByte]
  omega

theorem reverseHexString_hexDigits (v : List UInt8)
    : reverseHexString ('0' :: 'x' :: v.flatMap hexByte)
      = '0' :: 'x' :: v.reverse.flatMap hexByte := by
  rw [reverseHexString_eq (s := '0' :: 'x' :: v.flatMap hexByte)
    (by simp only [List.length_cons, length_flatMap_hexByte]; omega) (.inl rfl)]
  exact congrArg (['0', 'x'] ++ ·) (reverseHexGroups_flatMap_hexByte v)

theorem isHexNumericChar_of_isLowerHexDigit {c : Char} (digit : IsLowerHexDigit c)
    : IsHexNumericChar c :=
  digit.elim .inl fun letter => .inr (.inl letter)

/-- The marker and lowercase digits pass `isHexNumeric`. -/
theorem isHexNumeric_marker_digits {d : List Char} (lower : ∀ c ∈ d, IsLowerHexDigit c)
    : isHexNumeric ('0' :: 'x' :: d) = true := by
  rw [isHexNumeric_iff]
  refine ⟨List.cons_ne_nil _ _, ?_⟩
  simp only [List.mem_cons, forall_eq_or_imp]
  exact ⟨by decide, by decide, fun c member => isHexNumericChar_of_isLowerHexDigit (lower c member)⟩

theorem reverseHexNumericString_hexDigits (v : List UInt8)
    : reverseHexNumericString ('0' :: 'x' :: v.flatMap hexByte)
      = some ('0' :: 'x' :: v.reverse.flatMap hexByte) := by
  rw [reverseHexNumericString_eq
      (isHexNumeric_marker_digits fun _ member => isLowerHexDigit_of_mem_flatMap_hexByte member)
      (.inl rfl), List.drop_succ_cons, List.drop_succ_cons,
    List.drop_zero, padLeft_of_even (even_flatMap_hexByte v), reverseHexGroups_flatMap_hexByte]

theorem parseHexString_hexDigits (v : List UInt8)
    : parseHexString ('0' :: 'x' :: v.flatMap hexByte) = v := by
  by_cases empty : v = []
  · subst empty
    decide
  · have readBack := parseHexString_toHexString v
    rwa [toHexString_eq, if_neg empty] at readBack

-----------------------------------------------------------------------------------------
-- Words in mirrored byte order
-----------------------------------------------------------------------------------------

/-- For two words of `w` bytes, `y` holding the bytes of `x` in reverse order: the string of
`y` is the string of `x` reversed by `ReverseHexString` or by `ReverseHexNumericString`, and
it reads back as the bytes of `x` least significant first.
-/
theorem uIntToHexString_mirror {w : Nat} {x y : BitVec (8 * w)}
    (mirror : ∀ j < w, byteAt y.toNat j = byteAt x.toNat (w - 1 - j))
    : uIntToHexString w y = reverseHexString (uIntToHexString w x)
      ∧ reverseHexNumericString (uIntToHexString w x) = some (uIntToHexString w y)
      ∧ parseHexString (uIntToHexString w y) = (bytesLE w x.toNat).map UInt8.ofNat := by
  have swapped : bytesBE w y.toNat = (bytesBE w x.toNat).reverse := bytesBE_eq_reverse mirror
  simp only [uIntToHexString_eq, swapped, reverseHexString_hexDigits,
    reverseHexNumericString_hexDigits, parseHexString_hexDigits, bytesBE_eq_reverse_bytesLE,
    List.reverse_reverse, and_self]

/-- `BSwap16`'s result, cut back to its `uint16`, holds the two bytes of `n` swapped. -/
theorem byteAt_bSwap16_toUInt16 (n : UInt16) {j : Nat} (small : j < 2)
    : byteAt (bSwap16 n).toUInt16.toNat j = byteAt n.toNat (2 - 1 - j) := by
  have cut : (bSwap16 n).toUInt16.toNat = (bSwap16 n).toNat := Nat.mod_eq_of_lt (bSwap16_lt n)
  rw [cut]
  exact byteAt_bSwap16 n small

/-- `BSwap16` returns a `uint32`: its four bytes, most significant first, are two zero bytes
and then the two bytes of `n` in reverse order. -/
theorem bytesBE_bSwap16 (n : UInt16)
    : bytesBE 4 (bSwap16 n).toBitVec.toNat = [0, 0] ++ (bytesBE 2 n.toBitVec.toNat).reverse := by
  have high (j : Nat) (above : 2 ≤ j) : byteAt (bSwap16 n).toNat j = 0 := by
    rw [← Nat.mod_eq_of_lt (bSwap16_lt n), byteAt_mod_two_pow _ (m := 16) (by decide) j,
      if_neg (by omega)]
  show bytesBE 4 (bSwap16 n).toNat = [0, 0] ++ (bytesBE 2 n.toNat).reverse
  simp [bytesBE, List.range_succ, high, byteAt_bSwap16 n]

/-- `UIntToHexString(BSwapN(n)) == ReverseHexString(UIntToHexString(n))` for `BSwap32` and
`BSwap64`, and `ReverseHexNumericString` gives the same string; `ParseHexString` reads it as
the bytes of `n` least significant first, the order in which `n` lies in the memory of a
little-endian machine. `BSwap16` returns a `uint32`, so `UIntToHexString(BSwap16(n))` is
instantiated at `uint32`: four zero digits, then the digits of
`ReverseHexString(UIntToHexString<uint16>(n))`, which `ReverseHexNumericString` also gives;
it reads back as two zero bytes and the bytes of `n` least significant first.
-/
theorem uIntToHexString_bSwap_eq_reverseHexString
    : (∀ n : UInt16,
        uIntToHexString 4 (bSwap16 n).toBitVec
          = ['0', 'x', '0', '0', '0', '0'] ++ (reverseHexString (uIntToHexString 2 n.toBitVec)).drop 2
        ∧ reverseHexNumericString (uIntToHexString 2 n.toBitVec)
          = some (reverseHexString (uIntToHexString 2 n.toBitVec))
        ∧ parseHexString (uIntToHexString 4 (bSwap16 n).toBitVec)
          = [0, 0] ++ (bytesLE 2 n.toNat).map UInt8.ofNat)
      ∧ (∀ n : UInt32,
        uIntToHexString 4 (bSwap32 n).toBitVec
          = reverseHexString (uIntToHexString 4 n.toBitVec)
        ∧ reverseHexNumericString (uIntToHexString 4 n.toBitVec)
          = some (uIntToHexString 4 (bSwap32 n).toBitVec)
        ∧ parseHexString (uIntToHexString 4 (bSwap32 n).toBitVec)
          = (bytesLE 4 n.toNat).map UInt8.ofNat)
      ∧ (∀ n : UInt64,
        uIntToHexString 8 (bSwap64 n).toBitVec
          = reverseHexString (uIntToHexString 8 n.toBitVec)
        ∧ reverseHexNumericString (uIntToHexString 8 n.toBitVec)
          = some (uIntToHexString 8 (bSwap64 n).toBitVec)
        ∧ parseHexString (uIntToHexString 8 (bSwap64 n).toBitVec)
          = (bytesLE 8 n.toNat).map UInt8.ofNat) := by
  refine ⟨fun n => ⟨?_, ?_, ?_⟩, fun n => uIntToHexString_mirror fun _ small => byteAt_bSwap32 n small,
    fun n => uIntToHexString_mirror fun _ small => byteAt_bSwap64 n small⟩
  · have zeros : ([0, 0] : List UInt8).flatMap hexByte = ['0', '0', '0', '0'] := by decide
    rw [uIntToHexString_eq (w := 4), uIntToHexString_eq (w := 2), reverseHexString_hexDigits,
      bytesBE_bSwap16, List.flatMap_append, zeros]
    rfl
  · rw [uIntToHexString_eq, reverseHexNumericString_hexDigits, reverseHexString_hexDigits]
  · rw [uIntToHexString_eq (w := 4), bytesBE_bSwap16, parseHexString_hexDigits,
      bytesBE_eq_reverse_bytesLE, List.reverse_reverse]
    rfl

-----------------------------------------------------------------------------------------
-- The reversed number string, parsed
-----------------------------------------------------------------------------------------

/-- `ParseNumericHexString(UIntToHexString(t))` for a `T` of `w >= 1` bytes: the value of `t`
below `2^63`, `std::out_of_range` from there on. -/
theorem parseNumericHexString_uIntToHexString_wide {w : Nat} (wide : 0 < w) (t : BitVec (8 * w))
    : parseNumericHexString (uIntToHexString w t)
      = if t.toNat < 2 ^ 63 then .ok (UInt64.ofNat t.toNat) else .error .outOfRange := by
  have nonempty : (bytesBE w t.toNat).flatMap hexByte ≠ [] := by
    rw [← List.length_pos, length_flatMap_hexByte, length_bytesBE]
    omega
  rw [uIntToHexString_eq, parseNumericHexString_marker nonempty
    fun _ member => isLowerHexDigit_of_mem_flatMap_hexByte member, hexDigitsValue_bytesBE]

/-- For words `x`, `y` of `w >= 1` bytes in mirrored order, the reversed string of `x` parses
as `y`, within the signed range of `std::stoll`. -/
theorem parseNumericHexString_reverse_mirror {w : Nat} (wide : 0 < w) {x y : BitVec (8 * w)}
    (mirror : ∀ j < w, byteAt y.toNat j = byteAt x.toNat (w - 1 - j))
    : (reverseHexNumericString (uIntToHexString w x)).map parseNumericHexString
      = some (if y.toNat < 2 ^ 63 then .ok (UInt64.ofNat y.toNat) else .error .outOfRange) := by
  rw [(uIntToHexString_mirror mirror).2.1, Option.map_some',
    parseNumericHexString_uIntToHexString_wide wide]

/-- `ParseNumericHexString(ReverseHexNumericString(UIntToHexString(n))) == BSwapN(n)`: reversing
the digit pairs of a number's string and parsing it swaps the number's bytes. Every `uint16`
and `uint32` reads back; a `uint64` whose swap is `2^63` or more makes the signed `std::stoll`
throw `std::out_of_range`, as for `n = 0x80`.
-/
theorem parseNumericHexString_reverseHexNumericString_bSwap
    : (∀ n : UInt16, (reverseHexNumericString (uIntToHexString 2 n.toBitVec)).map
          parseNumericHexString = some (.ok (bSwap16 n).toUInt64))
      ∧ (∀ n : UInt32, (reverseHexNumericString (uIntToHexString 4 n.toBitVec)).map
          parseNumericHexString = some (.ok (bSwap32 n).toUInt64))
      ∧ ∀ n : UInt64, (reverseHexNumericString (uIntToHexString 8 n.toBitVec)).map
          parseNumericHexString
        = some (if (bSwap64 n).toNat < 2 ^ 63 then .ok (bSwap64 n) else .error .outOfRange) := by
  have readBack (m : UInt32) : (if m.toNat < 2 ^ 63 then .ok (UInt64.ofNat m.toNat)
      else .error .outOfRange : Except StollError UInt64) = .ok m.toUInt64 := by
    have small : m.toNat < 2 ^ 63 := Nat.lt_trans m.toNat_lt_size (by decide)
    rw [if_pos small]
    exact congrArg Except.ok
      (UInt64.toNat.inj (UInt64.toNat_ofNat_of_lt (Nat.lt_trans small (by decide))))
  refine ⟨fun n => ?_, fun n => ?_, fun n => ?_⟩
  · have cut : (bSwap16 n).toUInt16.toBitVec.toNat = (bSwap16 n).toNat :=
      Nat.mod_eq_of_lt (bSwap16_lt n)
    rw [parseNumericHexString_reverse_mirror (w := 2) (x := n.toBitVec)
      (y := (bSwap16 n).toUInt16.toBitVec) (by decide) fun _ inside => byteAt_bSwap16_toUInt16 n inside,
      cut]
    exact congrArg some (readBack _)
  · rw [parseNumericHexString_reverse_mirror (w := 4) (x := n.toBitVec) (y := (bSwap32 n).toBitVec)
      (by decide) fun _ inside => byteAt_bSwap32 n inside]
    exact congrArg some (readBack _)
  · rw [parseNumericHexString_reverse_mirror (w := 8) (x := n.toBitVec) (y := (bSwap64 n).toBitVec)
      (by decide) fun _ inside => byteAt_bSwap64 n inside]
    exact congrArg some (if_congr Iff.rfl (congrArg Except.ok (ofNat_toNat64 _)) rfl)

-----------------------------------------------------------------------------------------
-- Numbers written by `sprintf`, reversed and parsed
-----------------------------------------------------------------------------------------

/-- An even number of lowercase digits is the text `hexByte` writes for some bytes: each pair
is the byte it decodes to. Proof: recursion on the list, a pair at a time.
-/
theorem exists_flatMap_hexByte : ∀ {d : List Char}, d.length % 2 = 0
    → (∀ c ∈ d, IsLowerHexDigit c) → ∃ v : List UInt8, d = v.flatMap hexByte
  | [], _, _ => ⟨[], rfl⟩
  | [_], even, _ => by simp at even
  | a :: b :: rest, even, lower => by
      have lowerA := lower a (List.mem_cons_self a _)
      have lowerB := lower b (List.mem_cons_of_mem a (List.mem_cons_self b _))
      obtain ⟨h, -, hc, -⟩ := hexc_of_isLowerHexDigit lowerA
      obtain ⟨l, -, hd, -⟩ := hexc_of_isLowerHexDigit lowerB
      have pair : decodePair a b = some (UInt8.ofNat ((h <<< 4) ||| l)) := by
        simp [decodePair, hc, hd]
      obtain ⟨v, rfl⟩ := exists_flatMap_hexByte (d := rest)
        (by simp only [List.length_cons] at even; omega)
        fun c member => lower c (List.mem_cons_of_mem a (List.mem_cons_of_mem b member))
      exact ⟨_ :: v, by rw [List.flatMap_cons, hexByte_of_decodePair pair lowerA lowerB]; rfl⟩

/-- The `w + 1` bytes of `x`, least significant first: its low byte, then those of `x >>> 8`. -/
theorem bytesLE_succ (w x : Nat) : bytesLE (w + 1) x = byteAt x 0 :: bytesLE w (x >>> 8) := by
  simp only [bytesLE, List.range_succ_eq_map, List.map_cons, List.map_map]
  congr 1
  exact List.map_congr_left fun j _ => by simp [byteAt_shiftRight x (s := 8) rfl j]

/-- The big-endian value of a byte list, cut into as many bytes least significant first, is
the list reversed; and it fits in them. Proof: induction on the list from its last byte.
-/
theorem bytesLE_foldl (v : List UInt8)
    : (bytesLE v.length (v.foldl (fun acc b => acc * 256 + b.toNat) 0)).map UInt8.ofNat
        = v.reverse
      ∧ v.foldl (fun acc b => acc * 256 + b.toNat) 0 < 2 ^ (8 * v.length) := by
  induction v using List.reverseRecOn with
  | nil => exact ⟨rfl, by decide⟩
  | append_singleton u b ih =>
      rw [List.length_append, List.length_singleton, List.foldl_append, List.foldl_cons,
        List.foldl_nil]
      generalize u.foldl (fun acc b => acc * 256 + b.toNat) 0 = y at ih ⊢
      have small : b.toNat < 256 := b.toNat_lt_size
      have low : byteAt (y * 256 + b.toNat) 0 = b.toNat := by
        simp only [byteAt, Nat.mul_zero, Nat.shiftRight_zero]
        omega
      have high : (y * 256 + b.toNat) >>> 8 = y := by
        rw [Nat.shiftRight_eq_div_pow]
        omega
      have wider : 2 ^ (8 * (u.length + 1)) = 2 ^ (8 * u.length) * 256 := by
        rw [Nat.mul_succ, Nat.pow_add]
      rw [bytesLE_succ, low, high, List.map_cons, ih.1, List.reverse_append,
        List.reverse_singleton, List.singleton_append, wider]
      exact ⟨congrArg (· :: u.reverse) (UInt8.toNat.inj (UInt8.toNat_ofNat_of_lt small)),
        by have := ih.2; omega⟩

/-- A leading `'0'` does not change a digit string's value. -/
theorem hexDigitsValue_padLeft (d : List Char) : hexDigitsValue (padLeft d) = hexDigitsValue d := by
  unfold padLeft
  split_ifs
  exacts [hexDigitsValue_zeros_append 1 d, rfl]

/-- `ReverseHexNumericString` then `ParseHexString` over the marker and lowercase digits gives
the bytes of the digits' value least significant first, one per digit pair once the count is
padded to even; the value fits in those bytes.
-/
theorem parseHexString_reverseHexNumericString_digits {d : List Char}
    (lower : ∀ c ∈ d, IsLowerHexDigit c)
    : (reverseHexNumericString ('0' :: 'x' :: d)).map parseHexString
        = some ((bytesLE ((d.length + 1) / 2) (hexDigitsValue d)).map UInt8.ofNat)
      ∧ hexDigitsValue d < 2 ^ (8 * ((d.length + 1) / 2)) := by
  have lowerPad : ∀ c ∈ padLeft d, IsLowerHexDigit c := by
    unfold padLeft
    split_ifs
    · simp only [List.mem_cons, forall_eq_or_imp]
      exact ⟨by decide, lower⟩
    · exact lower
  obtain ⟨v, pairs⟩ := exists_flatMap_hexByte (padLeft_even d) lowerPad
  have count : v.length = (d.length + 1) / 2 := by
    have size := congrArg List.length pairs
    rw [length_padLeft, length_flatMap_hexByte] at size
    omega
  have value : hexDigitsValue d = v.foldl (fun acc b => acc * 256 + b.toNat) 0 := by
    rw [← hexDigitsValue_padLeft, pairs, hexDigitsValue, foldl_flatMap_hexByte]
  rw [reverseHexNumericString_eq (isHexNumeric_marker_digits lower) (.inl rfl),
    List.drop_succ_cons, List.drop_succ_cons, List.drop_zero, pairs,
    reverseHexGroups_flatMap_hexByte, Option.map_some', parseHexString_hexDigits, ← count, value]
  exact ⟨congrArg some (bytesLE_foldl v).1.symm, (bytesLE_foldl v).2⟩

/-- The same for the digits `Nat.toDigits 16 m` that `sprintf("%x")` writes for `m`. -/
theorem parseHexString_reverseHexNumericString_toDigits (m : Nat)
    : (reverseHexNumericString ('0' :: 'x' :: Nat.toDigits 16 m)).map parseHexString
        = some ((bytesLE (((Nat.toDigits 16 m).length + 1) / 2) m).map UInt8.ofNat)
      ∧ m < 2 ^ (8 * (((Nat.toDigits 16 m).length + 1) / 2)) := by
  obtain ⟨value, -, lower⟩ := toDigits_spec m
  have reversed := parseHexString_reverseHexNumericString_digits lower
  rwa [value] at reversed

/-- `ParseHexString(ReverseHexNumericString(ToHexString(n)))` for a `uint32` or `uint64` `n`:
the digits `sprintf("0x%x")` writes, paired from the right and reversed, parse to the bytes of
`n` least significant first, one byte per digit pair (the first padded with a `'0'` when the
count is odd), and these bytes hold all of `n`.
-/
theorem parseHexString_reverseHexNumericString_toHexString
    : (∀ n : UInt32, (reverseHexNumericString (toHexStringUInt32 n)).map parseHexString
          = some ((bytesLE (((Nat.toDigits 16 n.toNat).length + 1) / 2) n.toNat).map UInt8.ofNat)
        ∧ n.toNat < 2 ^ (8 * (((Nat.toDigits 16 n.toNat).length + 1) / 2)))
      ∧ ∀ n : UInt64, (reverseHexNumericString (toHexStringUInt64 n)).map parseHexString
          = some ((bytesLE (((Nat.toDigits 16 n.toNat).length + 1) / 2) n.toNat).map UInt8.ofNat)
        ∧ n.toNat < 2 ^ (8 * (((Nat.toDigits 16 n.toNat).length + 1) / 2)) :=
  ⟨fun n => parseHexString_reverseHexNumericString_toDigits n.toNat,
    fun n => parseHexString_reverseHexNumericString_toDigits n.toNat⟩

end MetabaseNet.Mtbase
