import Mathlib.Data.List.Basic
import Mathlib.Data.Nat.Digits
import Mathlib.Tactic.Ring
import MetabaseNet.Mtbase.Hex.UIntToHex

/-! The numeric hex strings: `ToHexString` of a `uint32` or `uint64` through `sprintf`, and
`ParseNumericHexString` through `std::stoll` in base 16. The parse is signed, so it reads back
every `uint32` and the lower half of `uint64`, and throws `std::out_of_range` on the upper
half. `UIntToHexString` writes the digits of `sprintf` behind the zeros that fill the width of
the type. `IsNumber` and `isNumeric` accept the same decimal strings.
-/

namespace MetabaseNet.Mtbase

-----------------------------------------------------------------------------------------
-- Formatting
-----------------------------------------------------------------------------------------

/-- `ToHexString(const uint32 n)`: `sprintf(obuf, "0x%x", n)` writes `0x`, the lowercase
digits of `n` with no leading zero (`0` for zero) and a NUL, where `std::string` stops.
-/
def toHexStringUInt32 (n : UInt32) : List Char := '0' :: 'x' :: Nat.toDigits 16 n.toNat

/-- `ToHexString(const uint64 n)`: the same through `"0x%lx"`, with `long` of 64 bits (LP64, as
on the Linux and macOS builds), so that `%lx` prints the whole `uint64`. On LLP64 Windows
`long` has 32 bits and passing a `uint64` to `%lx` is undefined; that target is not modelled.
-/
def toHexStringUInt64 (n : UInt64) : List Char := '0' :: 'x' :: Nat.toDigits 16 n.toNat

-----------------------------------------------------------------------------------------
-- Parsing
-----------------------------------------------------------------------------------------

/-- Whitespace as `isspace` tests it in the "C" locale. -/
def isSpace (c : Char) : Bool :=
  c = ' ' || c = '\t' || c = '\n' || c = '\x0b' || c = '\x0c' || c = '\r'

/-- One digit more on the value read so far, in base 16. -/
def hexAccumulate (acc : Nat) (c : Char) : Nat := acc * 16 + (charToHex c).getD 0

/-- The value of a run of base-16 digits, most significant first. -/
def hexDigitsValue (digits : List Char) : Nat := digits.foldl hexAccumulate 0

/-- `strtoll(str, &end, 16)` on the characters before the NUL: leading whitespace, an
optional sign, an optional `0x` or `0X` when a digit follows it, then the longest run of
base-16 digits. `none` when no digit is read, so that nothing is converted; otherwise the
exact value, which `strtoll` reports with `ERANGE` when it leaves `long long`.
-/
def strtoll16 (str : List Char) : Option Int :=
  let s := str.dropWhile isSpace
  let negative := s.head? = some '-'
  let s := if s.head? = some '-' ∨ s.head? = some '+' then s.tail else s
  let s := if StartsWithHexMarker s ∧ (charToHex (s.getD 2 '\x00')).isSome then s.drop 2 else s
  let digits := s.takeWhile fun c => (charToHex c).isSome
  if digits = [] then none
  else some (if negative then -(hexDigitsValue digits : Int) else hexDigitsValue digits)

/-- The exceptions of `std::stoll`. -/
inductive StollError where
  /-- `std::invalid_argument`: no conversion could be performed. -/
  | invalidArgument
  /-- `std::out_of_range`: `strtoll` set `errno` to `ERANGE`. -/
  | outOfRange
  deriving DecidableEq, Repr

/-- `std::stoll(str, nullptr, 16)`: `strtoll` on `str.c_str()`, its failures thrown. -/
def stoll16 (str : List Char) : Except StollError Int :=
  match strtoll16 (cStr str) with
  | none => .error .invalidArgument
  | some v => if v < -2 ^ 63 ∨ 2 ^ 63 - 1 < v then .error .outOfRange else .ok v

/-- `ParseNumericHexString(str)`: `(uint64)std::stoll(str, nullptr, 16)`, the conversion to
`uint64` taken modulo `2^64`.
-/
def parseNumericHexString (str : List Char) : Except StollError UInt64 :=
  (stoll16 str).map fun v => UInt64.ofNat (v % 2 ^ 64).toNat

-----------------------------------------------------------------------------------------
-- Digit values
-----------------------------------------------------------------------------------------

theorem charToHex_isSome {c : Char} (digit : IsLowerHexDigit c) : (charToHex c).isSome := by
  obtain ⟨d, -, found, -⟩ := hexc_of_isLowerHexDigit digit
  simp [found]

theorem digitChar_isLowerHexDigit {d : Nat} (small : d < 16)
    : IsLowerHexDigit (Nat.digitChar d) := by
  interval_cases d <;> decide

theorem charToHex_digitChar {d : Nat} (small : d < 16) : charToHex (Nat.digitChar d) = some d := by
  interval_cases d <;> decide

/-- `Nat.toDigits` writes lowercase digits whose value is the number. Proof: induction on
the fuel of `Nat.toDigitsCore`, which peels the last digit off at each step.
-/
theorem toDigitsCore_spec {fuel n : Nat} (enough : n < fuel) (ds : List Char)
    : (Nat.toDigitsCore 16 fuel n ds).foldl hexAccumulate 0 = ds.foldl hexAccumulate n
      ∧ ∀ c ∈ Nat.toDigitsCore 16 fuel n ds, c ∈ ds ∨ IsLowerHexDigit c := by
  induction fuel generalizing n ds with
  | zero => omega
  | succ fuel ih =>
      have last : n % 16 < 16 := Nat.mod_lt _ (by omega)
      have value : hexAccumulate (n / 16) (Nat.digitChar (n % 16)) = n := by
        rw [hexAccumulate, charToHex_digitChar last]
        simp only [Option.getD_some]
        omega
      have digit : ∀ c ∈ Nat.digitChar (n % 16) :: ds, c ∈ ds ∨ IsLowerHexDigit c := by
        simp only [List.mem_cons]
        rintro c (rfl | member)
        · exact .inr (digitChar_isLowerHexDigit last)
        · exact .inl member
      rw [Nat.toDigitsCore]
      split_ifs with single
      · rw [single] at value
        exact ⟨by rw [List.foldl_cons, value], digit⟩
      · obtain ⟨folded, digits⟩ := ih (n := n / 16) (by omega) (Nat.digitChar (n % 16) :: ds)
        exact ⟨by rw [folded, List.foldl_cons, value],
          fun c member => (digits c member).elim (digit c) .inr⟩

theorem toDigits_spec (n : Nat)
    : hexDigitsValue (Nat.toDigits 16 n) = n ∧ Nat.toDigits 16 n ≠ []
      ∧ ∀ c ∈ Nat.toDigits 16 n, IsLowerHexDigit c := by
  obtain ⟨value, digits⟩ := toDigitsCore_spec (Nat.lt_succ_self n) []
  refine ⟨value, ?_, fun c member => (digits c member).resolve_left (List.not_mem_nil c)⟩
  rw [Nat.toDigits, Nat.toDigitsCore]
  split_ifs
  · simp
  · rw [← List.length_pos, Nat.toDigitsCore_lens_eq]
    omega

/-- The two digits written for a byte spell that byte. -/
theorem foldl_hexByte (acc : Nat) (b : UInt8)
    : (hexByte b).foldl hexAccumulate acc = acc * 256 + b.toNat := by
  obtain ⟨high, low⟩ := hexByte_nibbles_lt b
  have halves := byte_halves b.toNat
  simp only [hexByte, List.foldl_cons, List.foldl_nil, hexAccumulate, charToHex_hexc high,
    charToHex_hexc low, Option.getD_some]
  omega

theorem foldl_flatMap_hexByte (acc : Nat) (bytes : List UInt8)
    : (bytes.flatMap hexByte).foldl hexAccumulate acc
      = bytes.foldl (fun acc b => acc * 256 + b.toNat) acc := by
  induction bytes generalizing acc with
  | nil => rfl
  | cons b rest ih => rw [List.flatMap_cons, List.foldl_append, foldl_hexByte, ih, List.foldl_cons]

theorem bytesBE_succ (w x : Nat) : bytesBE (w + 1) x = UInt8.ofNat (byteAt x w) :: bytesBE w x := by
  simp only [bytesBE, List.range_succ_eq_map, List.map_cons, List.map_map]
  congr 2
  funext i
  simp only [Function.comp, show w + 1 - 1 - (i + 1) = w - 1 - i by omega]

/-- The big-endian bytes of `x`, read back, are `x` cut to `w` bytes. Proof: induction on
`w`, one byte more in front at each step.
-/
theorem foldl_bytesBE (w x acc : Nat)
    : (bytesBE w x).foldl (fun acc b => acc * 256 + b.toNat) acc
      = acc * 2 ^ (8 * w) + x % 2 ^ (8 * w) := by
  induction w generalizing acc with
  | zero => simp [bytesBE, Nat.mod_one]
  | succ w ih =>
      have wider : 2 ^ (8 * (w + 1)) = 2 ^ (8 * w) * 256 := by
        rw [Nat.mul_succ, Nat.pow_add]
      rw [bytesBE_succ, List.foldl_cons, ih, UInt8.toNat_ofNat_of_lt (byteAt_lt x w), wider,
        Nat.mod_mul, byteAt, Nat.shiftRight_eq_div_pow, show (2 : Nat) ^ 8 = 256 from rfl]
      ring

-----------------------------------------------------------------------------------------
-- The parse of `0x` and digits
-----------------------------------------------------------------------------------------

/-- `strtoll` reads `0x` and a nonempty run of digits as the digits' value. -/
theorem strtoll16_marker {digits : List Char} (nonempty : digits ≠ [])
    (lower : ∀ c ∈ digits, IsLowerHexDigit c)
    : strtoll16 ('0' :: 'x' :: digits) = some (hexDigitsValue digits : Int) := by
  obtain ⟨c, rest, rfl⟩ := List.exists_cons_of_ne_nil nonempty
  have first : (charToHex c).isSome := charToHex_isSome (lower c (List.mem_cons_self c rest))
  have all : (c :: rest).takeWhile (fun c => (charToHex c).isSome) = c :: rest :=
    List.takeWhile_eq_self_iff.2 fun d member => charToHex_isSome (lower d member)
  simp [strtoll16, isSpace, StartsWithHexMarker, first, all]

/-- `ParseNumericHexString` of `0x` and lowercase digits: their value when it is below `2^63`,
and `std::out_of_range` from there on.
-/
theorem parseNumericHexString_marker {digits : List Char} (nonempty : digits ≠ [])
    (lower : ∀ c ∈ digits, IsLowerHexDigit c)
    : parseNumericHexString ('0' :: 'x' :: digits)
      = if hexDigitsValue digits < 2 ^ 63 then .ok (UInt64.ofNat (hexDigitsValue digits))
        else .error .outOfRange := by
  have noNul : ∀ c ∈ '0' :: 'x' :: digits, c ≠ '\x00' := by
    simp only [List.mem_cons, forall_eq_or_imp]
    exact ⟨by decide, by decide, fun c member => ne_nul_of_isLowerHexDigit (lower c member)⟩
  simp only [parseNumericHexString, stoll16, cStr_eq_self noNul, strtoll16_marker nonempty lower]
  by_cases small : hexDigitsValue digits < 2 ^ 63
  · have wraps : (hexDigitsValue digits : Int) % 2 ^ 64 = hexDigitsValue digits :=
      Int.emod_eq_of_lt (by omega) (by omega)
    rw [if_neg (by omega), if_pos small]
    simp only [Except.map, wraps, Int.toNat_ofNat]
  · rw [if_pos (.inr (by omega)), if_neg small]
    rfl

-----------------------------------------------------------------------------------------
-- Round trips through the signed parse
-----------------------------------------------------------------------------------------

theorem ofNat_toNat64 (n : UInt64) : UInt64.ofNat n.toNat = n :=
  UInt64.toNat.inj (UInt64.toNat_ofNat_of_lt n.toNat_lt_size)

theorem parseNumericHexString_toHexStringUInt64 (n : UInt64)
    : parseNumericHexString (toHexStringUInt64 n)
      = if n.toNat < 2 ^ 63 then .ok n else .error .outOfRange := by
  obtain ⟨value, nonempty, lower⟩ := toDigits_spec n.toNat
  rw [toHexStringUInt64, parseNumericHexString_marker nonempty lower, value, ofNat_toNat64]

theorem parseNumericHexString_uIntToHexString (n : UInt64)
    : parseNumericHexString (uIntToHexString 8 n.toBitVec)
      = if n.toNat < 2 ^ 63 then .ok n else .error .outOfRange := by
  have nonempty : (bytesBE 8 n.toNat).flatMap hexByte ≠ [] := by
    rw [← List.length_pos, length_flatMap_hexByte]
    simp [bytesBE]
  have value : hexDigitsValue ((bytesBE 8 n.toNat).flatMap hexByte) = n.toNat := by
    rw [hexDigitsValue, foldl_flatMap_hexByte, foldl_bytesBE, Nat.zero_mul, Nat.zero_add]
    exact Nat.mod_eq_of_lt n.toNat_lt_size
  rw [uIntToHexString_eq]
  show parseNumericHexString ('0' :: 'x' :: (bytesBE 8 n.toNat).flatMap hexByte) = _
  rw [parseNumericHexString_marker nonempty
    fun _ member => isLowerHexDigit_of_mem_flatMap_hexByte member, value, ofNat_toNat64]

/-- `ParseNumericHexString` reads back `ToHexString` of every `uint32`. Of a `uint64`, through
`ToHexString` or `UIntToHexString`, it reads back the values below `2^63` and throws
`std::out_of_range` on the others, the first of them `0x8000000000000000`.
-/
theorem parseNumericHexString_toHexString_signed
    : (∀ n : UInt32, parseNumericHexString (toHexStringUInt32 n) = .ok n.toUInt64)
      ∧ (∀ n : UInt64, parseNumericHexString (toHexStringUInt64 n)
          = if n.toNat < 2 ^ 63 then .ok n else .error .outOfRange)
      ∧ (∀ n : UInt64, parseNumericHexString (uIntToHexString 8 n.toBitVec)
          = if n.toNat < 2 ^ 63 then .ok n else .error .outOfRange)
      ∧ parseNumericHexString (toHexStringUInt64 0x8000000000000000) = .error .outOfRange
      ∧ parseNumericHexString (uIntToHexString 8 (0x8000000000000000 : UInt64).toBitVec)
          = .error .outOfRange := by
  refine ⟨fun n => ?_, parseNumericHexString_toHexStringUInt64,
    parseNumericHexString_uIntToHexString, ?_, ?_⟩
  · obtain ⟨value, nonempty, lower⟩ := toDigits_spec n.toNat
    have small : n.toNat < 2 ^ 63 := Nat.lt_trans n.toNat_lt_size (by decide)
    rw [toHexStringUInt32, parseNumericHexString_marker nonempty lower, value, if_pos small]
    exact congrArg Except.ok
      (UInt64.toNat.inj (UInt64.toNat_ofNat_of_lt (Nat.lt_trans small (by decide))))
  · rw [parseNumericHexString_toHexStringUInt64, if_neg (by decide)]
  · rw [parseNumericHexString_uIntToHexString, if_neg (by decide)]

-----------------------------------------------------------------------------------------
-- The two number formats
-----------------------------------------------------------------------------------------

/-- The digits of `UIntToHexString(t)` spell `t`. -/
theorem hexDigitsValue_bytesBE (w : Nat) (t : BitVec (8 * w))
    : hexDigitsValue ((bytesBE w t.toNat).flatMap hexByte) = t.toNat := by
  rw [hexDigitsValue, foldl_flatMap_hexByte, foldl_bytesBE, Nat.zero_mul, Nat.zero_add]
  exact Nat.mod_eq_of_lt t.isLt

/-- Leading zeros do not change a digit string's value. -/
theorem hexDigitsValue_zeros_append (k : Nat) (d : List Char)
    : hexDigitsValue (List.replicate k '0' ++ d) = hexDigitsValue d := by
  have zero : hexAccumulate 0 '0' = 0 := by decide
  induction k with
  | zero => rfl
  | succ k ih =>
      rw [List.replicate_succ, List.cons_append, hexDigitsValue, List.foldl_cons, zero]
      exact ih

theorem hexDigitsValue_concat (d : List Char) (c : Char)
    : hexDigitsValue (d ++ [c]) = hexAccumulate (hexDigitsValue d) c := by
  simp only [hexDigitsValue, List.foldl_append, List.foldl_cons, List.foldl_nil]

/-- Lowercase digit strings of one length with one value are equal. Proof: induction from the
last digit, which is the value modulo 16.
-/
theorem eq_of_hexDigitsValue_eq {a b : List Char} (lowerA : ∀ c ∈ a, IsLowerHexDigit c)
    (lowerB : ∀ c ∈ b, IsLowerHexDigit c) (size : a.length = b.length)
    (value : hexDigitsValue a = hexDigitsValue b) : a = b := by
  induction a using List.reverseRecOn generalizing b with
  | nil => exact (List.eq_nil_of_length_eq_zero size.symm).symm
  | append_singleton a x ih =>
      rcases List.eq_nil_or_concat b with rfl | ⟨b, y, rfl⟩
      · simp at size
      rw [List.concat_eq_append] at lowerB size value ⊢
      simp only [List.mem_append, List.mem_singleton] at lowerA lowerB
      obtain ⟨dx, -, hx, rfl⟩ := hexc_of_isLowerHexDigit (lowerA x (.inr rfl))
      obtain ⟨dy, -, hy, rfl⟩ := hexc_of_isLowerHexDigit (lowerB y (.inr rfl))
      have lastX := charToHex_lt hx
      have lastY := charToHex_lt hy
      rw [hexDigitsValue_concat, hexDigitsValue_concat, hexAccumulate, hexAccumulate, hx, hy,
        Option.getD_some, Option.getD_some] at value
      have sameLast : dx = dy := by omega
      have rest : a = b := ih (fun c member => lowerA c (.inl member))
        (fun c member => lowerB c (.inl member)) (by simp at size; omega) (by omega)
      rw [rest, sameLast]

/-- `sprintf("%x")` writes at most `e` digits for a value below `16 ^ e`. -/
theorem length_toDigits_le {m e : Nat} (small : m < 16 ^ e) (positive : 0 < e)
    : (Nat.toDigits 16 m).length ≤ e :=
  Nat.toDigitsCore_length 16 (by decide) (m + 1) m e small positive

/-- `UIntToHexString(t)` for a `T` of `w >= 1` bytes is the digits `sprintf("%x")` writes for
`t`, behind as many zeros as fill `2 * w` digits: both spell `t` in lowercase digits, and
lowercase digit strings of one length and one value are equal.
-/
theorem uIntToHexString_eq_zeros_toDigits {w : Nat} (wide : 0 < w) (t : BitVec (8 * w))
    : uIntToHexString w t = '0' :: 'x' :: (List.replicate (2 * w - (Nat.toDigits 16 t.toNat).length)
        '0' ++ Nat.toDigits 16 t.toNat) := by
  obtain ⟨value, -, lower⟩ := toDigits_spec t.toNat
  have digits : (16 : Nat) ^ (2 * w) = 2 ^ (8 * w) := by
    rw [show (16 : Nat) = 2 ^ 4 from rfl, ← Nat.pow_mul]
    congr 1
    omega
  have fits : (Nat.toDigits 16 t.toNat).length ≤ 2 * w :=
    length_toDigits_le (digits ▸ t.isLt) (by omega)
  rw [uIntToHexString_eq]
  congr 2
  apply eq_of_hexDigitsValue_eq (fun _ member => isLowerHexDigit_of_mem_flatMap_hexByte member)
  · simp only [List.mem_append, List.mem_replicate]
    rintro c (⟨-, rfl⟩ | member)
    · decide
    · exact lower c member
  · simp only [length_flatMap_hexByte, length_bytesBE, List.length_append, List.length_replicate]
    omega
  · rw [hexDigitsValue_bytesBE, hexDigitsValue_zeros_append, value]

/-- `UIntToHexString(n)` is `ToHexString(n)` with leading zeros up to the width of the type:
8 digits for a `uint32`, 16 for a `uint64`. So the text `sprintf` writes into `obuf[64]`, with
its NUL, fits in the `sizeof(T) * 2 + 2 + 1` characters of `UIntToHexString`'s buffer.
-/
theorem uIntToHexString_pads_toHexString
    : (∀ n : UInt32, uIntToHexString 4 n.toBitVec = '0' :: 'x'
          :: (List.replicate (10 - (toHexStringUInt32 n).length) '0' ++ (toHexStringUInt32 n).drop 2)
        ∧ (toHexStringUInt32 n).length + 1 ≤ 4 * 2 + 2 + 1)
      ∧ ∀ n : UInt64, uIntToHexString 8 n.toBitVec = '0' :: 'x'
          :: (List.replicate (18 - (toHexStringUInt64 n).length) '0' ++ (toHexStringUInt64 n).drop 2)
        ∧ (toHexStringUInt64 n).length + 1 ≤ 8 * 2 + 2 + 1 := by
  refine ⟨fun n => ?_, fun n => ?_⟩
  · have fits := length_toDigits_le (m := n.toNat) (e := 2 * 4) n.toNat_lt_size (by decide)
    have width : 10 - (toHexStringUInt32 n).length = 2 * 4 - (Nat.toDigits 16 n.toNat).length := by
      simp only [toHexStringUInt32, List.length_cons]
      omega
    rw [width]
    refine ⟨uIntToHexString_eq_zeros_toDigits (w := 4) (by decide) n.toBitVec, ?_⟩
    simp only [toHexStringUInt32, List.length_cons]
    omega
  · have fits := length_toDigits_le (m := n.toNat) (e := 2 * 8) n.toNat_lt_size (by decide)
    have width : 18 - (toHexStringUInt64 n).length = 2 * 8 - (Nat.toDigits 16 n.toNat).length := by
      simp only [toHexStringUInt64, List.length_cons]
      omega
    rw [width]
    refine ⟨uIntToHexString_eq_zeros_toDigits (w := 8) (by decide) n.toBitVec, ?_⟩
    simp only [toHexStringUInt64, List.length_cons]
    omega

-----------------------------------------------------------------------------------------
-- Decimal strings
-----------------------------------------------------------------------------------------

/-- `std::isdigit` on an `unsigned char` in the "C" locale: `'0'` to `'9'`. -/
def isDigit (c : Char) : Bool := decide ('0' ≤ c ∧ c ≤ '9')

/-- `IsNumber(s)`: `!s.empty()`, and `std::find_if` for a character `std::isdigit` rejects
returns `s.end()`, at offset `s.size()`. -/
def isNumber (s : List Char) : Bool := !s.isEmpty && s.findIdx (fun c => !isDigit c) == s.length

/-- `isNumeric(str)`: `!str.empty()`, and `str.find_first_not_of("0123456789")` is `npos`. -/
def isNumeric (str : List Char) : Bool :=
  !str.isEmpty && str.findIdx? (fun c => !"0123456789".toList.contains c) == none

/-- The set of `find_first_not_of` is the range `std::isdigit` tests. -/
theorem contains_decimalDigits (c : Char) : "0123456789".toList.contains c = isDigit c := by
  rw [Bool.eq_iff_iff, isDigit, decide_eq_true_iff, List.elem_iff]
  constructor
  · exact (by decide : ∀ c ∈ "0123456789".toList, '0' ≤ c ∧ c ≤ '9') c
  · intro digit
    have bound : 48 ≤ c.toNat ∧ c.toNat ≤ 57 := digit
    rw [← Char.ofNat_toNat c]
    obtain ⟨lo, hi⟩ := bound
    generalize c.toNat = n at *
    interval_cases n <;> decide

/-- The two decimal tests of the source agree on every string, and both accept exactly the
nonempty strings of the digits `0` to `9`.
-/
theorem isNumber_eq_isNumeric (s : List Char)
    : isNumber s = isNumeric s ∧ (isNumeric s = true ↔ s ≠ [] ∧ ∀ c ∈ s, '0' ≤ c ∧ c ≤ '9') := by
  have sameTest : (fun c => !isDigit c) = fun c => !"0123456789".toList.contains c := by
    funext c
    rw [contains_decimalDigits]
  have same : isNumber s = isNumeric s := by
    rw [isNumber, isNumeric, sameTest]
    congr 1
    rw [Bool.eq_iff_iff, beq_iff_eq, beq_iff_eq, List.findIdx?_eq_none_iff_findIdx_eq]
  refine ⟨same, ?_⟩
  rw [← same]
  simp [isNumber, List.findIdx_eq_length, isDigit, List.isEmpty_iff]

end MetabaseNet.Mtbase
