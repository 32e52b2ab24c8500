import MetabaseNet.Mtbase.Bytes
import MetabaseNet.Mtbase.Hex.RoundTrip

/-! `UIntToHexString` on an unsigned integer of `w` bytes: the loop writes the bytes from the
most significant one, so the result is `ToHexString` of the big-endian bytes, leading zeros
kept.
-/

namespace MetabaseNet.Mtbase

-----------------------------------------------------------------------------------------
-- The loop
-----------------------------------------------------------------------------------------

/-- The buffer `char hex[sizeof(T) * 2 + 2 + 1]` after `strcpy(hex, "0x")`; the loop and the
final store write every entry after the marker, so the initial fill is immaterial.
-/
def uIntHexBuffer (w : Nat) : List Char := ['0', 'x', '\x00'] ++ List.replicate (w * 2) '\x00'

/-- One pass of the loop of `UIntToHexString`, at byte position `i`: the byte
`(t >> ((sizeof(T) - i - 1)) * 8) & 0xFF`, where `*` binds tighter than `>>`, goes to
`hex[2 + i * 2]` and `hex[2 + i * 2 + 1]`.
-/
def uIntHexDigitPair (w t : Nat) (hex : List Char) (i : Nat) : List Char :=
  let byte := (t >>> ((w - i - 1) * 8)) &&& 0xFF
  (hex.set (2 + i * 2) (hexc (byte >>> 4))).set (2 + i * 2 + 1) (hexc (byte &&& 15))

/-- `template <typename T> std::string UIntToHexString(const T& t)`, for a `T` of `w` bytes.
The value of `t` is not negative and every shift is below its width, so the shifts and masks
compute on naturals as they do on `T` or on its promotion to `int`.
-/
def uIntToHexString (w : Nat) (t : BitVec (8 * w)) : List Char :=
  let hex := (List.range w).foldl (uIntHexDigitPair w t.toNat) (uIntHexBuffer w)
  cStr (hex.set (2 + w * 2) '\x00')

-----------------------------------------------------------------------------------------
-- Loop invariant
-----------------------------------------------------------------------------------------

/-- The source's byte expression is byte `w - 1 - i`, counted from the least significant. -/
theorem shiftRight_and_eq_byteAt (t w i : Nat)
    : (t >>> ((w - i - 1) * 8)) &&& 0xFF = byteAt t (w - 1 - i) := by
  rw [byteAt, show (0xFF : Nat) = 2 ^ 8 - 1 from rfl, Nat.and_pow_two_sub_one_eq_mod,
    show (w - i - 1) * 8 = 8 * (w - 1 - i) by omega]

theorem hexByte_ofNat_byteAt (t j : Nat)
    : hexByte (UInt8.ofNat (byteAt t j)) = [hexc (byteAt t j >>> 4), hexc (byteAt t j &&& 15)] := by
  rw [hexByte, UInt8.toNat_ofNat_of_lt (byteAt_lt t j)]

/-- Writing positions `n` and `n + 1` of a list replaces the pair found there. -/
theorem set_pair_splice {A R : List Char} {n : Nat} (at_end : n = A.length) (a b x y : Char)
    : ((A ++ a :: b :: R).set n x).set (n + 1) y = A ++ x :: y :: R := by
  subst at_end
  induction A with
  | nil => rfl
  | cons c rest ih => simp [ih]

/-- After `k` passes the buffer holds the marker, the digits of the first `k` big-endian
bytes, and the untouched rest. Proof: induction on `k`; each pass writes the pair just past
the digits.
-/
theorem foldl_uIntHexDigitPair {w t k : Nat} (within : k ≤ w)
    : (List.range k).foldl (uIntHexDigitPair w t) (uIntHexBuffer w)
      = '0' :: 'x'
        :: (((List.range k).map fun i => UInt8.ofNat (byteAt t (w - 1 - i))).flatMap hexByte
          ++ List.replicate ((w - k) * 2 + 1) '\x00') := by
  induction k with
  | zero => simp [uIntHexBuffer, List.replicate_succ]
  | succ k ih =>
      have rest : (w - k) * 2 + 1 = ((w - (k + 1)) * 2 + 1) + 1 + 1 := by omega
      rw [List.range_succ, List.foldl_append, ih (by omega), rest, List.replicate_succ,
        List.replicate_succ, List.foldl_cons, List.foldl_nil, uIntHexDigitPair,
        shiftRight_and_eq_byteAt, show 2 + k * 2 = (k * 2 + 1) + 1 by omega,
        List.set_cons_succ, List.set_cons_succ, List.set_cons_succ, List.set_cons_succ,
        set_pair_splice
          (by simp only [length_flatMap_hexByte, List.length_map, List.length_range]; omega)]
      simp [hexByte_ofNat_byteAt]

/-- `UIntToHexString(t)` is `0x` and the digits of the big-endian bytes of `t`: the final
store writes the NUL that was already past the digits, where `std::string` stops.
-/
theorem uIntToHexString_eq (w : Nat) (t : BitVec (8 * w))
    : uIntToHexString w t = '0' :: 'x' :: (bytesBE w t.toNat).flatMap hexByte := by
  have digits : ((bytesBE w t.toNat).flatMap hexByte).length = w * 2 := by
    simp only [length_flatMap_hexByte, bytesBE, List.length_map, List.length_range, Nat.mul_comm]
  have written : (List.range w).foldl (uIntHexDigitPair w t.toNat) (uIntHexBuffer w)
      = '0' :: 'x' :: ((bytesBE w t.toNat).flatMap hexByte ++ ['\x00']) := by
    rw [foldl_uIntHexDigitPair (Nat.le_refl w), Nat.sub_self]
    rfl
  have stored
      : ('0' :: 'x' :: ((bytesBE w t.toNat).flatMap hexByte ++ ['\x00'])).set (2 + w * 2) '\x00'
      = '0' :: 'x' :: ((bytesBE w t.toNat).flatMap hexByte ++ ['\x00']) := by
    rw [show 2 + w * 2 = w * 2 + 1 + 1 by omega, List.set_cons_succ, List.set_cons_succ,
      List.set_append_right _ _ (by omega), digits, Nat.sub_self]
    rfl
  have noNul : ∀ c ∈ '0' :: 'x' :: (bytesBE w t.toNat).flatMap hexByte, c ≠ '\x00' := by
    simp only [List.mem_cons, forall_eq_or_imp]
    exact ⟨by decide, by decide, flatMap_hexByte_ne_nul _⟩
  simp only [uIntToHexString]
  rw [written, stored]
  exact cStr_append_nul noNul []

-----------------------------------------------------------------------------------------
-- Against `ToHexString`
-----------------------------------------------------------------------------------------

/-- `UIntToHexString(t) == ToHexString(bytesBE_w(t))` for an unsigned `T` of `w` bytes: `0x`
and exactly `2w` lowercase digits, most significant byte first, leading zeros kept; so
`ParseHexString` reads the big-endian bytes back.
-/
theorem uIntToHexString_eq_toHexString_bytesBE (w : Nat) (wide : 0 < w) (t : BitVec (8 * w))
    : uIntToHexString w t = toHexString (bytesBE w t.toNat)
      ∧ (uIntToHexString w t).length = 2 * w + 2
      ∧ (∀ c ∈ (uIntToHexString w t).drop 2, IsLowerHexDigit c)
      ∧ parseHexString (uIntToHexString w t) = bytesBE w t.toNat := by
  have nonempty : bytesBE w t.toNat ≠ [] := by
    simp only [bytesBE, ne_eq, List.map_eq_nil_iff, List.range_eq_nil]
    omega
  have same : uIntToHexString w t = toHexString (bytesBE w t.toNat) := by
    rw [uIntToHexString_eq, toHexString_eq, if_neg nonempty]
  refine ⟨same, ?_, fun c member => ?_, by rw [same, parseHexString_toHexString]⟩
  · simp only [uIntToHexString_eq, List.length_cons, length_flatMap_hexByte, bytesBE,
      List.length_map, List.length_range]
  · rw [uIntToHexString_eq, List.drop_succ_cons, List.drop_succ_cons, List.drop_zero] at member
    exact isLowerHexDigit_of_mem_flatMap_hexByte member

/-- The eight bytes of `0x0102030405060708` as a `uint64`. -/
theorem uIntToHexString_eq_toHexString_bytesBE_uint64
    : 0 < 8 ∧ uIntToHexString 8 (0x0102030405060708 : BitVec 64)
        = toHexString (bytesBE 8 0x0102030405060708) :=
  ⟨by decide, (uIntToHexString_eq_toHexString_bytesBE 8 (by decide) 0x0102030405060708).1⟩

end MetabaseNet.Mtbase
