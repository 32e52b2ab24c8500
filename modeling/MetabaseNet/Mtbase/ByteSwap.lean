import MetabaseNet.Mtbase.Bytes

/-! `BSwap16`, `BSwap32` and `BSwap64`: each mask-and-shift network puts the bytes of its word
in reverse order, and so is an involution on words of its width.
-/

namespace MetabaseNet.Mtbase

/-- `uint32 BSwap16(uint16 n)`. The operands are promoted to `int`; every intermediate lies
below `2^16`, so the `int` arithmetic is that of `uint32`, the return type.
-/
def bSwap16 (n : UInt16) : UInt32 :=
  ((n.toUInt32 &&& 0x00FF) <<< 8) ||| ((n.toUInt32 &&& 0xFF00) >>> 8)

/-- `uint32 BSwap32(uint32 n)`. -/
def bSwap32 (n : UInt32) : UInt32 :=
  ((n &&& 0x000000FF) <<< 24) ||| ((n &&& 0x0000FF00) <<< 8) ||| ((n &&& 0x00FF0000) >>> 8)
    ||| ((n &&& 0xFF000000) >>> 24)

/-- `uint64 BSwap64(uint64 n)`: swap adjacent bytes, then adjacent 16-bit lanes, then the two
halves.
-/
def bSwap64 (n : UInt64) : UInt64 :=
  let n := ((n &&& 0xff00ff00ff00ff00) >>> 8) ||| ((n &&& 0x00ff00ff00ff00ff) <<< 8)
  let n := ((n &&& 0xffff0000ffff0000) >>> 16) ||| ((n &&& 0x0000ffff0000ffff) <<< 16)
  (n >>> 32) ||| (n <<< 32)

-----------------------------------------------------------------------------------------
-- Byte by byte
-----------------------------------------------------------------------------------------

/-- Byte `j` of `BSwap16(n)` is byte `1 - j` of `n`. Proof: each byte of the network is
computed from the byte lemmas of `Bytes`.
-/
theorem byteAt_bSwap16 (n : UInt16) {j : Nat} (small : j < 2)
    : byteAt (bSwap16 n).toNat j = byteAt n.toNat (1 - j) := by
  simp only [bSwap16, toNat_or32, toNat_shiftLeft32, toNat_shiftRight32, UInt32.and_toNat,
    toNat_toUInt32]
  interval_cases j <;>
    simp only [toNat_lit32, byteAt_or, byteAt_and, byteAt_shiftLeft, byteAt_shiftRight,
      byteAt_mod_two_pow, byteAt_ofNat, byteAt_and_255, Nat.and_zero, Nat.zero_or, Nat.or_zero,
      Nat.reduceDiv, Nat.reduceLT, reduceIte, Nat.reduceMod, Nat.reduceSub, Nat.reduceMul,
      Nat.reduceShiftRight, Nat.reduceAdd, Nat.reduceLeDiff, ite_self]

/-- Byte `j` of `BSwap32(n)` is byte `3 - j` of `n`. -/
theorem byteAt_bSwap32 (n : UInt32) {j : Nat} (small : j < 4)
    : byteAt (bSwap32 n).toNat j = byteAt n.toNat (3 - j) := by
  simp only [bSwap32, toNat_or32, toNat_shiftLeft32, toNat_shiftRight32, UInt32.and_toNat]
  interval_cases j <;>
    simp only [toNat_lit32, byteAt_or, byteAt_and, byteAt_shiftLeft, byteAt_shiftRight,
      byteAt_mod_two_pow, byteAt_ofNat, byteAt_and_255, Nat.and_zero, Nat.zero_or, Nat.or_zero,
      Nat.reduceDiv, Nat.reduceLT, reduceIte, Nat.reduceMod, Nat.reduceSub, Nat.reduceMul,
      Nat.reduceShiftRight, Nat.reduceAdd, Nat.reduceLeDiff, ite_self]

/-- Byte `j` of `BSwap64(n)` is byte `7 - j` of `n`: the three stages move byte `j` by
`j xor 1`, `j xor 2` and `j xor 4` in turn.
-/
theorem byteAt_bSwap64 (n : UInt64) {j : Nat} (small : j < 8)
    : byteAt (bSwap64 n).toNat j = byteAt n.toNat (7 - j) := by
  simp only [bSwap64, toNat_or64, toNat_shiftLeft64, toNat_shiftRight64, UInt64.and_toNat]
  interval_cases j <;>
    simp only [toNat_lit64, byteAt_or, byteAt_and, byteAt_shiftLeft, byteAt_shiftRight,
      byteAt_mod_two_pow, byteAt_ofNat, byteAt_and_255, Nat.and_zero, Nat.zero_or, Nat.or_zero,
      Nat.reduceDiv, Nat.reduceLT, reduceIte, Nat.reduceMod, Nat.reduceSub, Nat.reduceMul,
      Nat.reduceShiftRight, Nat.reduceAdd, Nat.reduceLeDiff, ite_self]

/-- `BSwap16` stays within 16 bits, although it returns a `uint32`. -/
theorem bSwap16_lt (n : UInt16) : (bSwap16 n).toNat < 2 ^ 16 := by
  simp only [bSwap16, toNat_or32, toNat_shiftLeft32, toNat_shiftRight32, UInt32.and_toNat,
    toNat_toUInt32, toNat_lit32, Nat.shiftLeft_eq, Nat.shiftRight_eq_div_pow, Nat.reduceMod,
    Nat.reducePow]
  have low : n.toNat &&& 255 ≤ 255 := Nat.and_le_right
  have high : n.toNat &&& 65280 ≤ 65280 := Nat.and_le_right
  exact Nat.or_lt_two_pow (n := 16) (by omega) (by omega)

-----------------------------------------------------------------------------------------
-- Byte reversal
-----------------------------------------------------------------------------------------

/-- The byte swaps are byte reversal: `BSwap16(n) < 2^16` with the two bytes of `n` in
reverse order, and the little-endian bytes of `BSwap32(n)` and `BSwap64(n)` are those of `n`
reversed. So each swap undoes itself, `BSwap16` once its result is cut back to 16 bits.
-/
theorem bSwap_reverses_bytes
    : (∀ n : UInt16, (bSwap16 n).toNat < 2 ^ 16
        ∧ bytesLE 2 (bSwap16 n).toNat = (bytesLE 2 n.toNat).reverse
        ∧ bSwap16 (bSwap16 n).toUInt16 = n.toUInt32)
      ∧ (∀ n : UInt32, bytesLE 4 (bSwap32 n).toNat = (bytesLE 4 n.toNat).reverse
        ∧ bSwap32 (bSwap32 n) = n)
      ∧ (∀ n : UInt64, bytesLE 8 (bSwap64 n).toNat = (bytesLE 8 n.toNat).reverse
        ∧ bSwap64 (bSwap64 n) = n) := by
  refine ⟨fun n => ⟨bSwap16_lt n, bytesLE_eq_reverse fun j => byteAt_bSwap16 n, ?_⟩,
    fun n => ⟨bytesLE_eq_reverse fun j => byteAt_bSwap32 n, ?_⟩,
    fun n => ⟨bytesLE_eq_reverse fun j => byteAt_bSwap64 n, ?_⟩⟩
  · have cut : (bSwap16 n).toUInt16.toNat = (bSwap16 n).toNat :=
      Nat.mod_eq_of_lt (bSwap16_lt n)
    exact UInt32.toNat.inj (eq_of_mirror_mirror (w := 2) n.toNat_lt_size (bSwap16_lt _)
      (fun j => byteAt_bSwap16 n) fun j small => by rw [byteAt_bSwap16 _ small, cut])
  · exact UInt32.toNat.inj (eq_of_mirror_mirror (w := 4) n.toNat_lt_size (UInt32.toNat_lt_size _)
      (fun j => byteAt_bSwap32 n) fun j => byteAt_bSwap32 _)
  · exact UInt64.toNat.inj (eq_of_mirror_mirror (w := 8) n.toNat_lt_size (UInt64.toNat_lt_size _)
      (fun j => byteAt_bSwap64 n) fun j => byteAt_bSwap64 _)

end MetabaseNet.Mtbase
