import Mathlib.Tactic.IntervalCases

/-! Bytes of a natural number, and the `uint32`/`uint64` operations of the source read as
operations on naturals. Every byte fact is proved bit by bit, so that a swap network or a
shifted mask is computed one byte at a time.
-/

namespace MetabaseNet.Mtbase

-----------------------------------------------------------------------------------------
-- Bytes of a natural
-----------------------------------------------------------------------------------------

/-- Byte `j` of `x`, counting from the least significant. -/
def byteAt (x j : Nat) : Nat := x >>> (8 * j) % 2 ^ 8

/-- The `w` bytes of `x`, least significant first. -/
def bytesLE (w x : Nat) : List Nat := (List.range w).map (byteAt x)

/-- The `w` bytes of `x`, most significant first, as `unsigned char`s. -/
def bytesBE (w x : Nat) : List UInt8 :=
  (List.range w).map fun i => UInt8.ofNat (byteAt x (w - 1 - i))

@[simp] theorem length_bytesBE (w x : Nat) : (bytesBE w x).length = w := by simp [bytesBE]

theorem testBit_byteAt (x j i : Nat)
    : (byteAt x j).testBit i = (decide (i < 8) && x.testBit (8 * j + i)) := by
  simp only [byteAt, Nat.testBit_mod_two_pow, Nat.testBit_shiftRight]

theorem byteAt_lt (x j : Nat) : byteAt x j < 256 := Nat.mod_lt _ (by norm_num)

theorem byteAt_or (x y j : Nat) : byteAt (x ||| y) j = byteAt x j ||| byteAt y j := by
  apply Nat.eq_of_testBit_eq
  intro i
  simp only [testBit_byteAt, Nat.testBit_or, Bool.and_or_distrib_left]

theorem byteAt_and (x y j : Nat) : byteAt (x &&& y) j = byteAt x j &&& byteAt y j := by
  apply Nat.eq_of_testBit_eq
  intro i
  simp only [testBit_byteAt, Nat.testBit_and]
  cases decide (i < 8) <;> simp

/-- A left shift by whole bytes moves every byte up. -/
theorem byteAt_shiftLeft (x : Nat) {s : Nat} (aligned : s % 8 = 0) (j : Nat)
    : byteAt (x <<< s) j = if s / 8 ≤ j then byteAt x (j - s / 8) else 0 := by
  apply Nat.eq_of_testBit_eq
  intro i
  split_ifs with up <;> simp only [testBit_byteAt, Nat.testBit_shiftLeft, Nat.zero_testBit]
  · by_cases small : i < 8
    · simp [small, show 8 * j + i ≥ s by omega,
        show 8 * j + i - s = 8 * (j - s / 8) + i by omega]
    · simp [small]
  · by_cases small : i < 8
    · simp [small, show ¬8 * j + i ≥ s by omega]
    · simp [small]

/-- A right shift by whole bytes moves every byte down. -/
theorem byteAt_shiftRight (x : Nat) {s : Nat} (aligned : s % 8 = 0) (j : Nat)
    : byteAt (x >>> s) j = byteAt x (j + s / 8) := by
  apply Nat.eq_of_testBit_eq
  intro i
  simp only [testBit_byteAt, Nat.testBit_shiftRight]
  congr 2
  omega

/-- Truncation to whole bytes keeps the low bytes and clears the others. -/
theorem byteAt_mod_two_pow (x : Nat) {m : Nat} (aligned : m % 8 = 0) (j : Nat)
    : byteAt (x % 2 ^ m) j = if j < m / 8 then byteAt x j else 0 := by
  apply Nat.eq_of_testBit_eq
  intro i
  split_ifs with low <;> simp only [testBit_byteAt, Nat.testBit_mod_two_pow, Nat.zero_testBit]
  · by_cases small : i < 8
    · simp [small, show 8 * j + i < m by omega]
    · simp [small]
  · by_cases small : i < 8
    · simp [small, show ¬8 * j + i < m by omega]
    · simp [small]

/-- A byte of a literal is computed. -/
theorem byteAt_ofNat (c j : Nat)
    : byteAt (no_index (OfNat.ofNat c)) j = (OfNat.ofNat c : Nat) >>> (8 * j) % 256 := rfl

theorem byteAt_and_255 (x j : Nat) : byteAt x j &&& 255 = byteAt x j := by
  rw [show (255 : Nat) = 2 ^ 8 - 1 from rfl, Nat.and_pow_two_sub_one_eq_mod]
  exact Nat.mod_eq_of_lt (byteAt_lt x j)

/-- Two values of `w` bytes with the same bytes are equal. -/
theorem eq_of_byteAt_eq {x y w : Nat} (hx : x < 2 ^ (8 * w)) (hy : y < 2 ^ (8 * w))
    (bytes : ∀ j < w, byteAt x j = byteAt y j) : x = y := by
  apply Nat.eq_of_testBit_eq
  intro i
  by_cases inside : i < 8 * w
  · have bit := congrArg (fun z => z.testBit (i % 8)) (bytes (i / 8) (by omega))
    simp only [testBit_byteAt, show i % 8 < 8 by omega, decide_True, Bool.true_and] at bit
    rwa [show 8 * (i / 8) + i % 8 = i by omega] at bit
  · have wide : 2 ^ (8 * w) ≤ 2 ^ i := Nat.pow_le_pow_right (by norm_num) (by omega)
    rw [Nat.testBit_lt_two_pow (by omega), Nat.testBit_lt_two_pow (by omega)]

/-- Mirroring the `w` bytes of a value twice gives the value back. -/
theorem eq_of_mirror_mirror {w x y z : Nat} (hx : x < 2 ^ (8 * w)) (hz : z < 2 ^ (8 * w))
    (first : ∀ j < w, byteAt y j = byteAt x (w - 1 - j))
    (second : ∀ j < w, byteAt z j = byteAt y (w - 1 - j)) : z = x :=
  eq_of_byteAt_eq hz hx fun j small => by
    rw [second j small, first _ (by omega), show w - 1 - (w - 1 - j) = j by omega]

@[simp] theorem length_bytesLE (w x : Nat) : (bytesLE w x).length = w := by simp [bytesLE]

/-- Byte lists in reverse order, from the bytes one by one. -/
theorem bytesLE_eq_reverse {w x y : Nat} (mirror : ∀ j < w, byteAt x j = byteAt y (w - 1 - j))
    : bytesLE w x = (bytesLE w y).reverse := by
  apply List.ext_getElem (by simp)
  intro j hj _
  simp only [length_bytesLE] at hj
  simp [bytesLE, List.getElem_reverse, mirror j hj]

theorem eq_of_bytesLE_eq {w x y : Nat} (hx : x < 2 ^ (8 * w)) (hy : y < 2 ^ (8 * w))
    (same : bytesLE w x = bytesLE w y) : x = y := by
  refine eq_of_byteAt_eq hx hy fun j hj => ?_
  have := congrArg (fun l => l[j]?) same
  simpa [bytesLE, hj] using this

-----------------------------------------------------------------------------------------
-- Machine words as naturals
-----------------------------------------------------------------------------------------

/-- A `uint8` literal, as a natural. -/
theorem toNat_lit8 (n : Nat)
    : (no_index (OfNat.ofNat n : UInt8)).toNat = (OfNat.ofNat n : Nat) % 256 := rfl

theorem eq_iff_toNat8 {a b : UInt8} : a = b ↔ a.toNat = b.toNat :=
  ⟨congrArg UInt8.toNat, UInt8.toNat.inj⟩

theorem eq_iff_toNat32 {a b : UInt32} : a = b ↔ a.toNat = b.toNat :=
  ⟨congrArg UInt32.toNat, UInt32.toNat.inj⟩

/-- The promotion of a `uint16` to 32 bits keeps its value. -/
theorem toNat_toUInt32 (n : UInt16) : n.toUInt32.toNat = n.toNat := rfl

theorem toNat_or32 (a b : UInt32) : (a ||| b).toNat = a.toNat ||| b.toNat := BitVec.toNat_or _ _

/-- `a << b` on `uint32`: the shift is taken modulo 32 and the result truncated. -/
theorem toNat_shiftLeft32 (a b : UInt32)
    : (a <<< b).toNat = a.toNat <<< (b.toNat % 32) % 2 ^ 32 := by
  show (a.toBitVec <<< (b % 32).toBitVec).toNat = _
  rw [BitVec.shiftLeft_eq', BitVec.toNat_shiftLeft]
  rfl

theorem toNat_shiftRight32 (a b : UInt32) : (a >>> b).toNat = a.toNat >>> (b.toNat % 32) := by
  show (a.toBitVec >>> (b % 32).toBitVec).toNat = _
  rw [BitVec.ushiftRight_eq', BitVec.toNat_ushiftRight]
  rfl

/-- A `uint32` literal, as a natural. -/
theorem toNat_lit32 (n : Nat)
    : (no_index (OfNat.ofNat n : UInt32)).toNat = (OfNat.ofNat n : Nat) % 4294967296 := rfl

theorem toNat_or64 (a b : UInt64) : (a ||| b).toNat = a.toNat ||| b.toNat := BitVec.toNat_or _ _

/-- `a << b` on `uint64`: the shift is taken modulo 64 and the result truncated. -/
theorem toNat_shiftLeft64 (a b : UInt64)
    : (a <<< b).toNat = a.toNat <<< (b.toNat % 64) % 2 ^ 64 := by
  show (a.toBitVec <<< (b % 64).toBitVec).toNat = _
  rw [BitVec.shiftLeft_eq', BitVec.toNat_shiftLeft]
  rfl

theorem toNat_shiftRight64 (a b : UInt64) : (a >>> b).toNat = a.toNat >>> (b.toNat % 64) := by
  show (a.toBitVec >>> (b % 64).toBitVec).toNat = _
  rw [BitVec.ushiftRight_eq', BitVec.toNat_ushiftRight]
  rfl

/-- A `uint64` literal, as a natural. -/
theorem toNat_lit64 (n : Nat)
    : (no_index (OfNat.ofNat n : UInt64)).toNat
      = (OfNat.ofNat n : Nat) % 18446744073709551616 := rfl

end MetabaseNet.Mtbase
