import Mathlib.Tactic.IntervalCases

/-! Hex digits of `mtbase/util.h`: the digit table of the encoders, `CharToHex` of the
decoders, and the two-digit steps both sides are built from.
-/

namespace MetabaseNet.Mtbase

-----------------------------------------------------------------------------------------
-- The digit table and `CharToHex`
-----------------------------------------------------------------------------------------

/-- The table `hexc` of `ToHexString` and `UIntToHexString`, indexed by a nibble.
Index 16 is the NUL that ends the C literal `"0123456789abcdef"`.
-/
def hexc (d : Nat) : Char := "0123456789abcdef".toList.getD d '\x00'

/-- `CharToHex`: the value of a hex digit of either case. The source's `-1` is `none`. -/
def charToHex (c : Char) : Option Nat :=
  if '0' ≤ c ∧ c ≤ '9' then some (c.toNat - '0'.toNat)
  else if 'a' ≤ c ∧ c ≤ 'f' then some (c.toNat - 'a'.toNat + 10)
  else if 'A' ≤ c ∧ c ≤ 'F' then some (c.toNat - 'A'.toNat + 10)
  else none

/-- The lowercase digits `0-9a-f`, the alphabet the encoders write. -/
def IsLowerHexDigit (c : Char) : Prop := ('0' ≤ c ∧ c ≤ '9') ∨ ('a' ≤ c ∧ c ≤ 'f')

instance (c : Char) : Decidable (IsLowerHexDigit c) :=
  inferInstanceAs (Decidable (_ ∨ _))

/-- Every table entry reads back as its own index. -/
theorem charToHex_hexc {d : Nat} (small : d < 16) : charToHex (hexc d) = some d := by
  interval_cases d <;> decide

/-- Table entries are lowercase digits, so in particular never the NUL terminator. -/
theorem hexc_isLowerHexDigit {d : Nat} (small : d < 16) : IsLowerHexDigit (hexc d) := by
  interval_cases d <;> decide

theorem hexc_ne_nul {d : Nat} (small : d < 16) : hexc d ≠ '\x00' := by
  interval_cases d <;> decide

/-- Characters compare by code point. -/
theorem char_le_iff {a b : Char} : a ≤ b ↔ a.toNat ≤ b.toNat := Iff.rfl

/-- A lowercase digit is the table entry of its own value. -/
theorem hexc_of_isLowerHexDigit {c : Char} (digit : IsLowerHexDigit c)
    : ∃ d < 16, charToHex c = some d ∧ hexc d = c := by
  have bound : 48 ≤ c.toNat ∧ c.toNat ≤ 102 := by
    simp only [IsLowerHexDigit, char_le_iff] at digit
    simp at digit
    omega
  rw [← Char.ofNat_toNat c] at digit ⊢
  obtain ⟨lo, hi⟩ := bound
  generalize c.toNat = n at *
  interval_cases n <;> revert digit <;> decide

/-- `CharToHex` returns a nibble. -/
theorem charToHex_lt {c : Char} {d : Nat} (found : charToHex c = some d) : d < 16 := by
  unfold charToHex at found
  simp only [char_le_iff] at found
  split_ifs at found <;> cases found <;> simp at * <;> omega

/-- The terminator is not a digit: the loops stop on it. -/
@[simp] theorem charToHex_nul : charToHex '\x00' = none := by decide

-----------------------------------------------------------------------------------------
-- Buffers written in place
-----------------------------------------------------------------------------------------

/-- Writing entry `j` and cutting just after it keeps the prefix and appends the entry. -/
theorem take_set_succ {α : Type} {l : List α} {j : Nat} (a : α) (inside : j < l.length)
    : (l.set j a).take (j + 1) = l.take j ++ [a] := by
  rw [List.take_succ, List.set_take, List.set_eq_of_length_le (by simp),
    List.getElem?_set_self inside]
  rfl

/-- `s[i]`, read through a pointer or an index; `none` marks an index past the memory. -/
def readAt {α : Type} (s : List α) (i : Nat) : Option α := s[i]?

/-- `s[i] = c`; `none` marks an index past the memory. -/
def writeAt {α : Type} (s : List α) (i : Nat) (c : α) : Option (List α) :=
  if i < s.length then some (s.set i c) else none

theorem writeAt_of_lt {α : Type} {s : List α} {i : Nat} (inside : i < s.length) (c : α)
    : writeAt s i c = some (s.set i c) := if_pos inside

theorem lt_of_readAt {α : Type} {s : List α} {i : Nat} {a : α} (found : readAt s i = some a)
    : i < s.length :=
  (List.getElem?_eq_some_iff.mp found).1

/-- A pointer at offset `i` reads the head of the memory from `i`, and `p + 1` sees its tail. -/
theorem readAt_of_drop {α : Type} {s : List α} {i : Nat} {a : α} {rest : List α}
    (dropped : s.drop i = a :: rest) : readAt s i = some a ∧ s.drop (i + 1) = rest := by
  have head := List.getElem?_drop s i 0
  rw [dropped, Nat.add_zero, List.getElem?_cons_zero] at head
  exact ⟨head.symm, by rw [← List.drop_drop, dropped]; rfl⟩

-----------------------------------------------------------------------------------------
-- One byte as two digits
-----------------------------------------------------------------------------------------

/-- The two digits `hexc[c >> 4]`, `hexc[c & 15]` written for the byte `c`. -/
def hexByte (c : UInt8) : List Char := [hexc (c.toNat >>> 4), hexc (c.toNat &&& 15)]

/-- One iteration of the decoding loops: the digits read by the two `*psz++`, combined as
`(unsigned char)((h << 4) | l)`, or `none` where the loop breaks on `h < 0 || l < 0`.
-/
def decodePair (c d : Char) : Option UInt8 := do
  let h ← charToHex c
  let l ← charToHex d
  pure (UInt8.ofNat ((h <<< 4) ||| l))

@[simp] theorem decodePair_nul (c : Char) : decodePair c '\x00' = none := by
  simp [decodePair]

@[simp] theorem decodePair_nul_left (d : Char) : decodePair '\x00' d = none := by
  simp [decodePair]

/-- `(h << 4) | l` is `16 * h + l` for a nibble `l`. -/
theorem shiftLeft_four_or {h l : Nat} (small : l < 16) : (h <<< 4) ||| l = 16 * h + l := by
  rw [Nat.shiftLeft_eq, Nat.mul_comm, ← Nat.mul_add_lt_is_or (i := 4) small]

/-- A byte is its high nibble times sixteen plus its low nibble. -/
theorem byte_halves (n : Nat) : 16 * (n >>> 4) + (n &&& 15) = n := by
  have low : n &&& 15 = n % 16 := Nat.and_pow_two_sub_one_eq_mod n 4
  rw [low, Nat.shiftRight_eq_div_pow]
  omega

theorem hexByte_nibbles_lt (c : UInt8) : c.toNat >>> 4 < 16 ∧ c.toNat &&& 15 < 16 := by
  have := c.toNat_lt_size
  have low : c.toNat &&& 15 = c.toNat % 16 := Nat.and_pow_two_sub_one_eq_mod _ 4
  rw [low, Nat.shiftRight_eq_div_pow]
  simp only [UInt8.size] at this
  omega

/-- The two digits written for a byte read back as that byte. -/
theorem decodePair_hexByte (c : UInt8)
    : decodePair (hexc (c.toNat >>> 4)) (hexc (c.toNat &&& 15)) = some c := by
  obtain ⟨high, low⟩ := hexByte_nibbles_lt c
  simp only [decodePair, charToHex_hexc high, charToHex_hexc low, Option.bind_eq_bind,
    Option.some_bind, shiftLeft_four_or low, byte_halves]
  exact congrArg some (UInt8.toNat.inj (UInt8.toNat_ofNat_of_lt c.toNat_lt_size))

/-- Decoding two digits and writing the byte again gives the same two digits, for
lowercase digits.
-/
theorem hexByte_of_decodePair {c d : Char} {b : UInt8} (decoded : decodePair c d = some b)
    (lowerC : IsLowerHexDigit c) (lowerD : IsLowerHexDigit d) : hexByte b = [c, d] := by
  obtain ⟨h, hl, hc, rfl⟩ := hexc_of_isLowerHexDigit lowerC
  obtain ⟨l, ll, hd, rfl⟩ := hexc_of_isLowerHexDigit lowerD
  simp only [decodePair, hc, hd, Option.bind_eq_bind, Option.some_bind, shiftLeft_four_or ll,
    Option.pure_def, Option.some.injEq] at decoded
  subst decoded
  have value : (UInt8.ofNat (16 * h + l)).toNat = 16 * h + l :=
    UInt8.toNat_ofNat_of_lt (by simp only [UInt8.size]; omega)
  have high : (16 * h + l) >>> 4 = h := by rw [Nat.shiftRight_eq_div_pow]; omega
  have low : (16 * h + l) &&& 15 = l := by
    rw [show (15 : Nat) = 2 ^ 4 - 1 from rfl, Nat.and_pow_two_sub_one_eq_mod]; omega
  simp only [hexByte, value, high, low]

end MetabaseNet.Mtbase
