import MetabaseNet.Mtbase.Hex.ReverseNumeric
import MetabaseNet.Mtbase.Hex.UIntToHex

/-! `ReverseHexString` and `UIntToHexString` with every dereference checked. Each iterator
swap of `ReverseHexString` stays inside `strOut` and `itEnd -= 2` never passes `begin()`; each
store of `UIntToHexString` stays inside `char hex[sizeof(T) * 2 + 2 + 1]`, each `hexc` read
inside the table, and `std::string(hex)` finds the NUL inside the buffer. Both runs return what
the list models of `Reverse` and `UIntToHex` compute, for every input; for `UIntToHexString`
whatever the uninitialized buffer held.
-/

namespace MetabaseNet.Mtbase

-----------------------------------------------------------------------------------------
-- `ReverseHexString` over checked iterators
-----------------------------------------------------------------------------------------

/-- `std::iter_swap` of the characters at offsets `i` and `j`, each dereference checked. -/
def iterSwapAt (s : List Char) (i j : Nat) : Option (List Char) := do
  let x ← readAt s i
  let y ← readAt s j
  let s ← writeAt s i y
  writeAt s j x

/-- `std::swap_ranges(itBegin, itBegin + 2, itEnd)` at the offsets `b` and `e`. -/
def swapRanges2At (s : List Char) (b e : Nat) : Option (List Char) := do
  let s ← iterSwapAt s b e
  iterSwapAt s (b + 1) (e + 1)

/-- The loop of `ReverseHexString` over checked iterators: `itEnd -= 2` is checked against
`begin()`, so `none` marks a dereference outside `strOut` or an iterator before its start.
-/
def reverseHexLoopAt (strOut : List Char) (b e : Nat) : Option (List Char) :=
  if b < e then do
    let strOut ← swapRanges2At strOut b e
    let e2 ← sizeSub e 2
    reverseHexLoopAt strOut (b + 2) e2.val
  else pure strOut
termination_by e - b
decreasing_by
  all_goals
    have := e2.property
    omega

/-- `ReverseHexString(strIn)` over checked iterators. -/
def reverseHexStringAt (strIn : List Char) : Option (List Char) :=
  if strIn.length % 2 ≠ 0 ∨ ¬(strIn.length ≥ 2 ∧ HasHexPrefix strIn) then some []
  else reverseHexLoopAt strIn 2 (strIn.length - 2)

@[simp] theorem length_iterSwap (s : List Char) (i j : Nat)
    : (iterSwap s i j).length = s.length := by
  simp [iterSwap]

theorem iterSwapAt_of_lt {s : List Char} {i j : Nat} (hi : i < s.length) (hj : j < s.length)
    : iterSwapAt s i j = some (iterSwap s i j) := by
  simp [iterSwapAt, iterSwap, readAt, writeAt, hi, hj, List.getD_eq_getElem?_getD,
    List.getElem?_eq_getElem]

theorem swapRanges2At_of_lt {s : List Char} {b e : Nat} (before : b < e)
    (within : e + 1 < s.length) : swapRanges2At s b e = some (swapRanges2 s b e) := by
  rw [swapRanges2At, iterSwapAt_of_lt (by omega) (by omega), Option.bind_eq_bind, Option.some_bind,
    swapRanges2]
  exact iterSwapAt_of_lt (by simp; omega) (by simp; omega)

/-- From `b >= 2` with the pair at `e` inside `strOut`, the checked loop runs as the list
model: each swap reads and writes `b, b + 1, e, e + 1 < size`, and `e >= 3` before
`e -= 2`. By induction following the loop.
-/
theorem reverseHexLoopAt_eq {strOut : List Char} {b e : Nat} (start : 2 ≤ b)
    (within : e + 2 ≤ strOut.length)
    : reverseHexLoopAt strOut b e = some (reverseHexLoop strOut b e) := by
  induction strOut, b, e using reverseHexLoop.induct with
  | case1 strOut b e running ih =>
      rw [reverseHexLoopAt, if_pos running, reverseHexLoop, if_pos running,
        swapRanges2At_of_lt running (by omega), Option.bind_eq_bind, Option.some_bind]
      simp only [sizeSub, dif_pos (show 2 ≤ e by omega), Option.some_bind]
      exact ih (by omega) (by simp [swapRanges2]; omega)
  | case2 strOut b e stopped =>
      rw [reverseHexLoopAt, if_neg stopped, reverseHexLoop, if_neg stopped]
      rfl

/-- `ReverseHexString` never dereferences outside `strOut` and never moves `itEnd` before
`begin()`, for every input: the checked run returns, and returns the list model's string.
-/
theorem reverseHexString_swaps_within_string (strIn : List Char)
    : reverseHexStringAt strIn = some (reverseHexString strIn) := by
  unfold reverseHexStringAt reverseHexString
  split_ifs with rejected
  · rfl
  · have long : 2 ≤ strIn.length := (not_not.mp (not_or.mp rejected).2).1
    exact reverseHexLoopAt_eq (le_refl 2) (by omega)

-----------------------------------------------------------------------------------------
-- `UIntToHexString` over a checked buffer
-----------------------------------------------------------------------------------------

/-- The table `const char hexc[17] = "0123456789abcdef"`, with its NUL. -/
def hexcTable : List Char := "0123456789abcdef".toList ++ ['\x00']

/-- `strcpy(hex, "0x")`: `'0'`, `'x'` and the NUL stored at `hex[0..2]`. -/
def strcpyMarkerAt (hex : List Char) : Option (List Char) := do
  let hex ← writeAt hex 0 '0'
  let hex ← writeAt hex 1 'x'
  writeAt hex 2 '\x00'

/-- One pass of the loop of `UIntToHexString` at byte position `i`, with the reads of `hexc`
and the stores into `hex` checked.
-/
def uIntHexDigitPairAt (w t : Nat) (hex : List Char) (i : Nat) : Option (List Char) := do
  let byte := (t >>> ((w - i - 1) * 8)) &&& 0xFF
  let hex ← writeAt hex (2 + i * 2) (← readAt hexcTable (byte >>> 4))
  writeAt hex (2 + i * 2 + 1) (← readAt hexcTable (byte &&& 15))

/-- `std::string(hex)`: the characters before the first NUL, each read checked; `none` when
the scan leaves the buffer.
-/
def cStrAt : List Char → Option (List Char)
  | [] => none
  | c :: rest => if c = '\x00' then some [] else (c :: ·) <$> cStrAt rest

/-- `UIntToHexString(t)` over the buffer `hex`, whose initial contents are those of the
uninitialized `char hex[sizeof(T) * 2 + 2 + 1]`.
-/
def uIntToHexStringAt (w : Nat) (t : BitVec (8 * w)) (hex : List Char) : Option (List Char) := do
  let hex ← strcpyMarkerAt hex
  let hex ← (List.range w).foldlM (uIntHexDigitPairAt w t.toNat) hex
  let hex ← writeAt hex (2 + w * 2) '\x00'
  cStrAt hex

theorem readAt_hexcTable {d : Nat} (small : d < 16) : readAt hexcTable d = some (hexc d) := by
  have digits : "0123456789abcdef".toList.length = 16 := rfl
  rw [readAt, hexcTable, List.getElem?_append_left (by omega), hexc, List.getD_eq_getElem?_getD,
    List.getElem?_eq_getElem (by omega)]
  rfl

theorem cStrAt_append_nul {l : List Char} (noNul : ∀ c ∈ l, c ≠ '\x00')
    : cStrAt (l ++ ['\x00']) = some l := by
  induction l with
  | nil => rfl
  | cons c rest ih =>
      simp only [List.mem_cons, forall_eq_or_imp] at noNul
      simp [cStrAt, noNul.1, ih noNul.2]

theorem strcpyMarkerAt_eq {a b c : Char} {rest : List Char}
    : strcpyMarkerAt (a :: b :: c :: rest) = some ('0' :: 'x' :: '\x00' :: rest) := by
  simp [strcpyMarkerAt, writeAt]

/-- One checked pass at position `i` writes the digits of byte `w - 1 - i` over the pair just
past the digits already written.
-/
theorem uIntHexDigitPairAt_splice {w t i : Nat} {A : List Char} (written : A.length = i * 2)
    (a b : Char) (R : List Char)
    : uIntHexDigitPairAt w t ('0' :: 'x' :: (A ++ a :: b :: R)) i
      = some ('0' :: 'x' :: (A ++ hexByte (UInt8.ofNat (byteAt t (w - 1 - i))) ++ R)) := by
  obtain ⟨high, low⟩ := hexByte_nibbles_lt (UInt8.ofNat (byteAt t (w - 1 - i)))
  rw [UInt8.toNat_ofNat_of_lt (byteAt_lt t _)] at high low
  have inside : i * 2 + 1 + 1 + 1 < ('0' :: 'x' :: (A ++ a :: b :: R)).length := by simp; omega
  simp only [uIntHexDigitPairAt, shiftRight_and_eq_byteAt, readAt_hexcTable high,
    readAt_hexcTable low, Option.bind_eq_bind, Option.some_bind,
    show 2 + i * 2 = i * 2 + 1 + 1 by omega]
  rw [writeAt_of_lt (by omega), Option.some_bind,
    writeAt_of_lt (by rw [List.length_set]; exact inside), List.set_cons_succ, List.set_cons_succ,
    List.set_cons_succ, List.set_cons_succ, set_pair_splice written.symm, hexByte_ofNat_byteAt]
  simp

/-- After `k` checked passes over a buffer with the marker, the buffer holds the marker, the
digits of the first `k` big-endian bytes, and the buffer's own tail past them, untouched. By
induction on `k`.
-/
theorem foldlM_uIntHexDigitPairAt {w t k : Nat} (within : k ≤ w) {T : List Char}
    (size : T.length = w * 2 + 1)
    : (List.range k).foldlM (uIntHexDigitPairAt w t) ('0' :: 'x' :: T)
      = some ('0' :: 'x'
          :: (((List.range k).map fun i => UInt8.ofNat (byteAt t (w - 1 - i))).flatMap hexByte
            ++ T.drop (k * 2))) := by
  induction k with
  | zero => simp
  | succ k ih =>
      obtain ⟨a, b, R, split⟩ : ∃ a b R, T.drop (k * 2) = a :: b :: R := by
        match h : T.drop (k * 2) with
        | a :: b :: R => exact ⟨a, b, R, rfl⟩
        | [] | [_] => have := congrArg List.length h; simp at this; omega
      have rest : T.drop ((k + 1) * 2) = R := by
        rw [show (k + 1) * 2 = k * 2 + 2 by omega, ← List.drop_drop, split]
        rfl
      rw [List.range_succ, List.foldlM_append, ih (by omega), Option.bind_eq_bind, Option.some_bind,
        split, List.foldlM_cons, uIntHexDigitPairAt_splice
          (by rw [length_flatMap_hexByte, List.length_map, List.length_range, Nat.mul_comm]) a b R,
        Option.bind_eq_bind,
        Option.some_bind, List.foldlM_nil, rest]
      simp

/-- `UIntToHexString` stores only inside `char hex[sizeof(T) * 2 + 2 + 1]` and reads `hexc`
only inside the table, for every width and value; `std::string(hex)` stops at the final NUL,
inside the buffer; and whatever the uninitialized buffer held, the result is the string of
the list model.
-/
theorem uIntToHexString_stores_within_buffer (w : Nat) (t : BitVec (8 * w)) (hex : List Char)
    (size : hex.length = w * 2 + 2 + 1)
    : uIntToHexStringAt w t hex = some (uIntToHexString w t) := by
  obtain ⟨a, b, c, rest, rfl⟩ : ∃ a b c rest, hex = a :: b :: c :: rest := by
    match hex, size with
    | a :: b :: c :: rest, _ => exact ⟨a, b, c, rest, rfl⟩
  have tail : ('\x00' :: rest).length = w * 2 + 1 := by
    simp only [List.length_cons] at size ⊢
    omega
  obtain ⟨z, last⟩ := List.length_eq_one.mp
    (show (('\x00' :: rest).drop (w * 2)).length = 1 by rw [List.length_drop, tail]; omega)
  have digits
      : ((List.range w).map fun i => UInt8.ofNat (byteAt t.toNat (w - 1 - i))).flatMap hexByte
        = (bytesBE w t.toNat).flatMap hexByte := rfl
  have stored : ('0' :: 'x' :: ((bytesBE w t.toNat).flatMap hexByte ++ [z])).set (2 + w * 2) '\x00'
      = '0' :: 'x' :: ((bytesBE w t.toNat).flatMap hexByte ++ ['\x00']) := by
    rw [show 2 + w * 2 = w * 2 + 1 + 1 by omega, List.set_cons_succ, List.set_cons_succ,
      List.set_append_right _ _ (by rw [length_flatMap_hexByte, length_bytesBE]; omega),
      length_flatMap_hexByte, length_bytesBE, show w * 2 - 2 * w = 0 by omega]
    rfl
  simp only [uIntToHexStringAt, strcpyMarkerAt_eq, Option.some_bind, Option.bind_eq_bind,
    foldlM_uIntHexDigitPairAt (Nat.le_refl w) tail, last, digits]
  rw [writeAt_of_lt (by simp only [List.length_cons, List.length_append, length_flatMap_hexByte,
    length_bytesBE, List.length_singleton]; omega), Option.some_bind, stored, uIntToHexString_eq]
  exact cStrAt_append_nul (l := '0' :: 'x' :: _) (marker_ne_nul (flatMap_hexByte_ne_nul _))

/-- A `uint16` over a buffer of seven characters that all held `'z'`. -/
theorem uIntToHexString_stores_within_buffer_uint16
    : (List.replicate 7 'z').length = 2 * 2 + 2 + 1
      ∧ uIntToHexStringAt 2 0xabcd (List.replicate 7 'z') = some (uIntToHexString 2 0xabcd) :=
  ⟨rfl, uIntToHexString_stores_within_buffer 2 0xabcd (List.replicate 7 'z') rfl⟩

end MetabaseNet.Mtbase
