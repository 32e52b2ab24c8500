import MetabaseNet.Mtbase.Hex.Reverse

/-! `ReverseHexNumericString` with every string access and every `std::size_t` decrement
checked: on a hex-numeric string with the marker it never leaves range, `e` never wraps, and
the result is `ReverseHexString` of the string padded to an even digit count.
-/

namespace MetabaseNet.Mtbase

-----------------------------------------------------------------------------------------
-- `ReverseHexNumericString`, with every access checked
-----------------------------------------------------------------------------------------

/-- The characters of the class `[0-9a-fA-Fx-xX-X]` in the regex of `isHexNumeric`. -/
def IsHexNumericChar (c : Char) : Prop :=
  ('0' ≤ c ∧ c ≤ '9') ∨ ('a' ≤ c ∧ c ≤ 'f') ∨ ('A' ≤ c ∧ c ≤ 'F') ∨ c = 'x' ∨ c = 'X'

instance (c : Char) : Decidable (IsHexNumericChar c) :=
  inferInstanceAs (Decidable (_ ∨ _))

/-- `isHexNumeric`: nonempty, and `[^0-9a-fA-Fx-xX-X]+` finds no match. -/
def isHexNumeric (str : List Char) : Bool :=
  !str.isEmpty && str.all (fun c => decide (IsHexNumericChar c))

/-- The `std::size_t` difference `a - b`; `none` marks a wrap below zero. -/
def sizeSub (a b : Nat) : Option {r : Nat // r + b = a} :=
  if h : b ≤ a then some ⟨a - b, Nat.sub_add_cancel h⟩ else none

/-- The loop `while (e >= 2)` of `ReverseHexNumericString`: `strIn` is read backward from `e`
and `strOut` written forward from `b`, a pair per step; when `e - 1 < 2` the last digit gets
a `'0'` before it and the loop breaks. `none` marks an access out of range or a wrap of `e`.
-/
def reverseHexNumericLoop (strIn strOut : List Char) (b e : Nat) : Option (List Char) :=
  if 2 ≤ e then do
    let out ← writeAt strOut (b + 1) (← readAt strIn e)
    let e1 ← sizeSub e 1
    if e1.val < 2 then writeAt out b '0'
    else do
      let out ← writeAt out b (← readAt strIn e1.val)
      let e2 ← sizeSub e 2
      reverseHexNumericLoop strIn out (b + 2) e2.val
  else pure strOut
termination_by e
decreasing_by have := e2.property; omega

/-- `ReverseHexNumericString(strIn)`: empty unless `strIn` is hex-numeric and starts with the
marker; otherwise `strOut`, resized to the even length above `strIn.size()` and filled by the
loop from `b = 2`, `e = strIn.size() - 1`. `none` marks an access out of range or a wrap.
-/
def reverseHexNumericString (strIn : List Char) : Option (List Char) :=
  if !isHexNumeric strIn then some []
  else if ¬(strIn.length ≥ 2 ∧ HasHexPrefix strIn) then some []
  else do
    let strOut := List.replicate (strIn.length + strIn.length % 2) '\x00'
    let e ← sizeSub strIn.length 1
    let strOut ← writeAt strOut 0 '0'
    let strOut ← writeAt strOut 1 'x'
    reverseHexNumericLoop strIn strOut 2 e.val

/-- The spec's padding: one `'0'` right after the marker when the digit count is odd. -/
def padHexDigits (s : List Char) : List Char :=
  if (s.length - 2) % 2 = 1 then s.take 2 ++ '0' :: s.drop 2 else s

/-- A digit string padded on the left to an even length. -/
def padLeft (d : List Char) : List Char := if d.length % 2 = 1 then '0' :: d else d

theorem sizeSub_of_le {a b : Nat} (le : b ≤ a) : (sizeSub a b).map Subtype.val = some (a - b) := by
  simp [sizeSub, le]

theorem reverseHexNumericLoop_done {strIn strOut : List Char} {b e : Nat} (low : e < 2)
    : reverseHexNumericLoop strIn strOut b e = some strOut := by
  rw [reverseHexNumericLoop, if_neg (by omega)]
  rfl

/-- At `e = 2` the loop writes the last digit and a `'0'` before it, then breaks. -/
theorem reverseHexNumericLoop_two {strIn strOut : List Char} {b : Nat}
    (reads : 2 < strIn.length) (writes : b + 1 < strOut.length)
    : reverseHexNumericLoop strIn strOut b 2
      = some ((strOut.set (b + 1) (strIn.getD 2 '\x00')).set b '0') := by
  rw [reverseHexNumericLoop, if_pos (le_refl 2)]
  simp [readAt, writeAt, sizeSub, List.getElem?_eq_getElem reads, writes, Nat.lt_of_succ_lt writes]

/-- Above `e = 2` the loop writes the pair `strIn[e - 1], strIn[e]` and moves on by two. -/
theorem reverseHexNumericLoop_step {strIn strOut : List Char} {b e : Nat} (three : 3 ≤ e)
    (reads : e < strIn.length) (writes : b + 1 < strOut.length)
    : reverseHexNumericLoop strIn strOut b e
      = reverseHexNumericLoop strIn
          ((strOut.set (b + 1) (strIn.getD e '\x00')).set b (strIn.getD (e - 1) '\x00'))
          (b + 2) (e - 2) := by
  rw [reverseHexNumericLoop, if_pos (by omega)]
  simp [readAt, writeAt, sizeSub, List.getElem?_eq_getElem reads,
    List.getElem?_eq_getElem (show e - 1 < strIn.length by omega), writes,
    Nat.lt_of_succ_lt writes, show 1 ≤ e by omega, show 2 ≤ e by omega, show ¬e - 1 < 2 by omega]


-----------------------------------------------------------------------------------------
-- The backward copy loop
-----------------------------------------------------------------------------------------

/-- Writing positions `b + 1`, then `b`, replaces the pair at `b`. -/
theorem set_set_pair {l : List Char} {b : Nat} (x y : Char) (inside : b + 1 < l.length)
    : (l.set (b + 1) y).set b x = l.take b ++ x :: y :: l.drop (b + 2) := by
  induction b generalizing l with
  | zero => match l, inside with | _ :: _ :: _, _ => rfl
  | succ b ih =>
      match l, inside with
      | _ :: rest, inside => simp [ih (show b + 1 < rest.length by simp at inside; omega)]

theorem take_pair_splice {l : List Char} {b : Nat} (x y : Char) (inside : b ≤ l.length)
    : (l.take b ++ x :: y :: l.drop (b + 2)).take (b + 2) = l.take b ++ [x, y] := by
  rw [List.take_append_eq_append_take, List.take_of_length_le (by simp)]
  simp [Nat.min_eq_left inside, show b + 2 - b = 2 by omega]

theorem drop_pair_splice {l : List Char} {b : Nat} (x y : Char) (inside : b ≤ l.length)
    (k : Nat) : (l.take b ++ x :: y :: l.drop (b + 2)).drop (b + 2 + k) = l.drop (b + 2 + k) := by
  rw [List.drop_append_eq_append_drop, List.drop_eq_nil_of_le (by simp; omega),
    List.length_take, Nat.min_eq_left inside, show b + 2 + k - b = k + 2 by omega,
    List.nil_append, List.drop_succ_cons, List.drop_succ_cons, List.drop_drop, Nat.add_comm]

@[simp] theorem length_padLeft (d : List Char) : (padLeft d).length = d.length + d.length % 2 := by
  unfold padLeft
  split_ifs <;> simp_all

theorem padLeft_even (d : List Char) : (padLeft d).length % 2 = 0 := by
  simp only [length_padLeft]
  omega

theorem padLeft_of_even {d : List Char} (even : d.length % 2 = 0) : padLeft d = d := by
  simp [padLeft, even]

theorem padLeft_singleton (c : Char) : padLeft [c] = ['0', c] := rfl

theorem padLeft_append_pair (x : List Char) (a b : Char)
    : padLeft (x ++ [a, b]) = padLeft x ++ [a, b] := by
  unfold padLeft
  split_ifs <;> simp_all

/-- Two more characters of `strIn` extend the digits `strIn[2..e]` by a pair. -/
theorem digits_succ_pair {s : List Char} {e : Nat} (three : 3 ≤ e) (reads : e < s.length)
    : (s.take (e + 1)).drop 2
      = (s.take (e - 1)).drop 2 ++ [s.getD (e - 1) '\x00', s.getD e '\x00'] := by
  have grow : s.take (e + 1) = s.take (e - 1) ++ [s.getD (e - 1) '\x00', s.getD e '\x00'] := by
    obtain ⟨m, rfl⟩ : ∃ m, e = m + 1 := ⟨e - 1, by omega⟩
    rw [List.take_succ, List.take_succ, List.getElem?_eq_getElem (show m < s.length by omega),
      List.getElem?_eq_getElem reads, Nat.add_sub_cancel]
    simp only [List.getD_eq_getElem?_getD, List.getElem?_eq_getElem (show m < s.length by omega),
      List.getElem?_eq_getElem reads, Option.getD_some, Option.toList_some, List.append_assoc,
      List.singleton_append]
  rw [grow, List.drop_append_of_le_length (by simp; omega)]

theorem digits_two {s : List Char} (reads : 2 < s.length)
    : (s.take (2 + 1)).drop 2 = [s.getD 2 '\x00'] := by
  rw [List.take_succ, List.drop_append_of_le_length (by simp; omega),
    List.getElem?_eq_getElem reads]
  simp [List.getElem?_eq_getElem reads]

/-- From `(b, e)` the loop writes the digits `strIn[2..e]`, padded on the left to an even
count and group-reversed, over `strOut[b..]`, reading and writing only in range, with no wrap
of `e`. Proof: strong induction on `e`, a pair per step and the padded exit at `e = 2`.
-/
theorem reverseHexNumericLoop_eq {strIn : List Char} {e : Nat} (reads : e < strIn.length)
    (out : List Char) (b : Nat)
    (room : b + (padLeft ((strIn.take (e + 1)).drop 2)).length ≤ out.length)
    : reverseHexNumericLoop strIn out b e
      = some (out.take b ++ reverseHexGroups (padLeft ((strIn.take (e + 1)).drop 2))
          ++ out.drop (b + (padLeft ((strIn.take (e + 1)).drop 2)).length)) := by
  induction e using Nat.strong_induction_on generalizing b out with
  | _ e ih =>
    rcases (show e < 2 ∨ e = 2 ∨ 3 ≤ e by omega) with low | rfl | three
    · have empty : (strIn.take (e + 1)).drop 2 = [] :=
        List.drop_eq_nil_of_le (by rw [List.length_take]; omega)
      simp [reverseHexNumericLoop_done low, empty, padLeft]
    · rw [digits_two reads, padLeft_singleton] at room ⊢
      simp only [List.length_cons, List.length_nil] at room
      rw [reverseHexNumericLoop_two reads (by omega), set_set_pair _ _ (by omega)]
      simp [reverseHexGroups, hexGroups]
    · rw [digits_succ_pair three reads, padLeft_append_pair] at room ⊢
      simp only [List.length_append, List.length_cons, List.length_nil] at room
      have inner : e - 2 + 1 = e - 1 := by omega
      have spliced := ih (e - 2) (by omega) (by omega)
        (out.take b ++ strIn.getD (e - 1) '\x00' :: strIn.getD e '\x00' :: out.drop (b + 2))
        (b + 2) (by simp only [inner, List.length_append, List.length_take, List.length_cons,
          List.length_drop]; omega)
      rw [inner, take_pair_splice _ _ (by omega), drop_pair_splice _ _ (by omega)] at spliced
      rw [reverseHexNumericLoop_step three reads (by omega), set_set_pair _ _ (by omega),
        spliced, reverseHexGroups_append_pair (padLeft_even _)]
      simp only [List.append_assoc, List.cons_append, List.singleton_append, List.length_append,
        List.length_cons, List.length_nil, List.nil_append, Nat.zero_add, Nat.reduceAdd,
        Nat.add_assoc, Nat.add_comm 2]

-----------------------------------------------------------------------------------------
-- The whole function against `ReverseHexString`
-----------------------------------------------------------------------------------------

theorem isHexNumeric_iff (str : List Char)
    : isHexNumeric str = true ↔ str ≠ [] ∧ ∀ c ∈ str, IsHexNumericChar c := by
  simp [isHexNumeric, List.isEmpty_iff]

theorem mem_of_mem_reverseHexGroups {c : Char} {l : List Char} (member : c ∈ reverseHexGroups l)
    : c ∈ l := by
  obtain ⟨g, group, inside⟩ := List.mem_flatten.mp member
  rw [← flatten_hexGroups l]
  exact List.mem_flatten.mpr ⟨g, List.mem_reverse.mp group, inside⟩

/-- On a hex-numeric string with the marker, the function returns the marker `0x` and the
digits, padded on the left to an even count, group-reversed; every access stays in range.
-/
theorem reverseHexNumericString_eq {s : List Char} (numeric : isHexNumeric s = true)
    (marker : StartsWithHexMarker s)
    : reverseHexNumericString s = some ('0' :: 'x' :: reverseHexGroups (padLeft (s.drop 2))) := by
  have long := marker.two_le
  have test : s.length ≥ 2 ∧ HasHexPrefix s := ⟨long, (hasHexPrefix_iff s).mpr marker⟩
  obtain ⟨k, size⟩ : ∃ k, s.length + s.length % 2 = k + 2 := ⟨s.length + s.length % 2 - 2, by omega⟩
  have whole : s.take (s.length - 1 + 1) = s := List.take_of_length_le (by omega)
  have room : 2 + (padLeft ((s.take (s.length - 1 + 1)).drop 2)).length
      ≤ ('0' :: 'x' :: List.replicate k '\x00').length := by
    simp only [whole, length_padLeft, List.length_drop, List.length_cons, List.length_replicate]
    omega
  rw [reverseHexNumericString, if_neg (by simp [numeric]), if_neg (by simp [test])]
  simp only [size, sizeSub, show 1 ≤ s.length by omega, dif_pos, writeAt, List.length_replicate,
    List.replicate_succ, List.length_cons, Option.some_bind, Option.bind_eq_bind,
    show 0 < k + 1 + 1 by omega, if_true, List.set_cons_zero, List.set_cons_succ]
  rw [if_pos (by omega), Option.some_bind, reverseHexNumericLoop_eq (by omega) _ 2 room, whole]
  have fill : 2 + (padLeft (s.drop 2)).length = k + 2 := by
    simp only [length_padLeft, List.length_drop]
    omega
  rw [fill]
  simp

theorem padHexDigits_drop {s : List Char} (long : 2 ≤ s.length)
    : (padHexDigits s).drop 2 = padLeft (s.drop 2) := by
  unfold padHexDigits padLeft
  split_ifs with odd odd' odd' <;> simp_all

theorem padHexDigits_take (s : List Char) : (padHexDigits s).take 2 = s.take 2 := by
  unfold padHexDigits
  split_ifs
  · rw [List.take_append_of_le_length (by simp; omega), List.take_take, Nat.min_self]
  · rfl

/-- Padding keeps the marker. -/
theorem StartsWithHexMarker.padHexDigits {s : List Char} (marker : StartsWithHexMarker s)
    : StartsWithHexMarker (padHexDigits s) := by
  unfold StartsWithHexMarker
  rwa [padHexDigits_take]

theorem padHexDigits_even {s : List Char} (long : 2 ≤ s.length)
    : (padHexDigits s).length % 2 = 0 := by
  rw [← List.take_append_drop 2 (padHexDigits s), List.length_append, padHexDigits_take,
    padHexDigits_drop long, List.length_take]
  have := padLeft_even (s.drop 2)
  omega

/-- The result of `ReverseHexNumericString` is hex-numeric again: the marker and the digits of
the input, with at most a padding `'0'`.
-/
theorem isHexNumeric_reverseHexGroups {s : List Char} (numeric : isHexNumeric s = true)
    : isHexNumeric ('0' :: 'x' :: reverseHexGroups (padLeft (s.drop 2))) = true := by
  rw [isHexNumeric_iff] at numeric ⊢
  refine ⟨List.cons_ne_nil _ _, ?_⟩
  simp only [List.mem_cons]
  rintro c (rfl | rfl | member)
  · decide
  · decide
  · have := mem_of_mem_reverseHexGroups member
    unfold padLeft at this
    split_ifs at this
    · rcases List.mem_cons.mp this with rfl | inner
      · decide
      · exact numeric.2 c (List.mem_of_mem_drop inner)
    · exact numeric.2 c (List.mem_of_mem_drop this)

/-- `ReverseHexNumericString` is `ReverseHexString` of the string padded to an even digit
count, behind a lowercase marker; it reads and writes `strIn` and `strOut` only in range,
never wraps `e`, and terminates. Applied twice it gives back the padded digits.
-/
theorem reverseHexNumericString_pairs_from_right (s : List Char)
    (numeric : isHexNumeric s = true) (marker : StartsWithHexMarker s)
    : reverseHexNumericString s = some ('0' :: 'x' :: (reverseHexString (padHexDigits s)).drop 2)
      ∧ (reverseHexNumericString s).bind reverseHexNumericString
        = some ('0' :: 'x' :: (padHexDigits s).drop 2) := by
  have long := marker.two_le
  have padded := marker.padHexDigits
  rw [reverseHexString_eq (padHexDigits_even long) padded,
    List.drop_left' (by simp; have := padded.two_le; omega), padHexDigits_drop long,
    reverseHexNumericString_eq numeric marker]
  refine ⟨rfl, ?_⟩
  rw [Option.some_bind,
    reverseHexNumericString_eq (isHexNumeric_reverseHexGroups numeric) (.inl rfl)]
  simp only [List.drop_succ_cons, List.drop_zero]
  rw [padLeft_of_even (by rw [length_reverseHexGroups]; exact padLeft_even _),
    reverseHexGroups_reverseHexGroups (padLeft_even _)]

/-- The odd-length example of the source's comment: `0x123` becomes `0x2301`. -/
theorem reverseHexNumericString_pairs_from_right_0x123
    : isHexNumeric ['0', 'x', '1', '2', '3'] = true
      ∧ StartsWithHexMarker ['0', 'x', '1', '2', '3']
      ∧ reverseHexNumericString ['0', 'x', '1', '2', '3']
        = some ('0' :: 'x' :: (reverseHexString (padHexDigits ['0', 'x', '1', '2', '3'])).drop 2)
      ∧ (reverseHexNumericString ['0', 'x', '1', '2', '3']).bind reverseHexNumericString
        = some ('0' :: 'x' :: (padHexDigits ['0', 'x', '1', '2', '3']).drop 2) :=
  ⟨by decide, by decide,
    reverseHexNumericString_pairs_from_right _ (by decide) (by decide)⟩

end MetabaseNet.Mtbase
