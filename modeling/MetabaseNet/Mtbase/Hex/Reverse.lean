import MetabaseNet.Mtbase.Hex.Encode
import MetabaseNet.Mtbase.Hex.Decode

/-! `ReverseHexString`: the byte order of a `0x` hex string reversed two digits at a time by a
two-pointer swap loop. Each pass swaps the outer pairs of a window, so the loop reverses the
groups of two characters after the marker.
-/

namespace MetabaseNet.Mtbase

-----------------------------------------------------------------------------------------
-- Two-character groups
-----------------------------------------------------------------------------------------

/-- The groups of a string in reverse order, each group kept as it is. -/
def reverseHexGroups (l : List Char) : List Char := (hexGroups l).reverse.flatten

@[simp] theorem reverseHexGroups_nil : reverseHexGroups [] = [] := rfl

@[simp] theorem flatten_hexGroups (l : List Char) : (hexGroups l).flatten = l := by
  induction l using hexGroups.induct <;> simp_all [hexGroups]

/-- Grouping splits at an even boundary. -/
theorem hexGroups_append {x : List Char} (even : x.length % 2 = 0) (y : List Char)
    : hexGroups (x ++ y) = hexGroups x ++ hexGroups y := by
  induction x using hexGroups.induct with
  | case1 => rfl
  | case2 c => simp at even
  | case3 c d rest ih =>
      simp only [List.length_cons] at even
      simp [hexGroups, ih (by omega)]

/-- Flattening groups of two and grouping again gives the groups back. -/
theorem hexGroups_flatten {groups : List (List Char)} (pairs : ∀ g ∈ groups, g.length = 2)
    : hexGroups groups.flatten = groups := by
  induction groups with
  | nil => rfl
  | cons g rest ih =>
      simp only [List.mem_cons, forall_eq_or_imp] at pairs
      match g, pairs.1 with
      | [c, d], _ => simp [hexGroups, ih pairs.2]

theorem hexGroups_pairs {l : List Char} (even : l.length % 2 = 0)
    : ∀ g ∈ hexGroups l, g.length = 2 := by
  induction l using hexGroups.induct with
  | case1 => simp [hexGroups]
  | case2 c => simp at even
  | case3 c d rest ih =>
      simp only [List.length_cons] at even
      simpa [hexGroups] using ih (by omega)

@[simp] theorem length_reverseHexGroups (l : List Char)
    : (reverseHexGroups l).length = l.length := by
  have total := congrArg List.length (flatten_hexGroups l)
  rw [List.length_flatten] at total
  simp [reverseHexGroups, List.length_flatten, List.sum_reverse, total]

/-- Reversing the groups twice is the identity on an even-length string. -/
theorem reverseHexGroups_reverseHexGroups {l : List Char} (even : l.length % 2 = 0)
    : reverseHexGroups (reverseHexGroups l) = l := by
  rw [reverseHexGroups, reverseHexGroups,
    hexGroups_flatten (fun g member => hexGroups_pairs even g (List.mem_reverse.mp member))]
  simp

/-- A last pair ends up first. -/
theorem reverseHexGroups_append_pair {x : List Char} (even : x.length % 2 = 0) (a b : Char)
    : reverseHexGroups (x ++ [a, b]) = a :: b :: reverseHexGroups x := by
  simp [reverseHexGroups, hexGroups_append even, hexGroups]

/-- A list of two characters or more ends in a pair. -/
theorem exists_eq_append_pair {l : List Char} (long : 2 ≤ l.length)
    : ∃ M c1 c2, l = M ++ [c1, c2] := by
  have backward : 2 ≤ l.reverse.length := by simpa using long
  match h : l.reverse, backward with
  | c2 :: c1 :: R, _ => exact ⟨R.reverse, c1, c2, by rw [← List.reverse_reverse l, h]; simp⟩

/-- A first pair ends up last. -/
theorem reverseHexGroups_cons_pair (a b : Char) (rest : List Char)
    : reverseHexGroups (a :: b :: rest) = reverseHexGroups rest ++ [a, b] := by
  simp [reverseHexGroups, hexGroups]

-----------------------------------------------------------------------------------------
-- `ReverseHexString`
-----------------------------------------------------------------------------------------

/-- `std::iter_swap` of the characters at `i` and `j`. -/
def iterSwap (s : List Char) (i j : Nat) : List Char :=
  (s.set i (s.getD j '\x00')).set j (s.getD i '\x00')

/-- `std::swap_ranges(itBegin, itBegin + 2, itEnd)` at the offsets `b` and `e`. -/
def swapRanges2 (s : List Char) (b e : Nat) : List Char :=
  iterSwap (iterSwap s b e) (b + 1) (e + 1)

/-- The loop of `ReverseHexString` over the iterator offsets `b` and `e`: while
`itBegin < itEnd`, swap the pairs, then `itBegin += 2, itEnd -= 2`.
-/
def reverseHexLoop (strOut : List Char) (b e : Nat) : List Char :=
  if b < e then reverseHexLoop (swapRanges2 strOut b e) (b + 2) (e - 2) else strOut
termination_by e - b

/-- `ReverseHexString(strIn)`: empty unless the length is even and `strIn` starts with the
marker; otherwise the copy `strOut` after the loop from `begin() + 2` and `end() - 2`.
-/
def reverseHexString (strIn : List Char) : List Char :=
  if strIn.length % 2 ≠ 0 ∨ ¬(strIn.length ≥ 2 ∧ HasHexPrefix strIn) then []
  else reverseHexLoop strIn 2 (strIn.length - 2)

theorem getD_append_cons (A B : List Char) (x d : Char)
    : (A ++ x :: B).getD A.length d = x := by
  induction A with
  | nil => rfl
  | cons a rest ih => exact ih

theorem set_append_cons (A B : List Char) (x y : Char)
    : (A ++ x :: B).set A.length y = A ++ y :: B := by
  induction A with
  | nil => rfl
  | cons a rest ih => simp [ih]

/-- Swapping the characters at the positions of `x` and `y`. -/
theorem iterSwap_middle (A B C : List Char) (x y : Char)
    : iterSwap (A ++ x :: (B ++ y :: C)) A.length (A.length + 1 + B.length)
      = A ++ y :: (B ++ x :: C) := by
  have split : ∀ z : Char, A ++ z :: (B ++ y :: C) = (A ++ z :: B) ++ y :: C := fun z => by simp
  have atY : ∀ z : Char, A.length + 1 + B.length = (A ++ z :: B).length := fun z => by simp; omega
  have readY : (A ++ x :: (B ++ y :: C)).getD (A.length + 1 + B.length) '\x00' = y := by
    rw [split x, atY x, getD_append_cons]
  rw [iterSwap, readY, getD_append_cons, set_append_cons, split y, atY y, set_append_cons]
  simp

/-- One pass of the loop swaps the first and the last pair of the window. -/
theorem swapRanges2_window (A M S : List Char) (a1 a2 c1 c2 : Char)
    : swapRanges2 (A ++ a1 :: a2 :: (M ++ c1 :: c2 :: S)) A.length (A.length + 2 + M.length)
      = A ++ c1 :: c2 :: (M ++ a1 :: a2 :: S) := by
  have first := iterSwap_middle A (a2 :: M) (c2 :: S) a1 c1
  have second := iterSwap_middle (A ++ [c1]) (M ++ [a1]) S a2 c2
  simp only [List.length_append, List.length_singleton, List.length_cons, List.length_nil,
    List.append_assoc, List.singleton_append, List.cons_append, List.nil_append, Nat.zero_add]
    at first second
  rw [swapRanges2, show A.length + 2 + M.length = A.length + 1 + (M.length + 1) by omega, first,
    show A.length + 1 + (M.length + 1) + 1 = A.length + 1 + 1 + (M.length + 1) by omega, second]

/-- The loop, on a window `W` of `2n` characters between `A` and `S`, reverses the groups of
the window and keeps `A` and `S`. Proof: induction on `n` by steps of two; each pass swaps
the outer pairs and leaves a window two pairs shorter.
-/
theorem reverseHexLoop_window (n : Nat) : ∀ (A W S : List Char), W.length = 2 * n
    → reverseHexLoop (A ++ W ++ S) A.length (A.length + W.length - 2)
      = A ++ reverseHexGroups W ++ S := by
  induction n using Nat.strong_induction_on with
  | _ n ih =>
      intro A W S size
      match n, W, size with
      | 0, [], _ => rw [reverseHexLoop, if_neg (by simp)]; rfl
      | 1, [x, y], _ => rw [reverseHexLoop, if_neg (by simp)]; rfl
      | m + 2, a1 :: a2 :: rest, size =>
          obtain ⟨M, c1, c2, rfl⟩ := exists_eq_append_pair (l := rest) (by simp at size; omega)
          have even : M.length = 2 * m := by simp at size; omega
          have inner := ih m (by omega) (A ++ [c1, c2]) M (a1 :: a2 :: S) even
          simp only [List.length_append, List.length_cons, List.length_nil, List.append_assoc,
            List.cons_append, List.nil_append] at inner
          simp only [List.length_cons, List.length_append, List.length_nil, List.append_assoc,
            List.cons_append, List.nil_append]
          rw [reverseHexLoop, if_pos (by omega), show A.length + (M.length + 1 + 1 + 1 + 1) - 2
            = A.length + 2 + M.length by omega, swapRanges2_window,
            show A.length + 2 + M.length - 2 = A.length + (0 + 1 + 1) + M.length - 2 by omega,
            inner, reverseHexGroups_cons_pair, reverseHexGroups_append_pair (by omega)]
          simp

/-- The marker makes a string at least two characters long. -/
theorem StartsWithHexMarker.two_le {s : List Char} (marker : StartsWithHexMarker s)
    : 2 ≤ s.length := by
  rcases marker with h | h <;> have := congrArg List.length h <;> simp at this <;> omega

/-- An even-length string with the marker is reversed group by group after the marker. -/
theorem reverseHexString_eq {s : List Char} (even : s.length % 2 = 0)
    (marker : StartsWithHexMarker s)
    : reverseHexString s = s.take 2 ++ reverseHexGroups (s.drop 2) := by
  have long := marker.two_le
  have window :=
    reverseHexLoop_window ((s.length - 2) / 2) (s.take 2) (s.drop 2) [] (by simp; omega)
  rw [List.append_nil, List.append_nil, List.take_append_drop, List.length_take, List.length_drop,
    Nat.min_eq_left long, show 2 + (s.length - 2) - 2 = s.length - 2 by omega] at window
  rw [reverseHexString, if_neg (by simpa [even, long] using (hasHexPrefix_iff s).mpr marker),
    window]

theorem StartsWithHexMarker.append {s : List Char} (marker : StartsWithHexMarker s)
    (rest : List Char) : StartsWithHexMarker (s.take 2 ++ rest) := by
  have keep : (s.take 2 ++ rest).take 2 = s.take 2 := by
    rw [List.take_append_of_le_length (by simp; have := marker.two_le; omega), List.take_take,
      Nat.min_self]
  unfold StartsWithHexMarker
  rw [keep]
  exact marker

/-- `ReverseHexString` on a marked even-length string: the marker, then the groups of the
rest in reverse order; hence an involution on such strings, and on `ToHexString(v)` the
string of the reversed bytes.
-/
theorem reverseHexString_reverses_groups
    : (∀ s : List Char, s.length % 2 = 0 → StartsWithHexMarker s
        → reverseHexString s = s.take 2 ++ reverseHexGroups (s.drop 2))
      ∧ (∀ s : List Char, s.length % 2 = 0 → StartsWithHexMarker s
        → reverseHexString (reverseHexString s) = s)
      ∧ ∀ v : List UInt8, v ≠ []
        → reverseHexString (toHexString v) = toHexString v.reverse := by
  refine ⟨fun s even marker => reverseHexString_eq even marker, fun s even marker => ?_,
    fun v nonempty => ?_⟩
  · have long := marker.two_le
    have twice := reverseHexString_eq (s := s.take 2 ++ reverseHexGroups (s.drop 2))
      (by simp; omega) (marker.append _)
    rw [reverseHexString_eq even marker, twice]
    simp [show min 2 s.length = 2 by omega, reverseHexGroups_reverseHexGroups
      (show (s.drop 2).length % 2 = 0 by simp; omega)]
  · have pairs : ∀ g ∈ v.map hexByte, g.length = 2 := by simp [hexByte]
    have grouped : hexGroups (v.flatMap hexByte) = v.map hexByte := by
      rw [List.flatMap, hexGroups_flatten pairs]
    rw [toHexString_eq, if_neg nonempty, toHexString_eq, if_neg (by simpa using nonempty),
      reverseHexString_eq (s := '0' :: 'x' :: v.flatMap hexByte)
        (by simp only [List.length_cons, length_flatMap_hexByte]; omega) (.inl rfl)]
    show ['0', 'x'] ++ reverseHexGroups (v.flatMap hexByte) = _
    rw [reverseHexGroups, grouped]
    simp [List.flatMap, List.map_reverse]

/-- The three parts on `0x1234`, whose bytes are `0x12, 0x34`. -/
theorem reverseHexString_reverses_groups_0x1234
    : ['0', 'x', '1', '2', '3', '4'].length % 2 = 0
      ∧ StartsWithHexMarker ['0', 'x', '1', '2', '3', '4']
      ∧ reverseHexString ['0', 'x', '1', '2', '3', '4']
        = ['0', 'x'] ++ reverseHexGroups ['1', '2', '3', '4']
      ∧ reverseHexString (reverseHexString ['0', 'x', '1', '2', '3', '4'])
        = ['0', 'x', '1', '2', '3', '4']
      ∧ reverseHexString (toHexString [0x12, 0x34]) = toHexString [0x34, 0x12] :=
  ⟨by decide, by decide,
    reverseHexString_reverses_groups.1 _ (by decide) (by decide),
    reverseHexString_reverses_groups.2.1 _ (by decide) (by decide),
    reverseHexString_reverses_groups.2.2 [0x12, 0x34] (by decide)⟩

end MetabaseNet.Mtbase
