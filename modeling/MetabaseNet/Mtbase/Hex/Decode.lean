import MetabaseNet.Mtbase.Hex.Digits

/-! `ParseHexString`, unbounded and into a buffer of capacity `n`: the loops of the source
over a NUL-terminated string, their closed forms, and the tolerant decoding of the spec
that the unbounded loop computes on every input.
-/

namespace MetabaseNet.Mtbase

-----------------------------------------------------------------------------------------
-- NUL-terminated strings and the `0x` marker
-----------------------------------------------------------------------------------------

/-- The characters a `std::string` shows through `c_str()`: those before the first NUL. -/
def cStr (str : List Char) : List Char := str.takeWhile (fun c => c != '\x00')

/-- The test `psz[0] == '0' && tolower(psz[1]) == 'x'`; reading the terminator gives NUL. -/
def HasHexPrefix (psz : List Char) : Prop :=
  psz.getD 0 '\x00' = '0' ∧ (psz.getD 1 '\x00').toLower = 'x'

instance (psz : List Char) : Decidable (HasHexPrefix psz) :=
  inferInstanceAs (Decidable (_ ∧ _))

@[simp] theorem cStr_nil : cStr [] = [] := rfl

theorem cStr_cons (c : Char) (str : List Char)
    : cStr (c :: str) = if c = '\x00' then [] else c :: cStr str := by
  by_cases nul : c = '\x00' <;> simp [cStr, List.takeWhile_cons, nul]

/-- `tolower(c) == 'x'` holds for exactly the two letters x and X. -/
theorem toLower_eq_x (c : Char) : c.toLower = 'x' ↔ c = 'x' ∨ c = 'X' := by
  by_cases upper : 65 ≤ c.toNat ∧ c.toNat ≤ 90
  · obtain ⟨lo, hi⟩ := upper
    rw [← Char.ofNat_toNat c]
    generalize c.toNat = n at *
    interval_cases n <;> decide
  · have keep : c.toLower = c := by
      unfold Char.toLower
      exact if_neg (by omega)
    have notX : c ≠ 'X' := fun h => upper (by subst h; decide)
    rw [keep]
    tauto

/-- The marker the encoders write passes the test. -/
@[simp] theorem hasHexPrefix_marker (rest : List Char) : HasHexPrefix ('0' :: 'x' :: rest) :=
  ⟨rfl, (toLower_eq_x _).mpr (.inl rfl)⟩

-----------------------------------------------------------------------------------------
-- The two decoding loops
-----------------------------------------------------------------------------------------

/-- The loop `while (*psz)` of `ParseHexString(const char*)`, on the characters before the
terminator. A lone last character is read with the terminator, which `CharToHex` rejects.
-/
def parseHexLoop : List Char → List UInt8
  | [] => []
  | [c] => (decodePair c '\x00').toList
  | c :: d :: rest =>
      match decodePair c d with
      | some byte => byte :: parseHexLoop rest
      | none => []

/-- `ParseHexString(const char* psz)`, on the characters of `psz` before its terminator. -/
def parseHexStringPsz (psz : List Char) : List UInt8 :=
  parseHexLoop (if HasHexPrefix psz then psz.drop 2 else psz)

/-- `ParseHexString(const std::string& str)`, which decodes `str.c_str()`. -/
def parseHexString (str : List Char) : List UInt8 := parseHexStringPsz (cStr str)

/-- The loop `while (*psz && p != end)` of the bounded overload. The buffer `p` is the
memory at the output pointer's start, written at the pointer's offset `j`; `end` is `n`.
Returns the final offset and buffer.
-/
def parseHexLoopInto (n : Nat) : List Char → Nat → List UInt8 → Nat × List UInt8
  | [], j, p => (j, p)
  | [c], j, p =>
      if j = n then (j, p)
      else
        match decodePair c '\x00' with
        | some byte => (j + 1, p.set j byte)
        | none => (j, p)
  | c :: d :: rest, j, p =>
      if j = n then (j, p)
      else
        match decodePair c d with
        | some byte => parseHexLoopInto n rest (j + 1) (p.set j byte)
        | none => (j, p)

/-- `ParseHexString(const char* psz, unsigned char* p, std::size_t n)`: the count
`n - (end - p)` it returns, and the buffer afterwards. The marker is skipped only when
`n >= 2`.
-/
def parseHexStringPszInto (psz : List Char) (p : List UInt8) (n : Nat) : Nat × List UInt8 :=
  let out := parseHexLoopInto n (if 2 ≤ n ∧ HasHexPrefix psz then psz.drop 2 else psz) 0 p
  (n - (n - out.1), out.2)

/-- `ParseHexString(const std::string& str, unsigned char* p, std::size_t n)`. -/
def parseHexStringInto (str : List Char) (p : List UInt8) (n : Nat) : Nat × List UInt8 :=
  parseHexStringPszInto (cStr str) p n

-----------------------------------------------------------------------------------------
-- The bounded loop is the unbounded one cut at the capacity
-----------------------------------------------------------------------------------------

/-- From offset `j` below the capacity, the bounded loop writes the first `n - j` bytes of
the unbounded loop's output after `p[0..j)` and leaves the rest of the buffer as it was.
Proof: induction following the loop's pairs of reads.
-/
theorem parseHexLoopInto_eq {n : Nat} (l : List Char) {j : Nat} {p : List UInt8}
    (below : j ≤ n) (room : n ≤ p.length)
    : parseHexLoopInto n l j p
      = (j + min (n - j) (parseHexLoop l).length,
          p.take j ++ (parseHexLoop l).take (n - j)
            ++ p.drop (j + min (n - j) (parseHexLoop l).length)) := by
  induction l using parseHexLoop.induct generalizing j p with
  | case1 => simp [parseHexLoopInto, parseHexLoop]
  | case2 c =>
      by_cases full : j = n <;> simp [parseHexLoopInto, parseHexLoop, full]
  | case3 c d rest byte decoded ih =>
      by_cases full : j = n
      · subst full
        simp [parseHexLoopInto]
      rw [parseHexLoopInto, if_neg full, decoded]
      dsimp only
      rw [ih (j := j + 1) (p := p.set j byte) (by omega) (by simp; omega)]
      have shift : n - j = n - (j + 1) + 1 := by omega
      simp only [parseHexLoop, decoded, List.length_cons, shift, List.take_succ_cons,
        take_set_succ byte (by omega : j < p.length)]
      have grow : j + min (n - (j + 1) + 1) ((parseHexLoop rest).length + 1)
          = j + 1 + min (n - (j + 1)) (parseHexLoop rest).length := by omega
      rw [grow, List.drop_set_of_lt byte p (by omega)]
      simp
  | case4 c d rest failed =>
      simp [parseHexLoopInto, parseHexLoop, failed]

/-- The bounded overload returns `min n m` for the `m` bytes the unbounded loop would give on
the same suffix, and writes exactly those bytes at the start of the buffer.
-/
theorem parseHexStringPszInto_eq (psz : List Char) {p : List UInt8} {n : Nat}
    (room : n ≤ p.length)
    : parseHexStringPszInto psz p n
      = (min n (parseHexLoop (if 2 ≤ n ∧ HasHexPrefix psz then psz.drop 2 else psz)).length,
          (parseHexLoop (if 2 ≤ n ∧ HasHexPrefix psz then psz.drop 2 else psz)).take n
            ++ p.drop
              (min n (parseHexLoop (if 2 ≤ n ∧ HasHexPrefix psz then psz.drop 2 else psz)).length)) := by
  simp only [parseHexStringPszInto, parseHexLoopInto_eq _ (Nat.zero_le n) room]
  simp only [Nat.zero_add, Nat.sub_zero, List.take_zero, List.nil_append, Prod.mk.injEq, and_true]
  omega

/-- Where the two marker tests agree (capacity at least two, or no marker), the bounded
overload writes and counts the first `n` bytes of `ParseHexString(str)`.
-/
theorem parseHexStringInto_eq_take {str : List Char} {p : List UInt8} {n : Nat}
    (room : n ≤ p.length) (agree : 2 ≤ n ∨ ¬HasHexPrefix (cStr str))
    : parseHexStringInto str p n
      = (min n (parseHexString str).length,
          (parseHexString str).take n ++ p.drop (min n (parseHexString str).length)) := by
  have marker : (2 ≤ n ∧ HasHexPrefix (cStr str)) ↔ HasHexPrefix (cStr str) := by tauto
  simp only [parseHexStringInto, parseHexStringPszInto_eq _ room, parseHexString,
    parseHexStringPsz, if_congr marker rfl rfl]

/-- With a one-byte buffer the bounded overload keeps the `0x` marker, reads `0` and `x` as
its first pair, and stops with nothing written, while the unbounded overload decodes the
byte `0x12`.
-/
theorem parseHexStringInto_capacity_one
    : parseHexString "0x12".toList = [0x12] ∧ parseHexStringInto "0x12".toList [0] 1 = (0, [0]) := by
  decide

-----------------------------------------------------------------------------------------
-- The tolerant decoding of the spec
-----------------------------------------------------------------------------------------

/-- The hex digits of the spec: `0-9`, `a-f` and `A-F`. -/
def IsHexDigit (c : Char) : Prop :=
  ('0' ≤ c ∧ c ≤ '9') ∨ ('a' ≤ c ∧ c ≤ 'f') ∨ ('A' ≤ c ∧ c ≤ 'F')

instance (c : Char) : Decidable (IsHexDigit c) :=
  inferInstanceAs (Decidable (_ ∨ _))

/-- The value `hex(c)` of a hex digit, the letters of either case counting from ten. -/
def hexDigitValue (c : Char) : Nat :=
  if c ≤ '9' then c.toNat - '0'.toNat
  else if c ≤ 'F' then c.toNat - 'A'.toNat + 10
  else c.toNat - 'a'.toNat + 10

/-- A string split from the left into two-character groups; a lone last character makes a
group of its own.
-/
def hexGroups : List Char → List (List Char)
  | [] => []
  | [c] => [[c]]
  | c :: d :: rest => [c, d] :: hexGroups rest

/-- A complete group of two hex digits. -/
def isDigitPair : List Char → Bool
  | [c, d] => decide (IsHexDigit c) && decide (IsHexDigit d)
  | _ => false

/-- The byte `16 * hex(c1) + hex(c2)` of a group. -/
def pairByte : List Char → UInt8
  | [c, d] => UInt8.ofNat (16 * hexDigitValue c + hexDigitValue d)
  | _ => 0

/-- A string that starts with `0x` or `0X`. -/
def StartsWithHexMarker (s : List Char) : Prop := s.take 2 = ['0', 'x'] ∨ s.take 2 = ['0', 'X']

instance (s : List Char) : Decidable (StartsWithHexMarker s) :=
  inferInstanceAs (Decidable (_ ∨ _))

/-- A string with one leading `0x` or `0X` removed, if present. -/
def dropHexMarker (s : List Char) : List Char :=
  if StartsWithHexMarker s then s.drop 2 else s

/-- The tolerant decoder of the spec: one byte per group, over the longest prefix of groups
that are digit pairs.
-/
def tolerantHexDecode (s : List Char) : List UInt8 :=
  ((hexGroups (dropHexMarker s)).takeWhile isDigitPair).map pairByte

/-- `CharToHex` accepts exactly the hex digits, with their values. -/
theorem charToHex_eq (c : Char)
    : charToHex c = if IsHexDigit c then some (hexDigitValue c) else none := by
  unfold charToHex IsHexDigit hexDigitValue
  simp only [char_le_iff, Char.reduceToNat]
  by_cases digit : 48 ≤ c.toNat ∧ c.toNat ≤ 57
  · rw [if_pos digit, if_pos (.inl digit), if_pos digit.2]
  by_cases lower : 97 ≤ c.toNat ∧ c.toNat ≤ 102
  · rw [if_neg digit, if_pos lower, if_pos (.inr (.inl lower)), if_neg (by omega), if_neg (by omega)]
  by_cases upper : 65 ≤ c.toNat ∧ c.toNat ≤ 70
  · rw [if_neg digit, if_neg lower, if_pos upper, if_pos (.inr (.inr upper)), if_neg (by omega),
      if_pos (by omega)]
  · rw [if_neg digit, if_neg lower, if_neg upper, if_neg (by tauto)]

/-- One iteration of the loops decodes exactly the digit pairs, to their bytes. -/
theorem decodePair_eq (c d : Char)
    : decodePair c d = if isDigitPair [c, d] then some (pairByte [c, d]) else none := by
  by_cases hc : IsHexDigit c <;> by_cases hd : IsHexDigit d <;>
    simp [decodePair, charToHex_eq, isDigitPair, pairByte, hc, hd]
  rw [shiftLeft_four_or (charToHex_lt ((charToHex_eq d).trans (if_pos hd)))]

/-- The unbounded loop decodes the longest prefix of digit pairs, by induction following the
loop's pairs of reads.
-/
theorem parseHexLoop_eq_groups (l : List Char)
    : parseHexLoop l = ((hexGroups l).takeWhile isDigitPair).map pairByte := by
  induction l using hexGroups.induct with
  | case1 => rfl
  | case2 c => simp [parseHexLoop, hexGroups, isDigitPair]
  | case3 c d rest ih =>
      rw [parseHexLoop, hexGroups, List.takeWhile_cons, decodePair_eq]
      by_cases pair : isDigitPair [c, d] <;> simp [pair, ih]

/-- Cutting at the first NUL does not change what the loop decodes: a NUL is not a digit. -/
theorem parseHexLoop_cStr (l : List Char) : parseHexLoop (cStr l) = parseHexLoop l := by
  induction l using hexGroups.induct with
  | case1 => rfl
  | case2 c => by_cases nul : c = '\x00' <;> simp [cStr_cons, nul, parseHexLoop]
  | case3 c d rest ih =>
      by_cases nulC : c = '\x00'
      · simp [cStr_cons, nulC, parseHexLoop]
      by_cases nulD : d = '\x00'
      · simp [cStr_cons, nulC, nulD, parseHexLoop]
      simp only [cStr_cons, nulC, nulD, if_false, parseHexLoop, ih]

/-- The source's marker test is the spec's: `0` then `x` or `X`. -/
theorem hasHexPrefix_iff (s : List Char) : HasHexPrefix s ↔ StartsWithHexMarker s := by
  match s with
  | [] => decide
  | [c] => simp [HasHexPrefix, StartsWithHexMarker, toLower_eq_x]
  | c :: d :: rest => simp [HasHexPrefix, StartsWithHexMarker, toLower_eq_x, and_or_left]

/-- A marker sits before any NUL, so it survives `c_str()` and commutes with it. -/
theorem hasHexPrefix_cStr {s : List Char} (marker : HasHexPrefix s)
    : HasHexPrefix (cStr s) ∧ (cStr s).drop 2 = cStr (s.drop 2) := by
  have found := (hasHexPrefix_iff s).mp marker
  match s, found with
  | [], found => simp [StartsWithHexMarker] at found
  | [c], found => simp [StartsWithHexMarker] at found
  | c :: d :: rest, found =>
      simp only [StartsWithHexMarker, List.take_succ_cons, List.take_zero, List.cons.injEq,
        and_true] at found
      obtain ⟨rfl, letter⟩ : c = '0' ∧ d ≠ '\x00' := by
        rcases found with ⟨hc, rfl⟩ | ⟨hc, rfl⟩ <;> exact ⟨hc, by decide⟩
      simp only [cStr_cons, letter, if_false]
      exact ⟨(hasHexPrefix_iff _).mpr (by simpa [StartsWithHexMarker] using found), rfl⟩

theorem hasHexPrefix_of_cStr {s : List Char} (marker : HasHexPrefix (cStr s))
    : HasHexPrefix s := by
  match s, (hasHexPrefix_iff _).mp marker with
  | [], found => simp [StartsWithHexMarker] at found
  | [c], found => by_cases nul : c = '\x00' <;> simp [StartsWithHexMarker, cStr_cons, nul] at found
  | c :: d :: rest, found =>
      by_cases nulC : c = '\x00'
      · simp [StartsWithHexMarker, cStr_cons, nulC] at found
      by_cases nulD : d = '\x00'
      · simp [StartsWithHexMarker, cStr_cons, nulC, nulD] at found
      simp only [cStr_cons, nulC, nulD, if_false] at found
      exact (hasHexPrefix_iff _).mpr (by simpa [StartsWithHexMarker] using found)

/-- `ParseHexString(str)` is the tolerant decoder of the spec on every string: one optional
marker, then bytes from digit pairs up to the first group that is not one.
-/
theorem parseHexString_eq_tolerantHexDecode (s : List Char)
    : parseHexString s = tolerantHexDecode s := by
  rw [parseHexString, parseHexStringPsz, tolerantHexDecode, dropHexMarker]
  by_cases marker : HasHexPrefix s
  · obtain ⟨kept, dropped⟩ := hasHexPrefix_cStr marker
    rw [if_pos kept, if_pos ((hasHexPrefix_iff s).mp marker), dropped, parseHexLoop_cStr,
      parseHexLoop_eq_groups]
  · rw [if_neg (mt hasHexPrefix_of_cStr marker), if_neg (mt (hasHexPrefix_iff s).mpr marker),
      parseHexLoop_cStr, parseHexLoop_eq_groups]

end MetabaseNet.Mtbase
