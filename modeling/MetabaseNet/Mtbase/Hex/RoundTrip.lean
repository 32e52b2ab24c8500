import MetabaseNet.Mtbase.Hex.Encode
import MetabaseNet.Mtbase.Hex.Decode

/-! The hex codec round trip: decoding what `ToHexString` wrote gives the bytes back, and
encoding what `ParseHexString` read from a lowercase, even-length digit string gives the
string back.
-/

namespace MetabaseNet.Mtbase

/-- A string with no NUL is its own `c_str()`. -/
theorem cStr_eq_self {l : List Char} (noNul : ∀ c ∈ l, c ≠ '\x00') : cStr l = l := by
  induction l with
  | nil => rfl
  | cons c rest ih =>
      simp only [List.mem_cons, forall_eq_or_imp] at noNul
      rw [cStr_cons, if_neg noNul.1, ih noNul.2]

/-- A string with no NUL, then a NUL, is cut at that NUL by `c_str()`. -/
theorem cStr_append_nul {l : List Char} (noNul : ∀ c ∈ l, c ≠ '\x00') (rest : List Char)
    : cStr (l ++ '\x00' :: rest) = l := by
  induction l with
  | nil => simp [cStr_cons]
  | cons c more ih =>
      simp only [List.mem_cons, forall_eq_or_imp] at noNul
      rw [List.cons_append, cStr_cons, if_neg noNul.1, ih noNul.2]

theorem ne_nul_of_isLowerHexDigit {c : Char} (digit : IsLowerHexDigit c) : c ≠ '\x00' := by
  rintro rfl
  exact absurd digit (by decide)

/-- The digits written for a byte list are lowercase hex digits. -/
theorem isLowerHexDigit_of_mem_flatMap_hexByte {v : List UInt8} {c : Char}
    (member : c ∈ v.flatMap hexByte) : IsLowerHexDigit c := by
  simp only [List.mem_flatMap, hexByte, List.mem_cons, List.mem_nil_iff, or_false] at member
  obtain ⟨b, -, rfl | rfl⟩ := member
  · exact hexc_isLowerHexDigit (hexByte_nibbles_lt b).1
  · exact hexc_isLowerHexDigit (hexByte_nibbles_lt b).2

/-- The digits written for a byte list hold no NUL. -/
theorem flatMap_hexByte_ne_nul (v : List UInt8) : ∀ c ∈ v.flatMap hexByte, c ≠ '\x00' :=
  fun _ member => ne_nul_of_isLowerHexDigit (isLowerHexDigit_of_mem_flatMap_hexByte member)

/-- The marker `0x` adds no NUL. -/
theorem marker_ne_nul {d : List Char} (noNul : ∀ c ∈ d, c ≠ '\x00')
    : ∀ c ∈ '0' :: 'x' :: d, c ≠ '\x00' := by
  simp only [List.mem_cons, forall_eq_or_imp]
  exact ⟨by decide, by decide, noNul⟩

/-- The digits written for a byte list decode back to it, pair by pair. -/
theorem parseHexLoop_flatMap_hexByte (v : List UInt8) : parseHexLoop (v.flatMap hexByte) = v := by
  induction v with
  | nil => rfl
  | cons b rest ih =>
      rw [List.flatMap_cons, hexByte, List.cons_append, List.cons_append, List.nil_append,
        parseHexLoop, decodePair_hexByte, ih]

/-- The digits decoded from a lowercase even-length string are written back as that string. -/
theorem flatMap_hexByte_parseHexLoop {d : List Char} (even : d.length % 2 = 0)
    (lower : ∀ c ∈ d, IsLowerHexDigit c) : (parseHexLoop d).flatMap hexByte = d := by
  induction d using hexGroups.induct with
  | case1 => rfl
  | case2 c => simp at even
  | case3 c e rest ih =>
      simp only [List.mem_cons, forall_eq_or_imp] at lower
      obtain ⟨h, -, hc, -⟩ := hexc_of_isLowerHexDigit lower.1
      obtain ⟨l, -, he, -⟩ := hexc_of_isLowerHexDigit lower.2.1
      have decoded : decodePair c e = some (UInt8.ofNat ((h <<< 4) ||| l)) := by
        simp [decodePair, hc, he]
      simp only [List.length_cons] at even
      rw [parseHexLoop, decoded, List.flatMap_cons,
        hexByte_of_decodePair decoded lower.1 lower.2.1, ih (by omega) lower.2.2]
      rfl

/-- `ParseHexString(ToHexString(v)) == v`. -/
theorem parseHexString_toHexString (v : List UInt8) : parseHexString (toHexString v) = v := by
  rw [toHexString_eq]
  split_ifs with empty
  · simp [empty, parseHexString, parseHexStringPsz, parseHexLoop]
  · have digits : ∀ c ∈ '0' :: 'x' :: v.flatMap hexByte, c ≠ '\x00' := by
      simp only [List.mem_cons, forall_eq_or_imp]
      exact ⟨by decide, by decide, flatMap_hexByte_ne_nul v⟩
    rw [parseHexString, cStr_eq_self digits, parseHexStringPsz, if_pos (hasHexPrefix_marker _)]
    exact parseHexLoop_flatMap_hexByte v

end MetabaseNet.Mtbase
