import MetabaseNet.Mtbase.Hex.Decode

/-! `ParseHexString` over memory: the string is its characters followed by the terminator,
every read of `*psz`, `psz[0]` and `psz[1]` is checked, and the bounded overload's stores are
checked against its `n` bytes. Although a pass steps `psz` twice, and a lone last digit leaves
it one past the terminator, neither loop reads past the terminator; the bounded loop stores
only into `p[0..n)`; each loop makes at most `ceil(L/2)` passes on `L` characters; and both
return what the loops of `Decode` return.
-/

namespace MetabaseNet.Mtbase

-----------------------------------------------------------------------------------------
-- The loops over memory
-----------------------------------------------------------------------------------------

/-- `psz[0] == '0' && tolower(psz[1]) == 'x'` over memory: `&&` reads `psz[1]` only once
`psz[0]` is `'0'`. `none` marks a read past the memory.
-/
def hexPrefixAt (mem : List Char) : Option Bool := do
  let c0 ← readAt mem 0
  if c0 = '0' then
    let c1 ← readAt mem 1
    pure (decide (c1.toLower = 'x'))
  else pure false

/-- The loop `while (*psz)` of `ParseHexString(const char* psz)` over memory, with `psz` at
offset `pos` and the count of passes made. A pass reads `*psz` for the test and uses it again
for `h`, then reads the next character for `l` before the test `h < 0 || l < 0`. `none` marks a
read past the memory.
-/
def parseHexLoopAt (mem : List Char) (pos : Nat) (vch : List UInt8) (passes : Nat)
    : Option (List UInt8 × Nat) :=
  match readAt mem pos with
  | none => none
  | some c =>
      if c = '\x00' then some (vch, passes)
      else
        match _found : readAt mem (pos + 1) with
        | none => none
        | some d =>
            match decodePair c d with
            | some byte => parseHexLoopAt mem (pos + 2) (vch ++ [byte]) (passes + 1)
            | none => some (vch, passes + 1)
termination_by mem.length - pos
decreasing_by
  have := lt_of_readAt _found
  omega

/-- The loop `while (*psz && p != end)` of the bounded overload over memory, with `psz` at
offset `pos`, the output pointer at offset `j` of the buffer `p`, `end` at offset `n`, and the
count of passes made. The store `*p++ = ...` is checked against the buffer.
-/
def parseHexLoopIntoAt (mem : List Char) (n pos j : Nat) (p : List UInt8) (passes : Nat)
    : Option (Nat × List UInt8 × Nat) :=
  match readAt mem pos with
  | none => none
  | some c =>
      if c ≠ '\x00' ∧ j ≠ n then
        match _found : readAt mem (pos + 1) with
        | none => none
        | some d =>
            match decodePair c d with
            | some byte => do
                let p ← writeAt p j byte
                parseHexLoopIntoAt mem n (pos + 2) (j + 1) p (passes + 1)
            | none => some (j, p, passes + 1)
      else some (j, p, passes)
termination_by mem.length - pos
decreasing_by
  have := lt_of_readAt _found
  omega

/-- `ParseHexString(const char* psz)` over memory: the bytes, and the count of passes. -/
def parseHexStringPszAt (mem : List Char) : Option (List UInt8 × Nat) := do
  let marker ← hexPrefixAt mem
  parseHexLoopAt mem (if marker then 2 else 0) [] 0

/-- `ParseHexString(const char* psz, unsigned char* p, std::size_t n)` over memory: the count
`n - (end - p)` and the buffer, and the count of passes. The test `n >= 2` comes before the
marker's reads.
-/
def parseHexStringPszIntoAt (mem : List Char) (p : List UInt8) (n : Nat)
    : Option ((Nat × List UInt8) × Nat) := do
  let marker ← (if 2 ≤ n then hexPrefixAt mem else pure false : Option Bool)
  let (j, p, passes) ← parseHexLoopIntoAt mem n (if marker then 2 else 0) 0 p 0
  pure ((n - (n - j), p), passes)

-----------------------------------------------------------------------------------------
-- Reads stop at the terminator
-----------------------------------------------------------------------------------------

/-- A read at an index up to the terminator's sees the string, then the terminator. -/
theorem readAt_append_nul {s : List Char} {i : Nat} (within : i ≤ s.length)
    : readAt (s ++ ['\x00']) i = some (s.getD i '\x00') := by
  rcases Nat.lt_or_eq_of_le within with inside | rfl
  · rw [readAt, List.getElem?_append_left inside, List.getD_eq_getElem?_getD,
      List.getElem?_eq_getElem inside]
    rfl
  · rw [readAt, List.getElem?_append_right (le_refl _), Nat.sub_self, List.getD_eq_getElem?_getD,
      List.getElem?_eq_none (le_refl _)]
    rfl

/-- On a string followed by its terminator the marker test reads inside the memory and
decides `HasHexPrefix`: `psz[1]` is read only after a `'0'`, so the string has a character.
-/
theorem hexPrefixAt_append_nul (s : List Char)
    : hexPrefixAt (s ++ ['\x00']) = some (decide (HasHexPrefix s)) := by
  have first := readAt_append_nul (s := s) (Nat.zero_le _)
  by_cases zero : s.getD 0 '\x00' = '0'
  · have second : readAt (s ++ ['\x00']) 1 = some (s.getD 1 '\x00') := by
      refine readAt_append_nul (Nat.one_le_iff_ne_zero.mpr fun empty => ?_)
      rw [List.length_eq_zero.mp empty] at zero
      exact absurd zero (by decide)
    simp only [hexPrefixAt, first, second, zero, HasHexPrefix, true_and, Option.bind_eq_bind,
      Option.some_bind, if_true, Option.pure_def]
  · simp only [hexPrefixAt, first, zero, HasHexPrefix, false_and, Option.bind_eq_bind,
      Option.some_bind, if_false, Option.pure_def, decide_False]

/-- A marker needs two characters. -/
theorem two_le_of_hasHexPrefix {s : List Char} (marker : HasHexPrefix s) : 2 ≤ s.length := by
  match s, marker with
  | [], marker => exact absurd marker (by decide)
  | [_], marker => exact absurd marker.2 (show ('\x00' : Char).toLower ≠ 'x' by decide)
  | _ :: _ :: _, _ => simp

section Steps

variable {mem : List Char} {pos : Nat} {c d : Char}

theorem parseHexLoopAt_nul (vch : List UInt8) (passes : Nat) (found : readAt mem pos = some '\x00')
    : parseHexLoopAt mem pos vch passes = some (vch, passes) := by
  rw [parseHexLoopAt]
  simp only [found, if_true]

/-- A pass of the unbounded loop on a character that is not the terminator. -/
theorem parseHexLoopAt_pair (vch : List UInt8) (passes : Nat) (found : readAt mem pos = some c)
    (nul : c ≠ '\x00') (found' : readAt mem (pos + 1) = some d)
    : parseHexLoopAt mem pos vch passes = match decodePair c d with
        | some byte => parseHexLoopAt mem (pos + 2) (vch ++ [byte]) (passes + 1)
        | none => some (vch, passes + 1) := by
  rw [parseHexLoopAt]
  simp only [found, nul, if_false]
  split
  · simp_all
  · rename_i d' same
    rw [found', Option.some.injEq] at same
    rw [same]

theorem parseHexLoopIntoAt_stop {n j : Nat} (p : List UInt8) (passes : Nat)
    (found : readAt mem pos = some c) (stop : c = '\x00' ∨ j = n)
    : parseHexLoopIntoAt mem n pos j p passes = some (j, p, passes) := by
  rw [parseHexLoopIntoAt]
  simp only [found, ne_eq]
  rw [if_neg (by tauto)]

/-- A pass of the bounded loop on a character that is not the terminator, with room left. -/
theorem parseHexLoopIntoAt_pair {n j : Nat} (p : List UInt8) (passes : Nat)
    (found : readAt mem pos = some c) (nul : c ≠ '\x00') (room : j ≠ n)
    (found' : readAt mem (pos + 1) = some d)
    : parseHexLoopIntoAt mem n pos j p passes = match decodePair c d with
        | some byte => do
            let p ← writeAt p j byte
            parseHexLoopIntoAt mem n (pos + 2) (j + 1) p (passes + 1)
        | none => some (j, p, passes + 1) := by
  rw [parseHexLoopIntoAt]
  simp only [found, ne_eq, nul, room, not_false_eq_true, and_self, if_true]
  split
  · simp_all
  · rename_i d' same
    rw [found', Option.some.injEq] at same
    rw [same]

end Steps

/-- The unbounded loop over memory, from a suffix `l` followed by the terminator, returns the
bytes of `parseHexLoop l` after at most `ceil(|l| / 2)` passes. By induction following the
loop's pairs of reads.
-/
theorem parseHexLoopAt_eq {mem : List Char} (l : List Char) {pos : Nat} (vch : List UInt8)
    (passes : Nat) (suffix : mem.drop pos = l ++ ['\x00'])
    : ∃ more ≤ (l.length + 1) / 2,
        parseHexLoopAt mem pos vch passes = some (vch ++ parseHexLoop l, passes + more) := by
  induction l using parseHexLoop.induct generalizing pos vch passes with
  | case1 =>
      exact ⟨0, le_refl _, by simp [parseHexLoopAt_nul _ _ (readAt_of_drop suffix).1, parseHexLoop]⟩
  | case2 c =>
      obtain ⟨found, next⟩ := readAt_of_drop suffix
      by_cases nul : c = '\x00'
      · subst nul
        exact ⟨0, by simp, by simp [parseHexLoopAt_nul _ _ found, parseHexLoop]⟩
      · refine ⟨1, by simp, ?_⟩
        rw [parseHexLoopAt_pair _ _ found nul (readAt_of_drop next).1]
        simp [parseHexLoop]
  | case3 c d rest byte decoded ih =>
      obtain ⟨found, next⟩ := readAt_of_drop suffix
      obtain ⟨found', next'⟩ := readAt_of_drop next
      have nul : c ≠ '\x00' := by rintro rfl; simp at decoded
      obtain ⟨more, bound, run⟩ := ih (vch ++ [byte]) (passes + 1) next'
      refine ⟨more + 1, by simp; omega, ?_⟩
      rw [parseHexLoopAt_pair _ _ found nul found', decoded]
      simp only [run, parseHexLoop, decoded, List.append_assoc, List.singleton_append]
      rw [Nat.add_right_comm passes 1 more, Nat.add_assoc]
  | case4 c d rest failed =>
      obtain ⟨found, next⟩ := readAt_of_drop suffix
      by_cases nul : c = '\x00'
      · subst nul
        exact ⟨0, by simp, by rw [parseHexLoopAt_nul _ _ found]; simp [parseHexLoop, failed]⟩
      · refine ⟨1, by simp; omega, ?_⟩
        rw [parseHexLoopAt_pair _ _ found nul (readAt_of_drop next).1, failed]
        simp [parseHexLoop, failed]

/-- The bounded loop over memory, from a suffix `l` followed by the terminator and an output
offset `j` within the capacity, stores and counts as `parseHexLoopInto` does on `l`, after at
most `ceil(|l| / 2)` passes. By induction following the loop's pairs of reads.
-/
theorem parseHexLoopIntoAt_eq {mem : List Char} (l : List Char) {n pos j : Nat} {p : List UInt8}
    (passes : Nat) (suffix : mem.drop pos = l ++ ['\x00']) (below : j ≤ n) (room : n ≤ p.length)
    : ∃ more ≤ (l.length + 1) / 2, parseHexLoopIntoAt mem n pos j p passes
        = some ((parseHexLoopInto n l j p).1, (parseHexLoopInto n l j p).2, passes + more) := by
  induction l using parseHexLoop.induct generalizing pos j p passes with
  | case1 =>
      refine ⟨0, le_refl _, ?_⟩
      rw [parseHexLoopIntoAt_stop _ _ (readAt_of_drop suffix).1 (.inl rfl)]
      rfl
  | case2 c =>
      obtain ⟨found, next⟩ := readAt_of_drop suffix
      by_cases stop : c = '\x00' ∨ j = n
      · refine ⟨0, by simp, ?_⟩
        rw [parseHexLoopIntoAt_stop _ _ found stop]
        rcases stop with rfl | rfl <;> simp [parseHexLoopInto]
      · push_neg at stop
        refine ⟨1, by simp, ?_⟩
        rw [parseHexLoopIntoAt_pair _ _ found stop.1 stop.2 (readAt_of_drop next).1]
        simp [parseHexLoopInto, stop.2]
  | case3 c d rest byte decoded ih =>
      obtain ⟨found, next⟩ := readAt_of_drop suffix
      obtain ⟨found', next'⟩ := readAt_of_drop next
      have nul : c ≠ '\x00' := by rintro rfl; simp at decoded
      by_cases full : j = n
      · refine ⟨0, by simp, ?_⟩
        rw [parseHexLoopIntoAt_stop _ _ found (.inr full)]
        simp [parseHexLoopInto, full]
      · obtain ⟨more, bound, run⟩ :=
          ih (j := j + 1) (p := p.set j byte) (passes + 1) next' (by omega) (by simp; omega)
        refine ⟨more + 1, by simp; omega, ?_⟩
        rw [parseHexLoopIntoAt_pair _ _ found nul full found', decoded]
        simp only [writeAt_of_lt (by omega : j < p.length), Option.bind_eq_bind, Option.some_bind,
          run, parseHexLoopInto, full, if_false, decoded]
        rw [Nat.add_right_comm passes 1 more, Nat.add_assoc]
  | case4 c d rest failed =>
      obtain ⟨found, next⟩ := readAt_of_drop suffix
      by_cases stop : c = '\x00' ∨ j = n
      · refine ⟨0, by simp, ?_⟩
        rw [parseHexLoopIntoAt_stop _ _ found stop]
        simp [parseHexLoopInto, failed]
      · push_neg at stop
        refine ⟨1, by simp; omega, ?_⟩
        rw [parseHexLoopIntoAt_pair _ _ found stop.1 stop.2 (readAt_of_drop next).1, failed]
        simp [parseHexLoopInto, stop.2, failed]

-----------------------------------------------------------------------------------------
-- Both overloads over memory
-----------------------------------------------------------------------------------------

/-- The bounded loop, like the unbounded one, stops at the first NUL. -/
theorem parseHexLoopInto_cStr {n j : Nat} {p : List UInt8} (l : List Char) (below : j ≤ n)
    (room : n ≤ p.length) : parseHexLoopInto n (cStr l) j p = parseHexLoopInto n l j p := by
  rw [parseHexLoopInto_eq _ below room, parseHexLoopInto_eq _ below room, parseHexLoop_cStr]

/-- The bounded overload leaves the buffer from `p[n]` on as it was. -/
theorem drop_parseHexStringPszInto (psz : List Char) {p : List UInt8} {n : Nat}
    (room : n ≤ p.length) : (parseHexStringPszInto psz p n).2.drop n = p.drop n := by
  rw [parseHexStringPszInto_eq psz room, List.drop_append_eq_append_drop, List.drop_drop]
  simp only [List.length_take, List.drop_eq_nil_of_le (List.length_take_le _ _), List.nil_append]
  congr 1
  omega

/-- `ParseHexString(psz)` over the characters of `s` and the terminator reads only inside that
memory, makes at most `ceil(|s| / 2)` passes, and decodes what `parseHexStringPsz` decodes.
-/
theorem parseHexStringPszAt_append_nul (s : List Char)
    : ∃ passes ≤ (s.length + 1) / 2,
        parseHexStringPszAt (s ++ ['\x00']) = some (parseHexStringPsz (cStr s), passes) := by
  by_cases marker : HasHexPrefix s
  · obtain ⟨more, bound, run⟩ := parseHexLoopAt_eq (s.drop 2) [] 0
      (List.drop_append_of_le_length (two_le_of_hasHexPrefix marker))
    obtain ⟨kept, dropped⟩ := hasHexPrefix_cStr marker
    refine ⟨more, by simp at bound; omega, ?_⟩
    rw [parseHexStringPszAt, hexPrefixAt_append_nul]
    simp only [marker, decide_True, Option.bind_eq_bind, Option.some_bind, if_true, run,
      parseHexStringPsz, kept, dropped, parseHexLoop_cStr, List.nil_append, Nat.zero_add]
  · obtain ⟨more, bound, run⟩ := parseHexLoopAt_eq s [] 0 (List.drop_zero (s ++ ['\x00']))
    refine ⟨more, bound, ?_⟩
    rw [parseHexStringPszAt, hexPrefixAt_append_nul]
    simp only [marker, decide_False, Option.bind_eq_bind, Option.some_bind, Bool.false_eq_true,
      if_false, run, parseHexStringPsz, mt hasHexPrefix_of_cStr marker, parseHexLoop_cStr,
      List.nil_append, Nat.zero_add]

/-- The bounded overload over the characters of `s` and the terminator, with `n` bytes of room,
reads only inside that memory, stores only inside the buffer, makes at most `ceil(|s| / 2)`
passes, and returns what `parseHexStringPszInto` returns.
-/
theorem parseHexStringPszIntoAt_append_nul (s : List Char) {p : List UInt8} {n : Nat}
    (room : n ≤ p.length)
    : ∃ passes ≤ (s.length + 1) / 2, parseHexStringPszIntoAt (s ++ ['\x00']) p n
        = some (parseHexStringPszInto (cStr s) p n, passes) := by
  have test : (if 2 ≤ n then hexPrefixAt (s ++ ['\x00']) else pure false)
      = some (decide (2 ≤ n ∧ HasHexPrefix s)) := by
    by_cases two : 2 ≤ n <;> simp [two, hexPrefixAt_append_nul]
  by_cases marker : 2 ≤ n ∧ HasHexPrefix s
  · obtain ⟨more, bound, run⟩ := parseHexLoopIntoAt_eq (s.drop 2) (j := 0) 0
      (List.drop_append_of_le_length (two_le_of_hasHexPrefix marker.2)) (Nat.zero_le n) room
    obtain ⟨kept, dropped⟩ := hasHexPrefix_cStr marker.2
    refine ⟨more, by simp at bound; omega, ?_⟩
    rw [parseHexStringPszIntoAt, test]
    simp only [marker, and_self, decide_True, Option.bind_eq_bind,
      Option.some_bind, if_true, run, parseHexStringPszInto, kept, dropped,
      parseHexLoopInto_cStr _ (Nat.zero_le n) room, Nat.zero_add, Option.pure_def]
  · obtain ⟨more, bound, run⟩ :=
      parseHexLoopIntoAt_eq s (j := 0) 0 (List.drop_zero (s ++ ['\x00'])) (Nat.zero_le n) room
    have unmarked : ¬(2 ≤ n ∧ HasHexPrefix (cStr s)) :=
      fun h => marker ⟨h.1, hasHexPrefix_of_cStr h.2⟩
    refine ⟨more, bound, ?_⟩
    rw [parseHexStringPszIntoAt, test]
    simp only [marker, decide_False, Option.bind_eq_bind,
      Option.some_bind, Bool.false_eq_true, if_false, run, parseHexStringPszInto, unmarked,
      parseHexLoopInto_cStr _ (Nat.zero_le n) room, Nat.zero_add, Option.pure_def]

/-- Over a NUL-terminated string of `L` characters, followed by nothing readable, neither
`ParseHexString` loop reads past the terminator at index `L`, although a lone last digit steps
`psz` to `L + 1`. The bounded overload stores only into `p[0..n)`: with a buffer of exactly `n`
bytes a store past it would make the run `none`, and a longer buffer keeps its bytes from `p[n]`
on. Each loop makes at most `ceil(L/2)` passes, and both return what the loops of `Decode`
return.
-/
theorem parseHexString_reads_within_terminator (s : List Char)
    : (∃ passes ≤ (s.length + 1) / 2,
        parseHexStringPszAt (s ++ ['\x00']) = some (parseHexStringPsz (cStr s), passes))
      ∧ ∀ (n : Nat) (p : List UInt8), n ≤ p.length → ∃ passes ≤ (s.length + 1) / 2,
        parseHexStringPszIntoAt (s ++ ['\x00']) p n
          = some (parseHexStringPszInto (cStr s) p n, passes)
        ∧ (parseHexStringPszInto (cStr s) p n).2.drop n = p.drop n :=
  ⟨parseHexStringPszAt_append_nul s, fun _ _ room =>
    (parseHexStringPszIntoAt_append_nul s room).imp fun _ ⟨bound, run⟩ =>
      ⟨bound, run, drop_parseHexStringPszInto _ room⟩⟩

/-- A lone last digit after the marker, with two bytes of room: the loop reads the digit and
the terminator, and stops. -/
theorem parseHexString_reads_within_terminator_lone_digit
    : 2 ≤ [(0 : UInt8), 0].length
      ∧ ∃ passes ≤ (['0', 'x', '1'].length + 1) / 2,
        parseHexStringPszIntoAt (['0', 'x', '1'] ++ ['\x00']) [0, 0] 2
          = some (parseHexStringPszInto (cStr ['0', 'x', '1']) [0, 0] 2, passes)
        ∧ (parseHexStringPszInto (cStr ['0', 'x', '1']) [0, 0] 2).2.drop 2
          = [(0 : UInt8), 0].drop 2 :=
  ⟨by decide, (parseHexString_reads_within_terminator ['0', 'x', '1']).2 2 [0, 0] (by decide)⟩

end MetabaseNet.Mtbase
