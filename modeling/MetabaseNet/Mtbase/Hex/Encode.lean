import MetabaseNet.Mtbase.Hex.Digits

/-! `ToHexString` on a byte buffer: the chunked loop of the source, which encodes up to 64
bytes at a time into a 128-character scratch buffer, and its closed form as the per-byte
encoding behind a `0x` marker.
-/

namespace MetabaseNet.Mtbase

-----------------------------------------------------------------------------------------
-- The chunked loop
-----------------------------------------------------------------------------------------

/-- The scratch buffer `char hex[128]`; the loop reads only the entries it wrote, so the
initial fill is immaterial.
-/
def hexScratch : List Char := List.replicate 128 '\x00'

/-- The inner loop of `ToHexString`: while `k < 64 && k + i < size`, the byte `*p++` goes to
`hex[k * 2]` and `hex[k * 2 + 1]`. The pointer `p` is the list of bytes still to be read.
Returns the final `k`, `p` and `hex`.
-/
def toHexChunk (size i k : Nat) (p : List UInt8) (hex : List Char)
    : Nat × List UInt8 × List Char :=
  if k < 64 ∧ k + i < size then
    let c := (p.headD 0).toNat
    toHexChunk size i (k + 1) p.tail
      ((hex.set (k * 2) (hexc (c >>> 4))).set (k * 2 + 1) (hexc (c &&& 15)))
  else (k, p, hex)
termination_by 64 - k

/-- The outer loop of `ToHexString`, over the chunk offsets `i = 0, 64, 128, ...` below
`size`; each chunk appends `strHex.append(hex, k * 2)`.
-/
def toHexChunks (size i : Nat) (p : List UInt8) (hex strHex : List Char) : List Char :=
  if i < size then
    let chunk := toHexChunk size i 0 p hex
    toHexChunks size (i + 64) chunk.2.1 chunk.2.2 (strHex ++ chunk.2.2.take (chunk.1 * 2))
  else strHex
termination_by size - i

/-- `ToHexString(const unsigned char* p, std::size_t size)`. The pointer is `none` for
`nullptr`, and otherwise the bytes readable from it.
-/
def toHexStringPtr (p : Option (List UInt8)) (size : Nat) : List Char :=
  match p with
  | none => []
  | some p => if size = 0 then [] else toHexChunks size 0 p hexScratch ['0', 'x']

/-- `ToHexString(const std::vector<unsigned char>& vch)`. -/
def toHexString (vch : List UInt8) : List Char := toHexStringPtr (some vch) vch.length

-----------------------------------------------------------------------------------------
-- Loop invariants
-----------------------------------------------------------------------------------------

/-- One step of the inner loop on the byte `b` at the pointer. -/
theorem toHexChunk_step {size i k : Nat} (running : k < 64 ∧ k + i < size) (b : UInt8)
    (rest : List UInt8) (hex : List Char)
    : toHexChunk size i k (b :: rest) hex
      = toHexChunk size i (k + 1) rest
          ((hex.set (k * 2) (hexc (b.toNat >>> 4))).set (k * 2 + 1) (hexc (b.toNat &&& 15))) := by
  rw [toHexChunk, if_pos running]
  rfl

theorem toHexChunk_stop {size i k : Nat} (stopped : ¬(k < 64 ∧ k + i < size))
    (p : List UInt8) (hex : List Char) : toHexChunk size i k p hex = (k, p, hex) := by
  rw [toHexChunk, if_neg stopped]

/-- The inner loop, started at `k` below its bound `m = min 64 (size - i)`, runs to `k = m`,
consumes `m - k` bytes, and leaves their digits after the first `k * 2` scratch entries.
Proof: induction on the bytes still to be read; each step writes the two entries just past
the encoded prefix.
-/
theorem toHexChunk_spec {size i k : Nat} {p : List UInt8} {hex : List Char}
    (start : k ≤ min 64 (size - i)) (readable : min 64 (size - i) - k ≤ p.length)
    (scratch : hex.length = 128)
    : (toHexChunk size i k p hex).1 = min 64 (size - i)
      ∧ (toHexChunk size i k p hex).2.1 = p.drop (min 64 (size - i) - k)
      ∧ (toHexChunk size i k p hex).2.2.length = 128
      ∧ (toHexChunk size i k p hex).2.2.take (min 64 (size - i) * 2)
        = hex.take (k * 2) ++ (p.take (min 64 (size - i) - k)).flatMap hexByte := by
  by_cases done : k = min 64 (size - i)
  · subst done
    rw [toHexChunk_stop (by omega)]
    simp [scratch]
  induction p generalizing k hex with
  | nil => rw [List.length_nil] at readable; omega
  | cons b rest ih =>
      rw [toHexChunk_step (by omega)]
      set hex' := (hex.set (k * 2) (hexc (b.toNat >>> 4))).set (k * 2 + 1) (hexc (b.toNat &&& 15))
      have remaining : min 64 (size - i) - k = (min 64 (size - i) - (k + 1)) + 1 := by omega
      have written : hex'.take ((k + 1) * 2) = hex.take (k * 2) ++ hexByte b := by
        rw [show (k + 1) * 2 = k * 2 + 1 + 1 by omega,
          take_set_succ _ (by rw [List.length_set, scratch]; omega),
          take_set_succ _ (by rw [scratch]; omega), List.append_assoc]
        rfl
      by_cases last : k + 1 = min 64 (size - i)
      · rw [toHexChunk_stop (by omega)]
        simp [← last, hex', scratch, written]
      · obtain ⟨hk, hp, hl, ht⟩ := @ih (k + 1) hex' (by omega)
          (by rw [List.length_cons] at readable; omega)
          (by simp only [hex', List.length_set, scratch]) last
        refine ⟨hk, by rw [hp, remaining, List.drop_succ_cons], hl, ?_⟩
        rw [ht, remaining, List.take_succ_cons, List.flatMap_cons, ← List.append_assoc, written]

/-- One chunk of the outer loop. -/
theorem toHexChunks_step {size i : Nat} (running : i < size) (p : List UInt8)
    (hex strHex : List Char)
    : toHexChunks size i p hex strHex
      = toHexChunks size (i + 64) (toHexChunk size i 0 p hex).2.1 (toHexChunk size i 0 p hex).2.2
          (strHex ++ (toHexChunk size i 0 p hex).2.2.take ((toHexChunk size i 0 p hex).1 * 2)) := by
  rw [toHexChunks, if_pos running]

/-- The outer loop appends the digits of the `size - i` bytes still to be read.
Proof: induction on the chunks left, with the inner loop's invariant per chunk.
-/
theorem toHexChunks_spec {size i : Nat} {p : List UInt8} {hex strHex : List Char}
    (readable : size - i ≤ p.length) (scratch : hex.length = 128)
    : toHexChunks size i p hex strHex = strHex ++ (p.take (size - i)).flatMap hexByte := by
  induction i, p, hex, strHex using toHexChunks.induct size with
  | case1 i p hex strHex running chunk ih =>
      obtain ⟨hk, hp, hl, ht⟩ :=
        @toHexChunk_spec size i 0 p hex (Nat.zero_le _) (by omega) scratch
      simp only [Nat.sub_zero] at hp ht
      simp only [chunk, hp, hk, ht] at ih
      rw [toHexChunks_step running, hp, hk, ht, ih (by rw [List.length_drop]; omega) hl]
      have split : p.take (size - i)
          = p.take (min 64 (size - i)) ++ (p.drop (min 64 (size - i))).take (size - (i + 64)) := by
        rw [← List.take_add, show min 64 (size - i) + (size - (i + 64)) = size - i by omega]
      simp only [split, List.flatMap_append, Nat.zero_mul, List.take_zero, List.nil_append,
        List.append_assoc]
  | case2 i p hex strHex stopped =>
      rw [toHexChunks, if_neg stopped]
      simp [show size - i = 0 by omega]

@[simp] theorem length_flatMap_hexByte (v : List UInt8)
    : (v.flatMap hexByte).length = 2 * v.length := by
  induction v with
  | nil => rfl
  | cons b rest ih => simp [hexByte, ih]; omega

/-- `ToHexString` of a byte vector is `0x` and two lowercase digits per byte, in order, or
the empty string for the empty vector; the 64-byte chunks leave no trace.
-/
theorem toHexString_eq (vch : List UInt8)
    : toHexString vch = if vch = [] then [] else '0' :: 'x' :: vch.flatMap hexByte := by
  by_cases empty : vch = []
  · simp [toHexString, toHexStringPtr, empty]
  · have scratch : hexScratch.length = 128 := List.length_replicate _ _
    simp [toHexString, toHexStringPtr, empty, toHexChunks_spec (Nat.sub_le _ _) scratch]

end MetabaseNet.Mtbase
