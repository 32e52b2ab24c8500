import MetabaseNet.Mtbase.Hex.Encode

/-! `ToHexString(const unsigned char* p, std::size_t size)` over memory: `p` is an offset into
the bytes readable from its start, each `*p++` is a checked read, and every read, every store
into `hex[128]` and every `strHex.append(hex, k * 2)` is logged. The run refines the chunked
loop of `Encode`; it reads each of the `size` bytes once and in order, stores only into
`hex[0..127]`, and appends `2 * min(64, size - i)` characters for the chunk at `i`.
-/

namespace MetabaseNet.Mtbase

-----------------------------------------------------------------------------------------
-- The loops over memory
-----------------------------------------------------------------------------------------

/-- A memory access of the loops of `ToHexString`. -/
inductive HexAccess where
  /-- `int c = *p++`, at `p`'s offset from the start of the bytes. -/
  | readByte (offset : Nat)
  /-- `hex[index] = hexc[...]`. -/
  | writeHex (index : Nat)
  /-- `strHex.append(hex, count)`, which reads `hex[0..count)`. -/
  | appendHex (count : Nat)
deriving DecidableEq, Repr

/-- What the loops of `ToHexString` carry: `p`'s offset, the scratch buffer `hex`, the string
`strHex` built so far, and the log of accesses.
-/
structure HexEncoder where
  pos : Nat
  hex : List Char
  strHex : List Char
  log : List HexAccess

/-- The inner loop `for (k = 0; k < 64 && k + i < size; k++)` over memory. `mem` holds the
bytes readable from the pointer's start; `none` marks a read of a byte it does not hold.
Returns the final `k` and state.
-/
def toHexChunkAt (mem : List UInt8) (size i k : Nat) (st : HexEncoder)
    : Option (Nat × HexEncoder) :=
  if k < 64 ∧ k + i < size then do
    let c := (← readAt mem st.pos).toNat
    toHexChunkAt mem size i (k + 1)
      { pos := st.pos + 1
        hex := (st.hex.set (k * 2) (hexc (c >>> 4))).set (k * 2 + 1) (hexc (c &&& 15))
        strHex := st.strHex
        log := st.log ++ [.readByte st.pos, .writeHex (k * 2), .writeHex (k * 2 + 1)] }
  else some (k, st)
termination_by 64 - k

/-- The outer loop `for (size_t i = 0; i < size; i += 64)` over memory; each chunk ends with
`strHex.append(hex, k * 2)`.
-/
def toHexChunksAt (mem : List UInt8) (size i : Nat) (st : HexEncoder) : Option HexEncoder :=
  if i < size then
    match toHexChunkAt mem size i 0 st with
    | some (k, st) =>
        toHexChunksAt mem size (i + 64)
          { st with
            strHex := st.strHex ++ st.hex.take (k * 2)
            log := st.log ++ [.appendHex (k * 2)] }
    | none => none
  else some st
termination_by size - i

/-- `ToHexString(const unsigned char* p, std::size_t size)` over memory: the string and the
log of accesses. The memory is `none` for `nullptr`.
-/
def toHexStringAt (mem : Option (List UInt8)) (size : Nat)
    : Option (List Char × List HexAccess) :=
  match mem with
  | none => some ([], [])
  | some mem =>
      if size = 0 then some ([], [])
      else (toHexChunksAt mem size 0 ⟨0, hexScratch, ['0', 'x'], []⟩).map
        fun st => (st.strHex, st.log)

-----------------------------------------------------------------------------------------
-- The log in closed form
-----------------------------------------------------------------------------------------

/-- The accesses of `n` passes of the inner loop from `k`, with `p` at offset `pos`. -/
def chunkLog (pos k : Nat) : Nat → List HexAccess
  | 0 => []
  | n + 1 =>
      [.readByte pos, .writeHex (k * 2), .writeHex (k * 2 + 1)] ++ chunkLog (pos + 1) (k + 1) n

/-- The accesses of the outer loop from the chunk at `i`, with `p` at offset `i`. -/
def chunksLog (size i : Nat) : List HexAccess :=
  if i < size then
    chunkLog i 0 (min 64 (size - i)) ++ [.appendHex (min 64 (size - i) * 2)]
      ++ chunksLog size (i + 64)
  else []
termination_by size - i

theorem chunksLog_of_lt {size i : Nat} (running : i < size)
    : chunksLog size i = chunkLog i 0 (min 64 (size - i)) ++ [.appendHex (min 64 (size - i) * 2)]
      ++ chunksLog size (i + 64) := by
  rw [chunksLog, if_pos running]

theorem chunksLog_of_not_lt {size i : Nat} (stopped : ¬i < size) : chunksLog size i = [] := by
  rw [chunksLog, if_neg stopped]

/-- The offset of a byte read. -/
def HexAccess.byteRead : HexAccess → Option Nat
  | .readByte offset => some offset
  | _ => none

/-- The count of an append. -/
def HexAccess.appended : HexAccess → Option Nat
  | .appendHex count => some count
  | _ => none

theorem byteRead_chunkLog (pos k n : Nat)
    : (chunkLog pos k n).filterMap HexAccess.byteRead = List.range' pos n := by
  induction n generalizing pos k with
  | zero => rfl
  | succ n ih => simp [chunkLog, HexAccess.byteRead, ih, List.range'_succ]

theorem appended_chunkLog (pos k n : Nat)
    : (chunkLog pos k n).filterMap HexAccess.appended = [] := by
  induction n generalizing pos k with
  | zero => rfl
  | succ n ih => simp [chunkLog, HexAccess.appended, ih]

/-- `n` passes from `k` store below `hex[(k + n) * 2]`. -/
theorem lt_of_writeHex_mem_chunkLog {pos k n index : Nat}
    (member : HexAccess.writeHex index ∈ chunkLog pos k n) : index < (k + n) * 2 := by
  induction n generalizing pos k with
  | zero => simp [chunkLog] at member
  | succ n ih =>
      simp only [chunkLog, List.cons_append, List.nil_append, List.mem_cons,
        HexAccess.writeHex.injEq, reduceCtorEq, false_or] at member
      rcases member with rfl | rfl | later
      · omega
      · omega
      · have := ih later
        omega

/-- The bytes read from the chunk at `i` on are those at offsets `i` to `size - 1`, in order,
by induction on the chunks.
-/
theorem byteRead_chunksLog (size i : Nat)
    : (chunksLog size i).filterMap HexAccess.byteRead = List.range' i (size - i) := by
  induction i using chunksLog.induct size with
  | case1 i running ih =>
      rw [chunksLog_of_lt running]
      simp only [List.filterMap_append, byteRead_chunkLog, ih, List.filterMap_cons,
        HexAccess.byteRead, List.filterMap_nil, List.append_nil]
      by_cases last : size - i ≤ 64
      · rw [Nat.min_eq_right last, show size - (i + 64) = 0 by omega, List.range'_zero,
          List.append_nil]
      · rw [Nat.min_eq_left (by omega), List.range'_append_1,
          show size - (i + 64) + 64 = size - i by omega]
  | case2 i stopped =>
      rw [chunksLog_of_not_lt stopped, show size - i = 0 by omega]
      rfl

/-- Every store of the loops is into `hex[0..127]`, by induction on the chunks. -/
theorem lt_of_writeHex_mem_chunksLog {size i index : Nat}
    (member : HexAccess.writeHex index ∈ chunksLog size i) : index < 128 := by
  induction i using chunksLog.induct size with
  | case1 i running ih =>
      rw [chunksLog_of_lt running] at member
      simp only [List.append_assoc, List.mem_append, List.mem_singleton, reduceCtorEq,
        false_or] at member
      rcases member with inChunk | later
      · have := lt_of_writeHex_mem_chunkLog inChunk
        omega
      · exact ih later
  | case2 i stopped =>
      rw [chunksLog_of_not_lt stopped] at member
      simp at member

/-- The chunk `j` places after `i` appends `2 * min(64, size - i - 64 j)` characters, by
induction on the chunks.
-/
theorem appended_chunksLog (size i : Nat)
    : (chunksLog size i).filterMap HexAccess.appended
      = (List.range ((size - i + 63) / 64)).map fun j => 2 * min 64 (size - i - 64 * j) := by
  induction i using chunksLog.induct size with
  | case1 i running ih =>
      rw [chunksLog_of_lt running, show (size - i + 63) / 64 = (size - (i + 64) + 63) / 64 + 1
        by omega, List.range_succ_eq_map]
      simp only [List.filterMap_append, appended_chunkLog, ih, List.filterMap_cons,
        HexAccess.appended, List.filterMap_nil, List.nil_append, List.singleton_append,
        List.map_cons, List.map_map, List.cons.injEq]
      refine ⟨by rw [Nat.mul_zero, Nat.sub_zero, Nat.mul_comm], List.map_congr_left fun j _ => ?_⟩
      rw [Function.comp_apply, Nat.succ_eq_add_one,
        show size - i - 64 * (j + 1) = size - (i + 64) - 64 * j by omega]
  | case2 i stopped =>
      rw [chunksLog_of_not_lt stopped, show (size - i + 63) / 64 = 0 by omega]
      rfl

-----------------------------------------------------------------------------------------
-- The run refines the chunked loop
-----------------------------------------------------------------------------------------

theorem toHexChunkAt_stop {mem : List UInt8} {size i k : Nat} (stopped : ¬(k < 64 ∧ k + i < size))
    (st : HexEncoder) : toHexChunkAt mem size i k st = some (k, st) := by
  rw [toHexChunkAt, if_neg stopped]

/-- The inner loop over memory, `n` passes before its bound, makes the passes of `toHexChunk`
on the bytes from `p`'s offset, and logs a read and two stores per pass. By induction on `n`.
-/
theorem toHexChunkAt_eq {mem : List UInt8} {size i : Nat} (n : Nat) {k : Nat} {st : HexEncoder}
    (passes : k + n = min 64 (size - i)) (readable : st.pos + n ≤ mem.length)
    : toHexChunkAt mem size i k st
      = some ((toHexChunk size i k (mem.drop st.pos) st.hex).1,
          { st with
            pos := st.pos + n
            hex := (toHexChunk size i k (mem.drop st.pos) st.hex).2.2
            log := st.log ++ chunkLog st.pos k n }) := by
  induction n generalizing k st with
  | zero =>
      rw [toHexChunkAt_stop (by omega), toHexChunk_stop (by omega)]
      simp [chunkLog]
  | succ n ih =>
      obtain ⟨b, rest, dropped⟩ : ∃ b rest, mem.drop st.pos = b :: rest :=
        List.exists_cons_of_length_pos (by simp; omega)
      obtain ⟨found, next⟩ := readAt_of_drop dropped
      rw [toHexChunkAt, if_pos (by omega), found, Option.bind_eq_bind, Option.some_bind]
      dsimp only
      rw [ih (by omega) (by dsimp only; omega), dropped, toHexChunk_step (by omega), next]
      simp only [chunkLog, List.append_assoc, show st.pos + 1 + n = st.pos + (n + 1) by omega]

/-- The outer loop over memory, with `p` at offset `min i size`, runs to completion: its
string is that of `toHexChunks` on the bytes from `p`, and its log is `chunksLog`. By induction
following the loop's chunks.
-/
theorem toHexChunksAt_eq {mem : List UInt8} {size : Nat} (readable : size ≤ mem.length)
    {i : Nat} {st : HexEncoder} (offset : st.pos = min i size) (scratch : st.hex.length = 128)
    : ∃ final, toHexChunksAt mem size i st = some final
        ∧ final.strHex = toHexChunks size i (mem.drop st.pos) st.hex st.strHex
        ∧ final.log = st.log ++ chunksLog size i := by
  induction i, st using toHexChunksAt.induct mem size with
  | case1 i st running k st' chunk ih =>
      have start : st.pos = i := by omega
      rw [toHexChunkAt_eq (min 64 (size - i)) (by omega) (by omega), Option.some.injEq,
        Prod.mk.injEq] at chunk
      obtain ⟨rfl, rfl⟩ := chunk
      obtain ⟨hk, hp, hl, -⟩ :=
        @toHexChunk_spec size i 0 (mem.drop st.pos) st.hex (Nat.zero_le _)
          (by rw [List.length_drop]; omega) scratch
      obtain ⟨final, run, strHex, log⟩ := ih (by dsimp only; omega) (by dsimp only; exact hl)
      refine ⟨final, by rw [toHexChunksAt, if_pos running, toHexChunkAt_eq (min 64 (size - i))
        (by omega) (by omega)]; exact run, ?_, ?_⟩
      · rw [strHex, toHexChunks_step running, hp, hk, List.drop_drop]
        simp only [Nat.sub_zero, Nat.add_comm]
      · rw [log, chunksLog_of_lt running, hk]
        simp only [start, List.append_assoc]
  | case2 i st running chunk =>
      rw [toHexChunkAt_eq (min 64 (size - i)) (by omega) (by omega)] at chunk
      cases chunk
  | case3 i st stopped =>
      exact ⟨st, by rw [toHexChunksAt, if_neg stopped], by rw [toHexChunks, if_neg stopped],
        by rw [chunksLog_of_not_lt stopped, List.append_nil]⟩

/-- The chunked encoder is the per-byte encoder on `size >= 1` readable bytes: the run over
memory gives `"0x"` and two digits per byte, reads each byte exactly once and in order, stores
only into `hex[0..127]`, and appends `2 * min(64, size - i)` characters for the chunk at
`i = 64 j`.
-/
theorem toHexStringPtr_chunked_eq_perByte (mem : List UInt8) (size : Nat) (nonempty : 0 < size)
    (readable : size ≤ mem.length)
    : toHexStringPtr (some mem) size = '0' :: 'x' :: (mem.take size).flatMap hexByte
      ∧ ∃ log, toHexStringAt (some mem) size = some (toHexStringPtr (some mem) size, log)
        ∧ log.filterMap HexAccess.byteRead = List.range size
        ∧ (∀ index, HexAccess.writeHex index ∈ log → index < 128)
        ∧ log.filterMap HexAccess.appended
          = (List.range ((size + 63) / 64)).map fun j => 2 * min 64 (size - 64 * j) := by
  have scratch : hexScratch.length = 128 := List.length_replicate _ _
  obtain ⟨final, run, strHex, log⟩ :=
    @toHexChunksAt_eq mem size readable 0 ⟨0, hexScratch, ['0', 'x'], []⟩ (by simp) scratch
  have closed : toHexStringPtr (some mem) size = '0' :: 'x' :: (mem.take size).flatMap hexByte := by
    simp [toHexStringPtr, nonempty.ne', toHexChunks_spec (by omega : size - 0 ≤ mem.length) scratch]
  refine ⟨closed, final.log, ?_, ?_, fun index member => ?_, ?_⟩
  · simp only [toHexStringAt, nonempty.ne', if_false, run, Option.map_some', toHexStringPtr,
      strHex, List.drop_zero]
  · rw [log, List.nil_append, byteRead_chunksLog, Nat.sub_zero, List.range_eq_range']
  · rw [log, List.nil_append] at member
    exact lt_of_writeHex_mem_chunksLog member
  · rw [log, List.nil_append, appended_chunksLog, Nat.sub_zero]

/-- Sixty-five bytes make a full chunk and a chunk of one byte. -/
theorem toHexStringPtr_chunked_eq_perByte_sixtyFive
    : 0 < 65 ∧ 65 ≤ (List.replicate 65 (0xab : UInt8)).length
      ∧ toHexStringPtr (some (List.replicate 65 0xab)) 65
          = '0' :: 'x' :: ((List.replicate 65 (0xab : UInt8)).take 65).flatMap hexByte
        ∧ ∃ log, toHexStringAt (some (List.replicate 65 0xab)) 65
            = some (toHexStringPtr (some (List.replicate 65 0xab)) 65, log)
          ∧ log.filterMap HexAccess.byteRead = List.range 65
          ∧ (∀ index, HexAccess.writeHex index ∈ log → index < 128)
          ∧ log.filterMap HexAccess.appended
            = (List.range ((65 + 63) / 64)).map fun j => 2 * min 64 (65 - 64 * j) :=
  have readable : 65 ≤ (List.replicate 65 (0xab : UInt8)).length := (List.length_replicate 65 _).ge
  ⟨Nat.succ_pos 64, readable,
    toHexStringPtr_chunked_eq_perByte (List.replicate 65 0xab) 65 (Nat.succ_pos 64) readable⟩

end MetabaseNet.Mtbase
