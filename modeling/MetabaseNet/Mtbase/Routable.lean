import Mathlib.Data.Fin.VecNotation
import Mathlib.Data.List.GetD
import Mathlib.Data.List.OfFn
import MetabaseNet.Mtbase.Bytes

/-! `IsRoutable` on a Boost.Asio address. An address is not routable exactly when it lies in
one of the reserved blocks the source's comments name, where the block `P/L` holds the
addresses of `P`'s family whose first `L` bits are those of `P`: each mask, byte comparison and
range test of the source is one such prefix.
-/

namespace MetabaseNet.Mtbase

-----------------------------------------------------------------------------------------
-- Addresses and the source's tests
-----------------------------------------------------------------------------------------

/-- `boost::asio::ip::address`: an IPv4 address by its value `to_v4().to_ulong()`, or an IPv6
address by its bytes `to_v6().to_bytes()`, in network order.
-/
inductive Address where
  | v4 (u : UInt32)
  | v6 (b : Fin 16 → UInt8)

/-- `address::is_v4()`. -/
def Address.isV4 : Address → Bool
  | .v4 _ => true
  | .v6 _ => false

/-- `address::is_loopback()`: Boost tests `(to_uint() & 0xFF000000) == 0x7F000000` on IPv4
and the bytes of `::1` on IPv6.
-/
def Address.isLoopback : Address → Bool
  | .v4 u => (u &&& 0xFF000000) == 0x7F000000
  | .v6 b => decide (b = ![0, 0, 0, 0, 0, 0, 0, 0, 0, 0, 0, 0, 0, 0, 0, 1])

/-- `address::is_unspecified()`: Boost tests for `0.0.0.0` and `::`. -/
def Address.isUnspecified : Address → Bool
  | .v4 u => u == 0
  | .v6 b => decide (b = ![0, 0, 0, 0, 0, 0, 0, 0, 0, 0, 0, 0, 0, 0, 0, 0])

/-- `IsRoutable(address)`. -/
def isRoutable (address : Address) : Bool :=
  if address.isLoopback || address.isUnspecified then false
  else
    match address with
    | .v4 u =>
        let u := u.toNat
        if (u &&& 0xFF000000) == 0x0A000000 || (u &&& 0xFFFF0000) == 0xC0A80000
            || (u ≥ 0xAC100000 && u < 0xAC200000) then false
        else if (u &&& 0xFFFF0000) == 0xA9FE0000 then false
        else true
    | .v6 b =>
        if b 0 == 0xFE && b 1 == 0x80 && b 2 == 0 && b 3 == 0
            && b 4 == 0 && b 5 == 0 && b 6 == 0 && b 7 == 0 then false
        else if (b 0 &&& 0xFE) == 0xFC then false
        else if b 0 == 0x20 && b 1 == 0x01 && b 2 == 0x00 && (b 3 &&& 0xF0) == 0x10 then false
        else true

-----------------------------------------------------------------------------------------
-- Reserved blocks
-----------------------------------------------------------------------------------------

/-- The `w` bits of `x`, most significant first. -/
def msbBits (w x : Nat) : List Bool := (List.range w).map fun i => x.testBit (w - 1 - i)

/-- The eight bits of a byte, most significant first. -/
def byteBits (x : UInt8) : List Bool := msbBits 8 x.toNat

/-- The bits of an address in network order: 32 for IPv4, 128 for IPv6. -/
def Address.bits : Address → List Bool
  | .v4 u => msbBits 32 u.toNat
  | .v6 b => (List.ofFn b).flatMap byteBits

/-- The CIDR block `base/length`. -/
structure CidrBlock where
  base : Address
  length : Nat

/-- `a` lies in `P/L`: it has the family of `P`, and its first `L` bits are those of `P`. -/
def CidrBlock.Contains (block : CidrBlock) (a : Address) : Prop :=
  a.isV4 = block.base.isV4 ∧ a.bits.take block.length = block.base.bits.take block.length

instance (block : CidrBlock) (a : Address) : Decidable (block.Contains a) :=
  inferInstanceAs (Decidable (_ ∧ _))

/-- The blocks named by the comments of `IsRoutable` and by Boost's loopback and unspecified
tests: `127.0.0.0/8`, `0.0.0.0/32`, `10.0.0.0/8`, `172.16.0.0/12`, `192.168.0.0/16`,
`169.254.0.0/16`, `::1/128`, `::/128`, `fe80::/64`, `fc00::/7` and `2001:10::/28`.
-/
def reservedBlocks : List CidrBlock :=
  [⟨.v4 0x7F000000, 8⟩, ⟨.v4 0, 32⟩, ⟨.v4 0x0A000000, 8⟩, ⟨.v4 0xAC100000, 12⟩,
    ⟨.v4 0xC0A80000, 16⟩, ⟨.v4 0xA9FE0000, 16⟩,
    ⟨.v6 ![0, 0, 0, 0, 0, 0, 0, 0, 0, 0, 0, 0, 0, 0, 0, 1], 128⟩,
    ⟨.v6 ![0, 0, 0, 0, 0, 0, 0, 0, 0, 0, 0, 0, 0, 0, 0, 0], 128⟩,
    ⟨.v6 ![0xfe, 0x80, 0, 0, 0, 0, 0, 0, 0, 0, 0, 0, 0, 0, 0, 0], 64⟩,
    ⟨.v6 ![0xfc, 0, 0, 0, 0, 0, 0, 0, 0, 0, 0, 0, 0, 0, 0, 0], 7⟩,
    ⟨.v6 ![0x20, 0x01, 0x00, 0x10, 0, 0, 0, 0, 0, 0, 0, 0, 0, 0, 0, 0], 28⟩]

-----------------------------------------------------------------------------------------
-- Prefixes of bits
-----------------------------------------------------------------------------------------

@[simp] theorem length_msbBits (w x : Nat) : (msbBits w x).length = w := by simp [msbBits]

/-- The first `L` of the `w` bits of two numbers agree when the numbers agree above bit
`w - L`. Proof: bit `i` from the top is bit `w - 1 - i` of the number.
-/
theorem take_msbBits_eq_iff {w x y L : Nat} (hx : x < 2 ^ w) (hy : y < 2 ^ w) (le : L ≤ w)
    : (msbBits w x).take L = (msbBits w y).take L ↔ x >>> (w - L) = y >>> (w - L) := by
  simp only [msbBits, ← List.map_take, List.take_range, Nat.min_eq_left le, List.map_inj_left,
    List.mem_range]
  constructor
  · intro bits
    apply Nat.eq_of_testBit_eq
    intro j
    simp only [Nat.testBit_shiftRight]
    by_cases inside : w - L + j < w
    · have := bits (w - 1 - (w - L + j)) (by omega)
      rwa [show w - 1 - (w - 1 - (w - L + j)) = w - L + j by omega] at this
    · rw [Nat.testBit_lt_two_pow (lt_of_lt_of_le hx (Nat.pow_le_pow_right (by omega) (by omega))),
        Nat.testBit_lt_two_pow (lt_of_lt_of_le hy (Nat.pow_le_pow_right (by omega) (by omega)))]
  · intro high i small
    have := congrArg (fun z => z.testBit (L - 1 - i)) high
    simp only [Nat.testBit_shiftRight] at this
    rwa [show w - L + (L - 1 - i) = w - 1 - i by omega] at this

/-- A mask of the high bits keeps the number above bit `s`. -/
theorem and_highMask {x w s : Nat} (hx : x < 2 ^ w) (le : s ≤ w)
    : x &&& (2 ^ w - 2 ^ s) = x >>> s <<< s := by
  have mask : 2 ^ w - 2 ^ s = (2 ^ (w - s) - 1) <<< s := by
    rw [Nat.shiftLeft_eq, Nat.sub_mul, Nat.one_mul, ← Nat.pow_add, Nat.sub_add_cancel le]
  apply Nat.eq_of_testBit_eq
  intro i
  rw [mask, Nat.testBit_and, Nat.testBit_shiftLeft, Nat.testBit_shiftLeft,
    Nat.testBit_two_pow_sub_one, Nat.testBit_shiftRight]
  by_cases high : s ≤ i
  · rw [show s + (i - s) = i by omega]
    by_cases inside : i < w
    · simp [high, show i - s < w - s by omega]
    · have big : x < 2 ^ i := lt_of_lt_of_le hx (Nat.pow_le_pow_right (by omega) (by omega))
      simp [Nat.testBit_lt_two_pow big]
  · simp [high]

/-- A mask of the high bits compares the number above bit `s`. -/
theorem and_highMask_eq_iff {x c w s : Nat} (hx : x < 2 ^ w) (le : s ≤ w) (low : c % 2 ^ s = 0)
    : x &&& (2 ^ w - 2 ^ s) = c ↔ x >>> s = c >>> s := by
  rw [and_highMask hx le, Nat.shiftLeft_eq, Nat.shiftRight_eq_div_pow, Nat.shiftRight_eq_div_pow]
  constructor
  · rintro rfl
    rw [Nat.mul_div_cancel _ (Nat.two_pow_pos s)]
  · intro high
    rw [high]
    exact Nat.div_mul_cancel (Nat.dvd_of_mod_eq_zero low)

-----------------------------------------------------------------------------------------
-- IPv4
-----------------------------------------------------------------------------------------

/-- An IPv4 address lies in an IPv4 block when the two values agree above bit `32 - L`. -/
theorem contains_v4_iff (u P : UInt32) {L : Nat} (le : L ≤ 32)
    : CidrBlock.Contains ⟨.v4 P, L⟩ (.v4 u)
      ↔ u.toNat >>> (32 - L) = P.toNat >>> (32 - L) := by
  simp only [CidrBlock.Contains, Address.isV4, Address.bits, true_and]
  exact take_msbBits_eq_iff u.toNat_lt_size P.toNat_lt_size le

@[simp] theorem not_contains_v6_v4 (P : Fin 16 → UInt8) (L : Nat) (u : UInt32)
    : ¬CidrBlock.Contains ⟨.v6 P, L⟩ (.v4 u) := by
  simp [CidrBlock.Contains, Address.isV4]

/-- Boost's IPv4 loopback test is the block `127.0.0.0/8`. -/
theorem isLoopback_v4_iff (u : UInt32)
    : (Address.v4 u).isLoopback = true ↔ CidrBlock.Contains ⟨.v4 0x7F000000, 8⟩ (.v4 u) := by
  rw [contains_v4_iff u _ (by omega), Address.isLoopback, beq_iff_eq, eq_iff_toNat32,
    UInt32.and_toNat, toNat_lit32, toNat_lit32,
    show (0xFF000000 % 4294967296 : Nat) = 2 ^ 32 - 2 ^ 24 by norm_num]
  exact and_highMask_eq_iff u.toNat_lt_size (by omega) (by norm_num)

/-- Boost's IPv4 unspecified test is the block `0.0.0.0/32`. -/
theorem isUnspecified_v4_iff (u : UInt32)
    : (Address.v4 u).isUnspecified = true ↔ CidrBlock.Contains ⟨.v4 0, 32⟩ (.v4 u) := by
  rw [contains_v4_iff u _ (by omega), Address.isUnspecified, beq_iff_eq, eq_iff_toNat32]
  rfl

/-- The mask test for `10.0.0.0` is the block `10.0.0.0/8`. -/
theorem privateNetwork10_iff (u : UInt32)
    : (u.toNat &&& 0xFF000000 == 0x0A000000) = true
      ↔ CidrBlock.Contains ⟨.v4 0x0A000000, 8⟩ (.v4 u) := by
  rw [contains_v4_iff u _ (by omega), beq_iff_eq, toNat_lit32,
    show (0xFF000000 : Nat) = 2 ^ 32 - 2 ^ 24 by norm_num]
  exact and_highMask_eq_iff u.toNat_lt_size (by omega) (by norm_num)

/-- The mask test for `192.168.0.0` is the block `192.168.0.0/16`. -/
theorem privateNetwork192_iff (u : UInt32)
    : (u.toNat &&& 0xFFFF0000 == 0xC0A80000) = true
      ↔ CidrBlock.Contains ⟨.v4 0xC0A80000, 16⟩ (.v4 u) := by
  rw [contains_v4_iff u _ (by omega), beq_iff_eq, toNat_lit32,
    show (0xFFFF0000 : Nat) = 2 ^ 32 - 2 ^ 16 by norm_num]
  exact and_highMask_eq_iff u.toNat_lt_size (by omega) (by norm_num)

/-- The range test `0xAC100000 <= u < 0xAC200000` is the block `172.16.0.0/12`. -/
theorem privateNetwork172_iff (u : UInt32)
    : (decide (u.toNat ≥ 0xAC100000) && decide (u.toNat < 0xAC200000)) = true
      ↔ CidrBlock.Contains ⟨.v4 0xAC100000, 12⟩ (.v4 u) := by
  rw [contains_v4_iff u _ (by omega), toNat_lit32, Bool.and_eq_true, decide_eq_true_iff,
    decide_eq_true_iff, Nat.shiftRight_eq_div_pow, Nat.shiftRight_eq_div_pow]
  omega

/-- The mask test for `169.254.0.0` is the block `169.254.0.0/16`. -/
theorem linkLocal169_iff (u : UInt32)
    : (u.toNat &&& 0xFFFF0000 == 0xA9FE0000) = true
      ↔ CidrBlock.Contains ⟨.v4 0xA9FE0000, 16⟩ (.v4 u) := by
  rw [contains_v4_iff u _ (by omega), beq_iff_eq, toNat_lit32,
    show (0xFFFF0000 : Nat) = 2 ^ 32 - 2 ^ 16 by norm_num]
  exact and_highMask_eq_iff u.toNat_lt_size (by omega) (by norm_num)

-----------------------------------------------------------------------------------------
-- IPv6
-----------------------------------------------------------------------------------------

theorem ofFn_sixteen {α : Type} (b : Fin 16 → α)
    : List.ofFn b
      = [b 0, b 1, b 2, b 3, b 4, b 5, b 6, b 7, b 8, b 9, b 10, b 11, b 12, b 13, b 14, b 15] := by
  simp only [List.ofFn_succ, List.ofFn_zero]
  rfl

@[simp] theorem length_flatMap_byteBits (l : List UInt8)
    : (l.flatMap byteBits).length = 8 * l.length := by
  induction l with
  | nil => rfl
  | cons x rest ih =>
      simp only [List.flatMap_cons, List.length_append, byteBits, length_msbBits, ih,
        List.length_cons]
      omega

theorem byteBits_inj {x y : UInt8} (same : byteBits x = byteBits y) : x = y := by
  have high := (take_msbBits_eq_iff (L := 8) x.toNat_lt_size y.toNat_lt_size (Nat.le_refl 8)).1
    (congrArg (List.take 8) same)
  exact UInt8.toNat.inj high

theorem flatMap_byteBits_inj {l m : List UInt8} (same : l.flatMap byteBits = m.flatMap byteBits)
    : l = m := by
  have lengths := congrArg List.length same
  simp only [length_flatMap_byteBits] at lengths
  induction l generalizing m with
  | nil =>
      cases m with
      | nil => rfl
      | cons y more => simp at lengths
  | cons x rest ih =>
      cases m with
      | nil => simp at lengths
      | cons y more =>
          rw [List.flatMap_cons, List.flatMap_cons] at same
          obtain ⟨first, others⟩ := List.append_inj same (by simp [byteBits])
          rw [byteBits_inj first, ih others (by simpa using lengths)]

/-- The first `8q + r` bits of a byte string: the bits of its first `q` bytes, then the first
`r` bits of the rest.
-/
theorem take_flatMap_byteBits {l : List UInt8} {q : Nat} (hq : q ≤ l.length) (r : Nat)
    : (l.flatMap byteBits).take (8 * q + r)
      = (l.take q).flatMap byteBits ++ ((l.drop q).flatMap byteBits).take r := by
  conv_lhs => rw [← List.take_append_drop q l, List.flatMap_append]
  rw [List.take_append_eq_append_take,
    List.take_of_length_le (by simp only [length_flatMap_byteBits, List.length_take]; omega),
    length_flatMap_byteBits, List.length_take, Nat.min_eq_left hq, Nat.add_sub_cancel_left]

/-- The first `r ≤ 8` bits after `q` bytes are those of byte `q`. -/
theorem take_drop_flatMap_byteBits {l : List UInt8} {q : Nat} (inside : q < l.length) {r : Nat}
    (hr : r ≤ 8) : ((l.drop q).flatMap byteBits).take r = (byteBits (l.getD q 0)).take r := by
  rw [List.drop_eq_getElem_cons inside, List.flatMap_cons,
    List.take_append_of_le_length (by simp [byteBits, hr]), List.getD_eq_getElem _ _ inside]

/-- The first `r ≤ 8` bits after byte `q` agree when the top `r` bits of byte `q` do. -/
theorem take_drop_flatMap_byteBits_eq_iff {l m : List UInt8} (same : l.length = m.length)
    (q : Nat) {r : Nat} (hr : r ≤ 8)
    : ((l.drop q).flatMap byteBits).take r = ((m.drop q).flatMap byteBits).take r
      ↔ (l.getD q 0).toNat >>> (8 - r) = (m.getD q 0).toNat >>> (8 - r) := by
  by_cases inside : q < l.length
  · rw [take_drop_flatMap_byteBits inside hr, take_drop_flatMap_byteBits (by omega) hr, byteBits,
      byteBits, take_msbBits_eq_iff (UInt8.toNat_lt_size _) (UInt8.toNat_lt_size _) hr]
  · rw [List.drop_of_length_le (by omega), List.drop_of_length_le (by omega),
      List.getD_eq_default _ _ (by omega), List.getD_eq_default _ _ (by omega)]
    simp

/-- An IPv6 address lies in an IPv6 block of length `8q + r` when it has the block's first
`q` bytes and the top `r` bits of byte `q`.
-/
theorem contains_v6_iff (b P : Fin 16 → UInt8) {L q r : Nat} (split : L = 8 * q + r)
    (hq : q ≤ 16) (hr : r ≤ 8)
    : CidrBlock.Contains ⟨.v6 P, L⟩ (.v6 b)
      ↔ (List.ofFn b).take q = (List.ofFn P).take q
        ∧ ((List.ofFn b).getD q 0).toNat >>> (8 - r)
          = ((List.ofFn P).getD q 0).toNat >>> (8 - r) := by
  subst split
  have same : (List.ofFn b).length = (List.ofFn P).length := by simp
  simp only [CidrBlock.Contains, Address.isV4, Address.bits, true_and]
  rw [take_flatMap_byteBits (by simpa using hq), take_flatMap_byteBits (by simpa using hq)]
  constructor
  · intro bits
    obtain ⟨front, back⟩ := List.append_inj bits
      (by simp only [length_flatMap_byteBits, List.length_take, same])
    exact ⟨flatMap_byteBits_inj front, (take_drop_flatMap_byteBits_eq_iff same q hr).1 back⟩
  · rintro ⟨front, back⟩
    rw [front, (take_drop_flatMap_byteBits_eq_iff same q hr).2 back]

@[simp] theorem not_contains_v4_v6 (P : UInt32) (L : Nat) (b : Fin 16 → UInt8)
    : ¬CidrBlock.Contains ⟨.v4 P, L⟩ (.v6 b) := by
  simp [CidrBlock.Contains, Address.isV4]

/-- A block of all 128 bits holds its base address alone. -/
theorem contains_v6_full (b P : Fin 16 → UInt8)
    : CidrBlock.Contains ⟨.v6 P, 128⟩ (.v6 b) ↔ b = P := by
  rw [contains_v6_iff b P (q := 16) (r := 0) rfl (by omega) (by omega),
    List.take_of_length_le (by simp), List.take_of_length_le (by simp), List.ofFn_inj,
    List.getD_eq_default _ _ (by simp), List.getD_eq_default _ _ (by simp)]
  simp

/-- Boost's IPv6 loopback test is the block `::1/128`. -/
theorem isLoopback_v6_iff (b : Fin 16 → UInt8)
    : (Address.v6 b).isLoopback = true
      ↔ CidrBlock.Contains ⟨.v6 ![0, 0, 0, 0, 0, 0, 0, 0, 0, 0, 0, 0, 0, 0, 0, 1], 128⟩
          (.v6 b) := by
  rw [contains_v6_full, Address.isLoopback, decide_eq_true_iff]

/-- Boost's IPv6 unspecified test is the block `::/128`. -/
theorem isUnspecified_v6_iff (b : Fin 16 → UInt8)
    : (Address.v6 b).isUnspecified = true
      ↔ CidrBlock.Contains ⟨.v6 ![0, 0, 0, 0, 0, 0, 0, 0, 0, 0, 0, 0, 0, 0, 0, 0], 128⟩
          (.v6 b) := by
  rw [contains_v6_full, Address.isUnspecified, decide_eq_true_iff]

theorem byte_shiftRight_eight (x : UInt8) : x.toNat >>> 8 = 0 := by
  rw [Nat.shiftRight_eq_div_pow]
  exact Nat.div_eq_of_lt x.toNat_lt_size

/-- The byte test for `FE80::` is the block `fe80::/64`. -/
theorem linkLocalFe80_iff (b : Fin 16 → UInt8)
    : (b 0 == 0xFE && b 1 == 0x80 && b 2 == 0 && b 3 == 0
        && b 4 == 0 && b 5 == 0 && b 6 == 0 && b 7 == 0) = true
      ↔ CidrBlock.Contains ⟨.v6 ![0xfe, 0x80, 0, 0, 0, 0, 0, 0, 0, 0, 0, 0, 0, 0, 0, 0], 64⟩
          (.v6 b) := by
  rw [contains_v6_iff b _ (q := 8) (r := 0) rfl (by omega) (by omega), ofFn_sixteen b]
  simp only [List.ofFn_succ, Matrix.cons_val_zero, Matrix.cons_val_succ, List.ofFn_zero]
  simp [byte_shiftRight_eight, and_assoc]

/-- The mask test `(b[0] & 0xFE) == 0xFC` is the block `fc00::/7`. -/
theorem uniqueLocal_iff (b : Fin 16 → UInt8)
    : ((b 0 &&& 0xFE) == 0xFC) = true
      ↔ CidrBlock.Contains ⟨.v6 ![0xfc, 0, 0, 0, 0, 0, 0, 0, 0, 0, 0, 0, 0, 0, 0, 0], 7⟩
          (.v6 b) := by
  rw [contains_v6_iff b _ (q := 0) (r := 7) rfl (by omega) (by omega), beq_iff_eq, eq_iff_toNat8,
    UInt8.and_toNat, toNat_lit8, toNat_lit8, show (0xFE % 256 : Nat) = 2 ^ 8 - 2 ^ 1 by norm_num,
    and_highMask_eq_iff (b 0).toNat_lt_size (by omega) (by norm_num), ofFn_sixteen b]
  simp only [List.ofFn_succ, Matrix.cons_val_zero, Matrix.cons_val_succ, List.ofFn_zero,
    List.take_zero, List.getD_cons_zero, toNat_lit8, true_and, Nat.reduceSub, Nat.reduceMod,
    Nat.reduceShiftRight]

/-- The byte test for `2001:10::` is the block `2001:10::/28`. -/
theorem orchid_iff (b : Fin 16 → UInt8)
    : (b 0 == 0x20 && b 1 == 0x01 && b 2 == 0x00 && (b 3 &&& 0xF0) == 0x10) = true
      ↔ CidrBlock.Contains
          ⟨.v6 ![0x20, 0x01, 0x00, 0x10, 0, 0, 0, 0, 0, 0, 0, 0, 0, 0, 0, 0], 28⟩ (.v6 b) := by
  have nibble : (b 3 &&& 0xF0) = 0x10 ↔ (b 3).toNat >>> 4 = 0x10 >>> 4 := by
    rw [eq_iff_toNat8, UInt8.and_toNat, toNat_lit8, toNat_lit8,
      show (0xF0 % 256 : Nat) = 2 ^ 8 - 2 ^ 4 by norm_num]
    exact and_highMask_eq_iff (b 3).toNat_lt_size (by omega) (by norm_num)
  rw [contains_v6_iff b _ (q := 3) (r := 4) rfl (by omega) (by omega), ofFn_sixteen b]
  simp only [List.ofFn_succ, Matrix.cons_val_zero, Matrix.cons_val_succ, List.ofFn_zero,
    Bool.and_eq_true, beq_iff_eq, nibble, List.take_succ_cons, List.take_zero, List.cons.injEq,
    and_true, List.getD_cons_succ, List.getD_cons_zero, toNat_lit8, Nat.reduceSub, Nat.reduceMod,
    Nat.reduceShiftRight, and_assoc]

-----------------------------------------------------------------------------------------
-- The reserved blocks are exactly the unroutable addresses
-----------------------------------------------------------------------------------------

theorem ite_false_eq_false {c : Prop} [Decidable c] {x : Bool}
    : (if c then false else x) = false ↔ c ∨ x = false := by
  by_cases h : c <;> simp [h]

/-- `IsRoutable(a)` is false exactly when `a` lies in one of the reserved blocks. Proof: each
test of the source is one block (the lemmas above); what is left is the order of the tests,
where the source checks `192.168.0.0/16` before `172.16.0.0/12`.
-/
theorem isRoutable_eq_false_iff_reserved (a : Address)
    : isRoutable a = false ↔ ∃ block ∈ reservedBlocks, block.Contains a := by
  simp only [reservedBlocks, List.mem_cons, List.mem_singleton, exists_eq_or_imp, exists_eq_left,
    List.not_mem_nil, false_and, exists_false, or_false]
  cases a with
  | v4 u =>
      rw [← isLoopback_v4_iff, ← isUnspecified_v4_iff, ← privateNetwork10_iff,
        ← privateNetwork172_iff, ← privateNetwork192_iff, ← linkLocal169_iff]
      simp only [isRoutable, not_contains_v6_v4, or_false, ite_false_eq_false, Bool.or_eq_true,
        Bool.true_eq_false, or_assoc]
      exact or_congr_right (or_congr_right (or_congr_right or_left_comm))
  | v6 b =>
      rw [← isLoopback_v6_iff, ← isUnspecified_v6_iff, ← linkLocalFe80_iff, ← uniqueLocal_iff,
        ← orchid_iff]
      simp only [isRoutable, not_contains_v4_v6, false_or, ite_false_eq_false, Bool.or_eq_true,
        Bool.true_eq_false, or_false, or_assoc]

example : isRoutable (.v4 0xAC1FFFFF) = false ∧ isRoutable (.v4 0xAC200000) = true := by decide

-----------------------------------------------------------------------------------------
-- IPv4 addresses inside IPv6 addresses
-----------------------------------------------------------------------------------------

/-- The IPv4-mapped IPv6 address `::ffff:a.b.c.d` of the IPv4 address `u`, as Boost's
`make_address_v6(v4_mapped, address_v4(u))` builds it: ten zero bytes, two `0xff` bytes, then
the four bytes of `u` in network order.
-/
def Address.v4Mapped (u : UInt32) : Address :=
  .v6 ![0, 0, 0, 0, 0, 0, 0, 0, 0, 0, 0xff, 0xff, (u >>> 24).toUInt8, (u >>> 16).toUInt8,
    (u >>> 8).toUInt8, u.toUInt8]

/-- Every IPv6 address whose first byte is zero is routable, except `::1` and `::`: the IPv6
tests of the source look at the first bytes only. -/
theorem isRoutable_v6_of_head_zero {b : Fin 16 → UInt8} (head : b 0 = 0)
    (loopback : b ≠ ![0, 0, 0, 0, 0, 0, 0, 0, 0, 0, 0, 0, 0, 0, 0, 1])
    (unspecified : b ≠ ![0, 0, 0, 0, 0, 0, 0, 0, 0, 0, 0, 0, 0, 0, 0, 0])
    : isRoutable (.v6 b) = true := by
  simp [isRoutable, Address.isLoopback, Address.isUnspecified, loopback, unspecified, head]
  decide

theorem ne_of_byte_ten {b c : Fin 16 → UInt8} (differ : b 10 ≠ c 10) : b ≠ c :=
  fun same => differ (congrFun same 10)

example
    : isRoutable (.v4 0x7F000001) = false ∧ isRoutable (Address.v4Mapped 0x7F000001) = true := by
  decide

end MetabaseNet.Mtbase
