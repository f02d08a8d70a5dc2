import Mathlib.Data.List.Nodup
import Mathlib.Data.Nat.Basic
import Mathlib.Tactic.Ring

/-! # Machine integers: network byte order and conversions

    `netBytes w n` writes the low `w` bytes of a natural, most significant
    byte first; `netNat` reads a byte string back.  Both recurse from the
    front, so a numeral is peeled off a stream the way a reader meets it.
    The law everything above needs is the ROUND TRIP: reading undoes writing
    below `256 ^ w`, and a value read never exceeds its width.

    The conversions are the ones C++ applies silently when it mixes `int`,
    `size_t` and 32-bit unsigned values: each reduces modulo its width. -/

namespace MachineInt

/-- The natural a byte string denotes, most significant byte first. -/
def netNat : List UInt8 → Nat
  | [] => 0
  | b :: bs => b.toNat * 256 ^ bs.length + netNat bs

/-- The low `w` bytes of `n`, most significant byte first. -/
def netBytes : Nat → Nat → List UInt8
  | 0, _ => []
  | w + 1, n => UInt8.ofNat (n / 256 ^ w) :: netBytes w n

@[simp] theorem length_netBytes (w n : Nat) : (netBytes w n).length = w := by
  induction w with
  | zero => rfl
  | succ w ih => rw [netBytes, List.length_cons, ih]

/-- Reading undoes writing, up to the bytes that do not fit. -/
theorem netNat_netBytes (w n : Nat) : netNat (netBytes w n) = n % 256 ^ w := by
  induction w with
  | zero => exact (Nat.mod_one n).symm
  | succ w ih =>
      have hdigit : (UInt8.ofNat (n / 256 ^ w)).toNat = n / 256 ^ w % 256 :=
        UInt8.toNat_ofNat'
      calc netNat (netBytes (w + 1) n)
          = (n / 256 ^ w % 256) * 256 ^ w + n % 256 ^ w := by
            rw [netBytes, netNat, length_netBytes, ih, hdigit]
        _ = n % 256 ^ (w + 1) := by
            rw [Nat.mod_pow_succ, Nat.mul_comm, Nat.add_comm]

theorem netNat_lt (bs : List UInt8) : netNat bs < 256 ^ bs.length := by
  induction bs with
  | nil => exact Nat.one_pos
  | cons b bs ih =>
      have hb : b.toNat + 1 ≤ 256 := b.toNat_lt
      calc netNat (b :: bs) < (b.toNat + 1) * 256 ^ bs.length := by
            rw [netNat, Nat.add_mul, Nat.one_mul]
            omega
        _ ≤ 256 * 256 ^ bs.length := Nat.mul_le_mul_right _ hb
        _ = 256 ^ (b :: bs).length := by rw [List.length_cons, Nat.pow_succ, Nat.mul_comm]

/-- Byte strings of one length are read differently. -/
theorem netNat_inj {bs cs : List UInt8} (hlength : bs.length = cs.length)
    (h : netNat bs = netNat cs) : bs = cs := by
  induction bs generalizing cs with
  | nil => exact (List.length_eq_zero_iff.mp hlength.symm).symm
  | cons b bs ih =>
      cases cs with
      | nil => cases hlength
      | cons c cs =>
          have hlength' : bs.length = cs.length := Nat.succ.inj hlength
          have hb := netNat_lt bs
          have hc := netNat_lt cs
          rw [netNat, netNat, Nat.add_comm, Nat.add_comm (c.toNat * _), hlength'] at h
          rw [hlength'] at hb
          have hpos : 0 < 256 ^ cs.length := Nat.pow_pos (by decide)
          have hdigit : b.toNat = c.toNat := by
            have hdiv := congrArg (· / 256 ^ cs.length) h
            simp only [Nat.add_mul_div_right _ _ hpos, Nat.div_eq_of_lt hb, Nat.div_eq_of_lt hc,
              Nat.zero_add] at hdiv
            exact hdiv
          rw [hdigit] at h
          rw [UInt8.toNat_inj.mp hdigit, ih hlength' (Nat.add_right_cancel h)]

/-! ## Four-byte two's-complement integers -/

/-- A 32-bit integer as its four bytes on the wire. -/
def int32Bytes (x : Int32) : List UInt8 := netBytes 4 x.toUInt32.toNat

/-- The 32-bit integer that a byte string denotes on the wire. -/
def int32Of (bs : List UInt8) : Int32 := (UInt32.ofNat (netNat bs)).toInt32

@[simp] theorem length_int32Bytes (x : Int32) : (int32Bytes x).length = 4 :=
  length_netBytes 4 _

@[simp] theorem int32Of_int32Bytes (x : Int32) : int32Of (int32Bytes x) = x := by
  have hlt : x.toUInt32.toNat < 256 ^ 4 := x.toUInt32.toNat_lt
  rw [int32Of, int32Bytes, netNat_netBytes, Nat.mod_eq_of_lt hlt, UInt32.ofNat_toNat]
  rfl

/-! ## Conversions -/

/-- An `int32_t` stored into a 64-bit unsigned field: the sign is extended. -/
def int32ToUInt64 (x : Int32) : UInt64 := x.toInt64.toUInt64

/-- A 64-bit unsigned field read into an `int32_t`: the low 32 bits. -/
def uint64ToInt32 (x : UInt64) : Int32 := x.toUInt32.toInt32

/-- Truncation undoes sign extension. -/
@[simp] theorem uint64ToInt32_int32ToUInt64 (x : Int32) :
    uint64ToInt32 (int32ToUInt64 x) = x := by
  apply Int32.toBitVec_inj.mp
  show (x.toBitVec.signExtend 64).setWidth 32 = x.toBitVec
  ext i hi
  have hi64 : i < 64 := by omega
  rw [BitVec.getElem_setWidth, BitVec.getLsbD_eq_getElem hi64, BitVec.getElem_signExtend,
    dif_pos hi]

/-- Conversion to a 64-bit `size_t`; every `size_t` expression over an integer
    value is that value modulo `2 ^ 64`. -/
def toSizeT (n : Int) : Nat := (n % 2 ^ 64).toNat

/-- Conversion to a 32-bit unsigned integer. -/
def toUInt32 (n : Int) : Nat := (n % 2 ^ 32).toNat

/-- Conversion to a 32-bit `int`. -/
def toInt32 (n : Int) : Int := n.bmod (2 ^ 32)

/-- A value that a `size_t` holds is converted to itself. -/
theorem toSizeT_of_nonneg {n : Int} (h0 : 0 ≤ n) (h : n < 2 ^ 64) : (toSizeT n : Int) = n := by
  rw [toSizeT, Int.emod_eq_of_lt h0 h, Int.toNat_of_nonneg h0]

theorem toUInt32_of_nonneg {n : Int} (h0 : 0 ≤ n) (h : n < 2 ^ 32) : (toUInt32 n : Int) = n := by
  rw [toUInt32, Int.emod_eq_of_lt h0 h, Int.toNat_of_nonneg h0]

theorem toInt32_of_nonneg {n : Int} (h0 : 0 ≤ n) (h : n < 2 ^ 31) : toInt32 n = n := by
  rw [toInt32, Int.bmod_eq_of_le (by omega) (by omega)]

theorem toInt_int32Of (bs : List UInt8) : (int32Of bs).toInt = toInt32 (netNat bs) := by
  show (BitVec.ofNat 32 (netNat bs)).toInt = (netNat bs : Int).bmod (2 ^ 32)
  exact BitVec.toInt_ofNat ..

theorem netNat_four (a b c d : UInt8) :
    netNat [a, b, c, d]
      = a.toNat * 16777216 + b.toNat * 65536 + c.toNat * 256 + d.toNat := by
  simp [netNat]
  omega

theorem toInt_uint64ToInt32 (x : UInt64) : (uint64ToInt32 x).toInt = toInt32 x.toNat := by
  show (x.toBitVec.setWidth 32).toInt = (x.toBitVec.toNat : Int).bmod (2 ^ 32)
  rw [BitVec.toInt_eq_toNat_bmod, BitVec.toNat_setWidth]
  exact Int.emod_bmod (x.toBitVec.toNat : Int) (2 ^ 32)

theorem toNat_int32ToUInt64 (x : Int32) : (int32ToUInt64 x).toNat = toSizeT x.toInt := by
  have hext : (x.toBitVec.signExtend 64).toInt = x.toBitVec.toInt :=
    BitVec.toInt_signExtend_of_le (by decide)
  have hlt : (x.toBitVec.signExtend 64).toNat < 2 ^ 64 := (x.toBitVec.signExtend 64).isLt
  show (x.toBitVec.signExtend 64).toNat = (x.toBitVec.toInt % 2 ^ 64).toNat
  rw [← hext, BitVec.toInt_eq_toNat_bmod, Int.bmod_def]
  split
  · omega
  · omega

/-- Sign extension undoes truncation for a value of an `int32_t`, and for no
    other: the upper half of the numbers are the negative ones. -/
theorem int32ToUInt64_uint64ToInt32_iff (x : UInt64) :
    int32ToUInt64 (uint64ToInt32 x) = x ↔ x.toNat < 2 ^ 31 ∨ 2 ^ 64 - 2 ^ 31 ≤ x.toNat := by
  have hlt := x.toNat_lt
  rw [← UInt64.toNat_inj, toNat_int32ToUInt64, toInt_uint64ToInt32, toSizeT, toInt32,
    Int.bmod_def]
  constructor
  · intro h
    split at h
    · omega
    · omega
  · intro h
    split
    · omega
    · omega

/-! ## Counting in an `int32_t` -/

/-- Different numbers below `2 ^ 32` are different `int32_t`s. -/
theorem int32_ofNat_inj {k j : Nat} (hk : k < 2 ^ 32) (hj : j < 2 ^ 32)
    (h : Int32.ofNat k = Int32.ofNat j) : k = j := by
  have hbits : (BitVec.ofNat 32 k).toNat = (BitVec.ofNat 32 j).toNat :=
    congrArg (fun x : Int32 => x.toBitVec.toNat) h
  rw [BitVec.toNat_ofNat, BitVec.toNat_ofNat, Nat.mod_eq_of_lt hk, Nat.mod_eq_of_lt hj] at hbits
  exact hbits

theorem int32_ofNat_succ (k : Nat) : Int32.ofNat k + 1 = Int32.ofNat (k + 1) :=
  (Int32.ofNat_add k 1).symm

/-- The first `n` numbers, as they are counted. -/
def int32s (n : Nat) : List Int32 := (List.range n).map Int32.ofNat

theorem int32s_succ (n : Nat) : int32s (n + 1) = int32s n ++ [Int32.ofNat n] := by
  rw [int32s, List.range_succ, List.map_append]
  rfl

theorem nodup_int32s {n : Nat} (h : n < 2 ^ 32) : (int32s n).Nodup := by
  rw [int32s, List.nodup_map_iff_inj_on List.nodup_range]
  intro k hk j hj heq
  have hkn := List.mem_range.mp hk
  have hjn := List.mem_range.mp hj
  exact int32_ofNat_inj (by omega) (by omega) heq

end MachineInt
