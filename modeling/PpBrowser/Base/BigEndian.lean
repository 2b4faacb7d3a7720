import Mathlib.Data.Nat.Init
import PpBrowser.Base.Words

/-!
# BigEndian — integers as bytes

The fixed-width big-endian fields of what is signed and hashed.
-/

namespace Pbr

/-- The low `8 * n` bits of `value`, big-endian. -/
def bigEndian : Nat → Nat → ByteVector
  | 0, _ => []
  | n + 1, value => UInt8.ofNat (value / 256 ^ n) :: bigEndian n value

/-- The value of big-endian bytes. -/
def readBigEndian : ByteVector → Nat
  | [] => 0
  | b :: rest => b.toNat * 256 ^ rest.length + readBigEndian rest

theorem length_bigEndian (n value : Nat) : (bigEndian n value).length = n := by
  induction n with
  | zero => rfl
  | succ n ih => rw [bigEndian, List.length_cons, ih]

theorem readBigEndian_bigEndian (n value : Nat) : readBigEndian (bigEndian n value) = value % 256 ^ n := by
  induction n with
  | zero => rw [Nat.pow_zero, Nat.mod_one]; rfl
  | succ n ih =>
    rw [bigEndian, readBigEndian, ih, length_bigEndian, Nat.pow_succ, Nat.mod_mul,
      UInt8.toNat_ofNat', Nat.add_comm, Nat.mul_comm]

theorem bigEndian_append_inj {n a b : Nat} {xs ys : ByteVector} (ha : a < 256 ^ n)
    (hb : b < 256 ^ n) (h : bigEndian n a ++ xs = bigEndian n b ++ ys) : a = b ∧ xs = ys := by
  obtain ⟨hfield, hrest⟩ := List.append_inj h (by rw [length_bigEndian, length_bigEndian])
  refine ⟨?_, hrest⟩
  have hread := congrArg readBigEndian hfield
  rw [readBigEndian_bigEndian, readBigEndian_bigEndian, Nat.mod_eq_of_lt ha,
    Nat.mod_eq_of_lt hb] at hread
  exact hread

theorem readBigEndian_lt (bytes : ByteVector) : readBigEndian bytes < 256 ^ bytes.length := by
  induction bytes with
  | nil => exact Nat.one_pos
  | cons b rest ih =>
    have hbyte : b.toNat < 256 := b.toNat_lt
    have hlow : b.toNat * 256 ^ rest.length + readBigEndian rest < (b.toNat + 1) * 256 ^ rest.length := by
      rw [Nat.add_mul, Nat.one_mul]
      omega
    have hhigh : (b.toNat + 1) * 256 ^ rest.length ≤ 256 * 256 ^ rest.length := Nat.mul_le_mul_right _ hbyte
    rw [List.length_cons, Nat.pow_succ, Nat.mul_comm, readBigEndian]
    exact Nat.lt_of_lt_of_le hlow hhigh

theorem bigEndian_mul_add (n high value : Nat) : bigEndian n (high * 256 ^ n + value) = bigEndian n value := by
  induction n generalizing high with
  | zero => rfl
  | succ n ih =>
    have hsplit : high * 256 ^ (n + 1) + value = high * 256 * 256 ^ n + value := by
      rw [Nat.pow_succ, Nat.mul_assoc, Nat.mul_comm 256]
    have hpos : 0 < 256 ^ n := Nat.pow_pos (by decide)
    have hbyte : (high * 256 * 256 ^ n + value) / 256 ^ n = value / 256 ^ n + high * 256 := by
      rw [Nat.add_comm, Nat.add_mul_div_right _ _ hpos]
    have hsame : UInt8.ofNat (value / 256 ^ n + high * 256) = UInt8.ofNat (value / 256 ^ n) := by
      apply UInt8.toNat.inj
      rw [UInt8.toNat_ofNat', UInt8.toNat_ofNat', Nat.add_mul_mod_self_right]
    rw [bigEndian, bigEndian, hsplit, hbyte, hsame, ih]

theorem bigEndian_readBigEndian (bytes : ByteVector) : bigEndian bytes.length (readBigEndian bytes) = bytes := by
  induction bytes with
  | nil => rfl
  | cons b rest ih =>
    have hpos : 0 < 256 ^ rest.length := Nat.pow_pos (by decide)
    have hbyte : (b.toNat * 256 ^ rest.length + readBigEndian rest) / 256 ^ rest.length = b.toNat := by
      rw [Nat.add_comm, Nat.add_mul_div_right _ _ hpos, Nat.div_eq_of_lt (readBigEndian_lt rest),
        Nat.zero_add]
    rw [List.length_cons, bigEndian, readBigEndian, hbyte, bigEndian_mul_add, ih, UInt8.ofNat_toNat]

end Pbr
