import Mathlib.Algebra.Group.Nat.Defs
import ResponseCache.Bytes.Basic

/-!
This module contains what byte strings as numbers are bounded by: a number that fits a width is not
changed by being laid out in it and read back, so such numbers are told apart by their layouts.
-/

namespace ResponseCache.Bytes

theorem ofLittleEndian_lt (bs : Bytes) : ofLittleEndian bs < 256 ^ bs.length := by
  induction bs with
  | nil => simp [ofLittleEndian]
  | cons b bs ih =>
    have hb := b.toNat_lt
    simp only [ofLittleEndian, List.length_cons, Nat.pow_succ]
    omega

/-- A number that fits the width reads back. -/
theorem ofLittleEndian_littleEndian {width n : Nat} (h : n < 256 ^ width) :
    ofLittleEndian (littleEndian width n) = n := by
  induction width generalizing n with
  | zero => simp only [Nat.pow_zero] at h; simp [littleEndian, ofLittleEndian]; omega
  | succ width ih =>
    have hn : n / 256 < 256 ^ width := by
      rw [Nat.pow_succ] at h
      exact Nat.div_lt_of_lt_mul (by omega)
    simp only [littleEndian, ofLittleEndian, ih hn, UInt8.toNat_ofNat']
    omega

theorem bigEndian_inj {width m n : Nat} (hm : m < 256 ^ width) (hn : n < 256 ^ width)
    (h : bigEndian width m = bigEndian width n) : m = n := by
  unfold bigEndian at h
  rw [← ofLittleEndian_littleEndian hm, List.reverse_inj.1 h, ofLittleEndian_littleEndian hn]

end ResponseCache.Bytes
