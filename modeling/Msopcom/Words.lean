import Mathlib.Data.List.Sort
import Mathlib.Algebra.Ring.Int.Defs
import Mathlib.Algebra.Ring.Nat

set_option autoImplicit false

/-!
# Machine words as natural numbers

Sums and differences of words that stay within the word.
-/
namespace Msopcom.Words

theorem toNat_add32 {a b : UInt32} (h : a.toNat + b.toNat < 2 ^ 32) :
    (a + b).toNat = a.toNat + b.toNat := by
  rw [UInt32.toNat_add]
  omega

theorem toNat_add64 {a b : UInt64} (h : a.toNat + b.toNat < 2 ^ 64) :
    (a + b).toNat = a.toNat + b.toNat := by
  rw [UInt64.toNat_add]
  omega

theorem toNat_mul64 {a b : UInt64} (h : a.toNat * b.toNat < 2 ^ 64) :
    (a * b).toNat = a.toNat * b.toNat := by
  rw [UInt64.toNat_mul, Nat.mod_eq_of_lt h]

theorem toNat_sub32 {a b : UInt32} (h : b.toNat ≤ a.toNat) : (a - b).toNat = a.toNat - b.toNat :=
  UInt32.toNat_sub_of_le _ _ (UInt32.le_iff_toNat_le.mpr h)

theorem toNat_sub64 {a b : UInt64} (h : b.toNat ≤ a.toNat) : (a - b).toNat = a.toNat - b.toNat :=
  UInt64.toNat_sub_of_le _ _ (UInt64.le_iff_toNat_le.mpr h)

theorem toNat_ofNat32 {n : ℕ} (h : n < 2 ^ 32) : (UInt32.ofNat n).toNat = n := by
  rw [UInt32.toNat_ofNat']
  omega

theorem toNat_ofNat64 {n : ℕ} (h : n < 2 ^ 64) : (UInt64.ofNat n).toNat = n := by
  rw [UInt64.toNat_ofNat']
  omega

theorem toNat_ofInt64 {z : ℤ} (hz : 0 ≤ z) (h : z < 2 ^ 64) : ((UInt64.ofInt z).toNat : ℤ) = z := by
  rw [UInt64.ofInt, UInt64.toNat_ofNat']
  omega

theorem toNat_ofInt64_neg {z : ℤ} (hz : z < 0) (h : -2 ^ 63 ≤ z) :
    2 ^ 63 ≤ (UInt64.ofInt z).toNat := by
  rw [UInt64.ofInt, UInt64.toNat_ofNat']
  omega

theorem toNat_max32 (a b : UInt32) : (max a b).toNat = max a.toNat b.toNat := by
  change (if a ≤ b then b else a).toNat = _
  have hle : a ≤ b ↔ a.toNat ≤ b.toNat := UInt32.le_iff_toNat_le
  split_ifs with h
  · exact (max_eq_right (hle.mp h)).symm
  · exact (max_eq_left (Nat.le_of_not_ge (mt hle.mpr h))).symm

theorem toNat_max64 (a b : UInt64) : (max a b).toNat = max a.toNat b.toNat := by
  change (if a ≤ b then b else a).toNat = _
  have hle : a ≤ b ↔ a.toNat ≤ b.toNat := UInt64.le_iff_toNat_le
  split_ifs with h
  · exact (max_eq_right (hle.mp h)).symm
  · exact (max_eq_left (Nat.le_of_not_ge (mt hle.mpr h))).symm

theorem pos_iff_ne_zero {n : UInt64} : 0 < n.toNat ↔ n ≠ 0 := by
  rw [Nat.pos_iff_ne_zero, ne_eq, ne_eq, ← UInt64.toNat_inj]
  rfl

end Msopcom.Words
