import Mathlib.Algebra.BigOperators.Group.Finset.Basic
import Mathlib.Algebra.Order.BigOperators.Group.Finset
import Mathlib.Data.Nat.SuccPred
import Mathlib.Order.CompletePartialOrder
import Mathlib.Order.SuccPred.IntervalSucc
import Mathlib.Algebra.Ring.Nat

set_option autoImplicit false

/-!
# Items laid end to end

A pointer that starts somewhere and moves by the size of the item it stands on.
-/
namespace Msopcom.Layout

def offset (size : ℕ → ℕ) (start : ℕ) : ℕ → ℕ
  | 0 => start
  | i + 1 => offset size start i + size i

def region (size : ℕ → ℕ) (start i : ℕ) : Set ℕ :=
  Set.Ico (offset size start i) (offset size start i + size i)

@[simp] theorem offset_zero (size : ℕ → ℕ) (start : ℕ) : offset size start 0 = start := rfl

@[simp] theorem offset_succ (size : ℕ → ℕ) (start i : ℕ) :
    offset size start (i + 1) = offset size start i + size i := rfl

theorem offset_monotone (size : ℕ → ℕ) (start : ℕ) : Monotone (offset size start) := by
  apply monotone_nat_of_le_succ
  intro i
  rw [offset_succ]
  exact Nat.le_add_right _ _

theorem offset_eq_add_sum (size : ℕ → ℕ) (start n : ℕ) :
    offset size start n = start + ∑ i ∈ Finset.range n, size i := by
  induction n with
  | zero => rw [offset_zero, Finset.range_zero, Finset.sum_empty, Nat.add_zero]
  | succ n ih => rw [offset_succ, ih, Finset.sum_range_succ, Nat.add_assoc]

theorem regions_disjoint (size : ℕ → ℕ) (start : ℕ) :
    Pairwise (Function.onFun Disjoint (region size start)) :=
  (offset_monotone size start).pairwise_disjoint_on_Ico_succ

theorem region_subset (size : ℕ → ℕ) (start : ℕ) {i n : ℕ} (h : i < n) :
    region size start i ⊆ Set.Ico start (offset size start n) := by
  have hstart : start ≤ offset size start i := offset_monotone size start (Nat.zero_le i)
  have hend : offset size start (i + 1) ≤ offset size start n := offset_monotone size start h
  exact Set.Ico_subset_Ico hstart hend

end Msopcom.Layout
