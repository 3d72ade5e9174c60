import Mathlib.Data.List.Range

set_option autoImplicit false

/-!
# Scans for a pattern

A scan that counts how many symbols in a row have matched, and the plain search for the
first offset at which something is found.
-/
namespace Msopcom.PatternScan

/-- How many positions in a row before `i` have `p`. -/
def runBefore (p : ℕ → Bool) : ℕ → ℕ
  | 0 => 0
  | i + 1 => if p i then runBefore p i + 1 else 0

theorem le_runBefore_iff (p : ℕ → Bool) {i k : ℕ} :
    k ≤ runBefore p i ↔ k ≤ i ∧ ∀ j, i ≤ j + k → j < i → p j = true := by
  induction i generalizing k with
  | zero =>
    rw [runBefore]
    simp
  | succ i ih =>
    rw [runBefore]
    by_cases hp : p i = true
    · rw [if_pos hp]
      cases k with
      | zero => simp; omega
      | succ k =>
        rw [Nat.succ_le_succ_iff, ih, Nat.succ_le_succ_iff]
        refine and_congr_right fun _ => ⟨fun h j hlo hhi => ?_, fun h j hlo hhi => ?_⟩
        · by_cases hj : j = i
          · rw [hj]
            exact hp
          · exact h j (by omega) (by omega)
        · exact h j (by omega) (by omega)
    · rw [if_neg hp, Nat.le_zero]
      constructor
      · intro hk
        subst hk
        simp
        omega
      · intro h
        by_contra hk
        exact hp (h.2 i (by omega) (Nat.lt_succ_self i))

variable {β : Type}

theorem findSome?_congr {α : Type} {f g : α → Option β} {l : List α} (h : ∀ a ∈ l, f a = g a) :
    l.findSome? f = l.findSome? g := by
  induction l with
  | nil => rfl
  | cons a l ih =>
    rw [List.findSome?_cons, List.findSome?_cons, h a List.mem_cons_self,
      ih fun b hb => h b (List.mem_cons_of_mem a hb)]

theorem findSome?_range_eq_some {f : ℕ → Option β} {n : ℕ} {b : β} :
    (List.range n).findSome? f = some b ↔ ∃ a < n, f a = some b ∧ ∀ a' < a, f a' = none := by
  induction n with
  | zero => simp
  | succ n ih =>
    rw [List.range_succ, List.findSome?_append]
    cases hfront : (List.range n).findSome? f with
    | none =>
      have hnone : ∀ a < n, f a = none := fun a ha =>
        List.findSome?_eq_none_iff.mp hfront a (List.mem_range.mpr ha)
      simp only [Option.none_or, List.findSome?_singleton]
      constructor
      · intro h
        exact ⟨n, Nat.lt_succ_self n, h, hnone⟩
      · intro h
        obtain ⟨a, ha, hsome, -⟩ := h
        have heq : a = n := by
          by_contra hne
          rw [hnone a (by omega)] at hsome
          cases hsome
        rw [← heq, hsome]
    | some b' =>
      rw [Option.some_or, ← hfront, ih]
      constructor
      · intro h
        obtain ⟨a, ha, hfound⟩ := h
        exact ⟨a, Nat.lt_succ_of_lt ha, hfound⟩
      · intro h
        obtain ⟨a, ha, hsome, hbefore⟩ := h
        refine ⟨a, ?_, hsome, hbefore⟩
        by_contra hge
        have hall : (List.range n).findSome? f = none :=
          List.findSome?_eq_none_iff.mpr fun a' ha' =>
            hbefore a' (by have := List.mem_range.mp ha'; omega)
        rw [hfront] at hall
        cases hall

end Msopcom.PatternScan
