import Mathlib.Data.List.Pairwise
import Mathlib.Data.List.Sort

set_option autoImplicit false

/-!
# What a sort needs of its comparison

`std::sort` promises a sorted permutation of a list on which the comparison is a strict weak order,
and nothing of any other list.
-/
namespace Msopcom.StdSort
variable {α : Type} {lt : α → α → Bool} {l : List α}

/-- A strict weak order on the elements of a list. -/
structure StrictWeakOn (lt : α → α → Bool) (l : List α) : Prop where
  irrefl : ∀ a ∈ l, lt a a = false
  trans : ∀ a ∈ l, ∀ b ∈ l, ∀ c ∈ l, lt a b → lt b c → lt a c
  incomparable : ∀ a ∈ l, ∀ b ∈ l, ∀ c ∈ l, !lt a b && !lt b a → !lt b c && !lt c b →
    !lt a c && !lt c a

/-- A comparison of keys in a linear order. -/
theorem strictWeakOn_of_key {β : Type} [LinearOrder β] {key : α → β}
    (h : ∀ a ∈ l, ∀ b ∈ l, lt a b = decide (key a < key b)) : StrictWeakOn lt l where
  irrefl a ha := by simp [h a ha a ha]
  trans a ha b hb c hc hab hbc := by
    simp only [h a ha b hb, h b hb c hc, h a ha c hc, decide_eq_true_eq] at hab hbc ⊢
    exact lt_trans hab hbc
  incomparable a ha b hb c hc hab hbc := by
    simp only [h a ha b hb, h b hb a ha, h b hb c hc, h c hc b hb, h a ha c hc, h c hc a ha,
      Bool.and_eq_true, Bool.not_eq_true', decide_eq_false_iff_not, not_lt] at hab hbc ⊢
    exact ⟨le_trans hbc.1 hab.1, le_trans hab.2 hbc.2⟩

/-- The promise of `std::sort`. -/
def Sorts (sort : List α → List α) (lt : α → α → Bool) : Prop :=
  ∀ l, StrictWeakOn lt l → (sort l).Perm l ∧ (sort l).Pairwise fun a b => lt b a = false

/-- A list is sorted by its keys, strictly if no two of its elements have one key. -/
theorem Sorts.pairwise_key {β : Type} [LinearOrder β] {key : α → β}
    {sort : List α → List α} (hsort : Sorts sort lt)
    (h : ∀ a ∈ l, ∀ b ∈ l, lt a b = decide (key a < key b))
    (hkeys : l.Pairwise fun a b => key a ≠ key b) :
    (sort l).Perm l ∧ (sort l).Pairwise fun a b => key a < key b := by
  obtain ⟨hperm, hsorted⟩ := hsort l (strictWeakOn_of_key h)
  have hdistinct : (sort l).Pairwise fun a b => key a ≠ key b :=
    hperm.symm.pairwise hkeys fun hne => hne.symm
  refine ⟨hperm, (hsorted.and hdistinct).imp_of_mem fun {a b} ha hb hab => ?_⟩
  have hle : key a ≤ key b := by
    simpa [h b (hperm.mem_iff.mp hb) a (hperm.mem_iff.mp ha)] using hab.1
  exact lt_of_le_of_ne hle hab.2

section MergeSort
variable (h : StrictWeakOn lt l)
include h

theorem StrictWeakOn.asymm {a b : α} (ha : a ∈ l) (hb : b ∈ l) (hab : lt a b = true) :
    lt b a = false := by
  cases hba : lt b a with
  | false => rfl
  | true =>
    have hself := h.trans a ha b hb a ha hab hba
    rw [h.irrefl a ha] at hself
    cases hself

/-- Not to be behind is transitive. -/
theorem StrictWeakOn.not_lt_trans {a b c : α} (ha : a ∈ l) (hb : b ∈ l) (hc : c ∈ l)
    (hba : lt b a = false) (hcb : lt c b = false) : lt c a = false := by
  cases hca : lt c a with
  | false => rfl
  | true =>
    have hab : lt a b = false := by
      cases hab : lt a b with
      | false => rfl
      | true => exact absurd (h.trans c hc a ha b hb hca hab) (by simp [hcb])
    have hbc : lt b c = false := by
      cases hbc : lt b c with
      | false => rfl
      | true => exact absurd (h.trans b hb c hc a ha hbc hca) (by simp [hba])
    have hac := h.incomparable a ha b hb c hc (by simp [hab, hba]) (by simp [hbc, hcb])
    simp [hca] at hac

end MergeSort

/-- A merge sort keeps the promise. -/
theorem sorts_mergeSort (lt : α → α → Bool) :
    Sorts (fun l => l.mergeSort fun a b => !lt b a) lt := by
  intro l h
  refine ⟨List.mergeSort_perm _ _, ?_⟩
  -- on the elements of the list the comparison is transitive and total
  have hmap : (l.attach.mergeSort fun a b => !lt b.1 a.1).map Subtype.val =
      l.mergeSort fun a b => !lt b a := by
    have hattach := @List.map_mergeSort _ _ (fun a b => !lt b.1 a.1) (fun a b => !lt b a)
      Subtype.val l.attach fun a _ b _ => rfl
    rwa [List.attach_map_subtype_val] at hattach
  have hsorted : (l.attach.mergeSort fun a b => !lt b.1 a.1).Pairwise
      fun a b => (!lt b.1 a.1) = true := by
    refine List.pairwise_mergeSort ?_ ?_ l.attach
    · intro a b c hab hbc
      simp only [Bool.not_eq_true'] at hab hbc ⊢
      exact h.not_lt_trans a.2 b.2 c.2 hab hbc
    · intro a b
      cases hab : lt a.1 b.1 with
      | false => simp
      | true => simp [h.asymm a.2 b.2 hab]
  have hpairwise : ((l.attach.mergeSort fun a b => !lt b.1 a.1).map Subtype.val).Pairwise
      fun a b => lt b a = false :=
    List.pairwise_map.mpr (hsorted.imp fun hab => by simpa using hab)
  rwa [hmap] at hpairwise

end Msopcom.StdSort
