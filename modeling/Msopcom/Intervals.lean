import Mathlib.Data.List.Pairwise
import Mathlib.Order.Interval.Set.Basic
import Mathlib.Order.Interval.Set.LinearOrder

set_option autoImplicit false

/-!
# Lists of intervals in normal form

Half-open intervals in ascending order, none of them empty, and none reaching the next one. A set
has at most one such list; the sweep over a list that is sorted by the left ends finds it.
-/
namespace Msopcom.Intervals

@[ext] structure Span (α : Type*) where
  lo : α
  hi : α
  deriving DecidableEq, Repr

section
variable {α : Type*} [LinearOrder α]

def Span.points (i : Span α) : Set α := Set.Ico i.lo i.hi

def points (l : List (Span α)) : Set α := {x | ∃ i ∈ l, x ∈ i.points}

/-- An interval that the last one reaches is taken into it. -/
def sweep (last : Span α) : List (Span α) → List (Span α)
  | [] => [last]
  | i :: rest =>
    if i.lo ≤ last.hi then sweep ⟨last.lo, max last.hi i.hi⟩ rest else last :: sweep i rest

def merge : List (Span α) → List (Span α)
  | [] => []
  | i :: rest => sweep i rest

def Ascending (l : List (Span α)) : Prop := l.Pairwise fun i j => i.lo ≤ j.lo

def Proper (l : List (Span α)) : Prop := ∀ i ∈ l, i.lo < i.hi

structure Normal (l : List (Span α)) : Prop where
  proper : Proper l
  apart : l.Pairwise fun i j => i.hi < j.lo

variable {i j last : Span α} {l m rest : List (Span α)}

theorem points_nil : points ([] : List (Span α)) = ∅ := by
  unfold points
  simp

theorem points_cons : points (i :: l) = i.points ∪ points l := by
  ext x
  unfold points
  simp

theorem points_perm (h : l.Perm m) : points l = points m := by
  ext x
  unfold points
  simp only [h.mem_iff]

/-! ## The sweep -/

theorem Ascending.reached (h : Ascending (last :: i :: rest)) (hi : α) :
    Ascending (⟨last.lo, hi⟩ :: rest) := by
  unfold Ascending at h ⊢
  rw [List.pairwise_cons] at h ⊢
  exact ⟨fun j hj => h.1 j (List.mem_cons_of_mem i hj), (List.pairwise_cons.mp h.2).2⟩

theorem Proper.reached (h : Proper (last :: i :: rest)) :
    Proper (⟨last.lo, max last.hi i.hi⟩ :: rest) := by
  intro j hj
  cases List.mem_cons.mp hj with
  | inl hmerged =>
    rw [hmerged]
    exact (h last List.mem_cons_self).trans_le (le_max_left _ _)
  | inr hrest => exact h j (List.mem_cons_of_mem _ (List.mem_cons_of_mem _ hrest))

theorem points_reached (hle : last.lo ≤ i.lo) (hreached : i.lo ≤ last.hi) (hi : i.lo ≤ i.hi) :
    (⟨last.lo, max last.hi i.hi⟩ : Span α).points = last.points ∪ i.points := by
  unfold Span.points
  rw [Set.Ico_union_Ico' hreached (hle.trans hi), min_eq_left hle]

/-- The sweep neither loses nor adds a point. -/
theorem points_sweep (hascending : Ascending (last :: l)) (hproper : Proper (last :: l)) :
    points (sweep last l) = points (last :: l) := by
  induction l generalizing last with
  | nil => rfl
  | cons i rest ih =>
    have hi := hproper i (List.mem_cons_of_mem _ List.mem_cons_self)
    have hle : last.lo ≤ i.lo := (List.pairwise_cons.mp hascending).1 i List.mem_cons_self
    unfold sweep
    split_ifs with hreached
    · rw [ih (hascending.reached _) hproper.reached, points_cons, points_cons, points_cons,
        points_reached hle hreached hi.le, Set.union_assoc]
    · rw [points_cons, ih (List.pairwise_cons.mp hascending).2
        fun j hj => hproper j (List.mem_cons_of_mem _ hj), points_cons, points_cons, points_cons]

theorem le_lo_of_mem_sweep (hascending : Ascending (last :: l)) (hj : j ∈ sweep last l) :
    last.lo ≤ j.lo := by
  induction l generalizing last with
  | nil => rw [List.mem_singleton.mp hj]
  | cons i rest ih =>
    have hle : last.lo ≤ i.lo := (List.pairwise_cons.mp hascending).1 i List.mem_cons_self
    unfold sweep at hj
    split_ifs at hj
    · exact @ih ⟨last.lo, max last.hi i.hi⟩ (hascending.reached _) hj
    · cases List.mem_cons.mp hj with
      | inl hfirst => rw [hfirst]
      | inr hrest => exact hle.trans (ih (List.pairwise_cons.mp hascending).2 hrest)

theorem normal_sweep (hascending : Ascending (last :: l)) (hproper : Proper (last :: l)) :
    Normal (sweep last l) := by
  induction l generalizing last with
  | nil => exact ⟨hproper, List.pairwise_singleton _ _⟩
  | cons i rest ih =>
    have htail : Ascending (i :: rest) := (List.pairwise_cons.mp hascending).2
    unfold sweep
    split_ifs with hreached
    · exact ih (hascending.reached _) hproper.reached
    · have hrest := ih htail fun j hj => hproper j (List.mem_cons_of_mem _ hj)
      constructor
      · intro j hj
        cases List.mem_cons.mp hj with
        | inl hfirst =>
          rw [hfirst]
          exact hproper last List.mem_cons_self
        | inr hj => exact hrest.proper j hj
      · refine List.pairwise_cons.mpr ⟨?_, hrest.apart⟩
        intro j hj
        exact (not_le.mp hreached).trans_le (le_lo_of_mem_sweep htail hj)

theorem normal_merge (hascending : Ascending l) (hproper : Proper l) : Normal (merge l) := by
  cases l with
  | nil => exact ⟨hproper, List.Pairwise.nil⟩
  | cons i rest => exact normal_sweep hascending hproper

theorem points_merge (hascending : Ascending l) (hproper : Proper l) :
    points (merge l) = points l := by
  cases l with
  | nil => rfl
  | cons i rest => exact points_sweep hascending hproper

/-! ## There is only one normal form -/

theorem Normal.tail (h : Normal (i :: l)) : Normal l :=
  ⟨fun j hj => h.proper j (List.mem_cons_of_mem i hj), (List.pairwise_cons.mp h.apart).2⟩

theorem Normal.hi_lt (h : Normal (i :: l)) {x : α} (hx : x ∈ points l) : i.hi < x := by
  obtain ⟨j, hj, hpoint⟩ := hx
  exact ((List.pairwise_cons.mp h.apart).1 j hj).trans_le hpoint.1

theorem Normal.lo_le (h : Normal (i :: l)) {x : α} (hx : x ∈ points (i :: l)) : i.lo ≤ x := by
  rw [points_cons] at hx
  cases hx with
  | inl hown => exact hown.1
  | inr hrest => exact (h.proper i List.mem_cons_self).le.trans (h.hi_lt hrest).le

theorem Normal.lo_mem (h : Normal (i :: l)) : i.lo ∈ points (i :: l) :=
  ⟨i, List.mem_cons_self, le_refl _, h.proper i List.mem_cons_self⟩

theorem Normal.hi_not_mem (h : Normal (i :: l)) : i.hi ∉ points (i :: l) := by
  rw [points_cons]
  intro hmem
  cases hmem with
  | inl hown => exact lt_irrefl _ hown.2
  | inr hrest => exact lt_irrefl _ (h.hi_lt hrest)

theorem Normal.mem_tail_iff (h : Normal (i :: l)) {x : α} :
    x ∈ points l ↔ x ∈ points (i :: l) ∧ i.hi ≤ x := by
  rw [points_cons]
  constructor
  · intro hx
    exact ⟨.inr hx, (h.hi_lt hx).le⟩
  · intro hx
    exact hx.1.resolve_left fun hown => not_lt_of_ge hx.2 hown.2

/-- The end of the first interval is the first point that is missing behind it. -/
theorem Normal.hi_le (h : Normal (i :: l)) (hlo : i.lo = j.lo)
    (hsame : points (i :: l) = points (j :: m)) : j.hi ≤ i.hi := by
  by_contra hlt
  apply h.hi_not_mem
  rw [hsame, points_cons]
  refine .inl ⟨?_, not_le.mp hlt⟩
  rw [← hlo]
  exact (h.proper i List.mem_cons_self).le

theorem Normal.eq (h : Normal l) (h' : Normal m) (hsame : points l = points m) : l = m := by
  induction l generalizing m with
  | nil =>
    cases m with
    | nil => rfl
    | cons j m =>
      have hmem := h'.lo_mem
      rw [← hsame, points_nil] at hmem
      exact absurd hmem (Set.notMem_empty _)
  | cons i l ih =>
    cases m with
    | nil =>
      have hmem := h.lo_mem
      rw [hsame, points_nil] at hmem
      exact absurd hmem (Set.notMem_empty _)
    | cons j m =>
      have hlo : i.lo = j.lo := by
        apply le_antisymm
        · exact h.lo_le (hsame ▸ h'.lo_mem)
        · exact h'.lo_le (hsame ▸ h.lo_mem)
      have hhi : i.hi = j.hi :=
        le_antisymm (h'.hi_le hlo.symm hsame.symm) (h.hi_le hlo hsame)
      have hrest : points l = points m := by
        ext x
        rw [h.mem_tail_iff, h'.mem_tail_iff, hsame, hhi]
      rw [Span.ext hlo hhi, ih h.tail h'.tail hrest]

end
end Msopcom.Intervals
