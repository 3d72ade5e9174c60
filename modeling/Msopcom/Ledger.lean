import Mathlib.Data.List.Nodup

set_option autoImplicit false

/-!
# What a program acquires and releases

A ledger lists in order what has been acquired and what has been released. It is kept along with a
list of what is still to be released and a list of what never will be.
-/
namespace Msopcom.Ledger
variable {ρ : Type}

inductive Event (ρ : Type)
  | acquire (r : ρ)
  | release (r : ρ)
  deriving DecidableEq, Repr

def acquired (t : List (Event ρ)) : List ρ :=
  t.filterMap fun
    | .acquire r => some r
    | .release _ => none

def released (t : List (Event ρ)) : List ρ :=
  t.filterMap fun
    | .acquire _ => none
    | .release r => some r

@[simp] theorem acquired_nil : acquired ([] : List (Event ρ)) = [] := rfl

@[simp] theorem released_nil : released ([] : List (Event ρ)) = [] := rfl

@[simp] theorem acquired_append (t u : List (Event ρ)) :
    acquired (t ++ u) = acquired t ++ acquired u := List.filterMap_append

@[simp] theorem released_append (t u : List (Event ρ)) :
    released (t ++ u) = released t ++ released u := List.filterMap_append

@[simp] theorem acquired_cons_acquire (r : ρ) (t : List (Event ρ)) :
    acquired (.acquire r :: t) = r :: acquired t := rfl

@[simp] theorem acquired_cons_release (r : ρ) (t : List (Event ρ)) :
    acquired (.release r :: t) = acquired t := rfl

@[simp] theorem released_cons_acquire (r : ρ) (t : List (Event ρ)) :
    released (.acquire r :: t) = released t := rfl

@[simp] theorem released_cons_release (r : ρ) (t : List (Event ρ)) :
    released (.release r :: t) = r :: released t := rfl

@[simp] theorem acquired_map_release (l : List ρ) : acquired (l.map Event.release) = [] := by
  induction l with
  | nil => rfl
  | cons r l ih => simpa using ih

@[simp] theorem released_map_release (l : List ρ) : released (l.map Event.release) = l := by
  induction l with
  | nil => rfl
  | cons r l ih => simp [ih]

variable [DecidableEq ρ]

/-- Each thing that was acquired has been released exactly once. -/
def ReleasedOnce (t : List (Event ρ)) : Prop := ∀ r ∈ acquired t, (released t).count r = 1

instance (t : List (Event ρ)) : Decidable (ReleasedOnce t) :=
  inferInstanceAs (Decidable (∀ r ∈ acquired t, (released t).count r = 1))

/-- What was acquired has been released, is still held, or is lost. -/
structure Account (t : List (Event ρ)) (held lost : List ρ) : Prop where
  nodup : (acquired t).Nodup
  once : ∀ r ∈ acquired t, (released t).count r + held.count r + lost.count r = 1
  held_acquired : ∀ r ∈ held, r ∈ acquired t
  lost_acquired : ∀ r ∈ lost, r ∈ acquired t

namespace Account
variable {t : List (Event ρ)} {held lost : List ρ} {r : ρ}

theorem nil : Account ([] : List (Event ρ)) [] [] where
  nodup := List.nodup_nil
  once := by simp
  held_acquired := by simp
  lost_acquired := by simp

/-- Something new has been acquired, to be released later. -/
theorem acquire (h : Account t held lost) (hnew : r ∉ acquired t) (hfree : r ∉ released t) :
    Account (t ++ [.acquire r]) (held ++ [r]) lost where
  nodup := by
    have hr : ∀ a ∈ acquired t, ¬ a = r := fun a ha heq => hnew (heq ▸ ha)
    simpa [List.nodup_append] using ⟨h.nodup, hr⟩
  once a ha := by
    by_cases har : a = r
    · subst har
      have hheld : a ∉ held := fun hmem => hnew (h.held_acquired a hmem)
      have hlost : a ∉ lost := fun hmem => hnew (h.lost_acquired a hmem)
      simp [List.count_eq_zero_of_not_mem, hfree, hheld, hlost]
    · have hra : ¬ r = a := fun heq => har heq.symm
      have hmem : a ∈ acquired t := by simpa [har] using ha
      simpa [List.count_cons, hra] using h.once a hmem
  held_acquired a ha := by
    rcases List.mem_append.mp ha with ha | ha
    · simp [h.held_acquired a ha]
    · simp [List.mem_singleton.mp ha]
  lost_acquired a ha := by simp [h.lost_acquired a ha]

/-- What is held is never released in time. -/
theorem lose (h : Account t (held ++ [r]) lost) : Account t held (r :: lost) where
  nodup := h.nodup
  once a ha := by
    have hone := h.once a ha
    simp only [List.count_append, List.count_cons, List.count_nil] at hone ⊢
    omega
  held_acquired a ha := h.held_acquired a (List.mem_append_left [r] ha)
  lost_acquired a ha := by
    rcases List.mem_cons.mp ha with rfl | ha
    · exact h.held_acquired a (List.mem_append_right held (List.mem_singleton_self a))
    · exact h.lost_acquired a ha

/-- A call that releases nothing that was acquired. -/
theorem stray (h : Account t held lost) (hnew : r ∉ acquired t) :
    Account (t ++ [.release r]) held lost where
  nodup := by simpa using h.nodup
  once a ha := by
    have hmem : a ∈ acquired t := by simpa using ha
    have hra : ¬ r = a := fun heq => hnew (heq ▸ hmem)
    simpa [List.count_cons, hra] using h.once a hmem
  held_acquired a ha := by simpa using h.held_acquired a ha
  lost_acquired a ha := by simpa using h.lost_acquired a ha

/-- All that is held is released, in any order. -/
theorem settle (h : Account t held lost) {last : List ρ} (hperm : last.Perm held) :
    Account (t ++ last.map Event.release) [] lost where
  nodup := by simpa using h.nodup
  once a ha := by
    have hmem : a ∈ acquired t := by simpa using ha
    simpa [hperm.count_eq] using h.once a hmem
  held_acquired := by simp
  lost_acquired a ha := by simpa using h.lost_acquired a ha

theorem perm (h : Account t held lost) {held' : List ρ} (hperm : held'.Perm held) :
    Account t held' lost where
  nodup := h.nodup
  once a ha := by simpa [hperm.count_eq] using h.once a ha
  held_acquired a ha := h.held_acquired a (hperm.mem_iff.mp ha)
  lost_acquired := h.lost_acquired

/-- With nothing held, the account is even exactly if nothing is lost. -/
theorem releasedOnce_iff (h : Account t [] lost) : ReleasedOnce t ↔ lost = [] := by
  constructor
  · intro honce
    refine List.eq_nil_iff_forall_not_mem.mpr fun r hr => ?_
    have hmem := h.lost_acquired r hr
    have hsplit := h.once r hmem
    have hlost : 0 < lost.count r := List.count_pos_iff.mpr hr
    rw [honce r hmem] at hsplit
    omega
  · rintro rfl r hr
    simpa using h.once r hr

end Account

end Msopcom.Ledger
