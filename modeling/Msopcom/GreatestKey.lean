import Mathlib.Data.List.MinMax

set_option autoImplicit false

/-!
# Loops that keep the greatest

A loop over a list that replaces what it holds by what has a greater key ends with an item of
the list whose key is greatest, or with what it started from.
-/
namespace Msopcom.GreatestKey

variable {α β : Type*} [LinearOrder β] (key : α → β) {init x : α} {l : List α}

def keep (best x : α) : α := if key best < key x then x else best

theorem foldl_argAux (init : α) (l : List α) :
    l.foldl (List.argAux fun b c => key c < key b) (some init) =
      some (l.foldl (keep key) init) := by
  induction l generalizing init with
  | nil => rfl
  | cons x l ih =>
    have hstep : List.argAux (fun b c => key c < key b) (some init) x =
        some (keep key init x) := by
      unfold keep
      split_ifs with h
      · exact if_pos h
      · exact if_neg h
    rw [List.foldl_cons, List.foldl_cons, hstep]
    exact ih (keep key init x)

theorem foldl_keep_mem_argmax : l.foldl (keep key) init ∈ (init :: l).argmax key :=
  foldl_argAux key init l

theorem foldl_keep_mem (init : α) (l : List α) : l.foldl (keep key) init ∈ init :: l :=
  List.argmax_mem (foldl_keep_mem_argmax key)

theorem key_le (init : α) (h : x ∈ l) : key x ≤ key (l.foldl (keep key) init) :=
  List.le_of_mem_argmax (List.mem_cons_of_mem init h) (foldl_keep_mem_argmax key)

/-- An item above the start is among those that the loop went through. -/
theorem foldl_keep_mem_of_lt (hx : x ∈ l) (hlt : key init < key x) :
    l.foldl (keep key) init ∈ l := by
  cases List.mem_cons.mp (foldl_keep_mem key init l) with
  | inl hinit =>
    have hle := key_le key init hx
    rw [hinit] at hle
    exact absurd hlt (not_lt_of_ge hle)
  | inr hmem => exact hmem

/-- What is not below anything is never replaced. -/
theorem foldl_keep_eq_init {init : α} {l : List α} (h : ∀ x ∈ l, key x ≤ key init) :
    l.foldl (keep key) init = init := by
  induction l with
  | nil => rfl
  | cons x l ih =>
    have hkept : keep key init x = init := if_neg (not_lt_of_ge (h x List.mem_cons_self))
    rw [List.foldl_cons, hkept]
    exact ih fun y hy => h y (List.mem_cons_of_mem x hy)

/-- The same loop over the keys alone. -/
theorem foldl_max_key (init : α) (l : List α) :
    l.foldl (fun greatest x => max greatest (key x)) (key init) =
      key (l.foldl (keep key) init) := by
  apply List.foldl_hom
  intro best x
  unfold keep
  split_ifs with h
  · exact (max_eq_right_of_lt h)
  · exact (max_eq_left (le_of_not_gt h))

end Msopcom.GreatestKey
