import Mathlib.Data.List.Induction
import Mathlib.Algebra.Ring.Nat

set_option autoImplicit false

/-!
# Runs of a deterministic machine

A run is the fold of a list of steps. The rules here turn what one step keeps
into what a whole run keeps, when every step of the run meets a guard that may
look at the state it is taken from.
-/
namespace Msopcom.Runs

/-- Induction on how much of a list has been read. -/
theorem prefix_induction {α : Type} {P : List α → Prop} (l : List α) (nil : P [])
    (snoc : ∀ pre a suf, l = pre ++ a :: suf → P pre → P (pre ++ [a])) : P l := by
  have h : ∀ pre suf, l = pre ++ suf → P pre := by
    intro pre
    induction pre using List.reverseRecOn with
    | nil => exact fun _ _ => nil
    | append_singleton pre a ih =>
      intro suf hl
      have hl' : l = pre ++ a :: suf := by simpa using hl
      exact snoc pre a suf hl' (ih _ hl')
  exact h l [] (by simp)

section Guarded
variable {σ ω : Type} (step : σ → ω → σ) (guard : σ → ω → Prop)

/-- Every step of the run meets the guard in the state it is taken from. -/
def Guarded (s : σ) : List ω → Prop
  | [] => True
  | op :: ops => guard s op ∧ Guarded (step s op) ops

instance instDecidableGuarded [DecidableRel guard] :
    (s : σ) → (ops : List ω) → Decidable (Guarded step guard s ops)
  | _, [] => isTrue trivial
  | s, op :: ops =>
    have := instDecidableGuarded (step s op) ops
    inferInstanceAs (Decidable (guard s op ∧ Guarded step guard (step s op) ops))

variable {step guard}

theorem guarded_append {s : σ} {xs ys : List ω} :
    Guarded step guard s (xs ++ ys) ↔
      Guarded step guard s xs ∧ Guarded step guard (xs.foldl step s) ys := by
  induction xs generalizing s with
  | nil => simp [Guarded]
  | cons op xs ih => simp [Guarded, ih, and_assoc]

/-- The first steps of a guarded run are one. -/
theorem Guarded.take {s : σ} {ops : List ω} (hrun : Guarded step guard s ops) (n : ℕ) :
    Guarded step guard s (ops.take n) := by
  rw [← List.take_append_drop n ops] at hrun
  exact (guarded_append.mp hrun).1

/-- An invariant that every step keeps holds at the end of every run. -/
theorem invariant {Inv : σ → Prop} (hstep : ∀ s op, Inv s → Inv (step s op)) {s : σ}
    (ops : List ω) (hs : Inv s) : Inv (ops.foldl step s) := by
  induction ops generalizing s with
  | nil => exact hs
  | cons op ops ih => exact ih (hstep s op hs)

/-- An invariant that each guarded step keeps holds at the end of a guarded run. -/
theorem Guarded.invariant {Inv : σ → Prop}
    (hstep : ∀ s op, Inv s → guard s op → Inv (step s op)) {s : σ} {ops : List ω}
    (hrun : Guarded step guard s ops) (hs : Inv s) : Inv (ops.foldl step s) := by
  induction ops generalizing s with
  | nil => exact hs
  | cons op ops ih => exact ih hrun.2 (hstep s op hs hrun.1)

/-- Where a step keeps the invariant exactly when it meets the guard, the invariant holds
in all states of a run exactly when all steps meet it. What else `hstep` needs of a state is
kept by the steps that keep the invariant. -/
theorem guarded_iff_invariant_keep {Inv Keep : σ → Prop} {ok : σ → ω → Prop}
    (hkeep : ∀ s op, ok s op → Keep s → Inv s → Inv (step s op) → Keep (step s op))
    (hstep : ∀ s op, ok s op → Keep s → Inv s → (Inv (step s op) ↔ guard s op)) {s : σ}
    {ops : List ω} (hok : Guarded step ok s ops) (hk : Keep s) (hs : Inv s) :
    (∀ n, Inv ((ops.take n).foldl step s)) ↔ Guarded step guard s ops := by
  induction ops generalizing s with
  | nil => simpa [Guarded] using hs
  | cons op ops ih =>
    obtain ⟨hop, hrest⟩ := hok
    constructor
    · intro h
      have hnext : Inv (step s op) := h 1
      have hnextKeep : Keep (step s op) := hkeep s op hop hk hs hnext
      exact ⟨(hstep s op hop hk hs).mp hnext, (ih hrest hnextKeep hnext).mp fun n => h (n + 1)⟩
    · rintro ⟨hguard, hrun⟩ n
      have hnext : Inv (step s op) := (hstep s op hop hk hs).mpr hguard
      have hnextKeep : Keep (step s op) := hkeep s op hop hk hs hnext
      cases n with
      | zero => exact hs
      | succ n => exact (ih hrest hnextKeep hnext).mpr hrun n

theorem guarded_iff_invariant_of {Inv Keep : σ → Prop} {ok : σ → ω → Prop}
    (hkeep : ∀ s op, ok s op → Keep s → Inv s → Keep (step s op))
    (hstep : ∀ s op, ok s op → Keep s → Inv s → (Inv (step s op) ↔ guard s op)) {s : σ}
    {ops : List ω} (hok : Guarded step ok s ops) (hk : Keep s) (hs : Inv s) :
    (∀ n, Inv ((ops.take n).foldl step s)) ↔ Guarded step guard s ops :=
  guarded_iff_invariant_keep (fun s op hop hk hs _ => hkeep s op hop hk hs) hstep hok hk hs

theorem guarded_iff_invariant {Inv : σ → Prop} {ok : σ → ω → Prop}
    (hstep : ∀ s op, ok s op → Inv s → (Inv (step s op) ↔ guard s op)) {s : σ} {ops : List ω}
    (hok : Guarded step ok s ops) (hs : Inv s) :
    (∀ n, Inv ((ops.take n).foldl step s)) ↔ Guarded step guard s ops :=
  @guarded_iff_invariant_of _ _ step guard Inv (fun _ => True) ok (fun _ _ _ _ _ => trivial)
    (fun s op hop _ => hstep s op hop) s ops hok trivial hs

theorem guarded_and {guard' : σ → ω → Prop} {s : σ} {ops : List ω} :
    Guarded step (fun s op => guard s op ∧ guard' s op) s ops ↔
      Guarded step guard s ops ∧ Guarded step guard' s ops := by
  induction ops generalizing s with
  | nil => simp [Guarded]
  | cons op ops ih => simp only [Guarded, ih, and_and_and_comm]

theorem Guarded.mono {guard' : σ → ω → Prop} (h : ∀ s op, guard s op → guard' s op) {s : σ}
    {ops : List ω} (hrun : Guarded step guard s ops) : Guarded step guard' s ops := by
  induction ops generalizing s with
  | nil => exact trivial
  | cons op ops ih => exact ⟨h s op hrun.1, ih hrun.2⟩

/-- The runs of one machine are those of another where a map of the states goes with the
steps and the guards. -/
theorem guarded_map {τ : Type} {step' : τ → ω → τ} {guard' : τ → ω → Prop} {f : σ → τ}
    (hstep : ∀ s op, step' (f s) op = f (step s op))
    (hguard : ∀ s op, guard' (f s) op ↔ guard s op) (s : σ) (ops : List ω) :
    Guarded step' guard' (f s) ops ↔ Guarded step guard s ops := by
  induction ops generalizing s with
  | nil => exact Iff.rfl
  | cons op ops ih =>
    unfold Guarded
    rw [hguard, hstep, ih]

/-- A guard that does not look at the state is met by each step on its own. -/
theorem guarded_iff_forall {P : ω → Prop} (h : ∀ s op, guard s op ↔ P op) (s : σ) (ops : List ω) :
    Guarded step guard s ops ↔ ∀ op ∈ ops, P op := by
  induction ops generalizing s with
  | nil => simp [Guarded]
  | cons op ops ih => simp only [Guarded, h, ih, List.forall_mem_cons]

theorem guarded_true (s : σ) (ops : List ω) : Guarded step (fun _ _ => True) s ops :=
  (guarded_iff_forall (P := fun _ => True) (fun _ _ => Iff.rfl) s ops).mpr fun _ _ => trivial

/-- Two guards that agree wherever an invariant holds are met by the same runs, if the steps
that meet them keep it. -/
theorem guarded_congr_of {guard' : σ → ω → Prop} {Inv : σ → Prop} {ok : ω → Prop}
    (hguard : ∀ s op, Inv s → ok op → (guard s op ↔ guard' s op))
    (hstep : ∀ s op, Inv s → ok op → guard s op → Inv (step s op)) {s : σ} {ops : List ω}
    (hs : Inv s) (hok : ∀ op ∈ ops, ok op) :
    Guarded step guard s ops ↔ Guarded step guard' s ops := by
  induction ops generalizing s with
  | nil => exact Iff.rfl
  | cons op ops ih =>
    have hop : ok op := hok op List.mem_cons_self
    have hrest : ∀ op' ∈ ops, ok op' := fun op' h => hok op' (List.mem_cons_of_mem op h)
    unfold Guarded
    rw [← hguard s op hs hop]
    exact and_congr_right fun h => ih (hstep s op hs hop h) hrest

theorem guarded_congr {guard' : σ → ω → Prop} {Inv : σ → Prop} {ok : ω → Prop}
    (hguard : ∀ s op, Inv s → ok op → (guard s op ↔ guard' s op))
    (hstep : ∀ s op, Inv s → ok op → Inv (step s op)) {s : σ} {ops : List ω} (hs : Inv s)
    (hok : ∀ op ∈ ops, ok op) : Guarded step guard s ops ↔ Guarded step guard' s ops :=
  guarded_congr_of hguard (fun s op hs hop _ => hstep s op hs hop) hs hok

end Guarded
end Msopcom.Runs
