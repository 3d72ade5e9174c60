import Mathlib.Algebra.Ring.Nat

set_option autoImplicit false

/-!
# Loops that may fail or run on

A loop is a step that goes on, is done, or fails. It is run with fuel, and a run that
ends is the same with any more of it.
-/
namespace Msopcom.FuelLoop

inductive LoopStep (σ ρ : Type)
  | next (s : σ)
  | done (r : ρ)

variable {σ ρ ε : Type}

def runLoop (noFuel : ε) (step : σ → Except ε (LoopStep σ ρ)) : ℕ → σ → Except ε ρ
  | 0, _ => .error noFuel
  | fuel + 1, s =>
    match step s with
    | .error e => .error e
    | .ok (.done r) => .ok r
    | .ok (.next s') => runLoop noFuel step fuel s'

variable {noFuel : ε} {step : σ → Except ε (LoopStep σ ρ)}

theorem runLoop_done {s : σ} {r : ρ} (h : step s = .ok (.done r)) (fuel : ℕ) :
    runLoop noFuel step (fuel + 1) s = .ok r := by
  rw [runLoop, h]

theorem runLoop_next {s s' : σ} (h : step s = .ok (.next s')) (fuel : ℕ) :
    runLoop noFuel step (fuel + 1) s = runLoop noFuel step fuel s' := by
  rw [runLoop, h]

theorem runLoop_error {s : σ} {e : ε} (h : step s = .error e) (fuel : ℕ) :
    runLoop noFuel step (fuel + 1) s = .error e := by
  rw [runLoop, h]

/-- A run that ends stays as it is when fuel is added, to the loop or to its steps. -/
theorem runLoop_mono {step' : σ → Except ε (LoopStep σ ρ)}
    (hstep : ∀ s x, step s = .ok x → step' s = .ok x) {fuel fuel' : ℕ} (hfuel : fuel ≤ fuel')
    {s : σ} {r : ρ} (h : runLoop noFuel step fuel s = .ok r) :
    runLoop noFuel step' fuel' s = .ok r := by
  induction fuel generalizing fuel' s with
  | zero => cases h
  | succ fuel ih =>
    cases fuel' with
    | zero => exact absurd hfuel (Nat.not_succ_le_zero _)
    | succ fuel' =>
      cases hs : step s with
      | error e =>
        rw [runLoop_error hs] at h
        cases h
      | ok x =>
        cases x with
        | done r' =>
          rw [runLoop_done hs] at h
          rw [runLoop_done (hstep s _ hs), h]
        | next s' =>
          rw [runLoop_next hs] at h
          rw [runLoop_next (hstep s _ hs)]
          exact ih (Nat.le_of_succ_le_succ hfuel) h

/-- The loop comes to an end from `s`, with result `r`. -/
def Ends (noFuel : ε) (step : σ → Except ε (LoopStep σ ρ)) (s : σ) (r : ρ) : Prop :=
  ∃ fuel, runLoop noFuel step fuel s = .ok r

theorem ends_done {s : σ} {r r' : ρ} (h : step s = .ok (.done r)) :
    Ends noFuel step s r' ↔ r' = r := by
  constructor
  · rintro ⟨fuel, hfuel⟩
    cases fuel with
    | zero => cases hfuel
    | succ fuel =>
      rw [runLoop_done h] at hfuel
      exact (Except.ok.inj hfuel).symm
  · rintro rfl
    exact ⟨1, runLoop_done h 0⟩

theorem ends_next {s s' : σ} {r : ρ} (h : step s = .ok (.next s')) :
    Ends noFuel step s r ↔ Ends noFuel step s' r := by
  constructor
  · rintro ⟨fuel, hfuel⟩
    cases fuel with
    | zero => cases hfuel
    | succ fuel => exact ⟨fuel, (runLoop_next h fuel).symm.trans hfuel⟩
  · rintro ⟨fuel, hfuel⟩
    exact ⟨fuel + 1, (runLoop_next h fuel).trans hfuel⟩

/-- A step that leaves everything as it is goes on for ever. -/
theorem not_ends_stuck {s : σ} {r : ρ} (h : step s = .ok (.next s)) : ¬ Ends noFuel step s r := by
  rintro ⟨fuel, hfuel⟩
  induction fuel with
  | zero => cases hfuel
  | succ fuel ih => exact ih ((runLoop_next h fuel).symm.trans hfuel)

theorem not_ends_error {s : σ} {r : ρ} {e : ε} (h : step s = .error e) :
    ¬ Ends noFuel step s r := by
  rintro ⟨fuel, hfuel⟩
  cases fuel with
  | zero => cases hfuel
  | succ fuel =>
    rw [runLoop_error h] at hfuel
    cases hfuel

/-! ## Walks of a partial function -/

section Walk
variable {α : Type} (f : α → Option α)

def walk (a : α) : ℕ → Option α
  | 0 => some a
  | n + 1 => (walk a n).bind f

theorem walk_succ (a : α) (n : ℕ) : walk f a (n + 1) = (f a).bind fun b => walk f b n := by
  induction n with
  | zero => exact (Option.bind_fun_some (f a)).symm
  | succ n ih =>
    change (walk f a (n + 1)).bind f = _
    rw [ih, Option.bind_assoc]
    rfl

/-- The walk comes to an end and meets `P` all along. -/
inductive Along (P : α → Prop) : α → Prop
  | intro {a : α} (here : P a) (rest : ∀ b, f a = some b → Along P b) : Along P a

variable {f}

theorem along_iff {P : α → Prop} {a : α} :
    Along f P a ↔ (∀ n b, walk f a n = some b → P b) ∧ ∃ n, walk f a n = none := by
  constructor
  · intro h
    induction h with
    | @intro a here _ ih =>
      constructor
      · intro n b hb
        cases n with
        | zero =>
          cases hb
          exact here
        | succ n =>
          rw [walk_succ] at hb
          obtain ⟨c, hc, hb⟩ := Option.bind_eq_some_iff.mp hb
          exact (ih c hc).1 n b hb
      · cases hf : f a with
        | none => exact ⟨1, hf⟩
        | some c =>
          obtain ⟨n, hn⟩ := (ih c hf).2
          refine ⟨n + 1, ?_⟩
          rw [walk_succ, hf]
          exact hn
  · rintro ⟨hall, n, hn⟩
    induction n generalizing a with
    | zero => cases hn
    | succ n ih =>
      refine .intro (hall 0 a rfl) fun b hb => ih (fun k c hc => hall (k + 1) c ?_) ?_
      · rw [walk_succ, hb]
        exact hc
      · rw [walk_succ, hb] at hn
        exact hn

theorem walk_ends_of_measure {Inv : α → Prop} (m : α → ℕ)
    (hstep : ∀ a b, Inv a → f a = some b → Inv b ∧ m b < m a) {a : α} (ha : Inv a) :
    ∃ n, walk f a n = none := by
  have hbound : ∀ k a, Inv a → m a < k → ∃ n, walk f a n = none := by
    intro k
    induction k with
    | zero => exact fun a _ h => absurd h (Nat.not_lt_zero _)
    | succ k ih =>
      intro a ha hk
      cases hf : f a with
      | none => exact ⟨1, hf⟩
      | some b =>
        obtain ⟨hb, hlt⟩ := hstep a b ha hf
        obtain ⟨n, hn⟩ := ih b hb (Nat.lt_of_lt_of_le hlt (Nat.le_of_lt_succ hk))
        refine ⟨n + 1, ?_⟩
        rw [walk_succ, hf]
        exact hn
  exact hbound (m a + 1) a ha (Nat.lt_succ_self _)

end Walk
end Msopcom.FuelLoop
