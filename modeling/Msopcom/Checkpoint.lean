import Mathlib.Logic.Function.Iterate

set_option autoImplicit false

/-!
# Saving a value and putting it back

Programs that act on a value, save it and put the saved one back. Nothing can be put back
before something was saved.
-/
namespace Msopcom.Checkpoint

inductive Op (α : Type*)
  | save
  | act (a : α)
  | restore
  deriving DecidableEq, Repr

structure State (σ : Type*) where
  current : σ
  saved : Option σ
  deriving DecidableEq, Repr

variable {α σ : Type*} (act : α → σ → σ)

def step (s : State σ) : Op α → Option (State σ)
  | .save => some ⟨s.current, some s.current⟩
  | .act a => some ⟨act a s.current, s.saved⟩
  | .restore => s.saved.map fun saved => ⟨saved, some saved⟩

def run (ops : List (Op α)) (s : State σ) : Option (State σ) := ops.foldlM (step act) s

variable {act} {s t u : State σ} {ops ops' : List (Op α)}

@[simp] theorem run_nil : run act [] s = some s := rfl

theorem run_cons (op : Op α) : run act (op :: ops) s = (step act s op).bind (run act ops) := by
  rw [run, List.foldlM_cons]
  rfl

theorem run_append (h : run act ops s = some t) (h' : run act ops' t = some u) :
    run act (ops ++ ops') s = some u := by
  rw [run, List.foldlM_append]
  change (run act ops s).bind (run act ops') = some u
  rw [h, Option.bind_some, h']

theorem run_replicate (n : Nat) (a : α) (s : State σ) :
    run act (List.replicate n (.act a)) s = some ⟨(act a)^[n] s.current, s.saved⟩ := by
  induction n generalizing s with
  | zero => rfl
  | succ n ih =>
    rw [List.replicate_succ, run_cons, step, Option.bind_some, ih, Function.iterate_succ_apply]

/-- What has been saved stays saved until the next save. -/
theorem run_of_noSave (act : α → σ → σ) (hops : .save ∉ ops) (current saved : σ) :
    ∃ current', run act ops ⟨current, some saved⟩ = some ⟨current', some saved⟩ := by
  induction ops generalizing current with
  | nil => exact ⟨current, rfl⟩
  | cons op ops ih =>
    rw [List.mem_cons, not_or] at hops
    simp only [run_cons]
    cases op with
    | save => exact absurd rfl hops.1
    | act a => exact ih hops.2 (act a current)
    | restore => exact ih hops.2 saved

/-- Between a save and a restore the value can be acted on at will. -/
theorem run_bracket (hops : .save ∉ ops) (s : State σ) :
    run act (.save :: (ops ++ [.restore])) s = some ⟨s.current, some s.current⟩ := by
  obtain ⟨current, hrun⟩ := run_of_noSave act hops s.current s.current
  rw [run_cons, step, Option.bind_some]
  exact run_append hrun rfl

end Msopcom.Checkpoint
