import Mathlib.Data.Finset.Basic

set_option autoImplicit false

/-!
# What is used while it is held

A program acquires things, uses them and releases them. Its accesses are replayed on the set of what
is held: only what is not held is acquired, and only what is held is used or released.
-/
namespace Msopcom.Custody
variable {ρ : Type*} [DecidableEq ρ]

inductive Access (ρ : Type*)
  | acquire (r : ρ)
  | use (r : ρ)
  | release (r : ρ)
  deriving DecidableEq, Repr

def step (held : Finset ρ) : Access ρ → Option (Finset ρ)
  | .acquire r => if r ∈ held then none else some (insert r held)
  | .use r => if r ∈ held then some held else none
  | .release r => if r ∈ held then some (held.erase r) else none

/-- What is held in the end, if nothing goes wrong. -/
def replay (held : Finset ρ) (t : List (Access ρ)) : Option (Finset ρ) := t.foldlM step held

variable {held held' : Finset ρ} {t u : List (Access ρ)} {r : ρ}

@[simp] theorem replay_nil : replay held [] = some held := rfl

@[simp] theorem replay_append :
    replay held (t ++ u) = (replay held t).bind fun held' => replay held' u := List.foldlM_append

@[simp] theorem replay_singleton (a : Access ρ) : replay held [a] = step held a := by simp [replay]

theorem replay_append_of (ht : replay held t = some held') :
    replay held (t ++ u) = replay held' u := by rw [replay_append, ht, Option.bind_some]

theorem step_acquire (h : r ∉ held) : step held (.acquire r) = some (insert r held) := if_neg h

theorem step_use (h : r ∈ held) : step held (.use r) = some held := if_pos h

theorem step_release (h : r ∈ held) : step held (.release r) = some (held.erase r) := if_pos h

/-- What is acquired and released around accesses that keep all is not held before or after. -/
theorem replay_bracket (hr : r ∉ held) (ht : replay (insert r held) t = some (insert r held)) :
    replay held (.acquire r :: (t ++ [.release r])) = some held := by
  have hmem : r ∈ insert r held := Finset.mem_insert_self r held
  rw [← List.singleton_append, replay_append, replay_singleton, step_acquire hr, Option.bind_some,
    replay_append_of ht, replay_singleton, step_release hmem, Finset.erase_insert hr]

theorem replay_use {l : List ρ} (h : ∀ r ∈ l, r ∈ held) :
    replay held (l.map .use) = some held := by
  induction l with
  | nil => rfl
  | cons r l ih =>
    rw [List.map_cons, ← List.singleton_append, replay_append, replay_singleton,
      step_use (h r List.mem_cons_self), Option.bind_some,
      ih fun r' hr' => h r' (List.mem_cons_of_mem r hr')]

/-- What is held is released, each thing once. -/
theorem replay_release {l : List ρ} (hl : l.Nodup) (h : ∀ r, r ∈ held ↔ r ∈ l) :
    replay held (l.map .release) = some ∅ := by
  induction l generalizing held with
  | nil =>
    have hempty : held = ∅ :=
      Finset.eq_empty_of_forall_notMem fun r hr => by simpa using (h r).mp hr
    rw [hempty]
    rfl
  | cons r l ih =>
    rw [List.nodup_cons] at hl
    have hmem : r ∈ held := (h r).mpr List.mem_cons_self
    have hrest : ∀ r', r' ∈ held.erase r ↔ r' ∈ l := by
      intro r'
      rw [Finset.mem_erase, h r', List.mem_cons]
      constructor
      · exact fun hr' => hr'.2.resolve_left hr'.1
      · exact fun hr' => ⟨fun heq => hl.1 (heq ▸ hr'), .inr hr'⟩
    rw [List.map_cons, ← List.singleton_append, replay_append, replay_singleton,
      step_release hmem, Option.bind_some, ih hl.2 hrest]

end Msopcom.Custody
