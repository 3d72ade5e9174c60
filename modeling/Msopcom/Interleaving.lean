import Mathlib.Logic.Function.Basic

set_option autoImplicit false

/-!
# Threads with states of their own

The events of several threads come in one order. Each changes the state of its own thread only, and
gives something out. What a thread does is then what it would do alone.
-/
namespace Msopcom.Interleaving
variable {τ σ ε β : Type*} [DecidableEq τ] (next : σ → ε → σ) (out : σ → ε → List β)

/-- What belongs to a thread, in its order. -/
def ofThread {α : Type*} (t : τ) (l : List (τ × α)) : List α :=
  l.filterMap fun p => if p.1 = t then some p.2 else none

/-- What a thread that runs alone gives out. -/
def outputs (s : σ) : List ε → List β
  | [] => []
  | e :: es => out s e ++ outputs (next s e) es

def nextAll (states : τ → σ) (p : τ × ε) : τ → σ :=
  Function.update states p.1 (next (states p.1) p.2)

/-- What all threads give out. -/
def outputsAll (states : τ → σ) : List (τ × ε) → List (τ × β)
  | [] => []
  | p :: events =>
    (out (states p.1) p.2).map (Prod.mk p.1) ++ outputsAll (nextAll next states p) events

section OfThread
variable {α : Type*} (t : τ)

@[simp] theorem ofThread_nil : ofThread t ([] : List (τ × α)) = [] := rfl

@[simp] theorem ofThread_append (l l' : List (τ × α)) :
    ofThread t (l ++ l') = ofThread t l ++ ofThread t l' := List.filterMap_append

theorem ofThread_cons_self (a : α) (l : List (τ × α)) :
    ofThread t ((t, a) :: l) = a :: ofThread t l := by simp [ofThread]

theorem ofThread_cons_of_ne {p : τ × α} (h : p.1 ≠ t) (l : List (τ × α)) :
    ofThread t (p :: l) = ofThread t l := by simp [ofThread, h]

theorem ofThread_map_mk (t' : τ) (l : List α) :
    ofThread t (l.map (Prod.mk t')) = if t' = t then l else [] := by
  induction l with
  | nil => simp
  | cons a l ih =>
    by_cases h : t' = t
    · subst h
      rw [List.map_cons, ofThread_cons_self, ih, if_pos rfl, if_pos rfl]
    · rw [List.map_cons, ofThread_cons_of_ne t h, ih, if_neg h, if_neg h]

theorem ofThread_filter (l : List (τ × α)) (p : α → Bool) :
    ofThread t (l.filter fun a => p a.2) = (ofThread t l).filter p := by
  unfold ofThread
  rw [List.filterMap_filter, List.filter_filterMap]
  congr 1
  funext a
  by_cases ha : a.1 = t <;> cases hp : p a.2 <;> simp [ha, hp, Option.filter]

theorem mem_ofThread {a : α} {l : List (τ × α)} : a ∈ ofThread t l ↔ (t, a) ∈ l := by
  unfold ofThread
  rw [List.mem_filterMap]
  constructor
  · rintro ⟨⟨t', a'⟩, hmem, heq⟩
    by_cases ht : t' = t
    · obtain rfl : a' = a := by simpa [ht] using heq
      exact ht ▸ hmem
    · simp [ht] at heq
  · exact fun h => ⟨(t, a), h, if_pos rfl⟩

end OfThread

@[simp] theorem outputs_nil (s : σ) : outputs next out s [] = [] := rfl

@[simp] theorem outputs_cons (s : σ) (e : ε) (es : List ε) :
    outputs next out s (e :: es) = out s e ++ outputs next out (next s e) es := rfl

theorem outputs_append (s : σ) (es es' : List ε) :
    outputs next out s (es ++ es') =
      outputs next out s es ++ outputs next out (es.foldl next s) es' := by
  induction es generalizing s with
  | nil => rfl
  | cons e es ih => simp [ih]

/-- The state of a thread is what its own events make of it. -/
theorem foldl_nextAll (states : τ → σ) (events : List (τ × ε)) (t : τ) :
    events.foldl (nextAll next) states t = (ofThread t events).foldl next (states t) := by
  induction events generalizing states with
  | nil => rfl
  | cons p events ih =>
    rw [List.foldl_cons, ih]
    by_cases h : p.1 = t
    · subst h
      rw [ofThread_cons_self p.1 p.2, List.foldl_cons, nextAll, Function.update_self]
    · rw [ofThread_cons_of_ne t h, nextAll, Function.update_of_ne (Ne.symm h)]

/-- A thread gives out what it would alone. -/
theorem ofThread_outputsAll (states : τ → σ) (events : List (τ × ε)) (t : τ) :
    ofThread t (outputsAll next out states events) =
      outputs next out (states t) (ofThread t events) := by
  induction events generalizing states with
  | nil => rfl
  | cons p events ih =>
    rw [outputsAll, ofThread_append, ofThread_map_mk, ih]
    by_cases h : p.1 = t
    · subst h
      rw [if_pos rfl, ofThread_cons_self p.1 p.2, outputs_cons, nextAll, Function.update_self]
    · rw [if_neg h, ofThread_cons_of_ne t h, List.nil_append, nextAll,
        Function.update_of_ne (Ne.symm h)]

end Msopcom.Interleaving
