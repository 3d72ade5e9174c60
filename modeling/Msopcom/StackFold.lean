import Mathlib.Data.List.Basic
import Mathlib.Data.List.Infix

set_option autoImplicit false

/-!
# Lists read on a stack

Each element of a list is put on a stack, takes back the last one, or is passed over. What is left
is said of the list itself, by counting, and a pass in place with two cursors leaves the same.
-/
namespace Msopcom.StackFold
variable {α : Type*}

inductive Action
  | push
  | pop
  | skip
  deriving DecidableEq, Repr

/-- The top of the stack is its end. Nothing is taken back from an empty stack. -/
def step (act : α → Action) (stack : List α) (x : α) : List α :=
  match act x with
  | .push => stack ++ [x]
  | .pop => stack.dropLast
  | .skip => stack

def run (act : α → Action) (stack l : List α) : List α := l.foldl (step act) stack

section Run
variable {act : α → Action} {stack l : List α} {x : α}

theorem step_push (h : act x = .push) : step act stack x = stack ++ [x] := by simp [step, h]

theorem step_pop (h : act x = .pop) : step act stack x = stack.dropLast := by simp [step, h]

theorem step_skip (h : act x = .skip) : step act stack x = stack := by simp [step, h]

@[simp] theorem run_nil : run act stack [] = stack := rfl

@[simp] theorem run_cons : run act stack (x :: l) = run act (step act stack x) l := rfl

@[simp] theorem run_append (u v : List α) :
    run act stack (u ++ v) = run act (run act stack u) v := List.foldl_append

theorem mem_step {y : α} (h : y ∈ step act stack x) : y ∈ stack ∨ y = x ∧ act x = .push := by
  cases hx : act x with
  | push =>
    rw [step_push hx, List.mem_append, List.mem_singleton] at h
    exact h.imp_right fun hy => ⟨hy, rfl⟩
  | pop =>
    rw [step_pop hx] at h
    exact .inl (List.mem_of_mem_dropLast h)
  | skip =>
    rw [step_skip hx] at h
    exact .inl h

/-- Only what is put on the stack is ever there. -/
theorem mem_run {y : α} (h : y ∈ run act stack l) : y ∈ stack ∨ y ∈ l ∧ act y = .push := by
  induction l generalizing stack with
  | nil => exact .inl h
  | cons x l ih =>
    rcases ih h with hstep | ⟨hy, hpush⟩
    · rcases mem_step hstep with hy | ⟨rfl, hpush⟩
      · exact .inl hy
      · exact .inr ⟨List.mem_cons_self, hpush⟩
    · exact .inr ⟨List.mem_cons_of_mem x hy, hpush⟩

theorem mem_run_nil {y : α} (h : y ∈ run act [] l) : y ∈ l ∧ act y = .push := by
  rcases mem_run h with hnil | hmem
  · exact absurd hnil List.not_mem_nil
  · exact hmem

/-- A list that takes nothing back is left but for what is passed over. -/
theorem run_of_no_pop (h : ∀ x ∈ l, act x ≠ .pop) :
    run act stack l = stack ++ l.filter (act · = .push) := by
  induction l generalizing stack with
  | nil => simp
  | cons x l ih =>
    have hl := fun s => @ih s fun y hy => h y (List.mem_cons_of_mem x hy)
    cases hx : act x with
    | push => simp [hl, step_push hx, hx]
    | pop => exact absurd hx (h x List.mem_cons_self)
    | skip => simp [hl, step_skip hx, hx]

theorem run_of_push (stack : List α) (h : ∀ x ∈ l, act x = .push) :
    run act stack l = stack ++ l := by
  have hfilter : l.filter (act · = .push) = l := List.filter_eq_self.mpr (by simpa using h)
  rw [run_of_no_pop fun x hx => by simp [h x hx], hfilter]

/-- What is left of a list is left as it is. -/
theorem run_run : run act [] (run act [] l) = run act [] l := by
  have hpush : ∀ x ∈ run act [] l, act x = .push := fun x hx => (mem_run_nil hx).2
  simpa using run_of_push [] hpush

/-- What is passed over may as well be left out. -/
theorem run_filter : run act stack (l.filter (act · ≠ .skip)) = run act stack l := by
  induction l generalizing stack with
  | nil => rfl
  | cons x l ih =>
    by_cases hx : act x = .skip
    · simpa [hx, step_skip hx] using ih
    · simpa [hx] using ih

theorem run_congr {act' : α → Action} (h : ∀ x ∈ l, act x = act' x) :
    run act stack l = run act' stack l := by
  induction l generalizing stack with
  | nil => rfl
  | cons x l ih =>
    have hstep : step act stack x = step act' stack x := by simp [step, h x]
    rw [run_cons, run_cons, hstep, ih fun y hy => h y (List.mem_cons_of_mem x hy)]

end Run

/-! ## What is left, by counting -/

def pushes (act : α → Action) (l : List α) : ℕ := l.countP (act · = .push)
def pops (act : α → Action) (l : List α) : ℕ := l.countP (act · = .pop)

/-- Nothing is taken back that was there before. -/
def Standing (act : α → Action) (l : List α) : Prop := ∀ w, w <+: l → pops act w ≤ pushes act w

/-- All is taken back again, and nothing that was there before. -/
def Balanced (act : α → Action) (l : List α) : Prop :=
  Standing act l ∧ pushes act l = pops act l

/-- All is taken back again. -/
def Spent (act : α → Action) (l : List α) : Prop := ∀ w, w <:+ l → pushes act w ≤ pops act w

section Counts
variable {act : α → Action} {stack l u v : List α} {x y : α}

@[simp] theorem pushes_append : pushes act (u ++ v) = pushes act u + pushes act v :=
  List.countP_append

@[simp] theorem pops_append : pops act (u ++ v) = pops act u + pops act v := List.countP_append

theorem counts_push (h : act x = .push) : pushes act [x] = 1 ∧ pops act [x] = 0 := by
  simp [pushes, pops, h]

theorem counts_pop (h : act x = .pop) : pushes act [x] = 0 ∧ pops act [x] = 1 := by
  simp [pushes, pops, h]

theorem counts_skip (h : act x = .skip) : pushes act [x] = 0 ∧ pops act [x] = 0 := by
  simp [pushes, pops, h]

theorem standing_nil : Standing act [] := by
  intro w hw
  rw [List.prefix_nil.mp hw]
  exact Nat.le_refl 0

theorem standing_of_append (h : Standing act (u ++ v)) : Standing act u :=
  fun w hw => h w (hw.trans (List.prefix_append u v))

theorem standing_concat :
    Standing act (l ++ [x]) ↔
      Standing act l ∧ pops act (l ++ [x]) ≤ pushes act (l ++ [x]) := by
  constructor
  · exact fun h => ⟨standing_of_append h, h _ List.prefix_rfl⟩
  · rintro ⟨hl, hlast⟩ w hw
    rcases List.prefix_concat_iff.mp hw with rfl | hw
    · exact hlast
    · exact hl w hw

theorem standing_append (hu : Standing act u) (hv : Standing act v) : Standing act (u ++ v) := by
  induction v using List.reverseRecOn with
  | nil => simpa using hu
  | append_singleton v x ih =>
    have hcount : pops act (v ++ [x]) ≤ pushes act (v ++ [x]) := hv _ List.prefix_rfl
    have hbefore : pops act u ≤ pushes act u := hu _ List.prefix_rfl
    rw [← List.append_assoc, standing_concat]
    refine ⟨ih (standing_of_append hv), ?_⟩
    simp only [pushes_append, pops_append] at hcount ⊢
    omega

/-- A standing list leaves the stack below it alone, and as much on it as the counts differ. -/
theorem run_of_standing (stack : List α) (h : Standing act l) :
    ∃ t, run act stack l = stack ++ t ∧ t.length + pops act l = pushes act l := by
  induction l using List.reverseRecOn with
  | nil => exact ⟨[], by simp, rfl⟩
  | append_singleton l x ih =>
    obtain ⟨hl, hlast⟩ := standing_concat.mp h
    obtain ⟨t, hrun, hlength⟩ := ih hl
    rw [run_append, hrun, run_cons, run_nil]
    simp only [pushes_append, pops_append] at hlast ⊢
    cases hx : act x with
    | push =>
      obtain ⟨hpushes, hpops⟩ := counts_push hx
      refine ⟨t ++ [x], by simp [step_push hx], ?_⟩
      rw [List.length_append, List.length_singleton]
      omega
    | pop =>
      obtain ⟨hpushes, hpops⟩ := counts_pop hx
      have ht : t ≠ [] := by
        rintro rfl
        rw [List.length_nil] at hlength
        omega
      have hpos : 0 < t.length := List.length_pos_iff.mpr ht
      refine ⟨t.dropLast, by rw [step_pop hx, List.dropLast_append_of_ne_nil ht], ?_⟩
      rw [List.length_dropLast]
      omega
    | skip =>
      obtain ⟨hpushes, hpops⟩ := counts_skip hx
      exact ⟨t, by rw [step_skip hx], by omega⟩

theorem run_of_balanced (h : Balanced act l) : run act stack l = stack := by
  obtain ⟨t, hrun, hlength⟩ := run_of_standing stack h.1
  have ht : t = [] := List.length_eq_zero_iff.mp (by have := h.2; omega)
  rw [hrun, ht, List.append_nil]

theorem pushes_le (act : α → Action) (stack l : List α) :
    stack.length + pushes act l ≤ (run act stack l).length + pops act l := by
  induction l generalizing stack with
  | nil => exact Nat.le_refl _
  | cons x l ih =>
    have hl := ih (step act stack x)
    rw [run_cons, ← List.singleton_append, pushes_append, pops_append]
    cases hx : act x with
    | push =>
      obtain ⟨hpushes, hpops⟩ := counts_push hx
      rw [step_push hx, List.length_append, List.length_singleton] at hl
      rw [step_push hx]
      omega
    | pop =>
      obtain ⟨hpushes, hpops⟩ := counts_pop hx
      rw [step_pop hx, List.length_dropLast] at hl
      rw [step_pop hx]
      omega
    | skip =>
      obtain ⟨hpushes, hpops⟩ := counts_skip hx
      rw [step_skip hx] at hl ⊢
      omega

theorem balanced_append (hu : Balanced act u) (hv : Balanced act v) : Balanced act (u ++ v) := by
  have hpushes := hu.2
  have hpushes' := hv.2
  refine ⟨standing_append hu.1 hv.1, ?_⟩
  rw [pushes_append, pops_append]
  omega

theorem standing_push (h : act x = .push) : Standing act [x] := by
  obtain ⟨hpushes, hpops⟩ := counts_push h
  rw [← List.nil_append [x], standing_concat, List.nil_append]
  exact ⟨standing_nil, by omega⟩

theorem balanced_skip (h : act x = .skip) : Balanced act [x] := by
  obtain ⟨hpushes, hpops⟩ := counts_skip h
  rw [Balanced, ← List.nil_append [x], standing_concat, List.nil_append]
  exact ⟨⟨standing_nil, by omega⟩, by omega⟩

/-- An element is put down, and taken back when all behind it has been. -/
theorem balanced_pair (hx : act x = .push) (hy : act y = .pop) (hv : Balanced act v) :
    Balanced act ([x] ++ v ++ [y]) := by
  obtain ⟨hxpushes, hxpops⟩ := counts_push hx
  obtain ⟨hypushes, hypops⟩ := counts_pop hy
  have hcount := hv.2
  refine ⟨standing_concat.mpr ⟨standing_append (standing_push hx) hv.1, ?_⟩, ?_⟩
  · simp only [pushes_append, pops_append]
    omega
  · simp only [pushes_append, pops_append]
    omega

/-- The last element that is left is one behind which all is taken back again. -/
theorem exists_of_run_eq_concat (h : run act [] l = u ++ [x]) :
    ∃ b v, l = b ++ x :: v ∧ act x = .push ∧ run act [] b = u ∧ Balanced act v := by
  induction hlen : l.length using Nat.strongRecOn generalizing l u x with
  | ind n ih =>
    rcases List.eq_nil_or_concat' l with rfl | ⟨l, y, rfl⟩
    · simp at h
    rw [List.length_append, List.length_singleton] at hlen
    rw [run_append, run_cons, run_nil] at h
    cases hy : act y with
    | push =>
      rw [step_push hy] at h
      obtain ⟨hu, hxy⟩ := List.append_inj' h rfl
      cases hxy
      exact ⟨l, [], rfl, hy, hu, standing_nil, rfl⟩
    | pop =>
      rw [step_pop hy] at h
      obtain ⟨z, hz⟩ : ∃ z, run act [] l = u ++ [x] ++ [z] := by
        rcases List.eq_nil_or_concat' (run act [] l) with hnil | ⟨s, z, hs⟩
        · simp [hnil] at h
        · rw [hs, List.dropLast_concat] at h
          exact ⟨z, by rw [hs, h]⟩
      -- `z` was the last before, with `b` in front of it, of which `x` is the last that is left.
      obtain ⟨b, v, rfl, hzpush, hb, hv⟩ := ih l.length (by omega) hz rfl
      obtain ⟨b', v', rfl, hpush, hb', hv'⟩ := ih b.length (by simp at hlen; omega) hb rfl
      refine ⟨b', v' ++ ([z] ++ v ++ [y]), by simp, hpush, hb', ?_⟩
      exact balanced_append hv' (balanced_pair hzpush hy hv)
    | skip =>
      rw [step_skip hy] at h
      obtain ⟨b, v, rfl, hpush, hb, hv⟩ := ih l.length (by omega) h rfl
      exact ⟨b, v ++ [y], by simp, hpush, hb, balanced_append hv (balanced_skip hy)⟩

theorem getLast?_run :
    (run act [] l).getLast? = some x ↔
      ∃ b v, l = b ++ x :: v ∧ act x = .push ∧ Balanced act v := by
  constructor
  · intro h
    obtain ⟨u, hu⟩ := List.getLast?_eq_some_iff.mp h
    obtain ⟨b, v, hl, hpush, _, hv⟩ := exists_of_run_eq_concat hu
    exact ⟨b, v, hl, hpush, hv⟩
  · rintro ⟨b, v, rfl, hpush, hv⟩
    simp [step_push hpush, run_of_balanced hv]

theorem run_eq_nil_iff : run act [] l = [] ↔ Spent act l := by
  constructor
  · rintro h w ⟨b, rfl⟩
    have hcount := pushes_le act (run act [] b) w
    rw [← run_append, h, List.length_nil] at hcount
    omega
  · intro h
    rcases List.eq_nil_or_concat' (run act [] l) with hnil | ⟨u, x, hu⟩
    · exact hnil
    · obtain ⟨b, v, rfl, hpush, _, hv⟩ := exists_of_run_eq_concat hu
      have hcount := h (x :: v) (List.suffix_append b _)
      have hbalance := hv.2
      obtain ⟨hpushes, hpops⟩ := counts_push hpush
      rw [← List.singleton_append, pushes_append, pops_append] at hcount
      omega

/-- The first element that is left: all in front of it is taken back, and nothing behind it takes
it back. -/
theorem head?_run :
    (run act [] l).head? = some x ↔
      ∃ b v, l = b ++ x :: v ∧ act x = .push ∧ Spent act b ∧ Standing act v := by
  constructor
  · intro h
    induction l using List.reverseRecOn with
    | nil => simp at h
    | append_singleton l y ih =>
      rw [run_append, run_cons, run_nil] at h
      cases hy : act y with
      | push =>
        rw [step_push hy] at h
        cases hrun : run act [] l with
        | nil =>
          obtain rfl : y = x := by simpa [hrun] using h
          exact ⟨l, [], rfl, hy, run_eq_nil_iff.mp hrun, standing_nil⟩
        | cons z t =>
          obtain ⟨b, v, rfl, hpush, hb, hv⟩ := ih (by simpa [hrun] using h)
          exact ⟨b, v ++ [y], by simp, hpush, hb, standing_append hv (standing_push hy)⟩
      | pop =>
        rw [step_pop hy] at h
        have hhead : (run act [] l).head? = some x := by
          cases hrun : run act [] l with
          | nil => simp [hrun] at h
          | cons z t =>
            cases t with
            | nil => simp [hrun] at h
            | cons z' t => simpa [hrun] using h
        obtain ⟨b, v, rfl, hpush, hb, hv⟩ := ih hhead
        obtain ⟨t, ht, hlength⟩ := run_of_standing [x] hv
        obtain ⟨hpushes, hpops⟩ := counts_pop hy
        refine ⟨b, v ++ [y], by simp, hpush, hb, standing_concat.mpr ⟨hv, ?_⟩⟩
        rw [run_append, run_eq_nil_iff.mpr hb, run_cons, step_push hpush, List.nil_append, ht] at h
        have hpos : 0 < t.length := by
          cases t with
          | nil => simp at h
          | cons z t => simp
        rw [pushes_append, pops_append]
        omega
      | skip =>
        rw [step_skip hy] at h
        obtain ⟨b, v, rfl, hpush, hb, hv⟩ := ih h
        exact ⟨b, v ++ [y], by simp, hpush, hb, standing_append hv (balanced_skip hy).1⟩
  · rintro ⟨b, v, rfl, hpush, hb, hv⟩
    obtain ⟨t, ht, _⟩ := run_of_standing [x] hv
    simp [run_eq_nil_iff.mpr hb, step_push hpush, ht]

end Counts

/-! ## Where a list leads -/

section Walk
variable {ν : Type*}

/-- The place that the elements lead to, one after the other, if each of them leads anywhere. -/
def walk (lookup : ν → α → Option ν) (n : ν) (l : List α) : Option ν := l.foldlM lookup n

/-- What is put down leads to a place above which is the one it leads from, and what takes back
leads to the place above. Nothing is above the root. -/
structure Undoes (act : α → Action) (lookup : ν → α → Option ν) (up : ν → ν) (root : ν) :
    Prop where
  push : ∀ {n m x}, act x = .push → lookup n x = some m → up m = n
  pop : ∀ {n m x}, act x = .pop → lookup n x = some m → m = up n
  skip : ∀ {n m x}, act x = .skip → lookup n x = some m → m = n
  root : up root = root

variable {act : α → Action} {lookup : ν → α → Option ν} {up : ν → ν} {root n m : ν}
  {l u v : List α} {x : α}

@[simp] theorem walk_nil : walk lookup n ([] : List α) = some n := rfl

@[simp] theorem walk_append :
    walk lookup n (u ++ v) = (walk lookup n u).bind fun m => walk lookup m v :=
  List.foldlM_append

@[simp] theorem walk_singleton : walk lookup n [x] = lookup n x := by simp [walk]

/-- What is left leads to where the list leads. -/
theorem walk_run (h : Undoes act lookup up root) (hl : walk lookup root l = some n) :
    walk lookup root (run act [] l) = some n := by
  induction l using List.reverseRecOn generalizing n with
  | nil => exact hl
  | append_singleton l x ih =>
    rw [walk_append] at hl
    obtain ⟨m, hm, hx⟩ := Option.bind_eq_some_iff.mp hl
    rw [walk_singleton] at hx
    have hrun := ih hm
    rw [run_append, run_cons, run_nil]
    cases hact : act x with
    | push => simp [step_push hact, hrun, hx]
    | pop =>
      obtain rfl := h.pop hact hx
      rw [step_pop hact]
      rcases List.eq_nil_or_concat' (run act [] l) with hnil | ⟨u, z, hz⟩
      · rw [hnil, walk_nil] at hrun
        rw [hnil, ← Option.some.inj hrun, h.root]
        rfl
      · -- The last element that is left led here from the place above.
        have hmem : z ∈ run act [] l := hz ▸ List.mem_concat_self
        have hpush : act z = .push := (mem_run_nil hmem).2
        rw [hz, walk_append] at hrun
        obtain ⟨k, hk, hzm⟩ := Option.bind_eq_some_iff.mp hrun
        rw [walk_singleton] at hzm
        rw [hz, List.dropLast_concat, hk, h.push hpush hzm]
    | skip =>
      obtain rfl := h.skip hact hx
      rw [step_skip hact, hrun]

end Walk

/-! ## In place -/

/-- A vector read from the front, whose cells before `slow` are the stack. -/
structure Pass (α : Type*) where
  cells : List α
  slow : ℕ

/-- The round in which the reading cursor is at `fast`. -/
def Pass.step (act : α → Action) (p : Pass α) (fast : ℕ) : Pass α :=
  match p.cells[fast]? with
  | none => p
  | some x =>
    match act x with
    | .push => ⟨p.cells.set p.slow x, p.slow + 1⟩
    | .pop => ⟨p.cells, p.slow - 1⟩
    | .skip => p

def Pass.rounds (act : α → Action) (cells : List α) (n : ℕ) : Pass α :=
  (List.range n).foldl (Pass.step act) ⟨cells, 0⟩

/-- What is before the writing cursor when all has been read. -/
def Pass.result (act : α → Action) (cells : List α) : List α :=
  let p := rounds act cells cells.length
  p.cells.take p.slow

section Pass
variable {act : α → Action} {cells : List α} {p : Pass α} {n : ℕ}

/-- After `n` rounds the stack is that of the first `n` elements, and the others have not moved. -/
structure AfterRounds (act : α → Action) (cells : List α) (n : ℕ) (p : Pass α) : Prop where
  slow_le : p.slow ≤ n
  stack : p.cells.take p.slow = run act [] (cells.take n)
  rest : p.cells.drop n = cells.drop n

theorem afterRounds_zero : AfterRounds act cells 0 ⟨cells, 0⟩ := ⟨Nat.le_refl 0, rfl, rfl⟩

theorem afterRounds_step (h : AfterRounds act cells n p) :
    AfterRounds act cells (n + 1) (p.step act n) := by
  have hread : p.cells[n]? = cells[n]? := by
    rw [← Nat.add_zero n, ← List.getElem?_drop, ← List.getElem?_drop, h.rest]
  have hrest : p.cells.drop (n + 1) = cells.drop (n + 1) := by
    rw [← List.drop_drop, ← List.drop_drop, h.rest]
  have hslow := h.slow_le
  cases hx : cells[n]? with
  | none =>
    have hlength : cells.length ≤ n := List.getElem?_eq_none_iff.mp hx
    have hstep : p.step act n = p := by simp [Pass.step, hread, hx]
    rw [hstep]
    refine ⟨by omega, ?_, hrest⟩
    rw [h.stack, List.take_of_length_le hlength, List.take_of_length_le (by omega)]
  | some x =>
    have hn : n < p.cells.length := (List.getElem?_eq_some_iff.mp (hread.trans hx)).1
    have htake : run act [] (cells.take (n + 1)) = step act (p.cells.take p.slow) x := by
      rw [List.take_add_one, hx, run_append, ← h.stack]
      rfl
    cases hact : act x with
    | push =>
      have hstep : p.step act n = ⟨p.cells.set p.slow x, p.slow + 1⟩ := by
        simp [Pass.step, hread, hx, hact]
      rw [hstep]
      refine ⟨Nat.succ_le_succ hslow, ?_, ?_⟩
      · rw [htake, step_push hact]
        simp [List.take_add_one, List.take_set_of_le, (by omega : p.slow < p.cells.length)]
      · simpa [List.drop_set, (by omega : p.slow < n + 1)] using hrest
    | pop =>
      have hstep : p.step act n = ⟨p.cells, p.slow - 1⟩ := by simp [Pass.step, hread, hx, hact]
      rw [hstep]
      refine ⟨(Nat.sub_le _ 1).trans (hslow.trans (Nat.le_succ n)), ?_, hrest⟩
      change p.cells.take (p.slow - 1) = _
      rw [htake, step_pop hact, List.dropLast_eq_take, List.take_take, List.length_take]
      congr 1
      omega
    | skip =>
      have hstep : p.step act n = p := by simp [Pass.step, hread, hx, hact]
      rw [hstep]
      exact ⟨by omega, by rw [htake, step_skip hact], hrest⟩

theorem afterRounds (act : α → Action) (cells : List α) (n : ℕ) :
    AfterRounds act cells n (Pass.rounds act cells n) := by
  induction n with
  | zero => exact afterRounds_zero
  | succ n ih =>
    rw [Pass.rounds, List.range_succ, List.foldl_concat]
    exact afterRounds_step ih

/-- The pass leaves what the stack leaves. -/
theorem Pass.result_eq_run : Pass.result act cells = run act [] cells := by
  have h := (afterRounds act cells cells.length).stack
  rw [List.take_length] at h
  exact h

end Pass
end Msopcom.StackFold
