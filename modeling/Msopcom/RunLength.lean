import Mathlib.Data.List.Chain
import Mathlib.Algebra.Ring.Nat

set_option autoImplicit false

/-!
# Run-length encoding over addresses

Values at increasing addresses are kept as runs. An address that follows the last
run with its value makes that run longer, and any other starts a run of its own.
-/
namespace Msopcom.RunLength

variable {β : Type*}

structure Run (β : Type*) where
  start : ℕ
  size : ℕ
  value : β

namespace Run

def stop (r : Run β) : ℕ := r.start + r.size

def expand (r : Run β) : List (ℕ × β) :=
  (List.range r.size).map fun k => (r.start + k, r.value)

def Meets (r s : Run β) : Prop := r.value = s.value ∧ r.stop = s.start

instance [DecidableEq β] (r s : Run β) : Decidable (r.Meets s) :=
  inferInstanceAs (Decidable (_ ∧ _))

def single (addr : ℕ) (value : β) : Run β := ⟨addr, 1, value⟩

def grow (r : Run β) : Run β := { r with size := r.size + 1 }

theorem expand_single (addr : ℕ) (value : β) : (single addr value).expand = [(addr, value)] := rfl

theorem expand_grow (r : Run β) : r.grow.expand = r.expand ++ [(r.stop, r.value)] := by
  change (List.range (r.size + 1)).map _ = _
  rw [List.range_succ, List.map_append]
  rfl

theorem mem_expand {r : Run β} {e : ℕ × β} :
    e ∈ r.expand ↔ r.start ≤ e.1 ∧ e.1 < r.stop ∧ e.2 = r.value := by
  unfold expand stop
  rw [List.mem_map]
  constructor
  · intro h
    obtain ⟨k, hk, rfl⟩ := h
    have hlt := List.mem_range.mp hk
    exact ⟨Nat.le_add_right _ _, Nat.add_lt_add_left hlt _, rfl⟩
  · intro h
    refine ⟨e.1 - r.start, List.mem_range.mpr (by omega), ?_⟩
    exact Prod.ext (Nat.add_sub_cancel' h.1) h.2.2.symm

end Run

/-- `runs` is the list of the longest runs in `entries`, in their order. -/
structure Encodes (entries : List (ℕ × β)) (runs : List (Run β)) : Prop where
  nonempty : ∀ r ∈ runs, 0 < r.size
  separated : runs.Pairwise fun r s => r.stop ≤ s.start
  maximal : runs.IsChain fun r s => ¬ r.Meets s
  expansion : runs.flatMap Run.expand = entries

theorem Encodes.nil : Encodes ([] : List (ℕ × β)) [] :=
  ⟨fun _ h => absurd h List.not_mem_nil, List.Pairwise.nil, List.isChain_nil, rfl⟩

theorem Encodes.stop_le {entries : List (ℕ × β)} {runs : List (Run β)} (h : Encodes entries runs)
    {addr : ℕ} (hlast : ∀ e ∈ entries, e.1 < addr) : ∀ r ∈ runs, r.stop ≤ addr := by
  intro r hr
  have hpos : 0 < r.size := h.nonempty r hr
  have hmem : (r.start + (r.size - 1), r.value) ∈ entries := by
    rw [← h.expansion, List.mem_flatMap]
    exact ⟨r, hr, Run.mem_expand.mpr ⟨Nat.le_add_right _ _, by unfold Run.stop; omega, rfl⟩⟩
  have hlt : r.start + (r.size - 1) < addr := hlast _ hmem
  unfold Run.stop
  omega

theorem Encodes.grow {entries : List (ℕ × β)} {runs : List (Run β)} {back : Run β} {addr : ℕ}
    {value : β} (h : Encodes entries (runs ++ [back])) (hmeets : back.Meets (.single addr value)) :
    Encodes (entries ++ [(addr, value)]) (runs ++ [back.grow]) := by
  have hseparated := List.pairwise_append.mp h.separated
  have hmaximal := List.isChain_append.mp h.maximal
  constructor
  case nonempty =>
    intro r hr
    cases List.mem_append.mp hr with
    | inl hold => exact h.nonempty r (List.mem_append_left _ hold)
    | inr hnew =>
      rw [List.mem_singleton.mp hnew]
      exact Nat.succ_pos _
  case separated =>
    apply List.pairwise_append.mpr
    refine ⟨hseparated.1, List.pairwise_singleton _ _, ?_⟩
    intro r hr s hs
    rw [List.mem_singleton.mp hs]
    exact hseparated.2.2 r hr back (List.mem_singleton.mpr rfl)
  case maximal =>
    apply List.isChain_append.mpr
    refine ⟨hmaximal.1, List.isChain_singleton _, ?_⟩
    intro r hr s hs
    -- growing at the end leaves the start and the value
    rw [← Option.some.inj hs]
    exact hmaximal.2.2 r hr back rfl
  case expansion =>
    have hexpand := h.expansion
    rw [List.flatMap_append, List.flatMap_singleton] at hexpand ⊢
    rw [Run.expand_grow, ← List.append_assoc, hexpand, hmeets.1, hmeets.2]
    rfl

theorem Encodes.append {entries : List (ℕ × β)} {runs : List (Run β)} {addr : ℕ} {value : β}
    (h : Encodes entries runs) (hlast : ∀ e ∈ entries, e.1 < addr)
    (hmeets : ∀ back ∈ runs.getLast?, ¬ back.Meets (.single addr value)) :
    Encodes (entries ++ [(addr, value)]) (runs ++ [.single addr value]) := by
  constructor
  case nonempty =>
    intro r hr
    cases List.mem_append.mp hr with
    | inl hold => exact h.nonempty r hold
    | inr hnew =>
      rw [List.mem_singleton.mp hnew]
      exact Nat.one_pos
  case separated =>
    apply List.pairwise_append.mpr
    refine ⟨h.separated, List.pairwise_singleton _ _, ?_⟩
    intro r hr s hs
    rw [List.mem_singleton.mp hs]
    exact h.stop_le hlast r hr
  case maximal =>
    apply List.isChain_append.mpr
    refine ⟨h.maximal, List.isChain_singleton _, ?_⟩
    intro r hr s hs
    rw [← Option.some.inj hs]
    exact hmeets r hr
  case expansion =>
    rw [List.flatMap_append, List.flatMap_singleton, h.expansion, Run.expand_single]

section
variable [DecidableEq β]

def push (runs : List (Run β)) (addr : ℕ) (value : β) : List (Run β) :=
  match runs.getLast? with
  | none => [.single addr value]
  | some back =>
    if back.Meets (.single addr value) then runs.dropLast ++ [back.grow]
    else runs ++ [.single addr value]

theorem push_concat (runs : List (Run β)) (back : Run β) (addr : ℕ) (value : β) :
    push (runs ++ [back]) addr value =
      if back.Meets (.single addr value) then runs ++ [back.grow]
      else runs ++ [back] ++ [.single addr value] := by
  unfold push
  rw [List.getLast?_concat, List.dropLast_concat]

theorem Encodes.push {entries : List (ℕ × β)} {runs : List (Run β)} {addr : ℕ} (value : β)
    (h : Encodes entries runs) (hlast : ∀ e ∈ entries, e.1 < addr) :
    Encodes (entries ++ [(addr, value)]) (push runs addr value) := by
  cases List.eq_nil_or_concat runs with
  | inl hnil =>
    subst hnil
    exact h.append hlast fun back hback => nomatch hback
  | inr hconcat =>
    obtain ⟨init, back, rfl⟩ := hconcat
    rw [List.concat_eq_append] at h ⊢
    rw [push_concat]
    split_ifs with hmeets
    · exact h.grow hmeets
    · apply h.append hlast
      intro last hlast
      rw [List.getLast?_concat] at hlast
      rw [← Option.some.inj hlast]
      exact hmeets

def encode (entries : List (ℕ × β)) : List (Run β) :=
  entries.foldl (fun runs e => push runs e.1 e.2) []

/-- Entries at strictly increasing addresses become their longest runs. -/
theorem encodes_encode (entries : List (ℕ × β)) (h : entries.Pairwise fun e f => e.1 < f.1) :
    Encodes entries (encode entries) := by
  induction entries using List.reverseRecOn with
  | nil => exact .nil
  | append_singleton entries e ih =>
    have hparts := List.pairwise_append.mp h
    unfold encode
    rw [List.foldl_append]
    exact (ih hparts.1).push e.2 fun f hf => hparts.2.2 f hf e (List.mem_singleton.mpr rfl)

end

/-! ## Entries of nested tables -/

/-- A loop whose body reads a list of entries is one loop over all of them. -/
theorem foldl_range_eq {γ δ : Type*} {body : δ → ℕ → δ} {f : ℕ → List γ} {g : δ → γ → δ}
    (h : ∀ acc i, body acc i = (f i).foldl g acc) (n : ℕ) (acc : δ) :
    (List.range n).foldl body acc = ((List.range n).flatMap f).foldl g acc := by
  have hbody : body = fun acc i => (f i).foldl g acc := by
    funext acc i
    exact h acc i
  rw [hbody, List.foldl_flatMap]

structure Ordered {γ : Type*} (key : γ → ℕ) (lo hi : ℕ) (entries : List γ) : Prop where
  sorted : entries.Pairwise fun e f => key e < key f
  within : ∀ e ∈ entries, lo ≤ key e ∧ key e < hi

section
variable {γ : Type*} {key : γ → ℕ}

theorem Ordered.nil (lo hi : ℕ) : Ordered key lo hi [] :=
  ⟨List.Pairwise.nil, fun _ h => absurd h List.not_mem_nil⟩

theorem Ordered.singleton {e : γ} {lo hi : ℕ} (hlo : lo ≤ key e) (hhi : key e < hi) :
    Ordered key lo hi [e] :=
  ⟨List.pairwise_singleton _ _, fun f h => by rw [List.mem_singleton.mp h]; exact ⟨hlo, hhi⟩⟩

theorem Ordered.length_le {lo hi : ℕ} {entries : List γ} (h : Ordered key lo hi entries) :
    entries.length ≤ hi - lo := by
  induction entries generalizing lo with
  | nil => exact Nat.zero_le _
  | cons e entries ih =>
    have hparts := List.pairwise_cons.mp h.sorted
    have hfirst := h.within e List.mem_cons_self
    have hrest : Ordered key (key e + 1) hi entries :=
      ⟨hparts.2, fun f hf => ⟨hparts.1 f hf, (h.within f (List.mem_cons_of_mem e hf)).2⟩⟩
    have hlen := ih hrest
    rw [List.length_cons]
    omega

/-- Tables over consecutive windows of one width, read one after another. -/
theorem Ordered.flatMap_range {f : ℕ → List γ} {n base width : ℕ}
    (h : ∀ i < n, Ordered key (base + i * width) (base + (i + 1) * width) (f i)) :
    Ordered key base (base + n * width) ((List.range n).flatMap f) := by
  constructor
  case sorted =>
    apply List.pairwise_flatMap.mpr
    refine ⟨fun i hi => (h i (List.mem_range.mp hi)).sorted, ?_⟩
    apply List.Pairwise.imp_of_mem _ List.pairwise_lt_range
    intro i j hi hj hlt e he g hg
    have hleft := ((h i (List.mem_range.mp hi)).within e he).2
    have hright := ((h j (List.mem_range.mp hj)).within g hg).1
    have hwindow : (i + 1) * width ≤ j * width := Nat.mul_le_mul_right width hlt
    omega
  case within =>
    intro e he
    obtain ⟨i, hi, hmem⟩ := List.mem_flatMap.mp he
    have hlt := List.mem_range.mp hi
    have hbounds := (h i hlt).within e hmem
    have hwindow : (i + 1) * width ≤ n * width := Nat.mul_le_mul_right width hlt
    omega

end

end Msopcom.RunLength
