import Mathlib.Data.List.AList
import Mathlib.Data.List.Pairwise
import Mathlib.Algebra.Ring.Nat

set_option autoImplicit false

/-!
# Lists with distinct keys

An element of such a list is the only one with its key. `AList` is a finite map of this kind.
-/
namespace Msopcom.KeyedList

variable {α κ : Type} {key : α → κ}

def Distinct (key : α → κ) (l : List α) : Prop := l.Pairwise fun a b => key a ≠ key b

theorem Distinct.filter {l : List α} (h : Distinct key l) (p : α → Bool) :
    Distinct key (l.filter p) :=
  List.Pairwise.filter p h

theorem Distinct.concat {l : List α} (h : Distinct key l) {a : α}
    (ha : ∀ b ∈ l, key b ≠ key a) : Distinct key (l ++ [a]) := by
  refine List.pairwise_append.mpr ⟨h, List.pairwise_singleton _ _, fun b hb c hc => ?_⟩
  rw [List.mem_singleton.mp hc]
  exact ha b hb

theorem Distinct.eq_of_key_eq {l : List α} (h : Distinct key l) {a b : α} (ha : a ∈ l) (hb : b ∈ l)
    (hkey : key a = key b) : a = b := by
  have hsymm : Std.Symm fun a b => key a ≠ key b := ⟨fun _ _ => Ne.symm⟩
  by_contra hne
  exact h.forall ha hb hne hkey

/-- An element stands between elements of other keys. -/
theorem Distinct.split {l : List α} (h : Distinct key l) {a : α} (ha : a ∈ l) :
    ∃ before after, l = before ++ a :: after ∧ (∀ b ∈ before, key b ≠ key a) ∧
      ∀ b ∈ after, key b ≠ key a := by
  obtain ⟨before, after, hsplit⟩ := List.append_of_mem ha
  rw [Distinct, hsplit, List.pairwise_append, List.pairwise_cons] at h
  obtain ⟨_, ⟨hafter, _⟩, hbefore⟩ := h
  exact ⟨before, after, hsplit, fun b hb => hbefore b hb a List.mem_cons_self,
    fun b hb => (hafter b hb).symm⟩

theorem filter_key_ne [DecidableEq κ] {before after : List α} {a : α}
    (hbefore : ∀ b ∈ before, key b ≠ key a) (hafter : ∀ b ∈ after, key b ≠ key a) :
    (before ++ a :: after).filter (fun b => key b ≠ key a) = before ++ after := by
  rw [List.filter_append, List.filter_cons_of_neg (by simp),
    List.filter_eq_self.mpr (by simpa using hbefore),
    List.filter_eq_self.mpr (by simpa using hafter)]

/-- Taking out the element with a key takes one from the count if the element counts. -/
theorem Distinct.countP_filter_ne [DecidableEq κ] {l : List α} (h : Distinct key l) {a : α}
    (ha : a ∈ l) (p : α → Bool) :
    (l.filter fun b => key b ≠ key a).countP p + (if p a then 1 else 0) = l.countP p := by
  obtain ⟨before, after, rfl, hbefore, hafter⟩ := h.split ha
  rw [filter_key_ne hbefore hafter, List.countP_append, List.countP_append, List.countP_cons,
    Nat.add_assoc]

/-! ## Finite maps -/

section Map
variable {β : Type} [DecidableEq α]

theorem lookup_insert_eq (a a' : α) (b : β) (s : AList fun _ : α => β) :
    (s.insert a b).lookup a' = if a' = a then some b else s.lookup a' := by
  by_cases h : a' = a
  · rw [if_pos h, h, AList.lookup_insert]
  · rw [if_neg h, AList.lookup_insert_ne h]

theorem lookup_erase_eq (a a' : α) (s : AList fun _ : α => β) :
    (s.erase a).lookup a' = if a' = a then none else s.lookup a' := by
  by_cases h : a' = a
  · rw [if_pos h, h, AList.lookup_erase]
  · rw [if_neg h, AList.lookup_erase_ne h]

/-- The entries are stored one after the other, over those with their keys. -/
def store (s : AList fun _ : α => β) (l : List (α × β)) : AList fun _ : α => β :=
  l.foldl (fun s e => s.insert e.1 e.2) s

theorem lookup_store_of_not_mem {s : AList fun _ : α => β} {l : List (α × β)} {a : α}
    (h : a ∉ l.map Prod.fst) : (store s l).lookup a = s.lookup a := by
  induction l generalizing s with
  | nil => rfl
  | cons e l ih =>
    rw [List.map_cons, List.mem_cons, not_or] at h
    change (store (s.insert e.1 e.2) l).lookup a = _
    rw [ih h.2, AList.lookup_insert_ne h.1]

/-- What is stored under a key does not depend on what was there before. -/
theorem lookup_store_of_mem {s s' : AList fun _ : α => β} {l : List (α × β)} {a : α}
    (h : a ∈ l.map Prod.fst) : (store s l).lookup a = (store s' l).lookup a := by
  induction l generalizing s s' with
  | nil => cases h
  | cons e l ih =>
    change (store (s.insert e.1 e.2) l).lookup a = (store (s'.insert e.1 e.2) l).lookup a
    by_cases hl : a ∈ l.map Prod.fst
    · exact ih hl
    · have ha : a = e.1 := (List.mem_cons.mp h).resolve_right hl
      rw [lookup_store_of_not_mem hl, lookup_store_of_not_mem hl, ha, AList.lookup_insert,
        AList.lookup_insert]

/-- The map is the one that the entries alone give if they cover its old keys. -/
theorem lookup_store_eq_iff {s : AList fun _ : α => β} {l : List (α × β)} :
    (∀ a, (store s l).lookup a = (store ∅ l).lookup a) ↔ ∀ a ∈ s, a ∈ l.map Prod.fst := by
  constructor
  · intro h a ha
    by_contra hl
    have hnone := h a
    rw [lookup_store_of_not_mem hl, lookup_store_of_not_mem hl, AList.lookup_empty,
      AList.lookup_eq_none] at hnone
    exact hnone ha
  · intro h a
    by_cases hl : a ∈ l.map Prod.fst
    · exact lookup_store_of_mem hl
    · rw [lookup_store_of_not_mem hl, lookup_store_of_not_mem hl, AList.lookup_empty,
        AList.lookup_eq_none]
      exact fun ha => hl (h a ha)

theorem entries_ne_nil_iff (s : AList fun _ : α => β) :
    s.entries ≠ [] ↔ ∃ a b, s.lookup a = some b := by
  constructor
  · intro h
    obtain ⟨e, he⟩ := List.exists_mem_of_ne_nil _ h
    exact ⟨e.1, e.2, AList.mem_lookup_iff.mpr he⟩
  · rintro ⟨a, b, h⟩ hnil
    have hmem : (⟨a, b⟩ : Sigma fun _ : α => β) ∈ s.entries := AList.mem_lookup_iff.mp h
    rw [hnil] at hmem
    cases hmem

/-- `map[key]` where the values are lists: without an entry it is empty. -/
def listAt {γ : Type} (s : AList fun _ : α => List γ) (a : α) : List γ := (s.lookup a).getD []

theorem listAt_insert {γ : Type} (s : AList fun _ : α => List γ) (a a' : α) (l : List γ) :
    listAt (s.insert a l) a' = if a' = a then l else listAt s a' := by
  rw [listAt, lookup_insert_eq]
  split_ifs <;> rfl

theorem listAt_insert_self {γ : Type} (s : AList fun _ : α => List γ) (a : α) :
    listAt (s.insert a (listAt s a)) = listAt s := by
  funext a'
  rw [listAt_insert]
  split_ifs with h
  · rw [h]
  · rfl

theorem mem_listAt_iff {γ : Type} {s : AList fun _ : α => List γ} {a : α} {c : γ} :
    c ∈ listAt s a ↔ ∃ e ∈ s.entries, e.1 = a ∧ c ∈ e.2 := by
  rw [listAt]
  constructor
  · intro h
    cases hl : s.lookup a with
    | none =>
      rw [hl] at h
      cases h
    | some l =>
      rw [hl] at h
      exact ⟨⟨a, l⟩, AList.mem_lookup_iff.mp hl, rfl, h⟩
  · rintro ⟨⟨a', l⟩, he, rfl, h⟩
    rw [AList.mem_lookup_iff.mpr he]
    exact h

/-! ## Lists that share no element -/

section Once
variable {γ : Type} {s s' : AList fun _ : α => List γ}

/-- No element is in the lists of two keys, or in a list twice. -/
structure Once (s : AList fun _ : α => List γ) : Prop where
  owner : ∀ a a' c, c ∈ listAt s a → c ∈ listAt s a' → a = a'
  nodup : ∀ a, (listAt s a).Nodup

theorem once_empty : Once (∅ : AList fun _ : α => List γ) := by
  constructor
  case owner => exact fun a a' c hc => absurd hc List.not_mem_nil
  case nodup => exact fun a => List.nodup_nil

theorem Once.of_sublist (h : Once s) (hsub : ∀ a, (listAt s' a).Sublist (listAt s a)) :
    Once s' := by
  constructor
  case owner =>
    intro a a' c hc hc'
    exact h.owner a a' c ((hsub a).subset hc) ((hsub a').subset hc')
  case nodup => exact fun a => (h.nodup a).sublist (hsub a)

/-- New elements at the end of a list. -/
theorem Once.of_append (h : Once s) (a : α) {l : List γ} (hl : l.Nodup)
    (hnew : ∀ c ∈ l, ∀ a, c ∉ listAt s a)
    (hs' : ∀ a', listAt s' a' = if a' = a then listAt s a ++ l else listAt s a') : Once s' := by
  have hmem : ∀ a' c, c ∈ listAt s' a' ↔ c ∈ listAt s a' ∨ a' = a ∧ c ∈ l := by
    intro a' c
    rw [hs']
    by_cases ha : a' = a
    · rw [if_pos ha, List.mem_append, ha, and_iff_right rfl]
    · rw [if_neg ha, or_iff_left fun hsame => ha hsame.1]
  constructor
  case owner =>
    intro a' a'' c hc hc'
    rw [hmem] at hc hc'
    rcases hc with hc | ⟨rfl, hc⟩
    · rcases hc' with hc' | ⟨rfl, hc'⟩
      · exact h.owner a' a'' c hc hc'
      · exact absurd hc (hnew c hc' a')
    · rcases hc' with hc' | ⟨rfl, _⟩
      · exact absurd hc' (hnew c hc a'')
      · rfl
  case nodup =>
    intro a'
    rw [hs']
    split_ifs
    · exact (h.nodup a).append hl fun c hold hc => hnew c hc a hold
    · exact h.nodup a'

end Once
end Map

/-! ## Maps of lists -/

section Index
variable {β : Type} [DecidableEq κ] {val : α → β} {s : AList fun _ : κ => β} {l : List α}

/-- The map takes the keys of the elements to their values. -/
def Indexes (s : AList fun _ : κ => β) (key : α → κ) (val : α → β) (l : List α) : Prop :=
  ∀ k b, s.lookup k = some b ↔ ∃ a ∈ l, key a = k ∧ val a = b

theorem Indexes.insert (h : Indexes s key val l) {a : α} (ha : ∀ b ∈ l, key b ≠ key a) :
    Indexes (s.insert (key a) (val a)) key val (l ++ [a]) := by
  intro k b
  rw [lookup_insert_eq]
  simp only [List.mem_append, List.mem_singleton]
  by_cases hk : k = key a
  · rw [if_pos hk, Option.some.injEq]
    constructor
    · exact fun hb => ⟨a, .inr rfl, hk.symm, hb⟩
    · rintro ⟨c, hc | rfl, hkey, hval⟩
      · exact absurd (hkey.trans hk) (ha c hc)
      · exact hval
  · rw [if_neg hk, h k b]
    constructor
    · rintro ⟨c, hc, hkey⟩
      exact ⟨c, .inl hc, hkey⟩
    · rintro ⟨c, hc | rfl, hkey, hval⟩
      · exact ⟨c, hc, hkey, hval⟩
      · exact absurd hkey.symm hk

theorem Indexes.erase (h : Indexes s key val l) (k : κ) :
    Indexes (s.erase k) key val (l.filter fun a => key a ≠ k) := by
  intro k' b
  rw [lookup_erase_eq]
  simp only [List.mem_filter, decide_eq_true_eq]
  by_cases hk : k' = k
  · rw [if_pos hk]
    refine iff_of_false (Option.some_ne_none b).symm ?_
    rintro ⟨a, ha, hkey, -⟩
    exact ha.2 (hkey.trans hk)
  · rw [if_neg hk, h k' b]
    constructor
    · rintro ⟨a, ha, hkey, hval⟩
      exact ⟨a, ⟨ha, hkey ▸ hk⟩, hkey, hval⟩
    · rintro ⟨a, ha, hkey, hval⟩
      exact ⟨a, ha.1, hkey, hval⟩

end Index
end Msopcom.KeyedList
