import Mathlib.Algebra.Order.BigOperators.Group.List
import Mathlib.Algebra.Order.Group.Nat
import Mathlib.Data.List.Forall2
import Mathlib.Data.List.Perm.Subperm
import Msopcom.Bytes

set_option autoImplicit false

/-!
# Decoders

A decoder takes one item from the front of its input and leaves the rest. What it takes is told
from what follows, and its length from the item.
-/
namespace Msopcom.Decoder
open Bytes

variable {α β : Type}

/-- The encoding of the item is taken, whatever follows. -/
def Decodes (d : List β → Option (α × List β)) (encode : α → List β) (a : α) : Prop :=
  ∀ rest, d (encode a ++ rest) = some (a, rest)

/-- An item takes as much from the input as its size says. -/
def Sized (d : List β → Option (α × List β)) (size : α → ℕ) : Prop :=
  ∀ input a rest, d input = some (a, rest) → input.length = size a + rest.length

def times (d : List β → Option (α × List β)) : ℕ → List β → Option (List α × List β)
  | 0, input => some ([], input)
  | n + 1, input => do
    let (a, rest) ← d input
    let (as, rest) ← times d n rest
    some (a :: as, rest)

/-- Items up to the end of the input, at most as many as there is fuel. -/
def all (d : List β → Option (α × List β)) : ℕ → List β → Option (List α)
  | _, [] => some []
  | 0, _ :: _ => none
  | fuel + 1, b :: input => do
    let (a, rest) ← d (b :: input)
    let as ← all d fuel rest
    some (a :: as)

variable {d : List β → Option (α × List β)} {encode : α → List β} {size : α → ℕ}

theorem decodes_times {as : List α} (h : ∀ a ∈ as, Decodes d encode a) (rest : List β) :
    times d as.length (as.flatMap encode ++ rest) = some (as, rest) := by
  induction as with
  | nil => rfl
  | cons a as ih =>
    have hhead := h a List.mem_cons_self
    have htail := ih fun a ha => h a (List.mem_cons_of_mem _ ha)
    rw [List.flatMap_cons, List.append_assoc, List.length_cons, times, hhead]
    dsimp only [bind, Option.bind]
    rw [htail]

theorem sized_times {k : ℕ} (h : Sized d fun _ => k) {n : ℕ} {input rest : List β} {as : List α}
    (hd : times d n input = some (as, rest)) :
    as.length = n ∧ input.length = n * k + rest.length := by
  induction n generalizing input as with
  | zero =>
    cases hd
    exact ⟨rfl, by rw [Nat.zero_mul, Nat.zero_add]⟩
  | succ n ih =>
    obtain ⟨⟨a, mid⟩, hhead, hd⟩ := Option.bind_eq_some_iff.mp hd
    obtain ⟨⟨as', rest'⟩, htail, heq⟩ := Option.bind_eq_some_iff.mp hd
    cases heq
    obtain ⟨hcount, hlen⟩ := ih htail
    have hfirst : input.length = k + mid.length := h _ _ _ hhead
    refine ⟨congrArg (· + 1) hcount, ?_⟩
    rw [hfirst, hlen, Nat.succ_mul]
    omega

theorem all_flatMap {as : List α} (h : ∀ a ∈ as, Decodes d encode a) (hne : ∀ a, encode a ≠ [])
    {fuel : ℕ} (hfuel : as.length ≤ fuel) : all d fuel (as.flatMap encode) = some as := by
  induction as generalizing fuel with
  | nil => cases fuel <;> rfl
  | cons a as ih =>
    cases fuel with
    | zero => exact absurd hfuel (Nat.not_succ_le_zero _)
    | succ fuel =>
      have hhead := h a List.mem_cons_self (as.flatMap encode)
      have htail := ih (fun a ha => h a (List.mem_cons_of_mem _ ha)) (Nat.le_of_succ_le_succ hfuel)
      rw [List.flatMap_cons]
      cases hinput : encode a ++ as.flatMap encode with
      | nil => exact absurd (List.append_eq_nil_iff.mp hinput).1 (hne a)
      | cons b input =>
        rw [hinput] at hhead
        rw [all, hhead]
        dsimp only [bind, Option.bind]
        rw [htail]

theorem sum_size_all (h : Sized d size) {fuel : ℕ} {input : List β} {as : List α}
    (hd : all d fuel input = some as) : (as.map size).sum = input.length := by
  induction fuel generalizing input as with
  | zero =>
    cases input with
    | nil =>
      cases hd
      rfl
    | cons b input => cases hd
  | succ fuel ih =>
    cases input with
    | nil =>
      cases hd
      rfl
    | cons b input =>
      obtain ⟨⟨a, rest⟩, hhead, hd⟩ := Option.bind_eq_some_iff.mp hd
      obtain ⟨as', htail, heq⟩ := Option.bind_eq_some_iff.mp hd
      cases heq
      rw [List.map_cons, List.sum_cons, ih htail, h _ _ _ hhead]

theorem length_le_length_flatMap (hne : ∀ a, encode a ≠ []) (as : List α) :
    as.length ≤ (as.flatMap encode).length := by
  induction as with
  | nil => exact Nat.le_refl _
  | cons a as ih =>
    have hpos := List.length_pos_iff.mpr (hne a)
    rw [List.flatMap_cons, List.length_append, List.length_cons]
    omega

theorem mapM_eq_some_iff {γ : Type} {f : α → Option γ} {as : List α} {cs : List γ} :
    as.mapM f = some cs ↔ List.Forall₂ (fun a c => f a = some c) as cs := by
  induction as generalizing cs with
  | nil => exact Option.some_inj.trans (eq_comm.trans List.forall₂_nil_left_iff.symm)
  | cons a as ih =>
    rw [List.mapM_cons, List.forall₂_cons_left_iff]
    constructor
    · intro h
      obtain ⟨c, hc, h⟩ := Option.bind_eq_some_iff.mp h
      obtain ⟨cs', hcs, h⟩ := Option.bind_eq_some_iff.mp h
      exact ⟨c, cs', hc, ih.mp hcs, (Option.some.inj h).symm⟩
    · rintro ⟨c, cs', hc, hcs, rfl⟩
      rw [hc, ih.mpr hcs]
      rfl

theorem exists_of_mapM {γ : Type} {f : α → Option γ} {as : List α} {cs : List γ}
    (h : as.mapM f = some cs) {c : γ} (hc : c ∈ cs) : ∃ a ∈ as, f a = some c := by
  have hall := mapM_eq_some_iff.mp h
  clear h
  induction hall with
  | nil => cases hc
  | cons heq _ ih =>
    rcases List.mem_cons.mp hc with rfl | hc
    · exact ⟨_, List.mem_cons_self, heq⟩
    · obtain ⟨a, ha, heq⟩ := ih hc
      exact ⟨a, List.mem_cons_of_mem _ ha, heq⟩

/-! ## Numbers -/

/-- A number of `n` bytes. -/
def readLe (n : ℕ) (input : List UInt8) : Option (ℕ × List UInt8) :=
  if n ≤ input.length then some (leNat (input.take n), input.drop n) else none

theorem readLe_leBytes {n x : ℕ} (h : x < 256 ^ n) : Decodes (readLe n) (leBytes n) x := by
  intro rest
  have hlen := length_leBytes n x
  unfold readLe
  rw [if_pos (by rw [List.length_append]; omega), List.take_left' hlen, List.drop_left' hlen,
    leNat_leBytes h]

theorem sized_readLe (n : ℕ) : Sized (readLe n) fun _ => n := by
  intro input x rest h
  unfold readLe at h
  split_ifs at h with hle
  cases h
  rw [List.length_drop, Nat.add_sub_cancel' hle]

/-! ## Items between separators -/

theorem length_intercalate (sep : β) {ls : List (List β)} (h : ls ≠ []) :
    ([sep].intercalate ls).length + 1 = (ls.map fun l => l.length + 1).sum := by
  induction ls with
  | nil => exact absurd rfl h
  | cons l ls ih =>
    cases ls with
    | nil => rw [List.intercalate_singleton, List.map_singleton, List.sum_singleton]
    | cons l' ls =>
      have htail := ih (List.cons_ne_nil _ _)
      rw [List.intercalate_cons_cons, List.map_cons, List.sum_cons, ← htail, List.length_append,
        List.length_append, List.length_singleton]
      omega

/-- Different items that all stand between the separators are no longer than the input. -/
theorem length_intercalate_le [BEq β] [LawfulBEq β] (sep : β) {ls : List (List β)} {input : List β}
    (hnodup : ls.Nodup) (hsub : ls ⊆ input.splitOn sep) :
    ([sep].intercalate ls).length ≤ input.length := by
  cases hls : ls with
  | nil => exact Nat.zero_le _
  | cons l rest =>
    rw [← hls]
    obtain ⟨ls', hperm, hsublist⟩ := List.subperm_of_subset hnodup hsub
    have hsum := (hsublist.map fun l => l.length + 1).sum_le_sum fun _ _ => Nat.zero_le _
    have hinput := length_intercalate sep (List.splitOn_ne_nil sep input)
    have hitems := length_intercalate sep (hls ▸ List.cons_ne_nil l rest : ls ≠ [])
    rw [List.intercalate_splitOn] at hinput
    rw [(hperm.map fun l => l.length + 1).sum_eq] at hsum
    omega

end Msopcom.Decoder
