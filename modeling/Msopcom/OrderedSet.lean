import Mathlib.Data.List.Perm.Subperm
import Mathlib.Data.List.Sort
import Mathlib.Data.List.Dedup
import Mathlib.Data.List.Induction
import Mathlib.Algebra.Ring.Nat

set_option autoImplicit false

/-!
# Sets kept in the order of a comparator

A strictly sorted list stands for a balanced-tree set whose comparator decides
which elements are equivalent: inserting an element equivalent to a stored one
keeps the stored one. Nothing here depends on what the elements are.
-/
namespace Msopcom

/-- The elements in iteration order; the field excludes equivalent duplicates. -/
structure OrderedSet (α : Type) (lt : α → α → Prop) where
  elems : List α
  sorted : elems.Pairwise lt

namespace OrderedSet
variable {α : Type} {lt : α → α → Prop}

/-- The position an insertion finds: before the first greater element, unless
an equivalent one comes first. -/
def place (lt : α → α → Prop) [DecidableRel lt] (a : α) : List α → List α
  | [] => [a]
  | b :: l => if lt a b then a :: b :: l else if lt b a then b :: place lt a l else b :: l

section Place
variable [DecidableRel lt]

theorem eq_or_mem_of_mem_place {a x : α} {l : List α} (h : x ∈ place lt a l) :
    x = a ∨ x ∈ l := by
  induction l with
  | nil => simpa [place] using h
  | cons b l ih =>
    simp only [place] at h
    split_ifs at h with hab hba
    · simpa using h
    · rcases List.mem_cons.mp h with rfl | hx
      · simp
      · rcases ih hx with rfl | hl
        · exact Or.inl rfl
        · exact Or.inr (List.mem_cons_of_mem _ hl)
    · exact Or.inr h

theorem mem_place_of_mem {a x : α} {l : List α} (h : x ∈ l) : x ∈ place lt a l := by
  induction l with
  | nil => simp at h
  | cons b l ih =>
    simp only [place]
    split_ifs with hab hba
    · exact List.mem_cons_of_mem _ h
    · rcases List.mem_cons.mp h with rfl | hl
      · exact List.mem_cons_self
      · exact List.mem_cons_of_mem _ (ih hl)
    · exact h

theorem mem_place_or_equiv (a : α) (l : List α) :
    a ∈ place lt a l ∨ ∃ b ∈ l, ¬ lt a b ∧ ¬ lt b a := by
  induction l with
  | nil => simp [place]
  | cons b l ih =>
    simp only [place]
    split_ifs with hab hba
    · exact Or.inl List.mem_cons_self
    · rcases ih with hm | ⟨c, hc, hne⟩
      · exact Or.inl (List.mem_cons_of_mem _ hm)
      · exact Or.inr ⟨c, List.mem_cons_of_mem _ hc, hne⟩
    · exact Or.inr ⟨b, List.mem_cons_self, hab, hba⟩

theorem place_sorted [IsTrans α lt] {a : α} {l : List α} (h : l.Pairwise lt) :
    (place lt a l).Pairwise lt := by
  induction l with
  | nil => simp [place]
  | cons b l ih =>
    obtain ⟨hb, hl⟩ := List.pairwise_cons.mp h
    simp only [place]
    split_ifs with hab hba
    · refine List.pairwise_cons.mpr ⟨?_, h⟩
      intro c hc
      rcases List.mem_cons.mp hc with rfl | hc
      · exact hab
      · exact IsTrans.trans _ _ _ hab (hb c hc)
    · refine List.pairwise_cons.mpr ⟨?_, ih hl⟩
      intro c hc
      rcases eq_or_mem_of_mem_place hc with rfl | hc
      · exact hba
      · exact hb c hc
    · exact h

theorem length_place_le (a : α) (l : List α) : (place lt a l).length ≤ l.length + 1 := by
  induction l with
  | nil => simp [place]
  | cons b l ih =>
    simp only [place]
    split_ifs <;> simp only [List.length_cons] <;> omega

/-- A predicate that does not separate equivalent elements. -/
def Respects (lt : α → α → Prop) (p : α → Bool) : Prop :=
  ∀ a b, ¬ lt a b → ¬ lt b a → p a = p b

theorem filter_place_of_neg {p : α → Bool} {a : α} (ha : p a = false) (l : List α) :
    (place lt a l).filter p = l.filter p := by
  induction l with
  | nil => simp [place, ha]
  | cons b l ih =>
    simp only [place]
    split_ifs
    · simp [ha]
    · simp only [List.filter_cons, ih]
    · rfl

theorem place_of_forall_lt {a : α} {l : List α} (h : ∀ b ∈ l, lt a b) :
    place lt a l = a :: l := by
  cases l with
  | nil => rfl
  | cons b l => simp [place, h b List.mem_cons_self]

theorem place_of_forall_gt {a : α} {l : List α} (hasymm : ∀ b ∈ l, ¬ lt a b)
    (h : ∀ b ∈ l, lt b a) : place lt a l = l ++ [a] := by
  induction l with
  | nil => rfl
  | cons b l ih =>
    rw [place, if_neg (hasymm b List.mem_cons_self), if_pos (h b List.mem_cons_self),
      ih (fun c hc => hasymm c (List.mem_cons_of_mem b hc))
        fun c hc => h c (List.mem_cons_of_mem b hc), List.cons_append]

theorem filter_place_of_pos [IsTrans α lt] {p : α → Bool} (hp : Respects lt p) {a : α}
    (ha : p a = true) {l : List α} (hl : l.Pairwise lt) :
    (place lt a l).filter p = place lt a (l.filter p) := by
  induction l with
  | nil => simp [place, ha]
  | cons b l ih =>
    obtain ⟨hb, hs⟩ := List.pairwise_cons.mp hl
    simp only [place]
    split_ifs with hab hba
    · have hlt : ∀ c ∈ (b :: l).filter p, lt a c := by
        intro c hc
        rcases List.mem_cons.mp (List.mem_of_mem_filter hc) with rfl | hc
        · exact hab
        · exact IsTrans.trans _ _ _ hab (hb c hc)
      rw [place_of_forall_lt hlt, List.filter_cons_of_pos ha]
    · rw [List.filter_cons, List.filter_cons, ih hs]
      split_ifs
      · simp [place, hab, hba]
      · rfl
    · have hpb : p b = true := (hp a b hab hba).symm.trans ha
      rw [List.filter_cons_of_pos hpb]
      simp [place, hab, hba]

theorem countP_place_le (p : α → Bool) (a : α) (l : List α) :
    (place lt a l).countP p ≤ (a :: l).countP p := by
  induction l with
  | nil => exact le_refl _
  | cons b l ih =>
    rw [place]
    split_ifs
    · exact le_refl _
    · simp only [List.countP_cons] at ih ⊢
      omega
    · exact (List.sublist_cons_self a (b :: l)).countP_le

end Place

theorem filter_eraseP_of_disjoint {p q : α → Bool} {l : List α}
    (h : ∀ x ∈ l, p x = true → q x = false) : (l.eraseP p).filter q = l.filter q := by
  induction l with
  | nil => rfl
  | cons b l ih =>
    by_cases hb : p b = true
    · rw [List.eraseP_cons_of_pos hb, List.filter_cons_of_neg (by simp [h b List.mem_cons_self hb])]
    · rw [List.eraseP_cons_of_neg hb, List.filter_cons, List.filter_cons,
        ih (fun x hx => h x (List.mem_cons_of_mem _ hx))]

theorem filter_eraseP_of_imp {p q : α → Bool} {l : List α}
    (h : ∀ x ∈ l, p x = true → q x = true) : (l.eraseP p).filter q = (l.filter q).eraseP p := by
  induction l with
  | nil => rfl
  | cons b l ih =>
    have ih := ih (fun x hx => h x (List.mem_cons_of_mem _ hx))
    by_cases hb : p b = true
    · rw [List.eraseP_cons_of_pos hb, List.filter_cons_of_pos (h b List.mem_cons_self hb),
        List.eraseP_cons_of_pos hb]
    · rw [List.eraseP_cons_of_neg hb, List.filter_cons, List.filter_cons, ih]
      split_ifs
      · rw [List.eraseP_cons_of_neg hb]
      · rfl

theorem filter_eraseP_self (p : α → Bool) (l : List α) :
    (l.eraseP p).filter p = (l.filter p).drop 1 := by
  induction l with
  | nil => rfl
  | cons b l ih =>
    by_cases hb : p b = true
    · rw [List.eraseP_cons_of_pos hb, List.filter_cons_of_pos hb, List.drop_one, List.tail_cons]
    · rw [List.eraseP_cons_of_neg hb, List.filter_cons_of_neg hb, List.filter_cons_of_neg hb, ih]

theorem countP_eraseP_self (p : α → Bool) (l : List α) :
    (l.eraseP p).countP p = l.countP p - 1 := by
  induction l with
  | nil => rfl
  | cons b l ih =>
    by_cases hb : p b = true
    · rw [List.eraseP_cons_of_pos hb, List.countP_cons_of_pos hb, Nat.add_sub_cancel]
    · rw [List.eraseP_cons_of_neg hb, List.countP_cons_of_neg hb, List.countP_cons_of_neg hb, ih]

theorem countP_eraseP_le (p q : α → Bool) (l : List α) :
    (l.eraseP p).countP q ≤ l.countP q :=
  (List.eraseP_sublist).countP_le

instance : Membership α (OrderedSet α lt) := ⟨fun s a => a ∈ s.elems⟩

theorem mem_def {s : OrderedSet α lt} {a : α} : a ∈ s ↔ a ∈ s.elems := Iff.rfl

theorem ext_elems {s t : OrderedSet α lt} (h : s.elems = t.elems) : s = t := by
  cases s
  cases t
  subst h
  rfl

def empty : OrderedSet α lt := ⟨[], List.Pairwise.nil⟩

def size (s : OrderedSet α lt) : ℕ := s.elems.length

def insert [DecidableRel lt] [IsTrans α lt] (s : OrderedSet α lt) (a : α) : OrderedSet α lt :=
  ⟨place lt a s.elems, place_sorted s.sorted⟩

def eraseFirst (s : OrderedSet α lt) (p : α → Bool) : OrderedSet α lt :=
  ⟨s.elems.eraseP p, s.sorted.sublist List.eraseP_sublist⟩

def filter (s : OrderedSet α lt) (p : α → Bool) : OrderedSet α lt :=
  ⟨s.elems.filter p, s.sorted.sublist List.filter_sublist⟩

@[simp] theorem elems_empty : (empty : OrderedSet α lt).elems = [] := rfl

@[simp] theorem elems_eraseFirst (s : OrderedSet α lt) (p : α → Bool) :
    (s.eraseFirst p).elems = s.elems.eraseP p := rfl

@[simp] theorem elems_filter (s : OrderedSet α lt) (p : α → Bool) :
    (s.filter p).elems = s.elems.filter p := rfl

theorem size_insert_le [DecidableRel lt] [IsTrans α lt] (s : OrderedSet α lt) (a : α) :
    (s.insert a).size ≤ s.size + 1 := length_place_le a s.elems

theorem size_eraseFirst_of_mem {s : OrderedSet α lt} {p : α → Bool} {a : α} (ha : a ∈ s)
    (hp : p a = true) : (s.eraseFirst p).size + 1 = s.size := by
  have hlen := List.length_eraseP_of_mem (p := p) ha hp
  have hpos := List.length_pos_of_mem ha
  simp only [size, elems_eraseFirst]
  omega

theorem size_filter_le (s : OrderedSet α lt) (p : α → Bool) : (s.filter p).size ≤ s.size :=
  List.length_filter_le p s.elems

theorem mem_insert_of_mem [DecidableRel lt] [IsTrans α lt] {s : OrderedSet α lt} {a x : α}
    (h : x ∈ s) : x ∈ s.insert a := mem_place_of_mem h

theorem eq_or_mem_of_mem_insert [DecidableRel lt] [IsTrans α lt] {s : OrderedSet α lt}
    {a x : α} (h : x ∈ s.insert a) : x = a ∨ x ∈ s := eq_or_mem_of_mem_place h

/-- With a comparator that only identifies equal elements, insertion adds the element. -/
theorem mem_insert_iff [DecidableRel lt] [IsTrans α lt]
    (heq : ∀ a b : α, ¬ lt a b → ¬ lt b a → a = b) {s : OrderedSet α lt} {a x : α} :
    x ∈ s.insert a ↔ x = a ∨ x ∈ s := by
  refine ⟨eq_or_mem_of_mem_insert, ?_⟩
  rintro (rfl | hx)
  · rcases (mem_place_or_equiv x s.elems : x ∈ place lt x s.elems ∨ _) with h | ⟨b, hb, hxb, hbx⟩
    · exact h
    · obtain rfl := heq x b hxb hbx
      exact mem_insert_of_mem hb
  · exact mem_insert_of_mem hx

/-- The element takes the place of the one that is equivalent to it, as `map[key] = value`
does where the elements are entries compared by their keys. -/
def put [DecidableRel lt] [IsTrans α lt] (s : OrderedSet α lt) (a : α) : OrderedSet α lt :=
  (s.filter fun b => lt a b ∨ lt b a).insert a

theorem mem_put_iff [DecidableRel lt] [IsTrans α lt] {s : OrderedSet α lt} {a x : α} :
    x ∈ s.put a ↔ x = a ∨ x ∈ s ∧ (lt a x ∨ lt x a) := by
  have hfilter : ∀ y, y ∈ s.filter (fun b => lt a b ∨ lt b a) ↔ y ∈ s ∧ (lt a y ∨ lt y a) := by
    intro y
    rw [mem_def, elems_filter, List.mem_filter, decide_eq_true_eq]
    exact Iff.rfl
  constructor
  · intro h
    exact (eq_or_mem_of_mem_insert h).imp_right (hfilter x).mp
  · rintro (rfl | h)
    · rcases @mem_place_or_equiv _ lt _ x (s.filter fun b => lt x b ∨ lt b x).elems with
        hplace | ⟨b, hb, hxb, hbx⟩
      · exact hplace
      · exact absurd ((hfilter b).mp hb).2 (not_or.mpr ⟨hxb, hbx⟩)
    · exact mem_insert_of_mem ((hfilter x).mpr h)

theorem nodup_elems [IsStrictOrder α lt] (s : OrderedSet α lt) : s.elems.Nodup := by
  refine s.sorted.imp ?_
  rintro a b hab rfl
  exact Std.Irrefl.irrefl (r := lt) a hab

theorem mem_eraseFirst_eq_iff [IsStrictOrder α lt] [DecidableEq α] {s : OrderedSet α lt}
    {a x : α} : x ∈ s.eraseFirst (fun b => decide (b = a)) ↔ x ≠ a ∧ x ∈ s := by
  have h : s.elems.eraseP (fun b => decide (b = a)) = s.elems.erase a := by
    rw [List.erase_eq_eraseP]
    congr 1
    funext b
    exact (beq_eq_decide b a).symm.trans Bool.beq_comm
  rw [mem_def, elems_eraseFirst, h, s.nodup_elems.mem_erase_iff]
  rfl

theorem place_of_mem [IsStrictOrder α lt] [DecidableRel lt] {a : α} {l : List α}
    (hl : l.Pairwise lt) (h : a ∈ l) : place lt a l = l := by
  induction l with
  | nil => cases h
  | cons b l ih =>
    obtain ⟨hb, hl⟩ := List.pairwise_cons.mp hl
    rcases List.mem_cons.mp h with rfl | h
    · have hirrefl : ¬ lt a a := Std.Irrefl.irrefl a
      rw [place, if_neg hirrefl, if_neg hirrefl]
    · have hab : ¬ lt a b :=
        fun hab => Std.Irrefl.irrefl (r := lt) a (Trans.trans hab (hb a h))
      rw [place, if_neg hab, if_pos (hb a h), ih hl h]

theorem length_place_of_new [DecidableRel lt] {a : α} {l : List α}
    (h : ∀ b ∈ l, lt a b ∨ lt b a) : (place lt a l).length = l.length + 1 := by
  induction l with
  | nil => rfl
  | cons b l ih =>
    rw [List.forall_mem_cons] at h
    rw [place]
    split_ifs with hab hba
    · rfl
    · rw [List.length_cons, ih h.2, List.length_cons]
    · exact absurd h.1 (by simp [hab, hba])

theorem mem_insert_of_new [DecidableRel lt] [IsTrans α lt] {s : OrderedSet α lt} {a : α}
    (h : ∀ b ∈ s, lt a b ∨ lt b a) : a ∈ s.insert a := by
  rcases (mem_place_or_equiv a s.elems : a ∈ place lt a s.elems ∨ _) with ha | ⟨b, hb, hab, hba⟩
  · exact ha
  · exact absurd (h b hb) (by simp [hab, hba])

/-- A list of elements that are new to a set adds as many as it has different ones. -/
theorem size_foldl_insert [IsStrictOrder α lt] [DecidableRel lt] [DecidableEq α]
    {s : OrderedSet α lt} {l : List α} (hs : ∀ b ∈ s, ∀ a ∈ l, lt a b ∨ lt b a)
    (hl : ∀ b ∈ l, ∀ a ∈ l, b ≠ a → lt a b ∨ lt b a) :
    (l.foldl insert s).size = s.size + l.dedup.length ∧
      ∀ a, a ∈ l.foldl insert s ↔ a ∈ l ∨ a ∈ s := by
  induction l using List.reverseRecOn with
  | nil => simp
  | append_singleton l a ih =>
    obtain ⟨hsize, hmem⟩ := ih
      (fun b hb a ha => hs b hb a (List.mem_append_left _ ha))
      (fun b hb a ha => hl b (List.mem_append_left _ hb) a (List.mem_append_left _ ha))
    have ha : a ∈ l ++ [a] := List.mem_append_right l (List.mem_singleton_self a)
    have hdedup : (l ++ [a]).dedup.length = (a :: l).dedup.length :=
      (List.perm_append_singleton a l).dedup.length_eq
    rw [List.foldl_append, List.foldl_cons, List.foldl_nil, hdedup]
    simp only [List.mem_append, List.mem_singleton]
    by_cases hold : a ∈ l
    · have hsame : (l.foldl insert s).insert a = l.foldl insert s :=
        ext_elems (place_of_mem (l.foldl insert s).sorted ((hmem a).mpr (.inl hold)))
      rw [hsame, List.dedup_cons_of_mem hold]
      refine ⟨hsize, fun x => (hmem x).trans (or_congr_left (or_iff_left_of_imp ?_).symm)⟩
      rintro rfl
      exact hold
    · have hnew : ∀ b ∈ l.foldl insert s, lt a b ∨ lt b a := by
        intro b hb
        rcases (hmem b).mp hb with hb | hb
        · exact (hl b (List.mem_append_left _ hb) a ha fun heq => hold (heq ▸ hb))
        · exact hs b hb a ha
      have hsize' : ((l.foldl insert s).insert a).size = (l.foldl insert s).size + 1 :=
        length_place_of_new hnew
      rw [hsize', hsize, List.dedup_cons_of_notMem hold, List.length_cons]
      refine ⟨Nat.add_assoc _ _ _, fun x => ?_⟩
      have hinsert : x ∈ (l.foldl insert s).insert a ↔ x = a ∨ x ∈ l.foldl insert s := by
        refine ⟨eq_or_mem_of_mem_insert, ?_⟩
        rintro (rfl | hx)
        · exact mem_insert_of_new hnew
        · exact mem_insert_of_mem hx
      rw [hinsert, hmem, or_comm, or_right_comm]

theorem filter_insert_of_pos [DecidableRel lt] [IsTrans α lt] {p : α → Bool}
    (hp : Respects lt p) {a : α} (ha : p a = true) (s : OrderedSet α lt) :
    (s.insert a).filter p = (s.filter p).insert a :=
  ext_elems (filter_place_of_pos hp ha s.sorted)

theorem filter_insert_of_neg [DecidableRel lt] [IsTrans α lt] {p : α → Bool} {a : α}
    (ha : p a = false) (s : OrderedSet α lt) : (s.insert a).filter p = s.filter p :=
  ext_elems (filter_place_of_neg ha s.elems)

theorem filter_eraseFirst_of_disjoint {p q : α → Bool} {s : OrderedSet α lt}
    (h : ∀ x, p x = true → q x = false) : (s.eraseFirst p).filter q = s.filter q :=
  ext_elems (filter_eraseP_of_disjoint (fun x _ => h x))

theorem filter_eraseFirst_of_imp {p q : α → Bool} {s : OrderedSet α lt}
    (h : ∀ x, p x = true → q x = true) :
    (s.eraseFirst p).filter q = (s.filter q).eraseFirst p :=
  ext_elems (filter_eraseP_of_imp (fun x _ => h x))

/-- Dropping the first elements of a sorted list leaves the wanted ones exactly when as many
are dropped as are unwanted and all these come first. -/
theorem mem_drop_iff [IsStrictOrder α lt] {s : OrderedSet α lt} {unwanted : List α}
    {Wanted : α → Prop} (hmem : ∀ x, x ∈ s ↔ x ∈ unwanted ∨ Wanted x) {k : ℕ}
    (hk : unwanted.length ≤ k) :
    (∀ x, x ∈ s.elems.drop k ↔ Wanted x) ↔
      ∀ y, Wanted y → k = unwanted.length ∧ unwanted.Nodup ∧ ∀ x ∈ unwanted, lt x y := by
  classical
  have hirrefl : ∀ x, ¬ lt x x := Std.Irrefl.irrefl
  have hnodup := s.nodup_elems
  have hl := s.sorted
  have hmem : ∀ x, x ∈ s.elems ↔ x ∈ unwanted ∨ Wanted x := hmem
  generalize s.elems = l at hnodup hl hmem ⊢
  constructor
  · intro h y hy
    have hsplit : (l.take k ++ l.drop k).Pairwise lt := by rwa [List.take_append_drop]
    obtain ⟨-, -, hcross⟩ := List.pairwise_append.mp hsplit
    have hfirst : ∀ x ∈ l.take k, x ∈ unwanted := by
      intro x hx
      cases (hmem x).mp (List.mem_of_mem_take hx) with
      | inl hunwanted => exact hunwanted
      | inr hwanted => exact absurd (hcross x hx x ((h x).mpr hwanted)) (hirrefl x)
    have hlength : (l.take k).length = k := by
      have hpos := List.length_pos_of_mem ((h y).mpr hy)
      rw [List.length_drop] at hpos
      rw [List.length_take]
      omega
    have hnodup' : (l.take k).Nodup := hnodup.sublist (List.take_sublist k l)
    have hperm : (l.take k).Perm unwanted :=
      (hnodup'.subperm hfirst).perm_of_length_le (by omega)
    refine ⟨hlength.symm.trans hperm.length_eq, hperm.nodup_iff.mp hnodup', fun x hx => ?_⟩
    exact hcross x (hperm.mem_iff.mpr hx) y ((h y).mpr hy)
  · intro h x
    by_cases hany : ∃ y, Wanted y
    · obtain ⟨y, hy⟩ := hany
      obtain ⟨rfl, hnodup', -⟩ := h y hy
      have hbefore : ∀ x ∈ unwanted, ∀ y, Wanted y → lt x y := fun x hx y hy => (h y hy).2.2 x hx
      have hdisjoint : ∀ y, Wanted y → y ∉ unwanted :=
        fun y hy hin => hirrefl y (hbefore y hin y hy)
      let first := l.filter fun x => x ∈ unwanted
      let last := l.filter fun x => !decide (x ∈ unwanted)
      have hlast : ∀ x, x ∈ last ↔ Wanted x := by
        intro x
        rw [List.mem_filter, hmem, Bool.not_eq_true', decide_eq_false_iff_not]
        exact ⟨fun hx => hx.1.resolve_left hx.2, fun hx => ⟨.inr hx, hdisjoint x hx⟩⟩
      have hfirst : first.Perm unwanted := by
        rw [List.perm_ext_iff_of_nodup (hnodup.filter _) hnodup']
        intro x
        rw [List.mem_filter, hmem, decide_eq_true_eq]
        exact ⟨fun hx => hx.2, fun hx => ⟨.inl hx, hx⟩⟩
      have hsorted : (first ++ last).Pairwise lt := by
        refine List.pairwise_append.mpr ⟨hl.filter _, hl.filter _, fun x hx y hy => ?_⟩
        exact hbefore x (hfirst.mem_iff.mp hx) y ((hlast y).mp hy)
      have heq : first ++ last = l :=
        List.Perm.eq_of_pairwise
          (fun a b _ _ hab hba => absurd (Trans.trans hab hba) (hirrefl a)) hsorted hl
          (List.filter_append_perm _ l)
      rw [← heq, ← hfirst.length_eq, List.drop_left]
      exact hlast x
    · have hlength : l.length ≤ unwanted.length := by
        refine (hnodup.subperm fun x hx => ?_).length_le
        exact ((hmem x).mp hx).resolve_right fun hx => hany ⟨x, hx⟩
      rw [List.drop_eq_nil_iff.mpr (by omega)]
      exact iff_of_false List.not_mem_nil fun hx => hany ⟨x, hx⟩

end OrderedSet
end Msopcom
