import Msopcom.KernelConfigParser
import Msopcom.StdSort

set_option autoImplicit false

/-!
# The order of the keys of a configuration

The members of an object are sorted by the place of their keys in the table. A key that is not in
the table is before and behind every key, itself included.
-/
namespace Msopcom.KernelConfigParser
open StdSort

instance (items : List (String × String)) : Decidable (Known items) :=
  inferInstanceAs (Decidable (∀ item ∈ items, (argsOrders.lookup item.1).isSome))

def isKnown (item : String × String) : Bool := (argsOrders.lookup item.1).isSome

/-- The items are read as the sort orders them. -/
def readItems (sort : List (String × String) → List (String × String))
    (items : List (String × String)) : Option KernelConfig :=
  (parseItems (sort items) {}).map kernelConfig

/-- The known keys are handled in the order of the table, and the others make no difference. -/
structure ReadInOrder (sort : List (String × String) → List (String × String))
    (items : List (String × String)) : Prop where
  inOrder : ((sort items).filter isKnown).Pairwise InOrder
  sameResult : readItems sort items = readItems sort (items.filter isKnown)

theorem mem_argsOrders {key : String} (h : (argsOrders.lookup key).isSome) :
    (key, argsOrder key) ∈ argsOrders := by
  obtain ⟨order, horder⟩ := Option.isSome_iff_exists.mp h
  obtain ⟨before, after, hsplit, -⟩ := List.lookup_eq_some_iff.mp horder
  rw [argsOrder, horder, hsplit]
  simp

theorem argsOrder_inj {key key' : String} (h : (argsOrders.lookup key).isSome)
    (h' : (argsOrders.lookup key').isSome) (heq : argsOrder key = argsOrder key') : key = key' := by
  have hinj : ∀ p ∈ argsOrders, ∀ q ∈ argsOrders, p.2 = q.2 → p.1 = q.1 := by decide
  exact hinj _ (mem_argsOrders h) _ (mem_argsOrders h') heq

/-- A key outside of the table is before itself. -/
theorem known_of_strictWeakOn {items : List (String × String)} (h : StrictWeakOn cmp items) :
    Known items := by
  intro item hitem
  have hirrefl := h.irrefl item hitem
  unfold cmp at hirrefl
  cases hlookup : argsOrders.lookup item.1 with
  | none => simp [hlookup] at hirrefl
  | some order => rfl

/-- On known keys every sort puts the items into the order of the table. -/
theorem sort_inOrder {sort : List (String × String) → List (String × String)}
    (hsort : Sorts sort cmp) {items : List (String × String)} (hknown : Known items)
    (hkeys : (items.map Prod.fst).Nodup) :
    (sort items).Perm items ∧ (sort items).Pairwise InOrder := by
  have hcmp : ∀ a ∈ items, ∀ b ∈ items, cmp a b = decide (argsOrder a.1 < argsOrder b.1) :=
    fun a ha b hb => cmp_eq (hknown a ha) (hknown b hb)
  have horders : items.Pairwise fun a b => argsOrder a.1 ≠ argsOrder b.1 := by
    refine (List.pairwise_map.mp hkeys).imp_of_mem fun {a b} ha hb hne heq => ?_
    exact hne (argsOrder_inj (hknown a ha) (hknown b hb) heq)
  exact hsort.pairwise_key hcmp horders

theorem readInOrder_of_known {items : List (String × String)} (hknown : Known items)
    (hkeys : (items.map Prod.fst).Nodup)
    {sort : List (String × String) → List (String × String)} (hsort : Sorts sort cmp) :
    ReadInOrder sort items where
  inOrder := (sort_inOrder hsort hknown hkeys).2.filter _
  sameResult := by
    have hall : items.filter isKnown = items := List.filter_eq_self.mpr hknown
    rw [hall]

theorem sorts_sortItems : Sorts sortItems cmp := sorts_mergeSort cmp

/-- An object of known keys is read in one way, whatever the sort is. -/
theorem readItems_eq_sortItems {items : List (String × String)} (hknown : Known items)
    (hkeys : (items.map Prod.fst).Nodup)
    {sort : List (String × String) → List (String × String)} (hsort : Sorts sort cmp) :
    readItems sort items = readItems sortItems items := by
  obtain ⟨hperm, hsorted⟩ := sort_inOrder hsort hknown hkeys
  have hsortedKnown : Known (sort items) := fun item hitem => hknown item (hperm.mem_iff.mp hitem)
  rw [readItems, readItems, sortItems_eq hsortedKnown hsorted hperm.symm]

theorem getKernelConfig_eq_readItems (json : JsonLibrary) {rawFile : String} (h : rawFile ≠ "") :
    json.getKernelConfig rawFile = (json.items rawFile).bind (readItems sortItems) := if_neg h

/-- The comparison is an order, and every sort makes the parser read the items in order, exactly
if no key is outside of the table. -/
theorem readInOrder_iff_known (items : List (String × String))
    (hkeys : (items.map Prod.fst).Nodup) :
    (StrictWeakOn cmp items ∧ ∀ sort, Sorts sort cmp → ReadInOrder sort items) ↔ Known items := by
  constructor
  · rintro ⟨horder, -⟩
    exact known_of_strictWeakOn horder
  · intro hknown
    constructor
    · apply @strictWeakOn_of_key _ _ _ _ _ fun item => argsOrder item.1
      exact fun a ha b hb => cmp_eq (hknown a ha) (hknown b hb)
    · exact fun sort hsort => readInOrder_of_known hknown hkeys hsort

/-- An object that names its inputs behind their sizes. -/
theorem readInOrder_inputs :
    StrictWeakOn cmp [("input_size", "32"), ("input_path", "x.bin")] ∧
      ∀ sort, Sorts sort cmp → ReadInOrder sort [("input_size", "32"), ("input_path", "x.bin")] :=
  (readInOrder_iff_known _ (by decide)).mpr (by decide)

/-- One key that is not in the table, between two that are. -/
theorem not_strictWeakOn_unknown :
    ¬ (StrictWeakOn cmp [("input_path", "x.bin"), ("input_shape", "8"), ("input_size", "32")] ∧
      ∀ sort, Sorts sort cmp →
        ReadInOrder sort [("input_path", "x.bin"), ("input_shape", "8"), ("input_size", "32")]) := by
  rintro ⟨horder, -⟩
  have hirrefl := horder.irrefl ("input_shape", "8") (by decide)
  exact absurd hirrefl (by decide)

end Msopcom.KernelConfigParser
