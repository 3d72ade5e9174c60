import Msopcom.MsTxHandles

set_option autoImplicit false

/-!
# The handle tables agree

What has a descriptor is what a domain owns, as long as regions are unregistered in their
own domain.
-/
namespace Msopcom.MsTxConsistency
open KeyedList MsTxHandles

/-! ## Runs -/

inductive Event
  | domainCreate (fresh : Handle) (domainName : List UInt8)
  | heapRegister (fresh domain : Handle) (desc : Option MstxMemHeapDesc)
  | heapUnregister (domain heap : Handle)
  | regionsRegister (fresh : List Handle) (domain : Handle)
      (desc : Option MstxMemRegionsRegisterBatch)
  | regionsUnregister (domain : Handle) (desc : Option MstxMemRegionsUnregisterBatch)
  deriving DecidableEq, Repr

def step (s : MsTx) : Event → MsTx
  | .domainCreate fresh domainName => (mstxDomainCreateA fresh domainName s).2
  | .heapRegister fresh domain desc => (mstxMemHeapRegister fresh domain desc s).2
  | .heapUnregister domain heap => (mstxMemHeapUnregister domain heap s).2
  | .regionsRegister fresh domain desc => (mstxMemRegionsRegister fresh domain desc s).2
  | .regionsUnregister domain desc => (mstxMemRegionsUnregister domain desc s).2

/-- The address of an object that has not been freed. -/
def Live (s : MsTx) (h : Handle) : Prop :=
  (s.domain2Name.lookup h).isSome = true ∨ (∃ e ∈ s.domainMemHeap.entries, h ∈ e.2) ∨
    ∃ e ∈ s.domainRegions.entries, h ∈ e.2

instance (s : MsTx) (h : Handle) : Decidable (Live s h) := inferInstanceAs (Decidable (_ ∨ _))

def regionCount : Option MstxMemRegionsRegisterBatch → ℕ
  | some ⟨_, some regionDescArray, _⟩ => regionDescArray.length
  | _ => 0

/-- New objects get addresses that are not in use, one for each descriptor of a batch. -/
def Fresh (s : MsTx) : Event → Prop
  | .domainCreate fresh _ => fresh ≠ 0 ∧ ¬ Live s fresh
  | .heapRegister fresh _ _ => fresh ≠ 0 ∧ ¬ Live s fresh
  | .heapUnregister _ _ => True
  | .regionsRegister fresh _ desc =>
    (fresh.Nodup ∧ ∀ h ∈ fresh, h ≠ 0 ∧ ¬ Live s h) ∧ fresh.length = regionCount desc
  | .regionsUnregister _ _ => True

instance : DecidableRel Fresh
  | s, .domainCreate fresh _ => inferInstanceAs (Decidable (fresh ≠ 0 ∧ ¬ Live s fresh))
  | s, .heapRegister fresh _ _ => inferInstanceAs (Decidable (fresh ≠ 0 ∧ ¬ Live s fresh))
  | _, .heapUnregister _ _ => isTrue trivial
  | s, .regionsRegister fresh _ desc =>
    have : Decidable (∀ h ∈ fresh, h ≠ 0 ∧ ¬ Live s h) := List.decidableBAll _ fresh
    inferInstanceAs (Decidable ((fresh.Nodup ∧ ∀ h ∈ fresh, h ≠ 0 ∧ ¬ Live s h) ∧
      fresh.length = regionCount desc))
  | _, .regionsUnregister _ _ => isTrue trivial

/-- The heaps with a descriptor are those in the lists of the domains, each once and in one
of them. -/
structure HeapsConsistent (s : MsTx) : Prop where
  heaps : ∀ domain heap, (s.domainMemHeapDesc.lookup (domain, heap)).isSome = true ↔
    heap ∈ listAt s.domainMemHeap domain
  heapsOnce : Once s.domainMemHeap

structure RegionsConsistent (s : MsTx) : Prop where
  regions : ∀ region, (s.regionRangeDesc.lookup region).isSome = true ↔
    ∃ domain, region ∈ listAt s.domainRegions domain
  regionsOnce : Once s.domainRegions

structure Consistent (s : MsTx) : Prop extends HeapsConsistent s, RegionsConsistent s

/-- A region is unregistered in the domain that owns it, if any does. -/
def OwnRegions (s : MsTx) : Event → Prop
  | .regionsUnregister domain desc =>
    ∀ ref ∈ (refsToUnregister domain desc s).getD [], ∀ entry ∈ s.domainRegions.entries,
      ∀ region ∈ entry.2, ref = .handle region → entry.1 = domain
  | _ => True

instance : DecidableRel OwnRegions
  | _, .domainCreate _ _ => isTrue trivial
  | _, .heapRegister _ _ _ => isTrue trivial
  | _, .heapUnregister _ _ => isTrue trivial
  | _, .regionsRegister _ _ _ => isTrue trivial
  | s, .regionsUnregister domain desc =>
    have (ref : MstxMemRegionRef) (entry : Σ _ : Handle, List Handle) : Decidable
        (∀ region ∈ entry.2, ref = .handle region → entry.1 = domain) := List.decidableBAll _ _
    inferInstanceAs (Decidable (∀ ref ∈ (refsToUnregister domain desc s).getD [],
      ∀ entry ∈ s.domainRegions.entries, ∀ region ∈ entry.2, ref = .handle region →
        entry.1 = domain))

theorem not_mem_of_not_live {s : MsTx} {h : Handle} (hfresh : ¬ Live s h) (domain : Handle) :
    h ∉ listAt s.domainMemHeap domain ∧ h ∉ listAt s.domainRegions domain := by
  constructor
  · intro hmem
    obtain ⟨e, he, _, hin⟩ := mem_listAt_iff.mp hmem
    exact hfresh (.inr (.inl ⟨e, he, hin⟩))
  · intro hmem
    obtain ⟨e, he, _, hin⟩ := mem_listAt_iff.mp hmem
    exact hfresh (.inr (.inr ⟨e, he, hin⟩))

theorem nodup_zip {fresh : List Handle} (h : fresh.Nodup) (l : List MstxMemVirtualRangeDesc) :
    ((fresh.zip l).map Prod.fst).Nodup := by
  induction fresh generalizing l with
  | nil => exact List.nodup_nil
  | cons handle fresh ih =>
    obtain ⟨hhandle, hrest⟩ := List.nodup_cons.mp h
    cases l with
    | nil => exact List.nodup_nil
    | cons desc l =>
      refine List.nodup_cons.mpr ⟨fun hmem => ?_, ih hrest l⟩
      obtain ⟨q, hq, hfst⟩ := List.mem_map.mp hmem
      have hfst : q.1 = handle := hfst
      exact hhandle (hfst ▸ (List.of_mem_zip hq).1)

/-! ## Heaps -/

theorem heapsConsistent_init : HeapsConsistent {} := by
  constructor
  case heaps => exact fun domain heap => iff_of_false Bool.false_ne_true List.not_mem_nil
  case heapsOnce => exact once_empty

theorem HeapsConsistent.of_eq {s s' : MsTx} (h : HeapsConsistent s)
    (hdesc : s'.domainMemHeapDesc = s.domainMemHeapDesc)
    (hheaps : s'.domainMemHeap = s.domainMemHeap) : HeapsConsistent s' := by
  constructor
  case heaps => rw [hdesc, hheaps]; exact h.heaps
  case heapsOnce => rw [hheaps]; exact h.heapsOnce

theorem HeapsConsistent.heapRegister {s : MsTx} (h : HeapsConsistent s) {fresh : Handle}
    (hfresh : ¬ Live s fresh) (domain : Handle) (desc : Option MstxMemHeapDesc) :
    HeapsConsistent (mstxMemHeapRegister fresh domain desc s).2 := by
  have hnew : ∀ domain, fresh ∉ listAt s.domainMemHeap domain :=
    fun domain => (not_mem_of_not_live hfresh domain).1
  cases mstxMemHeapRegister_cases fresh domain desc s with
  | inl hcall => rw [hcall]; exact h
  | inr hcall =>
    obtain ⟨heapDesc, rangeDesc, -, -, hcall⟩ := hcall
    rw [hcall]
    have hmem : ∀ domain' heap, heap ∈ listAt (s.domainMemHeap.insert domain
        (listAt s.domainMemHeap domain ++ [fresh])) domain' ↔
          heap ∈ listAt s.domainMemHeap domain' ∨ domain' = domain ∧ heap = fresh := by
      intro domain' heap
      rw [listAt_insert]
      by_cases hdomain : domain' = domain
      · simp [hdomain]
      · simp [hdomain]
    constructor
    case heaps =>
      intro domain' heap
      rw [hmem, ← h.heaps]
      dsimp only
      rw [lookup_insert_eq]
      by_cases hkey : (domain', heap) = (domain, fresh)
      · rw [if_pos hkey]
        exact iff_of_true rfl (.inr (Prod.mk.inj hkey))
      · rw [if_neg hkey]
        exact (or_iff_left fun hsame => hkey (Prod.ext hsame.1 hsame.2)).symm
    case heapsOnce =>
      refine h.heapsOnce.of_append domain (List.nodup_singleton fresh) (fun heap hheap => ?_)
        fun domain' => listAt_insert _ _ _ _
      rw [List.mem_singleton.mp hheap]
      exact hnew

theorem HeapsConsistent.heapUnregister {s : MsTx} (h : HeapsConsistent s) (domain heap : Handle) :
    HeapsConsistent (mstxMemHeapUnregister domain heap s).2 := by
  rw [mstxMemHeapUnregister_eq]
  cases heapToUnregister domain heap s with
  | none => exact h
  | some desc =>
    have hmem : ∀ domain' heap', heap' ∈ listAt (s.domainMemHeap.insert domain
        ((listAt s.domainMemHeap domain).filter fun h => h ≠ heap)) domain' ↔
          heap' ∈ listAt s.domainMemHeap domain' ∧ (domain', heap') ≠ (domain, heap) := by
      intro domain' heap'
      rw [listAt_insert]
      by_cases hdomain : domain' = domain
      · simp [hdomain]
      · simp [hdomain]
    constructor
    case heaps =>
      intro domain' heap'
      rw [hmem, ← h.heaps]
      dsimp only
      rw [lookup_erase_eq]
      by_cases hkey : (domain', heap') = (domain, heap)
      · rw [if_pos hkey]
        exact iff_of_false Bool.false_ne_true fun hkept => hkept.2 hkey
      · rw [if_neg hkey]
        exact (and_iff_left hkey).symm
    case heapsOnce =>
      refine h.heapsOnce.of_sublist fun domain' => ?_
      dsimp only
      rw [listAt_insert]
      split_ifs with hdomain
      · rw [hdomain]
        exact List.filter_sublist
      · exact List.Sublist.refl _

theorem HeapsConsistent.regionsRegister {s : MsTx} (h : HeapsConsistent s) {fresh : List Handle}
    {domain : Handle} {desc : Option MstxMemRegionsRegisterBatch}
    (hnodup : fresh.Nodup) : HeapsConsistent (mstxMemRegionsRegister fresh domain desc s).2 := by
  rw [mstxMemRegionsRegister_eq]
  cases batchToRegister domain desc s with
  | none => exact h
  | some batch =>
    obtain ⟨regionDescArray, info⟩ := batch
    obtain ⟨hdesc, hheaps, -⟩ := registerRegions_eq domain (nodup_zip hnodup regionDescArray)
      { s with domainRegions := s.domainRegions.insert domain (listAt s.domainRegions domain) }
    exact h.of_eq hdesc hheaps

theorem HeapsConsistent.regionsUnregister {s : MsTx} (h : HeapsConsistent s) (domain : Handle)
    (desc : Option MstxMemRegionsUnregisterBatch) :
    HeapsConsistent (mstxMemRegionsUnregister domain desc s).2 := by
  rw [mstxMemRegionsUnregister_eq]
  cases refsToUnregister domain desc s with
  | none => exact h
  | some refArray =>
    obtain ⟨hdesc, hheaps, -⟩ := unregisterRegions_eq domain refArray ([], s)
    exact h.of_eq hdesc hheaps

theorem HeapsConsistent.step {s : MsTx} (h : HeapsConsistent s) {e : Event} (hfresh : Fresh s e) :
    HeapsConsistent (step s e) := by
  cases e with
  | domainCreate fresh domainName =>
    rw [MsTxConsistency.step, mstxDomainCreateA_eq]
    exact h.of_eq rfl rfl
  | heapRegister fresh domain desc => exact h.heapRegister hfresh.2 domain desc
  | heapUnregister domain heap => exact h.heapUnregister domain heap
  | regionsRegister fresh domain desc => exact h.regionsRegister hfresh.1.1
  | regionsUnregister domain desc => exact h.regionsUnregister domain desc

/-! ## Regions -/

theorem regionsConsistent_init : RegionsConsistent {} := by
  constructor
  case regions =>
    exact fun region =>
      iff_of_false Bool.false_ne_true fun h => List.not_mem_nil h.choose_spec
  case regionsOnce => exact once_empty

theorem RegionsConsistent.of_eq {s s' : MsTx} (h : RegionsConsistent s)
    (hregions : listAt s'.domainRegions = listAt s.domainRegions)
    (hrange : s'.regionRangeDesc = s.regionRangeDesc) : RegionsConsistent s' := by
  constructor
  case regions => rw [hrange, hregions]; exact h.regions
  case regionsOnce => exact h.regionsOnce.of_sublist fun domain => by rw [hregions]

theorem RegionsConsistent.registerRegions {s : MsTx} (h : RegionsConsistent s) (domain : Handle)
    {regions : List (Handle × MstxMemVirtualRangeDesc)} (hnodup : (regions.map Prod.fst).Nodup)
    (hnew : ∀ region ∈ regions.map Prod.fst, ∀ domain, region ∉ listAt s.domainRegions domain) :
    RegionsConsistent (registerRegions domain regions s) := by
  obtain ⟨-, -, hsome, hold, hregions⟩ := registerRegions_eq domain hnodup s
  have hmem : ∀ domain' region,
      region ∈ listAt (MsTxHandles.registerRegions domain regions s).domainRegions domain' ↔
        region ∈ listAt s.domainRegions domain' ∨
          domain' = domain ∧ region ∈ regions.map Prod.fst := by
    intro domain' region
    rw [hregions]
    by_cases hdomain : domain' = domain
    · rw [if_pos hdomain, List.mem_append, hdomain, and_iff_right rfl]
    · rw [if_neg hdomain, or_iff_left fun hsame => hdomain hsame.1]
  constructor
  case regions =>
    intro region
    simp only [hmem]
    by_cases hregion : region ∈ regions.map Prod.fst
    · obtain ⟨q, hq, rfl⟩ := List.mem_map.mp hregion
      rw [hsome q hq]
      exact iff_of_true rfl ⟨domain, .inr ⟨rfl, hregion⟩⟩
    · rw [hold region hregion, h.regions]
      exact exists_congr fun domain' => (or_iff_left fun hsame => hregion hsame.2).symm
  case regionsOnce => exact h.regionsOnce.of_append domain hnodup hnew hregions

theorem RegionsConsistent.regionsRegister {s : MsTx} (h : RegionsConsistent s)
    {fresh : List Handle} {domain : Handle} {desc : Option MstxMemRegionsRegisterBatch}
    (hfresh : Fresh s (.regionsRegister fresh domain desc)) :
    RegionsConsistent (mstxMemRegionsRegister fresh domain desc s).2 := by
  rw [mstxMemRegionsRegister_eq]
  cases batchToRegister domain desc s with
  | none => exact h
  | some batch =>
    obtain ⟨regionDescArray, info⟩ := batch
    have hentry : RegionsConsistent { s with
        domainRegions := s.domainRegions.insert domain (listAt s.domainRegions domain) } :=
      h.of_eq (listAt_insert_self _ _) rfl
    apply hentry.registerRegions domain (nodup_zip hfresh.1.1 regionDescArray)
    intro region hregion domain'
    obtain ⟨q, hq, rfl⟩ := List.mem_map.mp hregion
    dsimp only
    rw [listAt_insert_self]
    exact (not_mem_of_not_live (hfresh.1.2 q.1 (List.of_mem_zip hq).1).2 domain').2

/-- The loop keeps the tables consistent exactly when no other domain owns a region that
is referred to. -/
theorem regionsConsistent_unregisterRegions_iff {s : MsTx} (h : RegionsConsistent s)
    (domain : Handle) (refArray : List MstxMemRegionRef) :
    RegionsConsistent (unregisterRegions domain refArray ([], s)).2 ↔
      ∀ region, .handle region ∈ refArray → ∀ domain', region ∈ listAt s.domainRegions domain' →
        domain' = domain := by
  obtain ⟨-, -, hrange, hregions⟩ := unregisterRegions_eq domain refArray ([], s)
  constructor
  · intro h' region href domain' hregion
    by_contra hne
    have hkept : region ∈
        listAt (unregisterRegions domain refArray ([], s)).2.domainRegions domain' := by
      rw [hregions, if_neg hne]
      exact hregion
    have hsome := (h'.regions region).mpr ⟨domain', hkept⟩
    rw [hrange, if_pos href] at hsome
    cases hsome
  · intro hown
    have hmem : ∀ domain' region, region ∈
        listAt (unregisterRegions domain refArray ([], s)).2.domainRegions domain' ↔
          region ∈ listAt s.domainRegions domain' ∧ .handle region ∉ refArray := by
      intro domain' region
      rw [hregions]
      by_cases hdomain : domain' = domain
      · rw [if_pos hdomain, List.mem_filter, decide_eq_true_iff]
      · rw [if_neg hdomain]
        refine (and_iff_left_of_imp fun hregion href => ?_).symm
        exact hdomain (hown region href domain' hregion)
    constructor
    case regions =>
      intro region
      simp only [hrange, hmem]
      split_ifs with href
      · refine iff_of_false Bool.false_ne_true ?_
        rintro ⟨domain', hkept⟩
        exact hkept.2 href
      · rw [h.regions]
        exact exists_congr fun domain' => (and_iff_left href).symm
    case regionsOnce =>
      refine h.regionsOnce.of_sublist fun domain' => ?_
      rw [hregions]
      split_ifs
      · exact List.filter_sublist
      · exact List.Sublist.refl _

theorem regionsConsistent_regionsUnregister_iff {s : MsTx} (h : RegionsConsistent s)
    (domain : Handle) (desc : Option MstxMemRegionsUnregisterBatch) :
    RegionsConsistent (mstxMemRegionsUnregister domain desc s).2 ↔
      OwnRegions s (.regionsUnregister domain desc) := by
  rw [mstxMemRegionsUnregister_eq, OwnRegions]
  cases refsToUnregister domain desc s with
  | none => exact iff_of_true h fun ref href => absurd href List.not_mem_nil
  | some refArray =>
    refine (regionsConsistent_unregisterRegions_iff h domain refArray).trans ?_
    constructor
    · rintro hown _ href e he region hregion rfl
      exact hown region href e.1 (mem_listAt_iff.mpr ⟨e, he, rfl, hregion⟩)
    · intro hown region href domain' hregion
      obtain ⟨e, he, rfl, hin⟩ := mem_listAt_iff.mp hregion
      exact hown _ href e he region hin rfl

theorem regionsConsistent_step_iff {s : MsTx} (h : RegionsConsistent s) {e : Event}
    (hfresh : Fresh s e) : RegionsConsistent (step s e) ↔ OwnRegions s e := by
  cases e with
  | domainCreate fresh domainName =>
    rw [step, mstxDomainCreateA_eq]
    exact iff_of_true (h.of_eq rfl rfl) trivial
  | heapRegister fresh domain desc =>
    refine iff_of_true ?_ trivial
    rw [step]
    cases mstxMemHeapRegister_cases fresh domain desc s with
    | inl hcall => rw [hcall]; exact h
    | inr hcall =>
      obtain ⟨heapDesc, rangeDesc, -, -, hcall⟩ := hcall
      rw [hcall]
      exact h.of_eq rfl rfl
  | heapUnregister domain heap =>
    refine iff_of_true ?_ trivial
    rw [step, mstxMemHeapUnregister_eq]
    cases heapToUnregister domain heap s with
    | none => exact h
    | some desc => exact h.of_eq rfl rfl
  | regionsRegister fresh domain desc => exact iff_of_true (h.regionsRegister hfresh) trivial
  | regionsUnregister domain desc => exact regionsConsistent_regionsUnregister_iff h domain desc

/-! ## Whole runs -/

theorem consistent_init : Consistent {} := ⟨heapsConsistent_init, regionsConsistent_init⟩

theorem consistent_step_iff {s : MsTx} (h : Consistent s) {e : Event} (hfresh : Fresh s e) :
    Consistent (step s e) ↔ OwnRegions s e := by
  rw [← regionsConsistent_step_iff h.toRegionsConsistent hfresh]
  exact ⟨fun h' => h'.toRegionsConsistent, fun h' => ⟨h.toHeapsConsistent.step hfresh, h'⟩⟩

/-- The tables agree in every state of a run exactly when every region is unregistered in
its own domain. -/
theorem consistent_iff (events : List Event) (hfresh : Runs.Guarded step Fresh {} events) :
    (∀ n, Consistent ((events.take n).foldl step {})) ↔
      Runs.Guarded step OwnRegions {} events :=
  Runs.guarded_iff_invariant (fun _ _ hfresh h => consistent_step_iff h hfresh) hfresh
    consistent_init

def oneRegion : Option MstxMemRegionsRegisterBatch :=
  some { heap := 0, regionDescArray := some [⟨0, 0x1000, 64⟩] }

/-- Two domains, a region in the first one, unregistered there. -/
def ownRun : List Event :=
  [.domainCreate 1 [97], .domainCreate 2 [98], .heapRegister 3 1 (some ⟨.subAllocator,
    .virtualAddress, some ⟨0, 0x1000, 256⟩⟩), .regionsRegister [4] 1 oneRegion,
    .regionsRegister [5] 2 oneRegion, .regionsUnregister 1 (some ⟨some [.handle 4, .handle 9]⟩),
    .heapUnregister 2 3]

theorem consistent_ownRun :
    (∀ n, Consistent ((ownRun.take n).foldl step {})) ↔ Runs.Guarded step OwnRegions {} ownRun :=
  consistent_iff ownRun (by decide)

/-- The region of the first domain is unregistered with the second one. -/
def foreignRun : List Event :=
  [.domainCreate 1 [97], .domainCreate 2 [98], .regionsRegister [4] 1 oneRegion,
    .regionsRegister [5] 2 oneRegion, .regionsUnregister 2 (some ⟨some [.handle 4]⟩)]

/-- The list of the first domain keeps the region, which has no descriptor any more. -/
theorem foreign_region_orphaned :
    Runs.Guarded step Fresh {} foreignRun ∧
      listAt (foreignRun.foldl step {}).domainRegions 1 = [4] ∧
      (foreignRun.foldl step {}).regionRangeDesc.lookup 4 = none ∧
      ¬ Consistent (foreignRun.foldl step {}) := by
  have hlist : listAt (foreignRun.foldl step {}).domainRegions 1 = [4] := by decide
  have hnone : (foreignRun.foldl step {}).regionRangeDesc.lookup 4 = none := by decide
  refine ⟨by decide, hlist, hnone, fun h => ?_⟩
  have hsome := (h.regions 4).mpr ⟨1, by rw [hlist]; exact List.mem_cons_self⟩
  rw [hnone] at hsome
  cases hsome

end Msopcom.MsTxConsistency
