import Msopcom.MstxReports

set_option autoImplicit false

/-!
# The reports of heaps and regions match

A FREE record closes a MALLOC record of its handle, and the table has the records of the
accepted handles, as long as calls take out accepted handles only, and none whose FREE record
hits a handle that stays.
-/
namespace Msopcom.MstxReports
open KeyedList MsTxHandles MsTxConsistency BindSanitizer MstxLedger

/-! ## Calls that register handles -/

/-- The reports and the records are in step with the handles that have a record. -/
structure InStep (s : Sanitizer) (accepted : MemHandle → Option AddrInfo) : Prop where
  matched : Matched s.reports
  exact : Exact s.memory accepted
  opened : ∀ handle, openAddr handle s.reports = (accepted handle).map AddrInfo.addr
  plain : ∀ handle info, accepted handle = some info →
    info.memInfoDesc = .default ∧ info.paramsNo = 0

namespace InStep
variable {s : Sanitizer} {acc : MemHandle → Option AddrInfo} (h : InStep s acc)
include h

/-- A handle without a record gets one, and a MALLOC record for it is sent first. -/
theorem malloc {handle : MemHandle} (hnone : acc handle = none) (addr size : UInt64)
    (src : MemInfoSrc) {sent : List Report}
    (hsent : ∀ report ∈ sent, report.handle = some handle ∧ report.record.type ≠ .free)
    (hopen : sent.foldl (openStep handle) none = some addr) :
    InStep { s with
        memory := s.memory.cacheMalloc addr src size
        reports := s.reports ++ sent }
      (Function.update acc handle (some ⟨addr, size, src, .default, 0⟩)) := by
  constructor
  case matched =>
    exact matched_append_of_not_free (fun report hreport => (hsent report hreport).2) h.matched
  case exact => exact h.exact.cacheMalloc h.plain hnone addr size src
  case opened =>
    intro handle'
    by_cases hsame : handle' = handle
    · rw [hsame, Function.update_self, openAddr_append, h.opened, hnone]
      exact hopen
    · rw [Function.update_of_ne hsame, openAddr_of_ne, h.opened]
      intro report hreport heq
      rw [(hsent report hreport).1] at heq
      exact hsame (Option.some.inj heq).symm
  case plain =>
    intro handle' info hinfo
    by_cases hsame : handle' = handle
    · rw [hsame, Function.update_self] at hinfo
      cases hinfo
      exact ⟨rfl, rfl⟩
    · rw [Function.update_of_ne hsame] at hinfo
      exact h.plain handle' info hinfo

theorem withMsTx (msTx : MsTx) : InStep { s with msTx := msTx } acc :=
  ⟨h.matched, h.exact, h.opened, h.plain⟩

theorem refuse {handle : MemHandle} (hnone : acc handle = none) :
    InStep s (Function.update acc handle none) := by
  rwa [← hnone, Function.update_eq_self]

end InStep

theorem isInvalidMemInfo_malloc {record : HostMemRecord} (hmalloc : record.type = .malloc) :
    isInvalidMemInfo record = true ↔ record.dstAddr = 0 ∨ record.memSize = 0 := by
  rw [isInvalidMemInfo, hmalloc]
  simp

theorem isAddrInRange_iff (record : HostMemRecord) (thresholdAddr thresholdSize : UInt64) :
    BindSanitizer.isAddrInRange record thresholdAddr thresholdSize = true ↔
      thresholdAddr.toNat ≤ record.dstAddr.toNat ∧
        record.dstAddr.toNat + record.memSize.toNat ≤
          thresholdAddr.toNat + thresholdSize.toNat := by
  rw [BindSanitizer.isAddrInRange, Bool.and_eq_true, Bool.and_eq_true, decide_eq_true_eq,
    decide_eq_true_eq, decide_eq_true_eq]
  constructor
  · rintro ⟨⟨haddr, hsize⟩, hend⟩
    rw [UInt64.le_iff_toNat_le, UInt64.toNat_sub_of_le _ _ haddr,
      UInt64.toNat_sub_of_le _ _ hsize] at hend
    rw [ge_iff_le, UInt64.le_iff_toNat_le] at haddr hsize
    omega
  · rintro ⟨haddr, hend⟩
    have hsize : record.memSize ≤ thresholdSize := by
      rw [UInt64.le_iff_toNat_le]
      omega
    have haddr' : thresholdAddr ≤ record.dstAddr := UInt64.le_iff_toNat_le.mpr haddr
    refine ⟨⟨haddr', hsize⟩, ?_⟩
    rw [UInt64.le_iff_toNat_le, UInt64.toNat_sub_of_le _ _ haddr',
      UInt64.toNat_sub_of_le _ _ hsize]
    omega

/-- The range of the heap of a batch, as the registration answers it. -/
def AnswersRange (heap : Handle) (ret : MemRegionsBelongInfo)
    (range : Option MstxMemVirtualRangeDesc) : Prop :=
  heap = 0 ∧ range = none ∨
    heap ≠ 0 ∧ ∃ desc, range = some desc ∧ desc.ptr = ret.addr ∧ desc.size = ret.size

theorem within_iff {heap : Handle} {ret : MemRegionsBelongInfo}
    {range : Option MstxMemVirtualRangeDesc} (hrange : AnswersRange heap ret range)
    {desc : MstxMemVirtualRangeDesc} {record : HostMemRecord} (haddr : record.dstAddr = desc.ptr)
    (hsize : record.memSize = desc.size) :
    (heap = 0 || BindSanitizer.isAddrInRange record ret.addr ret.size) = true ↔
      Within desc range := by
  rw [Bool.or_eq_true, decide_eq_true_eq, isAddrInRange_iff, haddr, hsize]
  rcases hrange with ⟨hheap, rfl⟩ | ⟨hheap, heapDesc, rfl, hptr, hlength⟩
  · exact iff_of_true (.inl hheap) trivial
  · rw [or_iff_right hheap, Within, hptr, hlength]

theorem InStep.reportRegion {s : Sanitizer} {acc : MemHandle → Option AddrInfo} (h : InStep s acc)
    {heap : Handle} {ret : MemRegionsBelongInfo} {range : Option MstxMemVirtualRangeDesc}
    (hrange : AnswersRange heap ret range) {region : Handle × MstxMemVirtualRangeDesc}
    (hnone : acc (.region region.1) = none) :
    InStep (reportRegion heap ret s region)
      (Function.update acc (.region region.1) (rangeInfo .mstxRegion region.2 range)) := by
  rw [BindSanitizer.reportRegion, rangeInfo]
  dsimp only
  by_cases hempty : region.2.ptr = 0 ∨ region.2.size = 0
  · rw [if_pos ((isInvalidMemInfo_malloc rfl).mpr hempty), if_neg (by tauto)]
    exact h.refuse hnone
  · rw [if_neg (mt (isInvalidMemInfo_malloc rfl).mp hempty)]
    by_cases hwithin : Within region.2 range
    · rw [if_pos ((within_iff hrange rfl rfl).mpr hwithin), if_pos (by tauto), notify, notify]
      dsimp only
      rw [List.append_assoc]
      apply h.malloc hnone
      · intro report hreport
        simp only [List.cons_append, List.nil_append, List.mem_cons, List.not_mem_nil,
          or_false] at hreport
        rcases hreport with rfl | rfl
        · exact ⟨rfl, by simp⟩
        · exact ⟨rfl, by simp⟩
      · simp [openStep]
    · rw [if_neg (mt (within_iff hrange rfl rfl).mp hwithin), if_neg (by tauto)]
      exact h.refuse hnone

/-- The loop over a batch gives a record to each region that is accepted. -/
theorem InStep.reportRegions {s : Sanitizer} {acc acc' : MemHandle → Option AddrInfo}
    (h : InStep s acc) {heap : Handle} {ret : MemRegionsBelongInfo}
    {range : Option MstxMemVirtualRangeDesc} (hrange : AnswersRange heap ret range)
    {regions : List (Handle × MstxMemVirtualRangeDesc)} (hnodup : (regions.map Prod.fst).Nodup)
    (hnone : ∀ region ∈ regions, acc (.region region.1) = none)
    (hnew : ∀ region ∈ regions, acc' (.region region.1) = rangeInfo .mstxRegion region.2 range)
    (hold : ∀ handle, (∀ region ∈ regions, handle ≠ .region region.1) → acc' handle = acc handle) :
    InStep (regions.foldl (BindSanitizer.reportRegion heap ret) s) acc' := by
  induction regions generalizing s acc with
  | nil =>
    have heq : acc' = acc := funext fun handle => hold handle nofun
    rwa [heq]
  | cons region regions ih =>
    obtain ⟨hregion, hrest⟩ := List.nodup_cons.mp hnodup
    rw [List.foldl_cons]
    refine ih (h.reportRegion hrange (hnone region List.mem_cons_self)) hrest
      (fun region' hregion' => ?_) (fun region' hregion' => ?_) fun handle hhandle => ?_
    · have hne : MemHandle.region region'.1 ≠ .region region.1 := by
        intro heq
        exact hregion (List.mem_map.mpr ⟨region', hregion', MemHandle.region.inj heq⟩)
      rw [Function.update_of_ne hne]
      exact hnone region' (List.mem_cons_of_mem _ hregion')
    · exact hnew region' (List.mem_cons_of_mem _ hregion')
    · by_cases hsame : handle = .region region.1
      · rw [hsame, Function.update_self]
        exact hnew region List.mem_cons_self
      · rw [Function.update_of_ne hsame]
        apply hold handle
        intro region' hregion'
        cases hregion' with
        | head => exact hsame
        | tail _ hregion' => exact hhandle region' hregion'

/-! ## Every call -/

theorem foldl_reportRegion_msTx (heap : Handle) (ret : MemRegionsBelongInfo)
    (regions : List (Handle × MstxMemVirtualRangeDesc)) (s : Sanitizer) :
    (regions.foldl (BindSanitizer.reportRegion heap ret) s).msTx = s.msTx := by
  induction regions generalizing s with
  | nil => rfl
  | cons region regions ih =>
    rw [List.foldl_cons, ih, BindSanitizer.reportRegion]
    dsimp only
    split_ifs <;> rfl

theorem call_msTx (h : History) (e : Event) :
    (step h e).sanitizer.msTx = MsTxConsistency.step h.sanitizer.msTx e := by
  cases e with
  | domainCreate fresh domainName => rfl
  | heapRegister fresh domain desc =>
    change (BindSanitizer.mstxMemHeapRegister fresh domain desc h.sanitizer).2.msTx = _
    rw [BindSanitizer.mstxMemHeapRegister]
    dsimp only
    split_ifs
    · rfl
    · cases desc.bind MstxMemHeapDesc.typeSpecificDesc with
      | none => rfl
      | some rangeDesc =>
        dsimp only
        split_ifs <;> rfl
  | heapUnregister domain heap => exact (takesOut_heap h domain heap).msTx_eq
  | regionsRegister fresh domain desc =>
    change (BindSanitizer.mstxMemRegionsRegister fresh domain desc h.sanitizer).msTx = _
    rw [BindSanitizer.mstxMemRegionsRegister.eq_def]
    dsimp only
    split_ifs
    · obtain _ | ⟨heap, _ | regionDescArray, out⟩ := desc
      · rfl
      · rfl
      · exact foldl_reportRegion_msTx _ _ _ _
    · rfl
  | regionsUnregister domain desc => exact (takesOut_regions h domain desc).msTx_eq

/-- A region with a descriptor is in the list of a domain. -/
def RegionsListed (s : MsTx) : Prop :=
  ∀ region, (s.regionRangeDesc.lookup region).isSome = true →
    ∃ domain, region ∈ listAt s.domainRegions domain

theorem RegionsListed.step {s : MsTx} (h : RegionsListed s) {e : Event} (hfresh : Fresh s e) :
    RegionsListed (MsTxConsistency.step s e) := by
  cases e with
  | domainCreate fresh domainName =>
    rw [MsTxConsistency.step, mstxDomainCreateA_eq]
    exact h
  | heapRegister fresh domain desc =>
    rw [MsTxConsistency.step]
    cases mstxMemHeapRegister_cases fresh domain desc s with
    | inl hcall => rw [hcall]; exact h
    | inr hcall =>
      obtain ⟨heapDesc, rangeDesc, -, -, hcall⟩ := hcall
      rw [hcall]
      exact h
  | heapUnregister domain heap =>
    rw [MsTxConsistency.step, mstxMemHeapUnregister_eq]
    cases heapToUnregister domain heap s with
    | none => exact h
    | some desc => exact h
  | regionsRegister fresh domain desc =>
    rw [MsTxConsistency.step, mstxMemRegionsRegister_eq]
    cases batchToRegister domain desc s with
    | none => exact h
    | some batch =>
      obtain ⟨regionDescArray, info⟩ := batch
      obtain ⟨-, -, -, hold, hregions⟩ := registerRegions_eq domain
        (nodup_zip hfresh.1.1 regionDescArray)
        { s with domainRegions := s.domainRegions.insert domain (listAt s.domainRegions domain) }
      intro region hsome
      dsimp only at hsome ⊢
      simp only [hregions, listAt_insert_self]
      by_cases hnew : region ∈ (fresh.zip regionDescArray).map Prod.fst
      · exact ⟨domain, by rw [if_pos rfl]; exact List.mem_append_right _ hnew⟩
      · rw [hold region hnew] at hsome
        obtain ⟨domain', hin⟩ := h region hsome
        refine ⟨domain', ?_⟩
        split_ifs with hdomain
        · exact List.mem_append_left _ (hdomain ▸ hin)
        · exact hin
  | regionsUnregister domain desc =>
    rw [step_regionsUnregister]
    obtain ⟨-, -, hrange, hregions⟩ := unregisterRegions_eq domain
      ((refsToUnregister domain desc s).getD []) ([], s)
    intro region hsome
    rw [hrange] at hsome
    split_ifs at hsome with href
    · cases hsome
    · obtain ⟨domain', hin⟩ := h region hsome
      refine ⟨domain', ?_⟩
      rw [hregions]
      split_ifs
      · exact List.mem_filter.mpr ⟨hin, decide_eq_true href⟩
      · exact hin

/-- What the calls keep besides. -/
structure Tracked (h : History) : Prop where
  heaps : HeapsConsistent h.sanitizer.msTx
  regions : RegionsListed h.sanitizer.msTx
  opened : ∀ handle,
    openAddr handle h.sanitizer.reports = (accepted h handle).map AddrInfo.addr

theorem inStep_iff {h : History} (htracked : Tracked h) :
    InStep h.sanitizer (accepted h) ↔ Good h := by
  constructor
  · exact fun h' => ⟨h'.matched, h'.exact⟩
  · exact fun h' => ⟨h'.matched, h'.exact, htracked.opened,
      fun handle info hinfo => (accepted_shape hinfo).2.2⟩

/-- A new address is that of no accepted handle. -/
theorem accepted_fresh {h : History} (htracked : Tracked h) {fresh : Handle}
    (hfresh : ¬ Live h.sanitizer.msTx fresh) :
    (∀ domain, accepted h (.heap domain fresh) = none) ∧ accepted h (.region fresh) = none := by
  constructor
  · intro domain
    have hnone : h.sanitizer.msTx.domainMemHeapDesc.lookup (domain, fresh) = none := by
      rw [← Option.not_isSome_iff_eq_none, htracked.heaps.heaps]
      exact (not_mem_of_not_live hfresh domain).1
    rw [accepted, hnone]
    rfl
  · have hnone : h.sanitizer.msTx.regionRangeDesc.lookup fresh = none := by
      rw [← Option.not_isSome_iff_eq_none]
      intro hsome
      obtain ⟨domain, hin⟩ := htracked.regions fresh hsome
      exact (not_mem_of_not_live hfresh domain).2 hin
    rw [accepted, hnone]
    rfl

theorem InStep.heapRegister {h : History} (hin : InStep h.sanitizer (accepted h))
    (htracked : Tracked h) {fresh : Handle} (hfresh : fresh ≠ 0 ∧ ¬ Live h.sanitizer.msTx fresh)
    (domain : Handle) (desc : Option MstxMemHeapDesc) :
    InStep (step h (.heapRegister fresh domain desc)).sanitizer
      (accepted (step h (.heapRegister fresh domain desc))) := by
  have hmsTx := call_msTx h (.heapRegister fresh domain desc)
  rw [MsTxConsistency.step] at hmsTx
  change InStep (BindSanitizer.mstxMemHeapRegister fresh domain desc h.sanitizer).2 _
  cases mstxMemHeapRegister_cases fresh domain desc h.sanitizer.msTx with
  | inl hcall =>
    rw [hcall] at hmsTx
    have hacc : accepted (step h (.heapRegister fresh domain desc)) = accepted h := by
      funext handle
      cases handle with
      | heap domain' heap' => rw [accepted, hmsTx]; rfl
      | region region => rw [accepted, hmsTx]; rfl
    rw [hacc, BindSanitizer.mstxMemHeapRegister, hcall]
    exact hin
  | inr hcall =>
    obtain ⟨heapDesc, rangeDesc, rfl, hrange, hcall⟩ := hcall
    rw [hcall] at hmsTx
    have hacc : accepted (step h (.heapRegister fresh domain (some heapDesc))) =
        Function.update (accepted h) (.heap domain fresh) (rangeInfo .mstxHeap rangeDesc none) := by
      funext handle
      cases handle with
      | heap domain' heap' =>
        rw [accepted, hmsTx]
        dsimp only
        rw [lookup_insert_eq]
        by_cases hkey : domain' = domain ∧ heap' = fresh
        · rw [hkey.1, hkey.2, if_pos rfl, Function.update_self]
          rfl
        · rw [if_neg (mt Prod.mk.inj hkey), Function.update_of_ne (mt MemHandle.heap.inj hkey)]
          rfl
      | region region =>
        rw [accepted, hmsTx, Function.update_of_ne (by simp)]
        rfl
    have hnone := (accepted_fresh htracked hfresh.2).1 domain
    rw [hacc, BindSanitizer.mstxMemHeapRegister, hcall, rangeInfo]
    dsimp only
    rw [if_neg hfresh.1, Option.bind_some, hrange]
    dsimp only
    by_cases hempty : rangeDesc.ptr = 0 ∨ rangeDesc.size = 0
    · rw [if_pos ((isInvalidMemInfo_malloc rfl).mpr hempty), if_neg (by tauto)]
      exact (hin.withMsTx _).refuse hnone
    · have hvalid : rangeDesc.ptr ≠ 0 ∧ rangeDesc.size ≠ 0 ∧ Within rangeDesc none :=
        ⟨mt .inl hempty, mt .inr hempty, trivial⟩
      rw [if_neg (mt (isInvalidMemInfo_malloc rfl).mp hempty), if_pos hvalid, notify]
      apply (hin.withMsTx _).malloc hnone
      · intro report hreport
        rw [List.mem_singleton.mp hreport]
        exact ⟨rfl, by simp⟩
      · simp [openStep]

/-- A batch that is carried out is checked against the range of its heap. -/
theorem batchToRegister_eq_some {domain : Handle} {desc : Option MstxMemRegionsRegisterBatch}
    {s : MsTx} {regionDescArray : List MstxMemVirtualRangeDesc} {info : MemRegionsBelongInfo}
    (h : batchToRegister domain desc s = some (regionDescArray, info)) :
    ∃ heap out, desc = some ⟨heap, some regionDescArray, out⟩ ∧ info.success = true ∧
      AnswersRange heap info (heapRange domain desc s) := by
  rw [batchToRegister.eq_def] at h
  obtain _ | ⟨heap, _ | regionDescArray', _ | _⟩ := desc
  · cases h
  · cases h
  · cases h
  · cases h
  · dsimp only at h
    by_cases hexist : isDomainExist domain s = true
    swap
    · rw [if_neg hexist] at h
      cases h
    rw [if_pos hexist] at h
    refine ⟨heap, true, ?_⟩
    rw [AnswersRange, heapRange, Option.bind_some]
    dsimp only
    cases hdesc : s.domainMemHeapDesc.lookup (domain, heap) with
    | none =>
      rw [hdesc] at h
      dsimp only at h
      split_ifs at h with hheap
      cases h
      exact ⟨rfl, rfl, .inl ⟨hheap, if_pos hheap⟩⟩
    | some desc =>
      rw [hdesc] at h
      cases h
      refine ⟨rfl, rfl, ?_⟩
      by_cases hheap : heap = 0
      · exact .inl ⟨hheap, if_pos hheap⟩
      · exact .inr ⟨hheap, desc.rangeDesc, if_neg hheap, rfl, rfl⟩

theorem InStep.regionsRegister {h : History} (hin : InStep h.sanitizer (accepted h))
    (htracked : Tracked h) {fresh : List Handle} {domain : Handle}
    {desc : Option MstxMemRegionsRegisterBatch}
    (hfresh : Fresh h.sanitizer.msTx (.regionsRegister fresh domain desc)) :
    InStep (step h (.regionsRegister fresh domain desc)).sanitizer
      (accepted (step h (.regionsRegister fresh domain desc))) := by
  have hmsTx := call_msTx h (.regionsRegister fresh domain desc)
  rw [MsTxConsistency.step, mstxMemRegionsRegister_eq] at hmsTx
  have hnone : ∀ region ∈ fresh, h.sanitizer.msTx.regionRangeDesc.lookup region = none := by
    intro region hregion
    rw [← Option.not_isSome_iff_eq_none]
    intro hsome
    obtain ⟨domain', hlisted⟩ := htracked.regions region hsome
    exact (not_mem_of_not_live (hfresh.1.2 region hregion).2 domain').2 hlisted
  change InStep (BindSanitizer.mstxMemRegionsRegister fresh domain desc h.sanitizer) _
  rw [BindSanitizer.mstxMemRegionsRegister.eq_def, mstxMemRegionsRegister_eq]
  cases hbatch : batchToRegister domain desc h.sanitizer.msTx with
  | none =>
    rw [hbatch] at hmsTx
    have hacc : accepted (step h (.regionsRegister fresh domain desc)) = accepted h := by
      funext handle
      cases handle with
      | heap domain' heap' => rw [accepted, hmsTx]; rfl
      | region region =>
        rw [accepted, accepted, hmsTx, step]
        dsimp only
        split_ifs with hregion
        · rw [hnone region hregion]
          rfl
        · rfl
    rw [hacc]
    exact hin
  | some batch =>
    obtain ⟨regionDescArray, info⟩ := batch
    rw [hbatch] at hmsTx
    obtain ⟨heap, out, rfl, hsuccess, hrange⟩ := batchToRegister_eq_some hbatch
    have hlength : fresh.length = regionDescArray.length := hfresh.2
    have hnodup := nodup_zip hfresh.1.1 regionDescArray
    have hfst : (fresh.zip regionDescArray).map Prod.fst = fresh :=
      List.map_fst_zip (Nat.le_of_eq hlength)
    obtain ⟨hheaps, -, hsome, hold, -⟩ := registerRegions_eq domain hnodup
      { h.sanitizer.msTx with
        domainRegions := h.sanitizer.msTx.domainRegions.insert domain
          (listAt h.sanitizer.msTx.domainRegions domain) }
    dsimp only at hmsTx ⊢
    rw [hsuccess, if_pos rfl]
    refine (hin.withMsTx _).reportRegions hrange hnodup (fun region hregion => ?_)
      (fun region hregion => ?_) fun handle hhandle => ?_
    · rw [accepted, hnone region.1 (List.of_mem_zip hregion).1]
      rfl
    · rw [accepted, hmsTx, hsome region hregion, Option.bind_some, step]
      dsimp only
      rw [if_pos (List.of_mem_zip hregion).1]
    · cases handle with
      | heap domain' heap' =>
        rw [accepted, hmsTx, hheaps]
        rfl
      | region region =>
        have hnew : region ∉ fresh := by
          rw [← hfst]
          intro hin
          obtain ⟨q, hq, rfl⟩ := List.mem_map.mp hin
          exact hhandle q hq rfl
        rw [accepted, hmsTx, hold region (by rwa [hfst]), step]
        dsimp only
        rw [if_neg hnew]
        rfl

theorem InStep.domainCreate {h : History} (hin : InStep h.sanitizer (accepted h)) (fresh : Handle)
    (domainName : List UInt8) : InStep (step h (.domainCreate fresh domainName)).sanitizer
      (accepted (step h (.domainCreate fresh domainName))) := by
  have hmsTx := call_msTx h (.domainCreate fresh domainName)
  rw [MsTxConsistency.step, mstxDomainCreateA_eq] at hmsTx
  have hacc : accepted (step h (.domainCreate fresh domainName)) = accepted h := by
    funext handle
    cases handle with
    | heap domain' heap' => rw [accepted, hmsTx]; rfl
    | region region => rw [accepted, hmsTx]; rfl
  rw [hacc]
  exact hin.withMsTx _

/-! ## Whole runs -/

theorem tracked_init : Tracked {} :=
  ⟨heapsConsistent_init, nofun, fun handle => by cases handle <;> rfl⟩

theorem good_init : Good {} := by
  refine ⟨matched_nil, fun info _ => iff_of_false List.not_mem_nil ?_⟩
  rintro ⟨handle, hinfo⟩
  cases handle <;> cases hinfo

theorem Tracked.step {h : History} (htracked : Tracked h) (hgood : Good h) {e : Event}
    (hfresh : FreshCall h e) : Tracked (step h e) := by
  have hin := (inStep_iff htracked).mpr hgood
  constructor
  case heaps =>
    rw [call_msTx]
    exact htracked.heaps.step hfresh
  case regions =>
    rw [call_msTx]
    exact htracked.regions.step hfresh
  case opened =>
    cases e with
    | domainCreate fresh domainName => exact (hin.domainCreate fresh domainName).opened
    | heapRegister fresh domain desc => exact (hin.heapRegister htracked hfresh domain desc).opened
    | heapUnregister domain heap => exact (takesOut_heap h domain heap).openAddr_eq htracked.opened
    | regionsRegister fresh domain desc => exact (hin.regionsRegister htracked hfresh).opened
    | regionsUnregister domain desc =>
      exact (takesOut_regions h domain desc).openAddr_eq htracked.opened

/-- A call that takes nothing out frees nothing. -/
theorem clean_of_gone_none {h : History} {e : Event} (hgone : ∀ handle, gone h e handle = none)
    (hpointers : pointers h e = []) : Clean h e := by
  constructor
  · intro handle addr hsome
    rw [hgone] at hsome
    cases hsome
  · intro kept info _ _
    refine ⟨fun _ => by rw [hpointers]; exact List.not_mem_nil, fun handle info' hne => ?_⟩
    exact absurd (hgone handle) hne

theorem good_step_iff {h : History} (htracked : Tracked h) (hgood : Good h) {e : Event}
    (hfresh : FreshCall h e) : Good (step h e) ↔ Clean h e := by
  have hin := (inStep_iff htracked).mpr hgood
  have hnext := inStep_iff (htracked.step hgood hfresh)
  cases e with
  | domainCreate fresh domainName =>
    exact iff_of_true (hnext.mp (hin.domainCreate fresh domainName))
      (clean_of_gone_none (fun _ => rfl) rfl)
  | heapRegister fresh domain desc =>
    exact iff_of_true (hnext.mp (hin.heapRegister htracked hfresh domain desc))
      (clean_of_gone_none (fun _ => rfl) rfl)
  | heapUnregister domain heap => exact (takesOut_heap h domain heap).good_iff htracked.opened hgood
  | regionsRegister fresh domain desc =>
    exact iff_of_true (hnext.mp (hin.regionsRegister htracked hfresh))
      (clean_of_gone_none (fun _ => rfl) rfl)
  | regionsUnregister domain desc =>
    exact (takesOut_regions h domain desc).good_iff htracked.opened hgood

/-- The reports match in every state of a run exactly when every call that takes handles out
takes out accepted ones only, and none whose FREE record hits a handle that stays. -/
theorem reports_match_iff (events : List Event)
    (hfresh : Runs.Guarded step FreshCall {} events) :
    (∀ n, Good ((events.take n).foldl step {})) ↔ Runs.Guarded step Clean {} events :=
  Runs.guarded_iff_invariant_of (fun _ _ hfresh htracked hgood => htracked.step hgood hfresh)
    (fun _ _ hfresh htracked hgood => good_step_iff htracked hgood hfresh) hfresh tracked_init
    good_init

/-- A heap and two regions in it, the second of which does not fit, and their end. -/
def acceptedRun : List Event :=
  [.domainCreate 1 [97],
    .heapRegister 2 1 (some ⟨.subAllocator, .virtualAddress, some ⟨0, 0x1000, 256⟩⟩),
    .regionsRegister [3, 4] 1 (some ⟨2, some [⟨0, 0x1010, 16⟩, ⟨0, 0x10F8, 16⟩], true⟩),
    .regionsUnregister 1 (some ⟨some [.handle 3]⟩), .heapUnregister 1 2]

theorem reports_match_acceptedRun :
    (∀ n, Good ((acceptedRun.take n).foldl step {})) ↔ Runs.Guarded step Clean {} acceptedRun :=
  reports_match_iff acceptedRun (by decide)

/-- An empty heap, which is not accepted, is taken out again. -/
def emptyHeapRun : List Event :=
  [.heapRegister 1 0 (some ⟨.subAllocator, .virtualAddress, some ⟨0, 0x1000, 64⟩⟩),
    .heapRegister 2 0 (some ⟨.subAllocator, .virtualAddress, some ⟨0, 0x1000, 0⟩⟩),
    .heapUnregister 0 2]

/-- Its FREE record, without a MALLOC record, takes the record of another heap out. -/
theorem emptyHeap_frees_other :
    Runs.Guarded step FreshCall {} emptyHeapRun ∧
      ((emptyHeapRun.take 2).foldl step {}).sanitizer.reports.map (fun r => r.handle) =
        [some (.heap 0 1)] ∧
      (emptyHeapRun.foldl step {}).sanitizer.reports.map (fun r => (r.handle, r.record.type)) =
        [(some (.heap 0 1), .malloc), (some (.heap 0 2), .free)] ∧
      accepted (emptyHeapRun.foldl step {}) (.heap 0 1) =
        some ⟨0x1000, 64, .mstxHeap, .default, 0⟩ ∧
      (emptyHeapRun.foldl step {}).sanitizer.memory.memoryOpAddrInfos.elems = [] ∧
      ¬ Good (emptyHeapRun.foldl step {}) := by
  have haccepted : accepted (emptyHeapRun.foldl step {}) (.heap 0 1) =
      some ⟨0x1000, 64, .mstxHeap, .default, 0⟩ := by decide
  have hempty : (emptyHeapRun.foldl step {}).sanitizer.memory.memoryOpAddrInfos.elems = [] := by
    decide
  refine ⟨by decide, by decide, by decide, haccepted, hempty, fun h => ?_⟩
  have hin := (h.exact _ (.inl rfl)).mpr ⟨_, haccepted⟩
  rw [OrderedSet.mem_def, hempty] at hin
  cases hin

end Msopcom.MstxReports
