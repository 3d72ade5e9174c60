import Msopcom.MstxLedger
import Msopcom.MsTxConsistency
import Mathlib.Order.CompletePartialOrder

set_option autoImplicit false

/-!
# Runs of the mstx callbacks

When the reports of heaps and regions match, and what a call that takes handles out has to
meet for them to match on.
-/
namespace Msopcom.MstxReports
open KeyedList MsTxHandles MsTxConsistency BindSanitizer MstxLedger

/-! ## Runs -/

/-- The callbacks, and for each region the range of the heap that it was registered in. -/
structure History where
  sanitizer : Sanitizer := {}
  heapOf : Handle → Option MstxMemVirtualRangeDesc := fun _ => none

def call (s : Sanitizer) : Event → Sanitizer
  | .domainCreate fresh domainName => (BindSanitizer.mstxDomainCreateA fresh domainName s).2
  | .heapRegister fresh domain desc => (BindSanitizer.mstxMemHeapRegister fresh domain desc s).2
  | .heapUnregister domain heap => BindSanitizer.mstxMemHeapUnregister domain heap s
  | .regionsRegister fresh domain desc => BindSanitizer.mstxMemRegionsRegister fresh domain desc s
  | .regionsUnregister domain desc => BindSanitizer.mstxMemRegionsUnregister domain desc s

/-- The range of the heap of a batch, unless it is for no heap. -/
def heapRange (domain : Handle) (desc : Option MstxMemRegionsRegisterBatch) (s : MsTx) :
    Option MstxMemVirtualRangeDesc :=
  desc.bind fun batch =>
    if batch.heap = 0 then none
    else (s.domainMemHeapDesc.lookup (domain, batch.heap)).map MstxMemHeapRangeDesc.rangeDesc

def step (h : History) (e : Event) : History where
  sanitizer := call h.sanitizer e
  heapOf :=
    match e with
    | .regionsRegister fresh domain desc => fun region =>
      if region ∈ fresh then heapRange domain desc h.sanitizer.msTx else h.heapOf region
    | _ => h.heapOf

/-- New objects get addresses that are not in use. -/
def FreshCall (h : History) (e : Event) : Prop := Fresh h.sanitizer.msTx e

instance : DecidableRel FreshCall :=
  fun h e => inferInstanceAs (Decidable (Fresh h.sanitizer.msTx e))

/-! ## Accepted handles -/

def Within (desc : MstxMemVirtualRangeDesc) : Option MstxMemVirtualRangeDesc → Prop
  | none => True
  | some heap => heap.ptr.toNat ≤ desc.ptr.toNat ∧
    desc.ptr.toNat + desc.size.toNat ≤ heap.ptr.toNat + heap.size.toNat

instance (desc : MstxMemVirtualRangeDesc) : DecidablePred (Within desc)
  | none => isTrue trivial
  | some heap => inferInstanceAs (Decidable (heap.ptr.toNat ≤ desc.ptr.toNat ∧
    desc.ptr.toNat + desc.size.toNat ≤ heap.ptr.toNat + heap.size.toNat))

/-- The record of a range that is not empty and lies in its heap. -/
def rangeInfo (infoSrc : MemInfoSrc) (desc : MstxMemVirtualRangeDesc)
    (heap : Option MstxMemVirtualRangeDesc) : Option AddrInfo :=
  if desc.ptr ≠ 0 ∧ desc.size ≠ 0 ∧ Within desc heap then
    some ⟨desc.ptr, desc.size, infoSrc, .default, 0⟩
  else none

/-- The record of a handle that is registered and was accepted. -/
def accepted (h : History) : MemHandle → Option AddrInfo
  | .heap domain heap => (h.sanitizer.msTx.domainMemHeapDesc.lookup (domain, heap)).bind
      fun desc => rangeInfo .mstxHeap desc.rangeDesc none
  | .region region => (h.sanitizer.msTx.regionRangeDesc.lookup region).bind
      fun desc => rangeInfo .mstxRegion desc (h.heapOf region)

/-- The reports match: each FREE record closes a MALLOC record of its handle, and the records
of heaps and regions are those of the accepted handles. -/
structure Good (h : History) : Prop where
  matched : Matched h.sanitizer.reports
  exact : Exact h.sanitizer.memory (accepted h)

/-- The address of a handle that a call takes out. -/
def gone (h : History) : Event → MemHandle → Option UInt64
  | .heapUnregister domain heap, .heap domain' heap' =>
    if domain' = domain ∧ heap' = heap then
      (heapToUnregister domain heap h.sanitizer.msTx).map fun desc => desc.rangeDesc.ptr
    else none
  | .regionsUnregister domain desc, .region region =>
    if .handle region ∈ (refsToUnregister domain desc h.sanitizer.msTx).getD [] then
      (h.sanitizer.msTx.regionRangeDesc.lookup region).map MstxMemVirtualRangeDesc.ptr
    else none
  | _, _ => none

def pointerOf : MstxMemRegionRef → Option UInt64
  | .pointer p => some p
  | .handle _ => none

/-- The addresses that a call refers to regions by. -/
def pointers (h : History) : Event → List UInt64
  | .regionsUnregister domain desc =>
    ((refsToUnregister domain desc h.sanitizer.msTx).getD []).filterMap pointerOf
  | _ => []

/-- A call takes out accepted handles only. At the address of an accepted handle that stays,
it takes out no region by its address, and handles only that have smaller records, no two of
them the same. -/
structure Clean (h : History) (e : Event) : Prop where
  reported : ∀ handle addr, gone h e handle = some addr → addr ≠ 0 → accepted h handle ≠ none
  apart : ∀ kept info, gone h e kept = none → accepted h kept = some info →
    (info.memInfoSrc = .mstxRegion → info.addr ∉ pointers h e) ∧
    ∀ handle info', gone h e handle ≠ none → accepted h handle = some info' →
      info'.memInfoSrc = info.memInfoSrc → info'.addr = info.addr →
        info'.length < info.length ∧ ∀ handle', gone h e handle' ≠ none →
          accepted h handle' = some info' → handle' = handle

/-! ## Accepted ranges -/

theorem rangeInfo_eq_some_iff {infoSrc : MemInfoSrc} {desc : MstxMemVirtualRangeDesc}
    {heap : Option MstxMemVirtualRangeDesc} {info : AddrInfo} :
    rangeInfo infoSrc desc heap = some info ↔ (desc.ptr ≠ 0 ∧ desc.size ≠ 0 ∧ Within desc heap) ∧
      info = ⟨desc.ptr, desc.size, infoSrc, .default, 0⟩ := by
  rw [rangeInfo]
  split_ifs with hvalid
  · rw [and_iff_right hvalid, Option.some.injEq, eq_comm]
  · exact iff_of_false nofun fun h => hvalid h.1

def srcOf : MemHandle → MemInfoSrc
  | .heap _ _ => .mstxHeap
  | .region _ => .mstxRegion

theorem accepted_shape {h : History} {handle : MemHandle} {info : AddrInfo}
    (hinfo : accepted h handle = some info) :
    info.addr ≠ 0 ∧ info.memInfoSrc = srcOf handle ∧ info.memInfoDesc = .default ∧
      info.paramsNo = 0 := by
  cases handle with
  | heap domain heap =>
    obtain ⟨desc, -, hrange⟩ := Option.bind_eq_some_iff.mp hinfo
    obtain ⟨hvalid, rfl⟩ := rangeInfo_eq_some_iff.mp hrange
    exact ⟨hvalid.1, rfl, rfl, rfl⟩
  | region region =>
    obtain ⟨desc, -, hrange⟩ := Option.bind_eq_some_iff.mp hinfo
    obtain ⟨hvalid, rfl⟩ := rangeInfo_eq_some_iff.mp hrange
    exact ⟨hvalid.1, rfl, rfl, rfl⟩

/-- A handle that is taken out has its address from its descriptor, as its record does. -/
theorem addr_of_gone {h : History} {e : Event} {handle : MemHandle} {addr : UInt64}
    {info : AddrInfo} (hgone : gone h e handle = some addr)
    (hinfo : accepted h handle = some info) : info.addr = addr := by
  cases handle with
  | heap domain' heap' =>
    obtain ⟨desc, hdesc, hrange⟩ := Option.bind_eq_some_iff.mp hinfo
    obtain ⟨-, rfl⟩ := rangeInfo_eq_some_iff.mp hrange
    cases e with
    | heapUnregister domain heap =>
      rw [gone] at hgone
      split_ifs at hgone with hsame
      obtain ⟨rfl, rfl⟩ := hsame
      obtain ⟨desc', hdesc', rfl⟩ := Option.map_eq_some_iff.mp hgone
      rw [heapToUnregister] at hdesc'
      split_ifs at hdesc'
      rw [hdesc] at hdesc'
      cases hdesc'
      rfl
    | _ => cases hgone
  | region region =>
    obtain ⟨desc, hdesc, hrange⟩ := Option.bind_eq_some_iff.mp hinfo
    obtain ⟨-, rfl⟩ := rangeInfo_eq_some_iff.mp hrange
    cases e with
    | regionsUnregister domain batch =>
      rw [gone] at hgone
      split_ifs at hgone
      rw [hdesc] at hgone
      cases hgone
      rfl
    | _ => cases hgone

/-! ## Calls that take handles out -/

/-- The FREE records that a call asks for, and what it does to the handles. -/
structure TakesOut (h : History) (e : Event) (src : MemInfoSrc) (requests : List Report) : Prop where
  sanitizer : (step h e).sanitizer = requests.foldl
    (fun s report => reportFree report.handle report.device report.record s)
    { h.sanitizer with msTx := MsTxConsistency.step h.sanitizer.msTx e }
  mstx : IsMstx src
  free : ∀ report ∈ requests, report.record.type = .free ∧ report.record.infoSrc = src
  distinct : Distinct requests
  kind : ∀ report ∈ requests, ∀ handle, report.handle = some handle → srcOf handle = src
  gone : ∀ handle addr, gone h e handle = some addr ↔
    ∃ report ∈ requests, report.handle = some handle ∧ report.record.dstAddr = addr
  pointers : ∀ addr, addr ∈ pointers h e ↔
    ∃ report ∈ requests, report.handle = none ∧ report.record.dstAddr = addr
  regions : ∀ report ∈ requests, report.handle = none → src = .mstxRegion
  accepted : ∀ handle, accepted (step h e) handle =
    if (MstxReports.gone h e handle).isSome then none else accepted h handle

theorem sent_iff {requests : List Report} {report : Report} :
    report ∈ requests.filter isSent ↔ report ∈ requests ∧ report.record.dstAddr ≠ 0 := by
  rw [List.mem_filter, isSent, decide_eq_true_eq]

namespace TakesOut
variable {h : History} {e : Event} {src : MemInfoSrc} {requests : List Report}
  (t : TakesOut h e src requests)
include t

theorem gone_of_sent {report : Report} (hreport : report ∈ requests.filter isSent)
    {handle : MemHandle} (hhandle : report.handle = some handle) :
    MstxReports.gone h e handle = some report.record.dstAddr :=
  (t.gone handle _).mpr ⟨report, (sent_iff.mp hreport).1, hhandle, rfl⟩

theorem gone_of_freed {handle : MemHandle} (hfreed : Freed (requests.filter isSent) handle) :
    MstxReports.gone h e handle ≠ none := by
  obtain ⟨report, hreport, hhandle⟩ := hfreed
  rw [t.gone_of_sent hreport hhandle]
  exact Option.some_ne_none _

/-- The address of a record is not null, so the FREE record for it is sent. -/
theorem freed_of_gone {handle : MemHandle} {info : AddrInfo}
    (hinfo : MstxReports.accepted h handle = some info)
    (hgone : MstxReports.gone h e handle ≠ none) : Freed (requests.filter isSent) handle := by
  obtain ⟨addr, hgone⟩ := Option.ne_none_iff_exists'.mp hgone
  obtain ⟨report, hreport, hhandle, haddr⟩ := (t.gone handle addr).mp hgone
  refine ⟨report, sent_iff.mpr ⟨hreport, ?_⟩, hhandle⟩
  rw [haddr, ← addr_of_gone hgone hinfo]
  exact (accepted_shape hinfo).1

/-- The handles that stay are those that no FREE record is sent for. -/
theorem accepted_eq : MstxReports.accepted (step h e) =
    remaining (MstxReports.accepted h) (requests.filter isSent) := by
  funext handle
  rw [t.accepted, remaining]
  cases hinfo : MstxReports.accepted h handle with
  | none => rw [ite_self, ite_self]
  | some info =>
    by_cases hfreed : Freed (requests.filter isSent) handle
    · rw [if_pos hfreed, if_pos (Option.isSome_iff_ne_none.mpr (t.gone_of_freed hfreed))]
    · rw [if_neg hfreed, if_neg]
      exact fun hgone => hfreed (t.freed_of_gone hinfo (Option.isSome_iff_ne_none.mp hgone))

theorem reports_eq : (step h e).sanitizer.reports =
    h.sanitizer.reports ++ requests.filter isSent := by
  rw [t.sanitizer, foldl_reportFree t.free]

theorem memory_eq : (step h e).sanitizer.memory = (requests.filter isSent).foldl
    (fun m report => m.cacheFree report.record.dstAddr src) h.sanitizer.memory := by
  rw [t.sanitizer, foldl_reportFree t.free]

theorem msTx_eq : (step h e).sanitizer.msTx = MsTxConsistency.step h.sanitizer.msTx e := by
  rw [t.sanitizer, foldl_reportFree t.free]

theorem free_of_sent : ∀ report ∈ requests.filter isSent, report.record.type = .free :=
  fun report hreport => (t.free report (sent_iff.mp hreport).1).1

/-- The open MALLOC records stay those of the accepted handles. -/
theorem openAddr_eq (hopen : ∀ handle, openAddr handle h.sanitizer.reports =
      (MstxReports.accepted h handle).map AddrInfo.addr) (handle : MemHandle) :
    openAddr handle (step h e).sanitizer.reports =
      (MstxReports.accepted (step h e) handle).map AddrInfo.addr := by
  rw [t.reports_eq, openAddr_free t.free_of_sent, t.accepted_eq, remaining, hopen]
  split_ifs <;> rfl

theorem matched_iff (hopen : ∀ handle, openAddr handle h.sanitizer.reports =
      (MstxReports.accepted h handle).map AddrInfo.addr) (hmatched : Matched h.sanitizer.reports) :
    Matched (step h e).sanitizer.reports ↔ ∀ handle addr, MstxReports.gone h e handle = some addr →
      addr ≠ 0 → MstxReports.accepted h handle ≠ none := by
  rw [t.reports_eq, matched_free_iff t.free_of_sent (t.distinct.sublist List.filter_sublist),
    and_iff_right hmatched]
  constructor
  · intro hfree handle addr hgone haddr hnone
    obtain ⟨report, hreport, hhandle, rfl⟩ := (t.gone handle addr).mp hgone
    have hclosed := hfree report (sent_iff.mpr ⟨hreport, haddr⟩) handle hhandle
    rw [hopen, hnone] at hclosed
    cases hclosed
  · intro hreported report hreport handle hhandle
    have hgone := t.gone_of_sent hreport hhandle
    obtain ⟨info, hinfo⟩ := Option.ne_none_iff_exists'.mp
      (hreported handle _ hgone (sent_iff.mp hreport).2)
    rw [hopen, hinfo, Option.map_some, addr_of_gone hgone hinfo]

theorem accepted_of_sent (hreported : ∀ handle addr, MstxReports.gone h e handle = some addr →
      addr ≠ 0 → MstxReports.accepted h handle ≠ none) :
    ∀ report ∈ requests.filter isSent, ∀ handle, report.handle = some handle → ∃ info,
      MstxReports.accepted h handle = some info ∧ info.addr = report.record.dstAddr ∧
        info.memInfoSrc = src := by
  intro report hreport handle hhandle
  have hgone := t.gone_of_sent hreport hhandle
  obtain ⟨info, hinfo⟩ := Option.ne_none_iff_exists'.mp
    (hreported handle _ hgone (sent_iff.mp hreport).2)
  refine ⟨info, hinfo, addr_of_gone hgone hinfo, ?_⟩
  rw [(accepted_shape hinfo).2.1, t.kind report (sent_iff.mp hreport).1 handle hhandle]

theorem exact_iff (hexact : Exact h.sanitizer.memory (MstxReports.accepted h))
    (hreported : ∀ handle addr, MstxReports.gone h e handle = some addr → addr ≠ 0 →
      MstxReports.accepted h handle ≠ none) :
    Exact (step h e).sanitizer.memory (MstxReports.accepted (step h e)) ↔
      ∀ kept info, MstxReports.gone h e kept = none → MstxReports.accepted h kept = some info →
        (info.memInfoSrc = .mstxRegion → info.addr ∉ MstxReports.pointers h e) ∧
        ∀ handle info', MstxReports.gone h e handle ≠ none →
          MstxReports.accepted h handle = some info' → info'.memInfoSrc = info.memInfoSrc →
            info'.addr = info.addr → info'.length < info.length ∧ ∀ handle',
              MstxReports.gone h e handle' ≠ none → MstxReports.accepted h handle' = some info' →
                handle' = handle := by
  have haccepted := t.accepted_of_sent hreported
  rw [t.memory_eq, t.accepted_eq, exact_frees_iff t.mstx hexact
    (t.distinct.sublist List.filter_sublist) haccepted]
  constructor
  · intro hspared kept info hkept hinfo
    have hnot : ¬ Freed (requests.filter isSent) kept := fun h => t.gone_of_freed h hkept
    constructor
    · intro hregion hin
      obtain ⟨report, hreport, hnone, haddr⟩ := (t.pointers info.addr).mp hin
      have hsrc := hregion.trans (t.regions report hreport hnone).symm
      have hnull : report.record.dstAddr ≠ 0 := haddr ▸ (accepted_shape hinfo).1
      exact (hspared kept info hnot hinfo hsrc).1 report (sent_iff.mpr ⟨hreport, hnull⟩) haddr hnone
    · intro handle info' hgone hinfo' hsame haddr
      have hfreed := t.freed_of_gone hinfo' hgone
      have hsrc := hsame.symm.trans (src_eq haccepted hfreed hinfo')
      obtain ⟨hlength, hunique⟩ :=
        (hspared kept info hnot hinfo hsrc).2 handle info' hfreed hinfo' haddr
      exact ⟨hlength, fun handle' hgone' hinfo'' =>
        hunique handle' (t.freed_of_gone hinfo'' hgone') hinfo''⟩
  · intro hapart kept info hnot hinfo hsrc
    have hkept : MstxReports.gone h e kept = none := by
      by_contra hgone
      exact hnot (t.freed_of_gone hinfo hgone)
    obtain ⟨hpointer, hhandles⟩ := hapart kept info hkept hinfo
    constructor
    · intro report hreport haddr hnone
      have hrequest := (sent_iff.mp hreport).1
      exact hpointer (hsrc.trans (t.regions report hrequest hnone))
        ((t.pointers info.addr).mpr ⟨report, hrequest, hnone, haddr⟩)
    · intro handle info' hfreed hinfo' haddr
      obtain ⟨hlength, hunique⟩ := hhandles handle info' (t.gone_of_freed hfreed) hinfo'
        ((src_eq haccepted hfreed hinfo').trans hsrc.symm) haddr
      exact ⟨hlength, fun handle' hfreed' hinfo'' =>
        hunique handle' (t.gone_of_freed hfreed') hinfo''⟩

theorem good_iff (hopen : ∀ handle, openAddr handle h.sanitizer.reports =
      (MstxReports.accepted h handle).map AddrInfo.addr) (hgood : Good h) :
    Good (step h e) ↔ Clean h e := by
  constructor
  · intro hstep
    have hreported := (t.matched_iff hopen hgood.matched).mp hstep.matched
    exact ⟨hreported, (t.exact_iff hgood.exact hreported).mp hstep.exact⟩
  · intro hclean
    exact ⟨(t.matched_iff hopen hgood.matched).mpr hclean.reported,
      (t.exact_iff hgood.exact hclean.reported).mpr hclean.apart⟩

end TakesOut

/-- The FREE record of a heap that is taken out. -/
def heapRequests (domain heap : Handle) (s : MsTx) : List Report :=
  (heapToUnregister domain heap s).toList.map fun desc =>
    ⟨some (.heap domain heap), .device desc.rangeDesc.deviceId.toInt32,
      { type := .free, infoSrc := .mstxHeap, dstAddr := desc.rangeDesc.ptr }⟩

theorem mem_heapRequests {domain heap : Handle} {s : MsTx} {report : Report} :
    report ∈ heapRequests domain heap s ↔ ∃ desc, heapToUnregister domain heap s = some desc ∧
      ⟨some (.heap domain heap), .device desc.rangeDesc.deviceId.toInt32,
        { type := .free, infoSrc := .mstxHeap, dstAddr := desc.rangeDesc.ptr }⟩ = report := by
  rw [heapRequests, List.mem_map]
  exact exists_congr fun desc => and_congr_left fun _ => Option.mem_toList

theorem call_heapUnregister (s : Sanitizer) (domain heap : Handle) :
    call s (.heapUnregister domain heap) = (heapRequests domain heap s.msTx).foldl
      (fun s report => reportFree report.handle report.device report.record s)
      { s with msTx := MsTxConsistency.step s.msTx (.heapUnregister domain heap) } := by
  rw [call, BindSanitizer.mstxMemHeapUnregister, MsTxConsistency.step, mstxMemHeapUnregister_eq,
    heapRequests]
  cases heapToUnregister domain heap s.msTx with
  | none => rfl
  | some desc => rfl

theorem takesOut_heap (h : History) (domain heap : Handle) :
    TakesOut h (.heapUnregister domain heap) .mstxHeap
      (heapRequests domain heap h.sanitizer.msTx) := by
  have hfree : ∀ report ∈ heapRequests domain heap h.sanitizer.msTx,
      report.record.type = .free ∧ report.record.infoSrc = .mstxHeap := by
    intro report hreport
    obtain ⟨desc, -, rfl⟩ := mem_heapRequests.mp hreport
    exact ⟨rfl, rfl⟩
  constructor
  case sanitizer => exact call_heapUnregister h.sanitizer domain heap
  case mstx => exact .inl rfl
  case free => exact hfree
  case distinct =>
    rw [heapRequests]
    cases heapToUnregister domain heap h.sanitizer.msTx with
    | none => exact List.Pairwise.nil
    | some desc => exact List.pairwise_singleton _ _
  case kind =>
    intro report hreport handle hhandle
    obtain ⟨desc, -, rfl⟩ := mem_heapRequests.mp hreport
    cases hhandle
    rfl
  case gone =>
    intro handle addr
    cases handle with
    | heap domain' heap' =>
      rw [gone]
      constructor
      · intro hgone
        split_ifs at hgone with hsame
        obtain ⟨rfl, rfl⟩ := hsame
        obtain ⟨desc, hdesc, rfl⟩ := Option.map_eq_some_iff.mp hgone
        exact ⟨_, mem_heapRequests.mpr ⟨desc, hdesc, rfl⟩, rfl, rfl⟩
      · rintro ⟨report, hreport, hhandle, rfl⟩
        obtain ⟨desc, hdesc, rfl⟩ := mem_heapRequests.mp hreport
        cases hhandle
        rw [if_pos ⟨rfl, rfl⟩, hdesc]
        rfl
    | region region =>
      refine iff_of_false nofun ?_
      rintro ⟨report, hreport, hhandle, -⟩
      obtain ⟨desc, -, rfl⟩ := mem_heapRequests.mp hreport
      cases hhandle
  case pointers =>
    intro addr
    refine iff_of_false List.not_mem_nil ?_
    rintro ⟨report, hreport, hnone, -⟩
    obtain ⟨desc, -, rfl⟩ := mem_heapRequests.mp hreport
    cases hnone
  case regions =>
    intro report hreport hnone
    obtain ⟨desc, -, rfl⟩ := mem_heapRequests.mp hreport
    cases hnone
  case accepted =>
    have hmsTx : (step h (.heapUnregister domain heap)).sanitizer.msTx =
        (MsTxHandles.mstxMemHeapUnregister domain heap h.sanitizer.msTx).2 := by
      change (call h.sanitizer (.heapUnregister domain heap)).msTx = _
      rw [call_heapUnregister, foldl_reportFree hfree]
      rfl
    intro handle
    cases handle with
    | heap domain' heap' =>
      rw [accepted, accepted, hmsTx, mstxMemHeapUnregister_eq, gone]
      cases heapToUnregister domain heap h.sanitizer.msTx with
      | none => simp
      | some desc =>
        dsimp only
        rw [lookup_erase_eq]
        by_cases hsame : domain' = domain ∧ heap' = heap
        · simp [hsame]
        · rw [if_neg (mt Prod.mk.inj hsame), if_neg hsame]
          rfl
    | region region =>
      rw [accepted, accepted, hmsTx, mstxMemHeapUnregister_eq]
      cases heapToUnregister domain heap h.sanitizer.msTx with
      | none => rfl
      | some desc => rfl

/-- The FREE record of a region that is taken out. -/
def regionFree (range : Handle × MstxMemVirtualRangeDesc) : Report :=
  ⟨some (.region range.1), .device range.2.deviceId.toInt32,
    { type := .free, infoSrc := .mstxRegion, dstAddr := range.2.ptr, memSize := range.2.size }⟩

def pointerFree (p : UInt64) : Report :=
  ⟨none, .thread, { type := .free, infoSrc := .mstxRegion, dstAddr := p, memSize := 0 }⟩

def regionRequests (domain : Handle) (refArray : List MstxMemRegionRef) (s : MsTx) : List Report :=
  (unregisterRegions domain refArray ([], s)).1.map regionFree ++
    (refArray.filterMap pointerOf).map pointerFree

theorem foldl_reportPointerFree (refArray : List MstxMemRegionRef) (s : Sanitizer) :
    refArray.foldl reportPointerFree s = ((refArray.filterMap pointerOf).map pointerFree).foldl
      (fun s report => reportFree report.handle report.device report.record s) s := by
  induction refArray generalizing s with
  | nil => rfl
  | cons ref refArray ih =>
    cases ref with
    | pointer p => exact ih _
    | handle region => exact ih _

theorem step_regionsUnregister (s : MsTx) (domain : Handle)
    (desc : Option MstxMemRegionsUnregisterBatch) :
    MsTxConsistency.step s (.regionsUnregister domain desc) =
      (unregisterRegions domain ((refsToUnregister domain desc s).getD []) ([], s)).2 := by
  rw [MsTxConsistency.step, mstxMemRegionsUnregister_eq]
  cases refsToUnregister domain desc s with
  | none => rfl
  | some refArray => rfl

theorem call_regionsUnregister (s : Sanitizer) (domain : Handle)
    (desc : Option MstxMemRegionsUnregisterBatch) :
    call s (.regionsUnregister domain desc) =
      (regionRequests domain ((refsToUnregister domain desc s.msTx).getD []) s.msTx).foldl
        (fun s report => reportFree report.handle report.device report.record s)
        { s with msTx := MsTxConsistency.step s.msTx (.regionsUnregister domain desc) } := by
  rw [step_regionsUnregister, call, BindSanitizer.mstxMemRegionsUnregister,
    mstxMemRegionsUnregister_eq]
  cases hrefs : refsToUnregister domain desc s.msTx with
  | none => rfl
  | some refArray =>
    rw [refsToUnregister] at hrefs
    split_ifs at hrefs
    dsimp only
    rw [hrefs, Option.getD_some, foldl_reportPointerFree, regionRequests]
    simp only [List.foldl_append, List.foldl_map]
    rfl

section Regions
variable {domain : Handle} {refArray : List MstxMemRegionRef} {s : MsTx}

theorem free_regionRequests : ∀ report ∈ regionRequests domain refArray s,
    report.record.type = .free ∧ report.record.infoSrc = .mstxRegion := by
  rw [regionRequests, List.forall_mem_append, List.forall_mem_map, List.forall_mem_map]
  exact ⟨fun _ _ => ⟨rfl, rfl⟩, fun _ _ => ⟨rfl, rfl⟩⟩

theorem distinct_regionRequests : Distinct (regionRequests domain refArray s) := by
  obtain ⟨found, hfound, hnodup, -⟩ := unregisterRegions_found domain refArray ([], s)
  rw [regionRequests, hfound, List.nil_append]
  refine List.pairwise_append.mpr ⟨?_, ?_, fun report _ report' hreport' handle _ => ?_⟩
  · rw [List.pairwise_map]
    refine (List.pairwise_map.mp hnodup).imp fun hne handle hsome hsame => hne ?_
    exact MemHandle.region.inj (Option.some.inj (hsome.trans hsame.symm))
  · rw [List.pairwise_map]
    exact List.pairwise_of_forall fun p p' handle hsome => by cases hsome
  · obtain ⟨p, -, rfl⟩ := List.mem_map.mp hreport'
    exact (Option.some_ne_none handle).symm

/-- The requests with a handle are those for the regions that are found. -/
theorem handle_regionRequests {handle : MemHandle} {addr : UInt64} :
    (∃ report ∈ regionRequests domain refArray s, report.handle = some handle ∧
        report.record.dstAddr = addr) ↔
      ∃ region desc, handle = .region region ∧ .handle region ∈ refArray ∧
        s.regionRangeDesc.lookup region = some desc ∧ desc.ptr = addr := by
  obtain ⟨found, hfound, -, hmem⟩ := unregisterRegions_found domain refArray ([], s)
  rw [regionRequests, hfound, List.nil_append]
  constructor
  · rintro ⟨report, hreport, hhandle, rfl⟩
    cases List.mem_append.mp hreport with
    | inl hregion =>
      obtain ⟨⟨region, desc⟩, hin, rfl⟩ := List.mem_map.mp hregion
      obtain ⟨href, hdesc⟩ := (hmem region desc).mp hin
      exact ⟨region, desc, (Option.some.inj hhandle).symm, href, hdesc, rfl⟩
    | inr hpointer =>
      obtain ⟨p, -, rfl⟩ := List.mem_map.mp hpointer
      cases hhandle
  · rintro ⟨region, desc, rfl, href, hdesc, rfl⟩
    have hin : (region, desc) ∈ found := (hmem region desc).mpr ⟨href, hdesc⟩
    exact ⟨_, List.mem_append_left _ (List.mem_map_of_mem hin), rfl, rfl⟩

/-- The others are those for the addresses. -/
theorem pointer_regionRequests {addr : UInt64} :
    (∃ report ∈ regionRequests domain refArray s, report.handle = none ∧
        report.record.dstAddr = addr) ↔ addr ∈ refArray.filterMap pointerOf := by
  rw [regionRequests]
  constructor
  · rintro ⟨report, hreport, hnone, rfl⟩
    cases List.mem_append.mp hreport with
    | inl hregion =>
      obtain ⟨range, -, rfl⟩ := List.mem_map.mp hregion
      cases hnone
    | inr hpointer =>
      obtain ⟨p, hp, rfl⟩ := List.mem_map.mp hpointer
      exact hp
  · intro hin
    exact ⟨_, List.mem_append_right _ (List.mem_map_of_mem hin), rfl, rfl⟩

end Regions

theorem takesOut_regions (h : History) (domain : Handle)
    (desc : Option MstxMemRegionsUnregisterBatch) :
    TakesOut h (.regionsUnregister domain desc) .mstxRegion (regionRequests domain
      ((refsToUnregister domain desc h.sanitizer.msTx).getD []) h.sanitizer.msTx) := by
  constructor
  case sanitizer => exact call_regionsUnregister h.sanitizer domain desc
  case mstx => exact .inr rfl
  case free => exact free_regionRequests
  case distinct => exact distinct_regionRequests
  case kind =>
    intro report hreport handle hhandle
    obtain ⟨region, -, rfl, -⟩ := handle_regionRequests.mp ⟨report, hreport, hhandle, rfl⟩
    rfl
  case gone =>
    intro handle addr
    rw [handle_regionRequests]
    constructor
    · intro hgone
      cases handle with
      | heap domain' heap' => cases hgone
      | region region =>
        rw [gone] at hgone
        split_ifs at hgone with href
        obtain ⟨rangeDesc, hdesc, haddr⟩ := Option.map_eq_some_iff.mp hgone
        exact ⟨region, rangeDesc, rfl, href, hdesc, haddr⟩
    · rintro ⟨region, rangeDesc, rfl, href, hdesc, rfl⟩
      rw [gone, if_pos href, hdesc]
      rfl
  case pointers => exact fun addr => pointer_regionRequests.symm
  case regions => exact fun _ _ _ => rfl
  case accepted =>
    have hmsTx : (step h (.regionsUnregister domain desc)).sanitizer.msTx =
        (unregisterRegions domain ((refsToUnregister domain desc h.sanitizer.msTx).getD [])
          ([], h.sanitizer.msTx)).2 := by
      change (call h.sanitizer (.regionsUnregister domain desc)).msTx = _
      rw [call_regionsUnregister, foldl_reportFree free_regionRequests, step_regionsUnregister]
    obtain ⟨hheaps, -, hrange, -⟩ := unregisterRegions_eq domain
      ((refsToUnregister domain desc h.sanitizer.msTx).getD []) ([], h.sanitizer.msTx)
    intro handle
    cases handle with
    | heap domain' heap' =>
      rw [accepted, accepted, hmsTx, hheaps]
      rfl
    | region region =>
      rw [accepted, accepted, hmsTx, hrange, gone]
      by_cases href : .handle region ∈ (refsToUnregister domain desc h.sanitizer.msTx).getD []
      · rw [if_pos href, if_pos href]
        cases h.sanitizer.msTx.regionRangeDesc.lookup region with
        | none => rfl
        | some rangeDesc => rfl
      · rw [if_neg href, if_neg href]
        rfl

end Msopcom.MstxReports
