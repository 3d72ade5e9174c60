import Msopcom.BindSanitizer
import Msopcom.MemoryManageFrame

set_option autoImplicit false

/-!
# Open MALLOC records

What the reports leave open for each handle, and what the table of device memory records
holds when it is in step with the handles.
-/
namespace Msopcom.MstxLedger
open BindSanitizer MemoryManage MemoryManageFrame

/-! ## Reports -/

def openStep (handle : MemHandle) (addr : Option UInt64) (report : Report) : Option UInt64 :=
  if report.handle = some handle then
    match report.record.type with
    | .malloc => some report.record.dstAddr
    | .free => none
    | _ => addr
  else addr

/-- The address of the MALLOC record of a handle that no FREE record has closed. -/
def openAddr (handle : MemHandle) (reports : List Report) : Option UInt64 :=
  reports.foldl (openStep handle) none

/-- Every FREE record for a handle closes a MALLOC record with its address. -/
def Matched (reports : List Report) : Prop :=
  ∀ n report handle, reports[n]? = some report → report.handle = some handle →
    report.record.type = .free → openAddr handle (reports.take n) = some report.record.dstAddr

theorem openAddr_append (handle : MemHandle) (reports sent : List Report) :
    openAddr handle (reports ++ sent) = sent.foldl (openStep handle) (openAddr handle reports) :=
  List.foldl_append

theorem openAddr_of_ne {handle : MemHandle} {sent : List Report}
    (h : ∀ report ∈ sent, report.handle ≠ some handle) (reports : List Report) :
    openAddr handle (reports ++ sent) = openAddr handle reports := by
  rw [openAddr_append]
  induction sent using List.reverseRecOn with
  | nil => rfl
  | append_singleton sent report ih =>
    rw [List.foldl_append, ih fun r hr => h r (List.mem_append_left _ hr)]
    exact if_neg (h report (by simp))

theorem matched_nil : Matched [] := by
  intro n report handle hreport
  cases hreport

theorem matched_concat (reports : List Report) (report : Report) :
    Matched (reports ++ [report]) ↔ Matched reports ∧ ∀ handle, report.handle = some handle →
      report.record.type = .free → openAddr handle reports = some report.record.dstAddr := by
  constructor
  · intro h
    refine ⟨fun n r handle hr => ?_, fun handle => ?_⟩
    · have hn : n < reports.length := (List.getElem?_eq_some_iff.mp hr).1
      have := h n r handle (by rw [List.getElem?_append_left hn, hr])
      rwa [List.take_append_of_le_length (by omega)] at this
    · have := h reports.length report handle List.getElem?_concat_length
      rwa [List.take_left] at this
  · rintro ⟨hold, hnew⟩ n r handle hr
    by_cases hn : n < reports.length
    · rw [List.getElem?_append_left hn] at hr
      rw [List.take_append_of_le_length (by omega)]
      exact hold n r handle hr
    · have hlength := (List.getElem?_eq_some_iff.mp hr).1
      rw [List.length_append, List.length_singleton] at hlength
      have hend : n = reports.length := by omega
      rw [hend, List.getElem?_concat_length] at hr
      cases hr
      rw [hend, List.take_left]
      exact hnew handle

theorem matched_append_of_not_free {sent : List Report}
    (hsent : ∀ report ∈ sent, report.record.type ≠ .free) {reports : List Report}
    (h : Matched reports) : Matched (reports ++ sent) := by
  induction sent using List.reverseRecOn with
  | nil => rwa [List.append_nil]
  | append_singleton sent report ih =>
    rw [← List.append_assoc, matched_concat]
    refine ⟨ih fun r hr => hsent r (List.mem_append_left _ hr), fun handle _ hfree => ?_⟩
    exact absurd hfree (hsent report (by simp))

/-! ## FREE records -/

/-- No handle is freed twice. -/
def Distinct (sent : List Report) : Prop :=
  sent.Pairwise fun report report' =>
    ∀ handle, report.handle = some handle → report'.handle ≠ some handle

/-- A FREE record is sent for the handle. -/
def Freed (sent : List Report) (handle : MemHandle) : Prop :=
  ∃ report ∈ sent, report.handle = some handle

instance (sent : List Report) : DecidablePred (Freed sent) :=
  fun handle => inferInstanceAs (Decidable (∃ report ∈ sent, report.handle = some handle))

theorem openAddr_free {sent : List Report} (hfree : ∀ report ∈ sent, report.record.type = .free)
    (handle : MemHandle) (reports : List Report) :
    openAddr handle (reports ++ sent) =
      if Freed sent handle then none else openAddr handle reports := by
  split_ifs with hfreed
  · rw [openAddr_append]
    induction sent using List.reverseRecOn with
    | nil => simp [Freed] at hfreed
    | append_singleton sent report ih =>
      rw [List.foldl_append, List.foldl_cons, List.foldl_nil, openStep]
      by_cases hreport : report.handle = some handle
      · rw [if_pos hreport, hfree report (by simp)]
      · rw [if_neg hreport]
        apply ih fun r hr => hfree r (List.mem_append_left _ hr)
        obtain ⟨r, hr, hhandle⟩ := hfreed
        cases List.mem_append.mp hr with
        | inl hr => exact ⟨r, hr, hhandle⟩
        | inr hr =>
          rw [List.mem_singleton.mp hr] at hhandle
          exact absurd hhandle hreport
  · exact openAddr_of_ne (fun report hreport hhandle => hfreed ⟨report, hreport, hhandle⟩) reports

theorem matched_free_iff {sent : List Report} (hfree : ∀ report ∈ sent, report.record.type = .free)
    (hdistinct : Distinct sent) (reports : List Report) :
    Matched (reports ++ sent) ↔ Matched reports ∧ ∀ report ∈ sent, ∀ handle,
      report.handle = some handle → openAddr handle reports = some report.record.dstAddr := by
  induction sent using List.reverseRecOn with
  | nil => simp
  | append_singleton sent report ih =>
    obtain ⟨hsent, -, hcross⟩ := List.pairwise_append.mp hdistinct
    rw [← List.append_assoc, matched_concat,
      ih (fun r hr => hfree r (List.mem_append_left _ hr)) hsent, and_assoc]
    refine and_congr_right fun _ => ?_
    simp only [List.forall_mem_append, List.forall_mem_singleton]
    refine and_congr_right fun _ => forall_congr' fun handle => forall_congr' fun hhandle => ?_
    rw [imp_iff_right (hfree report (by simp)), openAddr_of_ne]
    intro r hr hsame
    exact hcross r hr report (List.mem_singleton_self _) handle hsame hhandle

theorem reportFree_eq {record : HostMemRecord} (hfree : record.type = .free)
    (handle : Option MemHandle) (device : LocalDevice) (s : Sanitizer) :
    reportFree handle device record s =
      if record.dstAddr = 0 then s
      else
        { s with
          memory := s.memory.cacheFree record.dstAddr record.infoSrc
          reports := s.reports ++ [⟨handle, device, record⟩] } := by
  rw [reportFree, isInvalidMemInfo, hfree]
  by_cases haddr : record.dstAddr = 0
  · simp [haddr]
  · simp [haddr]
    rfl

/-- A record without an address is not sent. -/
def isSent (report : Report) : Bool := report.record.dstAddr ≠ 0

theorem foldl_reportFree {requests : List Report} {src : MemInfoSrc}
    (hfree : ∀ report ∈ requests, report.record.type = .free ∧ report.record.infoSrc = src)
    (s : Sanitizer) :
    requests.foldl (fun s report => reportFree report.handle report.device report.record s) s =
      { s with
        memory := (requests.filter isSent).foldl
          (fun m report => m.cacheFree report.record.dstAddr src) s.memory
        reports := s.reports ++ requests.filter isSent } := by
  induction requests generalizing s with
  | nil => simp
  | cons report requests ih =>
    obtain ⟨htype, hsrc⟩ := hfree report List.mem_cons_self
    rw [List.foldl_cons, ih fun r hr => hfree r (List.mem_cons_of_mem _ hr), reportFree_eq htype,
      hsrc]
    by_cases haddr : report.record.dstAddr = 0
    · rw [if_pos haddr, List.filter_cons_of_neg (by simp [isSent, haddr])]
    · rw [if_neg haddr, List.filter_cons_of_pos (by simp [isSent, haddr])]
      simp

/-! ## Records of heaps and regions -/

def IsMstx (src : MemInfoSrc) : Prop := src = .mstxHeap ∨ src = .mstxRegion

/-- The records of heaps and regions are those of the handles that have one. -/
def Exact (m : MemoryManage) (accepted : MemHandle → Option AddrInfo) : Prop :=
  ∀ info, IsMstx info.memInfoSrc →
    (info ∈ m.memoryOpAddrInfos ↔ ∃ handle, accepted handle = some info)

/-- The records that a FREE record can take out. -/
def recordsAt (m : MemoryManage) (addr : UInt64) (src : MemInfoSrc) : AddrInfoSet :=
  m.memoryOpAddrInfos.filter (matchesFree addr src)

theorem isSameMemInfoSrc_iff_eq {src : MemInfoSrc} (hsrc : IsMstx src) (src' : MemInfoSrc) :
    isSameMemInfoSrc src' src = true ↔ src' = src := by
  cases hsrc with
  | inl h =>
    rw [h]
    cases src' <;> decide
  | inr h =>
    rw [h]
    cases src' <;> decide

theorem mem_recordsAt {src : MemInfoSrc} (hsrc : IsMstx src) {m : MemoryManage} {addr : UInt64}
    {info : AddrInfo} : info ∈ recordsAt m addr src ↔
      info ∈ m.memoryOpAddrInfos ∧ info.addr = addr ∧ info.memInfoSrc = src := by
  rw [OrderedSet.mem_def, recordsAt, OrderedSet.elems_filter, List.mem_filter, matchesFree,
    Bool.and_eq_true, decide_eq_true_eq, isSameMemInfoSrc_iff_eq hsrc, OrderedSet.mem_def]

theorem exact_iff {m : MemoryManage} {accepted : MemHandle → Option AddrInfo} :
    Exact m accepted ↔ ∀ src, IsMstx src → ∀ addr info, info ∈ recordsAt m addr src ↔
      info.addr = addr ∧ info.memInfoSrc = src ∧ ∃ handle, accepted handle = some info := by
  constructor
  · intro h src hsrc addr info
    rw [mem_recordsAt hsrc]
    constructor
    · rintro ⟨hinfo, haddr, rfl⟩
      exact ⟨haddr, rfl, (h info hsrc).mp hinfo⟩
    · rintro ⟨haddr, rfl, hhandle⟩
      exact ⟨(h info hsrc).mpr hhandle, haddr, rfl⟩
  · intro h info hsrc
    have hinfo := h info.memInfoSrc hsrc info.addr info
    rwa [mem_recordsAt hsrc, and_iff_left ⟨rfl, rfl⟩, and_iff_right rfl, and_iff_right rfl] at hinfo

theorem memoryOpAddrInfos_cacheFree (m : MemoryManage) (addr : UInt64) (src : MemInfoSrc) :
    (m.cacheFree addr src).memoryOpAddrInfos =
      m.memoryOpAddrInfos.eraseFirst (matchesFree addr src) :=
  memoryOpAddrInfos_apply m (.free addr src)

theorem recordsAt_cacheFree_self (m : MemoryManage) (addr : UInt64) (src : MemInfoSrc) :
    (recordsAt (m.cacheFree addr src) addr src).elems = (recordsAt m addr src).elems.drop 1 := by
  rw [recordsAt, memoryOpAddrInfos_cacheFree]
  exact OrderedSet.filter_eraseP_self _ _

theorem recordsAt_cacheFree_ne {src src' : MemInfoSrc} (hsrc : IsMstx src) (hsrc' : IsMstx src')
    {addr addr' : UInt64} (hne : addr' ≠ addr ∨ src' ≠ src) (m : MemoryManage) :
    recordsAt (m.cacheFree addr' src') addr src = recordsAt m addr src := by
  rw [recordsAt, memoryOpAddrInfos_cacheFree]
  refine OrderedSet.filter_eraseFirst_of_disjoint fun info hinfo => ?_
  rw [matchesFree, Bool.and_eq_true, decide_eq_true_eq, isSameMemInfoSrc_iff_eq hsrc'] at hinfo
  rw [Bool.eq_false_iff, ne_eq, matchesFree, Bool.and_eq_true, decide_eq_true_eq,
    isSameMemInfoSrc_iff_eq hsrc, hinfo.1, hinfo.2]
  rintro ⟨rfl, rfl⟩
  exact hne.elim (fun h => h rfl) fun h => h rfl

/-- FREE records take out as many records as there are at their address, the smallest first. -/
theorem recordsAt_frees {src : MemInfoSrc} (hsrc : IsMstx src) (addr : UInt64)
    (sent : List Report) (m : MemoryManage) :
    (recordsAt (sent.foldl (fun m report => m.cacheFree report.record.dstAddr src) m)
        addr src).elems =
      (recordsAt m addr src).elems.drop (sent.filter fun r => r.record.dstAddr = addr).length := by
  induction sent generalizing m with
  | nil => rfl
  | cons report sent ih =>
    rw [List.foldl_cons, ih]
    by_cases haddr : report.record.dstAddr = addr
    · rw [haddr, recordsAt_cacheFree_self, List.drop_drop,
        List.filter_cons_of_pos (by simpa using haddr), List.length_cons, Nat.add_comm]
    · rw [recordsAt_cacheFree_ne hsrc hsrc (.inl haddr),
        List.filter_cons_of_neg (by simpa using haddr)]

theorem recordsAt_frees_ne {src src' : MemInfoSrc} (hsrc : IsMstx src) (hsrc' : IsMstx src')
    (hne : src' ≠ src) (addr : UInt64) (sent : List Report) (m : MemoryManage) :
    recordsAt (sent.foldl (fun m report => m.cacheFree report.record.dstAddr src') m) addr src =
      recordsAt m addr src := by
  induction sent generalizing m with
  | nil => rfl
  | cons report sent ih =>
    rw [List.foldl_cons, ih, recordsAt_cacheFree_ne hsrc hsrc' (.inr hne)]

theorem before_iff_length {a b : AddrInfo} (haddr : a.addr = b.addr)
    (hsrc : a.memInfoSrc = b.memInfoSrc) : a.Before b ↔ a.length < b.length := by
  rw [AddrInfo.before_iff, haddr, hsrc, UInt64.lt_iff_toNat_lt]
  omega

/-- A MALLOC record of a handle that had none. -/
theorem Exact.cacheMalloc {m : MemoryManage} {accepted : MemHandle → Option AddrInfo}
    (h : Exact m accepted)
    (hplain : ∀ handle info, accepted handle = some info →
      info.memInfoDesc = .default ∧ info.paramsNo = 0)
    {handle : MemHandle} (hnone : accepted handle = none) (addr size : UInt64)
    (src : MemInfoSrc) :
    Exact (m.cacheMalloc addr src size)
      (Function.update accepted handle (some ⟨addr, size, src, .default, 0⟩)) := by
  intro info hinfo
  have hinsert : info ∈ (m.cacheMalloc addr src size).memoryOpAddrInfos ↔
      info = ⟨addr, size, src, .default, 0⟩ ∨ info ∈ m.memoryOpAddrInfos := by
    refine ⟨OrderedSet.eq_or_mem_of_mem_insert, fun hin => ?_⟩
    cases hin with
    | inr hin => exact OrderedSet.mem_insert_of_mem hin
    | inl heq =>
      have hplace : info ∈ OrderedSet.place AddrInfo.Before info m.memoryOpAddrInfos.elems ∨ _ :=
        OrderedSet.mem_place_or_equiv info m.memoryOpAddrInfos.elems
      cases hplace with
      | inl hin => rwa [heq] at hin ⊢
      | inr hequiv =>
        obtain ⟨b, hb, hbefore, hafter⟩ := hequiv
        obtain ⟨haddr, hlength, hsame⟩ := AddrInfo.eq_of_not_before hbefore hafter
        obtain ⟨handle', hhandle'⟩ := (h b (hsame ▸ hinfo)).mp hb
        obtain ⟨hdesc, hparams⟩ := hplain handle' b hhandle'
        have hbeq : b = info := by
          rw [heq] at haddr hlength hsame ⊢
          cases b
          simp_all
        exact OrderedSet.mem_insert_of_mem (hbeq ▸ hb)
  rw [hinsert, h info hinfo]
  constructor
  · rintro (rfl | ⟨handle', hhandle'⟩)
    · exact ⟨handle, Function.update_self ..⟩
    · have hne : handle' ≠ handle := by
        rintro rfl
        rw [hnone] at hhandle'
        cases hhandle'
      exact ⟨handle', by rw [Function.update_of_ne hne, hhandle']⟩
  · rintro ⟨handle', hhandle'⟩
    by_cases heq : handle' = handle
    · rw [heq, Function.update_self] at hhandle'
      exact .inl (Option.some.inj hhandle').symm
    · rw [Function.update_of_ne heq] at hhandle'
      exact .inr ⟨handle', hhandle'⟩

section Frees
variable {m : MemoryManage} {accepted : MemHandle → Option AddrInfo} {src : MemInfoSrc}
  {sent : List Report}

/-- What the FREE records leave of the handles. -/
def remaining (accepted : MemHandle → Option AddrInfo) (sent : List Report)
    (handle : MemHandle) : Option AddrInfo :=
  if Freed sent handle then none else accepted handle

theorem remaining_eq_some_iff {handle : MemHandle} {info : AddrInfo} :
    remaining accepted sent handle = some info ↔
      ¬ Freed sent handle ∧ accepted handle = some info := by
  rw [remaining]
  split_ifs with hfreed
  · exact iff_of_false (by simp) fun h => h.1 hfreed
  · exact (and_iff_right hfreed).symm

/-- The records of the handles that are freed at an address. -/
def freedAt (accepted : MemHandle → Option AddrInfo) (sent : List Report) (addr : UInt64) :
    List AddrInfo :=
  (sent.filter fun report => report.record.dstAddr = addr).filterMap
    fun report => report.handle.bind accepted

variable (hsrc : IsMstx src) (hexact : Exact m accepted) (hdistinct : Distinct sent)
  (haccepted : ∀ report ∈ sent, ∀ handle, report.handle = some handle → ∃ info,
    accepted handle = some info ∧ info.addr = report.record.dstAddr ∧ info.memInfoSrc = src)
include haccepted

/-- The record of a freed handle is at the address of its FREE record. -/
theorem dstAddr_eq {report : Report} (hreport : report ∈ sent) {handle : MemHandle}
    (hhandle : report.handle = some handle) {info : AddrInfo} (hinfo : accepted handle = some info) :
    info.addr = report.record.dstAddr ∧ info.memInfoSrc = src := by
  obtain ⟨info', hinfo', haddr⟩ := haccepted report hreport handle hhandle
  rw [hinfo] at hinfo'
  cases hinfo'
  exact haddr

theorem src_eq {handle : MemHandle} (hfreed : Freed sent handle) {info : AddrInfo}
    (hinfo : accepted handle = some info) : info.memInfoSrc = src := by
  obtain ⟨report, hreport, hhandle⟩ := hfreed
  exact (dstAddr_eq haccepted hreport hhandle hinfo).2

/-- A FREE record at the address of a freed handle. -/
theorem mem_at_of_freed {handle : MemHandle} (hfreed : Freed sent handle) {info : AddrInfo}
    (hinfo : accepted handle = some info) : ∃ report ∈ sent.filter fun report =>
      report.record.dstAddr = info.addr, report.handle = some handle := by
  obtain ⟨report, hreport, hhandle⟩ := hfreed
  have hdst := (dstAddr_eq haccepted hreport hhandle hinfo).1
  exact ⟨report, List.mem_filter.mpr ⟨hreport, decide_eq_true hdst.symm⟩, hhandle⟩

theorem mem_freedAt_iff {addr : UInt64} {info : AddrInfo} :
    info ∈ freedAt accepted sent addr ↔ info.addr = addr ∧ ∃ handle, Freed sent handle ∧
      accepted handle = some info := by
  rw [freedAt, List.mem_filterMap]
  constructor
  · rintro ⟨report, hreport, hinfo⟩
    obtain ⟨hreport, haddr⟩ := List.mem_filter.mp hreport
    obtain ⟨handle, hhandle, hinfo⟩ := Option.bind_eq_some_iff.mp hinfo
    have hdst := (dstAddr_eq haccepted hreport hhandle hinfo).1
    exact ⟨hdst.trans (of_decide_eq_true haddr), handle, ⟨report, hreport, hhandle⟩, hinfo⟩
  · rintro ⟨rfl, handle, hfreed, hinfo⟩
    obtain ⟨report, hreport, hhandle⟩ := mem_at_of_freed haccepted hfreed hinfo
    exact ⟨report, hreport, Option.bind_eq_some_iff.mpr ⟨handle, hhandle, hinfo⟩⟩

/-- As many records are freed at an address as FREE records are sent unless one is for no
handle. -/
theorem length_freedAt_iff (addr : UInt64) :
    (sent.filter fun report => report.record.dstAddr = addr).length =
        (freedAt accepted sent addr).length ↔
      ∀ report ∈ sent, report.record.dstAddr = addr → report.handle ≠ none := by
  rw [eq_comm, freedAt, List.filterMap_length_eq_length]
  constructor
  · intro h report hreport haddr hnone
    have hsome := h report (List.mem_filter.mpr ⟨hreport, decide_eq_true haddr⟩)
    rw [hnone] at hsome
    cases hsome
  · intro h report hreport
    obtain ⟨hreport, haddr⟩ := List.mem_filter.mp hreport
    obtain ⟨handle, hhandle⟩ :=
      Option.ne_none_iff_exists'.mp (h report hreport (of_decide_eq_true haddr))
    obtain ⟨info, hinfo, -⟩ := haccepted report hreport handle hhandle
    rw [hhandle, Option.bind_some, hinfo]
    rfl

theorem before_freedAt_iff {info : AddrInfo} (hsame : info.memInfoSrc = src) :
    (∀ x ∈ freedAt accepted sent info.addr, x.Before info) ↔
      ∀ handle info', Freed sent handle → accepted handle = some info' →
        info'.addr = info.addr → info'.length < info.length := by
  constructor
  · intro h handle info' hfreed hinfo' haddr
    rw [← before_iff_length haddr ((src_eq haccepted hfreed hinfo').trans hsame.symm)]
    exact h info' ((mem_freedAt_iff haccepted).mpr ⟨haddr, handle, hfreed, hinfo'⟩)
  · intro h info' hin
    obtain ⟨haddr, handle, hfreed, hinfo'⟩ := (mem_freedAt_iff haccepted).mp hin
    rw [before_iff_length haddr ((src_eq haccepted hfreed hinfo').trans hsame.symm)]
    exact h handle info' hfreed hinfo' haddr

include hdistinct in
theorem nodup_freedAt_iff (addr : UInt64) :
    (freedAt accepted sent addr).Nodup ↔
      ∀ handle info, Freed sent handle → accepted handle = some info → info.addr = addr →
        ∀ handle', Freed sent handle' → accepted handle' = some info → handle' = handle := by
  rw [freedAt, List.Nodup, List.pairwise_filterMap]
  constructor
  · rintro h handle info hfreed hinfo rfl handle' hfreed' hinfo'
    obtain ⟨report, hreport, hhandle⟩ := mem_at_of_freed haccepted hfreed hinfo
    obtain ⟨report', hreport', hhandle'⟩ := mem_at_of_freed haccepted hfreed' hinfo'
    by_contra hne
    have hdiffer : report ≠ report' := by
      rintro rfl
      rw [hhandle] at hhandle'
      exact hne (Option.some.inj hhandle').symm
    -- two reports with one record would stand in the list twice
    have hsymm : Std.Symm fun r r' : Report => ∀ b, r.handle.bind accepted = some b →
        ∀ b', r'.handle.bind accepted = some b' → b ≠ b' :=
      ⟨fun r r' hr b' hb' b hb => (hr b hb b' hb').symm⟩
    exact h.forall hreport hreport' hdiffer info
      (Option.bind_eq_some_iff.mpr ⟨handle, hhandle, hinfo⟩) info
      (Option.bind_eq_some_iff.mpr ⟨handle', hhandle', hinfo'⟩) rfl
  · intro h
    refine (hdistinct.sublist List.filter_sublist).imp_of_mem ?_
    rintro report report' hreport hreport' hdiffer info hinfo _ hinfo' rfl
    obtain ⟨handle, hhandle, hinfo⟩ := Option.bind_eq_some_iff.mp hinfo
    obtain ⟨handle', hhandle', hinfo'⟩ := Option.bind_eq_some_iff.mp hinfo'
    obtain ⟨hreport, haddr⟩ := List.mem_filter.mp hreport
    have hdst := (dstAddr_eq haccepted hreport hhandle hinfo).1
    have hequal := h handle info ⟨report, hreport, hhandle⟩ hinfo
      (hdst.trans (of_decide_eq_true haddr)) handle'
      ⟨report', (List.mem_filter.mp hreport').1, hhandle'⟩ hinfo'
    exact hdiffer handle hhandle (hequal ▸ hhandle')

include hsrc hexact

theorem mem_recordsAt_iff {addr : UInt64} (info : AddrInfo) : info ∈ recordsAt m addr src ↔
    info ∈ freedAt accepted sent addr ∨ info.addr = addr ∧ info.memInfoSrc = src ∧
      ∃ handle, remaining accepted sent handle = some info := by
  rw [exact_iff.mp hexact src hsrc, mem_freedAt_iff haccepted]
  constructor
  · rintro ⟨haddr, hsame, handle, hinfo⟩
    by_cases hfreed : Freed sent handle
    · exact .inl ⟨haddr, handle, hfreed, hinfo⟩
    · exact .inr ⟨haddr, hsame, handle, remaining_eq_some_iff.mpr ⟨hfreed, hinfo⟩⟩
  · rintro (⟨haddr, handle, hfreed, hinfo⟩ | ⟨haddr, hsame, handle, hinfo⟩)
    · exact ⟨haddr, src_eq haccepted hfreed hinfo, handle, hinfo⟩
    · exact ⟨haddr, hsame, handle, (remaining_eq_some_iff.mp hinfo).2⟩

/-- After the FREE records, what is left at each address has to be what they do not free. -/
theorem exact_frees_iff_dropped :
    Exact (sent.foldl (fun m report => m.cacheFree report.record.dstAddr src) m)
        (remaining accepted sent) ↔
      ∀ addr info, info ∈ (recordsAt m addr src).elems.drop
          (sent.filter fun report => report.record.dstAddr = addr).length ↔
        info.addr = addr ∧ info.memInfoSrc = src ∧
          ∃ handle, remaining accepted sent handle = some info := by
  rw [exact_iff]
  constructor
  · intro h addr info
    rw [← recordsAt_frees hsrc]
    exact h src hsrc addr info
  · intro h src' hsrc' addr info
    by_cases hsame : src' = src
    · rw [hsame, OrderedSet.mem_def, recordsAt_frees hsrc]
      exact h addr info
    · rw [recordsAt_frees_ne hsrc' hsrc (Ne.symm hsame), exact_iff.mp hexact src' hsrc']
      refine and_congr_right fun _ => and_congr_right fun hinfo => exists_congr fun handle => ?_
      rw [remaining_eq_some_iff]
      refine (and_iff_right_of_imp fun hhandle hfreed => ?_).symm
      exact hsame (hinfo.symm.trans (src_eq haccepted hfreed hhandle))

include hdistinct

/-- FREE records leave the records of the handles that stay exactly when, at the address of
such a record, each one is for a handle, whose record is smaller and that of no other one. -/
theorem exact_frees_iff :
    Exact (sent.foldl (fun m report => m.cacheFree report.record.dstAddr src) m)
        (remaining accepted sent) ↔
      ∀ kept info, ¬ Freed sent kept → accepted kept = some info → info.memInfoSrc = src →
        (∀ report ∈ sent, report.record.dstAddr = info.addr → report.handle ≠ none) ∧
        ∀ handle info', Freed sent handle → accepted handle = some info' →
          info'.addr = info.addr → info'.length < info.length ∧ ∀ handle', Freed sent handle' →
            accepted handle' = some info' → handle' = handle := by
  have hdrop : ∀ addr, (∀ info, info ∈ (recordsAt m addr src).elems.drop
      (sent.filter fun report => report.record.dstAddr = addr).length ↔
        info.addr = addr ∧ info.memInfoSrc = src ∧
          ∃ handle, remaining accepted sent handle = some info) ↔ _ := fun addr =>
    OrderedSet.mem_drop_iff (mem_recordsAt_iff hsrc hexact haccepted)
      (List.length_filterMap_le _ _)
  rw [exact_frees_iff_dropped hsrc hexact haccepted, forall_congr' hdrop]
  constructor
  · intro h kept info hkept hinfo hsame
    obtain ⟨hlength, hnodup, hbefore⟩ :=
      h info.addr info ⟨rfl, hsame, kept, remaining_eq_some_iff.mpr ⟨hkept, hinfo⟩⟩
    refine ⟨(length_freedAt_iff haccepted _).mp hlength,
      fun handle info' hfreed hinfo' haddr => ⟨?_, ?_⟩⟩
    · exact (before_freedAt_iff haccepted hsame).mp hbefore handle info' hfreed hinfo' haddr
    · exact (nodup_freedAt_iff hdistinct haccepted _).mp hnodup handle info' hfreed hinfo' haddr
  · rintro h _ info ⟨rfl, hsame, kept, hkept⟩
    obtain ⟨hkept, hinfo⟩ := remaining_eq_some_iff.mp hkept
    obtain ⟨hhandles, hfreed⟩ := h kept info hkept hinfo hsame
    refine ⟨(length_freedAt_iff haccepted _).mpr hhandles,
      (nodup_freedAt_iff hdistinct haccepted _).mpr ?_,
      (before_freedAt_iff haccepted hsame).mpr ?_⟩
    · exact fun handle info' hin hinfo' haddr => (hfreed handle info' hin hinfo' haddr).2
    · exact fun handle info' hin hinfo' haddr => (hfreed handle info' hin hinfo' haddr).1

end Frees

end Msopcom.MstxLedger
