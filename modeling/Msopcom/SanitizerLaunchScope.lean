import Msopcom.ReportOpUndo
import Msopcom.Runs
import Msopcom.SanitizerLaunch
import Msopcom.Words

set_option autoImplicit false

/-!
# Records of a launch end with the launch

A run of launches and of the application's own calls leaves the table as the
application's calls alone would, as long as no launch registers its records and
then fails to initialise, or leaves one of them without a matching free.
-/
namespace Msopcom.SanitizerLaunchScope
open MemoryManage MemoryManageFrame ReportOpUndo

section Calls

def sectionMallocs (pcStartAddr : UInt64) (sections : List Elf64Shdr) : List MemoryOp :=
  if pcStartAddr = 0 then []
  else sections.map fun h => .malloc (pcStartAddr + h.shAddr) .bypass h.shSize true

def sectionKeys (pcStartAddr : UInt64) (sections : List Elf64Shdr) : List Key :=
  if pcStartAddr = 0 then []
  else (sections.filter fun h => !(pcStartAddr > uint64Max - h.shAddr)).map fun h =>
    (pcStartAddr + h.shAddr, .bypass)

def overflowKeys (o : OpMemInfo) : List Key :=
  if !o.hasOverflowAddr || o.overflowAddr = 0 then [] else [(o.overflowAddr, .bypass)]

def paraBaseKeys (paraBases : List ParaBaseRegister) : List Key :=
  ((paraBases.find? fun info => info.addr ≠ illegalAddr && info.size ≠ 0).map fun info =>
    (info.addr, MemInfoSrc.bypass)).toList

def announceOps (o : OpMemInfo) : List MemoryOp :=
  .count (UInt32.ofNat (o.inputParamsAddrInfos.length + 1)) ::
    (o.inputParamsAddrInfos.take 1).map fun it => .malloc 0 it.memInfoSrc 0 false

def freesOf (keys : List Key) : List MemoryOp := keys.map fun k => .free k.1 k.2

theorem freesOf_append (ks ls : List Key) : freesOf (ks ++ ls) = freesOf ks ++ freesOf ls :=
  List.map_append

theorem manage_reportSectionsMalloc (r : Reporter) (pcStartAddr : UInt64)
    (sections : List Elf64Shdr) :
    (reportSectionsMalloc r pcStartAddr sections).manage =
      (sectionMallocs pcStartAddr sections).foldl MemoryOp.apply r.manage := by
  unfold reportSectionsMalloc sectionMallocs
  split_ifs
  · rfl
  · induction sections generalizing r with
    | nil => rfl
    | cons h sections ih =>
      rw [List.foldl_cons, ih]
      rfl

theorem manage_reportSectionsFree (r : Reporter) (pcStartAddr : UInt64)
    (sections : List Elf64Shdr) :
    (reportSectionsFree r pcStartAddr sections).manage =
      (freesOf (sectionKeys pcStartAddr sections)).foldl MemoryOp.apply r.manage := by
  unfold reportSectionsFree sectionKeys
  split_ifs
  · rfl
  · induction sections generalizing r with
    | nil => rfl
    | cons h sections ih =>
      rw [List.foldl_cons, ih]
      by_cases hout : pcStartAddr > uint64Max - h.shAddr
      · rw [if_pos hout, List.filter_cons_of_neg (by simpa using hout)]
      · rw [if_neg hout, List.filter_cons_of_pos (by simpa using hout)]
        rfl

theorem manage_reportOverflowMalloc (r : Reporter) (o : OpMemInfo) :
    (reportOverflowMalloc r o).manage = ((overflowKeys o).map fun k =>
      MemoryOp.malloc k.1 k.2 overflowBufSize true).foldl MemoryOp.apply r.manage := by
  unfold reportOverflowMalloc overflowKeys
  split_ifs <;> rfl

theorem manage_reportOverflowFree (r : Reporter) (o : OpMemInfo) :
    (reportOverflowFree r o).manage = (freesOf (overflowKeys o)).foldl MemoryOp.apply r.manage := by
  unfold reportOverflowFree overflowKeys
  split_ifs <;> rfl

theorem announceOp_eq (m : MemoryManage) (o : OpMemInfo) :
    announceOp m o = (announceOps o).foldl MemoryOp.apply m := by
  unfold announceOp announceOps
  cases o.inputParamsAddrInfos <;> rfl

/-- The parameter base is allocated and freed within the walk over the blocks. -/
theorem manage_sanitizerFinalize (r : Reporter) (paraBases : List ParaBaseRegister) :
    ∃ sizes : Key → UInt64, (sanitizerFinalize r paraBases).manage =
      (((paraBaseKeys paraBases).map fun k => MemoryOp.malloc k.1 k.2 (sizes k) true) ++
        freesOf (paraBaseKeys paraBases)).foldl MemoryOp.apply r.manage := by
  unfold sanitizerFinalize paraBaseKeys
  cases paraBases.find? fun info => info.addr ≠ illegalAddr && info.size ≠ 0 with
  | none => exact ⟨fun _ => 0, rfl⟩
  | some info => exact ⟨fun _ => info.size, rfl⟩

end Calls

/-- The records the operator brings along, whatever the table holds. -/
def opRecords (ctx : KernelContext) (argsInfo : RtArgsEx) (o : OpMemInfo) : List AddrInfo :=
  (reportOpMallocInfo ctx (some argsInfo) ⟨.reset, []⟩ o).2.uniqueAddrInfos

theorem reportOpMallocInfo_keeps (ctx : KernelContext) (argsInfo : RtArgsEx) (r : Reporter)
    (o : OpMemInfo) :
    (reportOpMallocInfo ctx (some argsInfo) r o).2.uniqueAddrInfos = opRecords ctx argsInfo o ∧
    overflowKeys (reportOpMallocInfo ctx (some argsInfo) r o).2 = overflowKeys o := by
  unfold opRecords
  cases hargs : argsInfo.args with
  | none => simp only [reportOpMallocInfo, hargs, and_self]
  | some buff =>
    simp only [reportOpMallocInfo, hargs]
    by_cases htiling : argsInfo.hasTiling = 0
    · simp only [if_pos htiling]
      exact ⟨trivial, rfl⟩
    · by_cases hsize : argsInfo.argsSize < argsInfo.tilingDataOffset
      · simp only [if_neg htiling, if_pos hsize]
        exact ⟨trivial, rfl⟩
      · simp only [if_neg htiling, if_neg hsize]
        exact ⟨rfl, rfl⟩

/-- The launches that store their records: neither skipped nor sunk, with arguments,
a launch event and a readable binary. -/
def Launch.registered (l : Launch) : Option (RtArgsEx × UInt64 × List Elf64Shdr) :=
  match l.argsInfo, l.pcStartAddr, l.headers with
  | some argsInfo, some pcStartAddr, some headers =>
    if l.skipSanitizer || l.isSink then none
    else some (argsInfo, pcStartAddr, getAllocSectionHeaders headers)
  | _, _, _ => none

/-- The keys under which a registered launch frees its records, in order. -/
def ownKeys (ctx : KernelContext) (l : Launch) (argsInfo : RtArgsEx) (pcStartAddr : UInt64)
    (sections : List Elf64Shdr) : List Key :=
  paraBaseKeys l.paraBases ++ (sectionKeys pcStartAddr sections ++
    (overflowKeys l.opMemInfo ++ (opRecords ctx argsInfo l.opMemInfo).map keyOf))

theorem launchKernel_unregistered (ctx : KernelContext) (r : Reporter) (l : Launch)
    (h : Launch.registered l = none) : launchKernel ctx r l = r := by
  obtain ⟨argsInfo, skip, sink, pc, headers, o, memInfo, paraBases⟩ := l
  cases argsInfo with
  | none => rfl
  | some argsInfo =>
    cases skip with
    | true => simp [launchKernel, sanitizerPost, sanitizerPre]
    | false =>
      cases sink with
      | true => simp [launchKernel, sanitizerPost, sanitizerPre]
      | false =>
        cases pc with
        | none => simp [launchKernel, sanitizerPost, sanitizerPre]
        | some pc =>
          cases headers with
          | none => simp [launchKernel, sanitizerPost, sanitizerPre]
          | some headers => simp [Launch.registered] at h

section Registered
variable (ctx : KernelContext) {l : Launch} {argsInfo : RtArgsEx} {pcStartAddr : UInt64}
  {sections : List Elf64Shdr}

theorem registered_cases (h : Launch.registered l = some (argsInfo, pcStartAddr, sections)) :
    ∃ headers, l = ⟨some argsInfo, false, false, some pcStartAddr, some headers, l.opMemInfo,
      l.memInfo, l.paraBases⟩ ∧ getAllocSectionHeaders headers = sections := by
  obtain ⟨args, skip, sink, pc, headers, o, memInfo, paraBases⟩ := l
  cases args with
  | none => simp [Launch.registered] at h
  | some args =>
  cases pc with
  | none => simp [Launch.registered] at h
  | some pc =>
  cases headers with
  | none => simp [Launch.registered] at h
  | some headers =>
  cases skip with
  | true => simp [Launch.registered] at h
  | false =>
  cases sink with
  | true => simp [Launch.registered] at h
  | false =>
  simp only [Launch.registered, Bool.or_self, Bool.false_eq_true, if_false, Option.some.injEq,
    Prod.mk.injEq] at h
  obtain ⟨rfl, rfl, rfl⟩ := h
  exact ⟨headers, rfl, rfl⟩

/-- The operator's own records are stored, or nothing is. -/
theorem reportOpMallocInfo_mallocs (argsInfo : RtArgsEx) (r : Reporter) (o : OpMemInfo) :
    ∃ infos : List AddrInfo, (infos = [] ∨ infos.Perm (opRecords ctx argsInfo o)) ∧
      (reportOpMallocInfo ctx (some argsInfo) r o).1.manage =
        (infos.map mallocOf).foldl MemoryOp.apply r.manage := by
  cases reports_launch ctx (.rtArgsEx (some argsInfo)) r o with
  | inl hnone =>
    refine ⟨[], Or.inl rfl, ?_⟩
    rw [show reportOpMallocInfo ctx (some argsInfo) r o = (r, o) from hnone]
    rfl
  | inr hinfos =>
    obtain ⟨infos, hperm, hmanage⟩ := hinfos
    refine ⟨infos, Or.inr ?_, hmanage⟩
    rw [← (reportOpMallocInfo_keeps ctx argsInfo r o).1]
    exact hperm

/-- A registered launch with a buffer is a run of allocations and then of frees. -/
theorem manage_launchKernel (h : Launch.registered l = some (argsInfo, pcStartAddr, sections))
    (hinit : l.memInfo.isSome) (r : Reporter) :
    ∃ mallocs : List MemoryOp,
      (launchKernel ctx r l).manage =
        ((freesOf (ownKeys ctx l argsInfo pcStartAddr sections)).foldl MemoryOp.apply
          (mallocs.foldl MemoryOp.apply r.manage)).updateMemoryOp ∧
      ∃ (infos : List AddrInfo) (sizes : Key → UInt64),
        (infos = [] ∨ infos.Perm (opRecords ctx argsInfo l.opMemInfo)) ∧
        mallocs = sectionMallocs pcStartAddr sections ++
          (((overflowKeys l.opMemInfo).map fun k => .malloc k.1 k.2 overflowBufSize true) ++
            (announceOps l.opMemInfo ++ (infos.map mallocOf ++
              ((paraBaseKeys l.paraBases).map fun k => .malloc k.1 k.2 (sizes k) true)))) := by
  obtain ⟨headers, hl, rfl⟩ := registered_cases h
  obtain ⟨p, hp⟩ := Option.isSome_iff_exists.mp hinit
  rw [hp] at hl
  rw [hl]
  generalize l.opMemInfo = o
  generalize l.paraBases = paraBases
  let stored :=
    reportOverflowMalloc (reportSectionsMalloc r pcStartAddr (getAllocSectionHeaders headers)) o
  let announced : Reporter := { stored with manage := announceOp stored.manage o }
  let launch := reportOpMallocInfo ctx (some argsInfo) announced o
  obtain ⟨hrecords, hoverflow⟩ := reportOpMallocInfo_keeps ctx argsInfo announced o
  obtain ⟨sizes, hfinalize⟩ := manage_sanitizerFinalize launch.1 paraBases
  obtain ⟨infos, hinfos, hmanage⟩ := reportOpMallocInfo_mallocs ctx argsInfo announced o
  refine ⟨_, ?_, infos, sizes, hinfos, rfl⟩
  change (reportOpFreeInfo (reportOverflowFree (reportSectionsFree
    (sanitizerFinalize launch.1 paraBases) pcStartAddr (getAllocSectionHeaders headers)) launch.2)
      launch.2).1.manage = _
  rw [manage_reportOpFreeInfo, manage_reportOverflowFree, manage_reportSectionsFree, hfinalize,
    hmanage]
  change (List.foldl MemoryOp.apply _
    (freesOf ((reportOpMallocInfo ctx (some argsInfo) announced o).2.uniqueAddrInfos.map keyOf))
    ).updateMemoryOp = _
  rw [hrecords]
  change (List.foldl MemoryOp.apply (List.foldl MemoryOp.apply _
    (freesOf (overflowKeys (reportOpMallocInfo ctx (some argsInfo) announced o).2))) _).updateMemoryOp = _
  rw [hoverflow]
  change (List.foldl MemoryOp.apply (List.foldl MemoryOp.apply (List.foldl MemoryOp.apply
    (List.foldl MemoryOp.apply (List.foldl MemoryOp.apply
      (announceOp (reportOverflowMalloc _ o).manage o) _) _) _) _) _).updateMemoryOp = _
  rw [announceOp_eq, manage_reportOverflowMalloc, manage_reportSectionsMalloc]
  simp only [ownKeys, freesOf_append, List.foldl_append]

end Registered

section Balance

theorem countP_allocates_keys (k : Key) (keys : List Key) (sizes : Key → UInt64) :
    (keys.map fun l => MemoryOp.malloc l.1 l.2 (sizes l) true).countP (allocates k) =
      keys.countP (sameKey k) := by
  rw [List.countP_map]
  congr 1
  funext l
  exact sameKey_comm _ _

theorem countP_allocates_announce {k : Key} (hk : k.1 ≠ 0) (o : OpMemInfo) :
    (announceOps o).countP (allocates k) = 0 := by
  rw [List.countP_eq_zero]
  intro op hop hall
  rcases List.mem_cons.mp hop with rfl | hop
  · exact absurd hall (by simp [allocates])
  · obtain ⟨it, -, rfl⟩ := List.mem_map.mp hop
    exact hk ((sameKey_iff _ _).mp hall).1.symm

/-- A section is left behind only where its address passes the end of the address space. -/
theorem countP_allocates_sections {k : Key} (hk : k.1 ≠ 0) {pcStartAddr : UInt64}
    {sections : List Elf64Shdr}
    (hfit : ∀ h ∈ sections, pcStartAddr.toNat + h.shAddr.toNat ≤ 2 ^ 64) :
    (sectionMallocs pcStartAddr sections).countP (allocates k) ≤
      (sectionKeys pcStartAddr sections).countP (sameKey k) := by
  unfold sectionMallocs sectionKeys
  split_ifs
  · exact le_refl _
  · induction sections with
    | nil => exact le_refl _
    | cons h sections ih =>
      rw [List.forall_mem_cons] at hfit
      have hrest := ih hfit.2
      by_cases hout : pcStartAddr > uint64Max - h.shAddr
      · have hlt := h.shAddr.toNat_lt
        have hmax : (uint64Max - h.shAddr).toNat = 2 ^ 64 - 1 - h.shAddr.toNat :=
          Words.toNat_sub64 (show h.shAddr.toNat ≤ 2 ^ 64 - 1 by omega)
        have hsum : pcStartAddr.toNat + h.shAddr.toNat = 2 ^ 64 := by
          rw [gt_iff_lt, UInt64.lt_iff_toNat_lt, hmax] at hout
          omega
        have hzero : pcStartAddr + h.shAddr = 0 := by
          rw [← UInt64.toNat_inj, UInt64.toNat_add, hsum]
          rfl
        have hno : allocates k (.malloc (pcStartAddr + h.shAddr) .bypass h.shSize true) = false := by
          rw [allocates, hzero, sameKey, Bool.and_eq_false_iff]
          exact Or.inl (decide_eq_false fun h0 => hk h0.symm)
        rw [List.filter_cons_of_neg (by simpa using hout), List.map_cons,
          List.countP_cons_of_neg (by simp [hno])]
        exact hrest
      · rw [List.filter_cons_of_pos (by simpa using hout), List.map_cons, List.map_cons,
          List.countP_cons, List.countP_cons, allocates, sameKey_comm]
        omega

end Balance

section Scope

def Stores : MemoryOp → Prop
  | .malloc _ _ _ _ => True
  | .free _ _ => False
  | .count _ => True
  | .update => False

theorem stores_sections (pcStartAddr : UInt64) (sections : List Elf64Shdr) :
    ∀ op ∈ sectionMallocs pcStartAddr sections, Stores op := by
  unfold sectionMallocs
  split_ifs
  · simp
  · simp only [List.forall_mem_map]
    exact fun _ _ => trivial

theorem stores_announce (o : OpMemInfo) : ∀ op ∈ announceOps o, Stores op := by
  rw [announceOps, List.forall_mem_cons, List.forall_mem_map]
  exact ⟨trivial, fun _ _ => trivial⟩

def nullKeys : List Key :=
  [.bypass, .hal, .rt, .acl, .extra, .manual, .mstxHeap, .mstxRegion].map fun src => (0, src)

theorem touches_nullKeys (k : Key) : touches nullKeys k = true ↔ k.1 = 0 := by
  obtain ⟨addr, src⟩ := k
  constructor
  · intro h
    obtain ⟨l, hl, hsame⟩ := List.any_eq_true.mp h
    obtain ⟨src', -, rfl⟩ := List.mem_map.mp hl
    exact ((sameKey_iff _ _).mp hsame).1
  · rintro rfl
    refine List.any_eq_true.mpr ⟨(0, src), ?_, sameKey_refl _⟩
    cases src <;> decide

theorem touches_append (ks ls : List Key) (k : Key) :
    touches (ks ++ ls) k = (touches ks k || touches ls k) := List.any_append

theorem touches_of_countP {keys : List Key} {k : Key} (h : 0 < keys.countP (sameKey k)) :
    touches keys k = true := by
  obtain ⟨l, hl, hsame⟩ := List.countP_pos_iff.mp h
  exact List.any_eq_true.mpr ⟨l, hl, hsame⟩

variable {ops : List MemoryOp} {keys : List Key} {s : AddrInfoSet}

theorem owned_stores (hstores : ∀ op ∈ ops, Stores op)
    (hcount : ∀ k : Key, k.1 ≠ 0 → ops.countP (allocates k) ≤ keys.countP (sameKey k)) :
    ∀ op ∈ ops, Owned (nullKeys ++ keys) op := by
  intro op hop
  have hop' := hstores op hop
  cases op with
  | malloc addr infoSrc size upd =>
    change touches (nullKeys ++ keys) (addr, infoSrc) = true
    rw [touches_append, Bool.or_eq_true]
    by_cases hzero : addr = 0
    · exact Or.inl ((touches_nullKeys _).mpr hzero)
    · have hpos : 0 < ops.countP (allocates (addr, infoSrc)) :=
        List.countP_pos_iff.mpr ⟨_, hop, sameKey_refl _⟩
      have hle := hcount (addr, infoSrc) hzero
      exact Or.inr (touches_of_countP (by omega))
  | free => exact hop'.elim
  | count => trivial
  | update => exact hop'.elim

/-- Nothing is left under a key that was clear before and is freed as often as stored. -/
theorem no_pending_after {k : Key} (hk : k ∈ keys) (hk0 : k.1 ≠ 0)
    (hcount : ∀ k : Key, k.1 ≠ 0 → ops.countP (allocates k) ≤ keys.countP (sameKey k))
    (hclear : ∀ it ∈ s, touches keys (keyOf it) = false) :
    pending k ((freesOf keys).foldl applySet (ops.foldl applySet s)) = 0 := by
  have hs : pending k s = 0 := by
    rw [no_pending_iff]
    intro x hx
    have hx := hclear x hx
    rw [touches, List.any_eq_false] at hx
    exact Bool.not_eq_true _ |>.mp (hx k hk)
  have hbalance := pending_balance k ops keys s
  have hle := hcount k hk0
  change pending k (((keys.map fun l => MemoryOp.free l.1 l.2).foldl applySet _)) = 0
  omega

theorem addr_ne_zero_of_valid {it : AddrInfo} (hit : isValidMem it = true) : it.addr ≠ 0 := by
  rw [isValidMem, Bool.and_eq_true, decide_eq_true_eq] at hit
  exact hit.1

/-- Stored records that are freed as often as they are stored are gone once the
null addresses are swept. -/
theorem scope (hstores : ∀ op ∈ ops, Stores op)
    (hcount : ∀ k : Key, k.1 ≠ 0 → ops.countP (allocates k) ≤ keys.countP (sameKey k))
    (hvalid : ∀ it ∈ s, isValidMem it = true)
    (hclear : ∀ it ∈ s, touches keys (keyOf it) = false) :
    ((freesOf keys).foldl applySet (ops.foldl applySet s)).filter isValidMem = s := by
  have hfrees : ∀ op ∈ freesOf keys, Owned (nullKeys ++ keys) op := by
    intro op hop
    obtain ⟨k, hk, rfl⟩ := List.mem_map.mp hop
    exact List.any_eq_true.mpr ⟨k, List.mem_append_right _ hk, sameKey_refl _⟩
  generalize hT : (freesOf keys).foldl applySet (ops.foldl applySet s) = T
  have hframe : untouched (nullKeys ++ keys) T = untouched (nullKeys ++ keys) s := by
    rw [← hT, untouched_run_owned hfrees, untouched_run_owned (owned_stores hstores hcount)]
  have hgone : ∀ it ∈ T, isValidMem it = true → touches (nullKeys ++ keys) (keyOf it) = false := by
    intro it hit hv
    rw [touches_append, Bool.or_eq_false_iff]
    refine ⟨?_, ?_⟩
    · rw [← Bool.not_eq_true, touches_nullKeys]
      exact addr_ne_zero_of_valid hv
    · rw [touches, List.any_eq_false]
      intro k hk hsame
      have hk0 : k.1 ≠ 0 := by
        rw [← ((sameKey_iff _ _).mp hsame).1]
        exact addr_ne_zero_of_valid hv
      have hT0 : pending k T = 0 := by
        rw [← hT]
        exact no_pending_after hk hk0 hcount hclear
      rw [no_pending_iff.mp hT0 it hit] at hsame
      exact Bool.false_ne_true hsame
  have hs : untouched (nullKeys ++ keys) s = s := by
    refine OrderedSet.ext_elems (List.filter_eq_self.mpr fun it hit => ?_)
    rw [Bool.not_eq_true', touches_append, hclear it hit, Bool.or_false, ← Bool.not_eq_true,
      touches_nullKeys]
    exact addr_ne_zero_of_valid (hvalid it hit)
  refine OrderedSet.ext_elems ?_
  have helems : s.elems = T.elems.filter fun it => !touches (nullKeys ++ keys) (keyOf it) := by
    have heq := congrArg OrderedSet.elems (hframe.trans hs)
    exact heq.symm
  have hfilter : s.elems.filter isValidMem = s.elems := List.filter_eq_self.mpr hvalid
  rw [OrderedSet.elems_filter, ← hfilter, helems, List.filter_filter]
  refine List.filter_congr fun it hit => ?_
  cases hv : isValidMem it with
  | false => rfl
  | true => rw [hgone it hit hv]; rfl

end Scope

/-- What a launch needs to leave the table alone: it stores nothing and the count is
right already, or its buffer is there, its sections end within the address space,
and the records held before are whole and free of its keys. -/
def Admits (ctx : KernelContext) (r : Reporter) (l : Launch) : Prop :=
  match Launch.registered l with
  | none => r.manage.mallocCount = UInt32.ofNat r.manage.memoryOpAddrInfos.size
  | some (argsInfo, pcStartAddr, sections) =>
    l.memInfo.isSome ∧
    (∀ h ∈ sections, pcStartAddr.toNat + h.shAddr.toNat ≤ 2 ^ 64) ∧
    ∀ it ∈ r.manage.memoryOpAddrInfos, isValidMem it = true ∧
      touches (ownKeys ctx l argsInfo pcStartAddr sections) (keyOf it) = false

instance (ctx : KernelContext) (r : Reporter) (l : Launch) : Decidable (Admits ctx r l) :=
  match h : Launch.registered l with
  | none =>
    decidable_of_iff (r.manage.mallocCount = UInt32.ofNat r.manage.memoryOpAddrInfos.size)
      (by simp only [Admits, h])
  | some (argsInfo, pcStartAddr, sections) =>
    decidable_of_iff (l.memInfo.isSome ∧
      (∀ h ∈ sections, pcStartAddr.toNat + h.shAddr.toNat ≤ 2 ^ 64) ∧
      ∀ it ∈ r.manage.memoryOpAddrInfos.elems, isValidMem it = true ∧
        touches (ownKeys ctx l argsInfo pcStartAddr sections) (keyOf it) = false)
      (by simp only [Admits, h]; rfl)

theorem launchKernel_leaves_nothing (ctx : KernelContext) (r : Reporter) (l : Launch)
    (h : Admits ctx r l) :
    (launchKernel ctx r l).manage.memoryOpAddrInfos = r.manage.memoryOpAddrInfos ∧
    (launchKernel ctx r l).manage.mallocCount =
      UInt32.ofNat (launchKernel ctx r l).manage.memoryOpAddrInfos.size := by
  unfold Admits at h
  cases hreg : Launch.registered l with
  | none =>
    rw [hreg] at h
    rw [launchKernel_unregistered ctx r l hreg]
    exact ⟨rfl, h⟩
  | some reg =>
    obtain ⟨argsInfo, pcStartAddr, sections⟩ := reg
    rw [hreg] at h
    obtain ⟨hinit, hfit, htable⟩ := h
    obtain ⟨mallocs, hmanage, infos, sizes, hinfos, hmallocs⟩ :=
      manage_launchKernel ctx hreg hinit r
    have hstores : ∀ op ∈ mallocs, Stores op := by
      rw [hmallocs]
      simp only [List.forall_mem_append, List.forall_mem_map]
      exact ⟨stores_sections _ _, fun _ _ => trivial, stores_announce _, fun _ _ => trivial,
        fun _ _ => trivial⟩
    have hcount : ∀ k : Key, k.1 ≠ 0 → mallocs.countP (allocates k) ≤
        (ownKeys ctx l argsInfo pcStartAddr sections).countP (sameKey k) := by
      intro k hk
      have hsections := countP_allocates_sections hk hfit
      have hinfos' : (infos.map mallocOf).countP (allocates k) ≤
          ((opRecords ctx argsInfo l.opMemInfo).map keyOf).countP (sameKey k) := by
        rw [countP_allocates_mallocs]
        rcases hinfos with rfl | hperm
        · exact Nat.zero_le _
        · exact ((hperm.map keyOf).countP_eq _).le
      rw [hmallocs]
      simp only [ownKeys, List.countP_append, countP_allocates_announce hk, countP_allocates_keys]
      omega
    have hset := scope hstores hcount (fun it hit => (htable it hit).1)
      (fun it hit => (htable it hit).2)
    have hfinal : (launchKernel ctx r l).manage.memoryOpAddrInfos = r.manage.memoryOpAddrInfos := by
      rw [hmanage]
      change (MemoryManage.memoryOpAddrInfos _).filter isValidMem = _
      rw [memoryOpAddrInfos_run, memoryOpAddrInfos_run, hset]
    refine ⟨hfinal, ?_⟩
    rw [hmanage]
    rfl

/-- What happens to the table between the start and the end of a run. -/
inductive RunEvent where
  | app (op : MemoryOp)
  | launch (l : Launch)

def runStep (ctx : KernelContext) (r : Reporter) : RunEvent → Reporter
  | .app op => { r with manage := op.apply r.manage }
  | .launch l => launchKernel ctx r l

def RunAdmits (ctx : KernelContext) (r : Reporter) : RunEvent → Prop
  | .app _ => True
  | .launch l => Admits ctx r l

instance (ctx : KernelContext) : DecidableRel (RunAdmits ctx)
  | _, .app _ => isTrue trivial
  | r, .launch l => inferInstanceAs (Decidable (Admits ctx r l))

def appOp : RunEvent → Option MemoryOp
  | .app op => some op
  | .launch _ => none

/-- Only the application's own calls show in the table, and after each launch the
count is the number of records. -/
theorem launches_leave_nothing (ctx : KernelContext) (r : Reporter) (events : List RunEvent)
    (hrun : Runs.Guarded (runStep ctx) (RunAdmits ctx) r events) :
    (events.foldl (runStep ctx) r).manage.memoryOpAddrInfos =
      (events.filterMap appOp).foldl applySet r.manage.memoryOpAddrInfos ∧
    ∀ pre l suf, events = pre ++ .launch l :: suf →
      let before := (pre.foldl (runStep ctx) r).manage
      let after := ((pre ++ [.launch l]).foldl (runStep ctx) r).manage
      after.memoryOpAddrInfos = before.memoryOpAddrInfos ∧
        after.mallocCount = UInt32.ofNat after.memoryOpAddrInfos.size := by
  constructor
  · induction events generalizing r with
    | nil => rfl
    | cons e events ih =>
      obtain ⟨hguard, hrest⟩ := hrun
      rw [List.foldl_cons, ih _ hrest]
      cases e with
      | app op =>
        rw [List.filterMap_cons_some (show appOp (.app op) = some op from rfl), List.foldl_cons]
        change (events.filterMap appOp).foldl applySet (op.apply r.manage).memoryOpAddrInfos = _
        rw [memoryOpAddrInfos_apply]
      | launch l =>
        rw [List.filterMap_cons_none (show appOp (.launch l) = none from rfl)]
        change (events.filterMap appOp).foldl applySet (launchKernel ctx r l).manage.memoryOpAddrInfos = _
        rw [(launchKernel_leaves_nothing ctx r l hguard).1]
  · rintro pre l suf rfl
    rw [Runs.guarded_append] at hrun
    rw [List.foldl_append]
    exact launchKernel_leaves_nothing ctx _ l hrun.2.1

def quietContext : KernelContext where
  mc2CtxFlag := false
  throughAdumpFlag := false
  needOverflowStatus := false
  deviceId := 0
  readHcclCombinOpParam _ := none

def sampleLaunch (memInfo : Option UInt64) : Launch where
  argsInfo := some { args := some [0, 0x10, 0, 0, 0, 0, 0, 0], argsSize := 8 }
  skipSanitizer := false
  isSink := false
  pcStartAddr := some 0x400000
  headers := some [⟨2, 0x100, 0x40⟩]
  opMemInfo := { inputParamsAddrInfos := [⟨0, 64, .extra, .input, 0⟩]
                 hasOverflowAddr := true
                 overflowAddr := 0x5000 }
  memInfo := memInfo
  paraBases := [⟨0x6000, 16⟩]

def sampleTable : Reporter := ⟨MemoryManage.reset.cacheMalloc 0x9000 .rt 0x100, []⟩

def sampleRun : List RunEvent :=
  [.launch (sampleLaunch (some 0x7000)), .app (.malloc 0x8000 .rt 0x20 true),
    .launch (sampleLaunch (some 0x7000))]

theorem launches_leave_nothing_sampleRun :
    (sampleRun.foldl (runStep quietContext) sampleTable).manage.memoryOpAddrInfos =
      (sampleRun.filterMap appOp).foldl applySet sampleTable.manage.memoryOpAddrInfos ∧
    ∀ pre l suf, sampleRun = pre ++ .launch l :: suf →
      let before := (pre.foldl (runStep quietContext) sampleTable).manage
      let after := ((pre ++ [.launch l]).foldl (runStep quietContext) sampleTable).manage
      after.memoryOpAddrInfos = before.memoryOpAddrInfos ∧
        after.mallocCount = UInt32.ofNat after.memoryOpAddrInfos.size :=
  launches_leave_nothing quietContext sampleTable sampleRun (by decide)

/-- Without a buffer the section, the overflow slot, the empty record and the count stay. -/
theorem failed_init_leaves_records :
    let before := sampleTable.manage
    let after := (launchKernel quietContext sampleTable (sampleLaunch none)).manage
    before.memoryOpAddrInfos.elems = [⟨0x9000, 0x100, .rt, .default, 0⟩] ∧
      before.mallocCount = 1 ∧
      after.memoryOpAddrInfos.elems =
        [⟨0, 0, .extra, .default, 0⟩, ⟨0x5000, 0x200, .bypass, .default, 0⟩,
          ⟨0x9000, 0x100, .rt, .default, 0⟩, ⟨0x400100, 0x40, .bypass, .default, 0⟩] ∧
      after.mallocCount = 5 := by
  decide

end Msopcom.SanitizerLaunchScope
