import Msopcom.KeyedList
import Msopcom.Runs

set_option autoImplicit false

/-!
# Mstx domains, heaps and regions

The tables of the handles that have been given out. A handle is the address of a new
object, which the allocator picks.
-/
namespace Msopcom.MsTxHandles
open KeyedList

/-- An address; 0 is the null pointer. -/
abbrev Handle := UInt64

structure MstxMemVirtualRangeDesc where
  deviceId : UInt32
  ptr : UInt64
  size : UInt64
  deriving DecidableEq, Repr

inductive MstxMemHeapUsageType
  | subAllocator
  deriving DecidableEq, Repr

inductive MstxMemType
  | virtualAddress
  deriving DecidableEq, Repr

/-- A null pointer is `none`. -/
structure MstxMemHeapDesc where
  usage : MstxMemHeapUsageType := .subAllocator
  type : MstxMemType := .virtualAddress
  typeSpecificDesc : Option MstxMemVirtualRangeDesc
  deriving DecidableEq, Repr

structure MstxMemHeapRangeDesc where
  usage : MstxMemHeapUsageType
  type : MstxMemType
  rangeDesc : MstxMemVirtualRangeDesc
  deriving DecidableEq, Repr

/-- The handles go to `regionHandleArrayOut`, which is not null when it is set. -/
structure MstxMemRegionsRegisterBatch where
  heap : Handle
  regionDescArray : Option (List MstxMemVirtualRangeDesc)
  regionHandleArrayOut : Bool := true
  deriving DecidableEq, Repr

inductive MstxMemRegionRef
  | pointer (p : UInt64)
  | handle (h : Handle)
  deriving DecidableEq, Repr

/-- The array of a batch; a null pointer is `none`. -/
structure MstxMemRegionsUnregisterBatch where
  refArray : Option (List MstxMemRegionRef)
  deriving DecidableEq, Repr

structure MemRegionsBelongInfo where
  addr : UInt64 := 0
  size : UInt64 := 0
  success : Bool := false
  deriving DecidableEq, Repr

structure MsTx where
  name2Domain : AList (fun _ : List UInt8 => Handle) := ∅
  domain2Name : AList (fun _ : Handle => List UInt8) := ∅
  domainMemHeapDesc : AList (fun _ : Handle × Handle => MstxMemHeapRangeDesc) := ∅
  domainMemHeap : AList (fun _ : Handle => List Handle) := ∅
  domainRegions : AList (fun _ : Handle => List Handle) := ∅
  regionRangeDesc : AList (fun _ : Handle => MstxMemVirtualRangeDesc) := ∅
  deriving DecidableEq

/-! ## Domains -/

def maxDomainLength : ℕ := 1023

def isalnum (c : UInt8) : Bool :=
  (48 ≤ c && c ≤ 57) || (65 ≤ c && c ≤ 90) || (97 ≤ c && c ≤ 122)

def checkInputStringValid (inputString : List UInt8) (length : ℕ) : Bool :=
  if inputString.isEmpty then false
  else if inputString.length > length then false
  else inputString.all fun c => isalnum c || c = 95

/-- `fresh` is the address of the domain if a new one is made. -/
def mstxDomainCreateA (fresh : Handle) (domainName : List UInt8) (s : MsTx) : Handle × MsTx :=
  if !checkInputStringValid domainName maxDomainLength then (0, s)
  else
    match s.name2Domain.lookup domainName with
    | some domain => (domain, { s with domain2Name := s.domain2Name.insert domain domainName })
    | none =>
      (fresh,
        { s with
          name2Domain := s.name2Domain.insert domainName fresh
          domain2Name := s.domain2Name.insert fresh domainName })

/-- The null pointer is the global domain. -/
def isDomainExist (domain : Handle) (s : MsTx) : Bool :=
  if domain = 0 then true else (s.domain2Name.lookup domain).isSome

/-! ## Heaps -/

def mstxMemHeapRegister (fresh domain : Handle) (desc : Option MstxMemHeapDesc) (s : MsTx) :
    Handle × MsTx :=
  if !isDomainExist domain s then (0, s)
  else
    match desc with
    | none => (0, s)
    | some desc =>
      match desc.typeSpecificDesc with
      | none => (0, s)
      | some rangeDesc =>
        (fresh,
          { s with
            domainMemHeap := s.domainMemHeap.insert domain (listAt s.domainMemHeap domain ++ [fresh])
            domainMemHeapDesc :=
              s.domainMemHeapDesc.insert (domain, fresh) ⟨desc.usage, desc.type, rangeDesc⟩ })

/-- The descriptor of the heap where it returns true. -/
def mstxMemHeapUnregister (domain heap : Handle) (s : MsTx) : Option MstxMemHeapRangeDesc × MsTx :=
  if !isDomainExist domain s then (none, s)
  else if heap = 0 then (none, s)
  else
    match s.domainMemHeapDesc.lookup (domain, heap) with
    | none => (none, s)
    | some desc =>
      match s.domainMemHeap.lookup domain with
      | none => (none, s)
      | some memHeapVec =>
        (some desc,
          { s with
            domainMemHeap := s.domainMemHeap.insert domain (memHeapVec.filter fun h => h ≠ heap)
            domainMemHeapDesc := s.domainMemHeapDesc.erase (domain, heap) })

/-! ## Regions -/

/-- The loop over the descriptors of a batch. -/
def registerRegions (domain : Handle) : List (Handle × MstxMemVirtualRangeDesc) → MsTx → MsTx
  | [], s => s
  | (fresh, rangeDesc) :: regions, s =>
    registerRegions domain regions
      { s with
        domainRegions := s.domainRegions.insert domain (listAt s.domainRegions domain ++ [fresh])
        regionRangeDesc := s.regionRangeDesc.insert fresh rangeDesc }

/-- `fresh` are the addresses of the new regions. -/
def mstxMemRegionsRegister (fresh : List Handle) (domain : Handle)
    (desc : Option MstxMemRegionsRegisterBatch) (s : MsTx) : MemRegionsBelongInfo × MsTx :=
  if !isDomainExist domain s then ({}, s)
  else
    match desc with
    | none => ({}, s)
    | some desc =>
      match desc.regionDescArray with
      | none => ({}, s)
      | some regionDescArray =>
        if !desc.regionHandleArrayOut then ({}, s)
        else
          let it := s.domainMemHeapDesc.lookup (domain, desc.heap)
          if desc.heap ≠ 0 ∧ it.isNone then ({}, s)
          else
            let info : MemRegionsBelongInfo :=
              match it with
              | some heap => ⟨heap.rangeDesc.ptr, heap.rangeDesc.size, true⟩
              | none => ⟨0, 0, true⟩
            -- the entry of the domain is made even for an empty batch
            let s := { s with
              domainRegions := s.domainRegions.insert domain (listAt s.domainRegions domain) }
            (info, registerRegions domain (fresh.zip regionDescArray) s)

/-- `UpdateRegionsUnregisterInfo`, with the descriptors that it has found so far and the
handles that they belong to. -/
def updateRegionsUnregisterInfo (domain targetHandle : Handle)
    (found : List (Handle × MstxMemVirtualRangeDesc) × MsTx) :
    List (Handle × MstxMemVirtualRangeDesc) × MsTx :=
  let s := found.2
  (found.1 ++ (s.regionRangeDesc.lookup targetHandle).toList.map fun desc => (targetHandle, desc),
    { s with
      regionRangeDesc := s.regionRangeDesc.erase targetHandle
      domainRegions := s.domainRegions.insert domain
        ((listAt s.domainRegions domain).filter fun h => h ≠ targetHandle) })

def unregisterRegions (domain : Handle) (refArray : List MstxMemRegionRef)
    (found : List (Handle × MstxMemVirtualRangeDesc) × MsTx) :
    List (Handle × MstxMemVirtualRangeDesc) × MsTx :=
  refArray.foldl (fun found ref =>
    match ref with
    | .handle targetHandle => updateRegionsUnregisterInfo domain targetHandle found
    | .pointer _ => found) found

/-- The descriptors of the regions where it returns true. -/
def mstxMemRegionsUnregister (domain : Handle) (desc : Option MstxMemRegionsUnregisterBatch)
    (s : MsTx) : Option (List (Handle × MstxMemVirtualRangeDesc)) × MsTx :=
  if !isDomainExist domain s then (none, s)
  else
    match desc with
    | none => (none, s)
    | some desc =>
      match desc.refArray with
      | none => (none, s)
      | some refArray =>
        match s.domainRegions.lookup domain with
        | none => (none, s)
        | some _ =>
          let (rangeDescVec, s) := unregisterRegions domain refArray ([], s)
          (some rangeDescVec, s)

/-! ## What the calls do -/

theorem mstxDomainCreateA_eq (fresh : Handle) (domainName : List UInt8) (s : MsTx) :
    (mstxDomainCreateA fresh domainName s).2 =
      { s with
        name2Domain := (mstxDomainCreateA fresh domainName s).2.name2Domain
        domain2Name := (mstxDomainCreateA fresh domainName s).2.domain2Name } := by
  rw [mstxDomainCreateA]
  split_ifs
  · rfl
  · cases s.name2Domain.lookup domainName with
    | none => rfl
    | some domain => rfl

theorem mstxMemHeapRegister_cases (fresh domain : Handle) (desc : Option MstxMemHeapDesc)
    (s : MsTx) :
    mstxMemHeapRegister fresh domain desc s = (0, s) ∨
      ∃ heapDesc rangeDesc, desc = some heapDesc ∧ heapDesc.typeSpecificDesc = some rangeDesc ∧
        mstxMemHeapRegister fresh domain desc s =
          (fresh,
            { s with
              domainMemHeap :=
                s.domainMemHeap.insert domain (listAt s.domainMemHeap domain ++ [fresh])
              domainMemHeapDesc := s.domainMemHeapDesc.insert (domain, fresh)
                ⟨heapDesc.usage, heapDesc.type, rangeDesc⟩ }) := by
  rw [mstxMemHeapRegister.eq_def]
  split_ifs
  · exact .inl rfl
  · cases desc with
    | none => exact .inl rfl
    | some heapDesc =>
      cases hrange : heapDesc.typeSpecificDesc with
      | none => simp [hrange]
      | some rangeDesc => exact .inr ⟨heapDesc, rangeDesc, rfl, hrange, by simp [hrange]⟩

/-- The heap that a call takes out. -/
def heapToUnregister (domain heap : Handle) (s : MsTx) : Option MstxMemHeapRangeDesc :=
  if isDomainExist domain s && heap ≠ 0 && (s.domainMemHeap.lookup domain).isSome then
    s.domainMemHeapDesc.lookup (domain, heap)
  else none

theorem mstxMemHeapUnregister_eq (domain heap : Handle) (s : MsTx) :
    mstxMemHeapUnregister domain heap s =
      match heapToUnregister domain heap s with
      | none => (none, s)
      | some desc =>
        (some desc,
          { s with
            domainMemHeap := s.domainMemHeap.insert domain
              ((listAt s.domainMemHeap domain).filter fun h => h ≠ heap)
            domainMemHeapDesc := s.domainMemHeapDesc.erase (domain, heap) }) := by
  rw [mstxMemHeapUnregister, heapToUnregister]
  cases hexist : isDomainExist domain s with
  | false => rfl
  | true =>
    by_cases hheap : heap = 0
    · simp [hheap]
    · cases hdesc : s.domainMemHeapDesc.lookup (domain, heap) with
      | none => simp [hheap]
      | some desc =>
        cases hvec : s.domainMemHeap.lookup domain with
        | none => simp [hheap]
        | some memHeapVec => simp [hheap, listAt, hvec]

/-- The batch of a call that is carried out, and the range that the heap has. -/
def batchToRegister (domain : Handle) (desc : Option MstxMemRegionsRegisterBatch) (s : MsTx) :
    Option (List MstxMemVirtualRangeDesc × MemRegionsBelongInfo) :=
  match desc with
  | some ⟨heap, some regionDescArray, true⟩ =>
    if isDomainExist domain s then
      match s.domainMemHeapDesc.lookup (domain, heap) with
      | some desc => some (regionDescArray, ⟨desc.rangeDesc.ptr, desc.rangeDesc.size, true⟩)
      | none => if heap = 0 then some (regionDescArray, ⟨0, 0, true⟩) else none
    else none
  | _ => none

theorem mstxMemRegionsRegister_eq (fresh : List Handle) (domain : Handle)
    (desc : Option MstxMemRegionsRegisterBatch) (s : MsTx) :
    mstxMemRegionsRegister fresh domain desc s =
      match batchToRegister domain desc s with
      | none => ({}, s)
      | some (regionDescArray, info) =>
        (info, registerRegions domain (fresh.zip regionDescArray)
          { s with
            domainRegions := s.domainRegions.insert domain (listAt s.domainRegions domain) }) := by
  rw [mstxMemRegionsRegister.eq_def, batchToRegister.eq_def]
  obtain _ | ⟨heap, _ | regionDescArray, _ | _⟩ := desc
  · simp
  · simp
  · simp
  · simp
  · cases hexist : isDomainExist domain s with
    | false => rfl
    | true =>
      cases hdesc : s.domainMemHeapDesc.lookup (domain, heap) with
      | none =>
        by_cases hheap : heap = 0
        · simp [hheap, hdesc]
        · simp [hheap, hdesc]
      | some desc => simp [hdesc]

/-- What the loop over the descriptors leaves. -/
theorem registerRegions_eq (domain : Handle) {regions : List (Handle × MstxMemVirtualRangeDesc)}
    (hnodup : (regions.map Prod.fst).Nodup) (s : MsTx) :
    (registerRegions domain regions s).domainMemHeapDesc = s.domainMemHeapDesc ∧
      (registerRegions domain regions s).domainMemHeap = s.domainMemHeap ∧
      (∀ q ∈ regions, (registerRegions domain regions s).regionRangeDesc.lookup q.1 = some q.2) ∧
      (∀ region, region ∉ regions.map Prod.fst →
        (registerRegions domain regions s).regionRangeDesc.lookup region =
          s.regionRangeDesc.lookup region) ∧
      ∀ domain', listAt (registerRegions domain regions s).domainRegions domain' =
        if domain' = domain then listAt s.domainRegions domain ++ regions.map Prod.fst
        else listAt s.domainRegions domain' := by
  induction regions generalizing s with
  | nil => simp [registerRegions]
  | cons q regions ih =>
    obtain ⟨fresh, rangeDesc⟩ := q
    obtain ⟨hfresh, hrest⟩ := List.nodup_cons.mp hnodup
    rw [registerRegions]
    obtain ⟨hdesc, hheaps, hnew, hold, hregions⟩ := ih hrest
      { s with
        domainRegions := s.domainRegions.insert domain (listAt s.domainRegions domain ++ [fresh])
        regionRangeDesc := s.regionRangeDesc.insert fresh rangeDesc }
    refine ⟨hdesc, hheaps, fun q hq => ?_, fun region hregion => ?_, fun domain' => ?_⟩
    · cases hq with
      | head => rw [hold fresh hfresh, AList.lookup_insert]
      | tail _ hq => exact hnew q hq
    · rw [List.map_cons, List.mem_cons, not_or] at hregion
      rw [hold region hregion.2, AList.lookup_insert_ne hregion.1]
    · rw [hregions]
      dsimp only
      rw [listAt_insert, listAt_insert, if_pos rfl]
      split_ifs
      · simp
      · rfl

/-- The references of a call that is carried out. -/
def refsToUnregister (domain : Handle) (desc : Option MstxMemRegionsUnregisterBatch) (s : MsTx) :
    Option (List MstxMemRegionRef) :=
  if isDomainExist domain s && (s.domainRegions.lookup domain).isSome then
    desc.bind MstxMemRegionsUnregisterBatch.refArray
  else none

theorem mstxMemRegionsUnregister_eq (domain : Handle) (desc : Option MstxMemRegionsUnregisterBatch)
    (s : MsTx) :
    mstxMemRegionsUnregister domain desc s =
      match refsToUnregister domain desc s with
      | none => (none, s)
      | some refArray =>
        (some (unregisterRegions domain refArray ([], s)).1,
          (unregisterRegions domain refArray ([], s)).2) := by
  rw [mstxMemRegionsUnregister.eq_def, refsToUnregister]
  cases hexist : isDomainExist domain s with
  | false => rfl
  | true =>
    obtain _ | ⟨_ | refArray⟩ := desc
    · simp
    · simp
    · cases s.domainRegions.lookup domain with
      | none => rfl
      | some regions => rfl

/-- What the loop over the references leaves. -/
theorem unregisterRegions_eq (domain : Handle) (refArray : List MstxMemRegionRef)
    (found : List (Handle × MstxMemVirtualRangeDesc) × MsTx) :
    (unregisterRegions domain refArray found).2.domainMemHeapDesc = found.2.domainMemHeapDesc ∧
      (unregisterRegions domain refArray found).2.domainMemHeap = found.2.domainMemHeap ∧
      (∀ region, (unregisterRegions domain refArray found).2.regionRangeDesc.lookup region =
        if .handle region ∈ refArray then none else found.2.regionRangeDesc.lookup region) ∧
      ∀ domain', listAt (unregisterRegions domain refArray found).2.domainRegions domain' =
        if domain' = domain then
          (listAt found.2.domainRegions domain').filter fun r => .handle r ∉ refArray
        else listAt found.2.domainRegions domain' := by
  induction refArray generalizing found with
  | nil => simp [unregisterRegions]
  | cons ref refArray ih =>
    have hcons : unregisterRegions domain (ref :: refArray) found =
        unregisterRegions domain refArray (match ref with
          | .handle targetHandle => updateRegionsUnregisterInfo domain targetHandle found
          | .pointer _ => found) := rfl
    rw [hcons]
    cases ref with
    | pointer p =>
      obtain ⟨hdesc, hheaps, hrange, hregions⟩ := ih found
      refine ⟨hdesc, hheaps, fun region => ?_, fun domain' => ?_⟩
      · rw [hrange]
        simp
      · rw [hregions]
        simp
    | handle target =>
      obtain ⟨hdesc, hheaps, hrange, hregions⟩ := ih (updateRegionsUnregisterInfo domain target found)
      refine ⟨hdesc, hheaps, fun region => ?_, fun domain' => ?_⟩
      · rw [hrange]
        dsimp only [updateRegionsUnregisterInfo]
        rw [lookup_erase_eq]
        by_cases hregion : region = target
        · rw [hregion, if_pos rfl, ite_self, if_pos List.mem_cons_self]
        · simp [hregion]
      · rw [hregions]
        dsimp only [updateRegionsUnregisterInfo]
        rw [listAt_insert]
        by_cases hdomain : domain' = domain
        · rw [if_pos hdomain, if_pos hdomain, if_pos hdomain, List.filter_filter, hdomain]
          apply List.filter_congr
          intro region _
          simp [Bool.and_comm]
        · rw [if_neg hdomain, if_neg hdomain, if_neg hdomain]

/-- What it has found: the regions that are referred to and that have a descriptor, each once. -/
theorem unregisterRegions_found (domain : Handle) (refArray : List MstxMemRegionRef)
    (found : List (Handle × MstxMemVirtualRangeDesc) × MsTx) :
    ∃ new, (unregisterRegions domain refArray found).1 = found.1 ++ new ∧
      (new.map Prod.fst).Nodup ∧ ∀ region desc, (region, desc) ∈ new ↔
        .handle region ∈ refArray ∧ found.2.regionRangeDesc.lookup region = some desc := by
  induction refArray generalizing found with
  | nil => exact ⟨[], by simp [unregisterRegions]⟩
  | cons ref refArray ih =>
    cases ref with
    | pointer p =>
      obtain ⟨new, hnew, hnodup, hmem⟩ := ih found
      exact ⟨new, hnew, hnodup, fun region desc => by simp [hmem]⟩
    | handle target =>
      obtain ⟨new, hnew, hnodup, hmem⟩ := ih (updateRegionsUnregisterInfo domain target found)
      have htarget : ∀ desc, (target, desc) ∉ new := by
        intro desc hin
        have hlookup := ((hmem target desc).mp hin).2
        dsimp only [updateRegionsUnregisterInfo] at hlookup
        rw [AList.lookup_erase] at hlookup
        cases hlookup
      have hmem' : ∀ region desc, (region, desc) ∈ new ↔ region ≠ target ∧
          .handle region ∈ refArray ∧ found.2.regionRangeDesc.lookup region = some desc := by
        intro region desc
        by_cases hregion : region = target
        · rw [hregion]
          exact iff_of_false (htarget desc) fun h => h.1 rfl
        · rw [hmem, and_iff_right hregion]
          dsimp only [updateRegionsUnregisterInfo]
          rw [AList.lookup_erase_ne hregion]
      refine ⟨(found.2.regionRangeDesc.lookup target).toList.map (fun desc => (target, desc)) ++ new,
        hnew.trans (List.append_assoc _ _ _), ?_, fun region desc => ?_⟩
      · cases found.2.regionRangeDesc.lookup target with
        | none => exact hnodup
        | some desc =>
          refine List.nodup_cons.mpr ⟨fun hin => ?_, hnodup⟩
          obtain ⟨⟨region, desc'⟩, hq, hfst⟩ := List.mem_map.mp hin
          cases hfst
          exact htarget desc' hq
      · rw [List.mem_append, hmem']
        by_cases hregion : region = target
        · rw [hregion]
          simp
        · simp [hregion, Ne.symm hregion]

end Msopcom.MsTxHandles
