import Msopcom.MemoryManage
import Msopcom.MsTxHandles

set_option autoImplicit false

/-!
# What the sanitizer reports of mstx heaps and regions

The callbacks that are bound to the mstx interface. A record is cached for the kernel side
and sent to the tool side.
-/
namespace Msopcom.BindSanitizer
open MsTxHandles

/-- What a record is about; a heap is looked up with its domain. -/
inductive MemHandle
  | heap (domain heap : Handle)
  | region (region : Handle)
  deriving DecidableEq, Repr

/-- The device of the thread is `Local()`, the others are `GetInstance(deviceId)`. -/
inductive LocalDevice
  | thread
  | device (deviceId : Int32)
  deriving DecidableEq, Repr

/-- A packet, and the handle that it was sent for, which is not in it. -/
structure Report where
  handle : Option MemHandle
  device : LocalDevice
  record : HostMemRecord
  deriving DecidableEq, Repr

structure Sanitizer where
  msTx : MsTx := {}
  memory : MemoryManage := .reset
  reports : List Report := []

def isAddrInRange (record : HostMemRecord) (thresholdAddr thresholdSize : UInt64) : Bool :=
  let addr := record.dstAddr
  let size := record.memSize
  addr ≥ thresholdAddr && thresholdSize ≥ size && addr - thresholdAddr ≤ thresholdSize - size

def isInvalidMemInfo (record : HostMemRecord) : Bool :=
  let addr := record.dstAddr
  if record.type = .malloc ∧ (addr = 0 ∨ record.memSize = 0) then true
  else record.type = .free && addr = 0

/-- `LocalDevice::Notify` of a packet with the record. -/
def notify (handle : Option MemHandle) (device : LocalDevice) (record : HostMemRecord)
    (s : Sanitizer) : Sanitizer :=
  { s with reports := s.reports ++ [⟨handle, device, record⟩] }

def mstxDomainCreateA (fresh : Handle) (domainName : List UInt8) (s : Sanitizer) :
    Handle × Sanitizer :=
  let (ret, msTx) := MsTxHandles.mstxDomainCreateA fresh domainName s.msTx
  (ret, { s with msTx := msTx })

def mstxMemHeapRegister (fresh domain : Handle) (desc : Option MstxMemHeapDesc) (s : Sanitizer) :
    Handle × Sanitizer :=
  let (ret, msTx) := MsTxHandles.mstxMemHeapRegister fresh domain desc s.msTx
  let s := { s with msTx := msTx }
  if ret = 0 then (0, s)
  else
    match desc.bind MstxMemHeapDesc.typeSpecificDesc with
    | none => (ret, s)
    | some rangeDesc =>
      let record : HostMemRecord :=
        { type := .malloc, infoSrc := .mstxHeap, dstAddr := rangeDesc.ptr, memSize := rangeDesc.size }
      if isInvalidMemInfo record then (ret, s)
      else
        (ret, notify (some (.heap domain ret)) (.device rangeDesc.deviceId.toInt32) record
          { s with memory := s.memory.cacheMalloc record.dstAddr record.infoSrc record.memSize })

/-- A FREE record, unless its address is null. -/
def reportFree (handle : Option MemHandle) (device : LocalDevice) (record : HostMemRecord)
    (s : Sanitizer) : Sanitizer :=
  if isInvalidMemInfo record then s
  else
    notify handle device record
      { s with memory := s.memory.cacheFree record.dstAddr record.infoSrc record.memSize }

def mstxMemHeapUnregister (domain heap : Handle) (s : Sanitizer) : Sanitizer :=
  let (desc, msTx) := MsTxHandles.mstxMemHeapUnregister domain heap s.msTx
  let s := { s with msTx := msTx }
  match desc with
  | none => s
  | some desc =>
    reportFree (some (.heap domain heap)) (.device desc.rangeDesc.deviceId.toInt32)
      { type := .free, infoSrc := .mstxHeap, dstAddr := desc.rangeDesc.ptr } s

/-- The report for one region of a batch. -/
def reportRegion (heap : Handle) (ret : MemRegionsBelongInfo) (s : Sanitizer)
    (region : Handle × MstxMemVirtualRangeDesc) : Sanitizer :=
  let rangeDesc := region.2
  let record : HostMemRecord :=
    { type := .malloc, infoSrc := .mstxRegion, rootAddr := ret.addr,
      dstAddr := rangeDesc.ptr, memSize := rangeDesc.size }
  if isInvalidMemInfo record then s
  else if heap = 0 || isAddrInRange record ret.addr ret.size then
    let device := .device rangeDesc.deviceId.toInt32
    notify (some (.region region.1)) device { record with type := .store }
      (notify (some (.region region.1)) device record
        { s with memory := s.memory.cacheMalloc record.dstAddr record.infoSrc record.memSize })
  else s

def mstxMemRegionsRegister (fresh : List Handle) (domain : Handle)
    (desc : Option MstxMemRegionsRegisterBatch) (s : Sanitizer) : Sanitizer :=
  let (ret, msTx) := MsTxHandles.mstxMemRegionsRegister fresh domain desc s.msTx
  let s := { s with msTx := msTx }
  if ret.success then
    match desc with
    | some ⟨heap, some regionDescArray, _⟩ =>
      (fresh.zip regionDescArray).foldl (reportRegion heap ret) s
    | _ => s
  else s

def reportRegionFree (s : Sanitizer) (range : Handle × MstxMemVirtualRangeDesc) : Sanitizer :=
  reportFree (some (.region range.1)) (.device range.2.deviceId.toInt32)
    { type := .free, infoSrc := .mstxRegion, dstAddr := range.2.ptr, memSize := range.2.size } s

/-- The regions that are referred to by their addresses are freed without a size. -/
def reportPointerFree (s : Sanitizer) : MstxMemRegionRef → Sanitizer
  | .pointer p =>
    reportFree none .thread { type := .free, infoSrc := .mstxRegion, dstAddr := p, memSize := 0 } s
  | .handle _ => s

def mstxMemRegionsUnregister (domain : Handle) (desc : Option MstxMemRegionsUnregisterBatch)
    (s : Sanitizer) : Sanitizer :=
  let (rangeDescVec, msTx) := MsTxHandles.mstxMemRegionsUnregister domain desc s.msTx
  let s := { s with msTx := msTx }
  match rangeDescVec with
  | none => s
  | some rangeDescVec =>
    ((desc.bind MstxMemRegionsUnregisterBatch.refArray).getD []).foldl reportPointerFree
      (rangeDescVec.foldl reportRegionFree s)

end Msopcom.BindSanitizer
