import Mathlib.Data.Rat.Floor
import Msopcom.ShadowMemoryReport

set_option autoImplicit false

/-!
# The regions of a block with threads

Behind its head and the host memory records a block has room for records, then one head with
its records for each thread, and the heap of the shadow memory.
-/
namespace Msopcom

def shadowMemMinByteSize : UInt64 := 12 * 1024 * 1024

/-- The shares of the threads and of the shadow memory in the cache of a block. -/
def simtCacheSizeRatio : ℚ := 1 / 10
def shadowMemCacheSizeRatio : ℚ := 1 / 2

def supportSimt (deviceType : DeviceType) : Bool := isC310Arch deviceType

/-- `static_cast<uint64_t>`. -/
def truncate (q : ℚ) : UInt64 := UInt64.ofNat ⌊q⌋.toNat

def alignDownSize (alignSize val : UInt64) : UInt64 := val - val % alignSize

/-- The bytes of a block's cache. -/
def cacheBytes (cacheSize : UInt32) : ℚ := (cacheSize.toUInt64 * mbToBytes).toNat

def simtThreadBytes (cacheSize : UInt32) : UInt64 :=
  truncate (cacheBytes cacheSize * simtCacheSizeRatio / simtThreadMaxSize.toNat)

def simtHeadOffsetBytes (cacheSize : UInt32) : UInt64 :=
  truncate (cacheBytes cacheSize * (1 - simtCacheSizeRatio - shadowMemCacheSizeRatio))

def shadowMemoryBytes (cacheSize : UInt32) : UInt64 :=
  truncate (cacheBytes cacheSize * shadowMemCacheSizeRatio)

def RecordGlobalHead.withThreads (head : RecordGlobalHead) (threadByteSize simtHeadOffset : UInt64) :
    RecordGlobalHead :=
  { head with
    offsetInfo.threadByteSize := (alignDownSize cacheLineSize.toUInt64
      (threadByteSize - sizeofSimtRecordBlockHead)).toUInt32
    offsetInfo.simtHeadOffset := (alignDownSize cacheLineSize.toUInt64 simtHeadOffset +
      head.offsetInfo.blockHeadSize.toUInt64).toUInt32 }

def RecordGlobalHead.withShadowMemory (head : RecordGlobalHead) (shadowMemoryByteSize : UInt64) :
    RecordGlobalHead :=
  if shadowMemoryByteSize < shadowMemMinByteSize then
    { head with
      offsetInfo.shadowMemoryOffset := 0
      offsetInfo.shadowMemoryByteSize := 0 }
  else
    { head with
      offsetInfo.shadowMemoryOffset := (alignDownSize cacheLineSize.toUInt64
        (head.offsetInfo.simtHeadOffset.toUInt64 + getAllThreadSize head +
          cacheLineSize.toUInt64 - 1)).toUInt32
      offsetInfo.shadowMemoryByteSize := shadowMemoryByteSize.toUInt32 }

/-- The offsets for a chip with threads; `none` where the cache is too small for their heads. -/
def assignSimtOffsets (cacheSize : UInt32) (head : RecordGlobalHead) : Option RecordGlobalHead :=
  if simtThreadBytes cacheSize ≥ sizeofSimtRecordBlockHead then
    some ((head.withThreads (simtThreadBytes cacheSize)
      (simtHeadOffsetBytes cacheSize)).withShadowMemory (shadowMemoryBytes cacheSize))
  else none

/-- What `AssignGlobalHead` takes from the command line, and how its calls end. -/
structure HeadInputs where
  cacheSize : UInt32
  checkBlockId : Int16
  hostMemoryNum : UInt32
  blockDim : UInt64
  deviceType : DeviceType
  copiesRegisters : Bool := true
  getsL2CacheOffset : Bool := true
  deriving DecidableEq, Repr

/-- The part of the head that every chip has. -/
def baseHead (head : RecordGlobalHead) (i : HeadInputs) : RecordGlobalHead :=
  RecordGlobalHead.withHostMemoryNum
    { head with
      checkParms := ⟨i.cacheSize, i.checkBlockId⟩
      supportSimt := supportSimt i.deviceType } i.hostMemoryNum

def assignGlobalHead (head : RecordGlobalHead) (i : HeadInputs) : RecordGlobalHead × Bool :=
  if !i.copiesRegisters then (head, false)
  else if isC220Arch i.deviceType && !i.getsL2CacheOffset then (head, false)
  else
    if (baseHead head i).supportSimt then
      match assignSimtOffsets i.cacheSize (baseHead head i) with
      | none => (baseHead head i, false)
      | some head' => assignMemSize head' i.blockDim i.deviceType
    else assignMemSize (baseHead head i) i.blockDim i.deviceType

/-! ## Regions, as offsets from the start of the block -/

def blockHeadRegion : Set ℕ := Set.Ico 0 sizeofRecordBlockHead.toNat

/-- The place of `hostMemoryInfoPtr`. -/
def hostRecordRegion (hostMemoryNum : UInt32) : Set ℕ :=
  Set.Ico sizeofRecordBlockHead.toNat
    (sizeofRecordBlockHead.toNat + hostMemoryNum.toNat * sizeofHostMemoryInfo.toNat)

def simtHeadRegion (head : RecordGlobalHead) : Set ℕ :=
  Set.Ico head.offsetInfo.simtHeadOffset.toNat
    (head.offsetInfo.simtHeadOffset.toNat + (getAllThreadSize head).toNat)

def shadowMemoryRegion (head : RecordGlobalHead) : Set ℕ :=
  Set.Ico head.offsetInfo.shadowMemoryOffset.toNat
    (head.offsetInfo.shadowMemoryOffset.toNat + head.offsetInfo.shadowMemoryByteSize.toNat)

def Precedes (r s : Set ℕ) : Prop := ∀ x ∈ r, ∀ y ∈ s, x < y

/-- The regions in the order of the list, in cache lines, and the last one inside the block. -/
structure SimtLayout (head : RecordGlobalHead) (regions : List (Set ℕ)) : Prop where
  ordered : regions.Pairwise Precedes
  disjoint : regions.Pairwise Disjoint
  aligned : 64 ∣ head.offsetInfo.blockHeadSize.toNat ∧ 64 ∣ head.offsetInfo.simtHeadOffset.toNat ∧
    64 ∣ (head.offsetInfo.threadByteSize.toUInt64 + sizeofSimtRecordBlockHead).toNat ∧
    64 ∣ head.offsetInfo.shadowMemoryOffset.toNat
  inside : head.offsetInfo.shadowMemoryOffset.toNat + head.offsetInfo.shadowMemoryByteSize.toNat ≤
    head.offsetInfo.blockHeadSize.toNat + head.checkParms.cacheSize.toNat * 2 ^ 20

end Msopcom
