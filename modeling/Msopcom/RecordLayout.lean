import Msopcom.Words
import Msopcom.Layout

set_option autoImplicit false

/-!
# The device record buffer

One `RecordGlobalHead`, then one region a block: its head, with the host memory
records behind it, and its cache.
-/
namespace Msopcom

inductive DeviceType
  | ascend910PremiumA
  | ascend910BStart
  | ascend910B1
  | ascend910B2
  | ascend910B3
  | ascend910B4
  | ascend910BEnd
  | ascend310P
  | ascend950Start
  | ascend950DT950x
  | ascend950DT950y
  | ascend950DT9571
  | ascend950DT9572
  | ascend950DT9573
  | ascend950DT9574
  | ascend950DT9575
  | ascend950DT9576
  | ascend950DT9577
  | ascend950DT9578
  | ascend950DT9581
  | ascend950DT9582
  | ascend950DT9583
  | ascend950DT9584
  | ascend950DT9585
  | ascend950DT9586
  | ascend950DT9587
  | ascend950DT9588
  | ascend950DT9591
  | ascend950DT9592
  | ascend950DT9595
  | ascend950DT9596
  | ascend950DT95A1
  | ascend950DT95A2
  | ascend950PR950z
  | ascend950PR9579
  | ascend950PR957b
  | ascend950PR957c
  | ascend950PR957d
  | ascend950PR9589
  | ascend950PR958b
  | ascend950PR9599
  | ascend950End
  | invalid
  deriving DecidableEq, Repr

/-- The enumeration is listed in the order of its values. -/
def isBetween (lower upper deviceType : DeviceType) : Bool :=
  deviceType.ctorIdx > lower.ctorIdx && deviceType.ctorIdx < upper.ctorIdx

def isC220Arch (deviceType : DeviceType) : Bool :=
  isBetween .ascend910BStart .ascend910BEnd deviceType

def isC310Arch (deviceType : DeviceType) : Bool :=
  isBetween .ascend950Start .ascend950End deviceType

def hasSubBlocks (deviceType : DeviceType) : Bool :=
  isC220Arch deviceType || isC310Arch deviceType

structure CheckParmsInfo where
  cacheSize : UInt32
  checkBlockId : Int16
  deriving DecidableEq, Repr

structure KernelInfo where
  totalBlockDim : UInt64
  totalCacheSize : UInt64
  deriving DecidableEq, Repr

structure ProtocolOffsetInfo where
  blockHeadSize : UInt32
  threadByteSize : UInt32
  simtHeadOffset : UInt32
  shadowMemoryByteSize : UInt32
  shadowMemoryOffset : UInt32
  deriving DecidableEq, Repr

structure RecordGlobalHead where
  checkParms : CheckParmsInfo
  kernelInfo : KernelInfo
  offsetInfo : ProtocolOffsetInfo
  supportSimt : Bool
  deriving DecidableEq, Repr

def sizeofRecordGlobalHead : UInt64 := 38528
def sizeofRecordBlockHead : UInt64 := 128
def sizeofHostMemoryInfo : UInt64 := 16

def checkAllBlock : Int16 := -1
def cacheLineSize : UInt32 := 64
def c220VecSubBlockDim : ℤ := 2
def c220MixSubBlockDim : ℤ := 3
def mbToBytes : UInt64 := 1024 * 1024
def maxRecordBufSizeEachBlock : UInt64 := 8 * 1024
def maxRecordBufSizeAllBlock : UInt64 := 24 * 1024
def singleCheckOtherBlockCacheSize : UInt64 := 1
def maxBlockDimNums : UInt64 := 100

def ceilByAlignSize (alignSize v : UInt32) : UInt32 := ((v + alignSize - 1) / alignSize) * alignSize

def getRecordHeadSize (hostMemoryNum : UInt32) : UInt64 :=
  (ceilByAlignSize cacheLineSize
    (sizeofRecordBlockHead + hostMemoryNum.toUInt64 * sizeofHostMemoryInfo).toUInt32).toUInt64

def RecordGlobalHead.withHostMemoryNum (head : RecordGlobalHead) (hostMemoryNum : UInt32) :
    RecordGlobalHead :=
  { head with
    offsetInfo := { head.offsetInfo with
      blockHeadSize := (getRecordHeadSize hostMemoryNum).toUInt32 } }

def getTotalBlockDim (blockDim : UInt64) (deviceType : DeviceType) : UInt64 :=
  if hasSubBlocks deviceType then UInt64.ofInt c220MixSubBlockDim * blockDim else blockDim

def getTotalCacheSize (head : RecordGlobalHead) (blockDim : UInt64) (deviceType : DeviceType) :
    UInt64 :=
  let totalBlockDim := getTotalBlockDim blockDim deviceType
  let singleBlockSize := head.checkParms.cacheSize.toUInt64
  if hasSubBlocks deviceType then
    let vecCubeSum : UInt64 := 2
    if head.checkParms.checkBlockId = checkAllBlock then singleBlockSize * totalBlockDim
    else singleBlockSize * vecCubeSum +
      singleCheckOtherBlockCacheSize * (totalBlockDim - vecCubeSum)
  else
    if head.checkParms.checkBlockId = checkAllBlock then totalBlockDim * singleBlockSize
    else singleBlockSize + singleCheckOtherBlockCacheSize * (totalBlockDim - 1)

/-- The head is written whether or not its sizes are accepted. -/
def assignMemSize (head : RecordGlobalHead) (blockDim : UInt64) (deviceType : DeviceType) :
    RecordGlobalHead × Bool :=
  let singleBlockSize := head.checkParms.cacheSize.toUInt64
  let totalBlockDim := getTotalBlockDim blockDim deviceType
  let totalCacheSize := getTotalCacheSize head blockDim deviceType
  ({ head with kernelInfo := ⟨totalBlockDim, totalCacheSize⟩ },
    !(singleBlockSize = 0 || singleBlockSize > maxRecordBufSizeEachBlock ||
      totalCacheSize > maxRecordBufSizeAllBlock))

/-- The operands are promoted to `int`, and the quotient goes towards zero. -/
def vecTargetBlockIdx (checkBlockId : Int16) : UInt64 :=
  UInt64.ofInt (checkBlockId.toInt.tdiv c220VecSubBlockDim * c220MixSubBlockDim +
    checkBlockId.toInt.tmod c220VecSubBlockDim)

def cubeTargetBlockIdx (checkBlockId : Int16) : UInt64 :=
  UInt64.ofInt (checkBlockId.toInt * c220MixSubBlockDim + c220VecSubBlockDim)

def isTargetBlockIdx (deviceType : DeviceType) (checkBlockId : Int16) (blockIdx : UInt64) : Bool :=
  if hasSubBlocks deviceType then
    blockIdx = vecTargetBlockIdx checkBlockId || blockIdx = cubeTargetBlockIdx checkBlockId
  else blockIdx = UInt64.ofInt checkBlockId.toInt

def isCheckedBlock (deviceType : DeviceType) (globalHead : RecordGlobalHead) (blockIdx : UInt64) :
    Bool :=
  globalHead.checkParms.checkBlockId = checkAllBlock ||
    isTargetBlockIdx deviceType globalHead.checkParms.checkBlockId blockIdx

/-- The sum is taken in 64 bits and returned in 32. -/
def getBlockSize (deviceType : DeviceType) (globalHead : RecordGlobalHead) (blockIdx : UInt64) :
    UInt32 :=
  if isCheckedBlock deviceType globalHead blockIdx then
    (globalHead.offsetInfo.blockHeadSize.toUInt64 +
      globalHead.checkParms.cacheSize.toUInt64 * mbToBytes).toUInt32
  else
    (globalHead.offsetInfo.blockHeadSize.toUInt64 +
      singleCheckOtherBlockCacheSize * mbToBytes).toUInt32

def memSize (globalHead : RecordGlobalHead) : UInt64 :=
  globalHead.kernelInfo.totalCacheSize * mbToBytes + sizeofRecordGlobalHead +
    globalHead.kernelInfo.totalBlockDim * globalHead.offsetInfo.blockHeadSize.toUInt64

/-- The step by which `BlockHeadsH2D` and `ReportBlockInfo` move on from a block. -/
def blockStride (deviceType : DeviceType) (globalHead : RecordGlobalHead) (blockIdx : ℕ) : ℕ :=
  (getBlockSize deviceType globalHead (UInt64.ofNat blockIdx)).toNat

def blockRegion (deviceType : DeviceType) (globalHead : RecordGlobalHead) (blockIdx : ℕ) : Set ℕ :=
  Layout.region (blockStride deviceType globalHead) sizeofRecordGlobalHead.toNat blockIdx

end Msopcom
