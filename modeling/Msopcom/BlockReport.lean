import Msopcom.ShadowMemoryReport

set_option autoImplicit false

/-!
# Reporting the blocks of a launch

`ReportBlockInfo` gathers what it sends of a block in one host buffer, behind the global head.
The buffer and its cursor are used again for the next block.
-/
namespace Msopcom.BlockReport
open Bytes Splice

/-! ## The heads as bytes -/

/-- `RecordBlockHead` with the other fields that are read here. -/
structure BlockHead extends RecordBlockHead where
  recordCount : UInt64
  recordWriteCount : UInt64
  offset : UInt64
  hostMemoryNum : UInt32
  deriving DecidableEq, Repr

/-- The fields of a `RecordGlobalHead`, by the words that start at their offsets. -/
def readGlobalHead (word : ℕ → UInt64) : RecordGlobalHead where
  checkParms := ⟨(word 8).toUInt32, (word 12).toUInt16.toInt16⟩
  kernelInfo := ⟨word 24, word 32⟩
  offsetInfo := ⟨(word 56).toUInt32, (word 60).toUInt32, (word 64).toUInt32, (word 68).toUInt32,
    (word 72).toUInt32⟩
  supportSimt := (word 80).toUInt8 ≠ 0

def readBlockHead (word : ℕ → UInt64) : BlockHead where
  recordCount := word 0
  recordWriteCount := word 8
  offset := word 16
  writeOffset := word 24
  blockInfo := ⟨(word 40).toUInt16, (word 42).toUInt16, (word 44).toUInt16⟩
  hostMemoryNum := (word 56).toUInt32

/-- A head without one of its counts is taken for a block without records. -/
def BlockHead.hasRecords (head : BlockHead) : Bool :=
  !(head.offset = 0 || head.writeOffset = 0 || head.recordCount = 0 || head.recordWriteCount = 0)

/-! ## The launch and its members -/

/-- The chip, the configured cache, the memory of the device, and where the host buffer lies. -/
structure Launch where
  deviceType : DeviceType
  cacheSize : UInt32
  device : UInt64 → UInt8
  memInfoHostAddr : UInt64

def Launch.blockSize (l : Launch) : UInt64 :=
  l.cacheSize.toUInt64 * mbToBytes + sizeofRecordGlobalHead + sizeofRecordBlockHead

def Launch.deviceBytes (l : Launch) (addr : UInt64) (count : ℕ) : List UInt8 :=
  (List.range count).map fun k => l.device (addr + UInt64.ofNat k)

/-- `SanitizerLaunchFinalize`; its pointers into the host buffer are offsets. -/
structure LaunchFinalize where
  memInfo : UInt64
  memInfoBackUp : UInt64
  memInfoHost : ℕ
  blockHeadAt : ℕ
  buffer : List UInt8

/-- `globalHead_` points to the start of the buffer. -/
def LaunchFinalize.globalHead (s : LaunchFinalize) : RecordGlobalHead :=
  readGlobalHead (wordAt s.buffer)

def LaunchFinalize.blockHead (s : LaunchFinalize) : BlockHead :=
  readBlockHead fun off => wordAt s.buffer (s.blockHeadAt + off)

def LaunchFinalize.write (s : LaunchFinalize) (off : ℕ) (bytes : List UInt8) : LaunchFinalize :=
  { s with buffer := copyN bytes bytes.length s.buffer off }

/-- What the runtime says to the copies of a block. -/
structure BlockOutcomes where
  dumpHead : Bool
  dumpMemory : Bool
  blockHead : Bool
  simdRecords : Bool
  simtRecords : Bool
  shadow : RuntimeOutcomes
  deriving DecidableEq, Repr

/-! ## The copies of a block -/

section
variable (l : Launch)

def memcpyD2H (ok : Bool) (s : LaunchFinalize) (off : ℕ) (destMax src count : UInt64) :
    Option LaunchFinalize :=
  if memcpyOk ok destMax count then some (s.write off (l.deviceBytes src count.toNat)) else none

/-- The head that is read here is overwritten when the block is copied. -/
def dumpMemoryInfo (outcomes : BlockOutcomes) (s : LaunchFinalize) : LaunchFinalize :=
  match memcpyD2H l outcomes.dumpHead s s.memInfoHost (l.blockSize - sizeofRecordGlobalHead)
      s.memInfo sizeofRecordBlockHead with
  | none => s
  | some s =>
    let head := readBlockHead fun off => wordAt s.buffer (s.memInfoHost + off)
    let recordHeadSize := s.globalHead.offsetInfo.blockHeadSize.toUInt64
    if head.hostMemoryNum = 0 then s
    else if sizeofRecordGlobalHead + recordHeadSize > l.blockSize then s
    else
      -- `hostMemoryInfoPtr` leads to the bytes behind the head
      let memories := s.memInfoHost + sizeofRecordBlockHead.toNat
      let s := s.write (s.memInfoHost + 64)
        (leBytes 8 (l.memInfoHostAddr + UInt64.ofNat memories).toNat)
      (memcpyD2H l outcomes.dumpMemory s memories
        (l.blockSize - (sizeofRecordGlobalHead + sizeofRecordBlockHead))
        (s.memInfo + sizeofRecordBlockHead) (recordHeadSize - sizeofRecordBlockHead)).getD s

def blockHeadD2H (outcomes : BlockOutcomes) (s : LaunchFinalize) : Option LaunchFinalize :=
  (memcpyD2H l outcomes.blockHead s s.memInfoHost (l.blockSize - sizeofRecordGlobalHead)
      s.memInfo sizeofRecordBlockHead).map fun s =>
    { s with
      blockHeadAt := s.memInfoHost
      memInfoHost := s.memInfoHost + sizeofRecordBlockHead.toNat
      memInfo := s.memInfo + s.globalHead.offsetInfo.blockHeadSize.toUInt64 }

def simdRecordD2H (outcomes : BlockOutcomes) (s : LaunchFinalize) : Option LaunchFinalize :=
  (memcpyD2H l outcomes.simdRecords s s.memInfoHost
      (l.blockSize - sizeofRecordGlobalHead - sizeofRecordBlockHead)
      s.memInfo s.blockHead.writeOffset).map fun s =>
    { s with
      memInfoHost := s.memInfoHost + s.blockHead.writeOffset.toNat
      memInfo := s.memInfo + s.blockHead.writeOffset }

def simtRecordD2H (outcomes : BlockOutcomes) (s : LaunchFinalize) : Option LaunchFinalize :=
  let allThreadSize := getAllThreadSize s.globalHead
  (memcpyD2H l outcomes.simtRecords s s.memInfoHost
      (l.blockSize - sizeofRecordGlobalHead - sizeofRecordBlockHead - s.blockHead.writeOffset)
      (s.memInfoBackUp + s.globalHead.offsetInfo.simtHeadOffset.toUInt64)
      allThreadSize).map fun s =>
    { s with
      memInfoHost := s.memInfoHost + allThreadSize.toNat
      memInfo := s.memInfo + allThreadSize }

/-- What `ShadowMemoryD2H` finds. -/
def finalizeBlock (outcomes : BlockOutcomes) (s : LaunchFinalize) : FinalizeBlock where
  blockSize := l.blockSize
  globalHead := s.globalHead
  blockHead := s.blockHead.toRecordBlockHead
  memInfoBackUp := s.memInfoBackUp
  memInfoHost := s.buffer.drop s.memInfoHost
  shadowMemory := l.deviceBytes
    (s.memInfoBackUp + s.globalHead.offsetInfo.shadowMemoryOffset.toUInt64)
    s.globalHead.offsetInfo.shadowMemoryByteSize.toNat
  runtime := outcomes.shadow

/-- It writes from the cursor on, and leaves the cursor where it is. -/
def copyShadowMemory (outcomes : BlockOutcomes) (s : LaunchFinalize) : UInt64 × LaunchFinalize :=
  let result := shadowMemoryD2H (finalizeBlock l outcomes s)
  (result.1, { s with buffer := s.buffer.take s.memInfoHost ++ result.2 })

/-- Steps 4 and 5: the length of what is sent of the threads. -/
def simtD2H (outcomes : BlockOutcomes) (s : LaunchFinalize) : Option (UInt64 × LaunchFinalize) :=
  (simtRecordD2H l outcomes s).bind fun s =>
    let result := copyShadowMemory l outcomes s
    if result.1 = 0 then none else some (getAllThreadSize s.globalHead + result.1, result.2)

/-! ## The loop -/

/-- One `KERNEL_RECORD`: its length and as many bytes of the buffer. -/
structure Report where
  blockIdx : ℕ
  memSize : UInt64
  content : List UInt8
  deriving DecidableEq, Repr

/-- Step 6: the block is sent, and the pointers go to the next one. -/
def sendBlock (blockIdx : ℕ) (simtMemSize : UInt64) (s : LaunchFinalize) :
    Report × LaunchFinalize :=
  let next := s.memInfoBackUp +
    (getBlockSize l.deviceType s.globalHead (UInt64.ofNat blockIdx)).toUInt64
  let memSize := sizeofRecordGlobalHead + sizeofRecordBlockHead + s.blockHead.writeOffset +
    simtMemSize
  (⟨blockIdx, memSize, s.buffer.take memSize.toNat⟩,
    { s with
      memInfo := next
      memInfoBackUp := next
      memInfoHost := sizeofRecordGlobalHead.toNat })

/-- One round; without a report the loop is left. The id to check is that of the head at its
start. -/
def reportBlock (start : RecordGlobalHead) (outcomes : BlockOutcomes) (blockIdx : ℕ)
    (s : LaunchFinalize) : Option (Report × LaunchFinalize) :=
  let s := if s.globalHead.supportSimt && blockIdx = 0 then dumpMemoryInfo l outcomes s else s
  (blockHeadD2H l outcomes s).bind fun s =>
    (if s.blockHead.hasRecords then simdRecordD2H l outcomes s else some s).bind fun s =>
      (if s.globalHead.supportSimt && isCheckedBlock l.deviceType start (UInt64.ofNat blockIdx) then
          simtD2H l outcomes s
        else some (0, s)).map fun result => sendBlock l blockIdx result.1 result.2

/-- The rounds that are left, from a block on. -/
def reportBlocks (start : RecordGlobalHead) (outcomes : ℕ → BlockOutcomes) :
    ℕ → ℕ → LaunchFinalize → List Report
  | 0, _, _ => []
  | rounds + 1, blockIdx, s =>
    match reportBlock l start (outcomes blockIdx) blockIdx s with
    | none => []
    | some (report, s) => report :: reportBlocks start outcomes rounds (blockIdx + 1) s

def reportBlockInfo (outcomes : ℕ → BlockOutcomes) (s : LaunchFinalize) : List Report :=
  reportBlocks l s.globalHead outcomes s.globalHead.kernelInfo.totalBlockDim.toNat 0 s

/-- `GlobalHeadD2H`. -/
def globalHeadD2H (ok : Bool) (s : LaunchFinalize) : Option LaunchFinalize :=
  (memcpyD2H l ok s s.memInfoHost l.blockSize s.memInfo sizeofRecordGlobalHead).map fun s =>
    { s with
      memInfo := s.memInfo + sizeofRecordGlobalHead
      memInfoBackUp := s.memInfoBackUp + sizeofRecordGlobalHead
      memInfoHost := s.memInfoHost + sizeofRecordGlobalHead.toNat }

/-- The runtime, over a whole launch. -/
structure Outcomes where
  globalHead : Bool
  registers : Bool
  block : ℕ → BlockOutcomes

/-- `Init` and `Process`, with what the host buffer holds when it is allocated. -/
def process (outcomes : Outcomes) (memInfo : UInt64) (fresh : List UInt8) : List Report :=
  match globalHeadD2H l outcomes.globalHead ⟨memInfo, memInfo, 0, 0, fresh⟩ with
  | none => []
  | some s => if outcomes.registers then reportBlockInfo l outcomes.block s else []

end

end Msopcom.BlockReport
