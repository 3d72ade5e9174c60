import Msopcom.Bytes
import Msopcom.RecordLayout
import Msopcom.ShadowMemory
import Msopcom.Splice

set_option autoImplicit false

/-!
# Reporting the shadow memory of a block

`ShadowMemoryD2H` copies the tables to the host, decodes them, and then writes the
decoded records over the tables.
-/
namespace Msopcom
open Bytes Splice

def sizeofSimtRecordBlockHead : UInt64 := 64
def simtThreadMaxSize : UInt64 := 2048

def getAllThreadSize (globalHead : RecordGlobalHead) : UInt64 :=
  (globalHead.offsetInfo.threadByteSize.toUInt64 + sizeofSimtRecordBlockHead) * simtThreadMaxSize

def sizeofShadowMemoryRecordHead : UInt64 := 16
def sizeofShadowMemoryRecord : UInt64 := 64
def shadowMemoryRecordType : ℕ := 80000

def AddressSpace.value : AddressSpace → ℕ
  | .privateSpace => 0
  | .gm => 1
  | .l1 => 2
  | .l0A => 3
  | .l0B => 4
  | .l0C => 5
  | .ub => 6
  | .bt => 7
  | .fb => 8
  | .invalid => 2 ^ 32 - 1

def AccessType.value : AccessType → ℕ
  | .read => 0
  | .write => 1
  | .memcpyBlocks => 2

def headBytes (recordCount : UInt64) : List UInt8 :=
  leBytes 4 shadowMemoryRecordType ++ List.replicate 4 0 ++ leBytes 8 recordCount.toNat

/-- `ShadowMemoryRecord` in memory; each record starts out cleared. -/
def recordBytes (r : ShadowMemoryRecord) : List UInt8 :=
  leBytes 8 r.addr.toNat ++ leBytes 8 r.size.toNat ++
    (leBytes 8 r.location.fileNo.toNat ++ leBytes 8 r.location.lineNo.toNat ++
      leBytes 8 r.location.pc.toNat ++ leBytes 2 r.location.blockId.toNat ++
      List.replicate 6 0) ++
    (leBytes 2 r.threadLoc.idX.toNat ++ leBytes 2 r.threadLoc.idY.toNat ++
      leBytes 2 r.threadLoc.idZ.toNat ++ List.replicate 2 0) ++
    leBytes 4 r.space.value ++ leBytes 1 r.accessType.value ++ List.replicate 3 0

def recordsBytes (records : List ShadowMemoryRecord) : List UInt8 := records.flatMap recordBytes

/-- Whether the runtime lets each of the three copies through. -/
structure RuntimeOutcomes where
  shadowMemory : Bool
  recordHead : Bool
  records : Bool
  deriving DecidableEq, Repr

/-- What `ShadowMemoryD2H` finds: the members of `SanitizerLaunchFinalize`, the host
buffer from `memInfoHost_` on, and the shadow memory on the device. -/
structure FinalizeBlock where
  blockSize : UInt64
  globalHead : RecordGlobalHead
  blockHead : RecordBlockHead
  memInfoBackUp : UInt64
  memInfoHost : List UInt8
  shadowMemory : List UInt8
  runtime : RuntimeOutcomes

/-- A copy fails when it needs more than its room or when the runtime says so. -/
def memcpyOk (runtimeOk : Bool) (destMax count : UInt64) : Bool :=
  runtimeOk && count ≤ destMax

/-- The difference is taken in 64 bits and kept in 32. -/
def blockRemainSize (block : FinalizeBlock) : UInt32 :=
  (block.blockSize - sizeofRecordGlobalHead - sizeofRecordBlockHead - block.blockHead.writeOffset -
    getAllThreadSize block.globalHead).toUInt32

def smBaseAddr (block : FinalizeBlock) : UInt64 :=
  block.memInfoBackUp + block.globalHead.offsetInfo.shadowMemoryOffset.toUInt64

def copiedShadowMemory (block : FinalizeBlock) : List UInt8 :=
  copyN block.shadowMemory block.globalHead.offsetInfo.shadowMemoryByteSize.toNat block.memInfoHost 0

def parsedRecords (block : FinalizeBlock) : List ShadowMemoryRecord :=
  parseSmTable (fun off => wordAt (copiedShadowMemory block) off.toNat) (smBaseAddr block)
    block.blockHead []

def shadowMemoryCopyOk (block : FinalizeBlock) : Bool :=
  memcpyOk block.runtime.shadowMemory (blockRemainSize block).toUInt64
    block.globalHead.offsetInfo.shadowMemoryByteSize.toUInt64

def recordHeadCopyOk (block : FinalizeBlock) : Bool :=
  memcpyOk block.runtime.recordHead (blockRemainSize block).toUInt64 sizeofShadowMemoryRecordHead

def recordsCopyOk (block : FinalizeBlock) (recordsSize : UInt64) : Bool :=
  memcpyOk block.runtime.records
    ((blockRemainSize block).toUInt64 - sizeofShadowMemoryRecordHead)
    (recordsSize * sizeofShadowMemoryRecord)

/-- The reported length and the host buffer it is read from. -/
def shadowMemoryD2H (block : FinalizeBlock) : UInt64 × List UInt8 :=
  if shadowMemoryCopyOk block then
    let host := copiedShadowMemory block
    let records := parsedRecords block
    let recordsSize := UInt64.ofNat records.length
    if recordHeadCopyOk block then
      let host := copyN (headBytes recordsSize) sizeofShadowMemoryRecordHead.toNat host 0
      if recordsSize = 0 then (sizeofShadowMemoryRecordHead, host)
      else if recordsCopyOk block recordsSize then
        (sizeofShadowMemoryRecordHead + recordsSize * sizeofShadowMemoryRecord,
          copyN (recordsBytes records) (recordsSize * sizeofShadowMemoryRecord).toNat host
            sizeofShadowMemoryRecordHead.toNat)
      else (sizeofShadowMemoryRecordHead, host)
    else (0, host)
  else (0, block.memInfoHost)

end Msopcom
