import Mathlib.Data.List.Basic
import Mathlib.Algebra.Ring.Nat

set_option autoImplicit false

/-!
# The online shadow memory

A table of three levels holds one status word for each byte the threads of a block
have touched. The host walks it and merges neighbouring bytes into records.
-/
namespace Msopcom

structure SimtThreadLocation where
  idX : UInt16
  idY : UInt16
  idZ : UInt16
  deriving DecidableEq, Repr

structure Location where
  fileNo : UInt64
  lineNo : UInt64
  pc : UInt64
  blockId : UInt16
  deriving DecidableEq, Repr

inductive AddressSpace
  | privateSpace
  | gm
  | l1
  | l0A
  | l0B
  | l0C
  | ub
  | bt
  | fb
  | invalid
  deriving DecidableEq, Repr

inductive AccessType
  | read
  | write
  | memcpyBlocks
  deriving DecidableEq, Repr

structure ShadowMemoryRecord where
  addr : UInt64
  size : UInt64
  location : Location
  threadLoc : SimtThreadLocation
  space : AddressSpace
  accessType : AccessType
  deriving DecidableEq, Repr

structure BlockInfo where
  blockId : UInt16
  threadXDim : UInt16
  threadYDim : UInt16
  deriving DecidableEq, Repr

structure RecordBlockHead where
  writeOffset : UInt64
  blockInfo : BlockInfo
  deriving DecidableEq, Repr

/-! ## The status word -/

/-- Four bits of the status word; the source casts those beyond its enumerators too. -/
inductive MemoryByteStatus
  | default
  | read
  | globalRead
  | write
  | race
  | unnamed (bits : UInt64)
  deriving DecidableEq, Repr

inductive OnlineMemoryType
  | gm
  | ub
  deriving DecidableEq, Repr

def pcStartBit : UInt64 := 32
def pcMask : UInt64 := 0xFFFF
def memoryTypeStartBit : UInt64 := 30
def memoryTypeMask : UInt64 := 0x1
def memoryStatusStartBit : UInt64 := 11
def memoryStatusMask : UInt64 := 0xF
def threadIdMask : UInt64 := 0x7FF

def memoryByteStatus (status : UInt64) : MemoryByteStatus :=
  let bits := (status >>> memoryStatusStartBit) &&& memoryStatusMask
  if bits = 0 then .default
  else if bits = 1 then .read
  else if bits = 2 then .globalRead
  else if bits = 3 then .write
  else if bits = 4 then .race
  else .unnamed bits

def onlineMemoryType (status : UInt64) : OnlineMemoryType :=
  if (status >>> memoryTypeStartBit) &&& memoryTypeMask = 0 then .gm else .ub

def isReadStatus (memStatus : MemoryByteStatus) : Bool :=
  memStatus = .globalRead || memStatus = .read

/-- The location stays cleared when a dimension is zero. -/
def decomposeThreadId (threadId : UInt16) (head : RecordBlockHead) : SimtThreadLocation :=
  let threadXDim := head.blockInfo.threadXDim
  let threadYDim := head.blockInfo.threadYDim
  if threadXDim = 0 ∨ threadYDim = 0 then ⟨0, 0, 0⟩
  else
    let plane := threadXDim.toNat * threadYDim.toNat
    { idX := threadId % threadXDim
      idY := UInt16.ofNat (threadId.toNat % plane / threadXDim.toNat)
      idZ := UInt16.ofNat (threadId.toNat / plane) }

/-- The record of one byte, as `MergeSmRecord` fills it in. -/
def smRecord (status addr : UInt64) (head : RecordBlockHead) : ShadowMemoryRecord where
  addr := addr
  size := 1
  location := ⟨0, 0, (status >>> pcStartBit) &&& pcMask, head.blockInfo.blockId⟩
  threadLoc := decomposeThreadId (status &&& threadIdMask).toUInt16 head
  space := if onlineMemoryType status = .gm then .gm else .ub
  accessType := if isReadStatus (memoryByteStatus status) then .read else .write

/-! ## Merging -/

def canMerge (back record : ShadowMemoryRecord) : Bool :=
  back.location = record.location && back.accessType = record.accessType &&
    back.space = record.space && back.threadLoc = record.threadLoc &&
    back.addr + back.size = record.addr

def mergeSmRecord (records : List ShadowMemoryRecord) (status addr : UInt64)
    (head : RecordBlockHead) : List ShadowMemoryRecord :=
  let record := smRecord status addr head
  match records.getLast? with
  | none => [record]
  | some back =>
    if canMerge back record then
      records.dropLast ++ [{ back with size := back.size + record.size }]
    else records ++ [record]

/-! ## Walking the tables -/

/-- The host copy of the tables: the word at a byte offset. -/
abbrev ShadowImage := UInt64 → UInt64

def onlineGlobalMemMask : UInt64 := 0xFFFFFFFFFFFF
def onlineLocalMemMask : UInt64 := 0xFFFFFFFF
def onlineOneSmStandForByte : UInt64 := 0xFFFF + 1
def sizeofShadowMemoryHeapHead : UInt64 := 64

def unallocatable : UInt64 := 0xFFFFFFFFFFFFFFFF
def lockedByOtherThreads : UInt64 := 1

/-- Each round clears the lowest bit that is set; a word has at most 64 of them. -/
def countOneBitsLoop : ℕ → UInt64 → UInt8 → UInt8
  | 0, _, count => count
  | fuel + 1, number, count =>
    if number = 0 then count
    else countOneBitsLoop fuel (number &&& (number - 1)) (count + 1)

def countOneBits (number : UInt64) : UInt8 := countOneBitsLoop 64 number 0

def smAddr (l0Idx l1Idx l2Idx : UInt64) : UInt64 :=
  let l1OneBits := countOneBits onlineLocalMemMask
  let l2OneBits := countOneBits (onlineOneSmStandForByte - 1)
  (l0Idx <<< l1OneBits.toUInt64) ||| (l1Idx <<< l2OneBits.toUInt64) ||| l2Idx

def isRecorded (status : UInt64) : Bool :=
  memoryByteStatus status ≠ .default &&
    (onlineMemoryType status = .gm || onlineMemoryType status = .ub)

def parseSmL2Table (image : ShadowImage) (l2TblPtr l0Idx l1Idx : UInt64) (head : RecordBlockHead)
    (records : List ShadowMemoryRecord) : List ShadowMemoryRecord :=
  (List.range onlineOneSmStandForByte.toNat).foldl (fun records i =>
    let l2Idx := UInt64.ofNat i
    let status := image (l2TblPtr + 8 * l2Idx)
    if isRecorded status then mergeSmRecord records status (smAddr l0Idx l1Idx l2Idx) head
    else records) records

/-- An entry behind which there is no table. -/
def isSkipped (entry : UInt64) : Bool :=
  entry = 0 || entry = unallocatable || entry = lockedByOtherThreads

def l1TblNum : UInt64 :=
  (onlineLocalMemMask + onlineOneSmStandForByte - 1) / onlineOneSmStandForByte

def parseSmL1Table (image : ShadowImage) (smBaseAddr : UInt64) (head : RecordBlockHead)
    (l0Idx : UInt64) (records : List ShadowMemoryRecord) : List ShadowMemoryRecord :=
  let l1TblPtr := image (sizeofShadowMemoryHeapHead + 8 * l0Idx) - smBaseAddr
  (List.range l1TblNum.toNat).foldl (fun records i =>
    let l1Idx := UInt64.ofNat i
    let entry := image (l1TblPtr + 8 * l1Idx)
    if isSkipped entry then records
    else parseSmL2Table image (entry - smBaseAddr) l0Idx l1Idx head records) records

def l0TblNum : UInt64 := (onlineGlobalMemMask + onlineLocalMemMask - 1) / onlineLocalMemMask

def parseSmTable (image : ShadowImage) (smBaseAddr : UInt64) (head : RecordBlockHead)
    (records : List ShadowMemoryRecord) : List ShadowMemoryRecord :=
  (List.range l0TblNum.toNat).foldl (fun records i =>
    let l0Idx := UInt64.ofNat i
    if isSkipped (image (sizeofShadowMemoryHeapHead + 8 * l0Idx)) then records
    else parseSmL1Table image smBaseAddr head l0Idx records) records

end Msopcom
