import Msopcom.OrderedSet
import Msopcom.Protocol

set_option autoImplicit false

/-!
# The table of device memory records

`MemoryManage` keeps the records of every allocation the hooks see, together
with a 32-bit counter of how many entries the device side was told to expect.
-/
namespace Msopcom

abbrev AddrInfoSet := OrderedSet AddrInfo AddrInfo.Before
abbrev AddrsSet := OrderedSet HostMemoryInfo HostMemoryInfo.Before

structure MemoryManage where
  memoryOpAddrInfos : AddrInfoSet
  mallocCount : UInt32

/-- ACL and RT count as one source. -/
def isSameMemInfoSrc (lhs rhs : MemInfoSrc) : Bool :=
  if (lhs = .acl ∨ lhs = .rt) ∧ (rhs = .acl ∨ rhs = .rt) then true else lhs = rhs

def isAddrInRange (addr size thresholdAddr thresholdSize : UInt64) : Bool :=
  addr ≥ thresholdAddr && thresholdSize ≥ size && addr + size ≤ thresholdAddr + thresholdSize

def hasExtra (addrsVec : AddrInfoSet) : Bool :=
  addrsVec.elems.any fun addrs => addrs.memInfoSrc = .extra

namespace MemoryManage

def reset : MemoryManage := ⟨.empty, 0⟩

def cacheMalloc (m : MemoryManage) (addr : UInt64) (infoSrc : MemInfoSrc) (size : UInt64 := 0)
    (isUpdateCount : Bool := true) : MemoryManage where
  memoryOpAddrInfos := m.memoryOpAddrInfos.insert ⟨addr, size, infoSrc, .default, 0⟩
  mallocCount := if isUpdateCount then m.mallocCount + 1 else m.mallocCount

/-- What `CacheMemory<FREE>` looks for: the address and the class of the source. -/
def matchesFree (addr : UInt64) (infoSrc : MemInfoSrc) (it : AddrInfo) : Bool :=
  it.addr = addr && isSameMemInfoSrc it.memInfoSrc infoSrc

/-- `CacheMemory<FREE>`: the first match goes; without one only an error is logged. -/
def cacheFree (m : MemoryManage) (addr : UInt64) (infoSrc : MemInfoSrc) (_size : UInt64 := 0)
    (_isUpdateCount : Bool := true) : MemoryManage :=
  if m.memoryOpAddrInfos.elems.any (matchesFree addr infoSrc) then
    { memoryOpAddrInfos := m.memoryOpAddrInfos.eraseFirst (matchesFree addr infoSrc)
      mallocCount := m.mallocCount - 1 }
  else m

def cacheMemoryCount (m : MemoryManage) (count : UInt32) : MemoryManage :=
  { m with mallocCount := m.mallocCount + count }

def processMstxHeapMem (cacheRtAclMem : AddrsSet) (addrInfo : AddrInfo) : AddrsSet :=
  match cacheRtAclMem.elems.find?
      fun it => isAddrInRange addrInfo.addr addrInfo.length it.addr it.size with
  | none => cacheRtAclMem
  | some it =>
    let left := if addrInfo.addr > it.addr then
        cacheRtAclMem.insert ⟨it.addr, addrInfo.addr - it.addr⟩
      else cacheRtAclMem
    let rightSize := it.addr - addrInfo.addr + it.size - addrInfo.length
    let right := if rightSize > 0 then
        left.insert ⟨addrInfo.addr + addrInfo.length, rightSize⟩
      else left
    right.eraseFirst fun r => r = it

structure Extraction where
  ranges : List HostMemoryInfo
  cacheRtAclMems : AddrsSet

def extractStep (isExtra : Bool) (acc : Extraction) (addrs : AddrInfo) : Extraction :=
  let range : HostMemoryInfo := ⟨addrs.addr, addrs.length⟩
  let infoSrc := addrs.memInfoSrc
  if addrs.length = 0 then acc
  else if isExtra && (infoSrc = .extra || infoSrc = .manual || infoSrc = .bypass) then
    { acc with ranges := acc.ranges ++ [range] }
  else if isExtra then acc
  else if infoSrc = .acl || infoSrc = .rt then
    { acc with cacheRtAclMems := acc.cacheRtAclMems.insert range }
  else if infoSrc = .mstxHeap then
    { acc with cacheRtAclMems := processMstxHeapMem acc.cacheRtAclMems addrs }
  else { acc with ranges := acc.ranges ++ [range] }

def extractValidMems (addrInfos : AddrInfoSet) : List HostMemoryInfo :=
  let acc := addrInfos.elems.foldl (extractStep (hasExtra addrInfos)) ⟨[], .empty⟩
  acc.ranges ++ acc.cacheRtAclMems.elems

/-- The merging loop: `last` is the back of the merged vector. -/
def mergeInto (last : HostMemoryInfo) : List HostMemoryInfo → List HostMemoryInfo
  | [] => [last]
  | current :: rest =>
    let lastEnd := last.addr + last.size
    if current.addr ≤ lastEnd then
      mergeInto { last with size := max lastEnd (current.addr + current.size) - last.addr } rest
    else last :: mergeInto current rest

def mergeRanges : List HostMemoryInfo → List HostMemoryInfo
  | [] => []
  | first :: rest => mergeInto first rest

def mergeHostMems (m : MemoryManage) : List HostMemoryInfo :=
  if m.memoryOpAddrInfos.elems.isEmpty || m.mallocCount = 0 then []
  else
    let ranges := extractValidMems m.memoryOpAddrInfos
    let merged := mergeRanges (ranges.mergeSort fun a b => a.addr ≤ b.addr)
    if merged.length < m.mallocCount.toNat then
      -- The kernel walks every announced entry, so the rest is filled with empty ones.
      merged ++ List.replicate (m.mallocCount.toNat - merged.length) ⟨0, 0⟩
    else merged

def setSize (mems : List HostMemoryInfo) (index : ℕ) (size : UInt64) : List HostMemoryInfo :=
  mems.modify index fun mem => { mem with size := size }

/-- Lends the lengths of the inputs and of the tiling data to the empty entries. -/
def copyExtraMallocToHostMemory (m : MemoryManage) (inputParamsAddrInfos : List AddrInfo)
    (tilingDataSize : UInt64) : List HostMemoryInfo :=
  let hostMems := m.mergeHostMems
  let extraIndex := (hostMems.takeWhile fun mems => !(mems.addr = 0 && mems.size = 0)).length
  let filled := inputParamsAddrInfos.zipIdx.foldl
    (fun mems input => setSize mems (extraIndex + input.2) input.1.length) hostMems
  if tilingDataSize > 0 then setSize filled (extraIndex + inputParamsAddrInfos.length) tilingDataSize
  else filled

def isValidMem (it : AddrInfo) : Bool := it.addr ≠ 0 && it.length ≠ 0

def updateMemoryOp (m : MemoryManage) : MemoryManage where
  memoryOpAddrInfos := m.memoryOpAddrInfos.filter isValidMem
  mallocCount := UInt32.ofNat (m.memoryOpAddrInfos.filter isValidMem).size

end MemoryManage

inductive MemoryOp where
  | malloc (addr : UInt64) (infoSrc : MemInfoSrc) (size : UInt64) (isUpdateCount : Bool)
  | free (addr : UInt64) (infoSrc : MemInfoSrc)
  | count (n : UInt32)
  | update
  deriving DecidableEq, Repr

def MemoryOp.apply (m : MemoryManage) : MemoryOp → MemoryManage
  | .malloc addr infoSrc size isUpdateCount => m.cacheMalloc addr infoSrc size isUpdateCount
  | .free addr infoSrc => m.cacheFree addr infoSrc
  | .count n => m.cacheMemoryCount n
  | .update => m.updateMemoryOp

end Msopcom
