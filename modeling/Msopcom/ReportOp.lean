import Msopcom.MemoryManage
import Msopcom.OpMemInfo

set_option autoImplicit false

/-!
# Reporting the memory of an operator

`ReportOpMallocInfo` in its two overloads and `ReportOpFreeInfo`: what they store
in the table and what they send to the tool.
-/
namespace Msopcom

structure Reporter where
  manage : MemoryManage
  notified : List HostMemRecord

namespace Reporter

def notify (r : Reporter) (record : HostMemRecord) : Reporter :=
  { r with notified := r.notified ++ [record] }

def reportMalloc (r : Reporter) (addr size : UInt64) (memInfoSrc : MemInfoSrc)
    (memInfoDesc : MemInfoDesc := .default) (paramsNo : UInt64 := 0) : Reporter :=
  { r with manage := r.manage.cacheMalloc addr memInfoSrc size }.notify
    { type := .malloc, infoSrc := memInfoSrc, dstAddr := addr, memSize := size,
      infoDesc := memInfoDesc, paramsNo := paramsNo }

def reportFree (r : Reporter) (addr : UInt64) (memInfoSrc : MemInfoSrc)
    (memInfoDesc : MemInfoDesc := .default) (paramsNo : UInt64 := 0) : Reporter :=
  { r with manage := r.manage.cacheFree addr memInfoSrc }.notify
    { type := .free, infoSrc := memInfoSrc, dstAddr := addr, infoDesc := memInfoDesc,
      paramsNo := paramsNo }

def reportMemset (r : Reporter) (addr size : UInt64) (memInfoSrc : MemInfoSrc)
    (memInfoDesc : MemInfoDesc := .default) (paramsNo : UInt64 := 0) : Reporter :=
  r.notify { type := .store, infoSrc := memInfoSrc, dstAddr := addr, memSize := size,
             infoDesc := memInfoDesc, paramsNo := paramsNo }

end Reporter

/-- The lambda `updateAddrInfos`: the map together with the order of its keys, one
entry for an address, with the greatest length seen. -/
def updateAddrInfos (addrMap : List AddrInfo) (addrInfo : AddrInfo) : List AddrInfo :=
  if addrMap.any (fun it => it.addr = addrInfo.addr) then
    addrMap.map fun it =>
      if it.addr = addrInfo.addr ∧ addrInfo.length > it.length then
        { it with length := addrInfo.length }
      else it
  else addrMap ++ [addrInfo]

def mc2ContextParamsIndex : UInt32 := 0

/-- Whether the address itself is to be stored, and the map with the shared memory
of the communication context. -/
def processMc2CtxAddr (ctx : KernelContext) (index : UInt32) (addr : UInt64)
    (addrMap : List AddrInfo) : Bool × List AddrInfo :=
  if !ctx.mc2CtxFlag || index ≠ mc2ContextParamsIndex then (true, addrMap)
  else (ctx.throughAdumpFlag, (ctx.parseMc2CtxAddrs addr).foldl updateAddrInfos addrMap)

structure InputLoop where
  inputs : List AddrInfo
  secondPtrAddrInfos : SecondPtrAddrInfos
  addrMap : List AddrInfo
  index : UInt32

/-- One round: the address is read from the arguments, second-level pointers are
resolved, and what is to be stored goes to the map. -/
def inputStep (ctx : KernelContext) (buff : List UInt8) (skipNum paramsShift : UInt32)
    (parse : SecondPtrAddrInfos → UInt32 → SecondPtrAddrInfos) (s : InputLoop) (it : AddrInfo) :
    InputLoop :=
  let it := { it with
    addr := readWord buff (skipNum.toNat + s.index.toNat)
    paramsNo := it.paramsNo - paramsShift.toUInt64 }
  let mc2 := processMc2CtxAddr ctx s.index it.addr s.addrMap
  { inputs := s.inputs ++ [it]
    secondPtrAddrInfos := parse s.secondPtrAddrInfos s.index
    addrMap := if mc2.1 then updateAddrInfos mc2.2 it else mc2.2
    index := s.index + 1 }

/-- The part the two overloads share: `uniqueAddrInfos` gets the addresses of the
inputs and of the second-level pointers, without null addresses and empty ranges. -/
def collectAddrInfos (ctx : KernelContext) (buff : List UInt8) (paramsShift : UInt32)
    (parse : SecondPtrAddrInfos → UInt32 → SecondPtrAddrInfos) (o : OpMemInfo) : OpMemInfo :=
  let s := o.inputParamsAddrInfos.foldl (inputStep ctx buff o.skipNum paramsShift parse)
    ⟨[], o.secondPtrAddrInfos, [], 0⟩
  let addrMap := s.secondPtrAddrInfos.addrInfos.foldl updateAddrInfos s.addrMap
  { o with
    inputParamsAddrInfos := s.inputs
    secondPtrAddrInfos := s.secondPtrAddrInfos
    uniqueAddrInfos := o.uniqueAddrInfos ++
      addrMap.filter fun it => it.addr ≠ 0 && it.length ≠ 0 }

def reportUnique (r : Reporter) (o : OpMemInfo) : Reporter :=
  o.uniqueAddrInfos.foldl (fun r it =>
    (r.reportMalloc it.addr it.length it.memInfoSrc it.memInfoDesc it.paramsNo).reportMemset
      it.addr it.length it.memInfoSrc it.memInfoDesc it.paramsNo) r

/-- The tiling block, with the description its entry in `uniqueAddrInfos` gets. -/
def reportTiling (r : Reporter) (o : OpMemInfo) (tilingAddr tilingSize : UInt64)
    (memInfoDesc : MemInfoDesc) : Reporter × OpMemInfo :=
  ((r.reportMalloc tilingAddr tilingSize .bypass .tiling).reportMemset tilingAddr tilingSize
      .bypass .tiling,
    { o with uniqueAddrInfos := ⟨tilingAddr, tilingSize, .bypass, memInfoDesc, 0⟩ ::
        o.uniqueAddrInfos })

/-- Rounded up to the 32 bytes the device transfers. -/
def alignTiling (size tilingDataSize : UInt64) : UInt64 := (max size tilingDataSize + 31) / 32 * 32

/-- `ReportOpMallocInfo(const rtArgsEx_t *, OpMemInfo &)`. -/
def reportOpMallocInfo (ctx : KernelContext) (argsInfo : Option RtArgsEx) (r : Reporter)
    (opMemInfo : OpMemInfo) : Reporter × OpMemInfo :=
  match argsInfo with
  | none => (r, opMemInfo)
  | some a =>
    match a.args with
    | none => (r, opMemInfo)
    | some buff =>
      let o := collectAddrInfos ctx buff
        (opMemInfo.skipNum + if ctx.mc2CtxFlag then 1 else 0) (a.parseSecondPtrAddrs buff) opMemInfo
      let r := reportUnique r o
      if a.hasTiling = 0 then (r, o)
      else if a.argsSize < a.tilingDataOffset then (r, o)
      else reportTiling r o (readWord buff (a.tilingAddrOffset.toNat / 8))
        (alignTiling (a.argsSize - a.tilingDataOffset).toUInt64 o.tilingDataSize) .tiling

/-- The place holder with the greatest address offset holds the tiling block. -/
def tilingPlaceHolder (placeHolders : List HostInputInfo) : HostInputInfo :=
  placeHolders.foldl (fun best it => if it.addrOffset > best.addrOffset then it else best) ⟨0, 0⟩

/-- `ReportOpMallocInfo(const AclrtLaunchArgsInfo &, OpMemInfo &)`. -/
def reportOpMallocInfoAcl (ctx : KernelContext) (launchArgs : AclrtLaunchArgsInfo) (r : Reporter)
    (opMemInfo : OpMemInfo) : Reporter × OpMemInfo :=
  match launchArgs.hostArgs with
  | none => (r, opMemInfo)
  | some buff =>
    let o := collectAddrInfos ctx buff 0 (launchArgs.parseSecondPtrAddrs buff) opMemInfo
    let r := reportUnique r o
    if launchArgs.placeHolderNum = 0 then (r, o)
    else
      let tiling := tilingPlaceHolder launchArgs.hostInputs
      let tilingArgsSize := launchArgs.argsSize - tiling.dataOffset.toUInt64 -
        if ctx.needOverflowStatus then 8 else 0
      reportTiling r o (readWord buff (tiling.addrOffset.toNat / 8))
        (alignTiling tilingArgsSize o.tilingDataSize) .default

def reportOpFreeInfo (r : Reporter) (opMemInfo : OpMemInfo) : Reporter × OpMemInfo :=
  let r := opMemInfo.uniqueAddrInfos.foldl
    (fun r it => r.reportFree it.addr it.memInfoSrc it.memInfoDesc it.paramsNo) r
  ({ r with manage := r.manage.updateMemoryOp }, opMemInfo.clear)

end Msopcom
