import Msopcom.Protocol

set_option autoImplicit false

/-!
# What a launch tells about the memory of its operator

The argument images of the two launch interfaces, the operator's memory record
and the parsing of its second-level pointers and of its communication context.
-/
namespace Msopcom

structure HostInputInfo where
  addrOffset : UInt32
  dataOffset : UInt32
  deriving DecidableEq, Repr

/-- `rtArgsEx_t`; a null pointer is `none`. -/
structure RtArgsEx where
  args : Option (List UInt8)
  hostInputInfoPtr : Option (List HostInputInfo) := none
  argsSize : UInt32
  tilingAddrOffset : UInt32 := 0
  tilingDataOffset : UInt32 := 0
  hostInputInfoNum : UInt16 := 0
  hasTiling : UInt8 := 0
  isNoNeedH2DCopy : UInt8 := 0
  deriving DecidableEq, Repr

structure AclrtLaunchArgsInfo where
  hostArgs : Option (List UInt8)
  argsSize : UInt64
  placeHolderArray : Option (List HostInputInfo) := none
  placeHolderNum : UInt64 := 0
  deriving DecidableEq, Repr

def hostInputs (ptr : Option (List HostInputInfo)) (num : ℕ) : List HostInputInfo :=
  (ptr.getD []).take num

def RtArgsEx.hostInputs (a : RtArgsEx) : List HostInputInfo :=
  Msopcom.hostInputs a.hostInputInfoPtr a.hostInputInfoNum.toNat

def AclrtLaunchArgsInfo.hostInputs (a : AclrtLaunchArgsInfo) : List HostInputInfo :=
  Msopcom.hostInputs a.placeHolderArray a.placeHolderNum.toNat

/-- `reinterpret_cast<uint64_t *>(buff)[index]` on a little-endian host. -/
def readWord (buff : List UInt8) (index : ℕ) : UInt64 :=
  UInt64.ofNat ((List.range 8).foldr
    (fun k acc => (buff.getD (8 * index + k) 0).toNat + 256 * acc) 0)

structure SecondPtrInfo where
  dtypeBytes : UInt64 := 0
  addrInfoVec : List AddrInfo := []
  deriving DecidableEq, Repr

structure SecondPtrAddrInfos where
  entries : List (UInt64 × SecondPtrInfo)
  sorted : entries.Pairwise fun a b => a.1 < b.1

namespace SecondPtrAddrInfos

def empty : SecondPtrAddrInfos := ⟨[], List.Pairwise.nil⟩

def modify (infos : SecondPtrAddrInfos) (key : UInt64) (f : SecondPtrInfo → SecondPtrInfo) :
    SecondPtrAddrInfos where
  entries := infos.entries.map fun e => if e.1 = key then (e.1, f e.2) else e
  sorted := by
    refine List.pairwise_map.mpr (infos.sorted.imp ?_)
    intro a b hab
    split_ifs <;> exact hab

def addrInfos (infos : SecondPtrAddrInfos) : List AddrInfo :=
  infos.entries.flatMap fun e => e.2.addrInfoVec

end SecondPtrAddrInfos

structure OpMemInfo where
  inputParamsAddrInfos : List AddrInfo := []
  secondPtrAddrInfos : SecondPtrAddrInfos := .empty
  uniqueAddrInfos : List AddrInfo := []
  skipNum : UInt32 := 0
  tilingDataSize : UInt64 := 0
  hasOverflowAddr : Bool := false
  overflowAddr : UInt64 := 0

def OpMemInfo.clear (o : OpMemInfo) : OpMemInfo :=
  { o with
    inputParamsAddrInfos := []
    secondPtrAddrInfos := .empty
    uniqueAddrInfos := []
    skipNum := 0
    tilingDataSize := 0 }

structure HcclCombinOpParam where
  rankNum : UInt32
  winSize : UInt64
  windowsIn : List UInt64
  windowsOut : List UInt64
  multiFlag : UInt8

structure KernelContext where
  mc2CtxFlag : Bool
  throughAdumpFlag : Bool
  needOverflowStatus : Bool
  deviceId : UInt64
  /-- The device memory behind an address, when it can be copied to the host. -/
  readHcclCombinOpParam : UInt64 → Option HcclCombinOpParam

/-- The loop over the first-level pointers behind one second-level pointer; what
is stored of each is up to the launch interface. -/
def secondPtrLoop (describe : UInt64 → UInt64 → ℕ → AddrInfo) (dtypeBytes : UInt64)
    (buff : List UInt8) (hostInputsPtr ptrOffset : ℕ) : ℕ → ℕ → ℕ → List AddrInfo
  | 0, _, _ => []
  | fuel + 1, dimIdx, ptrIdx =>
    if ptrOffset > 0 ∧ dimIdx < ptrOffset - 1 then
      let dimCntPtr := hostInputsPtr + 1
      let dim := (readWord buff (dimCntPtr + dimIdx)).toUInt32.toNat
      let totalDim := (List.range dim).foldl
        (fun total j => total * readWord buff (dimCntPtr + (dimIdx + 1 + j))) 1
      describe (readWord buff (hostInputsPtr + (ptrOffset + ptrIdx))) (totalDim * dtypeBytes)
          ptrIdx ::
        secondPtrLoop describe dtypeBytes buff hostInputsPtr ptrOffset fuel (dimIdx + 1 + dim)
          (ptrIdx + 1)
    else []

/-- The first-level pointers that one host input describes; `ptrOffset` bounds the
number of rounds, since each of them moves `dimIdx` on. -/
def parseHostInput (describe : UInt64 → UInt64 → ℕ → AddrInfo) (dtypeBytes : UInt64)
    (buff : List UInt8) (info : HostInputInfo) : List AddrInfo :=
  let hostInputsPtr := info.dataOffset.toNat / 8
  let ptrOffset := (readWord buff hostInputsPtr).toNat / 8
  secondPtrLoop describe dtypeBytes buff hostInputsPtr ptrOffset ptrOffset 0 0

def parseSecondPtrAddrsWith (describe : UInt64 → UInt64 → ℕ → AddrInfo) (buff : List UInt8)
    (hostInputs : List HostInputInfo) (infos : SecondPtrAddrInfos) (index : UInt32) :
    SecondPtrAddrInfos :=
  hostInputs.foldl (fun infos info =>
    if info.addrOffset.toNat / 8 ≠ index.toNat then infos
    else infos.modify index.toUInt64 fun second =>
      { second with addrInfoVec :=
          second.addrInfoVec ++ parseHostInput describe second.dtypeBytes buff info }) infos

def RtArgsEx.parseSecondPtrAddrs (a : RtArgsEx) (buff : List UInt8) (infos : SecondPtrAddrInfos)
    (index : UInt32) : SecondPtrAddrInfos :=
  parseSecondPtrAddrsWith
    (fun addr length ptrIdx => ⟨addr, length, .extra, .doublePtr, UInt64.ofNat (ptrIdx + 1)⟩)
    buff a.hostInputs infos index

def AclrtLaunchArgsInfo.parseSecondPtrAddrs (a : AclrtLaunchArgsInfo) (buff : List UInt8)
    (infos : SecondPtrAddrInfos) (index : UInt32) : SecondPtrAddrInfos :=
  parseSecondPtrAddrsWith (fun addr length _ => ⟨addr, length, .extra, .default, 0⟩)
    buff a.hostInputs infos index

def KernelContext.parseMc2CtxAddrs (ctx : KernelContext) (addr : UInt64) : List AddrInfo :=
  match ctx.readHcclCombinOpParam addr with
  | none => []
  | some opParam =>
    if opParam.multiFlag ≠ 0 then []
    else
      let infoSrc : MemInfoSrc := if ctx.throughAdumpFlag then .extra else .bypass
      (List.range opParam.rankNum.toNat).flatMap fun i =>
        if !ctx.throughAdumpFlag && ctx.deviceId.toNat = i then []
        else [⟨opParam.windowsIn.getD i 0, opParam.winSize, infoSrc, .hcclMc2Context, 0⟩,
          ⟨opParam.windowsOut.getD i 0, opParam.winSize, infoSrc, .hcclMc2Context, 0⟩]

end Msopcom
