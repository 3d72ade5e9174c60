import Msopcom.Bytes
import Msopcom.OpMemInfo
import Msopcom.Splice

set_option autoImplicit false

/-!
# Expanding the arguments of a launch

The address of the record buffer goes in as one more pointer, behind the pointers of
the kernel and before its tiling data and host inputs.
-/
namespace Msopcom
open Splice

def alignSize : UInt32 := 8
def maxAllParamSize : UInt32 := 1024 * 1024 * 1024

def getAlignSize (s : UInt32) : UInt32 := (s + alignSize - 1) / alignSize * alignSize

def pointerBytes (ptr : UInt64) : List UInt8 := Bytes.leBytes 8 ptr.toNat

def ptrSize : UInt32 := 8

structure ArgsWithMemInfo where
  bytes : List UInt8
  memInfoOffset : UInt32
  deriving DecidableEq, Repr

def fillArgsWithMemInfo (args : List UInt8) (argsSize : UInt32) (memInfo : UInt64)
    (headSize : UInt32) : Option ArgsWithMemInfo :=
  if headSize > argsSize then none
  else
    let alignHeadSize := getAlignSize headSize
    let memInfoPtr := pointerBytes memInfo
    let argsWithMemInfo :=
      List.replicate ((argsSize + alignHeadSize - headSize).toNat + ptrSize.toNat) 0
    let argsWithMemInfo := copyN args headSize.toNat argsWithMemInfo 0
    let argsWithMemInfo :=
      copyN memInfoPtr ptrSize.toNat argsWithMemInfo alignHeadSize.toNat
    let argsWithMemInfo := copyN (args.drop headSize.toNat) (argsSize - headSize).toNat
      argsWithMemInfo (alignHeadSize.toNat + ptrSize.toNat)
    some ⟨argsWithMemInfo, alignHeadSize⟩

/-- Without tiling and without host inputs the pointer comes last. -/
def appendMemInfo (args : List UInt8) (argsSize : UInt32) (memInfo : UInt64) : ArgsWithMemInfo :=
  let alignArgsSize := getAlignSize argsSize
  let argsWithMemInfo := List.replicate (alignArgsSize.toNat + ptrSize.toNat) 0
  let argsWithMemInfo := copyN args argsSize.toNat argsWithMemInfo 0
  ⟨copyN (pointerBytes memInfo) ptrSize.toNat argsWithMemInfo alignArgsSize.toNat, alignArgsSize⟩

def tilingHeadSize (needOverflowStatus : Bool) (argsInfo : RtArgsEx) : UInt32 :=
  let headSize := argsInfo.tilingAddrOffset + ptrSize
  if needOverflowStatus then headSize + ptrSize else headSize

def placeMemInfo (needOverflowStatus : Bool) (argsInfo : RtArgsEx) (args : List UInt8)
    (memInfo : UInt64) : Option ArgsWithMemInfo :=
  if argsInfo.hasTiling = 0 then
    match argsInfo.hostInputInfoPtr with
    | some table =>
      fillArgsWithMemInfo args argsInfo.argsSize memInfo (table.headD ⟨0, 0⟩).dataOffset
    | none => some (appendMemInfo args argsInfo.argsSize memInfo)
  else
    fillArgsWithMemInfo args argsInfo.argsSize memInfo (tilingHeadSize needOverflowStatus argsInfo)

/-- The table a launch gets: cleared entries where the source has no table. -/
def expandHostInputs (argsInfo : RtArgsEx) : List HostInputInfo :=
  match argsInfo.hostInputInfoPtr with
  | some table => (table.take argsInfo.hostInputInfoNum.toNat).map fun hostInput =>
      { hostInput with dataOffset := hostInput.dataOffset + ptrSize }
  | none => List.replicate argsInfo.hostInputInfoNum.toNat ⟨0, 0⟩

structure ExpandedArgs where
  argsInfo : RtArgsEx
  memInfoOffset : UInt32
  deriving DecidableEq, Repr

/-- `none` stands for `false`, which leaves the caller's `argsInfo` as it is. -/
def expandArgs (needOverflowStatus : Bool) (argsInfo : RtArgsEx) (memInfo : UInt64) :
    Option ExpandedArgs :=
  if memInfo = 0 then none
  else
    match argsInfo.args with
    | none => none
    | some args =>
      if argsInfo.isNoNeedH2DCopy = 1 then none
      else if argsInfo.argsSize > maxAllParamSize then none
      else
        (placeMemInfo needOverflowStatus argsInfo args memInfo).map fun placed =>
          ⟨{ argsInfo with
              args := some placed.bytes
              hostInputInfoPtr := some (expandHostInputs argsInfo)
              argsSize := UInt32.ofNat placed.bytes.length
              tilingDataOffset :=
                if argsInfo.hasTiling = 0 then argsInfo.tilingDataOffset
                else argsInfo.tilingDataOffset + ptrSize },
            placed.memInfoOffset⟩

end Msopcom
