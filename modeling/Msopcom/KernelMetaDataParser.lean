import Msopcom.FuelLoop
import Msopcom.OpMemInfo
import Msopcom.OrderedSet

set_option autoImplicit false

/-!
# The parser of the kernel meta section

The section is a sequence of entries; the value of a DFX entry is a sequence of
argument records. The index into the section has 32 bits, its size has more.
-/
namespace Msopcom
open FuelLoop

inductive DfxTensorType
  | invalidTensor
  | generalTensor
  | inputTensor
  | outputTensor
  | workspaceTensor
  | ascendcLog
  | mc2Ctx
  | tilingData
  | l1
  | l2
  | overflowMes
  | fftsAddress
  | shapeTensor
  | unknown
  deriving DecidableEq, Repr

def DfxTensorType.ofCode : ℕ → DfxTensorType
  | 0 => .invalidTensor
  | 1 => .generalTensor
  | 2 => .inputTensor
  | 3 => .outputTensor
  | 4 => .workspaceTensor
  | 5 => .ascendcLog
  | 6 => .mc2Ctx
  | 7 => .tilingData
  | 8 => .l1
  | 9 => .l2
  | 10 => .overflowMes
  | 11 => .fftsAddress
  | 12 => .shapeTensor
  | _ => .unknown

inductive DfxPointerType
  | invalidPointer
  | level1Pointer
  | level2Pointer
  | level2PointerWithShape
  | shapeTensorPlacehold
  | unknown
  deriving DecidableEq, Repr

def DfxPointerType.ofCode : ℕ → DfxPointerType
  | 0 => .invalidPointer
  | 1 => .level1Pointer
  | 2 => .level2Pointer
  | 3 => .level2PointerWithShape
  | 4 => .shapeTensorPlacehold
  | _ => .unknown

def isSupportDfxPointPtr : DfxPointerType → Bool
  | .level1Pointer => true
  | .level2PointerWithShape => true
  | .shapeTensorPlacehold => true
  | _ => false

def dfxType : ℕ := 4

def tikType : ℕ := 6

/-! ## What is parsed -/

def SecondPtrAddrInfos.KeyBefore (a b : UInt64 × SecondPtrInfo) : Prop := a.1 < b.1

instance : DecidableRel SecondPtrAddrInfos.KeyBefore :=
  fun a b => inferInstanceAs (Decidable (a.1 < b.1))

/-- `std::map::insert`: a stored key keeps its value. -/
def SecondPtrAddrInfos.insert (infos : SecondPtrAddrInfos) (key : UInt64) (info : SecondPtrInfo) :
    SecondPtrAddrInfos where
  entries := OrderedSet.place SecondPtrAddrInfos.KeyBefore (key, info) infos.entries
  sorted := OrderedSet.place_sorted infos.sorted

/-- The flags of an `OpMemInfo` that the parser sets. -/
structure MetaMemInfo extends OpMemInfo where
  isTik : Bool := false
  hasMc2Ctx : Bool := false
  isFFTS : Bool := false

def MetaMemInfo.clear (o : MetaMemInfo) : MetaMemInfo :=
  { o.toOpMemInfo.clear with }

def rtDevBinaryMagicElf : UInt32 := 0x43554245

def setFftsInfo (needAddFftsAddr : Bool) (memInfo : MetaMemInfo) (magic : UInt32 := 0) :
    MetaMemInfo :=
  if !needAddFftsAddr then memInfo
  else if memInfo.skipNum ≠ 0 ∨ magic = rtDevBinaryMagicElf then
    { memInfo with skipNum := 1, isFFTS := true }
  else { memInfo with isFFTS := false }

/-! ## Reads -/

inductive ParseFault
  | outOfBounds
  | outOfFuel
  deriving DecidableEq, Repr

def byteAt (metaData : List UInt8) (index : UInt32) : Except ParseFault ℕ :=
  match metaData[index.toNat]? with
  | none => .error .outOfBounds
  | some byte => .ok byte.toNat

def le16At (metaData : List UInt8) (index : UInt32) : Except ParseFault ℕ := do
  let low ← byteAt metaData index
  let high ← byteAt metaData (index + 1)
  return low + 256 * high

def be16At (metaData : List UInt8) (index : UInt32) : Except ParseFault ℕ := do
  let high ← byteAt metaData index
  let low ← byteAt metaData (index + 1)
  return 256 * high + low

def beNat (bytes : List UInt8) : ℕ :=
  bytes.foldl (fun value byte => 256 * value + byte.toNat) 0

/-- The loops over eight bytes; their index has 64 bits. -/
def be64At (metaData : List UInt8) (index : ℕ) : Except ParseFault UInt64 :=
  if index + 8 ≤ metaData.length then .ok (UInt64.ofNat (beNat ((metaData.drop index).take 8)))
  else .error .outOfBounds

/-! ## The handlers of the table -/

def sizeofHcclCombinOpParam : UInt64 := 8888

/-- Where the bytes of the length are missing nothing is stored. -/
def parseMetaInput (metaData : List UInt8) (index paramsNo : UInt32) (memInfo : MetaMemInfo) :
    Except ParseFault MetaMemInfo :=
  if metaData.length < (8 + index).toNat then .ok memInfo
  else do
    let length ← be64At metaData index.toNat
    return { memInfo with
      inputParamsAddrInfos :=
        memInfo.inputParamsAddrInfos ++ [⟨0, length, .extra, .input, paramsNo.toUInt64⟩] }

def parseMetaMc2Ctx (memInfo : MetaMemInfo) : MetaMemInfo :=
  { memInfo with
    inputParamsAddrInfos :=
      memInfo.inputParamsAddrInfos ++ [⟨0, sizeofHcclCombinOpParam, .extra, .hcclMc2Context, 0⟩]
    hasMc2Ctx := true }

def parseMetaTiling (metaData : List UInt8) (index : UInt32) (memInfo : MetaMemInfo) :
    Except ParseFault MetaMemInfo :=
  if metaData.length < (8 + index).toNat then .ok memInfo
  else do
    let tilingDataSize ← be64At metaData index.toNat
    return { memInfo with tilingDataSize := tilingDataSize }

inductive DfxHandler
  | input
  | ffts
  | tiling
  | mc2Ctx
  deriving DecidableEq, Repr

/-- The table `dfxParser_`. -/
def dfxParser : DfxTensorType → Option DfxHandler
  | .generalTensor => some .input
  | .inputTensor => some .input
  | .outputTensor => some .input
  | .workspaceTensor => some .input
  | .fftsAddress => some .ffts
  | .tilingData => some .tiling
  | .mc2Ctx => some .mc2Ctx
  | .shapeTensor => some .input
  | _ => none

def DfxHandler.run (needAddFftsAddr : Bool) (metaData : List UInt8) (index paramsNo : UInt32)
    (memInfo : MetaMemInfo) : DfxHandler → Except ParseFault MetaMemInfo
  | .input => parseMetaInput metaData index paramsNo memInfo
  | .ffts => .ok (setFftsInfo needAddFftsAddr memInfo)
  | .tiling => parseMetaTiling metaData index memInfo
  | .mc2Ctx => .ok (parseMetaMc2Ctx memInfo)

/-! ## The loops -/

structure ArgsState where
  index : UInt32
  paramsIdx : UInt32
  memInfo : MetaMemInfo

def readSecondPtr (metaData : List UInt8) (index paramsIdx : UInt32) (ptrType : DfxPointerType)
    (memInfo : MetaMemInfo) : Except ParseFault MetaMemInfo :=
  if ptrType = .level2PointerWithShape then do
    let dtypeBytes ← be64At metaData (index.toNat + 16)
    return { memInfo with
      secondPtrAddrInfos :=
        memInfo.secondPtrAddrInfos.insert paramsIdx.toUInt64 { dtypeBytes := dtypeBytes } }
  else .ok memInfo

/-- One round of the loop over the records of a DFX value. -/
def parseRecord (needAddFftsAddr : Bool) (metaData : List UInt8) (dfxRange : UInt32)
    (s : ArgsState) : Except ParseFault (LoopStep ArgsState ArgsState) :=
  if ¬ (s.index < dfxRange ∧ (s.index + 7).toNat < metaData.length) then .ok (.done s)
  else do
    let numOfUint64 ← be16At metaData (s.index + 2)
    if numOfUint64 = 0 then return .next { s with index := s.index + 4 }
    else
      let index := s.index + 4
      let type ← be16At metaData (index + 6)
      let ptrType ← be16At metaData (index + 4)
      match dfxParser (DfxTensorType.ofCode type) with
      | none => return .done { s with index := index + UInt32.ofNat (numOfUint64 * 8) }
      | some handler =>
        if !isSupportDfxPointPtr (DfxPointerType.ofCode ptrType) then
          return .done { s with index := index, memInfo := s.memInfo.clear }
        else
          let memInfo ← readSecondPtr metaData index s.paramsIdx (DfxPointerType.ofCode ptrType)
            s.memInfo
          let index := index + 8
          let memInfo ← handler.run needAddFftsAddr metaData index (s.paramsIdx + 1) memInfo
          return .next
            ⟨index + UInt32.ofNat ((numOfUint64 - 1) * 8), s.paramsIdx + 1, memInfo⟩

/-- The index that `ParseKernelArgs` leaves, and what it has stored. -/
def parseKernelArgs (needAddFftsAddr : Bool) (metaData : List UInt8) (fuel : ℕ) (index : UInt32)
    (memInfo : MetaMemInfo) : Except ParseFault (UInt32 × MetaMemInfo) := do
  let dfxLen ← le16At metaData index
  let index := index + 2
  let dfxRange := UInt32.ofNat dfxLen + index
  let s ← runLoop .outOfFuel (parseRecord needAddFftsAddr metaData dfxRange) fuel
    ⟨index, 0, memInfo⟩
  return (s.index, s.memInfo)

structure ParseState where
  index : UInt32
  memInfo : MetaMemInfo

/-- `size() - 1` of an unsigned type. -/
def lastIndex (size : ℕ) : ℕ := if size = 0 then 2 ^ 64 - 1 else size - 1

def parseEntry (needAddFftsAddr : Bool) (metaData : List UInt8) (fuel : ℕ) (s : ParseState) :
    Except ParseFault (LoopStep ParseState (Bool × MetaMemInfo)) :=
  if ¬ s.index.toNat < lastIndex metaData.length then .ok (.done (true, s.memInfo))
  else do
    let type ← le16At metaData s.index
    let index := s.index + 2
    if (index + 2).toNat > metaData.length then return .done (false, s.memInfo)
    else if type = dfxType then
      let (index, memInfo) ← parseKernelArgs needAddFftsAddr metaData fuel index s.memInfo
      if memInfo.inputParamsAddrInfos.isEmpty then return .done (false, memInfo)
      else return .next ⟨index, memInfo⟩
    else
      let memInfo := if type = tikType then { s.memInfo with isTik := true } else s.memInfo
      let length ← le16At metaData index
      return .next ⟨index + UInt32.ofNat (2 + length), memInfo⟩

/-- The answer of `Parse` and the information it has stored. -/
def parse (needAddFftsAddr : Bool) (metaData : List UInt8) (fuel : ℕ) :
    Except ParseFault (Bool × MetaMemInfo) :=
  runLoop .outOfFuel (parseEntry needAddFftsAddr metaData fuel) fuel ⟨0, {}⟩

end Msopcom
