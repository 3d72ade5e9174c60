import Msopcom.Protocol
import Msopcom.KernelMetaDataParser
import Msopcom.Ustring

set_option autoImplicit false

/-!
# The dumped configuration of a launch

The dump of the inputs and of the tiling data of a launch and the JSON object that the
configuration is written as.
-/
namespace Msopcom
open Ustring

def rtDevBinaryMagicElfAivec : UInt32 := 0x41415246
def rtDevBinaryMagicElfAicube : UInt32 := 0x41494343

structure DumperContext where
  binPath : String := ""
  blockDim : UInt32 := 0
  devId : Int32 := 0
  isFFTS : Bool := false
  inputPathList : List String := []
  inputSizeList : List UInt64 := []
  kernelName : String := ""
  magic : UInt32 := 0
  tilingDataPath : String := ""
  tilingDataSize : UInt32 := 0
  tilingKey : UInt64 := 0
  hasTilingKey : Bool := false
  isAclNew : Bool := false
  deriving DecidableEq, Repr

/-- The members of a JSON object whose values are strings, in the order of their assignment. -/
abbrev JsonObject := List (String × String)

namespace DumperContext

def magicName (magic : UInt32) : Option String :=
  if magic = rtDevBinaryMagicElfAivec then some "RT_DEV_BINARY_MAGIC_ELF_AIVEC"
  else if magic = rtDevBinaryMagicElfAicube then some "RT_DEV_BINARY_MAGIC_ELF_AICUBE"
  else if magic = rtDevBinaryMagicElf then some "RT_DEV_BINARY_MAGIC_ELF"
  else none

def oldMode (ctx : DumperContext) : JsonObject :=
  if ctx.isAclNew then [("old_mode", "0")] else []

def tilingDataMember (ctx : DumperContext) : JsonObject :=
  if ctx.tilingDataPath ≠ "" then
    [("tiling_data_path", join [ctx.tilingDataPath, toString ctx.tilingDataSize.toNat] ";")]
  else []

def tilingKeyMember (ctx : DumperContext) : JsonObject :=
  if ctx.hasTilingKey then [("tiling_key", toString ctx.tilingKey)] else []

def launchMembers (ctx : DumperContext) : JsonObject :=
  [("bin_path", ctx.binPath),
    ("block_dim", toString ctx.blockDim.toNat),
    ("device_id", toString ctx.devId),
    ("ffts", if ctx.isFFTS then "Y" else "N")]

def inputMembers (ctx : DumperContext) : JsonObject :=
  [("input_path", join ctx.inputPathList ";"),
    ("input_size", join (ctx.inputSizeList.map toString) ";")]

/-- `none` when the magic is none of the three known ones. -/
def toJson (ctx : DumperContext) : Option JsonObject :=
  (magicName ctx.magic).map fun magic =>
    ctx.oldMode ++ ctx.launchMembers ++ ctx.inputMembers ++
      [("kernel_name", ctx.kernelName), ("magic", magic)] ++
        ctx.tilingDataMember ++ ctx.tilingKeyMember

end DumperContext

/-! ## The data -/

/-- What the calls for one input answer: host memory, the copy from the device, the bytes that
were written to the file. -/
structure DumpCalls where
  mallocHost : Bool := true
  memcpy : Bool := true
  written : UInt64
  deriving DecidableEq, Repr

def maxMemSize : UInt64 := 10 * 1024 * 1024 * 1024

def inputPath (outputDir : String) (i : ℕ) : String :=
  outputDir ++ "/input_" ++ toString i ++ ".bin"

/-- One round of the loop; the size is recorded first. -/
def dumpInput (outputDir : String) (i : ℕ) (addrInfo : AddrInfo) (calls : DumpCalls)
    (config : DumperContext) : Option DumperContext :=
  let config := { config with inputSizeList := config.inputSizeList ++ [addrInfo.length] }
  if addrInfo.length = 0 then some { config with inputPathList := config.inputPathList ++ ["n"] }
  else if addrInfo.length > maxMemSize then none
  else if !calls.mallocHost then none
  else if addrInfo.addr = 0 then none
  else if !calls.memcpy then none
  else if calls.written ≠ addrInfo.length then none
  else some { config with inputPathList := config.inputPathList ++ [inputPath outputDir i] }

def dumpInputs (outputDir : String) (calls : ℕ → DumpCalls) :
    ℕ → List AddrInfo → DumperContext → Option DumperContext
  | _, [], config => some config
  | i, addrInfo :: rest, config => do
      let config ← dumpInput outputDir i addrInfo (calls i) config
      dumpInputs outputDir calls (i + 1) rest config

def dumpInputData (outputDir : String) (inputParamsAddrInfos : List AddrInfo)
    (calls : ℕ → DumpCalls) (config : DumperContext) : Option DumperContext :=
  if inputParamsAddrInfos = [] then none
  else dumpInputs outputDir calls 0 inputParamsAddrInfos config

/-- `written` is what the write of the file answers. -/
def dumpTilingData (outputDir : String) (tilingData : List UInt8) (written : ℕ)
    (config : DumperContext) : Option DumperContext :=
  if tilingData = [] then some config
  else if written ≠ tilingData.length then none
  else some { config with
    tilingDataPath := outputDir ++ "/input_tiling.bin"
    tilingDataSize := UInt32.ofNat tilingData.length }

/-! ## The launch -/

/-- What `LaunchContext::Save` takes from the launch; the name has lost its suffix, and a
function got by its name has no tiling key. -/
structure SavedLaunch where
  binPath : String
  blockDim : UInt32
  devId : Int32
  isFFTS : Bool
  kernelName : String
  magic : UInt32
  tilingKey : Option UInt64
  deriving DecidableEq, Repr

def SavedLaunch.fill (l : SavedLaunch) (config : DumperContext) : DumperContext :=
  { config with
    isFFTS := l.isFFTS
    magic := l.magic
    blockDim := l.blockDim
    kernelName := l.kernelName
    tilingKey := l.tilingKey.getD 0
    binPath := l.binPath
    hasTilingKey := l.tilingKey.isSome
    devId := l.devId
    isAclNew := true }

/-- The data of the arguments is dumped first; `none` for the tiling data is that there is none. -/
def SavedLaunch.save (l : SavedLaunch) (outputPath : String) (inputParamsAddrInfos : List AddrInfo)
    (calls : ℕ → DumpCalls) (tilingData : Option (List UInt8)) (written : ℕ) :
    Option DumperContext :=
  (dumpInputData outputPath inputParamsAddrInfos calls {}).bind fun config =>
    (dumpTilingData outputPath (tilingData.getD []) written config).map l.fill

/-! ## What is dumped -/

/-- The path that stands for an input: `n` when there is no data, else its file. -/
def dumpedPath (outputDir : String) (i : ℕ) (addrInfo : AddrInfo) : String :=
  if addrInfo.length = 0 then "n" else inputPath outputDir i

def dumpedPaths (outputDir : String) (start : ℕ) (addrInfos : List AddrInfo) : List String :=
  addrInfos.mapIdx fun i addrInfo => dumpedPath outputDir (start + i) addrInfo

section Dump
variable {outputDir : String} {calls : ℕ → DumpCalls} {config config' : DumperContext}

theorem dumpInput_eq {i : ℕ} {addrInfo : AddrInfo} {answers : DumpCalls}
    (h : dumpInput outputDir i addrInfo answers config = some config') :
    config' = { config with
      inputSizeList := config.inputSizeList ++ [addrInfo.length]
      inputPathList := config.inputPathList ++ [dumpedPath outputDir i addrInfo] } := by
  unfold dumpInput at h
  unfold dumpedPath
  by_cases hlength : addrInfo.length = 0
  · rw [if_pos hlength] at h
    rw [if_pos hlength]
    exact (Option.some.inj h).symm
  · rw [if_neg hlength] at h
    rw [if_neg hlength]
    split_ifs at h
    exact (Option.some.inj h).symm

theorem dumpInputs_eq {addrInfos : List AddrInfo} {i : ℕ}
    (h : dumpInputs outputDir calls i addrInfos config = some config') :
    config' = { config with
      inputSizeList := config.inputSizeList ++ addrInfos.map AddrInfo.length
      inputPathList := config.inputPathList ++ dumpedPaths outputDir i addrInfos } := by
  induction addrInfos generalizing i config with
  | nil =>
    rw [dumpInputs, Option.some.injEq] at h
    rw [← h, dumpedPaths, List.mapIdx_nil, List.map_nil, List.append_nil, List.append_nil]
  | cons addrInfo rest ih =>
    obtain ⟨next, hfirst, hrest⟩ := Option.bind_eq_some_iff.mp h
    rw [ih hrest, dumpInput_eq hfirst]
    have hpaths : dumpedPaths outputDir i (addrInfo :: rest) =
        dumpedPath outputDir i addrInfo :: dumpedPaths outputDir (i + 1) rest := by
      unfold dumpedPaths
      rw [List.mapIdx_cons]
      refine congrArg _ (congrArg (fun f => List.mapIdx f rest) ?_)
      funext j next
      rw [Nat.add_right_comm, Nat.add_assoc]
    rw [hpaths, List.map_cons, List.append_assoc, List.append_assoc]
    rfl

theorem dumpInputData_eq {addrInfos : List AddrInfo}
    (h : dumpInputData outputDir addrInfos calls config = some config') :
    addrInfos ≠ [] ∧ config' = { config with
      inputSizeList := config.inputSizeList ++ addrInfos.map AddrInfo.length
      inputPathList := config.inputPathList ++ dumpedPaths outputDir 0 addrInfos } := by
  unfold dumpInputData at h
  split_ifs at h with hempty
  exact ⟨hempty, dumpInputs_eq h⟩

theorem dumpTilingData_inputs {tilingData : List UInt8} {written : ℕ}
    (h : dumpTilingData outputDir tilingData written config = some config') :
    config'.inputPathList = config.inputPathList ∧ config'.inputSizeList = config.inputSizeList ∧
      (config'.tilingDataPath = config.tilingDataPath ∨
        config'.tilingDataPath = outputDir ++ "/input_tiling.bin") := by
  unfold dumpTilingData at h
  split_ifs at h with hempty hwritten
  · rw [← Option.some.inj h]
    exact ⟨rfl, rfl, .inl rfl⟩
  · rw [← Option.some.inj h]
    exact ⟨rfl, rfl, .inr rfl⟩

/-- A saved launch: its inputs and its tiling data are dumped, the rest is the launch. -/
theorem SavedLaunch.save_eq {l : SavedLaunch} {addrInfos : List AddrInfo}
    {tilingData : Option (List UInt8)} {written : ℕ}
    (h : l.save outputDir addrInfos calls tilingData written = some config) :
    ∃ data : DumperContext, config = l.fill data ∧ addrInfos ≠ [] ∧
      data.inputPathList = dumpedPaths outputDir 0 addrInfos ∧
      data.inputSizeList = addrInfos.map AddrInfo.length ∧
      (data.tilingDataPath = "" ∨ data.tilingDataPath = outputDir ++ "/input_tiling.bin") := by
  obtain ⟨inputs, hinputs, hrest⟩ := Option.bind_eq_some_iff.mp h
  obtain ⟨data, hdata, rfl⟩ := Option.map_eq_some_iff.mp hrest
  obtain ⟨hne, rfl⟩ := dumpInputData_eq hinputs
  obtain ⟨hpaths, hsizes, htiling⟩ := dumpTilingData_inputs hdata
  exact ⟨data, rfl, hne, hpaths, hsizes, htiling⟩

end Dump

section Paths
variable {outputDir : String} {addrInfo : AddrInfo} {addrInfos : List AddrInfo} {i : ℕ}

theorem toList_inputPath : (inputPath outputDir i).toList =
    outputDir.toList ++ '/' :: ("input_".toList ++ i.repr.toList ++ ".bin".toList) := by
  unfold inputPath
  rw [String.toList_append, String.toList_append, String.toList_append, List.append_assoc,
    List.append_assoc]
  rfl

/-- The file of an input is named by the directory, so that it is not `n`. -/
theorem dumpedPath_eq_n_iff : dumpedPath outputDir i addrInfo = "n" ↔ addrInfo.length = 0 := by
  unfold dumpedPath
  split_ifs with h
  · exact iff_of_true rfl h
  · refine iff_of_false (fun hpath => ?_) h
    have hslash : '/' ∈ (inputPath outputDir i).toList := by
      rw [toList_inputPath]
      exact List.mem_append_right _ List.mem_cons_self
    rw [hpath] at hslash
    exact absurd hslash (by decide)

theorem dumpedPath_ne_empty : dumpedPath outputDir i addrInfo ≠ "" := by
  unfold dumpedPath
  split_ifs
  · decide
  · rw [ne_eq, ← String.toList_inj, toList_inputPath]
    exact List.append_ne_nil_of_right_ne_nil _ (List.cons_ne_nil _ _)

theorem not_mem_dumpedPath (h : ';' ∉ outputDir.toList) :
    ';' ∉ (dumpedPath outputDir i addrInfo).toList := by
  unfold dumpedPath
  split_ifs
  · decide
  · rw [toList_inputPath, List.mem_append, List.mem_cons, List.mem_append, List.mem_append]
    rintro (hdir | hslash | (hname | hnumber) | hsuffix)
    · exact h hdir
    · exact absurd hslash (by decide)
    · exact absurd hname (by decide)
    · exact not_mem_repr (by decide) hnumber
    · exact absurd hsuffix (by decide)

theorem exists_of_mem_dumpedPaths {path : String} (h : path ∈ dumpedPaths outputDir i addrInfos) :
    ∃ j addrInfo, path = dumpedPath outputDir j addrInfo := by
  obtain ⟨j, hj, rfl⟩ := List.mem_mapIdx.mp h
  exact ⟨i + j, _, rfl⟩

theorem length_dumpedPaths : (dumpedPaths outputDir i addrInfos).length = addrInfos.length :=
  List.length_mapIdx

end Paths

end Msopcom
