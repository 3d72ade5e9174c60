import Msopcom.KeyedList
import Msopcom.Ustring

set_option autoImplicit false

/-!
# The configuration of the kernel launcher

A configuration is the JSON object of a file. Its members are sorted into the order of the
arguments, and each is read by the function of its key.
-/
namespace Msopcom
open Ustring

namespace KernelConfig

inductive TypeName
  | fftsAddr
  | input
  | output
  | workspace
  | tiling
  deriving DecidableEq, Repr

/-- A size or a flag that the parser leaves unassigned is `none`. -/
structure Param where
  type : TypeName
  name : String := ""
  dType : String := ""
  dataSize : Option UInt64 := none
  dataPath : String := ""
  isRequired : Option Bool := none
  deriving DecidableEq, Repr

end KernelConfig

open KernelConfig

structure KernelConfig where
  hasTilingKey : Bool := false
  isOldVersion : Bool := true
  tilingKey : UInt64 := 0
  blockDim : Int32 := 0
  deviceID : Int32 := 0
  kernelName : String := ""
  kernelBinaryPath : String := ""
  magic : String := ""
  outputDir : String := ""
  params : List Param := []
  deriving DecidableEq, Repr

structure KernelConfigParser where
  kernelConfig : KernelConfig := {}
  inputCount : UInt32 := 0
  outputCount : UInt32 := 0
  deriving DecidableEq, Repr

namespace KernelConfigParser

def fileNameLengthLimit : ℕ := 255

def magics : List String :=
  ["RT_DEV_BINARY_MAGIC_ELF_AIVEC", "RT_DEV_BINARY_MAGIC_ELF_AICUBE", "RT_DEV_BINARY_MAGIC_ELF"]

def argsOrders : List (String × ℕ) :=
  [("bin_path", 0), ("block_dim", 1), ("device_id", 2), ("ffts", 3), ("input_path", 4),
    ("input_size", 5), ("kernel_name", 6), ("magic", 7), ("output_dir", 8), ("output_name", 9),
    ("output_size", 10), ("workspace_size", 11), ("tiling_data_path", 12), ("tiling_key", 13),
    ("old_mode", 14)]

/-- The comparison of `std::sort`; it says yes both ways for a key outside the table. -/
def cmp (lhs rhs : String × String) : Bool :=
  match argsOrders.lookup lhs.1, argsOrders.lookup rhs.1 with
  | some order0, some order1 => order0 < order1
  | _, _ => true

def sortItems (items : List (String × String)) : List (String × String) :=
  items.mergeSort fun lhs rhs => !cmp rhs lhs

/-! ## The functions of the keys -/

section Setters
variable (arg : String) (p : KernelConfigParser)

def update (f : KernelConfig → KernelConfig) : KernelConfigParser :=
  { p with kernelConfig := f p.kernelConfig }

def addParams (params : List Param) : KernelConfigParser :=
  p.update fun c => { c with params := c.params ++ params }

def setKernelName : Option KernelConfigParser :=
  if checkInputStringValid arg fileNameLengthLimit then
    some (p.update fun c => { c with kernelName := arg })
  else none

def setBinPath : Option KernelConfigParser :=
  some (p.update fun c => { c with kernelBinaryPath := arg })

def setBlockDim : Option KernelConfigParser :=
  (stringToInt32 arg).map fun blockDim => p.update fun c => { c with blockDim := blockDim }

def setDeviceId : Option KernelConfigParser :=
  (stringToInt32 arg).map fun deviceID => p.update fun c => { c with deviceID := deviceID }

def setMagic : Option KernelConfigParser :=
  if arg ∈ magics then some (p.update fun c => { c with magic := arg }) else none

def fftsParam : Param := { type := .fftsAddr, dataSize := some 64 }

def setFfts : Option KernelConfigParser :=
  some (if arg.toList.head? = some 'Y' then p.addParams [fftsParam] else p)

def inputParam (binPath : String) : Param :=
  { type := .input, dType := "int8", dataPath := binPath, isRequired := some (binPath ≠ "n") }

def setInputPath : Option KernelConfigParser :=
  let sizeVec := splitString arg ';'
  if sizeVec = [] then none
  else some { p.addParams (sizeVec.map inputParam) with inputCount := UInt32.ofNat sizeVec.length }

/-- The sizes go to the parameters of one type in turn. The counts were compared as 32-bit
numbers before, so that the sizes can still run out. -/
def setSizes (type : TypeName) : List Param → List String → Option (List Param)
  | [], _ => some []
  | param :: params, sizeVec =>
      if param.type ≠ type then (setSizes type params sizeVec).map (param :: ·)
      else match sizeVec with
        | [] => none
        | size :: sizeVec => do
            let dataSize ← stringToUInt64 size
            let params ← setSizes type params sizeVec
            some ({ param with dataSize := some dataSize } :: params)

def setAllSizes (type : TypeName) (sizeVec : List String) : Option KernelConfigParser :=
  (setSizes type p.kernelConfig.params sizeVec).map fun params =>
    p.update fun c => { c with params := params }

def setInputSize : Option KernelConfigParser :=
  let sizeVec := splitString arg ';'
  if p.inputCount = 0 then none
  else if sizeVec.length ≠ p.inputCount.toNat then none
  else p.setAllSizes .input sizeVec

def setOutputSize : Option KernelConfigParser :=
  let sizeVec := splitString arg ';'
  if p.outputCount = 0 ∧ sizeVec.length ≠ 0 then some p
  else if p.outputCount.toNat ≠ sizeVec.length then none
  else p.setAllSizes .output sizeVec

def workspaceParam (size : String) : Option Param :=
  (stringToUInt64 size).map fun dataSize => { type := .workspace, dataSize := some dataSize }

def setWorkspaceSize : Option KernelConfigParser :=
  ((splitString arg ';').mapM workspaceParam).map p.addParams

def setOutputDir : Option KernelConfigParser :=
  some (p.update fun c => { c with outputDir := arg })

def setOldMode : Option KernelConfigParser :=
  some (p.update fun c => { c with isOldVersion := arg = "1" })

def outputParam (name : String) : Param := { type := .output, name := name }

def setOutputName : Option KernelConfigParser :=
  let nameVec := splitString arg ';'
  some { p.addParams (nameVec.map outputParam) with
    outputCount := UInt32.ofNat nameVec.length }

def tilingParam (path : String) (dataSize : UInt64) : Param :=
  { type := .tiling, dataPath := path, dataSize := some dataSize }

def setTilingDataPath : Option KernelConfigParser :=
  if arg = "" then some p
  else match splitString arg ';' with
    | path :: size :: _ =>
        (stringToUInt64 size).map fun dataSize => p.addParams [tilingParam path dataSize]
    | _ => none

def setTilingKey : Option KernelConfigParser :=
  if arg = "" then some p
  else (stringToUInt64 arg).map fun tilingKey =>
    p.update fun c => { c with tilingKey := tilingKey, hasTilingKey := true }

end Setters

def parserFuncs : List (String × (String → KernelConfigParser → Option KernelConfigParser)) :=
  [("kernel_name", setKernelName), ("bin_path", setBinPath), ("block_dim", setBlockDim),
    ("device_id", setDeviceId), ("magic", setMagic), ("ffts", setFfts),
    ("input_path", setInputPath), ("input_size", setInputSize),
    ("tiling_data_path", setTilingDataPath), ("tiling_key", setTilingKey),
    ("output_size", setOutputSize), ("workspace_size", setWorkspaceSize),
    ("output_dir", setOutputDir), ("output_name", setOutputName), ("old_mode", setOldMode)]

/-- An unknown key is skipped. -/
def parseItem (item : String × String) (p : KernelConfigParser) : Option KernelConfigParser :=
  match parserFuncs.lookup item.1 with
  | none => some p
  | some parserFunc => parserFunc item.2 p

/-- The loop over the sorted items; it ends with the first item that fails. -/
def parseItems : List (String × String) → KernelConfigParser → Option KernelConfigParser
  | [], p => some p
  | item :: rest, p => (parseItem item p).bind (parseItems rest)

/-! ## The order of the items -/

def argsOrder (key : String) : ℕ := (argsOrders.lookup key).getD argsOrders.length

def InOrder (lhs rhs : String × String) : Prop := argsOrder lhs.1 < argsOrder rhs.1

def Known (items : List (String × String)) : Prop :=
  ∀ item ∈ items, (argsOrders.lookup item.1).isSome

theorem cmp_eq {lhs rhs : String × String} (hl : (argsOrders.lookup lhs.1).isSome)
    (hr : (argsOrders.lookup rhs.1).isSome) :
    cmp lhs rhs = decide (argsOrder lhs.1 < argsOrder rhs.1) := by
  obtain ⟨order0, h0⟩ := Option.isSome_iff_exists.mp hl
  obtain ⟨order1, h1⟩ := Option.isSome_iff_exists.mp hr
  unfold cmp argsOrder
  rw [h0, h1]
  rfl

/-- On known keys the comparison is an order, and the sort is one by the place in the table. -/
theorem sortItems_of_known {items : List (String × String)} (h : Known items) :
    sortItems items = items.mergeSort fun lhs rhs => argsOrder lhs.1 ≤ argsOrder rhs.1 := by
  have hmap := List.map_mergeSort (r := fun lhs rhs => !cmp rhs lhs)
    (s := fun lhs rhs => decide (argsOrder lhs.1 ≤ argsOrder rhs.1)) (f := id) (l := items) <| by
      intro lhs hl rhs hr
      rw [cmp_eq (h rhs hr) (h lhs hl), ← decide_not]
      exact decide_eq_decide.mpr Nat.not_lt
  rwa [List.map_id, List.map_id] at hmap

/-- Items in the order of the table are what any list of them is sorted into. -/
theorem sortItems_eq {items sorted : List (String × String)} (hknown : Known sorted)
    (hsorted : sorted.Pairwise InOrder) (hperm : items.Perm sorted) : sortItems items = sorted := by
  rw [sortItems_of_known fun item hitem => hknown item (hperm.mem_iff.mp hitem)]
  have hmerged : (items.mergeSort fun lhs rhs => argsOrder lhs.1 ≤ argsOrder rhs.1).Perm sorted :=
    (List.mergeSort_perm _ _).trans hperm
  refine List.Perm.eq_of_pairwise ?_ (List.pairwise_mergeSort ?_ ?_ items)
    (hsorted.imp fun {lhs rhs} (hlt : InOrder lhs rhs) => decide_eq_true (Nat.le_of_lt hlt)) hmerged
  · intro lhs rhs hl hr hle hge
    have hdistinct : KeyedList.Distinct (fun item => argsOrder item.1) sorted :=
      hsorted.imp Nat.ne_of_lt
    exact hdistinct.eq_of_key_eq (hmerged.mem_iff.mp hl) hr
      (Nat.le_antisymm (of_decide_eq_true hle) (of_decide_eq_true hge))
  · intro a b c hab hbc
    exact decide_eq_true (Nat.le_trans (of_decide_eq_true hab) (of_decide_eq_true hbc))
  · intro a b
    rw [Bool.or_eq_true, decide_eq_true_iff, decide_eq_true_iff]
    exact Nat.le_total _ _

/-! ## Sizes -/

section Sizes
variable {type : TypeName} {param : Param} {params : List Param}

theorem setSizes_other (h : param.type ≠ type) (sizeVec : List String) :
    setSizes type (param :: params) sizeVec = (setSizes type params sizeVec).map (param :: ·) := by
  cases sizeVec <;> exact (if_pos h : setSizes type (param :: params) _ = _)

theorem setSizes_same (h : param.type = type) (size : String) (sizeVec : List String) :
    setSizes type (param :: params) (size :: sizeVec) =
      (stringToUInt64 size).bind fun dataSize => (setSizes type params sizeVec).map
        ({ param with dataSize := some dataSize } :: ·) := by
  have hsame : ¬param.type ≠ type := not_not.mpr h
  rw [setSizes, if_neg hsame]
  refine congrArg _ (funext fun dataSize => ?_)
  cases setSizes type params sizeVec <;> rfl

theorem setSizes_append {front : List Param} {sizeVec : List String}
    (h : ∀ param ∈ front, param.type ≠ type) : setSizes type (front ++ params) sizeVec =
      (setSizes type params sizeVec).map (front ++ ·) := by
  induction front with
  | nil => exact Option.map_id'.symm
  | cons param front ih =>
    obtain ⟨hparam, hfront⟩ := List.forall_mem_cons.mp h
    rw [List.cons_append, setSizes_other hparam, ih hfront, Option.map_map]
    rfl

end Sizes

/-! ## Runs over several items -/

theorem addParams_nil (p : KernelConfigParser) : p.addParams [] = p := by
  dsimp only [addParams, update]
  rw [List.append_nil]

theorem parseItems_append (items items' : List (String × String)) (p : KernelConfigParser) :
    parseItems (items ++ items') p = (parseItems items p).bind (parseItems items') := by
  induction items generalizing p with
  | nil => rfl
  | cons item rest ih =>
    change (parseItem item p).bind (parseItems (rest ++ items')) =
      ((parseItem item p).bind (parseItems rest)).bind (parseItems items')
    cases parseItem item p with
    | none => rfl
    | some next => exact ih next

end KernelConfigParser

/-! ## The file -/

/-- The JSON library. `dump` fails on a string that has no JSON text; `items` is the iteration
over the object that a text parses to, and fails where the text is not accepted or a value
is no string. -/
structure JsonLibrary where
  dump : List (String × String) → Option String
  items : String → Option (List (String × String))

/-- The members of an object come back from its text, in whichever order. -/
def JsonLibrary.RoundTrip (json : JsonLibrary) : Prop :=
  ∀ object text, (object.map Prod.fst).Nodup → json.dump object = some text →
    text ≠ "" ∧ ∃ items, json.items text = some items ∧ items.Perm object

/-- `GetKernelConfig` on the content of the file; `none` is `isGetConfigSuccess_` left false. -/
def JsonLibrary.getKernelConfig (json : JsonLibrary) (rawFile : String) : Option KernelConfig :=
  if rawFile = "" then none
  else (json.items rawFile).bind fun argsJson =>
    (KernelConfigParser.parseItems (KernelConfigParser.sortItems argsJson) {}).map
      KernelConfigParser.kernelConfig

end Msopcom
