import Mathlib.Logic.Function.Basic
import Msopcom.LaunchArgs
import Msopcom.RecordLayout
import Msopcom.ReportOp

set_option autoImplicit false

/-!
# The context of a launch with raw arguments

The context has the arguments of the application by a pointer, on the host or on the device.
`ExpandArgs` puts one more parameter into a copy of them and has the pointer lead to the copy.
-/
namespace Msopcom.ArgsRaw
open Splice

/-- Where `args_` points to. -/
inductive ArgsPtr
  | null
  | address (addr : UInt64)
  | argsWithMemInfo
  deriving DecidableEq, Repr

/-- The buffer at an address, as far as its content is known. -/
abbrev Memory := UInt64 → Option (List UInt8)

/-- Arguments on the device have no place holders. -/
structure ArgsRawContext where
  args : ArgsPtr
  argsSize : UInt32
  isDeviceArgs : Bool
  needFree : Bool := false
  argsWithMemInfo : List UInt8 := []
  placeHolderArray : List HostInputInfo := []
  host_of_placeHolder : isDeviceArgs = true → placeHolderArray = []

/-- A request that fails may clear the pointer that it was to fill. -/
inductive Malloc
  | done (addr : UInt64)
  | failed (cleared : Bool)
  deriving DecidableEq, Repr

/-- How the calls of the runtime end: the copy of the arguments, the request for device memory
and the copy to it. -/
structure Calls where
  copyArgs : Bool := true
  malloc : Malloc
  copyBack : Bool := true

structure Expansion where
  ret : Bool
  paramOffset : Option UInt32
  ctx : ArgsRawContext
  memory : Memory

namespace ArgsRawContext
variable (needOverflowStatus : Bool) (c : ArgsRawContext) (memory : Memory)

/-- The greatest address offset, which is looked for in two places. -/
def lastAddrOffset : UInt32 :=
  c.placeHolderArray.foldl (fun last placeHolder => max last placeHolder.addrOffset) 0

def behindLastAddr : UInt32 :=
  let paramOffset := c.lastAddrOffset + ptrSize
  if needOverflowStatus then paramOffset + ptrSize else paramOffset

/-- What `GetLastParamOffset` tells the instrumentation. -/
def getLastParamOffset : UInt32 :=
  if c.argsSize > maxAllParamSize then 0
  else if c.placeHolderArray = [] then ceilByAlignSize alignSize c.argsSize
  else c.behindLastAddr needOverflowStatus

/-- The bytes that the copy finds; the vector has been cleared by then. -/
def copySource : List UInt8 :=
  match c.args with
  | .address addr => ((memory addr).getD []).take c.argsSize.toNat
  | _ => []

/-- `argsWithMemInfo_` after the copy, whose result nobody looks at. -/
def resized (copyArgs : Bool) : List UInt8 :=
  let copied := if copyArgs then c.copySource memory else []
  copied ++ List.replicate ((ceilByAlignSize alignSize c.argsSize).toNat - copied.length) 0

def shifted (paramSize : ℕ) : List HostInputInfo :=
  c.placeHolderArray.map fun placeHolder =>
    { placeHolder with dataOffset := placeHolder.dataOffset + UInt32.ofNat paramSize }

/-- Vector, size and place holders with the parameter. -/
def inserted (buffer param : List UInt8) (paramOffset : UInt32) : ArgsRawContext where
  args := c.args
  argsSize := UInt32.ofNat (splice paramOffset.toNat [] param buffer).length
  isDeviceArgs := c.isDeviceArgs
  needFree := c.needFree
  argsWithMemInfo := splice paramOffset.toNat [] param buffer
  placeHolderArray := c.shifted param.length
  host_of_placeHolder h := by rw [shifted, c.host_of_placeHolder h, List.map_nil]

def freeArgs : ArgsRawContext × Memory :=
  if c.needFree && c.args ≠ .null then
    ({ c with args := .null, needFree := false },
      match c.args with
      | .address addr => Function.update memory addr none
      | _ => memory)
  else (c, memory)

/-- The end of `ExpandArgs`: arguments on the device are moved there again. -/
def deliver (calls : Calls) : Bool × ArgsRawContext × Memory :=
  if !c.isDeviceArgs then (true, { c with args := .argsWithMemInfo }, memory)
  else
    let freed := c.freeArgs memory
    match calls.malloc with
    | .failed cleared =>
      (false, { freed.1 with args := if cleared then .null else freed.1.args }, freed.2)
    | .done addr =>
      (calls.copyBack, { freed.1 with args := .address addr, needFree := true },
        Function.update freed.2 addr
          (if calls.copyBack then some freed.1.argsWithMemInfo else none))

def expandArgs (calls : Calls) (param : List UInt8) : Expansion :=
  if c.argsSize > maxAllParamSize then ⟨false, none, { c with argsWithMemInfo := [] }, memory⟩
  else
    let buffer := c.resized memory calls.copyArgs
    let paramOffset :=
      if c.placeHolderArray = [] then UInt32.ofNat buffer.length
      else c.behindLastAddr needOverflowStatus
    let delivered := (c.inserted buffer param paramOffset).deliver memory calls
    ⟨delivered.1, some paramOffset, delivered.2.1, delivered.2.2⟩

/-- The bytes that `args_` points to. -/
def argsBytes : Option (List UInt8) :=
  match c.args with
  | .null => none
  | .address addr => memory addr
  | .argsWithMemInfo => some c.argsWithMemInfo

end ArgsRawContext
end Msopcom.ArgsRaw
