import Msopcom.LaunchArgs

set_option autoImplicit false

/-!
# Launches of instrumented kernels

The launches that the two hooks issue, each with its handle, its arguments and the record
buffer of the step that it belongs to. What the calls of a step answer is arbitrary.
-/
namespace Msopcom.InstrumentedLaunch

inductive Handle
  | application
  | dbi
  deriving DecidableEq, Repr

/-- `offset` is the place of the extra parameter that the configuration of the instrumentation
has, and `live` the buffer that the device memory manager has. -/
structure Launched (α : Type) where
  handle : Handle
  args : α
  memInfo : UInt64
  offset : UInt32
  live : UInt64
  deriving DecidableEq, Repr

/-- The members of a hook, and the launches so far. -/
structure State (α : Type) where
  handle : Handle := .application
  args : α
  memInfo : UInt64 := 0
  offset : UInt32 := 0
  live : UInt64 := 0
  launched : List (Launched α) := []
  deriving DecidableEq, Repr

section
variable {α : Type}

def State.launchWith (handle : Handle) (args : α) (s : State α) : State α :=
  { s with launched := s.launched ++ [⟨handle, args, s.memInfo, s.offset, s.live⟩] }

/-- `InitMemory` and `__sanitizer_init`: null when they fail. The buffer before may be freed. -/
def State.setMemInfo (memInfo : UInt64) (s : State α) : State α :=
  { s with memInfo := memInfo, live := memInfo }

def State.refreshParam (args : α) (s : State α) : State α :=
  { s with handle := .application, args := args, memInfo := 0 }

/-- How often a function of the profiler launches a kernel. -/
def State.launchTimes (n : Nat) (launch : State α → State α) (s : State α) : State α :=
  (List.replicate n launch).foldl (fun s launch => launch s) s

end

/-- Arguments, with as many bytes as they say. -/
structure Arguments where
  argsInfo : RtArgsEx
  sized : ∀ args, argsInfo.args = some args → args.length = argsInfo.argsSize.toNat

/-! ## `rtKernelLaunchWithHandleV2` -/

namespace HandleHook

/-- How `RunDBITask` ends. The handle is replaced before the start of the program is looked
up, which may fail. -/
inductive Dbi
  | failed
  | replacedOnly
  | replaced
  deriving DecidableEq, Repr

def Dbi.replaces : Dbi → Bool
  | .failed => false
  | _ => true

/-- `launches` is how often `InstrProfData` launches the kernel. -/
structure Step where
  memInfo : UInt64
  dbi : Dbi
  launches : Nat := 1
  deriving DecidableEq, Repr

/-- A step is missing when it is not enabled. -/
structure Profiling where
  isSimulator : Bool := false
  pcSampling : Option Step := none
  timeline : Option Step := none
  profLaunches : Nat := 0
  bbCount : Option Step := none
  isNeedRunOriginLaunch : Bool := true
  memoryChart : Option Step := none
  operandRecord : Option Step := none
  deriving DecidableEq, Repr

structure Sanitizing where
  skipSanitizer : Bool := false
  isSink : Bool := false
  dbi : Dbi
  hasSectionHeaders : Bool := true
  memInfo : UInt64
  deriving DecidableEq, Repr

inductive Mode
  | profiling (p : Profiling)
  | sanitizing (s : Sanitizing)
  deriving DecidableEq, Repr

/-- Without arguments there is nothing to take over. -/
structure Launch where
  arguments : Option Arguments
  needOverflowStatus : Bool := false
  hasOriginfunc : Bool := true
  mode : Mode

abbrev HookState := State RtArgsEx

variable (l : Launch)

/-- The copy of the application's arguments, cleared when there are none. -/
def Launch.own : RtArgsEx :=
  match l.arguments with
  | some arguments => arguments.argsInfo
  | none => { args := none, argsSize := 0 }

/-- `ExpandArgs` on the copy; the offset goes to the configuration of the instrumentation. -/
def expandNewArgs (s : HookState) : Bool × HookState :=
  match expandArgs l.needOverflowStatus s.args s.memInfo with
  | none => (false, s)
  | some expanded => (true, { s with args := expanded.argsInfo, offset := expanded.memInfoOffset })

def runDBITask (dbi : Dbi) (s : HookState) : Bool × HookState :=
  match dbi with
  | .failed => (false, s)
  | .replacedOnly => (false, { s with handle := .dbi })
  | .replaced => (true, { s with handle := .dbi })

def prepareDbiTaskForInstrProf (step : Step) (s : HookState) : Bool × HookState :=
  let s := (s.refreshParam l.own).setMemInfo step.memInfo
  let expanded := expandNewArgs l s
  if expanded.1 then runDBITask step.dbi expanded.2 else expanded

/-- The launch of `funcStub`: the member's handle with the application's arguments. -/
def funcStub (s : HookState) : HookState := s.launchWith s.handle l.own

/-- The function that `ProfData` launches has the handle of the application, too. -/
def func (s : HookState) : HookState := s.launchWith .application l.own

def originLaunch (s : HookState) : HookState := s.launchWith s.handle s.args

def getArgsSize (argsInfo : RtArgsEx) : UInt32 :=
  if argsInfo.hasTiling = 0 then
    match argsInfo.hostInputInfoPtr with
    | some table => getAlignSize (table.headD ⟨0, 0⟩).dataOffset
    | none => getAlignSize argsInfo.argsSize
  else getAlignSize (tilingHeadSize l.needOverflowStatus argsInfo)

def bbCountTask (step : Step) (s : HookState) : HookState :=
  let replaced := runDBITask step.dbi { s with offset := getArgsSize l s.args }
  if replaced.1 then
    let s := replaced.2.setMemInfo step.memInfo
    if step.memInfo ≠ 0 then (expandNewArgs l s).2 else s
  else replaced.2

def pcSampling (p : Profiling) (s : HookState) : HookState :=
  match p.pcSampling with
  | none => s
  | some step =>
    let prepared := prepareDbiTaskForInstrProf l step s
    if prepared.1 then prepared.2.launchTimes step.launches (funcStub l) else prepared.2

/-- Nobody asks whether the kernel could be instrumented. -/
def timeline (p : Profiling) (s : HookState) : HookState :=
  match p.timeline with
  | none => s
  | some step =>
    (prepareDbiTaskForInstrProf l step s).2.launchTimes step.launches (funcStub l)

def profPre (p : Profiling) (s : HookState) : HookState :=
  let s := s.launchTimes p.profLaunches (func l)
  match p.bbCount with
  | none => s
  | some step => bbCountTask l step (s.refreshParam l.own)

def profPreForInstrProf (p : Profiling) (s : HookState) : HookState :=
  profPre l p (timeline l p (pcSampling l p s))

/-- The end of `SanitizerPre`. -/
def sanitizerInit (memInfo : UInt64) (s : HookState) : HookState :=
  let s := s.setMemInfo memInfo
  if memInfo ≠ 0 then (expandNewArgs l s).2 else s

def sanitizerPre (i : Sanitizing) (s : HookState) : HookState :=
  if i.skipSanitizer then sanitizerInit l i.memInfo s
  else if i.isSink then s
  else
    let s := (runDBITask i.dbi s).2
    if i.hasSectionHeaders then sanitizerInit l i.memInfo s else s

def pre (s : HookState) : HookState :=
  if l.arguments.isNone then s
  else
    match l.mode with
    | .profiling p => if p.isSimulator then s else profPreForInstrProf l p s
    | .sanitizing i => sanitizerPre l i s

/-- The launch for the memory chart or the operand record. -/
def instrLaunch (step : Option Step) (s : HookState) : HookState :=
  match step with
  | none => s
  | some step =>
    let prepared := prepareDbiTaskForInstrProf l step s
    if prepared.1 && l.hasOriginfunc then originLaunch prepared.2 else prepared.2

def post (s : HookState) : HookState :=
  if l.arguments.isNone then s
  else
    match l.mode with
    | .profiling p =>
      if p.isSimulator then s else instrLaunch l p.operandRecord (instrLaunch l p.memoryChart s)
    | .sanitizing _ => s

def isNeedRunOriginLaunch : Bool :=
  match l.mode with
  | .profiling p => p.isNeedRunOriginLaunch
  | .sanitizing _ => true

def call : List (Launched RtArgsEx) :=
  let s := pre l { args := l.own }
  if !l.hasOriginfunc then s.launched
  else if isNeedRunOriginLaunch l then (post l (originLaunch s)).launched
  else (post l s).launched

end HandleHook

/-! ## `aclrtLaunchKernelImpl` -/

namespace AclrtHook

/-- The application's arguments are in device memory. -/
structure DeviceArguments where
  argsData : List UInt8
  argsSize : UInt32
  sized : argsData.length = argsSize.toNat

/-- What a pointer to arguments points to. -/
inductive ArgsData
  | null
  | own
  | image (bytes : List UInt8)
  | unknown
  deriving DecidableEq, Repr

/-- A call that fails may clear the pointer that it was to fill. -/
inductive Malloc
  | done
  | failed (cleared : Bool)
  deriving DecidableEq, Repr

/-- The copy to the host, the new device memory, and the copy back to it. -/
structure Copies where
  toHost : Bool := true
  malloc : Malloc := .done
  toDevice : Bool := true
  deriving DecidableEq, Repr

structure Step where
  memInfo : UInt64
  copies : Copies := {}
  dbi : Bool
  launches : Nat := 1
  deriving DecidableEq, Repr

structure Profiling where
  isSimulator : Bool := false
  pcSampling : Option Step := none
  timeline : Option Step := none
  profLaunches : Nat := 0
  bbCount : Option Step := none
  isNeedRunOriginLaunch : Bool := true
  memoryChart : Option Step := none
  operandRecord : Option Step := none
  deriving DecidableEq, Repr

structure Sanitizing where
  skipSanitizer : Bool := false
  isSink : Bool := false
  memInfo : UInt64
  copies : Copies := {}
  dbi : Bool
  deriving DecidableEq, Repr

inductive Mode
  | profiling (p : Profiling)
  | sanitizing (s : Sanitizing)
  deriving DecidableEq, Repr

structure Launch where
  arguments : DeviceArguments
  hasLaunchCtx : Bool := true
  hasOriginfunc : Bool := true
  returnsSuccess : Bool := true
  mode : Mode

abbrev HookState := State ArgsData

variable (l : Launch)

def getLastParamOffset : UInt32 :=
  if l.arguments.argsSize > maxAllParamSize then 0 else getAlignSize l.arguments.argsSize

/-- The bytes with the pointer behind them. -/
def argsWithMemInfo (memInfo : UInt64) (toHost : Bool) : List UInt8 :=
  let alignArgsSize := (getAlignSize l.arguments.argsSize).toNat
  let args := if toHost then l.arguments.argsData else []
  args ++ List.replicate (alignArgsSize - args.length) 0 ++ pointerBytes memInfo

/-- `ExpandArgs` of a fresh context, with what `GetArgs` gives afterwards. -/
def expandArgs (memInfo : UInt64) (copies : Copies) (s : HookState) :
    Bool × ArgsData × HookState :=
  if l.arguments.argsSize > maxAllParamSize then (false, .own, s)
  else
    let s := { s with offset := getAlignSize l.arguments.argsSize }
    match copies.malloc with
    | .failed cleared => (false, if cleared then .null else .unknown, s)
    | .done =>
      if copies.toDevice then (true, .image (argsWithMemInfo l memInfo copies.toHost), s)
      else (false, .unknown, s)

def prepareDbiTaskForInstrProf (step : Step) (s : HookState) : Bool × HookState :=
  let s := (s.refreshParam .null).setMemInfo step.memInfo
  if step.memInfo = 0 then (false, s)
  else
    let expanded := expandArgs l step.memInfo step.copies s
    if expanded.1 && step.dbi then
      (true, { expanded.2.2 with handle := .dbi, args := expanded.2.1 })
    else (false, expanded.2.2)

def funcStub (s : HookState) : HookState := s.launchWith s.handle s.args

def func (s : HookState) : HookState := s.launchWith .application .own

/-- Without arguments of its own the hook launches what the application wanted. -/
def originLaunch (s : HookState) : HookState :=
  if s.args ≠ .null then s.launchWith s.handle s.args else s.launchWith .application .own

/-- Nobody asks whether the arguments could be expanded. -/
def bbCountTask (step : Step) (s : HookState) : HookState :=
  let s := { s with offset := getLastParamOffset l }
  if step.dbi then
    let s := { s with handle := .dbi }.setMemInfo step.memInfo
    if step.memInfo ≠ 0 then
      let expanded := expandArgs l step.memInfo step.copies s
      { expanded.2.2 with args := expanded.2.1 }
    else s
  else s

def pcSampling (p : Profiling) (s : HookState) : HookState :=
  match p.pcSampling with
  | none => s
  | some step =>
    let prepared := prepareDbiTaskForInstrProf l step s
    if prepared.1 then prepared.2.launchTimes step.launches funcStub else prepared.2

def timeline (p : Profiling) (s : HookState) : HookState :=
  match p.timeline with
  | none => s
  | some step => (prepareDbiTaskForInstrProf l step s).2.launchTimes step.launches funcStub

def profPre (p : Profiling) (s : HookState) : HookState :=
  let s := s.launchTimes p.profLaunches func
  match p.bbCount with
  | none => s
  | some step => bbCountTask l step (s.refreshParam .null)

def profPreForInstrProf (p : Profiling) (s : HookState) : HookState :=
  profPre l p (timeline l p (pcSampling l p s))

def sanitizerPre (i : Sanitizing) (s : HookState) : HookState :=
  if !i.skipSanitizer && i.isSink then s
  else
    let s := s.setMemInfo i.memInfo
    if i.memInfo = 0 then s
    else
      let expanded := expandArgs l i.memInfo i.copies s
      if expanded.1 then
        let s := { expanded.2.2 with args := expanded.2.1 }
        if i.dbi then { s with handle := .dbi } else s
      else expanded.2.2

def pre (s : HookState) : HookState :=
  if !l.hasLaunchCtx then s
  else
    match l.mode with
    | .profiling p => if p.isSimulator then s else profPreForInstrProf l p s
    | .sanitizing i => sanitizerPre l i s

def instrLaunch (step : Option Step) (s : HookState) : HookState :=
  match step with
  | none => s
  | some step =>
    let prepared := prepareDbiTaskForInstrProf l step s
    if prepared.1 && l.hasOriginfunc then funcStub prepared.2 else prepared.2

def post (s : HookState) : HookState :=
  if !l.hasLaunchCtx then s
  else
    match l.mode with
    | .profiling p =>
      if p.isSimulator then s else instrLaunch l p.operandRecord (instrLaunch l p.memoryChart s)
    | .sanitizing _ => s

/-- Without a launch context there is no profiler to ask. -/
def isNeedRunOriginLaunch : Bool :=
  match l.mode with
  | .profiling p => !l.hasLaunchCtx || p.isNeedRunOriginLaunch
  | .sanitizing _ => true

def call : List (Launched ArgsData) :=
  let s := pre l { args := .null }
  if !l.hasOriginfunc then s.launched
  else if isNeedRunOriginLaunch l then
    if l.returnsSuccess then (post l (originLaunch s)).launched else (originLaunch s).launched
  else (post l s).launched

end AclrtHook
end Msopcom.InstrumentedLaunch
