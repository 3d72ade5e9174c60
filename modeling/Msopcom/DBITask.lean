import Mathlib.Data.List.Infix
import Mathlib.Logic.Function.Basic
import Msopcom.Runs

set_option autoImplicit false

/-!
# The cache of instrumented kernels

A thread keeps one task for each kernel, kind of instrumentation and plugin. A task that has
converted its kernel hands the instrumented binary out again. What a conversion gives is a
parameter, and how it ends is arbitrary.
-/
namespace Msopcom.DBITask

/-! ## What a conversion is asked for -/

inductive BIType
  | customize
  | bbCount
  | pgo
  deriving DecidableEq, Repr

/-- A registered binary, of either interface. -/
inductive OldKernel
  | registerEvent (regId : UInt64)
  | registerContext (regId : UInt64)
  deriving DecidableEq, Repr

/-- The configuration of a conversion and its arguments. -/
structure Request where
  type : BIType
  pluginPath : String
  archName : String
  argSize : UInt32
  extraArgs : List String
  oldKernel : OldKernel
  tilingKey : String
  deriving DecidableEq, Repr

inductive Action
  | instruMemprobe (pluginPath archName : String)
  | instruBbprobe
  | blockCountInstr (bbbendOffset : Bool)
  deriving DecidableEq, Repr

/-- What the tools make the instrumented binary from. -/
structure Tune where
  action : Action
  argSize : UInt32
  flags : List String
  oldKernel : OldKernel
  deriving DecidableEq, Repr

/-- Only a plugin has to be found. -/
def Request.setConfig (r : Request) : Bool :=
  match r.type with
  | .customize => r.pluginPath ≠ "" && r.archName ≠ ""
  | .bbCount => true
  | .pgo => true

def tilingKeyFlags (tilingKey : String) : List String :=
  if tilingKey = "" then [] else ["--tiling-key=" ++ tilingKey]

def customConvert (r : Request) : Tune :=
  ⟨.instruMemprobe r.pluginPath r.archName, r.argSize, r.extraArgs ++ tilingKeyFlags r.tilingKey,
    r.oldKernel⟩

def bbCountConvert (r : Request) : Tune :=
  if "dav-c310".toList <:+: r.archName.toList then
    ⟨.instruBbprobe, r.argSize, tilingKeyFlags r.tilingKey, r.oldKernel⟩
  else ⟨.blockCountInstr true, r.argSize, tilingKeyFlags r.tilingKey, r.oldKernel⟩

def pgoConvert (r : Request) : Tune :=
  ⟨.blockCountInstr false, r.argSize, tilingKeyFlags r.tilingKey, r.oldKernel⟩

def Request.convert (r : Request) : Tune :=
  match r.type with
  | .customize => customConvert r
  | .bbCount => bbCountConvert r
  | .pgo => pgoConvert r

/-! ## Calls -/

/-- The name of the first symbol that ends in the tiling key, or nothing. -/
def getKernelName (kernelSymbolNames : List String) (tilingKey : UInt64) : String :=
  let nameSuffix := "_" ++ toString tilingKey
  let suffixNames := [nameSuffix, nameSuffix ++ "_mix_aic", nameSuffix ++ "_mix_aiv"]
  (kernelSymbolNames.find? fun name =>
    suffixNames.any fun suffix => suffix.toList.isSuffixOf name.toList).getD ""

/-- A function of a binary, got by its entry or by its name. -/
inductive FuncContext
  | tiling (kernelSymbolNames : List String) (tilingKey : UInt64)
  | stub (kernelName : String)
  deriving DecidableEq, Repr

def FuncContext.getKernelName : FuncContext → String
  | .tiling kernelSymbolNames tilingKey => DBITask.getKernelName kernelSymbolNames tilingKey
  | .stub kernelName => kernelName

def FuncContext.getTilingKey : FuncContext → String
  | .tiling _ tilingKey => toString tilingKey
  | .stub _ => ""

/-- The kernel that is launched, for each of the three interfaces. -/
inductive Kernel
  | stubFunc (stubFunc : UInt64)
  | handle (tilingKey : UInt64)
  | launchCtx (funcCtx : FuncContext)
  deriving DecidableEq, Repr

structure DBITaskConfig where
  type : BIType
  pluginPath : String
  argsSize : UInt32
  extraCompilerArgs : List String := []
  keepTaskOutputs : Bool := false
  deriving DecidableEq, Repr

/-- A conversion fails before or after the task has dropped its binary. -/
inductive Conversion
  | failed
  | notRegistered
  | done
  deriving DecidableEq, Repr

/-- A call with what the calls that it makes answer. `outputDirs` are the launches whose
output directory exists. -/
structure Call where
  enabled : Bool := true
  regId : UInt64
  launchId : UInt64
  kernel : Kernel
  archName : String
  config : DBITaskConfig
  outputDirs : List UInt64 := []
  conversion : Conversion := .done
  registersFunction : Bool := true
  updatesPcStartAddr : Bool := true
  deriving DecidableEq, Repr

structure TaskKey where
  biType : BIType
  stubFunc : UInt64
  tilingKey : String
  pluginPath : String
  deriving DecidableEq, Repr

def Call.key (call : Call) : UInt64 × TaskKey :=
  (call.regId, match call.kernel with
    | .stubFunc stubFunc => ⟨call.config.type, stubFunc, "", call.config.pluginPath⟩
    | .handle tilingKey => ⟨call.config.type, 0, toString tilingKey, call.config.pluginPath⟩
    | .launchCtx funcCtx => ⟨call.config.type, 0, funcCtx.getKernelName, call.config.pluginPath⟩)

def Kernel.oldKernel (regId : UInt64) : Kernel → OldKernel
  | .launchCtx _ => .registerContext regId
  | _ => .registerEvent regId

/-- The launch of a stub function has the tiling key 0, which is looked at when that is null. -/
def Kernel.tilingKey : Kernel → String
  | .stubFunc func => if func = 0 then toString (0 : UInt64) else ""
  | .handle tilingKey => toString tilingKey
  | .launchCtx funcCtx => funcCtx.getTilingKey

def Call.request (call : Call) : Request :=
  { type := call.config.type, pluginPath := call.config.pluginPath, archName := call.archName,
    argSize := call.config.argsSize, extraArgs := call.config.extraCompilerArgs,
    oldKernel := call.kernel.oldKernel call.regId, tilingKey := call.kernel.tilingKey }

def Call.ending (call : Call) : Conversion :=
  if call.request.setConfig then call.conversion else .failed

/-! ## Tasks -/

/-- The members that hold a binary: the handle for the runtime, the function for the ACL, and
the stub function, once it is registered. -/
structure Task (B : Type) where
  replaceTask : Option B := none
  funcCtx : Option B := none
  stubFunc : Option B := none
  launchId : UInt64 := 0
  deriving DecidableEq, Repr

/-- A task that is not there is created. -/
abbrev TaskPool (B : Type) := UInt64 × TaskKey → Task B

section
variable {B : Type} (convert : Request → B) (call : Call)

def needConvert (task : Task B) : Bool :=
  if task.replaceTask.isNone && task.funcCtx.isNone then true
  else if !call.outputDirs.contains task.launchId && call.config.keepTaskOutputs then true
  else false

/-- What both kinds of tasks do with the member that holds their binary. -/
def runWith (binary : Task B → Option B) (setBinary : Option B → Task B → Task B)
    (task : Task B) : Option B × Task B :=
  if needConvert call task then
    match call.ending with
    | .failed => (none, task)
    | .notRegistered => (none, setBinary none task)
    | .done =>
      let converted := some (convert call.request)
      (converted, { setBinary converted task with launchId := call.launchId })
  else (binary task, task)

/-- Of a task that is kept for its function there is no handle to take. -/
def run : Task B → Option B × Task B :=
  runWith convert call Task.replaceTask fun binary task => { task with replaceTask := binary }

/-- A stub function that is registered stays what it is. -/
def runStubFunc (task : Task B) : Option B × Task B :=
  match run convert call task with
  | (none, task) => (none, task)
  | (some binary, task) =>
    if task.stubFunc.isSome then (task.stubFunc, task)
    else if call.registersFunction then (some binary, { task with stubFunc := some binary })
    else (none, task)

def runLaunchCtx : Task B → Option B × Task B :=
  runWith convert call Task.funcCtx fun binary task => { task with funcCtx := binary }

def runTask (task : Task B) : Option B × Task B :=
  match call.kernel with
  | .stubFunc _ => runStubFunc convert call task
  | .handle _ => run convert call task
  | .launchCtx _ => runLaunchCtx convert call task

/-- The runtime's interface looks up the start of the program at last. -/
def succeeds : Bool :=
  match call.kernel with
  | .launchCtx _ => true
  | _ => call.updatesPcStartAddr

/-- What a successful call hands out, and the tasks afterwards. -/
def runDBITask (pool : TaskPool B) : Option B × TaskPool B :=
  if call.enabled then
    let handed := runTask convert call (pool call.key)
    (if succeeds call then handed.1 else none, Function.update pool call.key handed.2)
  else (none, pool)

def step (pool : TaskPool B) (call : Call) : TaskPool B := (runDBITask convert call pool).2

end
end Msopcom.DBITask
