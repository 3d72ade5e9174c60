import Mathlib.Data.List.Forall2
import Msopcom.AdumpScan
import Msopcom.KernelObject
import Msopcom.KernelRegistry
import Msopcom.MetaSecondPtr

set_option autoImplicit false

/-!
# The launches of functions

A launch through a function handle is noted on its device, with what is known of the function's
memory. Both are numbered alike. A dump saves a launch by its number, and fills in the addresses of
the inputs.
-/
namespace Msopcom.AclLaunches
open KernelRegistry
open AdumpScan (AdumpInfo AdumpMap getAdumpInfo)
open MetaSecondPtr (updateInputSize)
open ProgramStart (Name mixAicTail mixAivTail)

/-! ## The memory of an operator -/

/-- What `GetTilingData` gives for a size, and the addresses that `Save` finds. -/
structure ArgsContext where
  tilingData : UInt64 → Option (List UInt8)
  addrs : MetaMemInfo → List UInt64

structure AclMemInfo extends MetaMemInfo where
  isForSetException : Bool := false

/-- `parseMetaData` is what the meta section of a binary says of a kernel. -/
structure Env where
  needAddFftsAddr : Bool
  isSanitizer : Bool
  socVersion : String
  parseMetaData : List UInt8 → Name → Option MetaMemInfo

/-- The lengths that adump has left, behind an address. -/
abbrev DynamicInputs := UInt64 → ℕ → UInt64

def refreshMc2CtxInfo (hasMc2Ctx : Bool) (skipNum : UInt32) (memInfo : MetaMemInfo) : MetaMemInfo :=
  { memInfo with
    inputParamsAddrInfos := memInfo.inputParamsAddrInfos ++ [⟨0, sizeofHcclCombinOpParam, .bypass,
      .default, 0⟩]
    hasMc2Ctx := hasMc2Ctx
    skipNum := skipNum }

/-- No read of `getAdumpInfo` is outside of the tiling data. -/
def updateInputSizeWithTilingData (registered : AdumpMap) (dynamicInputs : DynamicInputs)
    (tilingData : List UInt8) (memInfo : MetaMemInfo) : MetaMemInfo :=
  let adumpInfo := (getAdumpInfo registered tilingData
    ⟨memInfo.isTik, memInfo.tilingDataSize⟩).toOption.getD {}
  if adumpInfo.addr = 0 then
    if memInfo.hasMc2Ctx then refreshMc2CtxInfo true memInfo.skipNum memInfo.clear
    else memInfo.clear
  else
    updateInputSize ((List.range adumpInfo.argsSpace.toNat).map (dynamicInputs adumpInfo.addr))
      memInfo

/-- The lengths of a dynamic operator come from its tiling data. -/
def ArgsContext.updateInputSize (registered : AdumpMap) (dynamicInputs : DynamicInputs)
    (args : ArgsContext) (memInfo : MetaMemInfo) : MetaMemInfo :=
  match args.tilingData memInfo.tilingDataSize with
  | none => memInfo
  | some tilingData =>
    updateInputSizeWithTilingData registered dynamicInputs tilingData memInfo

/-! ## Launches -/

structure LaunchContext where
  funcCtx : FuncContext
  argsCtx : ArgsContext
  blockDim : UInt32
  stream : UInt64
  isSink : Bool
  launchId : ℕ

/-- Lengths that were told are not looked for in the binary. The overflow address stays. -/
def LaunchContext.updateOpMemInfoByAdump (env : Env) (registered : AdumpMap)
    (dynamicInputs : DynamicInputs) (ctx : LaunchContext) (memInfo : AclMemInfo) : AclMemInfo :=
  let magic := ctx.funcCtx.regCtx.param.magic
  if memInfo.isForSetException then
    { setFftsInfo env.needAddFftsAddr memInfo.toMetaMemInfo magic with isForSetException := false }
  else
    let cleared := memInfo.toMetaMemInfo.clear
    match env.parseMetaData ctx.funcCtx.regCtx.elfData ctx.funcCtx.kernelName with
    | none => { cleared with }
    | some parsed =>
      let parsed := { parsed with
        hasOverflowAddr := cleared.hasOverflowAddr
        overflowAddr := cleared.overflowAddr }
      { ctx.argsCtx.updateInputSize registered dynamicInputs
          (setFftsInfo env.needAddFftsAddr parsed magic) with }

structure LaunchManager where
  contexts : List LaunchContext := []
  memInfo : AclMemInfo := {}
  memInfoHistory : List AclMemInfo := []
  simtUbDynamicSize : UInt32 := 0

inductive Hook
  | launchKernel
  | launchKernelV2
  | launchKernelWithHostArgs
  | launchKernelWithConfig
  deriving DecidableEq, Repr

/-- `args` is there unless the arguments are empty or their handle is unknown, `localMemorySize`
if the config has attributes. -/
structure Launch where
  hook : Hook
  funcHandle : UInt64
  blockDim : UInt32
  stream : UInt64
  args : Option ArgsContext
  localMemorySize : Option UInt32 := none
  needMemLengthInfo : Bool
  dynamicInputs : DynamicInputs

/-- The oldest of the functions has no config. -/
def Launch.cfg (l : Launch) : Option UInt32 :=
  if l.hook = .launchKernel then none else l.localMemorySize

/-- `CreateContext`, which notes what it creates. -/
def LaunchManager.createContext (env : Env) (functions : FuncManager) (binded : UInt64 → Bool)
    (l : Launch) (m : LaunchManager) : Option (LaunchContext × LaunchManager) :=
  match l.args, functions.lookup l.funcHandle with
  | some argsCtx, some funcCtx =>
    let ctx : LaunchContext :=
      { funcCtx, argsCtx, blockDim := l.blockDim, stream := l.stream, isSink := binded l.stream,
        launchId := m.contexts.length }
    some (ctx, { m with
      contexts := m.contexts ++ [ctx]
      simtUbDynamicSize := if env.isSanitizer then l.cfg.getD 0 else m.simtUbDynamicSize })
  | _, _ => none

def LaunchManager.archiveMemInfo (m : LaunchManager) : LaunchManager :=
  { m with memInfoHistory := m.memInfoHistory ++ [m.memInfo] }

/-- Kernels of the AICPU are let through by one of the functions. -/
def Launch.isSkipped (functions : FuncManager) (l : Launch) : Bool :=
  l.hook = .launchKernelWithHostArgs &&
    (functions.lookup l.funcHandle).any fun funcCtx => funcCtx.regCtx.param.magic = magicElfAicpu

/-- `InitParam` of the four hooks. -/
def LaunchManager.initParam (env : Env) (functions : FuncManager) (binded : UInt64 → Bool)
    (registered : AdumpMap) (l : Launch) (m : LaunchManager) : LaunchManager :=
  if l.isSkipped functions then m
  else
    match m.createContext env functions binded l with
    | none => m
    | some (ctx, m) =>
      if l.needMemLengthInfo then
        { m with memInfo :=
            ctx.updateOpMemInfoByAdump env registered l.dynamicInputs m.memInfo }.archiveMemInfo
      else m.archiveMemInfo

/-! ## Dumps -/

def fillAddrs (addrs : List UInt64) (memInfo : AclMemInfo) : AclMemInfo :=
  { memInfo with
    inputParamsAddrInfos := memInfo.inputParamsAddrInfos.zipIdx.map fun p =>
      { p.1 with addr := addrs.getD p.2 p.1.addr } }

structure Dumped where
  kernelObject : List UInt8
  memInfo : AclMemInfo
  blockDim : UInt32
  magic : UInt32
  kernelName : Name
  tilingKey : Option UInt64

/-- The first suffix that fits is removed. -/
def removeSuffix (str : Name) : List Name → Name
  | [] => str
  | suffix :: suffixes =>
    if suffix.isSuffixOf str then str.take (str.length - suffix.length)
    else removeSuffix str suffixes

/-- `Save`, where what is written can be written. -/
def LaunchManager.save (env : Env) (launchId : ℕ) (m : LaunchManager) :
    Option Dumped × LaunchManager :=
  match m.contexts[launchId]? with
  | none => (none, m)
  | some ctx =>
    let regCtx := ctx.funcCtx.regCtx
    match KernelObject.savedData env.socVersion regCtx.param.magic regCtx.elfData with
    | .ok (some kernelObject) =>
      match m.memInfoHistory[ctx.launchId]? with
      | none => (none, m) -- the index is said to be invalid
      | some memInfo =>
        let filled := fillAddrs (ctx.argsCtx.addrs memInfo.toMetaMemInfo) memInfo
        (some
          { kernelObject
            memInfo := filled
            blockDim := ctx.blockDim
            magic := regCtx.param.magic
            kernelName := removeSuffix ctx.funcCtx.kernelName [mixAicTail, mixAivTail]
            tilingKey := ctx.funcCtx.tilingKey },
          { m with memInfoHistory := m.memInfoHistory.set ctx.launchId filled })
    | _ => (none, m)

/-! ## Runs -/

/-- A launch that the tool notes, with the function that the handle stands for and what was
registered and bound by then. -/
structure Launched where
  function : LoadedFunction
  launch : Launch
  args : ArgsContext
  isSink : Bool
  registered : AdumpMap

/-- Each device has its manager. -/
structure State where
  kernels : System := {}
  binded : UInt64 → Bool := fun _ => false
  registered : AdumpMap := ∅
  managers : Int32 → LaunchManager := fun _ => {}
  launched : Int32 → List Launched := fun _ => []

/-- `report` is what the rest of the tool makes of the current information. -/
inductive Call
  | kernels (op : Op)
  | bindStream (stream : UInt64) (binded : Bool)
  | addAdumpInfo (index : UInt64) (info : AdumpInfo)
  | launch (device : Int32) (l : Launch)
  | report (device : Int32) (memInfo : MetaMemInfo)
  | save (device : Int32) (launchId : ℕ)

def State.noted (s : State) (l : Launch) : Option Launched :=
  if l.isSkipped s.kernels.tool.functions then none
  else
    match l.args, s.kernels.tool.functions.lookup l.funcHandle,
      s.kernels.world.functions l.funcHandle with
    | some args, some _, some function =>
      some { function, launch := l, args, isSink := s.binded l.stream, registered := s.registered }
    | _, _, _ => none

/-- Only the overflow address and the flag are left. -/
def AclMemInfo.change (memInfo : MetaMemInfo) (current : AclMemInfo) : AclMemInfo :=
  { memInfo with
    hasOverflowAddr := current.hasOverflowAddr
    overflowAddr := current.overflowAddr
    isForSetException := current.isForSetException }

def State.updateManager (s : State) (device : Int32) (m : LaunchManager) : State :=
  { s with managers := Function.update s.managers device m }

def State.step (env : Env) (s : State) : Call → State
  | .kernels op => { s with kernels := s.kernels.step op }
  | .bindStream stream binded => { s with binded := Function.update s.binded stream binded }
  | .addAdumpInfo index info => { s with registered := s.registered.insert index info }
  | .launch device l =>
    { s.updateManager device ((s.managers device).initParam env s.kernels.tool.functions s.binded
        s.registered l) with
      launched :=
        Function.update s.launched device (s.launched device ++ (s.noted l).toList) }
  | .report device memInfo =>
    s.updateManager device { s.managers device with
      memInfo := (s.managers device).memInfo.change memInfo }
  | .save device launchId => s.updateManager device ((s.managers device).save env launchId).2

/-- A launch names a function that is loaded. -/
def State.Possible (s : State) : Call → Prop
  | .kernels op => s.kernels.Possible op
  | .launch _ l => s.kernels.world.functions l.funcHandle ≠ none
  | _ => True

instance (s : State) : DecidablePred s.Possible
  | .kernels op => inferInstanceAs (Decidable (s.kernels.Possible op))
  | .launch _ l => inferInstanceAs (Decidable (s.kernels.world.functions l.funcHandle ≠ none))
  | .bindStream _ _ | .addAdumpInfo _ _ | .report _ _ | .save _ _ => isTrue trivial

/-! ## What a launch knows of its own binary -/

/-- What a binary says of a kernel with these arguments, whatever was launched before. -/
def ownInfo (env : Env) (registered : AdumpMap) (dynamicInputs : DynamicInputs)
    (args : ArgsContext) (elfData : List UInt8) (kernelName : Name) (magic : UInt32) :
    MetaMemInfo :=
  match env.parseMetaData elfData kernelName with
  | none => {}
  | some parsed => args.updateInputSize registered dynamicInputs
      (setFftsInfo env.needAddFftsAddr { parsed with hasOverflowAddr := false, overflowAddr := 0 }
        magic)

def Launched.ownInfo (env : Env) (l : Launched) (symbols : List FunctionStart.Symbol) :
    MetaMemInfo :=
  AclLaunches.ownInfo env l.registered l.launch.dynamicInputs l.args l.function.binary.data
    (l.function.kernelName symbols) l.function.binary.magic

/-- The information without the addresses of the inputs, which a dump fills in. -/
def forgetAddrs (memInfo : MetaMemInfo) : MetaMemInfo :=
  { memInfo with
    inputParamsAddrInfos := memInfo.inputParamsAddrInfos.map fun info => { info with addr := 0 } }

/-- No overflow address is set, and no lengths were told. -/
structure Plain (memInfo : AclMemInfo) : Prop where
  hasOverflowAddr : memInfo.hasOverflowAddr = false
  overflowAddr : memInfo.overflowAddr = 0
  isForSetException : memInfo.isForSetException = false

/-- The entries of both lists are those of the launch with this number. -/
structure Belongs (env : Env) (l : Launched) (launchId : ℕ) (ctx : LaunchContext)
    (memInfo : AclMemInfo) : Prop where
  launchId : ctx.launchId = launchId
  blockDim : ctx.blockDim = l.launch.blockDim
  stream : ctx.stream = l.launch.stream
  isSink : ctx.isSink = l.isSink
  argsCtx : ctx.argsCtx = l.args
  function : ∀ symbols, l.function.binary.symbols = some symbols →
    ctx.funcCtx.regCtx.Describes l.function.binary ∧ ctx.funcCtx.function = l.function.function
  memInfo : ∀ symbols, l.function.binary.symbols = some symbols →
    l.launch.needMemLengthInfo = true →
    forgetAddrs memInfo.toMetaMemInfo = forgetAddrs (l.ownInfo env symbols)

theorem forgetAddrs_fillAddrs (addrs : List UInt64) (memInfo : AclMemInfo) :
    forgetAddrs (fillAddrs addrs memInfo).toMetaMemInfo = forgetAddrs memInfo.toMetaMemInfo := by
  have hinputs : (memInfo.inputParamsAddrInfos.zipIdx.map fun p =>
      { p.1 with addr := addrs.getD p.2 p.1.addr }).map (fun info => { info with addr := 0 }) =
      memInfo.inputParamsAddrInfos.map fun info => { info with addr := 0 } := by
    rw [List.map_map]
    apply List.ext_getElem
    · simp
    · intro i hi hi'
      simp
  unfold forgetAddrs fillAddrs
  dsimp only
  rw [hinputs]

/-! ## One launch -/

section Launch
variable {env : Env} {memInfo : AclMemInfo}

def SameOverflow (memInfo memInfo' : MetaMemInfo) : Prop :=
  memInfo'.hasOverflowAddr = memInfo.hasOverflowAddr ∧ memInfo'.overflowAddr = memInfo.overflowAddr

theorem SameOverflow.trans {m m' m'' : MetaMemInfo} (h : SameOverflow m m')
    (h' : SameOverflow m' m'') : SameOverflow m m'' := ⟨h'.1.trans h.1, h'.2.trans h.2⟩

theorem sameOverflow_setFftsInfo (needAddFftsAddr : Bool) (memInfo : MetaMemInfo)
    (magic : UInt32) : SameOverflow memInfo (setFftsInfo needAddFftsAddr memInfo magic) := by
  unfold setFftsInfo
  split_ifs <;> exact ⟨rfl, rfl⟩

theorem sameOverflow_updateInputSize (registered : AdumpMap) (dynamicInputs : DynamicInputs)
    (args : ArgsContext) (memInfo : MetaMemInfo) :
    SameOverflow memInfo (args.updateInputSize registered dynamicInputs memInfo) := by
  unfold ArgsContext.updateInputSize updateInputSizeWithTilingData
  split
  · exact ⟨rfl, rfl⟩
  · dsimp only
    split_ifs <;> exact ⟨rfl, rfl⟩

theorem sameOverflow_ownInfo (env : Env) (registered : AdumpMap) (dynamicInputs : DynamicInputs)
    (args : ArgsContext) (elfData : List UInt8) (kernelName : Name) (magic : UInt32) :
    SameOverflow {} (ownInfo env registered dynamicInputs args elfData kernelName magic) := by
  unfold ownInfo
  cases env.parseMetaData elfData kernelName with
  | none => exact ⟨rfl, rfl⟩
  | some parsed =>
    have hparsed : SameOverflow {} { parsed with hasOverflowAddr := false, overflowAddr := 0 } :=
      ⟨rfl, rfl⟩
    exact (hparsed.trans (sameOverflow_setFftsInfo _ _ _)).trans
      (sameOverflow_updateInputSize _ _ _ _)

theorem clear_of_plain (h : Plain memInfo) : memInfo.toMetaMemInfo.clear = {} := by
  unfold MetaMemInfo.clear OpMemInfo.clear
  rw [h.hasOverflowAddr, h.overflowAddr]

/-- Nothing of the launch before is left in the information of a launch. -/
theorem updateOpMemInfoByAdump_eq (h : Plain memInfo) (registered : AdumpMap)
    (dynamicInputs : DynamicInputs) (ctx : LaunchContext) :
    ctx.updateOpMemInfoByAdump env registered dynamicInputs memInfo =
      { ownInfo env registered dynamicInputs ctx.argsCtx ctx.funcCtx.regCtx.elfData
          ctx.funcCtx.kernelName ctx.funcCtx.regCtx.param.magic with } := by
  unfold LaunchContext.updateOpMemInfoByAdump ownInfo
  dsimp only
  rw [h.isForSetException, if_neg Bool.false_ne_true, clear_of_plain h]
  cases env.parseMetaData ctx.funcCtx.regCtx.elfData ctx.funcCtx.kernelName <;> rfl

theorem plain_updateOpMemInfoByAdump (h : Plain memInfo) (registered : AdumpMap)
    (dynamicInputs : DynamicInputs) (ctx : LaunchContext) :
    Plain (ctx.updateOpMemInfoByAdump env registered dynamicInputs memInfo) := by
  rw [updateOpMemInfoByAdump_eq h]
  have hsame := sameOverflow_ownInfo env registered dynamicInputs ctx.argsCtx
    ctx.funcCtx.regCtx.elfData ctx.funcCtx.kernelName ctx.funcCtx.regCtx.param.magic
  exact ⟨hsame.1, hsame.2, rfl⟩

/-- The lists of a device are those of its launches. -/
structure Kept (env : Env) (launched : List Launched) (m : LaunchManager) : Prop where
  contexts : m.contexts.length = launched.length
  memInfoHistory : m.memInfoHistory.length = launched.length
  plain : Plain m.memInfo
  belongs : ∀ (i : ℕ) (l : Launched) (ctx : LaunchContext) (info : AclMemInfo),
    launched[i]? = some l → m.contexts[i]? = some ctx → m.memInfoHistory[i]? = some info →
    Belongs env l i ctx info

variable {launched : List Launched} {m : LaunchManager}

theorem Kept.append (h : Kept env launched m) {l : Launched} {ctx : LaunchContext}
    {info memInfo : AclMemInfo} (hplain : Plain memInfo)
    (hbelongs : Belongs env l launched.length ctx info) (simtUbDynamicSize : UInt32) :
    Kept env (launched ++ [l])
      { contexts := m.contexts ++ [ctx]
        memInfo := memInfo
        memInfoHistory := m.memInfoHistory ++ [info]
        simtUbDynamicSize := simtUbDynamicSize } := by
  refine ⟨by simp [h.contexts], by simp [h.memInfoHistory], hplain, ?_⟩
  intro i l' ctx' info' hl hctx hinfo
  dsimp only at hctx hinfo
  rw [List.getElem?_append] at hl hctx hinfo
  rw [h.contexts] at hctx
  rw [h.memInfoHistory] at hinfo
  split_ifs at hl hctx hinfo with hi
  · exact h.belongs i l' ctx' info' hl hctx hinfo
  · have hzero : i - launched.length = 0 := by
      by_contra hne
      rw [List.getElem?_eq_none (by simp only [List.length_singleton]; omega)] at hl
      simp at hl
    have hlast : i = launched.length := by omega
    subst hlast
    simp only [Nat.sub_self, List.getElem?_cons_zero, Option.some.injEq] at hl hctx hinfo
    rw [← hl, ← hctx, ← hinfo]
    exact hbelongs

/-- A function of a binary that is registered is told with that binary. -/
theorem described_of_lookup {kernels : System} (hinv : kernels.Inv) {funcHandle : UInt64}
    {function : LoadedFunction} {funcCtx : FuncContext}
    (hfunction : kernels.world.functions funcHandle = some function)
    (hlookup : kernels.tool.functions.lookup funcHandle = some funcCtx)
    (hne : function.binary.symbols ≠ none) :
    funcCtx.regCtx.Describes function.binary ∧ funcCtx.function = function.function := by
  obtain ⟨ctx, hctx⟩ := hinv.matched.described funcHandle function hfunction hne
  have heq : ctx = funcCtx := Option.some_injective _ (hctx.lookup.symm.trans hlookup)
  rw [← heq]
  exact ⟨hctx.describes, hctx.function⟩

/-- What is not noted leaves the lists as they are, and what is noted is appended to both. -/
theorem kept_initParam {s : State} (hinv : s.kernels.Inv) {l : Launch}
    (hloaded : s.kernels.world.functions l.funcHandle ≠ none) (h : Kept env launched m) :
    Kept env (launched ++ (s.noted l).toList)
      (m.initParam env s.kernels.tool.functions s.binded s.registered l) := by
  obtain ⟨function, hfunction⟩ := Option.ne_none_iff_exists'.mp hloaded
  unfold LaunchManager.initParam LaunchManager.createContext State.noted
  by_cases hskipped : l.isSkipped s.kernels.tool.functions = true
  · simpa only [if_pos hskipped, Option.toList_none, List.append_nil] using h
  rw [if_neg hskipped, if_neg hskipped]
  cases hargs : l.args with
  | none => simpa using h
  | some args =>
    cases hlookup : s.kernels.tool.functions.lookup l.funcHandle with
    | none => simpa using h
    | some funcCtx =>
      have htold : ∀ symbols, function.binary.symbols = some symbols →
          funcCtx.regCtx.Describes function.binary ∧ funcCtx.function = function.function :=
        fun symbols hsymbols =>
          described_of_lookup hinv hfunction hlookup (hsymbols ▸ Option.some_ne_none symbols)
      simp only [hfunction, Option.toList_some]
      by_cases hneed : l.needMemLengthInfo = true
      · rw [if_pos hneed]
        refine h.append (plain_updateOpMemInfoByAdump h.plain _ _ _)
          ⟨h.contexts, rfl, rfl, rfl, rfl, htold, fun symbols hsymbols _ => ?_⟩ _
        obtain ⟨hdescribes, hfun⟩ := htold symbols hsymbols
        rw [updateOpMemInfoByAdump_eq h.plain]
        unfold Launched.ownInfo
        rw [← FuncContext.kernelName_eq hdescribes hfun hsymbols, ← hdescribes.elfData,
          ← hdescribes.magic]
      · rw [if_neg hneed]
        exact h.append h.plain
          ⟨h.contexts, rfl, rfl, rfl, rfl, htold, fun _ _ hneed' => absurd hneed' hneed⟩ _

theorem kept_report (h : Kept env launched m) (memInfo : MetaMemInfo) :
    Kept env launched { m with memInfo := m.memInfo.change memInfo } :=
  ⟨h.contexts, h.memInfoHistory, ⟨h.plain.hasOverflowAddr, h.plain.overflowAddr,
    h.plain.isForSetException⟩, h.belongs⟩

theorem Belongs.fillAddrs {l : Launched} {launchId : ℕ} {ctx : LaunchContext} {info : AclMemInfo}
    (h : Belongs env l launchId ctx info) (addrs : List UInt64) :
    Belongs env l launchId ctx (fillAddrs addrs info) :=
  { h with memInfo := fun symbols hsymbols hneed =>
      (forgetAddrs_fillAddrs addrs info).trans (h.memInfo symbols hsymbols hneed) }

/-- A dump changes addresses only. -/
theorem kept_save (h : Kept env launched m) (launchId : ℕ) :
    Kept env launched (m.save env launchId).2 := by
  unfold LaunchManager.save
  cases hctx : m.contexts[launchId]? with
  | none => exact h
  | some ctx =>
    dsimp only
    split
    · cases hinfo : m.memInfoHistory[ctx.launchId]? with
      | none => exact h
      | some memInfo =>
        refine ⟨h.contexts, by simpa using h.memInfoHistory, h.plain, ?_⟩
        intro i l ctx' info hl hctx' hinfo'
        dsimp only at hctx' hinfo'
        rw [List.getElem?_set] at hinfo'
        split_ifs at hinfo' with hi
        · subst hi
          simp only [Option.some.injEq] at hinfo'
          rw [← hinfo']
          exact (h.belongs _ l ctx' memInfo hl hctx' hinfo).fillAddrs _
        · exact h.belongs i l ctx' info hl hctx' hinfo'
    · exact h

end Launch

/-! ## All launches -/

structure State.Inv (env : Env) (s : State) : Prop where
  kernels : s.kernels.Inv
  kept : ∀ device, Kept env (s.launched device) (s.managers device)

section Run
variable {env : Env} {s : State}

theorem State.Inv.updateManager (h : s.Inv env) (device : Int32) {m : LaunchManager}
    (hm : Kept env (s.launched device) m) : (s.updateManager device m).Inv env := by
  refine ⟨h.kernels, fun device' => ?_⟩
  change Kept env (s.launched device') (Function.update s.managers device m device')
  by_cases heq : device' = device
  · rw [heq, Function.update_self]
    exact hm
  · rw [Function.update_of_ne heq]
    exact h.kept device'

theorem inv_stepCall (call : Call) (h : s.Inv env) (hcall : s.Possible call) :
    (s.step env call).Inv env := by
  cases call with
  | kernels op => exact ⟨inv_step op h.kernels hcall, h.kept⟩
  | bindStream stream binded => exact ⟨h.kernels, h.kept⟩
  | addAdumpInfo index info => exact ⟨h.kernels, h.kept⟩
  | launch device l =>
    refine ⟨h.kernels, fun device' => ?_⟩
    have hnext := kept_initParam h.kernels hcall (h.kept device)
    simp only [State.step, State.updateManager]
    by_cases heq : device' = device
    · subst heq
      rw [Function.update_self, Function.update_self]
      exact hnext
    · rw [Function.update_of_ne heq, Function.update_of_ne heq]
      exact h.kept device'
  | report device memInfo => exact h.updateManager device (kept_report (h.kept device) memInfo)
  | save device launchId => exact h.updateManager device (kept_save (h.kept device) launchId)

theorem inv_calls (calls : List Call)
    (h : Runs.Guarded (State.step env) State.Possible {} calls) :
    (calls.foldl (State.step env) {}).Inv env := by
  apply h.invariant fun s call hs hcall => inv_stepCall call hs hcall
  refine ⟨inv_run [] trivial, fun device => ⟨rfl, rfl, ⟨rfl, rfl, rfl⟩, ?_⟩⟩
  intro i l ctx info hl
  simp at hl

/-- Whether a launch of a function is noted is told by its binary, if that is registered. -/
theorem State.Inv.noted_eq (h : s.Inv env) {l : Launch} {function : LoadedFunction}
    (hfunction : s.kernels.world.functions l.funcHandle = some function)
    (hne : function.binary.symbols ≠ none) :
    s.noted l =
      if l.hook = .launchKernelWithHostArgs ∧ function.binary.magic = magicElfAicpu then none
      else l.args.map fun args =>
        { function, launch := l, args, isSink := s.binded l.stream
          registered := s.registered } := by
  obtain ⟨funcCtx, hctx⟩ := h.kernels.matched.described l.funcHandle function hfunction hne
  have hskipped : l.isSkipped s.kernels.tool.functions = true ↔
      l.hook = .launchKernelWithHostArgs ∧ function.binary.magic = magicElfAicpu := by
    unfold Launch.isSkipped
    rw [hctx.lookup, ← hctx.describes.magic]
    simp
  unfold State.noted
  simp only [hskipped, hctx.lookup, hfunction]
  cases l.args <;> rfl

theorem save_belongs {m : LaunchManager} {l : Launched} {launchId : ℕ} {ctx : LaunchContext}
    {info : AclMemInfo} (hctx : m.contexts[launchId]? = some ctx)
    (hinfo : m.memInfoHistory[launchId]? = some info) (h : Belongs env l launchId ctx info)
    {symbols : List FunctionStart.Symbol} {kernelObject : List UInt8}
    (hsymbols : l.function.binary.symbols = some symbols)
    (hsaved : KernelObject.savedData env.socVersion l.function.binary.magic
      l.function.binary.data = .ok (some kernelObject)) :
    (m.save env launchId).1 = some
      { kernelObject
        memInfo := fillAddrs (l.args.addrs info.toMetaMemInfo) info
        blockDim := l.launch.blockDim
        magic := l.function.binary.magic
        kernelName := removeSuffix (l.function.kernelName symbols) [mixAicTail, mixAivTail]
        tilingKey := l.function.tilingKey } := by
  obtain ⟨hdescribes, hfunction⟩ := h.function symbols hsymbols
  have hsaved' : KernelObject.savedData env.socVersion ctx.funcCtx.regCtx.param.magic
      ctx.funcCtx.regCtx.elfData = .ok (some kernelObject) := by
    rw [hdescribes.magic, hdescribes.elfData]
    exact hsaved
  unfold LaunchManager.save
  simp only [hctx, hsaved', h.launchId, hinfo]
  rw [h.argsCtx, h.blockDim, hdescribes.magic,
    FuncContext.kernelName_eq hdescribes hfunction hsymbols, FuncContext.tilingKey_eq hfunction]

end Run

/-- No tiling data, and a binary says nothing of its kernels. -/
def silent : Env := ⟨false, false, "", fun _ _ => none⟩

def noTiling : ArgsContext := ⟨fun _ => none, fun _ => []⟩

def launch16 (blockDim : UInt32) : Launch where
  hook := .launchKernelWithConfig
  funcHandle := 16
  blockDim := blockDim
  stream := 5
  args := some noTiling
  needMemLengthInfo := true
  dynamicInputs _ _ := 0

/-- The handle of a function is launched again when it stands for another. -/
def relaunched : List Call :=
  ((reused [2]).take 2).map Call.kernels ++ [.launch 0 (launch16 1)] ++
    ((reused [2]).drop 2).map Call.kernels ++ [.launch 0 (launch16 2)]

end Msopcom.AclLaunches
