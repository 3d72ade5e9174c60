import Msopcom.OpMemInfo

set_option autoImplicit false

/-!
# Launches that a hook gives up

`Call` of a launch hook passes on members of the hook, which `InitParam` fills from the values
of the application. `Pre` may give up before, in or after `InitParam`. A hook is made for each
call, so its members start at their defaults.

What `SanitizerPre` makes of the members of a launch that is not given up is arbitrary.
-/
namespace Msopcom.HookPassThrough

/-- `stopped` says that `Pre` gave up. -/
structure Prepared (M : Type) where
  members : M
  stopped : Bool

/-- The calls of the original function, what the hook returns, and whether `Post` went on to
report the launch and to free its buffers. -/
structure Called (α : Type) where
  passed : List α
  ret : ℤ
  finished : Bool

def Called.once {α : Type} (passed : α) (origin : α → ℤ) (post : ℤ → Bool) : Called α :=
  ⟨[passed], origin passed, post (origin passed)⟩

/-- One call of the original function, with what the application gave, and its result. -/
def PassesThrough {α : Type} (same : α → α → Prop) (given : α) (call : (α → ℤ) → Called α) :
    Prop :=
  ∀ origin, ∃ passed, (call origin).passed = [passed] ∧ same passed given ∧
    (call origin).ret = origin passed

theorem passesThrough_once {α : Type} (same : α → α → Prop) (given passed : α)
    (post : ℤ → Bool) :
    PassesThrough same given (fun origin => .once passed origin post) ↔ same passed given := by
  constructor
  · intro h
    obtain ⟨x, hx, hsame, -⟩ := h fun _ => 0
    have hpassed : passed = x := List.singleton_inj.mp hx
    exact hpassed ▸ hsame
  · intro h origin
    exact ⟨passed, rfl, h, rfl⟩

/-- The original function gets a structure where the application gave a null pointer. -/
theorem not_passesThrough_of_null {α : Type} (argsInfo : α → Option RtArgsEx)
    {given passed : α} (post : ℤ → Bool) (hgiven : argsInfo given = none)
    (hpassed : argsInfo passed ≠ none) :
    ¬ PassesThrough Eq given (fun origin => .once passed origin post) := by
  intro h
  have hsame : passed = given := (passesThrough_once _ _ _ _).mp h
  rw [hsame] at hpassed
  exact hpassed hgiven

/-- The mode of the tool, with neither `IsSanitizer()` nor `IsOpProf()` for `false`. -/
structure Mode (M : Type) where
  isSanitizer : Bool
  sanitizerPre : M → M

def Mode.pre {M : Type} (mode : Mode M) (m : M) : M :=
  if mode.isSanitizer then mode.sanitizerPre m else m

def zeroArgs : RtArgsEx := { args := none, argsSize := 0 }

/-! ## `rtKernelLaunchWithFlagV2` -/

namespace FlagV2

structure Params where
  stubFunc : UInt64
  blockDim : UInt32
  argsInfo : Option RtArgsEx
  smDesc : UInt64
  stm : UInt64
  flags : UInt32
  cfgInfo : UInt64
  deriving DecidableEq, Repr

structure Members where
  stubFunc : UInt64 := 0
  argsInfo : Option RtArgsEx := none
  newArgsInfo : RtArgsEx := zeroArgs
  deriving DecidableEq, Repr

def initParam (p : Params) (argsInfo : RtArgsEx) : Members where
  stubFunc := p.stubFunc
  argsInfo := some argsInfo
  newArgsInfo := argsInfo

def pre (mode : Mode Members) (p : Params) : Prepared Members :=
  match p.argsInfo with
  | none => ⟨{}, true⟩
  | some argsInfo => ⟨mode.pre (initParam p argsInfo), false⟩

def post (m : Members) : ℤ → Bool := fun _ => m.argsInfo.isSome

def passed (p : Params) (m : Members) : Params :=
  { p with stubFunc := m.stubFunc, argsInfo := some m.newArgsInfo }

def call (mode : Mode Members) (p : Params) (origin : Params → ℤ) : Called Params :=
  .once (passed p (pre mode p).members) origin (post (pre mode p).members)

variable {mode : Mode Members} {p : Params}

theorem argsInfo_of_stopped (h : (pre mode p).stopped = true) : p.argsInfo = none := by
  unfold pre at h
  split at h
  · assumption
  · cases h

theorem not_passesThrough (h : (pre mode p).stopped = true) :
    ¬ PassesThrough Eq p (call mode p) :=
  not_passesThrough_of_null Params.argsInfo _ (argsInfo_of_stopped h) (Option.some_ne_none _)

theorem not_finished (h : (pre mode p).stopped = true) (origin : Params → ℤ) :
    (call mode p origin).finished = false := by
  have hnull := argsInfo_of_stopped h
  simp [call, Called.once, post, pre, hnull]

end FlagV2

/-! ## `rtKernelLaunchWithHandleV2` -/

namespace HandleV2

structure Params where
  hdl : UInt64
  tilingKey : UInt64
  blockDim : UInt32
  argsInfo : Option RtArgsEx
  smDesc : UInt64
  stm : UInt64
  cfgInfo : UInt64
  deriving DecidableEq, Repr

structure Members where
  hdl : UInt64 := 0
  argsInfo : Option RtArgsEx := none
  newArgsInfo : RtArgsEx := zeroArgs
  deriving DecidableEq, Repr

def initParam (p : Params) : Members where
  hdl := p.hdl
  argsInfo := p.argsInfo
  newArgsInfo := p.argsInfo.getD zeroArgs

def pre (mode : Mode Members) (p : Params) : Prepared Members :=
  let members := initParam p
  match p.argsInfo with
  | none => ⟨members, true⟩
  | some _ => ⟨mode.pre members, false⟩

def post (m : Members) : ℤ → Bool := fun _ => m.argsInfo.isSome

def passed (p : Params) (m : Members) : Params :=
  { p with hdl := m.hdl, argsInfo := some m.newArgsInfo }

def call (mode : Mode Members) (p : Params) (origin : Params → ℤ) : Called Params :=
  .once (passed p (pre mode p).members) origin (post (pre mode p).members)

variable {mode : Mode Members} {p : Params}

theorem argsInfo_of_stopped (h : (pre mode p).stopped = true) : p.argsInfo = none := by
  unfold pre at h
  split at h
  · assumption
  · cases h

theorem not_passesThrough (h : (pre mode p).stopped = true) :
    ¬ PassesThrough Eq p (call mode p) :=
  not_passesThrough_of_null Params.argsInfo _ (argsInfo_of_stopped h) (Option.some_ne_none _)

theorem not_finished (h : (pre mode p).stopped = true) (origin : Params → ℤ) :
    (call mode p origin).finished = false := by
  have hnull := argsInfo_of_stopped h
  simp [call, Called.once, post, pre, initParam, hnull]

end HandleV2

/-! ## The hooks of the ACL runtime -/

def rtDevBinaryMagicElfAicpu : UInt32 := 0x41415243

/-- `funcs` has the functions that the tool knows, with the magic of their binary, and `args`
the argument handles that it knows. -/
structure Contexts where
  funcs : UInt64 → Option UInt32
  args : UInt64 → Bool

/-! ### `aclrtLaunchKernelWithHostArgsImpl` -/

namespace HostArgs

/-- The array of placeholders has the entries that its number says. -/
structure Params where
  funcHandle : UInt64
  blockDim : UInt32
  stream : UInt64
  cfg : UInt64
  image : AclrtLaunchArgsInfo
  sized : ∀ table, image.placeHolderArray = some table →
    image.placeHolderNum.toNat ≤ table.length

structure Members where
  funcHandle : UInt64 := 0
  hostArgs : Option (List UInt8) := none
  argsSize : UInt64 := 0
  placeHolderArray : List HostInputInfo := []
  launchCtx : Bool := false
  deriving DecidableEq, Repr

/-- What the original function is called with. -/
structure Passed where
  funcHandle : UInt64
  blockDim : UInt32
  stream : UInt64
  cfg : UInt64
  image : AclrtLaunchArgsInfo
  deriving DecidableEq, Repr

def Params.given (p : Params) : Passed := ⟨p.funcHandle, p.blockDim, p.stream, p.cfg, p.image⟩

def refreshParam (p : Params) : Members where
  funcHandle := p.funcHandle
  hostArgs := p.image.hostArgs
  argsSize := p.image.argsSize
  placeHolderArray := p.image.hostInputs

/-- Whether `ArgsManager::CreateContext` makes a context. It takes the size in 32 bits. -/
def createArgsContext (image : AclrtLaunchArgsInfo) : Bool :=
  image.hostArgs.isSome && image.argsSize.toUInt32 != 0

def createLaunchContext (ctx : Contexts) (p : Params) : Bool :=
  createArgsContext p.image && (ctx.funcs p.funcHandle).isSome

def initParam (ctx : Contexts) (p : Params) : Prepared Members :=
  let members := refreshParam p
  if ctx.funcs p.funcHandle = some rtDevBinaryMagicElfAicpu then ⟨members, true⟩
  else if createLaunchContext ctx p then ⟨{ members with launchCtx := true }, false⟩
  else ⟨members, true⟩

def pre (mode : Mode Members) (ctx : Contexts) (p : Params) : Prepared Members :=
  let prepared := initParam ctx p
  if prepared.stopped then prepared else ⟨mode.pre prepared.members, false⟩

def aclSuccess : ℤ := 0

def post (m : Members) (ret : ℤ) : Bool := ret == aclSuccess && m.launchCtx

/-- `data()` of a vector: null when it has no entries. -/
def dataPtr (v : List HostInputInfo) : Option (List HostInputInfo) :=
  if v = [] then none else some v

def passed (p : Params) (m : Members) : Passed where
  funcHandle := m.funcHandle
  blockDim := p.blockDim
  stream := p.stream
  cfg := p.cfg
  image :=
    { hostArgs := m.hostArgs
      argsSize := m.argsSize
      placeHolderArray := dataPtr m.placeHolderArray
      placeHolderNum := p.image.placeHolderNum }

def call (mode : Mode Members) (ctx : Contexts) (p : Params) (origin : Passed → ℤ) :
    Called Passed :=
  .once (passed p (pre mode ctx p).members) origin (post (pre mode ctx p).members)

/-- The same bytes, sizes and placeholders, and no null pointer replaced. -/
structure SameImage (passed given : AclrtLaunchArgsInfo) : Prop where
  hostArgs : passed.hostArgs = given.hostArgs
  argsSize : passed.argsSize = given.argsSize
  placeHolderNum : passed.placeHolderNum = given.placeHolderNum
  placeHolders : passed.hostInputs = given.hostInputs
  null : given.placeHolderArray = none → passed.placeHolderArray = none

structure Same (passed given : Passed) : Prop where
  funcHandle : passed.funcHandle = given.funcHandle
  blockDim : passed.blockDim = given.blockDim
  stream : passed.stream = given.stream
  cfg : passed.cfg = given.cfg
  image : SameImage passed.image given.image

variable {mode : Mode Members} {ctx : Contexts} {p : Params}

theorem initParam_members_of_stopped (h : (initParam ctx p).stopped = true) :
    (initParam ctx p).members = refreshParam p := by
  unfold initParam at h ⊢
  dsimp only at h ⊢
  split_ifs at h ⊢
  · rfl
  · rfl

theorem pre_members_of_stopped (h : (pre mode ctx p).stopped = true) :
    (pre mode ctx p).members = refreshParam p := by
  unfold pre at h ⊢
  dsimp only at h ⊢
  split_ifs at h ⊢ with hstopped
  exact initParam_members_of_stopped hstopped

theorem getD_dataPtr (v : List HostInputInfo) : (dataPtr v).getD [] = v := by
  unfold dataPtr
  split_ifs with h
  · exact h.symm
  · rfl

theorem sameImage_refreshParam :
    SameImage (passed p (refreshParam p)).image p.image where
  hostArgs := rfl
  argsSize := rfl
  placeHolderNum := rfl
  placeHolders := by
    change ((dataPtr p.image.hostInputs).getD []).take p.image.placeHolderNum.toNat = _
    rw [getD_dataPtr]
    exact List.take_take.trans (congrArg (List.take · _) (Nat.min_self _))
  null := by
    intro h
    simp [passed, refreshParam, AclrtLaunchArgsInfo.hostInputs, hostInputs, h, dataPtr]

theorem passesThrough (h : (pre mode ctx p).stopped = true) :
    PassesThrough Same p.given (call mode ctx p) := by
  refine (passesThrough_once _ _ _ _).mpr ?_
  rw [pre_members_of_stopped h]
  exact ⟨rfl, rfl, rfl, rfl, sameImage_refreshParam⟩

theorem not_finished (h : (pre mode ctx p).stopped = true) (origin : Passed → ℤ) :
    (call mode ctx p origin).finished = false := by
  simp [call, Called.once, post, pre_members_of_stopped h, refreshParam]

end HostArgs

/-! ### `aclrtLaunchKernelWithConfigImpl` -/

namespace Config

structure Params where
  funcHandle : UInt64
  blockDim : UInt32
  stream : UInt64
  cfg : UInt64
  argsHandle : UInt64
  reserve : UInt64
  deriving DecidableEq, Repr

structure Members where
  funcHandle : UInt64 := 0
  argsHandle : UInt64 := 0
  launchCtx : Bool := false
  deriving DecidableEq, Repr

def refreshParam (p : Params) : Members where
  funcHandle := p.funcHandle
  argsHandle := p.argsHandle

def createLaunchContext (ctx : Contexts) (p : Params) : Bool :=
  ctx.args p.argsHandle && (ctx.funcs p.funcHandle).isSome

def initParam (ctx : Contexts) (p : Params) : Prepared Members :=
  let members := refreshParam p
  if createLaunchContext ctx p then ⟨{ members with launchCtx := true }, false⟩
  else ⟨members, true⟩

def pre (mode : Mode Members) (ctx : Contexts) (p : Params) : Prepared Members :=
  let prepared := initParam ctx p
  if prepared.stopped then prepared else ⟨mode.pre prepared.members, false⟩

def post (m : Members) (ret : ℤ) : Bool := ret == HostArgs.aclSuccess && m.launchCtx

def passed (p : Params) (m : Members) : Params :=
  { p with funcHandle := m.funcHandle, argsHandle := m.argsHandle }

def call (mode : Mode Members) (ctx : Contexts) (p : Params) (origin : Params → ℤ) :
    Called Params :=
  .once (passed p (pre mode ctx p).members) origin (post (pre mode ctx p).members)

variable {mode : Mode Members} {ctx : Contexts} {p : Params}

theorem pre_members_of_stopped (h : (pre mode ctx p).stopped = true) :
    (pre mode ctx p).members = refreshParam p := by
  unfold pre initParam at h ⊢
  dsimp only at h ⊢
  split_ifs at h ⊢
  rfl

theorem passesThrough (h : (pre mode ctx p).stopped = true) :
    PassesThrough Eq p (call mode ctx p) := by
  refine (passesThrough_once _ _ _ _).mpr ?_
  rw [pre_members_of_stopped h]
  rfl

theorem not_finished (h : (pre mode ctx p).stopped = true) (origin : Params → ℤ) :
    (call mode ctx p origin).finished = false := by
  simp [call, Called.once, post, pre_members_of_stopped h, refreshParam]

end Config

/-! ## The four hooks -/

structure Tool where
  isSanitizer : Bool
  ctx : Contexts
  flagV2 : FlagV2.Members → FlagV2.Members
  handleV2 : HandleV2.Members → HandleV2.Members
  hostArgs : HostArgs.Members → HostArgs.Members
  config : Config.Members → Config.Members

inductive Launch
  | flagV2 (p : FlagV2.Params)
  | handleV2 (p : HandleV2.Params)
  | hostArgs (p : HostArgs.Params)
  | config (p : Config.Params)

namespace Launch

def stopped (t : Tool) : Launch → Bool
  | .flagV2 p => (FlagV2.pre ⟨t.isSanitizer, t.flagV2⟩ p).stopped
  | .handleV2 p => (HandleV2.pre ⟨t.isSanitizer, t.handleV2⟩ p).stopped
  | .hostArgs p => (HostArgs.pre ⟨t.isSanitizer, t.hostArgs⟩ t.ctx p).stopped
  | .config p => (Config.pre ⟨t.isSanitizer, t.config⟩ t.ctx p).stopped

def PassThrough (t : Tool) : Launch → Prop
  | .flagV2 p => PassesThrough Eq p (FlagV2.call ⟨t.isSanitizer, t.flagV2⟩ p)
  | .handleV2 p => PassesThrough Eq p (HandleV2.call ⟨t.isSanitizer, t.handleV2⟩ p)
  | .hostArgs p =>
    PassesThrough HostArgs.Same p.given (HostArgs.call ⟨t.isSanitizer, t.hostArgs⟩ t.ctx p)
  | .config p => PassesThrough Eq p (Config.call ⟨t.isSanitizer, t.config⟩ t.ctx p)

def throughAcl : Launch → Bool
  | .flagV2 _ | .handleV2 _ => false
  | .hostArgs _ | .config _ => true

end Launch

/-- A launch that a hook gives up is passed through by the hooks of the ACL runtime, and by the
other two never: they put a cleared structure in the place of the null pointer. -/
theorem passThrough_iff_throughAcl (t : Tool) (l : Launch) (h : l.stopped t = true) :
    l.PassThrough t ↔ l.throughAcl = true := by
  cases l with
  | flagV2 p => exact iff_of_false (FlagV2.not_passesThrough h) Bool.false_ne_true
  | handleV2 p => exact iff_of_false (HandleV2.not_passesThrough h) Bool.false_ne_true
  | hostArgs p => exact iff_of_true (HostArgs.passesThrough h) rfl
  | config p => exact iff_of_true (Config.passesThrough h) rfl

def idleTool : Tool where
  isSanitizer := false
  ctx := ⟨fun _ => none, fun _ => false⟩
  flagV2 := id
  handleV2 := id
  hostArgs := id
  config := id

def unknownFunction : Launch := .config ⟨1, 8, 2, 0, 3, 0⟩

theorem passThrough_iff_unknownFunction :
    unknownFunction.PassThrough idleTool ↔ unknownFunction.throughAcl = true :=
  passThrough_iff_throughAcl idleTool unknownFunction rfl

def nullArgs : Launch := .flagV2 ⟨1, 8, none, 0, 2, 0, 0⟩

theorem nullArgs_not_passThrough :
    ¬ ∀ (t : Tool) (l : Launch), l.stopped t = true → l.PassThrough t := by
  intro h
  have hpass : nullArgs.PassThrough idleTool := h idleTool nullArgs rfl
  exact FlagV2.not_passesThrough rfl hpass

end Msopcom.HookPassThrough
