import Msopcom.Bytes

set_option autoImplicit false

/-!
# The cached context of an args handle

Every parameter that the application appends to an args handle is cached, so that a
launch can be given a new handle with one more parameter.
-/
namespace Msopcom

inductive ParamType
  | normal
  | placeholder
  deriving DecidableEq, Repr

structure ParamData where
  paramHandle : UInt64
  param : List UInt8
  type : ParamType
  deriving DecidableEq, Repr

structure ArgsHandleContext where
  params : List ParamData
  deriving DecidableEq, Repr

def maxSingleParamSize : ℕ := 4096

structure HandleParam where
  type : ParamType
  bytes : List UInt8
  deriving DecidableEq, Repr

/-- What the runtime answers while a new handle is made; the calls of a loop are
numbered by their parameter. -/
structure AclKernelArgs where
  getMemSize : ℕ → Option ℕ
  getHandleMemSize : Option ℕ
  initByUserMem : Bool
  append : ℕ → Bool
  getPlaceHolderBuffer : ℕ → Bool
  finalize : Bool

namespace ArgsHandleContext

/-- Beyond the limit only a warning is logged. -/
def cacheArgsAppendOp (ctx : ArgsHandleContext) (param : List UInt8) (paramHandle : UInt64) :
    ArgsHandleContext :=
  if param.length > maxSingleParamSize then ctx
  else { ctx with params := ctx.params ++ [⟨paramHandle, param, .normal⟩] }

def updateParams (paramHandle : UInt64) (param : List UInt8) : List ParamData → List ParamData
  | [] => []
  | p :: ps =>
    if p.paramHandle = paramHandle then { p with param := param } :: ps
    else p :: updateParams paramHandle param ps

def cacheArgsParaUpdateOp (ctx : ArgsHandleContext) (paramHandle : UInt64) (param : List UInt8) :
    ArgsHandleContext :=
  { ctx with params := updateParams paramHandle param ctx.params }

/-- The appended pointer has no handle of the application's; `true` is returned always. -/
def expandArgs (ctx : ArgsHandleContext) (param : List UInt8) : ArgsHandleContext :=
  ctx.cacheArgsAppendOp param 0

def calcUserArgsSize (ctx : ArgsHandleContext) : ℕ :=
  ctx.params.foldl (fun userArgsSize p => userArgsSize + p.param.length) 0

def replayAppends (acl : AclKernelArgs) :
    ℕ → List ParamData → List HandleParam → Option (List HandleParam)
  | _, [], handle => some handle
  | idx, p :: ps, handle =>
    if acl.append idx then
      replayAppends acl (idx + 1) ps
        (handle ++ [⟨p.type, if p.type = .normal then p.param else []⟩])
    else none

def replayPlaceHolders (acl : AclKernelArgs) :
    ℕ → List ParamData → List HandleParam → Option (List HandleParam)
  | _, [], handle => some handle
  | idx, p :: ps, handle =>
    if p.type ≠ .placeholder then replayPlaceHolders acl (idx + 1) ps handle
    else if acl.getPlaceHolderBuffer idx then
      replayPlaceHolders acl (idx + 1) ps
        (handle.modify idx fun q => { q with bytes := p.param })
    else none

def replayArgs (acl : AclKernelArgs) (ctx : ArgsHandleContext) : Option (List HandleParam) :=
  (replayAppends acl 0 ctx.params []).bind (replayPlaceHolders acl 0 ctx.params)

/-- The parameters of the new handle; `none` stands for the null handle. -/
def generateArgsHandle (acl : AclKernelArgs) (ctx : ArgsHandleContext) :
    Option (List HandleParam) :=
  match acl.getMemSize ctx.calcUserArgsSize, acl.getHandleMemSize with
  | some _, some _ =>
    if !acl.initByUserMem then none
    else
      match ctx.replayArgs acl with
      | none => none
      | some handle => if acl.finalize then some handle else none
  | _, _ => none

end ArgsHandleContext

/-! ## The hooks -/

structure ParaUpdate where
  paramHandle : UInt64
  param : List UInt8
  success : Bool
  deriving DecidableEq, Repr

def paraUpdatePost (ctx : ArgsHandleContext) (u : ParaUpdate) : ArgsHandleContext :=
  if !u.success || u.paramHandle = 0 then ctx
  else if u.param.length > maxSingleParamSize then ctx
  else ctx.cacheArgsParaUpdateOp u.paramHandle u.param

structure HandleLaunch where
  /-- A launch context could be made for the function and the handle. -/
  initParam : Bool
  skipSanitizer : Bool
  isSink : Bool
  memInfo : Option UInt64
  acl : AclKernelArgs

/-- `SanitizerPre`: the context it leaves in the `ArgsManager`, and the parameters of
the handle it makes. The context is the one that the manager holds, not a copy. -/
def handleSanitizerPre (ctx : ArgsHandleContext) (l : HandleLaunch) :
    ArgsHandleContext × Option (List HandleParam) :=
  if !l.initParam || l.skipSanitizer || l.isSink then (ctx, none)
  else
    match l.memInfo with
    | none => (ctx, none)
    | some memInfo =>
      let argsCtx := ctx.expandArgs (Bytes.leBytes 8 memInfo.toNat)
      (argsCtx, argsCtx.generateArgsHandle l.acl)

end Msopcom
