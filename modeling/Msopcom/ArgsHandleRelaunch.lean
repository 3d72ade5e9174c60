import Msopcom.ArgsHandleContext
import Msopcom.Runs

set_option autoImplicit false

/-!
# Launching one args handle again

What the handle of a launch holds, after any updates and launches of the same args
handle before it.
-/
namespace Msopcom

namespace ArgsHandleContext

def toHandleParam (p : ParamData) : HandleParam :=
  ⟨p.type, p.param⟩

def appended (p : ParamData) : HandleParam :=
  ⟨p.type, if p.type = .normal then p.param else []⟩

theorem replayAppends_eq (acl : AclKernelArgs) (idx : ℕ) (ps : List ParamData)
    (handle : List HandleParam) :
    replayAppends acl idx ps handle =
      if (ps.zipIdx idx).all fun q => acl.append q.2 then some (handle ++ ps.map appended)
      else none := by
  induction ps generalizing idx handle with
  | nil => simp [replayAppends]
  | cons p ps ih =>
    rw [replayAppends, List.zipIdx_cons, List.all_cons]
    cases acl.append idx with
    | false => simp
    | true =>
      rw [if_pos rfl, ih, Bool.true_and, List.append_assoc]
      rfl

theorem modify_append_cons {α : Type} (f : α → α) (front : List α) (a : α) (rest : List α) :
    (front ++ a :: rest).modify front.length f = front ++ f a :: rest := by
  induction front with
  | nil => rfl
  | cons b front ih => simp only [List.cons_append, List.length_cons, List.modify_succ_cons, ih]

/-- Before parameter `idx` the placeholders have their bytes, from it on they do not. -/
theorem replayPlaceHolders_eq (acl : AclKernelArgs) (idx : ℕ) (ps : List ParamData)
    {filled : List HandleParam} (hidx : filled.length = idx) :
    replayPlaceHolders acl idx ps (filled ++ ps.map appended) =
      if (ps.zipIdx idx).all fun q => q.1.type = .normal || acl.getPlaceHolderBuffer q.2 then
        some (filled ++ ps.map toHandleParam)
      else none := by
  induction ps generalizing idx filled with
  | nil => simp [replayPlaceHolders]
  | cons p ps ih =>
    have hnext : ∀ q : HandleParam, (filled ++ [q]).length = idx + 1 := by
      intro q
      rw [List.length_append, hidx, List.length_singleton]
    rw [replayPlaceHolders, List.zipIdx_cons, List.all_cons, List.map_cons, List.map_cons]
    cases htype : p.type with
    | normal =>
      have happended : appended p = toHandleParam p := by simp [appended, toHandleParam, htype]
      rw [if_pos (by decide), happended, List.append_cons, ih (idx + 1) (hnext _),
        ← List.append_cons]
      rfl
    | placeholder =>
      rw [if_neg (by simp)]
      cases acl.getPlaceHolderBuffer idx with
      | false => simp
      | true =>
        have hfill : (filled ++ appended p :: ps.map appended).modify idx
            (fun q => { q with bytes := p.param }) =
              (filled ++ [toHandleParam p]) ++ ps.map appended := by
          rw [← hidx, modify_append_cons, List.append_cons]
          rfl
        rw [if_pos rfl, hfill, ih (idx + 1) (hnext _), ← List.append_cons]
        rfl

/-- The runtime takes every call that makes a handle with these parameters. -/
def takes (acl : AclKernelArgs) (ctx : ArgsHandleContext) : Bool :=
  (acl.getMemSize ctx.calcUserArgsSize).isSome && acl.getHandleMemSize.isSome &&
    acl.initByUserMem && (ctx.params.zipIdx.all fun q => acl.append q.2) &&
    (ctx.params.zipIdx.all fun q => q.1.type = .normal || acl.getPlaceHolderBuffer q.2) &&
    acl.finalize

theorem replayArgs_eq (acl : AclKernelArgs) (ctx : ArgsHandleContext) :
    ctx.replayArgs acl =
      if (ctx.params.zipIdx.all fun q => acl.append q.2) &&
          (ctx.params.zipIdx.all fun q => q.1.type = .normal || acl.getPlaceHolderBuffer q.2) then
        some (ctx.params.map toHandleParam)
      else none := by
  have hfill := replayPlaceHolders_eq acl 0 ctx.params (List.length_nil (α := HandleParam))
  rw [List.nil_append, List.nil_append] at hfill
  unfold replayArgs
  rw [replayAppends_eq, List.nil_append]
  cases ctx.params.zipIdx.all fun q => acl.append q.2 with
  | false => rfl
  | true => rw [if_pos rfl, Option.bind_some, hfill, Bool.true_and]

theorem generateArgsHandle_eq (acl : AclKernelArgs) (ctx : ArgsHandleContext) :
    ctx.generateArgsHandle acl =
      if ctx.takes acl then some (ctx.params.map toHandleParam) else none := by
  unfold generateArgsHandle takes
  rw [replayArgs_eq]
  cases acl.getMemSize ctx.calcUserArgsSize with
  | none => rfl
  | some actualArgsSize =>
    cases acl.getHandleMemSize with
    | none => rfl
    | some handleSize =>
      cases acl.initByUserMem with
      | false => rfl
      | true =>
        cases ctx.params.zipIdx.all fun q => acl.append q.2 with
        | false => rfl
        | true =>
          cases ctx.params.zipIdx.all fun q =>
              q.1.type = .normal || acl.getPlaceHolderBuffer q.2 with
          | false => rfl
          | true => cases acl.finalize <;> rfl

end ArgsHandleContext

namespace ArgsHandleRelaunch
open ArgsHandleContext Runs

/-! ## Runs of one args handle -/

/-- The pointer that a launch adds to its handle; `none` when the launch is not one
of the sanitizer's. -/
def memInfoPointer (l : HandleLaunch) : Option UInt64 :=
  if !l.initParam || l.skipSanitizer || l.isSink then none else l.memInfo

def pointerParam (memInfo : UInt64) : ParamData :=
  ⟨0, Bytes.leBytes 8 memInfo.toNat, .normal⟩

theorem expandArgs_pointer (ctx : ArgsHandleContext) (memInfo : UInt64) :
    ctx.expandArgs (Bytes.leBytes 8 memInfo.toNat) =
      { ctx with params := ctx.params ++ [pointerParam memInfo] } := by
  have hsize : ¬ (Bytes.leBytes 8 memInfo.toNat).length > maxSingleParamSize := by
    rw [Bytes.length_leBytes]
    decide
  unfold expandArgs cacheArgsAppendOp
  rw [if_neg hsize]
  rfl

theorem handleSanitizerPre_eq (ctx : ArgsHandleContext) (l : HandleLaunch) :
    handleSanitizerPre ctx l =
      match memInfoPointer l with
      | none => (ctx, none)
      | some memInfo =>
        let argsCtx : ArgsHandleContext := ⟨ctx.params ++ [pointerParam memInfo]⟩
        (argsCtx, argsCtx.generateArgsHandle l.acl) := by
  unfold handleSanitizerPre memInfoPointer
  cases !l.initParam || l.skipSanitizer || l.isSink with
  | true => rfl
  | false =>
    simp only [Bool.false_eq_true, if_false]
    cases l.memInfo with
    | none => rfl
    | some memInfo =>
      dsimp only
      rw [expandArgs_pointer]

inductive HandleEvent
  | paraUpdate (u : ParaUpdate)
  | launch (l : HandleLaunch)

def updateUser (user : List ParamData) (u : ParaUpdate) : List ParamData :=
  if !u.success || u.paramHandle = 0 then user else updateParams u.paramHandle u.param user

/-- The cached context, and beside it the application's parameters with their latest
values and the pointers added so far. -/
structure HandleRun where
  cached : ArgsHandleContext
  user : List ParamData
  expanded : List UInt64

def start (ctx : ArgsHandleContext) : HandleRun :=
  ⟨ctx, ctx.params, []⟩

def step (s : HandleRun) : HandleEvent → HandleRun
  | .paraUpdate u => { s with cached := paraUpdatePost s.cached u, user := updateUser s.user u }
  | .launch l =>
    { s with
      cached := (handleSanitizerPre s.cached l).1
      expanded := s.expanded ++ (memInfoPointer l).toList }

/-- A handle that the launch makes has the application's parameters and then the
pointer of this launch. -/
def ReplayRight (s : HandleRun) : HandleEvent → Prop
  | .paraUpdate _ => True
  | .launch l => ∀ handle ∈ (handleSanitizerPre s.cached l).2,
      handle = (s.user ++ (memInfoPointer l).toList.map pointerParam).map toHandleParam

def ContextKept (s : HandleRun) : HandleEvent → Prop
  | .paraUpdate _ => True
  | .launch l => (handleSanitizerPre s.cached l).1 = s.cached

def RelaunchRight (s : HandleRun) (ev : HandleEvent) : Prop :=
  ReplayRight s ev ∧ ContextKept s ev

def NotExpanded : HandleEvent → Prop
  | .paraUpdate _ => True
  | .launch l => memInfoPointer l = none

/-- No launch before one that makes a handle came to `ExpandArgs`. -/
def FirstExpansion (s : HandleRun) : HandleEvent → Prop
  | .paraUpdate _ => True
  | .launch l => ∀ memInfo ∈ memInfoPointer l,
      takes l.acl ⟨s.cached.params ++ [pointerParam memInfo]⟩ → s.expanded = []

/-- The update is within the size that the hook caches. -/
def WithinLimit : HandleEvent → Prop
  | .paraUpdate u => u.success → u.param.length ≤ maxSingleParamSize
  | .launch _ => True

/-! ## One step -/

theorem relaunchRight_iff_notExpanded (s : HandleRun) (ev : HandleEvent) :
    RelaunchRight s ev ↔ NotExpanded ev := by
  cases ev with
  | paraUpdate u => exact ⟨fun _ => trivial, fun _ => ⟨trivial, trivial⟩⟩
  | launch l =>
    simp only [RelaunchRight, ReplayRight, ContextKept, NotExpanded]
    rw [handleSanitizerPre_eq]
    cases hptr : memInfoPointer l with
    | none => simp
    | some memInfo =>
      constructor
      · intro h
        -- the context has one parameter more than before
        have hlength := congrArg (fun ctx : ArgsHandleContext => ctx.params.length) h.2
        simp at hlength
      · intro h
        cases h

/-- The cached parameters are the application's and then every pointer added so far. -/
def Synced (s : HandleRun) : Prop :=
  s.cached.params = s.user ++ s.expanded.map pointerParam

theorem updateParams_append {paramHandle : UInt64} {rest : List ParamData} (param : List UInt8)
    (hrest : ∀ p ∈ rest, p.paramHandle ≠ paramHandle) (ps : List ParamData) :
    updateParams paramHandle param (ps ++ rest) = updateParams paramHandle param ps ++ rest := by
  induction ps with
  | nil =>
    induction rest with
    | nil => rfl
    | cons p rest ih =>
      have hp : p.paramHandle ≠ paramHandle := hrest p List.mem_cons_self
      have htail := ih fun q hq => hrest q (List.mem_cons_of_mem p hq)
      simp only [List.nil_append, updateParams, if_neg hp] at htail ⊢
      rw [htail]
  | cons p ps ih =>
    rw [List.cons_append, updateParams, updateParams, ih]
    split
    · rfl
    · rfl

/-- The added pointers have the null handle, so no update reaches them. -/
theorem updateUser_append (user : List ParamData) (expanded : List UInt64) (u : ParaUpdate) :
    updateUser (user ++ expanded.map pointerParam) u =
      updateUser user u ++ expanded.map pointerParam := by
  unfold updateUser
  by_cases hskip : !u.success || u.paramHandle = 0
  · rw [if_pos hskip, if_pos hskip]
  · have hhandle : u.paramHandle ≠ 0 := by
      intro h
      simp [h] at hskip
    have hpointers : ∀ p ∈ expanded.map pointerParam, p.paramHandle ≠ u.paramHandle := by
      intro p hp
      cases List.mem_map.mp hp with
      | intro memInfo hmemInfo =>
        rw [← hmemInfo.2]
        exact hhandle.symm
    rw [if_neg hskip, if_neg hskip, updateParams_append u.param hpointers]

theorem params_paraUpdatePost (ctx : ArgsHandleContext) (u : ParaUpdate)
    (hlimit : u.success → u.param.length ≤ maxSingleParamSize) :
    (paraUpdatePost ctx u).params = updateUser ctx.params u := by
  unfold paraUpdatePost updateUser
  by_cases hskip : !u.success || u.paramHandle = 0
  · rw [if_pos hskip, if_pos hskip]
  · have hsuccess : u.success = true := by
      cases hu : u.success with
      | false => simp [hu] at hskip
      | true => rfl
    rw [if_neg hskip, if_neg hskip, if_neg (Nat.not_lt.mpr (hlimit hsuccess))]
    rfl

theorem synced_start (ctx : ArgsHandleContext) : Synced (start ctx) :=
  (List.append_nil ctx.params).symm

theorem synced_step (s : HandleRun) (ev : HandleEvent) (hs : Synced s) (hev : WithinLimit ev) :
    Synced (step s ev) := by
  cases ev with
  | paraUpdate u =>
    change (paraUpdatePost s.cached u).params = updateUser s.user u ++ s.expanded.map pointerParam
    rw [params_paraUpdatePost s.cached u hev, hs, updateUser_append]
  | launch l =>
    change (handleSanitizerPre s.cached l).1.params =
      s.user ++ (s.expanded ++ (memInfoPointer l).toList).map pointerParam
    rw [handleSanitizerPre_eq]
    cases memInfoPointer l with
    | none =>
      rw [Option.toList_none, List.append_nil]
      exact hs
    | some memInfo =>
      change s.cached.params ++ [pointerParam memInfo] = _
      rw [hs, List.map_append, List.append_assoc]
      rfl

/-- What the handle of a launch holds: the application's parameters, the pointers of
every launch before it, and its own. -/
theorem replayed_eq {s : HandleRun} (hs : Synced s) (l : HandleLaunch) :
    (handleSanitizerPre s.cached l).2 =
      (memInfoPointer l).bind fun memInfo =>
        if takes l.acl ⟨s.cached.params ++ [pointerParam memInfo]⟩ then
          some ((s.user ++ (s.expanded ++ [memInfo]).map pointerParam).map toHandleParam)
        else none := by
  rw [handleSanitizerPre_eq]
  cases memInfoPointer l with
  | none => rfl
  | some memInfo =>
    change generateArgsHandle l.acl _ = _
    rw [generateArgsHandle_eq, Option.bind_some, List.map_append (f := pointerParam),
      ← List.append_assoc, ← hs]
    rfl

theorem replayRight_iff_firstExpansion (s : HandleRun) (ev : HandleEvent) (hs : Synced s) :
    ReplayRight s ev ↔ FirstExpansion s ev := by
  cases ev with
  | paraUpdate u => exact Iff.rfl
  | launch l =>
    simp only [ReplayRight, FirstExpansion]
    rw [replayed_eq hs]
    cases memInfoPointer l with
    | none => simp
    | some memInfo =>
      simp only [Option.bind_some, Option.mem_def, Option.some.injEq, forall_eq']
      by_cases htakes : takes l.acl ⟨s.cached.params ++ [pointerParam memInfo]⟩
      · rw [if_pos htakes]
        constructor
        · intro h _
          have hlength := congrArg List.length (h _ rfl)
          simp only [List.length_map, List.length_append, List.length_singleton,
            Option.toList_some] at hlength
          exact List.eq_nil_of_length_eq_zero (by omega)
        · intro h handle hhandle
          rw [h htakes, List.nil_append] at hhandle
          exact (Option.some.inj hhandle).symm
      · rw [if_neg htakes]
        exact ⟨fun _ h => absurd h htakes, fun _ handle h => nomatch h⟩

/-! ## Runs -/

/-- A run keeps to what a relaunch should do exactly when no launch of it comes to
`ExpandArgs`. As long as the updates are within the size that is cached, every handle
is made with the right parameters exactly when no pointer was added before it. -/
theorem relaunch_right_iff (ctx : ArgsHandleContext) (events : List HandleEvent) :
    (Guarded step RelaunchRight (start ctx) events ↔ ∀ ev ∈ events, NotExpanded ev) ∧
      ((∀ ev ∈ events, WithinLimit ev) →
        (Guarded step ReplayRight (start ctx) events ↔
          Guarded step FirstExpansion (start ctx) events)) := by
  constructor
  · exact guarded_iff_forall relaunchRight_iff_notExpanded (start ctx) events
  · intro hlimit
    exact guarded_congr (fun s ev hs _ => replayRight_iff_firstExpansion s ev hs) synced_step
      (synced_start ctx) hlimit

def oneParam : ArgsHandleContext :=
  ⟨[⟨1, Bytes.leBytes 8 0x12C0000, .normal⟩]⟩

def sampleLaunch (memInfo : UInt64) : HandleLaunch where
  initParam := true
  skipSanitizer := false
  isSink := false
  memInfo := some memInfo
  acl := ⟨some, some 64, true, fun _ => true, fun _ => true, true⟩

/-- An update before the first launch reaches its handle. -/
theorem relaunch_right_firstLaunch :
    Guarded step ReplayRight (start oneParam)
      [.paraUpdate ⟨1, Bytes.leBytes 8 0x12C1000, true⟩, .launch (sampleLaunch 0x1000)] := by
  apply ((relaunch_right_iff oneParam _).2 _).mpr
  · exact ⟨trivial, fun _ _ _ => rfl, trivial⟩
  · rw [List.forall_mem_cons, List.forall_mem_singleton]
    exact ⟨fun _ => by decide, trivial⟩

/-- The handle of the second launch has the pointer of the first one in front of its
own, and the context still has both. -/
theorem second_launch_adds_two_pointers :
    ¬ Guarded step RelaunchRight (start oneParam)
        [.launch (sampleLaunch 0x1000), .launch (sampleLaunch 0x2000)] ∧
      ¬ Guarded step ReplayRight (start oneParam)
        [.launch (sampleLaunch 0x1000), .launch (sampleLaunch 0x2000)] ∧
      (handleSanitizerPre (step (start oneParam) (.launch (sampleLaunch 0x1000))).cached
          (sampleLaunch 0x2000)).2 =
        some [⟨.normal, Bytes.leBytes 8 0x12C0000⟩, ⟨.normal, Bytes.leBytes 8 0x1000⟩,
          ⟨.normal, Bytes.leBytes 8 0x2000⟩] := by
  have hreplay : (handleSanitizerPre (step (start oneParam) (.launch (sampleLaunch 0x1000))).cached
      (sampleLaunch 0x2000)).2 =
        some [⟨.normal, Bytes.leBytes 8 0x12C0000⟩, ⟨.normal, Bytes.leBytes 8 0x1000⟩,
          ⟨.normal, Bytes.leBytes 8 0x2000⟩] := by
    decide
  have hwrong : ¬ ReplayRight (step (start oneParam) (.launch (sampleLaunch 0x1000)))
      (.launch (sampleLaunch 0x2000)) := by
    intro h
    have hlength := congrArg List.length (h _ hreplay)
    exact absurd hlength (by decide)
  exact ⟨fun h => hwrong h.2.1.1, fun h => hwrong h.2.1, hreplay⟩

end ArgsHandleRelaunch
end Msopcom
