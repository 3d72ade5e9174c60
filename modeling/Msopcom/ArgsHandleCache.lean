import Msopcom.ArgsHandleRelaunch
import Mathlib.Data.List.Forall2
import Mathlib.Data.List.Nodup

set_option autoImplicit false

/-!
# The cache of an args handle against the handle itself

Each call of the application on an args handle goes to the runtime first and is then
cached by a hook. The replay is compared with the handle that the runtime keeps.
-/
namespace Msopcom.ArgsHandleCache
open ArgsHandleContext Runs

/-! ## The hooks -/

def maxAllParamSize : ℕ := 1024 * 1024 * 1024

structure CachedParam extends ParamData where
  srcBuffer : UInt64
  deriving DecidableEq, Repr

def context (params : List CachedParam) : ArgsHandleContext :=
  ⟨params.map (·.toParamData)⟩

def appendPost (params : List CachedParam) (param : List UInt8) (paramHandle : Option UInt64) :
    List CachedParam :=
  match paramHandle with
  | none => params
  | some paramHandle =>
    if param.length > maxSingleParamSize then params
    else params ++ [⟨⟨paramHandle, param, .normal⟩, 0⟩]

def appendPlaceHolderPost (params : List CachedParam) (paramHandle : Option UInt64) :
    List CachedParam :=
  match paramHandle with
  | none => params
  | some paramHandle => params ++ [⟨⟨paramHandle, [], .placeholder⟩, 0⟩]

/-- The loops of the hooks: the first parameter with the handle is changed. -/
def changeFirst (paramHandle : UInt64) (f : CachedParam → CachedParam) :
    List CachedParam → List CachedParam
  | [] => []
  | p :: ps => if p.paramHandle = paramHandle then f p :: ps else p :: changeFirst paramHandle f ps

/-- `std::vector::resize`. -/
def resize (bytes : List UInt8) (size : ℕ) : List UInt8 :=
  bytes.take size ++ List.replicate (size - bytes.length) 0

def getPlaceHolderBufferPost (params : List CachedParam) (paramHandle : UInt64) (dataSize : ℕ)
    (buffer : UInt64) : List CachedParam :=
  if paramHandle = 0 then params
  else if dataSize > maxAllParamSize then params
  else
    changeFirst paramHandle
      (fun p => { p with srcBuffer := buffer, param := resize p.param dataSize }) params

def paramUpdatePost (params : List CachedParam) (paramHandle : UInt64) (param : List UInt8) :
    List CachedParam :=
  if paramHandle = 0 then params
  else if param.length > maxSingleParamSize then params
  else changeFirst paramHandle (fun p => { p with param := param }) params

/-- The bytes behind an address. -/
def readMemory (memory : UInt64 → UInt8) (addr : UInt64) (size : ℕ) : List UInt8 :=
  (List.range size).map fun i => memory (addr + UInt64.ofNat i)

def finalizePost (memory : UInt64 → UInt8) (params : List CachedParam) : List CachedParam :=
  params.map fun p =>
    if p.type = .placeholder then
      { p with param := readMemory memory p.srcBuffer p.param.length }
    else p

/-! ## The handle of the runtime -/

/-- A parameter as the runtime keeps it: the bytes of a normal one, the buffer of a
placeholder. -/
structure AclParam where
  paramHandle : UInt64
  type : ParamType
  bytes : List UInt8
  buffer : UInt64
  size : ℕ
  deriving DecidableEq, Repr

def AclParam.current (memory : UInt64 → UInt8) (a : AclParam) : HandleParam :=
  ⟨a.type, match a.type with
    | .normal => a.bytes
    | .placeholder => readMemory memory a.buffer a.size⟩

def changeParam (paramHandle : UInt64) (f : AclParam → AclParam) (handle : List AclParam) :
    List AclParam :=
  handle.map fun a => if a.paramHandle = paramHandle then f a else a

/-- A successful call on the handle. Where the application passes no out-pointer the
runtime numbers the parameter all the same. -/
inductive ArgsCall where
  | append (param : List UInt8) (paramHandle : UInt64) (hasOut : Bool)
  | appendPlaceHolder (paramHandle : UInt64) (hasOut : Bool)
  | getPlaceHolderBuffer (paramHandle : UInt64) (dataSize : ℕ) (buffer : UInt64)
  | paraUpdate (paramHandle : UInt64) (param : List UInt8)
  | finalize
  | write (addr : UInt64) (byte : UInt8)
  deriving DecidableEq, Repr

/-- `settled` says that no buffer was handed out or written since `Finalize`. -/
structure ArgsRun where
  memory : UInt64 → UInt8
  handle : List AclParam
  params : List CachedParam
  settled : Bool

def startRun (memory : UInt64 → UInt8) : ArgsRun := ⟨memory, [], [], true⟩

def outPointer (paramHandle : UInt64) (hasOut : Bool) : Option UInt64 :=
  if hasOut then some paramHandle else none

def stepCall (s : ArgsRun) : ArgsCall → ArgsRun
  | .append param paramHandle hasOut =>
    { s with
      handle := s.handle ++ [⟨paramHandle, .normal, param, 0, 0⟩]
      params := appendPost s.params param (outPointer paramHandle hasOut) }
  | .appendPlaceHolder paramHandle hasOut =>
    { s with
      handle := s.handle ++ [⟨paramHandle, .placeholder, [], 0, 0⟩]
      params := appendPlaceHolderPost s.params (outPointer paramHandle hasOut) }
  | .getPlaceHolderBuffer paramHandle dataSize buffer =>
    { s with
      handle := changeParam paramHandle (fun a => { a with buffer := buffer, size := dataSize })
        s.handle
      params := getPlaceHolderBufferPost s.params paramHandle dataSize buffer
      settled := false }
  | .paraUpdate paramHandle param =>
    { s with
      handle := changeParam paramHandle (fun a => { a with bytes := param }) s.handle
      params := paramUpdatePost s.params paramHandle param }
  | .finalize => { s with params := finalizePost s.memory s.params, settled := true }
  | .write addr byte =>
    { s with memory := Function.update s.memory addr byte, settled := false }

/-- What the runtime promises of a call that succeeds: handles are distinct and not
null, a buffer belongs to a placeholder and an update to a normal parameter. -/
def Succeeds (s : ArgsRun) : ArgsCall → Prop
  | .append _ paramHandle _ => paramHandle ≠ 0 ∧ ∀ a ∈ s.handle, a.paramHandle ≠ paramHandle
  | .appendPlaceHolder paramHandle _ =>
    paramHandle ≠ 0 ∧ ∀ a ∈ s.handle, a.paramHandle ≠ paramHandle
  | .getPlaceHolderBuffer paramHandle _ _ =>
    ∃ a ∈ s.handle, a.paramHandle = paramHandle ∧ a.type = .placeholder
  | .paraUpdate paramHandle _ => ∃ a ∈ s.handle, a.paramHandle = paramHandle ∧ a.type = .normal
  | .finalize => True
  | .write _ _ => True

/-- The hook caches the call. -/
def Recorded : ArgsCall → Prop
  | .append param _ hasOut => param.length ≤ maxSingleParamSize ∧ hasOut = true
  | .appendPlaceHolder _ hasOut => hasOut = true
  | .getPlaceHolderBuffer _ dataSize _ => dataSize ≤ maxAllParamSize
  | .paraUpdate _ param => param.length ≤ maxSingleParamSize
  | .finalize => True
  | .write _ _ => True

/-- When the runtime takes every call, the replay makes the parameters of the handle. -/
def ReplaysHandle (s : ArgsRun) : Prop :=
  ∀ acl : AclKernelArgs, (∀ i, acl.append i = true) → (∀ i, acl.getPlaceHolderBuffer i = true) →
    (context s.params).replayArgs acl = some (s.handle.map (·.current s.memory))

/-! ## The hooks and the context they fill -/

theorem context_appendPost (params : List CachedParam) (param : List UInt8) (paramHandle : UInt64) :
    context (appendPost params param (some paramHandle)) =
      (context params).cacheArgsAppendOp param paramHandle := by
  unfold appendPost cacheArgsAppendOp
  dsimp only
  split
  · rfl
  · simp [context]

theorem context_changeFirst (paramHandle : UInt64) (param : List UInt8)
    (params : List CachedParam) :
    context (changeFirst paramHandle (fun p => { p with param := param }) params) =
      (context params).cacheArgsParaUpdateOp paramHandle param := by
  unfold context cacheArgsParaUpdateOp
  congr 1
  induction params with
  | nil => rfl
  | cons p ps ih =>
    rw [changeFirst, List.map_cons, updateParams]
    by_cases hp : p.paramHandle = paramHandle
    · rw [if_pos hp, if_pos hp]
      rfl
    · rw [if_neg hp, if_neg hp, List.map_cons, ih]

theorem context_paramUpdatePost (params : List CachedParam) (paramHandle : UInt64)
    (param : List UInt8) :
    context (paramUpdatePost params paramHandle param) =
      paraUpdatePost (context params) ⟨paramHandle, param, true⟩ := by
  unfold paramUpdatePost paraUpdatePost
  by_cases hzero : paramHandle = 0
  · simp [hzero]
  · by_cases hsize : param.length > maxSingleParamSize
    · simp [hsize]
    · simp [hzero, hsize, context_changeFirst]

/-! ## What the cache mirrors -/

@[simp] theorem length_readMemory (memory : UInt64 → UInt8) (addr : UInt64) (size : ℕ) :
    (readMemory memory addr size).length = size := by
  simp [readMemory]

@[simp] theorem length_resize (bytes : List UInt8) (size : ℕ) :
    (resize bytes size).length = size := by
  simp only [resize, List.length_append, List.length_take, List.length_replicate]
  omega

/-- A cached parameter and the one it stands for. The bytes of a placeholder agree
while the run is settled. -/
structure Mirrors (settled : Bool) (memory : UInt64 → UInt8) (a : AclParam) (p : CachedParam) :
    Prop where
  handle : p.paramHandle = a.paramHandle
  type : p.type = a.type
  bytes : a.type = .normal → p.param = a.bytes
  buffer : a.type = .placeholder → p.srcBuffer = a.buffer ∧ p.param.length = a.size
  content : settled = true → a.type = .placeholder →
    p.param = readMemory memory a.buffer a.size

structure RunInv (s : ArgsRun) : Prop where
  mirrors : List.Forall₂ (Mirrors s.settled s.memory) s.handle s.params
  nonzero : ∀ a ∈ s.handle, a.paramHandle ≠ 0
  distinct : (s.handle.map (·.paramHandle)).Nodup

theorem changeParam_of_forall_ne {paramHandle : UInt64} (f : AclParam → AclParam)
    {handle : List AclParam} (h : ∀ a ∈ handle, a.paramHandle ≠ paramHandle) :
    changeParam paramHandle f handle = handle := by
  have hid : ∀ a ∈ handle, (if a.paramHandle = paramHandle then f a else a) = id a :=
    fun a ha => if_neg (h a ha)
  rw [changeParam, List.map_congr_left hid, List.map_id]

theorem forall₂_of_forall_mem {α β : Type} {R S : α → β → Prop} {l : List α} {m : List β}
    (h : List.Forall₂ R l m) (hRS : ∀ a ∈ l, ∀ b, R a b → S a b) : List.Forall₂ S l m := by
  induction h with
  | nil => exact .nil
  | cons hab _ ih =>
    exact .cons (hRS _ List.mem_cons_self _ hab)
      (ih fun a ha => hRS a (List.mem_cons_of_mem _ ha))

/-- The loops change the one parameter that the runtime changes. -/
theorem forall₂_changeFirst {R S : AclParam → CachedParam → Prop} {paramHandle : UInt64}
    {f : AclParam → AclParam} {g : CachedParam → CachedParam} {handle : List AclParam}
    {params : List CachedParam} (h : List.Forall₂ R handle params)
    (hid : ∀ a p, R a p → p.paramHandle = a.paramHandle)
    (hnodup : (handle.map (·.paramHandle)).Nodup)
    (hchange : ∀ a ∈ handle, a.paramHandle = paramHandle → ∀ p, R a p → S (f a) (g p))
    (hkeep : ∀ a p, a.paramHandle ≠ paramHandle → R a p → S a p) :
    List.Forall₂ S (changeParam paramHandle f handle) (changeFirst paramHandle g params) := by
  induction h with
  | nil => exact .nil
  | @cons a p handle params hap hrest ih =>
    rw [List.map_cons, List.nodup_cons] at hnodup
    have hp := hid a p hap
    rw [changeFirst, changeParam, List.map_cons]
    by_cases ha : a.paramHandle = paramHandle
    · rw [if_pos ha, if_pos (hp.trans ha)]
      refine .cons (hchange a List.mem_cons_self ha p hap) ?_
      -- no later parameter has the handle
      have hother : ∀ b ∈ handle, b.paramHandle ≠ paramHandle := by
        intro b hb hbh
        apply hnodup.1
        rw [ha, ← hbh]
        exact List.mem_map_of_mem hb
      change List.Forall₂ S (changeParam paramHandle f handle) params
      rw [changeParam_of_forall_ne f hother]
      exact forall₂_of_forall_mem hrest fun b hb q hbq => hkeep b q (hother b hb) hbq
    · rw [if_neg ha, if_neg (fun hpa => ha (hp.symm.trans hpa))]
      exact .cons (hkeep a p ha hap)
        (ih hnodup.2 fun b hb => hchange b (List.mem_cons_of_mem _ hb))

theorem map_handle_changeParam (paramHandle : UInt64) {f : AclParam → AclParam}
    (hf : ∀ a, (f a).paramHandle = a.paramHandle) (handle : List AclParam) :
    (changeParam paramHandle f handle).map (·.paramHandle) = handle.map (·.paramHandle) := by
  rw [changeParam, List.map_map]
  apply List.map_congr_left
  intro a _
  dsimp only [Function.comp_apply]
  split
  · exact hf a
  · rfl

theorem nonzero_changeParam {paramHandle : UInt64} {f : AclParam → AclParam}
    (hf : ∀ a, (f a).paramHandle = a.paramHandle) {handle : List AclParam}
    (h : ∀ a ∈ handle, a.paramHandle ≠ 0) :
    ∀ a ∈ changeParam paramHandle f handle, a.paramHandle ≠ 0 := by
  intro a ha
  have hmem : a.paramHandle ∈ (changeParam paramHandle f handle).map (·.paramHandle) :=
    List.mem_map_of_mem ha
  rw [map_handle_changeParam paramHandle hf] at hmem
  obtain ⟨b, hb, hba⟩ := List.mem_map.mp hmem
  rw [← hba]
  exact h b hb

/-- A parameter that is appended to both sides. -/
theorem RunInv.append {s : ArgsRun} (inv : RunInv s) {a : AclParam} {p : CachedParam}
    (hap : Mirrors s.settled s.memory a p) (hzero : a.paramHandle ≠ 0)
    (hfresh : ∀ b ∈ s.handle, b.paramHandle ≠ a.paramHandle) :
    RunInv { s with handle := s.handle ++ [a], params := s.params ++ [p] } := by
  constructor
  case mirrors => exact List.rel_append inv.mirrors (.cons hap .nil)
  case nonzero =>
    intro b hb
    cases List.mem_append.mp hb with
    | inl hb => exact inv.nonzero b hb
    | inr hb => rwa [List.mem_singleton.mp hb]
  case distinct =>
    rw [List.map_append, List.nodup_append]
    refine ⟨inv.distinct, by simp, ?_⟩
    intro x hx y hy
    obtain ⟨b, hb, rfl⟩ := List.mem_map.mp hx
    rw [List.map_singleton, List.mem_singleton] at hy
    rw [hy]
    exact hfresh b hb

theorem runInv_start (memory : UInt64 → UInt8) : RunInv (startRun memory) :=
  ⟨.nil, fun _ h => (List.not_mem_nil h).elim, List.nodup_nil⟩

theorem RunInv.changeParam {s : ArgsRun} (inv : RunInv s) {paramHandle : UInt64}
    {f : AclParam → AclParam} {g : CachedParam → CachedParam} {settled : Bool}
    (hf : ∀ a, (f a).paramHandle = a.paramHandle)
    (hchange : ∀ a ∈ s.handle, a.paramHandle = paramHandle →
      ∀ p, Mirrors s.settled s.memory a p → Mirrors settled s.memory (f a) (g p))
    (hsettled : settled = true → s.settled = true) :
    RunInv ⟨s.memory, changeParam paramHandle f s.handle, changeFirst paramHandle g s.params,
      settled⟩ := by
  constructor
  case mirrors =>
    apply forall₂_changeFirst inv.mirrors (fun _ _ h => h.handle) inv.distinct hchange
    intro a p _ hap
    exact ⟨hap.handle, hap.type, hap.bytes, hap.buffer, fun h => hap.content (hsettled h)⟩
  case nonzero => exact nonzero_changeParam hf inv.nonzero
  case distinct =>
    dsimp only
    rw [map_handle_changeParam paramHandle hf]
    exact inv.distinct

/-- Two parameters of the handle with one param handle are the same. -/
theorem RunInv.eq_of_handle {s : ArgsRun} (inv : RunInv s) {a b : AclParam} (ha : a ∈ s.handle)
    (hb : b ∈ s.handle) (h : a.paramHandle = b.paramHandle) : a = b :=
  List.inj_on_of_nodup_map inv.distinct ha hb h

theorem runInv_step (s : ArgsRun) (c : ArgsCall) (inv : RunInv s)
    (hok : Succeeds s c ∧ Recorded c) : RunInv (stepCall s c) := by
  cases c with
  | append param paramHandle hasOut =>
    obtain ⟨⟨hzero, hfresh⟩, hsize, rfl⟩ := hok
    have hpost : appendPost s.params param (outPointer paramHandle true) =
        s.params ++ [⟨⟨paramHandle, param, .normal⟩, 0⟩] := if_neg (Nat.not_lt.mpr hsize)
    rw [stepCall, hpost]
    exact inv.append ⟨rfl, rfl, fun _ => rfl, nofun, nofun⟩ hzero hfresh
  | appendPlaceHolder paramHandle hasOut =>
    obtain ⟨⟨hzero, hfresh⟩, rfl⟩ := hok
    exact inv.append ⟨rfl, rfl, nofun, fun _ => ⟨rfl, rfl⟩, fun _ _ => rfl⟩ hzero hfresh
  | getPlaceHolderBuffer paramHandle dataSize buffer =>
    obtain ⟨⟨b, hb, hbh, hbt⟩, hsize⟩ := hok
    have hzero : paramHandle ≠ 0 := hbh ▸ inv.nonzero b hb
    have hpost : getPlaceHolderBufferPost s.params paramHandle dataSize buffer =
        changeFirst paramHandle
          (fun p => { p with srcBuffer := buffer, param := resize p.param dataSize }) s.params := by
      rw [getPlaceHolderBufferPost, if_neg hzero, if_neg (Nat.not_lt.mpr hsize)]
    rw [stepCall, hpost]
    apply inv.changeParam
    · exact fun _ => rfl
    · intro a ha hah p hap
      have hab : a = b := inv.eq_of_handle ha hb (hah.trans hbh.symm)
      have hplaceholder : a.type = .placeholder := hab ▸ hbt
      exact ⟨hap.handle, hap.type, fun ht => absurd (ht.symm.trans hplaceholder) nofun,
        fun _ => ⟨rfl, length_resize _ _⟩, nofun⟩
    · nofun
  | paraUpdate paramHandle param =>
    obtain ⟨⟨b, hb, hbh, hbt⟩, hsize⟩ := hok
    have hzero : paramHandle ≠ 0 := hbh ▸ inv.nonzero b hb
    have hpost : paramUpdatePost s.params paramHandle param =
        changeFirst paramHandle (fun p => { p with param := param }) s.params := by
      rw [paramUpdatePost, if_neg hzero, if_neg (Nat.not_lt.mpr hsize)]
    rw [stepCall, hpost]
    apply inv.changeParam
    · exact fun _ => rfl
    · intro a ha hah p hap
      have hab : a = b := inv.eq_of_handle ha hb (hah.trans hbh.symm)
      have hnormal : a.type = .normal := hab ▸ hbt
      exact ⟨hap.handle, hap.type, fun _ => rfl, fun ht => absurd (hnormal.symm.trans ht) nofun,
        fun _ ht => absurd (hnormal.symm.trans ht) nofun⟩
    · exact id
  | finalize =>
    refine ⟨?_, inv.nonzero, inv.distinct⟩
    simp only [stepCall, finalizePost, List.forall₂_map_right_iff]
    apply inv.mirrors.imp
    intro a p hap
    cases ht : a.type with
    | normal =>
      rw [if_neg (by rw [hap.type, ht]; nofun)]
      exact ⟨hap.handle, hap.type, hap.bytes, hap.buffer, fun _ h => absurd (ht.symm.trans h) nofun⟩
    | placeholder =>
      obtain ⟨hbuffer, hsize⟩ := hap.buffer ht
      rw [if_pos (hap.type.trans ht), hbuffer, hsize]
      exact ⟨hap.handle, hap.type, fun h => absurd (ht.symm.trans h) nofun,
        fun _ => ⟨rfl, length_readMemory _ _ _⟩, fun _ _ => rfl⟩
  | write addr byte =>
    refine ⟨?_, inv.nonzero, inv.distinct⟩
    exact inv.mirrors.imp fun a p hap => ⟨hap.handle, hap.type, hap.bytes, hap.buffer, nofun⟩

/-- On a settled run the cached parameters are those of the handle. -/
theorem RunInv.map_toHandleParam {s : ArgsRun} (inv : RunInv s) (hsettled : s.settled = true) :
    (context s.params).params.map toHandleParam = s.handle.map (·.current s.memory) := by
  have hmirrors := inv.mirrors
  generalize s.handle = handle, s.params = params at hmirrors
  induction hmirrors with
  | nil => rfl
  | @cons a p handle params hap _ ih =>
    have hcurrent : toHandleParam p.toParamData = a.current s.memory := by
      rw [toHandleParam, AclParam.current, hap.type]
      cases ht : a.type with
      | normal => rw [hap.bytes ht]
      | placeholder => rw [hap.content hsettled ht]
    rw [context, List.map_cons] at *
    rw [List.map_cons, List.map_cons, hcurrent, ih]

theorem replaysHandle_iff (s : ArgsRun) :
    ReplaysHandle s ↔
      (context s.params).params.map toHandleParam = s.handle.map (·.current s.memory) := by
  constructor
  · intro h
    have hall := h ⟨fun _ => none, none, true, fun _ => true, fun _ => true, true⟩
      (fun _ => rfl) (fun _ => rfl)
    rw [replayArgs_eq, if_pos (by simp)] at hall
    exact Option.some.inj hall
  · intro h acl happend hbuffer
    rw [replayArgs_eq, if_pos (by simp [happend, hbuffer]), h]

/-- A settled run whose calls are all cached is replayed as the runtime has it. -/
theorem replay_of_recorded (memory : UInt64 → UInt8) (calls : List ArgsCall)
    (hcalls : Guarded stepCall (fun s c => Succeeds s c ∧ Recorded c) (startRun memory) calls)
    (hsettled : (calls.foldl stepCall (startRun memory)).settled = true) :
    ReplaysHandle (calls.foldl stepCall (startRun memory)) := by
  have inv := Guarded.invariant runInv_step hcalls (runInv_start memory)
  rw [replaysHandle_iff]
  exact inv.map_toHandleParam hsettled

/-- One parameter of each kind, the normal one updated and the placeholder filled
before `Finalize`. -/
def sampleCalls : List ArgsCall :=
  [.append [1, 2] 1 true, .appendPlaceHolder 2 true, .getPlaceHolderBuffer 2 2 0x100,
    .write 0x101 7, .paraUpdate 1 [3, 4, 5], .finalize]

theorem replay_of_recorded_sample :
    ReplaysHandle (sampleCalls.foldl stepCall (startRun fun _ => 0)) :=
  replay_of_recorded (fun _ => 0) sampleCalls
    (by simp [sampleCalls, Guarded, Succeeds, Recorded, stepCall, startRun, changeParam,
      maxSingleParamSize, maxAllParamSize]) rfl

/-- A parameter beyond the limit is a success for the runtime that the cache skips. -/
theorem not_replaysHandle_append {s : ArgsRun} {param : List UInt8} {paramHandle : UInt64}
    (hsize : param.length > maxSingleParamSize) (h : s.params.length = s.handle.length) :
    ¬ ReplaysHandle (stepCall s (.append param paramHandle true)) := by
  have hpost : appendPost s.params param (outPointer paramHandle true) = s.params := if_pos hsize
  rw [replaysHandle_iff]
  intro heq
  have hlength := congrArg List.length heq
  simp [stepCall, hpost, h, context] at hlength

/-- An update beyond the limit leaves the cached bytes as they were. -/
theorem not_replaysHandle_paraUpdate {memory : UInt64 → UInt8} {old param : List UInt8}
    {paramHandle : UInt64} (hold : old.length ≤ maxSingleParamSize)
    (hsize : param.length > maxSingleParamSize) :
    ¬ ReplaysHandle
      ([ArgsCall.append old paramHandle true, .paraUpdate paramHandle param].foldl stepCall
        (startRun memory)) := by
  have hne : old ≠ param := by
    intro heq
    rw [heq] at hold
    exact absurd hsize (Nat.not_lt.mpr hold)
  rw [replaysHandle_iff]
  simp [stepCall, startRun, appendPost, outPointer, paramUpdatePost, changeParam,
    Nat.not_lt.mpr hold, hsize, context, toHandleParam, AclParam.current, hne]

theorem long_params_not_replayed :
    Guarded stepCall Succeeds (startRun fun _ => 0) [.append (List.replicate 4097 0) 1 true] ∧
      ¬ ReplaysHandle
        ([ArgsCall.append (List.replicate 4097 0) 1 true].foldl stepCall
          (startRun fun _ => 0)) ∧
    Guarded stepCall Succeeds (startRun fun _ => 0)
        [.append [0] 1 true, .paraUpdate 1 (List.replicate 4097 0)] ∧
      ¬ ReplaysHandle
        ([ArgsCall.append [0] 1 true, .paraUpdate 1 (List.replicate 4097 0)].foldl stepCall
          (startRun fun _ => 0)) ∧
    Guarded stepCall Succeeds (startRun fun _ => 0)
        [.appendPlaceHolder 1 true, .getPlaceHolderBuffer 1 1 0x100, .write 0x100 7] ∧
      ¬ ReplaysHandle
        ([ArgsCall.appendPlaceHolder 1 true, .getPlaceHolderBuffer 1 1 0x100,
          .write 0x100 7].foldl stepCall (startRun fun _ => 0)) := by
  have hlong : (List.replicate 4097 (0 : UInt8)).length > maxSingleParamSize := by
    rw [List.length_replicate]
    decide
  refine ⟨?_, not_replaysHandle_append hlong rfl, ?_,
    not_replaysHandle_paraUpdate (by decide) hlong, ?_, ?_⟩
  · simp [Guarded, Succeeds, startRun]
  · simp [Guarded, Succeeds, startRun, stepCall]
  · simp [Guarded, Succeeds, startRun, stepCall]
  · rw [replaysHandle_iff]
    decide

end Msopcom.ArgsHandleCache
