import Mathlib.Data.List.Infix
import Msopcom.Runs

set_option autoImplicit false

/-!
# The replaced kernel

One kernel binary stands in for a registered one, from the launch that matches until the
registered one goes. What the file system, the context of the kernels and the runtime say is
arbitrary in each call.
-/
namespace Msopcom
open Runs

namespace KernelReplacement

/-- An address, with `nullptr` as 0. -/
abbrev Ptr := UInt64

def uint64Max : UInt64 := 0xffffffffffffffff

/-! ## The matcher -/

structure Config where
  launchId : UInt64 := uint64Max
  regId : UInt64 := uint64Max
  kernelName : String := ""
  deriving DecidableEq, Repr

def Config.isMatchAll (config : Config) : Bool :=
  config.launchId = uint64Max && config.kernelName = "" && config.regId = uint64Max

def Config.match (config : Config) (launchId : UInt64) (kernelName : String) : Bool :=
  if config.isMatchAll then true
  else if config.launchId ≠ uint64Max then launchId = config.launchId
  else if config.kernelName ≠ "" then config.kernelName.toList <:+: kernelName.toList
  else false

/-! ## What a call finds around it -/

structure DevBinary where
  magic : UInt32
  version : UInt32
  data : List UInt8
  deriving DecidableEq, Repr

structure LaunchEvent where
  hdl : Ptr
  kernelName : String
  deriving DecidableEq, Repr

/-- The `KernelContext` with the launches of the running device; of a register event its `bin`. -/
structure KernelContext where
  launchEvents : List LaunchEvent := []
  hdlToRegId : List (Ptr × UInt64) := []
  registerEvents : List DevBinary := []
  deriving DecidableEq, Repr

def KernelContext.getLaunchName (c : KernelContext) : String :=
  (c.launchEvents.getLast?.map LaunchEvent.kernelName).getD "invalid_launch_id"

/-- `GetRegisterId` of a handle. -/
def KernelContext.getRegisterIdOfHandle (c : KernelContext) (hdl : Ptr) : UInt64 :=
  (c.hdlToRegId.lookup hdl).getD uint64Max

def KernelContext.getRegisterId (c : KernelContext) (launchId : UInt64) : UInt64 :=
  match c.launchEvents[launchId.toNat]? with
  | some event => c.getRegisterIdOfHandle event.hdl
  | none => uint64Max

def KernelContext.getRegisterEvent (c : KernelContext) (regId : UInt64) : Option DevBinary :=
  c.registerEvents[regId.toNat]?

/-- What a registration answers, and what it leaves in the handle. -/
structure RtResult where
  ok : Bool
  handle : Ptr
  deriving DecidableEq, Repr

structure World where
  context : KernelContext
  /-- The bytes of a file, none of them if it cannot be read. -/
  readBinary : String → List UInt8
  rtDevBinaryRegister : DevBinary → RtResult
  rtRegisterAllKernel : DevBinary → RtResult

/-- What the runtime has been told; a registration goes with the id it stands in for. -/
inductive RtCall
  | registered (regId : UInt64) (handle : Ptr)
  | unregistered (handle : Ptr)
  deriving DecidableEq, Repr

/-! ## The task -/

structure KernelReplaceTask where
  kernelPath : String
  binaryData : List UInt8 := []
  bin : DevBinary := ⟨0, 0, []⟩
  handle : Ptr := 0
  deriving DecidableEq, Repr

/-- `~KernelReplaceTask`. -/
def KernelReplaceTask.destroy (task : KernelReplaceTask) : List RtCall :=
  if task.handle ≠ 0 then [.unregistered task.handle] else []

structure Ran where
  ok : Bool
  handle : Ptr
  task : KernelReplaceTask
  calls : List RtCall

def KernelReplaceTask.run (w : World) (handle : Ptr) (regId : UInt64) (withStubFunc : Bool)
    (task : KernelReplaceTask) : Ran :=
  match w.context.getRegisterEvent regId with
  | none => ⟨false, handle, task, []⟩
  | some event =>
    let binaryData := w.readBinary task.kernelPath
    if binaryData.length = 0 then ⟨false, handle, { task with binaryData }, []⟩
    else
      -- only the data are those of the file
      let bin := { event with data := binaryData }
      let result := if withStubFunc then w.rtDevBinaryRegister bin else w.rtRegisterAllKernel bin
      let task := { task with binaryData, bin, handle := result.handle }
      if result.ok then ⟨true, task.handle, task, [.registered regId task.handle]⟩
      else ⟨false, handle, task, []⟩

end KernelReplacement

/-- The replacement, and what it has told the runtime so far. -/
structure KernelReplacement where
  oldKernelRegId : UInt64 := KernelReplacement.uint64Max
  kernelPath : String := ""
  matcher : Option KernelReplacement.Config := none
  replaceTask : Option KernelReplacement.KernelReplaceTask := none
  calls : List KernelReplacement.RtCall := []

namespace KernelReplacement

def init (kernelPath : String) (config : Config) (s : KernelReplacement) : KernelReplacement :=
  { s with kernelPath, matcher := some config }

/-- `replaceTask_.reset` with nothing or with a new task. -/
def resetTask (task : Option KernelReplaceTask) (s : KernelReplacement) : KernelReplacement :=
  let gone := match s.replaceTask with
    | some old => old.destroy
    | none => []
  { s with replaceTask := task, calls := s.calls ++ gone }

/-- What `CreateHandle` answers, and what it leaves in the handle it is given, if any. -/
structure Answer where
  ok : Bool
  handle : Option Ptr
  state : KernelReplacement

def createHandle (w : World) (handle : Option Ptr) (launchId : UInt64) (s : KernelReplacement) :
    Answer :=
  match handle, s.matcher with
  | some old, some matcher =>
    if s.kernelPath = "" then ⟨false, handle, s⟩
    else if !matcher.match launchId w.context.getLaunchName then ⟨false, handle, s⟩
    else
      let regId := w.context.getRegisterId launchId
      if regId = uint64Max then ⟨false, handle, s⟩
      else if s.oldKernelRegId ≠ uint64Max then
        match s.replaceTask with
        | none => ⟨false, handle, s⟩
        | some task =>
          if s.oldKernelRegId ≠ regId then ⟨false, handle, s⟩ else ⟨true, some task.handle, s⟩
      else
        let ran := KernelReplaceTask.run w old regId false { kernelPath := s.kernelPath }
        let s := s.resetTask (some ran.task)
        let s := { s with calls := s.calls ++ ran.calls }
        if ran.ok then ⟨true, some ran.handle, { s with oldKernelRegId := regId }⟩
        else ⟨true, some ran.handle, s.resetTask none⟩
  | _, _ => ⟨false, handle, s⟩

def releaseHandle (w : World) (handle : Ptr) (s : KernelReplacement) : Bool × KernelReplacement :=
  match s.replaceTask with
  | none => (false, s)
  | some _ =>
    let regId := w.context.getRegisterIdOfHandle handle
    if regId = uint64Max || regId ≠ s.oldKernelRegId then (false, s)
    else (true, { s.resetTask none with oldKernelRegId := uint64Max })

inductive Call
  | init (kernelPath : String) (config : Config)
  | createHandle (w : World) (handle : Option Ptr) (launchId : UInt64)
  | releaseHandle (w : World) (handle : Ptr)

def step (s : KernelReplacement) : Call → KernelReplacement
  | .init kernelPath config => s.init kernelPath config
  | .createHandle w handle launchId => (s.createHandle w handle launchId).state
  | .releaseHandle w handle => (s.releaseHandle w handle).2

/-! ## The protocol -/

/-- The handle was registered for the id, and has not been unregistered since. -/
def Live (calls : List RtCall) (regId : UInt64) (handle : Ptr) : Prop :=
  ∃ before after, calls = before ++ .registered regId handle :: after ∧
    .unregistered handle ∉ after

/-- The handle is that of the task that is kept, which was built for the id. -/
structure BelongsTo (s : KernelReplacement) (regId : UInt64) (handle : Ptr) : Prop where
  remembered : s.oldKernelRegId = regId
  held : ∃ task, s.replaceTask = some task ∧ task.handle = handle
  live : Live s.calls regId handle

/-- A call that succeeds gives out the handle of the task, and one that fails gives out none. -/
def Right (s : KernelReplacement) : Call → Prop
  | .init _ _ => True
  | .createHandle w handle launchId =>
    let answer := s.createHandle w handle launchId
    if answer.ok then
      ∃ given, answer.handle = some given ∧
        BelongsTo answer.state (w.context.getRegisterId launchId) given
    else answer.handle = handle
  | .releaseHandle w handle =>
    let answer := s.releaseHandle w handle
    answer.1 = true → answer.2.replaceTask = none ∧ ∀ task, s.replaceTask = some task →
      task.handle ≠ 0 → ∀ regId, ¬ Live answer.2.calls regId task.handle

/-- The call is one for the kernel to be replaced. -/
def Matches (w : World) (handle : Option Ptr) (launchId : UInt64) (s : KernelReplacement) : Prop :=
  handle ≠ none ∧ s.kernelPath ≠ "" ∧
    (∃ matcher, s.matcher = some matcher ∧
      matcher.match launchId w.context.getLaunchName = true) ∧
    w.context.getRegisterId launchId ≠ uint64Max

/-- The kernel is registered, its replacement can be read, and the runtime takes it. -/
def Replaceable (w : World) (regId : UInt64) (kernelPath : String) : Prop :=
  ∃ event, w.context.getRegisterEvent regId = some event ∧ w.readBinary kernelPath ≠ [] ∧
    (w.rtRegisterAllKernel { event with data := w.readBinary kernelPath }).ok = true

/-- A kernel that is to be replaced while none is, can be. -/
def Checked (s : KernelReplacement) : Call → Prop
  | .createHandle w handle launchId =>
    Matches w handle launchId s → s.oldKernelRegId = uint64Max →
      Replaceable w (w.context.getRegisterId launchId) s.kernelPath
  | _ => True

/-! ## What the runtime is told -/

theorem live_registered (calls : List RtCall) (regId : UInt64) (handle : Ptr) :
    Live (calls ++ [.registered regId handle]) regId handle :=
  ⟨calls, [], rfl, List.not_mem_nil⟩

theorem not_live_unregistered (calls : List RtCall) (regId : UInt64) (handle : Ptr) :
    ¬ Live (calls ++ [.unregistered handle]) regId handle := by
  rintro ⟨before, after, heq, hafter⟩
  cases after using List.reverseRecOn with
  | nil =>
    have hlast := (List.append_inj' heq rfl).2
    cases hlast
  | append_singleton after call _ =>
    have hlast : [RtCall.unregistered handle] = [call] := by
      rw [← List.cons_append, ← List.append_assoc] at heq
      exact (List.append_inj' heq rfl).2
    cases hlast
    exact hafter (List.mem_append_right after (List.mem_singleton_self _))

/-! ## One call -/

variable {w : World} {handle : Option Ptr} {launchId : UInt64} {s : KernelReplacement}

/-- A run that can succeed gives the handle that it has registered. -/
theorem run_replaceable {regId : UInt64} {task : KernelReplaceTask}
    (h : Replaceable w regId task.kernelPath) (old : Ptr) :
    ∃ built, task.run w old regId false =
      ⟨true, built.handle, built, [.registered regId built.handle]⟩ := by
  obtain ⟨event, hevent, hdata, hresult⟩ := h
  have hlength : (w.readBinary task.kernelPath).length ≠ 0 := mt List.length_eq_zero_iff.mp hdata
  unfold KernelReplaceTask.run
  rw [hevent]
  dsimp only
  rw [if_neg hlength, if_neg Bool.false_ne_true, if_pos hresult]
  let bin : DevBinary := { event with data := w.readBinary task.kernelPath }
  exact ⟨{ task with
    binaryData := bin.data
    bin := bin
    handle := (w.rtRegisterAllKernel bin).handle }, rfl⟩

theorem run_not_replaceable {regId : UInt64} {task : KernelReplaceTask}
    (h : ¬ Replaceable w regId task.kernelPath) (old : Ptr) :
    (task.run w old regId false).ok = false := by
  unfold KernelReplaceTask.run
  cases hevent : w.context.getRegisterEvent regId with
  | none => rfl
  | some event =>
    dsimp only
    by_cases hdata : w.readBinary task.kernelPath = []
    · rw [if_pos (List.length_eq_zero_iff.mpr hdata)]
    · have hresult : ¬ (w.rtRegisterAllKernel
          { event with data := w.readBinary task.kernelPath }).ok = true :=
        fun hok => h ⟨event, hevent, hdata, hok⟩
      rw [if_neg (mt List.length_eq_zero_iff.mp hdata), if_neg Bool.false_ne_true,
        if_neg hresult]

theorem createHandle_skips (h : ¬ Matches w handle launchId s) :
    s.createHandle w handle launchId = ⟨false, handle, s⟩ := by
  unfold createHandle
  cases handle with
  | none => rfl
  | some old =>
    cases hmatcher : s.matcher with
    | none => rfl
    | some matcher =>
      dsimp only
      split_ifs with hpath hmatch hregId
      · rfl
      · rfl
      · rfl
      all_goals
        refine absurd ⟨Option.some_ne_none old, hpath, ⟨matcher, hmatcher, ?_⟩, hregId⟩ h
        simpa using hmatch

theorem createHandle_held {task : KernelReplaceTask} (h : Matches w handle launchId s)
    (hold : s.oldKernelRegId ≠ uint64Max) (htask : s.replaceTask = some task) :
    s.createHandle w handle launchId =
      if s.oldKernelRegId = w.context.getRegisterId launchId then ⟨true, some task.handle, s⟩
      else ⟨false, handle, s⟩ := by
  obtain ⟨hhandle, hpath, ⟨matcher, hmatcher, hmatch⟩, hregId⟩ := h
  obtain ⟨old, rfl⟩ := Option.ne_none_iff_exists'.mp hhandle
  unfold createHandle
  rw [hmatcher, htask]
  dsimp only
  rw [if_neg hpath, hmatch, Bool.not_true, if_neg Bool.false_ne_true, if_neg hregId, if_pos hold,
    ite_not]

/-- A task is built when none is held. -/
theorem createHandle_builds {old : Ptr} (h : Matches w (some old) launchId s)
    (hold : s.oldKernelRegId = uint64Max) (htask : s.replaceTask = none)
    (hreplaceable : Replaceable w (w.context.getRegisterId launchId) s.kernelPath) :
    ∃ task : KernelReplaceTask, s.createHandle w (some old) launchId =
      ⟨true, some task.handle, { s with
        oldKernelRegId := w.context.getRegisterId launchId
        replaceTask := some task
        calls := s.calls ++ [.registered (w.context.getRegisterId launchId) task.handle] }⟩ := by
  obtain ⟨_, hpath, ⟨matcher, hmatcher, hmatch⟩, hregId⟩ := h
  have hrun := @run_replaceable w _ { kernelPath := s.kernelPath } hreplaceable old
  obtain ⟨task, htaskRun⟩ := hrun
  refine ⟨task, ?_⟩
  unfold createHandle resetTask
  rw [hmatcher, htask]
  dsimp only
  rw [if_neg hpath, hmatch, Bool.not_true, if_neg Bool.false_ne_true, if_neg hregId,
    if_neg (not_not.mpr hold), htaskRun, List.append_nil, if_pos rfl]

/-- A task that cannot be built is gone, but the call succeeds. -/
theorem createHandle_fails {old : Ptr} (h : Matches w (some old) launchId s)
    (hold : s.oldKernelRegId = uint64Max)
    (hreplaceable : ¬ Replaceable w (w.context.getRegisterId launchId) s.kernelPath) :
    (s.createHandle w (some old) launchId).ok = true ∧
      (s.createHandle w (some old) launchId).state.replaceTask = none ∧
      (s.createHandle w (some old) launchId).state.oldKernelRegId = uint64Max := by
  obtain ⟨_, hpath, ⟨matcher, hmatcher, hmatch⟩, hregId⟩ := h
  have hrun : ¬ (KernelReplaceTask.run w old (w.context.getRegisterId launchId) false
      { kernelPath := s.kernelPath }).ok = true := by
    rw [run_not_replaceable hreplaceable, Bool.not_eq_true]
  unfold createHandle
  rw [hmatcher]
  dsimp only
  rw [if_neg hpath, hmatch, Bool.not_true, if_neg Bool.false_ne_true, if_neg hregId,
    if_neg (not_not.mpr hold), if_neg hrun]
  exact ⟨rfl, rfl, hold⟩

/-- A task is kept as long as an id is remembered, and its handle is live. -/
structure Inv (s : KernelReplacement) : Prop where
  none_iff : s.replaceTask = none ↔ s.oldKernelRegId = uint64Max
  live : ∀ task, s.replaceTask = some task → Live s.calls s.oldKernelRegId task.handle

/-- With the invariant, a call is skipped, uses the task that is held, or builds one. -/
theorem createHandle_cases (h : Inv s) (w : World) (handle : Option Ptr) (launchId : UInt64) :
    (¬ Matches w handle launchId s ∧ s.createHandle w handle launchId = ⟨false, handle, s⟩) ∨
    (∃ task, (s.replaceTask = some task ∧ s.oldKernelRegId ≠ uint64Max) ∧
      s.createHandle w handle launchId =
        if s.oldKernelRegId = w.context.getRegisterId launchId then ⟨true, some task.handle, s⟩
        else ⟨false, handle, s⟩) ∨
    (∃ task : KernelReplaceTask, (w.context.getRegisterId launchId ≠ uint64Max ∧
        Replaceable w (w.context.getRegisterId launchId) s.kernelPath) ∧
      s.createHandle w handle launchId =
        ⟨true, some task.handle, { s with
          oldKernelRegId := w.context.getRegisterId launchId
          replaceTask := some task
          calls := s.calls ++ [.registered (w.context.getRegisterId launchId) task.handle] }⟩) ∨
    ((Matches w handle launchId s ∧ s.oldKernelRegId = uint64Max ∧
        ¬ Replaceable w (w.context.getRegisterId launchId) s.kernelPath) ∧
      (s.createHandle w handle launchId).ok = true ∧
      (s.createHandle w handle launchId).state.replaceTask = none ∧
      (s.createHandle w handle launchId).state.oldKernelRegId = uint64Max) := by
  by_cases hmatches : Matches w handle launchId s
  · obtain ⟨old, rfl⟩ := Option.ne_none_iff_exists'.mp hmatches.1
    cases htask : s.replaceTask with
    | none =>
      have hold : s.oldKernelRegId = uint64Max := h.none_iff.mp htask
      by_cases hreplaceable : Replaceable w (w.context.getRegisterId launchId) s.kernelPath
      · obtain ⟨task, hbuilt⟩ := createHandle_builds hmatches hold htask hreplaceable
        exact Or.inr (Or.inr (Or.inl ⟨task, ⟨hmatches.2.2.2, hreplaceable⟩, hbuilt⟩))
      · have hfails := createHandle_fails hmatches hold hreplaceable
        exact Or.inr (Or.inr (Or.inr ⟨⟨hmatches, hold, hreplaceable⟩, hfails⟩))
    | some task =>
      have hold : s.oldKernelRegId ≠ uint64Max := by
        rw [Ne, ← h.none_iff, htask]
        exact Option.some_ne_none task
      exact Or.inr (Or.inl ⟨task, ⟨rfl, hold⟩, createHandle_held hmatches hold htask⟩)
  · exact Or.inl ⟨hmatches, createHandle_skips hmatches⟩

theorem releaseHandle_spec (w : World) (handle : Ptr) (s : KernelReplacement) :
    s.releaseHandle w handle = (false, s) ∨
      s.releaseHandle w handle =
        (true, { s.resetTask none with oldKernelRegId := uint64Max }) := by
  unfold releaseHandle
  cases s.replaceTask with
  | none => exact Or.inl rfl
  | some task =>
    dsimp only
    split_ifs with hregId
    · exact Or.inl rfl
    · exact Or.inr rfl

/-! ## The invariant -/

theorem inv_empty (htask : s.replaceTask = none) (hold : s.oldKernelRegId = uint64Max) : Inv s where
  none_iff := iff_of_true htask hold
  live := fun _ h => by
    rw [htask] at h
    cases h

theorem inv_built (s : KernelReplacement) {regId : UInt64} (task : KernelReplaceTask)
    (h : regId ≠ uint64Max) :
    Inv { s with
      oldKernelRegId := regId
      replaceTask := some task
      calls := s.calls ++ [.registered regId task.handle] } where
  none_iff := iff_of_false (Option.some_ne_none task) h
  live := by
    rintro _ ⟨rfl⟩
    exact live_registered _ _ _

theorem inv_createHandle (h : Inv s) : Inv (s.createHandle w handle launchId).state := by
  obtain ⟨_, hcall⟩ | ⟨task, _, hcall⟩ | ⟨task, hbuilt, hcall⟩ | ⟨_, _, hnone, hmax⟩ :=
    createHandle_cases h w handle launchId
  · rw [hcall]
    exact h
  · rw [hcall]
    split_ifs
    · exact h
    · exact h
  · rw [hcall]
    exact inv_built s task hbuilt.1
  · exact inv_empty hnone hmax

theorem inv_step (call : Call) (h : Inv s) : Inv (step s call) := by
  cases call with
  | init kernelPath config => exact ⟨h.none_iff, h.live⟩
  | createHandle w handle launchId => exact inv_createHandle h
  | releaseHandle w handle =>
    unfold step
    dsimp only
    obtain hkept | hreleased := releaseHandle_spec w handle s
    · rw [hkept]
      exact h
    · rw [hreleased]
      exact inv_empty rfl rfl

/-! ## The protocol over runs -/

theorem right_createHandle_iff (h : Inv s) :
    Right s (.createHandle w handle launchId) ↔ Checked s (.createHandle w handle launchId) := by
  unfold Right Checked
  dsimp only
  obtain ⟨hskipped, hcall⟩ | ⟨task, ⟨htask, hold⟩, hcall⟩ | ⟨task, ⟨_, hreplaceable⟩, hcall⟩ |
    ⟨⟨hmatches, hold, hreplaceable⟩, hok, _, hmax⟩ := createHandle_cases h w handle launchId
  · refine iff_of_true ?_ fun hmatches => absurd hmatches hskipped
    rw [hcall, if_neg Bool.false_ne_true]
  · refine iff_of_true ?_ fun _ hmax => absurd hmax hold
    rw [hcall]
    by_cases hregId : s.oldKernelRegId = w.context.getRegisterId launchId
    · rw [if_pos hregId, if_pos rfl]
      exact ⟨task.handle, rfl, hregId, ⟨task, htask, rfl⟩, hregId ▸ h.live task htask⟩
    · rw [if_neg hregId, if_neg Bool.false_ne_true]
  · refine iff_of_true ?_ fun _ _ => hreplaceable
    rw [hcall, if_pos rfl]
    exact ⟨task.handle, rfl, rfl, ⟨task, rfl, rfl⟩, live_registered _ _ _⟩
  · refine iff_of_false ?_ fun hchecked => hreplaceable (hchecked hmatches hold)
    rw [if_pos hok]
    rintro ⟨given, _, hbelongs⟩
    exact hmatches.2.2.2 (hbelongs.remembered.symm.trans hmax)

/-- A task that is released has its handle unregistered. -/
theorem right_releaseHandle (w : World) (handle : Ptr) (s : KernelReplacement) :
    Right s (.releaseHandle w handle) := by
  unfold Right
  dsimp only
  obtain hkept | hreleased := releaseHandle_spec w handle s
  · rw [hkept]
    intro hok
    cases hok
  · rw [hreleased]
    refine fun _ => ⟨rfl, fun task htask hhandle regId => ?_⟩
    unfold resetTask KernelReplaceTask.destroy
    rw [htask]
    dsimp only
    rw [if_pos hhandle]
    exact not_live_unregistered _ _ _

theorem right_iff (call : Call) (h : Inv s) : Right s call ↔ Checked s call := by
  cases call with
  | init kernelPath config => exact Iff.rfl
  | createHandle w handle launchId => exact right_createHandle_iff h
  | releaseHandle w handle => exact iff_of_true (right_releaseHandle w handle s) trivial

theorem handles_right_iff (calls : List Call) :
    Guarded step Right {} calls ↔ Guarded step Checked {} calls :=
  @guarded_congr _ _ step Right Checked Inv (fun _ => True) (fun _ call hs _ => right_iff call hs)
    (fun _ call hs _ => inv_step call hs) {} calls (inv_empty rfl rfl) fun _ _ => trivial

/-- Handle 7 was unregistered, and a task that cannot read its file leaves it to the caller. -/
theorem handles_stale :
    let w : World :=
      { context := ⟨[⟨3, "k"⟩], [(3, 0)], [⟨1, 0, [1]⟩]⟩
        readBinary := fun _ => [2]
        rtDevBinaryRegister := fun _ => ⟨true, 7⟩
        rtRegisterAllKernel := fun _ => ⟨true, 7⟩ }
    ¬ Guarded step Right {} [.init "kernel.o" {}, .createHandle w (some 0) 0, .releaseHandle w 3,
      .createHandle { w with readBinary := fun _ => [] } (some 7) 0] := by
  intro w hright
  obtain ⟨given, _, hbelongs⟩ := hright.2.2.2.1
  obtain ⟨task, htask, _⟩ := hbelongs.held
  cases htask

end KernelReplacement
end Msopcom
