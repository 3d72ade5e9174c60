import Mathlib.Data.List.AList
import Mathlib.Data.List.Forall2
import Mathlib.Tactic.SplitIfs
import Msopcom.KernelMetaDataParser
import Msopcom.Runs

set_option autoImplicit false

/-!
# The histories of the launches of a device

A launch is noted in one history and its memory information in another, which are read with
the same index. The launches of a device are numbered, and both entries and the memory
information itself say which launch they are of.
-/
namespace Msopcom.LaunchHistory
open Runs

structure LaunchEvent where
  launch : ℕ
  launchWithHandle : Bool := false
  stubFunc : UInt64 := 0
  hdl : UInt64
  tilingKey : UInt64 := 0
  blockDim : UInt32
  argsInfo : Option RtArgsEx := none

/-- `owner` is the launch that the information was read for, if it is of any. -/
structure LaunchMemInfo extends MetaMemInfo where
  isForSetException : Bool := false
  owner : Option ℕ := none

structure ArchivedMemInfo where
  launch : ℕ
  memInfo : LaunchMemInfo

/-- The registered binaries have the magic number that tells mixed kernels. -/
structure DeviceContext where
  binaries : AList fun _ : UInt64 => UInt32 := ∅
  stubInfo : AList fun _ : UInt64 => UInt64 := ∅
  memInfo : LaunchMemInfo := {}
  memInfoHistory : List ArchivedMemInfo := []
  launchEvents : List LaunchEvent := []
  launches : ℕ := 0

inductive Hook
  | kernelLaunch (stubFunc : UInt64)
  | kernelLaunchWithFlagV2 (stubFunc : UInt64) (argsInfo : Option RtArgsEx)
  | kernelLaunchWithHandleV2 (hdl tilingKey : UInt64) (argsInfo : Option RtArgsEx)

/-- `metaInfo` is what the binary that is looked up says about the kernel, and `unfilledHdl` what
stands in an event that nobody fills. -/
structure Launch where
  hook : Hook
  blockDim : UInt32 := 1
  needMemLengthInfo : Bool := true
  metaInfo : Option MetaMemInfo := none
  unfilledHdl : UInt64 := 0
  hasOriginfunc : Bool := true

/-- `setArgsSize` is told the lengths of the next launch. -/
inductive Op
  | addHdlRegisterEvent (hdl : UInt64) (magic : UInt32)
  | addFuncRegisterEvent (binHdl stubFunc : UInt64)
  | setArgsSize (memInfo : MetaMemInfo)
  | launch (l : Launch)

variable (needAddFftsAddr : Bool) (l : Launch) (d : DeviceContext)

def addFuncRegisterEvent (binHdl stubFunc : UInt64) : DeviceContext :=
  if stubFunc ∈ d.stubInfo then d else { d with stubInfo := d.stubInfo.insert stubFunc binHdl }

/-- The information is read anew, only the overflow address stays. -/
def LaunchMemInfo.refill (old : LaunchMemInfo) (memInfo : MetaMemInfo) (isForSetException : Bool)
    (owner : Option ℕ) : LaunchMemInfo :=
  { memInfo with
    hasOverflowAddr := old.hasOverflowAddr
    overflowAddr := old.overflowAddr
    isForSetException := isForSetException
    owner := owner }

def LaunchMemInfo.cleared (old : LaunchMemInfo) : LaunchMemInfo :=
  { old.toMetaMemInfo.clear with }

def setArgsSize (memInfo : MetaMemInfo) : DeviceContext :=
  { d with memInfo := d.memInfo.refill memInfo true (some d.launches) }

/-- The event of a launch, unless its stub function is unknown. -/
def Launch.event : Option LaunchEvent :=
  match l.hook with
  | .kernelLaunch stubFunc => (d.stubInfo.lookup stubFunc).map fun hdl =>
      { launch := d.launches, stubFunc := stubFunc, hdl := hdl, blockDim := l.blockDim }
  | .kernelLaunchWithFlagV2 stubFunc argsInfo => (d.stubInfo.lookup stubFunc).map fun hdl =>
      { launch := d.launches, stubFunc := stubFunc, hdl := hdl, blockDim := l.blockDim,
        argsInfo := argsInfo }
  | .kernelLaunchWithHandleV2 hdl tilingKey argsInfo =>
    some { launch := d.launches, launchWithHandle := true, hdl := hdl, tilingKey := tilingKey,
           blockDim := l.blockDim, argsInfo := argsInfo }

def addLaunchEvent : DeviceContext :=
  match l.event d with
  | none => d
  | some event => { d with launchEvents := d.launchEvents ++ [event] }

/-- Lengths that were told are not looked for in the binary. -/
def parseMetaDataFromBinary (magic : UInt32) (owner : ℕ) : DeviceContext :=
  if d.memInfo.isForSetException then
    { d with memInfo := { setFftsInfo needAddFftsAddr d.memInfo.toMetaMemInfo magic with
                          owner := d.memInfo.owner } }
  else
    match l.metaInfo with
    | none => { d with memInfo := d.memInfo.cleared }
    | some metaInfo => { d with memInfo := d.memInfo.refill metaInfo false (some owner) }

def archiveMemInfo : DeviceContext :=
  { d with memInfoHistory := d.memInfoHistory ++ [⟨d.launches, d.memInfo⟩] }

/-- The binary that is looked up is that of the last event. -/
def initParam : DeviceContext :=
  let d := addLaunchEvent l d
  let event := d.launchEvents.getLastD
    { launch := d.launches, hdl := l.unfilledHdl, blockDim := l.blockDim }
  match d.binaries.lookup event.hdl with
  | none => archiveMemInfo d
  | some magic =>
    if l.needMemLengthInfo then
      archiveMemInfo (parseMetaDataFromBinary needAddFftsAddr l d magic event.launch)
    else archiveMemInfo d

def Hook.initialises : Hook → Bool
  | .kernelLaunchWithFlagV2 _ argsInfo => argsInfo.isSome
  | _ => true

def Hook.clears : Hook → Bool
  | .kernelLaunch _ => true
  | .kernelLaunchWithFlagV2 _ argsInfo => argsInfo.isSome
  | .kernelLaunchWithHandleV2 _ _ argsInfo => argsInfo.isSome

def post : DeviceContext :=
  if l.hook.clears && l.hasOriginfunc then { d with memInfo := d.memInfo.cleared } else d

def call : DeviceContext :=
  let d := if l.hook.initialises then initParam needAddFftsAddr l d else d
  { post l d with launches := d.launches + 1 }

def step : Op → DeviceContext
  | .addHdlRegisterEvent hdl magic => { d with binaries := d.binaries.insert hdl magic }
  | .addFuncRegisterEvent binHdl stubFunc => addFuncRegisterEvent d binHdl stubFunc
  | .setArgsSize memInfo => setArgsSize d memInfo
  | .launch l => call needAddFftsAddr l d

/-- What `DumpKernelArgs` takes the arguments of a launch and their lengths from. -/
def dumpKernelArgs (launchId : ℕ) : Option (LaunchEvent × LaunchMemInfo) :=
  match d.launchEvents[launchId]?, d.memInfoHistory[launchId]? with
  | some event, some archived => some (event, archived.memInfo)
  | _, _ => none

/-! ## Alignment -/

/-- Archived by the same launch, with no other launch's lengths. -/
structure Belongs (event : LaunchEvent) (archived : ArchivedMemInfo) : Prop where
  launch : archived.launch = event.launch
  owner : ∀ k ∈ archived.memInfo.owner, k = event.launch

/-- The histories are equally long and go together entry by entry. -/
def Aligned : Prop := List.Forall₂ Belongs d.launchEvents d.memInfoHistory

/-- The binary that the launch names, through its stub function or by itself. -/
def Hook.binHdl : Hook → Option UInt64
  | .kernelLaunch stubFunc => d.stubInfo.lookup stubFunc
  | .kernelLaunchWithFlagV2 stubFunc _ => d.stubInfo.lookup stubFunc
  | .kernelLaunchWithHandleV2 hdl _ _ => some hdl

/-- The launch reads the lengths from its own binary. -/
def Launch.Reads : Prop :=
  l.needMemLengthInfo ∧ ¬ d.memInfo.isForSetException ∧
    ∃ hdl ∈ l.hook.binHdl d, hdl ∈ d.binaries

/-- The stub function is registered, and nothing that an earlier launch left is taken for the
lengths of this one. -/
def Regular : Op → Prop
  | .launch l => l.hook.initialises → (l.hook.binHdl d).isSome ∧
      (¬ l.Reads d → ∀ k ∈ d.memInfo.owner, k = d.launches)
  | _ => True

section
variable {needAddFftsAddr : Bool} {l : Launch} {d : DeviceContext}

theorem forall₂_concat_iff {α β : Type} {R : α → β → Prop} {l : List α} {l' : List β} {a : α}
    {b : β} (h : List.Forall₂ R l l') : List.Forall₂ R (l ++ [a]) (l' ++ [b]) ↔ R a b := by
  induction h with
  | nil => simp
  | cons hab _ ih => simp [hab, ih]

/-- The event names the binary, and there is none for an unknown one. -/
theorem map_event : (l.event d).map (fun event => (event.launch, event.hdl)) =
    (l.hook.binHdl d).map fun hdl => (d.launches, hdl) := by
  unfold Launch.event Hook.binHdl
  cases l.hook with
  | kernelLaunch stubFunc => exact Option.map_map ..
  | kernelLaunchWithFlagV2 stubFunc argsInfo => exact Option.map_map ..
  | kernelLaunchWithHandleV2 hdl tilingKey argsInfo => rfl

theorem isSome_event : (l.event d).isSome = (l.hook.binHdl d).isSome := by
  simpa only [Option.isSome_map] using congrArg Option.isSome (map_event (l := l) (d := d))

theorem event_spec {event : LaunchEvent} (h : l.event d = some event) :
    event.launch = d.launches ∧ l.hook.binHdl d = some event.hdl := by
  have heq := map_event (l := l) (d := d)
  rw [h, Option.map_some] at heq
  obtain ⟨hdl, hbin, hpair⟩ := Option.map_eq_some_iff.mp heq.symm
  rw [Prod.mk.injEq] at hpair
  exact ⟨hpair.1.symm, hbin.trans (congrArg some hpair.2)⟩

/-- Post changes neither history. -/
theorem histories_post : (post l d).launchEvents = d.launchEvents ∧
    (post l d).memInfoHistory = d.memInfoHistory := by
  unfold post
  split_ifs <;> exact ⟨rfl, rfl⟩

/-- The launch has archived this information with its event. -/
structure Archives (l : Launch) (d d' : DeviceContext) (memInfo : LaunchMemInfo) : Prop where
  events : d'.launchEvents = d.launchEvents ++ (l.event d).toList
  history : d'.memInfoHistory = d.memInfoHistory ++ [⟨d.launches, memInfo⟩]

theorem archives_archiveMemInfo {d' : DeviceContext}
    (hevents : d'.launchEvents = d.launchEvents ++ (l.event d).toList)
    (hhistory : d'.memInfoHistory = d.memInfoHistory) (hlaunches : d'.launches = d.launches) :
    Archives l d (archiveMemInfo d') d'.memInfo := by
  refine ⟨hevents, ?_⟩
  unfold archiveMemInfo
  rw [hhistory, hlaunches]

theorem addLaunchEvent_eq :
    addLaunchEvent l d = { d with launchEvents := d.launchEvents ++ (l.event d).toList } := by
  unfold addLaunchEvent
  cases l.event d with
  | none =>
    dsimp only [Option.toList_none]
    rw [List.append_nil]
  | some event => rfl

/-- What is archived is read for the launch, or it is there already. -/
theorem archives_initParam : ∃ memInfo, Archives l d (initParam needAddFftsAddr l d) memInfo ∧
    ((l.event d).isSome → (l.Reads d → ∀ k ∈ memInfo.owner, k = d.launches) ∧
      (¬ l.Reads d → memInfo.owner = d.memInfo.owner)) := by
  unfold initParam
  rw [addLaunchEvent_eq]
  dsimp only
  generalize hlast : (d.launchEvents ++ (l.event d).toList).getLastD
    { launch := d.launches, hdl := l.unfilledHdl, blockDim := l.blockDim } = last
  -- the last event is that of the launch, if it has one
  have hevent (event : LaunchEvent) (h : l.event d = some event) : last = event := by
    rw [← hlast, h, Option.toList_some, List.getLastD_concat]
  have hunread (h : last.hdl ∉ d.binaries ∨ ¬ l.needMemLengthInfo ∨ d.memInfo.isForSetException) :
      (l.event d).isSome → ¬ l.Reads d := by
    rintro hsome ⟨hneed, hflag, hdl, hbin, hmem⟩
    obtain ⟨event, heq⟩ := Option.isSome_iff_exists.mp hsome
    have hhdl := (event_spec heq).2.symm.trans (Option.mem_def.mp hbin)
    rw [← Option.some.inj hhdl, ← hevent event heq] at hmem
    rcases h with h | h | h
    · exact h hmem
    · exact h hneed
    · exact hflag h
  cases hlookup : d.binaries.lookup last.hdl with
  | none =>
    refine ⟨d.memInfo, archives_archiveMemInfo rfl rfl rfl, fun hsome =>
      ⟨fun h => ?_, fun _ => rfl⟩⟩
    exact absurd h (hunread (.inl (AList.lookup_eq_none.mp hlookup)) hsome)
  | some magic =>
    have hmem : last.hdl ∈ d.binaries := by
      rw [← AList.lookup_isSome, hlookup]
      rfl
    dsimp only
    unfold parseMetaDataFromBinary
    split_ifs with hneed hflag
    · refine ⟨_, archives_archiveMemInfo rfl rfl rfl, fun hsome =>
        ⟨fun h => ?_, fun _ => rfl⟩⟩
      exact absurd h (hunread (.inr (.inr hflag)) hsome)
    · have hreads (hsome : (l.event d).isSome) : l.Reads d := by
        obtain ⟨event, heq⟩ := Option.isSome_iff_exists.mp hsome
        exact ⟨hneed, hflag, event.hdl, (event_spec heq).2, hevent event heq ▸ hmem⟩
      cases l.metaInfo with
      | none =>
        exact ⟨_, archives_archiveMemInfo rfl rfl rfl, fun hsome =>
          ⟨fun _ k hk => (by cases hk), fun h => absurd (hreads hsome) h⟩⟩
      | some metaInfo =>
        refine ⟨_, archives_archiveMemInfo rfl rfl rfl, fun hsome =>
          ⟨fun _ k hk => ?_, fun h => absurd (hreads hsome) h⟩⟩
        obtain ⟨event, heq⟩ := Option.isSome_iff_exists.mp hsome
        rw [← Option.mem_some_iff.mp hk, hevent event heq, (event_spec heq).1]
    · refine ⟨d.memInfo, archives_archiveMemInfo rfl rfl rfl, fun hsome =>
        ⟨fun h => ?_, fun _ => rfl⟩⟩
      exact absurd h (hunread (.inr (.inl hneed)) hsome)

/-- A launch that archives is aligned with its event, or there is no event. -/
theorem aligned_call_iff (h : Aligned d) :
    Aligned (call needAddFftsAddr l d) ↔ Regular d (.launch l) := by
  unfold Aligned call Regular
  dsimp only
  rw [(histories_post).1, (histories_post).2]
  cases hinit : l.hook.initialises with
  | false => exact iff_of_true h fun hfalse => absurd hfalse Bool.false_ne_true
  | true =>
    obtain ⟨memInfo, harchives, howner⟩ := @archives_initParam needAddFftsAddr l d
    rw [if_pos rfl, imp_iff_right rfl, ← isSome_event, harchives.events, harchives.history]
    cases hevent : l.event d with
    | none =>
      rw [Option.toList_none, List.append_nil]
      refine iff_of_false (fun hnext => ?_) fun hregular => Bool.false_ne_true hregular.1
      have hlen := hnext.length_eq
      rw [List.length_append, List.length_singleton, h.length_eq] at hlen
      omega
    | some event =>
      rw [Option.toList_some, forall₂_concat_iff h, and_iff_right Option.isSome_some]
      have hlaunch := (event_spec hevent).1
      obtain ⟨hread, hkept⟩ := howner (hevent ▸ Option.isSome_some)
      constructor
      · intro hbelongs hunread k hk
        rw [← hkept hunread] at hk
        exact (hbelongs.owner k hk).trans hlaunch
      · intro hregular
        refine ⟨hlaunch.symm, fun k hk => ?_⟩
        rw [hlaunch]
        by_cases hreads : l.Reads d
        · exact hread hreads k hk
        · dsimp only at hk
          rw [hkept hreads] at hk
          exact hregular hreads k hk

theorem aligned_step_iff (h : Aligned d) (op : Op) :
    Aligned (step needAddFftsAddr d op) ↔ Regular d op := by
  cases op with
  | addHdlRegisterEvent hdl magic => exact iff_of_true h trivial
  | addFuncRegisterEvent binHdl stubFunc =>
    refine iff_of_true ?_ trivial
    unfold step addFuncRegisterEvent
    dsimp only
    split_ifs <;> exact h
  | setArgsSize memInfo => exact iff_of_true h trivial
  | launch l => exact aligned_call_iff h

end

/-- The lengths that a dump works with are not another launch's. -/
theorem owner_dumpKernelArgs {d : DeviceContext} (h : Aligned d) {launchId : ℕ}
    {event : LaunchEvent} {memInfo : LaunchMemInfo}
    (hdump : dumpKernelArgs d launchId = some (event, memInfo)) :
    ∀ k ∈ memInfo.owner, k = event.launch := by
  unfold dumpKernelArgs at hdump
  cases hevent : d.launchEvents[launchId]? with
  | none => simp [hevent] at hdump
  | some event' =>
    cases harchived : d.memInfoHistory[launchId]? with
    | none => simp [hevent, harchived] at hdump
    | some archived =>
      rw [hevent, harchived] at hdump
      obtain ⟨rfl, rfl⟩ := Prod.mk.inj (Option.some.inj hdump)
      obtain ⟨hlt, rfl⟩ := List.getElem?_eq_some_iff.mp hevent
      obtain ⟨hlt', rfl⟩ := List.getElem?_eq_some_iff.mp harchived
      exact (h.get hlt hlt').owner

/-- In every run the histories go together after each call exactly when every launch is
regular. -/
theorem histories_aligned_iff (needAddFftsAddr : Bool) (ops : List Op) :
    (∀ n, Aligned ((ops.take n).foldl (step needAddFftsAddr) {})) ↔
      Guarded (step needAddFftsAddr) Regular {} ops :=
  @guarded_iff_invariant _ _ (step needAddFftsAddr) Regular Aligned (fun _ _ => True)
    (fun _ op _ h => aligned_step_iff h op) _ ops
    (guarded_true _ ops) List.Forall₂.nil

/-- A launch of a stub function that nobody has registered, and one of a registered one. -/
def unknownThenKnown : List Op :=
  [.addHdlRegisterEvent 7 0, .addFuncRegisterEvent 7 0x2000,
    .launch { hook := .kernelLaunch 0x1000 }, .launch { hook := .kernelLaunch 0x2000 }]

/-- The second launch is dumped with the information of the first one. -/
theorem unknownThenKnown_not_aligned :
    ¬ ∀ n, Aligned ((unknownThenKnown.take n).foldl (step true) {}) := by
  intro h
  have hlen := (h 4).length_eq
  exact absurd hlen (by decide)

end Msopcom.LaunchHistory
