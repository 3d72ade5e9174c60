import Msopcom.InstrumentedLaunch
import Msopcom.LaunchArgsView

set_option autoImplicit false

/-!
# The buffers of instrumented kernels

A launch is paired when its arguments carry the live record buffer of its step, or when it
is the launch that the application asked for.
-/
namespace Msopcom.InstrumentedLaunch

section Launching
variable {α : Type} {s : State α}

theorem forall_mem_some {P : α → Prop} {a : α} : (∀ b ∈ some a, P b) ↔ P a :=
  ⟨fun h => h a rfl, fun h _ hb => Option.some.inj hb ▸ h⟩

/-- What a launch with these arguments is. -/
def State.launching (handle : Handle) (args : α) (s : State α) : Launched α :=
  ⟨handle, args, s.memInfo, s.offset, s.live⟩

theorem forall_launchWith {P : Launched α → Prop} (handle : Handle) (args : α) :
    (∀ x ∈ (s.launchWith handle args).launched, P x) ↔
      (∀ x ∈ s.launched, P x) ∧ P (s.launching handle args) := by
  unfold State.launchWith
  rw [List.forall_mem_append, List.forall_mem_singleton]
  rfl

theorem launchTimes_eq {launch : State α → State α} {x : State α → Launched α}
    (hlaunch : ∀ (s : State α) launched, launch { s with launched := launched } =
      { s with launched := launched ++ [x s] }) (n : Nat) (s : State α) :
    s.launchTimes n launch = { s with launched := s.launched ++ List.replicate n (x s) } := by
  have hrun (launched : List (Launched α)) :
      State.launchTimes n launch { s with launched := launched } =
        { s with launched := launched ++ List.replicate n (x s) } := by
    unfold State.launchTimes
    induction n generalizing launched with
    | zero => rw [List.replicate_zero, List.foldl_nil, List.replicate_zero, List.append_nil]
    | succ n ih =>
      rw [List.replicate_succ, List.foldl_cons, hlaunch, ih, List.replicate_succ,
        List.append_assoc, List.singleton_append]
  exact hrun s.launched

theorem forall_launched_append {P : Launched α → Prop} (n : Nat) (x : Launched α) :
    (∀ y ∈ s.launched ++ List.replicate n x, P y) ↔
      (∀ y ∈ s.launched, P y) ∧ (n = 0 ∨ P x) := by
  rw [List.forall_mem_append]
  refine and_congr_right fun _ => ?_
  constructor
  · intro h
    rcases n with _ | n
    · exact .inl rfl
    · exact .inr (h x (List.mem_replicate.mpr ⟨Nat.succ_ne_zero n, rfl⟩))
  · rintro h y hy
    obtain ⟨hn, rfl⟩ := List.mem_replicate.mp hy
    exact h.resolve_left hn

end Launching

/-! ## `rtKernelLaunchWithHandleV2` -/

namespace HandleHook

/-- The arguments are those of the application with the live buffer of the step as the extra
parameter. -/
structure Carries (l : Launch) (x : Launched RtArgsEx) : Prop where
  nonnull : x.memInfo ≠ 0
  live : x.live = x.memInfo
  pointer : ∃ bytes, x.args.args = some bytes ∧
    (bytes.drop x.offset.toNat).take ptrSize.toNat = pointerBytes x.memInfo
  expanded : ∃ expanded, expandArgs l.needOverflowStatus l.own x.memInfo = some expanded ∧
    x.args = expanded.argsInfo

/-- The launch carries its buffer, or is what the application asked for. -/
def Good (l : Launch) (x : Launched RtArgsEx) : Prop :=
  Carries l x ∨ x.handle = .application ∧ x.args = l.own

/-- The step has a buffer, and the arguments can be expanded. -/
def Provides (l : Launch) (memInfo : UInt64) : Prop :=
  (expandArgs l.needOverflowStatus l.own memInfo).isSome

/-- No step whose launches have the application's arguments replaces the handle, and what
replaces the handle for the last launch provides the buffer. -/
def Paired (l : Launch) : Prop :=
  l.arguments.isSome → match l.mode with
    | .profiling p => ¬ p.isSimulator →
      (∀ step ∈ p.pcSampling, Provides l step.memInfo → step.dbi = .replaced →
        step.launches = 0) ∧
      (∀ step ∈ p.timeline, Provides l step.memInfo → step.dbi.replaces → step.launches = 0) ∧
      (l.hasOriginfunc → p.isNeedRunOriginLaunch → ∀ step ∈ p.bbCount, step.dbi.replaces →
        step.dbi = .replaced ∧ Provides l step.memInfo)
    | .sanitizing i => l.hasOriginfunc → ¬ i.skipSanitizer → ¬ i.isSink → i.dbi.replaces →
      i.hasSectionHeaders ∧ Provides l i.memInfo

section
variable {l : Launch} {s : HookState} {memInfo : UInt64}

theorem own_args {args : List UInt8} (h : l.own.args = some args) :
    args.length = l.own.argsSize.toNat := by
  unfold Launch.own at h ⊢
  cases harguments : l.arguments with
  | none =>
    rw [harguments] at h
    cases h
  | some arguments =>
    rw [harguments] at h
    exact arguments.sized args h

theorem expandArgs_own {expanded : ExpandedArgs}
    (h : expandArgs l.needOverflowStatus l.own memInfo = some expanded) :
    memInfo ≠ 0 ∧ expanded.argsInfo ≠ l.own ∧ ∃ bytes, expanded.argsInfo.args = some bytes ∧
      (bytes.drop expanded.memInfoOffset.toNat).take ptrSize.toNat = pointerBytes memInfo := by
  cases hargs : l.own.args with
  | none =>
    unfold expandArgs at h
    rw [hargs] at h
    split_ifs at h
  | some args =>
    have hlen := own_args hargs
    obtain ⟨haccepted, rfl⟩ := (expandArgs_eq_some_iff hargs hlen).mp h
    refine ⟨haccepted.hasMemInfo, fun heq => ?_, _, rfl, haccepted.pointer hlen⟩
    have hbytes := (congrArg RtArgsEx.args heq).trans hargs
    have hlength := congrArg List.length (Option.some.inj hbytes)
    rw [expandedBytes, Splice.length_splice, length_pointerBytes] at hlength
    omega

theorem not_carries_own {x : Launched RtArgsEx} (h : x.args = l.own) : ¬ Carries l x := by
  intro hcarries
  obtain ⟨expanded, hexpanded, hargs⟩ := hcarries.expanded
  exact (expandArgs_own hexpanded).2.1 (hargs.symm.trans h)

theorem good_own_iff (handle : Handle) :
    Good l (s.launching handle l.own) ↔ handle = .application := by
  constructor
  · intro h
    rcases h with hcarries | ⟨hhandle, -⟩
    · exact absurd hcarries (not_carries_own rfl)
    · exact hhandle
  · exact fun h => .inr ⟨h, rfl⟩

/-- The next launch with the member's arguments is good. -/
def Fits (l : Launch) (s : HookState) : Prop := Good l (s.launching s.handle s.args)

theorem carries_expandNewArgs {handle : Handle} {launched : List (Launched RtArgsEx)}
    {expanded : ExpandedArgs} (h : expandArgs l.needOverflowStatus l.own memInfo = some expanded) :
    Fits l ⟨handle, expanded.argsInfo, memInfo, expanded.memInfoOffset, memInfo, launched⟩ := by
  obtain ⟨hnonnull, -, hpointer⟩ := expandArgs_own h
  exact .inl ⟨hnonnull, rfl, hpointer, expanded, h, rfl⟩

/-- What a step leaves: nothing is launched yet, the next launch fits, and the handle is
replaced only with expanded arguments. -/
structure Prepared (l : Launch) (step : Step) (s : HookState) (r : Bool × HookState) : Prop where
  launched : r.2.launched = s.launched
  fits : Fits l r.2
  ok : r.1 = true ↔ Provides l step.memInfo ∧ step.dbi = .replaced
  handle : r.2.handle = .application ↔ ¬ (Provides l step.memInfo ∧ step.dbi.replaces)

theorem prepared_prepareDbiTaskForInstrProf (step : Step) (s : HookState) :
    Prepared l step s (prepareDbiTaskForInstrProf l step s) := by
  unfold prepareDbiTaskForInstrProf expandNewArgs
  dsimp only [State.refreshParam, State.setMemInfo]
  cases hexpanded : expandArgs l.needOverflowStatus l.own step.memInfo with
  | none =>
    have hprovides : ¬ Provides l step.memInfo := by
      rw [Provides, hexpanded]
      exact Bool.false_ne_true
    refine ⟨rfl, .inr ⟨rfl, rfl⟩, ?_, ?_⟩
    · exact iff_of_false Bool.false_ne_true fun h => hprovides h.1
    · exact iff_of_true rfl fun h => hprovides h.1
  | some expanded =>
    have hprovides : Provides l step.memInfo := by
      rw [Provides, hexpanded]
      rfl
    cases hdbi : step.dbi with
    | failed =>
      refine ⟨rfl, carries_expandNewArgs hexpanded, ?_, ?_⟩
      · exact iff_of_false Bool.false_ne_true fun h => by cases hdbi.symm.trans h.2
      · refine iff_of_true rfl fun h => ?_
        rw [hdbi] at h
        exact Bool.false_ne_true h.2
    | replacedOnly =>
      refine ⟨rfl, carries_expandNewArgs hexpanded, ?_, ?_⟩
      · exact iff_of_false Bool.false_ne_true fun h => by cases hdbi.symm.trans h.2
      · exact iff_of_false (fun h => (by cases h)) fun h => h ⟨hprovides, by rw [hdbi]; rfl⟩
    | replaced =>
      refine ⟨rfl, carries_expandNewArgs hexpanded, ?_, ?_⟩
      · exact iff_of_true rfl ⟨hprovides, hdbi⟩
      · exact iff_of_false (fun h => (by cases h)) fun h => h ⟨hprovides, by rw [hdbi]; rfl⟩

/-- Launches of the stub function are good as long as the handle is the application's. -/
theorem good_funcStub_iff (n : Nat) (s : HookState) :
    (∀ x ∈ (s.launchTimes n (funcStub l)).launched, Good l x) ↔
      (∀ x ∈ s.launched, Good l x) ∧ (n = 0 ∨ s.handle = .application) := by
  rw [launchTimes_eq (x := fun s => s.launching s.handle l.own) fun _ _ => rfl,
    forall_launched_append, good_own_iff]

theorem fits_funcStub (n : Nat) (s : HookState) :
    Fits l (s.launchTimes n (funcStub l)) ↔ Fits l s := by
  rw [launchTimes_eq (x := fun s => s.launching s.handle l.own) fun _ _ => rfl]
  rfl

theorem good_pcSampling_iff (p : Profiling) :
    (∀ x ∈ (pcSampling l p s).launched, Good l x) ↔ (∀ x ∈ s.launched, Good l x) ∧
      ∀ step ∈ p.pcSampling, Provides l step.memInfo → step.dbi = .replaced →
        step.launches = 0 := by
  unfold pcSampling
  cases p.pcSampling with
  | none => exact ⟨fun h => ⟨h, fun _ hnone => by cases hnone⟩, fun h => h.1⟩
  | some step =>
    have hprepared := prepared_prepareDbiTaskForInstrProf (l := l) step s
    have hstep : (∀ step' ∈ some step, Provides l step'.memInfo → step'.dbi = .replaced →
        step'.launches = 0) ↔ (Provides l step.memInfo ∧ step.dbi = .replaced →
          step.launches = 0) := forall_mem_some.trans and_imp.symm
    dsimp only
    rw [hstep]
    split_ifs with hok
    · have hboth := hprepared.ok.mp hok
      have hhandle : (prepareDbiTaskForInstrProf l step s).2.handle ≠ .application :=
        fun heq => hprepared.handle.mp heq ⟨hboth.1, by rw [hboth.2]; rfl⟩
      rw [good_funcStub_iff, hprepared.launched, or_iff_left hhandle, imp_iff_right hboth]
    · rw [hprepared.launched]
      exact (and_iff_left fun h => absurd (hprepared.ok.mpr h) hok).symm

theorem fits_pcSampling (p : Profiling) (h : Fits l s) : Fits l (pcSampling l p s) := by
  unfold pcSampling
  cases p.pcSampling with
  | none => exact h
  | some step =>
    have hprepared := prepared_prepareDbiTaskForInstrProf (l := l) step s
    dsimp only
    split_ifs
    · exact (fits_funcStub _ _).mpr hprepared.fits
    · exact hprepared.fits

theorem good_timeline_iff (p : Profiling) :
    (∀ x ∈ (timeline l p s).launched, Good l x) ↔ (∀ x ∈ s.launched, Good l x) ∧
      ∀ step ∈ p.timeline, Provides l step.memInfo → step.dbi.replaces → step.launches = 0 := by
  unfold timeline
  cases p.timeline with
  | none => exact ⟨fun h => ⟨h, fun _ hnone => by cases hnone⟩, fun h => h.1⟩
  | some step =>
    have hprepared := prepared_prepareDbiTaskForInstrProf (l := l) step s
    have hstep : (∀ step' ∈ some step, Provides l step'.memInfo → step'.dbi.replaces →
        step'.launches = 0) ↔ (step.launches = 0 ∨
          ¬ (Provides l step.memInfo ∧ step.dbi.replaces)) := by
      rw [or_comm, ← imp_iff_not_or]
      exact forall_mem_some.trans and_imp.symm
    dsimp only
    rw [good_funcStub_iff, hprepared.launched, hprepared.handle, hstep]

theorem fits_timeline (p : Profiling) (h : Fits l s) : Fits l (timeline l p s) := by
  unfold timeline
  cases p.timeline with
  | none => exact h
  | some step =>
    exact (fits_funcStub _ _).mpr (prepared_prepareDbiTaskForInstrProf step s).fits

/-- The kernel that is only profiled has its own handle. -/
theorem good_func (n : Nat) (s : HookState) :
    (∀ x ∈ (s.launchTimes n (func l)).launched, Good l x) ↔ ∀ x ∈ s.launched, Good l x := by
  rw [launchTimes_eq (x := fun s => s.launching .application l.own) fun _ _ => rfl,
    forall_launched_append]
  exact and_iff_left (.inr (.inr ⟨rfl, rfl⟩))

theorem bbCountTask_spec (step : Step) (s : HookState) :
    (bbCountTask l step (s.refreshParam l.own)).launched = s.launched ∧
      (Fits l (bbCountTask l step (s.refreshParam l.own)) ↔
        (step.dbi.replaces → step.dbi = .replaced ∧ Provides l step.memInfo)) := by
  unfold bbCountTask
  cases hdbi : step.dbi with
  | failed => exact ⟨rfl, iff_of_true (.inr ⟨rfl, rfl⟩) fun h => absurd h Bool.false_ne_true⟩
  | replacedOnly =>
    refine ⟨rfl, iff_of_false ?_ fun h => by cases (h rfl).1⟩
    exact fun h => by cases (good_own_iff .dbi).mp h
  | replaced =>
    dsimp only [runDBITask, State.setMemInfo, State.refreshParam, expandNewArgs]
    cases hexpanded : expandArgs l.needOverflowStatus l.own step.memInfo with
    | none =>
      have hprovides : ¬ Provides l step.memInfo := by
        rw [Provides, hexpanded]
        exact Bool.false_ne_true
      refine ⟨by split_ifs <;> rfl, iff_of_false ?_ fun h => hprovides (h rfl).2⟩
      split_ifs <;> exact fun h => by cases (good_own_iff .dbi).mp h
    | some expanded =>
      have hprovides : Provides l step.memInfo := by
        rw [Provides, hexpanded]
        rfl
      have hnonnull := (expandArgs_own hexpanded).1
      rw [if_pos rfl, if_pos hnonnull]
      exact ⟨rfl, iff_of_true (carries_expandNewArgs hexpanded) fun _ => ⟨rfl, hprovides⟩⟩

theorem good_profPre_iff (p : Profiling) :
    (∀ x ∈ (profPre l p s).launched, Good l x) ↔ ∀ x ∈ s.launched, Good l x := by
  unfold profPre
  cases p.bbCount with
  | none => exact good_func p.profLaunches s
  | some step =>
    dsimp only
    rw [(bbCountTask_spec step _).1]
    exact good_func p.profLaunches s

theorem fits_profPre_iff (p : Profiling) (h : Fits l s) :
    Fits l (profPre l p s) ↔ ∀ step ∈ p.bbCount, step.dbi.replaces →
      step.dbi = .replaced ∧ Provides l step.memInfo := by
  unfold profPre
  cases p.bbCount with
  | none =>
    refine iff_of_true ?_ fun _ hnone => by cases hnone
    dsimp only
    rw [launchTimes_eq (x := fun s => s.launching .application l.own) fun _ _ => rfl]
    exact h
  | some step =>
    rw [forall_mem_some]
    exact (bbCountTask_spec step _).2

theorem good_instrLaunch_iff (step : Option Step) (s : HookState) :
    (∀ x ∈ (instrLaunch l step s).launched, Good l x) ↔ ∀ x ∈ s.launched, Good l x := by
  unfold instrLaunch
  cases step with
  | none => exact Iff.rfl
  | some step =>
    have hprepared := prepared_prepareDbiTaskForInstrProf (l := l) step s
    dsimp only
    split_ifs
    · rw [originLaunch, forall_launchWith, hprepared.launched]
      exact and_iff_left hprepared.fits
    · rw [hprepared.launched]

theorem good_post_iff (s : HookState) :
    (∀ x ∈ (post l s).launched, Good l x) ↔ ∀ x ∈ s.launched, Good l x := by
  unfold post
  split_ifs
  · exact Iff.rfl
  · split
    · split_ifs
      · exact Iff.rfl
      · rw [good_instrLaunch_iff, good_instrLaunch_iff]
    · exact Iff.rfl

theorem good_call_iff_pre :
    (∀ x ∈ call l, Good l x) ↔ (∀ x ∈ (pre l { args := l.own }).launched, Good l x) ∧
      (l.hasOriginfunc → isNeedRunOriginLaunch l → Fits l (pre l { args := l.own })) := by
  unfold call
  dsimp only
  split_ifs with horigin hneed
  · rw [Bool.not_eq_true'] at horigin
    refine (and_iff_left fun h => ?_).symm
    rw [horigin] at h
    cases h
  · rw [Bool.not_eq_true', Bool.not_eq_false] at horigin
    rw [good_post_iff, originLaunch, forall_launchWith, imp_iff_right horigin, imp_iff_right hneed]
    rfl
  · rw [good_post_iff]
    exact (and_iff_left fun _ h => absurd h hneed).symm

theorem sanitizerInit_spec (s : HookState) (hargs : s.args = l.own) (memInfo : UInt64) :
    (sanitizerInit l memInfo s).launched = s.launched ∧
      (Fits l (sanitizerInit l memInfo s) ↔ s.handle = .application ∨ Provides l memInfo) := by
  obtain ⟨handle, args, _, _, _, launched⟩ := s
  subst hargs
  dsimp only [sanitizerInit, State.setMemInfo, expandNewArgs]
  cases hexpanded : expandArgs l.needOverflowStatus l.own memInfo with
  | none =>
    have hprovides : ¬ Provides l memInfo := by
      rw [Provides, hexpanded]
      exact Bool.false_ne_true
    rw [ite_self, or_iff_left hprovides]
    exact ⟨rfl, good_own_iff handle⟩
  | some expanded =>
    have hprovides : Provides l memInfo := by
      rw [Provides, hexpanded]
      rfl
    rw [if_pos (expandArgs_own hexpanded).1]
    exact ⟨rfl, iff_of_true (carries_expandNewArgs hexpanded) (.inr hprovides)⟩

theorem runDBITask_spec (dbi : Dbi) (s : HookState) (hhandle : s.handle = .application) :
    (runDBITask dbi s).2.args = s.args ∧ (runDBITask dbi s).2.launched = s.launched ∧
      ((runDBITask dbi s).2.handle = .application ↔ ¬ dbi.replaces) := by
  cases dbi with
  | failed => exact ⟨rfl, rfl, iff_of_true hhandle Bool.false_ne_true⟩
  | replacedOnly => exact ⟨rfl, rfl, iff_of_false (fun h => (by cases h)) fun h => h rfl⟩
  | replaced => exact ⟨rfl, rfl, iff_of_false (fun h => (by cases h)) fun h => h rfl⟩

theorem sanitizerPre_spec (i : Sanitizing) :
    (sanitizerPre l i { args := l.own }).launched = [] ∧
      (Fits l (sanitizerPre l i { args := l.own }) ↔ (¬ i.skipSanitizer → ¬ i.isSink →
        i.dbi.replaces → i.hasSectionHeaders ∧ Provides l i.memInfo)) := by
  unfold sanitizerPre
  split_ifs with hskip hsink hheaders
  · obtain ⟨hlaunched, hfits⟩ := sanitizerInit_spec (l := l) { args := l.own } rfl i.memInfo
    exact ⟨hlaunched, iff_of_true (hfits.mpr (.inl rfl)) fun h => absurd hskip h⟩
  · exact ⟨rfl, iff_of_true (.inr ⟨rfl, rfl⟩) fun _ h => absurd hsink h⟩
  · obtain ⟨hargs, hlaunched, hhandle⟩ := runDBITask_spec i.dbi { args := l.own } rfl
    obtain ⟨hinit, hfits⟩ := sanitizerInit_spec (l := l) _ hargs i.memInfo
    refine ⟨hinit.trans hlaunched, hfits.trans ?_⟩
    rw [hhandle, imp_iff_right hskip, imp_iff_right hsink, and_iff_right hheaders, imp_iff_not_or]
  · obtain ⟨hargs, hlaunched, hhandle⟩ := runDBITask_spec i.dbi { args := l.own } rfl
    refine ⟨hlaunched, ?_⟩
    rw [Fits, hargs, good_own_iff, hhandle, imp_iff_right hskip, imp_iff_right hsink]
    exact ⟨fun h hdbi => absurd hdbi h, fun h hdbi => hheaders (h hdbi).1⟩

/-- Every launch of the hook is good exactly when the steps are paired. -/
theorem good_iff_paired : (∀ x ∈ call l, Good l x) ↔ Paired l := by
  have hstart : Fits l { args := l.own } := .inr ⟨rfl, rfl⟩
  have hnone : ∀ x ∈ ({ args := l.own } : HookState).launched, Good l x :=
    fun x hx => by cases hx
  rw [good_call_iff_pre]
  unfold pre isNeedRunOriginLaunch Paired
  cases harguments : l.arguments with
  | none =>
    rw [Option.isNone_none, if_pos rfl]
    exact iff_of_true ⟨hnone, fun _ _ => hstart⟩ fun h => absurd h Bool.false_ne_true
  | some arguments =>
    rw [Option.isNone_some, if_neg Bool.false_ne_true, Option.isSome_some, imp_iff_right rfl]
    cases l.mode with
    | profiling p =>
      dsimp only
      split_ifs with hsimulator
      · exact iff_of_true ⟨hnone, fun _ _ => hstart⟩ fun h => absurd hsimulator h
      · rw [imp_iff_right hsimulator, profPreForInstrProf, good_profPre_iff, good_timeline_iff,
          good_pcSampling_iff, fits_profPre_iff p (fits_timeline p (fits_pcSampling p hstart)),
          and_iff_right hnone, and_assoc]
    | sanitizing i =>
      dsimp only
      obtain ⟨hlaunched, hfits⟩ := sanitizerPre_spec (l := l) i
      rw [hlaunched, hfits]
      refine (and_iff_right fun x hx => by cases hx).trans ?_
      exact forall_congr' fun _ => imp_iff_right rfl

end
end HandleHook

/-! ## `aclrtLaunchKernelImpl` -/

namespace AclrtHook

structure Carries (x : Launched ArgsData) : Prop where
  nonnull : x.memInfo ≠ 0
  live : x.live = x.memInfo
  pointer : ∃ bytes, x.args = .image bytes ∧
    (bytes.drop x.offset.toNat).take ptrSize.toNat = pointerBytes x.memInfo

/-- The copy to the host gives the application's arguments, which the memory for it may have
already. -/
def Holds (l : Launch) (copies : Copies) : Prop :=
  copies.toHost ∨ l.arguments.argsData = List.replicate l.arguments.argsSize.toNat 0

/-- The application's handle has the application's arguments, with or without the buffer. -/
def Good (l : Launch) (x : Launched ArgsData) : Prop :=
  Carries x ∧ (x.handle = .application → ∃ bytes, x.args = .image bytes ∧
    l.arguments.argsData <+: bytes) ∨ x.handle = .application ∧ x.args = .own

/-- The arguments can be expanded and copied to new device memory. -/
structure Expands (l : Launch) (copies : Copies) : Prop where
  argsFit : l.arguments.argsSize ≤ maxAllParamSize
  malloc : copies.malloc = .done
  toDevice : copies.toDevice

/-- The device memory cannot be allocated, and the pointer to it is cleared. -/
structure Clears (l : Launch) (copies : Copies) : Prop where
  argsFit : l.arguments.argsSize ≤ maxAllParamSize
  malloc : copies.malloc = .failed true

def Prepares (l : Launch) (step : Step) : Prop :=
  step.memInfo ≠ 0 ∧ Expands l step.copies ∧ step.dbi

/-- The timeline is launched only when it could be prepared, the arguments of the BB count can
be expanded when its kernel and its buffer are there, and the arguments of a kernel that the
sanitizer cannot instrument are its own. -/
def Paired (l : Launch) : Prop :=
  l.hasLaunchCtx → match l.mode with
    | .profiling p => ¬ p.isSimulator →
      (∀ step ∈ p.timeline, step.launches = 0 ∨ Prepares l step) ∧
      (l.hasOriginfunc → p.isNeedRunOriginLaunch → ∀ step ∈ p.bbCount, step.dbi →
        step.memInfo ≠ 0 → Expands l step.copies ∨ Clears l step.copies)
    | .sanitizing i => l.hasOriginfunc → (i.skipSanitizer ∨ ¬ i.isSink) → i.memInfo ≠ 0 →
      Expands l i.copies → ¬ i.dbi → Holds l i.copies

section
variable {l : Launch} {s : HookState}

theorem pointer_argsWithMemInfo (hfit : l.arguments.argsSize ≤ maxAllParamSize) (memInfo : UInt64)
    (toHost : Bool) :
    ((argsWithMemInfo l memInfo toHost).drop (getAlignSize l.arguments.argsSize).toNat).take
      ptrSize.toNat = pointerBytes memInfo := by
  have hmax : l.arguments.argsSize.toNat ≤ 2 ^ 30 := UInt32.le_iff_toNat_le.mp hfit
  have halign := toNat_getAlignSize hmax
  have hfront (args : List UInt8) (hargs : args.length ≤ l.arguments.argsSize.toNat) :
      (args ++ List.replicate ((getAlignSize l.arguments.argsSize).toNat - args.length)
        (0 : UInt8)).length = (getAlignSize l.arguments.argsSize).toNat := by
    rw [List.length_append, List.length_replicate]
    omega
  have hlen : ptrSize.toNat = (pointerBytes memInfo).length := (length_pointerBytes memInfo).symm
  unfold argsWithMemInfo
  dsimp only
  rw [List.drop_left' (hfront _ ?_), hlen, List.take_length]
  split_ifs
  · exact le_of_eq l.arguments.sized
  · exact Nat.zero_le _

theorem holds_iff (hfit : l.arguments.argsSize ≤ maxAllParamSize) (memInfo : UInt64)
    (copies : Copies) :
    l.arguments.argsData <+: argsWithMemInfo l memInfo copies.toHost ↔ Holds l copies := by
  have halign := toNat_getAlignSize (UInt32.le_iff_toNat_le.mp hfit)
  unfold argsWithMemInfo Holds
  cases copies.toHost with
  | true =>
    dsimp only
    rw [if_pos rfl, List.append_assoc]
    exact iff_of_true (List.prefix_append _ _) (.inl rfl)
  | false =>
    dsimp only
    rw [if_neg Bool.false_ne_true, or_iff_right Bool.false_ne_true, List.nil_append,
      List.length_nil, Nat.sub_zero]
    -- both are prefixes of the cleared image
    have hclear : List.replicate l.arguments.argsSize.toNat (0 : UInt8) <+:
        List.replicate (getAlignSize l.arguments.argsSize).toNat 0 ++ pointerBytes memInfo := by
      refine List.IsPrefix.trans ⟨List.replicate ((getAlignSize l.arguments.argsSize).toNat -
        l.arguments.argsSize.toNat) 0, ?_⟩ (List.prefix_append _ _)
      rw [List.replicate_append_replicate]
      congr 1
      omega
    constructor
    · intro h
      have hlength : l.arguments.argsData.length =
          (List.replicate l.arguments.argsSize.toNat (0 : UInt8)).length := by
        rw [l.arguments.sized, List.length_replicate]
      exact (List.prefix_of_prefix_length_le h hclear hlength.le).eq_of_length hlength
    · intro h
      rw [h]
      exact hclear

/-- An expansion gives an image with the buffer, or else no image. -/
structure Expanded (l : Launch) (memInfo : UInt64) (copies : Copies) (s : HookState)
    (r : Bool × ArgsData × HookState) : Prop where
  ok : r.1 = true ↔ Expands l copies
  state : ∃ offset, r.2.2 = { s with offset := offset }
  image : r.1 = true → ∃ bytes, r.2.1 = .image bytes ∧
    (bytes.drop r.2.2.offset.toNat).take ptrSize.toNat = pointerBytes memInfo ∧
    (l.arguments.argsData <+: bytes ↔ Holds l copies)
  noImage : r.1 ≠ true → ∀ bytes, r.2.1 ≠ .image bytes
  null : r.2.1 = .null ↔ Clears l copies

theorem expanded_expandArgs (memInfo : UInt64) (copies : Copies) (s : HookState) :
    Expanded l memInfo copies s (expandArgs l memInfo copies s) := by
  unfold expandArgs
  by_cases hfit : l.arguments.argsSize ≤ maxAllParamSize
  · rw [if_neg (UInt32.not_lt.mpr hfit)]
    cases hmalloc : copies.malloc with
    | failed cleared =>
      have hexpands : ¬ Expands l copies := fun h => (by cases hmalloc.symm.trans h.malloc)
      cases cleared with
      | false =>
        exact ⟨iff_of_false Bool.false_ne_true hexpands, ⟨_, rfl⟩, fun h => (by cases h),
          fun _ _ h => (by cases h), iff_of_false (fun h => (by cases h))
            fun h => (by cases hmalloc.symm.trans h.malloc)⟩
      | true =>
        exact ⟨iff_of_false Bool.false_ne_true hexpands, ⟨_, rfl⟩, fun h => (by cases h),
          fun _ _ h => (by cases h), iff_of_true rfl ⟨hfit, hmalloc⟩⟩
    | done =>
      have hclears : ¬ Clears l copies := fun h => (by cases hmalloc.symm.trans h.malloc)
      dsimp only
      split_ifs with hcopy
      · exact ⟨iff_of_true rfl ⟨hfit, hmalloc, hcopy⟩, ⟨_, rfl⟩,
          fun _ => ⟨_, rfl, pointer_argsWithMemInfo hfit memInfo _, holds_iff hfit memInfo copies⟩,
          fun h => absurd rfl h, iff_of_false (fun h => (by cases h)) hclears⟩
      · exact ⟨iff_of_false Bool.false_ne_true fun h => hcopy h.toDevice, ⟨_, rfl⟩,
          fun h => (by cases h), fun _ _ h => (by cases h),
          iff_of_false (fun h => (by cases h)) hclears⟩
  · rw [if_pos (UInt32.not_le.mp hfit)]
    exact ⟨iff_of_false Bool.false_ne_true fun h => hfit h.argsFit, ⟨s.offset, rfl⟩,
      fun h => (by cases h), fun _ _ h => (by cases h),
      iff_of_false (fun h => (by cases h)) fun h => hfit h.argsFit⟩

theorem good_own : Good l (s.launching .application .own) := .inr ⟨rfl, rfl⟩

theorem not_good_null (handle : Handle) : ¬ Good l (s.launching handle .null) := by
  rintro (⟨hcarries, -⟩ | ⟨-, hown⟩)
  · obtain ⟨_, heq, -⟩ := hcarries.pointer
    cases heq
  · cases hown

theorem not_good_dbi {args : ArgsData} (h : ∀ bytes, args ≠ .image bytes) :
    ¬ Good l (s.launching .dbi args) := by
  rintro (⟨hcarries, -⟩ | ⟨hhandle, -⟩)
  · obtain ⟨bytes, heq, -⟩ := hcarries.pointer
    exact h bytes heq
  · cases hhandle

/-- An image is for either handle, but for the application's only with its arguments. -/
theorem Expanded.good_iff {memInfo : UInt64} {copies : Copies} {r : Bool × ArgsData × HookState}
    (h : Expanded l memInfo copies s r) (hok : r.1 = true) (hnonnull : memInfo ≠ 0)
    (hmemInfo : s.memInfo = memInfo) (hlive : s.live = memInfo) (handle : Handle) :
    Good l (r.2.2.launching handle r.2.1) ↔ (handle = .application → Holds l copies) := by
  obtain ⟨offset, hstate⟩ := h.state
  obtain ⟨bytes, himage, hpointer, hprefix⟩ := h.image hok
  have hsame : r.2.2.memInfo = memInfo := by
    rw [hstate]
    exact hmemInfo
  have hcarries : Carries (r.2.2.launching handle r.2.1) := by
    refine ⟨?_, ?_, bytes, himage, ?_⟩
    · exact hsame.trans_ne hnonnull
    · dsimp only [State.launching]
      rw [hstate, hlive, hmemInfo]
    · dsimp only [State.launching]
      rw [hpointer, hsame]
  constructor
  · rintro (⟨-, hbytes⟩ | ⟨-, hown⟩) hhandle
    · obtain ⟨bytes', himage', hprefix'⟩ := hbytes hhandle
      cases himage.symm.trans himage'
      exact hprefix.mp hprefix'
    · cases himage.symm.trans hown
  · exact fun hholds => .inl ⟨hcarries, fun hhandle =>
      ⟨bytes, himage, hprefix.mpr (hholds hhandle)⟩⟩

/-- The last launch is good: there is nothing to launch but what the application wanted, or
the members go together. -/
def Fits (l : Launch) (s : HookState) : Prop :=
  s.args = .null ∨ Good l (s.launching s.handle s.args)

/-- What a step leaves: a kernel with its buffer, or nothing but the application's handle. -/
structure Prepared (l : Launch) (step : Step) (s : HookState) (r : Bool × HookState) : Prop where
  launched : r.2.launched = s.launched
  ok : r.1 = true ↔ Prepares l step
  good : r.1 = true → Good l (r.2.launching r.2.handle r.2.args)
  null : r.1 ≠ true → r.2.args = .null

theorem prepared_prepareDbiTaskForInstrProf (step : Step) (s : HookState) :
    Prepared l step s (prepareDbiTaskForInstrProf l step s) := by
  unfold prepareDbiTaskForInstrProf
  dsimp only
  have hexpanded := expanded_expandArgs (l := l) step.memInfo step.copies
    ((s.refreshParam ArgsData.null).setMemInfo step.memInfo)
  obtain ⟨offset, hstate⟩ := hexpanded.state
  split_ifs with hnull hok
  · exact ⟨rfl, iff_of_false Bool.false_ne_true fun h => h.1 hnull, fun h => (by cases h),
      fun _ => rfl⟩
  · obtain ⟨hexpand, hdbi⟩ := (Bool.and_eq_true _ _).mp hok
    refine ⟨?_, iff_of_true rfl ⟨hnull, hexpanded.ok.mp hexpand, hdbi⟩, fun _ => ?_,
      fun h => absurd rfl h⟩
    · dsimp only
      rw [hstate]
      rfl
    · exact (hexpanded.good_iff hexpand hnull rfl rfl .dbi).mpr fun h => (by cases h)
  · refine ⟨?_, iff_of_false Bool.false_ne_true fun h => ?_, fun h => (by cases h), fun _ => ?_⟩
    · dsimp only
      rw [hstate]
      rfl
    · exact hok ((Bool.and_eq_true _ _).mpr ⟨hexpanded.ok.mpr h.2.1, h.2.2⟩)
    · dsimp only
      rw [hstate]
      rfl

theorem Prepared.fits {step : Step} {r : Bool × HookState} (h : Prepared l step s r) :
    Fits l r.2 := by
  by_cases hok : r.1 = true
  · exact .inr (h.good hok)
  · exact .inl (h.null hok)

theorem Prepared.good_iff {step : Step} {r : Bool × HookState} (h : Prepared l step s r) :
    Good l (r.2.launching r.2.handle r.2.args) ↔ Prepares l step := by
  by_cases hok : r.1 = true
  · exact iff_of_true (h.good hok) (h.ok.mp hok)
  · refine iff_of_false ?_ fun hprepares => hok (h.ok.mpr hprepares)
    rw [h.null hok]
    exact not_good_null _

theorem good_funcStub_iff (n : Nat) (s : HookState) :
    (∀ x ∈ (s.launchTimes n funcStub).launched, Good l x) ↔
      (∀ x ∈ s.launched, Good l x) ∧ (n = 0 ∨ Good l (s.launching s.handle s.args)) := by
  rw [launchTimes_eq (x := fun s => s.launching s.handle s.args) fun _ _ => rfl,
    forall_launched_append]

theorem fits_funcStub (n : Nat) (s : HookState) :
    Fits l (s.launchTimes n funcStub) ↔ Fits l s := by
  rw [launchTimes_eq (x := fun s => s.launching s.handle s.args) fun _ _ => rfl]
  rfl

theorem good_pcSampling_iff (p : Profiling) :
    (∀ x ∈ (pcSampling l p s).launched, Good l x) ↔ ∀ x ∈ s.launched, Good l x := by
  unfold pcSampling
  cases p.pcSampling with
  | none => exact Iff.rfl
  | some step =>
    have hprepared := prepared_prepareDbiTaskForInstrProf (l := l) step s
    dsimp only
    split_ifs with hok
    · rw [good_funcStub_iff, hprepared.launched]
      exact and_iff_left (.inr (hprepared.good hok))
    · rw [hprepared.launched]

theorem fits_pcSampling (p : Profiling) (h : Fits l s) : Fits l (pcSampling l p s) := by
  unfold pcSampling
  cases p.pcSampling with
  | none => exact h
  | some step =>
    have hprepared := prepared_prepareDbiTaskForInstrProf (l := l) step s
    dsimp only
    split_ifs
    · exact (fits_funcStub _ _).mpr hprepared.fits
    · exact hprepared.fits

theorem good_timeline_iff (p : Profiling) :
    (∀ x ∈ (timeline l p s).launched, Good l x) ↔ (∀ x ∈ s.launched, Good l x) ∧
      ∀ step ∈ p.timeline, step.launches = 0 ∨ Prepares l step := by
  unfold timeline
  cases p.timeline with
  | none => exact ⟨fun h => ⟨h, fun _ hnone => by cases hnone⟩, fun h => h.1⟩
  | some step =>
    have hprepared := prepared_prepareDbiTaskForInstrProf (l := l) step s
    dsimp only
    rw [good_funcStub_iff, hprepared.launched, hprepared.good_iff, forall_mem_some]

theorem fits_timeline (p : Profiling) (h : Fits l s) : Fits l (timeline l p s) := by
  unfold timeline
  cases p.timeline with
  | none => exact h
  | some step =>
    exact (fits_funcStub _ _).mpr (prepared_prepareDbiTaskForInstrProf step s).fits

theorem good_func (n : Nat) (s : HookState) :
    (∀ x ∈ (s.launchTimes n func).launched, Good l x) ↔ ∀ x ∈ s.launched, Good l x := by
  rw [launchTimes_eq (x := fun s => s.launching .application .own) fun _ _ => rfl,
    forall_launched_append]
  exact and_iff_left (.inr good_own)

theorem bbCountTask_spec (step : Step) (s : HookState) :
    (bbCountTask l step (s.refreshParam .null)).launched = s.launched ∧
      (Fits l (bbCountTask l step (s.refreshParam .null)) ↔
        (step.dbi → step.memInfo ≠ 0 → Expands l step.copies ∨ Clears l step.copies)) := by
  unfold bbCountTask
  dsimp only
  have hexpanded := expanded_expandArgs (l := l) step.memInfo step.copies
    (State.setMemInfo step.memInfo { s.refreshParam ArgsData.null with
      handle := .dbi, offset := getLastParamOffset l })
  generalize expandArgs l step.memInfo step.copies _ = r at hexpanded ⊢
  obtain ⟨offset, hstate⟩ := hexpanded.state
  split_ifs with hdbi hnonnull
  · rw [imp_iff_right hdbi, imp_iff_right hnonnull]
    have hhandle : r.2.2.handle = .dbi := by
      rw [hstate]
      rfl
    refine ⟨?_, ?_⟩
    · dsimp only
      rw [hstate]
      rfl
    · rw [Fits, or_comm, hexpanded.null]
      refine or_congr_left ?_
      dsimp only
      rw [hhandle]
      by_cases hok : r.1 = true
      · exact iff_of_true ((hexpanded.good_iff hok hnonnull rfl rfl .dbi).mpr fun h =>
          (by cases h)) (hexpanded.ok.mp hok)
      · exact iff_of_false (not_good_dbi (hexpanded.noImage hok)) fun h =>
          hok (hexpanded.ok.mpr h)
  · exact ⟨rfl, iff_of_true (.inl rfl) fun _ h => absurd h hnonnull⟩
  · exact ⟨rfl, iff_of_true (.inl rfl) fun h => absurd h hdbi⟩

theorem good_profPre_iff (p : Profiling) :
    (∀ x ∈ (profPre l p s).launched, Good l x) ↔ ∀ x ∈ s.launched, Good l x := by
  unfold profPre
  cases p.bbCount with
  | none => exact good_func p.profLaunches s
  | some step =>
    dsimp only
    rw [(bbCountTask_spec step _).1]
    exact good_func p.profLaunches s

theorem fits_profPre_iff (p : Profiling) (h : Fits l s) :
    Fits l (profPre l p s) ↔ ∀ step ∈ p.bbCount, step.dbi → step.memInfo ≠ 0 →
      Expands l step.copies ∨ Clears l step.copies := by
  unfold profPre
  cases p.bbCount with
  | none =>
    refine iff_of_true ?_ fun _ hnone => by cases hnone
    dsimp only
    rw [launchTimes_eq (x := fun s => s.launching .application .own) fun _ _ => rfl]
    exact h
  | some step =>
    rw [forall_mem_some]
    exact (bbCountTask_spec step _).2

theorem good_instrLaunch_iff (step : Option Step) (s : HookState) :
    (∀ x ∈ (instrLaunch l step s).launched, Good l x) ↔ ∀ x ∈ s.launched, Good l x := by
  unfold instrLaunch
  cases step with
  | none => exact Iff.rfl
  | some step =>
    have hprepared := prepared_prepareDbiTaskForInstrProf (l := l) step s
    dsimp only
    split_ifs with hok
    · rw [funcStub, forall_launchWith, hprepared.launched]
      exact and_iff_left (hprepared.good ((Bool.and_eq_true _ _).mp hok).1)
    · rw [hprepared.launched]

theorem good_post_iff (s : HookState) :
    (∀ x ∈ (post l s).launched, Good l x) ↔ ∀ x ∈ s.launched, Good l x := by
  unfold post
  split_ifs
  · exact Iff.rfl
  · split
    · split_ifs
      · exact Iff.rfl
      · rw [good_instrLaunch_iff, good_instrLaunch_iff]
    · exact Iff.rfl

theorem good_originLaunch_iff (s : HookState) :
    (∀ x ∈ (originLaunch s).launched, Good l x) ↔ (∀ x ∈ s.launched, Good l x) ∧ Fits l s := by
  unfold originLaunch Fits
  split_ifs with hnull
  · rw [forall_launchWith, or_iff_right hnull]
  · rw [forall_launchWith]
    exact and_congr_right fun _ => iff_of_true good_own (.inl (not_not.mp hnull))

theorem good_call_iff_pre :
    (∀ x ∈ call l, Good l x) ↔ (∀ x ∈ (pre l { args := .null }).launched, Good l x) ∧
      (l.hasOriginfunc → isNeedRunOriginLaunch l → Fits l (pre l { args := .null })) := by
  unfold call
  dsimp only
  split_ifs with horigin hneed hsuccess
  · rw [Bool.not_eq_true'] at horigin
    refine (and_iff_left fun h => ?_).symm
    rw [horigin] at h
    cases h
  · rw [Bool.not_eq_true', Bool.not_eq_false] at horigin
    rw [good_post_iff, good_originLaunch_iff, imp_iff_right horigin, imp_iff_right hneed]
  · rw [Bool.not_eq_true', Bool.not_eq_false] at horigin
    rw [good_originLaunch_iff, imp_iff_right horigin, imp_iff_right hneed]
  · rw [good_post_iff]
    exact (and_iff_left fun _ h => absurd h hneed).symm

theorem sanitizerPre_spec (i : Sanitizing) :
    (sanitizerPre l i { args := .null }).launched = [] ∧
      (Fits l (sanitizerPre l i { args := .null }) ↔ (i.skipSanitizer ∨ ¬ i.isSink →
        i.memInfo ≠ 0 → Expands l i.copies → ¬ i.dbi → Holds l i.copies)) := by
  unfold sanitizerPre
  dsimp only
  have hexpanded := expanded_expandArgs (l := l) i.memInfo i.copies
    (State.setMemInfo i.memInfo { args := ArgsData.null })
  generalize expandArgs l i.memInfo i.copies _ = r at hexpanded ⊢
  obtain ⟨offset, hstate⟩ := hexpanded.state
  have hlaunched : r.2.2.launched = [] := by
    rw [hstate]
    rfl
  split_ifs with hsink hnull hok hdbi
  · refine ⟨rfl, iff_of_true (.inl rfl) fun h => ?_⟩
    obtain ⟨hskip, hsink⟩ := (Bool.and_eq_true _ _).mp hsink
    rw [Bool.not_eq_true'] at hskip
    rcases h with h | h
    · cases h.symm.trans hskip
    · exact absurd hsink h
  · exact ⟨rfl, iff_of_true (.inl rfl) fun _ h => absurd hnull h⟩
  · exact ⟨hlaunched, iff_of_true
      (.inr ((hexpanded.good_iff hok hnull rfl rfl .dbi).mpr fun h => (by cases h)))
      fun _ _ _ h => absurd hdbi h⟩
  · have hskip : i.skipSanitizer = true ∨ ¬ i.isSink = true := by
      rw [Bool.and_eq_true, Bool.not_eq_true'] at hsink
      cases hskip : i.skipSanitizer with
      | true => exact .inl rfl
      | false => exact .inr fun h => hsink ⟨hskip, h⟩
    have hhandle : r.2.2.handle = .application := by
      rw [hstate]
      rfl
    have hargs : r.2.1 ≠ .null := by
      obtain ⟨bytes, himage, -⟩ := hexpanded.image hok
      rw [himage]
      exact fun h => (by cases h)
    have hgood := hexpanded.good_iff hok hnull rfl rfl r.2.2.handle
    refine ⟨hlaunched, ?_⟩
    rw [imp_iff_right hskip, imp_iff_right hnull, imp_iff_right (hexpanded.ok.mp hok),
      imp_iff_right hdbi]
    exact (or_iff_right hargs).trans (hgood.trans (imp_iff_right hhandle))
  · refine ⟨hlaunched, iff_of_true (.inl ?_) fun _ _ h => absurd (hexpanded.ok.mpr h) hok⟩
    rw [hstate]
    rfl

theorem good_iff_paired : (∀ x ∈ call l, Good l x) ↔ Paired l := by
  have hstart : Fits l { args := .null } := .inl rfl
  have hnone : ∀ x ∈ ({ args := .null } : HookState).launched, Good l x :=
    fun x hx => by cases hx
  rw [good_call_iff_pre]
  unfold pre isNeedRunOriginLaunch Paired
  cases l.hasLaunchCtx with
  | false => exact iff_of_true ⟨hnone, fun _ _ => hstart⟩ fun h => absurd h Bool.false_ne_true
  | true =>
    rw [Bool.not_true, if_neg Bool.false_ne_true, imp_iff_right rfl]
    cases l.mode with
    | profiling p =>
      dsimp only
      split_ifs with hsimulator
      · exact iff_of_true ⟨hnone, fun _ _ => hstart⟩ fun h => absurd hsimulator h
      · rw [imp_iff_right hsimulator, profPreForInstrProf, good_profPre_iff, good_timeline_iff,
          good_pcSampling_iff, fits_profPre_iff p (fits_timeline p (fits_pcSampling p hstart)),
          and_iff_right hnone, Bool.false_or]
    | sanitizing i =>
      dsimp only
      obtain ⟨hlaunched, hfits⟩ := sanitizerPre_spec (l := l) i
      rw [hlaunched, hfits]
      refine (and_iff_right fun x hx => by cases hx).trans ?_
      exact forall_congr' fun _ => imp_iff_right rfl

end
end AclrtHook

/-! ## Both hooks -/

/-- Whatever the steps of a launch answer, every launch that the hooks issue has the arguments
for its handle exactly when the steps are paired. -/
theorem launches_good_iff (handleLaunch : HandleHook.Launch) (aclrtLaunch : AclrtHook.Launch) :
    ((∀ x ∈ HandleHook.call handleLaunch, HandleHook.Good handleLaunch x) ↔
        HandleHook.Paired handleLaunch) ∧
      ((∀ x ∈ AclrtHook.call aclrtLaunch, AclrtHook.Good aclrtLaunch x) ↔
        AclrtHook.Paired aclrtLaunch) :=
  ⟨HandleHook.good_iff_paired, AclrtHook.good_iff_paired⟩

/-- One pointer as the argument, and a timeline that is ready to be recorded. -/
def timelineLaunch : HandleHook.Launch where
  arguments := some ⟨{ args := some (List.replicate 8 1), argsSize := 8 }, by
    rintro args ⟨⟩
    rfl⟩
  mode := .profiling { timeline := some { memInfo := 0x1000, dbi := .replaced } }

/-- The stub of the timeline is launched with the application's arguments. -/
theorem timelineLaunch_not_good :
    ¬ ∀ x ∈ HandleHook.call timelineLaunch, HandleHook.Good timelineLaunch x := by
  intro h
  have hmem : ⟨.dbi, timelineLaunch.own, 0x1000, 8, 0x1000⟩ ∈ HandleHook.call timelineLaunch := by
    decide
  rcases h _ hmem with hcarries | ⟨hhandle, -⟩
  · exact HandleHook.not_carries_own rfl hcarries
  · cases hhandle

end Msopcom.InstrumentedLaunch
