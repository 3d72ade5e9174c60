import Msopcom.KernelReplacement

set_option autoImplicit false

/-!
# The kernel-name filter of the sanitizer

The configuration of a device names the kernels to be checked. It is cached for the process, and
every call for it overwrites what the calling thread knows of the dynamic instrumentation. Launches
of other threads do not touch that, so that a launch is one step here.
-/
namespace Msopcom.KernelFilter
open KernelReplacement Runs

/-! ## The configuration -/

structure SanitizerConfig where
  pluginPath : String := ""
  kernelName : String := ""
  deriving DecidableEq, Repr

/-- The part of the thread's `DBITaskConfig` that decides whether a launch is instrumented. -/
structure DBITaskConfig where
  enabled : Bool := false
  pluginPath : String := ""
  matcher : Option Config := none
  deriving DecidableEq, Repr

def DBITaskConfig.init (pluginPath : String) (config : Config) : DBITaskConfig where
  enabled := true
  pluginPath := pluginPath
  matcher := some config

def DBITaskConfig.isEnabled (c : DBITaskConfig) (launchId : UInt64) (kernelName : String) : Bool :=
  c.enabled && c.matcher.any fun matcher => matcher.match launchId kernelName

inductive Hook
  | aclrtLaunchKernelImpl
  | aclrtLaunchKernelWithHostArgsImpl
  | rtKernelLaunchWithFlagV2
  | rtKernelLaunchWithHandleV2
  deriving DecidableEq, Repr

/-- A launch, and how the calls in its hook end. `msg` is the configuration that the device sends if
it is asked for one, `none` where the message has another size. `configReads` are the calls of
`GetConfig` on the way of a launch that is not skipped. -/
structure Launch where
  hook : Hook
  thread : ℕ
  device : ℕ
  launchId : UInt64 := 0
  kernelName : String
  msg : Option SanitizerConfig := none
  configReads : ℕ := 0
  isSink : Bool := false
  memInfo : Bool := true
  expandArgs : Bool := true
  isPlatformSupportDBI : Bool := true
  hasStaticStub : Bool := false
  taskRun : Bool := true

/-- What became of a launch. `decision` is what the hook takes from the filter, whatever else keeps
the launch from being instrumented. -/
structure Launched where
  device : ℕ
  kernelName : String
  decision : Bool
  instrumented : Bool
  deriving DecidableEq, Repr

/-- The cached configurations, the configurations of the threads, the launches so far, and which
name each device has sent. -/
structure Process where
  configMap : ℕ → Option SanitizerConfig := fun _ => none
  taskConfig : ℕ → DBITaskConfig := fun _ => {}
  launches : List Launched := []
  received : ℕ → Option String := fun _ => none

namespace Process

def setTaskConfig (thread : ℕ) (config : DBITaskConfig) (p : Process) : Process :=
  { p with taskConfig := Function.update p.taskConfig thread config }

def setConfig (device : ℕ) (config : SanitizerConfig) (p : Process) : Process :=
  { p with configMap := Function.update p.configMap device (some config) }

def noteReceived (device : ℕ) (kernelName : String) (p : Process) : Process :=
  { p with received := Function.update p.received device (some kernelName) }

/-- The filter is in the matcher only after the first call. -/
def getConfig (thread device : ℕ) (msg : Option SanitizerConfig) (p : Process) :
    Process × SanitizerConfig :=
  match p.configMap device with
  | some config => (p.setTaskConfig thread (.init config.pluginPath {}), config)
  | none =>
    match msg with
    | some config =>
      (((p.setTaskConfig thread
        (.init config.pluginPath { kernelName := config.kernelName })).setConfig device
          config).noteReceived device config.kernelName, config)
    | none => (p.setConfig device {}, {})

/-- Further calls, which find the configuration in the cache. -/
def getConfigs (thread device : ℕ) : ℕ → Process → Process
  | 0, p => p
  | n + 1, p => getConfigs thread device n (p.getConfig thread device none).1

def skipSanitizer (l : Launch) (p : Process) : Process × Bool :=
  let (p, sanitizerConfig) := p.getConfig l.thread l.device l.msg
  (p, !Config.match { kernelName := sanitizerConfig.kernelName } 0 l.kernelName)

def isEnabled (l : Launch) (p : Process) : Bool :=
  (p.taskConfig l.thread).isEnabled l.launchId l.kernelName

def runDBITask (l : Launch) (p : Process) : Bool :=
  l.isPlatformSupportDBI && p.isEnabled l && !l.hasStaticStub && l.taskRun

/-- `HijackedFuncOfAclrtLaunchKernelImpl::SanitizerPre`: a launch that is skipped goes on, and its
`__sanitizer_init` does not ask for the configuration. -/
def aclrtLaunchKernelImpl (l : Launch) (p : Process) : Process × Bool × Bool :=
  let (p, skip) := p.skipSanitizer l
  let p := if skip then p else p.getConfigs l.thread l.device l.configReads
  let instrumented :=
    if !skip && l.isSink then false
    else if !l.memInfo then false
    else if !l.expandArgs then false
    else p.runDBITask l
  (p, p.isEnabled l, instrumented)

def aclrtLaunchKernelWithHostArgsImpl (l : Launch) (p : Process) : Process × Bool × Bool :=
  let (p, skip) := p.skipSanitizer l
  if skip then (p, false, false)
  else
    let p := p.getConfigs l.thread l.device l.configReads
    let instrumented :=
      if l.isSink then false
      else if !l.memInfo then false
      else if !l.expandArgs then false
      else p.runDBITask l
    (p, p.isEnabled l, instrumented)

/-- The hooks of the runtime instrument the kernel before they ask for memory. -/
def rtKernelLaunch (l : Launch) (p : Process) : Process × Bool × Bool :=
  let (p, skip) := p.skipSanitizer l
  if skip then (p, false, false)
  else
    let instrumented := if l.isSink then false else p.runDBITask l
    (p.getConfigs l.thread l.device l.configReads, p.isEnabled l, instrumented)

def rtKernelLaunchWithFlagV2 (l : Launch) (p : Process) : Process × Bool × Bool :=
  p.rtKernelLaunch l

def rtKernelLaunchWithHandleV2 (l : Launch) (p : Process) : Process × Bool × Bool :=
  p.rtKernelLaunch l

def sanitizerPre (l : Launch) (p : Process) : Process × Bool × Bool :=
  match l.hook with
  | .aclrtLaunchKernelImpl => p.aclrtLaunchKernelImpl l
  | .aclrtLaunchKernelWithHostArgsImpl => p.aclrtLaunchKernelWithHostArgsImpl l
  | .rtKernelLaunchWithFlagV2 => p.rtKernelLaunchWithFlagV2 l
  | .rtKernelLaunchWithHandleV2 => p.rtKernelLaunchWithHandleV2 l

def noteLaunch (launched : Launched) (p : Process) : Process :=
  { p with launches := p.launches ++ [launched] }

def launch (l : Launch) (p : Process) : Process :=
  let (p, decision, instrumented) := p.sanitizerPre l
  p.noteLaunch { device := l.device, kernelName := l.kernelName, decision, instrumented }

end Process

/-- `GetConfig` is called by every request to the tool as well. -/
inductive Op
  | getConfig (thread device : ℕ) (msg : Option SanitizerConfig)
  | launch (l : Launch)

def step (p : Process) : Op → Process
  | .getConfig thread device msg => (p.getConfig thread device msg).1
  | .launch l => p.launch l

/-! ## The filter -/

/-- The name contains the filter, or the filter is empty. -/
def Matches (filter kernelName : String) : Prop :=
  filter = "" ∨ filter.toList <:+: kernelName.toList

instance (filter kernelName : String) : Decidable (Matches filter kernelName) :=
  inferInstanceAs (Decidable (_ ∨ _))

/-- Only kernels that the filter of their device matches are instrumented, and one kernel gets one
decision under one filter. -/
structure Respected (p : Process) : Prop where
  only : ∀ l ∈ p.launches, ∀ filter, p.received l.device = some filter → l.instrumented →
    Matches filter l.kernelName
  same : ∀ l ∈ p.launches, ∀ l' ∈ p.launches, ∀ filter, p.received l.device = some filter →
    p.received l'.device = some filter → l.kernelName = l'.kernelName → l.decision = l'.decision

/-- `aclrtLaunchKernelImpl` launches a kernel that the filter does not match only as long as its
device has not sent the filter. -/
def Checked (p : Process) : Op → Prop
  | .getConfig .. => True
  | .launch l => l.hook = .aclrtLaunchKernelImpl →
      ∀ filter ∈ p.received l.device, Matches filter l.kernelName

instance (p : Process) : (op : Op) → Decidable (Checked p op)
  | .getConfig .. => inferInstanceAs (Decidable True)
  | .launch l =>
    inferInstanceAs (Decidable (l.hook = .aclrtLaunchKernelImpl →
      ∀ filter ∈ p.received l.device, Matches filter l.kernelName))

/-! ## What every step keeps -/

theorem match_default (launchId : UInt64) (kernelName : String) :
    Config.match {} launchId kernelName = true := by
  simp [Config.match, Config.isMatchAll]

theorem match_kernelName (filter : String) (launchId : UInt64) (kernelName : String) :
    Config.match { kernelName := filter } launchId kernelName =
      decide (Matches filter kernelName) := by
  by_cases hempty : filter = ""
  · simp [Config.match, Config.isMatchAll, Matches, hempty]
  · simp [Config.match, Config.isMatchAll, Matches, hempty]

/-- A device that has sent its filter has it in the cache, and one with launches has an entry. -/
structure Inv (p : Process) : Prop where
  config : ∀ device filter, p.received device = some filter →
    ∃ config, p.configMap device = some config ∧ config.kernelName = filter
  cached : ∀ l ∈ p.launches, (p.configMap l.device).isSome
  decision : ∀ l ∈ p.launches, ∀ filter, p.received l.device = some filter →
    l.decision = decide (Matches filter l.kernelName) ∧ (l.instrumented → l.decision)

theorem Inv.respected {p : Process} (h : Inv p) : Respected p where
  only l hl filter hfilter hinstrumented := by
    obtain ⟨hdecision, honly⟩ := h.decision l hl filter hfilter
    have htrue : l.decision = true := honly hinstrumented
    rw [htrue] at hdecision
    exact of_decide_eq_true hdecision.symm
  same l hl l' hl' filter hfilter hfilter' hname := by
    rw [(h.decision l hl filter hfilter).1, (h.decision l' hl' filter hfilter').1, hname]

namespace Process
variable {p : Process} {thread device : ℕ} {msg : Option SanitizerConfig} {config : SanitizerConfig}

theorem getConfig_cached (h : p.configMap device = some config) :
    p.getConfig thread device msg =
      (p.setTaskConfig thread (.init config.pluginPath {}), config) := by
  simp [getConfig, h]

theorem inv_setTaskConfig (h : Inv p) (taskConfig : DBITaskConfig) :
    Inv (p.setTaskConfig thread taskConfig) where
  config := h.config
  cached := h.cached
  decision := h.decision

theorem received_of_uncached (h : Inv p) (hnone : p.configMap device = none) :
    p.received device = none := by
  cases hreceived : p.received device with
  | none => rfl
  | some filter =>
    obtain ⟨config, hconfig, -⟩ := h.config device filter hreceived
    rw [hnone] at hconfig
    cases hconfig

/-- An entry for a device that has none yet, and so no launches. -/
theorem inv_setConfig (h : Inv p) (hnone : p.configMap device = none) (config : SanitizerConfig)
    {received : ℕ → Option String}
    (hsame : ∀ d ≠ device, received d = p.received d)
    (hdevice : ∀ filter, received device = some filter → config.kernelName = filter) :
    Inv { p.setConfig device config with received := received } where
  config d filter hfilter := by
    by_cases hd : d = device
    · subst hd
      exact ⟨config, by simp [setConfig], hdevice filter hfilter⟩
    · obtain ⟨entry, hentry, hname⟩ := h.config d filter (hsame d hd ▸ hfilter)
      exact ⟨entry, by simpa [setConfig, hd] using hentry, hname⟩
  cached l hl := by
    by_cases hd : l.device = device
    · simp [setConfig, hd]
    · simpa [setConfig, hd] using h.cached l hl
  decision l hl filter hfilter := by
    have hd : l.device ≠ device := by
      intro hd
      have hsome := h.cached l hl
      rw [hd, hnone] at hsome
      cases hsome
    exact h.decision l hl filter (hsame l.device hd ▸ hfilter)

theorem inv_getConfig (h : Inv p) : Inv (p.getConfig thread device msg).1 := by
  unfold getConfig
  split
  case h_1 config _ => exact inv_setTaskConfig h _
  case h_2 hnone =>
    have hreceived := received_of_uncached h hnone
    split
    case h_1 config =>
      refine inv_setConfig (inv_setTaskConfig h _) hnone config ?_ ?_
      · intro d hd
        exact Function.update_of_ne hd _ _
      · simp [setConfig, setTaskConfig]
    case h_2 =>
      refine inv_setConfig h hnone {} (fun _ _ => rfl) ?_
      simp [hreceived]

@[simp] theorem getConfig_launches :
    (p.getConfig thread device msg).1.launches = p.launches := by
  unfold getConfig
  split
  · rfl
  · split <;> rfl

theorem getConfig_isSome : ((p.getConfig thread device msg).1.configMap device).isSome := by
  unfold getConfig
  split
  case h_1 config hconfig => simp [setTaskConfig, hconfig]
  case h_2 =>
    split
    · simp [noteReceived, setConfig]
    · simp [setConfig]

/-- What a launch finds behind its call of `GetConfig`, for a device that has sent its filter. -/
theorem skipSanitizer_spec (h : Inv p) (l : Launch) {filter : String}
    (hfilter : (p.skipSanitizer l).1.received l.device = some filter) :
    (p.skipSanitizer l).2 = !decide (Matches filter l.kernelName) ∧
      (p.skipSanitizer l).1.isEnabled l =
        ((p.received l.device).isSome || decide (Matches filter l.kernelName)) := by
  have hinv : Inv (p.getConfig l.thread l.device l.msg).1 := inv_getConfig h
  simp only [skipSanitizer, match_kernelName] at hfilter ⊢
  cases hconfig : p.configMap l.device with
  | some config =>
    rw [getConfig_cached hconfig] at hfilter ⊢
    obtain ⟨entry, hentry, hname⟩ := h.config l.device filter hfilter
    obtain rfl : config = entry := by simpa [hconfig] using hentry
    have hreceived : p.received l.device = some filter := hfilter
    simp [hname, hreceived, isEnabled, setTaskConfig, DBITaskConfig.isEnabled, DBITaskConfig.init,
      match_default]
  | none =>
    have hreceived := received_of_uncached h hconfig
    cases hmsg : l.msg with
    | none => simp [getConfig, hconfig, hmsg, setConfig, hreceived] at hfilter
    | some config =>
      have hname : config.kernelName = filter := by
        simpa [getConfig, hconfig, hmsg, noteReceived] using hfilter
      simp [getConfig, hconfig, hname, hreceived, isEnabled, setTaskConfig, setConfig, noteReceived,
        DBITaskConfig.isEnabled, DBITaskConfig.init, match_kernelName]

/-- Further calls for the configuration change the thread's matcher to one that matches all. -/
theorem getConfigs_spec (h : Inv p) (hsome : (p.configMap device).isSome) (n : ℕ) :
    Inv (p.getConfigs thread device n) ∧
      (p.getConfigs thread device n).launches = p.launches ∧
      (p.getConfigs thread device n).received = p.received ∧
      ((p.getConfigs thread device n).configMap device).isSome ∧
      ∀ l : Launch, l.thread = thread → p.isEnabled l = true →
        (p.getConfigs thread device n).isEnabled l = true := by
  induction n generalizing p with
  | zero => exact ⟨h, rfl, rfl, hsome, fun _ _ henabled => henabled⟩
  | succ n ih =>
    obtain ⟨config, hconfig⟩ := Option.isSome_iff_exists.mp hsome
    have hnext : (p.getConfig thread device none).1 =
        p.setTaskConfig thread (.init config.pluginPath {}) := by
      rw [getConfig_cached hconfig]
    unfold getConfigs
    rw [hnext]
    obtain ⟨hinv, hlaunches, hreceived, hcached, henabled⟩ :=
      ih (inv_setTaskConfig h _) (by simp [setTaskConfig, hconfig])
    refine ⟨hinv, hlaunches, hreceived, hcached, fun l hl _ => henabled l hl ?_⟩
    simp [isEnabled, setTaskConfig, hl, DBITaskConfig.isEnabled, DBITaskConfig.init, match_default]

theorem received_skipSanitizer (h : Inv p) (l : Launch) {filter : String}
    (hfilter : p.received l.device = some filter) :
    (p.skipSanitizer l).1.received l.device = some filter := by
  obtain ⟨config, hconfig, -⟩ := h.config l.device filter hfilter
  simp only [skipSanitizer, getConfig_cached hconfig]
  exact hfilter

theorem isEnabled_of_runDBITask {l : Launch} (h : p.runDBITask l = true) :
    p.isEnabled l = true := by
  simp only [runDBITask, Bool.and_eq_true] at h
  exact h.1.1.2

/-- What a hook leaves behind, with what it takes from the filter of its device. -/
structure Hooked (p : Process) (l : Launch) (res : Process × Bool × Bool) : Prop where
  inv : Inv res.1
  launches : res.1.launches = p.launches
  cached : (res.1.configMap l.device).isSome
  decision : ∀ filter, res.1.received l.device = some filter →
    res.2.1 = decide (Matches filter l.kernelName) ∧ (res.2.2 = true → res.2.1 = true)

variable {l : Launch}

/-- A launch that is skipped, and that is refused if its device has sent its filter. -/
theorem hooked_skipped (h : Inv p) (hskip : (p.skipSanitizer l).2 = true)
    {decision instrumented : Bool}
    (hrefused : (p.skipSanitizer l).1.isEnabled l = false → decision = false)
    (hok : ∀ filter ∈ p.received l.device, decision = true → Matches filter l.kernelName)
    (honly : instrumented = true → decision = true) :
    Hooked p l ((p.skipSanitizer l).1, decision, instrumented) where
  inv := inv_getConfig h
  launches := getConfig_launches
  cached := getConfig_isSome
  decision filter hfilter := by
    obtain ⟨hmatch, henabled⟩ := skipSanitizer_spec h l hfilter
    have hnot : ¬ Matches filter l.kernelName := by simpa [hskip] using hmatch
    refine ⟨?_, honly⟩
    cases hreceived : p.received l.device with
    | none =>
      rw [hreceived] at henabled
      simpa [hnot] using hrefused (by simpa [hnot] using henabled)
    | some filter' =>
      have heq : filter' = filter := by
        simpa [received_skipSanitizer h l hreceived] using hfilter
      subst heq
      have hfalse : ¬ decision = true := fun htrue => hnot (hok filter' hreceived htrue)
      simpa [hnot] using hfalse

/-- A launch that is not skipped: its kernel matches, and further calls for the configuration do not
change that. -/
theorem hooked_checked (h : Inv p) (hskip : (p.skipSanitizer l).2 = false) {n : ℕ}
    {decision instrumented : Bool}
    (henabled : (p.skipSanitizer l).1.isEnabled l = true → decision = true)
    (honly : instrumented = true → decision = true) :
    Hooked p l ((p.skipSanitizer l).1.getConfigs l.thread l.device n, decision, instrumented) := by
  have hinv : Inv (p.skipSanitizer l).1 := inv_getConfig h
  have hcached : ((p.skipSanitizer l).1.configMap l.device).isSome := getConfig_isSome
  obtain ⟨hinv', hlaunches, hreceived, hcached', -⟩ :=
    @getConfigs_spec _ l.thread l.device hinv hcached n
  refine ⟨hinv', hlaunches.trans getConfig_launches, hcached', fun filter hfilter => ⟨?_, honly⟩⟩
  rw [hreceived] at hfilter
  obtain ⟨hmatch, hfirst⟩ := skipSanitizer_spec h l hfilter
  have hmatches : Matches filter l.kernelName := by simpa [hskip] using hmatch
  simpa [hmatches] using henabled (by simpa [hmatches] using hfirst)

theorem isEnabled_getConfigs (h : Inv p) (henabled : (p.skipSanitizer l).1.isEnabled l = true) :
    ((p.skipSanitizer l).1.getConfigs l.thread l.device l.configReads).isEnabled l = true := by
  obtain ⟨-, -, -, -, hkeep⟩ :=
    @getConfigs_spec _ l.thread l.device (inv_getConfig h) getConfig_isSome l.configReads
  exact hkeep l rfl henabled

/-- The hook of a launch that is skipped leaves the configuration as it found it. -/
theorem aclrtLaunchKernelImpl_skipped (hskip : (p.skipSanitizer l).2 = true) :
    p.aclrtLaunchKernelImpl l =
      ((p.skipSanitizer l).1, (p.skipSanitizer l).1.isEnabled l,
        l.memInfo && l.expandArgs && (p.skipSanitizer l).1.runDBITask l) := by
  have hpair : p.skipSanitizer l = ((p.skipSanitizer l).1, true) := Prod.ext rfl hskip
  rw [aclrtLaunchKernelImpl, hpair]
  cases l.memInfo <;> cases l.expandArgs <;> simp

theorem aclrtLaunchKernelImpl_checked (hskip : (p.skipSanitizer l).2 = false) :
    p.aclrtLaunchKernelImpl l =
      let p' := (p.skipSanitizer l).1.getConfigs l.thread l.device l.configReads
      (p', p'.isEnabled l, !l.isSink && l.memInfo && l.expandArgs && p'.runDBITask l) := by
  have hpair : p.skipSanitizer l = ((p.skipSanitizer l).1, false) := Prod.ext rfl hskip
  rw [aclrtLaunchKernelImpl, hpair]
  cases l.isSink <;> cases l.memInfo <;> cases l.expandArgs <;> simp

theorem hooked_aclrtLaunchKernelImpl (h : Inv p)
    (hok : ∀ filter ∈ p.received l.device, Matches filter l.kernelName) :
    Hooked p l (p.aclrtLaunchKernelImpl l) := by
  cases hskip : (p.skipSanitizer l).2 with
  | true =>
    rw [aclrtLaunchKernelImpl_skipped hskip]
    refine hooked_skipped h hskip id (fun filter hfilter _ => hok filter hfilter) fun hrun => ?_
    rw [Bool.and_eq_true] at hrun
    exact isEnabled_of_runDBITask hrun.2
  | false =>
    rw [aclrtLaunchKernelImpl_checked hskip]
    refine hooked_checked h hskip (isEnabled_getConfigs h) fun hrun => ?_
    rw [Bool.and_eq_true] at hrun
    exact isEnabled_of_runDBITask hrun.2

/-- A hook that returns at a skipped launch. -/
theorem hooked_returned (h : Inv p) (hskip : (p.skipSanitizer l).2 = true) :
    Hooked p l ((p.skipSanitizer l).1, false, false) :=
  hooked_skipped h hskip (fun _ => rfl) (fun _ _ hfalse => nomatch hfalse) id

theorem hooked_aclrtLaunchKernelWithHostArgsImpl (h : Inv p) :
    Hooked p l (p.aclrtLaunchKernelWithHostArgsImpl l) := by
  cases hskip : (p.skipSanitizer l).2 with
  | true =>
    have hpair : p.skipSanitizer l = ((p.skipSanitizer l).1, true) := Prod.ext rfl hskip
    rw [aclrtLaunchKernelWithHostArgsImpl, hpair]
    exact hooked_returned h hskip
  | false =>
    have himpl : p.aclrtLaunchKernelWithHostArgsImpl l = p.aclrtLaunchKernelImpl l := by
      have hpair : p.skipSanitizer l = ((p.skipSanitizer l).1, false) := Prod.ext rfl hskip
      rw [aclrtLaunchKernelWithHostArgsImpl, aclrtLaunchKernelImpl, hpair]
      rfl
    rw [himpl, aclrtLaunchKernelImpl_checked hskip]
    refine hooked_checked h hskip (isEnabled_getConfigs h) fun hrun => ?_
    rw [Bool.and_eq_true] at hrun
    exact isEnabled_of_runDBITask hrun.2

theorem hooked_rtKernelLaunch (h : Inv p) : Hooked p l (p.rtKernelLaunch l) := by
  cases hskip : (p.skipSanitizer l).2 with
  | true =>
    have hpair : p.skipSanitizer l = ((p.skipSanitizer l).1, true) := Prod.ext rfl hskip
    rw [rtKernelLaunch, hpair]
    exact hooked_returned h hskip
  | false =>
    have hpair : p.skipSanitizer l = ((p.skipSanitizer l).1, false) := Prod.ext rfl hskip
    rw [rtKernelLaunch, hpair]
    refine hooked_checked h hskip id fun hrun => ?_
    split at hrun
    · cases hrun
    · exact isEnabled_of_runDBITask hrun

theorem hooked_sanitizerPre (h : Inv p) (hok : Checked p (.launch l)) :
    Hooked p l (p.sanitizerPre l) := by
  unfold sanitizerPre
  split
  case h_1 hhook => exact hooked_aclrtLaunchKernelImpl h (hok hhook)
  case h_2 => exact hooked_aclrtLaunchKernelWithHostArgsImpl h
  case h_3 => exact hooked_rtKernelLaunch h
  case h_4 => exact hooked_rtKernelLaunch h

theorem inv_launch (h : Inv p) (hok : Checked p (.launch l)) : Inv (p.launch l) := by
  have hooked : Hooked p l (p.sanitizerPre l) := hooked_sanitizerPre h hok
  have hmem : ∀ entry ∈ (p.launch l).launches, entry ∈ (p.sanitizerPre l).1.launches ∨
      entry = { device := l.device, kernelName := l.kernelName,
                decision := (p.sanitizerPre l).2.1, instrumented := (p.sanitizerPre l).2.2 } := by
    intro entry hentry
    simpa [launch, noteLaunch] using hentry
  refine ⟨hooked.inv.config, fun entry hentry => ?_, fun entry hentry => ?_⟩
  · obtain hold | rfl := hmem entry hentry
    · exact hooked.inv.cached entry hold
    · exact hooked.cached
  · obtain hold | rfl := hmem entry hentry
    · exact hooked.inv.decision entry hold
    · exact hooked.decision

end Process

theorem inv_step {p : Process} {op : Op} (h : Inv p) (hok : Checked p op) : Inv (step p op) := by
  cases op with
  | getConfig thread device msg => exact Process.inv_getConfig h
  | launch l => exact Process.inv_launch h hok

theorem inv_initial : Inv {} where
  config _ _ hfilter := nomatch hfilter
  cached _ hl := nomatch hl
  decision _ hl := nomatch hl

/-- In a run whose launches are all checked, every state respects the filters received so far. -/
theorem respected_of_checked (ops : List Op) (hrun : Guarded step Checked {} ops) (n : ℕ) :
    Respected ((ops.take n).foldl step {}) :=
  ((hrun.take n).invariant (fun _ _ h hop => inv_step h hop) inv_initial).respected

/-- Kernels that the filter matches go through every hook, and those it excludes through the hooks
that return. -/
def addThroughHooks : List Op :=
  [.launch { hook := .aclrtLaunchKernelImpl, thread := 0, device := 0, kernelName := "add_f16"
             msg := some { kernelName := "add" } },
    .launch { hook := .aclrtLaunchKernelImpl, thread := 1, device := 0, kernelName := "add_f16" },
    .launch { hook := .aclrtLaunchKernelWithHostArgsImpl, thread := 0, device := 0
              kernelName := "mul" },
    .getConfig 0 0 none,
    .launch { hook := .rtKernelLaunchWithFlagV2, thread := 0, device := 0, kernelName := "mul" },
    .launch { hook := .rtKernelLaunchWithHandleV2, thread := 0, device := 0
              kernelName := "add_f16" }]

theorem respected_addThroughHooks : Respected ((addThroughHooks.take 6).foldl step {}) :=
  respected_of_checked addThroughHooks (by decide +kernel) 6

/-- The kernel that the filter excludes is not instrumented at its first launch, and is at its
second. -/
def mulTwice : List Op :=
  [.launch { hook := .aclrtLaunchKernelImpl, thread := 0, device := 0, kernelName := "mul"
             msg := some { kernelName := "add" } },
    .launch { hook := .aclrtLaunchKernelImpl, thread := 0, device := 0, kernelName := "mul" }]

theorem not_respected_mulTwice : ¬ Respected (mulTwice.foldl step {}) := by
  intro h
  have hsecond : Matches "add" "mul" :=
    h.only { device := 0, kernelName := "mul", decision := true, instrumented := true }
      (by decide +kernel) "add" (by rfl) rfl
  exact absurd hsecond (by decide)

end Msopcom.KernelFilter
