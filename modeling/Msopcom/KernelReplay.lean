import Mathlib.Tactic.Convert
import Mathlib.Tactic.SplitIfs
import Msopcom.Checkpoint

set_option autoImplicit false

/-!
# Launches of a profiled kernel

What a launch with `rtKernelLaunchWithHandleV2` does to the memory of the application in
kernel-replay mode, when every call to the runtime succeeds. The kernel is neither MC2 nor
LCCL, and there is an output path.
-/
namespace Msopcom

inductive ProfDBIType
  | asIs
  | operandRecord
  | memoryChart
  | instrProfStart
  | instrProfEnd
  | bbCount
  deriving DecidableEq, Repr

/-- `DBI_FLAG_OPERAND_RECORD` and its siblings. -/
def ProfDBIType.dbiFlag : ProfDBIType → UInt32
  | .asIs => (1 : UInt32) <<< 0
  | .operandRecord => (1 : UInt32) <<< 1
  | .memoryChart => (1 : UInt32) <<< 2
  | .instrProfStart => (1 : UInt32) <<< 3
  | .instrProfEnd => (1 : UInt32) <<< 4
  | .bbCount => (1 : UInt32) <<< 5

namespace KernelReplay

def pmuEventMaxNum : Nat := 8
def eventMaxNum : Nat := 96
def pmuEventMaxNumA5 : Nat := 10
def eventMaxNumA5 : Nat := 60

end KernelReplay

structure MessageOfProfConfig where
  dbiFlag : UInt32 := 0
  profWarmUpTimes : UInt16 := 0
  aicPmu : Vector UInt16 KernelReplay.eventMaxNum := Vector.replicate _ 0
  aivPmu : Vector UInt16 KernelReplay.eventMaxNum := Vector.replicate _ 0
  l2CachePmu : Vector UInt16 KernelReplay.eventMaxNum := Vector.replicate _ 0
  deriving DecidableEq, Repr

inductive ChipSeries
  | ascend910B
  | ascend910_93
  | ascend950
  | other
  deriving DecidableEq, Repr

namespace KernelReplay

/-- Kernels are told apart by how they are instrumented. -/
abbrev DeviceOp := Checkpoint.Op ProfDBIType

/-- `dbi` says which instrumentations of the kernel succeed, and `receiveSignal` before
which rounds a signal has been received. -/
structure Launch where
  config : MessageOfProfConfig := {}
  chip : ChipSeries := .ascend910B
  hasArgsInfo : Bool := true
  hasSimtSymbol : Bool := false
  dbi : ProfDBIType → Bool := fun _ => true
  receiveSignal : Nat → Bool := fun _ => false

namespace Launch
variable (l : Launch)

def flagged (mode : ProfDBIType) : Bool := l.config.dbiFlag &&& mode.dbiFlag ≠ 0

def isPCSamplingEnabled : Bool := l.flagged .instrProfStart
def isTimelineEnabled : Bool := l.flagged .instrProfEnd
def isBBCountNeedGen : Bool := l.flagged .bbCount
def isMemoryChartNeedGen : Bool := l.flagged .memoryChart
def isOperandRecordNeedGen : Bool := l.flagged .operandRecord && l.chip = .ascend950

def getWarmUpTimes : Nat :=
  if l.config.profWarmUpTimes ≤ 500 then l.config.profWarmUpTimes.toNat else 500

def isPmuEventEmpty (replayCount : Nat) : Bool :=
  let pmuEventMaxNum := if l.chip = .ascend950 then pmuEventMaxNumA5 else pmuEventMaxNum
  let eventMaxNum := if l.chip = .ascend950 then eventMaxNumA5 else eventMaxNum
  let nextPmuId := replayCount * pmuEventMaxNum
  eventMaxNum ≤ nextPmuId ||
    (l.config.aicPmu[nextPmuId]?.getD 0 = 0 && l.config.aivPmu[nextPmuId]?.getD 0 = 0)

def supportProfL2CacheEvict : Bool :=
  (l.chip = .ascend910B || l.chip = .ascend910_93) &&
    (l.config.aicPmu[0]?.getD 0 ≠ 0 && l.config.aivPmu[0]?.getD 0 ≠ 0 &&
      l.config.l2CachePmu[0]?.getD 0 ≠ 0)

end Launch

def warmUp (hdl : ProfDBIType) (warmUpTimes : Nat) : List DeviceOp :=
  List.replicate warmUpTimes (.act hdl)

/-- The memory is restored only behind a launch that failed. -/
def kernelLaunchForInstrProf (l : Launch) (hdl : ProfDBIType) : List DeviceOp :=
  (if l.isPCSamplingEnabled then warmUp hdl 20 else []) ++ [.act hdl]

def instrProfData (l : Launch) (hdl : ProfDBIType) : List DeviceOp :=
  .save :: kernelLaunchForInstrProf l hdl

def replayOnce (l : Launch) (replayCount : Nat) : List DeviceOp :=
  if l.isPmuEventEmpty replayCount && replayCount ≠ 0 then [] else [.restore, .act .asIs]

def getReplayTimes : Nat := eventMaxNum / pmuEventMaxNum

/-- The rounds from `replayCount` on, of which at most `rounds` are left. -/
def replayRounds (l : Launch) : Nat → Nat → List DeviceOp
  | 0, _ => []
  | rounds + 1, replayCount =>
    if l.receiveSignal replayCount then []
    else replayOnce l replayCount ++ replayRounds l rounds (replayCount + 1)

def kernelReplay (l : Launch) : List DeviceOp :=
  warmUp .asIs l.getWarmUpTimes ++ (if l.supportProfL2CacheEvict then replayOnce l 0 else []) ++
    replayRounds l getReplayTimes 0 ++ [.restore]

def profData (l : Launch) : List DeviceOp := .save :: kernelReplay l

/-- The handle that the member has behind the instrumentation. -/
def prepareDbiTaskForInstrProf (l : Launch) (mode : ProfDBIType) : ProfDBIType :=
  if l.dbi mode then mode else .asIs

def pcSampling (l : Launch) : List DeviceOp × ProfDBIType :=
  if l.isPCSamplingEnabled && l.hasSimtSymbol then
    let hdl := prepareDbiTaskForInstrProf l .instrProfStart
    (if l.dbi .instrProfStart then instrProfData l hdl else [], hdl)
  else ([], .asIs)

def timeline (l : Launch) (hdl : ProfDBIType) : List DeviceOp × ProfDBIType :=
  if l.isTimelineEnabled then
    let hdl := prepareDbiTaskForInstrProf l .instrProfEnd
    (instrProfData l hdl, hdl)
  else ([], hdl)

def profPre (l : Launch) (hdl : ProfDBIType) : List DeviceOp × ProfDBIType :=
  (profData l, if l.isBBCountNeedGen then prepareDbiTaskForInstrProf l .bbCount else hdl)

def profPreForInstrProf (l : Launch) : List DeviceOp × ProfDBIType :=
  let pcSampling := pcSampling l
  let timeline := timeline l pcSampling.2
  let profPre := profPre l timeline.2
  (pcSampling.1 ++ timeline.1 ++ profPre.1, profPre.2)

/-- The launch behind an instrumentation that succeeds. -/
def instrLaunch (l : Launch) (mode : ProfDBIType) : List DeviceOp :=
  if l.dbi mode then [.act (prepareDbiTaskForInstrProf l mode)] else []

def profPost (l : Launch) : List DeviceOp :=
  (if l.isMemoryChartNeedGen then instrLaunch l .memoryChart else []) ++
    (if l.isOperandRecordNeedGen then instrLaunch l .operandRecord else [])

def call (l : Launch) : List DeviceOp :=
  if l.hasArgsInfo then
    (profPreForInstrProf l).1 ++ [.act (profPreForInstrProf l).2] ++ profPost l
  else [.act .asIs]

/-! ## Launches that nothing undoes -/

/-- No step launches the kernel but the replay and the launch of the application. -/
structure ReplaysOnly (l : Launch) : Prop where
  pcSampling : ¬ (l.isPCSamplingEnabled ∧ l.hasSimtSymbol ∧ l.dbi .instrProfStart)
  timeline : ¬ l.isTimelineEnabled
  memoryChart : ¬ (l.isMemoryChartNeedGen ∧ l.dbi .memoryChart)
  operandRecord : ¬ (l.isOperandRecordNeedGen ∧ l.dbi .operandRecord)

def instrProfLaunches (l : Launch) : Nat := if l.isPCSamplingEnabled then 21 else 1

def pcSamplingLaunches (l : Launch) : Nat :=
  if l.isPCSamplingEnabled ∧ l.hasSimtSymbol ∧ l.dbi .instrProfStart then instrProfLaunches l else 0

def timelineLaunches (l : Launch) : Nat := if l.isTimelineEnabled then instrProfLaunches l else 0

def instrLaunches (l : Launch) (mode : ProfDBIType) : Nat := if l.dbi mode then 1 else 0

def profPostLaunches (l : Launch) : Nat :=
  (if l.isMemoryChartNeedGen then instrLaunches l .memoryChart else 0) +
    (if l.isOperandRecordNeedGen then instrLaunches l .operandRecord else 0)

/-- How often the kernel runs beside the replay and the launch of the application. -/
def furtherLaunches (l : Launch) : Nat :=
  if l.hasArgsInfo then pcSamplingLaunches l + timelineLaunches l + profPostLaunches l else 0

section Launches
variable {σ : Type*} {kernel : σ → σ} {l : Launch} {ops ops' : List DeviceOp} {n n' : Nat}

/-- Behind the operations the memory is that after `n` launches. -/
def Launches (kernel : σ → σ) (ops : List DeviceOp) (n : Nat) : Prop :=
  ∀ s, ∃ saved, Checkpoint.run (fun _ => kernel) ops s = some ⟨kernel^[n] s.current, saved⟩

theorem Launches.nil : Launches kernel [] 0 := fun s => ⟨s.saved, rfl⟩

theorem Launches.one (hdl : ProfDBIType) : Launches kernel [.act hdl] 1 := fun s => ⟨s.saved, rfl⟩

theorem Launches.append (h : Launches kernel ops n) (h' : Launches kernel ops' n') :
    Launches kernel (ops ++ ops') (n' + n) := by
  intro s
  obtain ⟨saved, hrun⟩ := h s
  obtain ⟨saved', hrun'⟩ := h' ⟨kernel^[n] s.current, saved⟩
  refine ⟨saved', ?_⟩
  rw [Checkpoint.run_append hrun hrun', Function.iterate_add_apply]

theorem launches_if {p : Prop} [Decidable p] (h : p → Launches kernel ops n) :
    Launches kernel (if p then ops else []) (if p then n else 0) := by
  split_ifs with hp
  · exact h hp
  · exact Launches.nil

theorem save_notMem_replayOnce (l : Launch) (replayCount : Nat) :
    .save ∉ replayOnce l replayCount := by
  unfold replayOnce
  split_ifs <;> simp

theorem save_notMem_replayRounds (l : Launch) (rounds replayCount : Nat) :
    .save ∉ replayRounds l rounds replayCount := by
  induction rounds generalizing replayCount with
  | zero => simp [replayRounds]
  | succ rounds ih =>
    unfold replayRounds
    split_ifs
    · simp
    · rw [List.mem_append, not_or]
      exact ⟨save_notMem_replayOnce l replayCount, ih (replayCount + 1)⟩

theorem launches_profData (l : Launch) : Launches kernel (profData l) 0 := by
  intro s
  refine ⟨some s.current, Checkpoint.run_bracket ?_ s⟩
  simp only [List.mem_append, not_or]
  refine ⟨⟨?_, ?_⟩, save_notMem_replayRounds l getReplayTimes 0⟩
  · simp [warmUp]
  · split_ifs
    · exact save_notMem_replayOnce l 0
    · simp

theorem launches_instrProfData (l : Launch) (hdl : ProfDBIType) :
    Launches kernel (instrProfData l hdl) (instrProfLaunches l) := by
  have hwarmUp (n : Nat) : Launches kernel (warmUp hdl n) n :=
    fun s => ⟨s.saved, Checkpoint.run_replicate n hdl s⟩
  have hlaunch : Launches kernel (kernelLaunchForInstrProf l hdl) (instrProfLaunches l) := by
    unfold kernelLaunchForInstrProf instrProfLaunches
    split_ifs
    · exact (hwarmUp 20).append (.one hdl)
    · exact .one hdl
  intro s
  exact hlaunch ⟨s.current, some s.current⟩

theorem launches_pcSampling (l : Launch) :
    Launches kernel (pcSampling l).1 (pcSamplingLaunches l) := by
  unfold pcSampling pcSamplingLaunches
  by_cases henabled : l.isPCSamplingEnabled ∧ l.hasSimtSymbol
  · rw [if_pos (by simpa using henabled)]
    simp only [henabled, true_and]
    exact launches_if fun _ => launches_instrProfData l _
  · rw [if_neg (by simpa using henabled), if_neg fun h => henabled ⟨h.1, h.2.1⟩]
    exact .nil

theorem launches_timeline (l : Launch) (hdl : ProfDBIType) :
    Launches kernel (timeline l hdl).1 (timelineLaunches l) := by
  unfold timeline timelineLaunches
  split_ifs
  · exact launches_instrProfData l _
  · exact .nil

theorem launches_profPost (l : Launch) : Launches kernel (profPost l) (profPostLaunches l) := by
  have hinstr (mode : ProfDBIType) : Launches kernel (instrLaunch l mode) (instrLaunches l mode) :=
    launches_if fun _ => .one _
  rw [profPostLaunches, Nat.add_comm]
  exact (launches_if fun _ => hinstr _).append (launches_if fun _ => hinstr _)

theorem launches_profPreForInstrProf (l : Launch) :
    Launches kernel (profPreForInstrProf l).1 (0 + (timelineLaunches l + pcSamplingLaunches l)) :=
  ((launches_pcSampling l).append (launches_timeline l (pcSampling l).2)).append
    (launches_profData l)

/-- The replay undoes what it does. The other steps do not. -/
theorem launches_call (l : Launch) : Launches kernel (call l) (furtherLaunches l + 1) := by
  unfold call furtherLaunches
  split_ifs
  · have hpre : Launches kernel (profPreForInstrProf l).1 _ := launches_profPreForInstrProf l
    convert (hpre.append (.one (profPreForInstrProf l).2)).append (launches_profPost l) using 1
    omega
  · exact .one .asIs

theorem furtherLaunches_le (l : Launch) : furtherLaunches l ≤ 44 := by
  have hinstr : instrProfLaunches l ≤ 21 := by
    unfold instrProfLaunches
    split_ifs <;> omega
  have hmode (mode : ProfDBIType) : instrLaunches l mode ≤ 1 := by
    unfold instrLaunches
    split_ifs <;> omega
  have hchart := hmode .memoryChart
  have hoperand := hmode .operandRecord
  unfold furtherLaunches pcSamplingLaunches timelineLaunches profPostLaunches
  split_ifs <;> omega

theorem furtherLaunches_eq_zero_iff (l : Launch) :
    furtherLaunches l = 0 ↔ (l.hasArgsInfo → ReplaysOnly l) := by
  have hinstr : instrProfLaunches l ≠ 0 := by
    unfold instrProfLaunches
    split_ifs <;> omega
  unfold furtherLaunches
  split_ifs with hargs
  · have hpc : pcSamplingLaunches l = 0 ↔
        ¬ (l.isPCSamplingEnabled ∧ l.hasSimtSymbol ∧ l.dbi .instrProfStart) :=
      ite_eq_right_iff.trans (imp_congr_right fun _ => iff_false_intro hinstr)
    have htimeline : timelineLaunches l = 0 ↔ ¬ l.isTimelineEnabled :=
      ite_eq_right_iff.trans (imp_congr_right fun _ => iff_false_intro hinstr)
    have hstep (p : Prop) [Decidable p] (mode : ProfDBIType) :
        (if p then instrLaunches l mode else 0) = 0 ↔ ¬ (p ∧ l.dbi mode) := by
      unfold instrLaunches
      split_ifs <;> simp_all
    rw [Nat.add_eq_zero_iff, Nat.add_eq_zero_iff, profPostLaunches, Nat.add_eq_zero_iff, hpc,
      htimeline, hstep, hstep]
    constructor
    · exact fun h _ => ⟨h.1.1, h.1.2, h.2.1, h.2.2⟩
    · exact fun h => ⟨⟨(h hargs).pcSampling, (h hargs).timeline⟩, (h hargs).memoryChart,
        (h hargs).operandRecord⟩
  · exact iff_of_true rfl fun h => absurd h hargs

end Launches
end KernelReplay
end Msopcom
