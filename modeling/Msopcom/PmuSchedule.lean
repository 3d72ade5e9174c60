import Msopcom.ProfTask

set_option autoImplicit false

/-!
# The schedule of the event groups

A kernel is replayed once for each group of events. The rounds decide which groups there are, and
the task of the chip which of them is the last one.
-/
namespace Msopcom.ProfTask
open KernelReplay

/-! ## The replay -/

def Chip.pmuEventMaxNum : Chip → ℕ
  | .ascend950 => pmuEventMaxNumA5
  | _ => KernelReplay.pmuEventMaxNum

def Chip.eventMaxNum : Chip → ℕ
  | .ascend950 => eventMaxNumA5
  | _ => KernelReplay.eventMaxNum

/-- The channels that one run has started. -/
abbrev Run := List DriverStart

namespace Profiling

def isPmuEventEmpty (p : Profiling) (replayCount : ℕ) : Except Fault Bool :=
  let nextPmuId := replayCount * p.chip.pmuEventMaxNum
  if nextPmuId ≥ p.chip.eventMaxNum then .ok true
  else do
    let aic ← read p.config.aicPmu nextPmuId
    if aic = 0 then do
      let aiv ← read p.config.aivPmu nextPmuId
      .ok (decide (aiv = 0))
    else .ok false

/-- The channels of a round that is not skipped, and the task behind it. -/
def replayOnce (p : Profiling) (replayCount : ℕ) (task : Task) :
    Except Fault (List Run × Task) := do
  let empty ← p.isPmuEventEmpty replayCount
  if empty && replayCount ≠ 0 then .ok ([], task)
  else do
    let started ← p.start replayCount task
    -- the frequency is loaded in the last round
    let _ ← if started.ok && !p.isMC2 then p.isPmuEventEmpty (replayCount + 1) else .ok false
    .ok ([started.starts], p.stop started.task)

/-- The rounds from `replayCount` on, of which `rounds` are left. -/
def replayRounds (p : Profiling) : ℕ → ℕ → Task → Except Fault (List Run)
  | 0, _, _ => .ok []
  | rounds + 1, replayCount, task => do
    let (runs, task) ← p.replayOnce replayCount task
    let rest ← replayRounds p rounds (replayCount + 1) task
    .ok (runs ++ rest)

def kernelReplay (p : Profiling) (task : Task) : Except Fault (List Run) := do
  let (evict, task) ←
    if p.launch.supportProfL2CacheEvict then p.replayOnce 0 task else .ok ([], task)
  let runs ← p.replayRounds getReplayTimes 0 task
  .ok (evict ++ runs)

/-- A run of the instrumented kernel, with what it leaves in the task. -/
def instrProfData (p : Profiling) (task : Task) : Except Fault Task := do
  let started ← p.start 0 task
  .ok (p.stop started.task)

/-- `ProfPreForInstrProf`, with the runs of its replay. -/
def profPreForInstrProf (p : Profiling) : Except Fault (List Run) := do
  let task := p.create
  let task ←
    if p.launch.isPCSamplingEnabled && p.hasSimt && p.dbi .instrProfStart then p.instrProfData task
    else .ok task
  let task ← if p.launch.isTimelineEnabled then p.instrProfData task else .ok task
  p.kernelReplay task

end Profiling

/-! ## What is to be scheduled -/

def DriverStart.isGroup : DriverStart → Bool
  | .ffts _ _ => true
  | .aicore _ => true
  | _ => false

def DriverStart.isDuration : DriverStart → Bool
  | .stars => true
  | .hwts => true
  | _ => false

namespace Profiling
variable (p : Profiling)

def groups : ℕ := p.chip.eventMaxNum / p.chip.pmuEventMaxNum

def firstAic (r : ℕ) : UInt16 := event p.config.aicPmu (r * p.chip.pmuEventMaxNum)

def firstAiv (r : ℕ) : UInt16 := event p.config.aivPmu (r * p.chip.pmuEventMaxNum)

def IsEmpty (r : ℕ) : Prop := p.firstAic r = 0 ∧ p.firstAiv r = 0

instance (r : ℕ) : Decidable (p.IsEmpty r) := inferInstanceAs (Decidable (_ ∧ _))

/-- The start of the channel for a group; there is one core for both kinds on 310P. -/
def groupStart (r : ℕ) : DriverStart :=
  let aic := events p.config.aicPmu (r * p.chip.pmuEventMaxNum) p.chip.pmuEventMaxNum
  let aiv := events p.config.aivPmu (r * p.chip.pmuEventMaxNum) p.chip.pmuEventMaxNum
  if p.chip = .ascend310P then .aicore aic else .ffts aic aiv

/-- The groups that are not empty are the first `n` of the table. -/
structure NonEmptyPrefix (n : ℕ) : Prop where
  le : n ≤ p.groups
  iff : ∀ r < p.groups, ¬ p.IsEmpty r ↔ r < n

/-- The groups to program, and group 0 always. -/
def programmed (n : ℕ) : ℕ := max 1 n

/-- Each group is programmed once and in order, and the duration is saved in the run of the last
of them and in none before it. -/
structure Scheduled (n : ℕ) (runs : List Run) : Prop where
  groups : (runs.flatMap fun run => run.filter DriverStart.isGroup) =
    (List.range (programmed n)).map p.groupStart
  duration : ∃ before last after, runs = before ++ last :: after ∧
    last.any DriverStart.isGroup ∧ (∀ run ∈ after, ¬ run.any DriverStart.isGroup) ∧
    last.any DriverStart.isDuration ∧ ∀ run ∈ before, ¬ run.any DriverStart.isDuration

/-- How often the kernel is run instrumented before the replay. -/
def instrRuns : ℕ :=
  (if p.launch.isPCSamplingEnabled && p.hasSimt && p.dbi .instrProfStart then 1 else 0) +
    if p.launch.isTimelineEnabled then 1 else 0

/-- The L2 cache is asked for. -/
def L2Cache : Prop := p.config.l2CachePmu[0]?.getD 0 ≠ 0

instance : Decidable p.L2Cache := inferInstanceAs (Decidable (_ ≠ _))

/-- When the groups are scheduled right. -/
def Schedulable (n : ℕ) : Prop :=
  match p.chip with
  | .ascend310P => n < p.groups ∧ (∀ r, 0 < r → r < n → p.firstAic r ≠ 0) ∧
    (0 < p.instrRuns → 2 ≤ n)
  | .ascend910B => (p.launch.supportProfL2CacheEvict = true → p.instrRuns = 0) ∧
    (p.L2Cache → p.launch.supportProfL2CacheEvict = false → 0 < p.instrRuns) ∧
    ((if p.L2Cache then 1 else 0) < p.instrRuns → 2 ≤ n)
  | .ascend950 => p.launch.isPCSamplingEnabled = true → p.hasSimt = true →
    p.dbi .instrProfStart = true

end Profiling

end Msopcom.ProfTask
