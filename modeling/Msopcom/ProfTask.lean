import Msopcom.KernelReplay

set_option autoImplicit false

/-!
# The tasks of the profiling channels

What the driver is told for one run of a kernel on each class of chips, when every call to it
succeeds. A read outside of an event table is a fault.
-/
namespace Msopcom.ProfTask
open KernelReplay

inductive Fault
  | outOfBounds
  deriving DecidableEq, Repr

abbrev EventTable := Vector UInt16 eventMaxNum

def read (table : EventTable) (i : ℕ) : Except Fault UInt16 :=
  match table[i]? with
  | some event => .ok event
  | none => .error .outOfBounds

/-- The events that a `GetTask` copies, from a pointer on. -/
def readEvents (table : EventTable) (base : ℕ) : ℕ → Except Fault (List UInt16)
  | 0 => .ok []
  | num + 1 => do
    let event ← read table base
    let events ← readEvents table (base + 1) num
    .ok (event :: events)

inductive InstrProfState
  | idle
  | pcSampling
  | timeline
  | done
  deriving DecidableEq, Repr

inductive InstrProfMode
  | pcSampling
  | biuPerf
  deriving DecidableEq, Repr

/-- A channel that is started, and the events that it is started with. -/
inductive DriverStart
  | ffts (aic aiv : List UInt16)
  | aicore (aic : List UInt16)
  | stars
  | hwts
  | tsfwL2 (events : List UInt16)
  | aicpu
  | instr (mode : InstrProfMode)
  deriving DecidableEq, Repr

structure Task where
  profTaskConfig : MessageOfProfConfig
  isLastReplay : Bool := false
  isL2CacheStart : Bool := false
  isStarsStart : Bool := false
  isHwtsStart : Bool := false
  instrProfState : InstrProfState := .idle
  deriving DecidableEq, Repr

/-- What a start answers, the channels that it starts, and the task behind it. -/
structure Started where
  ok : Bool
  starts : List DriverStart
  task : Task
  deriving DecidableEq, Repr

inductive Chip
  | ascend310P
  | ascend910B
  | ascend950
  deriving DecidableEq, Repr

def Chip.series : Chip → ChipSeries
  | .ascend310P => .other
  | .ascend910B => .ascend910B
  | .ascend950 => .ascend950

/-- A launch that is profiled. -/
structure Profiling where
  chip : Chip
  config : MessageOfProfConfig := {}
  hasSimt : Bool := false
  dbi : ProfDBIType → Bool := fun _ => true
  isMC2 : Bool := false

def Profiling.launch (p : Profiling) : Launch where
  config := p.config
  chip := p.chip.series
  hasSimtSymbol := p.hasSimt
  dbi := p.dbi

/-! ## The FFTS and STARS channels -/

/-- The check for the last replay; the group behind the last one is not looked at. -/
def checkLastReplay (num max replayCount : ℕ) (config : MessageOfProfConfig) : Except Fault Bool :=
  if replayCount = max / num - 1 then .ok true
  else do
    let aic ← read config.aicPmu (replayCount * num + num)
    if aic = 0 then do
      let aiv ← read config.aivPmu (replayCount * num + num)
      .ok (decide (aiv = 0))
    else .ok false

/-- `StartFFTSTask` with groups of `num` events in a table of `max`. -/
def startFFTSTask (num max replayCount : ℕ) (task : Task) : Except Fault Started :=
  if replayCount ≥ max / num then .ok ⟨false, [], task⟩
  else do
    let aic ← readEvents task.profTaskConfig.aicPmu (replayCount * num) num
    let aiv ← readEvents task.profTaskConfig.aivPmu (replayCount * num) num
    let last ← checkLastReplay num max replayCount task.profTaskConfig
    .ok ⟨true, [.ffts aic aiv], if last then { task with isLastReplay := true } else task⟩

def startStarsTask (task : Task) : Started := ⟨true, [.stars], { task with isStarsStart := true }⟩

/-- The duration of the last replay is saved. -/
def saveDuration (task : Task) : Started :=
  if !task.isStarsStart && task.isLastReplay then startStarsTask task else ⟨true, [], task⟩

theorem saveDuration_starts (task : Task) : (saveDuration task).starts =
    if !task.isStarsStart && task.isLastReplay then [.stars] else [] := by
  unfold saveDuration startStarsTask
  split_ifs <;> rfl

@[simp] theorem saveDuration_isStarsStart (task : Task) :
    (saveDuration task).task.isStarsStart = (task.isStarsStart || task.isLastReplay) := by
  unfold saveDuration startStarsTask
  cases hstars : task.isStarsStart <;> cases hlast : task.isLastReplay <;> simp [hstars]

@[simp] theorem saveDuration_isLastReplay (task : Task) :
    (saveDuration task).task.isLastReplay = task.isLastReplay := by
  unfold saveDuration startStarsTask
  split_ifs <;> rfl

namespace ProfTaskOfA5

def startFFTSTask : ℕ → Task → Except Fault Started :=
  ProfTask.startFFTSTask pmuEventMaxNumA5 eventMaxNumA5

def startInstrProfTask (mode : InstrProfMode) (task : Task) : Started := ⟨true, [.instr mode], task⟩

def start (p : Profiling) (replayCount : ℕ) (task : Task) : Except Fault Started :=
  if task.instrProfState = .idle && p.launch.isPCSamplingEnabled && p.hasSimt then
    .ok (startInstrProfTask .pcSampling { task with instrProfState := .pcSampling })
  else if (task.instrProfState = .idle || task.instrProfState = .timeline) &&
      p.launch.isTimelineEnabled then
    .ok (startInstrProfTask .biuPerf { task with instrProfState := .timeline })
  else do
    let ffts ← startFFTSTask replayCount task
    if !ffts.ok then .ok ffts
    else
      let stars := saveDuration ffts.task
      .ok ⟨true, ffts.starts ++ stars.starts, stars.task⟩

def stop (p : Profiling) (task : Task) : Task :=
  if task.instrProfState = .pcSampling then
    { task with instrProfState := if p.launch.isTimelineEnabled then .timeline else .done }
  else if task.instrProfState = .timeline then { task with instrProfState := .done }
  else task

end ProfTaskOfA5

namespace ProfTaskOf910B

def startFFTSTask : ℕ → Task → Except Fault Started :=
  ProfTask.startFFTSTask pmuEventMaxNum eventMaxNum

def startTSFWTask (task : Task) : Except Fault Started :=
  if task.isL2CacheStart then .ok ⟨true, [], task⟩
  else do
    let events ← readEvents task.profTaskConfig.l2CachePmu 0 pmuEventMaxNum
    .ok ⟨true, [.tsfwL2 events], { task with isL2CacheStart := true }⟩

def start (p : Profiling) (replayCount : ℕ) (task : Task) : Except Fault Started :=
  let config := task.profTaskConfig
  if config.l2CachePmu[0]?.getD 0 ≠ 0 then
    let l2CachePmu := config.l2CachePmu.setIfInBounds 0 0
    startTSFWTask { task with profTaskConfig := { config with l2CachePmu } }
  else do
    let ffts ← startFFTSTask replayCount task
    if !ffts.ok then .ok ffts
    else
      let aicpu := if replayCount = 0 && p.isMC2 then [.aicpu] else []
      let stars := saveDuration ffts.task
      .ok ⟨true, ffts.starts ++ aicpu ++ stars.starts, stars.task⟩

end ProfTaskOf910B

namespace ProfTaskOf310P

def startHwtsTask (task : Task) : Started := ⟨true, [.hwts], { task with isHwtsStart := true }⟩

/-- The channel of a group, if its first event is set. -/
def startAiCore (replayCount : ℕ) (config : MessageOfProfConfig) :
    Except Fault (List DriverStart) := do
  let first ← read config.aicPmu (replayCount * pmuEventMaxNum)
  if first ≠ 0 || replayCount = 0 then do
    let aic ← readEvents config.aicPmu (replayCount * pmuEventMaxNum) pmuEventMaxNum
    .ok [.aicore aic]
  else .ok []

/-- The duration of the last replay is saved; the event behind the group is read for any group. -/
def saveDuration (replayCount : ℕ) (task : Task) : Except Fault Started :=
  if task.isHwtsStart then .ok ⟨true, [], task⟩
  else do
    let next ← read task.profTaskConfig.aicPmu (replayCount * pmuEventMaxNum + pmuEventMaxNum)
    .ok (if next = 0 then startHwtsTask task else ⟨true, [], task⟩)

def startL2Cache (replayCount : ℕ) (config : MessageOfProfConfig) :
    Except Fault (List DriverStart) :=
  if replayCount = 0 ∧ config.l2CachePmu[0]?.getD 0 ≠ 0 then do
    let events ← readEvents config.l2CachePmu 0 pmuEventMaxNum
    .ok [.tsfwL2 events]
  else .ok []

def start (replayCount : ℕ) (task : Task) : Except Fault Started :=
  if replayCount ≥ eventMaxNum / pmuEventMaxNum then .ok ⟨false, [], task⟩
  else do
    let aicore ← startAiCore replayCount task.profTaskConfig
    let hwts ← saveDuration replayCount task
    let l2Cache ← startL2Cache replayCount task.profTaskConfig
    .ok ⟨true, aicore ++ hwts.starts ++ l2Cache, hwts.task⟩

end ProfTaskOf310P

/-- `ProfTaskFactory::Create` for the class, and its members. -/
def Profiling.create (p : Profiling) : Task := { profTaskConfig := p.config }

def Profiling.start (p : Profiling) : ℕ → Task → Except Fault Started :=
  match p.chip with
  | .ascend310P => ProfTaskOf310P.start
  | .ascend910B => ProfTaskOf910B.start p
  | .ascend950 => ProfTaskOfA5.start p

def Profiling.stop (p : Profiling) : Task → Task :=
  match p.chip with
  | .ascend950 => ProfTaskOfA5.stop p
  | _ => id

/-! ## Reads inside of a table -/

def event (table : EventTable) (i : ℕ) : UInt16 := table[i]?.getD 0

def events (table : EventTable) (base num : ℕ) : List UInt16 :=
  (List.range' base num).map (event table)

theorem ok_bind {α β : Type} (a : α) (f : α → Except Fault β) : (Except.ok a >>= f) = f a := rfl

variable {table : EventTable}

theorem read_eq {i : ℕ} (h : i < eventMaxNum) : read table i = .ok (event table i) := by
  unfold read event
  rw [Vector.getElem?_eq_getElem h]
  rfl

theorem read_outside {i : ℕ} (h : eventMaxNum ≤ i) : read table i = .error .outOfBounds := by
  unfold read
  rw [Vector.getElem?_eq_none h]

theorem readEvents_eq {base num : ℕ} (h : base + num ≤ eventMaxNum) :
    readEvents table base num = .ok (events table base num) := by
  induction num generalizing base with
  | zero => rfl
  | succ num ih =>
    rw [readEvents, read_eq (by omega), ih (by omega)]
    rfl

/-- The pointer behind a group of a table that is divided into groups. -/
theorem group_le {num max r : ℕ} (h : r < max / num) : r * num + num ≤ max := by
  calc r * num + num = (r + 1) * num := (Nat.succ_mul r num).symm
    _ ≤ max / num * num := Nat.mul_le_mul_right num h
    _ ≤ max := Nat.div_mul_le_self max num

/-- No group follows this one. -/
def IsLast (config : MessageOfProfConfig) (num max r : ℕ) : Prop :=
  r + 1 = max / num ∨
    (event config.aicPmu (r * num + num) = 0 ∧ event config.aivPmu (r * num + num) = 0)

instance (config : MessageOfProfConfig) (num max r : ℕ) : Decidable (IsLast config num max r) :=
  inferInstanceAs (Decidable (_ ∨ _))

theorem checkLastReplay_eq {num max r : ℕ} (hnum : 0 < num) (hmax : max ≤ eventMaxNum)
    (hr : r < max / num) (config : MessageOfProfConfig) :
    checkLastReplay num max r config = .ok (decide (IsLast config num max r)) := by
  unfold checkLastReplay IsLast
  by_cases hend : r = max / num - 1
  · have hlast : r + 1 = max / num := by omega
    rw [if_pos hend]
    simp [hlast]
  · have hnext : r + 1 < max / num := by omega
    have hne : r + 1 ≠ max / num := Nat.ne_of_lt hnext
    have hinside : r * num + num < eventMaxNum := by
      have hbehind := group_le hnext
      rw [Nat.succ_mul] at hbehind
      omega
    rw [if_neg hend, read_eq hinside, read_eq hinside, ok_bind, ok_bind]
    by_cases haic : event config.aicPmu (r * num + num) = 0
    · simp [haic, hne]
    · simp [haic, hne]

theorem startFFTSTask_eq {num max r : ℕ} (hnum : 0 < num) (hmax : max ≤ eventMaxNum)
    (hr : r < max / num) (task : Task) :
    startFFTSTask num max r task = .ok
      ⟨true, [.ffts (events task.profTaskConfig.aicPmu (r * num) num)
        (events task.profTaskConfig.aivPmu (r * num) num)],
      if IsLast task.profTaskConfig num max r then { task with isLastReplay := true }
      else task⟩ := by
  have hgroup := Nat.le_trans (group_le hr) hmax
  unfold startFFTSTask
  rw [if_neg (Nat.not_le.mpr hr), readEvents_eq hgroup, readEvents_eq hgroup,
    checkLastReplay_eq hnum hmax hr, ok_bind, ok_bind, ok_bind]
  simp only [decide_eq_true_eq]

end Msopcom.ProfTask
