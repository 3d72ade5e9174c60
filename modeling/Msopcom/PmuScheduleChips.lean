import Msopcom.PmuScheduleRuns

set_option autoImplicit false

/-!
# The schedule on each chip

What the instrumented runs leave in the task of the chip, and what the replay then programs.
-/
namespace Msopcom.ProfTask.Profiling
open KernelReplay

variable {p : Profiling} {n : ℕ} {task : Task}

/-! ## The instrumented runs -/

/-- So many runs of the instrumented kernel. -/
def instrTimes (p : Profiling) : ℕ → Task → Except Fault Task
  | 0, task => .ok task
  | times + 1, task => do
    let task ← p.instrProfData task
    instrTimes p times task

theorem profPreForInstrProf_eq (p : Profiling) :
    p.profPreForInstrProf = p.instrTimes p.instrRuns p.create >>= p.kernelReplay := by
  unfold profPreForInstrProf instrRuns
  cases p.launch.isPCSamplingEnabled && p.hasSimt && p.dbi .instrProfStart with
  | false =>
    cases p.launch.isTimelineEnabled with
    | false => rfl
    | true =>
      simp only [instrTimes, Bool.false_eq_true, if_false, if_true, ok_bind]
      cases p.instrProfData p.create <;> rfl
  | true =>
    cases p.launch.isTimelineEnabled with
    | false =>
      simp only [instrTimes, Bool.false_eq_true, if_false, if_true, ok_bind]
      cases p.instrProfData p.create <;> rfl
    | true =>
      simp only [instrTimes, if_true]
      cases p.instrProfData p.create with
      | error fault => rfl
      | ok task =>
        simp only [ok_bind]
        cases p.instrProfData task <;> rfl

/-- The replay behind instrumented runs that leave the task as `task`. -/
theorem profPreForInstrProf_ok (h : p.instrTimes p.instrRuns p.create = .ok task) :
    p.profPreForInstrProf = p.kernelReplay task := by
  rw [profPreForInstrProf_eq, h, ok_bind]

/-- A run that is ready leaves the flags as a round does. -/
theorem instrProfData_ready (h : p.NonEmptyPrefix n) (hready : Ready p task) :
    p.instrProfData task = .ok (saveDuration (behindFfts n 0 task)).task := by
  unfold instrProfData
  rw [start_ready h hready (groups_pos p), ok_bind, stop_ready (ready_saveDuration n 0 hready)]

theorem kernelReplay_ready (h : p.NonEmptyPrefix n) (hready : Ready p task) {saved : Bool}
    (hsaving : Saving saved task) (hevict : p.launch.supportProfL2CacheEvict = false) :
    p.kernelReplay task = .ok ((List.range (programmed n)).map (fftsRun p n saved)) := by
  unfold kernelReplay
  rw [hevict, if_neg Bool.false_ne_true, ok_bind]
  dsimp only
  rw [replayRounds_all h (replayOnce_ready h) ⟨hready, hsaving⟩, ok_bind]
  rfl

theorem kernelReplay_lost (h : p.NonEmptyPrefix n) {run : Run} {task' : Task}
    (hstart : p.start 0 task = .ok ⟨true, run, task'⟩) (hready : Ready p (p.stop task'))
    (hsaving : Saving false (p.stop task')) (hevict : p.launch.supportProfL2CacheEvict = false) :
    p.kernelReplay task =
      .ok ([run] ++ (List.range' 1 (programmed n - 1)).map (fftsRun p n false)) := by
  have hfirst : 0 < programmed n := lt_programmed_iff.mpr (Or.inl rfl)
  have hrounds := programmed_le_getReplayTimes h
  have hleft : getReplayTimes = 11 + 1 := rfl
  unfold kernelReplay
  rw [hevict, if_neg Bool.false_ne_true, ok_bind]
  dsimp only
  rw [hleft, replayRounds, replayOnce_runs h hfirst hstart, ok_bind]
  dsimp only
  rw [replayRounds_of_round h (replayOnce_ready h) ⟨hready, hsaving⟩ (by omega), ok_bind, ok_bind]
  rfl

theorem kernelReplay_evict (h : p.NonEmptyPrefix n) {run : Run} {task' : Task}
    (hstart : p.start 0 task = .ok ⟨true, run, task'⟩) (hready : Ready p (p.stop task'))
    {saved : Bool} (hsaving : Saving saved (p.stop task'))
    (hevict : p.launch.supportProfL2CacheEvict = true) :
    p.kernelReplay task =
      .ok ([run] ++ (List.range (programmed n)).map (fftsRun p n saved)) := by
  have hfirst : 0 < programmed n := lt_programmed_iff.mpr (Or.inl rfl)
  unfold kernelReplay
  rw [hevict, if_pos rfl, replayOnce_runs h hfirst hstart, ok_bind]
  dsimp only
  rw [replayRounds_all h (replayOnce_ready h) ⟨hready, hsaving⟩, ok_bind]

/-- A round that another channel takes is missing in the schedule. -/
theorem not_scheduled_lost {run : Run} (hrun : Other run) :
    ¬ p.Scheduled n ([run] ++ (List.range' 1 (programmed n - 1)).map (fftsRun p n false)) := by
  intro hscheduled
  have hlength := length_programs hscheduled
  have hfirst : 0 < programmed n := lt_programmed_iff.mpr (Or.inl rfl)
  have hfront : ∀ other ∈ [run], Other other := fun other hother =>
    List.mem_singleton.mp hother ▸ hrun
  rw [programs_append, programs_other hfront,
    programs_map fun r _ => filter_fftsRun p n false r, List.nil_append, List.length_map,
    List.length_range'] at hlength
  omega

/-- A replay that is right and gives runs. -/
def Right (p : Profiling) (n : ℕ) : Prop :=
  ∃ runs, p.profPreForInstrProf = .ok runs ∧ p.Scheduled n runs

theorem right_iff {runs : List Run} (h : p.profPreForInstrProf = .ok runs) :
    p.Right n ↔ p.Scheduled n runs := by
  constructor
  · rintro ⟨runs', heq, hscheduled⟩
    rw [h] at heq
    cases heq
    exact hscheduled
  · exact fun hscheduled => ⟨runs, h, hscheduled⟩

/-! ## 950 -/

section Ascend950

theorem start_950 (hchip : p.chip = .ascend950) : p.start = ProfTaskOfA5.start p := by
  rw [start, hchip]

theorem stop_950 (hchip : p.chip = .ascend950) : p.stop = ProfTaskOfA5.stop p := by
  rw [stop, hchip]

theorem start_sampling (hchip : p.chip = .ascend950) (hidle : task.instrProfState = .idle)
    (hsampling : (p.launch.isPCSamplingEnabled && p.hasSimt) = true) (r : ℕ) :
    p.start r task =
      .ok ⟨true, [.instr .pcSampling], { task with instrProfState := .pcSampling }⟩ := by
  rw [start_950 hchip, ProfTaskOfA5.start, ProfTaskOfA5.startInstrProfTask, hidle, Bool.and_assoc,
    hsampling]
  rfl

theorem start_timeline (hchip : p.chip = .ascend950)
    (hstate : task.instrProfState = .timeline ∨ (task.instrProfState = .idle ∧
      (p.launch.isPCSamplingEnabled && p.hasSimt) = false))
    (htimeline : p.launch.isTimelineEnabled = true) (r : ℕ) :
    p.start r task =
      .ok ⟨true, [.instr .biuPerf], { task with instrProfState := .timeline }⟩ := by
  rw [start_950 hchip, ProfTaskOfA5.start, ProfTaskOfA5.startInstrProfTask]
  obtain hwaiting | ⟨hidle, hsampling⟩ := hstate
  · rw [hwaiting, htimeline]
    rfl
  · rw [hidle, htimeline, Bool.and_assoc, hsampling]
    rfl

theorem stop_sampling (hchip : p.chip = .ascend950) (h : task.instrProfState = .pcSampling) :
    p.stop task = { task with
      instrProfState := if p.launch.isTimelineEnabled then .timeline else .done } := by
  rw [stop_950 hchip, ProfTaskOfA5.stop, if_pos h]

theorem stop_timeline (hchip : p.chip = .ascend950) (h : task.instrProfState = .timeline) :
    p.stop task = { task with instrProfState := .done } := by
  rw [stop_950 hchip, ProfTaskOfA5.stop, h]
  rfl

theorem instrProfData_sampling (hchip : p.chip = .ascend950) (hidle : task.instrProfState = .idle)
    (hsampling : (p.launch.isPCSamplingEnabled && p.hasSimt) = true) :
    p.instrProfData task = .ok { task with
      instrProfState := if p.launch.isTimelineEnabled then .timeline else .done } := by
  unfold instrProfData
  rw [start_sampling hchip hidle hsampling, ok_bind, stop_sampling hchip rfl]

theorem instrProfData_timeline (hchip : p.chip = .ascend950)
    (hstate : task.instrProfState = .timeline ∨ (task.instrProfState = .idle ∧
      (p.launch.isPCSamplingEnabled && p.hasSimt) = false))
    (htimeline : p.launch.isTimelineEnabled = true) :
    p.instrProfData task = .ok { task with instrProfState := .done } := by
  unfold instrProfData
  rw [start_timeline hchip hstate htimeline, ok_bind, stop_timeline hchip rfl]

/-- The state that the instrumented runs leave; a preparation that fails leaves one of them out. -/
def stateBehind (p : Profiling) : InstrProfState :=
  if p.launch.isPCSamplingEnabled && p.hasSimt then
    if p.dbi .instrProfStart then .done
    else if p.launch.isTimelineEnabled then .timeline else .idle
  else if p.launch.isTimelineEnabled then .done else .idle

theorem instrTimes_950 (hchip : p.chip = .ascend950) :
    p.instrTimes p.instrRuns p.create =
      .ok { p.create with instrProfState := p.stateBehind } := by
  unfold instrRuns stateBehind
  cases hsampling : p.launch.isPCSamplingEnabled && p.hasSimt with
  | false =>
    cases htimeline : p.launch.isTimelineEnabled with
    | false => rfl
    | true =>
      have hrun := @instrProfData_timeline p p.create hchip (Or.inr ⟨rfl, hsampling⟩) htimeline
      simp [instrTimes, hrun, ok_bind]
  | true =>
    have hfirst := @instrProfData_sampling p p.create hchip rfl hsampling
    cases htimeline : p.launch.isTimelineEnabled with
    | false =>
      rw [htimeline] at hfirst
      cases hdbi : p.dbi .instrProfStart with
      | false => rfl
      | true => simp [instrTimes, hfirst, ok_bind]
    | true =>
      rw [htimeline] at hfirst
      cases hdbi : p.dbi .instrProfStart with
      | false => simp [instrTimes, hfirst, ok_bind]
      | true =>
        have hsecond := @instrProfData_timeline p { p.create with instrProfState := .timeline }
          hchip (Or.inl rfl) htimeline
        simp [instrTimes, hfirst, hsecond, ok_bind]

theorem supportProfL2CacheEvict_of_ne (hchip : p.chip ≠ .ascend910B) :
    p.launch.supportProfL2CacheEvict = false := by
  unfold Launch.supportProfL2CacheEvict launch
  cases hseries : p.chip with
  | ascend310P => rfl
  | ascend910B => exact absurd hseries hchip
  | ascend950 => rfl

theorem ready_done (hchip : p.chip = .ascend950) :
    Ready p { p.create with instrProfState := .done } where
  aicPmu := rfl
  aivPmu := rfl
  chip := by
    rw [hchip]
    decide
  l2CachePmu := fun h => by
    rw [hchip] at h
    cases h
  instrProfState := fun _ => Or.inl rfl

theorem ready_idle (hchip : p.chip = .ascend950)
    (hsampling : (p.launch.isPCSamplingEnabled && p.hasSimt) = false)
    (htimeline : p.launch.isTimelineEnabled = false) : Ready p p.create :=
  { ready_done hchip with
    aicPmu := rfl
    aivPmu := rfl
    instrProfState := fun _ => Or.inr ⟨rfl, hsampling, htimeline⟩ }

/-- A preparation that fails leaves a state in which group 0 is not programmed. -/
theorem not_right_950 (h : p.NonEmptyPrefix n) (hchip : p.chip = .ascend950)
    (hsampling : (p.launch.isPCSamplingEnabled && p.hasSimt) = true)
    (hdbi : p.dbi .instrProfStart = false) : ¬ p.Right n := by
  have hbehind := profPreForInstrProf_ok (instrTimes_950 hchip)
  have hevict := @supportProfL2CacheEvict_of_ne p (by rw [hchip]; decide)
  have hsaving : Saving false { p.create with instrProfState := .done } := ⟨rfl, fun _ => rfl⟩
  unfold stateBehind at hbehind
  rw [hsampling, hdbi] at hbehind
  cases htimeline : p.launch.isTimelineEnabled with
  | false =>
    rw [htimeline] at hbehind
    have hstop := @stop_sampling p { p.create with instrProfState := .pcSampling } hchip rfl
    rw [htimeline] at hstop
    have hreplay := @kernelReplay_lost p n p.create h _ _ (start_sampling hchip rfl hsampling 0)
      (hstop ▸ ready_done hchip) (hstop ▸ hsaving) hevict
    rw [right_iff (hbehind.trans hreplay)]
    exact not_scheduled_lost ⟨rfl, rfl⟩
  | true =>
    rw [htimeline] at hbehind
    have hstop := @stop_timeline p { p.create with instrProfState := .timeline } hchip rfl
    have hreplay := @kernelReplay_lost p n { p.create with instrProfState := .timeline } h _ _
      (start_timeline hchip (Or.inl rfl) htimeline 0) (hstop ▸ ready_done hchip) (hstop ▸ hsaving)
      hevict
    rw [right_iff (hbehind.trans hreplay)]
    exact not_scheduled_lost ⟨rfl, rfl⟩

theorem right_950_iff (h : p.NonEmptyPrefix n) (hchip : p.chip = .ascend950) :
    p.Right n ↔ (p.launch.isPCSamplingEnabled = true → p.hasSimt = true →
      p.dbi .instrProfStart = true) := by
  have hbehind := profPreForInstrProf_ok (instrTimes_950 hchip)
  have hevict := @supportProfL2CacheEvict_of_ne p (by rw [hchip]; decide)
  have hready : ∀ task, Ready p task → Saving false task →
      p.profPreForInstrProf = p.kernelReplay task → p.Right n := by
    intro task hready hsaving hreplay
    rw [right_iff (hreplay.trans (kernelReplay_ready h hready hsaving hevict))]
    exact (@scheduled_fftsRuns_iff p n [] (fun _ hrun => by cases hrun) false).mpr rfl
  unfold stateBehind at hbehind
  cases hsampling : p.launch.isPCSamplingEnabled && p.hasSimt with
  | false =>
    rw [hsampling] at hbehind
    refine iff_of_true ?_ fun hpc hsimt => ?_
    · cases htimeline : p.launch.isTimelineEnabled with
      | false =>
        rw [htimeline] at hbehind
        exact hready _ (ready_idle hchip hsampling htimeline) ⟨rfl, fun _ => rfl⟩ hbehind
      | true =>
        rw [htimeline] at hbehind
        exact hready _ (ready_done hchip) ⟨rfl, fun _ => rfl⟩ hbehind
    · rw [hpc, hsimt] at hsampling
      cases hsampling
  | true =>
    rw [hsampling] at hbehind
    cases hdbi : p.dbi .instrProfStart with
    | false =>
      refine iff_of_false (not_right_950 h hchip hsampling hdbi) fun hprepared => ?_
      rw [Bool.and_eq_true] at hsampling
      exact Bool.false_ne_true (hprepared hsampling.1 hsampling.2)
    | true =>
      rw [hdbi] at hbehind
      exact iff_of_true (hready _ (ready_done hchip) ⟨rfl, fun _ => rfl⟩ hbehind) fun _ _ => rfl

end Ascend950

/-! ## 910B -/

section Ascend910B

/-- The task behind the channel of the L2 cache. -/
def evicted (task : Task) : Task :=
  let config := task.profTaskConfig
  { task with
    profTaskConfig := { config with l2CachePmu := config.l2CachePmu.setIfInBounds 0 0 }
    isL2CacheStart := true }

theorem start_evict (hchip : p.chip = .ascend910B)
    (hl2 : task.profTaskConfig.l2CachePmu[0]?.getD 0 ≠ 0) (hfresh : task.isL2CacheStart = false)
    (r : ℕ) : ∃ l2Events, p.start r task = .ok ⟨true, [.tsfwL2 l2Events], evicted task⟩ := by
  unfold start
  rw [hchip]
  dsimp only
  rw [ProfTaskOf910B.start, ProfTaskOf910B.startTSFWTask]
  dsimp only
  rw [if_pos hl2, hfresh, if_neg Bool.false_ne_true, readEvents_eq (by decide), ok_bind]
  exact ⟨_, rfl⟩

theorem stop_910B (hchip : p.chip = .ascend910B) (task : Task) : p.stop task = task := by
  unfold stop
  rw [hchip]
  rfl

theorem ready_910B (hchip : p.chip = .ascend910B)
    (haic : task.profTaskConfig.aicPmu = p.config.aicPmu)
    (haiv : task.profTaskConfig.aivPmu = p.config.aivPmu)
    (hl2 : task.profTaskConfig.l2CachePmu[0]?.getD 0 = 0) : Ready p task where
  aicPmu := haic
  aivPmu := haiv
  chip := by
    rw [hchip]
    decide
  l2CachePmu := fun _ => hl2
  instrProfState := fun h => by
    rw [hchip] at h
    cases h

theorem setIfInBounds_first (table : EventTable) :
    (table.setIfInBounds 0 0)[0]?.getD 0 = 0 := by
  have hinside : 0 < KernelReplay.eventMaxNum := by decide
  rw [Vector.getElem?_eq_getElem hinside, Vector.getElem_setIfInBounds_self]
  rfl

theorem ready_evicted (hchip : p.chip = .ascend910B) : Ready p (evicted p.create) :=
  ready_910B hchip rfl rfl (setIfInBounds_first p.config.l2CachePmu)

theorem l2Cache_of_support (hchip : p.chip = .ascend910B)
    (hsupport : p.launch.supportProfL2CacheEvict = true) : p.L2Cache := by
  revert hsupport
  unfold Launch.supportProfL2CacheEvict L2Cache launch
  rw [hchip]
  simp

/-- Instrumented runs of a task that is ready save the duration if there is one group. -/
theorem instrTimes_ready (h : p.NonEmptyPrefix n) (times : ℕ) (hready : Ready p task)
    (hsame : task.isLastReplay = task.isStarsStart) :
    ∃ task', p.instrTimes times task = .ok task' ∧ Ready p task' ∧
      Saving (task.isStarsStart || decide (0 < times ∧ n ≤ 1)) task' := by
  induction times generalizing task with
  | zero =>
    refine ⟨task, rfl, hready, ?_, fun hsaved => ?_⟩
    · simp
    · rw [hsame]
      simpa using hsaved
  | succ times ih =>
    have hafter := ready_saveDuration n 0 hready
    obtain ⟨task', hrun, hready', hsaving⟩ := ih hafter (by simp [hsame])
    refine ⟨task', ?_, hready', ?_⟩
    · rw [instrTimes, instrProfData_ready h hready, ok_bind, hrun]
    · have hsaved : (task.isStarsStart || decide (0 < times + 1 ∧ n ≤ 1)) =
          ((saveDuration (behindFfts n 0 task)).task.isStarsStart ||
            decide (0 < times ∧ n ≤ 1)) := by
        by_cases hone : n ≤ 1
        · simp [hsame, hone]
        · simp [hsame, hone]
      rw [hsaved]
      exact hsaving

/-- A group that is programmed twice is too much. -/
theorem not_scheduled_twice {run : Run} {r : ℕ}
    (hrun : run.filter DriverStart.isGroup = [p.groupStart r]) (saved : Bool) :
    ¬ p.Scheduled n ([run] ++ (List.range (programmed n)).map (fftsRun p n saved)) := by
  intro hscheduled
  have hlength := length_programs hscheduled
  have hfront : programs [run] = [p.groupStart r] := (List.append_nil _).trans hrun
  rw [programs_append, hfront, programs_map fun r _ => filter_fftsRun p n saved r,
    List.length_append, List.length_map, List.length_range, List.length_singleton] at hlength
  omega

theorem saving_saveDuration (task : Task) :
    Saving (saveDuration task).task.isStarsStart (saveDuration task).task where
  isStarsStart := rfl
  isLastReplay := by
    rw [saveDuration_isStarsStart, saveDuration_isLastReplay, Bool.or_eq_false_iff]
    exact fun h => h.2

theorem saved_iff (times : ℕ) :
    (false || decide (0 < times ∧ n ≤ 1)) = false ↔ (0 < times → 2 ≤ n) := by
  rw [Bool.false_or, decide_eq_false_iff_not]
  omega

theorem scheduled_ready_iff (h : p.NonEmptyPrefix n) (hready : Ready p task) {times : ℕ}
    (hsaving : Saving (false || decide (0 < times ∧ n ≤ 1)) task)
    (hsupport : p.launch.supportProfL2CacheEvict = false)
    (hreplay : p.profPreForInstrProf = p.kernelReplay task) :
    p.Right n ↔ (0 < times → 2 ≤ n) := by
  rw [right_iff (hreplay.trans (kernelReplay_ready h hready hsaving hsupport)), ← saved_iff]
  exact @scheduled_fftsRuns_iff p n [] (fun _ hrun => by cases hrun) _

/-- The L2 cache is not asked for, so that every run is one with FFTS. -/
theorem right_910B_iff_of_not (h : p.NonEmptyPrefix n) (hchip : p.chip = .ascend910B)
    (hl2 : ¬ p.L2Cache) : p.Right n ↔ (0 < p.instrRuns → 2 ≤ n) := by
  have hready : Ready p p.create := ready_910B hchip rfl rfl (not_not.mp hl2)
  have hsupport : p.launch.supportProfL2CacheEvict = false := by
    rw [← Bool.not_eq_true]
    exact mt (l2Cache_of_support hchip) hl2
  obtain ⟨task, hrun, htask, hsaving⟩ := instrTimes_ready h p.instrRuns hready rfl
  exact scheduled_ready_iff h htask hsaving hsupport (profPreForInstrProf_ok hrun)

/-- The L2 cache is asked for, and the replay is the first to start a channel. -/
theorem right_910B_iff_of_zero (h : p.NonEmptyPrefix n) (hchip : p.chip = .ascend910B)
    (hl2 : p.L2Cache) (hruns : p.instrRuns = 0) :
    p.Right n ↔ p.launch.supportProfL2CacheEvict = true := by
  have hreplay : p.profPreForInstrProf = p.kernelReplay p.create :=
    profPreForInstrProf_ok (by rw [hruns]; rfl)
  obtain ⟨l2Events, hstart⟩ := @start_evict p p.create hchip hl2 rfl 0
  have hready : Ready p (p.stop (evicted p.create)) :=
    (stop_910B hchip (evicted p.create)).symm ▸ ready_evicted hchip
  have hsaving : Saving false (p.stop (evicted p.create)) :=
    (stop_910B hchip (evicted p.create)).symm ▸ ⟨rfl, fun _ => rfl⟩
  have hother : Other [.tsfwL2 l2Events] := ⟨rfl, rfl⟩
  cases hsupport : p.launch.supportProfL2CacheEvict with
  | false =>
    rw [right_iff (hreplay.trans (kernelReplay_lost h hstart hready hsaving hsupport))]
    exact iff_of_false (not_scheduled_lost hother) Bool.false_ne_true
  | true =>
    rw [right_iff (hreplay.trans (kernelReplay_evict h hstart hready hsaving hsupport))]
    refine iff_of_true ((scheduled_fftsRuns_iff (fun run hrun => ?_) false).mpr rfl) rfl
    exact List.mem_singleton.mp hrun ▸ hother

/-- The L2 cache is asked for, and an instrumented run has started its channel. -/
theorem right_910B_iff_of_succ (h : p.NonEmptyPrefix n) (hchip : p.chip = .ascend910B)
    (hl2 : p.L2Cache) {times : ℕ} (hruns : p.instrRuns = times + 1) :
    p.Right n ↔ p.launch.supportProfL2CacheEvict = false ∧ (0 < times → 2 ≤ n) := by
  obtain ⟨l2Events, hstart⟩ := @start_evict p p.create hchip hl2 rfl 0
  obtain ⟨task, hrun, htask, hsaving⟩ := instrTimes_ready h times (ready_evicted hchip) rfl
  have hreplay : p.profPreForInstrProf = p.kernelReplay task := by
    refine profPreForInstrProf_ok ?_
    rw [hruns, instrTimes, instrProfData, hstart, ok_bind, ok_bind, stop_910B hchip]
    exact hrun
  cases hsupport : p.launch.supportProfL2CacheEvict with
  | false =>
    rw [scheduled_ready_iff h htask hsaving hsupport hreplay]
    exact (and_iff_right rfl).symm
  | true =>
    have hafter := ready_saveDuration n 0 htask
    have hstop := stop_ready hafter
    -- the round for the L2 cache programs group 0, which the first round programs again
    rw [right_iff (hreplay.trans (kernelReplay_evict h (start_ready h htask (groups_pos p))
      (hstop.symm ▸ hafter) (hstop.symm ▸ saving_saveDuration _) hsupport))]
    refine iff_of_false (not_scheduled_twice (r := 0) ?_ _) fun hboth => by cases hboth.1
    rw [List.filter_cons_of_pos (isGroup_groupStart p 0), List.filter_append,
      (other_aicpuRun p 0).1, saveDuration_starts]
    split_ifs <;> rfl

theorem right_910B_iff (h : p.NonEmptyPrefix n) (hchip : p.chip = .ascend910B) :
    p.Right n ↔ (p.launch.supportProfL2CacheEvict = true → p.instrRuns = 0) ∧
      (p.L2Cache → p.launch.supportProfL2CacheEvict = false → 0 < p.instrRuns) ∧
      ((if p.L2Cache then 1 else 0) < p.instrRuns → 2 ≤ n) := by
  by_cases hl2 : p.L2Cache
  · rw [if_pos hl2]
    cases hruns : p.instrRuns with
    | zero =>
      rw [right_910B_iff_of_zero h hchip hl2 hruns]
      simp [hl2]
    | succ times =>
      rw [right_910B_iff_of_succ h hchip hl2 hruns]
      simp [hl2]
  · have hsupport := mt (l2Cache_of_support hchip) hl2
    rw [right_910B_iff_of_not h hchip hl2, if_neg hl2]
    simp [hl2, hsupport]

end Ascend910B

/-! ## 310P -/

section Ascend310P

/-- A round programs its group only if the first event of the cube core is set. -/
def coreRun (p : Profiling) (r : ℕ) : Run :=
  if p.firstAic r ≠ 0 ∨ r = 0 then [p.groupStart r] else []

def l2CacheRun (p : Profiling) (r : ℕ) : Run :=
  if r = 0 ∧ p.L2Cache then [.tsfwL2 (events p.config.l2CachePmu 0 KernelReplay.pmuEventMaxNum)]
  else []

theorem pmuEventMaxNum_310P (hchip : p.chip = .ascend310P) :
    p.chip.pmuEventMaxNum = KernelReplay.pmuEventMaxNum := by
  rw [hchip]
  rfl

theorem start_eq_310P (hchip : p.chip = .ascend310P) : p.start = ProfTaskOf310P.start := by
  rw [start, hchip]

theorem groups_310P (hchip : p.chip = .ascend310P) :
    p.groups = KernelReplay.eventMaxNum / KernelReplay.pmuEventMaxNum := by
  rw [groups, hchip]
  rfl

theorem startAiCore_eq (hchip : p.chip = .ascend310P) {r : ℕ} (hr : r < p.groups) :
    ProfTaskOf310P.startAiCore r p.config = .ok (coreRun p r) := by
  have hnum := pmuEventMaxNum_310P hchip
  rw [groups_310P hchip] at hr
  have hgroup := group_le hr
  have hpos : 0 < KernelReplay.pmuEventMaxNum := by decide
  unfold ProfTaskOf310P.startAiCore coreRun firstAic groupStart
  rw [read_eq (by omega), ok_bind, readEvents_eq hgroup, ok_bind, if_pos hchip, hnum]
  by_cases hcore : event p.config.aicPmu (r * KernelReplay.pmuEventMaxNum) ≠ 0 ∨ r = 0
  · rw [if_pos hcore, if_pos (by simpa using hcore)]
  · rw [if_neg hcore, if_neg (by simpa using hcore)]

theorem saveDuration_saved {r : ℕ} (hsaved : task.isHwtsStart = true) :
    ProfTaskOf310P.saveDuration r task = .ok ⟨true, [], task⟩ := by
  rw [ProfTaskOf310P.saveDuration, if_pos hsaved]

theorem saveDuration_fresh (hchip : p.chip = .ascend310P) (hconfig : task.profTaskConfig = p.config)
    (hfresh : task.isHwtsStart = false) {r : ℕ} (hr : r + 1 < p.groups) :
    ProfTaskOf310P.saveDuration r task =
      .ok (if p.firstAic (r + 1) = 0 then ProfTaskOf310P.startHwtsTask task
        else ⟨true, [], task⟩) := by
  have hnum := pmuEventMaxNum_310P hchip
  rw [groups_310P hchip] at hr
  have hgroup := group_le hr
  have hpos : 0 < KernelReplay.pmuEventMaxNum := by decide
  unfold ProfTaskOf310P.saveDuration firstAic
  rw [if_neg (by simp [hfresh]), hconfig, ← Nat.add_one_mul, read_eq (by omega), ok_bind, hnum]

/-- Behind the last group of a full table there is no event to read. -/
theorem saveDuration_outside (hchip : p.chip = .ascend310P) (hfresh : task.isHwtsStart = false)
    {r : ℕ} (hr : r + 1 = p.groups) :
    ProfTaskOf310P.saveDuration r task = .error .outOfBounds := by
  have hend : r * KernelReplay.pmuEventMaxNum + KernelReplay.pmuEventMaxNum =
      KernelReplay.eventMaxNum := by
    rw [← Nat.add_one_mul, hr, groups_310P hchip]
    rfl
  unfold ProfTaskOf310P.saveDuration
  rw [if_neg (by simp [hfresh]), read_outside (Nat.le_of_eq hend.symm)]
  rfl

theorem startL2Cache_eq (p : Profiling) (r : ℕ) :
    ProfTaskOf310P.startL2Cache r p.config = .ok (l2CacheRun p r) := by
  unfold ProfTaskOf310P.startL2Cache l2CacheRun L2Cache
  rw [readEvents_eq (by decide), ok_bind]
  split_ifs <;> rfl

theorem start_310P (hchip : p.chip = .ascend310P) (hconfig : task.profTaskConfig = p.config)
    {r : ℕ} (hr : r < p.groups) {hwts : Started}
    (hsave : ProfTaskOf310P.saveDuration r task = .ok hwts) :
    p.start r task =
      .ok ⟨true, coreRun p r ++ hwts.starts ++ l2CacheRun p r, hwts.task⟩ := by
  have hinside := hr
  rw [groups_310P hchip] at hinside
  rw [start_eq_310P hchip, ProfTaskOf310P.start, if_neg (Nat.not_le.mpr hinside), hconfig,
    startAiCore_eq hchip hr, hsave, startL2Cache_eq]
  rfl

theorem start_310P_outside (hchip : p.chip = .ascend310P) (hconfig : task.profTaskConfig = p.config)
    (hfresh : task.isHwtsStart = false) {r : ℕ} (hr : r + 1 = p.groups) :
    p.start r task = .error .outOfBounds := by
  have hlt : r < p.groups := by omega
  have hinside := hlt
  rw [groups_310P hchip] at hinside
  rw [start_eq_310P hchip, ProfTaskOf310P.start, if_neg (Nat.not_le.mpr hinside), hconfig,
    startAiCore_eq hchip hlt, ok_bind, saveDuration_outside hchip hfresh hr]
  rfl

theorem stop_310P (hchip : p.chip = .ascend310P) (task : Task) : p.stop task = task := by
  unfold stop
  rw [hchip]
  rfl

theorem filter_coreRun (p : Profiling) (r : ℕ) :
    (coreRun p r).filter DriverStart.isGroup = coreRun p r := by
  unfold coreRun
  split_ifs
  · exact List.filter_cons_of_pos (isGroup_groupStart p r)
  · rfl

theorem other_l2CacheRun (p : Profiling) (r : ℕ) : Other (l2CacheRun p r) := by
  unfold l2CacheRun
  split_ifs <;> exact ⟨rfl, rfl⟩

/-- What a round with the channels of 310P programs. -/
theorem programs_round (p : Profiling) (r : ℕ) {duration : Run}
    (hduration : duration.filter DriverStart.isGroup = []) :
    programs [coreRun p r ++ duration ++ l2CacheRun p r] = coreRun p r := by
  unfold programs
  rw [List.flatMap_singleton, List.filter_append, List.filter_append, filter_coreRun, hduration,
    (other_l2CacheRun p r).1, List.append_nil, List.append_nil]

/-- The saving of a duration neither programs a group nor changes the configuration. -/
theorem saveDuration_other {r : ℕ} {hwts : Started}
    (h : ProfTaskOf310P.saveDuration r task = .ok hwts) :
    hwts.starts.filter DriverStart.isGroup = [] ∧
      hwts.task.profTaskConfig = task.profTaskConfig := by
  unfold ProfTaskOf310P.saveDuration at h
  split_ifs at h with hsaved
  · cases h
    exact ⟨rfl, rfl⟩
  · cases hread : read task.profTaskConfig.aicPmu
        (r * KernelReplay.pmuEventMaxNum + KernelReplay.pmuEventMaxNum) with
    | error fault =>
      rw [hread] at h
      cases h
    | ok next =>
      rw [hread, ok_bind] at h
      cases h
      split_ifs <;> exact ⟨rfl, rfl⟩

theorem replayRounds_succ (h : p.NonEmptyPrefix n) (hchip : p.chip = .ascend310P)
    (hconfig : task.profTaskConfig = p.config) {r : ℕ} (hr : r < programmed n) {hwts : Started}
    (hsave : ProfTaskOf310P.saveDuration r task = .ok hwts) (rounds : ℕ) :
    p.replayRounds (rounds + 1) r task = (p.replayRounds rounds (r + 1) hwts.task).map fun rest =>
      (coreRun p r ++ hwts.starts ++ l2CacheRun p r) :: rest := by
  have hgroups : r < p.groups := Nat.lt_of_lt_of_le hr (programmed_le h)
  rw [replayRounds, replayOnce_runs h hr (start_310P hchip hconfig hgroups hsave), ok_bind,
    stop_310P hchip]
  dsimp only
  cases p.replayRounds rounds (r + 1) hwts.task <;> rfl

theorem replayRounds_error (h : p.NonEmptyPrefix n) (hchip : p.chip = .ascend310P)
    (hconfig : task.profTaskConfig = p.config) (hfresh : task.isHwtsStart = false) {r : ℕ}
    (hr : r < programmed n) (hend : r + 1 = p.groups) (rounds : ℕ) :
    p.replayRounds (rounds + 1) r task = .error .outOfBounds := by
  rw [replayRounds, replayOnce_error h hr (start_310P_outside hchip hconfig hfresh hend)]
  rfl

/-- Rounds that come to an end have programmed the groups with an event of the cube core. -/
theorem programs_rounds (h : p.NonEmptyPrefix n) (hchip : p.chip = .ascend310P) {rounds r : ℕ}
    (hrounds : programmed n ≤ r + rounds) (hconfig : task.profTaskConfig = p.config)
    {runs : List Run} (hruns : p.replayRounds rounds r task = .ok runs) :
    programs runs = (List.range' r (programmed n - r)).flatMap (coreRun p) := by
  induction rounds generalizing r task runs with
  | zero =>
    have hnone : programmed n - r = 0 := Nat.sub_eq_zero_of_le hrounds
    cases hruns
    rw [hnone]
    rfl
  | succ rounds ih =>
    by_cases hr : r < programmed n
    · have hleft : programmed n - r = (programmed n - (r + 1)) + 1 := by omega
      have hgroups : r < p.groups := Nat.lt_of_lt_of_le hr (programmed_le h)
      obtain ⟨hwts, hsave⟩ : ∃ hwts, ProfTaskOf310P.saveDuration r task = .ok hwts := by
        cases hsaved : task.isHwtsStart with
        | true => exact ⟨_, saveDuration_saved hsaved⟩
        | false =>
          by_cases hend : r + 1 = p.groups
          · rw [replayRounds_error h hchip hconfig hsaved hr hend] at hruns
            cases hruns
          · exact ⟨_, saveDuration_fresh hchip hconfig hsaved (by omega)⟩
      obtain ⟨hother, hsame⟩ := saveDuration_other hsave
      rw [replayRounds_succ h hchip hconfig hr hsave] at hruns
      cases hrest : p.replayRounds rounds (r + 1) hwts.task with
      | error fault =>
        rw [hrest] at hruns
        cases hruns
      | ok rest =>
        rw [hrest] at hruns
        cases hruns
        dsimp only
        rw [← List.singleton_append, programs_append, programs_round p r hother,
          ih (by omega) (hsame.trans hconfig) hrest, hleft, List.range'_succ, List.flatMap_cons]
    · have hnone : programmed n - r = 0 := Nat.sub_eq_zero_of_le (Nat.not_lt.mp hr)
      rw [replayRounds_skips h (Nat.not_lt.mp hr)] at hruns
      cases hruns
      rw [hnone]
      rfl

/-- Every group that is not empty has an event of the cube core, but group 0 may have none. -/
def CoreEvents (p : Profiling) (n : ℕ) : Prop := ∀ r, 0 < r → r < n → p.firstAic r ≠ 0

def hwtsRuns (p : Profiling) (n : ℕ) (saved : Bool) (r : ℕ) : Run :=
  coreRun p r ++ (if !saved && r + 1 = programmed n then [.hwts] else []) ++ l2CacheRun p r

theorem firstAic_last (h : p.NonEmptyPrefix n) {r : ℕ} (hr : r + 1 = programmed n)
    (hgroups : programmed n < p.groups) : p.firstAic (r + 1) = 0 := by
  have hempty : p.groups ≤ r + 1 ∨ p.IsEmpty (r + 1) := by
    rw [empty_iff h, hr]
    exact Nat.le_max_right 1 n
  exact (hempty.resolve_left (by omega)).1

/-- What becomes of the duration in a round of a table that is not full. -/
theorem saveDuration_round (h : p.NonEmptyPrefix n) (hchip : p.chip = .ascend310P)
    (hcore : CoreEvents p n) (hn : n < p.groups) {r : ℕ} (hr : r < programmed n) {saved : Bool}
    (hconfig : task.profTaskConfig = p.config) (hsaved : task.isHwtsStart = saved) :
    ∃ hwts, ProfTaskOf310P.saveDuration r task = .ok hwts ∧
      hwts.starts = (if !saved && r + 1 = programmed n then [.hwts] else []) ∧
      (r + 1 < programmed n → hwts.task = task) := by
  have hgroups : programmed n < p.groups := by
    rw [groups_310P hchip] at hn ⊢
    exact Nat.max_lt.mpr ⟨by decide, hn⟩
  cases hsaving : saved with
  | true => exact ⟨_, saveDuration_saved (hsaved.trans hsaving), rfl, fun _ => rfl⟩
  | false =>
    have hsave := saveDuration_fresh hchip hconfig (hsaved.trans hsaving) (r := r) (by omega)
    refine ⟨_, hsave, ?_⟩
    by_cases hend : r + 1 = programmed n
    · rw [if_pos (firstAic_last h hend hgroups)]
      simp [hend, ProfTaskOf310P.startHwtsTask]
    · have hnext : p.firstAic (r + 1) ≠ 0 := by
        refine hcore (r + 1) (Nat.succ_pos r) ?_
        unfold programmed at hr hend
        omega
      rw [if_neg hnext]
      simp [hend]

/-- A round leaves the configuration, and the duration unsaved if another group follows. -/
theorem replayOnce_310P (h : p.NonEmptyPrefix n) (hchip : p.chip = .ascend310P)
    (hcore : CoreEvents p n) (hn : n < p.groups) {saved : Bool} : ∀ r < programmed n, ∀ task,
    task.profTaskConfig = p.config ∧ task.isHwtsStart = saved → ∃ task',
      p.replayOnce r task = .ok ([hwtsRuns p n saved r], task') ∧
        (r + 1 < programmed n → task'.profTaskConfig = p.config ∧ task'.isHwtsStart = saved) := by
  intro r hr task hinv
  obtain ⟨hconfig, hsaved⟩ := hinv
  have hgroups : r < p.groups := Nat.lt_of_lt_of_le hr (programmed_le h)
  obtain ⟨hwts, hsave, hstarts, hkept⟩ := saveDuration_round h hchip hcore hn hr hconfig hsaved
  refine ⟨hwts.task, ?_, fun hnext => ?_⟩
  · rw [replayOnce_runs h hr (start_310P hchip hconfig hgroups hsave), stop_310P hchip, hstarts]
    rfl
  · rw [hkept hnext]
    exact ⟨hconfig, hsaved⟩

/-- The rounds of a full table look behind it, as long as the duration is not saved. -/
theorem replayRounds_outside (h : p.NonEmptyPrefix n) (hchip : p.chip = .ascend310P)
    (hcore : CoreEvents p n) (hn : n = p.groups) {rounds r : ℕ}
    (hrounds : programmed n ≤ r + rounds) (hr : r < programmed n)
    (hconfig : task.profTaskConfig = p.config) (hfresh : task.isHwtsStart = false) :
    p.replayRounds rounds r task = .error .outOfBounds := by
  have hall : programmed n = p.groups := by
    rw [← hn]
    refine Nat.max_eq_right ?_
    rw [hn, groups_310P hchip]
    decide
  induction rounds generalizing r task with
  | zero => exact absurd hr (Nat.not_lt.mpr hrounds)
  | succ rounds ih =>
    by_cases hend : r + 1 = p.groups
    · exact replayRounds_error h hchip hconfig hfresh hr hend rounds
    · have hsave := saveDuration_fresh hchip hconfig hfresh (r := r) (by omega)
      have hnext : p.firstAic (r + 1) ≠ 0 := hcore (r + 1) (Nat.succ_pos r) (by omega)
      rw [if_neg hnext] at hsave
      rw [replayRounds_succ h hchip hconfig hr hsave, ih (by omega) (by omega) hconfig hfresh]
      rfl

/-- Instrumented runs save the duration if group 1 has no event of the cube core. -/
theorem instrTimes_310P (hchip : p.chip = .ascend310P) (times : ℕ)
    (hconfig : task.profTaskConfig = p.config) :
    ∃ task', p.instrTimes times task = .ok task' ∧ task'.profTaskConfig = p.config ∧
      task'.isHwtsStart = (task.isHwtsStart || decide (0 < times ∧ p.firstAic 1 = 0)) := by
  have hgroups : 0 + 1 < p.groups := by
    rw [groups_310P hchip]
    decide
  induction times generalizing task with
  | zero => exact ⟨task, rfl, hconfig, by simp⟩
  | succ times ih =>
    obtain ⟨hwts, hsave, hsaved⟩ : ∃ hwts, ProfTaskOf310P.saveDuration 0 task = .ok hwts ∧
        hwts.task.isHwtsStart = (task.isHwtsStart || decide (p.firstAic 1 = 0)) := by
      cases hstarted : task.isHwtsStart with
      | true => exact ⟨_, saveDuration_saved hstarted, by simp [hstarted]⟩
      | false =>
        refine ⟨_, saveDuration_fresh hchip hconfig hstarted hgroups, ?_⟩
        by_cases hfirst : p.firstAic 1 = 0
        · simp [hfirst, ProfTaskOf310P.startHwtsTask]
        · simp [hfirst, hstarted]
    obtain ⟨task', hrun, hconfig', hstarted⟩ :=
      ih ((saveDuration_other hsave).2.trans hconfig)
    refine ⟨task', ?_, hconfig', ?_⟩
    · rw [instrTimes, instrProfData, start_310P hchip hconfig (Nat.lt_of_succ_lt hgroups) hsave,
        ok_bind, ok_bind, stop_310P hchip]
      exact hrun
    · rw [hstarted, hsaved]
      by_cases hfirst : p.firstAic 1 = 0
      · simp [hfirst]
      · simp [hfirst]

theorem filter_hwtsRuns (hcore : CoreEvents p n) (saved : Bool) {r : ℕ} (hr : r < programmed n) :
    (hwtsRuns p n saved r).filter DriverStart.isGroup = [p.groupStart r] := by
  have hset : p.firstAic r ≠ 0 ∨ r = 0 := by
    obtain rfl | hlt := lt_programmed_iff.mp hr
    · exact Or.inr rfl
    · by_cases hzero : r = 0
      · exact Or.inr hzero
      · exact Or.inl (hcore r (Nat.pos_of_ne_zero hzero) hlt)
  unfold hwtsRuns
  rw [List.filter_append, List.filter_append, filter_coreRun, (other_l2CacheRun p r).1, coreRun,
    if_pos hset]
  split_ifs <;> rfl

theorem any_hwtsRuns (p : Profiling) (n : ℕ) (saved : Bool) (r : ℕ) :
    (hwtsRuns p n saved r).any DriverStart.isDuration = (!saved && r + 1 = programmed n) := by
  have hcore : (coreRun p r).any DriverStart.isDuration = false := by
    unfold coreRun
    split_ifs
    · rw [List.any_cons, isDuration_groupStart]
      rfl
    · rfl
  unfold hwtsRuns
  rw [List.any_append, List.any_append, hcore, (other_l2CacheRun p r).2]
  split_ifs with hlast
  · simp [hlast]
    rfl
  · simp [hlast]

theorem length_coreRuns (p : Profiling) (rs : List ℕ) : (rs.flatMap (coreRun p)).length =
    rs.countP fun r => p.firstAic r ≠ 0 ∨ r = 0 := by
  induction rs with
  | nil => rfl
  | cons r rs ih =>
    rw [List.flatMap_cons, List.length_append, ih, List.countP_cons, coreRun]
    by_cases hset : p.firstAic r ≠ 0 ∨ r = 0
    · simp [hset]
      omega
    · simp [hset]

/-- A schedule needs an event of the cube core in each group. -/
theorem coreEvents_of_programs {runs : List Run} (hscheduled : p.Scheduled n runs)
    (hprograms : programs runs = (List.range (programmed n)).flatMap (coreRun p)) :
    CoreEvents p n := by
  have hlength := length_programs hscheduled
  have hall : ((List.range (programmed n)).countP fun r => p.firstAic r ≠ 0 ∨ r = 0) =
      (List.range (programmed n)).length := by
    rw [← length_coreRuns, ← hprograms, hlength, List.length_range]
  intro r hpos hr
  have hlt : r < programmed n := lt_programmed_iff.mpr (Or.inr hr)
  have hset := List.countP_eq_length.mp hall r (List.mem_range.mpr hlt)
  exact (of_decide_eq_true hset).resolve_right (Nat.ne_of_gt hpos)

theorem scheduled_hwtsRuns_iff (hcore : CoreEvents p n) (saved : Bool) :
    p.Scheduled n ((List.range (programmed n)).map (hwtsRuns p n saved)) ↔ saved = false :=
  @scheduled_runs_iff p n [] _ _ (fun _ hrun => by cases hrun)
    (fun _ hr => filter_hwtsRuns hcore saved hr) (any_hwtsRuns p n saved)

/-- Group 1 is empty if there is one group at most. -/
theorem firstAic_one (h : p.NonEmptyPrefix n) (hchip : p.chip = .ascend310P)
    (hcore : CoreEvents p n) : p.firstAic 1 = 0 ↔ n ≤ 1 := by
  have hgroups : ¬ p.groups ≤ 1 := by
    rw [groups_310P hchip]
    decide
  constructor
  · intro hfirst
    by_contra hmore
    exact hcore 1 Nat.one_pos (Nat.not_le.mp hmore) hfirst
  · intro hone
    exact (((empty_iff h 1).mpr hone).resolve_left hgroups).1

theorem right_310P_iff (h : p.NonEmptyPrefix n) (hchip : p.chip = .ascend310P) :
    p.Right n ↔ n < p.groups ∧ CoreEvents p n ∧ (0 < p.instrRuns → 2 ≤ n) := by
  obtain ⟨task, hrun, hconfig, hsaved⟩ := @instrTimes_310P p p.create hchip p.instrRuns rfl
  have hevict := @supportProfL2CacheEvict_of_ne p (by rw [hchip]; decide)
  have hreplay : p.profPreForInstrProf = p.replayRounds getReplayTimes 0 task := by
    rw [profPreForInstrProf_ok hrun, kernelReplay, hevict, if_neg Bool.false_ne_true, ok_bind]
    dsimp only
    cases p.replayRounds getReplayTimes 0 task <;> rfl
  have hrounds : programmed n ≤ 0 + getReplayTimes := by
    rw [Nat.zero_add]
    exact programmed_le_getReplayTimes h
  have hruns : CoreEvents p n → n < p.groups →
      (p.Right n ↔ (0 < p.instrRuns → 2 ≤ n)) := by
    intro hcore hn
    rw [right_iff (hreplay.trans (replayRounds_all h (replayOnce_310P h hchip hcore hn)
      ⟨hconfig, hsaved⟩)), scheduled_hwtsRuns_iff hcore]
    simp only [firstAic_one h hchip hcore]
    exact saved_iff p.instrRuns
  constructor
  · intro hright
    have hcore : CoreEvents p n := by
      obtain ⟨runs, hok, hscheduled⟩ := hright
      refine coreEvents_of_programs hscheduled ?_
      rw [programs_rounds h hchip hrounds hconfig (hreplay.symm.trans hok), Nat.sub_zero,
        List.range_eq_range']
    have hn : n < p.groups := by
      by_contra hfull
      have hall : n = p.groups := Nat.le_antisymm h.le (Nat.not_lt.mp hfull)
      have hmore : ¬ n ≤ 1 := by
        rw [hall, groups_310P hchip]
        decide
      have hfresh : task.isHwtsStart = false := by
        rw [hsaved]
        simp [firstAic_one h hchip hcore, hmore, create]
      have hfirst : 0 < programmed n := lt_programmed_iff.mpr (Or.inl rfl)
      obtain ⟨runs, hok, _⟩ := hright
      rw [hreplay, replayRounds_outside h hchip hcore hall hrounds hfirst hconfig hfresh] at hok
      cases hok
    exact ⟨hn, hcore, (hruns hcore hn).mp hright⟩
  · rintro ⟨hn, hcore, hmore⟩
    exact (hruns hcore hn).mpr hmore

end Ascend310P

/-! ## All chips -/

theorem right_iff_schedulable (p : Profiling) (n : ℕ) (h : p.NonEmptyPrefix n) :
    p.Right n ↔ p.Schedulable n := by
  unfold Schedulable
  cases hchip : p.chip with
  | ascend310P => exact right_310P_iff h hchip
  | ascend910B => exact right_910B_iff h hchip
  | ascend950 => exact right_950_iff h hchip

def aicEvents (n : ℕ) : EventTable := Vector.ofFn fun i => if i.val < n then 1 else 0

/-- Two groups on 910B and no instrumentation. -/
def twoGroups : Profiling where
  chip := .ascend910B
  config := { aicPmu := aicEvents 16 }
  dbi := fun _ => false

theorem right_twoGroups : twoGroups.Right 2 :=
  (right_iff_schedulable twoGroups 2 ⟨by decide, by decide +kernel⟩).mpr
    ⟨fun _ => by decide +kernel, fun h => absurd h (by decide +kernel), fun _ => Nat.le_refl 2⟩

/-- The whole table is filled on 310P. -/
def fullTable : Profiling where
  chip := .ascend310P
  config := { aicPmu := aicEvents eventMaxNum }
  dbi := fun _ => false

/-- The check for the last group reads the event behind the table. -/
theorem not_right_fullTable : fullTable.NonEmptyPrefix 12 ∧
    fullTable.profPreForInstrProf = .error .outOfBounds ∧ ¬ fullTable.Right 12 := by
  have hnone : fullTable.profPreForInstrProf.toOption = none := by decide +kernel
  have hfault : fullTable.profPreForInstrProf = .error .outOfBounds := by
    cases hreplay : fullTable.profPreForInstrProf with
    | error fault => rfl
    | ok runs =>
      rw [hreplay] at hnone
      cases hnone
  refine ⟨⟨by decide, by decide +kernel⟩, hfault, fun ⟨runs, hok, _⟩ => ?_⟩
  rw [hfault] at hok
  cases hok

end Msopcom.ProfTask.Profiling
