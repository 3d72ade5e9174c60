import Msopcom.PmuSchedule

set_option autoImplicit false

/-!
# The runs of a replay

Where the task of the chip is ready, the rounds program the groups one after the other. What
comes before them decides whether it is.
-/
namespace Msopcom.ProfTask.Profiling
open KernelReplay

variable {p : Profiling} {n r rounds : ℕ} {task : Task}

/-! ## The groups of a table -/

theorem eventMaxNum_le (chip : Chip) : chip.eventMaxNum ≤ KernelReplay.eventMaxNum := by
  cases chip <;> decide

theorem pmuEventMaxNum_pos (chip : Chip) : 0 < chip.pmuEventMaxNum := by
  cases chip <;> decide

/-- The table is divided into groups without a rest. -/
theorem mul_groups (p : Profiling) : p.groups * p.chip.pmuEventMaxNum = p.chip.eventMaxNum := by
  unfold groups
  cases p.chip <;> decide

theorem eventMaxNum_le_mul_iff (p : Profiling) (r : ℕ) :
    p.chip.eventMaxNum ≤ r * p.chip.pmuEventMaxNum ↔ p.groups ≤ r := by
  rw [← mul_groups]
  exact Nat.mul_le_mul_right_iff (pmuEventMaxNum_pos p.chip)

/-- The check of the rounds reads inside of the tables. -/
theorem isPmuEventEmpty_eq (p : Profiling) (r : ℕ) :
    p.isPmuEventEmpty r = .ok (decide (p.groups ≤ r ∨ p.IsEmpty r)) := by
  unfold isPmuEventEmpty
  dsimp only
  by_cases hgroups : p.groups ≤ r
  · rw [if_pos ((eventMaxNum_le_mul_iff p r).mpr hgroups)]
    simp [hgroups]
  · have hinside : r * p.chip.pmuEventMaxNum < KernelReplay.eventMaxNum := by
      have hmax := mt (eventMaxNum_le_mul_iff p r).mp hgroups
      exact Nat.lt_of_lt_of_le (Nat.not_le.mp hmax) (eventMaxNum_le p.chip)
    rw [if_neg (mt (eventMaxNum_le_mul_iff p r).mp hgroups), read_eq hinside, read_eq hinside,
      ok_bind, ok_bind]
    by_cases haic : p.firstAic r = 0
    · have hevent := haic
      unfold firstAic at hevent
      simp [hgroups, IsEmpty, haic, hevent, firstAiv]
    · have hevent := haic
      unfold firstAic at hevent
      simp [hgroups, IsEmpty, haic, hevent]

/-- It is the check that decides how often the kernel is replayed. -/
theorem isPmuEventEmpty_launch (p : Profiling) (r : ℕ) :
    p.isPmuEventEmpty r = .ok (p.launch.isPmuEventEmpty r) := by
  rw [isPmuEventEmpty_eq]
  simp only [← eventMaxNum_le_mul_iff]
  cases hchip : p.chip <;>
    simp [hchip, Launch.isPmuEventEmpty, launch, Chip.series, Chip.pmuEventMaxNum,
      Chip.eventMaxNum, IsEmpty, firstAic, firstAiv, event]

theorem empty_iff (h : p.NonEmptyPrefix n) (r : ℕ) : p.groups ≤ r ∨ p.IsEmpty r ↔ n ≤ r := by
  have hle := h.le
  by_cases hgroups : p.groups ≤ r
  · exact iff_of_true (Or.inl hgroups) (Nat.le_trans hle hgroups)
  · rw [or_iff_right hgroups, ← not_iff_not, h.iff r (Nat.not_le.mp hgroups), Nat.not_le]

/-- Behind the last group there is none, or an empty one. -/
theorem isLast_iff (h : p.NonEmptyPrefix n) (hr : r < p.groups) :
    IsLast p.config p.chip.pmuEventMaxNum p.chip.eventMaxNum r ↔ n ≤ r + 1 := by
  rw [← empty_iff h (r + 1), IsLast, ← Nat.succ_mul]
  refine or_congr ⟨fun heq => Nat.le_of_eq heq.symm, fun hle => ?_⟩ Iff.rfl
  exact Nat.le_antisymm hr hle

theorem lt_programmed_iff : r < programmed n ↔ r = 0 ∨ r < n := by
  unfold programmed
  omega

theorem groups_pos (p : Profiling) : 0 < p.groups := by
  unfold groups
  cases p.chip <;> decide

theorem programmed_le (h : p.NonEmptyPrefix n) : programmed n ≤ p.groups :=
  Nat.max_le.mpr ⟨groups_pos p, h.le⟩

/-! ## One round -/

theorem replayOnce_skips (h : p.NonEmptyPrefix n) (hr : programmed n ≤ r) (task : Task) :
    p.replayOnce r task = .ok ([], task) := by
  have hpos : r ≠ 0 ∧ n ≤ r := by
    unfold programmed at hr
    omega
  unfold replayOnce
  rw [isPmuEventEmpty_eq, ok_bind]
  simp [empty_iff h, hpos]

/-- A round that is not skipped is a start and a stop; the check of the next group cannot fail. -/
theorem replayOnce_eq (h : p.NonEmptyPrefix n) (hr : r < programmed n) (task : Task) :
    p.replayOnce r task =
      (p.start r task).map fun started => ([started.starts], p.stop started.task) := by
  have hrun : ¬ (n ≤ r ∧ r ≠ 0) := by
    unfold programmed at hr
    omega
  unfold replayOnce
  rw [isPmuEventEmpty_eq, ok_bind, if_neg (by simpa [empty_iff h] using hrun)]
  cases p.start r task with
  | error fault => rfl
  | ok started =>
    rw [ok_bind, isPmuEventEmpty_eq]
    split_ifs <;> rfl

theorem replayOnce_runs (h : p.NonEmptyPrefix n) (hr : r < programmed n) {starts : Run}
    {task' : Task} (hstart : p.start r task = .ok ⟨true, starts, task'⟩) :
    p.replayOnce r task = .ok ([starts], p.stop task') := by
  rw [replayOnce_eq h hr, hstart]
  rfl

theorem replayOnce_error (h : p.NonEmptyPrefix n) (hr : r < programmed n) {fault : Fault}
    (hstart : p.start r task = .error fault) : p.replayOnce r task = .error fault := by
  rw [replayOnce_eq h hr, hstart]
  rfl

/-! ## All rounds -/

theorem replayRounds_skips (h : p.NonEmptyPrefix n) (hr : programmed n ≤ r) (rounds : ℕ)
    (task : Task) : p.replayRounds rounds r task = .ok [] := by
  induction rounds generalizing r with
  | zero => rfl
  | succ rounds ih =>
    rw [replayRounds, replayOnce_skips h hr, ok_bind]
    dsimp only
    rw [ih (Nat.le_succ_of_le hr)]
    rfl

/-- The rounds run one after the other, if a round keeps what the next one needs of the task. -/
theorem replayRounds_of_round (h : p.NonEmptyPrefix n) {run : ℕ → Run} {I : Task → Prop}
    (hround : ∀ r < programmed n, ∀ task, I task → ∃ task',
      p.replayOnce r task = .ok ([run r], task') ∧ (r + 1 < programmed n → I task'))
    (hinv : I task) (hrounds : programmed n ≤ r + rounds) :
    p.replayRounds rounds r task = .ok ((List.range' r (programmed n - r)).map run) := by
  induction rounds generalizing r task with
  | zero =>
    have hnone : programmed n - r = 0 := Nat.sub_eq_zero_of_le hrounds
    rw [hnone]
    rfl
  | succ rounds ih =>
    by_cases hr : r < programmed n
    · have hleft : programmed n - r = (programmed n - (r + 1)) + 1 := by omega
      obtain ⟨task', honce, hkept⟩ := hround r hr task hinv
      rw [replayRounds, honce, ok_bind, hleft, List.range'_succ, List.map_cons]
      dsimp only
      by_cases hnext : r + 1 < programmed n
      · rw [ih (hkept hnext) (by omega)]
        rfl
      · rw [replayRounds_skips h (Nat.not_lt.mp hnext), Nat.sub_eq_zero_of_le (Nat.not_lt.mp hnext)]
        rfl
    · rw [replayRounds_skips h (Nat.not_lt.mp hr), Nat.sub_eq_zero_of_le (Nat.not_lt.mp hr)]
      rfl

/-- The rounds of the replay are enough for every table. -/
theorem programmed_le_getReplayTimes (h : p.NonEmptyPrefix n) : programmed n ≤ getReplayTimes := by
  refine Nat.le_trans (programmed_le h) ?_
  unfold groups
  cases p.chip <;> decide

theorem replayRounds_all (h : p.NonEmptyPrefix n) {run : ℕ → Run} {I : Task → Prop}
    (hround : ∀ r < programmed n, ∀ task, I task → ∃ task',
      p.replayOnce r task = .ok ([run r], task') ∧ (r + 1 < programmed n → I task'))
    (hinv : I task) :
    p.replayRounds getReplayTimes 0 task = .ok ((List.range (programmed n)).map run) := by
  have hrounds : programmed n ≤ 0 + getReplayTimes := by
    rw [Nat.zero_add]
    exact programmed_le_getReplayTimes h
  rw [replayRounds_of_round h hround hinv hrounds, List.range_eq_range']
  rfl

/-! ## Tasks that are ready -/

/-- The task of a chip with FFTS programs the groups of the configuration next. -/
structure Ready (p : Profiling) (task : Task) : Prop where
  aicPmu : task.profTaskConfig.aicPmu = p.config.aicPmu
  aivPmu : task.profTaskConfig.aivPmu = p.config.aivPmu
  chip : p.chip ≠ .ascend310P
  l2CachePmu : p.chip = .ascend910B → task.profTaskConfig.l2CachePmu[0]?.getD 0 = 0
  instrProfState : p.chip = .ascend950 → task.instrProfState = .done ∨
    (task.instrProfState = .idle ∧ (p.launch.isPCSamplingEnabled && p.hasSimt) = false ∧
      p.launch.isTimelineEnabled = false)

def aicpuRun (p : Profiling) (r : ℕ) : Run :=
  if p.chip = .ascend910B ∧ r = 0 ∧ p.isMC2 = true then [.aicpu] else []

/-- The task behind the FFTS channel of a round. -/
def behindFfts (n r : ℕ) (task : Task) : Task :=
  if n ≤ r + 1 then { task with isLastReplay := true } else task

@[simp] theorem behindFfts_isStarsStart (n r : ℕ) (task : Task) :
    (behindFfts n r task).isStarsStart = task.isStarsStart := by
  unfold behindFfts
  split_ifs <;> rfl

@[simp] theorem behindFfts_isLastReplay (n r : ℕ) (task : Task) :
    (behindFfts n r task).isLastReplay = (task.isLastReplay || decide (n ≤ r + 1)) := by
  unfold behindFfts
  split_ifs with hlast <;> simp [hlast]

theorem ffts_ready (h : p.NonEmptyPrefix n) (hready : Ready p task) (hr : r < p.groups) :
    startFFTSTask p.chip.pmuEventMaxNum p.chip.eventMaxNum r task =
      .ok ⟨true, [p.groupStart r], behindFfts n r task⟩ := by
  have hlast : IsLast task.profTaskConfig p.chip.pmuEventMaxNum p.chip.eventMaxNum r ↔
      n ≤ r + 1 := by
    rw [← isLast_iff h hr, IsLast, IsLast, hready.aicPmu, hready.aivPmu]
  rw [startFFTSTask_eq (pmuEventMaxNum_pos p.chip) (eventMaxNum_le p.chip) hr, groupStart,
    if_neg hready.chip, hready.aicPmu, hready.aivPmu, behindFfts]
  simp only [hlast]

theorem start_ready (h : p.NonEmptyPrefix n) (hready : Ready p task) (hr : r < p.groups) :
    p.start r task = .ok ⟨true,
      p.groupStart r :: (aicpuRun p r ++ (saveDuration (behindFfts n r task)).starts),
      (saveDuration (behindFfts n r task)).task⟩ := by
  have hffts := ffts_ready h hready hr
  unfold start aicpuRun
  cases hchip : p.chip with
  | ascend310P => exact absurd hchip hready.chip
  | ascend910B =>
    rw [hchip] at hffts
    have htask : ProfTaskOf910B.startFFTSTask r task = _ := hffts
    dsimp only
    unfold ProfTaskOf910B.start
    dsimp only
    rw [if_neg (not_not.mpr (hready.l2CachePmu hchip)), htask, ok_bind]
    simp
  | ascend950 =>
    rw [hchip] at hffts
    have htask : ProfTaskOfA5.startFFTSTask r task = _ := hffts
    dsimp only
    unfold ProfTaskOfA5.start
    obtain hdone | ⟨hidle, hsampling, htimeline⟩ := hready.instrProfState hchip
    · rw [hdone, htask, ok_bind]
      simp
    · rw [hidle, htimeline, htask, ok_bind]
      simp [hsampling]

theorem stop_ready (hready : Ready p task) : p.stop task = task := by
  unfold stop
  cases hchip : p.chip with
  | ascend310P => rfl
  | ascend910B => rfl
  | ascend950 =>
    dsimp only
    unfold ProfTaskOfA5.stop
    obtain hdone | ⟨hidle, _⟩ := hready.instrProfState hchip
    · simp [hdone]
    · simp [hidle]

/-- The flags of the last replay and of the duration do not matter for being ready. -/
theorem ready_saveDuration (n r : ℕ) (hready : Ready p task) :
    Ready p (saveDuration (behindFfts n r task)).task := by
  unfold saveDuration behindFfts startStarsTask
  split_ifs
  · exact { hready with }
  · exact { hready with }
  · exact { hready with }
  · exact hready

/-- The channels of a round with FFTS, where `saved` says that the duration is saved already. -/
def fftsRun (p : Profiling) (n : ℕ) (saved : Bool) (r : ℕ) : Run :=
  p.groupStart r :: (aicpuRun p r ++ if !saved && r + 1 = programmed n then [.stars] else [])

/-- The duration is saved as soon as the last group is programmed, and once. -/
structure Saving (saved : Bool) (task : Task) : Prop where
  isStarsStart : task.isStarsStart = saved
  isLastReplay : saved = false → task.isLastReplay = false

theorem le_succ_iff (hr : r < programmed n) : n ≤ r + 1 ↔ r + 1 = programmed n := by
  unfold programmed at hr ⊢
  omega

theorem starts_behindFfts {saved : Bool} (hsaving : Saving saved task) (hr : r < programmed n) :
    (saveDuration (behindFfts n r task)).starts =
      if !saved && r + 1 = programmed n then [.stars] else [] := by
  rw [saveDuration_starts, behindFfts_isStarsStart, behindFfts_isLastReplay, hsaving.isStarsStart]
  cases saved with
  | true => rfl
  | false => simp [hsaving.isLastReplay rfl, le_succ_iff hr]

theorem saving_behindFfts {saved : Bool} (hsaving : Saving saved task)
    (hr : r + 1 < programmed n) : Saving saved (saveDuration (behindFfts n r task)).task := by
  have hnext : ¬ n ≤ r + 1 := by
    rw [le_succ_iff (Nat.lt_of_succ_lt hr)]
    exact Nat.ne_of_lt hr
  constructor
  · cases saved with
    | true => simp [hsaving.isStarsStart]
    | false => simp [hsaving.isStarsStart, hsaving.isLastReplay rfl, hnext]
  · intro hsaved
    simp [hsaving.isLastReplay hsaved, hnext]

/-- A round of a task that is ready leaves one that is ready. -/
theorem replayOnce_ready (h : p.NonEmptyPrefix n) {saved : Bool} : ∀ r < programmed n,
    ∀ task, Ready p task ∧ Saving saved task → ∃ task',
      p.replayOnce r task = .ok ([fftsRun p n saved r], task') ∧
        (r + 1 < programmed n → Ready p task' ∧ Saving saved task') := by
  intro r hr task hinv
  obtain ⟨hready, hsaving⟩ := hinv
  have hgroups : r < p.groups := Nat.lt_of_lt_of_le hr (programmed_le h)
  have hafter := ready_saveDuration n r hready
  refine ⟨(saveDuration (behindFfts n r task)).task, ?_, fun hnext => ?_⟩
  · rw [replayOnce_runs h hr (start_ready h hready hgroups), starts_behindFfts hsaving hr,
      stop_ready hafter]
    rfl
  · exact ⟨hafter, saving_behindFfts hsaving hnext⟩

/-! ## Schedules -/

theorem isGroup_groupStart (p : Profiling) (r : ℕ) : (p.groupStart r).isGroup = true := by
  unfold groupStart
  dsimp only
  split_ifs <;> rfl

theorem isDuration_groupStart (p : Profiling) (r : ℕ) : (p.groupStart r).isDuration = false := by
  unfold groupStart
  dsimp only
  split_ifs <;> rfl

/-- A run that neither programs a group nor saves the duration. -/
def Other (run : Run) : Prop :=
  run.filter DriverStart.isGroup = [] ∧ run.any DriverStart.isDuration = false

theorem other_aicpuRun (p : Profiling) (r : ℕ) : Other (aicpuRun p r) := by
  unfold aicpuRun
  split_ifs <;> exact ⟨rfl, rfl⟩

/-- The groups that runs program. -/
def programs (runs : List Run) : List DriverStart :=
  runs.flatMap fun run => run.filter DriverStart.isGroup

theorem programs_append (front runs : List Run) :
    programs (front ++ runs) = programs front ++ programs runs := List.flatMap_append

theorem programs_other {front : List Run} (h : ∀ run ∈ front, Other run) : programs front = [] :=
  List.flatMap_eq_nil_iff.mpr fun run hrun => (h run hrun).1

theorem programs_map {run : ℕ → Run} {rs : List ℕ}
    (h : ∀ r ∈ rs, (run r).filter DriverStart.isGroup = [p.groupStart r]) :
    programs (rs.map run) = rs.map p.groupStart := by
  induction rs with
  | nil => rfl
  | cons r rs ih =>
    obtain ⟨hr, hrs⟩ := List.forall_mem_cons.mp h
    unfold programs
    rw [List.map_cons, List.flatMap_cons, hr, List.map_cons, List.singleton_append]
    exact congrArg _ (ih hrs)

theorem scheduled_of_runs {front : List Run} {run : ℕ → Run} (hfront : ∀ run ∈ front, Other run)
    (hgroup : ∀ r < programmed n, (run r).filter DriverStart.isGroup = [p.groupStart r])
    (hduration : ∀ r < programmed n,
      (run r).any DriverStart.isDuration = decide (r + 1 = programmed n)) :
    p.Scheduled n (front ++ (List.range (programmed n)).map run) := by
  obtain ⟨k, hk⟩ : ∃ k, programmed n = k + 1 :=
    Nat.exists_eq_add_one.mpr (lt_programmed_iff.mpr (Or.inl rfl))
  constructor
  · have hmap := programs_map fun r hr => hgroup r (List.mem_range.mp hr)
    exact (programs_append _ _).trans (by rw [programs_other hfront, hmap, List.nil_append])
  · refine ⟨front ++ (List.range k).map run, run k, [], ?_, ?_, ?_, ?_, ?_⟩
    · rw [hk, List.range_succ, List.map_append, List.append_assoc]
      rfl
    · have hmem : p.groupStart k ∈ (run k).filter DriverStart.isGroup := by
        rw [hgroup k (by omega)]
        exact List.mem_singleton_self _
      exact List.any_eq_true.mpr ⟨_, (List.mem_filter.mp hmem).1, isGroup_groupStart p k⟩
    · exact fun run hrun => by cases hrun
    · rw [hduration k (by omega)]
      exact decide_eq_true hk.symm
    · intro before hbefore
      obtain hother | hmap := List.mem_append.mp hbefore
      · rw [(hfront before hother).2]
        exact Bool.false_ne_true
      · obtain ⟨r, hr, rfl⟩ := List.mem_map.mp hmap
        have hlt : r < k := List.mem_range.mp hr
        rw [hduration r (by omega)]
        simp
        omega

theorem length_programs {runs : List Run} (h : p.Scheduled n runs) :
    (programs runs).length = programmed n := by
  rw [programs, h.groups, List.length_map, List.length_range]

theorem exists_duration {runs : List Run} (h : p.Scheduled n runs) :
    ∃ run ∈ runs, run.any DriverStart.isDuration = true := by
  obtain ⟨before, last, after, rfl, _, _, hduration, _⟩ := h.duration
  exact ⟨last, List.mem_append_right _ List.mem_cons_self, hduration⟩

/-- One run for each group is right if the duration was not saved before them. -/
theorem scheduled_runs_iff {front : List Run} {run : ℕ → Run} {saved : Bool}
    (hfront : ∀ run ∈ front, Other run)
    (hgroup : ∀ r < programmed n, (run r).filter DriverStart.isGroup = [p.groupStart r])
    (hduration : ∀ r, (run r).any DriverStart.isDuration = (!saved && r + 1 = programmed n)) :
    p.Scheduled n (front ++ (List.range (programmed n)).map run) ↔ saved = false := by
  cases saved with
  | false =>
    refine iff_of_true (scheduled_of_runs hfront hgroup ?_) rfl
    intro r _
    rw [hduration]
    rfl
  | true =>
    refine iff_of_false (fun h => ?_) (by decide)
    obtain ⟨run', hrun, hsaves⟩ := exists_duration h
    obtain hother | hmap := List.mem_append.mp hrun
    · rw [(hfront run' hother).2] at hsaves
      cases hsaves
    · obtain ⟨r, _, rfl⟩ := List.mem_map.mp hmap
      rw [hduration] at hsaves
      cases hsaves

theorem filter_fftsRun (p : Profiling) (n : ℕ) (saved : Bool) (r : ℕ) :
    (fftsRun p n saved r).filter DriverStart.isGroup = [p.groupStart r] := by
  unfold fftsRun
  rw [List.filter_cons_of_pos (isGroup_groupStart p r), List.filter_append, (other_aicpuRun p r).1]
  split_ifs <;> rfl

theorem any_fftsRun (p : Profiling) (n : ℕ) (saved : Bool) (r : ℕ) :
    (fftsRun p n saved r).any DriverStart.isDuration = (!saved && r + 1 = programmed n) := by
  unfold fftsRun
  rw [List.any_cons, List.any_append, isDuration_groupStart, (other_aicpuRun p r).2]
  split_ifs with hlast
  · simp [hlast]
    rfl
  · simp [hlast]

theorem scheduled_fftsRuns_iff {front : List Run} (hfront : ∀ run ∈ front, Other run)
    (saved : Bool) :
    p.Scheduled n (front ++ (List.range (programmed n)).map (fftsRun p n saved)) ↔
      saved = false :=
  scheduled_runs_iff hfront (fun r _ => filter_fftsRun p n saved r) (any_fftsRun p n saved)

end Msopcom.ProfTask.Profiling
