import Msopcom.RangeReplayRuns

set_option autoImplicit false

/-!
# What a range captures

Where each thread ends its own ranges and launches on streams, a thread is in one valid range at a
time. The capture begins with the first operator that can begin it, and what is replayed at the end
of the range is that operator and those behind it.
-/
namespace Msopcom.RangeReplay
open MsTxRange (MstxProfConfig Message Range Session isInMstxRange rangeValid isMessageEnable Counted
  activeRanges usageOf entryOf)

/-- Streams are not null, and a valid range is ended by the thread that has started it. -/
def Orderly (s : State) : Event → Prop
  | .add _ _ => True
  | .launch _ l => l.stream ≠ 0
  | .stop thread rangeId _ =>
    ∀ r ∈ s.ranges, r.id = rangeId → r.valid = true → r.thread = thread

instance : DecidableRel Orderly
  | _, .add _ _ => isTrue trivial
  | _, .launch _ l => inferInstanceAs (Decidable (l.stream ≠ 0))
  | s, .stop thread rangeId _ =>
    inferInstanceAs (Decidable (∀ r ∈ s.ranges, r.id = rangeId → r.valid = true →
      r.thread = thread))

/-- A thread has at most one valid range, and it is in this range while it captures. -/
structure Tracked (env : Env) (s : State) : Prop where
  counted : ∀ thread message, Counted thread message s.session
  enabled : ∀ r ∈ s.ranges, r.valid = true → isMessageEnable env.config r.message = true
  single : ∀ r ∈ s.ranges, ∀ r' ∈ s.ranges, r.valid = true → r'.valid = true →
    r.thread = r'.thread → r = r'
  captured : ∀ t, (s.collector.configOf t).flag = true →
    (s.collector.configOf t).stream ≠ 0 ∧ ∃ r ∈ s.ranges, r.valid = true ∧ r.thread = t
  idle : ∀ t, (s.collector.configOf t).flag = false →
    s.collector.configOf t = (s.collector.configOf t).reset

theorem tracked_init (env : Env) : Tracked env {} := by
  constructor
  case counted => exact fun thread message => ⟨MsTxRange.inv_init, rfl⟩
  case enabled => simp
  case single => simp
  case captured => exact fun t h => absurd h Bool.false_ne_true
  case idle => exact fun t h => rfl

section Tracked
variable {env : Env} {s : State} (h : Tracked env s) (henable : env.config.isMstxEnable = true)
include h

include henable in
theorem inRange_iff (t : ℕ) : isInMstxRange env.config t s.collector.mstx = true ↔
    ∃ r ∈ s.ranges, r.valid = true ∧ r.thread = t := by
  have htidy := (h.counted 0 []).1.tidy
  have husage : ∀ message, usageOf s.collector.mstx.usageCount t message ≠ 0 ↔
      ∃ r ∈ s.ranges, r.valid = true ∧ r.thread = t ∧ r.message = message := by
    intro message
    have hcount := (h.counted t message).2
    rw [← MsTxRange.activeRanges_ne_zero_iff]
    exact not_congr (Eq.congr_left hcount)
  change isInMstxRange env.config t s.session.mstx = true ↔ _
  rw [MsTxRange.isInMstxRange_iff henable htidy]
  constructor
  · rintro ⟨message, _, hne⟩
    obtain ⟨r, hr, hvalid, hthread, _⟩ := (husage message).mp hne
    exact ⟨r, hr, hvalid, hthread⟩
  · rintro ⟨r, hr, hvalid, hthread⟩
    exact ⟨r.message, h.enabled r hr hvalid,
      (husage r.message).mpr ⟨r, hr, hvalid, hthread, rfl⟩⟩

/-- The range that a thread ends is counted if it is valid. -/
theorem isCountedRange_iff {t : ℕ} {rangeId : UInt64}
    (hown : ∀ r ∈ s.ranges, r.id = rangeId → r.valid = true → r.thread = t) :
    isCountedRange t rangeId s.collector.mstx = true ↔
      ∃ r ∈ s.ranges, r.id = rangeId ∧ r.valid = true := by
  have hinv := (h.counted 0 []).1
  unfold isCountedRange
  cases hlookup : s.collector.mstx.activeId2Message.lookup rangeId with
  | none =>
    refine iff_of_false Bool.false_ne_true ?_
    rintro ⟨r, hr, hid, _⟩
    have hsome : s.collector.mstx.activeId2Message.lookup rangeId = some r.message :=
      (hinv.active rangeId r.message).mpr ⟨r, hr, hid, rfl⟩
    rw [hlookup] at hsome
    cases hsome
  | some message =>
    obtain ⟨r, hr, hid, hmessage⟩ := (hinv.active rangeId message).mp hlookup
    have hvalid : r.valid = true ↔ rangeId ∉ s.collector.mstx.invalidRangeIds :=
      hid ▸ hinv.invalid r hr
    dsimp only
    by_cases hinvalid : rangeId ∈ s.collector.mstx.invalidRangeIds
    · rw [if_pos hinvalid]
      refine iff_of_false Bool.false_ne_true ?_
      rintro ⟨r', hr', hid', hvalid'⟩
      have heq : r = r' := hinv.distinct.eq_of_key_eq hr hr' (hid.trans hid'.symm)
      exact hvalid.mp (heq ▸ hvalid') hinvalid
    · have hthread : r.thread = t := hown r hr hid (hvalid.mpr hinvalid)
      have hne : usageOf s.collector.mstx.usageCount t message ≠ 0 := by
        have hcount : usageOf s.collector.mstx.usageCount t message =
            activeRanges s.ranges t message := (h.counted t message).2
        rw [hcount, MsTxRange.activeRanges_ne_zero_iff]
        exact ⟨r, hr, hvalid.mpr hinvalid, hthread, hmessage⟩
      have hentry := (MsTxRange.isSome_entryOf_iff hinv.tidy t message).mpr hne
      rw [if_neg hinvalid]
      refine iff_of_true ?_ ⟨r, hr, hid, hvalid.mpr hinvalid⟩
      change (entryOf s.collector.mstx.usageCount t message).isSome = true at hentry
      rw [entryOf] at hentry
      cases hcounts : s.collector.mstx.usageCount.lookup t with
      | none => rw [hcounts] at hentry; exact hentry
      | some counts => rw [hcounts] at hentry; exact hentry

end Tracked

section Keep
variable {env : Env} {s : State} (h : Tracked env s) (henable : env.config.isMstxEnable = true)
  (hreplay : env.config.isRangeReplay = true)
include h

theorem counted_step {e : Event} (hguard : Orderly s e) (thread : ℕ) (message : Message) :
    Counted thread message (step env s e).session := by
  rw [session_step]
  cases e with
  | add starter message' =>
    exact MsTxRange.counted_add env.config (h.counted thread message) starter message'
  | launch starter l => exact h.counted thread message
  | stop ender rangeId a =>
    refine MsTxRange.counted_stop env.config (h.counted thread message) fun r hr hid hvalid _ => ?_
    rw [hguard r hr hid hvalid]

omit h in
variable (env s) in
theorem ranges_add (thread : ℕ) (message : Message) :
    (step env s (.add thread message)).ranges = s.ranges ∨
      (step env s (.add thread message)).ranges = s.ranges ++
        [⟨s.collector.mstx.rangeId, thread, message,
          rangeValid env.config thread message s.collector.mstx⟩] := by
  unfold step MsTxRange.step MsTxRange.mstxRangeAdd
  by_cases hfull : s.collector.mstx.rangeId = MsTxRange.uint64Max
  · left
    simp [State.session, hfull]
  · right
    simp [State.session, hfull]

omit h in
include hreplay in
theorem rangeValid_iff (thread : ℕ) (message : Message) :
    rangeValid env.config thread message s.collector.mstx = true ↔
      isMessageEnable env.config message = true ∧
        isInMstxRange env.config thread s.collector.mstx = false := by
  rw [rangeValid, hreplay, if_pos rfl]
  cases isMessageEnable env.config message <;> simp

include henable hreplay in
theorem tracked_add (thread : ℕ) (message : Message) :
    Tracked env (step env s (.add thread message)) := by
  have hcounted := counted_step (e := .add thread message) h trivial
  have hconfig : ∀ t, (step env s (.add thread message)).collector.configOf t =
      s.collector.configOf t := fun t => by rw [configOf_step]; split_ifs <;> rfl
  rcases ranges_add env s thread message with hsame | hnew
  · exact ⟨hcounted, by simpa [hsame] using h.enabled, by simpa [hsame] using h.single,
      by simpa [hsame, hconfig] using h.captured, by simpa [hconfig] using h.idle⟩
  · have halone : rangeValid env.config thread message s.collector.mstx = true →
        ∀ r ∈ s.ranges, r.valid = true → r.thread ≠ thread := by
      intro hvalid r hr hr' hthread
      have hout := ((rangeValid_iff hreplay thread message).mp hvalid).2
      rw [(inRange_iff h henable thread).mpr ⟨r, hr, hr', hthread⟩] at hout
      cases hout
    constructor
    case counted => exact hcounted
    case enabled =>
      intro r hr hvalid
      rw [hnew, List.mem_append, List.mem_singleton] at hr
      rcases hr with hr | rfl
      · exact h.enabled r hr hvalid
      · exact ((rangeValid_iff hreplay thread message).mp hvalid).1
    case single =>
      intro r hr r' hr' hvalid hvalid' hthread
      rw [hnew, List.mem_append, List.mem_singleton] at hr hr'
      rcases hr with hr | rfl
      · rcases hr' with hr' | rfl
        · exact h.single r hr r' hr' hvalid hvalid' hthread
        · exact absurd hthread (halone hvalid' r hr hvalid)
      · rcases hr' with hr' | rfl
        · exact absurd hthread.symm (halone hvalid r' hr' hvalid')
        · rfl
    case captured =>
      intro t hflag
      rw [hconfig] at hflag ⊢
      obtain ⟨hstream, r, hr, hrange⟩ := h.captured t hflag
      exact ⟨hstream, r, hnew ▸ List.mem_append_left _ hr, hrange⟩
    case idle =>
      intro t hflag
      rw [hconfig] at hflag ⊢
      exact h.idle t hflag

omit h in
theorem ranges_launch (thread : ℕ) (l : Launch) :
    (step env s (.launch thread l)).ranges = s.ranges := rfl

omit h in
/-- What a launch leaves is what was there, or the capture that it is in. -/
theorem launched_cases (config : RangeReplayConfig) (l : Launch) :
    config.launched l = config ∨
      (config.launched l).flag = true ∧
        (config.launched l).stream = if config.flag then config.stream else l.stream := by
  unfold RangeReplayConfig.launched
  by_cases hfailed : (!config.flag && !l.captureBegin) = true
  · rw [if_pos hfailed]
    exact .inl rfl
  · rw [if_neg hfailed]
    exact .inr ⟨rfl, rfl⟩

omit h in
include hreplay in
theorem configOf_launch (thread t : ℕ) (l : Launch) :
    (step env s (.launch thread l)).collector.configOf t =
      if t = thread ∧ isInMstxRange env.config t s.collector.mstx = true then
        (s.collector.configOf t).launched l
      else s.collector.configOf t := by
  rw [configOf_step, next, Event.thread, hreplay, Bool.true_and]
  by_cases ht : t = thread
  · subst ht
    simp
  · simp [ht]

omit h in
include hreplay in
theorem configOf_stop (thread t : ℕ) (rangeId : UInt64) (a : Answers) :
    (step env s (.stop thread rangeId a)).collector.configOf t =
      if t = thread ∧ isCountedRange thread rangeId s.collector.mstx = true then
        (s.collector.configOf t).ended a
      else s.collector.configOf t := by
  rw [configOf_step, next, Event.thread, hreplay, Bool.and_true]
  by_cases ht : t = thread
  · simp [ht]
  · simp [ht]

include henable hreplay in
theorem tracked_launch (thread : ℕ) {l : Launch} (hstream : l.stream ≠ 0) :
    Tracked env (step env s (.launch thread l)) := by
  constructor
  case counted => exact counted_step (e := .launch thread l) h hstream
  case enabled => exact h.enabled
  case single => exact h.single
  case captured =>
    intro t
    rw [configOf_launch hreplay, ranges_launch]
    split_ifs with hrange
    · rcases launched_cases (s.collector.configOf t) l with hsame | ⟨_, hnew⟩
      · rw [hsame]
        exact h.captured t
      · refine fun _ => ⟨?_, (inRange_iff h henable t).mp hrange.2⟩
        rw [hnew]
        split_ifs with hflag
        · exact (h.captured t hflag).1
        · exact hstream
    · exact h.captured t
  case idle =>
    intro t
    rw [configOf_launch hreplay]
    split_ifs with hrange
    · rcases launched_cases (s.collector.configOf t) l with hsame | ⟨hflag, _⟩
      · rw [hsame]
        exact h.idle t
      · intro hidle
        rw [hflag] at hidle
        cases hidle
    · exact h.idle t

/-- What the end of a range leaves has no capture. -/
theorem ended_idle (t : ℕ) (a : Answers) : ((s.collector.configOf t).ended a).flag = false ∧
    (s.collector.configOf t).ended a = ((s.collector.configOf t).ended a).reset := by
  rw [RangeReplayConfig.ended]
  by_cases hopen : (s.collector.configOf t).isOpen = true
  · rw [if_pos hopen]
    exact ⟨rfl, rfl⟩
  · rw [if_neg hopen]
    cases hflag : (s.collector.configOf t).flag with
    | false => exact ⟨rfl, h.idle t hflag⟩
    | true =>
      rw [RangeReplayConfig.isOpen, hflag, Bool.true_and] at hopen
      exact absurd (decide_eq_true (h.captured t hflag).1) hopen

include hreplay in
theorem tracked_stop (thread : ℕ) {rangeId : UInt64} (a : Answers)
    (hown : ∀ r ∈ s.ranges, r.id = rangeId → r.valid = true → r.thread = thread) :
    Tracked env (step env s (.stop thread rangeId a)) := by
  have hranges : (step env s (.stop thread rangeId a)).ranges =
      s.ranges.filter fun r => r.id ≠ rangeId := rfl
  have hmem : ∀ r ∈ (step env s (.stop thread rangeId a)).ranges, r ∈ s.ranges := by
    intro r hr
    rw [hranges] at hr
    exact List.mem_of_mem_filter hr
  constructor
  case counted => exact counted_step (e := .stop thread rangeId a) h hown
  case enabled => exact fun r hr => h.enabled r (hmem r hr)
  case single => exact fun r hr r' hr' => h.single r (hmem r hr) r' (hmem r' hr')
  case captured =>
    intro t hflag
    rw [configOf_stop hreplay] at hflag ⊢
    split_ifs at hflag ⊢ with hcounted
    · rw [(ended_idle h t a).1] at hflag
      cases hflag
    · obtain ⟨hstream, r, hr, hvalid, hthread⟩ := h.captured t hflag
      refine ⟨hstream, r, ?_, hvalid, hthread⟩
      rw [hranges, List.mem_filter, decide_eq_true_eq]
      refine ⟨hr, fun hid => hcounted ⟨?_, ?_⟩⟩
      · rw [← hthread, hown r hr hid hvalid]
      · exact (isCountedRange_iff h hown).mpr ⟨r, hr, hid, hvalid⟩
  case idle =>
    intro t
    rw [configOf_stop hreplay]
    split_ifs with hcounted
    · exact fun _ => (ended_idle h t a).2
    · exact h.idle t

include henable hreplay in
theorem tracked_step {e : Event} (hguard : Orderly s e) : Tracked env (step env s e) := by
  cases e with
  | add thread message => exact tracked_add h henable hreplay thread message
  | launch thread l => exact tracked_launch h henable hreplay thread hguard
  | stop thread rangeId a => exact tracked_stop h hreplay thread a hguard

end Keep

/-! ## A range -/

/-- The launches of a thread. -/
def launchesOf (t : ℕ) (events : List Event) : List Launch :=
  events.filterMap fun
    | .launch thread l => if thread = t then some l else none
    | _ => none

def captureCalls : RangeReplayConfig → List Launch → List Call
  | _, [] => []
  | config, l :: ls => launchCalls config l ++ captureCalls (config.launched l) ls

theorem captureCalls_append (config : RangeReplayConfig) (ls ls' : List Launch) :
    captureCalls config (ls ++ ls') =
      captureCalls config ls ++ captureCalls (ls.foldl RangeReplayConfig.launched config) ls' := by
  induction ls generalizing config with
  | nil => rfl
  | cons l ls ih => rw [List.cons_append, captureCalls, captureCalls, ih, List.append_assoc]; rfl

section Within
variable {env : Env} (henable : env.config.isMstxEnable = true)
  (hreplay : env.config.isRangeReplay = true) {r : Range} (hvalid : r.valid = true)
include henable hreplay hvalid

/-- A range that is not ended stays the range of its thread. -/
theorem within_step {s : State} (h : Tracked env s) (hr : r ∈ s.ranges) {e : Event}
    (hguard : Orderly s e) (hopen : ∀ thread a, e ≠ .stop thread r.id a) :
    r ∈ (step env s e).ranges ∧
      (step env s e).collector.configOf r.thread =
        (launchesOf r.thread [e]).foldl RangeReplayConfig.launched
          (s.collector.configOf r.thread) ∧
      callsOf r.thread (step env s e).collector.calls = callsOf r.thread s.collector.calls ++
        captureCalls (s.collector.configOf r.thread) (launchesOf r.thread [e]) := by
  cases e with
  | add thread message =>
    refine ⟨?_, ?_, ?_⟩
    · rcases ranges_add env s thread message with hsame | hnew
      · exact hsame ▸ hr
      · exact hnew ▸ List.mem_append_left _ hr
    · rw [configOf_step]
      split_ifs <;> rfl
    · rw [callsOf_step]
      split_ifs <;> rfl
  | launch thread l =>
    refine ⟨hr, ?_, ?_⟩
    · rw [configOf_launch hreplay, (inRange_iff h henable r.thread).mpr ⟨r, hr, hvalid, rfl⟩]
      by_cases hthread : r.thread = thread
      · simp [launchesOf, hthread]
      · simp [launchesOf, hthread, Ne.symm hthread]
    · rw [callsOf_step, Event.thread]
      by_cases hthread : r.thread = thread
      · have hin := (inRange_iff h henable thread).mpr ⟨r, hr, hvalid, hthread⟩
        simp [launchesOf, hthread, newCalls, hin, hreplay, captureCalls]
      · simp [launchesOf, hthread, Ne.symm hthread, captureCalls]
  | stop thread rangeId a =>
    have hid : r.id ≠ rangeId := fun hid => hopen thread a (by rw [hid])
    have hcounted : r.thread = thread →
        isCountedRange thread rangeId s.collector.mstx = false := by
      intro hthread
      rw [← Bool.not_eq_true, isCountedRange_iff h hguard]
      rintro ⟨r', hr', hid', hvalid'⟩
      have hthread' : r'.thread = thread := hguard r' hr' hid' hvalid'
      have heq : r = r' := h.single r hr r' hr' hvalid hvalid' (hthread.trans hthread'.symm)
      exact hid (heq ▸ hid')
    refine ⟨?_, ?_, ?_⟩
    · change r ∈ s.ranges.filter fun r => r.id ≠ rangeId
      exact List.mem_filter.mpr ⟨hr, decide_eq_true hid⟩
    · rw [configOf_stop hreplay, if_neg]
      · rfl
      · rintro ⟨hthread, hcount⟩
        rw [hcounted hthread] at hcount
        cases hcount
    · rw [callsOf_step]
      split_ifs with hthread
      · rw [newCalls, hcounted hthread]
        rfl
      · rfl

/-- While a range is not ended its thread captures what it launches. -/
theorem within_run {s : State} (h : Tracked env s) (hr : r ∈ s.ranges) {mid : List Event}
    (hrun : Runs.Guarded (step env) Orderly s mid)
    (hopen : ∀ thread a, Event.stop thread r.id a ∉ mid) :
    Tracked env (mid.foldl (step env) s) ∧ r ∈ (mid.foldl (step env) s).ranges ∧
      (mid.foldl (step env) s).collector.configOf r.thread =
        (launchesOf r.thread mid).foldl RangeReplayConfig.launched
          (s.collector.configOf r.thread) ∧
      callsOf r.thread (mid.foldl (step env) s).collector.calls =
        callsOf r.thread s.collector.calls ++
          captureCalls (s.collector.configOf r.thread) (launchesOf r.thread mid) := by
  induction mid generalizing s with
  | nil => exact ⟨h, hr, rfl, (List.append_nil _).symm⟩
  | cons e mid ih =>
    obtain ⟨hguard, hrest⟩ := hrun
    obtain ⟨hr', hconfig, hcalls⟩ := within_step henable hreplay hvalid h hr hguard
      fun thread a he => hopen thread a (he ▸ List.mem_cons_self)
    obtain ⟨htracked, hrange, hconfig', hcalls'⟩ := ih (tracked_step h henable hreplay hguard) hr'
      hrest fun thread a hmem => hopen thread a (List.mem_cons_of_mem _ hmem)
    have hsplit : launchesOf r.thread (e :: mid) =
        launchesOf r.thread [e] ++ launchesOf r.thread mid :=
      List.filterMap_append (l := [e])
    refine ⟨htracked, hrange, ?_, ?_⟩
    · rw [List.foldl_cons, hconfig', hconfig, hsplit, List.foldl_append]
    · rw [List.foldl_cons, hcalls', hcalls, hconfig, hsplit, captureCalls_append, List.append_assoc]

end Within

/-! ## What is replayed -/

/-- The operators that a capture records: the first one that begins it, and all behind it. -/
def recorded (ls : List Launch) : List Launch := ls.dropWhile fun l => !l.captureBegin

def capturedConfig (count : UInt32) (ls : List Launch) : RangeReplayConfig :=
  match recorded ls with
  | [] => { count := count }
  | l :: rest =>
    { flag := true, count := count, stream := l.stream,
      outputs := (l :: rest).map Launch.output }

/-- What a thread calls for the operators of a range: captures that do not begin, the one that
does, and the operators whose output directories it has made. -/
def beginCalls (ls : List Launch) : List Call :=
  ((ls.takeWhile fun l => !l.captureBegin).map fun l => .captureBegin l.stream false) ++
    ((recorded ls).head?.map fun l => .captureBegin l.stream true).toList ++
    ((recorded ls).filter fun l => l.outputPath ≠ "" && l.isExist).map
      fun l => .saveBasicInfo l.outputPath

theorem launched_of_flag {config : RangeReplayConfig} (hflag : config.flag = true)
    (ls : List Launch) :
    ls.foldl RangeReplayConfig.launched config =
        { config with outputs := config.outputs ++ ls.map Launch.output } ∧
      captureCalls config ls = (ls.filter fun l => l.outputPath ≠ "" && l.isExist).map
        fun l => .saveBasicInfo l.outputPath := by
  induction ls generalizing config with
  | nil => simp [captureCalls]
  | cons l ls ih =>
    have hlaunched : config.launched l =
        { config with outputs := config.outputs ++ [l.output] } := by
      simp [RangeReplayConfig.launched, hflag]
    have hflag' : (config.launched l).flag = true := by rw [hlaunched]; exact hflag
    obtain ⟨hconfig, hcalls⟩ := ih hflag'
    constructor
    · rw [List.foldl_cons, hconfig, hlaunched]
      simp
    · rw [captureCalls, hcalls, launchCalls, hflag, List.filter_cons]
      split_ifs <;> simp_all

theorem capture_eq (count : UInt32) (ls : List Launch) :
    ls.foldl RangeReplayConfig.launched { count := count } = capturedConfig count ls ∧
      captureCalls { count := count } ls = beginCalls ls := by
  induction ls with
  | nil => exact ⟨rfl, rfl⟩
  | cons l ls ih =>
    cases hbegin : l.captureBegin with
    | false =>
      have hlaunched : RangeReplayConfig.launched { count := count } l = { count := count } := by
        simp [RangeReplayConfig.launched, hbegin]
      have hcalls : launchCalls { count := count } l = [.captureBegin l.stream false] := by
        simp [launchCalls, hbegin]
      constructor
      · rw [List.foldl_cons, hlaunched, ih.1]
        simp [capturedConfig, recorded, hbegin]
      · rw [captureCalls, hlaunched, hcalls, ih.2]
        simp [beginCalls, recorded, hbegin]
    | true =>
      have hlaunched : RangeReplayConfig.launched { count := count } l =
          { flag := true, count := count, stream := l.stream, outputs := [l.output] } := by
        simp [RangeReplayConfig.launched, hbegin]
      have hflag : (RangeReplayConfig.launched { count := count } l).flag = true := by
        rw [hlaunched]
      obtain ⟨hconfig, hcalls⟩ := launched_of_flag hflag ls
      constructor
      · rw [List.foldl_cons, hconfig, hlaunched]
        simp [capturedConfig, recorded, hbegin]
      · rw [captureCalls, hcalls, launchCalls]
        simp only [beginCalls, recorded, hbegin, List.takeWhile_cons, List.dropWhile_cons]
        split_ifs <;> simp_all

/-- The first operator cannot begin a capture; another thread launches in between. -/
def beginAgain : List Event :=
  [.launch 1 ⟨0, 7, "a", false, true⟩, .launch 2 ⟨0, 8, "b", true, true⟩,
    .launch 1 ⟨0, 7, "c", true, true⟩]

end Msopcom.RangeReplay
