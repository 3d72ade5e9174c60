import Msopcom.RangeReplay

set_option autoImplicit false

/-!
# Runs of range replay

Whatever the threads do, the runtime sees each of them capture and replay in one order. Where every
thread ends its own ranges, a range replays what was captured in it.
-/
namespace Msopcom.RangeReplay
open MsTxRange (Message Range Session isInMstxRange rangeValid)

/-! ## What a step does -/

def Event.thread : Event → ℕ
  | .add thread _ => thread
  | .launch thread _ => thread
  | .stop thread _ _ => thread

/-- The entry of its thread behind a step. -/
def next (env : Env) (s : State) (config : RangeReplayConfig) : Event → RangeReplayConfig
  | .add _ _ => config
  | .launch thread l =>
    if env.config.isRangeReplay && isInMstxRange env.config thread s.collector.mstx then
      config.launched l
    else config
  | .stop thread rangeId a =>
    if isCountedRange thread rangeId s.collector.mstx && env.config.isRangeReplay then
      config.ended a
    else config

/-- What its thread calls in a step. -/
def newCalls (env : Env) (s : State) (config : RangeReplayConfig) : Event → List Call
  | .add _ _ => []
  | .launch thread l =>
    if env.config.isRangeReplay && isInMstxRange env.config thread s.collector.mstx then
      launchCalls config l
    else []
  | .stop thread rangeId a =>
    if isCountedRange thread rangeId s.collector.mstx && env.config.isRangeReplay then
      endCalls env a config
    else []

section Step
variable (env : Env) (s : State) (e : Event)

/-- A step of a thread is an effect on this thread, and on the ranges. -/
theorem step_effect :
    Effect e.thread (next env s (s.collector.configOf e.thread) e)
      (newCalls env s (s.collector.configOf e.thread) e)
      { s.collector with mstx := (step env s e).collector.mstx } (step env s e).collector := by
  cases e with
  | add thread message => exact effect_refl (step env s (.add thread message)).collector thread
  | launch thread l =>
    unfold next newCalls Event.thread step
    dsimp only
    cases hrange : env.config.isRangeReplay && isInMstxRange env.config thread s.collector.mstx with
    | false =>
      rw [profData_of_not_range l (dataCollect l s.collector) hrange]
      have hrefl := effect_refl (dataCollect l s.collector) thread
      exact ⟨rfl, hrefl.configOf, hrefl.calls⟩
    | true =>
      have heffect := profData_effect l (dataCollect l s.collector) hrange
      exact ⟨rfl, heffect.configOf, heffect.calls⟩
  | stop thread rangeId a =>
    unfold next newCalls Event.thread step mstxRangeEnd
    dsimp only
    cases hcounted : isCountedRange thread rangeId s.collector.mstx && env.config.isRangeReplay with
    | false =>
      exact effect_refl
        { s.collector with mstx := MsTxRange.mstxRangeEnd thread rangeId s.collector.mstx } thread
    | true =>
      have heffect := endCapture_effect env a thread
        { s.collector with mstx := MsTxRange.mstxRangeEnd thread rangeId s.collector.mstx }
      exact ⟨rfl, heffect.configOf, heffect.calls⟩

theorem configOf_step (t : ℕ) :
    (step env s e).collector.configOf t =
      if t = e.thread then next env s (s.collector.configOf t) e else s.collector.configOf t := by
  have h := (step_effect env s e).configOf t
  by_cases ht : t = e.thread
  · rw [if_pos ht] at h ⊢
    rw [ht] at h ⊢
    exact h
  · rw [if_neg ht] at h ⊢
    exact h

theorem callsOf_append (t thread : ℕ) (calls : List (ℕ × Call)) (new : List Call) :
    callsOf t (calls ++ new.map fun call => (thread, call)) =
      callsOf t calls ++ if t = thread then new else [] := by
  rw [callsOf, List.filter_append, List.map_append]
  congr 1
  by_cases ht : t = thread
  · simp [ht, List.filter_map, Function.comp_def]
  · simp [ht, List.filter_map, Function.comp_def, Ne.symm ht]

theorem callsOf_step (t : ℕ) :
    callsOf t (step env s e).collector.calls = callsOf t s.collector.calls ++
      if t = e.thread then newCalls env s (s.collector.configOf t) e else [] := by
  rw [(step_effect env s e).calls, callsOf_append]
  by_cases ht : t = e.thread
  · rw [if_pos ht, if_pos ht, ht]
  · rw [if_neg ht, if_neg ht]

/-- The ranges of a run are those of the calls that add and end them. -/
theorem session_step :
    (step env s e).session =
      match e with
      | .add thread message => MsTxRange.step env.config s.session (.add thread message)
      | .launch _ _ => s.session
      | .stop thread rangeId _ => MsTxRange.step env.config s.session (.stop thread rangeId) := by
  cases e with
  | add thread message => rfl
  | launch thread l =>
    have hmstx : (profData env thread l (dataCollect l s.collector)).mstx = s.collector.mstx := by
      cases hrange : env.config.isRangeReplay &&
          isInMstxRange env.config thread s.collector.mstx with
      | false => rw [profData_of_not_range l (dataCollect l s.collector) hrange]; rfl
      | true => exact (profData_effect l (dataCollect l s.collector) hrange).mstx
    rw [State.session, step, hmstx]
    rfl
  | stop thread rangeId a =>
    have hmstx : (mstxRangeEnd env a thread rangeId s.collector).mstx =
        MsTxRange.mstxRangeEnd thread rangeId s.collector.mstx := by
      unfold mstxRangeEnd
      dsimp only
      split_ifs
      · exact (endCapture_effect env a thread _).mstx
      · rfl
    rw [State.session, step, hmstx]
    rfl

end Step

/-! ## What the runtime sees -/

/-- What may be called next for a thread. -/
inductive Phase
  | idle
  | capturing (stream : ℕ)
  | captured (stream : ℕ)
  | written (stream : ℕ)
  | over
  deriving DecidableEq, Repr

/-- A stream is captured once at a time, what is replayed has been captured on it and written down
before, and each model is destroyed. -/
def Phase.next : Phase → Call → Option Phase
  | .idle, .captureBegin stream ok => some (if ok then .capturing stream else .idle)
  | .capturing stream, .saveBasicInfo _ => some (.capturing stream)
  | .capturing stream, .captureEnd stream' ok =>
    if stream = stream' then some (if ok then .captured stream else .over) else none
  | .captured stream, .outputTxt _ _ _ => some (.written stream)
  | .captured _, .destroyModel => some .idle
  | .written stream, .replay stream' => if stream = stream' then some .over else none
  | .over, .destroyModel => some .idle
  | _, _ => none

def RangeReplayConfig.phase (config : RangeReplayConfig) : Phase :=
  if config.flag then .capturing config.stream else .idle

section Protocol
variable (env : Env) (config : RangeReplayConfig)

theorem phase_launched (l : Launch) :
    (launchCalls config l).foldlM Phase.next config.phase = some (config.launched l).phase := by
  unfold launchCalls RangeReplayConfig.launched RangeReplayConfig.phase
  cases hflag : config.flag with
  | true =>
    by_cases hsave : l.outputPath ≠ "" ∧ l.isExist = true
    · simp [hsave, Phase.next]
    · simp [hsave]
  | false =>
    cases l.captureBegin with
    | false => simp [Phase.next, hflag]
    | true =>
      by_cases hsave : l.outputPath ≠ "" ∧ l.isExist = true
      · simp [hsave, Phase.next]
      · simp [hsave, Phase.next]

theorem phase_ended (a : Answers) :
    (endCalls env a config).foldlM Phase.next config.phase = some (config.ended a).phase := by
  unfold endCalls RangeReplayConfig.ended RangeReplayConfig.phase
  cases hopen : config.isOpen with
  | false => simp
  | true =>
    have hflag : config.flag = true := (Bool.and_eq_true_iff.mp hopen).1
    cases hend : a.captureEnd with
    | false => simp [hflag, Answers.replays, hend, Phase.next]
    | true =>
      cases hreplays : a.replays config.outputs with
      | false => simp [hflag, Phase.next]
      | true => simp [hflag, Phase.next]

theorem phase_next (s : State) (e : Event) :
    (newCalls env s config e).foldlM Phase.next config.phase =
      some (next env s config e).phase := by
  cases e with
  | add thread message => rfl
  | launch thread l =>
    unfold newCalls next
    dsimp only
    split_ifs
    · exact phase_launched config l
    · rfl
  | stop thread rangeId a =>
    unfold newCalls next
    dsimp only
    split_ifs
    · exact phase_ended env config a
    · rfl

end Protocol

/-- The calls of a thread are in order, and its flag tells whether it is in a capture. -/
def InOrder (t : ℕ) (s : State) : Prop :=
  (callsOf t s.collector.calls).foldlM Phase.next .idle = some (s.collector.configOf t).phase

theorem inOrder_step (env : Env) {t : ℕ} {s : State} (h : InOrder t s) (e : Event) :
    InOrder t (step env s e) := by
  rw [InOrder] at h ⊢
  rw [callsOf_step, configOf_step, List.foldlM_append, h]
  by_cases ht : t = e.thread
  · rw [if_pos ht, if_pos ht]
    exact phase_next env _ s e
  · rw [if_neg ht, if_neg ht]
    rfl

/-- Whatever the threads do and the runtime answers, the calls of each thread follow the order of
captures and replays, and the thread is in a capture exactly when its flag is set. -/
theorem captures_in_order (env : Env) (events : List Event) (t : ℕ) :
    (callsOf t (events.foldl (step env) {}).collector.calls).foldlM Phase.next .idle =
      some ((events.foldl (step env) {}).collector.configOf t).phase := by
  have hstep : ∀ s e, InOrder t s → InOrder t (step env s e) := fun _ e h => inOrder_step env h e
  have hinit : InOrder t {} := rfl
  exact Runs.invariant hstep events hinit

/-! ## The directories of the replays -/

def Call.file? : Call → Option (Int32 × String)
  | .outputTxt device path _ => some (device, path)
  | _ => none

/-- The lists of operators that a thread has written: for which device, and where. -/
def filesOf (t : ℕ) (calls : List (ℕ × Call)) : List (Int32 × String) :=
  (callsOf t calls).filterMap Call.file?

section Numbered
variable (env : Env)

/-- The files are numbered from 0 on, and the count of the thread is the next number. -/
structure Numbered (files : List (Int32 × String)) (count : UInt32) : Prop where
  count : count = UInt32.ofNat files.length
  path : ∀ i device path, files[i]? = some (device, path) →
    path = env.replayPath device (UInt32.ofNat i)

variable {env} {files : List (Int32 × String)} {count : UInt32}

theorem Numbered.concat (h : Numbered env files count) (device : Int32) :
    Numbered env (files ++ [(device, env.replayPath device count)]) (count + 1) := by
  constructor
  case count =>
    rw [h.count, List.length_append, List.length_singleton]
    apply UInt32.toNat_inj.mp
    simp [UInt32.toNat_add]
  case path =>
    intro i device' path hi
    by_cases hlt : i < files.length
    · rw [List.getElem?_append_left hlt] at hi
      exact h.path i device' path hi
    · rw [List.getElem?_append_right (Nat.le_of_not_lt hlt), List.getElem?_singleton] at hi
      split_ifs at hi with hzero
      have hlast : i = files.length := by omega
      cases hi
      rw [hlast, h.count]

variable (env) in
theorem file?_newCalls (config : RangeReplayConfig) (s : State) (e : Event) :
    (newCalls env s config e).filterMap Call.file? = [] ∧
        (next env s config e).count = config.count ∨
      ∃ device, (newCalls env s config e).filterMap Call.file? =
          [(device, env.replayPath device config.count)] ∧
        (next env s config e).count = config.count + 1 := by
  cases e with
  | add thread message => exact .inl ⟨rfl, rfl⟩
  | launch thread l =>
    left
    unfold newCalls next launchCalls RangeReplayConfig.launched
    constructor
    · dsimp only
      split_ifs <;> rfl
    · dsimp only
      split_ifs <;> rfl
  | stop thread rangeId a =>
    unfold newCalls next endCalls RangeReplayConfig.ended
    dsimp only
    by_cases hcounted : (isCountedRange thread rangeId s.collector.mstx &&
        env.config.isRangeReplay) = true
    · cases hopen : config.isOpen with
      | false => simp [hcounted]
      | true =>
        cases hreplays : a.replays config.outputs with
        | false => simp [hcounted, Call.file?]
        | true =>
          right
          refine ⟨a.device, ?_, by simp [hcounted]⟩
          rw [if_pos hcounted]
          rfl
    · simp [hcounted]

theorem numbered_step {s : State} {t : ℕ}
    (h : Numbered env (filesOf t s.collector.calls) (s.collector.configOf t).count) (e : Event) :
    Numbered env (filesOf t (step env s e).collector.calls)
      ((step env s e).collector.configOf t).count := by
  rw [filesOf, callsOf_step, configOf_step, List.filterMap_append]
  by_cases ht : t = e.thread
  · rw [if_pos ht, if_pos ht]
    rcases file?_newCalls env (s.collector.configOf t) s e with ⟨hnone, hcount⟩ | ⟨d, hfile, hcount⟩
    · rw [hnone, hcount, List.append_nil]
      exact h
    · rw [hfile, hcount]
      exact h.concat d
  · rw [if_neg ht, if_neg ht, List.filterMap_nil, List.append_nil]
    exact h

theorem numbered_run (events : List Event) (t : ℕ) :
    Numbered env (filesOf t (events.foldl (step env) {}).collector.calls)
      ((events.foldl (step env) {}).collector.configOf t).count := by
  have hinit : Numbered env (filesOf t ({} : State).collector.calls)
      (({} : State).collector.configOf t).count := ⟨rfl, by simp [filesOf, callsOf]⟩
  induction events using List.reverseRecOn with
  | nil => exact hinit
  | append_singleton events e ih =>
    rw [List.foldl_append]
    exact numbered_step ih e

end Numbered

/-- What stands between separators can be read off the text. -/
theorem intercalate_inj {α : Type} [DecidableEq α] {sep : α} {xs xs' : List (List α)}
    (hne : xs ≠ []) (hne' : xs' ≠ []) (hfree : ∀ x ∈ xs, sep ∉ x) (hfree' : ∀ x ∈ xs', sep ∉ x)
    (h : [sep].intercalate xs = [sep].intercalate xs') : xs = xs' := by
  rw [← List.splitOn_intercalate sep hfree hne, h, List.splitOn_intercalate sep hfree' hne']

theorem sep_not_mem_device (device : Int32) : '/' ∉ ("device" ++ toString device).toList := by
  have hdevice : '/' ∉ (toString device).toList := by
    change '/' ∉ device.toInt.repr.toList
    rw [Int.repr_eq_if]
    split_ifs
    · exact Ustring.not_mem_repr rfl
    · intro h
      rw [String.toList_append, List.mem_append] at h
      rcases h with h | h
      · exact absurd h (by decide)
      · exact Ustring.not_mem_repr rfl h
  rw [String.toList_append, List.mem_append, not_or]
  exact ⟨by decide, hdevice⟩

/-- What a path has behind the directory of the dumps. -/
def Env.segments (env : Env) (device : Int32) (count : UInt32) : List (List Char) :=
  [("device" ++ toString device).toList, (toString env.pid).toList, (toString count).toList]

theorem toList_replayPath (env : Env) (device : Int32) (count : UInt32) :
    (env.replayPath device count).toList =
      env.dumpPath.toList ++ ['/'] ++ ['/'].intercalate (env.segments device count) := by
  rw [Env.replayPath, Ustring.join, String.toList_intercalate, List.map_cons,
    List.map_cons, List.intercalate_cons_cons]
  rfl

theorem sep_not_mem_segments (env : Env) (device : Int32) (count : UInt32) :
    ∀ x ∈ env.segments device count, '/' ∉ x := by
  intro x hx
  simp only [Env.segments, List.mem_cons, List.not_mem_nil, or_false] at hx
  rcases hx with rfl | rfl | rfl
  · exact sep_not_mem_device device
  · exact Ustring.not_mem_repr rfl
  · exact Ustring.not_mem_repr rfl

/-- Another device or another number is another directory. -/
theorem replayPath_inj {env : Env} {device device' : Int32} {count count' : UInt32} :
    env.replayPath device count = env.replayPath device' count' ↔
      device = device' ∧ count = count' := by
  constructor
  · intro h
    have hlist := congrArg String.toList h
    rw [toList_replayPath, toList_replayPath, List.append_cancel_left_eq] at hlist
    have hsegments := intercalate_inj (List.cons_ne_nil _ _) (List.cons_ne_nil _ _)
      (sep_not_mem_segments env device count) (sep_not_mem_segments env device' count') hlist
    simp only [List.cons.injEq, String.toList_inj, true_and, and_true] at hsegments
    obtain ⟨hdevice, hcount⟩ := hsegments
    constructor
    · have hdevice' := congrArg String.toList hdevice
      rw [String.toList_append, String.toList_append, List.append_cancel_left_eq,
        String.toList_inj] at hdevice'
      apply Option.some.inj
      rw [← Ustring.stringToInt32_toString, hdevice', Ustring.stringToInt32_toString]
    · have hcount' := congrArg Ustring.magnitude hcount
      change Ustring.magnitude count.toNat.repr = Ustring.magnitude count'.toNat.repr at hcount'
      rw [Ustring.magnitude_repr, Ustring.magnitude_repr] at hcount'
      exact UInt32.toNat_inj.mp hcount'
  · rintro ⟨rfl, rfl⟩
    rfl

/-- Two lists of operators are written to one file exactly when they are for one device and have
one number, whatever threads have written them: the number is counted for each thread. -/
theorem replay_files_eq_iff (env : Env) (events : List Event) (t t' i i' : ℕ)
    (device device' : Int32) (path path' : String)
    (h : (filesOf t (events.foldl (step env) {}).collector.calls)[i]? = some (device, path))
    (h' : (filesOf t' (events.foldl (step env) {}).collector.calls)[i']? = some (device', path')) :
    path = path' ↔ device = device' ∧ i % 2 ^ 32 = i' % 2 ^ 32 := by
  rw [(numbered_run events t).path i device path h,
    (numbered_run events t').path i' device' path' h', replayPath_inj, ← UInt32.toNat_inj]
  rfl

/-- Two threads that replay one range each on one device write one file. -/
def twoThreads : List Event :=
  [.add 1 [], .launch 1 ⟨0, 7, "a", true, true⟩, .stop 1 0 { device := 0 },
    .add 2 [], .launch 2 ⟨0, 8, "b", true, true⟩, .stop 2 1 { device := 0 }]

theorem replay_files_of_two_threads :
    filesOf 1 (twoThreads.foldl (step ⟨⟨true, [], true⟩, "/out", 9⟩) {}).collector.calls =
        [(0, Env.replayPath ⟨⟨true, [], true⟩, "/out", 9⟩ 0 0)] ∧
      filesOf 2 (twoThreads.foldl (step ⟨⟨true, [], true⟩, "/out", 9⟩) {}).collector.calls =
        [(0, Env.replayPath ⟨⟨true, [], true⟩, "/out", 9⟩ 0 0)] ∧
      (Env.replayPath ⟨⟨true, [], true⟩, "/out", 9⟩ 0 0 =
          Env.replayPath ⟨⟨true, [], true⟩, "/out", 9⟩ 0 0 ↔
        (0 : Int32) = 0 ∧ 0 % 2 ^ 32 = 0 % 2 ^ 32) :=
  ⟨rfl, rfl, replay_files_eq_iff ⟨⟨true, [], true⟩, "/out", 9⟩ twoThreads 1 2 0 0 0 0
    (Env.replayPath ⟨⟨true, [], true⟩, "/out", 9⟩ 0 0)
    (Env.replayPath ⟨⟨true, [], true⟩, "/out", 9⟩ 0 0) rfl rfl⟩

end Msopcom.RangeReplay
