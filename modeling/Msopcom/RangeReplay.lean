import Msopcom.MsTxRange
import Msopcom.KeyedList
import Msopcom.Ustring

set_option autoImplicit false

/-!
# Range replay

The operators that a thread launches in an mstx range are captured into a model, and the model is
replayed when the range ends.
-/
namespace Msopcom.RangeReplay
open KeyedList
open MsTxRange (MstxProfConfig Message MsTx Range Session isInMstxRange)

/-- A null stream is 0. -/
structure RangeReplayConfig where
  flag : Bool := false
  count : UInt32 := 0
  stream : ℕ := 0
  outputs : List String := []
  deriving DecidableEq, Repr

abbrev ThreadRangeConfigMap := AList fun _ : ℕ => RangeReplayConfig

/-- What a thread does in a replay of ranges that can be seen from outside. -/
inductive Call
  | captureBegin (stream : ℕ) (ok : Bool)
  | captureEnd (stream : ℕ) (ok : Bool)
  | saveBasicInfo (outputPath : String)
  | outputTxt (device : Int32) (path : String) (lines : List String)
  | replay (stream : ℕ)
  | destroyModel
  deriving DecidableEq, Repr

structure Collector where
  mstx : MsTx := {}
  threadRangeConfigMap : ThreadRangeConfigMap := ∅
  deviceOutputPathMap : AList (fun _ : Int32 => String) := ∅
  calls : List (ℕ × Call) := []

/-- The environment of the process. -/
structure Env where
  config : MstxProfConfig
  dumpPath : String
  pid : ℕ

/-- The launch of an operator: its output path, which is empty if it is not to be profiled, and
what the system answers. -/
structure Launch where
  device : Int32
  stream : ℕ
  outputPath : String
  captureBegin : Bool := true
  isExist : Bool := true
  deriving DecidableEq, Repr

/-- What the system answers at the end of a range. -/
structure Answers where
  device : Int32
  captureEnd : Bool := true
  mkdir : Bool := true
  checkWriteFilePath : Bool := true
  isOpen : Bool := true
  deriving DecidableEq, Repr

namespace Collector
variable (c : Collector) (threadId : ℕ)

def call (call : Call) : Collector := { c with calls := c.calls ++ [(threadId, call)] }

/-- A thread without an entry gets one. -/
def getThreadRangeConfigMap : RangeReplayConfig × Collector :=
  match c.threadRangeConfigMap.lookup threadId with
  | some config => (config, c)
  | none => ({}, { c with threadRangeConfigMap := c.threadRangeConfigMap.insert threadId {} })

def setRangeConfig (config : RangeReplayConfig) : Collector :=
  { c with threadRangeConfigMap := c.threadRangeConfigMap.insert threadId config }

def resetRangeConfig : Collector :=
  match c.threadRangeConfigMap.lookup threadId with
  | none => c
  | some config => c.setRangeConfig threadId { config with flag := false, stream := 0, outputs := [] }

/-- `threadRangeConfigMap_[threadId].count += 1`. -/
def countRange : Collector :=
  let (config, c) := c.getThreadRangeConfigMap threadId
  c.setRangeConfig threadId { config with count := config.count + 1 }

end Collector

/-- The constructor of `DataCollect` asks for the output path. -/
def dataCollect (l : Launch) (c : Collector) : Collector :=
  { c with deviceOutputPathMap := c.deviceOutputPathMap.insert l.device l.outputPath }

/-- What stands for an operator in the list of a range. -/
def Launch.output (l : Launch) : String := if l.outputPath = "" then "-1" else l.outputPath

/-- The first operator of a range begins the capture. -/
def rangeReplayProfData (threadId : ℕ) (l : Launch) (c : Collector) : Bool × Collector :=
  let (rangeConfig, c) := c.getThreadRangeConfigMap threadId
  if !rangeConfig.flag then
    let c := c.call threadId (.captureBegin l.stream l.captureBegin)
    if !l.captureBegin then (false, c)
    else
      (true, c.setRangeConfig threadId
        { rangeConfig with
          flag := true, stream := l.stream, outputs := rangeConfig.outputs ++ [l.output] })
  else
    (true, c.setRangeConfig threadId
      { rangeConfig with outputs := rangeConfig.outputs ++ [l.output] })

/-- Outside of the ranges an operator is replayed on its own, which leaves this state alone. -/
def profData (env : Env) (threadId : ℕ) (l : Launch) (c : Collector) : Collector :=
  let isRange := env.config.isRangeReplay && isInMstxRange env.config threadId c.mstx
  if !isRange then c
  else
    match rangeReplayProfData threadId l c with
    | (false, c) => c
    | (true, c) =>
      if l.outputPath = "" then c
      else if !l.isExist then c
      else c.call threadId (.saveBasicInfo l.outputPath)

def Env.replayPath (env : Env) (device : Int32) (count : UInt32) : String :=
  Ustring.join [env.dumpPath, "device" ++ toString device, toString env.pid, toString count] "/"

/-- An operator of the range is to be profiled. -/
def hasValidOutput (outputs : List String) : Bool := outputs.any (· ≠ "-1")

/-- The result is the success, then whether there is something to replay. -/
def rangeReplayInit (env : Env) (a : Answers) (threadId : ℕ) (c : Collector) :
    Bool × Bool × Collector :=
  let (rangeConfig, c) := c.getThreadRangeConfigMap threadId
  let c := c.resetRangeConfig threadId
  if !rangeConfig.flag || !hasValidOutput rangeConfig.outputs then (true, false, c)
  else
    let replayPath := env.replayPath a.device rangeConfig.count
    if !a.mkdir then (false, true, c)
    else if !a.checkWriteFilePath then (false, true, c)
    else if !a.isOpen then (false, true, c)
    else
      let c := c.call threadId (.outputTxt a.device replayPath rangeConfig.outputs)
      let c := c.countRange threadId
      (true, true,
        { c with deviceOutputPathMap := c.deviceOutputPathMap.insert a.device replayPath })

def rangeReplay (env : Env) (a : Answers) (threadId stream : ℕ) (c : Collector) : Collector :=
  match rangeReplayInit env a threadId c with
  | (false, _, c) => c
  | (true, false, c) => c
  | (true, true, c) => c.call threadId (.replay stream)

/-- The range is active, was valid when it began, and its message is counted for the thread. -/
def isCountedRange (threadId : ℕ) (rangeId : UInt64) (s : MsTx) : Bool :=
  match s.activeId2Message.lookup rangeId with
  | none => false
  | some message =>
    if rangeId ∈ s.invalidRangeIds then false
    else
      match s.usageCount.lookup threadId with
      | none => false
      | some counts => (counts.lookup message).isSome

/-- The model is destroyed also when the capture did not end, when there is none. -/
def endCapture (env : Env) (a : Answers) (threadId : ℕ) (c : Collector) : Collector :=
  let (rangeConfig, c) := c.getThreadRangeConfigMap threadId
  if !rangeConfig.flag || rangeConfig.stream = 0 then c
  else
    let c := c.call threadId (.captureEnd rangeConfig.stream a.captureEnd)
    let c :=
      if !a.captureEnd then c.resetRangeConfig threadId
      else rangeReplay env a threadId rangeConfig.stream c
    c.call threadId .destroyModel

def mstxRangeEnd (env : Env) (a : Answers) (threadId : ℕ) (rangeId : UInt64) (c : Collector) :
    Collector :=
  let isCounted := isCountedRange threadId rangeId c.mstx
  let c := { c with mstx := MsTxRange.mstxRangeEnd threadId rangeId c.mstx }
  if isCounted && env.config.isRangeReplay then endCapture env a threadId c else c

/-! ## Runs -/

inductive Event
  | add (thread : ℕ) (message : Message)
  | launch (thread : ℕ) (l : Launch)
  | stop (thread : ℕ) (rangeId : UInt64) (a : Answers)
  deriving DecidableEq, Repr

/-- The collector with the ranges that have been started and not ended. -/
structure State where
  collector : Collector := {}
  ranges : List Range := []

def State.session (s : State) : Session := ⟨s.collector.mstx, s.ranges⟩

def step (env : Env) (s : State) : Event → State
  | .add thread message =>
    let session := MsTxRange.step env.config s.session (.add thread message)
    ⟨{ s.collector with mstx := session.mstx }, session.ranges⟩
  | .launch thread l => ⟨profData env thread l (dataCollect l s.collector), s.ranges⟩
  | .stop thread rangeId a =>
    ⟨mstxRangeEnd env a thread rangeId s.collector,
      (MsTxRange.step env.config s.session (.stop thread rangeId)).ranges⟩

/-- What a thread has called. -/
def callsOf (thread : ℕ) (calls : List (ℕ × Call)) : List Call :=
  (calls.filter fun call => call.1 = thread).map Prod.snd

/-- The entry of a thread, or the one that it gets when it is looked up. -/
def Collector.configOf (c : Collector) (thread : ℕ) : RangeReplayConfig :=
  (c.threadRangeConfigMap.lookup thread).getD {}

/-! ## What a step does to the threads -/

section Lookup
variable (c : Collector) (thread thread' : ℕ) (config : RangeReplayConfig) (call : Call)

@[simp] theorem configOf_setRangeConfig :
    (c.setRangeConfig thread config).configOf thread' =
      if thread' = thread then config else c.configOf thread' := by
  rw [Collector.configOf, Collector.setRangeConfig, lookup_insert_eq]
  split_ifs <;> rfl

@[simp] theorem configOf_call : (c.call thread call).configOf thread' = c.configOf thread' := rfl

@[simp] theorem calls_call : (c.call thread call).calls = c.calls ++ [(thread, call)] := rfl

@[simp] theorem mstx_call : (c.call thread call).mstx = c.mstx := rfl

@[simp] theorem calls_setRangeConfig : (c.setRangeConfig thread config).calls = c.calls := rfl

@[simp] theorem mstx_setRangeConfig : (c.setRangeConfig thread config).mstx = c.mstx := rfl

theorem getThreadRangeConfigMap_eq : c.getThreadRangeConfigMap thread =
    (c.configOf thread, (c.getThreadRangeConfigMap thread).2) := by
  rw [Collector.getThreadRangeConfigMap, Collector.configOf]
  cases c.threadRangeConfigMap.lookup thread <;> rfl

@[simp] theorem configOf_getThreadRangeConfigMap :
    (c.getThreadRangeConfigMap thread).2.configOf thread' = c.configOf thread' := by
  rw [Collector.getThreadRangeConfigMap]
  cases hlookup : c.threadRangeConfigMap.lookup thread with
  | some config => rfl
  | none =>
    dsimp only
    rw [Collector.configOf, lookup_insert_eq]
    by_cases hthread : thread' = thread
    · rw [if_pos hthread, hthread, Collector.configOf, hlookup]
      rfl
    · rw [if_neg hthread]
      rfl

@[simp] theorem calls_getThreadRangeConfigMap :
    (c.getThreadRangeConfigMap thread).2.calls = c.calls := by
  rw [Collector.getThreadRangeConfigMap]
  cases c.threadRangeConfigMap.lookup thread <;> rfl

@[simp] theorem mstx_getThreadRangeConfigMap :
    (c.getThreadRangeConfigMap thread).2.mstx = c.mstx := by
  rw [Collector.getThreadRangeConfigMap]
  cases c.threadRangeConfigMap.lookup thread <;> rfl

/-- The entry behind a reset; its count stays. -/
def RangeReplayConfig.reset (config : RangeReplayConfig) : RangeReplayConfig :=
  { count := config.count }

@[simp] theorem configOf_resetRangeConfig :
    (c.resetRangeConfig thread).configOf thread' =
      if thread' = thread then (c.configOf thread).reset else c.configOf thread' := by
  rw [Collector.resetRangeConfig]
  cases hlookup : c.threadRangeConfigMap.lookup thread with
  | some config =>
    have hconfig : c.configOf thread = config := by rw [Collector.configOf, hlookup]; rfl
    dsimp only
    rw [configOf_setRangeConfig, hconfig]
    rfl
  | none =>
    have hconfig : c.configOf thread = {} := by rw [Collector.configOf, hlookup]; rfl
    by_cases hthread : thread' = thread
    · rw [if_pos hthread, hthread, hconfig]
      rfl
    · rw [if_neg hthread]

@[simp] theorem calls_resetRangeConfig : (c.resetRangeConfig thread).calls = c.calls := by
  rw [Collector.resetRangeConfig]
  cases c.threadRangeConfigMap.lookup thread <;> rfl

@[simp] theorem mstx_resetRangeConfig : (c.resetRangeConfig thread).mstx = c.mstx := by
  rw [Collector.resetRangeConfig]
  cases c.threadRangeConfigMap.lookup thread <;> rfl

end Lookup

/-- A function has called `new` and left `config` in the entry of the thread. -/
structure Effect (thread : ℕ) (config : RangeReplayConfig) (new : List Call) (c c' : Collector) :
    Prop where
  mstx : c'.mstx = c.mstx
  configOf : ∀ t, c'.configOf t = if t = thread then config else c.configOf t
  calls : c'.calls = c.calls ++ new.map fun call => (thread, call)

section Effect
variable {thread : ℕ} {config : RangeReplayConfig} {new : List Call} {c c' : Collector}

theorem Effect.configOf_self (h : Effect thread config new c c') : c'.configOf thread = config := by
  rw [h.configOf, if_pos rfl]

theorem effect_refl (c : Collector) (thread : ℕ) : Effect thread (c.configOf thread) [] c c := by
  constructor
  case mstx => rfl
  case configOf =>
    intro t
    by_cases ht : t = thread
    · rw [if_pos ht, ht]
    · rw [if_neg ht]
  case calls => simp

theorem Effect.lookup (h : Effect thread config new c c') :
    Effect thread config new c (c'.getThreadRangeConfigMap thread).2 := by
  constructor
  case mstx => simp [h.mstx]
  case configOf => simp [h.configOf]
  case calls => simp [h.calls]

theorem Effect.call (h : Effect thread config new c c') (call : Call) :
    Effect thread config (new ++ [call]) c (c'.call thread call) := by
  constructor
  case mstx => simp [h.mstx]
  case configOf => simp [h.configOf]
  case calls => simp [h.calls]

theorem Effect.set (h : Effect thread config new c c') (config' : RangeReplayConfig) :
    Effect thread config' new c (c'.setRangeConfig thread config') := by
  constructor
  case mstx => simp [h.mstx]
  case configOf =>
    intro t
    rw [configOf_setRangeConfig, h.configOf]
    split_ifs <;> rfl
  case calls => simp [h.calls]

theorem Effect.reset (h : Effect thread config new c c') :
    Effect thread config.reset new c (c'.resetRangeConfig thread) := by
  constructor
  case mstx => simp [h.mstx]
  case configOf =>
    intro t
    rw [configOf_resetRangeConfig, h.configOf_self, h.configOf]
    split_ifs <;> rfl
  case calls => simp [h.calls]

theorem Effect.countRange (h : Effect thread config new c c') :
    Effect thread { config with count := config.count + 1 } new c (c'.countRange thread) := by
  unfold Collector.countRange
  rw [getThreadRangeConfigMap_eq, h.configOf_self]
  exact h.lookup.set { config with count := config.count + 1 }

theorem Effect.insertOutputPath (h : Effect thread config new c c') (device : Int32) (path : String) :
    Effect thread config new c
      { c' with deviceOutputPathMap := c'.deviceOutputPathMap.insert device path } :=
  ⟨h.mstx, h.configOf, h.calls⟩

end Effect

/-- The entry behind the launch of an operator in a range. -/
def RangeReplayConfig.launched (config : RangeReplayConfig) (l : Launch) : RangeReplayConfig :=
  if !config.flag && !l.captureBegin then config
  else
    { config with
      flag := true
      stream := if config.flag then config.stream else l.stream
      outputs := config.outputs ++ [l.output] }

def launchCalls (config : RangeReplayConfig) (l : Launch) : List Call :=
  (if config.flag then [] else [.captureBegin l.stream l.captureBegin]) ++
    if (config.flag || l.captureBegin) && (l.outputPath ≠ "" && l.isExist) then
      [.saveBasicInfo l.outputPath]
    else []

/-- The three ways of an operator: into the capture that it begins, nowhere, or into one that has
begun. -/
theorem rangeReplayProfData_effect (thread : ℕ) (l : Launch) (c : Collector) :
    (rangeReplayProfData thread l c).1 = ((c.configOf thread).flag || l.captureBegin) ∧
      Effect thread ((c.configOf thread).launched l)
        (if (c.configOf thread).flag then [] else [.captureBegin l.stream l.captureBegin]) c
        (rangeReplayProfData thread l c).2 := by
  have hlookup := (effect_refl c thread).lookup
  unfold rangeReplayProfData RangeReplayConfig.launched
  rw [getThreadRangeConfigMap_eq]
  cases hflag : (c.configOf thread).flag with
  | true =>
    refine ⟨by simp [hflag], ?_⟩
    simpa [hflag] using hlookup.set { c.configOf thread with
      outputs := (c.configOf thread).outputs ++ [l.output] }
  | false =>
    cases hbegin : l.captureBegin with
    | false =>
      refine ⟨by simp [hflag], ?_⟩
      simpa [hflag] using hlookup.call (.captureBegin l.stream false)
    | true =>
      refine ⟨by simp [hflag], ?_⟩
      simpa [hflag] using (hlookup.call (.captureBegin l.stream true)).set
        { c.configOf thread with
          flag := true
          stream := l.stream
          outputs := (c.configOf thread).outputs ++ [l.output] }

theorem profData_effect {env : Env} {thread : ℕ} (l : Launch) (c : Collector)
    (h : (env.config.isRangeReplay && isInMstxRange env.config thread c.mstx) = true) :
    Effect thread ((c.configOf thread).launched l) (launchCalls (c.configOf thread) l) c
      (profData env thread l c) := by
  obtain ⟨hok, heffect⟩ := rangeReplayProfData_effect thread l c
  unfold profData launchCalls
  rw [h]
  generalize rangeReplayProfData thread l c = result at hok heffect
  obtain ⟨ok, c'⟩ := result
  subst hok
  cases hok : (c.configOf thread).flag || l.captureBegin with
  | false => simpa [hok] using heffect
  | true =>
    by_cases hpath : l.outputPath = ""
    · simpa [hok, hpath] using heffect
    · cases hexist : l.isExist with
      | false => simpa [hok, hpath, hexist] using heffect
      | true => simpa [hok, hpath, hexist] using heffect.call (.saveBasicInfo l.outputPath)

theorem profData_of_not_range {env : Env} {thread : ℕ} (l : Launch) (c : Collector)
    (h : (env.config.isRangeReplay && isInMstxRange env.config thread c.mstx) = false) :
    profData env thread l c = c := by
  unfold profData
  rw [h]
  rfl

/-! ## The end of a range -/

def Answers.writes (a : Answers) : Bool := a.mkdir && (a.checkWriteFilePath && a.isOpen)

/-- The list of the operators is written and the model replayed. -/
def Answers.replays (a : Answers) (outputs : List String) : Bool :=
  a.captureEnd && (hasValidOutput outputs && a.writes)

def RangeReplayConfig.isOpen (config : RangeReplayConfig) : Bool :=
  config.flag && decide (config.stream ≠ 0)

/-- The entry behind the end of a range. -/
def RangeReplayConfig.ended (config : RangeReplayConfig) (a : Answers) : RangeReplayConfig :=
  if config.isOpen then
    { count := if a.replays config.outputs then config.count + 1 else config.count }
  else config

def endCalls (env : Env) (a : Answers) (config : RangeReplayConfig) : List Call :=
  if config.isOpen then
    .captureEnd config.stream a.captureEnd ::
      ((if a.replays config.outputs then
        [.outputTxt a.device (env.replayPath a.device config.count) config.outputs,
          .replay config.stream]
      else []) ++ [.destroyModel])
  else []

section Init
variable (env : Env) (a : Answers) {thread : ℕ} {config : RangeReplayConfig} {new : List Call}
  {c c' : Collector} (h : Effect thread config new c c') (hflag : config.flag = true)
include h hflag

theorem rangeReplayInit_effect :
    ((rangeReplayInit env a thread c').1 && (rangeReplayInit env a thread c').2.1) =
        (hasValidOutput config.outputs && a.writes) ∧
      Effect thread
        { count := if hasValidOutput config.outputs && a.writes then config.count + 1
            else config.count }
        (new ++ if hasValidOutput config.outputs && a.writes then
          [.outputTxt a.device (env.replayPath a.device config.count) config.outputs]
        else []) c (rangeReplayInit env a thread c').2.2 := by
  have hreset : Effect thread { count := config.count } (new ++ []) c
      ((c'.getThreadRangeConfigMap thread).2.resetRangeConfig thread) := by
    rw [List.append_nil]
    exact h.lookup.reset
  unfold rangeReplayInit Answers.writes
  rw [getThreadRangeConfigMap_eq, h.configOf_self]
  dsimp only
  rw [hflag]
  cases hasValidOutput config.outputs with
  | false => exact ⟨rfl, hreset⟩
  | true =>
    cases a.mkdir with
    | false => exact ⟨rfl, hreset⟩
    | true =>
      cases a.checkWriteFilePath with
      | false => exact ⟨rfl, hreset⟩
      | true =>
        cases a.isOpen with
        | false => exact ⟨rfl, hreset⟩
        | true =>
          have hwritten := h.lookup.reset.call
            (.outputTxt a.device (env.replayPath a.device config.count) config.outputs)
          exact ⟨rfl, hwritten.countRange.insertOutputPath a.device
            (env.replayPath a.device config.count)⟩

theorem rangeReplay_effect :
    Effect thread
      { count := if hasValidOutput config.outputs && a.writes then config.count + 1
          else config.count }
      (new ++ if hasValidOutput config.outputs && a.writes then
        [.outputTxt a.device (env.replayPath a.device config.count) config.outputs,
          .replay config.stream]
      else []) c (rangeReplay env a thread config.stream c') := by
  obtain ⟨hresult, heffect⟩ := rangeReplayInit_effect env a h hflag
  unfold rangeReplay
  generalize rangeReplayInit env a thread c' = result at hresult heffect
  obtain ⟨ok, needReplay, c''⟩ := result
  cases hwrites : hasValidOutput config.outputs && a.writes with
  | false =>
    rw [hwrites] at hresult heffect
    cases ok with
    | false => exact heffect
    | true =>
      cases needReplay with
      | false => exact heffect
      | true => simp at hresult
  | true =>
    rw [hwrites] at hresult heffect
    obtain ⟨hok, hneed⟩ := Bool.and_eq_true_iff.mp hresult
    dsimp only at hok hneed
    subst hok hneed
    simpa using heffect.call (.replay config.stream)

end Init

theorem endCapture_effect (env : Env) (a : Answers) (thread : ℕ) (c : Collector) :
    Effect thread ((c.configOf thread).ended a) (endCalls env a (c.configOf thread)) c
      (endCapture env a thread c) := by
  have hlookup := (effect_refl c thread).lookup
  unfold endCapture RangeReplayConfig.ended endCalls RangeReplayConfig.isOpen Answers.replays
  rw [getThreadRangeConfigMap_eq]
  dsimp only
  generalize c.configOf thread = config at hlookup
  generalize (c.getThreadRangeConfigMap thread).2 = c' at hlookup
  cases hflag : config.flag with
  | false => exact hlookup
  | true =>
    by_cases hstream : config.stream = 0
    · simpa [hstream] using hlookup
    · have hended := hlookup.call (.captureEnd config.stream a.captureEnd)
      cases hend : a.captureEnd with
      | false =>
        rw [hend] at hended
        simpa [hstream, RangeReplayConfig.reset] using hended.reset.call .destroyModel
      | true =>
        rw [hend] at hended
        simpa [hstream] using (rangeReplay_effect env a hended hflag).call .destroyModel

end Msopcom.RangeReplay
