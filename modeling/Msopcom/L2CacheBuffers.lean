import Msopcom.KernelReplay
import Msopcom.Ledger

set_option autoImplicit false

/-!
# The buffers that clear the L2 cache

They are allocated before the rounds of a replay and freed behind them. What a round does to the
memory of the application is in the model of the replay; here it gives its result, and whether
the cache was prepared is an argument of it.
-/
namespace Msopcom.L2CacheBuffers
open Ledger

/-- Memory has the number of its allocation, on the device or on the host. -/
inductive Mem
  | device (n : ℕ)
  | host (n : ℕ)
  deriving DecidableEq, Repr

structure Heap where
  events : List (Event Mem) := []
  allocations : ℕ := 0

namespace Heap

/-- A pointer is never null and never that of an earlier allocation; a call that fails leaves a null
pointer. -/
def malloc (ok : Bool) (h : Heap) : Option ℕ × Heap :=
  if ok then
    (some h.allocations, ⟨h.events ++ [.acquire (.device h.allocations)], h.allocations + 1⟩)
  else (none, h)

def mallocHost (ok : Bool) (h : Heap) : Option ℕ × Heap :=
  if ok then
    (some h.allocations, ⟨h.events ++ [.acquire (.host h.allocations)], h.allocations + 1⟩)
  else (none, h)

/-- `aclrtFree` of a pointer that is not null. -/
def free (ptr : Option ℕ) (h : Heap) : Heap :=
  { h with events := h.events ++ (ptr.map fun n => Event.release (.device n)).toList }

def freeHost (ptr : Option ℕ) (h : Heap) : Heap :=
  { h with events := h.events ++ (ptr.map fun n => Event.release (.host n)).toList }

end Heap

structure L2CacheClearTiling where
  clearSizePerCore : UInt64
  aicCoreNum : UInt32
  deriving DecidableEq, Repr

structure L2cacheParam where
  blockDim : UInt32 := 0
  bufferSize : UInt64 := 0
  buffer : Option ℕ := none
  flushBuffer : Option ℕ := none
  cmoBuffer : Option ℕ := none
  l2Buffer : Option ℕ := none
  blockLen : Option ℕ := none
  deriving DecidableEq, Repr

/-- Which calls succeed: the six allocations, the copy of the length, and the synchronisation. -/
structure Calls where
  buffer : Bool := true
  flushBuffer : Bool := true
  cmoBuffer : Bool := true
  l2Buffer : Bool := true
  hostBlockLen : Bool := true
  blockLen : Bool := true
  memcpyAsync : Bool := true
  synchronizeStream : Bool := true
  deriving DecidableEq, Repr

section Prepare
variable (c : Calls)

def mallocBuffer (param : L2cacheParam) (h : Heap) : Bool × L2cacheParam × Heap :=
  let (buffer, h) := h.malloc c.buffer
  let param := { param with buffer }
  if !c.buffer then (false, param, h)
  else
    let (flushBuffer, h) := h.malloc c.flushBuffer
    let param := { param with flushBuffer }
    if !c.flushBuffer then (false, param, h)
    else
      let (cmoBuffer, h) := h.malloc c.cmoBuffer
      (c.cmoBuffer, { param with cmoBuffer }, h)

/-- The part behind the allocation of `l2Buffer`. The host buffer is freed on the way out. -/
def copyBlockLen (tiling : L2CacheClearTiling) (param : L2cacheParam) (h : Heap) :
    Bool × L2cacheParam × Heap :=
  let (hostBlockLen, h) := h.mallocHost c.hostBlockLen
  if !c.hostBlockLen then (false, param, h.free param.l2Buffer)
  else
    let (blockLen, h) := h.malloc c.blockLen
    let param := { param with blockLen }
    if !c.blockLen then (false, param, (h.free param.l2Buffer).freeHost hostBlockLen)
    else if !c.memcpyAsync || !c.synchronizeStream then
      (false, param, ((h.free param.l2Buffer).free param.blockLen).freeHost hostBlockLen)
    else (true, { param with blockDim := tiling.aicCoreNum }, h.freeHost hostBlockLen)

/-- `tiling` is the entry of the chip in `l2CacheClearTilingMap`. -/
def prepareClearL2CacheParam (tiling : Option L2CacheClearTiling) (param : L2cacheParam)
    (h : Heap) : Bool × L2cacheParam × Heap :=
  match tiling with
  | none => (false, param, h)
  | some tiling =>
    let bufferSize := tiling.clearSizePerCore * tiling.aicCoreNum.toUInt64
    match mallocBuffer c { param with bufferSize } h with
    | (false, param, h) => (false, param, h)
    | (true, param, h) =>
      let (l2Buffer, h) := h.malloc c.l2Buffer
      let param := { param with l2Buffer }
      if !c.l2Buffer then (false, param, h) else copyBlockLen c tiling param h

end Prepare

def freeL2Cache (param : L2cacheParam) (h : Heap) : Heap :=
  ((((h.free param.flushBuffer).free param.cmoBuffer).free param.buffer).free
    param.l2Buffer).free param.blockLen

/-! ## The replays -/

/-- What a replay reads. `round` and `evictRound` are what the rounds return, given whether the
buffers were prepared. -/
structure Env where
  launch : KernelReplay.Launch := {}
  isAppReplay : Bool := false
  replayCount : UInt32 := 0
  tiling : Option L2CacheClearTiling
  round : Bool → ℕ → Bool := fun _ _ => true
  evictRound : Bool → Bool := fun _ => true
  rangeReplayInit : Bool := true
  needReplay : Bool := true

namespace Env

def isDbi (e : Env) : Bool :=
  e.isAppReplay && e.launch.config.dbiFlag &&& ~~~ProfDBIType.instrProfEnd.dbiFlag ≠ 0

def getInitReplayCount (e : Env) : ℕ := if e.isAppReplay then e.replayCount.toNat else 0

end Env

/-- The rounds from `replayCount` on, of which at most `rounds` are left. A replay of the
application returns behind its first round: an error is the result of such a return. -/
def replayRounds (e : Env) (isClearParamSuccess : Bool) : ℕ → ℕ → Bool → Except Bool Bool
  | 0, _, funcRet => .ok funcRet
  | rounds + 1, replayCount, funcRet =>
    if e.launch.receiveSignal replayCount then .ok funcRet
    else
      let funcRet := funcRet && e.round isClearParamSuccess replayCount
      if e.isAppReplay then .error funcRet
      else replayRounds e isClearParamSuccess rounds (replayCount + 1) funcRet

def kernelReplay (e : Env) (c : Calls) : Bool × Heap :=
  if e.isDbi then (true, {})
  else
    let replayCount := e.getInitReplayCount
    let (isClearParamSuccess, param, h) :=
      if e.isAppReplay then (false, {}, {}) else prepareClearL2CacheParam c e.tiling {} {}
    if e.launch.supportProfL2CacheEvict && e.isAppReplay then
      (e.evictRound isClearParamSuccess, h)
    else
      match replayRounds e isClearParamSuccess (KernelReplay.getReplayTimes - replayCount) replayCount
        true with
      | .error res => (res, h)
      | .ok funcRet => (funcRet, freeL2Cache param h)

/-- A round that fails does not end the replay of a range, an empty group of events does. -/
def rangeRounds (e : Env) (isClearParamSuccess : Bool) : ℕ → ℕ → Bool → Bool
  | 0, _, funcRet => funcRet
  | rounds + 1, replayCount, funcRet =>
    if e.launch.receiveSignal replayCount then funcRet
    else if replayCount ≠ 0 && e.launch.isPmuEventEmpty replayCount then funcRet
    else
      rangeRounds e isClearParamSuccess rounds (replayCount + 1)
        (funcRet || e.round isClearParamSuccess replayCount)

def rangeReplay (e : Env) (c : Calls) : Bool × Heap :=
  if !e.rangeReplayInit then (false, {})
  else if !e.needReplay then (true, {})
  else
    let (isClearParamSuccess, param, h) := prepareClearL2CacheParam c e.tiling {} {}
    let replayCount := e.getInitReplayCount
    (rangeRounds e isClearParamSuccess (KernelReplay.getReplayTimes - replayCount) replayCount false,
      freeL2Cache param h)

inductive Replay
  | kernel
  | range
  deriving DecidableEq, Repr

def replay (e : Env) (c : Calls) : Replay → Bool × Heap
  | .kernel => kernelReplay e c
  | .range => rangeReplay e c

/-! ## Buffers that are freed once -/

/-- The replay gets to the preparation of the buffers. -/
def Prepares (e : Env) : Replay → Prop
  | .kernel => ¬ e.isAppReplay
  | .range => e.rangeReplayInit ∧ e.needReplay

/-- A call fails of those behind the allocation of `l2Buffer`, which has succeeded. -/
def Calls.FailsLate (c : Calls) : Prop :=
  (c.buffer ∧ c.flushBuffer ∧ c.cmoBuffer ∧ c.l2Buffer) ∧
    ¬ (c.hostBlockLen ∧ c.blockLen ∧ c.memcpyAsync ∧ c.synchronizeStream)

/-- The buffers are prepared and then freed, whatever the rounds between do. -/
def prepared (c : Calls) (tiling : Option L2CacheClearTiling) : Heap :=
  let (_, param, h) := prepareClearL2CacheParam c tiling {} {}
  freeL2Cache param h

theorem prepared_none (c : Calls) : prepared c none = {} := by
  simp [prepared, prepareClearL2CacheParam, freeL2Cache, Heap.free]

section Heap
variable (h : Heap) (n : ℕ)

@[simp] theorem malloc_true : h.malloc true = (some h.allocations,
    ⟨h.events ++ [.acquire (.device h.allocations)], h.allocations + 1⟩) := rfl

@[simp] theorem malloc_false : h.malloc false = (none, h) := rfl

@[simp] theorem mallocHost_true : h.mallocHost true = (some h.allocations,
    ⟨h.events ++ [.acquire (.host h.allocations)], h.allocations + 1⟩) := rfl

@[simp] theorem mallocHost_false : h.mallocHost false = (none, h) := rfl

@[simp] theorem free_some :
    h.free (some n) = ⟨h.events ++ [.release (.device n)], h.allocations⟩ := rfl

@[simp] theorem free_none : h.free none = h := by
  simp [Heap.free]

@[simp] theorem freeHost_some :
    h.freeHost (some n) = ⟨h.events ++ [.release (.host n)], h.allocations⟩ := rfl

end Heap

/-- One case for each call that can be the first to fail. -/
theorem prepared_releasedOnce_iff (c : Calls) (tiling : L2CacheClearTiling) :
    ReleasedOnce (prepared c (some tiling)).events ↔ ¬ c.FailsLate := by
  obtain ⟨buffer, flushBuffer, cmoBuffer, l2Buffer, hostBlockLen, blockLen, memcpyAsync,
    synchronizeStream⟩ := c
  simp only [prepared, prepareClearL2CacheParam, mallocBuffer, copyBlockLen, freeL2Cache,
    Calls.FailsLate]
  cases buffer with
  | false => simp [ReleasedOnce]
  | true =>
    cases flushBuffer with
    | false => simp [ReleasedOnce]
    | true =>
      cases cmoBuffer with
      | false => simp [ReleasedOnce]
      | true =>
        cases l2Buffer with
        | false => simp [ReleasedOnce]
        | true =>
          cases hostBlockLen with
          | false => simp [ReleasedOnce]
          | true =>
            cases blockLen with
            | false => simp [ReleasedOnce]
            | true =>
              cases memcpyAsync with
              | false => simp [ReleasedOnce]
              | true =>
                cases synchronizeStream with
                | false => simp [ReleasedOnce]
                | true => simp [ReleasedOnce]

/-- A replay of the kernel has no way out of its rounds. -/
theorem replayRounds_ok {e : Env} (h : e.isAppReplay = false) (success : Bool)
    (rounds replayCount : ℕ) (funcRet : Bool) :
    ∃ res, replayRounds e success rounds replayCount funcRet = .ok res := by
  induction rounds generalizing replayCount funcRet with
  | zero => exact ⟨funcRet, rfl⟩
  | succ rounds ih =>
    unfold replayRounds
    split
    · exact ⟨funcRet, rfl⟩
    · simpa [h] using ih (replayCount + 1) (funcRet && e.round success replayCount)

theorem kernelReplay_of_appReplay {e : Env} (h : e.isAppReplay = true) (c : Calls) :
    (kernelReplay e c).2 = {} := by
  have hfree : freeL2Cache {} {} = {} := by
    simp [freeL2Cache]
  unfold kernelReplay
  simp only [h]
  split
  · rfl
  · split
    · rfl
    · split
      · rfl
      · simpa using hfree

theorem kernelReplay_prepared {e : Env} (h : e.isAppReplay = false) (c : Calls) :
    (kernelReplay e c).2 = prepared c e.tiling := by
  obtain ⟨res, hres⟩ := replayRounds_ok h (prepareClearL2CacheParam c e.tiling {} {}).1
    (KernelReplay.getReplayTimes - e.getInitReplayCount) e.getInitReplayCount true
  simp [kernelReplay, Env.isDbi, h, hres, prepared]

/-- Each buffer is freed exactly once unless the replay prepares them and a call fails late. -/
theorem replay_releasedOnce_iff (e : Env) (c : Calls) (r : Replay) :
    ReleasedOnce (replay e c r).2.events ↔
      ¬ (Prepares e r ∧ e.tiling.isSome ∧ c.FailsLate) := by
  have hprepared : ReleasedOnce (prepared c e.tiling).events ↔
      ¬ (e.tiling.isSome ∧ c.FailsLate) := by
    cases e.tiling with
    | none => simp [prepared_none, ReleasedOnce]
    | some tiling => simp [prepared_releasedOnce_iff]
  cases r with
  | kernel =>
    cases happ : e.isAppReplay with
    | false => simp [replay, kernelReplay_prepared happ, Prepares, happ, hprepared]
    | true => simp [replay, kernelReplay_of_appReplay happ, Prepares, happ, ReleasedOnce]
  | range =>
    cases hinit : e.rangeReplayInit with
    | false => simp [replay, rangeReplay, Prepares, hinit, ReleasedOnce]
    | true =>
      cases hneed : e.needReplay with
      | false => simp [replay, rangeReplay, Prepares, hinit, hneed, ReleasedOnce]
      | true =>
        have hheap : (rangeReplay e c).2 = prepared c e.tiling := by
          simp [rangeReplay, hinit, hneed, prepared]
        simp [replay, hheap, Prepares, hinit, hneed, hprepared]

/-- The copy of the length fails: `l2Buffer` and `blockLen` are freed twice. -/
theorem not_releasedOnce_memcpyAsync :
    ¬ ReleasedOnce (replay { tiling := some ⟨8388608, 24⟩ } { memcpyAsync := false }
      .kernel).2.events := by
  decide

end Msopcom.L2CacheBuffers
