import Mathlib.Data.List.Basic
import Msopcom.Runs

set_option autoImplicit false

/-!
# The device memory of the records

One buffer is kept for the launches of a thread. It is given out again as long as the device
is the same and it is large enough, and a flag says that it has been initialised.
-/
namespace Msopcom.DevMemManager
open Runs

/-- An address, with `nullptr` as 0. -/
abbrev Ptr := UInt64

abbrev AclError := Int32

def aclErrorBadAlloc : AclError := 200000

/-- What the device was asked for, how often it was freed, and whether it was initialised. -/
structure Allocation where
  ptr : Ptr
  size : UInt64
  device : Int32
  freed : ℕ := 0
  initialised : Bool := false
  deriving DecidableEq, Repr

def Allocation.free (a : Allocation) : Allocation := { a with freed := a.freed + 1 }

def Allocation.initialise (a : Allocation) : Allocation := { a with initialised := true }

/-- The last allocation at an address. -/
def updateAt (ptr : Ptr) (f : Allocation → Allocation) : List Allocation → List Allocation
  | [] => []
  | a :: heap => if a.ptr = ptr then f a :: heap else a :: updateAt ptr f heap

/-- The manager of a thread, with the current device and the allocations, last first. -/
structure Manager where
  memSize : UInt64 := 0
  memPtr : Ptr := 0
  isMemoryInit : Bool := false
  isSkipKernel : Bool := false
  deviceId : Int32 := -1
  device : Int32 := 0
  heap : List Allocation := []
  deriving DecidableEq, Repr

namespace Manager

def aclrtFree (ptr : Ptr) (s : Manager) : Manager :=
  { s with heap := updateAt ptr Allocation.free s.heap }

def free (s : Manager) : Manager :=
  let s := if s.memPtr ≠ 0 then { s.aclrtFree s.memPtr with memPtr := 0 } else s
  { s with memSize := 0, deviceId := -1 }

/-- What the calls of one `MallocMemory` answer; a failed allocation leaves the pointer alone. -/
structure Attempt where
  getDevice : Bool
  malloc : Except AclError Ptr

/-- `given` says that there is a place for the pointer. -/
def mallocMemory (given : Bool) (size : UInt64) (attempt : Attempt) (s : Manager) :
    Except AclError Ptr × Manager :=
  if !given then (.error aclErrorBadAlloc, s)
  else if !attempt.getDevice then (.error aclErrorBadAlloc, s)
  else if s.device = s.deviceId ∧ s.memSize ≥ size then (.ok s.memPtr, s)
  else
    let s := s.free
    match attempt.malloc with
    | .error error => (.error error, s)
    | .ok ptr =>
      let s := { s with memPtr := ptr, heap := ⟨ptr, size, s.device, 0, false⟩ :: s.heap }
      (.ok ptr, { s with memSize := size, isMemoryInit := false, deviceId := s.device })

/-- Who sets the flag has initialised the buffer. -/
def setMemoryInitFlag (flag : Bool) (s : Manager) : Manager :=
  { s with
    isMemoryInit := flag
    heap := if flag then updateAt s.memPtr Allocation.initialise s.heap else s.heap }

/-- What a launch finds: the size that its head asks for, if it has one, and whether the heads of
its blocks are copied. -/
structure Launch where
  assignGlobalHead : Option UInt64
  attempt : Attempt
  blockHeadsH2D : Bool

def mbToBytes : UInt64 := 1024 * 1024

def skipKernelProcess (attempt : Attempt) (s : Manager) : Option Ptr × Manager :=
  match s.mallocMemory true mbToBytes attempt with
  | (.error _, s) => (none, s)
  | (.ok memInfo, s) => (some memInfo, s)

/-- `SanitizerLaunchInit::Process`. -/
def process (launch : Launch) (s : Manager) : Option Ptr × Manager :=
  if s.isSkipKernel then s.skipKernelProcess launch.attempt
  else match launch.assignGlobalHead with
  | none => (none, s)
  | some memSize =>
    match s.mallocMemory true memSize launch.attempt with
    | (.error _, s) => (none, s)
    | (.ok memInfo, s) =>
      if !launch.blockHeadsH2D then (none, s.free)
      else if s.isMemoryInit then (some memInfo, s)
      else (some memInfo, s.setMemoryInitFlag true)

end Manager
open Manager

inductive Op
  | mallocMemory (given : Bool) (size : UInt64) (attempt : Attempt)
  | free
  | setMemoryInitFlag (flag : Bool)
  | setDevice (device : Int32)

def step (s : Manager) : Op → Manager
  | .mallocMemory given size attempt => (s.mallocMemory given size attempt).2
  | .free => s.free
  | .setMemoryInitFlag flag => s.setMemoryInitFlag flag
  | .setDevice device => { s with device }

/-- Devices are numbered from 0, and an allocation that succeeds is somewhere. -/
def Documented : Op → Prop
  | .mallocMemory _ _ attempt => ∀ ptr, attempt.malloc = .ok ptr → ptr ≠ 0
  | .setDevice device => 0 ≤ device
  | _ => True

/-! ## What the buffer has to be -/

/-- A pointer that is returned is that of an allocation for this size on the current device. -/
def Returned (s : Manager) : Op → Prop
  | .mallocMemory given size attempt => ∀ ptr, (s.mallocMemory given size attempt).1 = .ok ptr →
    ∃ a ∈ (s.mallocMemory given size attempt).2.heap, a.ptr = ptr ∧ a.freed = 0 ∧
      size ≤ a.size ∧ a.device = s.device
  | _ => True

def FreedOnce (s : Manager) : Prop := ∀ a ∈ s.heap, a.freed ≤ 1

/-- When the flag is set, the buffer of the manager's device is one that was initialised. -/
def Initialised (s : Manager) : Prop :=
  s.isMemoryInit = true → ∃ a ∈ s.heap, a.ptr = s.memPtr ∧ a.freed = 0 ∧
    a.device = s.deviceId ∧ a.initialised = true

instance (s : Manager) : Decidable (Initialised s) := inferInstanceAs (Decidable (_ → _))

structure Right (s : Manager) (op : Op) : Prop where
  returned : Returned s op
  freedOnce : FreedOnce (step s op)
  initialised : Initialised (step s op)

/-- The flag is set with a buffer only, and is not set when the buffer goes and no other comes. -/
def Checked (s : Manager) : Op → Prop
  | .mallocMemory given size attempt => given = true → attempt.getDevice = true →
    ¬ (s.device = s.deviceId ∧ s.memSize ≥ size) → attempt.malloc.toOption = none →
      s.isMemoryInit = false
  | .free => s.isMemoryInit = false
  | .setMemoryInitFlag flag => flag = true → s.memPtr ≠ 0
  | .setDevice _ => True

instance : DecidableRel Checked
  | _, .mallocMemory _ _ _ => inferInstanceAs (Decidable (_ → _ → _ → _ → _))
  | _, .free => inferInstanceAs (Decidable (_ = _))
  | _, .setMemoryInitFlag _ => inferInstanceAs (Decidable (_ → _))
  | _, .setDevice _ => inferInstanceAs (Decidable True)

/-! ## The invariant -/

def Gone (heap : List Allocation) : Prop := ∀ a ∈ heap, a.freed = 1

structure Empty (s : Manager) : Prop where
  memPtr : s.memPtr = 0
  deviceId : s.deviceId = -1
  gone : Gone s.heap

/-- The buffer is the last allocation. -/
structure Holds (s : Manager) (a : Allocation) (old : List Allocation) : Prop where
  heap : s.heap = a :: old
  ptr : a.ptr = s.memPtr
  size : a.size = s.memSize
  device : a.device = s.deviceId
  live : a.freed = 0
  memPtr : s.memPtr ≠ 0
  gone : Gone old

structure Inv (s : Manager) : Prop where
  device : 0 ≤ s.device
  buffer : Empty s ∨ ∃ a old, Holds s a old

variable {s : Manager} {a : Allocation} {old : List Allocation}

theorem updateAt_buffer (h : Holds s a old) (f : Allocation → Allocation) :
    updateAt s.memPtr f s.heap = f a :: old := by
  rw [h.heap, updateAt, if_pos h.ptr]

theorem gone_updateAt (ptr : Ptr) {f : Allocation → Allocation} (hf : ∀ a, (f a).freed = a.freed)
    {heap : List Allocation} (h : Gone heap) : Gone (updateAt ptr f heap) := by
  induction heap with
  | nil => exact h
  | cons a heap ih =>
    obtain ⟨ha, hheap⟩ := List.forall_mem_cons.mp h
    rw [updateAt]
    split_ifs with hptr
    · exact List.forall_mem_cons.mpr ⟨(hf a).trans ha, hheap⟩
    · exact List.forall_mem_cons.mpr ⟨ha, ih hheap⟩

theorem free_device (s : Manager) : s.free.device = s.device := by
  unfold Manager.free
  split_ifs <;> rfl

theorem free_isMemoryInit (s : Manager) : s.free.isMemoryInit = s.isMemoryInit := by
  unfold Manager.free
  split_ifs <;> rfl

theorem empty_free (h : Inv s) : Empty s.free := by
  unfold Manager.free
  obtain hempty | ⟨a, old, hholds⟩ := h.buffer
  · rw [if_neg (not_not.mpr hempty.memPtr)]
    exact ⟨hempty.memPtr, rfl, hempty.gone⟩
  · rw [if_pos hholds.memPtr, Manager.aclrtFree, updateAt_buffer hholds]
    refine ⟨rfl, rfl, List.forall_mem_cons.mpr ⟨?_, hholds.gone⟩⟩
    rw [Allocation.free, hholds.live]

theorem not_empty_of_device (h : Inv s) (hdevice : s.device = s.deviceId) :
    ∃ a old, Holds s a old := by
  refine h.buffer.resolve_left fun hempty => ?_
  have hnonneg := h.device
  rw [hdevice, hempty.deviceId] at hnonneg
  exact absurd hnonneg (by decide)

/-! ## One call of `MallocMemory` -/

/-- The state behind an allocation. -/
def allocated (ptr : Ptr) (size : UInt64) (s : Manager) : Manager :=
  { s.free with
    memPtr := ptr
    memSize := size
    isMemoryInit := false
    deviceId := s.device
    heap := ⟨ptr, size, s.device, 0, false⟩ :: s.free.heap }

/-- Nothing changes, or the buffer is freed and there is another one or none. -/
theorem mallocMemory_cases (given : Bool) (size : UInt64) (attempt : Attempt) (s : Manager) :
    (¬ (given = true ∧ attempt.getDevice = true) ∧
      s.mallocMemory given size attempt = (.error aclErrorBadAlloc, s)) ∨
    ((s.device = s.deviceId ∧ s.memSize ≥ size) ∧
      s.mallocMemory given size attempt = (.ok s.memPtr, s)) ∨
    (∃ error, (given = true ∧ attempt.getDevice = true ∧
        ¬ (s.device = s.deviceId ∧ s.memSize ≥ size) ∧ attempt.malloc = .error error) ∧
      s.mallocMemory given size attempt = (.error error, s.free)) ∨
    ∃ ptr, attempt.malloc = .ok ptr ∧
      s.mallocMemory given size attempt = (.ok ptr, allocated ptr size s) := by
  unfold Manager.mallocMemory
  cases hgiven : given with
  | false => simp
  | true =>
    cases hdevice : attempt.getDevice with
    | false => simp
    | true =>
      by_cases hreuse : s.device = s.deviceId ∧ s.memSize ≥ size
      · simp [hreuse]
      · rw [if_neg hreuse]
        cases hmalloc : attempt.malloc with
        | error error => exact Or.inr (Or.inr (Or.inl ⟨error, ⟨rfl, rfl, hreuse, rfl⟩, rfl⟩))
        | ok ptr =>
          refine Or.inr (Or.inr (Or.inr ⟨ptr, rfl, ?_⟩))
          rw [allocated, ← free_device s]
          rfl

theorem holds_allocated (h : Inv s) {ptr : Ptr} (hptr : ptr ≠ 0) (size : UInt64) :
    Holds (allocated ptr size s) ⟨ptr, size, s.device, 0, false⟩ s.free.heap :=
  ⟨rfl, rfl, rfl, rfl, rfl, hptr, (empty_free h).gone⟩

/-! ## One step -/

theorem inv_free (h : Inv s) : Inv s.free :=
  ⟨(free_device s).symm ▸ h.device, Or.inl (empty_free h)⟩

theorem inv_allocated (h : Inv s) {ptr : Ptr} (hptr : ptr ≠ 0) (size : UInt64) :
    Inv (allocated ptr size s) :=
  ⟨(free_device s).symm ▸ h.device, Or.inr ⟨_, _, holds_allocated h hptr size⟩⟩

theorem inv_setDevice (h : Inv s) {device : Int32} (hdevice : 0 ≤ device) :
    Inv { s with device } := by
  refine ⟨hdevice, ?_⟩
  obtain hempty | ⟨a, old, hholds⟩ := h.buffer
  · exact Or.inl { hempty with }
  · exact Or.inr ⟨a, old, { hholds with }⟩

theorem holds_setMemoryInitFlag (h : Holds s a old) :
    Holds (s.setMemoryInitFlag true) a.initialise old where
  heap := updateAt_buffer h _
  ptr := h.ptr
  size := h.size
  device := h.device
  live := h.live
  memPtr := h.memPtr
  gone := h.gone

theorem empty_setMemoryInitFlag (h : Empty s) (flag : Bool) :
    Empty (s.setMemoryInitFlag flag) where
  memPtr := h.memPtr
  deviceId := h.deviceId
  gone := by
    cases flag with
    | false => exact h.gone
    | true => exact @gone_updateAt s.memPtr Allocation.initialise (fun _ => rfl) s.heap h.gone

theorem inv_setMemoryInitFlag (h : Inv s) (flag : Bool) : Inv (s.setMemoryInitFlag flag) := by
  refine ⟨h.device, ?_⟩
  obtain hempty | ⟨a, old, hholds⟩ := h.buffer
  · exact Or.inl (empty_setMemoryInitFlag hempty flag)
  · cases flag with
    | false => exact Or.inr ⟨a, old, { hholds with }⟩
    | true => exact Or.inr ⟨_, old, holds_setMemoryInitFlag hholds⟩

theorem inv_step (h : Inv s) {op : Op} (hop : Documented op) : Inv (step s op) := by
  cases op with
  | mallocMemory given size attempt =>
    unfold step
    dsimp only
    obtain ⟨_, hcall⟩ | ⟨_, hcall⟩ | ⟨error, _, hcall⟩ | ⟨ptr, hmalloc, hcall⟩ :=
      mallocMemory_cases given size attempt s
    · rw [hcall]
      exact h
    · rw [hcall]
      exact h
    · rw [hcall]
      exact inv_free h
    · rw [hcall]
      exact inv_allocated h (hop ptr hmalloc) size
  | free => exact inv_free h
  | setMemoryInitFlag flag => exact inv_setMemoryInitFlag h flag
  | setDevice device => exact inv_setDevice h hop

/-- Each allocation but the buffer was freed, and the buffer was not. -/
theorem freedOnce_of_inv (h : Inv s) : FreedOnce s := by
  intro b hb
  obtain hempty | ⟨a, old, hholds⟩ := h.buffer
  · exact Nat.le_of_eq (hempty.gone b hb)
  · rw [hholds.heap] at hb
    obtain rfl | hold := List.mem_cons.mp hb
    · rw [hholds.live]
      exact Nat.zero_le 1
    · exact Nat.le_of_eq (hholds.gone b hold)

/-- Behind a call that succeeds the buffer is the one that was asked for. -/
theorem mallocMemory_holds (h : Inv s) {given : Bool} {size : UInt64} {attempt : Attempt}
    (hmalloc : Documented (.mallocMemory given size attempt)) {ptr : Ptr}
    (hptr : (s.mallocMemory given size attempt).1 = .ok ptr) :
    ∃ a old, Holds (s.mallocMemory given size attempt).2 a old ∧ a.ptr = ptr ∧ size ≤ a.size ∧
      a.device = s.device := by
  obtain ⟨_, hcall⟩ | ⟨hreuse, hcall⟩ | ⟨error, _, hcall⟩ | ⟨fresh, hresult, hcall⟩ :=
    mallocMemory_cases given size attempt s
  · rw [hcall] at hptr
    cases hptr
  · obtain ⟨a, old, hholds⟩ := not_empty_of_device h hreuse.1
    rw [hcall] at hptr ⊢
    refine ⟨a, old, hholds, hholds.ptr.trans (Except.ok.inj hptr), ?_, ?_⟩
    · rw [hholds.size]
      exact hreuse.2
    · exact hholds.device.trans hreuse.1.symm
  · rw [hcall] at hptr
    cases hptr
  · rw [hcall] at hptr ⊢
    have hholds := holds_allocated h (hmalloc fresh hresult) size
    exact ⟨_, _, hholds, Except.ok.inj hptr, UInt64.le_refl size, rfl⟩

theorem returned_of_inv (h : Inv s) {op : Op} (hop : Documented op) : Returned s op := by
  cases op with
  | mallocMemory given size attempt =>
    intro ptr hptr
    obtain ⟨a, old, hholds, hsame, hsize, hdevice⟩ := mallocMemory_holds h hop hptr
    exact ⟨a, hholds.heap ▸ List.mem_cons_self, hsame, hholds.live, hsize, hdevice⟩
  | free => exact trivial
  | setMemoryInitFlag flag => exact trivial
  | setDevice device => exact trivial

/-! ## The flag -/

theorem initialised_empty_iff (h : Empty s) : Initialised s ↔ s.isMemoryInit = false := by
  constructor
  · intro hinit
    by_contra hflag
    obtain ⟨a, ha, _, hlive, _⟩ := hinit (Bool.not_eq_false _ ▸ hflag)
    exact absurd ((h.gone a ha).symm.trans hlive) Nat.one_ne_zero
  · intro hflag hset
    rw [hflag] at hset
    cases hset

theorem initialised_free_iff (h : Inv s) : Initialised s.free ↔ s.isMemoryInit = false := by
  rw [initialised_empty_iff (empty_free h), free_isMemoryInit]

theorem initialised_mallocMemory_iff (h : Inv s) (hinit : Initialised s) {given : Bool}
    {size : UInt64} {attempt : Attempt} :
    Initialised (s.mallocMemory given size attempt).2 ↔
      Checked s (.mallocMemory given size attempt) := by
  unfold Checked
  dsimp only
  obtain ⟨hboth, hcall⟩ | ⟨hreuse, hcall⟩ | ⟨error, hfree, hcall⟩ | ⟨ptr, hmalloc, hcall⟩ :=
    mallocMemory_cases given size attempt s
  · rw [hcall]
    exact iff_of_true hinit fun hgiven hdevice => absurd ⟨hgiven, hdevice⟩ hboth
  · rw [hcall]
    exact iff_of_true hinit fun _ _ hnot => absurd hreuse hnot
  · obtain ⟨hgiven, hdevice, hreuse, hmalloc⟩ := hfree
    rw [hcall, initialised_free_iff h]
    simp [hgiven, hdevice, hreuse, hmalloc, Except.toOption]
  · rw [hcall, hmalloc]
    refine iff_of_true (fun hset => ?_) fun _ _ _ hnone => ?_
    · cases hset
    · cases hnone

theorem initialised_setMemoryInitFlag_iff (h : Inv s) (flag : Bool) :
    Initialised (s.setMemoryInitFlag flag) ↔ (flag = true → s.memPtr ≠ 0) := by
  cases flag with
  | false => exact iff_of_true (fun hset => by cases hset) fun hset => by cases hset
  | true =>
    obtain hempty | ⟨a, old, hholds⟩ := h.buffer
    · rw [initialised_empty_iff (empty_setMemoryInitFlag hempty true)]
      simp [Manager.setMemoryInitFlag, hempty.memPtr]
    · have hflagged := holds_setMemoryInitFlag hholds
      refine iff_of_true (fun _ => ⟨_, ?_, hflagged.ptr, hflagged.live, hflagged.device, rfl⟩)
        fun _ => hholds.memPtr
      rw [hflagged.heap]
      exact List.mem_cons_self

theorem initialised_step_iff (h : Inv s) (hinit : Initialised s) (op : Op) :
    Initialised (step s op) ↔ Checked s op := by
  cases op with
  | mallocMemory given size attempt => exact initialised_mallocMemory_iff h hinit
  | free => exact initialised_free_iff h
  | setMemoryInitFlag flag => exact initialised_setMemoryInitFlag_iff h flag
  | setDevice device => exact iff_of_true hinit trivial

theorem right_iff (h : Inv s) (hinit : Initialised s) {op : Op} (hop : Documented op) :
    Right s op ↔ Checked s op := by
  rw [← initialised_step_iff h hinit op]
  constructor
  · exact fun hright => hright.initialised
  · intro hnext
    exact ⟨returned_of_inv h hop, freedOnce_of_inv (inv_step h hop), hnext⟩

theorem buffer_right_iff (ops : List Op) (hops : ∀ op ∈ ops, Documented op) :
    Guarded step Right {} ops ↔ Guarded step Checked {} ops := by
  have hstart : Inv {} := ⟨Int32.le_refl 0, Or.inl ⟨rfl, rfl, fun _ h => by cases h⟩⟩
  refine @guarded_congr_of _ _ step Right Checked (fun s => Inv s ∧ Initialised s) Documented
    (fun s op hs hop => right_iff hs.1 hs.2 hop) ?_ {} ops ⟨hstart, fun h => by cases h⟩ hops
  exact fun s op hs hop hright => ⟨inv_step hs.1 hop, hright.initialised⟩

/-- A buffer that grows, and one for another device. -/
theorem buffer_right_growing :
    Guarded step Right {} [.mallocMemory true 64 ⟨true, .ok 0x1000⟩, .setMemoryInitFlag true,
      .mallocMemory true 128 ⟨true, .ok 0x2000⟩, .setDevice 1,
      .mallocMemory true 32 ⟨true, .ok 0x1000⟩, .free] := by
  refine (buffer_right_iff _ ?_).mpr ?_
  · simp [Documented]
  · decide

/-- The flag outlives a buffer that is freed because the heads could not be copied. -/
theorem buffer_flag_stale :
    let ops : List Op := [.mallocMemory true 64 ⟨true, .ok 0x1000⟩, .setMemoryInitFlag true,
      .mallocMemory true 64 ⟨true, .ok 0x2000⟩, .free]
    (∀ op ∈ ops, Documented op) ∧ ¬ Guarded step Right {} ops := by
  refine ⟨by simp [Documented], fun hright => ?_⟩
  exact absurd hright.2.2.2.1.initialised (by decide)

/-! ## A launch -/

theorem initialised_of_ok (hinit : Initialised s) {given : Bool} {size : UInt64}
    {attempt : Attempt} {ptr : Ptr} (hptr : (s.mallocMemory given size attempt).1 = .ok ptr) :
    Initialised (s.mallocMemory given size attempt).2 := by
  obtain ⟨_, hcall⟩ | ⟨_, hcall⟩ | ⟨error, _, hcall⟩ | ⟨fresh, _, hcall⟩ :=
    mallocMemory_cases given size attempt s
  · rw [hcall]
    exact hinit
  · rw [hcall]
    exact hinit
  · rw [hcall] at hptr
    cases hptr
  · rw [hcall]
    intro hset
    cases hset

theorem initialised_buffer (h : Holds s a old) (hinit : Initialised s)
    (hset : s.isMemoryInit = true) : a.initialised = true := by
  obtain ⟨b, hb, _, hlive, _, hflag⟩ := hinit hset
  rw [h.heap] at hb
  obtain rfl | hold := List.mem_cons.mp hb
  · exact hflag
  · exact absurd ((h.gone b hold).symm.trans hlive) Nat.one_ne_zero

/-- The state behind a launch that gets a buffer. -/
theorem process_some (hskip : s.isSkipKernel = false) {launch : Launch} {memInfo : Ptr}
    (h : (s.process launch).1 = some memInfo) :
    ∃ memSize, launch.assignGlobalHead = some memSize ∧
      (s.mallocMemory true memSize launch.attempt).1 = .ok memInfo ∧
      (s.process launch).2 =
        if (s.mallocMemory true memSize launch.attempt).2.isMemoryInit then
          (s.mallocMemory true memSize launch.attempt).2
        else (s.mallocMemory true memSize launch.attempt).2.setMemoryInitFlag true := by
  unfold Manager.process at h ⊢
  rw [hskip, if_neg Bool.false_ne_true] at h ⊢
  cases hsize : launch.assignGlobalHead with
  | none =>
    rw [hsize] at h
    cases h
  | some memSize =>
    rw [hsize] at h
    refine ⟨memSize, rfl, ?_⟩
    dsimp only at h ⊢
    cases hcall : s.mallocMemory true memSize launch.attempt with
    | mk answer s' =>
      rw [hcall] at h
      cases answer with
      | error error => cases h
      | ok ptr =>
        cases hheads : launch.blockHeadsH2D with
        | false =>
          rw [hheads] at h
          cases h
        | true =>
          rw [hheads] at h
          dsimp only at h ⊢
          rw [Bool.not_true, if_neg Bool.false_ne_true] at h ⊢
          split_ifs at h ⊢ with hset
          · exact ⟨congrArg Except.ok (Option.some.inj h), rfl⟩
          · exact ⟨congrArg Except.ok (Option.some.inj h), rfl⟩

/-- A launch that gets a buffer gets one that is large enough and initialised, and sets the flag. -/
theorem process_initialised (h : Inv s) (hinit : Initialised s) (hskip : s.isSkipKernel = false)
    {launch : Launch} (hmalloc : ∀ ptr, launch.attempt.malloc = .ok ptr → ptr ≠ 0) {memInfo : Ptr}
    (hmemInfo : (s.process launch).1 = some memInfo) :
    (s.process launch).2.isMemoryInit = true ∧
      ∃ memSize a, launch.assignGlobalHead = some memSize ∧ a ∈ (s.process launch).2.heap ∧
        a.ptr = memInfo ∧ a.freed = 0 ∧ memSize ≤ a.size ∧ a.device = s.device ∧
        a.initialised = true := by
  obtain ⟨memSize, hsize, hptr, hafter⟩ := process_some hskip hmemInfo
  obtain ⟨a, old, hholds, hsame, hlarge, hdevice⟩ := mallocMemory_holds h hmalloc hptr
  rw [hafter]
  cases hset : (s.mallocMemory true memSize launch.attempt).2.isMemoryInit with
  | true =>
    have hflag := initialised_buffer hholds (initialised_of_ok hinit hptr) hset
    rw [if_pos rfl]
    exact ⟨hset, memSize, a, hsize, hholds.heap ▸ List.mem_cons_self, hsame, hholds.live, hlarge,
      hdevice, hflag⟩
  | false =>
    have hflagged := holds_setMemoryInitFlag hholds
    rw [if_neg Bool.false_ne_true]
    exact ⟨rfl, memSize, a.initialise, hsize, hflagged.heap ▸ List.mem_cons_self, hsame,
      hholds.live, hlarge, hdevice, rfl⟩

end Msopcom.DevMemManager
