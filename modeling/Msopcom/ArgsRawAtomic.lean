import Msopcom.ArgsRawView

set_option autoImplicit false

/-!
# What an expansion that fails leaves behind

The size and the place holders are those of the new arguments by the time the old buffer is
freed and the new one is asked for.
-/
namespace Msopcom.ArgsRaw
open Splice

namespace ArgsRawContext
variable {needOverflowStatus : Bool} {c : ArgsRawContext} {memory : Memory} {calls : Calls}
  {param : List UInt8}

@[simp] theorem argsSize_freeArgs : (c.freeArgs memory).1.argsSize = c.argsSize := by
  unfold freeArgs
  split_ifs <;> rfl

theorem freeArgs_of_not_needFree (h : c.needFree = false) : c.freeArgs memory = (c, memory) := by
  unfold freeArgs
  rw [h, Bool.false_and, if_neg Bool.false_ne_true]

theorem freeArgs_of_null (h : c.args = .null) : c.freeArgs memory = (c, memory) := by
  unfold freeArgs
  rw [h, decide_eq_false (not_not_intro rfl), Bool.and_false, if_neg Bool.false_ne_true]

theorem args_freeArgs_of_needFree (h : c.needFree = true) :
    (c.freeArgs memory).1.args = .null := by
  by_cases hnull : c.args = .null
  · rw [freeArgs_of_null hnull]
    exact hnull
  · unfold freeArgs
    rw [if_pos (by rw [h, Bool.true_and]; exact decide_eq_true hnull)]

/-- Arguments on the device are as long as they were, rounded up, and the parameter. -/
theorem argsSize_inserted (h : ¬ c.argsSize > maxAllParamSize) (copyArgs : Bool)
    (paramOffset : UInt32) :
    (c.inserted (c.resized memory copyArgs) param paramOffset).argsSize =
      UInt32.ofNat ((ceilByAlignSize alignSize c.argsSize).toNat + param.length) := by
  change UInt32.ofNat (splice paramOffset.toNat [] param (c.resized memory copyArgs)).length = _
  rw [length_splice, length_resized h, List.length_nil, Nat.add_zero]

theorem placeHolderArray_inserted (h : c.isDeviceArgs = true) (buffer : List UInt8)
    (paramOffset : UInt32) :
    (c.inserted buffer param paramOffset).placeHolderArray = c.placeHolderArray := by
  change c.shifted param.length = _
  rw [shifted, c.host_of_placeHolder h, List.map_nil]

end ArgsRawContext

/-- A failure leaves the arguments as they were, with the buffer that they are in. -/
def Atomic (c : ArgsRawContext) (memory : Memory) (e : Expansion) : Prop :=
  e.ret = false → e.ctx.args = c.args ∧ e.ctx.argsSize = c.argsSize ∧
    e.ctx.placeHolderArray = c.placeHolderArray ∧
    ∀ addr, c.args = .address addr → e.memory addr = memory addr

/-- Without device memory the pointer stays if there is none, or if it is neither freed before
the request nor cleared by it. -/
def PointerStays (c : ArgsRawContext) (cleared : Bool) : Prop :=
  c.args = .null ∨ c.needFree = false ∧ cleared = false

/-- No call fails behind the change of the size, or it changes nothing. -/
def Undisturbed (c : ArgsRawContext) (calls : Calls) (paramSize : ℕ) : Prop :=
  match calls.malloc with
  | .done _ => calls.copyBack = true
  | .failed cleared => PointerStays c cleared ∧
      UInt32.ofNat ((ceilByAlignSize alignSize c.argsSize).toNat + paramSize) = c.argsSize

section
variable {needOverflowStatus : Bool} {c : ArgsRawContext} {memory : Memory} {calls : Calls}
  {param : List UInt8}

theorem PointerStays.freeArgs {cleared : Bool} (h : PointerStays c cleared) :
    c.freeArgs memory = (c, memory) := by
  cases h with
  | inl hnull => exact ArgsRawContext.freeArgs_of_null hnull
  | inr hkept => exact ArgsRawContext.freeArgs_of_not_needFree hkept.1

theorem pointerStays_iff {cleared : Bool} :
    PointerStays c cleared ↔
      (if cleared then ArgsPtr.null else (c.freeArgs memory).1.args) = c.args := by
  constructor
  · intro hstays
    rw [hstays.freeArgs]
    cases hstays with
    | inl hnull => rw [hnull, ite_self]
    | inr hkept => rw [hkept.2, if_neg Bool.false_ne_true]
  · intro hsame
    by_cases hnull : c.args = .null
    · exact .inl hnull
    · refine .inr ⟨?_, ?_⟩
      · cases hfree : c.needFree with
        | false => rfl
        | true =>
          rw [ArgsRawContext.args_freeArgs_of_needFree hfree, ite_self] at hsame
          exact absurd hsame.symm hnull
      · cases cleared with
        | false => rfl
        | true => exact absurd hsame.symm hnull

/-- What is left when the device has no memory. -/
theorem atomic_failed_iff (i : ArgsRawContext) {cleared : Bool} (hargs : i.args = c.args)
    (hneedFree : i.needFree = c.needFree) (hplaced : i.placeHolderArray = c.placeHolderArray)
    (hdevice : i.isDeviceArgs = true) (hmalloc : calls.malloc = .failed cleared)
    (paramOffset : Option UInt32) :
    Atomic c memory ⟨(i.deliver memory calls).1, paramOffset, (i.deliver memory calls).2.1,
        (i.deliver memory calls).2.2⟩ ↔
      PointerStays c cleared ∧ i.argsSize = c.argsSize := by
  rw [ArgsRawContext.deliver_failed hdevice hmalloc]
  have hstays : PointerStays c cleared ↔ PointerStays i cleared := by
    unfold PointerStays
    rw [hargs, hneedFree]
  rw [hstays]
  constructor
  · intro hatomic
    obtain ⟨hpointer, hsize, -, -⟩ := hatomic rfl
    rw [← hargs] at hpointer
    exact ⟨pointerStays_iff.mpr hpointer, ArgsRawContext.argsSize_freeArgs.symm.trans hsize⟩
  · intro hkept _
    have hpointer : (if cleared then ArgsPtr.null else (i.freeArgs memory).1.args) = i.args :=
      pointerStays_iff.mp hkept.1
    refine ⟨hpointer.trans hargs, ArgsRawContext.argsSize_freeArgs.trans hkept.2,
      ArgsRawContext.placeHolderArray_freeArgs.trans hplaced, ?_⟩
    intro addr _
    rw [hkept.1.freeArgs]

/-- For arguments whose buffer is there. -/
theorem expandArgs_atomic_iff
    (hlive : ∀ addr, c.args = .address addr → (memory addr).isSome = true) :
    Atomic c memory (c.expandArgs needOverflowStatus memory calls param) ↔
      c.argsSize > maxAllParamSize ∨ c.isDeviceArgs = false ∨ Undisturbed c calls param.length := by
  by_cases h : c.argsSize > maxAllParamSize
  · apply iff_of_true _ (.inl h)
    intro _
    unfold ArgsRawContext.expandArgs
    rw [if_pos h]
    exact ⟨rfl, rfl, rfl, fun _ _ => rfl⟩
  rw [or_iff_right h, ArgsRawContext.expandArgs_eq h]
  dsimp only
  let i := c.inserted (c.resized memory calls.copyArgs) param
    (c.getLastParamOffset needOverflowStatus)
  cases hdevice : c.isDeviceArgs with
  | false =>
    apply iff_of_true _ (.inl rfl)
    intro hret
    rw [ArgsRawContext.deliver_host (c := i) hdevice] at hret
    exact absurd hret.symm Bool.false_ne_true
  | true =>
    rw [or_iff_right Bool.false_ne_true.symm]
    unfold Undisturbed
    cases hmalloc : calls.malloc with
    | failed cleared =>
      have hplaced : i.placeHolderArray = c.placeHolderArray :=
        ArgsRawContext.placeHolderArray_inserted hdevice _ _
      rw [atomic_failed_iff (c := c) i rfl rfl hplaced hdevice hmalloc,
        ArgsRawContext.argsSize_inserted h]
    | done addr =>
      rw [ArgsRawContext.deliver_done (c := i) hdevice hmalloc]
      cases hcopy : calls.copyBack with
      | true =>
        apply iff_of_true _ rfl
        intro hret
        exact absurd hret.symm Bool.false_ne_true
      | false =>
        apply iff_of_false _ Bool.false_ne_true
        intro hatomic
        obtain ⟨hpointer, -, -, hmemory⟩ := hatomic rfl
        -- the new buffer is the old one, whose bytes are gone
        have hgone : Function.update (i.freeArgs memory).2 addr none addr = memory addr :=
          hmemory addr hpointer.symm
        rw [Function.update_self] at hgone
        have hthere := hlive addr hpointer.symm
        rw [← hgone] at hthere
        exact absurd hthere Bool.false_ne_true

end

def ownedContext : ArgsRawContext := { deviceContext with needFree := true }

theorem expandArgs_atomic_ownedContext :
    Atomic ownedContext memory24 (ownedContext.expandArgs false memory24 ⟨true, .done 0x2000, true⟩
      (pointerBytes 0x5000)) := by
  have hlive : ∀ addr, ownedContext.args = .address addr → (memory24 addr).isSome = true := by
    intro addr haddr
    rw [← ArgsPtr.address.inj haddr]
    rfl
  exact (expandArgs_atomic_iff hlive).mpr (.inr (.inr rfl))

/-- Without device memory the size is that of arguments which are nowhere. -/
theorem expandArgs_not_atomic :
    (memory24 0x1000).isSome = true ∧
      ¬ Atomic deviceContext memory24 (deviceContext.expandArgs false memory24
        ⟨true, .failed false, true⟩ (pointerBytes 0x5000)) := by
  refine ⟨rfl, ?_⟩
  intro hatomic
  exact absurd (hatomic rfl).2.1 (by decide)

end Msopcom.ArgsRaw
