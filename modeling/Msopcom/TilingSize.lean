import Msopcom.ReportOp
import Msopcom.Words

set_option autoImplicit false

/-!
# The size of the tiling block

Both overloads of `ReportOpMallocInfo` report what is left of the arguments behind the offset of
the tiling data, or the size that the operator declares, rounded up. They differ in what they
take off and in what they check.
-/
namespace Msopcom.TilingSize
open Words

def roundUp32 (n : ℤ) : ℤ := (n + 31) / 32 * 32

def tilingRecord (type : MemOpType) (addr length : UInt64) : HostMemRecord :=
  { type := type, infoSrc := .bypass, dstAddr := addr, memSize := length, infoDesc := .tiling }

/-- The last two records that the tool gets are those of a tiling block of `n` bytes. -/
def Sized (r : Reporter) (n : ℤ) : Prop :=
  ∃ before addr length, r.notified = before ++
    [tilingRecord .malloc addr length, tilingRecord .store addr length] ∧ (length.toNat : ℤ) = n

theorem sized_reportTiling (r : Reporter) (o : OpMemInfo) (addr size : UInt64)
    (desc : MemInfoDesc) (n : ℤ) :
    Sized (reportTiling r o addr size desc).1 n ↔ (size.toNat : ℤ) = n := by
  have hsent : (reportTiling r o addr size desc).1.notified =
      r.notified ++ [tilingRecord .malloc addr size, tilingRecord .store addr size] := by
    change r.notified ++ [_] ++ [_] = _
    rw [List.append_assoc]
    rfl
  unfold Sized
  rw [hsent]
  constructor
  · intro hexists
    obtain ⟨before, addr', length, hlist, hlength⟩ := hexists
    have htail := List.append_inj_right' hlist rfl
    have hsize : size = length := congrArg (fun l => (l.headD (tilingRecord .malloc 0 0)).memSize)
      htail
    rw [hsize]
    exact hlength
  · intro hlength
    exact ⟨r.notified, addr, size, rfl, hlength⟩

/-- The bytes of the overflow status. -/
def overflowSlot (ctx : KernelContext) : ℤ := if ctx.needOverflowStatus then 8 else 0

/-- The code's `size` is the difference it stands for, rounding it up stays within the word, and
the block that is reported is as long as what is available or declared, rounded up. -/
structure Exact (r : Reporter) (size declared : UInt64) (difference available : ℤ) : Prop where
  difference : (size.toNat : ℤ) = difference
  rounding : ((max size declared + 31).toNat : ℤ) = max (size.toNat : ℤ) declared.toNat + 31
  length : Sized r (roundUp32 (max available declared.toNat))

theorem toNat_alignTiling {size declared : UInt64} (h : max size.toNat declared.toNat + 31 < 2 ^ 64) :
    (alignTiling size declared).toNat = (max size.toNat declared.toNat + 31) / 32 * 32 := by
  have hmax := toNat_max64 size declared
  unfold alignTiling
  have hsum : (max size declared + 31).toNat = max size.toNat declared.toNat + 31 := by
    rw [toNat_add64 (by rw [hmax]; exact h), hmax]
    rfl
  rw [UInt64.toNat_mul, UInt64.toNat_div, hsum]
  change (max size.toNat declared.toNat + 31) / 32 * 32 % 2 ^ 64 = _
  omega

theorem toNat_add31_iff (n : UInt64) : ((n + 31).toNat : ℤ) = n.toNat + 31 ↔
    n.toNat + 31 < 2 ^ 64 := by
  have hsum : (n + 31).toNat = (n.toNat + 31) % 2 ^ 64 := UInt64.toNat_add n 31
  have hlt : n.toNat < 2 ^ 64 := n.toNat_lt
  rw [hsum]
  omega

/-- What has to hold of the numbers for the block to be reported as it should be. -/
theorem exact_reportTiling (r : Reporter) (o : OpMemInfo) (addr : UInt64) (desc : MemInfoDesc)
    (size declared : UInt64) (difference available : ℤ) :
    Exact (reportTiling r o addr (alignTiling size declared) desc).1 size declared difference
        available ↔
      (size.toNat : ℤ) = difference ∧ max size.toNat declared.toNat + 31 < 2 ^ 64 ∧
        roundUp32 (max size.toNat declared.toNat) = roundUp32 (max available declared.toNat) := by
  have hmax := toNat_max64 size declared
  have hrounding : ((max size declared + 31).toNat : ℤ) =
      max (size.toNat : ℤ) declared.toNat + 31 ↔ max size.toNat declared.toNat + 31 < 2 ^ 64 := by
    have hcast : ((max size.toNat declared.toNat : ℕ) : ℤ) = max (size.toNat : ℤ) declared.toNat := by
      omega
    rw [← hcast, ← hmax]
    exact toNat_add31_iff _
  have hlength (hfits : max size.toNat declared.toNat + 31 < 2 ^ 64) :
      ((alignTiling size declared).toNat : ℤ) = roundUp32 (max size.toNat declared.toNat) := by
    rw [toNat_alignTiling hfits]
    unfold roundUp32
    omega
  constructor
  · intro h
    have hfits := hrounding.mp h.rounding
    have hsized := (sized_reportTiling r o addr _ desc _).mp h.length
    rw [hlength hfits] at hsized
    exact ⟨h.difference, hfits, hsized⟩
  · intro h
    obtain ⟨hdifference, hfits, hsame⟩ := h
    refine ⟨hdifference, hrounding.mpr hfits, ?_⟩
    rw [sized_reportTiling, hlength hfits, hsame]

/-- The bytes of the overflow status do not make the difference: they are none, the declared size
covers them, or they stay within 32 bytes. -/
def SlotAbsorbed (ctx : KernelContext) (behind declared : ℕ) : Prop :=
  ctx.needOverflowStatus = false ∨ (behind : ℤ) ≤ roundUp32 declared ∨ behind % 32 = 0 ∨
    8 < behind % 32

theorem slotAbsorbed_iff (ctx : KernelContext) (behind declared : ℕ) :
    roundUp32 (max behind declared) = roundUp32 (max (behind - overflowSlot ctx) declared) ↔
      SlotAbsorbed ctx behind declared := by
  unfold SlotAbsorbed overflowSlot roundUp32
  cases ctx.needOverflowStatus with
  | false => simp
  | true =>
    simp only [if_true, Bool.true_eq_false, false_or]
    omega

section
variable (ctx : KernelContext) (r : Reporter) (o : OpMemInfo)

@[simp] theorem tilingDataSize_collectAddrInfos (buff : List UInt8) (paramsShift : UInt32)
    (parse : SecondPtrAddrInfos → UInt32 → SecondPtrAddrInfos) :
    (collectAddrInfos ctx buff paramsShift parse o).tilingDataSize = o.tilingDataSize := rfl

theorem exact_reportOpMallocInfo {a : RtArgsEx} {buff : List UInt8} (hargs : a.args = some buff)
    (htiling : a.hasTiling ≠ 0) (hguard : ¬ a.argsSize < a.tilingDataOffset) :
    Exact (reportOpMallocInfo ctx (some a) r o).1 (a.argsSize - a.tilingDataOffset).toUInt64
        o.tilingDataSize (a.argsSize.toNat - a.tilingDataOffset.toNat)
        (a.argsSize.toNat - a.tilingDataOffset.toNat - overflowSlot ctx) ↔
      o.tilingDataSize.toNat + 31 < 2 ^ 64 ∧
        SlotAbsorbed ctx (a.argsSize.toNat - a.tilingDataOffset.toNat) o.tilingDataSize.toNat := by
  have hle : a.tilingDataOffset.toNat ≤ a.argsSize.toNat := UInt32.not_lt.mp hguard
  have hbehind : (a.argsSize - a.tilingDataOffset).toUInt64.toNat =
      a.argsSize.toNat - a.tilingDataOffset.toNat := by
    rw [UInt32.toNat_toUInt64, toNat_sub32 hle]
  have hsize : a.argsSize.toNat < 2 ^ 32 := a.argsSize.toNat_lt
  have hoffset : (a.tilingDataOffset.toNat : ℤ) ≤ a.argsSize.toNat := Int.ofNat_le.mpr hle
  unfold reportOpMallocInfo
  simp only [hargs, tilingDataSize_collectAddrInfos]
  rw [if_neg htiling, if_neg hguard, exact_reportTiling, hbehind, ← slotAbsorbed_iff]
  have hcast : ((a.argsSize.toNat - a.tilingDataOffset.toNat : ℕ) : ℤ) =
      a.argsSize.toNat - a.tilingDataOffset.toNat := Int.ofNat_sub hle
  rw [hcast, eq_self_iff_true, true_and]
  apply and_congr_left'
  omega

/-- The size that the other overload rounds, in 64 bits. -/
def tilingArgsSize (launchArgs : AclrtLaunchArgsInfo) : UInt64 :=
  launchArgs.argsSize - (tilingPlaceHolder launchArgs.hostInputs).dataOffset.toUInt64 -
    if ctx.needOverflowStatus then 8 else 0

/-- It in integers. -/
def availableSize (launchArgs : AclrtLaunchArgsInfo) : ℤ :=
  launchArgs.argsSize.toNat - (tilingPlaceHolder launchArgs.hostInputs).dataOffset.toNat -
    overflowSlot ctx

theorem toNat_tilingArgsSize_iff (launchArgs : AclrtLaunchArgsInfo) :
    ((tilingArgsSize ctx launchArgs).toNat : ℤ) = availableSize ctx launchArgs ↔
      0 ≤ availableSize ctx launchArgs := by
  have hsize : launchArgs.argsSize.toNat < 2 ^ 64 := launchArgs.argsSize.toNat_lt
  have hoffset := (tilingPlaceHolder launchArgs.hostInputs).dataOffset.toNat_lt
  have hwide := UInt32.toNat_toUInt64 (tilingPlaceHolder launchArgs.hostInputs).dataOffset
  unfold tilingArgsSize availableSize overflowSlot
  cases ctx.needOverflowStatus with
  | false =>
    rw [if_neg Bool.false_ne_true, if_neg Bool.false_ne_true, UInt64.sub_zero, UInt64.toNat_sub,
      hwide]
    omega
  | true =>
    rw [if_pos rfl, if_pos rfl, UInt64.toNat_sub, UInt64.toNat_sub, hwide]
    change (((2 ^ 64 - 8 + (2 ^ 64 - _ + _) % 2 ^ 64) % 2 ^ 64 : ℕ) : ℤ) = _ ↔ _
    omega

theorem reportOpMallocInfoAcl_eq {launchArgs : AclrtLaunchArgsInfo} {buff : List UInt8}
    (hargs : launchArgs.hostArgs = some buff) (hplaced : launchArgs.placeHolderNum ≠ 0) :
    reportOpMallocInfoAcl ctx launchArgs r o =
      let collected := collectAddrInfos ctx buff 0 (launchArgs.parseSecondPtrAddrs buff) o
      reportTiling (reportUnique r collected) collected
        (readWord buff ((tilingPlaceHolder launchArgs.hostInputs).addrOffset.toNat / 8))
        (alignTiling (tilingArgsSize ctx launchArgs) o.tilingDataSize) .default := by
  unfold reportOpMallocInfoAcl
  simp only [hargs, tilingDataSize_collectAddrInfos]
  rw [if_neg hplaced]
  rfl

theorem exact_reportOpMallocInfoAcl {launchArgs : AclrtLaunchArgsInfo} {buff : List UInt8}
    (hargs : launchArgs.hostArgs = some buff) (hplaced : launchArgs.placeHolderNum ≠ 0) :
    Exact (reportOpMallocInfoAcl ctx launchArgs r o).1 (tilingArgsSize ctx launchArgs)
        o.tilingDataSize (availableSize ctx launchArgs) (availableSize ctx launchArgs) ↔
      0 ≤ availableSize ctx launchArgs ∧
        max (availableSize ctx launchArgs) o.tilingDataSize.toNat + 31 < 2 ^ 64 := by
  rw [reportOpMallocInfoAcl_eq ctx r o hargs hplaced, exact_reportTiling,
    toNat_tilingArgsSize_iff]
  apply and_congr_right
  intro hfits
  have hcast := (toNat_tilingArgsSize_iff ctx launchArgs).mpr hfits
  rw [hcast, eq_self_iff_true, and_true]
  omega

/-- The size of the tiling block is right for arguments that the declared size and the overflow
status leave room for; only one overload checks that the offset is in the arguments. -/
theorem tilingSize_iff :
    (∀ (a : RtArgsEx) (buff : List UInt8), a.args = some buff → a.hasTiling ≠ 0 →
      ¬ a.argsSize < a.tilingDataOffset →
      (Exact (reportOpMallocInfo ctx (some a) r o).1 (a.argsSize - a.tilingDataOffset).toUInt64
          o.tilingDataSize (a.argsSize.toNat - a.tilingDataOffset.toNat)
          (a.argsSize.toNat - a.tilingDataOffset.toNat - overflowSlot ctx) ↔
        o.tilingDataSize.toNat + 31 < 2 ^ 64 ∧
          SlotAbsorbed ctx (a.argsSize.toNat - a.tilingDataOffset.toNat)
            o.tilingDataSize.toNat)) ∧
    ∀ (launchArgs : AclrtLaunchArgsInfo) (buff : List UInt8), launchArgs.hostArgs = some buff →
      launchArgs.placeHolderNum ≠ 0 →
      (Exact (reportOpMallocInfoAcl ctx launchArgs r o).1 (tilingArgsSize ctx launchArgs)
          o.tilingDataSize (availableSize ctx launchArgs) (availableSize ctx launchArgs) ↔
        0 ≤ availableSize ctx launchArgs ∧
          max (availableSize ctx launchArgs) o.tilingDataSize.toNat + 31 < 2 ^ 64) := by
  constructor
  · intro a buff hargs htiling hguard
    exact exact_reportOpMallocInfo ctx r o hargs htiling hguard
  · intro launchArgs buff hargs hplaced
    exact exact_reportOpMallocInfoAcl ctx r o hargs hplaced

end

/-- A device that needs the overflow status. -/
def statusContext : KernelContext where
  mc2CtxFlag := false
  throughAdumpFlag := false
  needOverflowStatus := true
  deviceId := 0
  readHcclCombinOpParam _ := none

/-- 72 bytes, of which the last 48 are behind the offset of the tiling data. -/
def rtArgs : RtArgsEx :=
  { args := some (List.replicate 72 1), argsSize := 72, tilingAddrOffset := 8,
    tilingDataOffset := 24, hasTiling := 1 }

def aclArgs (dataOffset : UInt32) : AclrtLaunchArgsInfo :=
  ⟨some (List.replicate 72 1), 72, some [⟨8, dataOffset⟩], 1⟩

theorem tilingSize_behindSlot :
    Exact (reportOpMallocInfo statusContext (some rtArgs) ⟨.reset, []⟩ {}).1 48 0 48 40 ∧
      Exact (reportOpMallocInfoAcl statusContext (aclArgs 24) ⟨.reset, []⟩ {}).1
        (tilingArgsSize statusContext (aclArgs 24)) 0 (availableSize statusContext (aclArgs 24))
        (availableSize statusContext (aclArgs 24)) :=
  ⟨((tilingSize_iff statusContext ⟨.reset, []⟩ {}).1 rtArgs _ rfl (by decide) (by decide)).mpr
      ⟨by decide, .inr (.inr (.inr (by decide)))⟩,
    ((tilingSize_iff statusContext ⟨.reset, []⟩ {}).2 (aclArgs 24) _ rfl (by decide)).mpr
      ⟨by decide, by decide⟩⟩

/-- Tiling data behind the end of the arguments: nearly all addresses are reported. -/
theorem tilingSize_beyondArgs :
    Sized (reportOpMallocInfoAcl statusContext (aclArgs 128) ⟨.reset, []⟩ {}).1 (2 ^ 64 - 64) ∧
      ¬ Exact (reportOpMallocInfoAcl statusContext (aclArgs 128) ⟨.reset, []⟩ {}).1
        (tilingArgsSize statusContext (aclArgs 128)) 0
        (availableSize statusContext (aclArgs 128)) (availableSize statusContext (aclArgs 128)) := by
  constructor
  · have hone : (aclArgs 128).placeHolderNum ≠ 0 := by decide
    rw [reportOpMallocInfoAcl_eq statusContext _ _ rfl hone, sized_reportTiling]
    decide
  · intro h
    exact absurd h.difference (by decide)

end Msopcom.TilingSize
