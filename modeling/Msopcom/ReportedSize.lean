import Msopcom.LayeredRecords
import Msopcom.RecordLayoutBounds

set_option autoImplicit false

/-!
# The size of a reported allocation

The runtime rounds an allocation up to blocks of 32 bytes and adds one, and the hook of the ACL
runtime reports that size. Its helper rounds in 32 bits.
-/
namespace Msopcom.LayeredRecords

/-! ## Rounding up -/

def roundUp (align n : ℕ) : ℕ := (n + (align - 1)) / align * align

theorem isLeast_roundUp {align : ℕ} (h : 0 < align) (n : ℕ) :
    IsLeast {m | n ≤ m ∧ align ∣ m} (roundUp align n) := by
  have hmod := Nat.div_add_mod (n + (align - 1)) align
  have hlt := Nat.mod_lt (n + (align - 1)) h
  rw [Nat.mul_comm] at hmod
  constructor
  · refine ⟨?_, Nat.dvd_mul_left align _⟩
    unfold roundUp
    omega
  · intro m hm
    obtain ⟨hle, k, rfl⟩ := hm
    have hquot : (n + (align - 1)) / align ≤ k := by
      rw [← Nat.lt_succ_iff, Nat.div_lt_iff_lt_mul h, Nat.succ_mul, Nat.mul_comm k]
      omega
    rw [roundUp, Nat.mul_comm align k]
    exact Nat.mul_le_mul_right align hquot

theorem le_roundUp {align : ℕ} (h : 0 < align) (n : ℕ) : n ≤ roundUp align n :=
  (isLeast_roundUp h n).1.1

/-! ## The record -/

/-- One record is reported, its size is the requested one rounded up to blocks and one block
more, and it covers the allocation. -/
def ReportsBlocks (a : Args) (s : State) : Prop :=
  ∃ record, (aclrtMallocImplPost a s).reports = s.reports ++ [record] ∧
    record.memSize.toNat = roundUp 32 a.size.toNat + 32 ∧ a.size.toNat ≤ record.memSize.toNat

/-- What the code makes of a size: the upper half is dropped, and so is a carry. -/
theorem toNat_aclMemSize (size : UInt64) :
    (aclMemSize size).toNat = (size.toNat % 2 ^ 32 + 31) % 2 ^ 32 / 32 * 32 + 32 := by
  have hceil := @toNat_ceilByAlignSize blockAlignSize (by decide) size.toUInt32
  rw [UInt64.toNat_toUInt32] at hceil
  unfold aclMemSize
  rw [UInt64.toNat_add, UInt32.toNat_toUInt64, hceil]
  change ((_ + 31) % 2 ^ 32 / 32 * 32 + 32) % 2 ^ 64 = _
  omega

theorem aclMemSize_eq_iff (size : UInt64) :
    (aclMemSize size).toNat = roundUp 32 size.toNat + 32 ↔ size.toNat + 31 < 2 ^ 32 := by
  rw [toNat_aclMemSize]
  unfold roundUp
  omega

theorem reports_aclrtMallocImplPost {a : Args} (h : a.ret = 0) (s : State) :
    (aclrtMallocImplPost a s).reports = s.reports ++
      [{ type := .malloc, infoSrc := .acl, dstAddr := a.addr, memSize := aclMemSize a.size }] := by
  rw [aclrtMallocImplPost, if_neg (not_not.mpr h)]
  rfl

theorem reportsBlocks_iff_memSize {a : Args} (h : a.ret = 0) (s : State) :
    ReportsBlocks a s ↔ (aclMemSize a.size).toNat = roundUp 32 a.size.toNat + 32 := by
  unfold ReportsBlocks
  rw [reports_aclrtMallocImplPost h]
  constructor
  · intro hreports
    obtain ⟨record, hrecord, hsize, -⟩ := hreports
    rw [← List.singleton_inj.mp (List.append_cancel_left hrecord)] at hsize
    exact hsize
  · intro hsize
    have hle := le_roundUp (show 0 < 32 by decide) a.size.toNat
    exact ⟨_, rfl, hsize, by dsimp only; omega⟩

/-- The reported size is that of the runtime unless rounding leaves 32 bits. -/
theorem aclrtMalloc_reports_blocks_iff {a : Args} (h : a.ret = 0) (s : State) :
    ReportsBlocks a s ↔ a.size.toNat + 31 < 2 ^ 32 :=
  (reportsBlocks_iff_memSize h s).trans (aclMemSize_eq_iff a.size)

/-- 4 GiB are reported as 32 bytes. -/
theorem aclrtMalloc_loses_upper_half :
    ¬ ∀ (a : Args) (s : State), a.ret = 0 → ReportsBlocks a s := by
  intro h
  have hsize := (reportsBlocks_iff_memSize rfl {}).mp (h ⟨4096, 2 ^ 32, 0⟩ {} rfl)
  exact absurd hsize (by decide)

theorem aclrtMalloc_reports_blocks_small : ReportsBlocks ⟨4096, 100, 0⟩ {} ↔ 100 + 31 < 2 ^ 32 :=
  @aclrtMalloc_reports_blocks_iff ⟨4096, 100, 0⟩ rfl {}

end Msopcom.LayeredRecords
