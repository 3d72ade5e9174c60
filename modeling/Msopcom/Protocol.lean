import Mathlib.Data.List.Sort
import Mathlib.Algebra.Ring.Nat

set_option autoImplicit false

/-!
# Records shared with the tool side

The enumerations and record layouts of the communication protocol, with the
byte sizes that the C++ layout rules give them on the 64-bit host.
-/
namespace Msopcom

inductive MemInfoSrc where
  | bypass | hal | rt | acl | extra | manual | mstxHeap | mstxRegion
  deriving DecidableEq, Repr

def MemInfoSrc.toNat : MemInfoSrc → ℕ
  | .bypass => 0
  | .hal => 1
  | .rt => 2
  | .acl => 3
  | .extra => 4
  | .manual => 5
  | .mstxHeap => 6
  | .mstxRegion => 7

theorem MemInfoSrc.toNat_injective {a b : MemInfoSrc} (h : a.toNat = b.toNat) : a = b := by
  cases a <;> cases b <;> first | rfl | exact absurd h (by decide)

inductive MemInfoDesc where
  | default | input | tiling | doublePtr | hcclMc2Context | elfSection | ipcMemory | overflowAddr
  | paraBase
  deriving DecidableEq, Repr

inductive MemOpType where
  | malloc | free | memcpyBlocks | load | store | invalid
  deriving DecidableEq, Repr

structure HostMemRecord where
  type : MemOpType
  infoSrc : MemInfoSrc := .bypass
  infoDesc : MemInfoDesc := .default
  srcAddr : UInt64 := 0
  dstAddr : UInt64 := 0
  memSize : UInt64 := 0
  paramsNo : UInt64 := 0
  rootAddr : UInt64 := 0
  deriving DecidableEq, Repr

structure HostMemoryInfo where
  addr : UInt64
  size : UInt64
  deriving DecidableEq, Repr

structure AddrInfo where
  addr : UInt64
  length : UInt64
  memInfoSrc : MemInfoSrc := .bypass
  memInfoDesc : MemInfoDesc := .default
  paramsNo : UInt64 := 0
  deriving DecidableEq, Repr

/-- `AddrInfo::operator<`; the description and the parameter number do not count. -/
def AddrInfo.Before (a b : AddrInfo) : Prop :=
  if a.addr ≠ b.addr then a.addr < b.addr
  else if a.length ≠ b.length then a.length < b.length
  else a.memInfoSrc.toNat < b.memInfoSrc.toNat

instance : DecidableRel AddrInfo.Before := fun a b =>
  inferInstanceAs (Decidable (if a.addr ≠ b.addr then a.addr < b.addr
    else if a.length ≠ b.length then a.length < b.length
    else a.memInfoSrc.toNat < b.memInfoSrc.toNat))

theorem AddrInfo.before_iff (a b : AddrInfo) : a.Before b ↔
    a.addr.toNat < b.addr.toNat ∨ a.addr.toNat = b.addr.toNat ∧
      (a.length.toNat < b.length.toNat ∨ a.length.toNat = b.length.toNat ∧
        a.memInfoSrc.toNat < b.memInfoSrc.toNat) := by
  unfold AddrInfo.Before
  split_ifs with ha hl <;>
    simp only [ne_eq, not_not, ← UInt64.toNat_inj, UInt64.lt_iff_toNat_lt] at * <;> omega

instance : IsStrictOrder AddrInfo AddrInfo.Before where
  irrefl a h := by
    rw [AddrInfo.before_iff] at h
    omega
  trans a b c hab hbc := by
    rw [AddrInfo.before_iff] at hab hbc ⊢
    omega

theorem AddrInfo.eq_of_not_before {a b : AddrInfo} (hab : ¬ a.Before b) (hba : ¬ b.Before a) :
    a.addr = b.addr ∧ a.length = b.length ∧ a.memInfoSrc = b.memInfoSrc := by
  rw [AddrInfo.before_iff] at hab hba
  refine ⟨UInt64.toNat_inj.mp (by omega), UInt64.toNat_inj.mp (by omega),
    MemInfoSrc.toNat_injective (by omega)⟩

theorem HostMemoryInfo.ext_toNat {a b : HostMemoryInfo} (haddr : a.addr.toNat = b.addr.toNat)
    (hsize : a.size.toNat = b.size.toNat) : a = b := by
  cases a
  cases b
  rw [UInt64.toNat_inj] at haddr hsize
  simp_all only

def HostMemoryInfo.Before (a b : HostMemoryInfo) : Prop :=
  if a.addr ≠ b.addr then a.addr < b.addr else a.size < b.size

instance : DecidableRel HostMemoryInfo.Before := fun a b =>
  inferInstanceAs (Decidable (if a.addr ≠ b.addr then a.addr < b.addr else a.size < b.size))

theorem HostMemoryInfo.before_iff (a b : HostMemoryInfo) : a.Before b ↔
    a.addr.toNat < b.addr.toNat ∨
      a.addr.toNat = b.addr.toNat ∧ a.size.toNat < b.size.toNat := by
  unfold HostMemoryInfo.Before
  split_ifs with ha <;>
    simp only [ne_eq, not_not, ← UInt64.toNat_inj, UInt64.lt_iff_toNat_lt] at * <;> omega

instance : IsStrictOrder HostMemoryInfo HostMemoryInfo.Before where
  irrefl a h := by
    rw [HostMemoryInfo.before_iff] at h
    omega
  trans a b c hab hbc := by
    rw [HostMemoryInfo.before_iff] at hab hbc ⊢
    omega

theorem HostMemoryInfo.eq_of_not_before {a b : HostMemoryInfo} (hab : ¬ a.Before b)
    (hba : ¬ b.Before a) : a = b := by
  rw [HostMemoryInfo.before_iff] at hab hba
  exact HostMemoryInfo.ext_toNat (by omega) (by omega)

end Msopcom
