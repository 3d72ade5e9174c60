import Msopcom.MemoryManage
import Msopcom.Words
import Msopcom.Runs

set_option autoImplicit false

/-!
# How many ranges the device is told to expect

The counter announces the number of entries before the ranges are known. It
stays an upper bound on them in every run that never overflows it and announces
each uncounted record ahead, after the last call of `UpdateMemoryOp`.
-/
namespace Msopcom.MemoryManageCount
open MemoryManage

section Ranges

/-- Cutting a heap out replaces one piece by at most two. -/
theorem size_processMstxHeapMem_le (cache : AddrsSet) (a : AddrInfo) :
    (processMstxHeapMem cache a).size ≤ cache.size + 1 := by
  unfold processMstxHeapMem
  split
  · exact Nat.le_succ _
  · rename_i it hfind
    have hit : it ∈ cache := List.mem_of_find?_eq_some hfind
    have hgrow : ∀ (s : AddrsSet) (n : ℕ) (c : Prop) [Decidable c] (r : HostMemoryInfo),
        it ∈ s ∧ s.size ≤ n →
        it ∈ (if c then s.insert r else s) ∧ (if c then s.insert r else s).size ≤ n + 1 := by
      rintro s n c _ r ⟨hs, hsize⟩
      split_ifs
      · exact ⟨OrderedSet.mem_insert_of_mem hs,
          (OrderedSet.size_insert_le s r).trans (Nat.succ_le_succ hsize)⟩
      · exact ⟨hs, hsize.trans (Nat.le_succ n)⟩
    obtain ⟨hmem, hsize⟩ := hgrow _ _ (it.addr - a.addr + it.size - a.length > 0)
      ⟨a.addr + a.length, it.addr - a.addr + it.size - a.length⟩
      (hgrow cache _ (a.addr > it.addr) ⟨it.addr, a.addr - it.addr⟩ ⟨hit, le_refl _⟩)
    have hsub := OrderedSet.size_eraseFirst_of_mem (p := fun r => decide (r = it)) hmem (by simp)
    dsimp only
    omega

def Extraction.total (acc : Extraction) : ℕ := acc.ranges.length + acc.cacheRtAclMems.size

theorem total_extractStep_le (isExtra : Bool) (acc : Extraction) (a : AddrInfo) :
    Extraction.total (extractStep isExtra acc a) ≤ Extraction.total acc + 1 := by
  have hins := OrderedSet.size_insert_le acc.cacheRtAclMems ⟨a.addr, a.length⟩
  have hheap := size_processMstxHeapMem_le acc.cacheRtAclMems a
  unfold extractStep Extraction.total
  dsimp only
  split_ifs <;> (try simp only [List.length_append, List.length_singleton]) <;> omega

theorem total_foldl_le (isExtra : Bool) (l : List AddrInfo) (acc : Extraction) :
    Extraction.total (l.foldl (extractStep isExtra) acc) ≤ Extraction.total acc + l.length := by
  induction l generalizing acc with
  | nil => exact le_refl _
  | cons a l ih =>
    have hstep := total_extractStep_le isExtra acc a
    have hrest := ih (extractStep isExtra acc a)
    simp only [List.foldl_cons, List.length_cons]
    omega

theorem length_extractValidMems_le (infos : AddrInfoSet) :
    (extractValidMems infos).length ≤ infos.size := by
  have htotal := total_foldl_le (hasExtra infos) infos.elems ⟨[], .empty⟩
  simp only [Extraction.total, List.length_nil, OrderedSet.size, OrderedSet.elems_empty] at htotal
  simp only [extractValidMems, List.length_append, OrderedSet.size]
  omega

theorem length_mergeInto_le (last : HostMemoryInfo) (l : List HostMemoryInfo) :
    (mergeInto last l).length ≤ l.length + 1 := by
  induction l generalizing last with
  | nil => exact le_refl _
  | cons current rest ih =>
    simp only [mergeInto]
    split_ifs
    · exact (ih _).trans (Nat.le_succ _)
    · simpa only [List.length_cons] using Nat.succ_le_succ (ih current)

theorem length_mergeRanges_le (l : List HostMemoryInfo) : (mergeRanges l).length ≤ l.length := by
  cases l with
  | nil => exact le_refl _
  | cons first rest => exact length_mergeInto_le first rest

/-- While the counter bounds the number of records, the merged vector has one
entry for each announced one, unless no record is left to merge. -/
theorem length_mergeHostMems {m : MemoryManage}
    (h : m.memoryOpAddrInfos.size ≤ m.mallocCount.toNat) :
    m.mergeHostMems.length =
      if m.memoryOpAddrInfos.elems.isEmpty then 0 else m.mallocCount.toNat := by
  have hmerged := (length_mergeRanges_le
    ((extractValidMems m.memoryOpAddrInfos).mergeSort fun a b => a.addr ≤ b.addr)).trans
      ((List.length_mergeSort _).trans_le (length_extractValidMems_le m.memoryOpAddrInfos))
  simp only [mergeHostMems, Bool.or_eq_true, decide_eq_true_eq]
  split_ifs with hnone hlt hempty hempty
  · rfl
  · rw [hnone.resolve_left hlt]
    rfl
  · exact absurd (Or.inl ‹_›) hnone
  · rw [List.length_append, List.length_replicate]
    omega
  · exact absurd (Or.inl ‹_›) hnone
  · omega

theorem length_setSize (mems : List HostMemoryInfo) (index : ℕ) (size : UInt64) :
    (setSize mems index size).length = mems.length := List.length_modify _ _ _

theorem length_copyExtraMallocToHostMemory (m : MemoryManage) (inputs : List AddrInfo)
    (tilingDataSize : UInt64) :
    (m.copyExtraMallocToHostMemory inputs tilingDataSize).length = m.mergeHostMems.length := by
  have hfold : ∀ (l : List (AddrInfo × ℕ)) (mems : List HostMemoryInfo) (extraIndex : ℕ),
      (l.foldl (fun mems input => setSize mems (extraIndex + input.2) input.1.length)
        mems).length = mems.length := by
    intro l mems extraIndex
    induction l generalizing mems with
    | nil => rfl
    | cons input l ih => rw [List.foldl_cons, ih, length_setSize]
  simp only [copyExtraMallocToHostMemory]
  split_ifs
  · rw [length_setSize, hfold]
  · rw [hfold]

end Ranges

/-- A table together with the announced records that have not been stored yet. -/
structure Announced where
  manage : MemoryManage
  reserved : ℕ

def reserve (reserved : ℕ) : MemoryOp → ℕ
  | .malloc _ _ _ isUpdateCount => if isUpdateCount then reserved else reserved - 1
  | .free _ _ => reserved
  | .count n => reserved + n.toNat
  | .update => 0

def Announced.step (s : Announced) (op : MemoryOp) : Announced :=
  ⟨op.apply s.manage, reserve s.reserved op⟩

/-- The counter does not overflow, and an uncounted record was announced. -/
def Announced.Admits (s : Announced) : MemoryOp → Prop
  | .malloc _ _ _ isUpdateCount =>
    if isUpdateCount then s.manage.mallocCount.toNat + 1 < 2 ^ 32 else 0 < s.reserved
  | .free _ _ => True
  | .count n => s.manage.mallocCount.toNat + n.toNat < 2 ^ 32
  | .update => True

instance : DecidableRel Announced.Admits
  | _, .malloc _ _ _ true => Nat.decLt _ _
  | _, .malloc _ _ _ false => Nat.decLt _ _
  | _, .count _ => Nat.decLt _ _
  | _, .free _ _ => isTrue trivial
  | _, .update => isTrue trivial

def Announced.Bounded (s : Announced) : Prop :=
  s.manage.memoryOpAddrInfos.size + s.reserved ≤ s.manage.mallocCount.toNat

def Announced.start : Announced := ⟨reset, 0⟩

theorem Announced.bounded_step (s : Announced) (op : MemoryOp) (h : s.Bounded)
    (hadm : s.Admits op) : (s.step op).Bounded := by
  obtain ⟨m, reserved⟩ := s
  change m.memoryOpAddrInfos.size + reserved ≤ m.mallocCount.toNat at h
  cases op with
  | malloc addr infoSrc size isUpdateCount =>
    have hins := OrderedSet.size_insert_le m.memoryOpAddrInfos ⟨addr, size, infoSrc, .default, 0⟩
    cases isUpdateCount with
    | true =>
      change m.mallocCount.toNat + 1 < 2 ^ 32 at hadm
      have hcount : (m.mallocCount + 1).toNat = m.mallocCount.toNat + 1 :=
        Words.toNat_add32 hadm
      change (m.memoryOpAddrInfos.insert _).size + reserved ≤ (m.mallocCount + 1).toNat
      omega
    | false =>
      change 0 < reserved at hadm
      change (m.memoryOpAddrInfos.insert _).size + (reserved - 1) ≤ m.mallocCount.toNat
      omega
  | free addr infoSrc =>
    change (m.cacheFree addr infoSrc).memoryOpAddrInfos.size + reserved ≤
      (m.cacheFree addr infoSrc).mallocCount.toNat
    unfold cacheFree
    split_ifs with hfound
    · obtain ⟨it, hit, hmatch⟩ := List.any_eq_true.mp hfound
      have hsize := OrderedSet.size_eraseFirst_of_mem hit hmatch
      have hcount : (m.mallocCount - 1).toNat = m.mallocCount.toNat - 1 :=
        Words.toNat_sub32 (show 1 ≤ m.mallocCount.toNat by omega)
      rw [hcount]
      dsimp only
      omega
    · exact h
  | count n =>
    change m.mallocCount.toNat + n.toNat < 2 ^ 32 at hadm
    have hcount : (m.mallocCount + n).toNat = m.mallocCount.toNat + n.toNat :=
      Words.toNat_add32 hadm
    change m.memoryOpAddrInfos.size + (reserved + n.toNat) ≤ (m.mallocCount + n).toNat
    omega
  | update =>
    have hle := OrderedSet.size_filter_le m.memoryOpAddrInfos isValidMem
    have hlt := m.mallocCount.toNat_lt
    have hcount : (UInt32.ofNat (m.memoryOpAddrInfos.filter isValidMem).size).toNat =
        (m.memoryOpAddrInfos.filter isValidMem).size :=
      Words.toNat_ofNat32 (by omega)
    change (m.memoryOpAddrInfos.filter isValidMem).size + 0 ≤
      (UInt32.ofNat (m.memoryOpAddrInfos.filter isValidMem).size).toNat
    omega

theorem Announced.bounded_run {ops : List MemoryOp}
    (hrun : Runs.Guarded Announced.step Announced.Admits Announced.start ops) :
    (ops.foldl Announced.step Announced.start).Bounded :=
  Runs.Guarded.invariant Announced.bounded_step hrun (Nat.le_refl 0)

/-- The ranges fit the announced count in every state of such a run, and the
merged vector has that many entries unless the table is empty and the count is not. -/
theorem ranges_fit_announced (ops : List MemoryOp)
    (hrun : Runs.Guarded Announced.step Announced.Admits Announced.start ops)
    (inputs : List AddrInfo) (tilingDataSize : UInt64) :
    let m := (ops.foldl Announced.step Announced.start).manage
    (extractValidMems m.memoryOpAddrInfos).length ≤ m.mallocCount.toNat ∧
    (m.copyExtraMallocToHostMemory inputs tilingDataSize).length ≤ m.mallocCount.toNat ∧
    (m.mergeHostMems.length = m.mallocCount.toNat ↔
      m.memoryOpAddrInfos.elems ≠ [] ∨ m.mallocCount = 0) := by
  intro m
  have hbound := Announced.bounded_run hrun
  have hsize : m.memoryOpAddrInfos.size ≤ m.mallocCount.toNat :=
    (Nat.le_add_right _ _).trans hbound
  have hmerge := length_mergeHostMems hsize
  refine ⟨(length_extractValidMems_le _).trans hsize, ?_, ?_⟩
  · rw [length_copyExtraMallocToHostMemory, hmerge]
    split_ifs
    · exact Nat.zero_le _
    · exact le_refl _
  · rw [hmerge, ← UInt32.toNat_inj, UInt32.toNat_zero]
    split_ifs with hempty <;> simp only [List.isEmpty_iff] at hempty <;> simp [hempty, eq_comm]

theorem ranges_fit_announced_launch :
    let m := ([.malloc 0x100 .rt 0x40 true, .count 2, .malloc 0 .extra 0 false, .free 0 .extra,
      .update].foldl Announced.step Announced.start).manage
    (extractValidMems m.memoryOpAddrInfos).length ≤ m.mallocCount.toNat ∧
    (m.copyExtraMallocToHostMemory [] 0).length ≤ m.mallocCount.toNat ∧
    (m.mergeHostMems.length = m.mallocCount.toNat ↔
      m.memoryOpAddrInfos.elems ≠ [] ∨ m.mallocCount = 0) :=
  ranges_fit_announced _ (by decide) [] 0

/-- A count announced over an empty table gets no entries at all. -/
theorem merge_misses_announced :
    let m := ([MemoryOp.count 1].foldl Announced.step Announced.start).manage
    Runs.Guarded Announced.step Announced.Admits Announced.start [.count 1] ∧
      m.mallocCount = 1 ∧ m.mergeHostMems.length = 0 := by
  decide

end Msopcom.MemoryManageCount
