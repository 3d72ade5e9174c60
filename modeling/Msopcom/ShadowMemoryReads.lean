import Msopcom.ShadowMemoryDecoding
import Msopcom.SimtLayoutBounds

set_option autoImplicit false

/-!
# What is read of the shadow memory

The walk through the tables goes where their entries lead. It is traced by the offsets of the
words that it looks at, in the host copy.
-/
namespace Msopcom.ShadowMemoryReads
open Bytes Splice Words ShadowMemoryDecoding

section Trace
variable (image : ShadowImage) (smBaseAddr : UInt64)

def l2Reads (l2TblPtr : UInt64) : List UInt64 :=
  (List.range onlineOneSmStandForByte.toNat).map fun k => l2TblPtr + 8 * UInt64.ofNat k

def l1Reads (l0Idx : UInt64) : List UInt64 :=
  let l1TblPtr := image (sizeofShadowMemoryHeapHead + 8 * l0Idx) - smBaseAddr
  (List.range l1TblNum.toNat).flatMap fun j =>
    let off := l1TblPtr + 8 * UInt64.ofNat j
    off :: if isSkipped (image off) then [] else l2Reads (image off - smBaseAddr)

/-- The words that `ParseSmTable` reads. -/
def smReads : List UInt64 :=
  (List.range l0TblNum.toNat).flatMap fun i =>
    let off := sizeofShadowMemoryHeapHead + 8 * UInt64.ofNat i
    off :: if isSkipped (image off) then [] else l1Reads image smBaseAddr (UInt64.ofNat i)

end Trace

section
variable {image image' : ShadowImage} {smBaseAddr : UInt64}

theorem parseSmL2Table_congr {l2TblPtr : UInt64}
    (h : ∀ off ∈ l2Reads l2TblPtr, image off = image' off) (l0Idx l1Idx : UInt64)
    (head : RecordBlockHead) (records : List ShadowMemoryRecord) :
    parseSmL2Table image l2TblPtr l0Idx l1Idx head records =
      parseSmL2Table image' l2TblPtr l0Idx l1Idx head records := by
  unfold parseSmL2Table
  refine List.foldl_ext _ _ _ fun records k hk => ?_
  dsimp only
  rw [h _ (List.mem_map_of_mem hk)]

theorem parseSmL1Table_congr {i : ℕ}
    (hrow : image (sizeofShadowMemoryHeapHead + 8 * UInt64.ofNat i) =
      image' (sizeofShadowMemoryHeapHead + 8 * UInt64.ofNat i))
    (h : ∀ off ∈ l1Reads image smBaseAddr (UInt64.ofNat i), image off = image' off)
    (head : RecordBlockHead) (records : List ShadowMemoryRecord) :
    parseSmL1Table image smBaseAddr head (UInt64.ofNat i) records =
      parseSmL1Table image' smBaseAddr head (UInt64.ofNat i) records := by
  unfold parseSmL1Table
  rw [← hrow]
  refine List.foldl_ext _ _ _ fun records j hj => ?_
  have hentry := h _ (List.mem_flatMap.mpr ⟨j, hj, List.mem_cons_self⟩)
  dsimp only at hentry ⊢
  rw [← hentry]
  split_ifs with hskipped
  · rfl
  · refine parseSmL2Table_congr (fun off hoff => h off (List.mem_flatMap.mpr ⟨j, hj, ?_⟩)) ..
    dsimp only
    rw [if_neg hskipped]
    exact List.mem_cons_of_mem _ hoff

/-- The records depend on no other word of the image. -/
theorem parseSmTable_congr (h : ∀ off ∈ smReads image smBaseAddr, image off = image' off)
    (head : RecordBlockHead) (records : List ShadowMemoryRecord) :
    parseSmTable image smBaseAddr head records = parseSmTable image' smBaseAddr head records := by
  unfold parseSmTable
  refine List.foldl_ext _ _ _ fun records i hi => ?_
  have hentry := h _ (List.mem_flatMap.mpr ⟨i, hi, List.mem_cons_self⟩)
  dsimp only at hentry ⊢
  rw [← hentry]
  split_ifs with hskipped
  · rfl
  · refine parseSmL1Table_congr hentry (fun off hoff => h off (List.mem_flatMap.mpr ⟨i, hi, ?_⟩)) ..
    dsimp only
    rw [if_neg hskipped]
    exact List.mem_cons_of_mem _ hoff

end

/-! ## Well-formed tables -/

/-- A table of `count` words lies in the heap at the address. -/
def TableAt (heap : List UInt8) (smBaseAddr : UInt64) (count : ℕ) (addr : UInt64) : Prop :=
  (addr - smBaseAddr).toNat + 8 * count ≤ heap.length

/-- Entries are cleared, marked, or lead to a table. -/
structure HeapTables (heap : List UInt8) (smBaseAddr : UInt64) : Prop where
  l0 : ∀ i < l0TblNum.toNat, ∀ entry,
    wordAt heap (sizeofShadowMemoryHeapHead + 8 * UInt64.ofNat i).toNat = entry →
      isSkipped entry = false → TableAt heap smBaseAddr l1TblNum.toNat entry ∧
        ∀ j < l1TblNum.toNat, ∀ entry',
          wordAt heap (entry - smBaseAddr + 8 * UInt64.ofNat j).toNat = entry' →
            isSkipped entry' = false →
              TableAt heap smBaseAddr onlineOneSmStandForByte.toNat entry'

/-! ## Reads of a block -/

section Block
variable (block : FinalizeBlock)

def shadowMemoryByteSize : ℕ := block.globalHead.offsetInfo.shadowMemoryByteSize.toNat

/-- The words that `ShadowMemoryD2H` reads, none unless the copy has succeeded. -/
def shadowReads : List UInt64 :=
  if shadowMemoryCopyOk block then
    smReads (fun off => wordAt (copiedShadowMemory block) off.toNat) (smBaseAddr block)
  else []

/-- What is read was copied for the block, and nothing is read or reported of a shadow memory
that is disabled. -/
structure ReadsCopied : Prop where
  inside : ∀ off ∈ shadowReads block, off.toNat + 8 ≤ shadowMemoryByteSize block
  disabled : shadowMemoryByteSize block = 0 → shadowReads block = [] ∧ (shadowMemoryD2H block).1 = 0

variable {block}

theorem wordAt_copied (hsize : block.shadowMemory.length = shadowMemoryByteSize block) {off : ℕ}
    (h : off + 8 ≤ shadowMemoryByteSize block) :
    wordAt (copiedShadowMemory block) off = wordAt block.shadowMemory off := by
  have hcopy : copiedShadowMemory block =
      block.shadowMemory ++ block.memInfoHost.drop (0 + shadowMemoryByteSize block) := by
    unfold shadowMemoryByteSize at hsize ⊢
    unfold copiedShadowMemory copyN
    rw [List.take_zero, List.nil_append, List.take_of_length_le hsize.le]
  unfold wordAt
  rw [hcopy, List.drop_append_of_le_length (by omega),
    List.take_append_of_le_length (by rw [List.length_drop]; omega)]

/-- Then the records are those of the heap on the device. -/
theorem parsedRecords_eq (hsize : block.shadowMemory.length = shadowMemoryByteSize block)
    (hcopy : shadowMemoryCopyOk block = true) (hreads : ReadsCopied block) :
    parsedRecords block =
      parseSmTable (fun off => wordAt block.shadowMemory off.toNat) (smBaseAddr block)
        block.blockHead [] := by
  have hinside := hreads.inside
  unfold shadowReads at hinside
  rw [if_pos hcopy] at hinside
  exact parseSmTable_congr (fun off hoff => wordAt_copied hsize (hinside off hoff)) _ _

/-- A word of a table that lies in the copied part. -/
theorem entry_inside {ptr : UInt64} {count k : ℕ} (hk : k < count)
    (htable : ptr.toNat + 8 * count ≤ shadowMemoryByteSize block) :
    (ptr + 8 * UInt64.ofNat k).toNat + 8 ≤ shadowMemoryByteSize block := by
  have hlt : shadowMemoryByteSize block < 2 ^ 32 := UInt32.toNat_lt _
  have hidx : (UInt64.ofNat k).toNat = k := toNat_ofNat64 (by omega)
  have hoff : (8 * UInt64.ofNat k).toNat = 8 * k := by
    rw [toNat_mul64]
    · rw [hidx]
      rfl
    · rw [hidx]
      change 8 * k < 2 ^ 64
      omega
  rw [toNat_add64 (by omega), hoff]
  omega

theorem inside_of_tables (hsize : block.shadowMemory.length = shadowMemoryByteSize block)
    (hmin : 524360 ≤ shadowMemoryByteSize block)
    (htables : HeapTables block.shadowMemory (smBaseAddr block)) {off : UInt64}
    (h : off ∈ shadowReads block) : off.toNat + 8 ≤ shadowMemoryByteSize block := by
  unfold shadowReads at h
  split_ifs at h with hcopy
  · obtain ⟨i, hi, h⟩ := List.mem_flatMap.mp h
    rw [List.mem_range] at hi
    have hl0 : (sizeofShadowMemoryHeapHead + 8 * UInt64.ofNat i).toNat + 8 ≤
        shadowMemoryByteSize block := by
      refine entry_inside hi ?_
      rw [l0TblNum_eq]
      exact hmin
    dsimp only at h
    rcases List.mem_cons.mp h with rfl | h
    · exact hl0
    split_ifs at h with hskipped
    · cases h
    obtain ⟨j, hj, h⟩ := List.mem_flatMap.mp h
    rw [List.mem_range] at hj
    rw [wordAt_copied hsize hl0] at hskipped
    obtain ⟨htable, hnext⟩ := htables.l0 i hi _ rfl (Bool.eq_false_of_not_eq_true hskipped)
    unfold TableAt at htable hnext
    rw [hsize] at htable hnext
    have hl1 := entry_inside hj htable
    dsimp only at h
    rw [wordAt_copied hsize hl0] at h
    rcases List.mem_cons.mp h with rfl | h
    · exact hl1
    split_ifs at h with hskipped'
    · cases h
    obtain ⟨k, hk, rfl⟩ := List.mem_map.mp h
    rw [List.mem_range] at hk
    rw [wordAt_copied hsize hl1] at hskipped' ⊢
    exact entry_inside hk (hnext j hj _ rfl (Bool.eq_false_of_not_eq_true hskipped'))
  · cases h

theorem readsCopied_of_failed (h : block.runtime.shadowMemory = false) : ReadsCopied block := by
  have hcopy : shadowMemoryCopyOk block = false := by
    unfold shadowMemoryCopyOk memcpyOk
    rw [h, Bool.false_and]
  have hnone : shadowReads block = [] := by
    unfold shadowReads
    rw [hcopy]
    rfl
  refine ⟨fun off hoff => ?_, fun _ => ⟨hnone, ?_⟩⟩
  · rw [hnone] at hoff
    cases hoff
  · unfold shadowMemoryD2H
    rw [hcopy]
    rfl

/-- A copy of nothing that succeeds is followed by the walk all the same. -/
theorem not_readsCopied (hzero : shadowMemoryByteSize block = 0)
    (h : block.runtime.shadowMemory = true) : ¬ ReadsCopied block := by
  intro hreads
  have hcount : block.globalHead.offsetInfo.shadowMemoryByteSize.toUInt64 = 0 := by
    rw [← UInt64.toNat_inj, UInt32.toNat_toUInt64]
    exact hzero
  have hcopy : shadowMemoryCopyOk block = true := by
    unfold shadowMemoryCopyOk memcpyOk
    rw [h, hcount, Bool.true_and, decide_eq_true_iff, UInt64.le_iff_toNat_le]
    exact Nat.zero_le _
  have hnone := (hreads.disabled hzero).1
  unfold shadowReads at hnone
  rw [if_pos hcopy] at hnone
  have hfirst : (0 : ℕ) ∈ List.range l0TblNum.toNat :=
    List.mem_range.mpr (l0TblNum_eq.symm ▸ Nat.zero_lt_succ _)
  exact List.cons_ne_nil _ _ (List.flatMap_eq_nil_iff.mp hnone 0 hfirst)

end Block

/-- On an accepted configuration the reads are right exactly when there is a shadow memory (of 24
MB cache and more, and less than 8192), or the runtime does not copy. -/
theorem readsCopied_iff (head : RecordGlobalHead) (i : HeadInputs)
    (hsimt : supportSimt i.deviceType = true) (haccept : (assignGlobalHead head i).2 = true)
    (block : FinalizeBlock) (hhead : block.globalHead = (assignGlobalHead head i).1)
    (hsize : block.shadowMemory.length = shadowMemoryByteSize block)
    (htables : HeapTables block.shadowMemory (smBaseAddr block)) :
    ReadsCopied block ↔ (24 ≤ i.cacheSize.toNat ∧ i.cacheSize.toNat < 8192) ∨
      block.runtime.shadowMemory = false := by
  have haccepted := accepted_of_assign hsimt haccept
  have hlimit := haccepted.limit
  have hshadow := haccepted.offsets.shadow
  rw [← hhead] at hshadow
  by_cases hcache : 24 ≤ i.cacheSize.toNat ∧ i.cacheSize.toNat < 8192
  · rw [if_neg (by omega)] at hshadow
    have hbytes : shadowMemoryByteSize block = i.cacheSize.toNat * 2 ^ 20 / 2 % 2 ^ 32 := hshadow.2
    refine iff_of_true ⟨fun off hoff => ?_, fun hzero => ?_⟩ (.inl hcache)
    · exact inside_of_tables hsize (by omega) htables hoff
    · omega
  · have hzero : shadowMemoryByteSize block = 0 := by
      split_ifs at hshadow with hsmall
      · exact congrArg UInt32.toNat hshadow.2
      · have hmax : i.cacheSize.toNat = 8192 := by omega
        have hbytes : shadowMemoryByteSize block = i.cacheSize.toNat * 2 ^ 20 / 2 % 2 ^ 32 :=
          hshadow.2
        omega
    rw [or_iff_right hcache]
    cases hruntime : block.runtime.shadowMemory with
    | false => exact iff_of_true (readsCopied_of_failed hruntime) rfl
    | true => exact iff_of_false (not_readsCopied hzero hruntime) (Bool.noConfusion ·)

theorem wordAt_zeros (n off : ℕ) : wordAt (List.replicate n 0) off = 0 := by
  have hzero (k : ℕ) : leNat (List.replicate k 0) = 0 := by
    induction k with
    | zero => rfl
    | succ k ih =>
      rw [List.replicate_succ]
      unfold leNat
      rw [ih]
      rfl
  unfold wordAt
  rw [List.drop_replicate, List.take_replicate, hzero]
  rfl

/-- A heap that is still cleared. -/
theorem heapTables_zeros (n : ℕ) (base : UInt64) : HeapTables (List.replicate n 0) base := by
  refine ⟨fun i _ entry hentry hskipped => ?_⟩
  rw [wordAt_zeros] at hentry
  subst hentry
  exact absurd hskipped (by decide)

/-- A block of this configuration whose kernel has not touched its shadow memory. -/
def clearedBlock (i : HeadInputs) : FinalizeBlock where
  blockSize := 200000000
  globalHead := (assignGlobalHead emptyHead i).1
  blockHead := ⟨0, ⟨0, 0, 0⟩⟩
  memInfoBackUp := 0x100000000
  memInfoHost := []
  shadowMemory :=
    List.replicate (assignGlobalHead emptyHead i).1.offsetInfo.shadowMemoryByteSize.toNat 0
  runtime := ⟨true, true, true⟩

theorem readsCopied_iff_default : ReadsCopied (clearedBlock defaultInputs) ↔
    (24 ≤ (100 : UInt32).toNat ∧ (100 : UInt32).toNat < 8192) ∨ true = false :=
  readsCopied_iff emptyHead defaultInputs (by decide) (by decide +kernel)
    (clearedBlock defaultInputs) rfl List.length_replicate (heapTables_zeros _ _)

/-- One core with a cache that is too small for a shadow memory. -/
def smallCache : HeadInputs where
  cacheSize := 20
  checkBlockId := -1
  hostMemoryNum := 1
  blockDim := 1
  deviceType := .ascend950DT9595

theorem smallCache_not_readsCopied : (assignGlobalHead emptyHead smallCache).2 = true ∧
    HeapTables (clearedBlock smallCache).shadowMemory (smBaseAddr (clearedBlock smallCache)) ∧
      ¬ ReadsCopied (clearedBlock smallCache) :=
  ⟨by decide +kernel, heapTables_zeros _ _, not_readsCopied (by decide +kernel) rfl⟩

end Msopcom.ShadowMemoryReads
