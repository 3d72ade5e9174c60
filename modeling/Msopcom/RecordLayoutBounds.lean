import Mathlib.Algebra.BigOperators.Ring.Finset
import Msopcom.RecordLayout

set_option autoImplicit false

/-!
# The blocks of the device record buffer

The total is taken in 64 bits and each stride in 32, so that the two agree exactly
while the largest block that is visited fits a 32-bit stride.
-/
namespace Msopcom
open Words

/-- Which blocks a nonnegative `checkBlockId` names. -/
def targetsBlock (deviceType : DeviceType) (checkBlockId : ℤ) (i : ℕ) : Prop :=
  if hasSubBlocks deviceType then
    (i : ℤ) = checkBlockId / 2 * 3 + checkBlockId % 2 ∨ (i : ℤ) = checkBlockId * 3 + 2
  else (i : ℤ) = checkBlockId

theorem ofNat_eq_ofInt_iff {i : ℕ} {z : ℤ} (hi : i < 2 ^ 32) (hlo : -2 ^ 32 ≤ z) (hhi : z < 2 ^ 32) :
    UInt64.ofNat i = UInt64.ofInt z ↔ (i : ℤ) = z := by
  have hleft : (UInt64.ofNat i).toNat = i := toNat_ofNat64 (by omega)
  rw [← UInt64.toNat_inj, hleft]
  cases lt_or_ge z 0 with
  | inl hneg =>
    have hright : 2 ^ 63 ≤ (UInt64.ofInt z).toNat := toNat_ofInt64_neg hneg (by omega)
    omega
  | inr hnonneg =>
    have hright : ((UInt64.ofInt z).toNat : ℤ) = z := toNat_ofInt64 hnonneg (by omega)
    omega

/-- A negative id has no vector block: its quotient and its remainder are negative too. -/
theorem eq_vecTargetBlockIdx_iff (checkBlockId : Int16) {i : ℕ} (hi : i < 2 ^ 32) :
    UInt64.ofNat i = vecTargetBlockIdx checkBlockId ↔
      0 ≤ checkBlockId.toInt ∧
        (i : ℤ) = checkBlockId.toInt / 2 * 3 + checkBlockId.toInt % 2 := by
  have hlo : -2 ^ 15 ≤ checkBlockId.toInt := Int16.le_toInt checkBlockId
  have hhi : checkBlockId.toInt < 2 ^ 15 := Int16.toInt_lt checkBlockId
  unfold vecTargetBlockIdx c220VecSubBlockDim c220MixSubBlockDim
  generalize checkBlockId.toInt = c at hlo hhi
  cases lt_or_ge c 0 with
  | inl hneg =>
    obtain ⟨n, rfl⟩ : ∃ n, c = -n := ⟨-c, by omega⟩
    have hquot : (-n).tdiv 2 = -(n / 2) := by
      rw [Int.neg_tdiv, Int.tdiv_eq_ediv_of_nonneg (by omega)]
    have hrem : (-n).tmod 2 = -(n % 2) := by
      rw [Int.neg_tmod, Int.tmod_eq_emod_of_nonneg (by omega)]
    rw [hquot, hrem, ofNat_eq_ofInt_iff hi (by omega) (by omega)]
    omega
  | inr hnonneg =>
    rw [Int.tdiv_eq_ediv_of_nonneg hnonneg, Int.tmod_eq_emod_of_nonneg hnonneg,
      ofNat_eq_ofInt_iff hi (by omega) (by omega)]
    omega

theorem eq_cubeTargetBlockIdx_iff (checkBlockId : Int16) {i : ℕ} (hi : i < 2 ^ 32) :
    UInt64.ofNat i = cubeTargetBlockIdx checkBlockId ↔
      0 ≤ checkBlockId.toInt ∧ (i : ℤ) = checkBlockId.toInt * 3 + 2 := by
  have hlo : -2 ^ 15 ≤ checkBlockId.toInt := Int16.le_toInt checkBlockId
  have hhi : checkBlockId.toInt < 2 ^ 15 := Int16.toInt_lt checkBlockId
  unfold cubeTargetBlockIdx c220VecSubBlockDim c220MixSubBlockDim
  rw [ofNat_eq_ofInt_iff hi (by omega) (by omega)]
  omega

theorem isTargetBlockIdx_iff (deviceType : DeviceType) (checkBlockId : Int16) {i : ℕ}
    (hi : i < 2 ^ 32) :
    isTargetBlockIdx deviceType checkBlockId (UInt64.ofNat i) = true ↔
      0 ≤ checkBlockId.toInt ∧ targetsBlock deviceType checkBlockId.toInt i := by
  have hlo : -2 ^ 15 ≤ checkBlockId.toInt := Int16.le_toInt checkBlockId
  have hhi : checkBlockId.toInt < 2 ^ 15 := Int16.toInt_lt checkBlockId
  unfold isTargetBlockIdx targetsBlock
  cases hasSubBlocks deviceType with
  | false =>
    rw [if_neg Bool.false_ne_true, if_neg Bool.false_ne_true, decide_eq_true_iff,
      ofNat_eq_ofInt_iff hi (by omega) (by omega)]
    omega
  | true =>
    rw [if_pos rfl, if_pos rfl, Bool.or_eq_true, decide_eq_true_iff, decide_eq_true_iff,
      eq_vecTargetBlockIdx_iff checkBlockId hi, eq_cubeTargetBlockIdx_iff checkBlockId hi,
      and_or_left]

/-! ## The strides -/

def blockCache (deviceType : DeviceType) (globalHead : RecordGlobalHead) (i : ℕ) : ℕ :=
  if isCheckedBlock deviceType globalHead (UInt64.ofNat i) then
    globalHead.checkParms.cacheSize.toNat
  else 1

theorem blockCache_of_checked {deviceType : DeviceType} {globalHead : RecordGlobalHead} {i : ℕ}
    (h : isCheckedBlock deviceType globalHead (UInt64.ofNat i) = true) :
    blockCache deviceType globalHead i = globalHead.checkParms.cacheSize.toNat := if_pos h

theorem isCheckedBlock_of_all (deviceType : DeviceType) {globalHead : RecordGlobalHead}
    (hall : globalHead.checkParms.checkBlockId = checkAllBlock) (blockIdx : UInt64) :
    isCheckedBlock deviceType globalHead blockIdx = true := by
  unfold isCheckedBlock
  rw [decide_eq_true hall, Bool.true_or]

theorem one_le_blockCache (deviceType : DeviceType) {globalHead : RecordGlobalHead}
    (h : 1 ≤ globalHead.checkParms.cacheSize.toNat) (i : ℕ) :
    1 ≤ blockCache deviceType globalHead i := by
  unfold blockCache
  split_ifs
  · exact h
  · exact le_refl 1

/-- A block head and its host memory records, in full cache lines and without wrapping. -/
def blockHeadBytes (hostMemoryNum : UInt32) : ℕ :=
  (sizeofRecordBlockHead.toNat + hostMemoryNum.toNat * sizeofHostMemoryInfo.toNat + 63) / 64 * 64

/-- The sum is taken in 32 bits, and what is left is rounded. -/
theorem toNat_ceilByAlignSize {alignSize : UInt32} (h : 0 < alignSize.toNat) (v : UInt32) :
    (ceilByAlignSize alignSize v).toNat =
      (v.toNat + (alignSize.toNat - 1)) % 2 ^ 32 / alignSize.toNat * alignSize.toNat := by
  have halign := alignSize.toNat_lt
  have hsum : (v + alignSize - 1).toNat = (v.toNat + (alignSize.toNat - 1)) % 2 ^ 32 := by
    rw [UInt32.toNat_sub, UInt32.toNat_add]
    change (2 ^ 32 - 1 + (v.toNat + alignSize.toNat) % 2 ^ 32) % 2 ^ 32 = _
    omega
  have hle := Nat.div_mul_le_self ((v.toNat + (alignSize.toNat - 1)) % 2 ^ 32) alignSize.toNat
  unfold ceilByAlignSize
  rw [UInt32.toNat_mul, UInt32.toNat_div, hsum, Nat.mod_eq_of_lt (by omega)]

theorem toNat_ceilByAlignSize_cacheLine (v : UInt32) :
    (ceilByAlignSize cacheLineSize v).toNat = (v.toNat + 63) % 2 ^ 32 / 64 * 64 :=
  toNat_ceilByAlignSize (by decide) v

theorem toNat_blockHeadSize (head : RecordGlobalHead) (hostMemoryNum : UInt32) :
    (head.withHostMemoryNum hostMemoryNum).offsetInfo.blockHeadSize.toNat =
      ((128 + hostMemoryNum.toNat * 16) % 2 ^ 32 + 63) % 2 ^ 32 / 64 * 64 := by
  have hnum : hostMemoryNum.toNat < 2 ^ 32 := hostMemoryNum.toNat_lt
  have hbytes : (sizeofRecordBlockHead + hostMemoryNum.toUInt64 * sizeofHostMemoryInfo).toNat =
      128 + hostMemoryNum.toNat * 16 := by
    rw [UInt64.toNat_add, UInt64.toNat_mul, UInt32.toNat_toUInt64]
    change (128 + hostMemoryNum.toNat * 16 % 2 ^ 64) % 2 ^ 64 = _
    omega
  change (getRecordHeadSize hostMemoryNum).toUInt32.toNat = _
  rw [getRecordHeadSize, UInt64.toNat_toUInt32, UInt32.toNat_toUInt64,
    toNat_ceilByAlignSize_cacheLine, UInt64.toNat_toUInt32, hbytes]
  omega

/-- The stored head size is the true one, unless that does not fit 32 bits. -/
theorem blockHeadSize_eq (head : RecordGlobalHead) {hostMemoryNum : UInt32}
    (h : blockHeadBytes hostMemoryNum < 2 ^ 32) :
    (head.withHostMemoryNum hostMemoryNum).offsetInfo.blockHeadSize.toNat =
      blockHeadBytes hostMemoryNum := by
  have hbytes : blockHeadBytes hostMemoryNum = (128 + hostMemoryNum.toNat * 16 + 63) / 64 * 64 := rfl
  rw [toNat_blockHeadSize]
  omega

theorem toNat_blockSize (head cache : UInt64) :
    (head + cache * mbToBytes).toUInt32.toNat = (head.toNat + cache.toNat * 2 ^ 20) % 2 ^ 32 := by
  rw [UInt64.toNat_toUInt32, UInt64.toNat_add, UInt64.toNat_mul]
  change (head.toNat + cache.toNat * 1048576 % 2 ^ 64) % 2 ^ 64 % 2 ^ 32 = _
  omega

theorem blockStride_eq (deviceType : DeviceType) (globalHead : RecordGlobalHead) (i : ℕ) :
    blockStride deviceType globalHead i =
      (globalHead.offsetInfo.blockHeadSize.toNat + blockCache deviceType globalHead i * 2 ^ 20) %
        2 ^ 32 := by
  unfold blockStride blockCache getBlockSize
  cases isCheckedBlock deviceType globalHead (UInt64.ofNat i) with
  | false =>
    rw [if_neg Bool.false_ne_true, if_neg Bool.false_ne_true, toNat_blockSize,
      UInt32.toNat_toUInt64]
    rfl
  | true =>
    rw [if_pos rfl, if_pos rfl, toNat_blockSize, UInt32.toNat_toUInt64, UInt32.toNat_toUInt64]

/-! ## The total -/

/-- A core has one cube block and two vector blocks; one id names one of each. -/
def checkedBlockNum (deviceType : DeviceType) : ℕ := if hasSubBlocks deviceType then 2 else 1

theorem card_target_le (deviceType : DeviceType) (checkBlockId : Int16) {n : ℕ} (hn : n ≤ 2 ^ 32) :
    ((Finset.range n).filter fun i =>
        isTargetBlockIdx deviceType checkBlockId (UInt64.ofNat i) = true).card ≤
      checkedBlockNum deviceType := by
  have hmem : ∀ i ∈ (Finset.range n).filter fun i =>
      isTargetBlockIdx deviceType checkBlockId (UInt64.ofNat i) = true,
      targetsBlock deviceType checkBlockId.toInt i := by
    intro i hi
    have hrange : i < n := Finset.mem_range.mp (Finset.mem_filter.mp hi).1
    exact ((isTargetBlockIdx_iff deviceType checkBlockId (by omega)).mp
      (Finset.mem_filter.mp hi).2).2
  unfold checkedBlockNum
  unfold targetsBlock at hmem
  cases harch : hasSubBlocks deviceType with
  | false =>
    rw [if_neg Bool.false_ne_true]
    apply Finset.card_le_one.mpr
    intro i hi j hj
    have hieq := hmem i hi
    have hjeq := hmem j hj
    rw [harch, if_neg Bool.false_ne_true] at hieq hjeq
    omega
  | true =>
    rw [if_pos rfl]
    have hsub : ((Finset.range n).filter fun i =>
        isTargetBlockIdx deviceType checkBlockId (UInt64.ofNat i) = true) ⊆
        {(checkBlockId.toInt / 2 * 3 + checkBlockId.toInt % 2).toNat,
          (checkBlockId.toInt * 3 + 2).toNat} := by
      intro i hi
      have hieq := hmem i hi
      rw [harch, if_pos rfl] at hieq
      rw [Finset.mem_insert, Finset.mem_singleton]
      omega
    exact (Finset.card_le_card hsub).trans Finset.card_le_two

theorem sum_blockCache_le (deviceType : DeviceType) (globalHead : RecordGlobalHead) {n : ℕ}
    (hn : n ≤ 2 ^ 32) (hall : globalHead.checkParms.checkBlockId ≠ checkAllBlock)
    (hsize : 1 ≤ globalHead.checkParms.cacheSize.toNat) :
    ∑ i ∈ Finset.range n, blockCache deviceType globalHead i ≤
      n + (globalHead.checkParms.cacheSize.toNat - 1) * checkedBlockNum deviceType := by
  have hblock : ∀ i, blockCache deviceType globalHead i =
      1 + (globalHead.checkParms.cacheSize.toNat - 1) *
        if isTargetBlockIdx deviceType globalHead.checkParms.checkBlockId (UInt64.ofNat i) = true
        then 1 else 0 := by
    intro i
    unfold blockCache isCheckedBlock
    rw [decide_eq_false hall, Bool.false_or]
    split_ifs <;> omega
  calc
    ∑ i ∈ Finset.range n, blockCache deviceType globalHead i
      = n + (globalHead.checkParms.cacheSize.toNat - 1) *
          ((Finset.range n).filter fun i => isTargetBlockIdx deviceType
            globalHead.checkParms.checkBlockId (UInt64.ofNat i) = true).card := by
        rw [Finset.sum_congr rfl fun i _ => hblock i, Finset.sum_add_distrib, ← Finset.mul_sum,
          ← Finset.card_filter, ← Finset.card_eq_sum_ones, Finset.card_range]
    _ ≤ n + (globalHead.checkParms.cacheSize.toNat - 1) * checkedBlockNum deviceType :=
        Nat.add_le_add_left (Nat.mul_le_mul_left _ (card_target_le deviceType _ hn)) n

theorem assignMemSize_accepts {head g : RecordGlobalHead} {blockDim : UInt64}
    {deviceType : DeviceType} (h : assignMemSize head blockDim deviceType = (g, true)) :
    g = { head with kernelInfo :=
        ⟨getTotalBlockDim blockDim deviceType, getTotalCacheSize head blockDim deviceType⟩ } ∧
      1 ≤ head.checkParms.cacheSize.toNat ∧ head.checkParms.cacheSize.toNat ≤ 8192 ∧
      (getTotalCacheSize head blockDim deviceType).toNat ≤ 24576 := by
  have hparts := Prod.mk.inj h
  have hchecks := hparts.2
  rw [Bool.not_eq_true', Bool.or_eq_false_iff, Bool.or_eq_false_iff, decide_eq_false_iff_not,
    decide_eq_false_iff_not, decide_eq_false_iff_not] at hchecks
  have hzero : (0 : ℕ) < head.checkParms.cacheSize.toUInt64.toNat :=
    pos_iff_ne_zero.mpr hchecks.1.1
  have heach : head.checkParms.cacheSize.toUInt64.toNat ≤ 8192 :=
    UInt64.le_iff_toNat_le.mp (UInt64.not_lt.mp hchecks.1.2)
  have hall : (getTotalCacheSize head blockDim deviceType).toNat ≤ 24576 :=
    UInt64.le_iff_toNat_le.mp (UInt64.not_lt.mp hchecks.2)
  rw [UInt32.toNat_toUInt64] at hzero heach
  exact ⟨hparts.1.symm, hzero, heach, hall⟩

def coreBlockNum (deviceType : DeviceType) : ℕ := if hasSubBlocks deviceType then 3 else 1

theorem coreBlockNum_pos (deviceType : DeviceType) : 0 < coreBlockNum deviceType := by
  unfold coreBlockNum
  split <;> omega

theorem coreBlockNum_le (deviceType : DeviceType) : coreBlockNum deviceType ≤ 3 := by
  unfold coreBlockNum
  split <;> omega

theorem toNat_getTotalBlockDim {blockDim : UInt64} (hdim : blockDim.toNat ≤ 100)
    (deviceType : DeviceType) :
    (getTotalBlockDim blockDim deviceType).toNat = coreBlockNum deviceType * blockDim.toNat := by
  unfold getTotalBlockDim coreBlockNum
  cases hasSubBlocks deviceType with
  | false => rw [if_neg Bool.false_ne_true, if_neg Bool.false_ne_true, Nat.one_mul]
  | true =>
    rw [if_pos rfl, if_pos rfl, UInt64.toNat_mul]
    change 3 * blockDim.toNat % 2 ^ 64 = _
    omega

theorem toNat_mul_totalBlockDim {a b : UInt64} (ha : a.toNat ≤ 8192) (hb : b.toNat ≤ 300) :
    (a * b).toNat = a.toNat * b.toNat := by
  have hprod : a.toNat * b.toNat ≤ 8192 * 300 := Nat.mul_le_mul ha hb
  exact toNat_mul64 (by omega)

theorem toNat_getTotalCacheSize {head : RecordGlobalHead} {blockDim : UInt64}
    (hpos : 1 ≤ blockDim.toNat) (hdim : blockDim.toNat ≤ 100)
    (hlo : 1 ≤ head.checkParms.cacheSize.toNat) (hhi : head.checkParms.cacheSize.toNat ≤ 8192)
    (deviceType : DeviceType) :
    (getTotalCacheSize head blockDim deviceType).toNat =
      if head.checkParms.checkBlockId = checkAllBlock then
        coreBlockNum deviceType * blockDim.toNat * head.checkParms.cacheSize.toNat
      else coreBlockNum deviceType * blockDim.toNat +
        (head.checkParms.cacheSize.toNat - 1) * checkedBlockNum deviceType := by
  have htotal := toNat_getTotalBlockDim hdim deviceType
  have hsize : head.checkParms.cacheSize.toUInt64.toNat = head.checkParms.cacheSize.toNat :=
    UInt32.toNat_toUInt64 _
  unfold getTotalCacheSize
  unfold coreBlockNum checkedBlockNum at *
  generalize getTotalBlockDim blockDim deviceType = total at htotal
  generalize hasSubBlocks deviceType = sub at htotal
  cases sub with
  | false =>
    simp only [Bool.false_eq_true, if_false] at htotal ⊢
    split_ifs with hall
    · rw [UInt64.mul_comm, toNat_mul_totalBlockDim (by omega) (by omega), hsize, htotal,
        Nat.mul_comm]
    · have hrest : (total - 1).toNat = total.toNat - 1 := toNat_sub64 (by change 1 ≤ _; omega)
      have hone : (singleCheckOtherBlockCacheSize * (total - 1)).toNat = total.toNat - 1 := by
        rw [singleCheckOtherBlockCacheSize, UInt64.one_mul, hrest]
      rw [toNat_add64 (by omega), hone]
      omega
  | true =>
    simp only [if_true] at htotal ⊢
    split_ifs with hall
    · rw [toNat_mul_totalBlockDim (by omega) (by omega), hsize, htotal, Nat.mul_comm]
    · have hrest : (total - 2).toNat = total.toNat - 2 := toNat_sub64 (by change 2 ≤ _; omega)
      have hone : (singleCheckOtherBlockCacheSize * (total - 2)).toNat = total.toNat - 2 := by
        rw [singleCheckOtherBlockCacheSize, UInt64.one_mul, hrest]
      have htwo : (head.checkParms.cacheSize.toUInt64 * 2).toNat =
          head.checkParms.cacheSize.toUInt64.toNat * 2 := toNat_mul64 (by change _ * 2 < _; omega)
      rw [toNat_add64 (by omega), hone, htwo]
      omega

theorem sum_blockCache_le_total {head g : RecordGlobalHead} {blockDim : UInt64}
    {deviceType : DeviceType} (hpos : 1 ≤ blockDim.toNat) (hdim : blockDim.toNat ≤ 100)
    (h : assignMemSize head blockDim deviceType = (g, true)) :
    ∑ i ∈ Finset.range g.kernelInfo.totalBlockDim.toNat, blockCache deviceType g i ≤
      g.kernelInfo.totalCacheSize.toNat := by
  obtain ⟨rfl, hlo, hhi, -⟩ := assignMemSize_accepts h
  change ∑ i ∈ Finset.range (getTotalBlockDim blockDim deviceType).toNat, _ ≤
    (getTotalCacheSize head blockDim deviceType).toNat
  rw [toNat_getTotalCacheSize hpos hdim hlo hhi, toNat_getTotalBlockDim hdim]
  have hnum : coreBlockNum deviceType * blockDim.toNat ≤ 3 * 100 :=
    Nat.mul_le_mul (coreBlockNum_le deviceType) hdim
  split_ifs with hall
  · have hsum := Finset.sum_const_nat fun i (_ : i ∈ Finset.range
        (coreBlockNum deviceType * blockDim.toNat)) => blockCache_of_checked
          (isCheckedBlock_of_all deviceType hall (UInt64.ofNat i))
    rw [Finset.card_range] at hsum
    exact hsum.le
  · exact sum_blockCache_le deviceType _ (by omega) hall hlo

theorem toNat_memSize {head g : RecordGlobalHead} {blockDim : UInt64} {deviceType : DeviceType}
    (hdim : blockDim.toNat ≤ 100) (h : assignMemSize head blockDim deviceType = (g, true)) :
    (memSize g).toNat = 38528 + g.kernelInfo.totalBlockDim.toNat *
      g.offsetInfo.blockHeadSize.toNat + g.kernelInfo.totalCacheSize.toNat * 2 ^ 20 := by
  obtain ⟨rfl, -, -, htotal⟩ := assignMemSize_accepts h
  have hblocks : (getTotalBlockDim blockDim deviceType).toNat ≤ 300 := by
    have hcore := coreBlockNum_le deviceType
    rw [toNat_getTotalBlockDim hdim]
    exact Nat.mul_le_mul hcore hdim
  have hhead : head.offsetInfo.blockHeadSize.toUInt64.toNat = head.offsetInfo.blockHeadSize.toNat :=
    UInt32.toNat_toUInt64 _
  have hheads : (getTotalBlockDim blockDim deviceType).toNat *
      head.offsetInfo.blockHeadSize.toNat ≤ 300 * 2 ^ 32 :=
    Nat.mul_le_mul hblocks head.offsetInfo.blockHeadSize.toNat_lt.le
  have hcaches : (getTotalCacheSize head blockDim deviceType * mbToBytes).toNat =
      (getTotalCacheSize head blockDim deviceType).toNat * 2 ^ 20 :=
    toNat_mul64 (by change _ * 1048576 < _; omega)
  have hfixed : (getTotalCacheSize head blockDim deviceType * mbToBytes +
      sizeofRecordGlobalHead).toNat =
      (getTotalCacheSize head blockDim deviceType).toNat * 2 ^ 20 + 38528 := by
    rw [toNat_add64 (by change _ + 38528 < _; omega), hcaches]
    rfl
  have hblockHeads : (getTotalBlockDim blockDim deviceType *
      head.offsetInfo.blockHeadSize.toUInt64).toNat =
      (getTotalBlockDim blockDim deviceType).toNat * head.offsetInfo.blockHeadSize.toNat := by
    rw [toNat_mul64 (by rw [hhead]; omega), hhead]
  unfold memSize
  rw [toNat_add64 (by rw [hfixed, hblockHeads]; omega), hfixed, hblockHeads]
  dsimp only
  omega

/-- The strides never leave the buffer: a wrapped stride only makes them shorter. -/
theorem offset_le_memSize {head g : RecordGlobalHead} {blockDim : UInt64}
    {deviceType : DeviceType} (hpos : 1 ≤ blockDim.toNat) (hdim : blockDim.toNat ≤ 100)
    (h : assignMemSize head blockDim deviceType = (g, true)) :
    Layout.offset (blockStride deviceType g) sizeofRecordGlobalHead.toNat
      g.kernelInfo.totalBlockDim.toNat ≤ (memSize g).toNat := by
  have hcache := sum_blockCache_le_total hpos hdim h
  rw [Layout.offset_eq_add_sum, toNat_memSize hdim h, Nat.add_assoc]
  apply Nat.add_le_add (le_refl 38528)
  calc
    ∑ i ∈ Finset.range g.kernelInfo.totalBlockDim.toNat, blockStride deviceType g i
      ≤ ∑ i ∈ Finset.range g.kernelInfo.totalBlockDim.toNat,
          (g.offsetInfo.blockHeadSize.toNat + blockCache deviceType g i * 2 ^ 20) := by
        apply Finset.sum_le_sum
        intro i _
        rw [blockStride_eq]
        exact Nat.mod_le _ _
    _ = g.kernelInfo.totalBlockDim.toNat * g.offsetInfo.blockHeadSize.toNat +
          (∑ i ∈ Finset.range g.kernelInfo.totalBlockDim.toNat, blockCache deviceType g i) *
            2 ^ 20 := by
        rw [Finset.sum_add_distrib, Finset.sum_mul, Finset.sum_const_nat fun _ _ => rfl,
          Finset.card_range]
    _ ≤ _ := Nat.add_le_add_left (Nat.mul_le_mul_right _ hcache) _

/-! ## The visited blocks -/

def visitsCheckedBlock (deviceType : DeviceType) (checkBlockId : Int16) (blockDim : UInt64) : Prop :=
  checkBlockId = checkAllBlock ∨ 0 ≤ checkBlockId.toInt ∧
    checkBlockId.toInt < checkedBlockNum deviceType * blockDim.toNat

instance (deviceType : DeviceType) (checkBlockId : Int16) (blockDim : UInt64) :
    Decidable (visitsCheckedBlock deviceType checkBlockId blockDim) :=
  inferInstanceAs (Decidable (_ ∨ _ ∧ _))

def largestCache (deviceType : DeviceType) (checkParms : CheckParmsInfo) (blockDim : UInt64) : ℕ :=
  if visitsCheckedBlock deviceType checkParms.checkBlockId blockDim then checkParms.cacheSize.toNat
  else 1

theorem exists_target_iff {deviceType : DeviceType} {blockDim : ℕ} {checkBlockId : ℤ}
    (hid : 0 ≤ checkBlockId) :
    (∃ i < coreBlockNum deviceType * blockDim, targetsBlock deviceType checkBlockId i) ↔
      checkBlockId < checkedBlockNum deviceType * blockDim := by
  unfold targetsBlock coreBlockNum checkedBlockNum
  cases hasSubBlocks deviceType with
  | false =>
    simp only [Bool.false_eq_true, if_false]
    constructor
    · intro hexists
      obtain ⟨i, hi, heq⟩ := hexists
      omega
    · intro hlt
      exact ⟨checkBlockId.toNat, by omega, by omega⟩
  | true =>
    simp only [if_true]
    constructor
    · intro hexists
      obtain ⟨i, hi, heq⟩ := hexists
      omega
    · intro hlt
      exact ⟨(checkBlockId / 2 * 3 + checkBlockId % 2).toNat, by omega, by omega⟩

theorem exists_checkedBlock_iff (deviceType : DeviceType) (globalHead : RecordGlobalHead)
    {blockDim : UInt64} (hpos : 1 ≤ blockDim.toNat) (hdim : blockDim.toNat ≤ 100) :
    (∃ i < coreBlockNum deviceType * blockDim.toNat,
      isCheckedBlock deviceType globalHead (UInt64.ofNat i) = true) ↔
      visitsCheckedBlock deviceType globalHead.checkParms.checkBlockId blockDim := by
  have hnum : coreBlockNum deviceType * blockDim.toNat ≤ 3 * 100 :=
    Nat.mul_le_mul (coreBlockNum_le deviceType) hdim
  have hfirst : 0 < coreBlockNum deviceType * blockDim.toNat :=
    Nat.mul_pos (coreBlockNum_pos deviceType) hpos
  unfold visitsCheckedBlock
  by_cases hall : globalHead.checkParms.checkBlockId = checkAllBlock
  · exact iff_of_true ⟨0, hfirst, isCheckedBlock_of_all deviceType hall _⟩ (Or.inl hall)
  · have htarget : ∀ i < coreBlockNum deviceType * blockDim.toNat,
        isCheckedBlock deviceType globalHead (UInt64.ofNat i) = true ↔
          0 ≤ globalHead.checkParms.checkBlockId.toInt ∧
            targetsBlock deviceType globalHead.checkParms.checkBlockId.toInt i := by
      intro i hi
      unfold isCheckedBlock
      rw [decide_eq_false hall, Bool.false_or, isTargetBlockIdx_iff _ _ (by omega)]
    rw [or_iff_right hall]
    constructor
    · intro hexists
      obtain ⟨i, hi, hchecked⟩ := hexists
      have hid := (htarget i hi).mp hchecked
      exact ⟨hid.1, (exists_target_iff hid.1).mp ⟨i, hi, hid.2⟩⟩
    · intro hid
      obtain ⟨i, hi, htargets⟩ := (exists_target_iff hid.1).mpr hid.2
      exact ⟨i, hi, (htarget i hi).mpr ⟨hid.1, htargets⟩⟩

/-- Every visited block has its own region of the buffer, with room for its head and
its cache. -/
structure SoundLayout (deviceType : DeviceType) (hostMemoryNum : UInt32)
    (globalHead : RecordGlobalHead) : Prop where
  disjoint : ∀ i j, i < globalHead.kernelInfo.totalBlockDim.toNat →
    j < globalHead.kernelInfo.totalBlockDim.toNat → i ≠ j →
    Disjoint (blockRegion deviceType globalHead i) (blockRegion deviceType globalHead j)
  inside : ∀ i < globalHead.kernelInfo.totalBlockDim.toNat,
    blockRegion deviceType globalHead i ⊆
      Set.Ico sizeofRecordGlobalHead.toNat (memSize globalHead).toNat
  room : ∀ i < globalHead.kernelInfo.totalBlockDim.toNat,
    blockHeadBytes hostMemoryNum + blockCache deviceType globalHead i * 2 ^ 20 ≤
      blockStride deviceType globalHead i

theorem room_iff {head g : RecordGlobalHead} {hostMemoryNum : UInt32} {blockDim : UInt64}
    {deviceType : DeviceType}
    (h : assignMemSize (head.withHostMemoryNum hostMemoryNum) blockDim deviceType = (g, true))
    (i : ℕ) :
    blockHeadBytes hostMemoryNum + blockCache deviceType g i * 2 ^ 20 ≤ blockStride deviceType g i ↔
      blockHeadBytes hostMemoryNum + blockCache deviceType g i * 2 ^ 20 < 2 ^ 32 := by
  obtain ⟨rfl, -⟩ := assignMemSize_accepts h
  rw [blockStride_eq]
  constructor
  · intro hroom
    exact hroom.trans_lt (Nat.mod_lt _ (by omega))
  · intro hfits
    have hhead := blockHeadSize_eq head ((Nat.le_add_right _ _).trans_lt hfits)
    change _ ≤ ((head.withHostMemoryNum hostMemoryNum).offsetInfo.blockHeadSize.toNat + _) % _
    rw [hhead, Nat.mod_eq_of_lt hfits]

/-- The layout is sound exactly when the largest visited block fits a 32-bit stride. -/
theorem soundLayout_iff {head g : RecordGlobalHead} {hostMemoryNum : UInt32} {blockDim : UInt64}
    {deviceType : DeviceType} (hpos : 1 ≤ blockDim) (hdim : blockDim ≤ maxBlockDimNums)
    (h : assignMemSize (head.withHostMemoryNum hostMemoryNum) blockDim deviceType = (g, true)) :
    SoundLayout deviceType hostMemoryNum g ↔
      blockHeadBytes hostMemoryNum + largestCache deviceType head.checkParms blockDim * 2 ^ 20 <
        2 ^ 32 := by
  have hlower : 1 ≤ blockDim.toNat := UInt64.le_iff_toNat_le.mp hpos
  have hupper : blockDim.toNat ≤ 100 := UInt64.le_iff_toNat_le.mp hdim
  have hoffset := offset_le_memSize hlower hupper h
  have hroom := room_iff h
  have hexists := exists_checkedBlock_iff deviceType g hlower hupper
  obtain ⟨hg, hlo, -, -⟩ := assignMemSize_accepts h
  have hnum : g.kernelInfo.totalBlockDim.toNat = coreBlockNum deviceType * blockDim.toNat := by
    rw [hg]
    exact toNat_getTotalBlockDim hupper deviceType
  have hparms : g.checkParms = head.checkParms := by
    rw [hg]
    rfl
  rw [hparms] at hexists
  constructor
  · intro hsound
    unfold largestCache
    split_ifs with hvisits
    · obtain ⟨i, hi, hchecked⟩ := hexists.mpr hvisits
      have hfits := (hroom i).mp (hsound.room i (hnum ▸ hi))
      rw [blockCache_of_checked hchecked, hparms] at hfits
      exact hfits
    · have hfirst : 0 < g.kernelInfo.totalBlockDim.toNat := by
        rw [hnum]
        exact Nat.mul_pos (coreBlockNum_pos deviceType) hlower
      have hfits := (hroom 0).mp (hsound.room 0 hfirst)
      have hcache : 1 ≤ blockCache deviceType g 0 := one_le_blockCache deviceType (hparms ▸ hlo) 0
      exact lt_of_le_of_lt (Nat.add_le_add_left (Nat.mul_le_mul_right _ hcache) _) hfits
  · intro hfits
    refine ⟨fun i j _ _ hne => Layout.regions_disjoint _ _ hne, fun i hi => ?_, fun i hi => ?_⟩
    · exact (Layout.region_subset _ _ hi).trans (Set.Ico_subset_Ico_right hoffset)
    · apply (hroom i).mpr
      have hlargest : blockCache deviceType g i ≤
          largestCache deviceType head.checkParms blockDim := by
        unfold blockCache largestCache
        split_ifs with hchecked hvisits hvisits
        · rw [hparms]
        · exact absurd (hexists.mp ⟨i, hnum ▸ hi, hchecked⟩) hvisits
        · exact hlo
        · exact le_refl 1
      exact lt_of_le_of_lt (Nat.add_le_add_left (Nat.mul_le_mul_right _ hlargest) _) hfits

theorem soundLayout_singleCore :
    SoundLayout .ascend910B1 3
      ⟨⟨1024, 5⟩, ⟨72, 2118⟩, ⟨192, 0, 0, 0, 0⟩, false⟩ := by
  have hiff := @soundLayout_iff ⟨⟨1024, 5⟩, ⟨0, 0⟩, ⟨0, 0, 0, 0, 0⟩, false⟩
    ⟨⟨1024, 5⟩, ⟨72, 2118⟩, ⟨192, 0, 0, 0, 0⟩, false⟩ 3 24 .ascend910B1
    (by decide) (by decide) (by decide)
  exact hiff.mpr (by decide)

/-- With 4 GB for its only block the stride wraps to the bare head. -/
theorem not_soundLayout_wrapped :
    assignMemSize (RecordGlobalHead.withHostMemoryNum ⟨⟨4096, -1⟩, ⟨0, 0⟩, ⟨0, 0, 0, 0, 0⟩, false⟩ 0) 1
        .ascend910PremiumA =
      (⟨⟨4096, -1⟩, ⟨1, 4096⟩, ⟨128, 0, 0, 0, 0⟩, false⟩, true) ∧
    ¬ SoundLayout .ascend910PremiumA 0
      ⟨⟨4096, -1⟩, ⟨1, 4096⟩, ⟨128, 0, 0, 0, 0⟩, false⟩ := by
  refine ⟨by decide, fun hsound => ?_⟩
  have hroom := hsound.room 0 (by decide)
  exact absurd hroom (by decide)

end Msopcom
