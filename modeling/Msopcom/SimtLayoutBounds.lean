import Msopcom.RecordLayoutBounds
import Msopcom.SimtLayout

set_option autoImplicit false

/-!
# When the regions of a block with threads fit

All offsets are kept in 32 bits, and nobody looks at how many host memory records there are.
-/
namespace Msopcom
open Words

/-! ## Sizes without wrapping -/

def simtHeadBytes (cacheSize : UInt32) : ℕ := cacheSize.toNat * 2 ^ 20 * 2 / 5 / 64 * 64

def allThreadBytes (cacheSize : UInt32) : ℕ := cacheSize.toNat * 2 ^ 20 / 20480 / 64 * 64 * 2048

/-- The offsets fit their fields; the last one counts where there is a shadow memory. -/
structure OffsetsFit (i : HeadInputs) : Prop where
  head : blockHeadBytes i.hostMemoryNum < 2 ^ 32
  simtHeads : simtHeadBytes i.cacheSize + blockHeadBytes i.hostMemoryNum < 2 ^ 32
  shadow : 24 ≤ i.cacheSize.toNat → i.cacheSize.toNat < 8192 →
    simtHeadBytes i.cacheSize + blockHeadBytes i.hostMemoryNum + allThreadBytes i.cacheSize < 2 ^ 32

theorem truncate_div {n d : ℕ} (hn : n < 2 ^ 64) : (truncate ((n : ℚ) / (d : ℚ))).toNat = n / d := by
  rw [truncate, Rat.floor_natCast_div_natCast]
  exact toNat_ofNat64 (lt_of_le_of_lt (Nat.div_le_self n d) hn)

section Sizes
variable {cacheSize : UInt32}

theorem toNat_mbToBytes : mbToBytes.toNat = 2 ^ 20 := by decide

theorem toNat_simtThreadMaxSize : simtThreadMaxSize.toNat = 2048 := by decide

theorem toNat_sizeofSimtRecordBlockHead : sizeofSimtRecordBlockHead.toNat = 64 := by decide

theorem toNat_cacheBytes (cacheSize : UInt32) :
    (cacheSize.toUInt64 * mbToBytes).toNat = cacheSize.toNat * 2 ^ 20 := by
  have hlt := cacheSize.toNat_lt
  rw [toNat_mul64]
  · rw [UInt32.toNat_toUInt64, toNat_mbToBytes]
  · rw [UInt32.toNat_toUInt64, toNat_mbToBytes]
    omega

theorem cacheBytes_eq (cacheSize : UInt32) :
    cacheBytes cacheSize = ((cacheSize.toNat * 2 ^ 20 : ℕ) : ℚ) := by
  rw [cacheBytes, toNat_cacheBytes]

theorem threadBytes_eq (cacheSize : UInt32) :
    (simtThreadBytes cacheSize).toNat = cacheSize.toNat * 2 ^ 20 / 20480 := by
  have hlt := cacheSize.toNat_lt
  have hratio : cacheBytes cacheSize * simtCacheSizeRatio / simtThreadMaxSize.toNat =
      ((cacheSize.toNat * 2 ^ 20 : ℕ) : ℚ) / ((20480 : ℕ) : ℚ) := by
    rw [cacheBytes_eq, simtCacheSizeRatio, toNat_simtThreadMaxSize]
    push_cast
    ring
  rw [simtThreadBytes, hratio, truncate_div (by omega)]

theorem simtHead_eq (cacheSize : UInt32) :
    (simtHeadOffsetBytes cacheSize).toNat = cacheSize.toNat * 2 ^ 20 * 2 / 5 := by
  have hlt := cacheSize.toNat_lt
  have hratio : cacheBytes cacheSize * (1 - simtCacheSizeRatio - shadowMemCacheSizeRatio) =
      ((cacheSize.toNat * 2 ^ 20 * 2 : ℕ) : ℚ) / ((5 : ℕ) : ℚ) := by
    rw [cacheBytes_eq, simtCacheSizeRatio, shadowMemCacheSizeRatio]
    push_cast
    ring
  rw [simtHeadOffsetBytes, hratio, truncate_div (by omega)]

theorem shadowBytes_eq (cacheSize : UInt32) :
    (shadowMemoryBytes cacheSize).toNat = cacheSize.toNat * 2 ^ 20 / 2 := by
  have hlt := cacheSize.toNat_lt
  have hratio : cacheBytes cacheSize * shadowMemCacheSizeRatio =
      ((cacheSize.toNat * 2 ^ 20 : ℕ) : ℚ) / ((2 : ℕ) : ℚ) := by
    rw [cacheBytes_eq, shadowMemCacheSizeRatio]
    push_cast
    ring
  rw [shadowMemoryBytes, hratio, truncate_div (by omega)]

theorem toNat_alignDown (v : UInt64) :
    (alignDownSize cacheLineSize.toUInt64 v).toNat = v.toNat / 64 * 64 := by
  have hline : cacheLineSize.toUInt64.toNat = 64 := by decide
  have hmod : (v % cacheLineSize.toUInt64).toNat = v.toNat % 64 := by
    rw [UInt64.toNat_mod, hline]
  rw [alignDownSize, toNat_sub64 (by omega), hmod]
  omega

end Sizes

/-! ## The offsets of a head -/

/-- What the offsets of a chip with threads are. -/
structure SimtOffsets (cacheSize : UInt32) (o : ProtocolOffsetInfo) : Prop where
  minimum : 64 ≤ cacheSize.toNat * 2 ^ 20 / 20480
  thread : o.threadByteSize.toNat = (cacheSize.toNat * 2 ^ 20 / 20480 - 64) / 64 * 64
  simtHead : o.simtHeadOffset.toNat =
    (simtHeadBytes cacheSize + o.blockHeadSize.toNat) % 2 ^ 32
  shadow : if cacheSize.toNat < 24 then o.shadowMemoryOffset = 0 ∧ o.shadowMemoryByteSize = 0
    else o.shadowMemoryOffset.toNat =
        (o.simtHeadOffset.toNat + allThreadBytes cacheSize + 63) / 64 * 64 % 2 ^ 32 ∧
      o.shadowMemoryByteSize.toNat = cacheSize.toNat * 2 ^ 20 / 2 % 2 ^ 32

section Offsets
variable {cacheSize : UInt32} {head : RecordGlobalHead}

theorem allThreadSize_eq (hmin : 64 ≤ cacheSize.toNat * 2 ^ 20 / 20480)
    (hthread : head.offsetInfo.threadByteSize.toNat =
      (cacheSize.toNat * 2 ^ 20 / 20480 - 64) / 64 * 64) :
    (getAllThreadSize head).toNat = allThreadBytes cacheSize := by
  have hlt := cacheSize.toNat_lt
  have hsum : (head.offsetInfo.threadByteSize.toUInt64 + sizeofSimtRecordBlockHead).toNat =
      cacheSize.toNat * 2 ^ 20 / 20480 / 64 * 64 := by
    rw [toNat_add64]
    · rw [UInt32.toNat_toUInt64, hthread, toNat_sizeofSimtRecordBlockHead]
      omega
    · rw [UInt32.toNat_toUInt64, hthread, toNat_sizeofSimtRecordBlockHead]
      omega
  rw [getAllThreadSize, toNat_mul64, hsum, toNat_simtThreadMaxSize]
  · rfl
  · rw [hsum, toNat_simtThreadMaxSize]
    omega

theorem blockHeadSize_withThreads (head : RecordGlobalHead) (t s : UInt64) :
    (head.withThreads t s).offsetInfo.blockHeadSize = head.offsetInfo.blockHeadSize := by
  rw [RecordGlobalHead.withThreads]

theorem checkParms_withThreads (head : RecordGlobalHead) (t s : UInt64) :
    (head.withThreads t s).checkParms = head.checkParms := by
  rw [RecordGlobalHead.withThreads]

theorem threadByteSize_withThreads {t : UInt64} (s : UInt64) (hmin : 64 ≤ t.toNat)
    (ht : t.toNat < 2 ^ 32) :
    (head.withThreads t s).offsetInfo.threadByteSize.toNat = (t.toNat - 64) / 64 * 64 := by
  have hsub : (t - sizeofSimtRecordBlockHead).toNat = t.toNat - 64 := by
    rw [toNat_sub64 (by rw [toNat_sizeofSimtRecordBlockHead]; exact hmin),
      toNat_sizeofSimtRecordBlockHead]
  rw [RecordGlobalHead.withThreads, UInt64.toNat_toUInt32, toNat_alignDown, hsub]
  omega

theorem simtHeadOffset_withThreads (t : UInt64) {s : UInt64} (hs : s.toNat < 2 ^ 63) :
    (head.withThreads t s).offsetInfo.simtHeadOffset.toNat =
      (s.toNat / 64 * 64 + head.offsetInfo.blockHeadSize.toNat) % 2 ^ 32 := by
  have hlt := head.offsetInfo.blockHeadSize.toNat_lt
  rw [RecordGlobalHead.withThreads, UInt64.toNat_toUInt32, toNat_add64, toNat_alignDown,
    UInt32.toNat_toUInt64]
  rw [toNat_alignDown, UInt32.toNat_toUInt64]
  omega

theorem shadowMemoryOffset_eq {s a : UInt64} (hs : s.toNat < 2 ^ 32) (ha : a.toNat < 2 ^ 32) :
    (alignDownSize cacheLineSize.toUInt64 (s + a + cacheLineSize.toUInt64 - 1)).toUInt32.toNat =
      (s.toNat + a.toNat + 63) / 64 * 64 % 2 ^ 32 := by
  have hsum : (s + a).toNat = s.toNat + a.toNat := toNat_add64 (by omega)
  have hline : cacheLineSize.toUInt64.toNat = 64 := by decide
  have hsum' : (s + a + cacheLineSize.toUInt64).toNat = s.toNat + a.toNat + 64 := by
    rw [toNat_add64 (by omega), hsum, hline]
  have hone : (1 : UInt64).toNat = 1 := rfl
  rw [UInt64.toNat_toUInt32, toNat_alignDown, toNat_sub64 (by omega), hsum', hone]
  rfl

theorem withShadowMemory_keeps (head : RecordGlobalHead) (b : UInt64) :
    (head.withShadowMemory b).checkParms = head.checkParms ∧
      (head.withShadowMemory b).offsetInfo.blockHeadSize = head.offsetInfo.blockHeadSize ∧
      (head.withShadowMemory b).offsetInfo.threadByteSize = head.offsetInfo.threadByteSize ∧
      (head.withShadowMemory b).offsetInfo.simtHeadOffset = head.offsetInfo.simtHeadOffset := by
  rw [RecordGlobalHead.withShadowMemory]
  split_ifs
  · simp only [and_self]
  · simp only [and_self]

theorem shadowMemory_off (head : RecordGlobalHead) {b : UInt64} (hb : b < shadowMemMinByteSize) :
    (head.withShadowMemory b).offsetInfo.shadowMemoryOffset = 0 ∧
      (head.withShadowMemory b).offsetInfo.shadowMemoryByteSize = 0 := by
  rw [RecordGlobalHead.withShadowMemory, if_pos hb]
  simp only [and_self]

theorem shadowMemory_on (head : RecordGlobalHead) {b : UInt64} (hb : ¬ b < shadowMemMinByteSize) :
    (head.withShadowMemory b).offsetInfo.shadowMemoryOffset =
        (alignDownSize cacheLineSize.toUInt64 (head.offsetInfo.simtHeadOffset.toUInt64 +
          getAllThreadSize head + cacheLineSize.toUInt64 - 1)).toUInt32 ∧
      (head.withShadowMemory b).offsetInfo.shadowMemoryByteSize = b.toUInt32 := by
  rw [RecordGlobalHead.withShadowMemory, if_neg hb]
  simp only [and_self]

theorem assignSimtOffsets_keeps {head' : RecordGlobalHead}
    (h : assignSimtOffsets cacheSize head = some head') :
    head'.checkParms = head.checkParms ∧
      head'.offsetInfo.blockHeadSize = head.offsetInfo.blockHeadSize := by
  unfold assignSimtOffsets at h
  split_ifs at h
  obtain rfl := Option.some.inj h
  have hkeeps := withShadowMemory_keeps
    (head.withThreads (simtThreadBytes cacheSize) (simtHeadOffsetBytes cacheSize))
    (shadowMemoryBytes cacheSize)
  exact ⟨hkeeps.1.trans (checkParms_withThreads head _ _),
    hkeeps.2.1.trans (blockHeadSize_withThreads head _ _)⟩

theorem assignSimtOffsets_spec (hcache : cacheSize.toNat ≤ 8192) {head' : RecordGlobalHead}
    (h : assignSimtOffsets cacheSize head = some head') :
    SimtOffsets cacheSize head'.offsetInfo := by
  obtain ⟨-, hblock⟩ := assignSimtOffsets_keeps h
  have hthread := threadBytes_eq cacheSize
  have hsimt := simtHead_eq cacheSize
  have hshadow := shadowBytes_eq cacheSize
  unfold assignSimtOffsets at h
  split_ifs at h with hmin
  rw [ge_iff_le, UInt64.le_iff_toNat_le, toNat_sizeofSimtRecordBlockHead, hthread] at hmin
  generalize simtThreadBytes cacheSize = t at h hthread
  generalize simtHeadOffsetBytes cacheSize = s at h hsimt
  generalize shadowMemoryBytes cacheSize = b at h hshadow
  have hthread' := @threadByteSize_withThreads head _ s (hthread ▸ hmin) (by omega)
  have hsimt' := @simtHeadOffset_withThreads head t s (by omega)
  rw [hthread] at hthread'
  rw [hsimt, ← hblock] at hsimt'
  have hall := allThreadSize_eq hmin hthread'
  generalize head.withThreads t s = threads at h hthread' hsimt' hall
  obtain rfl : threads.withShadowMemory b = head' := Option.some.inj h
  have hsmall : b < shadowMemMinByteSize ↔ cacheSize.toNat < 24 := by
    rw [UInt64.lt_iff_toNat_lt, hshadow, show shadowMemMinByteSize.toNat = 12 * 2 ^ 20 by decide]
    omega
  obtain ⟨-, -, hthreads, hhead⟩ := withShadowMemory_keeps threads b
  refine ⟨hmin, ?_, ?_, ?_⟩
  · rw [hthreads, hthread']
  · rw [hhead, hsimt', simtHeadBytes]
  · by_cases hb : b < shadowMemMinByteSize
    · rw [if_pos (hsmall.mp hb)]
      exact shadowMemory_off threads hb
    · obtain ⟨hoffset, hsize⟩ := shadowMemory_on threads hb
      have hstart := @shadowMemoryOffset_eq threads.offsetInfo.simtHeadOffset.toUInt64
        (getAllThreadSize threads) ?_ ?_
      · rw [UInt32.toNat_toUInt64, hall] at hstart
        rw [if_neg fun hlt => hb (hsmall.mpr hlt), hoffset, hstart, hhead, hsize,
          UInt64.toNat_toUInt32, hshadow]
        exact ⟨rfl, rfl⟩
      · rw [UInt32.toNat_toUInt64]
        exact threads.offsetInfo.simtHeadOffset.toNat_lt
      · rw [hall, allThreadBytes]
        omega

end Offsets

/-! ## The regions of an accepted configuration -/

/-- What an accepted configuration has for its sizes. -/
structure AcceptedSimt (i : HeadInputs) (head : RecordGlobalHead) : Prop where
  cacheSize : head.checkParms.cacheSize = i.cacheSize
  limit : i.cacheSize.toNat ≤ 8192
  blockHead : head.offsetInfo.blockHeadSize.toNat =
    ((128 + i.hostMemoryNum.toNat * 16) % 2 ^ 32 + 63) % 2 ^ 32 / 64 * 64
  offsets : SimtOffsets i.cacheSize head.offsetInfo

theorem accepted_of_assign {head : RecordGlobalHead} {i : HeadInputs}
    (hsimt : supportSimt i.deviceType = true) (h : (assignGlobalHead head i).2 = true) :
    AcceptedSimt i (assignGlobalHead head i).1 := by
  have hbase : (baseHead head i).supportSimt = true := hsimt
  have hcacheSize : (baseHead head i).checkParms.cacheSize = i.cacheSize := rfl
  have hblock := toNat_blockHeadSize
    { head with
      checkParms := ⟨i.cacheSize, i.checkBlockId⟩
      supportSimt := supportSimt i.deviceType } i.hostMemoryNum
  change (baseHead head i).offsetInfo.blockHeadSize.toNat = _ at hblock
  unfold assignGlobalHead at h ⊢
  rw [if_pos hbase] at h ⊢
  split_ifs at h ⊢
  cases hsome : assignSimtOffsets i.cacheSize (baseHead head i) with
  | none =>
    rw [hsome] at h
    cases h
  | some head' =>
    rw [hsome] at h
    change AcceptedSimt i (assignMemSize head' i.blockDim i.deviceType).1
    change (assignMemSize head' i.blockDim i.deviceType).2 = true at h
    obtain ⟨hparms, hhead⟩ := assignSimtOffsets_keeps hsome
    cases hmem : assignMemSize head' i.blockDim i.deviceType with
    | mk g accepted =>
    rw [hmem] at h
    obtain rfl : accepted = true := h
    obtain ⟨rfl, -, hlimit, -⟩ := assignMemSize_accepts hmem
    rw [hparms, hcacheSize] at hlimit
    have hoffsets := assignSimtOffsets_spec hlimit hsome
    exact ⟨(congrArg CheckParmsInfo.cacheSize hparms).trans hcacheSize, hlimit,
      (congrArg UInt32.toNat hhead).trans hblock, hoffsets⟩

/-- The threads and the records before them take half of the cache. -/
theorem simtHeadBytes_add_le (cacheSize : UInt32) :
    simtHeadBytes cacheSize + allThreadBytes cacheSize ≤ cacheSize.toNat * 2 ^ 19 := by
  have hsimt : 5 * simtHeadBytes cacheSize ≤ 2 * (cacheSize.toNat * 2 ^ 20) := by
    unfold simtHeadBytes
    omega
  have hall : 10 * allThreadBytes cacheSize ≤ cacheSize.toNat * 2 ^ 20 := by
    unfold allThreadBytes
    omega
  omega

theorem aligned_bytes (cacheSize : UInt32) :
    64 ∣ simtHeadBytes cacheSize ∧ 64 ∣ allThreadBytes cacheSize :=
  ⟨Nat.dvd_mul_left 64 _, Nat.dvd_mul_right_of_dvd (Nat.dvd_mul_left 64 _) 2048⟩

theorem precedes_Ico {a b c d : ℕ} (h : c < d → b ≤ c) : Precedes (Set.Ico a b) (Set.Ico c d) := by
  intro x hx y hy
  have hbc := h (lt_of_le_of_lt hy.1 hy.2)
  exact lt_of_lt_of_le hx.2 (hbc.trans hy.1)

theorem Precedes.disjoint {r s : Set ℕ} (h : Precedes r s) : Disjoint r s :=
  Set.disjoint_left.mpr fun x hr hs => lt_irrefl x (h x hr x hs)

/-- Fitting offsets are the true ones. -/
theorem simtLayout_of_fits {i : HeadInputs} {head : RecordGlobalHead} (h : AcceptedSimt i head)
    (hfits : OffsetsFit i) :
    SimtLayout head [blockHeadRegion, hostRecordRegion i.hostMemoryNum, simtHeadRegion head,
      shadowMemoryRegion head] := by
  obtain ⟨hcache, hlimit, hblock, hmin, hthread, hsimt, hshadow⟩ := h
  obtain ⟨hfit, hfits, hfit'⟩ := hfits
  have hall := allThreadSize_eq hmin hthread
  have hbytes : blockHeadBytes i.hostMemoryNum =
      (128 + i.hostMemoryNum.toNat * 16 + 63) / 64 * 64 := rfl
  have hnum := i.hostMemoryNum.toNat_lt
  have hblock' : head.offsetInfo.blockHeadSize.toNat = blockHeadBytes i.hostMemoryNum := by omega
  rw [hblock', Nat.mod_eq_of_lt hfits] at hsimt
  have hhalf := simtHeadBytes_add_le i.cacheSize
  have haligned := aligned_bytes i.cacheSize
  have hshadow' : head.offsetInfo.shadowMemoryByteSize.toNat ≠ 0 →
      head.offsetInfo.simtHeadOffset.toNat + allThreadBytes i.cacheSize ≤
        head.offsetInfo.shadowMemoryOffset.toNat := by
    intro hsize
    split_ifs at hshadow with hsmall
    · rw [hshadow.2] at hsize
      exact absurd rfl hsize
    · omega
  have hordered : [blockHeadRegion, hostRecordRegion i.hostMemoryNum, simtHeadRegion head,
      shadowMemoryRegion head].Pairwise Precedes := by
    unfold blockHeadRegion hostRecordRegion simtHeadRegion shadowMemoryRegion
    rw [hall, show sizeofRecordBlockHead.toNat = 128 by decide,
      show sizeofHostMemoryInfo.toNat = 16 by decide]
    simp only [List.pairwise_cons, List.mem_cons, List.not_mem_nil, or_false, forall_eq_or_imp,
      forall_eq, IsEmpty.forall_iff, implies_true, List.Pairwise.nil, and_true]
    refine ⟨⟨?_, ?_, ?_⟩, ⟨?_, ?_⟩, ?_⟩ <;> exact precedes_Ico fun _ => by omega
  refine ⟨hordered, hordered.imp Precedes.disjoint, ⟨by omega, by omega, ?_, ?_⟩, ?_⟩
  · have hsum : (head.offsetInfo.threadByteSize.toUInt64 + sizeofSimtRecordBlockHead).toNat =
        (i.cacheSize.toNat * 2 ^ 20 / 20480 - 64) / 64 * 64 + 64 := by
      rw [toNat_add64] <;> rw [UInt32.toNat_toUInt64, hthread, toNat_sizeofSimtRecordBlockHead]
      omega
    omega
  · split_ifs at hshadow
    · rw [hshadow.1]
      exact Nat.dvd_zero 64
    · omega
  · split_ifs at hshadow
    · rw [hshadow.1, hshadow.2]
      exact Nat.zero_le _
    · rw [hcache]
      omega

theorem Precedes.le {a b c d : ℕ} (h : Precedes (Set.Ico a b) (Set.Ico c d)) (hab : a < b)
    (hcd : c < d) : b ≤ c := by
  have hlt := h (b - 1) ⟨by omega, by omega⟩ c ⟨le_refl c, hcd⟩
  omega

/-- Offsets that do not fit put the regions into disorder. -/
theorem fits_of_simtLayout {i : HeadInputs} {head : RecordGlobalHead} (h : AcceptedSimt i head)
    (hlayout : SimtLayout head [blockHeadRegion, hostRecordRegion i.hostMemoryNum,
      simtHeadRegion head, shadowMemoryRegion head]) : OffsetsFit i := by
  obtain ⟨-, hlimit, hblock, hmin, hthread, hsimt, hshadow⟩ := h
  have hall := allThreadSize_eq hmin hthread
  have hordered := hlayout.ordered
  unfold blockHeadRegion hostRecordRegion simtHeadRegion shadowMemoryRegion at hordered
  rw [hall, show sizeofRecordBlockHead.toNat = 128 by decide,
    show sizeofHostMemoryInfo.toNat = 16 by decide] at hordered
  simp only [List.pairwise_cons, List.mem_cons, List.not_mem_nil, or_false, forall_eq_or_imp,
    forall_eq] at hordered
  obtain ⟨-, ⟨hhost, -⟩, hheads, -⟩ := hordered
  have hhalf := simtHeadBytes_add_le i.cacheSize
  have haligned := aligned_bytes i.cacheSize
  have hpos : 0 < allThreadBytes i.cacheSize := by
    unfold allThreadBytes
    omega
  have hbytes : blockHeadBytes i.hostMemoryNum =
      (128 + i.hostMemoryNum.toNat * 16 + 63) / 64 * 64 := rfl
  have hroom : 0 < i.hostMemoryNum.toNat →
      128 + i.hostMemoryNum.toNat * 16 ≤ head.offsetInfo.simtHeadOffset.toNat :=
    fun hnum => hhost.le (by omega) (by omega)
  have hstart := head.offsetInfo.simtHeadOffset.toNat_lt
  have hfirst : simtHeadBytes i.cacheSize ≤ 3435973836 := by
    unfold simtHeadBytes
    omega
  have hhead : blockHeadBytes i.hostMemoryNum < 2 ^ 32 := by omega
  have hsimtHeads : simtHeadBytes i.cacheSize + blockHeadBytes i.hostMemoryNum < 2 ^ 32 := by omega
  refine ⟨hhead, hsimtHeads, fun hlarge hsmall => ?_⟩
  rw [if_neg (by omega)] at hshadow
  have hbehind := hheads.le (by omega) (by omega)
  have hend := head.offsetInfo.shadowMemoryOffset.toNat_lt
  omega

/-- On a chip with threads the regions of an accepted configuration lie in this order, as long
as the offsets fit their fields. -/
theorem simt_layout (head : RecordGlobalHead) (i : HeadInputs)
    (hsimt : supportSimt i.deviceType = true) (haccept : (assignGlobalHead head i).2 = true)
    (hfits : OffsetsFit i) :
    SimtLayout (assignGlobalHead head i).1 [blockHeadRegion, hostRecordRegion i.hostMemoryNum,
      simtHeadRegion (assignGlobalHead head i).1,
      shadowMemoryRegion (assignGlobalHead head i).1] :=
  simtLayout_of_fits (accepted_of_assign hsimt haccept) hfits

def emptyHead : RecordGlobalHead := ⟨⟨0, 0⟩, ⟨0, 0⟩, ⟨0, 0, 0, 0, 0⟩, false⟩

/-- Two cores with the default cache and one host memory record. -/
def defaultInputs : HeadInputs where
  cacheSize := 100
  checkBlockId := -1
  hostMemoryNum := 1
  blockDim := 2
  deviceType := .ascend950DT9595

theorem simt_layout_default :
    SimtLayout (assignGlobalHead emptyHead defaultInputs).1 [blockHeadRegion, hostRecordRegion 1,
      simtHeadRegion (assignGlobalHead emptyHead defaultInputs).1,
      shadowMemoryRegion (assignGlobalHead emptyHead defaultInputs).1] :=
  simt_layout emptyHead defaultInputs (by decide) (by decide +kernel)
    ⟨by decide, by decide, fun _ _ => by decide⟩

/-- One core with the largest cache that has a shadow memory, and 40000 host memory records. -/
def manyRecords : HeadInputs where
  cacheSize := 8191
  checkBlockId := -1
  hostMemoryNum := 40000
  blockDim := 1
  deviceType := .ascend950DT9595

/-- The host memory records lie before the heads of the threads, and with many of them the
offset of the shadow memory wraps into the block head. -/
theorem simtHeads_behind_hostRecords :
    (assignGlobalHead emptyHead defaultInputs).2 = true ∧
      ¬ Precedes (simtHeadRegion (assignGlobalHead emptyHead defaultInputs).1)
        (hostRecordRegion 1) ∧
      (assignGlobalHead emptyHead manyRecords).2 = true ∧
      ¬ Precedes (simtHeadRegion (assignGlobalHead emptyHead manyRecords).1)
        (shadowMemoryRegion (assignGlobalHead emptyHead manyRecords).1) := by
  have hdefault : assignGlobalHead emptyHead defaultInputs =
      (⟨⟨100, -1⟩, ⟨6, 600⟩, ⟨192, 5056, 41943232, 52428800, 52428992⟩, true⟩, true) := by
    decide +kernel
  have hmany : assignGlobalHead emptyHead manyRecords =
      (⟨⟨8191, -1⟩, ⟨3, 24573⟩, ⟨640128, 419264, 3436194496, 4294443008, 10944⟩, true⟩, true) := by
    decide +kernel
  rw [hdefault, hmany]
  refine ⟨rfl, fun h => ?_, rfl, fun h => ?_⟩
  · have hlt := h 41943232 (by constructor <;> decide) 128 (by constructor <;> decide)
    omega
  · have hlt := h 3436194496 (by constructor <;> decide) 10944 (by constructor <;> decide)
    omega

end Msopcom
