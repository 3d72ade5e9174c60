import Msopcom.ArgsImageReads

set_option autoImplicit false

/-!
# When the reads of the arguments are bounded

The image has a slot for each input behind those that are skipped, the blocks of its host inputs
are complete, and the tiling data with its address lies in it.
-/
namespace Msopcom.ArgsImageReads

section Fits
variable (image : ArgsImage) (memInfo : OpMemInfo)

/-- The words that these tensors are described by, each with its dimensions behind it. -/
def descriptionSize (dims : List ℕ) : ℕ := (dims.map (· + 1)).sum

/-- From `start` on the words describe tensors of so many dimensions, until `size` words of them
are filled. -/
def Describes (buff : List UInt8) : ℕ → ℕ → List ℕ → Prop
  | size, _, [] => size = 0
  | size, start, dim :: dims =>
    0 < size ∧ (readWord buff start).toUInt32.toNat = dim ∧
      Describes buff (size - (dim + 1)) (start + (dim + 1)) dims

/-- A host input has the offset of its pointers, the descriptions of the tensors, and a pointer
for each of these. -/
structure HostInputFits (buff : List UInt8) (info : HostInputInfo) : Prop where
  offset : 8 * (info.dataOffset.toNat / 8) + 8 ≤ buff.length
  tensors : ∃ dims, Describes buff ((readWord buff (info.dataOffset.toNat / 8)).toNat / 8 - 1)
      (info.dataOffset.toNat / 8 + 1) dims ∧
    8 * (info.dataOffset.toNat / 8 + 1 + descriptionSize dims) ≤ buff.length ∧
    8 * (info.dataOffset.toNat / 8 + (readWord buff (info.dataOffset.toNat / 8)).toNat / 8 +
      dims.length) ≤ buff.length

/-- There are slots for as many inputs as this. -/
def SlotsFit (count : ℕ) : Prop :=
  count = 0 ∨ 8 * (memInfo.skipNum.toNat + count) ≤ image.bytes.length

/-- The index of the inputs has 32 bits. -/
structure ParamsFit (hostInputs : List HostInputInfo) : Prop where
  slots : SlotsFit image memInfo (min memInfo.inputParamsAddrInfos.length (2 ^ 32))
  secondPtrs : ∀ info ∈ hostInputs,
    info.addrOffset.toNat / 8 < memInfo.inputParamsAddrInfos.length →
      isSecondPtr memInfo.secondPtrAddrInfos (UInt32.ofNat (info.addrOffset.toNat / 8)) = true →
        HostInputFits image.bytes info

def WordFits (off : ℕ) : Prop := 8 * (off / 8) + 8 ≤ image.bytes.length

def TilingFits (off : ℕ) : Prop :=
  memInfo.tilingDataSize = 0 ∨ off + memInfo.tilingDataSize.toNat ≤ image.bytes.length

/-- The tiling data that an address in the image leads to lies in the image too. -/
def PointerFits (off : ℕ) : Prop :=
  memInfo.tilingDataSize = 0 ∨ readWord image.bytes (off / 8) = 0 ∨
    (image.base ≤ (readWord image.bytes (off / 8)).toNat ∧
      (readWord image.bytes (off / 8)).toNat + memInfo.tilingDataSize.toNat ≤
        image.base + image.bytes.length)

def Routine.Fits : Routine → Prop
  | .reportOpMallocInfo a =>
    ParamsFit image memInfo a.hostInputs ∧
      (a.hasTiling ≠ 0 → WordFits image a.tilingAddrOffset.toNat)
  | .reportOpMallocInfoAcl a =>
    ParamsFit image memInfo a.hostInputs ∧
      (a.placeHolderNum ≠ 0 → WordFits image (tilingPlaceHolder a.hostInputs).addrOffset.toNat)
  | .save c outcomes =>
    (c.isDeviceArgs = true → outcomes.copiesArgs = true) →
      SlotsFit image memInfo memInfo.inputParamsAddrInfos.length ∧
        (outcomes.dumpsInput = true → c.placeHolderArray ≠ [] →
          TilingFits image memInfo (tilingPlaceHolder c.placeHolderArray).dataOffset.toNat)
  | .updateNormalTaskArgsAddr _ => SlotsFit image memInfo memInfo.inputParamsAddrInfos.length
  | .completeInputData a =>
    (a.tilingAddrOffset ≠ 0 → WordFits image a.tilingAddrOffset.toNat) ∧
      (a.tilingDataOffset ≠ 0 → TilingFits image memInfo (8 * (a.tilingDataOffset.toNat / 8))) ∧
      (a.tilingDataOffset = 0 → a.tilingAddrOffset ≠ 0 →
        PointerFits image memInfo a.tilingAddrOffset.toNat)

end Fits

section
variable {image : ArgsImage} {memInfo : OpMemInfo} {buff : List UInt8}

def InWords (buff : List UInt8) (words : List ℕ) : Prop := ∀ k ∈ words, 8 * k + 8 ≤ buff.length

theorem inWords_cons {k : ℕ} {words : List ℕ} :
    InWords buff (k :: words) ↔ 8 * k + 8 ≤ buff.length ∧ InWords buff words :=
  List.forall_mem_cons

theorem inWords_append {words words' : List ℕ} :
    InWords buff (words ++ words') ↔ InWords buff words ∧ InWords buff words' :=
  List.forall_mem_append

/-- Consecutive words lie in the image when the last one does. -/
theorem inWords_run {f : ℕ → ℕ} {start : ℕ} (hf : ∀ i, f i = start + i) (count : ℕ) :
    InWords buff ((List.range count).map f) ↔ count = 0 ∨ 8 * (start + count) ≤ buff.length := by
  constructor
  · intro h
    cases count with
    | zero => exact .inl rfl
    | succ n =>
      have hlast := h (f n) (List.mem_map_of_mem (List.mem_range.mpr (Nat.lt_succ_self n)))
      rw [hf] at hlast
      exact .inr (by omega)
  · intro h k hk
    obtain ⟨i, hi, rfl⟩ := List.mem_map.mp hk
    rw [List.mem_range] at hi
    rw [hf]
    omega

theorem inWords_secondPtrLoop {hostInputsPtr ptrOffset fuel dimIdx ptrIdx : ℕ}
    (hfuel : ptrOffset - 1 - dimIdx ≤ fuel) :
    InWords buff (secondPtrLoopWords buff hostInputsPtr ptrOffset fuel dimIdx ptrIdx) ↔
      ∃ dims, Describes buff (ptrOffset - 1 - dimIdx) (hostInputsPtr + 1 + dimIdx) dims ∧
        (dims = [] ∨
          8 * (hostInputsPtr + 1 + dimIdx + descriptionSize dims) ≤ buff.length ∧
            8 * (hostInputsPtr + ptrOffset + ptrIdx + dims.length) ≤ buff.length) := by
  induction fuel generalizing dimIdx ptrIdx with
  | zero =>
    refine iff_of_true (fun k hk => (by cases hk)) ⟨[], ?_, .inl rfl⟩
    exact Nat.le_zero.mp hfuel
  | succ fuel ih =>
    unfold secondPtrLoopWords
    by_cases hgo : ptrOffset > 0 ∧ dimIdx < ptrOffset - 1
    · rw [if_pos hgo]
      dsimp only
      generalize hdim : (readWord buff (hostInputsPtr + 1 + dimIdx)).toUInt32.toNat = dim
      have hrest : ptrOffset - 1 - (dimIdx + 1 + dim) = ptrOffset - 1 - dimIdx - (dim + 1) := by
        omega
      have hstart : hostInputsPtr + 1 + (dimIdx + 1 + dim) =
          hostInputsPtr + 1 + dimIdx + (dim + 1) := by omega
      have hdims := @inWords_run buff (fun j => hostInputsPtr + 1 + (dimIdx + 1 + j))
        (hostInputsPtr + 1 + (dimIdx + 1)) (fun j => by omega) dim
      rw [List.cons_append, inWords_cons, inWords_append, inWords_cons, hdims,
        ih (by omega), hrest, hstart]
      constructor
      · rintro ⟨hword, hrun, hptr, dims, hdesc, hfits⟩
        refine ⟨dim :: dims, ⟨by omega, hdim, hdesc⟩, .inr ?_⟩
        unfold descriptionSize at hfits ⊢
        rw [List.map_cons, List.sum_cons, List.length_cons]
        rcases hfits with rfl | hfits
        · rw [List.map_nil, List.sum_nil, List.length_nil]
          omega
        · omega
      · rintro ⟨dims, hdesc, hfits⟩
        cases dims with
        | nil => exact absurd hdesc (by unfold Describes; omega)
        | cons dim' dims =>
          obtain ⟨-, hdim', hdesc⟩ := hdesc
          obtain rfl : dim = dim' := hdim.symm.trans hdim'
          have hfits := hfits.resolve_left (List.cons_ne_nil _ _)
          unfold descriptionSize at hfits
          rw [List.map_cons, List.sum_cons, List.length_cons] at hfits
          refine ⟨by omega, by omega, by omega, dims, hdesc, .inr ?_⟩
          unfold descriptionSize
          omega
    · rw [if_neg hgo]
      refine iff_of_true (fun k hk => (by cases hk)) ⟨[], ?_, .inl rfl⟩
      unfold Describes
      omega

theorem inWords_hostInput (info : HostInputInfo) :
    InWords buff (hostInputWords buff info) ↔ HostInputFits buff info := by
  unfold hostInputWords
  dsimp only
  rw [inWords_cons, inWords_secondPtrLoop (Nat.sub_le_of_le_add (by omega))]
  constructor
  · rintro ⟨hoffset, dims, hdesc, hfits⟩
    refine ⟨hoffset, dims, hdesc, ?_⟩
    rcases hfits with rfl | hfits
    · have hsize : (readWord buff (info.dataOffset.toNat / 8)).toNat / 8 - 1 - 0 = 0 := hdesc
      unfold descriptionSize
      rw [List.map_nil, List.sum_nil, List.length_nil]
      omega
    · exact hfits
  · rintro ⟨hoffset, dims, hdesc, hfits⟩
    exact ⟨hoffset, dims, hdesc, .inr hfits⟩

theorem inWords_secondPtr (hostInputs : List HostInputInfo) (infos : SecondPtrAddrInfos)
    (index : UInt32) :
    InWords buff (secondPtrWords buff hostInputs infos index) ↔
      (isSecondPtr infos index = true → ∀ info ∈ hostInputs,
        info.addrOffset.toNat / 8 = index.toNat → HostInputFits buff info) := by
  unfold secondPtrWords
  split_ifs with hkey
  · rw [imp_iff_right hkey]
    constructor
    · intro h info hinfo hslot
      refine (inWords_hostInput info).mp fun k hk => h k (List.mem_flatMap.mpr ⟨info, ?_, hk⟩)
      exact List.mem_filter.mpr ⟨hinfo, decide_eq_true hslot⟩
    · intro h k hk
      obtain ⟨info, hinfo, hk⟩ := List.mem_flatMap.mp hk
      obtain ⟨hinfo, hslot⟩ := List.mem_filter.mp hinfo
      exact (inWords_hostInput info).mpr (h info hinfo (of_decide_eq_true hslot)) k hk
  · exact iff_of_true (fun k hk => (by cases hk)) fun h => absurd h hkey

theorem toNat_index (i : ℕ) : (UInt32.ofNat i).toNat = i % 2 ^ 32 := UInt32.toNat_ofNat'

/-- The slots of all rounds, whose index may start again. -/
theorem slots_iff (count : ℕ) : (∀ i < count, 8 * (memInfo.skipNum.toNat +
      (UInt32.ofNat i).toNat) + 8 ≤ image.bytes.length) ↔
    SlotsFit image memInfo (min count (2 ^ 32)) := by
  unfold SlotsFit
  simp only [toNat_index]
  constructor
  · intro h
    cases count with
    | zero => exact .inl rfl
    | succ n =>
      have hlast := h (min n (2 ^ 32 - 1)) (by omega)
      rw [Nat.mod_eq_of_lt (by omega)] at hlast
      exact .inr (by omega)
  · intro h i hi
    omega

theorem inWords_collect (hostInputs : List HostInputInfo) :
    InWords image.bytes (collectWords image.bytes hostInputs memInfo) ↔
      ParamsFit image memInfo hostInputs := by
  have hrounds : InWords image.bytes (collectWords image.bytes hostInputs memInfo) ↔
      (∀ i < memInfo.inputParamsAddrInfos.length,
        8 * (memInfo.skipNum.toNat + (UInt32.ofNat i).toNat) + 8 ≤ image.bytes.length) ∧
      ∀ i < memInfo.inputParamsAddrInfos.length,
        InWords image.bytes (secondPtrWords image.bytes hostInputs memInfo.secondPtrAddrInfos
          (UInt32.ofNat i)) := by
    rw [← forall₂_and]
    constructor
    · intro h i hi
      exact inWords_cons.mp fun k hk => h k (List.mem_flatMap.mpr ⟨i, List.mem_range.mpr hi, hk⟩)
    · intro h k hk
      obtain ⟨i, hi, hk⟩ := List.mem_flatMap.mp hk
      exact inWords_cons.mpr (h i (List.mem_range.mp hi)) k hk
  rw [hrounds, slots_iff]
  constructor
  · rintro ⟨hslots, hptrs⟩
    refine ⟨hslots, fun info hinfo hlt hkey => ?_⟩
    refine (inWords_secondPtr ..).mp (hptrs _ hlt) hkey info hinfo ?_
    have hoff := info.addrOffset.toNat_lt
    rw [toNat_index, Nat.mod_eq_of_lt (by omega)]
  · rintro ⟨hslots, hptrs⟩
    refine ⟨hslots, fun i hi => (inWords_secondPtr ..).mpr fun hkey info hinfo hslot => ?_⟩
    have hindex : UInt32.ofNat (info.addrOffset.toNat / 8) = UInt32.ofNat i := by
      rw [hslot, UInt32.ofNat_toNat]
    rw [toNat_index] at hslot
    have hle := Nat.mod_le i (2 ^ 32)
    exact hptrs info hinfo (by omega) (hindex ▸ hkey)

theorem inside_words {words : List ℕ} : (∀ read ∈ words.map Read.word, read.Inside image) ↔
    InWords image.bytes words := List.forall_mem_map

theorem inside_guarded {p : Prop} [Decidable p] {read : Read} :
    (∀ r ∈ if p then [read] else [], r.Inside image) ↔ (p → read.Inside image) := by
  split_ifs with hp
  · rw [List.forall_mem_singleton, imp_iff_right hp]
  · exact iff_of_true (fun r hr => (by cases hr)) fun h => absurd h hp

theorem inWords_slots : InWords image.bytes (slotWords memInfo) ↔
    SlotsFit image memInfo memInfo.inputParamsAddrInfos.length :=
  inWords_run (fun _ => rfl) _

theorem tiling_inside_iff (off : ℕ) :
    (Read.bytes off memInfo.tilingDataSize.toNat).Inside image ↔ TilingFits image memInfo off := by
  unfold Read.Inside TilingFits
  rw [← UInt64.toNat_inj]
  rfl

theorem completeInputData_iff {a : RtArgsEx} (h : a.args = some image.bytes) :
    (∀ read ∈ (Routine.completeInputData a).reads memInfo, read.Inside image) ↔
      (Routine.completeInputData a).Fits image memInfo := by
  have hdata : (∀ read ∈ (tilingBuffData image.bytes a memInfo.tilingDataSize.toNat).toList,
        read.Inside image) ↔
      (a.tilingDataOffset ≠ 0 → TilingFits image memInfo (8 * (a.tilingDataOffset.toNat / 8))) ∧
        (a.tilingDataOffset = 0 → a.tilingAddrOffset ≠ 0 →
          PointerFits image memInfo a.tilingAddrOffset.toNat) := by
    unfold tilingBuffData
    by_cases hdata : a.tilingDataOffset = 0
    · rw [if_neg (not_not.mpr hdata), imp_iff_right hdata]
      refine Iff.trans ?_ (and_iff_right fun h => absurd hdata h).symm
      by_cases haddr : a.tilingAddrOffset = 0
      · rw [if_neg (not_not.mpr haddr)]
        exact iff_of_true (fun read hread => (by cases hread)) fun h => absurd haddr h
      · rw [if_pos haddr, imp_iff_right haddr]
        dsimp only
        unfold PointerFits
        by_cases hptr : readWord image.bytes (a.tilingAddrOffset.toNat / 8) = 0
        · rw [if_neg (not_not.mpr hptr)]
          exact iff_of_true (fun read hread => (by cases hread)) (.inr (.inl hptr))
        · rw [if_pos hptr, Option.toList_some, List.forall_mem_singleton, or_iff_right hptr,
            ← UInt64.toNat_inj]
          rfl
    · rw [if_pos hdata, imp_iff_right hdata, Option.toList_some, List.forall_mem_singleton,
        tiling_inside_iff]
      exact (and_iff_left fun h => absurd h hdata).symm
  unfold Routine.reads Routine.Fits
  dsimp only
  rw [h, Option.getD_some, List.forall_mem_append, inside_guarded, hdata]
  rfl

/-- A routine reads inside the image exactly when what it looks for is there. -/
theorem inside_iff (image : ArgsImage) (memInfo : OpMemInfo) (r : Routine) (h : r.On image) :
    (∀ read ∈ r.reads memInfo, read.Inside image) ↔ r.Fits image memInfo := by
  cases r with
  | reportOpMallocInfo a =>
    unfold Routine.reads Routine.Fits
    dsimp only
    rw [h.1, List.forall_mem_append, inside_words, inWords_collect, inside_guarded]
    rfl
  | reportOpMallocInfoAcl a =>
    unfold Routine.reads Routine.Fits
    dsimp only
    rw [h.1, List.forall_mem_append, inside_words, inWords_collect, inside_guarded]
    rfl
  | save c outcomes =>
    unfold Routine.reads Routine.Fits
    dsimp only
    by_cases hcopy : (c.isDeviceArgs && !outcomes.copiesArgs) = true
    · rw [if_pos hcopy]
      rw [Bool.and_eq_true, Bool.not_eq_true'] at hcopy
      refine iff_of_true (fun read hread => (by cases hread)) fun hcopies => ?_
      exact absurd ((hcopies hcopy.1).symm.trans hcopy.2) Bool.false_ne_true.symm
    · have hcopies : c.isDeviceArgs = true → outcomes.copiesArgs = true := by
        intro hdevice
        rw [hdevice, Bool.true_and, Bool.not_eq_true, Bool.not_eq_false'] at hcopy
        exact hcopy
      rw [if_neg hcopy, imp_iff_right hcopies, List.forall_mem_append, inside_words,
        inWords_slots, inside_guarded, tiling_inside_iff, and_imp]
  | updateNormalTaskArgsAddr args =>
    unfold Routine.reads Routine.Fits
    dsimp only
    rw [inside_words, inWords_slots]
  | completeInputData a => exact completeInputData_iff h.1

end

/-- One input of one slot, and a tiling of 16 bytes behind it. -/
def tilingImage : ArgsImage := ⟨0x10000, List.replicate 32 0⟩

def tilingArgs : RtArgsEx where
  args := some tilingImage.bytes
  argsSize := 32
  tilingAddrOffset := 8
  tilingDataOffset := 16
  hasTiling := 1

def oneInput : OpMemInfo where
  inputParamsAddrInfos := [⟨0, 8, .extra, .default, 0⟩]
  tilingDataSize := 16

theorem inside_iff_tilingArgs :
    (∀ read ∈ (Routine.completeInputData tilingArgs).reads oneInput,
      read.Inside tilingImage) ↔ (Routine.completeInputData tilingArgs).Fits tilingImage oneInput :=
  inside_iff tilingImage oneInput (.completeInputData tilingArgs) ⟨rfl, rfl⟩

/-- Two inputs and an image with the slot of one. -/
theorem twoInputs_not_inside : ¬ ∀ read ∈ (Routine.reportOpMallocInfo
      { args := some (List.replicate 8 0), argsSize := 8 }).reads
      { inputParamsAddrInfos := [⟨0, 8, .extra, .default, 0⟩, ⟨0, 8, .extra, .default, 1⟩] },
    read.Inside ⟨0x10000, List.replicate 8 0⟩ := by
  intro h
  have hsecond : 8 * 1 + 8 ≤ 8 := h (.word 1) (by decide)
  omega

end Msopcom.ArgsImageReads
