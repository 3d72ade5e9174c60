import Msopcom.LaunchArgs
import Msopcom.Words

set_option autoImplicit false

/-!
# What the kernel sees of its expanded arguments

The buffer is the old one with the pointer spliced in behind the head, padded to
eight bytes, while every offset behind it moves by eight alone.
-/
namespace Msopcom
open Splice Words

/-- The length of the part of the arguments that stays in front. -/
def headSize (needOverflowStatus : Bool) (argsInfo : RtArgsEx) : UInt32 :=
  if argsInfo.hasTiling = 0 then
    match argsInfo.hostInputInfoPtr with
    | some table => (table.headD ⟨0, 0⟩).dataOffset
    | none => argsInfo.argsSize
  else tilingHeadSize needOverflowStatus argsInfo

theorem toNat_getAlignSize {s : UInt32} (h : s.toNat ≤ 2 ^ 30) :
    (getAlignSize s).toNat = (s.toNat + 7) / 8 * 8 := by
  have hsum : (s + alignSize - 1).toNat = s.toNat + 7 := by
    rw [UInt32.toNat_sub, UInt32.toNat_add]
    change (2 ^ 32 - 1 + (s.toNat + 8) % 2 ^ 32) % 2 ^ 32 = _
    omega
  unfold getAlignSize
  rw [UInt32.toNat_mul, UInt32.toNat_div, hsum]
  change (s.toNat + 7) / 8 * 8 % 2 ^ 32 = _
  omega

theorem length_pointerBytes (ptr : UInt64) : (pointerBytes ptr).length = 8 :=
  Bytes.length_leBytes 8 _

def padding (head : UInt32) : List UInt8 :=
  List.replicate ((getAlignSize head).toNat - head.toNat) 0

def expandedBytes (head : UInt32) (memInfo : UInt64) (args : List UInt8) : List UInt8 :=
  splice head.toNat (padding head) (pointerBytes memInfo) args

theorem padding_eq_nil_iff {head : UInt32} (h : head.toNat ≤ 2 ^ 30) :
    padding head = [] ↔ head.toNat % 8 = 0 := by
  unfold padding
  rw [List.replicate_eq_nil_iff, toNat_getAlignSize h]
  omega

/-! ## The three branches fill the same image -/

section
variable {args : List UInt8} {argsSize : UInt32}

theorem fillArgsWithMemInfo_eq (hlen : args.length = argsSize.toNat)
    (hmax : argsSize.toNat ≤ 2 ^ 30) (memInfo : UInt64) (head : UInt32) :
    fillArgsWithMemInfo args argsSize memInfo head =
      if head ≤ argsSize then some ⟨expandedBytes head memInfo args, getAlignSize head⟩
      else none := by
  unfold fillArgsWithMemInfo
  by_cases hhead : head ≤ argsSize
  · have hle : head.toNat ≤ argsSize.toNat := UInt32.le_iff_toNat_le.mp hhead
    have halign : (getAlignSize head).toNat = (head.toNat + 7) / 8 * 8 :=
      toNat_getAlignSize (by omega)
    have hrest : (argsSize - head).toNat = args.length - head.toNat := by
      rw [toNat_sub32 hle, hlen]
    have htotal : (argsSize + getAlignSize head - head).toNat + ptrSize.toNat =
        args.length + ((getAlignSize head).toNat - head.toNat) + (pointerBytes memInfo).length := by
      have hsum : (argsSize + getAlignSize head).toNat = argsSize.toNat + (getAlignSize head).toNat :=
        toNat_add32 (by omega)
      rw [toNat_sub32 (by omega), hsum, length_pointerBytes]
      change _ + 8 = _
      omega
    have hptr : ptrSize.toNat = (pointerBytes memInfo).length := (length_pointerBytes memInfo).symm
    have hfill := copyN_fill 0 (pointerBytes memInfo) (hlen ▸ hle)
      (show head.toNat ≤ (getAlignSize head).toNat by omega)
    rw [if_neg (UInt32.not_lt.mpr hhead), if_pos hhead]
    dsimp only
    rw [htotal, hrest, hptr, hfill]
    rfl
  · rw [if_pos (UInt32.not_le.mp hhead), if_neg hhead]

theorem appendMemInfo_eq (hlen : args.length = argsSize.toNat) (hmax : argsSize.toNat ≤ 2 ^ 30)
    (memInfo : UInt64) :
    appendMemInfo args argsSize memInfo =
      ⟨expandedBytes argsSize memInfo args, getAlignSize argsSize⟩ := by
  have halign : (getAlignSize argsSize).toNat = (argsSize.toNat + 7) / 8 * 8 :=
    toNat_getAlignSize hmax
  have hfill := copyN_fill 0 (pointerBytes memInfo) (le_of_eq hlen.symm)
    (show argsSize.toNat ≤ (getAlignSize argsSize).toNat by omega)
  have htotal : args.length + ((getAlignSize argsSize).toNat - argsSize.toNat) +
      (pointerBytes memInfo).length = (getAlignSize argsSize).toNat + ptrSize.toNat := by
    rw [length_pointerBytes]
    change _ = _ + 8
    omega
  have hptr : ptrSize.toNat = (pointerBytes memInfo).length := (length_pointerBytes memInfo).symm
  rw [htotal, hlen, Nat.sub_self, copyN_zero, ← hptr] at hfill
  unfold appendMemInfo expandedBytes padding
  dsimp only
  rw [hfill]

/-- Every branch splices the pointer in behind its head, if the head fits. -/
theorem placeMemInfo_eq {argsInfo : RtArgsEx} (hlen : args.length = argsInfo.argsSize.toNat)
    (hmax : argsInfo.argsSize.toNat ≤ 2 ^ 30) (needOverflowStatus : Bool) (memInfo : UInt64) :
    placeMemInfo needOverflowStatus argsInfo args memInfo =
      if headSize needOverflowStatus argsInfo ≤ argsInfo.argsSize then
        some ⟨expandedBytes (headSize needOverflowStatus argsInfo) memInfo args,
          getAlignSize (headSize needOverflowStatus argsInfo)⟩
      else none := by
  unfold placeMemInfo headSize
  by_cases htiling : argsInfo.hasTiling = 0
  · rw [if_pos htiling, if_pos htiling]
    cases argsInfo.hostInputInfoPtr with
    | none =>
      dsimp only
      rw [if_pos (UInt32.le_refl _), appendMemInfo_eq hlen hmax]
    | some table => exact fillArgsWithMemInfo_eq hlen hmax memInfo _
  · rw [if_neg htiling, if_neg htiling]
    exact fillArgsWithMemInfo_eq hlen hmax memInfo _

end

/-! ## What an accepted expansion returns -/

/-- The conditions under which `expandArgs` goes through; they do not look at the bytes. -/
structure Accepted (needOverflowStatus : Bool) (argsInfo : RtArgsEx) (memInfo : UInt64) : Prop where
  hasMemInfo : memInfo ≠ 0
  needsCopy : argsInfo.isNoNeedH2DCopy ≠ 1
  argsFit : argsInfo.argsSize ≤ maxAllParamSize
  headFits : headSize needOverflowStatus argsInfo ≤ argsInfo.argsSize

def expandedArgs (needOverflowStatus : Bool) (argsInfo : RtArgsEx) (memInfo : UInt64)
    (args : List UInt8) : ExpandedArgs :=
  let bytes := expandedBytes (headSize needOverflowStatus argsInfo) memInfo args
  ⟨{ argsInfo with
      args := some bytes
      hostInputInfoPtr := some (expandHostInputs argsInfo)
      argsSize := UInt32.ofNat bytes.length
      tilingDataOffset :=
        if argsInfo.hasTiling = 0 then argsInfo.tilingDataOffset
        else argsInfo.tilingDataOffset + ptrSize },
    getAlignSize (headSize needOverflowStatus argsInfo)⟩

theorem expandArgs_eq_some_iff {needOverflowStatus : Bool} {argsInfo : RtArgsEx} {memInfo : UInt64}
    {args : List UInt8} (hargs : argsInfo.args = some args)
    (hlen : args.length = argsInfo.argsSize.toNat) {r : ExpandedArgs} :
    expandArgs needOverflowStatus argsInfo memInfo = some r ↔
      Accepted needOverflowStatus argsInfo memInfo ∧
        r = expandedArgs needOverflowStatus argsInfo memInfo args := by
  unfold expandArgs
  rw [hargs]
  by_cases hmem : memInfo = 0
  · rw [if_pos hmem]
    exact iff_of_false (Option.some_ne_none r).symm fun h => h.1.hasMemInfo hmem
  by_cases hcopy : argsInfo.isNoNeedH2DCopy = 1
  · rw [if_neg hmem]
    dsimp only
    rw [if_pos hcopy]
    exact iff_of_false (Option.some_ne_none r).symm fun h => h.1.needsCopy hcopy
  by_cases hsize : argsInfo.argsSize ≤ maxAllParamSize
  · have hmax : argsInfo.argsSize.toNat ≤ 2 ^ 30 := UInt32.le_iff_toNat_le.mp hsize
    rw [if_neg hmem]
    dsimp only
    rw [if_neg hcopy, if_neg (UInt32.not_lt.mpr hsize), placeMemInfo_eq hlen hmax]
    by_cases hhead : headSize needOverflowStatus argsInfo ≤ argsInfo.argsSize
    · rw [if_pos hhead]
      constructor
      · intro h
        exact ⟨⟨hmem, hcopy, hsize, hhead⟩, (Option.some.inj h).symm⟩
      · intro h
        rw [h.2]
        rfl
    · rw [if_neg hhead]
      exact iff_of_false (Option.some_ne_none r).symm fun h => hhead h.1.headFits
  · rw [if_neg hmem]
    dsimp only
    rw [if_neg hcopy, if_pos (UInt32.not_le.mp hsize)]
    exact iff_of_false (Option.some_ne_none r).symm fun h => hsize h.1.argsFit

/-- The kernel finds in `newArgs` what it found in `args`. -/
structure ViewPreserved (needOverflowStatus : Bool) (argsInfo : RtArgsEx) (args : List UInt8)
    (memInfo : UInt64) (r : ExpandedArgs) (newArgs : List UInt8) : Prop where
  image : r.argsInfo.args = some newArgs
  head : newArgs.take (headSize needOverflowStatus argsInfo).toNat =
    args.take (headSize needOverflowStatus argsInfo).toNat
  pointer : (newArgs.drop r.memInfoOffset.toNat).take ptrSize.toNat = pointerBytes memInfo
  tiling : argsInfo.hasTiling ≠ 0 →
    args.drop argsInfo.tilingDataOffset.toNat <+: newArgs.drop r.argsInfo.tilingDataOffset.toNat
  hostInputs : ∀ (i : ℕ) (old : HostInputInfo), argsInfo.hostInputs[i]? = some old →
    ∃ new : HostInputInfo, r.argsInfo.hostInputs[i]? = some new ∧ new.addrOffset = old.addrOffset ∧
      args.drop old.dataOffset.toNat <+: newArgs.drop new.dataOffset.toNat
  argsSize : r.argsInfo.argsSize.toNat = newArgs.length

/-- The offsets at which the kernel's data is looked up. -/
def dataOffsets (argsInfo : RtArgsEx) : List UInt32 :=
  (if argsInfo.hasTiling = 0 then [] else [argsInfo.tilingDataOffset]) ++
    argsInfo.hostInputs.map fun hostInput => hostInput.dataOffset

section
variable {needOverflowStatus : Bool} {argsInfo : RtArgsEx} {memInfo : UInt64}

theorem Accepted.argsSize_le (h : Accepted needOverflowStatus argsInfo memInfo) :
    argsInfo.argsSize.toNat ≤ 2 ^ 30 := UInt32.le_iff_toNat_le.mp h.argsFit

theorem Accepted.headSize_le (h : Accepted needOverflowStatus argsInfo memInfo) :
    (headSize needOverflowStatus argsInfo).toNat ≤ argsInfo.argsSize.toNat :=
  UInt32.le_iff_toNat_le.mp h.headFits

/-- A looked-up offset moves right for every image exactly when it lies behind a head
that needs no padding, or when nothing lies there. -/
theorem Accepted.shift_iff (h : Accepted needOverflowStatus argsInfo memInfo) (off : UInt32) :
    (∀ args : List UInt8, args.length = argsInfo.argsSize.toNat →
      args.drop off.toNat <+:
        (expandedBytes (headSize needOverflowStatus argsInfo) memInfo args).drop
          (off + ptrSize).toNat) ↔
      (off < argsInfo.argsSize → headSize needOverflowStatus argsInfo ≤ off ∧
        (headSize needOverflowStatus argsInfo).toNat % 8 = 0) := by
  have hmax := h.argsSize_le
  have hhead := h.headSize_le
  have hptr : (pointerBytes memInfo).length = 8 := length_pointerBytes memInfo
  have hpiece : pointerBytes memInfo ≠ [] := List.ne_nil_of_length_pos (by omega)
  by_cases hoff : off < argsInfo.argsSize
  · have hlt : off.toNat < argsInfo.argsSize.toNat := UInt32.lt_iff_toNat_lt.mp hoff
    have hmoved : (off + ptrSize).toNat = off.toNat + (pointerBytes memInfo).length := by
      rw [toNat_add32 (by change off.toNat + 8 < _; omega), hptr]
      rfl
    have hne : (0 : UInt8) ≠ 1 := by decide
    have hshift := Splice.shift_iff hne (padding (headSize needOverflowStatus argsInfo)) hhead
      hpiece hlt
    rw [padding_eq_nil_iff (by omega), ← hmoved, ← UInt32.le_iff_toNat_le] at hshift
    rw [imp_iff_right hoff]
    exact hshift
  · have hbeyond : argsInfo.argsSize.toNat ≤ off.toNat :=
      UInt32.le_iff_toNat_le.mp (UInt32.not_lt.mp hoff)
    apply iff_of_true
    · intro args hlen
      rw [List.drop_eq_nil_of_le (hlen ▸ hbeyond)]
      exact List.nil_prefix
    · intro hlt
      exact absurd hlt hoff

theorem getElem?_expandedHostInputs {args : List UInt8} {i : ℕ} {old : HostInputInfo}
    (h : argsInfo.hostInputs[i]? = some old) :
    (expandedArgs needOverflowStatus argsInfo memInfo args).argsInfo.hostInputs[i]? =
      some { old with dataOffset := old.dataOffset + ptrSize } := by
  unfold RtArgsEx.hostInputs hostInputs at h ⊢
  unfold expandedArgs expandHostInputs
  cases htable : argsInfo.hostInputInfoPtr with
  | none =>
    rw [htable] at h
    exact absurd h (by rw [Option.getD_none, List.take_nil, List.getElem?_nil]; exact
      (Option.some_ne_none old).symm)
  | some table =>
    rw [htable] at h
    dsimp only at h ⊢
    rw [Option.getD_some] at h ⊢
    rw [← List.map_take, List.take_take, Nat.min_self, List.getElem?_map, h, Option.map_some]

theorem hostInput_mem_dataOffsets {i : ℕ} {old : HostInputInfo}
    (h : argsInfo.hostInputs[i]? = some old) : old.dataOffset ∈ dataOffsets argsInfo :=
  List.mem_append_right _ (List.mem_map.mpr ⟨old, List.mem_of_getElem? h, rfl⟩)

theorem tiling_mem_dataOffsets (h : argsInfo.hasTiling ≠ 0) :
    argsInfo.tilingDataOffset ∈ dataOffsets argsInfo := by
  unfold dataOffsets
  rw [if_neg h]
  exact List.mem_append_left _ (List.mem_singleton.mpr rfl)

/-- The padding fills the head up to the next word. -/
theorem Accepted.headSize_add_padding (h : Accepted needOverflowStatus argsInfo memInfo) :
    (headSize needOverflowStatus argsInfo).toNat +
      (padding (headSize needOverflowStatus argsInfo)).length =
        (getAlignSize (headSize needOverflowStatus argsInfo)).toNat ∧
      (getAlignSize (headSize needOverflowStatus argsInfo)).toNat ≤
        argsInfo.argsSize.toNat + 7 := by
  have hmax := h.argsSize_le
  have hhead := h.headSize_le
  have halign : (getAlignSize (headSize needOverflowStatus argsInfo)).toNat =
      ((headSize needOverflowStatus argsInfo).toNat + 7) / 8 * 8 := toNat_getAlignSize (by omega)
  have hpad : (padding (headSize needOverflowStatus argsInfo)).length =
      (getAlignSize (headSize needOverflowStatus argsInfo)).toNat -
        (headSize needOverflowStatus argsInfo).toNat := List.length_replicate
  omega

/-- The record buffer's address stands at the offset that is given back. -/
theorem Accepted.pointer (h : Accepted needOverflowStatus argsInfo memInfo) {args : List UInt8}
    (hlen : args.length = argsInfo.argsSize.toNat) :
    ((expandedBytes (headSize needOverflowStatus argsInfo) memInfo args).drop
      (getAlignSize (headSize needOverflowStatus argsInfo)).toNat).take ptrSize.toNat =
        pointerBytes memInfo := by
  have hhead := h.headSize_le
  have hpad := h.headSize_add_padding
  have hpiece := piece_splice (padding (headSize needOverflowStatus argsInfo))
    (pointerBytes memInfo) (hlen ▸ hhead)
  rw [length_pointerBytes, hpad.1] at hpiece
  exact hpiece

theorem Accepted.viewPreserved (h : Accepted needOverflowStatus argsInfo memInfo)
    {args : List UInt8} (hlen : args.length = argsInfo.argsSize.toNat)
    (hdata : ∀ off ∈ dataOffsets argsInfo, args.drop off.toNat <+:
      (expandedBytes (headSize needOverflowStatus argsInfo) memInfo args).drop
        (off + ptrSize).toNat) :
    ViewPreserved needOverflowStatus argsInfo args memInfo
      (expandedArgs needOverflowStatus argsInfo memInfo args)
      (expandedBytes (headSize needOverflowStatus argsInfo) memInfo args) := by
  have hmax := h.argsSize_le
  have hhead := h.headSize_le
  have hpad := h.headSize_add_padding
  constructor
  case image => rfl
  case head => exact take_splice (hlen ▸ hhead)
  case pointer => exact h.pointer hlen
  case tiling =>
    intro htiling
    have hoff : (expandedArgs needOverflowStatus argsInfo memInfo args).argsInfo.tilingDataOffset =
        argsInfo.tilingDataOffset + ptrSize := if_neg htiling
    rw [hoff]
    exact hdata _ (tiling_mem_dataOffsets htiling)
  case hostInputs =>
    intro i old hold
    exact ⟨_, getElem?_expandedHostInputs hold, rfl, hdata _ (hostInput_mem_dataOffsets hold)⟩
  case argsSize =>
    have hsplice : (expandedBytes (headSize needOverflowStatus argsInfo) memInfo args).length =
        args.length + (padding (headSize needOverflowStatus argsInfo)).length + 8 := by
      unfold expandedBytes
      rw [length_splice, length_pointerBytes]
    exact toNat_ofNat32 (by omega)

theorem ViewPreserved.data {args newArgs : List UInt8}
    (hview : ViewPreserved needOverflowStatus argsInfo args memInfo
      (expandedArgs needOverflowStatus argsInfo memInfo args) newArgs) :
    ∀ off ∈ dataOffsets argsInfo, args.drop off.toNat <+:
      (expandedBytes (headSize needOverflowStatus argsInfo) memInfo args).drop
        (off + ptrSize).toNat := by
  have himage : newArgs = expandedBytes (headSize needOverflowStatus argsInfo) memInfo args :=
    (Option.some.inj hview.image).symm
  intro off hoff
  unfold dataOffsets at hoff
  rw [← himage]
  cases List.mem_append.mp hoff with
  | inl htiling =>
    split_ifs at htiling with hnone
    · exact absurd htiling List.not_mem_nil
    · have hdata := hview.tiling hnone
      have hmoved : (expandedArgs needOverflowStatus argsInfo memInfo
          args).argsInfo.tilingDataOffset = argsInfo.tilingDataOffset + ptrSize := if_neg hnone
      rw [hmoved] at hdata
      rw [List.mem_singleton.mp htiling]
      exact hdata
  | inr htable =>
    obtain ⟨old, hmem, rfl⟩ := List.mem_map.mp htable
    obtain ⟨i, hi⟩ := List.mem_iff_getElem?.mp hmem
    obtain ⟨new, hnew, -, hdata⟩ := hview.hostInputs i old hi
    rw [getElem?_expandedHostInputs hi] at hnew
    rw [← Option.some.inj hnew] at hdata
    exact hdata

end

def RtArgsEx.withArgs (argsInfo : RtArgsEx) (args : List UInt8) : RtArgsEx :=
  { argsInfo with args := some args }

theorem Accepted.expandArgs_withArgs {needOverflowStatus : Bool} {argsInfo : RtArgsEx}
    {memInfo : UInt64} (h : Accepted needOverflowStatus argsInfo memInfo) {args : List UInt8}
    (hlen : args.length = argsInfo.argsSize.toNat) :
    expandArgs needOverflowStatus (argsInfo.withArgs args) memInfo =
      some (expandedArgs needOverflowStatus argsInfo memInfo args) := by
  have hsame : Accepted needOverflowStatus (argsInfo.withArgs args) memInfo :=
    ⟨h.hasMemInfo, h.needsCopy, h.argsFit, h.headFits⟩
  have hargs : (argsInfo.withArgs args).args = some args := rfl
  exact (expandArgs_eq_some_iff hargs hlen).mpr ⟨hsame, rfl⟩

/-- For every accepted shape of the arguments, the view of the kernel is preserved for
all their contents exactly when each data offset lies behind a head of whole words. -/
theorem expandArgs_preserves_iff {needOverflowStatus : Bool} {argsInfo : RtArgsEx}
    {memInfo : UInt64} {image : List UInt8} {r : ExpandedArgs} (hargs : argsInfo.args = some image)
    (hlen : image.length = argsInfo.argsSize.toNat)
    (h : expandArgs needOverflowStatus argsInfo memInfo = some r) :
    (∀ args : List UInt8, args.length = argsInfo.argsSize.toNat →
      ∃ (r : ExpandedArgs) (newArgs : List UInt8),
        expandArgs needOverflowStatus (argsInfo.withArgs args) memInfo = some r ∧
        ViewPreserved needOverflowStatus argsInfo args memInfo r newArgs) ↔
      ∀ off ∈ dataOffsets argsInfo, off < argsInfo.argsSize →
        headSize needOverflowStatus argsInfo ≤ off ∧
          (headSize needOverflowStatus argsInfo).toNat % 8 = 0 := by
  have haccepted := ((expandArgs_eq_some_iff hargs hlen).mp h).1
  constructor
  · intro hall off hoff
    apply (haccepted.shift_iff off).mp
    intro args hsize
    obtain ⟨s, newArgs, hs, hview⟩ := hall args hsize
    rw [haccepted.expandArgs_withArgs hsize] at hs
    rw [← Option.some.inj hs] at hview
    exact hview.data off hoff
  · intro hdata args hsize
    have hview := haccepted.viewPreserved hsize fun off hoff =>
      (haccepted.shift_iff off).mpr (hdata off hoff) args hsize
    exact ⟨_, _, haccepted.expandArgs_withArgs hsize, hview⟩

theorem expandArgs_preserves_tilingLaunch :
    ∃ (r : ExpandedArgs) (newArgs : List UInt8),
      expandArgs false ⟨some (List.replicate 48 7), some [⟨8, 40⟩], 48, 16, 24, 1, 1, 0⟩ 0x5000 =
        some r ∧
      ViewPreserved false ⟨some (List.replicate 48 7), some [⟨8, 40⟩], 48, 16, 24, 1, 1, 0⟩
        (List.replicate 48 7) 0x5000 r newArgs := by
  have hiff := @expandArgs_preserves_iff false
    ⟨some (List.replicate 48 7), some [⟨8, 40⟩], 48, 16, 24, 1, 1, 0⟩ 0x5000
    (List.replicate 48 7) _ rfl rfl rfl
  have hdata : ∀ off ∈ ([24, 40] : List UInt32), off < 48 → (24 : UInt32) ≤ off ∧ 24 % 8 = 0 := by
    intro off hoff _
    cases List.mem_cons.mp hoff with
    | inl htiling =>
      rw [htiling]
      exact ⟨UInt32.le_refl 24, rfl⟩
    | inr hinput =>
      rw [List.mem_singleton.mp hinput]
      exact ⟨by decide, rfl⟩
  exact hiff.mpr hdata (List.replicate 48 7) rfl

def unalignedArgs : RtArgsEx :=
  ⟨some ((List.range 16).map UInt8.ofNat), some [⟨0, 12⟩], 16, 0, 0, 1, 0, 0⟩

/-- Its head is padded by four, and the offset of the host input is not. -/
theorem expandArgs_misplaces_hostInput :
    (expandArgs false unalignedArgs 0x1122334455667788).isSome = true ∧
    ¬ ∃ (r : ExpandedArgs) (newArgs : List UInt8),
      expandArgs false unalignedArgs 0x1122334455667788 = some r ∧
        ViewPreserved false unalignedArgs ((List.range 16).map UInt8.ofNat) 0x1122334455667788 r
          newArgs := by
  refine ⟨by decide, ?_⟩
  intro hexists
  obtain ⟨r, newArgs, hr, hview⟩ := hexists
  obtain ⟨new, hnew, -, hdata⟩ := hview.hostInputs 0 ⟨0, 12⟩ rfl
  have hr' : r = ⟨⟨some ([0, 1, 2, 3, 4, 5, 6, 7, 8, 9, 10, 11, 0, 0, 0, 0] ++
      [0x88, 0x77, 0x66, 0x55, 0x44, 0x33, 0x22, 0x11, 12, 13, 14, 15]),
      some [⟨0, 20⟩], 28, 0, 0, 1, 0, 0⟩, 16⟩ := Option.some.inj (hr.symm.trans (by decide))
  subst hr'
  rw [← Option.some.inj hview.image, ← Option.some.inj hnew] at hdata
  exact absurd hdata (by decide)

end Msopcom
