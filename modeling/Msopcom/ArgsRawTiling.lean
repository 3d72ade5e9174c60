import Msopcom.ArgsRawView
import Msopcom.ReportOp

set_option autoImplicit false

/-!
# The place holder of the tiling data

The place holder with the greatest address offset is looked for in three places. Two of the
searches start from a cleared place holder, which counts as found when no offset is above 0.
-/
namespace Msopcom.ArgsRaw
open GreatestKey

/-- The search of `GetTilingData`. -/
def searchTilingInfo (placeHolderArray : List HostInputInfo) : HostInputInfo :=
  placeHolderArray.foldl (fun tilingInfo placeHolder =>
    if placeHolder.addrOffset > tilingInfo.addrOffset then
      { addrOffset := placeHolder.addrOffset, dataOffset := placeHolder.dataOffset }
    else tilingInfo) ⟨0, 0⟩

/-- The `size` bytes from `offset` on of a buffer without end. -/
def bytesAt (buff : ℕ → UInt8) (offset size : ℕ) : List UInt8 :=
  (List.range size).map fun i => buff (offset + i)

/-- The size of the data is not known here: it is that of the vector. -/
def ArgsRawContext.getTilingData (c : ArgsRawContext) (buff : ℕ → UInt8) (data : List UInt8) :
    Bool × List UInt8 :=
  if c.placeHolderArray = [] ∨ data = [] then (false, data)
  else (true, bytesAt buff (searchTilingInfo c.placeHolderArray).dataOffset.toNat data.length)

section
variable {placeHolderArray : List HostInputInfo}

theorem searchTilingInfo_eq : searchTilingInfo placeHolderArray = lastPlaceHolder placeHolderArray :=
  rfl

theorem tilingPlaceHolder_eq :
    tilingPlaceHolder placeHolderArray = lastPlaceHolder placeHolderArray := rfl

theorem addrOffset_le_lastPlaceHolder {p : HostInputInfo} (hp : p ∈ placeHolderArray) :
    p.addrOffset ≤ (lastPlaceHolder placeHolderArray).addrOffset :=
  UInt32.le_iff_toNat_le.mpr (key_le (fun p : HostInputInfo => p.addrOffset.toNat) ⟨0, 0⟩ hp)

/-- The search finds one of the place holders, unless all are at 0 and none is cleared. -/
theorem lastPlaceHolder_mem_iff :
    lastPlaceHolder placeHolderArray ∈ placeHolderArray ↔
      (∃ p ∈ placeHolderArray, p.addrOffset ≠ 0) ∨ ⟨0, 0⟩ ∈ placeHolderArray := by
  by_cases habove : ∃ p ∈ placeHolderArray, p.addrOffset ≠ 0
  · apply iff_of_true _ (.inl habove)
    obtain ⟨p, hp, hne⟩ := habove
    have hpos : (0 : UInt32).toNat < p.addrOffset.toNat :=
      Nat.pos_of_ne_zero fun hzero => hne (UInt32.toNat_inj.mp hzero)
    exact foldl_keep_mem_of_lt (fun p : HostInputInfo => p.addrOffset.toNat) hp hpos
  · have hstart : lastPlaceHolder placeHolderArray = ⟨0, 0⟩ := by
      apply foldl_keep_eq_init
      intro p hp
      have hzero : p.addrOffset = 0 := by_contra fun hne => habove ⟨p, hp, hne⟩
      rw [hzero]
    rw [or_iff_right habove, hstart]

end

/-- What the three places take for the place holder of the tiling data. -/
structure Found (c : ArgsRawContext) (launchArgs : AclrtLaunchArgsInfo) (p : HostInputInfo) :
    Prop where
  getTilingData : searchTilingInfo c.placeHolderArray = p
  expandArgs : c.lastAddrOffset = p.addrOffset
  reportOpMallocInfo : tilingPlaceHolder launchArgs.hostInputs = p

theorem found_iff {c : ArgsRawContext} {launchArgs : AclrtLaunchArgsInfo}
    (hsame : launchArgs.hostInputs = c.placeHolderArray) {p : HostInputInfo} :
    Found c launchArgs p ↔ lastPlaceHolder c.placeHolderArray = p := by
  constructor
  · intro h
    rw [← searchTilingInfo_eq]
    exact h.getTilingData
  · intro h
    constructor
    case getTilingData =>
      rw [searchTilingInfo_eq]
      exact h
    case expandArgs =>
      rw [← h]
      exact UInt32.toNat_inj.mp ArgsRawContext.toNat_lastAddrOffset
    case reportOpMallocInfo =>
      rw [hsame, tilingPlaceHolder_eq]
      exact h

/-- All three find a place holder with the greatest address offset and `GetTilingData` its data,
exactly when an offset is above 0 or a place holder is cleared. -/
theorem searches_agree_iff {c : ArgsRawContext} {launchArgs : AclrtLaunchArgsInfo}
    (hne : c.placeHolderArray ≠ []) (hsame : launchArgs.hostInputs = c.placeHolderArray)
    (buff : ℕ → UInt8) :
    (∃ p ∈ c.placeHolderArray, (∀ q ∈ c.placeHolderArray, q.addrOffset ≤ p.addrOffset) ∧
      Found c launchArgs p ∧
      ∀ data, (c.getTilingData buff data).2 = bytesAt buff p.dataOffset.toNat data.length) ↔
      (∃ p ∈ c.placeHolderArray, p.addrOffset ≠ 0) ∨ ⟨0, 0⟩ ∈ c.placeHolderArray := by
  rw [← lastPlaceHolder_mem_iff]
  constructor
  · intro hexists
    obtain ⟨p, hp, -, hfound, -⟩ := hexists
    rw [(found_iff hsame).mp hfound]
    exact hp
  · intro hmem
    refine ⟨_, hmem, fun q hq => addrOffset_le_lastPlaceHolder hq, (found_iff hsame).mpr rfl, ?_⟩
    intro data
    unfold ArgsRawContext.getTilingData
    by_cases hdata : data = []
    · rw [if_pos (.inr hdata), hdata]
      rfl
    · rw [if_neg (not_or_intro hne hdata), searchTilingInfo_eq]

def launchArgsOf (c : ArgsRawContext) : AclrtLaunchArgsInfo :=
  ⟨some args24, 24, some c.placeHolderArray, UInt64.ofNat c.placeHolderArray.length⟩

theorem searches_agree_hostContext :
    ∃ p ∈ hostContext.placeHolderArray,
      (∀ q ∈ hostContext.placeHolderArray, q.addrOffset ≤ p.addrOffset) ∧
      Found hostContext (launchArgsOf hostContext) p ∧
      ∀ data, (hostContext.getTilingData UInt8.ofNat data).2 =
        bytesAt UInt8.ofNat p.dataOffset.toNat data.length :=
  (searches_agree_iff (List.cons_ne_nil _ _) rfl UInt8.ofNat).mpr
    (.inl ⟨⟨8, 16⟩, List.mem_singleton.mpr rfl, by decide⟩)

/-- A kernel whose only slot comes first. -/
def firstSlotContext : ArgsRawContext where
  args := .address 0x1000
  argsSize := 24
  isDeviceArgs := false
  placeHolderArray := [⟨0, 16⟩]
  host_of_placeHolder h := absurd h Bool.false_ne_true

/-- Its data is looked for at the start of the arguments. -/
theorem searches_miss_firstSlot :
    (firstSlotContext.getTilingData UInt8.ofNat [7]).2 = [0] ∧ bytesAt UInt8.ofNat 16 1 = [16] ∧
      ¬ ∃ p ∈ firstSlotContext.placeHolderArray,
        (∀ q ∈ firstSlotContext.placeHolderArray, q.addrOffset ≤ p.addrOffset) ∧
        Found firstSlotContext (launchArgsOf firstSlotContext) p ∧
        ∀ data, (firstSlotContext.getTilingData UInt8.ofNat data).2 =
          bytesAt UInt8.ofNat p.dataOffset.toNat data.length := by
  refine ⟨by decide, by decide, ?_⟩
  intro hexists
  obtain ⟨p, hp, -, hfound, -⟩ := hexists
  rw [List.mem_singleton.mp hp] at hfound
  exact absurd hfound.getTilingData (by decide)

end Msopcom.ArgsRaw
