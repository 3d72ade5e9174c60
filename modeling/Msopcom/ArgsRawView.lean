import Msopcom.ArgsRawExpand
import Msopcom.GreatestKey
import Msopcom.InstrumentedLaunch
import Msopcom.LaunchArgsView

set_option autoImplicit false

/-!
# What a launch sees of its expanded raw arguments

The parameter goes in at the offset that `GetLastParamOffset` foretells. Behind it everything
moves on by its length, as the data offsets of the place holders do.
-/
namespace Msopcom.ArgsRaw
open GreatestKey Splice Words

namespace ArgsRawContext
variable {needOverflowStatus : Bool} {c : ArgsRawContext} {memory : Memory} {calls : Calls}
  {param : List UInt8}

theorem toNat_align (h : ¬ c.argsSize > maxAllParamSize) :
    (ceilByAlignSize alignSize c.argsSize).toNat = (c.argsSize.toNat + 7) / 8 * 8 := by
  have hle : c.argsSize.toNat ≤ 2 ^ 30 := UInt32.not_lt.mp h
  exact toNat_getAlignSize hle

theorem length_copySource : (c.copySource memory).length ≤ c.argsSize.toNat := by
  unfold copySource
  cases c.args with
  | null => exact Nat.zero_le _
  | address addr => exact List.length_take_le _ _
  | argsWithMemInfo => exact Nat.zero_le _

theorem length_resized (h : ¬ c.argsSize > maxAllParamSize) (copyArgs : Bool) :
    (c.resized memory copyArgs).length = (ceilByAlignSize alignSize c.argsSize).toNat := by
  have hsource := @length_copySource c memory
  have halign := toNat_align h
  unfold resized
  dsimp only
  rw [List.length_append, List.length_replicate]
  split_ifs
  · omega
  · rw [List.length_nil]
    omega

/-! ## The offset -/

/-- What is inserted is inserted at the offset that was foretold. -/
theorem expandArgs_eq (h : ¬ c.argsSize > maxAllParamSize) :
    c.expandArgs needOverflowStatus memory calls param =
      let paramOffset := c.getLastParamOffset needOverflowStatus
      let delivered :=
        (c.inserted (c.resized memory calls.copyArgs) param paramOffset).deliver memory calls
      ⟨delivered.1, some paramOffset, delivered.2.1, delivered.2.2⟩ := by
  have hoffset : (if c.placeHolderArray = [] then
        UInt32.ofNat (c.resized memory calls.copyArgs).length
      else c.behindLastAddr needOverflowStatus) = c.getLastParamOffset needOverflowStatus := by
    unfold getLastParamOffset
    rw [if_neg h, length_resized h, UInt32.ofNat_toNat]
  unfold expandArgs
  rw [if_neg h]
  dsimp only
  rw [hoffset]

theorem paramOffset_expandArgs :
    (c.expandArgs needOverflowStatus memory calls param).paramOffset =
      if c.argsSize > maxAllParamSize then none
      else some (c.getLastParamOffset needOverflowStatus) := by
  by_cases h : c.argsSize > maxAllParamSize
  · unfold expandArgs
    rw [if_pos h, if_pos h]
  · rw [expandArgs_eq h, if_neg h]

end ArgsRawContext

theorem memInfoOffset_placeMemInfo (l : InstrumentedLaunch.HandleHook.Launch)
    {argsInfo : RtArgsEx} {args : List UInt8} {memInfo : UInt64} {placed : ArgsWithMemInfo}
    (h : placeMemInfo l.needOverflowStatus argsInfo args memInfo = some placed) :
    placed.memInfoOffset = InstrumentedLaunch.HandleHook.getArgsSize l argsInfo := by
  have hfill {headSize : UInt32}
      (hplaced : fillArgsWithMemInfo args argsInfo.argsSize memInfo headSize = some placed) :
      placed.memInfoOffset = getAlignSize headSize := by
    unfold fillArgsWithMemInfo at hplaced
    split_ifs at hplaced
    rw [← Option.some.inj hplaced]
  unfold placeMemInfo at h
  unfold InstrumentedLaunch.HandleHook.getArgsSize
  split_ifs at h ⊢ with htiling
  · cases htable : argsInfo.hostInputInfoPtr with
    | none =>
      rw [htable] at h
      rw [← Option.some.inj h]
      rfl
    | some table =>
      rw [htable] at h
      exact hfill h
  · exact hfill h

/-- The offset for the kernel is the one at which the pointer is put, for both kinds of
arguments. -/
theorem offsets_agree :
    (∀ (l : InstrumentedLaunch.HandleHook.Launch) (argsInfo : RtArgsEx) (memInfo : UInt64)
      (expanded : ExpandedArgs), Msopcom.expandArgs l.needOverflowStatus argsInfo memInfo =
        some expanded →
      InstrumentedLaunch.HandleHook.getArgsSize l argsInfo = expanded.memInfoOffset) ∧
    ∀ (needOverflowStatus : Bool) (c : ArgsRawContext) (memory : Memory) (calls : Calls)
      (param : List UInt8) (paramOffset : UInt32),
      (c.expandArgs needOverflowStatus memory calls param).paramOffset = some paramOffset →
      c.getLastParamOffset needOverflowStatus = paramOffset := by
  constructor
  · intro l argsInfo memInfo expanded h
    unfold Msopcom.expandArgs at h
    cases hargs : argsInfo.args with
    | none => simp [hargs] at h
    | some args =>
      simp only [hargs] at h
      split_ifs at h
      all_goals
        obtain ⟨placed, hplaced, rfl⟩ := Option.map_eq_some_iff.mp h
        exact (memInfoOffset_placeMemInfo l hplaced).symm
  · intro needOverflowStatus c memory calls param paramOffset h
    rw [ArgsRawContext.paramOffset_expandArgs] at h
    split_ifs at h
    exact Option.some.inj h

def args24 : List UInt8 := List.replicate 8 9 ++ Bytes.leBytes 8 5 ++ List.replicate 8 3

/-- Three words in host memory, the second of which is the slot of the third. -/
def hostContext : ArgsRawContext where
  args := .address 0x1000
  argsSize := 24
  isDeviceArgs := false
  placeHolderArray := [⟨8, 16⟩]
  host_of_placeHolder h := absurd h Bool.false_ne_true

def memory24 : Memory := Function.update (fun _ => none) 0x1000 (some args24)

def behindSlotArgs : RtArgsEx :=
  { args := some args24, argsSize := 24, tilingAddrOffset := 8, tilingDataOffset := 16,
    hasTiling := 1 }

theorem offsets_agree_behindSlot :
    InstrumentedLaunch.HandleHook.getArgsSize
        ⟨none, false, true, .sanitizing { dbi := .replaced, memInfo := 0x5000 }⟩ behindSlotArgs = 16 ∧
      hostContext.getLastParamOffset false = 16 :=
  ⟨offsets_agree.1 ⟨none, false, true, .sanitizing { dbi := .replaced, memInfo := 0x5000 }⟩
      behindSlotArgs 0x5000 _ rfl,
    offsets_agree.2 false hostContext memory24 ⟨true, .failed false, false⟩ (pointerBytes 0x5000)
      16 rfl⟩

/-! ## The bytes -/

namespace ArgsRawContext
variable {needOverflowStatus : Bool} {c : ArgsRawContext} {memory : Memory} {calls : Calls}
  {args param : List UInt8}

@[simp] theorem placeHolderArray_freeArgs :
    (c.freeArgs memory).1.placeHolderArray = c.placeHolderArray := by
  unfold freeArgs
  split_ifs <;> rfl

@[simp] theorem argsWithMemInfo_freeArgs :
    (c.freeArgs memory).1.argsWithMemInfo = c.argsWithMemInfo := by
  unfold freeArgs
  split_ifs <;> rfl

theorem deliver_host (h : c.isDeviceArgs = false) :
    c.deliver memory calls = (true, { c with args := .argsWithMemInfo }, memory) := by
  unfold deliver
  rw [if_pos (by rw [h]; rfl)]

theorem deliver_failed (h : c.isDeviceArgs = true) {cleared : Bool}
    (hmalloc : calls.malloc = .failed cleared) :
    c.deliver memory calls =
      (false, { (c.freeArgs memory).1 with
          args := if cleared then .null else (c.freeArgs memory).1.args },
        (c.freeArgs memory).2) := by
  unfold deliver
  rw [if_neg (by rw [h]; exact Bool.false_ne_true), hmalloc]

theorem deliver_done (h : c.isDeviceArgs = true) {addr : UInt64}
    (hmalloc : calls.malloc = .done addr) :
    c.deliver memory calls =
      (calls.copyBack, { (c.freeArgs memory).1 with args := .address addr, needFree := true },
        Function.update (c.freeArgs memory).2 addr
          (if calls.copyBack then some (c.freeArgs memory).1.argsWithMemInfo else none)) := by
  unfold deliver
  rw [if_neg (by rw [h]; exact Bool.false_ne_true), hmalloc]

/-- Wherever the arguments are to be, they are what is in the vector. -/
theorem argsBytes_deliver (h : (c.deliver memory calls).1 = true) :
    (c.deliver memory calls).2.1.argsBytes (c.deliver memory calls).2.2 =
        some c.argsWithMemInfo ∧
      (c.deliver memory calls).2.1.placeHolderArray = c.placeHolderArray := by
  cases hdevice : c.isDeviceArgs with
  | false =>
    rw [deliver_host hdevice]
    exact ⟨rfl, rfl⟩
  | true =>
    cases hmalloc : calls.malloc with
    | failed cleared =>
      rw [deliver_failed hdevice hmalloc] at h
      exact absurd h Bool.false_ne_true
    | done addr =>
      rw [deliver_done hdevice hmalloc] at h ⊢
      refine ⟨?_, placeHolderArray_freeArgs⟩
      unfold argsBytes
      dsimp only
      rw [Function.update_self, if_pos h, argsWithMemInfo_freeArgs]

end ArgsRawContext

/-- The bytes that an address slot takes, with those of the overflow status behind it. -/
def slotSize (needOverflowStatus : Bool) : ℕ := if needOverflowStatus then 16 else 8

/-- The slots are in the arguments, and all data is behind all slots. -/
structure PlaceHoldersFit (needOverflowStatus : Bool) (c : ArgsRawContext) : Prop where
  slots : ∀ p ∈ c.placeHolderArray,
    p.addrOffset.toNat + slotSize needOverflowStatus ≤ c.argsSize.toNat
  data : ∀ p ∈ c.placeHolderArray, ∀ q ∈ c.placeHolderArray,
    q.addrOffset.toNat + slotSize needOverflowStatus ≤ p.dataOffset.toNat

/-- The bytes of `args` from the data offset of a place holder on are found in `bytes` from its
new one on. -/
def SameData (args bytes : List UInt8) (old new : HostInputInfo) : Prop :=
  new.addrOffset = old.addrOffset ∧ ∀ k, old.dataOffset.toNat + k < args.length →
    bytes[new.dataOffset.toNat + k]? = args[old.dataOffset.toNat + k]?

/-- The parameter is at the offset, and the kernel finds everything else. -/
structure View (args bytes param : List UInt8) (paramOffset : ℕ) (old new : List HostInputInfo) :
    Prop where
  param : (bytes.drop paramOffset).take param.length = param
  before : ∀ k < paramOffset, k < args.length → bytes[k]? = args[k]?
  data : List.Forall₂ (SameData args bytes) old new
  slots : ∀ p ∈ old, ∀ k < 8, bytes[p.addrOffset.toNat + k]? = args[p.addrOffset.toNat + k]?

/-- A byte that the kernel looks for: before the parameter, or in the data of a place holder. -/
def Relevant (needOverflowStatus : Bool) (c : ArgsRawContext) (k : ℕ) : Prop :=
  k < (c.getLastParamOffset needOverflowStatus).toNat ∨
    ∃ p ∈ c.placeHolderArray, p.dataOffset.toNat ≤ k

/-- The bytes come through the copy, or there are only zeros to lose. -/
def Arrives (needOverflowStatus : Bool) (c : ArgsRawContext) (calls : Calls)
    (args : List UInt8) : Prop :=
  (calls.copyArgs = true ∧ c.args ≠ .argsWithMemInfo) ∨
    ∀ k < args.length, Relevant needOverflowStatus c k → args[k]? = some 0

/-- The place holder that a search from the cleared one ends with. -/
def lastPlaceHolder (placeHolderArray : List HostInputInfo) : HostInputInfo :=
  placeHolderArray.foldl (keep fun p => p.addrOffset.toNat) ⟨0, 0⟩

namespace ArgsRawContext
variable {needOverflowStatus : Bool} {c : ArgsRawContext} {memory : Memory} {calls : Calls}
  {args param : List UInt8}

theorem toNat_lastAddrOffset :
    c.lastAddrOffset.toNat = (lastPlaceHolder c.placeHolderArray).addrOffset.toNat := by
  have hmax : c.placeHolderArray.foldl (fun last p => max last p.addrOffset.toNat)
      (0 : UInt32).toNat = c.lastAddrOffset.toNat := by
    unfold lastAddrOffset
    exact List.foldl_hom UInt32.toNat fun last p => (toNat_max32 last p.addrOffset).symm
  rw [← hmax]
  exact foldl_max_key (fun p : HostInputInfo => p.addrOffset.toNat) ⟨0, 0⟩ c.placeHolderArray

theorem addrOffset_le_last {p : HostInputInfo} (hp : p ∈ c.placeHolderArray) :
    p.addrOffset.toNat ≤ c.lastAddrOffset.toNat := by
  rw [toNat_lastAddrOffset]
  exact key_le (fun p : HostInputInfo => p.addrOffset.toNat) ⟨0, 0⟩ hp

theorem exists_lastAddrOffset (h : c.placeHolderArray ≠ []) :
    ∃ p ∈ c.placeHolderArray, p.addrOffset.toNat = c.lastAddrOffset.toNat := by
  rw [toNat_lastAddrOffset]
  have hmem := foldl_keep_mem (fun p : HostInputInfo => p.addrOffset.toNat) ⟨0, 0⟩
    c.placeHolderArray
  cases List.mem_cons.mp hmem with
  | inl hzero =>
    -- nothing is above 0, so that any place holder will do
    obtain ⟨p, hp⟩ := List.exists_mem_of_ne_nil _ h
    have hle := addrOffset_le_last hp
    rw [toNat_lastAddrOffset] at hle
    refine ⟨p, hp, ?_⟩
    unfold lastPlaceHolder at hle ⊢
    rw [hzero] at hle ⊢
    exact Nat.le_antisymm hle (Nat.zero_le _)
  | inr hlast => exact ⟨_, hlast, rfl⟩

end ArgsRawContext

/-! ## The offset of the parameter among the others -/

section
variable {needOverflowStatus : Bool} {c : ArgsRawContext}

theorem toNat_ptrSize_add {a : UInt32} (h : a.toNat + 8 < 2 ^ 32) :
    (a + ptrSize).toNat = a.toNat + 8 := toNat_add32 h

/-- The parameter comes right behind the last slot. -/
theorem PlaceHoldersFit.toNat_offset (hfit : PlaceHoldersFit needOverflowStatus c)
    (h : ¬ c.argsSize > maxAllParamSize) (hne : c.placeHolderArray ≠ []) :
    (c.getLastParamOffset needOverflowStatus).toNat =
      c.lastAddrOffset.toNat + slotSize needOverflowStatus := by
  obtain ⟨p, hp, hlast⟩ := ArgsRawContext.exists_lastAddrOffset hne
  have hslot := hfit.slots p hp
  have hsize : c.argsSize.toNat ≤ 2 ^ 30 := UInt32.not_lt.mp h
  have hptr : (c.lastAddrOffset + ptrSize).toNat = c.lastAddrOffset.toNat + 8 := by
    unfold slotSize at hslot
    exact toNat_ptrSize_add (by split_ifs at hslot <;> omega)
  unfold ArgsRawContext.getLastParamOffset ArgsRawContext.behindLastAddr slotSize
  unfold slotSize at hslot
  rw [if_neg h, if_neg hne]
  dsimp only
  cases needOverflowStatus with
  | false => exact hptr
  | true =>
    simp only [if_true] at hslot ⊢
    rw [toNat_ptrSize_add (by omega), hptr]

/-- It comes in within the arguments. -/
theorem PlaceHoldersFit.offset_le (hfit : PlaceHoldersFit needOverflowStatus c)
    (h : ¬ c.argsSize > maxAllParamSize) :
    (c.getLastParamOffset needOverflowStatus).toNat ≤
      (ceilByAlignSize alignSize c.argsSize).toNat := by
  by_cases hne : c.placeHolderArray = []
  · unfold ArgsRawContext.getLastParamOffset
    rw [if_neg h, if_pos hne]
  · obtain ⟨p, hp, hlast⟩ := ArgsRawContext.exists_lastAddrOffset hne
    have hslot := hfit.slots p hp
    rw [hfit.toNat_offset h hne, ArgsRawContext.toNat_align h]
    omega

/-- The slots are before it. -/
theorem PlaceHoldersFit.slot_before (hfit : PlaceHoldersFit needOverflowStatus c)
    (h : ¬ c.argsSize > maxAllParamSize) {p : HostInputInfo} (hp : p ∈ c.placeHolderArray) :
    p.addrOffset.toNat + 8 ≤ (c.getLastParamOffset needOverflowStatus).toNat := by
  have hle := ArgsRawContext.addrOffset_le_last hp
  have hslot : 8 ≤ slotSize needOverflowStatus := by
    unfold slotSize
    split_ifs <;> omega
  rw [hfit.toNat_offset h (List.ne_nil_of_mem hp)]
  omega

/-- The data is behind it. -/
theorem PlaceHoldersFit.data_behind (hfit : PlaceHoldersFit needOverflowStatus c)
    (h : ¬ c.argsSize > maxAllParamSize) {p : HostInputInfo} (hp : p ∈ c.placeHolderArray) :
    (c.getLastParamOffset needOverflowStatus).toNat ≤ p.dataOffset.toNat := by
  obtain ⟨q, hq, hlast⟩ := ArgsRawContext.exists_lastAddrOffset (List.ne_nil_of_mem hp)
  have hdata := hfit.data p hp q hq
  rw [hfit.toNat_offset h (List.ne_nil_of_mem hp)]
  omega

/-! ## The view -/

variable {memory : Memory} {calls : Calls} {args param : List UInt8}

/-- The new arguments show the old ones exactly as far as the copy has them. -/
theorem PlaceHoldersFit.view_iff (hfit : PlaceHoldersFit needOverflowStatus c)
    (h : ¬ c.argsSize > maxAllParamSize) (hlen : args.length = c.argsSize.toNat)
    (hsum : args.length + param.length < 2 ^ 32) {buffer : List UInt8}
    (hbuffer : buffer.length = (ceilByAlignSize alignSize c.argsSize).toNat) :
    View args (splice (c.getLastParamOffset needOverflowStatus).toNat [] param buffer) param
        (c.getLastParamOffset needOverflowStatus).toNat c.placeHolderArray
        (c.shifted param.length) ↔
      ∀ k < args.length, Relevant needOverflowStatus c k → buffer[k]? = args[k]? := by
  let off := (c.getLastParamOffset needOverflowStatus).toNat
  have hoff : off ≤ buffer.length := hbuffer ▸ hfit.offset_le h
  have hbefore {k : ℕ} (hk : k < off) :
      (splice off [] param buffer)[k]? = buffer[k]? := getElem?_splice_of_lt [] param hoff hk
  have hbehind {k : ℕ} (hk : off ≤ k) :
      (splice off [] param buffer)[k + param.length]? = buffer[k]? :=
    getElem?_splice_of_le [] param hoff hk
  have hmoved {p : HostInputInfo} (hp : p.dataOffset.toNat < args.length) :
      (p.dataOffset + UInt32.ofNat param.length).toNat = p.dataOffset.toNat + param.length := by
    have hparam : (UInt32.ofNat param.length).toNat = param.length := toNat_ofNat32 (by omega)
    rw [toNat_add32 (by omega), hparam]
  have hdata {p : HostInputInfo} (hp : p ∈ c.placeHolderArray) {k : ℕ}
      (hk : p.dataOffset.toNat + k < args.length) :
      (splice off [] param buffer)[(p.dataOffset + UInt32.ofNat param.length).toNat + k]? =
        buffer[p.dataOffset.toNat + k]? := by
    have hle := hfit.data_behind h hp
    rw [hmoved (by omega), Nat.add_right_comm]
    exact hbehind (by omega)
  constructor
  · intro hview k hk hrelevant
    cases hrelevant with
    | inl hlt => rw [← hbefore hlt, hview.before k hlt hk]
    | inr hplaced =>
      obtain ⟨p, hp, hle⟩ := hplaced
      have hsame := List.forall₂_same.mp (List.forall₂_map_right_iff.mp hview.data) p hp
      have hsplit : p.dataOffset.toNat + (k - p.dataOffset.toNat) = k := Nat.add_sub_cancel' hle
      have hat := hsame.2 (k - p.dataOffset.toNat) (by omega)
      rw [hdata hp (by omega), hsplit] at hat
      exact hat
  · intro hsame
    constructor
    case param => simpa using piece_splice [] param hoff
    case before =>
      intro k hlt hk
      rw [hbefore hlt]
      exact hsame k hk (.inl hlt)
    case data =>
      refine List.forall₂_map_right_iff.mpr (List.forall₂_same.mpr ?_)
      intro p hp
      refine ⟨rfl, ?_⟩
      intro k hk
      rw [hdata hp hk]
      exact hsame _ hk (.inr ⟨p, hp, Nat.le_add_right _ _⟩)
    case slots =>
      intro p hp k hk
      have hbound := hfit.slots p hp
      have hbefore' := hfit.slot_before h hp
      have hslot : 8 ≤ slotSize needOverflowStatus := by
        unfold slotSize
        split_ifs <;> omega
      rw [hbefore (by omega)]
      exact hsame _ (by omega) (.inl (by omega))

theorem ArgsRawContext.resized_of_empty {copyArgs : Bool}
    (h : copyArgs = false ∨ c.args = .argsWithMemInfo) :
    c.resized memory copyArgs =
      List.replicate (ceilByAlignSize alignSize c.argsSize).toNat 0 := by
  have hcopied : (if copyArgs then c.copySource memory else []) = [] := by
    cases h with
    | inl hcopy => rw [hcopy, if_neg Bool.false_ne_true]
    | inr hvector =>
      unfold copySource
      rw [hvector]
      exact ite_self _
  unfold resized
  dsimp only
  rw [hcopied, List.nil_append, List.length_nil, Nat.sub_zero]

theorem ArgsRawContext.getElem?_resized_of_copied (hargs : c.argsBytes memory = some args)
    (hlen : args.length = c.argsSize.toNat) (hown : c.args ≠ .argsWithMemInfo) {k : ℕ}
    (hk : k < args.length) : (c.resized memory true)[k]? = args[k]? := by
  have hsource : c.copySource memory = args := by
    unfold argsBytes at hargs
    unfold copySource
    cases hptr : c.args with
    | null => simp [hptr] at hargs
    | address addr =>
      simp only [hptr] at hargs ⊢
      rw [hargs, Option.getD_some, ← hlen, List.take_length]
    | argsWithMemInfo => exact absurd hptr hown
  unfold resized
  dsimp only
  rw [if_pos rfl, hsource, List.getElem?_append_left hk]

/-- What the copy has is what there was, unless it had nothing to have. -/
theorem ArgsRawContext.copied_iff (h : ¬ c.argsSize > maxAllParamSize)
    (hargs : c.argsBytes memory = some args) (hlen : args.length = c.argsSize.toNat) :
    (∀ k < args.length, Relevant needOverflowStatus c k →
      (c.resized memory calls.copyArgs)[k]? = args[k]?) ↔
      Arrives needOverflowStatus c calls args := by
  unfold Arrives
  by_cases hcopied : calls.copyArgs = true ∧ c.args ≠ .argsWithMemInfo
  · apply iff_of_true
    · intro k hk _
      rw [hcopied.1]
      exact getElem?_resized_of_copied hargs hlen hcopied.2 hk
    · exact .inl hcopied
  · have hempty : calls.copyArgs = false ∨ c.args = .argsWithMemInfo := by
      cases hcopy : calls.copyArgs with
      | false => exact .inl rfl
      | true => exact .inr (by_contra fun hown => hcopied ⟨hcopy, hown⟩)
    have hzero {k : ℕ} (hk : k < args.length) :
        (c.resized memory calls.copyArgs)[k]? = some 0 := by
      have halign := toNat_align h
      rw [resized_of_empty hempty]
      exact List.getElem?_replicate_of_lt (by omega)
    rw [or_iff_right hcopied]
    constructor
    · intro hall k hk hrelevant
      rw [← hall k hk hrelevant, hzero hk]
    · intro hall k hk hrelevant
      rw [hall k hk hrelevant, hzero hk]

/-- After a successful expansion the kernel finds its arguments and the parameter, exactly when
the first copy got hold of the arguments. -/
theorem expandArgs_keeps_iff (hfit : PlaceHoldersFit needOverflowStatus c)
    (hargs : c.argsBytes memory = some args) (hlen : args.length = c.argsSize.toNat)
    (hsum : args.length + param.length < 2 ^ 32)
    (hret : (c.expandArgs needOverflowStatus memory calls param).ret = true) :
    (∃ paramOffset bytes,
      (c.expandArgs needOverflowStatus memory calls param).paramOffset = some paramOffset ∧
      (c.expandArgs needOverflowStatus memory calls param).ctx.argsBytes
        (c.expandArgs needOverflowStatus memory calls param).memory = some bytes ∧
      View args bytes param paramOffset.toNat c.placeHolderArray
        (c.expandArgs needOverflowStatus memory calls param).ctx.placeHolderArray) ↔
      Arrives needOverflowStatus c calls args := by
  have h : ¬ c.argsSize > maxAllParamSize := by
    intro hmax
    unfold ArgsRawContext.expandArgs at hret
    rw [if_pos hmax] at hret
    exact Bool.false_ne_true hret
  rw [ArgsRawContext.expandArgs_eq h] at hret ⊢
  dsimp only at hret ⊢
  obtain ⟨hbytes, hplaced⟩ := ArgsRawContext.argsBytes_deliver hret
  have hlength : (c.resized memory calls.copyArgs).length =
      (ceilByAlignSize alignSize c.argsSize).toNat := ArgsRawContext.length_resized h _
  rw [← ArgsRawContext.copied_iff h hargs hlen, ← hfit.view_iff h hlen hsum hlength, hbytes,
    hplaced]
  constructor
  · intro hexists
    obtain ⟨paramOffset, bytes, hoffset, hsome, hview⟩ := hexists
    rw [← Option.some.inj hoffset, ← Option.some.inj hsome] at hview
    exact hview
  · intro hview
    exact ⟨_, _, rfl, rfl, hview⟩

end

def deviceContext : ArgsRawContext where
  args := .address 0x1000
  argsSize := 24
  isDeviceArgs := true
  host_of_placeHolder _ := rfl

theorem placeHoldersFit_hostContext : PlaceHoldersFit false hostContext := by
  constructor
  · intro p hp
    rw [List.mem_singleton.mp hp]
    decide
  · intro p hp q hq
    rw [List.mem_singleton.mp hp, List.mem_singleton.mp hq]
    decide

theorem expandArgs_preserves_hostContext :
    ∃ paramOffset bytes,
      (hostContext.expandArgs false memory24 ⟨true, .failed false, false⟩
        (pointerBytes 0x5000)).paramOffset = some paramOffset ∧
      (hostContext.expandArgs false memory24 ⟨true, .failed false, false⟩
        (pointerBytes 0x5000)).ctx.argsBytes
        (hostContext.expandArgs false memory24 ⟨true, .failed false, false⟩
          (pointerBytes 0x5000)).memory = some bytes ∧
      View args24 bytes (pointerBytes 0x5000) paramOffset.toNat [⟨8, 16⟩]
        (hostContext.expandArgs false memory24 ⟨true, .failed false, false⟩
          (pointerBytes 0x5000)).ctx.placeHolderArray := by
  have hargs : hostContext.argsBytes memory24 = some args24 := by decide
  have hiff := @expandArgs_keeps_iff false hostContext memory24 ⟨true, .failed false, false⟩
    args24 (pointerBytes 0x5000) placeHoldersFit_hostContext hargs rfl (by decide) rfl
  exact hiff.mpr (.inl ⟨rfl, by decide⟩)

/-- The runtime refuses to copy the arguments from the device, and the expansion is a success. -/
theorem expandArgs_loses_deviceContext :
    PlaceHoldersFit false deviceContext ∧ deviceContext.argsBytes memory24 = some args24 ∧
      args24.length = deviceContext.argsSize.toNat ∧
      (deviceContext.expandArgs false memory24 ⟨false, .done 0x2000, true⟩
        (pointerBytes 0x5000)).ret = true ∧
      ¬ ∃ paramOffset bytes,
        (deviceContext.expandArgs false memory24 ⟨false, .done 0x2000, true⟩
          (pointerBytes 0x5000)).paramOffset = some paramOffset ∧
        (deviceContext.expandArgs false memory24 ⟨false, .done 0x2000, true⟩
          (pointerBytes 0x5000)).ctx.argsBytes
          (deviceContext.expandArgs false memory24 ⟨false, .done 0x2000, true⟩
            (pointerBytes 0x5000)).memory = some bytes ∧
        View args24 bytes (pointerBytes 0x5000) paramOffset.toNat [] [] := by
  have hfit : PlaceHoldersFit false deviceContext := by
    constructor
    · intro p hp
      exact absurd hp List.not_mem_nil
    · intro p hp
      exact absurd hp List.not_mem_nil
  refine ⟨hfit, by decide, rfl, rfl, ?_⟩
  intro hexists
  obtain ⟨paramOffset, bytes, hoffset, hbytes, hview⟩ := hexists
  have hzero : (deviceContext.expandArgs false memory24 ⟨false, .done 0x2000, true⟩
      (pointerBytes 0x5000)).ctx.argsBytes
      (deviceContext.expandArgs false memory24 ⟨false, .done 0x2000, true⟩
        (pointerBytes 0x5000)).memory =
      some (List.replicate 24 0 ++ pointerBytes 0x5000) := by decide
  have hbefore := hview.before 0
  rw [← Option.some.inj hoffset, ← Option.some.inj (hzero.symm.trans hbytes)] at hbefore
  exact absurd (hbefore (by decide) (by decide)) (by decide)

end Msopcom.ArgsRaw
