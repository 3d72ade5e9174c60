import Msopcom.MetaWalk

set_option autoImplicit false

/-!
# What a record says

The parts of an argument record that the parser keeps, and what it makes of a list of
records.
-/
namespace Msopcom.MetaRecordView
open MetaWalk

/-- The length is the second word of the record; the data type size of a second-level
pointer is the third. -/
structure RecordView where
  handler : DfxHandler
  length : UInt64
  dtypeBytes : Option UInt64
  deriving DecidableEq, Repr

namespace RecordView

def second (v : RecordView) (paramsIdx : UInt32) (memInfo : MetaMemInfo) : MetaMemInfo :=
  match v.dtypeBytes with
  | some dtypeBytes =>
    { memInfo with
      secondPtrAddrInfos :=
        memInfo.secondPtrAddrInfos.insert paramsIdx.toUInt64 { dtypeBytes := dtypeBytes } }
  | none => memInfo

def store (needAddFftsAddr : Bool) (v : RecordView) (paramsNo : UInt32) (memInfo : MetaMemInfo) :
    MetaMemInfo :=
  match v.handler with
  | .input =>
    { memInfo with
      inputParamsAddrInfos :=
        memInfo.inputParamsAddrInfos ++ [⟨0, v.length, .extra, .input, paramsNo.toUInt64⟩] }
  | .ffts => setFftsInfo needAddFftsAddr memInfo
  | .tiling => { memInfo with tilingDataSize := v.length }
  | .mc2Ctx => parseMetaMc2Ctx memInfo

/-- What the parser keeps of the parameter `paramsIdx` of the kernel. -/
def apply (needAddFftsAddr : Bool) (v : RecordView) (paramsIdx : UInt32) (memInfo : MetaMemInfo) :
    MetaMemInfo :=
  v.store needAddFftsAddr (paramsIdx + 1) (v.second paramsIdx memInfo)

/-- The entry of a record among the inputs of the kernel. -/
def addrInfo (v : RecordView) (paramsIdx : ℕ) : Option AddrInfo :=
  match v.handler with
  | .input => some ⟨0, v.length, .extra, .input, UInt64.ofNat (paramsIdx + 1)⟩
  | .mc2Ctx => some ⟨0, sizeofHcclCombinOpParam, .extra, .hcclMc2Context, 0⟩
  | _ => none

end RecordView

def applyViews (needAddFftsAddr : Bool) : List RecordView → UInt32 → MetaMemInfo → MetaMemInfo
  | [], _, memInfo => memInfo
  | v :: vs, paramsIdx, memInfo =>
    applyViews needAddFftsAddr vs (paramsIdx + 1) (v.apply needAddFftsAddr paramsIdx memInfo)

def inputsFrom (vs : List RecordView) (paramsIdx : ℕ) : List AddrInfo :=
  (vs.zipIdx paramsIdx).filterMap fun q => q.1.addrInfo q.2

def secondPtrsFrom (vs : List RecordView) (paramsIdx : ℕ) : List (UInt64 × SecondPtrInfo) :=
  (vs.zipIdx paramsIdx).filterMap fun q =>
    q.1.dtypeBytes.map fun dtypeBytes => (UInt64.ofNat q.2, { dtypeBytes := dtypeBytes })

/-- The length of the last tiling record. -/
def tilingSize (vs : List RecordView) : UInt64 :=
  ((vs.filter fun v => v.handler = .tiling).getLast?.map RecordView.length).getD 0

/-! ## One record -/

section Apply
variable (needAddFftsAddr : Bool) (v : RecordView) {paramsIdx : UInt32} {i : ℕ}
  (memInfo : MetaMemInfo)

theorem setFftsInfo_eq (magic : UInt32) :
    (setFftsInfo needAddFftsAddr memInfo magic).inputParamsAddrInfos =
        memInfo.inputParamsAddrInfos ∧
      (setFftsInfo needAddFftsAddr memInfo magic).secondPtrAddrInfos =
        memInfo.secondPtrAddrInfos ∧
      (setFftsInfo needAddFftsAddr memInfo magic).tilingDataSize = memInfo.tilingDataSize ∧
      (setFftsInfo needAddFftsAddr memInfo magic).hasMc2Ctx = memInfo.hasMc2Ctx := by
  rw [setFftsInfo]
  split_ifs <;> exact ⟨rfl, rfl, rfl, rfl⟩

theorem second_eq :
    (v.second paramsIdx memInfo).inputParamsAddrInfos = memInfo.inputParamsAddrInfos ∧
      (v.second paramsIdx memInfo).tilingDataSize = memInfo.tilingDataSize ∧
      (v.second paramsIdx memInfo).hasMc2Ctx = memInfo.hasMc2Ctx := by
  rw [RecordView.second]
  cases v.dtypeBytes <;> exact ⟨rfl, rfl, rfl⟩

theorem store_secondPtrAddrInfos (paramsNo : UInt32) :
    (v.store needAddFftsAddr paramsNo memInfo).secondPtrAddrInfos =
      memInfo.secondPtrAddrInfos := by
  rw [RecordView.store]
  cases v.handler with
  | input => rfl
  | ffts => exact (setFftsInfo_eq needAddFftsAddr memInfo 0).2.1
  | tiling => rfl
  | mc2Ctx => rfl

theorem inputs_apply (hidx : paramsIdx.toNat = i) (hi : i + 1 < 2 ^ 32) :
    (v.apply needAddFftsAddr paramsIdx memInfo).inputParamsAddrInfos =
      memInfo.inputParamsAddrInfos ++ (v.addrInfo i).toList := by
  have hno : (paramsIdx + 1).toUInt64 = UInt64.ofNat (i + 1) := by
    have hnext : (paramsIdx + 1).toNat = paramsIdx.toNat + 1 :=
      toNat_add_ofNat (n := 1) (by rwa [hidx])
    rw [← UInt64.toNat_inj, UInt32.toNat_toUInt64, hnext, hidx, Words.toNat_ofNat64 (by omega)]
  rw [RecordView.apply, ← (second_eq v memInfo).1, RecordView.store, RecordView.addrInfo]
  cases v.handler with
  | input => rw [hno]; rfl
  | ffts => exact (setFftsInfo_eq needAddFftsAddr _ 0).1.trans (List.append_nil _).symm
  | tiling => exact (List.append_nil _).symm
  | mc2Ctx => rfl

theorem secondPtrs_apply (hidx : paramsIdx.toNat = i)
    (hkeys : ∀ e ∈ memInfo.secondPtrAddrInfos.entries, e.1.toNat < i) :
    (v.apply needAddFftsAddr paramsIdx memInfo).secondPtrAddrInfos.entries =
      memInfo.secondPtrAddrInfos.entries ++
        (v.dtypeBytes.map fun dtypeBytes =>
          (UInt64.ofNat i, ({ dtypeBytes := dtypeBytes } : SecondPtrInfo))).toList := by
  have hkey : paramsIdx.toUInt64 = UInt64.ofNat i := by
    rw [← UInt64.toNat_inj, UInt32.toNat_toUInt64, hidx, Words.toNat_ofNat64]
    have hlt := paramsIdx.toNat_lt
    omega
  rw [RecordView.apply, store_secondPtrAddrInfos, RecordView.second]
  cases v.dtypeBytes with
  | none => exact (List.append_nil _).symm
  | some dtypeBytes =>
    rw [Option.map_some, Option.toList_some, ← hkey]
    apply OrderedSet.place_of_forall_gt
    · intro e he hlt
      have hkey' := hkeys e he
      have hlt' : paramsIdx.toUInt64.toNat < e.1.toNat := UInt64.lt_iff_toNat_lt.mp hlt
      rw [UInt32.toNat_toUInt64, hidx] at hlt'
      omega
    · intro e he
      change e.1 < paramsIdx.toUInt64
      rw [UInt64.lt_iff_toNat_lt, UInt32.toNat_toUInt64, hidx]
      exact hkeys e he

theorem tilingDataSize_apply :
    (v.apply needAddFftsAddr paramsIdx memInfo).tilingDataSize =
      if v.handler = .tiling then v.length else memInfo.tilingDataSize := by
  have hsecond : (v.second paramsIdx memInfo).tilingDataSize = _ := (second_eq v memInfo).2.1
  rw [RecordView.apply, RecordView.store]
  cases v.handler with
  | input => exact hsecond
  | ffts => exact (setFftsInfo_eq needAddFftsAddr _ 0).2.2.1.trans hsecond
  | tiling => rfl
  | mc2Ctx => exact hsecond

theorem hasMc2Ctx_apply :
    (v.apply needAddFftsAddr paramsIdx memInfo).hasMc2Ctx =
      (memInfo.hasMc2Ctx || decide (v.handler = .mc2Ctx)) := by
  have hsecond : (v.second paramsIdx memInfo).hasMc2Ctx = (memInfo.hasMc2Ctx || false) :=
    (second_eq v memInfo).2.2.trans (Bool.or_false _).symm
  rw [RecordView.apply, RecordView.store]
  cases v.handler with
  | input => exact hsecond
  | ffts => exact (setFftsInfo_eq needAddFftsAddr _ 0).2.2.2.trans hsecond
  | tiling => exact hsecond
  | mc2Ctx => exact (Bool.or_true _).symm

end Apply

/-! ## A list of records -/

section ApplyViews
variable (needAddFftsAddr : Bool) {vs : List RecordView} {paramsIdx : UInt32} {i : ℕ}

theorem inputs_applyViews (hidx : paramsIdx.toNat = i) (hi : i + vs.length < 2 ^ 32)
    (memInfo : MetaMemInfo) :
    (applyViews needAddFftsAddr vs paramsIdx memInfo).inputParamsAddrInfos =
      memInfo.inputParamsAddrInfos ++ inputsFrom vs i := by
  induction vs generalizing paramsIdx i memInfo with
  | nil => simp [applyViews, inputsFrom]
  | cons v vs ih =>
    rw [List.length_cons] at hi
    have hnext : (paramsIdx + 1).toNat = i + 1 := by
      rw [← hidx]
      exact toNat_add_ofNat (n := 1) (by omega)
    rw [applyViews, ih hnext (by omega), inputs_apply _ v _ hidx (by omega), List.append_assoc,
      inputsFrom, inputsFrom, List.zipIdx_cons, List.filterMap_cons]
    cases v.addrInfo i <;> rfl

theorem secondPtrs_applyViews (hidx : paramsIdx.toNat = i) (hi : i + vs.length < 2 ^ 32)
    (memInfo : MetaMemInfo)
    (hkeys : ∀ e ∈ memInfo.secondPtrAddrInfos.entries, e.1.toNat < i) :
    (applyViews needAddFftsAddr vs paramsIdx memInfo).secondPtrAddrInfos.entries =
      memInfo.secondPtrAddrInfos.entries ++ secondPtrsFrom vs i := by
  induction vs generalizing paramsIdx i memInfo with
  | nil => simp [applyViews, secondPtrsFrom]
  | cons v vs ih =>
    rw [List.length_cons] at hi
    have hnext : (paramsIdx + 1).toNat = i + 1 := by
      rw [← hidx]
      exact toNat_add_ofNat (n := 1) (by omega)
    have happly := secondPtrs_apply needAddFftsAddr v memInfo hidx hkeys
    have hkeys' : ∀ e ∈ (v.apply needAddFftsAddr paramsIdx memInfo).secondPtrAddrInfos.entries,
        e.1.toNat < i + 1 := by
      intro e he
      rw [happly] at he
      cases List.mem_append.mp he with
      | inl he => exact Nat.lt_succ_of_lt (hkeys e he)
      | inr he =>
        cases hsecond : v.dtypeBytes with
        | none =>
          rw [hsecond] at he
          cases he
        | some dtypeBytes =>
          rw [hsecond, Option.map_some, Option.toList_some, List.mem_singleton] at he
          rw [he, Words.toNat_ofNat64 (by omega)]
          exact Nat.lt_succ_self i
    rw [applyViews, ih hnext (by omega) _ hkeys', happly, List.append_assoc, secondPtrsFrom,
      secondPtrsFrom, List.zipIdx_cons, List.filterMap_cons]
    cases v.dtypeBytes <;> rfl

theorem tilingDataSize_applyViews (memInfo : MetaMemInfo) :
    (applyViews needAddFftsAddr vs paramsIdx memInfo).tilingDataSize =
      ((vs.filter fun v => v.handler = .tiling).getLast?.map RecordView.length).getD
        memInfo.tilingDataSize := by
  induction vs generalizing paramsIdx memInfo with
  | nil => rfl
  | cons v vs ih =>
    rw [applyViews, ih, tilingDataSize_apply, List.filter_cons]
    by_cases htype : v.handler = .tiling
    · rw [if_pos htype, if_pos (by simpa using htype), List.getLast?_cons]
      cases (vs.filter fun v => v.handler = .tiling).getLast? <;> rfl
    · rw [if_neg htype, if_neg (by simpa using htype)]

theorem hasMc2Ctx_applyViews (memInfo : MetaMemInfo) :
    (applyViews needAddFftsAddr vs paramsIdx memInfo).hasMc2Ctx =
      (memInfo.hasMc2Ctx || vs.any fun v => v.handler = .mc2Ctx) := by
  induction vs generalizing paramsIdx memInfo with
  | nil => simp [applyViews]
  | cons v vs ih => rw [applyViews, ih, hasMc2Ctx_apply, List.any_cons, Bool.or_assoc]

end ApplyViews

end Msopcom.MetaRecordView
