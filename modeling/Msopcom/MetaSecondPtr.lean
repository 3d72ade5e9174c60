import Msopcom.MetaEncode
import Msopcom.ReportOp

set_option autoImplicit false

/-!
# The second-level pointers of a launch

The parser numbers the parameters of a kernel by their records, and a launch looks for
them by the number of its input.
-/
namespace Msopcom.MetaSecondPtr
open FuelLoop MetaWalk MetaRecordView MetaFraming MetaSection MetaEncode

/-! ## What a launch knows of its kernel -/

/-- `UpdateInputSizeWithTilingData` with the lengths that adump has left. -/
def updateInputSize (lengths : List UInt64) (memInfo : MetaMemInfo) : MetaMemInfo :=
  { memInfo with
    inputParamsAddrInfos := memInfo.inputParamsAddrInfos.zipIdx.map fun q =>
      if q.2 < lengths.length then
        if memInfo.hasMc2Ctx ∧ q.2 = mc2ContextParamsIndex.toNat then
          { q.1 with length := sizeofHcclCombinOpParam }
        else { q.1 with length := lengths.getD q.2 0 }
      else q.1 }

/-- What `Parse` has answered and stored, with the lengths of a dynamic operator. -/
def launchInfo (needAddFftsAddr : Bool) (magic : UInt32) (adump : Option (List UInt64))
    (answer : Bool × MetaMemInfo) : OpMemInfo :=
  if answer.1 then
    let memInfo := setFftsInfo needAddFftsAddr answer.2 magic
    match adump with
    | none => memInfo.toOpMemInfo
    | some lengths => (updateInputSize lengths memInfo).toOpMemInfo
  else {}

/-- The number of slots that the address of the FFTS takes. -/
def skipSlots (needAddFftsAddr : Bool) (magic : UInt32) : ℕ :=
  if needAddFftsAddr ∧ magic = rtDevBinaryMagicElf then 1 else 0

/-! ## What the second-level pointers are -/

def RtArgsEx.describe (addr length : UInt64) (ptrIdx : ℕ) : AddrInfo :=
  ⟨addr, length, .extra, .doublePtr, UInt64.ofNat (ptrIdx + 1)⟩

def AclrtLaunchArgsInfo.describe (addr length : UInt64) (_ : ℕ) : AddrInfo :=
  ⟨addr, length, .extra, .default, 0⟩

def isFfts (v : RecordView) : Bool := v.handler = .ffts

def isInput (v : RecordView) : Bool := v.handler = .input || v.handler = .mc2Ctx

/-- The slot of the parameter `p`: behind the address of the FFTS, which has the first
one, the parameters stand in the order of their records. -/
def argsSlot (skipNum : ℕ) (vs : List RecordView) (p : ℕ) : ℕ :=
  let ffts := (vs.take p).countP isFfts
  if (vs[p]?.map isFfts).getD false then ffts else skipNum + (p - ffts)

section Images
variable (describe : UInt64 → UInt64 → ℕ → AddrInfo) (buff : List UInt8)
  (hostInputs : List HostInputInfo)

/-- The first-level pointers behind the slot. -/
def resolvedAt (dtypeBytes : UInt64) (slot : ℕ) : List AddrInfo :=
  (hostInputs.filter fun info => info.addrOffset.toNat / 8 = slot).flatMap
    (parseHostInput describe dtypeBytes buff)

/-- Each second-level pointer of the records, resolved once at its own slot. -/
def resolvedSecondPtrs (skipNum : ℕ) (vs : List RecordView) : List (UInt64 × SecondPtrInfo) :=
  vs.zipIdx.filterMap fun q => q.1.dtypeBytes.map fun dtypeBytes =>
    (UInt64.ofNat q.2,
      ⟨dtypeBytes, resolvedAt describe buff hostInputs dtypeBytes (argsSlot skipNum vs q.2)⟩)

/-- An image of the arguments of these parameters: it has their slots, and the host inputs
are pointers in these to blocks behind them. -/
structure Matches (skipNum : ℕ) (vs : List RecordView) : Prop where
  room : ∀ p < vs.length, 8 * argsSlot skipNum vs p + 8 ≤ buff.length
  pointers : ∀ info ∈ hostInputs,
    ∃ p < vs.length, info.addrOffset.toNat = 8 * argsSlot skipNum vs p
  blocks : ∀ info ∈ hostInputs, info.dataOffset.toNat % 8 = 0 ∧
    info.addrOffset.toNat + 8 ≤ info.dataOffset.toNat ∧ info.dataOffset.toNat + 8 ≤ buff.length

end Images

/-- A launch with `rtArgsEx_t` resolves the second-level pointers of the records. -/
def RtResolves (o : OpMemInfo) (skipNum : ℕ) (vs : List RecordView) : Prop :=
  ∀ ctx r, ∀ a : RtArgsEx, ∀ buff, a.args = some buff →
    Matches buff a.hostInputs skipNum vs →
      (reportOpMallocInfo ctx (some a) r o).2.secondPtrAddrInfos.entries =
        resolvedSecondPtrs RtArgsEx.describe buff a.hostInputs skipNum vs

/-- The same with the arguments of the other interface. -/
def AclResolves (o : OpMemInfo) (skipNum : ℕ) (vs : List RecordView) : Prop :=
  ∀ ctx r, ∀ a : AclrtLaunchArgsInfo, ∀ buff, a.hostArgs = some buff →
    Matches buff a.hostInputs skipNum vs →
      (reportOpMallocInfoAcl ctx a r o).2.secondPtrAddrInfos.entries =
        resolvedSecondPtrs AclrtLaunchArgsInfo.describe buff a.hostInputs skipNum vs

/-- There are more inputs than parameters before a second-level pointer, and it stands in
the slot of its own number. -/
def SlotsAgree (skipNum : ℕ) (vs : List RecordView) : Prop :=
  ∀ p v dtypeBytes, vs[p]? = some v → v.dtypeBytes = some dtypeBytes →
    p < vs.countP isInput ∧ argsSlot skipNum vs p = p

/-! ## The loop of a launch -/

section Loop
variable {describe : UInt64 → UInt64 → ℕ → AddrInfo} {buff : List UInt8}
  {hostInputs : List HostInputInfo}

/-- An entry with more first-level pointers. -/
def withPtrs (e : UInt64 × SecondPtrInfo) (ptrs : List AddrInfo) : UInt64 × SecondPtrInfo :=
  (e.1, { e.2 with addrInfoVec := e.2.addrInfoVec ++ ptrs })

theorem entries_parseSecondPtrAddrsWith (infos : SecondPtrAddrInfos) (index : UInt32) :
    (parseSecondPtrAddrsWith describe buff hostInputs infos index).entries =
      infos.entries.map fun e =>
        if e.1 = index.toUInt64 then
          withPtrs e (resolvedAt describe buff hostInputs e.2.dtypeBytes index.toNat)
        else e := by
  induction hostInputs generalizing infos with
  | nil => simp [parseSecondPtrAddrsWith, resolvedAt, withPtrs]
  | cons info hostInputs ih =>
    have hcons : parseSecondPtrAddrsWith describe buff (info :: hostInputs) infos index =
        parseSecondPtrAddrsWith describe buff hostInputs
          (if info.addrOffset.toNat / 8 ≠ index.toNat then infos
          else infos.modify index.toUInt64 fun second =>
            { second with addrInfoVec :=
                second.addrInfoVec ++ parseHostInput describe second.dtypeBytes buff info })
          index := rfl
    rw [hcons, ih]
    by_cases hslot : info.addrOffset.toNat / 8 = index.toNat
    · rw [if_neg (not_not.mpr hslot), SecondPtrAddrInfos.modify, List.map_map]
      apply List.map_congr_left
      intro e _
      by_cases hkey : e.1 = index.toUInt64
      · simp [hkey, hslot, withPtrs, resolvedAt]
      · simp [hkey]
    · rw [if_pos hslot]
      simp [hslot, resolvedAt]

theorem entries_inputLoop (ctx : KernelContext) (skipNum shift : UInt32) (l : List AddrInfo)
    {i : ℕ} (s : InputLoop) (hindex : s.index.toNat = i) (hfit : i + l.length < 2 ^ 32) :
    (l.foldl (inputStep ctx buff skipNum shift (parseSecondPtrAddrsWith describe buff hostInputs))
        s).secondPtrAddrInfos.entries =
      s.secondPtrAddrInfos.entries.map fun e =>
        if i ≤ e.1.toNat ∧ e.1.toNat < i + l.length then
          withPtrs e (resolvedAt describe buff hostInputs e.2.dtypeBytes e.1.toNat)
        else e := by
  induction l generalizing i s with
  | nil =>
    refine ((List.map_congr_left fun e _ => if_neg ?_).trans (List.map_id _)).symm
    exact fun h => Nat.not_lt.mpr h.1 h.2
  | cons it l ih =>
    rw [List.length_cons] at hfit ⊢
    have hnext : (s.index + 1).toNat = i + 1 := by
      rw [← hindex]
      exact toNat_add_ofNat (n := 1) (by omega)
    rw [List.foldl_cons, ih _ hnext (by omega)]
    have hstep : (inputStep ctx buff skipNum shift
        (parseSecondPtrAddrsWith describe buff hostInputs) s it).secondPtrAddrInfos =
          parseSecondPtrAddrsWith describe buff hostInputs s.secondPtrAddrInfos s.index := rfl
    rw [hstep, entries_parseSecondPtrAddrsWith, List.map_map]
    apply List.map_congr_left
    intro e _
    have hkey : e.1 = s.index.toUInt64 ↔ e.1.toNat = i := by
      rw [← UInt64.toNat_inj, UInt32.toNat_toUInt64, hindex]
    by_cases hat : e.1.toNat = i
    · have hhere : i ≤ i ∧ i < i + (l.length + 1) := by omega
      have hpast : ¬ (i + 1 ≤ i ∧ i < i + 1 + l.length) := fun h => Nat.not_succ_le_self i h.1
      rw [Function.comp_apply, if_pos (hkey.mpr hat), hat, if_pos hhere]
      simp only [withPtrs, hat, hindex, if_neg hpast]
    · have hrange : i + 1 ≤ e.1.toNat ∧ e.1.toNat < i + 1 + l.length ↔
          i ≤ e.1.toNat ∧ e.1.toNat < i + (l.length + 1) := by omega
      rw [Function.comp_apply, if_neg (mt hkey.mp hat)]
      simp only [hrange]

/-- What the loop makes of the entries of the parser. -/
def afterLoop (describe : UInt64 → UInt64 → ℕ → AddrInfo) (buff : List UInt8)
    (hostInputs : List HostInputInfo) (o : OpMemInfo) : List (UInt64 × SecondPtrInfo) :=
  o.secondPtrAddrInfos.entries.map fun e =>
    if e.1.toNat < o.inputParamsAddrInfos.length then
      withPtrs e (resolvedAt describe buff hostInputs e.2.dtypeBytes e.1.toNat)
    else e

theorem entries_collectAddrInfos (ctx : KernelContext) (shift : UInt32) {o : OpMemInfo}
    (hfit : o.inputParamsAddrInfos.length < 2 ^ 32) :
    (collectAddrInfos ctx buff shift (parseSecondPtrAddrsWith describe buff hostInputs)
        o).secondPtrAddrInfos.entries = afterLoop describe buff hostInputs o := by
  have hloop : (o.inputParamsAddrInfos.foldl
      (inputStep ctx buff o.skipNum shift (parseSecondPtrAddrsWith describe buff hostInputs))
      ⟨[], o.secondPtrAddrInfos, [], 0⟩).secondPtrAddrInfos.entries = _ :=
    entries_inputLoop ctx o.skipNum shift _ (i := 0) _ rfl (by omega)
  simp only [Nat.zero_le, true_and, Nat.zero_add] at hloop
  exact hloop

end Loop

theorem entries_reportOpMallocInfo (ctx : KernelContext) (r : Reporter) {a : RtArgsEx}
    {buff : List UInt8} (hargs : a.args = some buff) {o : OpMemInfo}
    (hfit : o.inputParamsAddrInfos.length < 2 ^ 32) :
    (reportOpMallocInfo ctx (some a) r o).2.secondPtrAddrInfos.entries =
      afterLoop RtArgsEx.describe buff a.hostInputs o := by
  rw [← entries_collectAddrInfos ctx (o.skipNum + if ctx.mc2CtxFlag then 1 else 0) hfit]
  simp only [reportOpMallocInfo, hargs]
  split_ifs <;> rfl

theorem entries_reportOpMallocInfoAcl (ctx : KernelContext) (r : Reporter)
    {a : AclrtLaunchArgsInfo} {buff : List UInt8} (hargs : a.hostArgs = some buff) {o : OpMemInfo}
    (hfit : o.inputParamsAddrInfos.length < 2 ^ 32) :
    (reportOpMallocInfoAcl ctx a r o).2.secondPtrAddrInfos.entries =
      afterLoop AclrtLaunchArgsInfo.describe buff a.hostInputs o := by
  rw [← entries_collectAddrInfos ctx 0 hfit]
  simp only [reportOpMallocInfoAcl, hargs]
  split_ifs <;> rfl

/-! ## An image with one host input -/

theorem readWord_append (n : ℕ) (w : List UInt8) (k : ℕ) :
    readWord (List.replicate (8 * n) 0 ++ w) (n + k) = readWord w k := by
  have hget : ∀ j, (List.replicate (8 * n) 0 ++ w).getD (8 * (n + k) + j) 0 =
      w.getD (8 * k + j) 0 := by
    intro j
    have hlength : (List.replicate (8 * n) (0 : UInt8)).length = 8 * n := List.length_replicate
    have hindex : 8 * (n + k) + j - 8 * n = 8 * k + j := by omega
    rw [List.getD_eq_getElem?_getD, List.getElem?_append_right (by omega), hlength, hindex,
      List.getD_eq_getElem?_getD]
  simp only [readWord, hget]

/-- Behind the slots, the descriptor of one scalar: the offset of its pointer, its number
of dimensions and the pointer. -/
def scalarBlock : List UInt8 :=
  [16, 0, 0, 0, 0, 0, 0, 0] ++ [0, 0, 0, 0, 0, 0, 0, 0] ++ [0, 16, 0, 0, 0, 0, 0, 0]

def scalarArgs (slots : ℕ) : List UInt8 := List.replicate (8 * slots) 0 ++ scalarBlock

def scalarInput (slots slot : ℕ) : HostInputInfo :=
  ⟨UInt32.ofNat (8 * slot), UInt32.ofNat (8 * slots)⟩

section Scalar
variable {slots slot : ℕ} (hslots : 8 * slots < 2 ^ 32)
include hslots

theorem parseHostInput_scalar (describe : UInt64 → UInt64 → ℕ → AddrInfo) (dtypeBytes : UInt64) :
    parseHostInput describe dtypeBytes (scalarArgs slots) (scalarInput slots slot) ≠ [] := by
  have hptr : (scalarInput slots slot).dataOffset.toNat / 8 = slots := by
    change (UInt32.ofNat (8 * slots)).toNat / 8 = slots
    rw [Words.toNat_ofNat32 hslots]
    omega
  have hoffset : (readWord (scalarArgs slots) slots).toNat / 8 = 2 :=
    congrArg (fun word => word.toNat / 8) (readWord_append slots scalarBlock 0)
  rw [parseHostInput, hptr, hoffset, secondPtrLoop, if_pos (by decide)]
  exact List.cons_ne_nil _ _

theorem addrOffset_scalarInput (hslot : slot < slots) :
    (scalarInput slots slot).addrOffset.toNat = 8 * slot :=
  Words.toNat_ofNat32 (by omega)

theorem matches_scalar {skipNum : ℕ} {vs : List RecordView}
    (hroom : ∀ q < vs.length, argsSlot skipNum vs q < slots) {p : ℕ} (hp : p < vs.length) :
    Matches (scalarArgs slots) [scalarInput slots (argsSlot skipNum vs p)] skipNum vs := by
  have haddr := addrOffset_scalarInput hslots (hroom p hp)
  have hdata : (scalarInput slots (argsSlot skipNum vs p)).dataOffset.toNat = 8 * slots :=
    Words.toNat_ofNat32 hslots
  have hlength : (scalarArgs slots).length = 8 * slots + 24 := by
    rw [scalarArgs, List.length_append, List.length_replicate]
    rfl
  constructor
  case room =>
    intro q hq
    have hlt := hroom q hq
    omega
  case pointers =>
    intro info hinfo
    rw [List.mem_singleton.mp hinfo]
    exact ⟨p, hp, haddr⟩
  case blocks =>
    intro info hinfo
    have hlt := hroom p hp
    rw [List.mem_singleton.mp hinfo]
    omega

/-- Only at its own slot is there anything behind the pointer. -/
theorem resolvedAt_scalar (hslot : slot < slots)
    (describe : UInt64 → UInt64 → ℕ → AddrInfo) (dtypeBytes : UInt64) (p : ℕ) :
    resolvedAt describe (scalarArgs slots) [scalarInput slots slot] dtypeBytes p ≠ [] ↔
      slot = p := by
  have haddr : (scalarInput slots slot).addrOffset.toNat / 8 = slot := by
    rw [addrOffset_scalarInput hslots hslot]
    omega
  have hparse : parseHostInput describe dtypeBytes (scalarArgs slots) (scalarInput slots slot) ≠ [] :=
    parseHostInput_scalar hslots describe dtypeBytes
  rw [resolvedAt, List.filter_singleton, haddr]
  by_cases hp : slot = p
  · rw [decide_eq_true hp]
    exact iff_of_true (by simpa using hparse) hp
  · rw [decide_eq_false hp]
    exact iff_of_false (fun h => h rfl) hp

end Scalar

/-! ## The two numberings -/

/-- A launch that knows what the records declare. -/
structure Declares (o : OpMemInfo) (vs : List RecordView) : Prop where
  inputs : o.inputParamsAddrInfos.length = vs.countP isInput
  entries : o.secondPtrAddrInfos.entries = if vs.countP isInput = 0 then [] else secondPtrsFrom vs 0

theorem argsSlot_lt {vs : List RecordView} {p : ℕ} (hp : p < vs.length) (skipNum : ℕ) :
    argsSlot skipNum vs p < skipNum + vs.length := by
  have hffts : (vs.take p).countP isFfts ≤ (vs.take p).length := List.countP_le_length
  rw [List.length_take] at hffts
  rw [argsSlot]
  split_ifs <;> omega

section Agree
variable {o : OpMemInfo} {vs : List RecordView} (hdeclares : Declares o vs)
  (describe : UInt64 → UInt64 → ℕ → AddrInfo)
include hdeclares

theorem afterLoop_of_slotsAgree {skipNum : ℕ} (hsmall : vs.length < 2 ^ 16)
    (h : SlotsAgree skipNum vs) (buff : List UInt8) (hostInputs : List HostInputInfo) :
    afterLoop describe buff hostInputs o =
      resolvedSecondPtrs describe buff hostInputs skipNum vs := by
  have hview : ∀ q ∈ vs.zipIdx, vs[q.2]? = some q.1 := fun q hq =>
    List.mem_zipIdx_iff_getElem?.mp hq
  rw [afterLoop, hdeclares.entries, hdeclares.inputs]
  by_cases hnone : vs.countP isInput = 0
  · rw [if_pos hnone, List.map_nil, resolvedSecondPtrs, eq_comm, List.filterMap_eq_nil_iff]
    intro q hq
    cases hsecond : q.1.dtypeBytes with
    | none => rfl
    | some dtypeBytes =>
      obtain ⟨hlt, _⟩ := h q.2 q.1 dtypeBytes (hview q hq) hsecond
      omega
  · rw [if_neg hnone, secondPtrsFrom, List.map_filterMap, resolvedSecondPtrs]
    apply List.filterMap_congr
    intro q hq
    cases hsecond : q.1.dtypeBytes with
    | none => rfl
    | some dtypeBytes =>
      obtain ⟨hlt, hslot⟩ := h q.2 q.1 dtypeBytes (hview q hq) hsecond
      have hkey : (UInt64.ofNat q.2).toNat = q.2 := Words.toNat_ofNat64 (by
        have hcount : vs.countP isInput ≤ vs.length := List.countP_le_length
        omega)
      rw [Option.map_some, Option.map_some, Option.map_some, hkey, if_pos hlt, hslot]
      rfl

/-- A scalar behind a second-level pointer shows where the launch looks for it. -/
theorem slotsAgree_of_scalars {skipNum : ℕ} (hsmall : vs.length < 2 ^ 16) (hskip : skipNum ≤ 1)
    (h : ∀ p < vs.length,
      afterLoop describe (scalarArgs (skipNum + vs.length))
          [scalarInput (skipNum + vs.length) (argsSlot skipNum vs p)] o =
        resolvedSecondPtrs describe (scalarArgs (skipNum + vs.length))
          [scalarInput (skipNum + vs.length) (argsSlot skipNum vs p)] skipNum vs) :
    SlotsAgree skipNum vs := by
  intro p v dtypeBytes hv hsecond
  have hp : p < vs.length := (List.getElem?_eq_some_iff.mp hv).1
  have hslots : 8 * (skipNum + vs.length) < 2 ^ 32 := by omega
  have hslot := argsSlot_lt hp skipNum
  have hresolved : ∀ d q, resolvedAt describe (scalarArgs (skipNum + vs.length))
      [scalarInput (skipNum + vs.length) (argsSlot skipNum vs p)] d q ≠ [] ↔
        argsSlot skipNum vs p = q :=
    fun d q => resolvedAt_scalar hslots hslot describe d q
  have hdeclared : (UInt64.ofNat p, (⟨dtypeBytes, resolvedAt describe
      (scalarArgs (skipNum + vs.length))
      [scalarInput (skipNum + vs.length) (argsSlot skipNum vs p)] dtypeBytes
      (argsSlot skipNum vs p)⟩ : SecondPtrInfo)) ∈
        resolvedSecondPtrs describe (scalarArgs (skipNum + vs.length))
          [scalarInput (skipNum + vs.length) (argsSlot skipNum vs p)] skipNum vs := by
    refine List.mem_filterMap.mpr ⟨(v, p), List.mem_zipIdx_iff_getElem?.mpr hv, ?_⟩
    rw [hsecond]
    rfl
  rw [← h p hp, afterLoop, hdeclares.entries, hdeclares.inputs] at hdeclared
  obtain ⟨e, he, heq⟩ := List.mem_map.mp hdeclared
  by_cases hnone : vs.countP isInput = 0
  · rw [if_pos hnone] at he
    cases he
  · rw [if_neg hnone] at he
    obtain ⟨q, hq, hentry⟩ := List.mem_filterMap.mp he
    obtain ⟨d, _, rfl⟩ := Option.map_eq_some_iff.mp hentry
    have hkey : (UInt64.ofNat q.2).toNat = q.2 := Words.toNat_ofNat64 (by
      have hlt := (List.getElem?_eq_some_iff.mp (List.mem_zipIdx_iff_getElem?.mp hq)).1
      omega)
    have hkey' : (UInt64.ofNat p).toNat = p := Words.toNat_ofNat64 (by omega)
    rw [hkey] at heq
    by_cases hlt : q.2 < vs.countP isInput
    · rw [if_pos hlt] at heq
      have hindex : q.2 = p := by
        rw [← hkey, ← hkey']
        exact congrArg (fun e => e.1.toNat) heq
      have hptrs := congrArg (fun e => e.2.addrInfoVec) heq
      simp only [withPtrs, List.nil_append] at hptrs
      refine ⟨hindex ▸ hlt, Eq.trans ?_ hindex⟩
      apply (hresolved d q.2).mp
      rw [hptrs]
      exact (hresolved dtypeBytes _).mpr rfl
    · rw [if_neg hlt] at heq
      exact absurd (congrArg (fun e => e.2.addrInfoVec) heq).symm ((hresolved dtypeBytes _).mpr rfl)

theorem rtResolves_iff {skipNum : ℕ} (hsmall : vs.length < 2 ^ 16) (hskip : skipNum ≤ 1) :
    RtResolves o skipNum vs ↔ SlotsAgree skipNum vs := by
  have hfit : o.inputParamsAddrInfos.length < 2 ^ 32 := by
    have hcount : vs.countP isInput ≤ vs.length := List.countP_le_length
    rw [hdeclares.inputs]
    omega
  constructor
  · intro h
    apply slotsAgree_of_scalars hdeclares RtArgsEx.describe hsmall hskip
    intro p hp
    let a : RtArgsEx :=
      { args := some (scalarArgs (skipNum + vs.length))
        hostInputInfoPtr := some [scalarInput (skipNum + vs.length) (argsSlot skipNum vs p)]
        hostInputInfoNum := 1
        argsSize := UInt32.ofNat (8 * (skipNum + vs.length) + 24) }
    have hresolves := h ⟨false, false, false, 0, fun _ => none⟩ ⟨⟨⟨[], .nil⟩, 0⟩, []⟩ a _ rfl
      (matches_scalar (by omega) (fun q hq => argsSlot_lt hq skipNum) hp)
    rwa [entries_reportOpMallocInfo _ _ rfl hfit] at hresolves
  · intro h ctx r a buff hargs _
    rw [entries_reportOpMallocInfo ctx r hargs hfit]
    exact afterLoop_of_slotsAgree hdeclares _ hsmall h buff a.hostInputs

theorem aclResolves_iff {skipNum : ℕ} (hsmall : vs.length < 2 ^ 16) (hskip : skipNum ≤ 1) :
    AclResolves o skipNum vs ↔ SlotsAgree skipNum vs := by
  have hfit : o.inputParamsAddrInfos.length < 2 ^ 32 := by
    have hcount : vs.countP isInput ≤ vs.length := List.countP_le_length
    rw [hdeclares.inputs]
    omega
  constructor
  · intro h
    apply slotsAgree_of_scalars hdeclares AclrtLaunchArgsInfo.describe hsmall hskip
    intro p hp
    let a : AclrtLaunchArgsInfo :=
      { hostArgs := some (scalarArgs (skipNum + vs.length))
        argsSize := UInt64.ofNat (8 * (skipNum + vs.length) + 24)
        placeHolderArray := some [scalarInput (skipNum + vs.length) (argsSlot skipNum vs p)]
        placeHolderNum := 1 }
    have hresolves := h ⟨false, false, false, 0, fun _ => none⟩ ⟨⟨⟨[], .nil⟩, 0⟩, []⟩ a _ rfl
      (matches_scalar (by omega) (fun q hq => argsSlot_lt hq skipNum) hp)
    rwa [entries_reportOpMallocInfoAcl _ _ rfl hfit] at hresolves
  · intro h ctx r a buff hargs _
    rw [entries_reportOpMallocInfoAcl ctx r hargs hfit]
    exact afterLoop_of_slotsAgree hdeclares _ hsmall h buff a.hostInputs

end Agree

/-! ## From the section to the launch -/

theorem length_inputsFrom (vs : List RecordView) (paramsIdx : ℕ) :
    (inputsFrom vs paramsIdx).length = vs.countP isInput := by
  induction vs generalizing paramsIdx with
  | nil => rfl
  | cons v vs ih =>
    have ih' := ih (paramsIdx + 1)
    rw [inputsFrom] at ih' ⊢
    rw [List.zipIdx_cons, List.filterMap_cons, List.countP_cons, ← ih']
    cases hhandler : v.handler <;> simp [RecordView.addrInfo, isInput, hhandler]

theorem launchInfo_eq (needAddFftsAddr : Bool) (magic : UInt32) (adump : Option (List UInt64))
    (m : MetaMemInfo) :
    (launchInfo needAddFftsAddr magic adump (true, m)).inputParamsAddrInfos.length =
        m.inputParamsAddrInfos.length ∧
      (launchInfo needAddFftsAddr magic adump (true, m)).secondPtrAddrInfos =
        m.secondPtrAddrInfos := by
  have hffts := setFftsInfo_eq needAddFftsAddr m magic
  rw [launchInfo, if_pos rfl, ← hffts.1, ← hffts.2.1]
  cases adump with
  | none => exact ⟨rfl, rfl⟩
  | some lengths => simp [updateInputSize]

theorem declares_launchInfo {needAddFftsAddr : Bool} {vs : List RecordView}
    (hsmall : vs.length < 2 ^ 16) (magic : UInt32) (adump : Option (List UInt64))
    {m : MetaMemInfo} {isTik isTik' : Bool}
    (hm : m = applyViews needAddFftsAddr vs 0 { ({} : MetaMemInfo) with isTik := isTik }) :
    Declares (launchInfo needAddFftsAddr magic adump (found m, { m with isTik := isTik' })) vs := by
  have hinputs : m.inputParamsAddrInfos = inputsFrom vs 0 := by
    rw [hm, inputs_applyViews needAddFftsAddr (i := 0) rfl (by omega)]
    rfl
  have hsecond : m.secondPtrAddrInfos.entries = secondPtrsFrom vs 0 := by
    rw [hm, secondPtrs_applyViews needAddFftsAddr (i := 0) rfl (by omega) _
      fun e he => absurd he List.not_mem_nil]
    rfl
  have hlength : m.inputParamsAddrInfos.length = vs.countP isInput := by
    rw [hinputs, length_inputsFrom]
  cases hfound : found m with
  | false =>
    have hnone : vs.countP isInput = 0 := by
      rw [← hlength]
      simpa [found] using hfound
    constructor
    case inputs => exact hnone.symm
    case entries => rw [if_pos hnone]; rfl
  | true =>
    have hsome : vs.countP isInput ≠ 0 := by
      rw [← hlength]
      simpa [found] using hfound
    have hlaunch := launchInfo_eq needAddFftsAddr magic adump { m with isTik := isTik' }
    constructor
    case inputs => exact hlaunch.1.trans hlength
    case entries => rw [if_neg hsome, hlaunch.2, ← hsecond]

theorem length_le_of_hasRecords {w : List UInt8} {vs : List RecordView} (h : HasRecords w vs) :
    vs.length ≤ w.length := by
  induction h with
  | nil => exact Nat.le_refl _
  | null _ _ _ ih =>
    rw [List.length_drop] at ih
    omega
  | unknown => exact Nat.zero_le _
  | @record w vs handler h hsize rest ih =>
    have hpos := recordSize_pos w
    rw [List.length_drop] at ih
    rw [List.length_cons]
    omega

/-- The address of the FFTS, a second-level pointer and one more input. -/
def leadingFfts : List ArgRecord := [fftsArg, pointerArg, inputArg]

/-- The address of the FFTS and one output, a second-level pointer. -/
def lastSecondPtr : List ArgRecord := [fftsArg, pointerArg]

/-- Two slots, and behind them one scalar of four bytes at address 4096, which the second
slot points to. -/
def scalarLaunch : RtArgsEx :=
  { args := some (scalarArgs 2), hostInputInfoPtr := some [scalarInput 2 1]
    hostInputInfoNum := 1, argsSize := 40 }

end Msopcom.MetaSecondPtr
