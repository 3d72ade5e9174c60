import Msopcom.ReportOp

set_option autoImplicit false

/-!
# The two launch interfaces report alike

Without host inputs both overloads of `ReportOpMallocInfo` collect the same
addresses and every free matches its allocation. With host inputs the newer one
stores the tiling block under another description than it reports.
-/
namespace Msopcom.ReportOpAgreement

section Sent

/-- What a record sent when an address is freed has to repeat. -/
def freeKey (a : AddrInfo) : UInt64 × MemInfoSrc × MemInfoDesc :=
  (a.addr, a.memInfoSrc, a.memInfoDesc)

def sentKeys (type : MemOpType) (records : List HostMemRecord) :
    List (UInt64 × MemInfoSrc × MemInfoDesc) :=
  (records.filter fun record => record.type = type).map fun record =>
    (record.dstAddr, record.infoSrc, record.infoDesc)

theorem sentKeys_append (type : MemOpType) (xs ys : List HostMemRecord) :
    sentKeys type (xs ++ ys) = sentKeys type xs ++ sentKeys type ys := by
  simp only [sentKeys, List.filter_append, List.map_append]

theorem sentKeys_foldl (type : MemOpType) (report : Reporter → AddrInfo → Reporter)
    (keys : AddrInfo → List (UInt64 × MemInfoSrc × MemInfoDesc))
    (h : ∀ r it, sentKeys type (report r it).notified = sentKeys type r.notified ++ keys it)
    (l : List AddrInfo) (r : Reporter) :
    sentKeys type (l.foldl report r).notified = sentKeys type r.notified ++ l.flatMap keys := by
  induction l generalizing r with
  | nil => rw [List.foldl_nil, List.flatMap_nil, List.append_nil]
  | cons it l ih => rw [List.foldl_cons, ih, h, List.flatMap_cons, List.append_assoc]

theorem sentKeys_foldl_nil (type : MemOpType) (report : Reporter → AddrInfo → Reporter)
    (h : ∀ r it, sentKeys type (report r it).notified = sentKeys type r.notified)
    (l : List AddrInfo) (r : Reporter) :
    sentKeys type (l.foldl report r).notified = sentKeys type r.notified := by
  induction l generalizing r with
  | nil => rfl
  | cons it l ih => rw [List.foldl_cons, ih, h]

theorem flatMap_singleton_map {α β : Type} (f : α → β) (l : List α) :
    l.flatMap (fun a => [f a]) = l.map f := by
  induction l with
  | nil => rfl
  | cons a l ih => rw [List.flatMap_cons, ih, List.map_cons, List.singleton_append]

theorem sentKeys_reportUnique (r : Reporter) (o : OpMemInfo) :
    sentKeys .malloc (reportUnique r o).notified =
      sentKeys .malloc r.notified ++ o.uniqueAddrInfos.map freeKey ∧
    sentKeys .free (reportUnique r o).notified = sentKeys .free r.notified := by
  constructor
  · rw [← flatMap_singleton_map]
    refine sentKeys_foldl _ _ _ (fun r it => ?_) _ r
    change sentKeys .malloc (r.notified ++ [_] ++ [_]) = _
    rw [sentKeys_append, sentKeys_append, List.append_assoc]
    rfl
  · refine sentKeys_foldl_nil _ _ (fun r it => ?_) _ r
    change sentKeys .free (r.notified ++ [_] ++ [_]) = _
    rw [sentKeys_append, sentKeys_append, List.append_assoc]
    exact List.append_nil _

theorem sentKeys_reportOpFreeInfo (r : Reporter) (o : OpMemInfo) :
    sentKeys .malloc (reportOpFreeInfo r o).1.notified = sentKeys .malloc r.notified ∧
    sentKeys .free (reportOpFreeInfo r o).1.notified =
      sentKeys .free r.notified ++ o.uniqueAddrInfos.map freeKey := by
  constructor
  · refine sentKeys_foldl_nil _ _ (fun r it => ?_) _ r
    change sentKeys .malloc (r.notified ++ [_]) = _
    rw [sentKeys_append]
    exact List.append_nil _
  · rw [← flatMap_singleton_map]
    refine sentKeys_foldl _ _ _ (fun r it => ?_) _ r
    change sentKeys .free (r.notified ++ [_]) = _
    rw [sentKeys_append]
    rfl

theorem sentKeys_reportTiling (r : Reporter) (o : OpMemInfo) (addr size : UInt64)
    (desc : MemInfoDesc) :
    sentKeys .malloc (reportTiling r o addr size desc).1.notified =
      sentKeys .malloc r.notified ++ [(addr, .bypass, .tiling)] ∧
    sentKeys .free (reportTiling r o addr size desc).1.notified = sentKeys .free r.notified := by
  constructor
  · change sentKeys .malloc (r.notified ++ [_] ++ [_]) = _
    rw [sentKeys_append, sentKeys_append, List.append_assoc]
    rfl
  · change sentKeys .free (r.notified ++ [_] ++ [_]) = _
    rw [sentKeys_append, sentKeys_append, List.append_assoc]
    exact List.append_nil _

end Sent

/-- The records `ReportOpFreeInfo` sends close the ones sent for the allocations,
each under the same source and description. -/
def Closes (launch : Reporter × OpMemInfo) : Prop :=
  let records := (reportOpFreeInfo launch.1 launch.2).1.notified
  (sentKeys .free records).Perm (sentKeys .malloc records)

instance : DecidablePred Closes := fun _ =>
  inferInstanceAs (Decidable (List.Perm _ _))

theorem closes_iff (r : Reporter) (o : OpMemInfo) : Closes (r, o) ↔
    (sentKeys .free r.notified ++ o.uniqueAddrInfos.map freeKey).Perm
      (sentKeys .malloc r.notified) := by
  obtain ⟨hmalloc, hfree⟩ := sentKeys_reportOpFreeInfo r o
  simp only [Closes, hmalloc, hfree]

section Closing
variable (m : MemoryManage) (o : OpMemInfo)

theorem closes_unreported : Closes (⟨m, []⟩, o) ↔ o.uniqueAddrInfos = [] := by
  rw [closes_iff]
  change (o.uniqueAddrInfos.map freeKey).Perm [] ↔ _
  rw [List.perm_nil, List.map_eq_nil_iff]

theorem closes_reportUnique : Closes (reportUnique ⟨m, []⟩ o, o) := by
  obtain ⟨hmalloc, hfree⟩ := sentKeys_reportUnique ⟨m, []⟩ o
  rw [closes_iff, hmalloc, hfree]
  exact List.Perm.refl _

/-- The tiling block is freed under the description it is stored with. -/
theorem closes_reportTiling (addr size : UInt64) (desc : MemInfoDesc) :
    Closes (reportTiling (reportUnique ⟨m, []⟩ o) o addr size desc) ↔ desc = .tiling := by
  obtain ⟨hmalloc, hfree⟩ := sentKeys_reportUnique ⟨m, []⟩ o
  obtain ⟨htilingMalloc, htilingFree⟩ :=
    sentKeys_reportTiling (reportUnique ⟨m, []⟩ o) o addr size desc
  change Closes ((reportTiling (reportUnique ⟨m, []⟩ o) o addr size desc).1, _) ↔ _
  rw [closes_iff, htilingMalloc, htilingFree, hmalloc, hfree]
  change ((addr, .bypass, desc) :: o.uniqueAddrInfos.map freeKey).Perm
    (o.uniqueAddrInfos.map freeKey ++ [(addr, .bypass, .tiling)]) ↔ _
  constructor
  · intro hperm
    have hswap := hperm.trans (List.perm_append_comm)
    have hsingle := (List.perm_append_right_iff _).mp
      (show ([_] ++ o.uniqueAddrInfos.map freeKey).Perm ([_] ++ _) from hswap)
    simpa using List.singleton_perm_singleton.mp hsingle
  · rintro rfl
    exact (List.perm_append_singleton _ _).symm

end Closing

section Collect

def record (a : AddrInfo) : UInt64 × UInt64 × MemInfoSrc × MemInfoDesc :=
  (a.addr, a.length, a.memInfoSrc, a.memInfoDesc)

def anonymous (a : AddrInfo) : AddrInfo := { a with paramsNo := 0 }

theorem updateAddrInfos_anonymous (addrMap : List AddrInfo) (a : AddrInfo) :
    (updateAddrInfos addrMap a).map anonymous =
      updateAddrInfos (addrMap.map anonymous) (anonymous a) := by
  have hany : (addrMap.map anonymous).any (fun it => it.addr = (anonymous a).addr) =
      addrMap.any (fun it => it.addr = a.addr) := by
    rw [List.any_map]
    rfl
  unfold updateAddrInfos
  rw [hany]
  split_ifs
  · rw [List.map_map, List.map_map]
    refine List.map_congr_left fun it _ => ?_
    by_cases hcond : it.addr = a.addr ∧ a.length > it.length <;>
      simp [anonymous, hcond]
  · rw [List.map_append]
    rfl

theorem foldl_updateAddrInfos_anonymous (l addrMap : List AddrInfo) :
    (l.foldl updateAddrInfos addrMap).map anonymous =
      (l.map anonymous).foldl updateAddrInfos (addrMap.map anonymous) := by
  induction l generalizing addrMap with
  | nil => rfl
  | cons a l ih => rw [List.foldl_cons, ih, updateAddrInfos_anonymous, List.map_cons, List.foldl_cons]

/-- Two loop states that differ in parameter numbers only. -/
structure SameLoop (s t : InputLoop) : Prop where
  second : s.secondPtrAddrInfos = t.secondPtrAddrInfos
  addrMap : s.addrMap.map anonymous = t.addrMap.map anonymous
  index : s.index = t.index

theorem SameLoop.step {s t : InputLoop} (h : SameLoop s t) (ctx : KernelContext)
    (buff : List UInt8) (skipNum shift shift' : UInt32)
    (parse : SecondPtrAddrInfos → UInt32 → SecondPtrAddrInfos) (it : AddrInfo) :
    SameLoop (inputStep ctx buff skipNum shift parse s it)
      (inputStep ctx buff skipNum shift' parse t it) := by
  obtain ⟨hsecond, hmap, hindex⟩ := h
  have hmc2 : (processMc2CtxAddr ctx s.index (readWord buff (skipNum.toNat + s.index.toNat))
        s.addrMap).1 = (processMc2CtxAddr ctx t.index
        (readWord buff (skipNum.toNat + t.index.toNat)) t.addrMap).1 ∧
      (processMc2CtxAddr ctx s.index (readWord buff (skipNum.toNat + s.index.toNat))
        s.addrMap).2.map anonymous = (processMc2CtxAddr ctx t.index
        (readWord buff (skipNum.toNat + t.index.toNat)) t.addrMap).2.map anonymous := by
    rw [hindex]
    unfold processMc2CtxAddr
    split_ifs
    · exact ⟨rfl, hmap⟩
    · refine ⟨rfl, ?_⟩
      rw [foldl_updateAddrInfos_anonymous, foldl_updateAddrInfos_anonymous, hmap]
  refine ⟨?_, ?_, ?_⟩ <;> simp only [inputStep]
  · rw [hsecond, hindex]
  · rw [hmc2.1]
    split_ifs
    · rw [updateAddrInfos_anonymous, updateAddrInfos_anonymous, hmc2.2]
      simp only [anonymous, hindex]
    · exact hmc2.2
  · rw [hindex]

theorem SameLoop.run {s t : InputLoop} (h : SameLoop s t) (ctx : KernelContext)
    (buff : List UInt8) (skipNum shift shift' : UInt32)
    (parse : SecondPtrAddrInfos → UInt32 → SecondPtrAddrInfos) (l : List AddrInfo) :
    SameLoop (l.foldl (inputStep ctx buff skipNum shift parse) s)
      (l.foldl (inputStep ctx buff skipNum shift' parse) t) := by
  induction l generalizing s t with
  | nil => exact h
  | cons it l ih => exact ih (h.step ctx buff skipNum shift shift' parse it)

/-- The shift of the parameter numbers is all that separates the overloads when they
parse alike. -/
theorem collectAddrInfos_records (ctx : KernelContext) (buff : List UInt8)
    (shift shift' : UInt32) (parse : SecondPtrAddrInfos → UInt32 → SecondPtrAddrInfos)
    (o : OpMemInfo) :
    (collectAddrInfos ctx buff shift parse o).uniqueAddrInfos.map record =
      (collectAddrInfos ctx buff shift' parse o).uniqueAddrInfos.map record := by
  have hloop : SameLoop ⟨[], o.secondPtrAddrInfos, [], 0⟩ ⟨[], o.secondPtrAddrInfos, [], 0⟩ :=
    ⟨rfl, rfl, rfl⟩
  obtain ⟨hsecond, hmap, -⟩ :=
    hloop.run ctx buff o.skipNum shift shift' parse o.inputParamsAddrInfos
  have hrecord : ∀ l : List AddrInfo,
      (l.filter fun it => it.addr ≠ 0 && it.length ≠ 0).map record =
        ((l.map anonymous).filter fun it => it.addr ≠ 0 && it.length ≠ 0).map record := by
    intro l
    rw [List.filter_map, List.map_map]
    rfl
  simp only [collectAddrInfos, List.map_append]
  rw [hrecord, hrecord (List.foldl updateAddrInfos _ _), foldl_updateAddrInfos_anonymous,
    foldl_updateAddrInfos_anonymous, hmap, hsecond]

end Collect

/-- The same arguments in the layouts of the two interfaces; the tiling block is
the place holder with the greatest address offset. -/
structure SameArgs (rt : RtArgsEx) (acl : AclrtLaunchArgsInfo) : Prop where
  args : acl.hostArgs = rt.args
  argsSize : acl.argsSize = rt.argsSize.toUInt64
  table : acl.placeHolderArray = rt.hostInputInfoPtr
  num : acl.placeHolderNum = rt.hostInputInfoNum.toUInt64
  noTiling : rt.hostInputInfoNum = 0 → rt.hasTiling = 0
  tiling : rt.hostInputInfoNum ≠ 0 → rt.hasTiling ≠ 0 ∧ ∃ e ∈ rt.hostInputs,
    (∀ f ∈ rt.hostInputs, f.addrOffset ≤ e.addrOffset) ∧
    rt.tilingAddrOffset = e.addrOffset ∧ rt.tilingDataOffset = e.dataOffset

def Agree (ctx : KernelContext) (rt : RtArgsEx) (acl : AclrtLaunchArgsInfo) (m : MemoryManage)
    (o : OpMemInfo) : Prop :=
  let old := reportOpMallocInfo ctx (some rt) ⟨m, []⟩ o
  let new := reportOpMallocInfoAcl ctx acl ⟨m, []⟩ o
  (∀ a, a ∈ old.2.uniqueAddrInfos.map record ↔ a ∈ new.2.uniqueAddrInfos.map record) ∧
    Closes old ∧ Closes new

/-- The interfaces agree exactly when there is nothing to report, or arguments
without any host input. -/
theorem agree_iff (ctx : KernelContext) (rt : RtArgsEx) (acl : AclrtLaunchArgsInfo)
    (m : MemoryManage) (o : OpMemInfo) (h : SameArgs rt acl) :
    Agree ctx rt acl m o ↔
      (rt.args = none ∧ o.uniqueAddrInfos = []) ∨
      (rt.args ≠ none ∧ rt.hostInputInfoNum = 0) := by
  have hargs := h.args
  cases hbuff : rt.args with
  | none =>
    rw [hbuff] at hargs
    simp only [Agree, reportOpMallocInfo, reportOpMallocInfoAcl, hbuff, hargs, closes_unreported]
    simp
  | some buff =>
    rw [hbuff] at hargs
    by_cases hnum : rt.hostInputInfoNum = 0
    · have hacl : acl.placeHolderNum = 0 := by rw [h.num, hnum]; rfl
      have hrtTable : rt.hostInputs = [] := by
        simp [RtArgsEx.hostInputs, hostInputs, hnum]
      have haclTable : acl.hostInputs = [] := by
        simp [AclrtLaunchArgsInfo.hostInputs, hostInputs, hacl]
      have hparse : rt.parseSecondPtrAddrs buff = acl.parseSecondPtrAddrs buff := by
        funext infos index
        rw [RtArgsEx.parseSecondPtrAddrs, AclrtLaunchArgsInfo.parseSecondPtrAddrs, hrtTable,
          haclTable]
        rfl
      simp only [Agree, reportOpMallocInfo, reportOpMallocInfoAcl, hbuff, hargs, h.noTiling hnum,
        hacl, if_true, hparse, closes_reportUnique, and_true]
      simp [hnum, collectAddrInfos_records ctx buff _ 0]
    · have hacl : acl.placeHolderNum ≠ 0 := by
        rw [h.num]
        intro h0
        have hzero := congrArg UInt64.toNat h0
        rw [UInt16.toNat_toUInt64] at hzero
        exact hnum (UInt16.toNat_inj.mp hzero)
      have hnot : ¬ Agree ctx rt acl m o := by
        rintro ⟨-, -, hclose⟩
        simp only [reportOpMallocInfoAcl, hargs, hacl, if_false, closes_reportTiling] at hclose
        exact absurd hclose (by decide)
      simp [hnot, hnum]

def plainContext : KernelContext where
  mc2CtxFlag := false
  throughAdumpFlag := false
  needOverflowStatus := false
  deviceId := 0
  readHcclCombinOpParam _ := none

def oneInput : OpMemInfo := { inputParamsAddrInfos := [⟨0, 64, .extra, .input, 0⟩] }

theorem agree_without_hostInputs :
    Agree plainContext { args := some [0, 0x10, 0, 0, 0, 0, 0, 0], argsSize := 8 }
      { hostArgs := some [0, 0x10, 0, 0, 0, 0, 0, 0], argsSize := 8 } .reset oneInput :=
  (agree_iff plainContext _ _ .reset oneInput
    ⟨rfl, rfl, rfl, rfl, fun _ => rfl, fun h => absurd rfl h⟩).mpr (Or.inr ⟨by decide, rfl⟩)

def tilingArgs : List UInt8 :=
  [0, 0x10, 0, 0, 0, 0, 0, 0, 0, 0x20, 0, 0, 0, 0, 0, 0, 7, 0, 0, 0, 0, 0, 0, 0]

def tilingRt : RtArgsEx where
  args := some tilingArgs
  hostInputInfoPtr := some [⟨8, 16⟩]
  argsSize := 24
  tilingAddrOffset := 8
  tilingDataOffset := 16
  hostInputInfoNum := 1
  hasTiling := 1

def tilingAcl : AclrtLaunchArgsInfo where
  hostArgs := some tilingArgs
  argsSize := 24
  placeHolderArray := some [⟨8, 16⟩]
  placeHolderNum := 1

/-- The tiling block is sent as TILING when it is allocated and as DEFAULT when it is freed. -/
theorem tiling_freed_as_default :
    SameArgs tilingRt tilingAcl ∧
      sentKeys .malloc (reportOpMallocInfoAcl plainContext tilingAcl ⟨.reset, []⟩ oneInput).1.notified =
        [(0x1000, .extra, .input), (0x2000, .bypass, .tiling)] ∧
      ¬ Agree plainContext tilingRt tilingAcl .reset oneInput := by
  refine ⟨⟨rfl, rfl, rfl, rfl, by decide, fun _ => ⟨by decide, ⟨8, 16⟩, by decide⟩⟩, by decide, ?_⟩
  rintro ⟨-, -, hclose⟩
  exact absurd hclose (by decide)

end Msopcom.ReportOpAgreement
