import Mathlib.Tactic.SplitIfs
import Msopcom.MSBit

set_option autoImplicit false

/-!
# The control binary read back

The bound entries come back when the fields are wide enough, and the size of the name list is
never that of what is written.
-/
namespace Msopcom.MSBit
open Bytes Decoder

def entriesSize (bindings : List Binding) : ℕ :=
  (bindings.map fun b => sizeofFuncInfo + 2 * b.paraMask.length).sum

/-- Some bytes behind the names are written with them. -/
def binSize (bindings : List Binding) : ℕ :=
  sizeofCtrlInfo + (entriesSize bindings +
    (sizeofFuncNameList + ((bound bindings).funcLists.length + sizeofFuncNameList)))

structure Fits (bindings : List Binding) : Prop where
  entries : entriesSize bindings < 2 ^ 16
  size : binSize bindings < 2 ^ 32

/-! ## What is written -/

section
variable {bindings : List Binding} {behind : Fin 4 → UInt8}

theorem length_wordBytes (word : UInt16) : (wordBytes word).length = 2 := length_leBytes 2 _

theorem length_serialize {info : InjectInfo} (h : info.paraMask.length < 2 ^ 16) :
    info.serialize.length = infoSize info := by
  have hnum : (UInt16.ofNat info.paraMask.length).toNat = info.paraMask.length :=
    UInt16.toNat_ofNat_of_lt' h
  have hmasks : (info.paraMask.flatMap wordBytes).length = 2 * info.paraMask.length := by
    rw [List.length_flatMap, List.map_congr_left fun word _ => length_wordBytes word,
      List.map_const', List.sum_replicate_nat, Nat.mul_comm]
  unfold InjectInfo.serialize infoSize sizeofFuncInfo
  dsimp only
  rw [hnum, List.take_length]
  simp only [List.length_append, length_wordBytes, hmasks]
  omega

theorem length_ctrlInfo (ctrlInfo : CtrlInfo) : ctrlInfo.serialize.length = sizeofCtrlInfo := by
  unfold CtrlInfo.serialize sizeofCtrlInfo
  simp only [List.length_append, length_wordBytes, length_leBytes]

theorem map_infoSize :
    (bindings.map (Binding.info (bound bindings).funcNames)).map infoSize =
      bindings.map fun b => sizeofFuncInfo + 2 * b.paraMask.length := by
  rw [List.map_map]
  rfl

theorem paraMask_lt (h : entriesSize bindings < 2 ^ 16) {info : InjectInfo}
    (hinfo : info ∈ (bound bindings).injectInfo) : info.paraMask.length < 2 ^ 16 := by
  have hmem : infoSize info ∈ (bound bindings).injectInfo.map infoSize :=
    List.mem_map_of_mem hinfo
  rw [(describes_bound bindings).infos, map_infoSize] at hmem
  have hle := List.single_le_sum (fun _ _ => Nat.zero_le _) _ hmem
  unfold entriesSize at h
  unfold infoSize at hle
  omega

theorem length_injectInfos (h : entriesSize bindings < 2 ^ 16) :
    (bound bindings).injectInfos.length = entriesSize bindings := by
  unfold InjectBindHelper.injectInfos
  rw [List.length_flatMap,
    List.map_congr_left fun info hinfo => length_serialize (paraMask_lt h hinfo),
    (describes_bound bindings).infos, map_infoSize]
  rfl

theorem length_le_entriesSize : bindings.length ≤ entriesSize bindings := by
  have hle := List.length_le_sum_of_one_le
    (bindings.map fun b => sizeofFuncInfo + 2 * b.paraMask.length) fun i hi => by
      obtain ⟨b, -, rfl⟩ := List.mem_map.mp hi
      unfold sizeofFuncInfo
      omega
  rwa [List.length_map] at hle

theorem length_funcNames_le : (bound bindings).funcNames.length ≤ bindings.length := by
  have hdescribes := describes_bound bindings
  have hsub : (bound bindings).funcNames ⊆ bindings.map Binding.injectedFuncName := by
    intro name hname
    exact List.mem_map.mpr ((hdescribes.mem name).mp hname)
  have hle := (List.subperm_of_subset hdescribes.nodup hsub).length_le
  rwa [List.length_map] at hle

theorem length_funcNameList : ((bound bindings).funcNameList behind).length =
    sizeofFuncNameList + (bound bindings).funcNameListSize.toNat := by
  have hle : (bound bindings).funcNameListSize.toNat ≤
      (bound bindings).funcLists.length + sizeofFuncNameList := UInt32.toNat_ofNat' ▸ Nat.mod_le _ _
  unfold InjectBindHelper.funcNameList
  rw [List.length_append, length_leBytes, List.length_take, List.length_append, List.length_ofFn,
    show 4 = sizeofFuncNameList from rfl, Nat.min_eq_left hle]

/-- The four bytes of the size are counted twice. -/
theorem not_sizesExact : ¬ SizesExact bindings behind := by
  intro h
  have hsize := h.funcNameList
  rw [length_funcNameList, sizeofFuncNameList] at hsize
  omega

/-! ## What is read -/

theorem toNat_funcNameListSize (h : Fits bindings) : (bound bindings).funcNameListSize.toNat =
    (bound bindings).funcLists.length + sizeofFuncNameList := by
  have hlt : (bound bindings).funcLists.length + sizeofFuncNameList < 2 ^ 32 :=
    lt_of_le_of_lt (by unfold binSize; omega) h.size
  exact UInt32.toNat_ofNat_of_lt' hlt

theorem length_buffer (h : Fits bindings) :
    sizeofCtrlInfo + ((bound bindings).buffer behind).length = binSize bindings := by
  unfold InjectBindHelper.buffer binSize
  rw [List.length_append, length_injectInfos h.entries, length_funcNameList,
    toNat_funcNameListSize h]

theorem splitOn_funcLists (hsep : ∀ b ∈ bindings, funcNameSep ∉ b.injectedFuncName)
    (hne : (bound bindings).funcNames ≠ []) :
    (bound bindings).funcLists.splitOn funcNameSep = (bound bindings).funcNames := by
  refine List.splitOn_intercalate _ (fun name hname => ?_) hne
  obtain ⟨b, hb, rfl⟩ := ((describes_bound bindings).mem name).mp hname
  exact hsep b hb

/-- The numbers of the names find them again. -/
theorem resolve_eq (h : Fits bindings)
    (hsep : ∀ b ∈ bindings, funcNameSep ∉ b.injectedFuncName) :
    ((bound bindings).injectInfo.mapM fun info =>
      (((bound bindings).funcLists.splitOn funcNameSep)[info.injectFuncId.toNat]?).map fun name =>
        (⟨info.instrId, name, info.paraMask⟩ : Binding)) = some bindings := by
  rw [mapM_eq_some_iff, (describes_bound bindings).infos, List.forall₂_map_left_iff,
    List.forall₂_same]
  intro b hb
  have hmem : b.injectedFuncName ∈ (bound bindings).funcNames :=
    ((describes_bound bindings).mem _).mpr ⟨b, hb, rfl⟩
  have hlt : (bound bindings).funcNames.idxOf b.injectedFuncName < 2 ^ 16 := by
    calc (bound bindings).funcNames.idxOf b.injectedFuncName
        < (bound bindings).funcNames.length := List.idxOf_lt_length_of_mem hmem
      _ ≤ bindings.length := length_funcNames_le
      _ ≤ entriesSize bindings := length_le_entriesSize
      _ < 2 ^ 16 := h.entries
  have hid : (b.info (bound bindings).funcNames).injectFuncId.toNat =
      (bound bindings).funcNames.idxOf b.injectedFuncName := UInt16.toNat_ofNat_of_lt' hlt
  rw [splitOn_funcLists hsep (List.ne_nil_of_mem hmem), hid, List.getElem?_idxOf hmem]
  rfl

theorem decode_ctrlInfo (ctrlInfo : CtrlInfo) (rest : List UInt8) :
    decode (ctrlInfo.serialize ++ rest) = decodeData ctrlInfo.splitOffset1.toNat
      (((ctrlInfo.serialize ++ rest).take ctrlInfo.size.toNat).drop sizeofCtrlInfo) := by
  have hlt : ctrlInfo.size.toNat < 256 ^ 4 := ctrlInfo.size.toNat_lt
  generalize hbin : ctrlInfo.serialize ++ rest = bin
  unfold CtrlInfo.serialize at hbin
  rw [List.append_assoc, List.append_assoc, List.append_assoc] at hbin
  unfold decode
  rw [← hbin, readLe_leBytes hlt]
  dsimp only [Bind.bind, Option.bind]
  rw [decodes_readWord]
  dsimp only
  rw [decodes_readWord]

theorem toNat_splitOffset1 (h : Fits bindings) :
    ((bound bindings).ctrlInfo behind).splitOffset1.toNat =
      (bound bindings).injectInfos.length := by
  refine UInt16.toNat_ofNat_of_lt' ?_
  rw [length_injectInfos h.entries]
  exact h.entries

theorem toNat_size (h : Fits bindings) : ((bound bindings).ctrlInfo behind).size.toNat =
    ((bound bindings).serialize behind).length := by
  have htotal := @length_buffer bindings behind h
  have hlt : ((bound bindings).buffer behind).length + sizeofCtrlInfo < 2 ^ 32 := by
    rw [Nat.add_comm, htotal]
    exact h.size
  unfold InjectBindHelper.serialize
  rw [List.length_append, length_ctrlInfo, Nat.add_comm]
  exact UInt32.toNat_ofNat_of_lt' hlt

theorem all_injectInfos (h : Fits bindings) :
    all readFuncInfo ((bound bindings).buffer behind).length (bound bindings).injectInfos =
      some (bound bindings).injectInfo := by
  have hne (info : InjectInfo) : info.serialize ≠ [] := by
    refine List.ne_nil_of_length_pos ?_
    unfold InjectInfo.serialize
    rw [List.length_append, length_wordBytes]
    omega
  refine all_flatMap (fun info hinfo => decodes_readFuncInfo (paraMask_lt h.entries hinfo)) hne ?_
  refine (length_le_length_flatMap hne _).trans ?_
  unfold InjectBindHelper.buffer
  rw [List.length_append]
  exact Nat.le_add_right _ _

theorem decodeData_buffer (h : Fits bindings)
    (hsep : ∀ b ∈ bindings, funcNameSep ∉ b.injectedFuncName) :
    decodeData (bound bindings).injectInfos.length ((bound bindings).buffer behind) =
      some bindings := by
  have hlist : (bound bindings).funcNameListSize.toNat - sizeofFuncNameList =
      (bound bindings).funcLists.length := by
    rw [toNat_funcNameListSize h, Nat.add_sub_cancel]
  have hlt : (bound bindings).funcNameListSize.toNat < 256 ^ 4 :=
    (bound bindings).funcNameListSize.toNat_lt
  have htake : (bound bindings).funcLists.length ≤
      ((bound bindings).funcLists ++ List.ofFn behind).length := by
    rw [List.length_append]
    exact Nat.le_add_right _ _
  have hinfos := @all_injectInfos bindings behind h
  have hnames : (((bound bindings).funcLists ++ List.ofFn behind).take
      (bound bindings).funcNameListSize.toNat).take (bound bindings).funcLists.length =
      (bound bindings).funcLists := by
    rw [List.take_take, toNat_funcNameListSize h, Nat.min_eq_left (Nat.le_add_right _ _),
      List.take_left]
  unfold decodeData InjectBindHelper.buffer at *
  rw [List.take_left, List.drop_left, hinfos]
  dsimp only [Bind.bind, Option.bind]
  unfold InjectBindHelper.funcNameList
  rw [readLe_leBytes hlt]
  dsimp only
  rw [hlist, if_pos, hnames]
  · exact resolve_eq h hsep
  · rw [List.length_take, toNat_funcNameListSize h]
    omega

theorem decode_serialize (h : Fits bindings)
    (hsep : ∀ b ∈ bindings, funcNameSep ∉ b.injectedFuncName) :
    decode ((bound bindings).serialize behind) = some bindings := by
  have hsize := @toNat_size bindings behind h
  unfold InjectBindHelper.serialize at hsize ⊢
  rw [decode_ctrlInfo, hsize, List.take_length, List.drop_left' (length_ctrlInfo _),
    toNat_splitOffset1 h]
  exact decodeData_buffer h hsep

/-! ## What can be read at all -/

/-- Entries that were read came from before `splitOffset1`, and their names from behind it. -/
theorem size_of_decodeData {splitOffset1 : ℕ} {data : List UInt8}
    (h : decodeData splitOffset1 data = some bindings) :
    entriesSize bindings = splitOffset1 ∧
      entriesSize bindings + sizeofFuncNameList + (bound bindings).funcLists.length ≤
        data.length := by
  obtain ⟨injectInfo, hinfos, h⟩ := Option.bind_eq_some_iff.mp h
  obtain ⟨⟨listSize, rest⟩, hread, h⟩ := Option.bind_eq_some_iff.mp h
  dsimp only at h
  split_ifs at h with hle
  have hresolve := mapM_eq_some_iff.mp h
  have hsizes : injectInfo.map infoSize =
      bindings.map fun b => sizeofFuncInfo + 2 * b.paraMask.length := by
    refine List.forall₂_eq_eq_eq ▸ ?_
    rw [List.forall₂_map_left_iff, List.forall₂_map_right_iff]
    refine hresolve.imp fun info b heq => ?_
    obtain ⟨name, -, rfl⟩ := Option.map_eq_some_iff.mp heq
    rfl
  have hsum := sum_size_all sized_readFuncInfo hinfos
  rw [hsizes, List.length_take] at hsum
  have hlen : (data.drop splitOffset1).length = 4 + rest.length := sized_readLe 4 _ _ _ hread
  rw [List.length_drop] at hlen
  have hnames : (bound bindings).funcNames ⊆
      (rest.take (listSize - sizeofFuncNameList)).splitOn funcNameSep := by
    intro name hname
    obtain ⟨b, hb, rfl⟩ := ((describes_bound bindings).mem name).mp hname
    obtain ⟨info, -, heq⟩ := exists_of_mapM h hb
    obtain ⟨name, hget, rfl⟩ := Option.map_eq_some_iff.mp heq
    exact List.mem_of_getElem? hget
  have hlists := length_intercalate_le funcNameSep (describes_bound bindings).nodup hnames
  rw [List.length_take] at hlists
  unfold entriesSize InjectBindHelper.funcLists sizeofFuncNameList at *
  omega

theorem fits_of_decode (h : decode ((bound bindings).serialize behind) = some bindings) :
    Fits bindings := by
  unfold InjectBindHelper.serialize at h
  rw [decode_ctrlInfo] at h
  obtain ⟨hentries, hsize⟩ := size_of_decodeData h
  have hlt : entriesSize bindings < 2 ^ 16 := hentries ▸ UInt16.toNat_lt _
  refine ⟨hlt, ?_⟩
  rw [List.length_drop, List.length_take] at hsize
  have hctrl : ((bound bindings).ctrlInfo behind).size.toNat =
      (((bound bindings).buffer behind).length + sizeofCtrlInfo) % 2 ^ 32 := UInt32.toNat_ofNat'
  have hbuffer : ((bound bindings).buffer behind).length =
      entriesSize bindings + (sizeofFuncNameList + (bound bindings).funcNameListSize.toNat) := by
    unfold InjectBindHelper.buffer
    rw [List.length_append, length_injectInfos hlt, length_funcNameList]
  have hlist : (bound bindings).funcNameListSize.toNat =
      ((bound bindings).funcLists.length + sizeofFuncNameList) % 2 ^ 32 := UInt32.toNat_ofNat'
  unfold binSize sizeofCtrlInfo sizeofFuncNameList at *
  omega

theorem decode_serialize_iff (hsep : ∀ b ∈ bindings, funcNameSep ∉ b.injectedFuncName) :
    decode ((bound bindings).serialize behind) = some bindings ↔ Fits bindings :=
  ⟨fits_of_decode, fun h => decode_serialize h hsep⟩

end

/-- No control binary is what its layout says. -/
theorem not_roundTrip (bindings : List Binding) (behind : Fin 4 → UInt8) :
    ¬ RoundTrip bindings behind :=
  fun h => not_sizesExact h.sizes

/-- One binding, and the terminator and three more bytes behind its name. -/
theorem probeFunction_not_roundTrip :
    ¬ RoundTrip [⟨1, [112], [0, 1, 2]⟩] fun _ => 0 := by
  intro h
  exact absurd h.sizes.funcNameList (by decide)

end Msopcom.MSBit
