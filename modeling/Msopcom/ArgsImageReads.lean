import Msopcom.MetaSecondPtr

set_option autoImplicit false

/-!
# What is read of the arguments of a launch

The number of inputs, the slots to skip and the size of the tiling data come from the operator,
the image and its offsets from the caller. The routines that look into the image are traced by
what they read of it.
-/
namespace Msopcom.ArgsImageReads
open MetaSecondPtr

/-- The bytes of the arguments and where they are. -/
structure ArgsImage where
  base : ℕ
  bytes : List UInt8

/-- A word or some bytes of the image, or memory that it points to. -/
inductive Read
  | word (index : ℕ)
  | bytes (off size : ℕ)
  | memory (addr size : ℕ)
  deriving DecidableEq

def Read.Inside (image : ArgsImage) : Read → Prop
  | .word index => 8 * index + 8 ≤ image.bytes.length
  | .bytes off size => size = 0 ∨ off + size ≤ image.bytes.length
  | .memory addr size =>
    size = 0 ∨ (image.base ≤ addr ∧ addr + size ≤ image.base + image.bytes.length)

/-! ## The addresses of the parameters -/

section Words
variable (buff : List UInt8) (hostInputs : List HostInputInfo)

def secondPtrLoopWords (hostInputsPtr ptrOffset : ℕ) : ℕ → ℕ → ℕ → List ℕ
  | 0, _, _ => []
  | fuel + 1, dimIdx, ptrIdx =>
    if ptrOffset > 0 ∧ dimIdx < ptrOffset - 1 then
      let dimCntPtr := hostInputsPtr + 1
      let dim := (readWord buff (dimCntPtr + dimIdx)).toUInt32.toNat
      (dimCntPtr + dimIdx) :: (List.range dim).map (fun j => dimCntPtr + (dimIdx + 1 + j)) ++
        (hostInputsPtr + (ptrOffset + ptrIdx)) ::
          secondPtrLoopWords hostInputsPtr ptrOffset fuel (dimIdx + 1 + dim) (ptrIdx + 1)
    else []

def hostInputWords (info : HostInputInfo) : List ℕ :=
  let hostInputsPtr := info.dataOffset.toNat / 8
  let ptrOffset := (readWord buff hostInputsPtr).toNat / 8
  hostInputsPtr :: secondPtrLoopWords buff hostInputsPtr ptrOffset ptrOffset 0 0

def isSecondPtr (infos : SecondPtrAddrInfos) (index : UInt32) : Bool :=
  infos.entries.any fun e => e.1 = index.toUInt64

def secondPtrWords (infos : SecondPtrAddrInfos) (index : UInt32) : List ℕ :=
  if isSecondPtr infos index then
    (hostInputs.filter fun info => info.addrOffset.toNat / 8 = index.toNat).flatMap
      (hostInputWords buff)
  else []

/-- The words that one round of the loop over the inputs reads. -/
def inputWords (o : OpMemInfo) (index : UInt32) : List ℕ :=
  (o.skipNum.toNat + index.toNat) :: secondPtrWords buff hostInputs o.secondPtrAddrInfos index

def collectWords (o : OpMemInfo) : List ℕ :=
  (List.range o.inputParamsAddrInfos.length).flatMap fun i =>
    inputWords buff hostInputs o (UInt32.ofNat i)

end Words

/-! ## The routines -/

def updateNormalTaskArgsAddr (args : List UInt8) (memInfo : OpMemInfo) : OpMemInfo :=
  { memInfo with
    inputParamsAddrInfos := memInfo.inputParamsAddrInfos.zipIdx.map fun (addrInfo, i) =>
      { addrInfo with addr := readWord args (memInfo.skipNum.toNat + i) } }

def slotWords (memInfo : OpMemInfo) : List ℕ :=
  (List.range memInfo.inputParamsAddrInfos.length).map fun i => memInfo.skipNum.toNat + i

/-- Arguments on the device have no place holders. -/
structure ArgsRawContext where
  args : List UInt8
  isDeviceArgs : Bool
  placeHolderArray : List HostInputInfo
  host_of_placeHolder : isDeviceArgs = true → placeHolderArray = []

/-- How the calls of `Save` end: the copy of arguments on the device, and `DumpInputData`. -/
structure SaveOutcomes where
  copiesArgs : Bool
  dumpsInput : Bool

def ArgsRawContext.getTilingData (c : ArgsRawContext) (size : ℕ) : Option (List UInt8) :=
  if c.placeHolderArray = [] ∨ size = 0 then none
  else some ((c.args.drop (tilingPlaceHolder c.placeHolderArray).dataOffset.toNat).take size)

/-- The record with the addresses and the tiling data that is dumped; `none` where the arguments
could not be copied. -/
def ArgsRawContext.save (c : ArgsRawContext) (outcomes : SaveOutcomes) (memInfo : OpMemInfo) :
    Option (OpMemInfo × Option (List UInt8)) :=
  if c.isDeviceArgs && !outcomes.copiesArgs then none
  else
    let memInfo' := updateNormalTaskArgsAddr c.args memInfo
    if outcomes.dumpsInput then some (memInfo', c.getTilingData memInfo.tilingDataSize.toNat)
    else some (memInfo', none)

/-- Where `CompleteInputData` takes the tiling data from, behind the image's own data or behind an
address in it. -/
def tilingBuffData (args : List UInt8) (argsInfo : RtArgsEx) (size : ℕ) : Option Read :=
  if argsInfo.tilingDataOffset ≠ 0 then
    some (.bytes (8 * (argsInfo.tilingDataOffset.toNat / 8)) size)
  else if argsInfo.tilingAddrOffset ≠ 0 then
    let tilingAddr := readWord args (argsInfo.tilingAddrOffset.toNat / 8)
    if tilingAddr ≠ 0 then some (.memory tilingAddr.toNat size) else none
  else none

/-- The routines with what they get from the caller. -/
inductive Routine
  | reportOpMallocInfo (argsInfo : RtArgsEx)
  | reportOpMallocInfoAcl (launchArgs : AclrtLaunchArgsInfo)
  | save (c : ArgsRawContext) (outcomes : SaveOutcomes)
  | updateNormalTaskArgsAddr (args : List UInt8)
  | completeInputData (argsInfo : RtArgsEx)

/-- The routine is called with this image, of as many bytes as its size says. -/
def Routine.On (image : ArgsImage) : Routine → Prop
  | .reportOpMallocInfo a => a.args = some image.bytes ∧ a.argsSize.toNat = image.bytes.length
  | .reportOpMallocInfoAcl a =>
    a.hostArgs = some image.bytes ∧ a.argsSize.toNat = image.bytes.length
  | .save c _ => c.args = image.bytes
  | .updateNormalTaskArgsAddr args => args = image.bytes
  | .completeInputData a => a.args = some image.bytes ∧ a.argsSize.toNat = image.bytes.length

def Routine.reads (memInfo : OpMemInfo) : Routine → List Read
  | .reportOpMallocInfo a =>
    match a.args with
    | none => []
    | some buff =>
      (collectWords buff a.hostInputs memInfo).map .word ++
        if a.hasTiling ≠ 0 then [.word (a.tilingAddrOffset.toNat / 8)] else []
  | .reportOpMallocInfoAcl a =>
    match a.hostArgs with
    | none => []
    | some buff =>
      (collectWords buff a.hostInputs memInfo).map .word ++
        if a.placeHolderNum ≠ 0 then
          [.word ((tilingPlaceHolder a.hostInputs).addrOffset.toNat / 8)]
        else []
  | .save c outcomes =>
    if c.isDeviceArgs && !outcomes.copiesArgs then []
    else
      (slotWords memInfo).map .word ++
        if outcomes.dumpsInput ∧ c.placeHolderArray ≠ [] then
          [.bytes (tilingPlaceHolder c.placeHolderArray).dataOffset.toNat
            memInfo.tilingDataSize.toNat]
        else []
  | .updateNormalTaskArgsAddr _ => (slotWords memInfo).map .word
  | .completeInputData a =>
    (if a.tilingAddrOffset ≠ 0 then [.word (a.tilingAddrOffset.toNat / 8)] else []) ++
      (tilingBuffData (a.args.getD []) a memInfo.tilingDataSize.toNat).toList

/-! ## The trace and the routines -/

section Agreement
variable {describe : UInt64 → UInt64 → ℕ → AddrInfo} {buff buff' : List UInt8}
  {hostInputs : List HostInputInfo}

theorem secondPtrLoop_congr {hostInputsPtr ptrOffset fuel dimIdx ptrIdx : ℕ}
    (h : ∀ k ∈ secondPtrLoopWords buff hostInputsPtr ptrOffset fuel dimIdx ptrIdx,
      readWord buff k = readWord buff' k) (dtypeBytes : UInt64) :
    secondPtrLoop describe dtypeBytes buff hostInputsPtr ptrOffset fuel dimIdx ptrIdx =
      secondPtrLoop describe dtypeBytes buff' hostInputsPtr ptrOffset fuel dimIdx ptrIdx := by
  induction fuel generalizing dimIdx ptrIdx with
  | zero => rfl
  | succ fuel ih =>
    unfold secondPtrLoopWords at h
    unfold secondPtrLoop
    split_ifs at h ⊢ with hgo
    · dsimp only at h ⊢
      have hdim := h _ (List.mem_append_left _ List.mem_cons_self)
      have hptr := h _ (List.mem_append_right _ List.mem_cons_self)
      have hrest := ih fun k hk => h k (List.mem_append_right _ (List.mem_cons_of_mem _ hk))
      have htotal : (List.range (readWord buff (hostInputsPtr + 1 + dimIdx)).toUInt32.toNat).foldl
            (fun total j => total * readWord buff (hostInputsPtr + 1 + (dimIdx + 1 + j))) 1 =
          (List.range (readWord buff (hostInputsPtr + 1 + dimIdx)).toUInt32.toNat).foldl
            (fun total j => total * readWord buff' (hostInputsPtr + 1 + (dimIdx + 1 + j))) 1 := by
        refine List.foldl_ext _ _ _ fun total j hj => ?_
        rw [h _ (List.mem_append_left _ (List.mem_cons_of_mem _ (List.mem_map_of_mem hj)))]
      rw [htotal, hrest, hptr, hdim]
    · rfl

theorem parseHostInput_congr {info : HostInputInfo}
    (h : ∀ k ∈ hostInputWords buff info, readWord buff k = readWord buff' k) (dtypeBytes : UInt64) :
    parseHostInput describe dtypeBytes buff info =
      parseHostInput describe dtypeBytes buff' info := by
  have hoffset := h _ List.mem_cons_self
  unfold parseHostInput
  dsimp only
  rw [← hoffset]
  exact secondPtrLoop_congr (fun k hk => h k (List.mem_cons_of_mem _ hk)) dtypeBytes

theorem parseSecondPtrAddrsWith_congr {infos : SecondPtrAddrInfos} {index : UInt32}
    (h : ∀ k ∈ secondPtrWords buff hostInputs infos index, readWord buff k = readWord buff' k) :
    (parseSecondPtrAddrsWith describe buff hostInputs infos index).entries =
      (parseSecondPtrAddrsWith describe buff' hostInputs infos index).entries := by
  rw [entries_parseSecondPtrAddrsWith, entries_parseSecondPtrAddrsWith]
  refine List.map_congr_left fun e he => ?_
  split_ifs with hkey
  · have hany : isSecondPtr infos index = true :=
      List.any_eq_true.mpr ⟨e, he, decide_eq_true hkey⟩
    unfold secondPtrWords at h
    rw [if_pos hany] at h
    congr 1
    unfold resolvedAt
    refine List.flatMap_congr fun info hinfo => ?_
    exact parseHostInput_congr (fun k hk => h k (List.mem_flatMap.mpr ⟨info, hinfo, hk⟩)) _
  · rfl

theorem isSecondPtr_parse (infos : SecondPtrAddrInfos) (index index' : UInt32) :
    isSecondPtr (parseSecondPtrAddrsWith describe buff hostInputs infos index) index' =
      isSecondPtr infos index' := by
  unfold isSecondPtr
  rw [entries_parseSecondPtrAddrsWith, List.any_map]
  congr 1
  funext e
  dsimp only [Function.comp_apply]
  split_ifs <;> rfl

/-- One round of the loop over the inputs. -/
theorem inputStep_congr {ctx : KernelContext} {skipNum shift : UInt32} {s : InputLoop}
    (it : AddrInfo)
    (hslot : readWord buff (skipNum.toNat + s.index.toNat) =
      readWord buff' (skipNum.toNat + s.index.toNat))
    (hptrs : ∀ k ∈ secondPtrWords buff hostInputs s.secondPtrAddrInfos s.index,
      readWord buff k = readWord buff' k) :
    inputStep ctx buff skipNum shift (parseSecondPtrAddrsWith describe buff hostInputs) s it =
      inputStep ctx buff' skipNum shift (parseSecondPtrAddrsWith describe buff' hostInputs) s
        it := by
  have hparse : parseSecondPtrAddrsWith describe buff hostInputs s.secondPtrAddrInfos s.index =
      parseSecondPtrAddrsWith describe buff' hostInputs s.secondPtrAddrInfos s.index := by
    have hentries := @parseSecondPtrAddrsWith_congr describe _ _ _ _ _ hptrs
    cases h : parseSecondPtrAddrsWith describe buff hostInputs s.secondPtrAddrInfos s.index
    cases h' : parseSecondPtrAddrsWith describe buff' hostInputs s.secondPtrAddrInfos s.index
    rw [h, h'] at hentries
    cases hentries
    rfl
  unfold inputStep
  rw [hslot, hparse]

theorem inputLoop_congr {ctx : KernelContext} {shift : UInt32} {o : OpMemInfo} (l : List AddrInfo)
    {i : ℕ} {s : InputLoop} (hindex : s.index = UInt32.ofNat i)
    (hkeys : ∀ index, isSecondPtr s.secondPtrAddrInfos index =
      isSecondPtr o.secondPtrAddrInfos index)
    (h : ∀ j < l.length, ∀ k ∈ inputWords buff hostInputs o (UInt32.ofNat (i + j)),
      readWord buff k = readWord buff' k) :
    l.foldl (inputStep ctx buff o.skipNum shift (parseSecondPtrAddrsWith describe buff hostInputs))
        s =
      l.foldl (inputStep ctx buff' o.skipNum shift
        (parseSecondPtrAddrsWith describe buff' hostInputs)) s := by
  induction l generalizing i s with
  | nil => rw [List.foldl_nil, List.foldl_nil]
  | cons it l ih =>
    have hhere := h 0 (Nat.zero_lt_succ _)
    rw [Nat.add_zero, ← hindex] at hhere
    have hptrs : ∀ k ∈ secondPtrWords buff hostInputs s.secondPtrAddrInfos s.index,
        readWord buff k = readWord buff' k := by
      intro k hk
      refine hhere k (List.mem_cons_of_mem _ ?_)
      unfold secondPtrWords at hk ⊢
      rwa [hkeys] at hk
    have hround := @inputStep_congr describe _ _ _ ctx _ shift _ it
      (hhere _ List.mem_cons_self) hptrs
    have hindex' : (inputStep ctx buff o.skipNum shift
        (parseSecondPtrAddrsWith describe buff hostInputs) s it).index = UInt32.ofNat (i + 1) := by
      rw [UInt32.ofNat_add, ← hindex]
      rfl
    have hkeys' (index : UInt32) : isSecondPtr (inputStep ctx buff o.skipNum shift
        (parseSecondPtrAddrsWith describe buff hostInputs) s it).secondPtrAddrInfos index =
          isSecondPtr o.secondPtrAddrInfos index :=
      (isSecondPtr_parse ..).trans (hkeys index)
    rw [List.foldl_cons, List.foldl_cons, ← hround]
    generalize inputStep ctx buff o.skipNum shift
      (parseSecondPtrAddrsWith describe buff hostInputs) s it = s' at hindex' hkeys' ⊢
    refine ih hindex' hkeys' fun j hj => ?_
    rw [Nat.add_assoc, Nat.add_comm 1]
    exact h (j + 1) (Nat.succ_lt_succ hj)

/-- What is collected depends on no other word of the image. -/
theorem collectAddrInfos_congr (ctx : KernelContext) (shift : UInt32) (o : OpMemInfo)
    (h : ∀ k ∈ collectWords buff hostInputs o, readWord buff k = readWord buff' k) :
    collectAddrInfos ctx buff shift (parseSecondPtrAddrsWith describe buff hostInputs) o =
      collectAddrInfos ctx buff' shift (parseSecondPtrAddrsWith describe buff' hostInputs) o := by
  unfold collectAddrInfos
  rw [@inputLoop_congr _ _ buff' _ _ _ _ o.inputParamsAddrInfos 0 _ rfl (fun _ => rfl)]
  intro j hj k hk
  rw [Nat.zero_add] at hk
  exact h k (List.mem_flatMap.mpr ⟨j, List.mem_range.mpr hj, hk⟩)

/-- The report of a launch depends on no other word than those of the trace. -/
theorem reportOpMallocInfo_congr {a : RtArgsEx} (o : OpMemInfo) (hargs : a.args = some buff)
    (h : ∀ k, .word k ∈ (Routine.reportOpMallocInfo a).reads o →
      readWord buff k = readWord buff' k) (ctx : KernelContext) (r : Reporter) :
    reportOpMallocInfo ctx (some a) r o =
      reportOpMallocInfo ctx (some { a with args := some buff' }) r o := by
  unfold Routine.reads at h
  dsimp only at h
  rw [hargs] at h
  have hcollect := @collectAddrInfos_congr RtArgsEx.describe _ _ a.hostInputs
    ctx (o.skipNum + if ctx.mc2CtxFlag then 1 else 0) o fun k hk =>
      h k (List.mem_append_left _ (List.mem_map_of_mem hk))
  unfold reportOpMallocInfo
  dsimp only
  rw [hargs]
  dsimp only
  change collectAddrInfos ctx buff _ (a.parseSecondPtrAddrs buff) o =
    collectAddrInfos ctx buff' _ (({ a with args := some buff' } : RtArgsEx).parseSecondPtrAddrs
      buff') o at hcollect
  rw [hcollect]
  by_cases htiling : a.hasTiling = 0
  · rw [if_pos htiling, if_pos htiling]
  · have hword := h (a.tilingAddrOffset.toNat / 8) (List.mem_append_right _ (by
      rw [if_pos htiling]
      exact List.mem_cons_self))
    rw [if_neg htiling, if_neg htiling, hword]

theorem reportOpMallocInfoAcl_congr {a : AclrtLaunchArgsInfo} (o : OpMemInfo)
    (hargs : a.hostArgs = some buff)
    (h : ∀ k, .word k ∈ (Routine.reportOpMallocInfoAcl a).reads o →
      readWord buff k = readWord buff' k) (ctx : KernelContext) (r : Reporter) :
    reportOpMallocInfoAcl ctx a r o =
      reportOpMallocInfoAcl ctx { a with hostArgs := some buff' } r o := by
  unfold Routine.reads at h
  dsimp only at h
  rw [hargs] at h
  have hcollect := @collectAddrInfos_congr AclrtLaunchArgsInfo.describe _ _
    a.hostInputs ctx 0 o fun k hk =>
      h k (List.mem_append_left _ (List.mem_map_of_mem hk))
  unfold reportOpMallocInfoAcl
  rw [hargs]
  dsimp only
  change collectAddrInfos ctx buff 0 (a.parseSecondPtrAddrs buff) o =
    collectAddrInfos ctx buff' 0 (({ a with hostArgs := some buff' } :
      AclrtLaunchArgsInfo).parseSecondPtrAddrs buff') o at hcollect
  rw [hcollect]
  by_cases htiling : a.placeHolderNum = 0
  · rw [if_pos htiling, if_pos htiling]
  · have hword := h ((tilingPlaceHolder a.hostInputs).addrOffset.toNat / 8)
      (List.mem_append_right _ (by
        rw [if_pos htiling]
        exact List.mem_cons_self))
    rw [if_neg htiling, if_neg htiling, hword]
    rfl

theorem updateNormalTaskArgsAddr_congr (o : OpMemInfo)
    (h : ∀ k ∈ slotWords o, readWord buff k = readWord buff' k) :
    updateNormalTaskArgsAddr buff o = updateNormalTaskArgsAddr buff' o := by
  unfold updateNormalTaskArgsAddr
  rw [List.map_congr_left fun q hq => ?_]
  have hlt := List.snd_lt_of_mem_zipIdx hq
  rw [Nat.add_zero] at hlt
  dsimp only
  rw [h _ (List.mem_map_of_mem (List.mem_range.mpr hlt))]

end Agreement

end Msopcom.ArgsImageReads
