import Msopcom.DumperContext
import Msopcom.KernelConfigParser
import Msopcom.FlatJson
import Msopcom.Words

set_option autoImplicit false

/-!
# From the dumped configuration to the launcher's

The launcher reads the JSON object of a dumped launch back, member by member, and what it reads
is compared with the launch.
-/
namespace Msopcom.KernelConfigRoundTrip
open Ustring KernelConfig KernelConfigParser DumperContext

variable {ctx : DumperContext} {magic : String}

/-! ## The members in the order of their reading -/

/-- The old mode is written first and read last. -/
def readMembers (ctx : DumperContext) (magic : String) : JsonObject :=
  ctx.launchMembers ++ (ctx.inputMembers ++ ([("kernel_name", ctx.kernelName), ("magic", magic)] ++
    (ctx.tilingDataMember ++ (ctx.tilingKeyMember ++ ctx.oldMode))))

theorem readMembers_perm {object : JsonObject} (h : ctx.toJson = some object) :
    ∃ magic, magicName ctx.magic = some magic ∧ object.Perm (readMembers ctx magic) := by
  obtain ⟨magic, hmagic, rfl⟩ := Option.map_eq_some_iff.mp h
  refine ⟨magic, hmagic, ?_⟩
  rw [List.append_assoc, List.append_assoc, List.append_assoc, List.append_assoc]
  refine List.perm_append_comm.trans (List.Perm.of_eq ?_)
  rw [readMembers, List.append_assoc, List.append_assoc, List.append_assoc, List.append_assoc]

theorem readMembers_keys : (readMembers ctx magic).map Prod.fst =
    ["bin_path", "block_dim", "device_id", "ffts", "input_path", "input_size", "kernel_name",
      "magic"] ++ ((if ctx.tilingDataPath ≠ "" then ["tiling_data_path"] else []) ++
        ((if ctx.hasTilingKey then ["tiling_key"] else []) ++
          (if ctx.isAclNew then ["old_mode"] else []))) := by
  unfold readMembers tilingDataMember tilingKeyMember oldMode
  split_ifs <;> rfl

/-- The keys that are read are known ones, and stand in the order of the table. -/
theorem readMembers_inOrder : Known (readMembers ctx magic) ∧
    (readMembers ctx magic).Pairwise InOrder := by
  have hkeys : (∀ key ∈ (readMembers ctx magic).map Prod.fst, (argsOrders.lookup key).isSome) ∧
      ((readMembers ctx magic).map Prod.fst).Pairwise fun a b => argsOrder a < argsOrder b := by
    rw [readMembers_keys]
    split_ifs <;> decide
  rw [List.pairwise_map] at hkeys
  exact ⟨fun item hitem => hkeys.1 item.1 (List.mem_map_of_mem hitem), hkeys.2⟩

theorem sortItems_readMembers {items : JsonObject} (h : items.Perm (readMembers ctx magic)) :
    sortItems items = readMembers ctx magic :=
  sortItems_eq readMembers_inOrder.1 readMembers_inOrder.2 h

theorem readMembers_nodup : ((readMembers ctx magic).map Prod.fst).Nodup :=
  List.pairwise_map.mpr (readMembers_inOrder.2.imp fun {lhs rhs} (hlt : InOrder lhs rhs) heq =>
    Nat.ne_of_lt hlt (congrArg argsOrder heq))

/-! ## Reading the members -/

section Reading
variable {p : KernelConfigParser}

theorem parseItems_cons {key value : String} {rest : JsonObject}
    {parserFunc : String → KernelConfigParser → Option KernelConfigParser}
    (h : parserFuncs.lookup key = some parserFunc) :
    parseItems ((key, value) :: rest) p = (parserFunc value p).bind (parseItems rest) := by
  rw [parseItems, parseItem, h]

def fftsParams (ctx : DumperContext) : List Param := if ctx.isFFTS then [fftsParam] else []

def launchRead (ctx : DumperContext) : KernelConfigParser where
  kernelConfig :=
    { kernelBinaryPath := ctx.binPath
      blockDim := Int32.ofInt ctx.blockDim.toNat
      deviceID := ctx.devId
      params := fftsParams ctx }

theorem parse_launchMembers (ctx : DumperContext) : parseItems ctx.launchMembers {} =
    if ctx.blockDim.toNat < 2 ^ 31 then some (launchRead ctx) else none := by
  have hbound : ctx.blockDim.toNat < 2 ^ 32 := ctx.blockDim.toNat_lt
  have hblockDim : stringToInt32 (toString ctx.blockDim.toNat) = _ :=
    stringToInt32_repr (n := ctx.blockDim.toNat) (by omega)
  unfold launchMembers
  rw [parseItems_cons rfl, setBinPath, Option.bind_some, parseItems_cons rfl, setBlockDim,
    hblockDim]
  by_cases hfits : ctx.blockDim.toNat < 2 ^ 31
  · rw [if_pos hfits, if_pos hfits, Option.map_some, Option.bind_some, parseItems_cons rfl,
      setDeviceId, stringToInt32_toString, Option.map_some, Option.bind_some, parseItems_cons rfl,
      setFfts, Option.bind_some]
    unfold launchRead fftsParams
    cases ctx.isFFTS <;> rfl
  · rw [if_neg hfits, if_neg hfits]
    rfl

def readInput (token : String) (size : UInt64) : Param :=
  { inputParam token with dataSize := some size }

theorem inputParam_type (token : String) : (inputParam token).type = .input := rfl

/-- The sizes that are written are the sizes that are set, one for each input in turn. -/
theorem setSizes_inputs {tokens : List String} {sizes : List UInt64} :
    setSizes .input (tokens.map inputParam) (sizes.map toString) =
      if tokens.length ≤ sizes.length then some (List.zipWith readInput tokens sizes)
      else none := by
  induction tokens generalizing sizes with
  | nil => rfl
  | cons token rest ih =>
    cases sizes with
    | nil => rfl
    | cons size sizes =>
      have hcons : (token :: rest).length ≤ (size :: sizes).length ↔ rest.length ≤ sizes.length :=
        Nat.succ_le_succ_iff
      rw [List.map_cons, List.map_cons, setSizes_same (inputParam_type token),
        stringToUInt64_toString,
        Option.bind_some, ih]
      by_cases hlength : rest.length ≤ sizes.length
      · rw [if_pos hlength, if_pos (hcons.mpr hlength)]
        rfl
      · rw [if_neg hlength, if_neg (mt hcons.mp hlength)]
        rfl

theorem fftsParams_type : ∀ param ∈ fftsParams ctx, param.type = .fftsAddr := by
  unfold fftsParams
  split_ifs
  · exact fun param hparam => List.mem_singleton.mp hparam ▸ rfl
  · exact fun param hparam => absurd hparam List.not_mem_nil

/-- The paths as they come back. -/
def tokens (ctx : DumperContext) : List String := splitString (join ctx.inputPathList ";") ';'

theorem splitString_sizes (sizes : List UInt64) :
    splitString (join (sizes.map toString) ";") ';' = sizes.map toString := by
  by_cases hne : sizes = []
  · rw [hne]
    rfl
  · refine splitString_join_of_last rfl (fun h => hne (List.map_eq_nil_iff.mp h)) ?_ fun hlast => ?_
    · intro s hs
      obtain ⟨size, _, rfl⟩ := List.mem_map.mp hs
      exact not_mem_repr (by decide)
    · obtain ⟨size, _, hsize⟩ := List.mem_map.mp (List.mem_of_getLast? hlast)
      exact repr_ne_empty hsize

def InputsFit (ctx : DumperContext) : Prop :=
  tokens ctx ≠ [] ∧ ctx.inputSizeList.length = (tokens ctx).length ∧ (tokens ctx).length < 2 ^ 32

instance : Decidable (InputsFit ctx) := inferInstanceAs (Decidable (_ ∧ _ ∧ _))

def pathsRead (ctx : DumperContext) (p : KernelConfigParser) : KernelConfigParser :=
  { p.addParams ((tokens ctx).map inputParam) with inputCount := UInt32.ofNat (tokens ctx).length }

def inputsRead (ctx : DumperContext) (p : KernelConfigParser) : KernelConfigParser :=
  { p.addParams (List.zipWith readInput (tokens ctx) ctx.inputSizeList) with
    inputCount := UInt32.ofNat (tokens ctx).length }

theorem setInputPath_join : setInputPath (join ctx.inputPathList ";") p =
    if tokens ctx = [] then none else some (pathsRead ctx p) := rfl

theorem setInputSize_join (sizes : List UInt64) : setInputSize (join (sizes.map toString) ";") p =
    if p.inputCount = 0 then none
    else if sizes.length ≠ p.inputCount.toNat then none
    else p.setAllSizes .input (sizes.map toString) := by
  rw [setInputSize, splitString_sizes, List.length_map]

/-- The parameters in front of the inputs keep their sizes. -/
theorem setAllSizes_pathsRead (hparams : p.kernelConfig.params = fftsParams ctx) :
    (pathsRead ctx p).setAllSizes .input (ctx.inputSizeList.map toString) =
      if (tokens ctx).length ≤ ctx.inputSizeList.length then some (inputsRead ctx p)
      else none := by
  have hfront : ∀ param ∈ fftsParams ctx, param.type ≠ .input := fun param hparam htype =>
    absurd ((fftsParams_type param hparam).symm.trans htype) (by decide)
  have hall : (pathsRead ctx p).kernelConfig.params =
      fftsParams ctx ++ (tokens ctx).map inputParam := by
    rw [← hparams]
    rfl
  rw [setAllSizes, hall, setSizes_append hfront, setSizes_inputs]
  by_cases hlength : (tokens ctx).length ≤ ctx.inputSizeList.length
  · rw [if_pos hlength, if_pos hlength, Option.map_some, Option.map_some]
    unfold inputsRead addParams
    rw [← hparams]
    rfl
  · rw [if_neg hlength, if_neg hlength]
    rfl

/-- Inputs are read if there is one, there are as many sizes and the 32-bit count is theirs. -/
theorem parse_inputMembers (hparams : p.kernelConfig.params = fftsParams ctx) :
    parseItems ctx.inputMembers p =
      if InputsFit ctx then some (inputsRead ctx p) else none := by
  unfold inputMembers
  rw [parseItems_cons rfl, setInputPath_join]
  by_cases hempty : tokens ctx = []
  · rw [if_pos hempty, if_neg fun h : InputsFit ctx => h.1 hempty]
    rfl
  have hpos : 0 < (tokens ctx).length := List.length_pos_iff.mpr hempty
  have hcount : (pathsRead ctx p).inputCount.toNat = (tokens ctx).length % 2 ^ 32 :=
    UInt32.toNat_ofNat'
  rw [if_neg hempty, Option.bind_some, parseItems_cons rfl, setInputSize_join, hcount]
  by_cases hfit : InputsFit ctx
  · have hlength : ctx.inputSizeList.length = (tokens ctx).length := hfit.2.1
    have hmod : (tokens ctx).length % 2 ^ 32 = (tokens ctx).length := Nat.mod_eq_of_lt hfit.2.2
    have hcountNe : (pathsRead ctx p).inputCount ≠ 0 := fun hzero => by
      rw [hzero, hmod] at hcount
      exact absurd hcount.symm (Nat.ne_of_gt hpos)
    rw [if_neg hcountNe, if_neg (not_not.mpr (hlength.trans hmod.symm)),
      setAllSizes_pathsRead hparams, if_pos (Nat.le_of_eq hlength.symm), if_pos hfit]
    rfl
  · rw [if_neg hfit]
    split_ifs with hzero hsizes
    · rfl
    · rfl
    · rw [setAllSizes_pathsRead hparams, if_neg]
      · rfl
      · intro hlength
        have hbound : (tokens ctx).length % 2 ^ 32 < 2 ^ 32 := Nat.mod_lt _ (by decide)
        have hle : (tokens ctx).length % 2 ^ 32 ≤ (tokens ctx).length := Nat.mod_le _ _
        exact hfit ⟨hempty, by omega, by omega⟩

def namesRead (ctx : DumperContext) (magic : String) (p : KernelConfigParser) :
    KernelConfigParser :=
  p.update fun c => { c with kernelName := ctx.kernelName, magic := magic }

theorem magicName_mem (h : magicName ctx.magic = some magic) : magic ∈ magics := by
  unfold magicName at h
  split_ifs at h <;> rw [← Option.some.inj h] <;> decide

theorem parse_names (h : magicName ctx.magic = some magic) :
    parseItems [("kernel_name", ctx.kernelName), ("magic", magic)] p =
      if checkInputStringValid ctx.kernelName fileNameLengthLimit then some (namesRead ctx magic p)
      else none := by
  rw [parseItems_cons rfl, setKernelName]
  by_cases hvalid : checkInputStringValid ctx.kernelName fileNameLengthLimit
  · rw [if_pos hvalid, if_pos hvalid, Option.bind_some, parseItems_cons rfl, setMagic,
      if_pos (magicName_mem h)]
    rfl
  · rw [if_neg hvalid, if_neg hvalid]
    rfl

def tilingParams (ctx : DumperContext) : List Param :=
  if ctx.tilingDataPath ≠ "" then
    [tilingParam ctx.tilingDataPath (UInt64.ofNat ctx.tilingDataSize.toNat)]
  else []

/-- The path of the tiling data comes back with its size behind it. -/
theorem splitString_tiling (hfree : ';' ∉ ctx.tilingDataPath.toList) :
    splitString (join [ctx.tilingDataPath, toString ctx.tilingDataSize.toNat] ";") ';' =
      [ctx.tilingDataPath, toString ctx.tilingDataSize.toNat] := by
  refine splitString_join_of_last rfl (List.cons_ne_nil _ _) ?_ ?_
  · exact List.forall_mem_cons.mpr ⟨hfree, List.forall_mem_singleton.mpr (not_mem_repr (by decide))⟩
  · exact fun h => repr_ne_empty (Option.some.inj h)

theorem parse_tilingData (hfree : ';' ∉ ctx.tilingDataPath.toList) :
    parseItems ctx.tilingDataMember p = some (p.addParams (tilingParams ctx)) := by
  unfold tilingDataMember tilingParams
  by_cases hpath : ctx.tilingDataPath ≠ ""
  · have hne : join [ctx.tilingDataPath, toString ctx.tilingDataSize.toNat] ";" ≠ "" := by
      intro hempty
      have hsplit := splitString_tiling hfree
      rw [hempty] at hsplit
      exact List.cons_ne_nil _ _ hsplit.symm
    have hbound : ctx.tilingDataSize.toNat < 2 ^ 32 := ctx.tilingDataSize.toNat_lt
    have hsize : stringToUInt64 (toString ctx.tilingDataSize.toNat) =
        some (UInt64.ofNat ctx.tilingDataSize.toNat) := by
      have h := stringToUInt64_toString (UInt64.ofNat ctx.tilingDataSize.toNat)
      change stringToUInt64 (UInt64.ofNat ctx.tilingDataSize.toNat).toNat.repr = _ at h
      rwa [Words.toNat_ofNat64 (by omega)] at h
    rw [if_pos hpath, if_pos hpath, parseItems_cons rfl, setTilingDataPath, if_neg hne,
      splitString_tiling hfree]
    dsimp only
    rw [hsize]
    rfl
  · rw [if_neg hpath, if_neg hpath, addParams_nil]
    rfl

def tilingKeyRead (ctx : DumperContext) (p : KernelConfigParser) : KernelConfigParser :=
  if ctx.hasTilingKey then
    p.update fun c => { c with tilingKey := ctx.tilingKey, hasTilingKey := true }
  else p

theorem parse_tilingKey : parseItems ctx.tilingKeyMember p = some (tilingKeyRead ctx p) := by
  unfold tilingKeyMember tilingKeyRead
  by_cases hkey : ctx.hasTilingKey
  · have hne : toString ctx.tilingKey ≠ "" := repr_ne_empty
    rw [if_pos hkey, if_pos hkey, parseItems_cons rfl, setTilingKey, if_neg hne,
      stringToUInt64_toString]
    rfl
  · rw [if_neg hkey, if_neg hkey]
    rfl

def oldModeRead (ctx : DumperContext) (p : KernelConfigParser) : KernelConfigParser :=
  if ctx.isAclNew then p.update fun c => { c with isOldVersion := false } else p

theorem parse_oldMode : parseItems ctx.oldMode p = some (oldModeRead ctx p) := by
  unfold oldMode oldModeRead
  cases ctx.isAclNew <;> rfl

end Reading

/-! ## The whole object -/

def configRead (ctx : DumperContext) (magic : String) : KernelConfig where
  hasTilingKey := ctx.hasTilingKey
  isOldVersion := !ctx.isAclNew
  tilingKey := if ctx.hasTilingKey then ctx.tilingKey else 0
  blockDim := Int32.ofInt ctx.blockDim.toNat
  deviceID := ctx.devId
  kernelName := ctx.kernelName
  kernelBinaryPath := ctx.binPath
  magic := magic
  params := fftsParams ctx ++ List.zipWith readInput (tokens ctx) ctx.inputSizeList ++
    tilingParams ctx

/-- The checks of the launcher's parser on a dumped configuration. -/
def Accepted (ctx : DumperContext) : Prop :=
  ctx.blockDim.toNat < 2 ^ 31 ∧ InputsFit ctx ∧
    checkInputStringValid ctx.kernelName fileNameLengthLimit

instance : Decidable (Accepted ctx) := inferInstanceAs (Decidable (_ ∧ _ ∧ _))

theorem parse_readMembers (hmagic : magicName ctx.magic = some magic)
    (hfree : ';' ∉ ctx.tilingDataPath.toList) :
    (parseItems (readMembers ctx magic) {}).map KernelConfigParser.kernelConfig =
      if Accepted ctx then some (configRead ctx magic) else none := by
  unfold readMembers
  rw [parseItems_append, parse_launchMembers]
  by_cases hblockDim : ctx.blockDim.toNat < 2 ^ 31
  · rw [if_pos hblockDim, Option.bind_some, parseItems_append, parse_inputMembers rfl]
    by_cases hfit : InputsFit ctx
    · rw [if_pos hfit, Option.bind_some, parseItems_append, parse_names hmagic]
      by_cases hvalid : checkInputStringValid ctx.kernelName fileNameLengthLimit
      · rw [if_pos hvalid, Option.bind_some, parseItems_append, parse_tilingData hfree,
          Option.bind_some, parseItems_append, parse_tilingKey, Option.bind_some, parse_oldMode,
          if_pos ⟨hblockDim, hfit, hvalid⟩]
        unfold oldModeRead tilingKeyRead configRead
        cases ctx.isAclNew <;> cases ctx.hasTilingKey <;> rfl
      · rw [if_neg hvalid, if_neg fun h : Accepted ctx => hvalid h.2.2]
        rfl
    · rw [if_neg hfit, if_neg fun h : Accepted ctx => hfit h.2.1]
      rfl
  · rw [if_neg hblockDim, if_neg fun h : Accepted ctx => hblockDim h.1]
    rfl

/-- What the launcher reads from the file that a launch was dumped to. -/
theorem getKernelConfig_dumped {json : JsonLibrary} {object : JsonObject} {text : String}
    (hjson : json.RoundTrip) (hobject : ctx.toJson = some object)
    (htext : json.dump object = some text) (hfree : ';' ∉ ctx.tilingDataPath.toList) :
    ∃ magic, magicName ctx.magic = some magic ∧ json.getKernelConfig text =
      if Accepted ctx then some (configRead ctx magic) else none := by
  obtain ⟨magic, hmagic, hperm⟩ := readMembers_perm hobject
  have hnodup : (object.map Prod.fst).Nodup :=
    (hperm.map Prod.fst).nodup_iff.mpr readMembers_nodup
  obtain ⟨hne, items, hitems, hread⟩ := hjson object text hnodup htext
  refine ⟨magic, hmagic, ?_⟩
  rw [JsonLibrary.getKernelConfig, if_neg hne, hitems, Option.bind_some,
    sortItems_readMembers (hread.trans hperm), parse_readMembers hmagic hfree]

/-! ## Agreement -/

/-- The inputs of a launch as parameters: absent exactly those without data. -/
def InputsAgree (ctx : DumperContext) (inputs : List Param) : Prop :=
  inputs.map Param.dataPath = ctx.inputPathList ∧
    inputs.map Param.dataSize = ctx.inputSizeList.map some ∧
      ∀ input ∈ inputs, input.type = .input ∧
        input.isRequired = some (decide (input.dataSize ≠ some 0))

structure Agrees (ctx : DumperContext) (config : KernelConfig) : Prop where
  kernelName : config.kernelName = ctx.kernelName
  blockDim : config.blockDim.toInt = ctx.blockDim.toNat
  deviceID : config.deviceID = ctx.devId
  magic : magicName ctx.magic = some config.magic
  tilingKey : config.tilingKey = ctx.tilingKey
  hasTilingKey : config.hasTilingKey = ctx.hasTilingKey
  params : ∃ inputs, config.params = fftsParams ctx ++ inputs ++ tilingParams ctx ∧
    InputsAgree ctx inputs

def AbsentMatch (paths : List String) (sizes : List UInt64) : Prop :=
  List.Forall₂ (fun path size => path = "n" ↔ size = 0) paths sizes

theorem absent_readInput_iff {token : String} {size : UInt64} :
    (readInput token size).isRequired = some (decide ((readInput token size).dataSize ≠ some 0)) ↔
      (token = "n" ↔ size = 0) := by
  change some (decide (token ≠ "n")) = some (decide (some size ≠ some 0)) ↔ _
  rw [Option.some_inj, decide_eq_decide, not_iff_not, Option.some_inj]

theorem readInputs_agree {paths : List String} {sizes : List UInt64}
    (h : sizes.length = paths.length) :
    (List.zipWith readInput paths sizes).map Param.dataPath = paths ∧
      (List.zipWith readInput paths sizes).map Param.dataSize = sizes.map some ∧
        ((∀ input ∈ List.zipWith readInput paths sizes, input.type = .input ∧
            input.isRequired = some (decide (input.dataSize ≠ some 0))) ↔
          AbsentMatch paths sizes) := by
  induction paths generalizing sizes with
  | nil =>
    rw [List.length_eq_zero_iff.mp h]
    exact ⟨rfl, rfl, fun _ => .nil, fun _ input hinput => absurd hinput List.not_mem_nil⟩
  | cons path paths ih =>
    cases sizes with
    | nil => exact absurd h (Nat.succ_ne_zero _).symm
    | cons size sizes =>
      obtain ⟨hpaths, hsizes, habsent⟩ := ih (Nat.succ.inj h)
      rw [List.zipWith_cons_cons, List.map_cons, List.map_cons, hpaths, hsizes,
        List.forall_mem_cons, habsent, absent_readInput_iff]
      exact ⟨rfl, rfl, fun hall => .cons hall.1.2 hall.2,
        fun hall => ⟨⟨rfl, (List.forall₂_cons.mp hall).1⟩, (List.forall₂_cons.mp hall).2⟩⟩

/-! ## When the two agree -/

/-- What a launch is dumped with: a binary and a kernel, and paths without the separator. -/
structure Dumpable (ctx : DumperContext) : Prop where
  binPath : ctx.binPath ≠ ""
  kernelName : ctx.kernelName ≠ ""
  binPathFree : ';' ∉ ctx.binPath.toList
  inputPathsFree : ∀ path ∈ ctx.inputPathList, ';' ∉ path.toList
  tilingDataPathFree : ';' ∉ ctx.tilingDataPath.toList

/-- The inputs keep their number, and `n` stands for those without data and for no other. -/
structure InputsReadable (paths : List String) (sizes : List UInt64) : Prop where
  someInput : paths ≠ []
  lastPath : paths.getLast? ≠ some ""
  count : paths.length < 2 ^ 32
  absent : AbsentMatch paths sizes

structure Readable (ctx : DumperContext) : Prop where
  kernelName : checkInputStringValid ctx.kernelName fileNameLengthLimit
  blockDim : ctx.blockDim.toNat < 2 ^ 31
  inputs : InputsReadable ctx.inputPathList ctx.inputSizeList
  tilingKey : ctx.hasTilingKey = false → ctx.tilingKey = 0

theorem tokens_eq_iff (hfree : ∀ path ∈ ctx.inputPathList, ';' ∉ path.toList)
    (hne : tokens ctx ≠ []) : tokens ctx = ctx.inputPathList ↔
      ctx.inputPathList ≠ [] ∧ ctx.inputPathList.getLast? ≠ some "" := by
  by_cases hpaths : ctx.inputPathList = []
  · have htokens : tokens ctx = [] := by
      rw [tokens, hpaths]
      rfl
    exact absurd htokens hne
  · have hlength := @length_splitString_join_iff _ ';' ";" rfl hpaths hfree
    refine ⟨fun h => ⟨hpaths, hlength.mp (congrArg List.length h)⟩, fun h => ?_⟩
    exact splitString_join_of_last rfl hpaths hfree h.2

/-- Inputs that are read agree with the launch if their paths come back and `n` is the path of
those without data. -/
theorem inputsAgree_iff (hfree : ∀ path ∈ ctx.inputPathList, ';' ∉ path.toList)
    (hfit : InputsFit ctx) :
    InputsAgree ctx (List.zipWith readInput (tokens ctx) ctx.inputSizeList) ↔
      InputsReadable ctx.inputPathList ctx.inputSizeList := by
  obtain ⟨hne, hlength, hcount⟩ := hfit
  obtain ⟨hpaths, hsizes, habsent⟩ := readInputs_agree hlength
  rw [InputsAgree, hpaths, habsent]
  constructor
  · rintro ⟨htokens, _, hmatch⟩
    obtain ⟨hsome, hlast⟩ := (tokens_eq_iff hfree hne).mp htokens
    rw [htokens] at hcount hmatch
    exact ⟨hsome, hlast, hcount, hmatch⟩
  · intro h
    have htokens := (tokens_eq_iff hfree hne).mpr ⟨h.someInput, h.lastPath⟩
    exact ⟨htokens, hsizes, htokens.symm ▸ h.absent⟩

theorem InputsReadable.inputsFit (hfree : ∀ path ∈ ctx.inputPathList, ';' ∉ path.toList)
    (h : InputsReadable ctx.inputPathList ctx.inputSizeList) : InputsFit ctx := by
  have htokens : tokens ctx = ctx.inputPathList :=
    splitString_join_of_last rfl h.someInput hfree h.lastPath
  rw [InputsFit, htokens]
  exact ⟨h.someInput, h.absent.length_eq.symm, h.count⟩

theorem toInt_blockDim {n : UInt32} (h : n.toNat < 2 ^ 31) :
    (Int32.ofInt n.toNat).toInt = n.toNat :=
  Int32.toInt_ofInt_of_le (by omega) (by omega)

/-- The configuration that is read agrees up to the inputs, and up to a tiling key that counts
for nothing. -/
theorem configRead_agrees_iff (hmagic : magicName ctx.magic = some magic)
    (hblockDim : ctx.blockDim.toNat < 2 ^ 31) : Agrees ctx (configRead ctx magic) ↔
      InputsAgree ctx (List.zipWith readInput (tokens ctx) ctx.inputSizeList) ∧
        (ctx.hasTilingKey = false → ctx.tilingKey = 0) := by
  have hkey : (configRead ctx magic).tilingKey = ctx.tilingKey ↔
      (ctx.hasTilingKey = false → ctx.tilingKey = 0) := by
    change (if ctx.hasTilingKey then ctx.tilingKey else 0) = ctx.tilingKey ↔ _
    cases ctx.hasTilingKey
    · exact ⟨fun h _ => h.symm, fun h => (h rfl).symm⟩
    · exact ⟨fun _ h => absurd h (by decide), fun _ => rfl⟩
  constructor
  · intro h
    obtain ⟨inputs, hparams, hagree⟩ := h.params
    have hinputs : List.zipWith readInput (tokens ctx) ctx.inputSizeList = inputs :=
      List.append_cancel_left (List.append_cancel_right hparams)
    exact ⟨hinputs ▸ hagree, hkey.mp h.tilingKey⟩
  · rintro ⟨hinputs, htilingKey⟩
    exact {
      kernelName := rfl
      blockDim := toInt_blockDim hblockDim
      deviceID := rfl
      magic := hmagic
      tilingKey := hkey.mpr htilingKey
      hasTilingKey := rfl
      params := ⟨_, rfl, hinputs⟩ }

/-- Of what is read, only a readable launch agrees. -/
theorem read_agrees_iff (hmagic : magicName ctx.magic = some magic) (hdumpable : Dumpable ctx) :
    (∃ config, (if Accepted ctx then some (configRead ctx magic) else none) = some config ∧
      Agrees ctx config) ↔ Readable ctx := by
  constructor
  · rintro ⟨config, hconfig, hagrees⟩
    split_ifs at hconfig with haccepted
    obtain ⟨hblockDim, hfit, hvalid⟩ := haccepted
    rw [← Option.some.inj hconfig, configRead_agrees_iff hmagic hblockDim,
      inputsAgree_iff hdumpable.inputPathsFree hfit] at hagrees
    exact ⟨hvalid, hblockDim, hagrees.1, hagrees.2⟩
  · intro h
    have hfit : InputsFit ctx := h.inputs.inputsFit hdumpable.inputPathsFree
    refine ⟨configRead ctx magic, if_pos ⟨h.blockDim, hfit, h.kernelName⟩, ?_⟩
    rw [configRead_agrees_iff hmagic h.blockDim, inputsAgree_iff hdumpable.inputPathsFree hfit]
    exact ⟨h.inputs, h.tilingKey⟩

/-- The launcher reads a dumped launch as it was exactly when the launch is readable. -/
theorem dump_agrees_iff {json : JsonLibrary} {object : JsonObject} {text : String}
    (hjson : json.RoundTrip) (hdumpable : Dumpable ctx) (hobject : ctx.toJson = some object)
    (htext : json.dump object = some text) :
    (∃ config, json.getKernelConfig text = some config ∧ Agrees ctx config) ↔ Readable ctx := by
  obtain ⟨magic, hmagic, hread⟩ :=
    getKernelConfig_dumped hjson hobject htext hdumpable.tilingDataPathFree
  rw [hread]
  exact read_agrees_iff hmagic hdumpable

def flatJson : JsonLibrary := ⟨FlatJson.dump, FlatJson.items⟩

theorem flatJson_roundTrip : flatJson.RoundTrip := fun _ _ _ htext => FlatJson.items_of_dump htext

/-- A launch with tiling data, of three inputs of which the first has no data. -/
def mixLaunch : DumperContext where
  binPath := "aicore.0.bin"
  blockDim := 8
  isFFTS := true
  inputPathList := ["n", "input1", "input2"]
  inputSizeList := [0, 8, 16]
  kernelName := "mix_abc"
  magic := rtDevBinaryMagicElf
  tilingDataPath := "tiling_data.path"
  tilingDataSize := 200
  tilingKey := 111
  hasTilingKey := true

def mixText : String :=
  "\x7b\"bin_path\":\"aicore.0.bin\",\"block_dim\":\"8\",\"device_id\":\"0\"," ++
  "\"ffts\":\"Y\",\"input_path\":\"n;input1;input2\",\"input_size\":\"0;8;16\"," ++
  "\"kernel_name\":\"mix_abc\",\"magic\":\"RT_DEV_BINARY_MAGIC_ELF\"," ++
  "\"tiling_data_path\":\"tiling_data.path;200\",\"tiling_key\":\"111\"\x7d"

theorem dump_agrees_iff_mixLaunch :
    ∃ config, flatJson.getKernelConfig mixText = some config ∧ Agrees mixLaunch config :=
  (@dump_agrees_iff mixLaunch flatJson (mixLaunch.toJson.getD []) mixText flatJson_roundTrip
    { binPath := by decide
      kernelName := by decide
      binPathFree := by decide
      inputPathsFree := by decide
      tilingDataPathFree := by decide }
    (by decide) (by decide +kernel)).mpr
    { kernelName := by decide
      blockDim := by decide
      inputs :=
        { someInput := by decide
          lastPath := by decide
          count := by decide
          absent := by
            refine .cons (by decide) (.cons (by decide) (.cons (by decide) .nil)) }
      tilingKey := fun h => absurd h (by decide) }

/-- The launcher refuses the name of a clone that the compiler made. -/
def cloneLaunch : DumperContext := { mixLaunch with kernelName := "mix_abc.part.0" }

theorem cloneLaunch_not_agrees : Dumpable cloneLaunch ∧
    ∃ object text, cloneLaunch.toJson = some object ∧ flatJson.dump object = some text ∧
      ¬∃ config, flatJson.getKernelConfig text = some config ∧ Agrees cloneLaunch config := by
  have hdumpable : Dumpable cloneLaunch :=
    { binPath := by decide
      kernelName := by decide
      binPathFree := by decide
      inputPathsFree := by decide
      tilingDataPathFree := by decide }
  obtain ⟨object, hobject⟩ : ∃ object, cloneLaunch.toJson = some object :=
    Option.isSome_iff_exists.mp (by decide)
  have hdump : (flatJson.dump object).isSome := by
    rw [← Option.some.inj hobject]
    decide +kernel
  obtain ⟨text, htext⟩ := Option.isSome_iff_exists.mp hdump
  obtain ⟨magic, hmagic, hread⟩ := getKernelConfig_dumped flatJson_roundTrip hobject htext
    hdumpable.tilingDataPathFree
  refine ⟨hdumpable, object, text, hobject, htext, ?_⟩
  rw [hread, read_agrees_iff hmagic hdumpable]
  exact fun h => absurd h.kernelName (by decide)

/-! ## Saved launches -/

section Saved
variable {outputDir : String} {addrInfos : List AddrInfo}

theorem absentMatch_dumped :
    AbsentMatch (dumpedPaths outputDir 0 addrInfos) (addrInfos.map AddrInfo.length) := by
  refine List.forall₂_iff_get.mpr ⟨by rw [length_dumpedPaths, List.length_map], ?_⟩
  intro j hpath hsize
  have hget : (dumpedPaths outputDir 0 addrInfos).get ⟨j, hpath⟩ =
      dumpedPath outputDir (0 + j) (addrInfos.get ⟨j, length_dumpedPaths ▸ hpath⟩) :=
    List.getElem_mapIdx
  rw [hget, dumpedPath_eq_n_iff, List.get_eq_getElem, List.get_eq_getElem, List.getElem_map]

/-- Inputs that are dumped can be read unless the 32-bit count overflows. -/
theorem inputsReadable_dumped_iff (hne : addrInfos ≠ []) :
    InputsReadable (dumpedPaths outputDir 0 addrInfos) (addrInfos.map AddrInfo.length) ↔
      addrInfos.length < 2 ^ 32 := by
  have hlength : (dumpedPaths outputDir 0 addrInfos).length = addrInfos.length :=
    length_dumpedPaths
  refine ⟨fun h => hlength ▸ h.count, fun h => ?_⟩
  refine ⟨fun hempty => ?_, fun hlast => ?_, hlength.symm ▸ h, absentMatch_dumped⟩
  · rw [hempty] at hlength
    exact hne (List.length_eq_zero_iff.mp hlength.symm)
  · obtain ⟨j, addrInfo, hpath⟩ := exists_of_mem_dumpedPaths (List.mem_of_getLast? hlast)
    exact dumpedPath_ne_empty hpath.symm

/-- A launch that is saved below a directory without the separator is read back if the name of
its kernel is one for the launcher and its numbers fit. -/
theorem saved_agrees_iff {json : JsonLibrary} {l : SavedLaunch} {calls : ℕ → DumpCalls}
    {tilingData : Option (List UInt8)} {written : ℕ} {object : JsonObject} {text : String}
    (hjson : json.RoundTrip) (hdir : ';' ∉ outputDir.toList) (hbin : l.binPath ≠ "")
    (hbinFree : ';' ∉ l.binPath.toList) (hname : l.kernelName ≠ "")
    (hsave : l.save outputDir addrInfos calls tilingData written = some ctx)
    (hobject : ctx.toJson = some object) (htext : json.dump object = some text) :
    (∃ config, json.getKernelConfig text = some config ∧ Agrees ctx config) ↔
      checkInputStringValid l.kernelName fileNameLengthLimit ∧ l.blockDim.toNat < 2 ^ 31 ∧
        addrInfos.length < 2 ^ 32 := by
  obtain ⟨data, rfl, hne, hpaths, hsizes, htiling⟩ := SavedLaunch.save_eq hsave
  have hinputs : ∀ path ∈ data.inputPathList, ';' ∉ path.toList := fun path hpath => by
    obtain ⟨j, addrInfo, rfl⟩ := exists_of_mem_dumpedPaths (hpaths ▸ hpath)
    exact not_mem_dumpedPath hdir
  have htilingFree : ';' ∉ data.tilingDataPath.toList := by
    rcases htiling with htiling | htiling
    · rw [htiling]
      exact List.not_mem_nil
    · rw [htiling, String.toList_append, List.mem_append]
      rintro (hmem | hmem)
      · exact hdir hmem
      · exact absurd hmem (by decide)
  have hdumpable : Dumpable (l.fill data) := ⟨hbin, hname, hbinFree, hinputs, htilingFree⟩
  obtain ⟨magic, hmagic, hread⟩ := getKernelConfig_dumped hjson hobject htext htilingFree
  rw [hread, read_agrees_iff hmagic hdumpable, ← inputsReadable_dumped_iff hne]
  constructor
  · intro h
    have hread : InputsReadable data.inputPathList data.inputSizeList := h.inputs
    rw [hpaths, hsizes] at hread
    exact ⟨h.kernelName, h.blockDim, hread⟩
  · rintro ⟨hvalid, hblockDim, hread⟩
    rw [← hpaths, ← hsizes] at hread
    refine ⟨hvalid, hblockDim, hread, fun hkey => ?_⟩
    change l.tilingKey.getD 0 = 0
    rw [Option.isSome_eq_false_iff.mp hkey |> Option.isNone_iff_eq_none.mp]
    rfl

end Saved

end Msopcom.KernelConfigRoundTrip
