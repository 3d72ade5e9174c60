import Msopcom.KernelConfigParams
import Msopcom.KernelRunner
import Msopcom.Words

set_option autoImplicit false

/-!
# What the launcher hands to the kernel

The argument image of a launch is compared with the parameters of its configuration, and the
JSON file of its binary with the FFTS parameter.
-/
namespace Msopcom.KernelRunner
open KernelConfig KernelConfigParser Slots

/-! ## The JSON file of the binary -/

structure BinaryJson where
  filePath : String
  intercoreSync : ℕ
  magic : String
  deriving DecidableEq, Repr

/-- The path up to its last dot, with the suffix of a JSON file. -/
def jsonFilePath (kernelBinaryPath : String) : Option String :=
  let chars := kernelBinaryPath.toList
  if '.' ∈ chars then
    some (String.ofList ((chars.reverse.dropWhile (· ≠ '.')).drop 1).reverse ++ ".json")
  else none

/-- The loop looks at the names of the parameters. -/
def intercoreSync (config : KernelConfig) : ℕ :=
  if config.params.any fun param => param.name = "fftsAddr" then 1 else 0

/-- `GenJson`; `none` when nothing is written. -/
def genJson (isExist written : String → Bool) (config : KernelConfig) : Option BinaryJson :=
  match jsonFilePath config.kernelBinaryPath with
  | none => none
  | some filePath =>
      if isExist filePath then none
      else if written filePath then
        some {
          filePath := filePath
          intercoreSync := intercoreSync config
          magic := config.magic }
      else none

/-! ## What is to be handed over -/

section Spec
variable (rt : Runtime) (tilingAddr : UInt64) (isExist written : String → Bool)
  (config : KernelConfig)

/-- Buffers are allocated in the order of the parameters. -/
def buffersBefore (i : ℕ) : ℕ := (config.params.take i).countP (takesBuffer config)

/-- The address that the kernel is to find for a parameter. Tiling data that goes with the
arguments is where the runtime has put it. -/
def parameterAddress (i : ℕ) (param : Param) : UInt64 :=
  match param.type with
  | .fftsAddr => rt.c2cCtrlAddr
  | .input => if param.isRequired = some false then 0 else rt.malloc (buffersBefore config i)
  | .tiling => if config.hasTilingKey then tilingAddr else rt.malloc (buffersBefore config i)
  | .output | .workspace => rt.malloc (buffersBefore config i)

def HasType (type : TypeName) : Prop := ∃ param ∈ config.params, param.type = type

structure Handed (launch : Launch) : Prop where
  slots : ∀ i param, config.params[i]? = some param →
    slot (launch.image tilingAddr) i = some (parameterAddress rt tilingAddr config i param)
  tilingData : ∀ param ∈ config.params, param.type = .tiling →
    ∀ argsInfo, launch.argsInfo = some argsInfo → ∃ data, rt.files param.dataPath = some data ∧
      ((launch.image tilingAddr).drop argsInfo.tilingDataOffset.toNat).take data.length = data
  intercoreSync : ∀ json, genJson isExist written config = some json →
    (json.intercoreSync = 1 ↔ HasType config .fftsAddr)

/-- Memory of the device has one owner: what is allocated, the FFTS control and the arguments
that the runtime copies are apart. -/
structure Runtime.Apart : Prop where
  control : ∀ n, rt.malloc n ≠ rt.c2cCtrlAddr
  tilingNull : tilingAddr ≠ 0
  tilingControl : tilingAddr ≠ rt.c2cCtrlAddr
  tilingBuffers : ∀ n, rt.malloc n ≠ tilingAddr

/-- The size of the tiling data that goes with the arguments. -/
def tilingSize : ℕ :=
  if config.hasTilingKey then
    (((config.params.find? isTiling).bind Param.dataSize).map UInt64.toNat).getD 0
  else 0

/-- The image has a 32-bit size; there is tiling data for a launch by tiling key; the FFTS address
is given to no other launch; and a JSON file that is written has an output by the name that it
is marked for, if there is an FFTS parameter. -/
structure LaunchFits : Prop where
  size : 8 * config.params.length + tilingSize config < 2 ^ 32
  tiling : config.hasTilingKey → config.params ≠ [] → HasType config .tiling
  fftsAddr : HasType config .fftsAddr → config.hasTilingKey
  name : ∀ filePath, jsonFilePath config.kernelBinaryPath = some filePath →
    isExist filePath = false → written filePath = true →
      (HasType config .fftsAddr ↔
        ∃ param ∈ config.params, param.type = .output ∧ param.name = "fftsAddr")

end Spec

/-! ## The arguments of a run -/

section Run
variable {rt : Runtime} {tilingAddr : UInt64} {isExist written : String → Bool}
  {config : KernelConfig} {s : Runner}

theorem getElem?_kernelArgs (hs : initDatas rt config config.params {} = some s) (i : ℕ) :
    s.kernelArgs[i]? = config.params[i]?.map fun param =>
      argument rt config param (buffersBefore config i) := by
  rw [initDatas_kernelArgs hs]
  change (arguments rt config 0 config.params)[i]? = _
  rw [getElem?_arguments]
  simp only [Nat.zero_add, buffersBefore]

theorem length_kernelArgs (hs : initDatas rt config config.params {} = some s) :
    s.kernelArgs.length = config.params.length := by
  rw [initDatas_kernelArgs hs]
  exact length_arguments

/-- The tiling data that goes with the arguments: there is none, or one parameter has it. -/
inductive TilingPart (rt : Runtime) (config : KernelConfig) (s : Runner) : Prop
  | none (noTiling : NoTiling config.params) (offset : s.tilingAddrOffset = 0)
      (data : s.tilingData = [])
  | one (j : ℕ) (param : Param) (found : config.params[j]? = some param)
      (type : param.type = .tiling)
      (only : ∀ i param, config.params[i]? = some param → param.type = .tiling → i = j)
      (offset : s.tilingAddrOffset = j * 8) (data : rt.files param.dataPath = some s.tilingData)
      (size : (((config.params.find? isTiling).bind Param.dataSize).map UInt64.toNat).getD 0 =
        s.tilingData.length)

theorem noTiling_of_countP {params : List Param} (h : params.countP isTiling = 0) :
    NoTiling params := fun param hparam htype =>
  List.countP_eq_zero.mp h param hparam (decide_eq_true htype)

theorem find?_noTiling {params : List Param} (h : NoTiling params) :
    params.find? isTiling = none :=
  List.find?_eq_none.mpr fun param hparam htiling => h param hparam (of_decide_eq_true htiling)

/-- The parameter for tiling data stands between parameters of other types. -/
theorem exists_split_tiling (haccepted : KernelConfigAccepted config)
    (h : HasType config .tiling) : ∃ before param after, config.params = before ++ param :: after ∧
      param.type = .tiling ∧ NoTiling before ∧ NoTiling after := by
  obtain ⟨param, hparam, htype⟩ := h
  obtain ⟨before, after, hsplit⟩ := List.append_of_mem hparam
  have hcount := haccepted.wellMade.2
  have htiling : isTiling param = true := decide_eq_true htype
  rw [hsplit, List.countP_append, List.countP_cons, if_pos htiling] at hcount
  exact ⟨before, param, after, hsplit, htype, noTiling_of_countP (by omega),
    noTiling_of_countP (by omega)⟩

theorem tilingPart (haccepted : KernelConfigAccepted config)
    (hs : initDatas rt config config.params {} = some s) : TilingPart rt config s := by
  by_cases htiling : HasType config .tiling
  · obtain ⟨before, param, after, hsplit, htype, hbefore, hafter⟩ :=
      exists_split_tiling haccepted htiling
    have hfound : config.params[before.length]? = some param := by
      rw [hsplit, List.getElem?_append_right (Nat.le_refl _), Nat.sub_self]
      rfl
    have hmade := haccepted.wellMade.1 param (List.mem_of_getElem? hfound)
    obtain ⟨dataSize, hsize⟩ := Option.isSome_iff_exists.mp (hmade.tilingSize htype)
    rw [hsplit] at hs
    obtain ⟨hoffset, hdata, hlength⟩ := initDatas_tiling htype hafter hs
    refine .one before.length param hfound htype ?_ hoffset hdata ?_
    · intro i other hother hothertype
      rw [hsplit] at hother
      rcases Nat.lt_trichotomy i before.length with hlt | heq | hgt
      · rw [List.getElem?_append_left hlt] at hother
        exact absurd hothertype (hbefore other (List.mem_of_getElem? hother))
      · exact heq
      · have hskip : i - before.length = i - before.length - 1 + 1 := by omega
        rw [List.getElem?_append_right (Nat.le_of_lt hgt), hskip, List.getElem?_cons_succ] at hother
        exact absurd hothertype (hafter other (List.mem_of_getElem? hother))
    · have hfind : isTiling param = true := decide_eq_true htype
      rw [hsplit, List.find?_append, find?_noTiling hbefore, Option.none_or,
        List.find?_cons_of_pos hfind, Option.bind_some, hsize, Option.map_some, Option.getD_some,
        hlength dataSize hsize]
  · have hnone : NoTiling config.params := fun param hparam htype => htiling ⟨param, hparam, htype⟩
    obtain ⟨hoffset, hdata⟩ := initDatas_noTiling hnone hs
    exact .none hnone hoffset hdata

theorem tilingSize_eq (haccepted : KernelConfigAccepted config)
    (hs : initDatas rt config config.params {} = some s) (hkey : config.hasTilingKey = true) :
    tilingSize config = s.tilingData.length := by
  unfold tilingSize
  rw [if_pos hkey]
  cases tilingPart haccepted hs with
  | none hnone _ hdata =>
    rw [find?_noTiling hnone, hdata]
    rfl
  | one _ _ _ _ _ _ _ hsize => exact hsize

/-! ## Slots -/

theorem parameterAddress_eq {i : ℕ} {param : Param}
    (htiling : param.type = .tiling → config.hasTilingKey = false)
    (hffts : param.type = .fftsAddr → config.hasTilingKey = true) :
    parameterAddress rt tilingAddr config i param =
      argument rt config param (buffersBefore config i) := by
  unfold parameterAddress argument takesBuffer
  cases htype : param.type with
  | input =>
    by_cases habsent : param.isRequired = some false
    · simp [habsent]
    · simp [habsent]
  | tiling => simp [htiling htype]
  | fftsAddr => simp [hffts htype]
  | output => simp
  | workspace => simp

/-- Without the tiling key the FFTS parameter has a buffer of its own. -/
theorem argument_fftsAddr {i : ℕ} {param : Param} (htype : param.type = .fftsAddr)
    (hkey : config.hasTilingKey = false) : argument rt config param i = rt.malloc i := by
  have hbuffer : takesBuffer config param = true := by
    unfold takesBuffer
    rw [htype]
    exact congrArg (!·) hkey
  rw [argument, if_pos hbuffer]

def SlotsRight (rt : Runtime) (tilingAddr : UInt64) (config : KernelConfig) (image : List UInt8) :
    Prop :=
  ∀ i param, config.params[i]? = some param →
    slot image i = some (parameterAddress rt tilingAddr config i param)

theorem SlotsRight.length_le {image : List UInt8} (h : SlotsRight rt tilingAddr config image) :
    8 * config.params.length ≤ image.length ∨ config.params = [] := by
  cases hlength : config.params.length with
  | zero => exact .inr (List.length_eq_zero_iff.mp hlength)
  | succ n =>
    refine .inl (Nat.le_of_not_lt fun hshort => ?_)
    have hlast : config.params[n]? = some config.params[n] :=
      List.getElem?_eq_getElem (by omega)
    have hslot := h n _ hlast
    rw [slot_eq_none (by omega)] at hslot
    cases hslot

theorem length_take_ofNat_lt (bytes : List UInt8) (n : ℕ) :
    (bytes.take (UInt32.ofNat n).toNat).length < 2 ^ 32 := by
  have hlt : (UInt32.ofNat n).toNat < 2 ^ 32 := (UInt32.ofNat n).toNat_lt
  rw [List.length_take]
  omega

theorem take_ofNat_of_lt {bytes : List UInt8} {n : ℕ} (hn : bytes.length = n) (h : n < 2 ^ 32) :
    bytes.take (UInt32.ofNat n).toNat = bytes := by
  rw [Words.toNat_ofNat32 h, ← hn, List.take_length]

/-- A launch by name: the slots are right unless the size overflows or there is an FFTS parameter,
which is handed a buffer that holds its address. -/
theorem plain_slots_iff (hapart : Runtime.Apart rt tilingAddr)
    (hs : initDatas rt config config.params {} = some s) (hkey : config.hasTilingKey = false) :
    SlotsRight rt tilingAddr config ((launchKernel config s).image tilingAddr) ↔
      8 * config.params.length < 2 ^ 32 ∧ ¬HasType config .fftsAddr := by
  have himage : (launchKernel config s).image tilingAddr =
      (slotBytes s.kernelArgs).take (UInt32.ofNat (8 * config.params.length)).toNat := by
    rw [launchKernel, hkey, if_neg Bool.false_ne_true, ← length_kernelArgs hs, Nat.mul_comm]
    rfl
  have hwhole (hsize : 8 * config.params.length < 2 ^ 32) :
      (slotBytes s.kernelArgs).take (UInt32.ofNat (8 * config.params.length)).toNat =
        slotBytes s.kernelArgs :=
    take_ofNat_of_lt (by rw [length_slotBytes, length_kernelArgs hs]) hsize
  have hslot {i : ℕ} {param : Param} (hparam : config.params[i]? = some param) :
      slot (slotBytes s.kernelArgs) i =
        some (argument rt config param (buffersBefore config i)) := by
    have hword := slot_slotBytes ((getElem?_kernelArgs hs i).trans (congrArg _ hparam)) []
    rwa [List.append_nil] at hword
  rw [himage]
  constructor
  · intro h
    have hsize : 8 * config.params.length < 2 ^ 32 := by
      have hlt := length_take_ofNat_lt (slotBytes s.kernelArgs) (8 * config.params.length)
      rcases h.length_le with hle | hempty
      · omega
      · rw [hempty]
        decide
    refine ⟨hsize, fun ⟨param, hparam, htype⟩ => ?_⟩
    obtain ⟨i, hi⟩ := List.mem_iff_getElem?.mp hparam
    have hright := h i param hi
    rw [hwhole hsize, hslot hi, argument_fftsAddr htype hkey, Option.some.injEq] at hright
    have haddress : parameterAddress rt tilingAddr config i param = rt.c2cCtrlAddr := by
      unfold parameterAddress
      rw [htype]
    exact hapart.control _ (hright.trans haddress)
  · rintro ⟨hsize, hffts⟩ i param hparam
    rw [hwhole hsize, hslot hparam, parameterAddress_eq (fun _ => hkey)]
    exact fun htype => absurd ⟨param, List.mem_of_getElem? hparam, htype⟩ hffts

/-- Nothing overflows: the whole buffer goes to the device, and the patch is where it was put. -/
theorem handle_image_of_lt (hkey : config.hasTilingKey = true)
    (hsize : 8 * s.kernelArgs.length + s.tilingData.length < 2 ^ 32)
    (hoffset : s.tilingAddrOffset < 2 ^ 32) : (launchKernel config s).image tilingAddr =
      patch (argsBuffer s) s.tilingAddrOffset tilingAddr := by
  rw [launchKernel, if_pos hkey]
  change patch ((argsBuffer s).take (UInt32.ofNat (argsBuffer s).length).toNat)
    (UInt32.ofNat s.tilingAddrOffset).toNat tilingAddr = _
  rw [take_ofNat_of_lt rfl (length_argsBuffer s ▸ hsize), Words.toNat_ofNat32 hoffset]

theorem length_handle_image_lt (hkey : config.hasTilingKey = true) :
    ((launchKernel config s).image tilingAddr).length < 2 ^ 32 := by
  rw [launchKernel, if_pos hkey]
  change (patch ((argsBuffer s).take (UInt32.ofNat (argsBuffer s).length).toNat)
    (UInt32.ofNat s.tilingAddrOffset).toNat tilingAddr).length < _
  rw [length_patch]
  exact length_take_ofNat_lt _ _

theorem handle_argsInfo (hkey : config.hasTilingKey = true) :
    (launchKernel config s).argsInfo = some (argsEx s) := by
  rw [launchKernel, if_pos hkey]
  rfl

def TilingRight (rt : Runtime) (tilingAddr : UInt64) (config : KernelConfig) (launch : Launch) :
    Prop :=
  ∀ param ∈ config.params, param.type = .tiling → ∀ argsInfo, launch.argsInfo = some argsInfo →
    ∃ data, rt.files param.dataPath = some data ∧
      ((launch.image tilingAddr).drop argsInfo.tilingDataOffset.toNat).take data.length = data

section Handle
variable (hs : initDatas rt config config.params {} = some s)
  (hkey : config.hasTilingKey = true)
include hs hkey

/-- If the slots and the tiling data are whole, the image was not cut short. -/
theorem size_of_handle (htilingPart : TilingPart rt config s)
    (hslots : SlotsRight rt tilingAddr config ((launchKernel config s).image tilingAddr))
    (htiling : TilingRight rt tilingAddr config (launchKernel config s)) :
    8 * config.params.length + s.tilingData.length < 2 ^ 32 := by
  have hlt := @length_handle_image_lt tilingAddr config s hkey
  have hslotsSize : 8 * config.params.length < 2 ^ 32 := by
    rcases hslots.length_le with hle | hempty
    · omega
    · rw [hempty]
      decide
  cases htilingPart with
  | none _ _ hdata =>
    rw [hdata]
    exact hslotsSize
  | one j param hfound htype _ _ hdata _ =>
    obtain ⟨data, hfile, htake⟩ := htiling param (List.mem_of_getElem? hfound) htype _
      (handle_argsInfo hkey)
    have hsame : data = s.tilingData := Option.some.inj (hfile.symm.trans hdata)
    have hoffset : (argsEx s).tilingDataOffset.toNat = 8 * config.params.length := by
      change (UInt32.ofNat (s.kernelArgs.length * 8)).toNat = _
      rw [length_kernelArgs hs, Nat.mul_comm, Words.toNat_ofNat32 hslotsSize]
    have hlength := congrArg List.length htake
    rw [hsame, hoffset, List.length_take, List.length_drop] at hlength
    omega

theorem slot_argsBuffer {i : ℕ} {param : Param} (hparam : config.params[i]? = some param)
    (htype : param.type ≠ .tiling) : slot (argsBuffer s) i =
      some (parameterAddress rt tilingAddr config i param) := by
  rw [argsBuffer_eq, parameterAddress_eq (fun h => absurd h htype) (fun _ => hkey)]
  exact slot_slotBytes ((getElem?_kernelArgs hs i).trans (congrArg _ hparam)) _

/-- The patch replaces the slot of the parameter for the tiling data. -/
theorem handed_of_tiling (hone : TilingPart rt config s) (htype : HasType config .tiling)
    (hsize : 8 * config.params.length + s.tilingData.length < 2 ^ 32) :
    SlotsRight rt tilingAddr config ((launchKernel config s).image tilingAddr) ∧
      TilingRight rt tilingAddr config (launchKernel config s) := by
  have hargs : s.kernelArgs.length = config.params.length := length_kernelArgs hs
  cases hone with
  | none hnone =>
    obtain ⟨param, hparam, hparamType⟩ := htype
    exact absurd hparamType (hnone param hparam)
  | one j param hfound hparamType honly hoffset hdata _ =>
    have hj : j < config.params.length := (List.getElem?_eq_some_iff.mp hfound).1
    have hfits : 8 * j + 8 ≤ (argsBuffer s).length := by
      rw [length_argsBuffer]
      omega
    have himage : (launchKernel config s).image tilingAddr =
        patch (argsBuffer s) (8 * j) tilingAddr := by
      rw [handle_image_of_lt hkey (hargs.symm ▸ hsize) (by omega), hoffset, Nat.mul_comm]
    constructor
    · intro i other hother
      rw [himage]
      by_cases hij : i = j
      · rw [hij, hfound, Option.some.injEq] at hother
        have haddress : parameterAddress rt tilingAddr config i other = tilingAddr := by
          unfold parameterAddress
          rw [← hother, hparamType]
          exact if_pos hkey
        rw [haddress, hij, slot_patch_self hfits]
      · rw [slot_patch_of_ne hij]
        exact slot_argsBuffer hs hkey hother fun h => hij (honly i other hother h)
    · intro other hother hotherType argsInfo hargsInfo
      obtain ⟨i, hi⟩ := List.mem_iff_getElem?.mp hother
      have hsame : some other = some param := by
        rw [← hi, honly i other hi hotherType, hfound]
      rw [handle_argsInfo hkey, Option.some.injEq] at hargsInfo
      have htilingOffset : argsInfo.tilingDataOffset.toNat = 8 * s.kernelArgs.length := by
        rw [← hargsInfo]
        change (UInt32.ofNat (s.kernelArgs.length * 8)).toNat = _
        rw [Nat.mul_comm, Words.toNat_ofNat32 (by omega)]
      refine ⟨s.tilingData, (Option.some.inj hsame).symm ▸ hdata, ?_⟩
      rw [himage, htilingOffset, drop_patch (by omega), argsBuffer_eq,
        List.drop_left' (length_slotBytes _), List.take_length]

/-- Without tiling data the patch goes to the first slot. -/
theorem not_slotsRight_of_noTiling (hapart : Runtime.Apart rt tilingAddr)
    (hnone : NoTiling config.params) (hoffset : s.tilingAddrOffset = 0) (hdata : s.tilingData = [])
    (hne : config.params ≠ []) (hsize : 8 * config.params.length < 2 ^ 32) :
    ¬SlotsRight rt tilingAddr config ((launchKernel config s).image tilingAddr) := by
  intro h
  have hargs : s.kernelArgs.length = config.params.length := length_kernelArgs hs
  have hpos : 0 < config.params.length := List.length_pos_iff.mpr hne
  have hlength : (argsBuffer s).length = 8 * config.params.length := by
    rw [length_argsBuffer, hdata, hargs]
    rfl
  have himage : (launchKernel config s).image tilingAddr =
      patch (argsBuffer s) (8 * 0) tilingAddr := by
    rw [handle_image_of_lt hkey (by rw [← length_argsBuffer, hlength]; exact hsize)
      (by rw [hoffset]; decide), hoffset]
  have hfirst : config.params[0]? = some config.params[0] := List.getElem?_eq_getElem hpos
  have hslot := h 0 _ hfirst
  rw [himage, slot_patch_self (by omega), Option.some.injEq,
    parameterAddress_eq (fun htype => absurd htype (hnone _ (List.getElem_mem hpos)))
      (fun _ => hkey)] at hslot
  unfold argument at hslot
  split_ifs at hslot
  · exact hapart.tilingBuffers _ hslot.symm
  · exact hapart.tilingControl hslot
  · exact hapart.tilingNull hslot

end Handle

/-! ## The JSON file -/

theorem genJson_eq_some_iff {json : BinaryJson} : genJson isExist written config = some json ↔
    ∃ filePath, jsonFilePath config.kernelBinaryPath = some filePath ∧ isExist filePath = false ∧
      written filePath = true ∧ json =
        { filePath := filePath
          intercoreSync := intercoreSync config
          magic := config.magic } := by
  unfold genJson
  cases jsonFilePath config.kernelBinaryPath with
  | none => exact ⟨nofun, fun ⟨_, h, _⟩ => (by cases h)⟩
  | some filePath =>
    dsimp only
    constructor
    · intro h
      split_ifs at h with hexist hwritten
      exact ⟨filePath, rfl, Bool.eq_false_iff.mpr hexist, hwritten, (Option.some.inj h).symm⟩
    · rintro ⟨filePath', hpath, hexist, hwritten, rfl⟩
      rw [Option.some.inj hpath, if_neg (Bool.eq_false_iff.mp hexist), if_pos hwritten]

/-- Only an output can have the name that the file is marked for. -/
theorem named_iff (haccepted : KernelConfigAccepted config) :
    (config.params.any fun param => param.name = "fftsAddr") = true ↔
      ∃ param ∈ config.params, param.type = .output ∧ param.name = "fftsAddr" := by
  rw [List.any_eq_true]
  refine exists_congr fun param => and_congr_right fun hparam => ?_
  rw [decide_eq_true_iff]
  refine ⟨fun hname => ⟨(haccepted.wellMade.1 param hparam).name ?_, hname⟩, And.right⟩
  rw [hname]
  decide

theorem intercoreSync_iff (haccepted : KernelConfigAccepted config) :
    (∀ json, genJson isExist written config = some json →
        (json.intercoreSync = 1 ↔ HasType config .fftsAddr)) ↔
      ∀ filePath, jsonFilePath config.kernelBinaryPath = some filePath →
        isExist filePath = false → written filePath = true → (HasType config .fftsAddr ↔
          ∃ param ∈ config.params, param.type = .output ∧ param.name = "fftsAddr") := by
  have hmark : intercoreSync config = 1 ↔
      ∃ param ∈ config.params, param.type = .output ∧ param.name = "fftsAddr" := by
    rw [← named_iff haccepted]
    unfold intercoreSync
    split_ifs with h
    · exact iff_of_true rfl h
    · exact iff_of_false (by decide) h
  constructor
  · intro h filePath hpath hexist hwritten
    rw [← hmark]
    exact (h _ (genJson_eq_some_iff.mpr ⟨filePath, hpath, hexist, hwritten, rfl⟩)).symm
  · intro h json hjson
    obtain ⟨filePath, hpath, hexist, hwritten, rfl⟩ := genJson_eq_some_iff.mp hjson
    exact hmark.trans (h filePath hpath hexist hwritten).symm

/-- The arguments of a launch by tiling key are right if nothing overflows and there is tiling
data for the slot that is patched. -/
theorem handle_iff (haccepted : KernelConfigAccepted config)
    (hapart : Runtime.Apart rt tilingAddr) (hs : initDatas rt config config.params {} = some s)
    (hkey : config.hasTilingKey = true) :
    (SlotsRight rt tilingAddr config ((launchKernel config s).image tilingAddr) ∧
        TilingRight rt tilingAddr config (launchKernel config s)) ↔
      8 * config.params.length + s.tilingData.length < 2 ^ 32 ∧
        (config.params ≠ [] → HasType config .tiling) := by
  have hpart := tilingPart haccepted hs
  constructor
  · rintro ⟨hslots, htiling⟩
    have hsize := size_of_handle hs hkey hpart hslots htiling
    refine ⟨hsize, fun hne => ?_⟩
    cases hpart with
    | none hnone hoffset hdata =>
      exact absurd hslots
        (not_slotsRight_of_noTiling hs hkey hapart hnone hoffset hdata hne (by omega))
    | one j param hfound htype => exact ⟨param, List.mem_of_getElem? hfound, htype⟩
  · rintro ⟨hsize, htype⟩
    by_cases hempty : config.params = []
    · constructor
      · intro i param hparam
        rw [hempty] at hparam
        cases hparam
      · intro param hparam
        rw [hempty] at hparam
        cases hparam
    · exact handed_of_tiling hs hkey hpart (htype hempty) hsize

end Run

/-! ## The launch -/

/-- The launcher hands over what is configured exactly when the launch fits. -/
theorem handed_iff {rt : Runtime} {tilingAddr : UInt64} {isExist written : String → Bool}
    {config : KernelConfig} {launch : Launch} (haccepted : KernelConfigAccepted config)
    (hapart : Runtime.Apart rt tilingAddr) (hrun : run rt config = some launch) :
    Handed rt tilingAddr isExist written config launch ↔ LaunchFits isExist written config := by
  obtain ⟨s, hs, rfl⟩ := Option.map_eq_some_iff.mp hrun
  have hsync := @intercoreSync_iff isExist written config haccepted
  cases hkey : config.hasTilingKey with
  | false =>
    have hslots := plain_slots_iff hapart hs hkey
    have hsize : tilingSize config = 0 := by
      rw [tilingSize, hkey]
      rfl
    constructor
    · intro h
      obtain ⟨hfits, hffts⟩ := hslots.mp h.slots
      exact ⟨by rw [hsize]; exact hfits, fun htrue => absurd (hkey.symm.trans htrue) (by decide),
        fun h => absurd h hffts, hsync.mp h.intercoreSync⟩
    · intro h
      have hffts : ¬HasType config .fftsAddr := fun hffts =>
        absurd (hkey.symm.trans (h.fftsAddr hffts)) (by decide)
      refine ⟨hslots.mpr ⟨Nat.lt_of_le_of_lt (Nat.le_add_right _ _) h.size, hffts⟩, ?_,
        hsync.mpr h.name⟩
      intro param _ _ argsInfo hargsInfo
      rw [launchKernel, hkey] at hargsInfo
      cases hargsInfo
  | true =>
    have hhandle := handle_iff haccepted hapart hs hkey
    have hsize : tilingSize config = s.tilingData.length := tilingSize_eq haccepted hs hkey
    constructor
    · intro h
      obtain ⟨hfits, htiling⟩ := hhandle.mp ⟨h.slots, h.tilingData⟩
      exact ⟨by rw [hsize]; exact hfits, fun _ => htiling, fun _ => hkey,
        hsync.mp h.intercoreSync⟩
    · intro h
      obtain ⟨hslots, htiling⟩ := hhandle.mpr ⟨hsize ▸ h.size, h.tiling hkey⟩
      exact ⟨hslots, htiling, hsync.mpr h.name⟩

/-- Up to three buffers, two files for inputs and the tiling data. -/
def device : Runtime where
  malloc := fun n => if n = 0 then 0x1000 else if n = 1 then 0x2000 else 0x3000
  c2cCtrlAddr := 0x8000
  files := fun path => [("/d/input_1.bin", [1, 2]), ("/d/input_tiling.bin", [3])].lookup path
  unassigned := fun _ => 0

theorem device_apart : Runtime.Apart device 0x9000 where
  control := fun n => by
    dsimp only [device]
    split_ifs <;> decide
  tilingNull := by decide
  tilingControl := by decide
  tilingBuffers := fun n => by
    dsimp only [device]
    split_ifs <;> decide

/-- A configuration by tiling key, with or without an FFTS parameter. -/
def launchItems (ffts : String) : List (String × String) :=
  [("bin_path", "/d/kernel.o"), ("ffts", ffts), ("input_path", "n;/d/input_1.bin"),
    ("input_size", "0;2"), ("kernel_name", "add"), ("magic", "RT_DEV_BINARY_MAGIC_ELF"),
    ("tiling_data_path", "/d/input_tiling.bin;1"), ("tiling_key", "5")]

def launchConfig (ffts : List Param) : KernelConfig where
  hasTilingKey := true
  tilingKey := 5
  kernelName := "add"
  kernelBinaryPath := "/d/kernel.o"
  magic := "RT_DEV_BINARY_MAGIC_ELF"
  params := ffts ++
    [{ inputParam "n" with dataSize := some 0 },
      { inputParam "/d/input_1.bin" with dataSize := some 2 }, tilingParam "/d/input_tiling.bin" 1]

theorem handed_iff_launchConfig : ∃ launch, run device (launchConfig []) = some launch ∧
    Handed device 0x9000 (fun _ => false) (fun _ => true) (launchConfig []) launch := by
  have haccepted : KernelConfigAccepted (launchConfig []) :=
    ⟨launchItems "N", by decide, ⟨launchConfig [], 2, 0⟩, by decide +kernel, rfl⟩
  obtain ⟨launch, hrun⟩ : ∃ launch, run device (launchConfig []) = some launch :=
    Option.isSome_iff_exists.mp (by decide +kernel)
  refine ⟨launch, hrun, (handed_iff haccepted device_apart hrun).mpr ?_⟩
  exact {
    size := by decide
    tiling := fun _ _ => ⟨tilingParam "/d/input_tiling.bin" 1, by decide, rfl⟩
    fftsAddr := fun _ => rfl
    name := fun _ _ _ _ => by
      refine iff_of_false ?_ ?_
      · rintro ⟨param, hparam, htype⟩
        exact absurd htype ((by decide : ∀ param ∈ (launchConfig []).params,
          param.type ≠ .fftsAddr) param hparam)
      · rintro ⟨param, hparam, _, hname⟩
        exact absurd hname ((by decide : ∀ param ∈ (launchConfig []).params,
          param.name ≠ "fftsAddr") param hparam) }

/-- With the FFTS address among the parameters, the JSON file says that there is none. -/
theorem fftsConfig_not_handed : KernelConfigAccepted (launchConfig [fftsParam]) ∧
    Runtime.Apart device 0x9000 ∧ ∃ launch, run device (launchConfig [fftsParam]) = some launch ∧
      ¬Handed device 0x9000 (fun _ => false) (fun _ => true) (launchConfig [fftsParam]) launch := by
  have haccepted : KernelConfigAccepted (launchConfig [fftsParam]) :=
    ⟨launchItems "Y", by decide, ⟨launchConfig [fftsParam], 2, 0⟩, by decide +kernel, rfl⟩
  obtain ⟨launch, hrun⟩ : ∃ launch, run device (launchConfig [fftsParam]) = some launch :=
    Option.isSome_iff_exists.mp (by decide +kernel)
  refine ⟨haccepted, device_apart, launch, hrun, fun h => ?_⟩
  have hjson : genJson (fun _ => false) (fun _ => true) (launchConfig [fftsParam]) =
      some ⟨"/d/kernel.json", 0, "RT_DEV_BINARY_MAGIC_ELF"⟩ := by decide +kernel
  exact absurd ((h.intercoreSync _ hjson).mpr ⟨fftsParam, by decide, rfl⟩) (by decide)

end Msopcom.KernelRunner
