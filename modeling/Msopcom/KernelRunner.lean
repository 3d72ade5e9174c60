import Msopcom.KernelConfigParser
import Msopcom.OpMemInfo
import Msopcom.Splice
import Msopcom.Slots

set_option autoImplicit false

/-!
# The kernel runner

The parameters of a configuration become buffers on the device and slots of an argument image,
and the image goes to the runtime.
-/
namespace Msopcom.KernelRunner
open KernelConfig Bytes Slots

/-- What the calls of a run answer: the address of each allocation on the device in turn, the
FFTS address, the content of the files, and what an unassigned size holds for each argument. -/
structure Runtime where
  malloc : ℕ → UInt64
  c2cCtrlAddr : UInt64
  files : String → Option (List UInt8)
  unassigned : ℕ → UInt64

/-- The memory holds what was copied to an address. -/
structure Runner where
  kernelArgs : List UInt64 := []
  allocations : ℕ := 0
  memory : UInt64 → Option (List UInt8) := fun _ => none
  outputs : List Param := []
  tilingAddrOffset : ℕ := 0
  tilingData : List UInt8 := []

section Init
variable (rt : Runtime) (config : KernelConfig) (param : Param) (s : Runner)

def Runner.pushArg (arg : UInt64) : Runner := { s with kernelArgs := s.kernelArgs ++ [arg] }

/-- `RtMalloc` and, where there is content, `RtMemcpy`; the address is the next argument. -/
def Runner.allocate (content : Option (List UInt8)) : Runner :=
  { s with
    allocations := s.allocations + 1
    memory := fun a =>
      if a = rt.malloc s.allocations ∧ content.isSome then content else s.memory a }.pushArg
    (rt.malloc s.allocations)

/-- The file has to have the size of the parameter. -/
def readFile : Option (List UInt8) :=
  (rt.files param.dataPath).filter fun content =>
    content.length = (param.dataSize.getD (rt.unassigned s.kernelArgs.length)).toNat

def initInput : Option Runner :=
  if param.isRequired = some false then some (s.pushArg 0)
  else (readFile rt param s).map fun content => s.allocate rt (some content)

def initOutput : Runner := s.allocate rt none

def initWorkspace : Runner := s.allocate rt none

def initFftsAddr : Runner := s.pushArg rt.c2cCtrlAddr

/-- The other overload has a buffer that begins with the FFTS address. -/
def initStaticFftsAddr : Runner := s.allocate rt (some (leBytes 8 rt.c2cCtrlAddr.toNat))

def initTiling : Option Runner :=
  (readFile rt param s).map fun content =>
    { s.allocate rt (some content) with
      tilingAddrOffset := s.kernelArgs.length * 8
      tilingData := content }

def initParam : Option Runner :=
  match param.type with
  | .input => initInput rt param s
  | .output =>
      let s := initOutput rt s
      some { s with outputs := s.outputs ++ [param] }
  | .tiling => initTiling rt param s
  | .workspace => some (initWorkspace rt s)
  | .fftsAddr => some (if config.hasTilingKey then initFftsAddr rt s else initStaticFftsAddr rt s)

end Init

def initDatas (rt : Runtime) (config : KernelConfig) : List Param → Runner → Option Runner
  | [], s => some s
  | param :: params, s => (initParam rt config param s).bind (initDatas rt config params)

/-! ## The launch -/

inductive Launch
  | withHandle (tilingKey : UInt64) (blockDim : UInt32) (argsInfo : RtArgsEx)
  | plain (stubFunc : String) (blockDim : UInt32) (args : List UInt8) (argsSize : UInt32)
  deriving DecidableEq, Repr

/-- The arguments and behind them the tiling data, copied into a buffer of zeros. -/
def argsBuffer (s : Runner) : List UInt8 :=
  let argsByteSize := s.kernelArgs.length * 8
  let args := List.replicate (argsByteSize + s.tilingData.length) 0
  let args := Splice.copyN (slotBytes s.kernelArgs) argsByteSize args 0
  Splice.copyN s.tilingData s.tilingData.length args argsByteSize

/-- The structure has 32 bits for each size and offset. -/
def argsEx (s : Runner) : RtArgsEx where
  args := some (argsBuffer s)
  argsSize := UInt32.ofNat (argsBuffer s).length
  tilingAddrOffset := UInt32.ofNat s.tilingAddrOffset
  tilingDataOffset := UInt32.ofNat (s.kernelArgs.length * 8)
  hasTiling := 1

def launchKernel (config : KernelConfig) (s : Runner) : Launch :=
  if config.hasTilingKey then .withHandle config.tilingKey config.blockDim.toUInt32 (argsEx s)
  else .plain config.kernelName config.blockDim.toUInt32 (slotBytes s.kernelArgs)
    (UInt32.ofNat (s.kernelArgs.length * 8))

/-- The launch of a run in which no call fails. -/
def run (rt : Runtime) (config : KernelConfig) : Option Launch :=
  (initDatas rt config config.params {}).map (launchKernel config)

def Launch.argsInfo : Launch → Option RtArgsEx
  | .withHandle _ _ argsInfo => some argsInfo
  | .plain .. => none

/-- The argument image on the device, with the address of the tiling data where it belongs. -/
def Launch.image (tilingAddr : UInt64) : Launch → List UInt8
  | .withHandle _ _ a =>
      let image := (a.args.getD []).take a.argsSize.toNat
      if a.hasTiling = 0 then image else patch image a.tilingAddrOffset.toNat tilingAddr
  | .plain _ _ args argsSize => args.take argsSize.toNat

/-! ## The arguments -/

section Arguments
variable {rt : Runtime} {config : KernelConfig} {param : Param} {params : List Param}
  {s s' : Runner}

def takesBuffer (config : KernelConfig) (param : Param) : Bool :=
  match param.type with
  | .input => param.isRequired ≠ some false
  | .fftsAddr => !config.hasTilingKey
  | .output | .workspace | .tiling => true

/-- The argument for a parameter before which so many buffers were allocated. -/
def argument (rt : Runtime) (config : KernelConfig) (param : Param) (allocations : ℕ) : UInt64 :=
  if takesBuffer config param then rt.malloc allocations
  else if param.type = .fftsAddr then rt.c2cCtrlAddr
  else 0

/-- What one parameter does to the runner. -/
structure Initialised (rt : Runtime) (config : KernelConfig) (param : Param) (s s' : Runner) :
    Prop where
  kernelArgs : s'.kernelArgs = s.kernelArgs ++ [argument rt config param s.allocations]
  allocations : s'.allocations = s.allocations + (takesBuffer config param).toNat
  memory : ∀ a ≠ rt.malloc s.allocations, s'.memory a = s.memory a
  loaded : param.type = .input → param.isRequired ≠ some false →
    ∃ content, rt.files param.dataPath = some content ∧
      s'.memory (rt.malloc s.allocations) = some content
  noTiling : param.type ≠ .tiling →
    s'.tilingAddrOffset = s.tilingAddrOffset ∧ s'.tilingData = s.tilingData
  tiling : param.type = .tiling → s'.tilingAddrOffset = s.kernelArgs.length * 8 ∧
    rt.files param.dataPath = some s'.tilingData ∧
      ∀ size, param.dataSize = some size → s'.tilingData.length = size.toNat

theorem readFile_eq {content : List UInt8} (h : readFile rt param s = some content) :
    rt.files param.dataPath = some content ∧
      ∀ size, param.dataSize = some size → content.length = size.toNat := by
  obtain ⟨hfile, hsize⟩ := Option.filter_eq_some_iff.mp h
  refine ⟨hfile, fun size hdataSize => ?_⟩
  rw [hdataSize] at hsize
  exact of_decide_eq_true hsize

theorem memory_allocate {content : Option (List UInt8)} {a : UInt64}
    (h : a ≠ rt.malloc s.allocations) : (s.allocate rt content).memory a = s.memory a :=
  if_neg fun hself => h hself.1

theorem memory_allocate_self {content : List UInt8} :
    (s.allocate rt (some content)).memory (rt.malloc s.allocations) = some content :=
  if_pos ⟨rfl, rfl⟩

theorem argument_of_buffer {n : ℕ} (hbuffer : takesBuffer config param = true) :
    argument rt config param n = rt.malloc n :=
  if_pos hbuffer

theorem allocations_of_buffer (hbuffer : takesBuffer config param = true) :
    s.allocations + 1 = s.allocations + (takesBuffer config param).toNat := by
  rw [hbuffer]
  rfl

/-- A parameter that is neither input nor tiling data, with a buffer of its own. -/
theorem initialised_allocate {content : Option (List UInt8)} {outputs : List Param}
    (hinput : param.type ≠ .input) (htiling : param.type ≠ .tiling)
    (hbuffer : takesBuffer config param = true) :
    Initialised rt config param s { s.allocate rt content with outputs := outputs } where
  kernelArgs := by
    rw [argument_of_buffer hbuffer]
    rfl
  allocations := allocations_of_buffer hbuffer
  memory := fun _ => memory_allocate
  loaded := fun h => absurd h hinput
  noTiling := fun _ => ⟨rfl, rfl⟩
  tiling := fun h => absurd h htiling

theorem initInput_initialised (htype : param.type = .input)
    (h : initInput rt param s = some s') : Initialised rt config param s s' := by
  have htiling : param.type ≠ .tiling := by
    rw [htype]
    decide
  have hffts : param.type ≠ .fftsAddr := by
    rw [htype]
    decide
  have hbuffer : takesBuffer config param = decide (param.isRequired ≠ some false) := by
    unfold takesBuffer
    rw [htype]
  unfold initInput at h
  split_ifs at h with habsent
  · rw [← Option.some.inj h]
    have hnone : takesBuffer config param = false := by
      rw [hbuffer, habsent]
      rfl
    exact {
      kernelArgs := by
        rw [argument, hnone, if_neg Bool.false_ne_true, if_neg hffts]
        rfl
      allocations := by
        rw [hnone]
        rfl
      memory := fun _ _ => rfl
      loaded := fun _ hrequired => absurd habsent hrequired
      noTiling := fun _ => ⟨rfl, rfl⟩
      tiling := fun h => absurd h htiling }
  · obtain ⟨content, hread, rfl⟩ := Option.map_eq_some_iff.mp h
    have hsome : takesBuffer config param = true := hbuffer.trans (decide_eq_true habsent)
    exact {
      kernelArgs := by
        rw [argument_of_buffer hsome]
        rfl
      allocations := allocations_of_buffer hsome
      memory := fun _ => memory_allocate
      loaded := fun _ _ => ⟨content, (readFile_eq hread).1, memory_allocate_self⟩
      noTiling := fun _ => ⟨rfl, rfl⟩
      tiling := fun h => absurd h htiling }

theorem initTiling_initialised (htype : param.type = .tiling)
    (h : initTiling rt param s = some s') : Initialised rt config param s s' := by
  have hinput : param.type ≠ .input := by
    rw [htype]
    decide
  have hbuffer : takesBuffer config param = true := by
    unfold takesBuffer
    rw [htype]
  obtain ⟨content, hread, rfl⟩ := Option.map_eq_some_iff.mp h
  exact {
    kernelArgs := by
      rw [argument_of_buffer hbuffer]
      rfl
    allocations := allocations_of_buffer hbuffer
    memory := fun _ => memory_allocate
    loaded := fun h => absurd h hinput
    noTiling := fun h => absurd htype h
    tiling := fun _ => ⟨rfl, readFile_eq hread⟩ }

theorem initFftsAddr_initialised (htype : param.type = .fftsAddr)
    (hkey : config.hasTilingKey = true) : Initialised rt config param s (initFftsAddr rt s) := by
  have hbuffer : takesBuffer config param = false := by
    unfold takesBuffer
    rw [htype]
    dsimp only
    rw [hkey]
    rfl
  exact {
    kernelArgs := by
      rw [argument, hbuffer, if_neg Bool.false_ne_true, if_pos htype]
      rfl
    allocations := by
      rw [hbuffer]
      rfl
    memory := fun _ _ => rfl
    loaded := fun h => absurd (htype.symm.trans h) (by decide)
    noTiling := fun _ => ⟨rfl, rfl⟩
    tiling := fun h => absurd (htype.symm.trans h) (by decide) }

theorem initParam_initialised (h : initParam rt config param s = some s') :
    Initialised rt config param s s' := by
  have hother {content : Option (List UInt8)} {outputs : List Param} {type : TypeName}
      (htype : param.type = type) (hinput : type ≠ .input) (htiling : type ≠ .tiling)
      (hbuffer : takesBuffer config param = true) :
      Initialised rt config param s { s.allocate rt content with outputs := outputs } :=
    initialised_allocate (htype.symm ▸ hinput) (htype.symm ▸ htiling) hbuffer
  unfold initParam at h
  cases htype : param.type with
  | input =>
    rw [htype] at h
    exact initInput_initialised htype h
  | tiling =>
    rw [htype] at h
    exact initTiling_initialised htype h
  | output =>
    rw [htype] at h
    rw [← Option.some.inj h]
    exact hother htype (by decide) (by decide) (by unfold takesBuffer; rw [htype])
  | workspace =>
    rw [htype] at h
    rw [← Option.some.inj h]
    exact hother htype (by decide) (by decide) (by unfold takesBuffer; rw [htype])
  | fftsAddr =>
    rw [htype] at h
    rw [← Option.some.inj h]
    by_cases hkey : config.hasTilingKey = true
    · rw [if_pos hkey]
      exact initFftsAddr_initialised htype hkey
    · rw [if_neg hkey]
      refine hother htype (by decide) (by decide) ?_
      unfold takesBuffer
      rw [htype]
      exact congrArg (!·) (Bool.not_eq_true _ ▸ hkey)

/-! ## Runs -/

/-- The arguments for some parameters, before which so many buffers were allocated. -/
def arguments (rt : Runtime) (config : KernelConfig) : ℕ → List Param → List UInt64
  | _, [] => []
  | allocations, param :: params =>
      argument rt config param allocations ::
        arguments rt config (allocations + (takesBuffer config param).toNat) params

theorem initDatas_append {params' : List Param} :
    initDatas rt config (params ++ params') s =
      (initDatas rt config params s).bind (initDatas rt config params') := by
  induction params generalizing s with
  | nil => rfl
  | cons param params ih =>
    change (initParam rt config param s).bind (initDatas rt config (params ++ params')) =
      ((initParam rt config param s).bind (initDatas rt config params)).bind
        (initDatas rt config params')
    cases initParam rt config param s with
    | none => rfl
    | some next => exact ih

theorem initDatas_kernelArgs (h : initDatas rt config params s = some s') :
    s'.kernelArgs = s.kernelArgs ++ arguments rt config s.allocations params := by
  induction params generalizing s with
  | nil =>
    rw [← Option.some.inj h]
    exact (List.append_nil _).symm
  | cons param params ih =>
    obtain ⟨next, hparam, hrest⟩ := Option.bind_eq_some_iff.mp h
    have hnext := initParam_initialised hparam
    rw [ih hrest, hnext.kernelArgs, hnext.allocations, List.append_assoc]
    rfl

theorem length_arguments {allocations : ℕ} :
    (arguments rt config allocations params).length = params.length := by
  induction params generalizing allocations with
  | nil => rfl
  | cons param params ih => exact congrArg (· + 1) ih

theorem getElem?_arguments {allocations i : ℕ} :
    (arguments rt config allocations params)[i]? = params[i]?.map fun param =>
      argument rt config param
        (allocations + (params.take i).countP (takesBuffer config)) := by
  induction params generalizing allocations i with
  | nil => rfl
  | cons param params ih =>
    cases i with
    | zero => rfl
    | succ i =>
      rw [arguments, List.getElem?_cons_succ, ih, List.getElem?_cons_succ, List.take_succ_cons,
        List.countP_cons]
      cases takesBuffer config param with
      | false => rfl
      | true =>
        rw [if_pos rfl, Bool.toNat_true, Nat.add_assoc, Nat.add_comm 1]

def NoTiling (params : List Param) : Prop := ∀ param ∈ params, param.type ≠ .tiling

theorem initDatas_noTiling (hparams : NoTiling params)
    (h : initDatas rt config params s = some s') :
    s'.tilingAddrOffset = s.tilingAddrOffset ∧ s'.tilingData = s.tilingData := by
  induction params generalizing s with
  | nil =>
    rw [← Option.some.inj h]
    exact ⟨rfl, rfl⟩
  | cons param params ih =>
    obtain ⟨hparam, hrest⟩ := List.forall_mem_cons.mp hparams
    obtain ⟨next, hinit, hrun⟩ := Option.bind_eq_some_iff.mp h
    obtain ⟨hoffset, hdata⟩ := (initParam_initialised hinit).noTiling hparam
    obtain ⟨hoffset', hdata'⟩ := ih hrest hrun
    exact ⟨hoffset'.trans hoffset, hdata'.trans hdata⟩

/-- The one parameter for tiling data says where its address and its data are. -/
theorem initDatas_tiling {before after : List Param} (htype : param.type = .tiling)
    (hafter : NoTiling after)
    (h : initDatas rt config (before ++ param :: after) {} = some s) :
    s.tilingAddrOffset = before.length * 8 ∧ rt.files param.dataPath = some s.tilingData ∧
      ∀ size, param.dataSize = some size → s.tilingData.length = size.toNat := by
  rw [initDatas_append] at h
  obtain ⟨first, hfirst, hrest⟩ := Option.bind_eq_some_iff.mp h
  obtain ⟨next, hparam, hlast⟩ := Option.bind_eq_some_iff.mp hrest
  obtain ⟨hoffset, hdata⟩ := (initParam_initialised hparam).tiling htype
  obtain ⟨hoffset', hdata'⟩ := initDatas_noTiling hafter hlast
  have hlength : first.kernelArgs.length = before.length := by
    rw [initDatas_kernelArgs hfirst]
    exact length_arguments
  rw [hoffset', hdata', hoffset, hlength]
  exact ⟨rfl, hdata⟩

theorem initDatas_allocations (h : initDatas rt config params s = some s') :
    s'.allocations = s.allocations + params.countP (takesBuffer config) := by
  induction params generalizing s with
  | nil =>
    rw [← Option.some.inj h]
    rfl
  | cons param params ih =>
    obtain ⟨next, hparam, hrest⟩ := Option.bind_eq_some_iff.mp h
    rw [ih hrest, (initParam_initialised hparam).allocations, List.countP_cons]
    cases takesBuffer config param with
    | false => rfl
    | true =>
      rw [if_pos rfl, Bool.toNat_true]
      omega

/-- What is in a buffer stays there while others are allocated. -/
theorem initDatas_memory (hmalloc : Function.Injective rt.malloc)
    (h : initDatas rt config params s = some s') {n : ℕ} (hn : n < s.allocations) :
    s'.memory (rt.malloc n) = s.memory (rt.malloc n) := by
  induction params generalizing s with
  | nil => rw [← Option.some.inj h]
  | cons param params ih =>
    obtain ⟨next, hparam, hrest⟩ := Option.bind_eq_some_iff.mp h
    have hnext := initParam_initialised hparam
    have hapart : rt.malloc n ≠ rt.malloc s.allocations := fun heq =>
      Nat.ne_of_lt hn (hmalloc heq)
    rw [ih hrest (by rw [hnext.allocations]; omega), hnext.memory _ hapart]

/-- The argument for an input with data is a buffer that holds the content of its file. -/
theorem input_loaded (hmalloc : Function.Injective rt.malloc)
    (h : initDatas rt config params {} = some s) {i : ℕ} (hparam : params[i]? = some param)
    (htype : param.type = .input) (hrequired : param.isRequired ≠ some false) :
    ∃ address content, s.kernelArgs[i]? = some address ∧
      rt.files param.dataPath = some content ∧ s.memory address = some content := by
  obtain ⟨hi, rfl⟩ := List.getElem?_eq_some_iff.mp hparam
  have hbuffer : takesBuffer config params[i] = true := by
    unfold takesBuffer
    rw [htype]
    exact decide_eq_true hrequired
  have hargs : s.kernelArgs[i]? = some
      (argument rt config params[i] ((params.take i).countP (takesBuffer config))) := by
    rw [initDatas_kernelArgs h]
    change (arguments rt config 0 params)[i]? = _
    rw [getElem?_arguments, hparam, Nat.zero_add]
    rfl
  have hsplit : params = params.take i ++ params[i] :: params.drop (i + 1) := by
    rw [← List.drop_eq_getElem_cons hi, List.take_append_drop]
  rw [hsplit, initDatas_append] at h
  obtain ⟨first, hfirst, hrest⟩ := Option.bind_eq_some_iff.mp h
  obtain ⟨next, hinit, hlast⟩ := Option.bind_eq_some_iff.mp hrest
  have hnext := initParam_initialised hinit
  have hallocations : first.allocations = (params.take i).countP (takesBuffer config) := by
    rw [initDatas_allocations hfirst]
    exact Nat.zero_add _
  obtain ⟨content, hfile, hmemory⟩ := hnext.loaded htype hrequired
  have hlt : first.allocations < next.allocations := by
    rw [hnext.allocations, hbuffer]
    exact Nat.lt_succ_self _
  refine ⟨_, content, hargs, hfile, ?_⟩
  rw [argument, if_pos hbuffer, ← hallocations, initDatas_memory hmalloc hlast hlt, hmemory]

/-! ## The image -/

theorem argsBuffer_eq (s : Runner) : argsBuffer s = slotBytes s.kernelArgs ++ s.tilingData := by
  have hslots : (slotBytes s.kernelArgs).length = s.kernelArgs.length * 8 := by
    rw [length_slotBytes, Nat.mul_comm]
  have hzeros : List.replicate (s.kernelArgs.length * 8 + s.tilingData.length) (0 : UInt8) =
      [] ++ (List.replicate (s.kernelArgs.length * 8) 0 ++
        List.replicate s.tilingData.length 0) := by
    rw [List.nil_append, List.replicate_append_replicate]
  have hblank : List.replicate s.tilingData.length (0 : UInt8) =
      List.replicate s.tilingData.length 0 ++ [] := (List.append_nil _).symm
  unfold argsBuffer
  dsimp only
  rw [hzeros, Splice.copyN_append _ _ List.length_nil List.length_replicate,
    List.nil_append, hblank,
    List.take_of_length_le (Nat.le_of_eq hslots),
    Splice.copyN_append _ _ hslots List.length_replicate, List.take_length, List.append_nil]

theorem length_argsBuffer (s : Runner) :
    (argsBuffer s).length = 8 * s.kernelArgs.length + s.tilingData.length := by
  rw [argsBuffer_eq, List.length_append, length_slotBytes]

end Arguments

end Msopcom.KernelRunner
