import Mathlib.Data.List.Perm.Basic
import Msopcom.KernelConfigParser
import Msopcom.Ledger

set_option autoImplicit false

/-!
# What the kernel runner acquires and releases

A run of the kernel runner in which any call may fail, with the calls that acquire something and the
members that the destructor goes by. What is written to the memory is in the model of the runs in
which no call fails.
-/
namespace Msopcom.KernelRunnerRelease
open KernelConfig Ledger

inductive Kind
  | device
  | stream
  | devBinary
  | devMem
  | hostMem
  deriving DecidableEq, Repr

/-- Handles and pointers are numbers. What is acquired is never null, and has the number of no
earlier call. -/
structure Resource where
  kind : Kind
  number : ℕ
  deriving DecidableEq, Repr

/-- The calls made so far, and the members of the runner. -/
structure Runner where
  events : List (Event Resource) := []
  calls : ℕ := 0
  device : ℕ := 0
  rtStream : ℕ := 0
  binHandle : ℕ := 0
  needResetDevice : Bool := false
  needDestroyStream : Bool := false
  needUnRegisterDevBinary : Bool := false
  hostInputPtrs : List ℕ := []
  devInputPtrs : List ℕ := []
  hostOutputPtrs : List ℕ := []
  devOutputPtrs : List ℕ := []

namespace Runner

/-- The number of what is acquired is `s.calls`. -/
def acquire (kind : Kind) (s : Runner) : Runner :=
  { s with events := s.events ++ [.acquire ⟨kind, s.calls⟩], calls := s.calls + 1 }

def release (r : Resource) (s : Runner) : Runner := { s with events := s.events ++ [.release r] }

def flagged (need : Bool) (r : Resource) : List Resource := if need then [r] else []

/-- What `~KernelRunner` releases, in this order. -/
def releases (s : Runner) : List Resource :=
  flagged s.needUnRegisterDevBinary ⟨.devBinary, s.binHandle⟩ ++
    flagged s.needDestroyStream ⟨.stream, s.rtStream⟩ ++
    s.devInputPtrs.map (Resource.mk .devMem) ++ s.hostInputPtrs.map (Resource.mk .hostMem) ++
    s.devOutputPtrs.map (Resource.mk .devMem) ++ s.hostOutputPtrs.map (Resource.mk .hostMem) ++
    flagged s.needResetDevice ⟨.device, s.device⟩

def destroy (s : Runner) : List (Event Resource) := s.events ++ s.releases.map .release

end Runner

/-! ## Functions that end with the first call that fails -/

/-- A function of the runner, which may return false. -/
abbrev Action := Runner → Bool × Runner

/-- `CHECK_RT_RESULT` of a call that acquires nothing. -/
def checkRtResult (ok : Bool) : Action := fun s => (ok, s)

/-- A call that acquires something, and what is done with it if the call succeeds. -/
def checkAcquired (ok : Bool) (acquired : Runner → Runner) : Action :=
  fun s => if ok then (true, acquired s) else (false, s)

def Action.andThen (first second : Action) : Action := fun s =>
  match first s with
  | (true, s) => second s
  | (false, s) => (false, s)

/-- How the calls for one parameter end. -/
structure ParamCalls where
  mallocHost : Bool := true
  readFile : Bool := true
  malloc : Bool := true
  memcpy : Bool := true
  getC2cCtrlAddr : Bool := true
  free : Bool := true

/-- How the other calls of a run end. `register` is `RtRegisterAllKernel` or
`RtDevBinaryRegister`. -/
structure Calls where
  setDevice : Bool := true
  streamCreate : Bool := true
  readBinary : Bool := true
  register : Bool := true
  functionRegister : Bool := true
  params : ℕ → ParamCalls := fun _ => {}
  launch : Bool := true
  streamSynchronize : Bool := true
  saveOutputs : Bool := true

section Init
variable (c : ParamCalls)

def addHostInput (s : Runner) : Runner :=
  { s.acquire .hostMem with hostInputPtrs := s.hostInputPtrs ++ [s.calls] }

def addDevInput (s : Runner) : Runner :=
  { s.acquire .devMem with devInputPtrs := s.devInputPtrs ++ [s.calls] }

def addHostOutput (s : Runner) : Runner :=
  { s.acquire .hostMem with hostOutputPtrs := s.hostOutputPtrs ++ [s.calls] }

def addDevOutput (s : Runner) : Runner :=
  { s.acquire .devMem with devOutputPtrs := s.devOutputPtrs ++ [s.calls] }

/-- A file goes through host memory to the device. -/
def loadFile : Action :=
  (checkAcquired c.mallocHost addHostInput).andThen <| (checkRtResult c.readFile).andThen <|
    (checkAcquired c.malloc addDevInput).andThen <| checkRtResult c.memcpy

def initInput (param : Param) : Action :=
  if param.isRequired = some false then checkRtResult true else loadFile c

def initOutput : Action :=
  (checkAcquired c.mallocHost addHostOutput).andThen <| checkAcquired c.malloc addDevOutput

def initWorkspace : Action := checkAcquired c.malloc addDevInput

def initFftsAddr : Action := checkRtResult c.getC2cCtrlAddr

/-- The buffers of the other overload are in no member. The host buffer is given to `RtFree`. -/
def initStaticFftsAddr : Action :=
  (checkRtResult c.getC2cCtrlAddr).andThen fun s =>
    let fftsHost := s.calls
    ((checkAcquired c.mallocHost (Runner.acquire .hostMem)).andThen <|
      (checkAcquired c.malloc (Runner.acquire .devMem)).andThen <|
      (checkRtResult c.memcpy).andThen fun s => (c.free, s.release ⟨.devMem, fftsHost⟩)) s

def initTiling : Action := loadFile c

def initParam (config : KernelConfig) (param : Param) : Action :=
  match param.type with
  | .input => initInput c param
  | .output => initOutput c
  | .tiling => initTiling c
  | .workspace => initWorkspace c
  | .fftsAddr => if config.hasTilingKey then initFftsAddr c else initStaticFftsAddr c

end Init

def initDatas (config : KernelConfig) : List (Param × ParamCalls) → Action
  | [] => checkRtResult true
  | (param, c) :: params => (initParam c config param).andThen (initDatas config params)

section Run
variable (config : KernelConfig) (c : Calls)

def binRegistered (s : Runner) : Runner := { s.acquire .devBinary with binHandle := s.calls }

def needUnRegister (s : Runner) : Runner := { s with needUnRegisterDevBinary := true }

def registerKernel : Action :=
  if config.hasTilingKey then
    (checkAcquired c.register binRegistered).andThen fun s => (true, needUnRegister s)
  else
    (checkAcquired c.register binRegistered).andThen <|
      (checkRtResult c.functionRegister).andThen fun s => (true, needUnRegister s)

def deviceSet (s : Runner) : Runner :=
  { s.acquire .device with device := s.calls, needResetDevice := true }

def streamCreated (s : Runner) : Runner :=
  { s.acquire .stream with rtStream := s.calls, needDestroyStream := true }

/-- Each parameter with the calls for it. -/
def paramCalls : List (Param × ParamCalls) :=
  config.params.zipIdx.map fun (param, i) => (param, c.params i)

def run : Action :=
  (checkAcquired c.setDevice deviceSet).andThen <|
    (checkAcquired c.streamCreate streamCreated).andThen <|
    (checkRtResult c.readBinary).andThen <|
    (registerKernel config c).andThen <|
    (initDatas config (paramCalls config c)).andThen <|
    (checkRtResult c.launch).andThen <|
    (checkRtResult c.streamSynchronize).andThen <|
    checkRtResult c.saveOutputs

/-- A runner runs once and is destroyed. -/
def runAndDestroy : List (Event Resource) := (run config c {}).2.destroy

end Run

/-! ## What one function does to the account -/

/-- What the destructor releases is held, and numbers are given out in turn. -/
structure Good (s : Runner) (lost : List Resource) : Prop where
  account : Account s.events s.releases lost
  acquired_lt : ∀ r ∈ acquired s.events, r.number < s.calls
  released_lt : ∀ r ∈ released s.events, r.number < s.calls
  number_inj : ∀ r ∈ acquired s.events, ∀ r' ∈ acquired s.events, r.number = r'.number → r = r'

variable {s s' : Runner} {lost : List Resource} {kind : Kind}

theorem Good.not_acquired (h : Good s lost) : ⟨kind, s.calls⟩ ∉ acquired s.events :=
  fun hmem => Nat.lt_irrefl _ (h.acquired_lt _ hmem)

theorem Good.not_released (h : Good s lost) : ⟨kind, s.calls⟩ ∉ released s.events :=
  fun hmem => Nat.lt_irrefl _ (h.released_lt _ hmem)

/-- The runner has acquired something, whatever it does with it. -/
structure Acquires (kind : Kind) (s s' : Runner) : Prop where
  events : s'.events = s.events ++ [.acquire ⟨kind, s.calls⟩]
  calls : s'.calls = s.calls + 1

theorem Acquires.mem (hs : Acquires kind s s') {r : Resource} (hr : r ∈ acquired s'.events) :
    r ∈ acquired s.events ∨ r = ⟨kind, s.calls⟩ := by
  simpa [hs.events] using hr

/-- An acquisition keeps the order of the numbers. -/
theorem Good.acquires (h : Good s lost) (hs : Acquires kind s s') {held lost' : List Resource}
    (haccount : Account s'.events held lost') (hheld : held = s'.releases) : Good s' lost' where
  account := hheld ▸ haccount
  acquired_lt r hr := by
    rw [hs.calls]
    rcases hs.mem hr with hr | rfl
    · exact Nat.lt_succ_of_lt (h.acquired_lt r hr)
    · exact Nat.lt_succ_self _
  released_lt r hr := by
    rw [hs.calls]
    exact Nat.lt_succ_of_lt (h.released_lt r (by simpa [hs.events] using hr))
  number_inj r hr r' hr' heq := by
    rcases hs.mem hr with hr | rfl
    · rcases hs.mem hr' with hr' | rfl
      · exact h.number_inj r hr r' hr' heq
      · exact absurd heq (Nat.ne_of_lt (h.acquired_lt r hr))
    · rcases hs.mem hr' with hr' | rfl
      · exact absurd heq.symm (Nat.ne_of_lt (h.acquired_lt r' hr'))
      · rfl

theorem Good.hold (h : Good s lost) (hs : Acquires kind s s')
    (hperm : s'.releases.Perm (s.releases ++ [⟨kind, s.calls⟩])) : Good s' lost := by
  have haccount := (h.account.acquire h.not_acquired h.not_released).perm hperm
  exact h.acquires hs (hs.events ▸ haccount) rfl

theorem Good.lose (h : Good s lost) (hs : Acquires kind s s')
    (hreleases : s'.releases = s.releases) : Good s' (⟨kind, s.calls⟩ :: lost) := by
  have haccount : Account (s.events ++ [.acquire ⟨kind, s.calls⟩]) s.releases
      (⟨kind, s.calls⟩ :: lost) := (h.account.acquire h.not_acquired h.not_released).lose
  exact h.acquires hs (hs.events ▸ haccount) hreleases.symm

/-- What is released as something else than it was acquired as. -/
theorem Good.stray (h : Good s lost) {r r' : Resource} (hr : r ∈ acquired s.events)
    (hnumber : r'.number = r.number) (hne : r' ≠ r) : Good (s.release r') lost where
  account := h.account.stray fun hr' => hne (h.number_inj r' hr' r hr hnumber)
  acquired_lt a ha := h.acquired_lt a (by simpa [Runner.release] using ha)
  released_lt a ha := by
    have ha : a ∈ released s.events ∨ a = r' := by simpa [Runner.release] using ha
    rcases ha with ha | rfl
    · exact h.released_lt a ha
    · exact hnumber ▸ h.acquired_lt r hr
  number_inj a ha b hb :=
    h.number_inj a (by simpa [Runner.release] using ha) b (by simpa [Runner.release] using hb)

/-- The function returns `ok`, and it loses something exactly if `loses` is true. -/
def Keeps (s : Runner) (res : Bool × Runner) (ok loses : Bool) : Prop :=
  res.1 = ok ∧ ∀ lost, Good s lost →
    ∃ extra, Good res.2 (extra ++ lost) ∧ (extra = [] ↔ loses = false)

theorem keeps_checkRtResult (s : Runner) (ok : Bool) : Keeps s (checkRtResult ok s) ok false :=
  ⟨rfl, fun _ h => ⟨[], h, by simp⟩⟩

theorem keeps_checkAcquired {next : Runner → Runner} (ok : Bool) (hs : Acquires kind s (next s))
    (hcount : ∀ r, (next s).releases.count r =
      s.releases.count r + [Resource.mk kind s.calls].count r) :
    Keeps s (checkAcquired ok next s) ok false := by
  have hperm : (next s).releases.Perm (s.releases ++ [⟨kind, s.calls⟩]) :=
    List.perm_iff_count.mpr fun r => by rw [hcount, List.count_append]
  cases ok with
  | false => exact ⟨rfl, fun _ h => ⟨[], h, by simp⟩⟩
  | true => exact ⟨rfl, fun _ h => ⟨[], h.hold hs hperm, by simp⟩⟩

theorem Keeps.andThen {first second : Action} {ok ok' loses loses' : Bool}
    (hfirst : Keeps s (first s) ok loses)
    (hsecond : ∀ s₁, first s = (true, s₁) → Keeps s₁ (second s₁) ok' loses') :
    Keeps s (first.andThen second s) (ok && ok') (loses || ok && loses') := by
  obtain ⟨hok, hkeeps⟩ := hfirst
  unfold Action.andThen
  split
  case h_1 s₁ hs₁ =>
    rw [hs₁] at hok hkeeps
    subst hok
    obtain ⟨hok', hkeeps'⟩ := hsecond s₁ hs₁
    refine ⟨hok', fun lost hgood => ?_⟩
    obtain ⟨extra, hgood₁, hextra⟩ := hkeeps lost hgood
    obtain ⟨extra', hgood₂, hextra'⟩ := hkeeps' _ hgood₁
    refine ⟨extra' ++ extra, by simpa using hgood₂, ?_⟩
    simp [hextra, hextra', and_comm]
  case h_2 s₁ hs₁ =>
    rw [hs₁] at hok hkeeps
    subst hok
    exact ⟨rfl, by simpa using hkeeps⟩

theorem checkRtResult_true {ok : Bool} (h : checkRtResult ok s = (true, s')) : s' = s := by
  simp_all [checkRtResult]

theorem checkAcquired_true {ok : Bool} {next : Runner → Runner}
    (h : checkAcquired ok next s = (true, s')) : s' = next s := by
  cases ok <;> simp_all [checkAcquired]

/-! ## The functions -/

section Functions
variable (c : ParamCalls)

theorem keeps_addHostInput (ok : Bool) (s : Runner) :
    Keeps s (checkAcquired ok addHostInput s) ok false := by
  refine @keeps_checkAcquired _ .hostMem _ ok ⟨rfl, rfl⟩ fun r => ?_
  simp only [Runner.releases, addHostInput, Runner.acquire, List.map_append, List.map_cons,
    List.map_nil, List.count_append]
  omega

theorem keeps_addDevInput (ok : Bool) (s : Runner) :
    Keeps s (checkAcquired ok addDevInput s) ok false := by
  refine @keeps_checkAcquired _ .devMem _ ok ⟨rfl, rfl⟩ fun r => ?_
  simp only [Runner.releases, addDevInput, Runner.acquire, List.map_append, List.map_cons,
    List.map_nil, List.count_append]
  omega

theorem keeps_addHostOutput (ok : Bool) (s : Runner) :
    Keeps s (checkAcquired ok addHostOutput s) ok false := by
  refine @keeps_checkAcquired _ .hostMem _ ok ⟨rfl, rfl⟩ fun r => ?_
  simp only [Runner.releases, addHostOutput, Runner.acquire, List.map_append, List.map_cons,
    List.map_nil, List.count_append]
  omega

theorem keeps_addDevOutput (ok : Bool) (s : Runner) :
    Keeps s (checkAcquired ok addDevOutput s) ok false := by
  refine @keeps_checkAcquired _ .devMem _ ok ⟨rfl, rfl⟩ fun r => ?_
  simp only [Runner.releases, addDevOutput, Runner.acquire, List.map_append, List.map_cons,
    List.map_nil, List.count_append]
  omega

def loadOk : Bool := c.mallocHost && (c.readFile && (c.malloc && c.memcpy))

theorem keeps_loadFile (s : Runner) : Keeps s (loadFile c s) (loadOk c) false := by
  have hkeeps := (keeps_addHostInput c.mallocHost s).andThen fun _ _ =>
    (keeps_checkRtResult _ c.readFile).andThen fun _ _ =>
    (keeps_addDevInput c.malloc _).andThen fun _ _ => keeps_checkRtResult _ c.memcpy
  simpa [loadOk, loadFile] using hkeeps

theorem keeps_initOutput (s : Runner) :
    Keeps s (initOutput c s) (c.mallocHost && c.malloc) false := by
  have hkeeps := (keeps_addHostOutput c.mallocHost s).andThen fun _ _ =>
    keeps_addDevOutput c.malloc _
  simpa [initOutput] using hkeeps

def staticOk : Bool :=
  c.getC2cCtrlAddr && (c.mallocHost && (c.malloc && (c.memcpy && c.free)))

theorem keeps_lost {next : Runner → Runner} (ok : Bool) (hs : Acquires kind s (next s))
    (hreleases : (next s).releases = s.releases) :
    Keeps s (checkAcquired ok next s) ok ok := by
  cases ok with
  | false => exact ⟨rfl, fun _ h => ⟨[], h, by simp⟩⟩
  | true => exact ⟨rfl, fun _ h => ⟨[⟨kind, s.calls⟩], h.lose hs hreleases, by simp⟩⟩

theorem keeps_acquire (kind : Kind) (ok : Bool) (s : Runner) :
    Keeps s (checkAcquired ok (Runner.acquire kind) s) ok ok :=
  keeps_lost ok ⟨rfl, rfl⟩ rfl

theorem keeps_stray {r r' : Resource} (ok : Bool) (hr : r ∈ acquired s.events)
    (hnumber : r'.number = r.number) (hne : r' ≠ r) : Keeps s (ok, s.release r') ok false :=
  ⟨rfl, fun _ h => ⟨[], h.stray hr hnumber hne, by simp⟩⟩

/-- The buffers that no member has are never released: `RtFree` does not release host memory. -/
theorem keeps_initStaticFftsAddr (s : Runner) :
    Keeps s (initStaticFftsAddr c s) (staticOk c) (c.getC2cCtrlAddr && c.mallocHost) := by
  have hkeeps : Keeps s (initStaticFftsAddr c s)
      (c.getC2cCtrlAddr && (c.mallocHost && (c.malloc && (c.memcpy && c.free))))
      (false || c.getC2cCtrlAddr && (c.mallocHost || c.mallocHost && (c.malloc || c.malloc &&
        (false || c.memcpy && false)))) := by
    refine (keeps_checkRtResult s c.getC2cCtrlAddr).andThen fun s₁ h₁ => ?_
    obtain rfl := checkRtResult_true h₁
    refine (keeps_acquire .hostMem c.mallocHost _).andThen fun s₂ h₂ => ?_
    obtain rfl := checkAcquired_true h₂
    refine (keeps_acquire .devMem c.malloc _).andThen fun s₃ h₃ => ?_
    obtain rfl := checkAcquired_true h₃
    refine (keeps_checkRtResult _ c.memcpy).andThen fun s₄ h₄ => ?_
    obtain rfl := checkRtResult_true h₄
    exact @keeps_stray _ ⟨.hostMem, s₁.calls⟩ _ c.free (by simp [Runner.acquire]) rfl (by simp)
  have hloses : (false || c.getC2cCtrlAddr && (c.mallocHost || c.mallocHost && (c.malloc ||
      c.malloc && (false || c.memcpy && false)))) = (c.getC2cCtrlAddr && c.mallocHost) := by
    cases c.mallocHost <;> simp
  rwa [hloses] at hkeeps

/-! ## The parameters -/

def paramOk (config : KernelConfig) (param : Param) : Bool :=
  match param.type with
  | .input => param.isRequired = some false || loadOk c
  | .output => c.mallocHost && c.malloc
  | .tiling => loadOk c
  | .workspace => c.malloc
  | .fftsAddr => if config.hasTilingKey then c.getC2cCtrlAddr else staticOk c

/-- A static FFTS address, for which host memory is allocated. -/
def paramLoses (config : KernelConfig) (param : Param) : Bool :=
  param.type = .fftsAddr && !config.hasTilingKey && (c.getC2cCtrlAddr && c.mallocHost)

theorem keeps_initParam (config : KernelConfig) (param : Param) (s : Runner) :
    Keeps s (initParam c config param s) (paramOk c config param) (paramLoses c config param) := by
  unfold initParam paramOk paramLoses
  cases htype : param.type with
  | input =>
    by_cases habsent : param.isRequired = some false
    · simpa [initInput, habsent] using keeps_checkRtResult s true
    · simpa [initInput, habsent] using keeps_loadFile c s
  | output => simpa using keeps_initOutput c s
  | tiling => simpa [initTiling] using keeps_loadFile c s
  | workspace => simpa [initWorkspace] using keeps_addDevInput c.malloc s
  | fftsAddr =>
    cases hkey : config.hasTilingKey with
    | true => simpa [initFftsAddr] using keeps_checkRtResult s c.getC2cCtrlAddr
    | false => simpa using keeps_initStaticFftsAddr c s

end Functions

section Runs
variable (config : KernelConfig)

def paramsOk (params : List (Param × ParamCalls)) : Bool :=
  params.all fun (param, c) => paramOk c config param

/-- A parameter that is reached loses something. -/
def paramsLose : List (Param × ParamCalls) → Bool
  | [] => false
  | (param, c) :: params => paramLoses c config param || paramOk c config param && paramsLose params

theorem keeps_initDatas (params : List (Param × ParamCalls)) (s : Runner) :
    Keeps s (initDatas config params s) (paramsOk config params) (paramsLose config params) := by
  induction params generalizing s with
  | nil => exact keeps_checkRtResult s true
  | cons head params ih =>
    obtain ⟨param, c⟩ := head
    exact (keeps_initParam c config param s).andThen fun _ _ => ih _

/-- The binary is registered, and the function is not. -/
def registerLoses (c : Calls) : Bool := !config.hasTilingKey && (c.register && !c.functionRegister)

def registerOk (c : Calls) : Bool := c.register && (config.hasTilingKey || c.functionRegister)

/-- The binary is released by the destructor once the flag is set. -/
theorem keeps_registered (ok : Bool) (hs : s.needUnRegisterDevBinary = false) :
    Keeps s (checkAcquired ok (fun s => needUnRegister (binRegistered s)) s) ok false := by
  refine @keeps_checkAcquired _ .devBinary _ ok ⟨rfl, rfl⟩ fun r => ?_
  simp only [Runner.releases, needUnRegister, binRegistered, Runner.acquire, Runner.flagged, hs,
    List.count_append, List.count_nil, if_true, Bool.false_eq_true, if_false]
  omega

theorem keeps_registerKernel (c : Calls) (hs : s.needUnRegisterDevBinary = false) :
    Keeps s (registerKernel config c s) (registerOk config c) (registerLoses config c) := by
  unfold registerKernel registerOk registerLoses
  have hheld : (checkAcquired c.register binRegistered).andThen
      (fun s => (true, needUnRegister s)) =
        checkAcquired c.register fun s => needUnRegister (binRegistered s) := by
    funext s
    cases c.register <;> rfl
  cases hkey : config.hasTilingKey with
  | true =>
    rw [if_pos rfl, hheld]
    simpa using keeps_registered c.register hs
  | false =>
    rw [if_neg Bool.false_ne_true]
    cases hfunction : c.functionRegister with
    | true =>
      have hcheck : (checkRtResult true).andThen (fun s => (true, needUnRegister s)) =
          fun s => (true, needUnRegister s) := rfl
      rw [hcheck, hheld]
      simpa using keeps_registered c.register hs
    | false =>
      have hkeeps : Keeps s (((checkAcquired c.register binRegistered).andThen
          ((checkRtResult false).andThen fun s => (true, needUnRegister s))) s)
          (c.register && (false && true))
          (c.register || c.register && (false || false && false)) := by
        refine (keeps_lost c.register ⟨rfl, rfl⟩ ?_).andThen fun s₁ _ => ?_
        · simp [Runner.releases, binRegistered, Runner.acquire, Runner.flagged, hs]
        · exact (keeps_checkRtResult s₁ false).andThen fun s₂ h₂ => by simp [checkRtResult] at h₂
      simpa using hkeeps

def runOk (c : Calls) : Bool :=
  c.setDevice && (c.streamCreate && (c.readBinary && (registerOk config c &&
    (paramsOk config (paramCalls config c) &&
      (c.launch && (c.streamSynchronize && c.saveOutputs))))))

/-- A resource is acquired that the destructor does not know of. -/
def runLoses (c : Calls) : Bool :=
  c.setDevice && (c.streamCreate && (c.readBinary &&
    (registerLoses config c || registerOk config c && paramsLose config (paramCalls config c))))

theorem keeps_deviceSet (ok : Bool) (hs : s.needResetDevice = false) :
    Keeps s (checkAcquired ok deviceSet s) ok false := by
  refine @keeps_checkAcquired _ .device _ ok ⟨rfl, rfl⟩ fun r => ?_
  simp only [Runner.releases, deviceSet, Runner.acquire, Runner.flagged, hs,
    List.count_append, List.count_nil, if_true, Bool.false_eq_true, if_false]
  omega

theorem keeps_streamCreated (ok : Bool) (hs : s.needDestroyStream = false) :
    Keeps s (checkAcquired ok streamCreated s) ok false := by
  refine @keeps_checkAcquired _ .stream _ ok ⟨rfl, rfl⟩ fun r => ?_
  simp only [Runner.releases, streamCreated, Runner.acquire, Runner.flagged, hs,
    List.count_append, List.count_nil, if_true, Bool.false_eq_true, if_false]
  omega

theorem keeps_run (c : Calls) :
    Keeps {} (run config c {}) (runOk config c) (runLoses config c) := by
  have hkeeps := (keeps_deviceSet c.setDevice (rfl : ({} : Runner).needResetDevice = false)).andThen
    fun s₁ h₁ => (keeps_streamCreated c.streamCreate
      (by rw [checkAcquired_true h₁]; rfl : s₁.needDestroyStream = false)).andThen
    fun s₂ h₂ => (keeps_checkRtResult s₂ c.readBinary).andThen
    fun s₃ h₃ => (keeps_registerKernel config c
      (by rw [checkRtResult_true h₃, checkAcquired_true h₂, checkAcquired_true h₁]; rfl)).andThen
    fun _ _ => (keeps_initDatas config (paramCalls config c) _).andThen
    fun _ _ => (keeps_checkRtResult _ c.launch).andThen
    fun _ _ => (keeps_checkRtResult _ c.streamSynchronize).andThen
    fun _ _ => keeps_checkRtResult _ c.saveOutputs
  simp only [Bool.false_or, Bool.or_false, Bool.and_false] at hkeeps
  exact hkeeps

theorem good_init : Good {} [] where
  account := Account.nil
  acquired_lt := by simp
  released_lt := by simp
  number_inj := by simp

/-- Everything that a run acquires is released exactly once, unless a function is not registered or
a static FFTS address gets its host memory. -/
theorem runner_releasedOnce_iff (c : Calls) :
    ReleasedOnce (runAndDestroy config c) ↔ runLoses config c = false := by
  obtain ⟨extra, hgood, hextra⟩ := (keeps_run config c).2 [] good_init
  rw [← hextra]
  have hsettled := hgood.account.settle (List.Perm.refl _)
  simpa [runAndDestroy, Runner.destroy] using hsettled.releasedOnce_iff

end Runs

/-- The FFTS address of a kernel without a tiling key. -/
theorem not_releasedOnce_fftsAddr :
    ¬ ReleasedOnce
      (runAndDestroy { params := [{ type := .fftsAddr, dataSize := some 64 }] } {}) := by
  decide

end Msopcom.KernelRunnerRelease
