import Mathlib.Data.Finset.Dedup
import Msopcom.Custody

set_option autoImplicit false

/-!
# The launcher of the tool's own kernels

A kernel is loaded when it is called for the first time, and unloaded when its thread ends. Each
call takes host memory for the handle of its arguments and for the arguments. Any call of the
runtime may fail.
-/
namespace Msopcom.DFXKernelLauncher
open Custody

/-- A binary that is loaded, or host memory, with the number of the call that gave it. -/
inductive Resource
  | binary (number : ℕ)
  | hostMem (number : ℕ)
  deriving DecidableEq, Repr

/-- The handle of a function can be used as long as its binary is loaded. -/
structure FuncHandle where
  binary : ℕ
  kernelName : String
  deriving DecidableEq, Repr

/-- Which calls of the runtime succeed. -/
structure Answers where
  binaryLoadFromFile : Bool := true
  binaryGetFunction : Bool := true
  getHandleMemSize : Bool := true
  mallocArgsHandle : Bool := true
  getMemSize : Bool := true
  mallocUserHostMem : Bool := true
  initByUserMem : Bool := true
  launch : Bool := true
  synchronize : Bool := true
  deriving DecidableEq, Repr

/-- Those that a call makes after the kernel is loaded. -/
def Answers.launched (a : Answers) : Prop :=
  a.getHandleMemSize ∧ a.mallocArgsHandle ∧ a.getMemSize ∧ a.mallocUserHostMem ∧
    a.initByUserMem ∧ a.launch ∧ a.synchronize

structure Launcher where
  kernelSet : List String := []
  binHandleMap : List (String × ℕ) := []
  funcHandleMap : List (String × FuncHandle) := []
  /-- What is given next has this number. -/
  number : ℕ := 0
  accesses : List (Access Resource) := []

def Launcher.access (s : Launcher) (a : List (Access Resource)) : Launcher :=
  { s with accesses := s.accesses ++ a }

/-- `Init` -/
def init (kernelName kernelPath : String) (a : Answers) (s : Launcher) : Launcher :=
  if kernelName ∈ s.kernelSet then s
  else if kernelPath = "" then s
  else if a.binaryLoadFromFile = false then s
  else
    let binHandle := s.number
    let loaded := { s.access [.acquire (.binary binHandle), .use (.binary binHandle)] with
      number := s.number + 1 }
    if a.binaryGetFunction = false then loaded.access [.release (.binary binHandle)]
    else
      { loaded with
        funcHandleMap := (kernelName, ⟨binHandle, kernelName⟩) :: s.funcHandleMap
        kernelSet := kernelName :: s.kernelSet
        binHandleMap := (kernelName, binHandle) :: s.binHandleMap }

/-- The arguments are appended and finalized whether or not this succeeds. -/
def launchKernel (func : FuncHandle) (argsHandle userHostMem : Resource) (a : Answers) :
    Bool × List (Access Resource) :=
  let binary := Resource.binary func.binary
  let prepared : List (Access Resource) := [.use binary, .use argsHandle, .use userHostMem]
  if a.initByUserMem = false then (false, prepared)
  else
    let launched := prepared ++ [.use argsHandle, .use argsHandle, .use binary, .use argsHandle]
    (a.launch && a.synchronize, launched)

/-- Host memory is freed when the call returns, the last first. -/
def withUserHostMem (func : FuncHandle) (argsHandle : Resource) (number : ℕ) (a : Answers) :
    Bool × List (Access Resource) :=
  if a.getMemSize = false then (false, [.use (.binary func.binary)])
  else if a.mallocUserHostMem = false then (false, [.use (.binary func.binary)])
  else
    let userHostMem := Resource.hostMem number
    let launched := launchKernel func argsHandle userHostMem a
    (launched.1, .use (.binary func.binary) :: .acquire userHostMem ::
      (launched.2 ++ [.release userHostMem]))

def withArgsHandle (func : FuncHandle) (number : ℕ) (a : Answers) :
    Bool × List (Access Resource) :=
  if a.getHandleMemSize = false then (false, [.use (.binary func.binary)])
  else if a.mallocArgsHandle = false then (false, [.use (.binary func.binary)])
  else
    let argsHandle := Resource.hostMem number
    let launched := withUserHostMem func argsHandle (number + 1) a
    (launched.1, .use (.binary func.binary) :: .acquire argsHandle ::
      (launched.2 ++ [.release argsHandle]))

def callKernel (kernelName kernelPath : String) (a : Answers) (s : Launcher) : Bool × Launcher :=
  let s := init kernelName kernelPath a s
  if kernelName ∉ s.kernelSet then (false, s)
  else
    match s.funcHandleMap.lookup kernelName with
    | none => (false, s) -- not reached: each kernel of the set has a handle
    | some func =>
      let called := withArgsHandle func s.number a
      (called.1, { s.access called.2 with number := s.number + 2 })

/-- Where the kernels are, which is found out once. -/
structure Paths where
  l2CachePath : String
  emptyPath : String

inductive Call
  | clearL2Cache
  | emptyKernel
  deriving DecidableEq, Repr

def Call.kernelName : Call → String
  | .clearL2Cache => "ClearL2Cache"
  | .emptyKernel => "EmptyKernel"

def Call.kernelPath (p : Paths) : Call → String
  | .clearL2Cache => p.l2CachePath
  | .emptyKernel => p.emptyPath

/-- `CallClearL2Cache` and `CallEmptyKernel` -/
def call (p : Paths) (c : Call) (a : Answers) (s : Launcher) : Bool × Launcher :=
  callKernel c.kernelName (c.kernelPath p) a s

/-- What a thread calls, one call after the other. -/
def run (p : Paths) (calls : List (Call × Answers)) : Launcher :=
  calls.foldl (fun s c => (call p c.1 c.2 s).2) {}

/-- `~DFXKernelLauncher`, in some order. -/
def destroy (s : Launcher) : List (Access Resource) :=
  s.accesses ++ s.binHandleMap.map fun p => .release (.binary p.2)

/-! ## Host memory is held while it is used -/

section HostMem
variable {held : Finset Resource} {func : FuncHandle} {argsHandle userHostMem : Resource}
  {number : ℕ}

theorem replay_launchKernel (hbinary : .binary func.binary ∈ held) (hargs : argsHandle ∈ held)
    (huser : userHostMem ∈ held) (a : Answers) :
    replay held (launchKernel func argsHandle userHostMem a).2 = some held := by
  have hall : ∀ l : List Resource, l ⊆ [.binary func.binary, argsHandle, userHostMem] →
      replay held (l.map .use) = some held := by
    intro l hl
    apply replay_use
    intro r hr
    rcases List.mem_cons.mp (hl hr) with rfl | hr
    · exact hbinary
    · rcases List.mem_cons.mp hr with rfl | hr
      · exact hargs
      · exact List.mem_singleton.mp hr ▸ huser
  unfold launchKernel
  dsimp only
  split_ifs
  · exact hall [.binary func.binary, argsHandle, userHostMem] (List.Subset.refl _)
  · exact hall [.binary func.binary, argsHandle, userHostMem, argsHandle, argsHandle,
      .binary func.binary, argsHandle] (by simp)

theorem replay_withUserHostMem (hbinary : .binary func.binary ∈ held) (hargs : argsHandle ∈ held)
    (hnew : .hostMem number ∉ held) (a : Answers) :
    replay held (withUserHostMem func argsHandle number a).2 = some held := by
  have huse : replay held [.use (.binary func.binary)] = some held := by
    rw [replay_singleton, step_use hbinary]
  unfold withUserHostMem
  dsimp only
  split_ifs
  · exact huse
  · exact huse
  · rw [← List.singleton_append, replay_append_of huse]
    apply replay_bracket hnew
    exact replay_launchKernel (Finset.mem_insert_of_mem hbinary) (Finset.mem_insert_of_mem hargs)
      (Finset.mem_insert_self _ _) a

theorem replay_withArgsHandle (hbinary : .binary func.binary ∈ held)
    (hnew : ∀ k, .hostMem k ∉ held) (a : Answers) :
    replay held (withArgsHandle func number a).2 = some held := by
  have huse : replay held [.use (.binary func.binary)] = some held := by
    rw [replay_singleton, step_use hbinary]
  unfold withArgsHandle
  dsimp only
  split_ifs
  · exact huse
  · exact huse
  · rw [← List.singleton_append, replay_append_of huse]
    apply replay_bracket (hnew number)
    apply replay_withUserHostMem (Finset.mem_insert_of_mem hbinary) (Finset.mem_insert_self _ _)
    simpa using hnew (number + 1)

end HostMem

/-! ## Kernels are loaded once -/

/-- The binaries of the kernels that are loaded. -/
def Launcher.binaries (s : Launcher) : List Resource := s.binHandleMap.map fun p => .binary p.2

structure Inv (s : Launcher) : Prop where
  held : replay ∅ s.accesses = some s.binaries.toFinset
  names : s.binHandleMap.map Prod.fst = s.kernelSet
  handles : s.funcHandleMap = s.binHandleMap.map fun p => (p.1, ⟨p.2, p.1⟩)
  nodup : s.kernelSet.Nodup
  binaries : s.binaries.Nodup
  lt : ∀ p ∈ s.binHandleMap, p.2 < s.number

section Inv
variable {s : Launcher} {kernelName kernelPath : String} {a : Answers}

theorem hostMem_notMem (s : Launcher) (k : ℕ) : .hostMem k ∉ s.binaries.toFinset := by
  simp [Launcher.binaries]

theorem number_notMem (h : Inv s) : .binary s.number ∉ s.binaries := by
  intro hmem
  obtain ⟨p, hp, heq⟩ := List.mem_map.mp hmem
  exact Nat.lt_irrefl _ (Resource.binary.inj heq ▸ h.lt p hp)

/-- What happens to a kernel that is called: nothing, or it is loaded and unloaded again, or it is
loaded for good. -/
theorem init_cases (kernelName kernelPath : String) (a : Answers) (s : Launcher) :
    init kernelName kernelPath a s = s ∧
        (kernelName ∈ s.kernelSet ∨ kernelPath = "" ∨ a.binaryLoadFromFile = false) ∨
      kernelName ∉ s.kernelSet ∧ a.binaryGetFunction = false ∧
        init kernelName kernelPath a s =
          { s with
            number := s.number + 1
            accesses := s.accesses ++ [.acquire (.binary s.number), .use (.binary s.number),
              .release (.binary s.number)] } ∨
      kernelName ∉ s.kernelSet ∧ kernelPath ≠ "" ∧ a.binaryLoadFromFile = true ∧
        a.binaryGetFunction = true ∧
        init kernelName kernelPath a s =
          { kernelSet := kernelName :: s.kernelSet
            binHandleMap := (kernelName, s.number) :: s.binHandleMap
            funcHandleMap := (kernelName, ⟨s.number, kernelName⟩) :: s.funcHandleMap
            number := s.number + 1
            accesses := s.accesses ++ [.acquire (.binary s.number), .use (.binary s.number)] } := by
  unfold init
  split_ifs with hset hpath hload hget
  · exact .inl ⟨rfl, .inl hset⟩
  · exact .inl ⟨rfl, .inr (.inl hpath)⟩
  · exact .inl ⟨rfl, .inr (.inr hload)⟩
  · exact .inr (.inl ⟨hset, hget, by simp [Launcher.access]⟩)
  · exact .inr (.inr ⟨hset, hpath, by simpa using hload, by simpa using hget, rfl⟩)

theorem inv_init (h : Inv s) : Inv (init kernelName kernelPath a s) := by
  have hnew : .binary s.number ∉ s.binaries.toFinset := by simpa using number_notMem h
  have huse : replay (insert (.binary s.number) s.binaries.toFinset)
      [.use (.binary s.number)] = some (insert (.binary s.number) s.binaries.toFinset) := by
    rw [replay_singleton, step_use (Finset.mem_insert_self _ _)]
  rcases init_cases kernelName kernelPath a s with ⟨heq, _⟩ | ⟨_, _, heq⟩ | ⟨hset, _, _, _, heq⟩
  · rw [heq]
    exact h
  · rw [heq]
    refine ⟨?_, h.names, h.handles, h.nodup, h.binaries, fun p hp => Nat.lt_succ_of_lt (h.lt p hp)⟩
    rw [replay_append_of h.held]
    exact replay_bracket hnew huse
  · rw [heq]
    refine ⟨?_, ?_, ?_, List.nodup_cons.mpr ⟨hset, h.nodup⟩,
      List.nodup_cons.mpr ⟨number_notMem h, h.binaries⟩, ?_⟩
    · have hloaded : replay s.binaries.toFinset
          [.acquire (.binary s.number), .use (.binary s.number)] =
          some (insert (.binary s.number) s.binaries.toFinset) := by
        rw [← List.singleton_append, replay_append, replay_singleton, step_acquire hnew,
          Option.bind_some, huse]
      rw [replay_append_of h.held, hloaded]
      simp [Launcher.binaries]
    · simp [h.names]
    · simp [h.handles]
    · intro p hp
      rcases List.mem_cons.mp hp with rfl | hp
      · exact Nat.lt_succ_self _
      · exact Nat.lt_succ_of_lt (h.lt p hp)

/-- A kernel of the set has the handle of its own binary. -/
theorem lookup_funcHandleMap (h : Inv s) (hname : kernelName ∈ s.kernelSet) :
    ∃ func, s.funcHandleMap.lookup kernelName = some func ∧ .binary func.binary ∈ s.binaries := by
  rw [← h.names] at hname
  rw [h.handles]
  unfold Launcher.binaries
  generalize s.binHandleMap = l at hname
  induction l with
  | nil => simp at hname
  | cons p l ih =>
    rw [List.map_cons, List.lookup_cons]
    by_cases heq : kernelName = p.1
    · exact ⟨⟨p.2, p.1⟩, by simp [heq], by simp⟩
    · have hne : (kernelName == p.1) = false := by simpa using heq
      rw [List.map_cons, List.mem_cons] at hname
      obtain ⟨func, hlookup, hmem⟩ := ih (hname.resolve_left heq)
      rw [hne]
      exact ⟨func, hlookup, List.mem_cons_of_mem _ hmem⟩

theorem inv_callKernel (h : Inv s) : Inv (callKernel kernelName kernelPath a s).2 := by
  have hinit : Inv (init kernelName kernelPath a s) := inv_init h
  unfold callKernel
  dsimp only
  split_ifs with hname
  · obtain ⟨func, hlookup, hmem⟩ := lookup_funcHandleMap hinit hname
    rw [hlookup]
    refine ⟨?_, hinit.names, hinit.handles, hinit.nodup, hinit.binaries, fun p hp =>
      Nat.lt_of_lt_of_le (hinit.lt p hp) (Nat.le_add_right _ 2)⟩
    change replay ∅ (_ ++ _) = _
    rw [replay_append_of hinit.held]
    exact replay_withArgsHandle (List.mem_toFinset.mpr hmem) (hostMem_notMem _) a
  · exact hinit

theorem inv_run (p : Paths) (calls : List (Call × Answers)) : Inv (run p calls) := by
  have hstart : Inv {} := ⟨rfl, rfl, rfl, List.nodup_nil, List.nodup_nil, fun p hp => by simp at hp⟩
  unfold run
  generalize ({} : Launcher) = s at hstart
  induction calls generalizing s with
  | nil => exact hstart
  | cons c calls ih => exact ih _ (inv_callKernel hstart)

theorem withArgsHandle_succeeds_iff (func : FuncHandle) (number : ℕ) (a : Answers) :
    (withArgsHandle func number a).1 = true ↔ a.launched := by
  unfold withArgsHandle withUserHostMem launchKernel Answers.launched
  dsimp only
  split_ifs <;> simp_all

theorem mem_kernelSet_init (kernelName kernelPath : String) (a : Answers) (s : Launcher) :
    kernelName ∈ (init kernelName kernelPath a s).kernelSet ↔
      kernelName ∈ s.kernelSet ∨
        kernelPath ≠ "" ∧ a.binaryLoadFromFile ∧ a.binaryGetFunction := by
  unfold init
  split_ifs <;> simp_all [Launcher.access]

theorem callKernel_succeeds_iff (h : Inv s) :
    (callKernel kernelName kernelPath a s).1 = true ↔
      (kernelName ∈ s.kernelSet ∨
        kernelPath ≠ "" ∧ a.binaryLoadFromFile ∧ a.binaryGetFunction) ∧ a.launched := by
  rw [← mem_kernelSet_init]
  unfold callKernel
  dsimp only
  split_ifs with hname
  · obtain ⟨func, hlookup, _⟩ := lookup_funcHandleMap (inv_init h) hname
    rw [hlookup]
    simp [hname, withArgsHandle_succeeds_iff]
  · simp [hname]

end Inv

-- the size of the arguments is not given
example : destroy (run ⟨"/l2.o", "/empty.o"⟩ [(.emptyKernel, { getMemSize := false })]) =
    [.acquire (.binary 0), .use (.binary 0), .use (.binary 0), .acquire (.hostMem 1),
      .use (.binary 0), .release (.hostMem 1), .release (.binary 0)] := by
  decide

end Msopcom.DFXKernelLauncher
