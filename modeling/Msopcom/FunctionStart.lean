import Msopcom.KernelNameLookup

set_option autoImplicit false

/-!
# The start of a program from a function handle

The address of a function is that of its AIC entry, if it has one. The offset that is subtracted is
that of the first symbol of the binary that goes with the name of the function.
-/
namespace Msopcom.FunctionStart
open ProgramStart (Name mixAicTail mixAivTail uint64Max endsWithKey)

/-! ## The contexts of a function -/

abbrev Symbol := Name × UInt64

/-- The kernel symbols of the binary, in the order of its symbol table. -/
structure RegisterContext where
  symbols : List Symbol
  deriving DecidableEq, Repr

namespace RegisterContext

def fits (kernelName : Name) (symbol : Symbol) : Bool :=
  kernelName = symbol.1 || kernelName ++ mixAicTail = symbol.1 ||
    kernelName ++ mixAivTail = symbol.1

/-- An offset that is the largest number is taken for none, and none for 0. -/
def getKernelOffsetByName (regCtx : RegisterContext) (kernelName : Name) : UInt64 :=
  let kernelOffset := ((regCtx.symbols.find? (fits kernelName)).map Prod.snd).getD uint64Max
  if kernelOffset = uint64Max then 0 else kernelOffset

def getKernelName (regCtx : RegisterContext) (tilingKey : UInt64) : Name :=
  ((regCtx.symbols.map Prod.fst).find? (endsWithKey tilingKey)).getD []

end RegisterContext

/-- A function that was got by its name, or by its tiling key. -/
inductive FuncContext
  | stub (regCtx : RegisterContext) (kernelName : Name) (funcHandle : UInt64)
  | tiling (regCtx : RegisterContext) (funcEntry funcHandle : UInt64)
  deriving DecidableEq, Repr

namespace FuncContext

def regCtx : FuncContext → RegisterContext
  | stub regCtx _ _ => regCtx
  | tiling regCtx _ _ => regCtx

def funcHandle : FuncContext → UInt64
  | stub _ _ funcHandle => funcHandle
  | tiling _ _ funcHandle => funcHandle

def kernelName : FuncContext → Name
  | stub _ kernelName _ => kernelName
  | tiling regCtx funcEntry _ => regCtx.getKernelName funcEntry

/-- `addrs` are the two addresses that the runtime gives for the handle, `none` if it fails. -/
def getKernelPC (f : FuncContext) (addrs : Option (UInt64 × UInt64)) : UInt64 :=
  if f.funcHandle = 0 then 0
  else
    match addrs with
    | none => 0
    | some (aicAddr, aivAddr) =>
      if aicAddr ≠ 0 then aicAddr else if aivAddr ≠ 0 then aivAddr else 0

def getStartPC (f : FuncContext) (addrs : Option (UInt64 × UInt64)) : UInt64 :=
  if f.funcHandle = 0 then 0
  else
    let pcStartAddr := f.getKernelPC addrs
    if pcStartAddr = 0 then pcStartAddr
    else
      let kernelOffset := f.regCtx.getKernelOffsetByName f.kernelName
      if pcStartAddr < kernelOffset then 0 else pcStartAddr - kernelOffset

end FuncContext

/-! ## Kernels in memory -/

/-- A kernel with the symbols of its entries. One that is compiled for both cores has a symbol with
a suffix for each of them. -/
structure Kernel where
  name : Name
  aic : Option Symbol
  aiv : Option Symbol
  aic_name : ∀ symbol ∈ aic, symbol.1 = name ∨ symbol.1 = name ++ mixAicTail
  aiv_name : ∀ symbol ∈ aiv, symbol.1 = name ∨ symbol.1 = name ++ mixAivTail

namespace Kernel

def entryAddr (base : UInt64) : Option Symbol → UInt64
  | none => 0
  | some symbol => base + symbol.2

/-- What the runtime gives for a handle of the kernel when the program has been loaded at `base`. -/
def functionAddr (k : Kernel) (base : UInt64) : UInt64 × UInt64 :=
  (entryAddr base k.aic, entryAddr base k.aiv)

/-- The entry whose address is taken. -/
def queried (k : Kernel) (base : UInt64) : Option Symbol :=
  if entryAddr base k.aic ≠ 0 then k.aic
  else if entryAddr base k.aiv ≠ 0 then k.aiv
  else none

end Kernel

/-- A start that is given is the base of the program, and the offset that was subtracted for it is
that of the entry whose address was taken. -/
structure Right (f : FuncContext) (addrs : Option (UInt64 × UInt64)) (k : Kernel) (base : UInt64) :
    Prop where
  start : f.getStartPC addrs ≠ 0 → f.getStartPC addrs = base
  offset : f.getStartPC addrs ≠ 0 → ∀ entry ∈ k.queried base,
    f.regCtx.getKernelOffsetByName f.kernelName = entry.2

/-- The first symbol that goes with the name has the offset of the entry, or an offset that is not
below the address. No symbol, and one that is taken for none, is right for the offset 0. -/
def FirstFits (regCtx : RegisterContext) (kernelName : Name) (base : UInt64) (entry : Symbol) :
    Prop :=
  match regCtx.symbols.find? (RegisterContext.fits kernelName) with
  | none => entry.2 = 0
  | some symbol =>
    if symbol.2 = uint64Max then entry.2 = 0
    else symbol.2 = entry.2 ∨ base + entry.2 ≤ symbol.2

/-! ## The address and the offset -/

section
variable {f : FuncContext} {k : Kernel} {base : UInt64}

theorem getKernelPC_some (hhandle : f.funcHandle ≠ 0) (aicAddr aivAddr : UInt64) :
    f.getKernelPC (some (aicAddr, aivAddr)) =
      if aicAddr ≠ 0 then aicAddr else if aivAddr ≠ 0 then aivAddr else 0 := by
  rw [FuncContext.getKernelPC, if_neg hhandle]

theorem getKernelPC_functionAddr (hhandle : f.funcHandle ≠ 0) :
    f.getKernelPC (some (k.functionAddr base)) = Kernel.entryAddr base (k.queried base) := by
  have hpc := getKernelPC_some hhandle (Kernel.entryAddr base k.aic) (Kernel.entryAddr base k.aiv)
  refine hpc.trans ?_
  unfold Kernel.queried
  split
  · rfl
  · split <;> rfl

theorem addr_ne_zero {entry : Symbol} (h : k.queried base = some entry) : base + entry.2 ≠ 0 := by
  unfold Kernel.queried at h
  split at h
  case isTrue haic => simpa [h, Kernel.entryAddr] using haic
  case isFalse =>
    split at h
    case isTrue haiv => simpa [h, Kernel.entryAddr] using haiv
    case isFalse => cases h

/-- An address less an offset is the base exactly for the offset of the entry. -/
theorem sub_eq_base_iff {entry offset : UInt64} :
    base + entry - offset = base ↔ offset = entry := by
  rw [UInt64.sub_eq_iff_eq_add, UInt64.add_right_inj]
  exact eq_comm

/-- Without an address there is no start, and nothing can be wrong. -/
theorem right_of_getKernelPC {addrs : Option (UInt64 × UInt64)} (h : f.getKernelPC addrs = 0) :
    Right f addrs k base := by
  have hzero : f.getStartPC addrs = 0 := by simp [FuncContext.getStartPC, h]
  exact ⟨fun hstart => absurd hzero hstart, fun hstart => absurd hzero hstart⟩

/-- An entry with an address is right for its own offset, and where the start comes out as 0. -/
theorem right_iff_offset (hhandle : f.funcHandle ≠ 0) {entry : Symbol}
    (hentry : k.queried base = some entry) :
    Right f (some (k.functionAddr base)) k base ↔
      f.regCtx.getKernelOffsetByName f.kernelName = entry.2 ∨
        base + entry.2 ≤ f.regCtx.getKernelOffsetByName f.kernelName := by
  have hpc : f.getKernelPC (some (k.functionAddr base)) = base + entry.2 := by
    rw [getKernelPC_functionAddr hhandle, hentry, Kernel.entryAddr]
  obtain ⟨offset, hoffset⟩ : ∃ offset, f.regCtx.getKernelOffsetByName f.kernelName = offset :=
    ⟨_, rfl⟩
  have hstart : f.getStartPC (some (k.functionAddr base)) =
      if base + entry.2 < offset then 0 else base + entry.2 - offset := by
    simp [FuncContext.getStartPC, hhandle, hpc, addr_ne_zero hentry, hoffset]
  rw [hoffset]
  by_cases hle : base + entry.2 ≤ offset
  · have hzero : f.getStartPC (some (k.functionAddr base)) = 0 := by
      rw [hstart]
      split
      · rfl
      · have heq : base + entry.2 = offset := UInt64.le_antisymm hle (UInt64.not_lt.mp ‹_›)
        rw [heq, UInt64.sub_self]
    exact iff_of_true ⟨fun h => absurd hzero h, fun h => absurd hzero h⟩ (.inr hle)
  · rw [if_neg fun hlt => hle (UInt64.le_of_lt hlt)] at hstart
    have hne : f.getStartPC (some (k.functionAddr base)) ≠ 0 := by
      rw [hstart, Ne, UInt64.sub_eq_iff_eq_add, UInt64.zero_add]
      exact fun heq => hle (UInt64.le_of_eq heq)
    constructor
    · intro h
      exact .inl (hoffset.symm.trans (h.offset hne entry hentry))
    · rintro (rfl | h)
      · refine ⟨fun _ => hstart.trans (sub_eq_base_iff.mpr rfl), fun _ entry' hentry' => ?_⟩
        rw [hentry] at hentry'
        cases hentry'
        exact hoffset
      · exact absurd h hle

/-- What the first symbol that goes with the name means for the offset. -/
theorem firstFits_iff {regCtx : RegisterContext} {kernelName : Name} {entry : Symbol}
    (haddr : base + entry.2 ≠ 0) : FirstFits regCtx kernelName base entry ↔
      regCtx.getKernelOffsetByName kernelName = entry.2 ∨
        base + entry.2 ≤ regCtx.getKernelOffsetByName kernelName := by
  have hzero : ¬ base + entry.2 ≤ 0 := fun h => haddr (UInt64.le_zero_iff.mp h)
  unfold FirstFits RegisterContext.getKernelOffsetByName
  cases hfirst : regCtx.symbols.find? (RegisterContext.fits kernelName) with
  | none => simp [hzero, eq_comm]
  | some symbol => by_cases hmax : symbol.2 = uint64Max <;> simp [hmax, hzero, eq_comm]

/-- The start of a program is right exactly if there is no address, or the first symbol that goes
with the name fits the entry whose address is taken. -/
theorem startPC_right_iff (f : FuncContext) (k : Kernel) (base : UInt64) (succeeds : Bool) :
    Right f (if succeeds then some (k.functionAddr base) else none) k base ↔
      (f.funcHandle ≠ 0 → succeeds = true → ∀ entry ∈ k.queried base,
        FirstFits f.regCtx f.kernelName base entry) := by
  by_cases hhandle : f.funcHandle = 0
  · refine iff_of_true (right_of_getKernelPC ?_) (fun hne => absurd hhandle hne)
    simp [FuncContext.getKernelPC, hhandle]
  · cases succeeds with
    | false =>
      refine iff_of_true (right_of_getKernelPC ?_) (fun _ hfalse => nomatch hfalse)
      simp [FuncContext.getKernelPC]
    | true =>
      cases hentry : k.queried base with
      | none =>
        refine iff_of_true (right_of_getKernelPC ?_) (fun _ _ _ hmem => nomatch hmem)
        rw [if_pos rfl, getKernelPC_functionAddr hhandle, hentry, Kernel.entryAddr]
      | some entry =>
        rw [if_pos rfl, right_iff_offset hhandle hentry, ← firstFits_iff (addr_ne_zero hentry)]
        simp [hhandle]

/-- A symbol that is the first to go with the name is right when it is the entry itself. -/
theorem right_of_first {entry : Symbol} {front rest : List Symbol}
    (hentry : k.queried base = some entry)
    (hsymbols : f.regCtx.symbols = front ++ entry :: rest)
    (hfits : RegisterContext.fits f.kernelName entry = true)
    (hfront : ∀ symbol ∈ front, RegisterContext.fits f.kernelName symbol = false)
    (hoffset : entry.2 ≠ uint64Max) :
    Right f (some (k.functionAddr base)) k base := by
  by_cases hhandle : f.funcHandle = 0
  · exact right_of_getKernelPC (by simp [FuncContext.getKernelPC, hhandle])
  · rw [right_iff_offset hhandle hentry, ← firstFits_iff (addr_ne_zero hentry)]
    have hfind : f.regCtx.symbols.find? (RegisterContext.fits f.kernelName) = some entry := by
      rw [hsymbols, List.find?_eq_some_iff_append]
      exact ⟨hfits, front, rest, rfl, by simpa using hfront⟩
    simp [FirstFits, hfind, hoffset]

end

/-- `k_1` for both cores, with the AIV entry first in the binary. -/
def aivFirst : RegisterContext where
  symbols := [([107, 95, 49] ++ mixAivTail, 0), ([107, 95, 49] ++ mixAicTail, 0x100)]

def mixKernel : Kernel where
  name := [107, 95, 49]
  aic := some ([107, 95, 49] ++ mixAicTail, 0x100)
  aiv := some ([107, 95, 49] ++ mixAivTail, 0)
  aic_name := by simp
  aiv_name := by simp

/-- The offset of the AIV entry is subtracted from the address of the AIC entry. -/
theorem not_right_aivFirst :
    ¬ Right (.stub aivFirst [107, 95, 49] 1) (some (mixKernel.functionAddr 0x1000)) mixKernel
        0x1000 ∧
      ¬ Right (.tiling aivFirst 1 1) (some (mixKernel.functionAddr 0x1000)) mixKernel 0x1000 := by
  constructor
  · intro h
    exact absurd (h.start (by decide +kernel)) (by decide +kernel)
  · intro h
    exact absurd (h.start (by decide +kernel)) (by decide +kernel)

end Msopcom.FunctionStart
