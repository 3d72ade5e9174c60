import Mathlib.Logic.Function.Basic
import Msopcom.FunctionStart
import Msopcom.IPCMemManager
import Msopcom.Runs
import Msopcom.SymbolTable

set_option autoImplicit false

/-!
# The binaries and the functions that the tool knows

The hooks note each binary that is loaded under its handle, and each function under its own. The
runtime gives the handle of what is unloaded again. A binary whose symbols cannot be read is not
noted.
-/
namespace Msopcom.KernelRegistry
open ProgramStart (Name)
open IPCMemManager (validName)
open FunctionStart (Symbol)

/-! ## Binaries -/

inductive BinaryLoadOptionType
  | lazyLoad
  | magic
  | cpuKernelMode
  | none
  deriving DecidableEq, Repr

structure BinaryLoadOption where
  type : BinaryLoadOptionType
  value : UInt32
  deriving DecidableEq, Repr

structure RegisterParam where
  regId : ℕ
  magic : UInt32
  options : List BinaryLoadOption
  optionsIsNull : Bool
  deriving DecidableEq, Repr

structure RegisterContext extends FunctionStart.RegisterContext where
  elfData : List UInt8
  hdl : UInt64
  param : RegisterParam
  type : BinaryLoadOptionType := .none
  binPath : Option Name := none
  deriving DecidableEq, Repr

/-- The programs that print the symbol table and pick lines from it. -/
structure Pipe where
  llvmObjdump : Name → Option Name
  grep : Name → Option Name

/-- An empty vector has no data. -/
def Pipe.symbols (pipe : Pipe) (data : List UInt8) : Option (List Symbol) :=
  (SymbolTable.getSymInfoFromBinary pipe.llvmObjdump pipe.grep
    (if data = [] then none else some data) {}).map fun info =>
      info.kernelNames.zip info.kernelOffsets

/-- `Init` -/
def RegisterContext.init (pipe : Pipe) (elfData : List UInt8) (binHandle : UInt64)
    (param : RegisterParam) : Option RegisterContext :=
  (pipe.symbols elfData).map fun symbols => { symbols, elfData, hdl := binHandle, param }

/-- `Init` with the path of a file. `content` is what is read of it. -/
def RegisterContext.initFromFile (pipe : Pipe) (binPath : Name) (content : Option (List UInt8))
    (binHandle : UInt64) (param : RegisterParam) : Option RegisterContext :=
  match content with
  | none => none
  | some elfData => (RegisterContext.init pipe elfData binHandle param).map fun ctx =>
    { ctx with
      type := (param.options.head?.map BinaryLoadOption.type).getD .none
      binPath := some binPath }

structure RegisterManager where
  contexts : AList fun _ : UInt64 => RegisterContext := ∅
  tempElfData : AList fun _ : UInt64 => List UInt8 := ∅
  currentRegId : ℕ := 0

namespace RegisterManager

def maxMemByteSize : ℕ := 32212254720

def cacheElfData (bin : UInt64) (data : List UInt8) (s : RegisterManager) : RegisterManager :=
  if maxMemByteSize < data.length then s
  else { s with tempElfData := s.tempElfData.insert bin data }

def param (magic : UInt32) (options : Option (List BinaryLoadOption)) (s : RegisterManager) :
    RegisterParam where
  regId := s.currentRegId
  magic := magic
  options := options.getD []
  optionsIsNull := options.isNone

/-- A context is kept if it could be initialised, which takes the next id. -/
def keep (ctx : Option RegisterContext) (binHandle : UInt64) (s : RegisterManager) :
    RegisterManager :=
  match ctx with
  | none => s
  | some ctx =>
    { s with
      currentRegId := s.currentRegId + 1
      contexts := s.contexts.insert binHandle ctx }

end RegisterManager

def magicElf : UInt32 := 0x43554245
def magicElfAivec : UInt32 := 0x41415246
def magicElfAicube : UInt32 := 0x41494343
def magicElfAicpu : UInt32 := 0x41415243

def parseMagicStr (magicStr : String) : Option UInt32 :=
  if magicStr = "RT_DEV_BINARY_MAGIC_ELF_AIVEC" then some magicElfAivec
  else if magicStr = "RT_DEV_BINARY_MAGIC_ELF_AICUBE" then some magicElfAicube
  else if magicStr = "RT_DEV_BINARY_MAGIC_ELF" then some magicElf
  else if magicStr = "RT_DEV_BINARY_MAGIC_ELF_AICPU" then some magicElfAicpu
  else none

/-- A kernel of the AICPU is told by one option, whatever the others say. -/
def magicOfOptions (magic : UInt32) : List BinaryLoadOption → UInt32
  | [] => magic
  | option :: options =>
    match option.type with
    | .cpuKernelMode => magicElfAicpu
    | .magic => magicOfOptions option.value options
    | .lazyLoad | .none => magicOfOptions magic options

/-- The path from its last dot on. -/
def suffix (path : Name) : Name :=
  if 46 ∈ path then 46 :: (path.reverse.takeWhile fun c => c ≠ 46).reverse else []

/-- Where a binary is loaded from: what `aclrtCreateBinary` gave, data, or a file with its JSON
file. -/
inductive Source
  | binary (bin : UInt64)
  | data (elfData : List UInt8) (options : Option (List BinaryLoadOption))
  | file (binPath : Name) (content : List UInt8) (readable : Bool) (magicStr : Option String)
      (options : Option (List BinaryLoadOption))

def Source.magic : Source → UInt32
  | .binary _ => magicElf
  | .data _ options => magicOfOptions magicElf (options.getD [])
  | .file binPath _ _ magicStr _ =>
    if suffix binPath = [46, 111] then (magicStr.bind parseMagicStr).getD magicElf -- `.o`
    else magicElf

def Source.options : Source → Option (List BinaryLoadOption)
  | .binary _ => none
  | .data _ options => options
  | .file _ _ _ _ options => options

/-- The hooks of the three functions that load. -/
def loadPost (pipe : Pipe) (binHandle : UInt64) (source : Source) (s : RegisterManager) :
    RegisterManager :=
  let param := s.param source.magic source.options
  match source with
  | .binary bin =>
    let elfData := (s.tempElfData.lookup bin).getD []
    if elfData = [] then s
    else s.keep (RegisterContext.init pipe elfData binHandle param) binHandle
  | .data elfData _ => s.keep (RegisterContext.init pipe elfData binHandle param) binHandle
  | .file binPath content readable _ _ =>
    if suffix binPath = [46, 106, 115, 111, 110] then s -- `.json`
    else
      let content := if readable ∧ content ≠ [] then some content else none
      s.keep (RegisterContext.initFromFile pipe binPath content binHandle param) binHandle

/-! ## Functions -/

inductive KernelFunction
  | kernelName (name : CString)
  | funcEntry (entry : UInt64)
  deriving DecidableEq

structure FuncContext where
  regCtx : RegisterContext
  function : KernelFunction
  funcHandle : UInt64
  deriving DecidableEq

def kernelNameMax : UInt64 := 2048

def FuncContext.kernelName (ctx : FuncContext) : Name :=
  match ctx.function with
  | .kernelName name => validName name kernelNameMax
  | .funcEntry entry => ctx.regCtx.getKernelName entry

def FuncContext.tilingKey (ctx : FuncContext) : Option UInt64 :=
  match ctx.function with
  | .kernelName _ => none
  | .funcEntry entry => some entry

abbrev FuncManager := AList fun _ : UInt64 => FuncContext

structure Tool where
  registers : RegisterManager := {}
  functions : FuncManager := ∅

def Tool.createFuncContext (binHandle : UInt64) (function : KernelFunction) (funcHandle : UInt64)
    (s : Tool) : Tool :=
  match s.registers.contexts.lookup binHandle with
  | none => s
  | some regCtx =>
    { s with functions := s.functions.insert funcHandle ⟨regCtx, function, funcHandle⟩ }

/-! ## What is loaded -/

/-- `symbols` is what the tool reads, if it knows the binary and can read them. -/
structure LoadedBinary where
  number : ℕ
  binHandle : UInt64
  data : List UInt8
  magic : UInt32
  options : Option (List BinaryLoadOption)
  symbols : Option (List Symbol)
  deriving DecidableEq

structure LoadedFunction where
  binary : LoadedBinary
  function : KernelFunction
  deriving DecidableEq

/-- The name that a kernel with these symbols has. -/
def LoadedFunction.kernelName (f : LoadedFunction) (symbols : List Symbol) : Name :=
  match f.function with
  | .kernelName name => validName name kernelNameMax
  | .funcEntry entry => FunctionStart.RegisterContext.getKernelName ⟨symbols⟩ entry

def LoadedFunction.tilingKey (f : LoadedFunction) : Option UInt64 :=
  match f.function with
  | .kernelName _ => none
  | .funcEntry entry => some entry

/-- The runtime, as it is documented. -/
structure World where
  bins : UInt64 → Option (List UInt8) := fun _ => none
  loaded : UInt64 → Option LoadedBinary := fun _ => none
  functions : UInt64 → Option LoadedFunction := fun _ => none
  loads : ℕ := 0

/-- The calls of an application that succeed, each with what it gives. -/
inductive Op
  | createBinary (bin : UInt64) (data : List UInt8)
  | destroyBinary (bin : UInt64)
  | load (pipe : Pipe) (binHandle : UInt64) (source : Source)
  | unload (binHandle : UInt64)
  | getFunction (binHandle : UInt64) (function : KernelFunction) (funcHandle : UInt64)

def Source.loadedData (w : World) : Source → Option (List UInt8)
  | .binary bin => w.bins bin
  | .data elfData _ => some elfData
  | .file _ content _ _ _ => some content

/-- What the tool reads of the binary that is loaded. It does not look at data that is too large or
at files that it cannot read. -/
def Source.symbols (pipe : Pipe) (w : World) : Source → Option (List Symbol)
  | .binary bin => match w.bins bin with
    | none => none
    | some elfData =>
      if RegisterManager.maxMemByteSize < elfData.length then none else pipe.symbols elfData
  | .data elfData _ => pipe.symbols elfData
  | .file binPath content readable _ _ =>
    if suffix binPath = [46, 106, 115, 111, 110] then none
    else if readable then pipe.symbols content else none

namespace World

/-- A handle is given for one thing at a time. -/
def Possible (w : World) : Op → Prop
  | .createBinary bin _ => bin ≠ 0 ∧ w.bins bin = none
  | .destroyBinary bin => w.bins bin ≠ none
  | .load _ binHandle source =>
    binHandle ≠ 0 ∧ w.loaded binHandle = none ∧ source.loadedData w ≠ none
  | .unload binHandle => w.loaded binHandle ≠ none
  | .getFunction binHandle function funcHandle => funcHandle ≠ 0 ∧ w.loaded binHandle ≠ none ∧
    ∀ f ∈ w.functions funcHandle, w.loaded binHandle = some f.binary ∧ f.function = function

instance (w : World) : DecidablePred w.Possible
  | .createBinary bin _ => inferInstanceAs (Decidable (bin ≠ 0 ∧ w.bins bin = none))
  | .destroyBinary bin => inferInstanceAs (Decidable (w.bins bin ≠ none))
  | .load _ binHandle source => inferInstanceAs (Decidable
      (binHandle ≠ 0 ∧ w.loaded binHandle = none ∧ source.loadedData w ≠ none))
  | .unload binHandle => inferInstanceAs (Decidable (w.loaded binHandle ≠ none))
  | .getFunction binHandle function funcHandle => inferInstanceAs (Decidable
      (funcHandle ≠ 0 ∧ w.loaded binHandle ≠ none ∧
        ∀ f ∈ w.functions funcHandle, w.loaded binHandle = some f.binary ∧ f.function = function))

/-- The functions of a binary go with it. -/
def step (w : World) : Op → World
  | .createBinary bin data => { w with bins := Function.update w.bins bin (some data) }
  | .destroyBinary bin => { w with bins := Function.update w.bins bin none }
  | .load pipe binHandle source =>
    let binary : LoadedBinary :=
      { number := w.loads
        binHandle := binHandle
        data := (source.loadedData w).getD []
        magic := source.magic
        options := source.options
        symbols := source.symbols pipe w }
    { w with loaded := Function.update w.loaded binHandle (some binary), loads := w.loads + 1 }
  | .unload binHandle =>
    { w with
      loaded := Function.update w.loaded binHandle none
      functions := fun funcHandle => (w.functions funcHandle).filter fun f =>
        f.binary.binHandle ≠ binHandle }
  | .getFunction binHandle function funcHandle => match w.loaded binHandle with
    | none => w
    | some binary =>
      { w with functions := Function.update w.functions funcHandle (some ⟨binary, function⟩) }

end World

/-- Nothing is done where something is given up. -/
def Tool.step (s : Tool) : Op → Tool
  | .createBinary bin data =>
    if data = [] then s else { s with registers := s.registers.cacheElfData bin data }
  | .destroyBinary _ => s
  | .load pipe binHandle source =>
    { s with registers := loadPost pipe binHandle source s.registers }
  | .unload _ => s
  | .getFunction binHandle function funcHandle =>
    s.createFuncContext binHandle function funcHandle

/-- The runtime and the tool. -/
structure System where
  world : World := {}
  tool : Tool := {}

def System.step (s : System) (op : Op) : System := ⟨s.world.step op, s.tool.step op⟩

def System.Possible (s : System) (op : Op) : Prop := s.world.Possible op

instance : DecidableRel System.Possible :=
  fun s op => inferInstanceAs (Decidable (s.world.Possible op))

/-! ## What a load leaves -/

theorem Pipe.symbols_nil (pipe : Pipe) : pipe.symbols [] = none := rfl

section Load
variable {pipe : Pipe} {binHandle : UInt64} {source : Source} {s : RegisterManager} {w : World}

theorem contexts_keep {ctx : RegisterContext} :
    (s.keep (some ctx) binHandle).contexts = s.contexts.insert binHandle ctx := rfl

@[simp] theorem tempElfData_keep (ctx : Option RegisterContext) :
    (s.keep ctx binHandle).tempElfData = s.tempElfData := by
  cases ctx <;> rfl

/-- The context of a binary says what the binary is. -/
structure RegisterContext.Describes (ctx : RegisterContext) (b : LoadedBinary) : Prop where
  elfData : ctx.elfData = b.data
  hdl : ctx.hdl = b.binHandle
  magic : ctx.param.magic = b.magic
  options : ctx.param.options = b.options.getD []
  optionsIsNull : ctx.param.optionsIsNull = b.options.isNone
  symbols : b.symbols = some ctx.symbols

/-- At most one context is kept, which takes the next id. -/
theorem loadPost_eq_keep (pipe : Pipe) (binHandle : UInt64) (source : Source)
    (s : RegisterManager) : ∃ ctx : Option RegisterContext,
      loadPost pipe binHandle source s = s.keep ctx binHandle ∧
      ∀ c, ctx = some c → c.param = s.param source.magic source.options := by
  have hinit : ∀ (elfData : List UInt8) (param : RegisterParam) (c : RegisterContext),
      RegisterContext.init pipe elfData binHandle param = some c → c.param = param := by
    intro elfData param c hc
    obtain ⟨symbols, _, rfl⟩ := Option.map_eq_some_iff.mp hc
    rfl
  cases source with
  | binary bin =>
    unfold loadPost
    dsimp only
    split_ifs
    · exact ⟨none, rfl, fun c hc => by simp at hc⟩
    · exact ⟨_, rfl, hinit _ _⟩
  | data elfData options => exact ⟨_, rfl, hinit _ _⟩
  | file binPath content readable magicStr options =>
    unfold loadPost
    dsimp only
    split_ifs
    · exact ⟨none, rfl, fun c hc => by simp at hc⟩
    · refine ⟨_, rfl, fun c hc => ?_⟩
      obtain ⟨c', hc', rfl⟩ := Option.map_eq_some_iff.mp hc
      exact hinit _ _ c' hc'
    · exact ⟨none, rfl, fun c hc => by simp at hc⟩

/-- The cached data of what `aclrtCreateBinary` gave. -/
def Cached (w : World) (s : RegisterManager) : Prop :=
  ∀ bin data, w.bins bin = some data → data ≠ [] →
    data.length ≤ RegisterManager.maxMemByteSize → s.tempElfData.lookup bin = some data

/-- A binary whose symbols are read has a context afterwards. -/
theorem loadPost_describes (binHandle : UInt64) (hcached : Cached w s) {symbols : List Symbol}
    (hsymbols : source.symbols pipe w = some symbols) (number : ℕ) : ∃ ctx : RegisterContext,
      loadPost pipe binHandle source s = s.keep (some ctx) binHandle ∧
      ctx.Describes
        { number := number
          binHandle := binHandle
          data := (source.loadedData w).getD []
          magic := source.magic
          options := source.options
          symbols := some symbols } := by
  cases source with
  | binary bin =>
    unfold Source.symbols at hsymbols
    dsimp only at hsymbols
    cases hbin : w.bins bin with
    | none => simp [hbin] at hsymbols
    | some elfData =>
      rw [hbin] at hsymbols
      dsimp only at hsymbols
      split_ifs at hsymbols with hsize
      have hne : elfData ≠ [] := by
        rintro rfl
        simp [Pipe.symbols_nil] at hsymbols
      have hlookup : s.tempElfData.lookup bin = some elfData :=
        hcached bin elfData hbin hne (Nat.le_of_not_lt hsize)
      refine ⟨{ symbols, elfData, hdl := binHandle, param := s.param magicElf none }, ?_,
        ⟨?_, rfl, rfl, rfl, rfl, rfl⟩⟩
      · simp only [loadPost, hlookup, Option.getD_some, if_neg hne, RegisterContext.init, hsymbols,
          Option.map_some]
        rfl
      · simp [Source.loadedData, hbin]
  | data elfData options =>
    have hread : pipe.symbols elfData = some symbols := hsymbols
    refine ⟨{ symbols, elfData, hdl := binHandle, param := s.param _ options }, ?_,
      ⟨rfl, rfl, rfl, rfl, rfl, rfl⟩⟩
    simp only [loadPost, RegisterContext.init, hread, Option.map_some]
    rfl
  | file binPath content readable magicStr options =>
    unfold Source.symbols at hsymbols
    dsimp only at hsymbols
    split_ifs at hsymbols with hjson hreadable
    have hne : content ≠ [] := by
      rintro rfl
      simp [Pipe.symbols_nil] at hsymbols
    refine ⟨{ symbols, elfData := content, hdl := binHandle, param := s.param _ options,
              type := (options.getD []).head?.map BinaryLoadOption.type |>.getD .none,
              binPath := some binPath }, ?_, ⟨rfl, rfl, rfl, rfl, rfl, rfl⟩⟩
    simp only [loadPost, if_neg hjson, if_pos (And.intro hreadable hne),
      RegisterContext.initFromFile, RegisterContext.init, hsymbols, Option.map_some]
    rfl

end Load

/-! ## What holds in every run -/

/-- Handles tell what is loaded apart, and a function has a binary that is loaded. -/
structure World.Inv (w : World) : Prop where
  binHandle : ∀ h b, w.loaded h = some b → b.binHandle = h
  number : ∀ h b, w.loaded h = some b → b.number < w.loads
  distinct : ∀ h h' b b', w.loaded h = some b → w.loaded h' = some b' →
    b.number = b'.number → h = h'
  functions : ∀ fh f, w.functions fh = some f → w.loaded f.binary.binHandle = some f.binary

/-- The context of a function, and that of its binary. -/
structure Tool.Describes (t : Tool) (fh : UInt64) (f : LoadedFunction) (ctx : FuncContext) :
    Prop where
  lookup : t.functions.lookup fh = some ctx
  register : t.registers.contexts.lookup f.binary.binHandle = some ctx.regCtx
  describes : ctx.regCtx.Describes f.binary
  function : ctx.function = f.function
  funcHandle : ctx.funcHandle = fh

/-- What is registered is described, and the ids of the contexts differ. -/
structure Matched (w : World) (t : Tool) : Prop where
  registered : ∀ h b, w.loaded h = some b → b.symbols ≠ none →
    ∃ ctx, t.registers.contexts.lookup h = some ctx ∧ ctx.Describes b
  described : ∀ fh f, w.functions fh = some f → f.binary.symbols ≠ none →
    ∃ ctx, t.Describes fh f ctx
  regId : ∀ h ctx, t.registers.contexts.lookup h = some ctx →
    ctx.param.regId < t.registers.currentRegId
  regIdDistinct : ∀ h h' ctx ctx', t.registers.contexts.lookup h = some ctx →
    t.registers.contexts.lookup h' = some ctx' → ctx.param.regId = ctx'.param.regId → h = h'

structure System.Inv (s : System) : Prop where
  world : s.world.Inv
  cached : Cached s.world s.tool.registers
  matched : Matched s.world s.tool

theorem update_eq_some {β : Type} {f : UInt64 → Option β} {k k' : UInt64} {b b' : β}
    (h : Function.update f k (some b) k' = some b') :
    k' = k ∧ b' = b ∨ k' ≠ k ∧ f k' = some b' := by
  by_cases hk : k' = k
  · subst hk
    rw [Function.update_self, Option.some.injEq] at h
    exact .inl ⟨rfl, h.symm⟩
  · rw [Function.update_of_ne hk] at h
    exact .inr ⟨hk, h⟩

section World
variable {w : World} (h : w.Inv)
include h

theorem World.Inv.load {binary : LoadedBinary} {binHandle : UInt64}
    (hfree : w.loaded binHandle = none) (hhandle : binary.binHandle = binHandle)
    (hnumber : binary.number = w.loads) :
    World.Inv { w with
      loaded := Function.update w.loaded binHandle (some binary), loads := w.loads + 1 } where
  binHandle h' b hb := by
    rcases update_eq_some hb with ⟨rfl, rfl⟩ | ⟨_, hb⟩
    · exact hhandle
    · exact h.binHandle h' b hb
  number h' b hb := by
    rcases update_eq_some hb with ⟨_, rfl⟩ | ⟨_, hb⟩
    · exact hnumber ▸ Nat.lt_succ_self _
    · exact Nat.lt_succ_of_lt (h.number h' b hb)
  distinct h₁ h₂ b₁ b₂ hb₁ hb₂ heq := by
    rcases update_eq_some hb₁ with ⟨rfl, rfl⟩ | ⟨_, hold₁⟩ <;>
      rcases update_eq_some hb₂ with ⟨rfl, rfl⟩ | ⟨_, hold₂⟩
    · rfl
    · have hlt := h.number h₂ b₂ hold₂
      omega
    · have hlt := h.number h₁ b₁ hold₁
      omega
    · exact h.distinct h₁ h₂ b₁ b₂ hold₁ hold₂ heq
  functions fh f hf := by
    have hloaded := h.functions fh f hf
    have hne : f.binary.binHandle ≠ binHandle := by
      intro heq
      rw [heq, hfree] at hloaded
      simp at hloaded
    change Function.update w.loaded binHandle (some binary) f.binary.binHandle = _
    rw [Function.update_of_ne hne]
    exact hloaded

theorem World.Inv.unload (binHandle : UInt64) : World.Inv (w.step (.unload binHandle)) := by
  have hloaded : ∀ h' b, (w.step (.unload binHandle)).loaded h' = some b →
      h' ≠ binHandle ∧ w.loaded h' = some b := by
    intro h' b hb
    change Function.update w.loaded binHandle none h' = some b at hb
    by_cases heq : h' = binHandle
    · simp [heq] at hb
    · rw [Function.update_of_ne heq] at hb
      exact ⟨heq, hb⟩
  refine ⟨fun h' b hb => h.binHandle h' b (hloaded h' b hb).2,
    fun h' b hb => h.number h' b (hloaded h' b hb).2, fun h₁ h₂ b₁ b₂ hb₁ hb₂ =>
      h.distinct h₁ h₂ b₁ b₂ (hloaded h₁ b₁ hb₁).2 (hloaded h₂ b₂ hb₂).2, fun fh f hf => ?_⟩
  obtain ⟨hf, hne⟩ := Option.filter_eq_some_iff.mp hf
  change Function.update w.loaded binHandle none f.binary.binHandle = _
  rw [Function.update_of_ne (by simpa using hne)]
  exact h.functions fh f hf

theorem World.Inv.getFunction {binHandle funcHandle : UInt64} {function : KernelFunction}
    {binary : LoadedBinary} (hbinary : w.loaded binHandle = some binary) :
    World.Inv { w with
      functions := Function.update w.functions funcHandle (some ⟨binary, function⟩) } where
  binHandle := h.binHandle
  number := h.number
  distinct := h.distinct
  functions fh f hf := by
    rcases update_eq_some hf with ⟨_, rfl⟩ | ⟨_, hf⟩
    · change w.loaded binary.binHandle = some binary
      rw [h.binHandle binHandle binary hbinary, hbinary]
    · exact h.functions fh f hf

end World

/-! ## What each call keeps -/

section Matched
variable {w w' : World} {t t' : Tool} (h : Matched w t)
include h

theorem Matched.congr (hloaded : w'.loaded = w.loaded) (hfunctions : w'.functions = w.functions)
    (hcontexts : t'.registers.contexts = t.registers.contexts)
    (hid : t'.registers.currentRegId = t.registers.currentRegId)
    (hcreated : t'.functions = t.functions) : Matched w' t' where
  registered := by
    rw [hloaded, hcontexts]
    exact h.registered
  described := by
    rw [hfunctions]
    intro fh f hf hsymbols
    obtain ⟨ctx, hctx⟩ := h.described fh f hf hsymbols
    exact ⟨ctx, { hctx with
      lookup := hcreated ▸ hctx.lookup, register := hcontexts ▸ hctx.register }⟩
  regId := by
    rw [hcontexts, hid]
    exact h.regId
  regIdDistinct := by
    rw [hcontexts]
    exact h.regIdDistinct

/-- A binary that is not registered changes nothing that the tool says of others. -/
theorem Matched.load_none {binary : LoadedBinary} (binHandle : UInt64)
    (hsymbols : binary.symbols = none) :
    Matched { w with
      loaded := Function.update w.loaded binHandle (some binary), loads := w.loads + 1 } t where
  registered h' b hb hne := by
    rcases update_eq_some hb with ⟨_, rfl⟩ | ⟨_, hb⟩
    · exact absurd hsymbols hne
    · exact h.registered h' b hb hne
  described := h.described
  regId := h.regId
  regIdDistinct := h.regIdDistinct

theorem Matched.load_some (hw : w.Inv) {binary : LoadedBinary} {binHandle : UInt64}
    {ctx : RegisterContext} (hfree : w.loaded binHandle = none)
    (hid : ctx.param.regId = t.registers.currentRegId)
    (hctx : binary.symbols ≠ none → ctx.Describes binary) :
    Matched
      { w with loaded := Function.update w.loaded binHandle (some binary), loads := w.loads + 1 }
      { t with registers := t.registers.keep (some ctx) binHandle } := by
  have hold : ∀ h', h' ≠ binHandle →
      (t.registers.keep (some ctx) binHandle).contexts.lookup h' =
        t.registers.contexts.lookup h' := fun h' hne => AList.lookup_insert_ne hne
  have hnew : (t.registers.keep (some ctx) binHandle).contexts.lookup binHandle = some ctx :=
    AList.lookup_insert _
  have hlookup : ∀ h' c,
      (t.registers.keep (some ctx) binHandle).contexts.lookup h' = some c →
      h' = binHandle ∧ c = ctx ∨
        h' ≠ binHandle ∧ t.registers.contexts.lookup h' = some c := by
    intro h' c hc
    by_cases heq : h' = binHandle
    · subst heq
      rw [hnew, Option.some.injEq] at hc
      exact .inl ⟨rfl, hc.symm⟩
    · rw [hold h' heq] at hc
      exact .inr ⟨heq, hc⟩
  refine ⟨fun h' b hb hne => ?_, fun fh f hf hne => ?_, fun h' c hc => ?_,
    fun h₁ h₂ c₁ c₂ hc₁ hc₂ heq => ?_⟩
  · rcases update_eq_some hb with ⟨rfl, rfl⟩ | ⟨hne', hb⟩
    · exact ⟨ctx, hnew, hctx hne⟩
    · obtain ⟨c, hc, hdescribes⟩ := h.registered h' b hb hne
      exact ⟨c, (hold h' hne').trans hc, hdescribes⟩
  · obtain ⟨c, hc⟩ := h.described fh f hf hne
    have hne' : f.binary.binHandle ≠ binHandle := by
      intro heq
      have hloaded := hw.functions fh f hf
      rw [heq, hfree] at hloaded
      simp at hloaded
    exact ⟨c, { hc with register := (hold _ hne').trans hc.register }⟩
  · change c.param.regId < t.registers.currentRegId + 1
    rcases hlookup h' c hc with ⟨_, rfl⟩ | ⟨_, hc⟩
    · exact hid ▸ Nat.lt_succ_self _
    · exact Nat.lt_succ_of_lt (h.regId h' c hc)
  · rcases hlookup h₁ c₁ hc₁ with ⟨rfl, rfl⟩ | ⟨_, hold₁⟩ <;>
      rcases hlookup h₂ c₂ hc₂ with ⟨rfl, rfl⟩ | ⟨_, hold₂⟩
    · rfl
    · have hlt := h.regId h₂ c₂ hold₂
      omega
    · have hlt := h.regId h₁ c₁ hold₁
      omega
    · exact h.regIdDistinct h₁ h₂ c₁ c₂ hold₁ hold₂ heq

theorem Matched.unload (binHandle : UInt64) : Matched (w.step (.unload binHandle)) t where
  registered h' b hb hne := by
    by_cases heq : h' = binHandle
    · subst heq
      change Function.update w.loaded h' none h' = some b at hb
      simp at hb
    · change Function.update w.loaded binHandle none h' = some b at hb
      rw [Function.update_of_ne heq] at hb
      exact h.registered h' b hb hne
  described fh f hf hne := h.described fh f (Option.filter_eq_some_iff.mp hf).1 hne
  regId := h.regId
  regIdDistinct := h.regIdDistinct

theorem Matched.getFunction {binHandle : UInt64} {binary : LoadedBinary}
    (hbinary : w.loaded binHandle = some binary) (hhandle : binary.binHandle = binHandle)
    (function : KernelFunction) (funcHandle : UInt64) :
    Matched
      { w with functions := Function.update w.functions funcHandle (some ⟨binary, function⟩) }
      (t.createFuncContext binHandle function funcHandle) := by
  unfold Tool.createFuncContext
  cases hlookup : t.registers.contexts.lookup binHandle with
  | none =>
    refine ⟨h.registered, fun fh f hf hne => ?_, h.regId, h.regIdDistinct⟩
    rcases update_eq_some hf with ⟨_, rfl⟩ | ⟨_, hf⟩
    · obtain ⟨ctx, hctx, _⟩ := h.registered binHandle binary hbinary hne
      simp [hlookup] at hctx
    · exact h.described fh f hf hne
  | some regCtx =>
    refine ⟨h.registered, fun fh f hf hne => ?_, h.regId, h.regIdDistinct⟩
    rcases update_eq_some hf with ⟨rfl, rfl⟩ | ⟨hne', hf⟩
    · obtain ⟨ctx, hctx, hdescribes⟩ := h.registered binHandle binary hbinary hne
      rw [hlookup, Option.some.injEq] at hctx
      subst hctx
      exact ⟨⟨regCtx, function, fh⟩, AList.lookup_insert _, hhandle ▸ hlookup, hdescribes, rfl, rfl⟩
    · obtain ⟨ctx, hctx⟩ := h.described fh f hf hne
      exact ⟨ctx, { hctx with lookup := (AList.lookup_insert_ne hne').trans hctx.lookup }⟩

end Matched

section Step
variable {s : System}

theorem inv_createBinary (h : s.Inv) (bin : UInt64) (data : List UInt8) :
    (s.step (.createBinary bin data)).Inv := by
  have hcached : Cached (s.world.step (.createBinary bin data))
      (s.tool.step (.createBinary bin data)).registers := by
    intro bin' data' hbin' hne hsize
    rcases update_eq_some hbin' with ⟨rfl, rfl⟩ | ⟨hbin, hold⟩
    · simp only [Tool.step, if_neg hne, RegisterManager.cacheElfData, if_neg (Nat.not_lt.mpr hsize)]
      exact AList.lookup_insert _
    · have hlookup := h.cached bin' data' hold hne hsize
      simp only [Tool.step, RegisterManager.cacheElfData]
      split_ifs
      · exact hlookup
      · exact hlookup
      · exact (AList.lookup_insert_ne hbin).trans hlookup
  have hrest : (s.tool.step (.createBinary bin data)).registers.contexts =
        s.tool.registers.contexts ∧
      (s.tool.step (.createBinary bin data)).registers.currentRegId =
        s.tool.registers.currentRegId ∧
      (s.tool.step (.createBinary bin data)).functions = s.tool.functions := by
    simp only [Tool.step, RegisterManager.cacheElfData]
    split_ifs <;> exact ⟨rfl, rfl, rfl⟩
  obtain ⟨hcontexts, hid, hcreated⟩ := hrest
  exact ⟨⟨h.world.binHandle, h.world.number, h.world.distinct, h.world.functions⟩, hcached,
    h.matched.congr rfl rfl hcontexts hid hcreated⟩

theorem inv_destroyBinary (h : s.Inv) (bin : UInt64) : (s.step (.destroyBinary bin)).Inv := by
  refine ⟨⟨h.world.binHandle, h.world.number, h.world.distinct, h.world.functions⟩,
    fun bin' data hbin' => ?_, h.matched.congr rfl rfl rfl rfl rfl⟩
  change Function.update s.world.bins bin none bin' = some data at hbin'
  by_cases heq : bin' = bin
  · simp [heq] at hbin'
  · rw [Function.update_of_ne heq] at hbin'
    exact h.cached bin' data hbin'

theorem inv_load (h : s.Inv) (pipe : Pipe) {binHandle : UInt64} (source : Source)
    (hfree : s.world.loaded binHandle = none) : (s.step (.load pipe binHandle source)).Inv := by
  obtain ⟨ctx, hkeep, hparam⟩ := loadPost_eq_keep pipe binHandle source s.tool.registers
  have hstep : s.tool.step (.load pipe binHandle source) =
      { s.tool with registers := s.tool.registers.keep ctx binHandle } := by
    simp only [Tool.step, hkeep]
  unfold System.step
  rw [hstep]
  refine ⟨h.world.load hfree rfl rfl, fun bin data hbin hne hsize => ?_, ?_⟩
  · rw [tempElfData_keep]
    exact h.cached bin data hbin hne hsize
  · cases ctx with
    | none =>
      apply h.matched.load_none binHandle
      cases hsymbols : source.symbols pipe s.world with
      | none => rfl
      | some symbols =>
        -- the context of a binary that is registered is kept
        obtain ⟨ctx, hkeep', _⟩ := loadPost_describes binHandle h.cached hsymbols 0
        have hid := congrArg RegisterManager.currentRegId (hkeep.symm.trans hkeep')
        exact absurd hid (Nat.succ_ne_self _).symm
    | some ctx =>
      apply h.matched.load_some h.world hfree
      · rw [hparam ctx rfl]
        rfl
      · intro hne
        obtain ⟨symbols, hsymbols⟩ := Option.ne_none_iff_exists'.mp hne
        change source.symbols pipe s.world = some symbols at hsymbols
        obtain ⟨ctx', hkeep', hdescribes⟩ :=
          loadPost_describes binHandle h.cached hsymbols s.world.loads
        have hcontexts := congrArg RegisterManager.contexts (hkeep.symm.trans hkeep')
        have hlookup := congrArg (AList.lookup binHandle) hcontexts
        rw [contexts_keep, contexts_keep, AList.lookup_insert, AList.lookup_insert,
          Option.some.injEq] at hlookup
        rw [hlookup, hsymbols]
        exact hdescribes

theorem inv_step (op : Op) (h : s.Inv) (hop : s.Possible op) : (s.step op).Inv := by
  cases op with
  | createBinary bin data => exact inv_createBinary h bin data
  | destroyBinary bin => exact inv_destroyBinary h bin
  | load pipe binHandle source => exact inv_load h pipe source hop.2.1
  | unload binHandle => exact ⟨h.world.unload binHandle, h.cached, h.matched.unload binHandle⟩
  | getFunction binHandle function funcHandle =>
    obtain ⟨binary, hbinary⟩ := Option.ne_none_iff_exists'.mp hop.2.1
    have hcached : Cached s.world
        (s.tool.createFuncContext binHandle function funcHandle).registers := by
      unfold Tool.createFuncContext
      cases s.tool.registers.contexts.lookup binHandle <;> exact h.cached
    have hstep : s.world.step (.getFunction binHandle function funcHandle) =
        { s.world with
          functions :=
            Function.update s.world.functions funcHandle (some ⟨binary, function⟩) } := by
      simp only [World.step, hbinary]
    unfold System.step
    rw [hstep]
    exact ⟨h.world.getFunction hbinary, hcached,
      h.matched.getFunction hbinary (h.world.binHandle _ _ hbinary) function funcHandle⟩

end Step

theorem inv_run (ops : List Op) (h : Runs.Guarded System.step System.Possible {} ops) :
    (ops.foldl System.step {}).Inv := by
  have hcached : Cached {} {} := fun bin data hbin => by contradiction
  apply h.invariant fun s op hs hop => inv_step op hs hop
  refine ⟨⟨?_, ?_, ?_, ?_⟩, hcached, ⟨?_, ?_, ?_, ?_⟩⟩ <;> intros <;> contradiction

/-! ## Runs in which nothing is given up -/

/-- The tool knows nothing but what is loaded. -/
structure Known (w : World) (t : Tool) : Prop where
  cached : ∀ bin data, t.registers.tempElfData.lookup bin = some data →
    w.bins bin = some data ∧ data.length ≤ RegisterManager.maxMemByteSize
  contexts : ∀ h ctx, t.registers.contexts.lookup h = some ctx →
    ∃ b, w.loaded h = some b ∧ b.symbols ≠ none
  functions : ∀ fh ctx, t.functions.lookup fh = some ctx →
    ∃ f, w.functions fh = some f ∧ f.binary.symbols ≠ none

def Op.GivesUp : Op → Prop
  | .destroyBinary _ | .unload _ => True
  | _ => False

section Known
variable {w : World} {t : Tool}

theorem Known.loadPost_eq (h : Known w t) {pipe : Pipe} {source : Source}
    (hsymbols : source.symbols pipe w = none) (binHandle : UInt64) :
    loadPost pipe binHandle source t.registers = t.registers := by
  cases source with
  | binary bin =>
    unfold loadPost
    dsimp only
    cases hlookup : t.registers.tempElfData.lookup bin with
    | none => rfl
    | some elfData =>
      obtain ⟨hbin, hsize⟩ := h.cached bin elfData hlookup
      have hnone : pipe.symbols elfData = none := by
        unfold Source.symbols at hsymbols
        dsimp only at hsymbols
        rw [hbin] at hsymbols
        simpa [Nat.not_lt.mpr hsize] using hsymbols
      rw [Option.getD_some, RegisterContext.init, hnone]
      split_ifs <;> rfl
  | data elfData options =>
    have hnone : pipe.symbols elfData = none := hsymbols
    unfold loadPost
    dsimp only
    rw [RegisterContext.init, hnone]
    rfl
  | file binPath content readable magicStr options =>
    unfold Source.symbols at hsymbols
    unfold loadPost
    dsimp only at hsymbols ⊢
    split_ifs at hsymbols with hjson hreadable
    · rw [if_pos hjson]
    · rw [if_neg hjson]
      split_ifs
      · rw [RegisterContext.initFromFile, RegisterContext.init, hsymbols]
        rfl
      · rfl
    · rw [if_neg hjson, if_neg fun hread => hreadable hread.1]
      rfl

theorem Known.createBinary (h : Known w t) {bin : UInt64} (data : List UInt8)
    (hfree : w.bins bin = none) :
    Known (w.step (.createBinary bin data)) (t.step (.createBinary bin data)) := by
  have hcached : ∀ bin' data', t.registers.tempElfData.lookup bin' = some data' →
      (w.step (.createBinary bin data)).bins bin' = some data' ∧
        data'.length ≤ RegisterManager.maxMemByteSize := by
    intro bin' data' hlookup
    obtain ⟨hbin', hsize⟩ := h.cached bin' data' hlookup
    have hne : bin' ≠ bin := by
      rintro rfl
      simp [hfree] at hbin'
    exact ⟨(Function.update_of_ne hne _ _).trans hbin', hsize⟩
  simp only [Tool.step, RegisterManager.cacheElfData]
  split_ifs with hempty hsize
  · exact ⟨hcached, h.contexts, h.functions⟩
  · exact ⟨hcached, h.contexts, h.functions⟩
  · refine ⟨fun bin' data' hlookup => ?_, h.contexts, h.functions⟩
    by_cases heq : bin' = bin
    · subst heq
      rw [AList.lookup_insert, Option.some.injEq] at hlookup
      subst hlookup
      exact ⟨Function.update_self _ _ _, Nat.le_of_not_lt hsize⟩
    · rw [AList.lookup_insert_ne heq] at hlookup
      exact hcached bin' data' hlookup

theorem Known.load (h : Known w t) (pipe : Pipe) {binHandle : UInt64} (source : Source)
    (hfree : w.loaded binHandle = none) :
    Known (w.step (.load pipe binHandle source)) (t.step (.load pipe binHandle source)) := by
  obtain ⟨ctx, hkeep, _⟩ := loadPost_eq_keep pipe binHandle source t.registers
  have hold : ∀ h' b, w.loaded h' = some b →
      (w.step (.load pipe binHandle source)).loaded h' = some b := by
    intro h' b hb
    have hne : h' ≠ binHandle := by
      rintro rfl
      simp [hfree] at hb
    exact (Function.update_of_ne hne _ _).trans hb
  have hcontexts : ∀ h' c, t.registers.contexts.lookup h' = some c →
      ∃ b, (w.step (.load pipe binHandle source)).loaded h' = some b ∧ b.symbols ≠ none := by
    intro h' c hc
    obtain ⟨b, hb, hne⟩ := h.contexts h' c hc
    exact ⟨b, hold h' b hb, hne⟩
  cases hsymbols : source.symbols pipe w with
  | none =>
    simp only [Tool.step, h.loadPost_eq hsymbols]
    exact ⟨h.cached, hcontexts, h.functions⟩
  | some symbols =>
    simp only [Tool.step, hkeep]
    refine ⟨fun bin data hlookup => ?_, fun h' c hc => ?_, h.functions⟩
    · rw [tempElfData_keep] at hlookup
      exact h.cached bin data hlookup
    · by_cases heq : h' = binHandle
      · subst heq
        refine ⟨_, Function.update_self _ _ _, ?_⟩
        change source.symbols pipe w ≠ none
        simp [hsymbols]
      · cases ctx with
        | none => exact hcontexts h' c hc
        | some ctx =>
          rw [contexts_keep, AList.lookup_insert_ne heq] at hc
          exact hcontexts h' c hc

theorem Known.getFunction (h : Known w t) (binHandle : UInt64) (function : KernelFunction)
    {funcHandle : UInt64}
    (hlive : ∀ f, w.functions funcHandle = some f →
      w.loaded binHandle = some f.binary ∧ f.function = function) :
    Known (w.step (.getFunction binHandle function funcHandle))
      (t.createFuncContext binHandle function funcHandle) := by
  cases hloaded : w.loaded binHandle with
  | none =>
    have hcontext : t.registers.contexts.lookup binHandle = none := by
      by_contra hne
      obtain ⟨ctx, hctx⟩ := Option.ne_none_iff_exists'.mp hne
      obtain ⟨b, hb, _⟩ := h.contexts binHandle ctx hctx
      simp [hloaded] at hb
    simp only [World.step, hloaded, Tool.createFuncContext, hcontext]
    exact h
  | some binary =>
    have hold : ∀ fh f, w.functions fh = some f → f.binary.symbols ≠ none →
        ∃ f', Function.update w.functions funcHandle (some ⟨binary, function⟩) fh = some f' ∧
          f'.binary.symbols ≠ none := by
      intro fh f hf hne
      by_cases heq : fh = funcHandle
      · subst heq
        obtain ⟨hbinary, _⟩ := hlive f hf
        rw [hloaded, Option.some.injEq] at hbinary
        exact ⟨_, Function.update_self _ _ _, hbinary ▸ hne⟩
      · exact ⟨f, (Function.update_of_ne heq _ _).trans hf, hne⟩
    simp only [World.step, hloaded, Tool.createFuncContext]
    cases hcontext : t.registers.contexts.lookup binHandle with
    | none =>
      refine ⟨h.cached, h.contexts, fun fh ctx hctx => ?_⟩
      obtain ⟨f, hf, hne⟩ := h.functions fh ctx hctx
      exact hold fh f hf hne
    | some regCtx =>
      refine ⟨h.cached, h.contexts, fun fh ctx hctx => ?_⟩
      by_cases heq : fh = funcHandle
      · subst heq
        obtain ⟨b, hb, hne⟩ := h.contexts binHandle regCtx hcontext
        rw [hloaded, Option.some.injEq] at hb
        exact ⟨_, Function.update_self _ _ _, hb ▸ hne⟩
      · have hctx' := (AList.lookup_insert_ne heq).symm.trans hctx
        obtain ⟨f, hf, hne⟩ := h.functions fh ctx hctx'
        exact hold fh f hf hne

end Known

theorem known_run (ops : List Op) (h : Runs.Guarded System.step System.Possible {} ops)
    (hkeeps : ∀ op ∈ ops, ¬ op.GivesUp) :
    Known (ops.foldl System.step {}).world (ops.foldl System.step {}).tool := by
  have hkeeps' : Runs.Guarded System.step (fun _ op => ¬ op.GivesUp) {} ops :=
    (@Runs.guarded_iff_forall _ _ System.step (fun _ op => ¬ op.GivesUp) (fun op => ¬ op.GivesUp)
      (fun _ _ => Iff.rfl) {} ops).mpr hkeeps
  have hstep : ∀ (s : System) (op : Op), Known s.world s.tool →
      s.Possible op ∧ ¬ op.GivesUp → Known (s.step op).world (s.step op).tool := by
    rintro s op hs ⟨hop, hkeep⟩
    cases op with
    | createBinary bin data => exact hs.createBinary data hop.2
    | destroyBinary bin => exact absurd trivial hkeep
    | load pipe binHandle source => exact hs.load pipe source hop.2.1
    | unload binHandle => exact absurd trivial hkeep
    | getFunction binHandle function funcHandle => exact hs.getFunction binHandle function hop.2.2
  apply Runs.Guarded.invariant hstep (Runs.guarded_and.mpr ⟨h, hkeeps'⟩)
  refine ⟨?_, ?_, ?_⟩ <;> intros <;> contradiction

section Names
variable {f : LoadedFunction} {ctx : FuncContext}

theorem FuncContext.kernelName_eq (hregister : ctx.regCtx.Describes f.binary)
    (hfunction : ctx.function = f.function) {symbols : List Symbol}
    (hsymbols : f.binary.symbols = some symbols) : ctx.kernelName = f.kernelName symbols := by
  have hread : symbols = ctx.regCtx.symbols :=
    Option.some_injective _ (hsymbols.symm.trans hregister.symbols)
  unfold FuncContext.kernelName LoadedFunction.kernelName
  rw [hfunction, hread]

theorem FuncContext.tilingKey_eq (hfunction : ctx.function = f.function) :
    ctx.tilingKey = f.tilingKey := by
  unfold FuncContext.tilingKey LoadedFunction.tilingKey
  rw [hfunction]

end Names

/-- Whatever is loaded, unloaded and given again: a function of a binary that is registered has a
context that says what the binary is, and contexts have one id just when their binaries come from
one load. Where nothing is given up, no other function has a context. -/
theorem functions_described (ops : List Op)
    (h : Runs.Guarded System.step System.Possible {} ops) :
    let s := ops.foldl System.step {}
    (∀ fh f, s.world.functions fh = some f → f.binary.symbols ≠ none →
      ∃ ctx, s.tool.Describes fh f ctx) ∧
    (∀ fh fh' f f' ctx ctx', s.world.functions fh = some f → s.world.functions fh' = some f' →
      s.tool.Describes fh f ctx → s.tool.Describes fh' f' ctx' →
      (ctx.regCtx.param.regId = ctx'.regCtx.param.regId ↔ f.binary.number = f'.binary.number)) ∧
    ((∀ op ∈ ops, ¬ op.GivesUp) → ∀ fh, s.tool.functions.lookup fh ≠ none ↔
      ∃ f, s.world.functions fh = some f ∧ f.binary.symbols ≠ none) := by
  have hinv : (ops.foldl System.step {}).Inv := inv_run ops h
  refine ⟨hinv.matched.described, ?_, fun hkeeps fh => ⟨fun hctx => ?_, ?_⟩⟩
  · intro fh fh' f f' ctx ctx' hf hf' hctx hctx'
    have hloaded := hinv.world.functions fh f hf
    have hloaded' := hinv.world.functions fh' f' hf'
    constructor
    · intro hid
      have hhandle := hinv.matched.regIdDistinct _ _ _ _ hctx.register hctx'.register hid
      rw [hhandle, hloaded', Option.some.injEq] at hloaded
      rw [hloaded]
    · intro hnumber
      have hhandle := hinv.world.distinct _ _ _ _ hloaded hloaded' hnumber
      have hregister := hctx.register
      rw [hhandle, hctx'.register, Option.some.injEq] at hregister
      rw [hregister]
  · obtain ⟨ctx, hctx⟩ := Option.ne_none_iff_exists'.mp hctx
    exact (known_run ops h hkeeps).functions fh ctx hctx
  · rintro ⟨f, hf, hne⟩
    obtain ⟨ctx, hctx⟩ := hinv.matched.described fh f hf hne
    rw [hctx.lookup]
    exact Option.some_ne_none ctx

/-- No symbols are printed, and none for what begins with 0. -/
def noSymbols : Pipe where
  llvmObjdump data := if data.head? = some 0 then none else some []
  grep _ := none

/-- The handles of a binary and its function are given again for others. -/
def reused (elfData : List UInt8) : List Op :=
  [.load noSymbols 1 (.data [1] none), .getFunction 1 (.funcEntry 0) 16, .unload 1,
    .load noSymbols 1 (.data elfData none), .getFunction 1 (.funcEntry 0) 16]

theorem functions_described_reused : ∃ ctx,
    ((reused [2]).foldl System.step {}).tool.Describes 16
      ⟨⟨1, 1, [2], magicElf, none, some []⟩, .funcEntry 0⟩ ctx := by
  exact (functions_described (reused [2]) (by decide)).1 16 _ rfl (Option.some_ne_none _)

-- a binary that is not registered is taken for the one that had its handle before
example : (((reused [0]).foldl System.step {}).tool.functions.lookup 16).map
    (fun ctx => ctx.regCtx.elfData) = some [1] := by
  decide

end Msopcom.KernelRegistry
