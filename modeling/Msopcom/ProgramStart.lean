import Msopcom.KeyedList
import Msopcom.MsTxRange
import Msopcom.Runs
import Msopcom.SanitizerLaunch

set_option autoImplicit false

/-!
# Where a program starts

For each registered binary the context keeps a table of kernel names and offsets, which an
instrumentation replaces by that of the instrumented binary. The start of a program is the
address of a kernel, which the runtime gives for a handle, less the offset of the kernel.
-/
namespace Msopcom.ProgramStart
open KeyedList
open MsTxRange (splitString)

abbrev Name := List UInt8

/-- `_mix_aic` and `_mix_aiv`. -/
def mixAicTail : Name := [95, 109, 105, 120, 95, 97, 105, 99]
def mixAivTail : Name := [95, 109, 105, 120, 95, 97, 105, 118]

def uint64Max : UInt64 := 0xFFFFFFFFFFFFFFFF

def isSpace (c : UInt8) : Bool := c = 32 || (9 ≤ c && c ≤ 13)
def isDigit (c : UInt8) : Bool := 48 ≤ c && c ≤ 57

def readNat (digits : Name) : Nat := digits.foldl (fun n c => 10 * n + (c.toNat - 48)) 0

/-- What a `stringstream` reads into `old`. A number that does not fit is cut off, what is
no number gives 0, and where there is nothing but blanks the old value stays. -/
def readUInt64 (bytes : Name) (old : UInt64) : UInt64 :=
  match bytes.dropWhile isSpace with
  | [] => old
  | c :: rest =>
    let n := readNat ((if c = 43 ∨ c = 45 then rest else c :: rest).takeWhile isDigit)
    if 2 ^ 64 ≤ n then uint64Max else if c = 45 then 0 - UInt64.ofNat n else UInt64.ofNat n

def getTilingKeyFromName (kernelName : Name) (tilingKey : UInt64) : Option UInt64 :=
  let kernelName := if mixAicTail.isSuffixOf kernelName || mixAivTail.isSuffixOf kernelName then
    kernelName.take (kernelName.length - 8) else kernelName
  let items := splitString 95 kernelName
  if items.length < 2 then none else some (readUInt64 (items.getLastD []) tilingKey)

/-- The loop over the names, with the key of the last name before. -/
def findKernelOffset (tilingKey : UInt64) : List (Name × UInt64) → UInt64 → Option UInt64
  | [], _ => none
  | (kernelName, kernelOffset) :: symbols, tilingKeyFromName =>
    match getTilingKeyFromName kernelName tilingKeyFromName with
    | none => findKernelOffset tilingKey symbols tilingKeyFromName
    | some key => if key = tilingKey then some kernelOffset else findKernelOffset tilingKey symbols key

def getKernelOffsetByTilingKey (symbols : List (Name × UInt64)) (tilingKey : UInt64) :
    Option UInt64 := findKernelOffset tilingKey symbols 0

/-- A binary, as far as it is read: the kernel symbols and, unless it cannot be loaded, the
section headers. -/
structure DevBinary where
  length : UInt64 := 64
  symbols : List (Name × UInt64) := []
  headers : Option (List Elf64Shdr) := none
  deriving DecidableEq, Repr

def DevBinary.allocSectionHeaders (binary : DevBinary) : Option (List Elf64Shdr) :=
  binary.headers.map getAllocSectionHeaders

/-- The pointer to the binary of an instrumentation task. It dangles when the task has
dropped that binary. -/
inductive StubBin
  | null
  | live (task : Nat) (binary : DevBinary)
  | freed
  deriving DecidableEq, Repr

structure RegisterEvent where
  hdl : UInt64
  bin : DevBinary
  stubBin : StubBin
  symbols : List (Name × UInt64)
  deriving DecidableEq, Repr

structure LaunchEvent where
  hdl : UInt64
  tilingKey : UInt64
  pcStartAddr : UInt64
  deriving DecidableEq, Repr

/-- A program start that was obtained from the address of a kernel of a binary. -/
structure Obtained where
  queried : DevBinary
  tilingKey : UInt64
  kernelAddr : UInt64
  pcStartAddr : UInt64
  deriving DecidableEq, Repr

/-- Sections that were reported for a launch, unless they came from a dropped binary. -/
structure Reported where
  launched : DevBinary
  pcStartAddr : UInt64
  sections : Option (List Elf64Shdr)
  deriving DecidableEq, Repr

end ProgramStart

/-- The events of a device, with what was obtained and reported so far. -/
structure ProgramStart where
  registerEvents : List ProgramStart.RegisterEvent := []
  hdlToRegId : AList fun _ : UInt64 => Nat := ∅
  launchEvents : List ProgramStart.LaunchEvent := []
  obtained : List ProgramStart.Obtained := []
  reported : List ProgramStart.Reported := []

namespace ProgramStart

def maxMemByteSize : UInt64 := 32212254720

def addHdlRegisterEvent (hdl : UInt64) (bin : DevBinary) (c : ProgramStart) : ProgramStart :=
  if hdl = 0 ∨ maxMemByteSize ≤ bin.length then c
  else { c with
    hdlToRegId := c.hdlToRegId.insert hdl c.registerEvents.length
    registerEvents := c.registerEvents ++ [⟨hdl, bin, .null, bin.symbols⟩] }

/-- `GetRegisterEvent` for the id that a handle has. -/
def getRegisterEvent (hdl : UInt64) (c : ProgramStart) : Option RegisterEvent :=
  (c.hdlToRegId.lookup hdl).bind fun regId => c.registerEvents[regId]?

def getKernelOffset (hdl tilingKey : UInt64) (c : ProgramStart) : Option UInt64 :=
  (c.getRegisterEvent hdl).bind fun e => getKernelOffsetByTilingKey e.symbols tilingKey

/-- `kernelAddr` is what the runtime answers for the handle that is queried; the offset is
that of the handle of the application. -/
def getPcStartAddr (kernelAddr : Option UInt64) (hdl tilingKey : UInt64) (c : ProgramStart) :
    Option UInt64 := do
  let kernelAddr ← kernelAddr
  let kernelOffset ← c.getKernelOffset hdl tilingKey
  if kernelAddr < kernelOffset then none else some (kernelAddr - kernelOffset)

/-- Keeps what was obtained from the handle of `queried`. -/
def noteObtained (queried : DevBinary) (tilingKey : UInt64) (kernelAddr pcStartAddr : Option UInt64)
    (c : ProgramStart) : ProgramStart :=
  match kernelAddr, pcStartAddr with
  | some kernelAddr, some pcStartAddr =>
    { c with obtained := c.obtained ++ [⟨queried, tilingKey, kernelAddr, pcStartAddr⟩] }
  | _, _ => c

def addLaunchEvent (hdl tilingKey : UInt64) (kernelAddr : Option UInt64) (c : ProgramStart) :
    ProgramStart :=
  let pcStartAddr := c.getPcStartAddr kernelAddr hdl tilingKey
  let c := match c.getRegisterEvent hdl with
    | some e => c.noteObtained e.bin tilingKey kernelAddr pcStartAddr
    | none => c
  { c with launchEvents := c.launchEvents ++ [⟨hdl, tilingKey, pcStartAddr.getD 0⟩] }

def updateRegisterEvent (regId : Nat) (f : RegisterEvent → RegisterEvent) (c : ProgramStart) :
    ProgramStart := { c with registerEvents := c.registerEvents.modify regId f }

def setDbiBinary (regId task : Nat) (devBinary : DevBinary) (c : ProgramStart) : ProgramStart :=
  c.updateRegisterEvent regId fun e =>
    { e with stubBin := .live task devBinary, symbols := devBinary.symbols }

/-- The task drops the binary that it has registered before. -/
def StubBin.drop (task : Nat) : StubBin → StubBin
  | .live task' binary => if task' = task then .freed else .live task' binary
  | stubBin => stubBin

def dropStub (regId task : Nat) (c : ProgramStart) : ProgramStart :=
  c.updateRegisterEvent regId fun e => { e with stubBin := e.stubBin.drop task }

def updatePcStartAddrByDbi (dbiBinary : DevBinary) (hdl tilingKey : UInt64)
    (kernelAddr : Option UInt64) (c : ProgramStart) : ProgramStart :=
  match c.getPcStartAddr kernelAddr hdl tilingKey with
  | none => c
  | some pcStartAddr =>
    let c := c.noteObtained dbiBinary tilingKey kernelAddr (some pcStartAddr)
    { c with launchEvents := c.launchEvents.modifyLast fun e => { e with pcStartAddr := pcStartAddr } }

/-- How an instrumentation ends: the kernel is not instrumented, the task has lost its
binary and cannot register the new one, or the handle of a new binary replaces the old. -/
inductive Dbi
  | none
  | lost (task : Nat)
  | replaced (task : Nat) (dbiBinary : DevBinary) (kernelAddr : Option UInt64)
  deriving DecidableEq, Repr

def runDBITask (hdl tilingKey : UInt64) (dbi : Dbi) (c : ProgramStart) : ProgramStart :=
  match c.hdlToRegId.lookup hdl, dbi with
  | some regId, .lost task => c.dropStub regId task
  | some regId, .replaced task dbiBinary kernelAddr =>
    (c.setDbiBinary regId task dbiBinary).updatePcStartAddrByDbi dbiBinary hdl tilingKey kernelAddr
  | _, _ => c

/-- Behind a profiled launch the kernel may be instrumented again and again, before a
sanitized one once. -/
inductive Mode
  | profiled (dbis : List Dbi)
  | sanitized (dbi : Dbi)
  deriving DecidableEq, Repr

structure Launch where
  hdl : UInt64
  tilingKey : UInt64
  kernelAddr : Option UInt64
  mode : Mode
  deriving DecidableEq, Repr

/-- The binary of the handle that is launched. -/
def launchedBinary (e : RegisterEvent) : Dbi → DevBinary
  | .replaced _ dbiBinary _ => dbiBinary
  | _ => e.bin

/-- `GetDevBinary` with the stub binary and, without one, with the binary itself, then
`GetSectionHeaders`. Nobody knows what a dropped binary has. -/
def reportedSections (e : RegisterEvent) : Option (Option (List Elf64Shdr)) :=
  match e.stubBin with
  | .null => e.bin.allocSectionHeaders.map some
  | .live _ stubBin => stubBin.allocSectionHeaders.map some
  | .freed => some none

/-- Without a start the sections are not reported. -/
def reportSections (launched : DevBinary) (hdl : UInt64) (c : ProgramStart) : ProgramStart :=
  match c.launchEvents.getLast?, (c.getRegisterEvent hdl).bind reportedSections with
  | some event, some sections =>
    if event.pcStartAddr = 0 then c
    else { c with reported := c.reported ++ [⟨launched, event.pcStartAddr, sections⟩] }
  | _, _ => c

def launchKernel (l : Launch) (c : ProgramStart) : ProgramStart :=
  let before := c.getRegisterEvent l.hdl
  let c := c.addLaunchEvent l.hdl l.tilingKey l.kernelAddr
  match l.mode with
  | .profiled dbis => dbis.foldl (fun c dbi => c.runDBITask l.hdl l.tilingKey dbi) c
  | .sanitized dbi =>
    let c := c.runDBITask l.hdl l.tilingKey dbi
    match before with
    | none => c
    | some e => c.reportSections (launchedBinary e dbi) l.hdl

/-- `dbiBinary` is an instrumentation on behalf of another launch. -/
inductive Op
  | register (hdl : UInt64) (bin : DevBinary)
  | setDbiBinary (regId task : Nat) (devBinary : DevBinary)
  | launch (l : Launch)
  deriving DecidableEq, Repr

def step (c : ProgramStart) : Op → ProgramStart
  | .register hdl bin => c.addHdlRegisterEvent hdl bin
  | .setDbiBinary regId task devBinary => c.setDbiBinary regId task devBinary
  | .launch l => c.launchKernel l

/-! ## What is right -/

/-- The start is the address less the offset of the kernel in the binary that was queried. -/
def Obtained.Right (o : Obtained) : Prop :=
  ∃ kernelOffset, getKernelOffsetByTilingKey o.queried.symbols o.tilingKey = some kernelOffset ∧
    o.pcStartAddr = o.kernelAddr - kernelOffset

/-- The sections are those of the binary that is launched. -/
def Reported.Right (r : Reported) : Prop :=
  r.sections.isSome ∧ r.sections = r.launched.allocSectionHeaders

structure Right (c : ProgramStart) : Prop where
  obtained : ∀ o ∈ c.obtained, o.Right
  reported : ∀ r ∈ c.reported, r.Right

/-- The table has the kernel where the binary itself has it. -/
def TableAgrees (e : RegisterEvent) (tilingKey : UInt64) : Prop :=
  getKernelOffsetByTilingKey e.bin.symbols tilingKey =
    getKernelOffsetByTilingKey e.symbols tilingKey

/-- The stub binary that an instrumentation without success leaves has the sections of the
binary itself, or none that can be read. -/
def StubAgrees (e : RegisterEvent) : Prop :=
  match e.stubBin with
  | .null => True
  | .live _ stubBin =>
    stubBin.headers = none ∨ stubBin.allocSectionHeaders = e.bin.allocSectionHeaders
  | .freed => False

/-- The event behind an instrumentation that does not replace the handle. -/
def RegisterEvent.behind (e : RegisterEvent) : Dbi → RegisterEvent
  | .lost task => { e with stubBin := e.stubBin.drop task }
  | _ => e

/-- Where the launch obtains a start from the handle of the application, the table agrees
with the binary of that handle, and where it reports sections without replacing the handle,
so does the stub binary. -/
def Safe (c : ProgramStart) : Op → Prop
  | .launch l => ∀ e pcStartAddr, c.getRegisterEvent l.hdl = some e →
      c.getPcStartAddr l.kernelAddr l.hdl l.tilingKey = some pcStartAddr →
      TableAgrees e l.tilingKey ∧
        match l.mode with
        | .profiled _ => True
        | .sanitized (.replaced _ _ _) => True
        | .sanitized dbi => pcStartAddr = 0 ∨ StubAgrees (e.behind dbi)
  | _ => True

end ProgramStart
end Msopcom
