import Msopcom.ReportOp

set_option autoImplicit false

/-!
# A launch under the sanitizer

What `rtKernelLaunchWithHandleV2` stores in the table before the kernel runs, and
what it takes back afterwards.
-/
namespace Msopcom

structure Elf64Shdr where
  shFlags : UInt64
  shAddr : UInt64
  shSize : UInt64
  deriving DecidableEq, Repr

def shfAlloc : UInt64 := 2

def getAllocSectionHeaders (headers : List Elf64Shdr) : List Elf64Shdr :=
  headers.filter fun header => (header.shFlags &&& shfAlloc) > 0 && header.shSize > 0

def reportSectionsMalloc (r : Reporter) (pcStartAddr : UInt64) (headers : List Elf64Shdr) :
    Reporter :=
  if pcStartAddr = 0 then r
  else headers.foldl (fun r header =>
    (r.reportMalloc (pcStartAddr + header.shAddr) header.shSize .bypass .elfSection).reportMemset
      (pcStartAddr + header.shAddr) header.shSize .bypass .elfSection) r

def uint64Max : UInt64 := 0xFFFFFFFFFFFFFFFF

def reportSectionsFree (r : Reporter) (pcStartAddr : UInt64) (headers : List Elf64Shdr) :
    Reporter :=
  if pcStartAddr = 0 then r
  else headers.foldl (fun r header =>
    if pcStartAddr > uint64Max - header.shAddr then r
    else r.reportFree (pcStartAddr + header.shAddr) .bypass .elfSection) r

def overflowBufSize : UInt64 := 512

def reportOverflowMalloc (r : Reporter) (o : OpMemInfo) : Reporter :=
  if !o.hasOverflowAddr || o.overflowAddr = 0 then r
  else r.reportMalloc o.overflowAddr overflowBufSize .bypass .overflowAddr

def reportOverflowFree (r : Reporter) (o : OpMemInfo) : Reporter :=
  if !o.hasOverflowAddr || o.overflowAddr = 0 then r
  else r.reportFree o.overflowAddr .bypass .overflowAddr

structure ParaBaseRegister where
  addr : UInt64
  size : UInt64
  deriving DecidableEq, Repr

def illegalAddr : UInt64 := 0xFFFFFFFFFFFFFFFF

/-- The memory that `__sanitizer_finalize` reports while it walks the blocks: the
first legal parameter base, freed again behind the last block. -/
def sanitizerFinalize (r : Reporter) (paraBases : List ParaBaseRegister) : Reporter :=
  match paraBases.find? fun info => info.addr ≠ illegalAddr && info.size ≠ 0 with
  | none => r
  | some paraBase =>
    ((r.reportMalloc paraBase.addr paraBase.size .bypass .paraBase).reportMemset paraBase.addr
      paraBase.size .bypass .paraBase).reportFree paraBase.addr .bypass .paraBase

/-- What a launch meets: the kernel's filters, the lookups that may fail, the
outcome of `__sanitizer_init` and the parameter bases found in the block heads. -/
structure Launch where
  /-- The arguments as they are launched; `none` stops the hook at once. -/
  argsInfo : Option RtArgsEx
  skipSanitizer : Bool
  isSink : Bool
  /-- The start of the kernel's code, when its launch event is found. -/
  pcStartAddr : Option UInt64
  /-- The section headers, when the binary is found and they can be read. -/
  headers : Option (List Elf64Shdr)
  opMemInfo : OpMemInfo
  memInfo : Option UInt64
  paraBases : List ParaBaseRegister

/-- The members that `SanitizerPre` leaves to `SanitizerPost`. -/
structure SanitizerHook where
  memInfo : Option UInt64
  sections : List Elf64Shdr

/-- Announces the inputs and the tiling block; an empty record in the source of the
inputs makes the table filter what it lists. -/
def announceOp (m : MemoryManage) (o : OpMemInfo) : MemoryManage :=
  let m := m.cacheMemoryCount (UInt32.ofNat (o.inputParamsAddrInfos.length + 1))
  match o.inputParamsAddrInfos with
  | [] => m
  | it :: _ => m.cacheMalloc 0 it.memInfoSrc 0 false

def sanitizerPre (l : Launch) (r : Reporter) : Reporter × SanitizerHook :=
  if l.skipSanitizer then (r, ⟨l.memInfo, []⟩)
  else if l.isSink then (r, ⟨none, []⟩)
  else
    match l.pcStartAddr, l.headers with
    | some pcStartAddr, some headers =>
      let sections := getAllocSectionHeaders headers
      let r := reportSectionsMalloc r pcStartAddr sections
      let r := reportOverflowMalloc r l.opMemInfo
      ({ r with manage := announceOp r.manage l.opMemInfo }, ⟨l.memInfo, sections⟩)
    | _, _ => (r, ⟨none, []⟩)

def sanitizerPost (ctx : KernelContext) (l : Launch) (argsInfo : RtArgsEx) (hook : SanitizerHook)
    (r : Reporter) : Reporter :=
  if (hook.memInfo.isSome || l.isSink) && !l.skipSanitizer then
    if l.isSink then r
    else
      let launch := reportOpMallocInfo ctx (some argsInfo) r l.opMemInfo
      let r := sanitizerFinalize launch.1 l.paraBases
      let r := reportSectionsFree r (l.pcStartAddr.getD 0) hook.sections
      let r := reportOverflowFree r launch.2
      (reportOpFreeInfo r launch.2).1
  else r

def launchKernel (ctx : KernelContext) (r : Reporter) (l : Launch) : Reporter :=
  match l.argsInfo with
  | none => r
  | some argsInfo =>
    let pre := sanitizerPre l r
    sanitizerPost ctx l argsInfo pre.2 pre.1

end Msopcom
