import Mathlib.Data.List.Infix
import Mathlib.Logic.Function.Basic
import Msopcom.Runs

set_option autoImplicit false

/-!
# Block maps and counter dumps

A launch whose kernel counts its basic blocks saves the block map under a new index, asks for the
memory of its counters, and dumps them. The indices are shared by the launches of all threads, and
each launch takes its steps while the others take theirs.
-/
namespace Msopcom.BBCountDumper
open Runs

/-! ## The memory of a block map -/

abbrev BlockMap := List UInt8

def bbbIdStr : List UInt8 := [66, 66, 66, 32, 105, 100]

def maxFileSize : ℕ := 1024 * 1024 * 1024

def maxCoreUnitSize : ℕ := 50 * 1024 * 1024

def c220MixSubBlockdim : ℕ := 3

def maxBlockdimNums : ℕ := 100

/-- The lines that name a block. -/
def bbCountNum (file : BlockMap) : ℕ := (file.splitOn 10).countP (bbbIdStr <:+: ·)

/-- Four bytes for each block, aligned to 256 bytes, for each core. -/
def memSizeOf (file : BlockMap) : ℕ :=
  if maxFileSize < file.length then 0
  else
    let coreUnitSize := (bbCountNum file * 4 + 256 - 1) / 256 * 256
    min coreUnitSize maxCoreUnitSize * c220MixSubBlockdim * maxBlockdimNums

/-! ## The launches -/

inductive DataType
  | kernel
  | stubKernel
  | blockMap
  | extraMem
  | invalid
  deriving DecidableEq, Repr

def getOutFileName (type : DataType) (regId : UInt64) : String :=
  match type with
  | .kernel => "kernel" ++ toString regId ++ ".o"
  | .stubKernel => "kernel" ++ toString regId ++ "Stub.o"
  | .blockMap => "kernel" ++ toString regId ++ "Stub.o.bbbmap"
  | .extraMem => "kernel" ++ toString regId ++ ".extra"
  | .invalid => ""

/-- What a conversion leaves in the directory of its launch. `chmod` is false where the authority
of the block map cannot be set. -/
structure TaskDir where
  blockMap : Option BlockMap
  oldKernel : Bool := true
  chmod : Bool := true

/-- How `RunDBITask` ends. A kernel that is instrumented already gives the launch a link to the
directory of the launch that was converted. -/
inductive Task
  | failed
  | fresh (dir : TaskDir)
  | cached (launchId : UInt64)

inductive Phase
  | replaced
  | indexed
  | saved
  | sized
  | dumped
  deriving DecidableEq, Repr

/-- A launch. `index` is the index of the block map that it has saved, `answer` what `GetMemSize`
has returned for it, `memSize` the member of its hook, and `extra` the name of its dump. -/
structure Launch where
  regId : UInt64
  outDir : String
  dir : TaskDir
  phase : Phase := .replaced
  index : Option UInt64 := none
  answer : Option ℕ := none
  memSize : ℕ
  extra : Option String := none

/-- The memory for the block map of the kernel that the launch runs. -/
def Launch.ownMemSize (l : Launch) : ℕ := (l.dir.blockMap.map memSizeOf).getD 0

def blockMapPath (outDir : String) (regId index : UInt64) : String :=
  outDir ++ "/" ++ getOutFileName .blockMap regId ++ "." ++ toString index

def extraMemFileName (regId index : UInt64) : String :=
  getOutFileName .extraMem regId ++ "." ++ toString index

def Launch.blockMapPath (l : Launch) (index : UInt64) : String :=
  BBCountDumper.blockMapPath l.outDir l.regId index

/-- The map of the indices, the block maps in the output directories, and the launches. `saver` is
the launch of a register id that was the last to be given an index. -/
structure Dumper where
  outputDir : String
  files : String → Option BlockMap
  lastLaunchId : UInt64 → Option UInt64 := fun _ => none
  launches : UInt64 → Option Launch := fun _ => none
  saver : UInt64 → Option UInt64 := fun _ => none

namespace Dumper

def setLaunch (launchId : UInt64) (l : Launch) (d : Dumper) : Dumper :=
  { d with launches := Function.update d.launches launchId (some l) }

def setIndex (regId index : UInt64) (d : Dumper) : Dumper :=
  { d with lastLaunchId := Function.update d.lastLaunchId regId (some index) }

def setSaver (regId launchId : UInt64) (d : Dumper) : Dumper :=
  { d with saver := Function.update d.saver regId (some launchId) }

def setFile (path : String) (file : BlockMap) (d : Dumper) : Dumper :=
  { d with files := Function.update d.files path (some file) }

/-- `lastLaunchId_[regId]` inserts a 0 where there is no index. -/
def indexAt (regId : UInt64) (d : Dumper) : Dumper × UInt64 :=
  match d.lastLaunchId regId with
  | some index => (d, index)
  | none => (d.setIndex regId 0, 0)

def getLaunchCount (regId : UInt64) (d : Dumper) : Option UInt64 := d.lastLaunchId regId

def taskDir (task : Task) (d : Dumper) : TaskDir :=
  match task with
  | .failed => { blockMap := none, oldKernel := false }
  | .fresh dir => dir
  | .cached launchId =>
    ((d.launches launchId).map Launch.dir).getD { blockMap := none, oldKernel := false }

/-- `Replace` up to the save of the block map. Where the kernel is not replaced, the launch goes on
with the `memSize` that its hook was left with. -/
def replace (launchId regId : UInt64) (outputPath : String) (task : Task) (memSize : ℕ)
    (d : Dumper) : Dumper :=
  match d.launches launchId with
  | none =>
    d.setLaunch launchId
      { regId
        outDir := if outputPath.isEmpty then d.outputDir else outputPath
        dir := d.taskDir task
        phase := match task with
          | .failed => .sized
          | _ => .replaced
        memSize }
  | some _ => d

/-- The part of `SaveBlockMapFile` up to the end of the lock. -/
def saveBlockMapFile (launchId : UInt64) (l : Launch) (d : Dumper) : Dumper :=
  if l.dir.blockMap.isNone || !l.dir.oldKernel || !l.dir.chmod then
    d.setLaunch launchId { l with phase := .saved }
  else
    let index := match d.lastLaunchId l.regId with
      | none => 0
      | some lastLaunchId => lastLaunchId + 1
    ((d.setIndex l.regId index).setSaver l.regId launchId).setLaunch launchId
      { l with phase := .indexed, index := some index }

/-- `CopyFile` does not copy over a file that is there. -/
def copyBlockMap (launchId : UInt64) (copied : Bool) (l : Launch) (d : Dumper) : Dumper :=
  match l.index, l.dir.blockMap with
  | some index, some file =>
    if copied && (d.files (l.blockMapPath index)).isNone then
      (d.setFile (l.blockMapPath index) file).setLaunch launchId { l with phase := .saved }
    else d.setLaunch launchId { l with phase := .saved, index := none }
  | _, _ => d

/-- `valid` is the answer of `CheckInputFileValid` for a file that is there. -/
def getMemSize (regId : UInt64) (outDir : String) (valid : Bool) (d : Dumper) : Dumper × ℕ :=
  let (d, subKernelId) := d.indexAt regId
  match d.files (BBCountDumper.blockMapPath outDir regId subKernelId) with
  | some file => (d, if valid then memSizeOf file else 0)
  | none => (d, 0)

def sizeMemory (launchId : UInt64) (valid : Bool) (l : Launch) (d : Dumper) : Dumper :=
  let (d, memSize) := d.getMemSize l.regId l.outDir valid
  d.setLaunch launchId { l with phase := .sized, answer := some memSize, memSize := memSize }

/-- `DumpBBData` has the same steps. -/
def genExtraAndReturnName (regId : UInt64) (memSize : ℕ) (copied : Bool) (d : Dumper) :
    Dumper × Option String :=
  if memSize = 0 || !copied then (d, none)
  else
    let (d, lastLaunchId) := d.indexAt regId
    (d, some (extraMemFileName regId lastLaunchId))

def dumpMemory (launchId : UInt64) (copied : Bool) (l : Launch) (d : Dumper) : Dumper :=
  let (d, extra) := d.genExtraAndReturnName l.regId l.memSize copied
  d.setLaunch launchId { l with phase := .dumped, extra := extra }

/-- A launch takes a step only from the phase that the step is for. -/
def fromPhase (launchId : UInt64) (phase : Phase) (next : Launch → Dumper → Dumper) (d : Dumper) :
    Dumper :=
  match d.launches launchId with
  | some l => if l.phase = phase then next l d else d
  | none => d

end Dumper

/-- The next step of a launch, with how the calls in it end. -/
inductive Op
  | replace (launchId regId : UInt64) (outputPath : String) (task : Task) (memSize : ℕ)
  | save (launchId : UInt64)
  | copy (launchId : UInt64) (copied : Bool)
  | size (launchId : UInt64) (valid : Bool)
  | dump (launchId : UInt64) (copied : Bool)

def step (d : Dumper) : Op → Dumper
  | .replace launchId regId outputPath task memSize =>
    d.replace launchId regId outputPath task memSize
  | .save launchId => d.fromPhase launchId .replaced (Dumper.saveBlockMapFile launchId)
  | .copy launchId copied => d.fromPhase launchId .indexed (Dumper.copyBlockMap launchId copied)
  | .size launchId valid => d.fromPhase launchId .saved (Dumper.sizeMemory launchId valid)
  | .dump launchId copied => d.fromPhase launchId .sized (Dumper.dumpMemory launchId copied)

/-! ## Pairs -/

/-- The index of the last block map that was saved for a register id. -/
def Dumper.lastSaved (d : Dumper) (regId : UInt64) : Option UInt64 :=
  (d.saver regId).bind fun launchId => (d.launches launchId).bind Launch.index

/-- Each size is the size for the launch's own block map, each dump has the index of that block
map, and the launch count is the index of the last block map. -/
structure Paired (d : Dumper) : Prop where
  size : ∀ launchId l memSize, d.launches launchId = some l → l.answer = some memSize →
    memSize = l.ownMemSize
  dump : ∀ launchId l name, d.launches launchId = some l → l.extra = some name →
    ∃ index, l.index = some index ∧ name = extraMemFileName l.regId index
  count : ∀ regId, d.getLaunchCount regId = d.lastSaved regId

/-- The launch was the last of its register id to be given an index. -/
def Dumper.IsSaver (d : Dumper) (launchId : UInt64) (l : Launch) : Prop :=
  d.saver l.regId = some launchId

instance (d : Dumper) (launchId : UInt64) (l : Launch) : Decidable (d.IsSaver launchId l) :=
  inferInstanceAs (Decidable (d.saver l.regId = some launchId))

/-- Nothing is read for a launch without a block map: its register id has an index, and there is no
file with that index in its directory. -/
def Dumper.NothingToRead (d : Dumper) (l : Launch) : Prop :=
  l.dir.blockMap.isNone ∧
    (d.lastLaunchId l.regId).any fun index => (d.files (l.blockMapPath index)).isNone

instance (d : Dumper) (l : Launch) : Decidable (d.NothingToRead l) :=
  inferInstanceAs (Decidable (_ ∧ _))

def Dumper.CopyOk (d : Dumper) (copied : Bool) (l : Launch) : Prop :=
  copied ∧ l.index.all fun index => (d.files (l.blockMapPath index)).isNone

instance (d : Dumper) (copied : Bool) (l : Launch) : Decidable (d.CopyOk copied l) :=
  inferInstanceAs (Decidable (_ ∧ _))

def Dumper.SizeOk (d : Dumper) (launchId : UInt64) (valid : Bool) (l : Launch) : Prop :=
  if l.index.isSome then valid ∧ d.IsSaver launchId l else d.NothingToRead l

instance (d : Dumper) (launchId : UInt64) (valid : Bool) (l : Launch) :
    Decidable (d.SizeOk launchId valid l) :=
  inferInstanceAs (Decidable (if l.index.isSome then valid ∧ d.IsSaver launchId l
    else d.NothingToRead l))

def Dumper.DumpOk (d : Dumper) (launchId : UInt64) (copied : Bool) (l : Launch) : Prop :=
  l.memSize ≠ 0 → copied → d.IsSaver launchId l

instance (d : Dumper) (launchId : UInt64) (copied : Bool) (l : Launch) :
    Decidable (d.DumpOk launchId copied l) :=
  inferInstanceAs (Decidable (l.memSize ≠ 0 → copied → d.IsSaver launchId l))

def Dumper.AtPhase (launchId : UInt64) (phase : Phase) (P : Launch → Prop) (d : Dumper) : Prop :=
  ∀ l ∈ d.launches launchId, l.phase = phase → P l

instance (launchId : UInt64) (phase : Phase) (P : Launch → Prop) [DecidablePred P] (d : Dumper) :
    Decidable (d.AtPhase launchId phase P) :=
  inferInstanceAs (Decidable (∀ l ∈ d.launches launchId, l.phase = phase → P l))

/-- The block map is copied. When a launch asks for its size and when it dumps, no other launch of
its register id has saved since it saved; or it has no block map, and there is nothing that could be
read in its place. -/
def Checked (d : Dumper) : Op → Prop
  | .replace .. => True
  | .save _ => True
  | .copy launchId copied => d.AtPhase launchId .indexed (d.CopyOk copied)
  | .size launchId valid => d.AtPhase launchId .saved (d.SizeOk launchId valid)
  | .dump launchId copied => d.AtPhase launchId .sized (d.DumpOk launchId copied)

instance : DecidableRel Checked
  | _, .replace .. => isTrue trivial
  | _, .save _ => isTrue trivial
  | d, .copy launchId copied =>
    inferInstanceAs (Decidable (d.AtPhase launchId .indexed (d.CopyOk copied)))
  | d, .size launchId valid =>
    inferInstanceAs (Decidable (d.AtPhase launchId .saved (d.SizeOk launchId valid)))
  | d, .dump launchId copied =>
    inferInstanceAs (Decidable (d.AtPhase launchId .sized (d.DumpOk launchId copied)))

/-! ## What every step keeps -/

/-- A block map that has been copied stays in its file. -/
structure Launch.Good (files : String → Option BlockMap) (l : Launch) : Prop where
  fresh : l.phase = .replaced → l.index = none
  file : ∀ index, l.index = some index → ∃ file, l.dir.blockMap = some file ∧
    (l.phase ≠ .indexed → files (l.blockMapPath index) = some file)
  size : ∀ memSize, l.answer = some memSize → memSize = l.ownMemSize
  dump : ∀ name, l.extra = some name →
    ∃ index, l.index = some index ∧ name = extraMemFileName l.regId index

/-- The map of the indices has what the last saver of each register id was given, and nothing
else. -/
structure Inv (d : Dumper) : Prop where
  launches : ∀ launchId l, d.launches launchId = some l → l.Good d.files
  unsaved : ∀ regId, d.saver regId = none → d.lastLaunchId regId = none
  saved : ∀ regId launchId, d.saver regId = some launchId →
    ∃ l index, d.launches launchId = some l ∧ l.regId = regId ∧ l.index = some index ∧
      d.lastLaunchId regId = some index

variable {d : Dumper} {launchId : UInt64} {l l' : Launch}

theorem Inv.paired (h : Inv d) : Paired d where
  size launchId l memSize hl := (h.launches launchId l hl).size memSize
  dump launchId l name hl := (h.launches launchId l hl).dump name
  count regId := by
    cases hsaver : d.saver regId with
    | none => simp [Dumper.getLaunchCount, Dumper.lastSaved, hsaver, h.unsaved regId hsaver]
    | some launchId =>
      obtain ⟨l, index, hl, -, hindex, hlast⟩ := h.saved regId launchId hsaver
      simp [Dumper.getLaunchCount, Dumper.lastSaved, hsaver, hl, hindex, hlast]

theorem Inv.index_of_isSaver (h : Inv d) (hl : d.launches launchId = some l)
    (hsaver : d.IsSaver launchId l) :
    ∃ index, l.index = some index ∧ d.lastLaunchId l.regId = some index := by
  obtain ⟨l', index, hl', -, hindex, hlast⟩ := h.saved l.regId launchId hsaver
  obtain rfl : l = l' := by simpa [hl] using hl'
  exact ⟨index, hindex, hlast⟩

/-- A launch may change in all but its register id and its index. -/
theorem Inv.setLaunch (h : Inv d) (hgood : l'.Good d.files)
    (hsame : ∀ l, d.launches launchId = some l → l'.regId = l.regId ∧ l'.index = l.index) :
    Inv (d.setLaunch launchId l') where
  launches id l hl := by
    by_cases hid : id = launchId
    · subst hid
      have hll : l' = l := by simpa [Dumper.setLaunch] using hl
      exact hll ▸ hgood
    · exact h.launches id l (by simpa [Dumper.setLaunch, hid] using hl)
  unsaved := h.unsaved
  saved regId id hsaver := by
    obtain ⟨l, index, hl, hreg, hindex, hlast⟩ := h.saved regId id hsaver
    by_cases hid : id = launchId
    · subst hid
      have hll := hsame l hl
      exact ⟨l', index, by simp [Dumper.setLaunch], hll.1.trans hreg, hll.2.trans hindex, hlast⟩
    · exact ⟨l, index, by simpa [Dumper.setLaunch, hid] using hl, hreg, hindex, hlast⟩

theorem Inv.setLaunch_of (h : Inv d) (hl : d.launches launchId = some l)
    (hgood : l'.Good d.files) (hreg : l'.regId = l.regId) (hindex : l'.index = l.index) :
    Inv (d.setLaunch launchId l') :=
  h.setLaunch hgood fun l₀ hl₀ => by
    obtain rfl : l = l₀ := by simpa [hl] using hl₀
    exact ⟨hreg, hindex⟩

theorem Launch.Good.setFile {files : String → Option BlockMap} {path : String} (file : BlockMap)
    (hnone : files path = none) (h : l.Good files) :
    l.Good (Function.update files path (some file)) where
  fresh := h.fresh
  file index hindex := by
    obtain ⟨own, hown, hfile⟩ := h.file index hindex
    refine ⟨own, hown, fun hphase => ?_⟩
    have hpath : l.blockMapPath index ≠ path := by
      intro heq
      have := hfile hphase
      rw [heq, hnone] at this
      cases this
    rw [Function.update_of_ne hpath]
    exact hfile hphase
  size := h.size
  dump := h.dump

theorem Inv.setFile {path : String} (file : BlockMap) (h : Inv d) (hnone : d.files path = none) :
    Inv (d.setFile path file) where
  launches id l hl := (h.launches id l hl).setFile file hnone
  unsaved := h.unsaved
  saved := h.saved

/-- A launch without an index becomes the last saver of its register id. -/
theorem Inv.giveIndex (h : Inv d) (hl : d.launches launchId = some l) (hnone : l.index = none)
    (index : UInt64) (hgood : l'.Good d.files) (hreg : l'.regId = l.regId)
    (hindex : l'.index = some index) :
    Inv (((d.setIndex l.regId index).setSaver l.regId launchId).setLaunch launchId l') where
  launches id l₀ hl₀ := by
    by_cases hid : id = launchId
    · subst hid
      have hll : l' = l₀ := by simpa [Dumper.setLaunch] using hl₀
      exact hll ▸ hgood
    · refine h.launches id l₀ ?_
      simpa [Dumper.setLaunch, Dumper.setSaver, Dumper.setIndex, hid] using hl₀
  unsaved regId hsaver := by
    by_cases hr : regId = l.regId
    · subst hr
      simp [Dumper.setLaunch, Dumper.setSaver] at hsaver
    · simp only [Dumper.setLaunch, Dumper.setSaver, Dumper.setIndex,
        Function.update_of_ne hr] at hsaver ⊢
      exact h.unsaved regId hsaver
  saved regId id hsaver := by
    by_cases hr : regId = l.regId
    · subst hr
      obtain rfl : launchId = id := by
        simpa [Dumper.setLaunch, Dumper.setSaver] using hsaver
      exact ⟨l', index, by simp [Dumper.setLaunch], hreg, hindex,
        by simp [Dumper.setLaunch, Dumper.setSaver, Dumper.setIndex]⟩
    · simp only [Dumper.setLaunch, Dumper.setSaver, Dumper.setIndex,
        Function.update_of_ne hr] at hsaver ⊢
      obtain ⟨l₀, index₀, hl₀, hreg₀, hindex₀, hlast₀⟩ := h.saved regId id hsaver
      have hid : id ≠ launchId := by
        rintro rfl
        obtain rfl : l = l₀ := by simpa [hl] using hl₀
        rw [hnone] at hindex₀
        cases hindex₀
      exact ⟨l₀, index₀, by rwa [Function.update_of_ne hid], hreg₀, hindex₀, hlast₀⟩

theorem Inv.replace (h : Inv d) (regId : UInt64) (outputPath : String) (task : Task)
    (memSize : ℕ) : Inv (d.replace launchId regId outputPath task memSize) := by
  cases hl : d.launches launchId with
  | some l => simpa [Dumper.replace, hl] using h
  | none =>
    simp only [Dumper.replace, hl]
    apply h.setLaunch
    · constructor <;> simp
    · simp [hl]

theorem Inv.saveBlockMapFile (h : Inv d) (hl : d.launches launchId = some l)
    (hphase : l.phase = .replaced) : Inv (d.saveBlockMapFile launchId l) := by
  have hgood := h.launches launchId l hl
  have hindex : l.index = none := hgood.fresh hphase
  unfold Dumper.saveBlockMapFile
  split
  case isTrue =>
    refine h.setLaunch_of hl ?_ rfl rfl
    exact ⟨by simp, by simp [hindex], hgood.size, hgood.dump⟩
  case isFalse hdir =>
    have hmap : ∃ file, l.dir.blockMap = some file := by
      cases hfile : l.dir.blockMap with
      | none => simp [hfile] at hdir
      | some file => exact ⟨file, rfl⟩
    refine h.giveIndex hl hindex _ ?_ rfl rfl
    obtain ⟨file, hfile⟩ := hmap
    refine ⟨by simp, fun index _ => ⟨file, hfile, by simp⟩, hgood.size, fun name hname => ?_⟩
    obtain ⟨index, hsome, -⟩ := hgood.dump name hname
    rw [hindex] at hsome
    cases hsome

theorem Inv.copyBlockMap (h : Inv d) (hl : d.launches launchId = some l) {copied : Bool}
    (hok : d.CopyOk copied l) : Inv (d.copyBlockMap launchId copied l) := by
  have hgood := h.launches launchId l hl
  unfold Dumper.copyBlockMap
  split
  case h_2 => exact h
  case h_1 index file hindex hfile =>
    have hnone : d.files (l.blockMapPath index) = none := by simpa [hindex] using hok.2
    rw [if_pos (by simp [hok.1, hnone])]
    have hnext : Inv (d.setFile (l.blockMapPath index) file) := h.setFile file hnone
    refine hnext.setLaunch_of hl ⟨by simp, fun index' hindex' => ?_, hgood.size, hgood.dump⟩ rfl rfl
    obtain rfl : index = index' := by simpa [hindex] using hindex'
    refine ⟨file, hfile, fun _ => ?_⟩
    exact Function.update_self (l.blockMapPath index) (some file) d.files

theorem Dumper.indexAt_of_some {regId index : UInt64} (h : d.lastLaunchId regId = some index) :
    d.indexAt regId = (d, index) := by
  simp [Dumper.indexAt, h]

/-- A launch that reads its own file, or none, is told the size for its own block map. -/
theorem Inv.getMemSize (h : Inv d) (hl : d.launches launchId = some l) (hphase : l.phase = .saved)
    {valid : Bool} (hok : d.SizeOk launchId valid l) :
    d.getMemSize l.regId l.outDir valid = (d, l.ownMemSize) := by
  unfold Dumper.SizeOk at hok
  split at hok
  case isTrue =>
    obtain ⟨index, hindex, hlast⟩ := h.index_of_isSaver hl hok.2
    obtain ⟨file, hown, hfile⟩ := (h.launches launchId l hl).file index hindex
    have hread : d.files (BBCountDumper.blockMapPath l.outDir l.regId index) = some file :=
      hfile (by simp [hphase])
    simp [Dumper.getMemSize, Dumper.indexAt_of_some hlast, hread, Launch.ownMemSize, hown, hok.1]
  case isFalse =>
    obtain ⟨hmap, hfile⟩ := hok
    obtain ⟨index, hlast, hread⟩ : ∃ index, d.lastLaunchId l.regId = some index ∧
        d.files (BBCountDumper.blockMapPath l.outDir l.regId index) = none := by
      cases hlast : d.lastLaunchId l.regId with
      | none => simp [hlast] at hfile
      | some index => exact ⟨index, rfl, by simpa [hlast, Launch.blockMapPath] using hfile⟩
    have hmap : l.dir.blockMap = none := by simpa using hmap
    simp [Dumper.getMemSize, Dumper.indexAt_of_some hlast, hread, Launch.ownMemSize, hmap]

theorem Inv.sizeMemory (h : Inv d) (hl : d.launches launchId = some l) (hphase : l.phase = .saved)
    {valid : Bool} (hok : d.SizeOk launchId valid l) : Inv (d.sizeMemory launchId valid l) := by
  have hgood := h.launches launchId l hl
  simp only [Dumper.sizeMemory, h.getMemSize hl hphase hok]
  refine h.setLaunch_of hl ⟨by simp, fun index hindex => ?_, ?_, hgood.dump⟩ rfl rfl
  · obtain ⟨file, hown, hfile⟩ := hgood.file index hindex
    exact ⟨file, hown, fun _ => hfile (by simp [hphase])⟩
  · intro memSize hmemSize
    exact (Option.some.inj hmemSize).symm

/-- A launch that dumps while it is the last saver gives the dump its own index. -/
theorem Inv.genExtraAndReturnName (h : Inv d) (hl : d.launches launchId = some l) {copied : Bool}
    (hok : d.DumpOk launchId copied l) :
    ∃ extra, d.genExtraAndReturnName l.regId l.memSize copied = (d, extra) ∧
      ∀ name, extra = some name →
        ∃ index, l.index = some index ∧ name = extraMemFileName l.regId index := by
  unfold Dumper.genExtraAndReturnName
  split
  case isTrue => exact ⟨none, rfl, by simp⟩
  case isFalse hdump =>
    simp only [Bool.or_eq_true, decide_eq_true_eq, Bool.not_eq_true', not_or,
      Bool.not_eq_false] at hdump
    obtain ⟨index, hindex, hlast⟩ := h.index_of_isSaver hl (hok hdump.1 hdump.2)
    refine ⟨some (extraMemFileName l.regId index), ?_, fun name hname => ⟨index, hindex, ?_⟩⟩
    · simp only [Dumper.indexAt_of_some hlast]
    · exact (Option.some.inj hname).symm

theorem Inv.dumpMemory (h : Inv d) (hl : d.launches launchId = some l) (hphase : l.phase = .sized)
    {copied : Bool} (hok : d.DumpOk launchId copied l) :
    Inv (d.dumpMemory launchId copied l) := by
  have hgood := h.launches launchId l hl
  obtain ⟨extra, hextra, hname⟩ := h.genExtraAndReturnName hl hok
  simp only [Dumper.dumpMemory, hextra]
  refine h.setLaunch_of hl ⟨by simp, fun index hindex => ?_, hgood.size, hname⟩ rfl rfl
  obtain ⟨file, hown, hfile⟩ := hgood.file index hindex
  exact ⟨file, hown, fun _ => hfile (by simp [hphase])⟩

theorem Inv.fromPhase (h : Inv d) {phase : Phase} {next : Launch → Dumper → Dumper}
    (hnext : ∀ l, d.launches launchId = some l → l.phase = phase → Inv (next l d)) :
    Inv (d.fromPhase launchId phase next) := by
  unfold Dumper.fromPhase
  split
  case h_2 => exact h
  case h_1 l hl =>
    split
    case isTrue hphase => exact hnext l hl hphase
    case isFalse => exact h

theorem Inv.step (h : Inv d) (op : Op) (hop : Checked d op) : Inv (step d op) := by
  cases op with
  | replace launchId regId outputPath task memSize =>
    exact h.replace regId outputPath task memSize
  | save launchId => exact h.fromPhase fun l hl hphase => h.saveBlockMapFile hl hphase
  | copy launchId copied =>
    exact h.fromPhase fun l hl hphase => h.copyBlockMap hl (hop l hl hphase)
  | size launchId valid =>
    exact h.fromPhase fun l hl hphase => h.sizeMemory hl hphase (hop l hl hphase)
  | dump launchId copied =>
    exact h.fromPhase fun l hl hphase => h.dumpMemory hl hphase (hop l hl hphase)

/-- Nothing has been launched; any files may be there from before. -/
def Dumper.init (outputDir : String) (files : String → Option BlockMap) : Dumper :=
  { outputDir, files }

theorem inv_init (outputDir : String) (files : String → Option BlockMap) :
    Inv (Dumper.init outputDir files) where
  launches := by simp [Dumper.init]
  unsaved _ _ := rfl
  saved := by simp [Dumper.init]

/-- In a run whose steps are all checked, sizes, dumps and launch counts go with the block maps in
every state. -/
theorem paired_of_checked (outputDir : String) (files : String → Option BlockMap) (ops : List Op)
    (hrun : Guarded step Checked (Dumper.init outputDir files) ops) (n : ℕ) :
    Paired ((ops.take n).foldl step (Dumper.init outputDir files)) := by
  have hinv := (hrun.take n).invariant (fun d op h hop => h.step op hop) (inv_init outputDir files)
  exact hinv.paired

/-- A launch of a kernel that is instrumented, and one that finds it instrumented. -/
def freshThenCached : List Op :=
  [.replace 1 7 "" (.fresh { blockMap := some bbbIdStr }) 0, .save 1, .copy 1 true, .size 1 true,
    .dump 1 true, .replace 2 7 "" (.cached 1) 0, .save 2, .copy 2 true, .size 2 true, .dump 2 true]

theorem paired_freshThenCached :
    Paired ((freshThenCached.take 10).foldl step (Dumper.init "out" fun _ => none)) :=
  paired_of_checked "out" (fun _ => none) freshThenCached (by decide +kernel) 10

/-- Two launches save, and the first then reads the block map of the second. -/
def saveSaveSize : List Op :=
  [.replace 1 7 "" (.fresh { blockMap := some bbbIdStr }) 0,
    .replace 2 7 "" (.fresh { blockMap := some [] }) 0, .save 1, .copy 1 true, .save 2,
    .copy 2 true, .size 1 true]

theorem not_paired_saveSaveSize :
    ¬ Paired (saveSaveSize.foldl step (Dumper.init "out" fun _ => none)) := by
  intro h
  have hsize := h.size 1
    { regId := 7, outDir := "out", dir := { blockMap := some bbbIdStr }, phase := .sized
      index := some 0, answer := some 0, memSize := 0 } 0 (by rfl) rfl
  exact absurd hsize (by decide)

end Msopcom.BBCountDumper
