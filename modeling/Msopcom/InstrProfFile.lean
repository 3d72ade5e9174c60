import Msopcom.ProfTask
import Msopcom.Bytes
import Msopcom.Runs

set_option autoImplicit false

/-!
# The files of the instruction profiling

The thread that reads the channels appends a head and a whole buffer for each read, and goes on
to the next file when the size that it has counted leaves no room.
-/
namespace Msopcom.InstrProfFile
open Bytes ProfTask Runs

def profChannelBufferSize : ℕ := 1024 * 1024 * 2

def maxBinFileSize : ℕ := 1024 * 1024 * 1024

/-- A buffer of the size that a channel is read with. -/
abbrev Buffer := { bytes : List UInt8 // bytes.length = profChannelBufferSize }

structure InstrProfHeadInfo where
  coreId : UInt16 := 0
  coreType : UInt16 := 0
  validLen : UInt32 := 0

def InstrProfHeadInfo.bytes (head : InstrProfHeadInfo) : List UInt8 :=
  leBytes 2 head.coreId.toNat ++ leBytes 2 head.coreType.toNat ++ leBytes 4 head.validLen.toNat

def instrProfHeadSize : ℕ := 8

/-- What becomes of an append: a stream that fails has not taken all of the bytes, and one that is
closed may lose some that it has taken. -/
inductive WriteOutcome
  | written
  | failed (taken : ℕ)
  | lost (kept : ℕ)
  deriving DecidableEq, Repr

/-- `WriteBinary` does not answer 0. -/
def WriteOutcome.ok : WriteOutcome → Bool
  | .failed _ => false
  | _ => true

def WriteOutcome.appended (length : ℕ) : WriteOutcome → ℕ
  | .written => length
  | .failed taken => min taken (length - 1)
  | .lost kept => min kept length

/-- One read of a channel, with the path that its device has and how the appends for it end. -/
structure ChannelRead where
  channelId : UInt32
  dumpPath : String
  curLen : Int32
  outBuf : Buffer
  headWrite : WriteOutcome := .written
  dataWrite : WriteOutcome := .written

/-- `instrProfChn_` has three channels for each of the six groups. -/
def ChannelRead.isInstr (r : ChannelRead) : Bool := 11 ≤ r.channelId && r.channelId ≤ 28

def ChannelRead.head (r : ChannelRead) : InstrProfHeadInfo where
  coreId := ((r.channelId - 11) / 3).toUInt16
  coreType := ((r.channelId - 11) % 3).toUInt16
  validLen := r.curLen.toUInt32

/-- The files, what `InstrChnReadCtrl` counts, and the state of the task. `older` is what the files
were when the size was last set to 0, and `reads` are all reads so far. -/
structure Files where
  content : String → List UInt8 := fun _ => []
  splitFileNum : UInt32 := 0
  instrProfReadSize : UInt32 := 0
  instrProfState : InstrProfState := .idle
  older : String → List UInt8 := fun _ => []
  reads : List ChannelRead := []

namespace Files

def resetSize (f : Files) : Files := { f with instrProfReadSize := 0, older := f.content }

def append (binFile : String) (bytes : List UInt8) (f : Files) : Files :=
  { f with content := Function.update f.content binFile (f.content binFile ++ bytes) }

def addSize (size : ℕ) (f : Files) : Files :=
  { f with instrProfReadSize := f.instrProfReadSize + UInt32.ofNat size }

/-- A file is at most 1 GiB. -/
def splitFile (f : Files) : Files :=
  if f.instrProfReadSize.toNat > maxBinFileSize - instrProfHeadSize - profChannelBufferSize then
    { f.resetSize with splitFileNum := f.splitFileNum + 1 }
  else f

def binName (f : Files) : Option String :=
  match f.instrProfState with
  | .pcSampling => some ("pcSampling.bin." ++ toString f.splitFileNum)
  | .timeline => some ("timeline.bin." ++ toString f.splitFileNum)
  | _ => none

def joinPath (prefixName binName : String) : String := prefixName ++ "/" ++ binName

/-- The head, and the data if the head was written. -/
def writeRecord (binFile : String) (r : ChannelRead) (f : Files) : Files :=
  let f := f.append binFile (r.head.bytes.take (r.headWrite.appended instrProfHeadSize))
  if !r.headWrite.ok then f
  else
    let f := (f.addSize instrProfHeadSize).append binFile
      (r.outBuf.val.take (r.dataWrite.appended profChannelBufferSize))
    if !r.dataWrite.ok then f else f.addSize profChannelBufferSize

def writeInstrChannelData (r : ChannelRead) (f : Files) : Files :=
  if !r.isInstr then f
  else
    let f := f.splitFile
    match f.binName with
    | none => f
    | some binName => f.writeRecord (joinPath r.dumpPath binName) r

def noteRead (r : ChannelRead) (f : Files) : Files := { f with reads := f.reads ++ [r] }

/-- What a read of a channel does to these files; other channels have other files. -/
def channelRead (r : ChannelRead) (f : Files) : Files :=
  let f := f.noteRead r
  if r.dumpPath.isEmpty then f else f.writeInstrChannelData r

end Files

/-- A new call of `ChannelRead` starts to count anew; `Start` and `Stop` change the state. -/
inductive Op
  | call
  | setState (instrProfState : InstrProfState)
  | read (r : ChannelRead)

def step (f : Files) : Op → Files
  | .call => { f.resetSize with splitFileNum := 0 }
  | .setState instrProfState => { f with instrProfState }
  | .read r => f.channelRead r

/-! ## Files of whole records -/

def record (r : ChannelRead) : List UInt8 := r.head.bytes ++ r.outBuf.val

/-- Each file is records of reads that have returned bytes, and not too large. -/
structure Framed (f : Files) : Prop where
  records : ∀ binFile, ∃ reads : List ChannelRead, reads.Sublist f.reads ∧
    f.content binFile = reads.flatMap record ∧ ∀ r ∈ reads, 0 < r.curLen
  size : ∀ binFile, (f.content binFile).length ≤ maxBinFileSize

/-- Where the record of a read goes, if it goes anywhere. -/
def target (f : Files) (r : ChannelRead) : Option String :=
  if r.dumpPath.isEmpty || !r.isInstr then none
  else f.splitFile.binName.map (Files.joinPath r.dumpPath)

def ChannelRead.AppendsNothing (r : ChannelRead) : Prop :=
  r.headWrite.appended instrProfHeadSize = 0 ∧
    (r.headWrite.ok = true → r.dataWrite.appended profChannelBufferSize = 0)

def ChannelRead.AppendsAll (r : ChannelRead) : Prop :=
  r.headWrite.appended instrProfHeadSize = instrProfHeadSize ∧
    r.dataWrite.appended profChannelBufferSize = profChannelBufferSize

def recordSize : ℕ := instrProfHeadSize + profChannelBufferSize

/-- A record is appended whole or not at all, and only for a read that has returned bytes. A file
that is older than the count has room for it. -/
def Checked (f : Files) : Op → Prop
  | .read r => ∀ binFile, target f r = some binFile → r.AppendsNothing ∨
    (r.AppendsAll ∧ 0 < r.curLen ∧ (f.splitFile.older binFile ≠ [] →
      (f.content binFile).length + recordSize ≤ maxBinFileSize))
  | _ => True

/-! ## One record -/

variable {r : ChannelRead} {f : Files}

theorem length_head (head : InstrProfHeadInfo) : head.bytes.length = instrProfHeadSize := by
  unfold InstrProfHeadInfo.bytes
  simp only [List.length_append, length_leBytes]
  rfl

theorem length_record (r : ChannelRead) : (record r).length = recordSize := by
  rw [record, List.length_append, length_head, r.outBuf.property, recordSize]

theorem length_records (reads : List ChannelRead) :
    (reads.flatMap record).length = reads.length * recordSize := by
  induction reads with
  | nil => simp
  | cons r reads ih =>
    rw [List.flatMap_cons, List.length_append, length_record, ih, List.length_cons,
      Nat.add_one_mul, Nat.add_comm]

theorem appended_le (outcome : WriteOutcome) (length : ℕ) : outcome.appended length ≤ length := by
  cases outcome with
  | written => exact Nat.le_refl length
  | failed taken => exact Nat.le_trans (Nat.min_le_right _ _) (Nat.sub_le _ _)
  | lost kept => exact Nat.min_le_right _ _

/-- A stream that has taken all of the bytes has not failed. -/
theorem ok_of_appended {outcome : WriteOutcome} {length : ℕ} (hpos : 0 < length)
    (h : outcome.appended length = length) : outcome.ok = true := by
  cases outcome with
  | written => rfl
  | failed taken =>
    have hless : min taken (length - 1) = length := h
    omega
  | lost kept => rfl

/-- The bytes that a read appends. -/
def ChannelRead.appended (r : ChannelRead) : List UInt8 :=
  r.head.bytes.take (r.headWrite.appended instrProfHeadSize) ++
    if r.headWrite.ok then r.outBuf.val.take (r.dataWrite.appended profChannelBufferSize) else []

/-- What the count goes up by. -/
def ChannelRead.counted (r : ChannelRead) : ℕ :=
  if r.headWrite.ok then
    instrProfHeadSize + if r.dataWrite.ok then profChannelBufferSize else 0
  else 0

theorem length_appended (r : ChannelRead) : r.appended.length =
    r.headWrite.appended instrProfHeadSize +
      if r.headWrite.ok then r.dataWrite.appended profChannelBufferSize else 0 := by
  have hhead := appended_le r.headWrite instrProfHeadSize
  have hdata := appended_le r.dataWrite profChannelBufferSize
  unfold ChannelRead.appended
  rw [List.length_append, List.length_take, length_head, Nat.min_eq_left hhead]
  split_ifs
  · rw [List.length_take, r.outBuf.property, Nat.min_eq_left hdata]
  · rfl

theorem length_appended_le (r : ChannelRead) : r.appended.length ≤ recordSize := by
  have hhead := appended_le r.headWrite instrProfHeadSize
  have hdata := appended_le r.dataWrite profChannelBufferSize
  rw [length_appended, recordSize]
  split_ifs <;> omega

theorem appendsNothing_iff : r.AppendsNothing ↔ r.appended.length = 0 := by
  rw [length_appended, ChannelRead.AppendsNothing, Nat.add_eq_zero_iff]
  cases r.headWrite.ok <;> simp

theorem appendsAll_iff : r.AppendsAll ↔ r.appended.length = recordSize := by
  have hhead := appended_le r.headWrite instrProfHeadSize
  have hdata := appended_le r.dataWrite profChannelBufferSize
  have hpos : 0 < instrProfHeadSize ∧ 0 < profChannelBufferSize := by decide
  rw [length_appended, ChannelRead.AppendsAll, recordSize]
  constructor
  · intro hall
    rw [if_pos (ok_of_appended hpos.1 hall.1), hall.1, hall.2]
  · intro hlength
    split_ifs at hlength <;> omega

theorem appended_of_all (h : r.AppendsAll) : r.appended = record r := by
  have hpos : 0 < instrProfHeadSize := by decide
  unfold ChannelRead.appended record
  rw [if_pos (ok_of_appended hpos h.1), h.1, h.2,
    List.take_of_length_le (Nat.le_of_eq (length_head r.head)),
    List.take_of_length_le (Nat.le_of_eq r.outBuf.property)]

theorem counted_of_all (h : r.AppendsAll) : r.counted = recordSize := by
  have hpos : 0 < instrProfHeadSize ∧ 0 < profChannelBufferSize := by decide
  unfold ChannelRead.counted
  rw [if_pos (ok_of_appended hpos.1 h.1), if_pos (ok_of_appended hpos.2 h.2)]
  rfl

theorem counted_le (r : ChannelRead) : r.counted ≤ recordSize := by
  unfold ChannelRead.counted recordSize
  split_ifs <;> omega

/-- A head says how many bytes its read has returned. -/
theorem curLen_eq {r r' : ChannelRead} (h : record r = record r') : r.curLen = r'.curLen := by
  have hhead : r.head.bytes = r'.head.bytes :=
    (List.append_inj h (by rw [length_head, length_head])).1
  have hlen : r.head.validLen = r'.head.validLen := by
    unfold InstrProfHeadInfo.bytes at hhead
    have hvalid := (List.append_inj' hhead (by rw [length_leBytes, length_leBytes])).2
    have hnat := congrArg leNat hvalid
    rw [leNat_leBytes r.head.validLen.toNat_lt, leNat_leBytes r'.head.validLen.toNat_lt] at hnat
    exact UInt32.toNat_inj.mp hnat
  calc r.curLen = r.curLen.toUInt32.toInt32 := (Int32.toInt32_toUInt32 _).symm
    _ = r'.curLen.toUInt32.toInt32 := congrArg UInt32.toInt32 hlen
    _ = r'.curLen := Int32.toInt32_toUInt32 _

/-! ## One step -/

theorem writeRecord_eq (binFile : String) (r : ChannelRead) (f : Files) :
    f.writeRecord binFile r =
      { f with
        content := Function.update f.content binFile (f.content binFile ++ r.appended)
        instrProfReadSize := f.instrProfReadSize + UInt32.ofNat r.counted } := by
  unfold Files.writeRecord ChannelRead.appended ChannelRead.counted Files.append Files.addSize
  cases r.headWrite.ok with
  | false => simp
  | true => cases r.dataWrite.ok <;> simp [UInt32.add_assoc]

@[simp] theorem content_splitFile (f : Files) : f.splitFile.content = f.content := by
  unfold Files.splitFile
  split_ifs <;> rfl

@[simp] theorem reads_splitFile (f : Files) : f.splitFile.reads = f.reads := by
  unfold Files.splitFile
  split_ifs <;> rfl

theorem splitFile_noteRead (r : ChannelRead) (f : Files) :
    (f.noteRead r).splitFile = f.splitFile.noteRead r := by
  unfold Files.splitFile Files.noteRead
  split_ifs <;> rfl

/-- A read that has no file leaves the files, and one that has a file appends to it. -/
theorem channelRead_cases (r : ChannelRead) (f : Files) :
    (target f r = none ∧ (f.channelRead r = f.noteRead r ∨
      f.channelRead r = f.splitFile.noteRead r)) ∨
    ∃ binFile, target f r = some binFile ∧
      f.channelRead r = (f.splitFile.noteRead r).writeRecord binFile r := by
  unfold Files.channelRead Files.writeInstrChannelData target
  dsimp only
  rw [splitFile_noteRead]
  have hname : (f.splitFile.noteRead r).binName = f.splitFile.binName := rfl
  cases hpath : r.dumpPath.isEmpty with
  | true => exact Or.inl ⟨rfl, Or.inl rfl⟩
  | false =>
    cases hinstr : r.isInstr with
    | false => exact Or.inl ⟨rfl, Or.inl rfl⟩
    | true =>
      rw [hname]
      cases hbin : f.splitFile.binName with
      | none => exact Or.inl ⟨rfl, Or.inr rfl⟩
      | some binName => exact Or.inr ⟨_, rfl, rfl⟩

theorem framed_of_content {g : Files} (h : Framed f) (hcontent : g.content = f.content)
    (hreads : f.reads.Sublist g.reads) : Framed g where
  records := by
    intro binFile
    obtain ⟨reads, hsub, hrecords, hpos⟩ := h.records binFile
    exact ⟨reads, hsub.trans hreads, hcontent ▸ hrecords, hpos⟩
  size := fun binFile => hcontent ▸ h.size binFile

/-- What is behind whole records and leaves whole records is a whole record or nothing. -/
theorem length_eq_or {size old new added : ℕ} (hle : added ≤ size)
    (h : old * size + added = new * size) : added = 0 ∨ added = size := by
  by_cases hless : new ≤ old
  · have hmul := Nat.mul_le_mul_right size hless
    omega
  · by_cases hone : new = old + 1
    · rw [hone, Nat.add_one_mul] at h
      omega
    · have hmul : (old + 1 + 1) * size ≤ new * size := Nat.mul_le_mul_right size (by omega)
      rw [Nat.add_one_mul, Nat.add_one_mul] at hmul
      omega

theorem last_record {bytes : List UInt8} {reads : List ChannelRead}
    (h : bytes ++ record r = reads.flatMap record) : ∃ last ∈ reads, record r = record last := by
  cases reads using List.reverseRecOn with
  | nil =>
    have hlength := congrArg List.length h
    rw [List.length_append, length_record] at hlength
    have hpos : 0 < recordSize := by decide
    simp at hlength
    omega
  | append_singleton reads last =>
    refine ⟨last, List.mem_append_right _ (List.mem_singleton_self last), ?_⟩
    rw [List.flatMap_append, List.flatMap_singleton] at h
    exact (List.append_inj' h (by rw [length_record, length_record])).2

/-- A file of whole records is one again if a whole record is appended, or nothing. -/
theorem framed_append_iff {g : Files} (h : Framed f) {binFile : String}
    (hcontent : g.content = Function.update f.content binFile (f.content binFile ++ r.appended))
    (hreads : g.reads = f.reads ++ [r]) :
    Framed g ↔ r.AppendsNothing ∨ (r.AppendsAll ∧ 0 < r.curLen ∧
      (f.content binFile).length + recordSize ≤ maxBinFileSize) := by
  obtain ⟨old, hold, hrecords, hpos⟩ := h.records binFile
  have hlength := congrArg List.length hrecords
  rw [length_records] at hlength
  have hsame : g.content binFile = f.content binFile ++ r.appended := by
    rw [hcontent, Function.update_self]
  constructor
  · intro hg
    obtain ⟨new, _, hnew, hnewPos⟩ := hg.records binFile
    have hnewLength := congrArg List.length hnew
    rw [length_records, hsame, List.length_append, hlength] at hnewLength
    obtain hzero | hall := length_eq_or (length_appended_le r) hnewLength
    · exact Or.inl (appendsNothing_iff.mpr hzero)
    · have hwhole := appendsAll_iff.mpr hall
      rw [hsame, appended_of_all hwhole] at hnew
      refine Or.inr ⟨hwhole, ?_, ?_⟩
      · obtain ⟨last, hlast, heq⟩ := last_record hnew
        rw [curLen_eq heq]
        exact hnewPos last hlast
      · have hsize := hg.size binFile
        rw [hsame, List.length_append, hall] at hsize
        exact hsize
  · rintro (hnothing | ⟨hall, hcurLen, hroom⟩)
    · have hnil : r.appended = [] := List.length_eq_zero_iff.mp (appendsNothing_iff.mp hnothing)
      rw [hnil, List.append_nil, Function.update_eq_self] at hcontent
      exact framed_of_content h hcontent (hreads ▸ List.sublist_append_left _ _)
    · have hsub : (old ++ [r]).Sublist g.reads := hreads ▸ hold.append (List.Sublist.refl [r])
      constructor
      · intro file
        by_cases hfile : file = binFile
        · refine ⟨old ++ [r], hsub, ?_, ?_⟩
          · rw [hfile, hsame, appended_of_all hall, hrecords, List.flatMap_append,
              List.flatMap_singleton]
          · intro read hread
            obtain hread | hread := List.mem_append.mp hread
            · exact hpos read hread
            · rw [List.mem_singleton.mp hread]
              exact hcurLen
        · obtain ⟨reads, hreadsSub, hfileRecords, hfilePos⟩ := h.records file
          refine ⟨reads, hreads ▸ hreadsSub.trans (List.sublist_append_left _ _), ?_, hfilePos⟩
          rw [hcontent, Function.update_of_ne hfile, hfileRecords]
      · intro file
        by_cases hfile : file = binFile
        · rw [hfile, hsame, List.length_append, appendsAll_iff.mp hall]
          exact hroom
        · rw [hcontent, Function.update_of_ne hfile]
          exact h.size file

theorem framed_write_iff (h : Framed f) (binFile : String) (r : ChannelRead) :
    Framed ((f.splitFile.noteRead r).writeRecord binFile r) ↔
      r.AppendsNothing ∨ (r.AppendsAll ∧ 0 < r.curLen ∧
        (f.content binFile).length + recordSize ≤ maxBinFileSize) := by
  rw [writeRecord_eq]
  refine framed_append_iff h ?_ ?_
  · rw [← content_splitFile f]
    rfl
  · rw [← reads_splitFile f]
    rfl

/-! ## The count -/

/-- What a file has got since the size was set to 0 is counted. -/
structure Counts (f : Files) : Prop where
  content : ∀ binFile, f.older binFile = [] →
    (f.content binFile).length ≤ f.instrProfReadSize.toNat
  size : f.instrProfReadSize.toNat ≤ maxBinFileSize

theorem counts_resetSize (f : Files) : Counts f.resetSize where
  content := fun binFile hnew => by
    have hnil : f.content binFile = [] := hnew
    change (f.content binFile).length ≤ _
    rw [hnil]
    exact Nat.zero_le _
  size := Nat.zero_le _

theorem counts_splitFile (h : Counts f) : Counts f.splitFile ∧
    f.splitFile.instrProfReadSize.toNat + recordSize ≤ maxBinFileSize := by
  unfold Files.splitFile
  split_ifs with hfull
  · have hreset := counts_resetSize f
    have hroom : 0 + recordSize ≤ maxBinFileSize := by decide
    exact ⟨⟨hreset.content, hreset.size⟩, hroom⟩
  · refine ⟨h, ?_⟩
    have hsizes : instrProfHeadSize + profChannelBufferSize ≤ maxBinFileSize := by decide
    unfold recordSize
    omega

/-- A file that is not older than the count has room for a record. -/
theorem room_iff (h : Counts f) (binFile : String) :
    (f.content binFile).length + recordSize ≤ maxBinFileSize ↔
      (f.splitFile.older binFile ≠ [] →
        (f.content binFile).length + recordSize ≤ maxBinFileSize) := by
  obtain ⟨hcounts, hroom⟩ := counts_splitFile h
  constructor
  · exact fun hfits _ => hfits
  · intro holder
    by_cases hnew : f.splitFile.older binFile = []
    · have hcontent := hcounts.content binFile hnew
      rw [content_splitFile] at hcontent
      omega
    · exact holder hnew

theorem framed_step_iff (hcounts : Counts f) (h : Framed f) (op : Op) :
    Framed (step f op) ↔ Checked f op := by
  cases op with
  | call => exact iff_of_true (framed_of_content h rfl (List.Sublist.refl _)) trivial
  | setState state => exact iff_of_true (framed_of_content h rfl (List.Sublist.refl _)) trivial
  | read r =>
    unfold step Checked
    dsimp only
    obtain ⟨hnone, hkept | hkept⟩ | ⟨binFile, hsome, hwrite⟩ := channelRead_cases r f
    · rw [hnone, hkept]
      exact iff_of_true (framed_of_content h rfl (List.sublist_append_left _ _)) (by simp)
    · rw [hnone, hkept]
      refine iff_of_true (framed_of_content h (content_splitFile f) ?_) (by simp)
      exact reads_splitFile f ▸ List.sublist_append_left _ _
    · have hframed := framed_write_iff h binFile r
      rw [hsome, hwrite, hframed, room_iff hcounts]
      simp

theorem counts_write (hcounts : Counts f) (h : Framed f) (binFile : String)
    (hnext : Framed ((f.splitFile.noteRead r).writeRecord binFile r)) :
    Counts ((f.splitFile.noteRead r).writeRecord binFile r) := by
  obtain ⟨hsplit, hroom⟩ := counts_splitFile hcounts
  have hle := counted_le r
  have happended : r.appended.length ≤ r.counted := by
    obtain hnothing | ⟨hall, _⟩ := (framed_write_iff h binFile r).mp hnext
    · rw [appendsNothing_iff.mp hnothing]
      exact Nat.zero_le _
    · rw [appendsAll_iff.mp hall, counted_of_all hall]
  have hsum : (f.splitFile.instrProfReadSize + UInt32.ofNat r.counted).toNat =
      f.splitFile.instrProfReadSize.toNat + r.counted := by
    have hmax : maxBinFileSize < UInt32.size := by decide
    have hword : UInt32.size = 2 ^ 32 := rfl
    rw [UInt32.toNat_add, UInt32.toNat_ofNat_of_lt' (by omega), Nat.mod_eq_of_lt (by omega)]
  rw [writeRecord_eq]
  constructor
  · intro file hnew
    have hold : (f.splitFile.content file).length ≤ f.splitFile.instrProfReadSize.toNat :=
      hsplit.content file hnew
    refine Nat.le_trans ?_ (Nat.le_of_eq hsum.symm)
    dsimp only
    by_cases hfile : file = binFile
    · rw [hfile] at hold ⊢
      rw [Function.update_self, List.length_append]
      exact Nat.add_le_add hold happended
    · rw [Function.update_of_ne hfile]
      exact Nat.le_trans hold (Nat.le_add_right _ _)
  · refine Nat.le_trans (Nat.le_of_eq hsum) ?_
    omega

theorem counts_step (op : Op) (hcounts : Counts f) (h : Framed f) (hnext : Framed (step f op)) :
    Counts (step f op) := by
  cases op with
  | call =>
    have hreset := counts_resetSize f
    exact ⟨hreset.content, hreset.size⟩
  | setState state => exact ⟨hcounts.content, hcounts.size⟩
  | read r =>
    unfold step at hnext ⊢
    dsimp only at hnext ⊢
    obtain ⟨_, hkept | hkept⟩ | ⟨binFile, _, hwrite⟩ := channelRead_cases r f
    · rw [hkept]
      exact ⟨hcounts.content, hcounts.size⟩
    · have hsplit := (counts_splitFile hcounts).1
      rw [hkept]
      exact ⟨hsplit.content, hsplit.size⟩
    · rw [hwrite] at hnext ⊢
      exact counts_write hcounts h binFile hnext

/-- In a run each file consists of whole records, with the lengths that the reads have returned,
and is not too large, exactly if each read appends a whole record or nothing. -/
theorem records_framed_iff (ops : List Op) :
    (∀ n, Framed ((ops.take n).foldl step {})) ↔ Guarded step Checked {} ops := by
  have hcounts : Counts {} := ⟨fun _ _ => Nat.le_refl 0, Nat.zero_le _⟩
  have hframed : Framed {} :=
    ⟨fun _ => ⟨[], List.Sublist.refl [], rfl, fun r hr => by cases hr⟩, fun _ => Nat.zero_le _⟩
  exact guarded_iff_invariant_keep (fun f op _ hcounts h hnext => counts_step op hcounts h hnext)
    (fun f op _ hcounts h => framed_step_iff hcounts h op) (guarded_true _ ops) hcounts hframed

def emptyRead : ChannelRead where
  channelId := 11
  dumpPath := "out"
  curLen := 0
  outBuf := ⟨List.replicate profChannelBufferSize 0, List.length_replicate⟩

/-- A read that returns no bytes gets a record of its own. -/
theorem not_framed_emptyRead : ¬ ∀ n,
    Framed (([Op.setState .pcSampling, .read emptyRead].take n).foldl step {}) := by
  intro hframed
  have hstart : Framed (step {} (.setState .pcSampling)) := hframed 1
  have hcounts : Counts (step {} (.setState .pcSampling)) :=
    ⟨fun _ _ => Nat.le_refl 0, Nat.zero_le _⟩
  have hread := (framed_step_iff hcounts hstart (.read emptyRead)).mp (hframed 2)
  obtain hnothing | hall := hread "out/pcSampling.bin.0" (by decide)
  · exact absurd hnothing.1 (by decide)
  · exact absurd hall.2.1 (by decide)

end Msopcom.InstrProfFile
