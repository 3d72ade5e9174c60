import Msopcom.BlockReport
import Msopcom.ShadowMemoryBody
import Msopcom.ShadowMemoryReads

set_option autoImplicit false

/-!
# What the reported bodies consist of

Each copy goes to the end of what the buffer already holds of the block, as long as the length
that is reported counts what was copied and nothing else.
-/
namespace Msopcom.BlockReport
open Bytes Splice Words ShadowMemoryBody ShadowMemoryReads

/-! ## What a block owns -/

section Own
variable (l : Launch) (memInfo : UInt64)

def globalBytes : List UInt8 := l.deviceBytes memInfo sizeofRecordGlobalHead.toNat

def globalHead : RecordGlobalHead := readGlobalHead (wordAt (globalBytes l memInfo))

def blockAddr (i : ℕ) : UInt64 :=
  memInfo + UInt64.ofNat
    (Layout.offset (blockStride l.deviceType (globalHead l memInfo)) sizeofRecordGlobalHead.toNat i)

def ownHead (i : ℕ) : List UInt8 :=
  l.deviceBytes (blockAddr l memInfo i) sizeofRecordBlockHead.toNat

def blockHead (i : ℕ) : BlockHead := readBlockHead (wordAt (ownHead l memInfo i))

/-- The records that the block has written. -/
def ownRecords (i : ℕ) : List UInt8 :=
  l.deviceBytes (blockAddr l memInfo i + (globalHead l memInfo).offsetInfo.blockHeadSize.toUInt64)
    (blockHead l memInfo i).writeOffset.toNat

/-- A block whose threads are reported. -/
def isSimtBlock (i : ℕ) : Bool :=
  (globalHead l memInfo).supportSimt &&
    isCheckedBlock l.deviceType (globalHead l memInfo) (UInt64.ofNat i)

def ownSimtRecords (i : ℕ) : List UInt8 :=
  l.deviceBytes (blockAddr l memInfo i + (globalHead l memInfo).offsetInfo.simtHeadOffset.toUInt64)
    (getAllThreadSize (globalHead l memInfo)).toNat

/-- The block with nothing but its own shadow memory in the host buffer. -/
def ownBlock (outcomes : BlockOutcomes) (i : ℕ) : FinalizeBlock where
  blockSize := l.blockSize
  globalHead := globalHead l memInfo
  blockHead := (blockHead l memInfo i).toRecordBlockHead
  memInfoBackUp := blockAddr l memInfo i
  memInfoHost := []
  shadowMemory := l.deviceBytes
    (blockAddr l memInfo i + (globalHead l memInfo).offsetInfo.shadowMemoryOffset.toUInt64)
    (globalHead l memInfo).offsetInfo.shadowMemoryByteSize.toNat
  runtime := outcomes.shadow

/-- The bytes of the records of a shadow memory, behind their head. -/
def shadowBytes (block : FinalizeBlock) : List UInt8 :=
  headBytes (recordsSize block) ++ recordsBytes (parsedRecords block)

def ownBody (outcomes : BlockOutcomes) (i : ℕ) : List UInt8 :=
  globalBytes l memInfo ++ ownHead l memInfo i ++ ownRecords l memInfo i ++
    if isSimtBlock l memInfo i then
      ownSimtRecords l memInfo i ++ shadowBytes (ownBlock l memInfo outcomes i)
    else []

/-- A report of the block's own bytes, all of which are in the host buffer. -/
structure Framed (outcomes : BlockOutcomes) (r : Report) : Prop where
  room : r.memSize.toNat ≤ l.blockSize.toNat
  length : r.memSize.toNat = (ownBody l memInfo outcomes r.blockIdx).length
  content : r.content = ownBody l memInfo outcomes r.blockIdx

/-- The tables lead nowhere but into the shadow memory. -/
def ReadsInside (block : FinalizeBlock) : Prop :=
  ∀ off ∈ shadowReads block, off.toNat + 8 ≤ shadowMemoryByteSize block

/-- The head counts no bytes, or all of its counts are set. For the threads the walk
stays in the shadow memory, and the records that it finds are copied. -/
structure SoundBlock (outcomes : BlockOutcomes) (i : ℕ) : Prop where
  records : (blockHead l memInfo i).writeOffset = 0 ∨ (blockHead l memInfo i).hasRecords = true
  shadow : isSimtBlock l memInfo i = true →
    ReadsInside (ownBlock l memInfo outcomes i) ∧ ¬ LosesRecords (ownBlock l memInfo outcomes i)

end Own

/-! ## Sizes -/

section Sizes
variable (l : Launch) (memInfo : UInt64)

@[simp] theorem length_deviceBytes (addr : UInt64) (count : ℕ) :
    (l.deviceBytes addr count).length = count := by
  rw [Launch.deviceBytes, List.length_map, List.length_range]

theorem toNat_sizeofRecordGlobalHead : sizeofRecordGlobalHead.toNat = 38528 := by decide

theorem toNat_sizeofRecordBlockHead : sizeofRecordBlockHead.toNat = 128 := by decide

theorem length_globalBytes : (globalBytes l memInfo).length = 38528 :=
  (length_deviceBytes l _ _).trans toNat_sizeofRecordGlobalHead

theorem length_ownHead (i : ℕ) : (ownHead l memInfo i).length = 128 :=
  (length_deviceBytes l _ _).trans toNat_sizeofRecordBlockHead

theorem length_ownRecords (i : ℕ) :
    (ownRecords l memInfo i).length = (blockHead l memInfo i).writeOffset.toNat :=
  length_deviceBytes l _ _

theorem length_ownSimtRecords (i : ℕ) :
    (ownSimtRecords l memInfo i).length = (getAllThreadSize (globalHead l memInfo)).toNat :=
  length_deviceBytes l _ _

theorem toNat_blockSize : l.blockSize.toNat = l.cacheSize.toNat * 2 ^ 20 + 38656 := by
  have hlt := l.cacheSize.toNat_lt
  have hcache := toNat_cacheBytes l.cacheSize
  have hglobal : (l.cacheSize.toUInt64 * mbToBytes + sizeofRecordGlobalHead).toNat =
      l.cacheSize.toNat * 2 ^ 20 + 38528 := by
    rw [toNat_add64, hcache, toNat_sizeofRecordGlobalHead]
    rw [hcache, toNat_sizeofRecordGlobalHead]
    omega
  rw [Launch.blockSize, toNat_add64, hglobal, toNat_sizeofRecordBlockHead]
  rw [hglobal, toNat_sizeofRecordBlockHead]
  omega

/-- The room that is left behind the heads. -/
theorem toNat_recordRoom :
    (l.blockSize - sizeofRecordGlobalHead - sizeofRecordBlockHead).toNat + 38656 =
      l.blockSize.toNat := by
  have hsize := toNat_blockSize l
  have hglobal : (l.blockSize - sizeofRecordGlobalHead).toNat = l.blockSize.toNat - 38528 := by
    rw [toNat_sub64, toNat_sizeofRecordGlobalHead]
    rw [toNat_sizeofRecordGlobalHead]
    omega
  rw [toNat_sub64, hglobal, toNat_sizeofRecordBlockHead]
  · omega
  · rw [hglobal, toNat_sizeofRecordBlockHead]
    omega

theorem length_shadowMemory (outcomes : BlockOutcomes) (i : ℕ) :
    (ownBlock l memInfo outcomes i).shadowMemory.length =
      shadowMemoryByteSize (ownBlock l memInfo outcomes i) := by
  unfold ownBlock shadowMemoryByteSize
  dsimp only
  rw [length_deviceBytes]

end Sizes

/-! ## Reading the heads -/

theorem readGlobalHead_congr {word word' : ℕ → UInt64} (h : ∀ off ≤ 80, word off = word' off) :
    readGlobalHead word = readGlobalHead word' := by
  simp [readGlobalHead, h]

theorem readBlockHead_congr {word word' : ℕ → UInt64} (h : ∀ off ≤ 56, word off = word' off) :
    readBlockHead word = readBlockHead word' := by
  simp [readBlockHead, h]

/-- The word at an address of the device. -/
def Launch.word (l : Launch) (addr : UInt64) (off : ℕ) : UInt64 :=
  UInt64.ofNat (leNat ((List.range 8).map fun k => l.device (addr + UInt64.ofNat (off + k))))

theorem wordAt_deviceBytes (l : Launch) (addr : UInt64) {off n : ℕ} (h : off + 8 ≤ n) :
    wordAt (l.deviceBytes addr n) off = l.word addr off := by
  have hwindow : ((List.range n).drop off).take 8 = (List.range 8).map (off + ·) := by
    apply List.ext_getElem
    · simp
      omega
    · intro k hk hk'
      simp
  unfold wordAt Launch.word Launch.deviceBytes
  rw [← List.map_drop, ← List.map_take, hwindow, List.map_map]
  rfl

theorem globalHead_eq (l : Launch) (memInfo : UInt64) :
    globalHead l memInfo = readGlobalHead (l.word memInfo) := by
  refine readGlobalHead_congr fun off hoff => ?_
  exact wordAt_deviceBytes l memInfo (by rw [toNat_sizeofRecordGlobalHead]; omega)

theorem blockHead_eq (l : Launch) (memInfo : UInt64) (i : ℕ) :
    blockHead l memInfo i = readBlockHead (l.word (blockAddr l memInfo i)) := by
  refine readBlockHead_congr fun off hoff => ?_
  exact wordAt_deviceBytes l _ (by rw [toNat_sizeofRecordBlockHead]; omega)

section
variable {l : Launch} {memInfo : UInt64} {i : ℕ} {s s' : LaunchFinalize}

theorem globalHead_of_front (h : globalBytes l memInfo <+: s.buffer) :
    s.globalHead = globalHead l memInfo := by
  obtain ⟨rest, hrest⟩ := h
  have hlen := length_globalBytes l memInfo
  refine readGlobalHead_congr fun off hoff => ?_
  rw [← hrest]
  exact wordAt_append_left (by omega) rest

/-- What the buffer holds of a block: the heads, and what has been copied behind them. -/
structure Gathered (l : Launch) (memInfo : UInt64) (i : ℕ) (copied : List UInt8)
    (s : LaunchFinalize) : Prop where
  buffer : globalBytes l memInfo ++ ownHead l memInfo i ++ copied <+: s.buffer
  headAt : s.blockHeadAt = 38528
  backUp : s.memInfoBackUp = blockAddr l memInfo i

/-- The start of a round, with the pointers at the block and behind the global head. -/
structure Ready (l : Launch) (memInfo : UInt64) (i : ℕ) (s : LaunchFinalize) : Prop where
  buffer : globalBytes l memInfo <+: s.buffer
  cursor : s.memInfoHost = 38528
  device : s.memInfo = blockAddr l memInfo i
  backUp : s.memInfoBackUp = blockAddr l memInfo i

namespace Gathered
variable {copied : List UInt8}

theorem globalFront (h : Gathered l memInfo i copied s) : globalBytes l memInfo <+: s.buffer := by
  have hbuffer := h.buffer
  rw [List.append_assoc] at hbuffer
  exact (List.prefix_append _ _).trans hbuffer

theorem globalHead_eq (h : Gathered l memInfo i copied s) : s.globalHead = globalHead l memInfo :=
  globalHead_of_front h.globalFront

theorem blockHead_eq (h : Gathered l memInfo i copied s) : s.blockHead = blockHead l memInfo i := by
  obtain ⟨rest, hrest⟩ := h.buffer
  have hglobal := length_globalBytes l memInfo
  have hown := length_ownHead l memInfo i
  refine readBlockHead_congr fun off hoff => ?_
  rw [← hrest, h.headAt, ← hglobal, List.append_assoc, List.append_assoc, wordAt_append_right]
  exact wordAt_append_left (by omega) _

theorem length_copied (copied : List UInt8) :
    (globalBytes l memInfo ++ ownHead l memInfo i ++ copied).length = 38656 + copied.length := by
  rw [List.length_append, List.length_append, length_globalBytes, length_ownHead]

end Gathered

end

/-! ## The copies of a round -/

section
variable {l : Launch} {memInfo : UInt64} {i : ℕ} {s s' : LaunchFinalize} {copied : List UInt8}

theorem prefix_write {front : List UInt8} (h : front <+: s.buffer) (bytes : List UInt8) {off : ℕ}
    (hoff : front.length = off) : front ++ bytes <+: (s.write off bytes).buffer := by
  have hprefix := prefix_copyN h bytes bytes.length
  rw [List.take_length, hoff] at hprefix
  exact hprefix

theorem prefix_write_of_le {front : List UInt8} (h : front <+: s.buffer) (bytes : List UInt8)
    {off : ℕ} (hoff : front.length ≤ off) : front <+: (s.write off bytes).buffer :=
  prefix_copyN_of_le h bytes bytes.length hoff

/-- A copy that succeeds has found enough room and written the bytes of the device. -/
theorem memcpyD2H_some {ok : Bool} {off : ℕ} {destMax src count : UInt64}
    (h : memcpyD2H l ok s off destMax src count = some s') :
    count ≤ destMax ∧ s' = s.write off (l.deviceBytes src count.toNat) := by
  unfold memcpyD2H at h
  split_ifs at h with hok
  exact ⟨of_decide_eq_true (Bool.and_eq_true_iff.mp hok).2, (Option.some.inj h).symm⟩

namespace Ready

theorem write (h : Ready l memInfo i s) (bytes : List UInt8) {off : ℕ} (hoff : 38528 ≤ off) :
    Ready l memInfo i (s.write off bytes) where
  buffer := prefix_write_of_le h.buffer bytes ((length_globalBytes l memInfo).le.trans hoff)
  cursor := h.cursor
  device := h.device
  backUp := h.backUp

theorem memcpy (h : Ready l memInfo i s) {ok : Bool} {off : ℕ} {destMax src count : UInt64}
    (hcopy : memcpyD2H l ok s off destMax src count = some s') (hoff : 38528 ≤ off) :
    Ready l memInfo i s' := by
  obtain ⟨-, rfl⟩ := memcpyD2H_some hcopy
  exact h.write _ hoff

theorem getD {result : Option LaunchFinalize} (h : Ready l memInfo i s)
    (hresult : ∀ t, result = some t → Ready l memInfo i t) :
    Ready l memInfo i (result.getD s) := by
  cases result with
  | none => exact h
  | some t => exact hresult t rfl

/-- The dump leaves the global head and the pointers alone. -/
theorem dump (h : Ready l memInfo i s) (outcomes : BlockOutcomes) :
    Ready l memInfo i (dumpMemoryInfo l outcomes s) := by
  unfold dumpMemoryInfo
  cases hhead : memcpyD2H l outcomes.dumpHead s s.memInfoHost
      (l.blockSize - sizeofRecordGlobalHead) s.memInfo sizeofRecordBlockHead with
  | none => exact h
  | some t =>
    have ht : Ready l memInfo i t := h.memcpy hhead h.cursor.ge
    have hcursor := ht.cursor
    dsimp only
    split_ifs
    · exact ht
    · exact ht
    · refine Ready.getD (ht.write _ (by omega)) fun u hu => ?_
      exact (ht.write _ (by omega)).memcpy hu (by omega)

theorem head (h : Ready l memInfo i s) {outcomes : BlockOutcomes}
    (hcopy : blockHeadD2H l outcomes s = some s') :
    Gathered l memInfo i [] s' ∧ s'.memInfoHost = 38656 ∧
      s'.memInfo =
        blockAddr l memInfo i + (globalHead l memInfo).offsetInfo.blockHeadSize.toUInt64 := by
  unfold blockHeadD2H at hcopy
  obtain ⟨t, ht, rfl⟩ := Option.map_eq_some_iff.mp hcopy
  obtain ⟨-, rfl⟩ := memcpyD2H_some ht
  have hbuffer := prefix_write h.buffer (l.deviceBytes s.memInfo sizeofRecordBlockHead.toNat)
    ((length_globalBytes l memInfo).trans h.cursor.symm)
  have hglobal := globalHead_of_front ((List.prefix_append _ _).trans hbuffer)
  rw [h.device] at hbuffer hglobal
  refine ⟨⟨?_, h.cursor, h.backUp⟩, ?_, ?_⟩
  · rw [List.append_nil, h.device]
    exact hbuffer
  · change s.memInfoHost + 128 = 38656
    rw [h.cursor]
  · rw [h.device, hglobal]
    rw [← h.device]
    rfl

end Ready

end

/-! ## The records of the shadow memory -/

section Shadow
variable {block : FinalizeBlock}

theorem length_shadowBytes (block : FinalizeBlock) :
    (shadowBytes block).length = 16 + 64 * (parsedRecords block).length := by
  rw [shadowBytes, List.length_append, length_headBytes, length_recordsBytes]

/-- Walks that stay in the shadow memory do not depend on the rest of the host buffer. -/
theorem parsedRecords_host (hsize : block.shadowMemory.length = shadowMemoryByteSize block)
    (hcopy : shadowMemoryCopyOk block = true) (hreads : ReadsInside block) (host : List UInt8) :
    parsedRecords { block with memInfoHost := host } = parsedRecords block := by
  let block' : FinalizeBlock := { block with memInfoHost := host }
  have hinside := hreads
  unfold ReadsInside shadowReads at hinside
  rw [if_pos hcopy] at hinside
  have hwords : ∀ off ∈ smReads (fun off => wordAt (copiedShadowMemory block) off.toNat)
      (smBaseAddr block), wordAt (copiedShadowMemory block) off.toNat =
        wordAt (copiedShadowMemory block') off.toNat := by
    intro off hoff
    have hword : wordAt (copiedShadowMemory block') off.toNat =
        wordAt block.shadowMemory off.toNat := @wordAt_copied block' hsize _ (hinside off hoff)
    rw [wordAt_copied hsize (hinside off hoff), hword]
  exact (parseSmTable_congr hwords _ _).symm

theorem le_of_memcpyOk {ok : Bool} {destMax count : UInt64}
    (h : memcpyOk ok destMax count = true) : count.toNat ≤ destMax.toNat :=
  UInt64.le_iff_toNat_le.mp (of_decide_eq_true (Bool.and_eq_true_iff.mp h).2)

theorem headRoom (hhead : recordHeadCopyOk block = true) : 16 ≤ (blockRemainSize block).toNat := by
  have hle := le_of_memcpyOk hhead
  rw [UInt32.toNat_toUInt64] at hle
  exact hle

/-- The copy of the records is given what the head leaves of the room. -/
theorem recordsRoom (hhead : recordHeadCopyOk block = true)
    (hrecords : recordsCopyOk block (recordsSize block) = true) :
    (shadowBytes block).length ≤ (blockRemainSize block).toNat := by
  have hroom := headRoom hhead
  have hle := le_of_memcpyOk hrecords
  have hrest : ((blockRemainSize block).toUInt64 - sizeofShadowMemoryRecordHead).toNat =
      (blockRemainSize block).toNat - 16 := by
    rw [toNat_sub64]
    · rw [UInt32.toNat_toUInt64]
      rfl
    · rw [UInt32.toNat_toUInt64]
      exact hroom
  rw [toNat_recordsLength, hrest] at hle
  rw [length_shadowBytes]
  omega

theorem toNat_shadowLength (h : (shadowBytes block).length ≤ (blockRemainSize block).toNat) :
    (sizeofShadowMemoryRecordHead + recordsSize block * sizeofShadowMemoryRecord).toNat =
      (shadowBytes block).length := by
  have hremain := (blockRemainSize block).toNat_lt
  have hbytes := toNat_recordsLength block
  have hhead : sizeofShadowMemoryRecordHead.toNat = 16 := by decide
  rw [length_shadowBytes] at h ⊢
  rw [toNat_add64 (by omega), hbytes, hhead]

/-- What is reported of the shadow memory is the head and the records that it counts. -/
theorem reported_shadowBytes (hsize : block.shadowMemory.length = shadowMemoryByteSize block)
    (hreads : ReadsInside block) (hkeeps : ¬ LosesRecords block) (host : List UInt8)
    (hsent : (shadowMemoryD2H { block with memInfoHost := host }).1 ≠ 0) :
    shadowBytes block <+: (shadowMemoryD2H { block with memInfoHost := host }).2 ∧
      (shadowMemoryD2H { block with memInfoHost := host }).1.toNat = (shadowBytes block).length ∧
      (shadowBytes block).length ≤ (blockRemainSize block).toNat := by
  let block' : FinalizeBlock := { block with memInfoHost := host }
  have hcopies : shadowMemoryCopyOk block = true ∧ recordHeadCopyOk block = true := by
    by_contra hfails
    exact hsent (@unreported block' hfails)
  obtain ⟨hcopy, hhead⟩ := hcopies
  have hparsed : parsedRecords block' = parsedRecords block :=
    parsedRecords_host hsize hcopy hreads host
  have hcount : recordsSize block' = recordsSize block := by
    rw [recordsSize, hparsed]
    rfl
  have hresult := @reported block' hcopy hhead
  rw [hcount, hparsed] at hresult
  rw [hresult]
  by_cases hnil : parsedRecords block = []
  · have hzero : recordsSize block = 0 := (recordsSize_eq_zero_iff block).mpr hnil
    have hlength := length_shadowBytes block
    rw [hnil, List.length_nil] at hlength
    rw [if_neg fun h => h.1 hzero, hlength]
    refine ⟨?_, rfl, headRoom hhead⟩
    rw [withHead, hcount, shadowBytes, hnil]
    exact List.prefix_append_of_prefix (by rw [recordsBytes, List.flatMap_nil, List.append_nil])
  · have hne : recordsSize block ≠ 0 := fun h => hnil ((recordsSize_eq_zero_iff block).mp h)
    have hrecords : recordsCopyOk block (recordsSize block) = true := by
      apply Bool.eq_true_of_not_eq_false
      intro hfails
      exact hkeeps ⟨hcopy, hhead, hnil, hfails⟩
    have hroom := recordsRoom hhead hrecords
    rw [if_pos ⟨hne, hrecords⟩]
    refine ⟨?_, toNat_shadowLength hroom, hroom⟩
    rw [shadowBytes, ← List.append_assoc]
    exact List.prefix_append _ _

end Shadow

/-! ## The records of a block -/

namespace Gathered
variable {l : Launch} {memInfo : UInt64} {i : ℕ} {s s' : LaunchFinalize} {copied : List UInt8}
  {outcomes : BlockOutcomes}

/-- A copy to the cursor, when this stands behind what is there already. -/
theorem memcpy (h : Gathered l memInfo i copied s)
    (hcursor : s.memInfoHost = 38656 + copied.length) {ok : Bool} {destMax src count : UInt64}
    (hcopy : memcpyD2H l ok s s.memInfoHost destMax src count = some s') :
    Gathered l memInfo i (copied ++ l.deviceBytes src count.toNat) s' ∧
      s'.memInfoHost = s.memInfoHost ∧ count.toNat ≤ destMax.toNat := by
  obtain ⟨hroom, rfl⟩ := memcpyD2H_some hcopy
  refine ⟨⟨?_, h.headAt, h.backUp⟩, rfl, UInt64.le_iff_toNat_le.mp hroom⟩
  rw [← List.append_assoc]
  exact prefix_write h.buffer _ ((length_copied copied).trans hcursor.symm)

theorem simdRecords (h : Gathered l memInfo i [] s) (hcursor : s.memInfoHost = 38656)
    (hdevice : s.memInfo =
      blockAddr l memInfo i + (globalHead l memInfo).offsetInfo.blockHeadSize.toUInt64)
    (hcopy : simdRecordD2H l outcomes s = some s') :
    Gathered l memInfo i (ownRecords l memInfo i) s' ∧
      s'.memInfoHost = 38656 + (ownRecords l memInfo i).length ∧
      38656 + (blockHead l memInfo i).writeOffset.toNat ≤ l.blockSize.toNat := by
  unfold simdRecordD2H at hcopy
  obtain ⟨t, ht, rfl⟩ := Option.map_eq_some_iff.mp hcopy
  obtain ⟨hwrite, hcursor', hroom⟩ := h.memcpy hcursor ht
  have hrest := toNat_recordRoom l
  rw [h.blockHead_eq] at hroom
  rw [List.nil_append, h.blockHead_eq, hdevice] at hwrite
  refine ⟨⟨hwrite.buffer, hwrite.headAt, hwrite.backUp⟩, ?_, by omega⟩
  rw [hwrite.blockHead_eq, hcursor', hcursor, length_ownRecords]

/-- Step 3, whether or not the records are copied. -/
theorem records (h : Gathered l memInfo i [] s) (hcursor : s.memInfoHost = 38656)
    (hdevice : s.memInfo =
      blockAddr l memInfo i + (globalHead l memInfo).offsetInfo.blockHeadSize.toUInt64)
    (hcopy : (if s.blockHead.hasRecords then simdRecordD2H l outcomes s else some s) = some s') :
    ∃ copied, Gathered l memInfo i copied s' ∧ s'.memInfoHost = 38656 + copied.length ∧
      ((blockHead l memInfo i).writeOffset = 0 ∨ (blockHead l memInfo i).hasRecords = true →
        copied = ownRecords l memInfo i ∧
          38656 + (blockHead l memInfo i).writeOffset.toNat ≤ l.blockSize.toNat) := by
  rw [h.blockHead_eq] at hcopy
  by_cases hrecords : (blockHead l memInfo i).hasRecords = true
  · rw [if_pos hrecords] at hcopy
    obtain ⟨hgathered, hcursor', hroom⟩ := h.simdRecords hcursor hdevice hcopy
    exact ⟨_, hgathered, hcursor', fun _ => ⟨rfl, hroom⟩⟩
  · rw [if_neg hrecords] at hcopy
    obtain rfl := Option.some.inj hcopy
    refine ⟨[], h, hcursor, fun hsound => ?_⟩
    have hzero := hsound.resolve_right hrecords
    have hsize := toNat_blockSize l
    rw [ownRecords, hzero]
    exact ⟨rfl, by rw [hsize]; exact Nat.le_add_left _ _⟩

/-! ## The threads of a block -/

theorem simtRecords (h : Gathered l memInfo i copied s)
    (hcursor : s.memInfoHost = 38656 + copied.length)
    (hcopy : simtRecordD2H l outcomes s = some s') :
    Gathered l memInfo i (copied ++ ownSimtRecords l memInfo i) s' ∧
      s'.memInfoHost = 38656 + (copied ++ ownSimtRecords l memInfo i).length ∧
      (getAllThreadSize (globalHead l memInfo)).toNat ≤
        (l.blockSize - sizeofRecordGlobalHead - sizeofRecordBlockHead -
          (blockHead l memInfo i).writeOffset).toNat := by
  unfold simtRecordD2H at hcopy
  obtain ⟨t, ht, rfl⟩ := Option.map_eq_some_iff.mp hcopy
  obtain ⟨hwrite, hcursor', hroom⟩ := h.memcpy hcursor ht
  rw [h.blockHead_eq, h.globalHead_eq] at hroom
  rw [h.globalHead_eq, h.backUp, ← ownSimtRecords] at hwrite
  have hlen := length_ownSimtRecords l memInfo i
  refine ⟨⟨hwrite.buffer, hwrite.headAt, hwrite.backUp⟩, ?_, hroom⟩
  rw [List.length_append, hlen, ← Nat.add_assoc, ← hcursor, ← hcursor', ← h.globalHead_eq]

/-- Only what lies behind the cursor in the buffer is not the block's own. -/
theorem finalizeBlock_eq (h : Gathered l memInfo i copied s) :
    finalizeBlock l outcomes s =
      { ownBlock l memInfo outcomes i with memInfoHost := s.buffer.drop s.memInfoHost } := by
  unfold finalizeBlock ownBlock
  rw [h.globalHead_eq, h.blockHead_eq, h.backUp]

theorem take_cursor (h : Gathered l memInfo i copied s)
    (hcursor : s.memInfoHost = 38656 + copied.length) :
    s.buffer.take s.memInfoHost = globalBytes l memInfo ++ ownHead l memInfo i ++ copied := by
  obtain ⟨rest, hrest⟩ := h.buffer
  rw [← hrest]
  exact List.take_left' ((length_copied copied).trans hcursor.symm)

/-- Step 5: what was copied before stays, and a sound shadow memory is added to it. -/
theorem shadowMemory (h : Gathered l memInfo i copied s)
    (hcursor : s.memInfoHost = 38656 + copied.length) :
    ∃ shadow, Gathered l memInfo i (copied ++ shadow) (copyShadowMemory l outcomes s).2 ∧
      (ReadsInside (ownBlock l memInfo outcomes i) →
        ¬ LosesRecords (ownBlock l memInfo outcomes i) →
        (copyShadowMemory l outcomes s).1 ≠ 0 →
          shadow = shadowBytes (ownBlock l memInfo outcomes i) ∧
          (copyShadowMemory l outcomes s).1.toNat = shadow.length ∧
          shadow.length ≤ (blockRemainSize (ownBlock l memInfo outcomes i)).toNat) := by
  have hresult : copyShadowMemory l outcomes s =
      ((shadowMemoryD2H { ownBlock l memInfo outcomes i with
          memInfoHost := s.buffer.drop s.memInfoHost }).1,
        { s with buffer := globalBytes l memInfo ++ ownHead l memInfo i ++ copied ++
          (shadowMemoryD2H { ownBlock l memInfo outcomes i with
            memInfoHost := s.buffer.drop s.memInfoHost }).2 }) := by
    rw [copyShadowMemory, h.finalizeBlock_eq, h.take_cursor hcursor]
  rw [hresult]
  by_cases hsound : ReadsInside (ownBlock l memInfo outcomes i) ∧
      ¬ LosesRecords (ownBlock l memInfo outcomes i) ∧
      (shadowMemoryD2H { ownBlock l memInfo outcomes i with
        memInfoHost := s.buffer.drop s.memInfoHost }).1 ≠ 0
  · obtain ⟨hreads, hkeeps, hsent⟩ := hsound
    have hsize := length_shadowMemory l memInfo outcomes i
    obtain ⟨hbytes, hlength, hroom⟩ := reported_shadowBytes hsize hreads hkeeps _ hsent
    refine ⟨_, ⟨?_, h.headAt, h.backUp⟩, fun _ _ _ => ⟨rfl, hlength, hroom⟩⟩
    rw [← List.append_assoc]
    exact (List.prefix_append_right_inj _).mpr hbytes
  · refine ⟨[], ⟨?_, h.headAt, h.backUp⟩, fun hreads hkeeps hsent =>
      absurd ⟨hreads, hkeeps, hsent⟩ hsound⟩
    rw [List.append_nil]
    exact List.prefix_append _ _

end Gathered

/-- What the threads leave of the room. -/
theorem blockRemainSize_le {l : Launch} {memInfo : UInt64} {i : ℕ} (outcomes : BlockOutcomes)
    (hrecords : 38656 + (blockHead l memInfo i).writeOffset.toNat ≤ l.blockSize.toNat)
    (hthreads : (getAllThreadSize (globalHead l memInfo)).toNat ≤
      (l.blockSize - sizeofRecordGlobalHead - sizeofRecordBlockHead -
        (blockHead l memInfo i).writeOffset).toNat) :
    38656 + (blockHead l memInfo i).writeOffset.toNat +
        ((getAllThreadSize (globalHead l memInfo)).toNat +
          (blockRemainSize (ownBlock l memInfo outcomes i)).toNat) ≤ l.blockSize.toNat := by
  have hroom := toNat_recordRoom l
  have hrest : (l.blockSize - sizeofRecordGlobalHead - sizeofRecordBlockHead -
      (blockHead l memInfo i).writeOffset).toNat +
        (blockHead l memInfo i).writeOffset.toNat + 38656 = l.blockSize.toNat := by
    rw [toNat_sub64 (by omega)]
    omega
  have hremain : (blockRemainSize (ownBlock l memInfo outcomes i)).toNat ≤
      (l.blockSize - sizeofRecordGlobalHead - sizeofRecordBlockHead -
        (blockHead l memInfo i).writeOffset - getAllThreadSize (globalHead l memInfo)).toNat := by
    unfold blockRemainSize ownBlock
    rw [UInt64.toNat_toUInt32]
    exact Nat.mod_le _ _
  rw [toNat_sub64 hthreads] at hremain
  omega

/-- Steps 4 and 5 together. -/
theorem Gathered.simt {l : Launch} {memInfo : UInt64} {i : ℕ} {s s' : LaunchFinalize}
    {copied : List UInt8} {outcomes : BlockOutcomes} {size : UInt64}
    (h : Gathered l memInfo i copied s) (hcursor : s.memInfoHost = 38656 + copied.length)
    (hcopy : simtD2H l outcomes s = some (size, s')) :
    ∃ simt, Gathered l memInfo i (copied ++ simt) s' ∧
      (ReadsInside (ownBlock l memInfo outcomes i) ∧
          ¬ LosesRecords (ownBlock l memInfo outcomes i) →
        38656 + (blockHead l memInfo i).writeOffset.toNat ≤ l.blockSize.toNat →
          simt = ownSimtRecords l memInfo i ++ shadowBytes (ownBlock l memInfo outcomes i) ∧
          size.toNat = simt.length ∧
          38656 + (blockHead l memInfo i).writeOffset.toNat + simt.length ≤ l.blockSize.toNat) := by
  unfold simtD2H at hcopy
  obtain ⟨t, ht, hshadow⟩ := Option.bind_eq_some_iff.mp hcopy
  obtain ⟨hthreads, hcursor', hroom⟩ := h.simtRecords hcursor ht
  obtain ⟨shadow, hgathered, hown⟩ := @Gathered.shadowMemory _ _ _ _ _ outcomes hthreads hcursor'
  dsimp only at hshadow
  split_ifs at hshadow with hsent
  obtain ⟨rfl, rfl⟩ := Prod.mk.inj (Option.some.inj hshadow)
  rw [List.append_assoc] at hgathered
  refine ⟨_, hgathered, fun hsound hrecords => ?_⟩
  obtain ⟨hbytes, hlength, hremain⟩ := hown hsound.1 hsound.2 hsent
  have hfits := blockRemainSize_le outcomes hrecords hroom
  have hlen := length_ownSimtRecords l memInfo i
  have hmax := l.blockSize.toNat_lt
  rw [hthreads.globalHead_eq, List.length_append, hlen, toNat_add64 (by omega), hlength, hbytes]
  exact ⟨rfl, rfl, by rw [← hbytes]; omega⟩

/-! ## The rounds -/

section
variable {l : Launch} {memInfo : UInt64} {i : ℕ} {s s' : LaunchFinalize} {outcomes : BlockOutcomes}

theorem blockAddr_succ (l : Launch) (memInfo : UInt64) (i : ℕ) :
    blockAddr l memInfo (i + 1) = blockAddr l memInfo i +
      (getBlockSize l.deviceType (globalHead l memInfo) (UInt64.ofNat i)).toUInt64 := by
  unfold blockAddr
  rw [Layout.offset_succ, UInt64.ofNat_add, ← UInt64.add_assoc, blockStride,
    UInt64.ofNat_uInt32ToNat]

/-- Whatever was sent, the next round starts at the next block. -/
theorem Gathered.next {copied : List UInt8} (h : Gathered l memInfo i copied s) (size : UInt64) :
    Ready l memInfo (i + 1) (sendBlock l i size s).2 := by
  have haddr : s.memInfoBackUp +
      (getBlockSize l.deviceType s.globalHead (UInt64.ofNat i)).toUInt64 =
        blockAddr l memInfo (i + 1) := by
    rw [blockAddr_succ, h.globalHead_eq, h.backUp]
  exact ⟨h.globalFront, toNat_sizeofRecordGlobalHead, haddr, haddr⟩

/-- What is sent is what the buffer holds of the block, if the length counts just that. -/
theorem Gathered.content {copied : List UInt8} (h : Gathered l memInfo i copied s) {size : UInt64}
    (hsize : (blockHead l memInfo i).writeOffset.toNat + size.toNat = copied.length)
    (hroom : 38656 + copied.length ≤ l.blockSize.toNat) :
    (sendBlock l i size s).1.memSize.toNat = 38656 + copied.length ∧
      (sendBlock l i size s).1.content =
        globalBytes l memInfo ++ ownHead l memInfo i ++ copied := by
  have hmax := l.blockSize.toNat_lt
  have hmem : (sizeofRecordGlobalHead + sizeofRecordBlockHead + s.blockHead.writeOffset +
      size).toNat = 38656 + copied.length := by
    have hheads : (sizeofRecordGlobalHead + sizeofRecordBlockHead).toNat = 38656 := by decide
    have hrecords : (sizeofRecordGlobalHead + sizeofRecordBlockHead +
        s.blockHead.writeOffset).toNat = 38656 + (blockHead l memInfo i).writeOffset.toNat := by
      rw [h.blockHead_eq, toNat_add64 (by omega), hheads]
    rw [toNat_add64 (by omega), hrecords]
    omega
  refine ⟨hmem, ?_⟩
  unfold sendBlock
  dsimp only
  rw [hmem, ← length_copied]
  exact (List.prefix_iff_eq_take.mp h.buffer).symm

theorem Gathered.framed {copied : List UInt8} (h : Gathered l memInfo i copied s) {size : UInt64}
    (hbody : globalBytes l memInfo ++ ownHead l memInfo i ++ copied =
      ownBody l memInfo outcomes i)
    (hsize : (blockHead l memInfo i).writeOffset.toNat + size.toNat = copied.length)
    (hroom : 38656 + copied.length ≤ l.blockSize.toNat) :
    Framed l memInfo outcomes (sendBlock l i size s).1 := by
  obtain ⟨hmem, hcontent⟩ := h.content hsize hroom
  rw [hbody] at hcontent
  have hlength : (ownBody l memInfo outcomes i).length = 38656 + copied.length := by
    rw [← hbody]
    exact length_copied copied
  exact ⟨hmem.trans_le hroom, hmem.trans hlength.symm, hcontent⟩

/-- One round: the next one is ready, and a sound block is reported with its own bytes. -/
theorem Ready.round (h : Ready l memInfo i s) {r : Report}
    (hround : reportBlock l (globalHead l memInfo) outcomes i s = some (r, s')) :
    Ready l memInfo (i + 1) s' ∧ r.blockIdx = i ∧
      (SoundBlock l memInfo outcomes i → Framed l memInfo outcomes r) := by
  have hdump : Ready l memInfo i
      (if s.globalHead.supportSimt && i = 0 then dumpMemoryInfo l outcomes s else s) := by
    split_ifs
    · exact h.dump outcomes
    · exact h
  unfold reportBlock at hround
  dsimp only at hround
  obtain ⟨t, hhead, hround⟩ := Option.bind_eq_some_iff.mp hround
  obtain ⟨u, hrecords, hround⟩ := Option.bind_eq_some_iff.mp hround
  obtain ⟨⟨size, v⟩, hsimt, hsend⟩ := Option.map_eq_some_iff.mp hround
  obtain rfl : (sendBlock l i size v).1 = r := congrArg Prod.fst hsend
  obtain rfl : (sendBlock l i size v).2 = s' := congrArg Prod.snd hsend
  obtain ⟨hgathered, hcursor, hdevice⟩ := hdump.head hhead
  obtain ⟨copied, hcopied, hcursor', hown⟩ := hgathered.records hcursor hdevice hrecords
  rw [hcopied.globalHead_eq, ← isSimtBlock] at hsimt
  by_cases hthreads : isSimtBlock l memInfo i = true
  · rw [if_pos hthreads] at hsimt
    obtain ⟨simt, hall, hown'⟩ := hcopied.simt hcursor' hsimt
    refine ⟨hall.next size, rfl, fun hsound => ?_⟩
    obtain ⟨hcopy, hroom⟩ := hown hsound.records
    obtain ⟨hthread, hsize, hfits⟩ := hown' (hsound.shadow hthreads) hroom
    have hbody : globalBytes l memInfo ++ ownHead l memInfo i ++ (copied ++ simt) =
        ownBody l memInfo outcomes i := by
      rw [ownBody, if_pos hthreads, ← hthread, ← hcopy, List.append_assoc _ copied]
    have hcount : copied.length = (blockHead l memInfo i).writeOffset.toNat := by
      rw [hcopy, length_ownRecords]
    have hlength : (copied ++ simt).length = copied.length + simt.length := List.length_append
    exact hall.framed hbody (by omega) (by omega)
  · rw [if_neg hthreads] at hsimt
    obtain ⟨rfl, rfl⟩ := Prod.mk.inj (Option.some.inj hsimt)
    refine ⟨hcopied.next 0, rfl, fun hsound => ?_⟩
    obtain ⟨hcopy, hroom⟩ := hown hsound.records
    have hbody : globalBytes l memInfo ++ ownHead l memInfo i ++ copied =
        ownBody l memInfo outcomes i := by
      rw [ownBody, if_neg hthreads, List.append_nil, ← hcopy]
    have hcount : copied.length = (blockHead l memInfo i).writeOffset.toNat := by
      rw [hcopy, length_ownRecords]
    have hsize : (blockHead l memInfo i).writeOffset.toNat + (0 : UInt64).toNat =
        copied.length := by
      rw [hcount, UInt64.toNat_zero, Nat.add_zero]
    rw [← hcount] at hroom
    exact hcopied.framed hbody hsize hroom

theorem memcpyD2H_eq {ok : Bool} (hok : ok = true) {off : ℕ} {destMax count : UInt64}
    (hroom : count.toNat ≤ destMax.toNat) (src : UInt64) :
    memcpyD2H l ok s off destMax src count =
      some (s.write off (l.deviceBytes src count.toNat)) := by
  have hfits : memcpyOk ok destMax count = true := by
    rw [memcpyOk, hok, Bool.true_and, decide_eq_true_iff]
    exact UInt64.le_iff_toNat_le.mpr hroom
  exact if_pos hfits

/-- A chip without threads reports the block when the runtime copies. -/
theorem Ready.exists_round (h : Ready l memInfo i s)
    (hsimt : (globalHead l memInfo).supportSimt = false) (hhead : outcomes.blockHead = true)
    (hsimd : outcomes.simdRecords = true)
    (hroom : 38656 + (blockHead l memInfo i).writeOffset.toNat ≤ l.blockSize.toNat) :
    ∃ r t, reportBlock l (globalHead l memInfo) outcomes i s = some (r, t) := by
  have hrest := toNat_recordRoom l
  have hglobal : s.globalHead = globalHead l memInfo := globalHead_of_front h.buffer
  have hheadRoom : sizeofRecordBlockHead.toNat ≤
      (l.blockSize - sizeofRecordGlobalHead).toNat := by
    rw [toNat_sub64, toNat_sizeofRecordGlobalHead, toNat_sizeofRecordBlockHead]
    · omega
    · rw [toNat_sizeofRecordGlobalHead]
      omega
  unfold reportBlock
  dsimp only
  rw [hglobal, hsimt, Bool.false_and, if_neg Bool.false_ne_true]
  cases hcopy : blockHeadD2H l outcomes s with
  | none =>
    rw [blockHeadD2H, memcpyD2H_eq hhead hheadRoom] at hcopy
    cases hcopy
  | some t =>
    obtain ⟨hgathered, hcursor, hdevice⟩ := h.head hcopy
    rw [Option.bind_some]
    cases hrecords : (if t.blockHead.hasRecords then simdRecordD2H l outcomes t else some t) with
    | none =>
      split_ifs at hrecords
      rw [simdRecordD2H, hgathered.blockHead_eq, memcpyD2H_eq hsimd (by omega)] at hrecords
      cases hrecords
    | some u =>
      obtain ⟨copied, hcopied, -, -⟩ := hgathered.records hcursor hdevice hrecords
      rw [Option.bind_some, hcopied.globalHead_eq, hsimt, Bool.false_and,
        if_neg Bool.false_ne_true]
      exact ⟨_, _, rfl⟩

/-- The loop, from any round on. -/
theorem Ready.rounds {outcomes : ℕ → BlockOutcomes} (rounds : ℕ) {i : ℕ} {s : LaunchFinalize}
    (h : Ready l memInfo i s) :
    ∀ r ∈ reportBlocks l (globalHead l memInfo) outcomes rounds i s,
      SoundBlock l memInfo (outcomes r.blockIdx) r.blockIdx →
        Framed l memInfo (outcomes r.blockIdx) r := by
  induction rounds generalizing i s with
  | zero => exact fun r hr => absurd hr List.not_mem_nil
  | succ rounds ih =>
    intro r hr
    unfold reportBlocks at hr
    cases hround : reportBlock l (globalHead l memInfo) (outcomes i) i s with
    | none =>
      rw [hround] at hr
      exact absurd hr List.not_mem_nil
    | some result =>
      rw [hround] at hr
      obtain ⟨hnext, hblock, hframed⟩ := h.round hround
      cases List.mem_cons.mp hr with
      | inl hfirst =>
        rw [hfirst, hblock]
        exact hframed
      | inr hrest => exact ih hnext r hrest

/-- `GlobalHeadD2H` readies the first round. -/
theorem ready_zero {ok : Bool} {fresh : List UInt8}
    (hhead : globalHeadD2H l ok ⟨memInfo, memInfo, 0, 0, fresh⟩ = some s) :
    Ready l memInfo 0 s := by
  unfold globalHeadD2H at hhead
  obtain ⟨t, ht, rfl⟩ := Option.map_eq_some_iff.mp hhead
  obtain ⟨-, hwrite⟩ := memcpyD2H_some ht
  have hprefix := @prefix_write ⟨memInfo, memInfo, 0, 0, fresh⟩ [] List.nil_prefix
    (globalBytes l memInfo) 0 rfl
  rw [List.nil_append, globalBytes, ← hwrite] at hprefix
  have hcursor : t.memInfoHost = 0 := congrArg LaunchFinalize.memInfoHost hwrite
  have hdevice : t.memInfo = memInfo := congrArg LaunchFinalize.memInfo hwrite
  have hbackUp : t.memInfoBackUp = memInfo := congrArg LaunchFinalize.memInfoBackUp hwrite
  constructor
  case buffer => exact hprefix
  case cursor => rw [hcursor, toNat_sizeofRecordGlobalHead]
  case device =>
    rw [hdevice]
    rfl
  case backUp =>
    rw [hbackUp]
    rfl

end

/-- When the global head and the registers are copied, the loop starts at the first block. -/
theorem process_eq {l : Launch} {outcomes : Outcomes} (hhead : outcomes.globalHead = true)
    (hregisters : outcomes.registers = true) (memInfo : UInt64) (fresh : List UInt8) :
    ∃ s, Ready l memInfo 0 s ∧ process l outcomes memInfo fresh =
      reportBlocks l (globalHead l memInfo) outcomes.block
        (globalHead l memInfo).kernelInfo.totalBlockDim.toNat 0 s := by
  have hroom : sizeofRecordGlobalHead.toNat ≤ l.blockSize.toNat := by
    rw [toNat_blockSize, toNat_sizeofRecordGlobalHead]
    omega
  unfold process
  cases hcopy : globalHeadD2H l outcomes.globalHead ⟨memInfo, memInfo, 0, 0, fresh⟩ with
  | none =>
    rw [globalHeadD2H, memcpyD2H_eq hhead hroom] at hcopy
    cases hcopy
  | some s =>
    have hready := ready_zero hcopy
    refine ⟨s, hready, ?_⟩
    dsimp only
    rw [if_pos hregisters, reportBlockInfo, globalHead_of_front hready.buffer]

/-- What is not zero in a record buffer with two blocks of 1 MB. Only the second one has no
count of its records. -/
def image : List (UInt64 × UInt8) :=
  [(8, 1), (12, 255), (13, 255), (24, 2), (56, 128),
    (38528, 1), (38536, 1), (38544, 8), (38552, 8), (38656, 7),
    (1087248, 8), (1087256, 8)]

def twoBlocks : Launch where
  deviceType := .ascend310P
  cacheSize := 1
  device := fun addr => (image.lookup (addr - 0x10000)).getD 0
  memInfoHostAddr := 0x7F0000000000

/-- The runtime copies whatever fits. -/
def allCopied : Outcomes where
  globalHead := true
  registers := true
  block := fun _ => ⟨true, true, true, true, true, ⟨true, true, true⟩⟩

theorem globalHead_twoBlocks :
    globalHead twoBlocks 0x10000 = ⟨⟨1, -1⟩, ⟨2, 0⟩, ⟨128, 0, 0, 0, 0⟩, false⟩ := by
  rw [globalHead_eq]
  decide +kernel

theorem blockHead_firstBlock :
    blockHead twoBlocks 0x10000 0 = ⟨⟨8, ⟨0, 0, 0⟩⟩, 1, 1, 8, 0⟩ := by
  rw [blockHead_eq, blockAddr, globalHead_twoBlocks]
  decide +kernel

theorem blockHead_secondBlock :
    blockHead twoBlocks 0x10000 1 = ⟨⟨8, ⟨0, 0, 0⟩⟩, 0, 0, 8, 0⟩ := by
  rw [blockHead_eq, blockAddr, globalHead_twoBlocks]
  decide +kernel

theorem soundBlock_firstBlock : SoundBlock twoBlocks 0x10000 (allCopied.block 0) 0 := by
  constructor
  case records =>
    rw [blockHead_firstBlock]
    decide
  case shadow =>
    intro hsimt
    rw [isSimtBlock, globalHead_twoBlocks] at hsimt
    cases hsimt

/-- Both blocks are reported, one after the other. -/
theorem process_twoBlocks (fresh : List UInt8) : ∃ s t u first second, Ready twoBlocks 0x10000 0 s ∧
    reportBlock twoBlocks (globalHead twoBlocks 0x10000) (allCopied.block 0) 0 s = some (first, t) ∧
    reportBlock twoBlocks (globalHead twoBlocks 0x10000) (allCopied.block 1) 1 t =
      some (second, u) ∧
    process twoBlocks allCopied 0x10000 fresh = [first, second] := by
  have hsimt : (globalHead twoBlocks 0x10000).supportSimt = false := by rw [globalHead_twoBlocks]
  have hdim : (globalHead twoBlocks 0x10000).kernelInfo.totalBlockDim.toNat = 2 := by
    rw [globalHead_twoBlocks]
    rfl
  have hsize := toNat_blockSize twoBlocks
  have hcache : twoBlocks.cacheSize.toNat = 1 := rfl
  obtain ⟨s, hready, hprocess⟩ :=
    @process_eq twoBlocks allCopied rfl rfl 0x10000 fresh
  have hroom : 38656 + (blockHead twoBlocks 0x10000 0).writeOffset.toNat ≤
      twoBlocks.blockSize.toNat := by
    rw [blockHead_firstBlock]
    change 38656 + 8 ≤ _
    omega
  have hroom' : 38656 + (blockHead twoBlocks 0x10000 1).writeOffset.toNat ≤
      twoBlocks.blockSize.toNat := by
    rw [blockHead_secondBlock]
    change 38656 + 8 ≤ _
    omega
  obtain ⟨first, t, hfirst⟩ :=
    @Ready.exists_round _ _ _ _ (allCopied.block 0) hready hsimt rfl rfl hroom
  have hnext : Ready twoBlocks 0x10000 1 t := (hready.round hfirst).1
  obtain ⟨second, u, hsecond⟩ :=
    @Ready.exists_round _ _ _ _ (allCopied.block 1) hnext hsimt rfl rfl hroom'
  refine ⟨s, t, u, first, second, hready, hfirst, hsecond, ?_⟩
  rw [hprocess, hdim]
  unfold reportBlocks
  rw [hfirst]
  dsimp only
  unfold reportBlocks
  rw [hsecond]
  rfl

/-- In every launch the body of a block whose head and shadow memory are sound consists of the
global head and the block's own bytes, whatever the other blocks have left in the host buffer. -/
theorem process_framed (l : Launch) (memInfo : UInt64) (outcomes : Outcomes) (fresh : List UInt8) :
    ∀ r ∈ process l outcomes memInfo fresh,
      SoundBlock l memInfo (outcomes.block r.blockIdx) r.blockIdx →
        Framed l memInfo (outcomes.block r.blockIdx) r := by
  unfold process
  cases hhead : globalHeadD2H l outcomes.globalHead ⟨memInfo, memInfo, 0, 0, fresh⟩ with
  | none => exact fun r hr => absurd hr List.not_mem_nil
  | some s =>
    dsimp only
    split_ifs with hregisters
    · have hready := ready_zero hhead
      unfold reportBlockInfo
      rw [globalHead_of_front hready.buffer]
      exact hready.rounds _
    · exact fun r hr => absurd hr List.not_mem_nil

theorem process_framed_firstBlock :
    ∃ r ∈ process twoBlocks allCopied 0x10000 (List.replicate 1087232 0),
      r.blockIdx = 0 ∧ Framed twoBlocks 0x10000 (allCopied.block 0) r := by
  obtain ⟨s, t, u, first, second, hready, hfirst, -, hprocess⟩ :=
    process_twoBlocks (List.replicate 1087232 0)
  obtain ⟨-, hblock, -⟩ := hready.round hfirst
  have hmem : first ∈ process twoBlocks allCopied 0x10000 (List.replicate 1087232 0) := by
    rw [hprocess]
    exact List.mem_cons_self
  have hframed := process_framed twoBlocks 0x10000 allCopied (List.replicate 1087232 0) first hmem
  rw [hblock] at hframed
  exact ⟨first, hmem, hblock, hframed soundBlock_firstBlock⟩

end Msopcom.BlockReport
