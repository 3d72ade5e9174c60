import Msopcom.ShadowMemoryDecoding
import Msopcom.ShadowMemoryReport

set_option autoImplicit false

/-!
# What a reader finds in a reported body

The head is written before the records are, so a copy of the records that fails
leaves a head which counts records that nobody wrote.
-/
namespace Msopcom.ShadowMemoryBody
open Bytes Splice Words

theorem length_headBytes (recordCount : UInt64) : (headBytes recordCount).length = 16 := by
  unfold headBytes
  rw [List.length_append, List.length_append, length_leBytes, length_leBytes, List.length_replicate]

theorem length_recordBytes (r : ShadowMemoryRecord) : (recordBytes r).length = 64 := by
  unfold recordBytes
  simp only [List.length_append, length_leBytes, List.length_replicate]

theorem length_recordsBytes (records : List ShadowMemoryRecord) :
    (recordsBytes records).length = 64 * records.length := by
  induction records with
  | nil => rfl
  | cons r records ih =>
    change (recordBytes r ++ recordsBytes records).length = 64 * (records.length + 1)
    rw [List.length_append, length_recordBytes, ih]
    omega

def recordCount (body : List UInt8) : UInt64 := wordAt body 8

theorem recordCount_headBytes (count : UInt64) (rest : List UInt8) :
    recordCount (headBytes count ++ rest) = count := by
  have hfront : (leBytes 4 shadowMemoryRecordType ++ List.replicate 4 (0 : UInt8)).length = 8 := by
    rw [List.length_append, length_leBytes, List.length_replicate]
  unfold recordCount headBytes
  rw [List.append_assoc]
  exact wordAt_append hfront count rest

/-- One head, the records it counts, and nothing else. -/
structure CoversRecords (records : List ShadowMemoryRecord) (ret : UInt64) (body : List UInt8) :
    Prop where
  head : body.take 16 = headBytes (recordCount body)
  length : ret.toNat = 16 + 64 * (recordCount body).toNat
  records : (body.drop 16).take (64 * (recordCount body).toNat) = recordsBytes records

/-- A body of length zero is not reported. -/
def BodyConsistent (block : FinalizeBlock) : Prop :=
  (shadowMemoryD2H block).1 ≠ 0 →
    CoversRecords (parsedRecords block) (shadowMemoryD2H block).1 (shadowMemoryD2H block).2

def recordsSize (block : FinalizeBlock) : UInt64 := UInt64.ofNat (parsedRecords block).length

theorem length_parsedRecords_le (block : FinalizeBlock) :
    (parsedRecords block).length ≤ 65537 * 2 ^ 32 :=
  ShadowMemoryDecoding.length_parseSmTable_le _ _ _

theorem toNat_recordsSize (block : FinalizeBlock) :
    (recordsSize block).toNat = (parsedRecords block).length := by
  have hle := length_parsedRecords_le block
  exact toNat_ofNat64 (by omega)

theorem recordsSize_eq_zero_iff (block : FinalizeBlock) :
    recordsSize block = 0 ↔ parsedRecords block = [] := by
  have hsize := toNat_recordsSize block
  rw [← UInt64.toNat_inj, hsize]
  exact List.length_eq_zero_iff

theorem toNat_recordsLength (block : FinalizeBlock) :
    (recordsSize block * sizeofShadowMemoryRecord).toNat = 64 * (parsedRecords block).length := by
  have hsize := toNat_recordsSize block
  have hle := length_parsedRecords_le block
  rw [toNat_mul64 (by rw [hsize]; change _ * 64 < _; omega), hsize, Nat.mul_comm]
  rfl

def withHead (block : FinalizeBlock) : List UInt8 :=
  headBytes (recordsSize block) ++ (copiedShadowMemory block).drop 16

theorem copyN_head (block : FinalizeBlock) :
    copyN (headBytes (recordsSize block)) sizeofShadowMemoryRecordHead.toNat
      (copiedShadowMemory block) 0 = withHead block := by
  have htake : (headBytes (recordsSize block)).take 16 = headBytes (recordsSize block) :=
    List.take_of_length_le (length_headBytes _).le
  change (copiedShadowMemory block).take 0 ++ (headBytes (recordsSize block)).take 16 ++
    (copiedShadowMemory block).drop (0 + 16) = _
  rw [List.take_zero, List.nil_append, htake, Nat.zero_add]
  rfl

theorem copyN_records (block : FinalizeBlock) :
    copyN (recordsBytes (parsedRecords block))
      (recordsSize block * sizeofShadowMemoryRecord).toNat (withHead block)
      sizeofShadowMemoryRecordHead.toNat =
      headBytes (recordsSize block) ++ (recordsBytes (parsedRecords block) ++
        (withHead block).drop (16 + 64 * (parsedRecords block).length)) := by
  have htake : (recordsBytes (parsedRecords block)).take (64 * (parsedRecords block).length) =
      recordsBytes (parsedRecords block) :=
    List.take_of_length_le (length_recordsBytes _).le
  rw [toNat_recordsLength]
  change (withHead block).take 16 ++ _ ++ (withHead block).drop (16 + _) = _
  have hhead : (withHead block).take 16 = headBytes (recordsSize block) :=
    List.take_left' (length_headBytes _)
  rw [htake, hhead, List.append_assoc]

/-! ## The outcomes -/

section
variable {block : FinalizeBlock}

theorem unreported (h : ¬ (shadowMemoryCopyOk block = true ∧ recordHeadCopyOk block = true)) :
    (shadowMemoryD2H block).1 = 0 := by
  unfold shadowMemoryD2H
  by_cases hshadow : shadowMemoryCopyOk block = true
  · have hhead : ¬ recordHeadCopyOk block = true := fun hhead => h ⟨hshadow, hhead⟩
    rw [if_pos hshadow]
    dsimp only
    rw [if_neg hhead]
  · rw [if_neg hshadow]

/-- Behind the second copy: the head alone, or the head and the records. -/
theorem reported (hshadow : shadowMemoryCopyOk block = true)
    (hhead : recordHeadCopyOk block = true) :
    shadowMemoryD2H block =
      if recordsSize block ≠ 0 ∧ recordsCopyOk block (recordsSize block) = true then
        (sizeofShadowMemoryRecordHead + recordsSize block * sizeofShadowMemoryRecord,
          headBytes (recordsSize block) ++ (recordsBytes (parsedRecords block) ++
            (withHead block).drop (16 + 64 * (parsedRecords block).length)))
      else (sizeofShadowMemoryRecordHead, withHead block) := by
  have hcopied := copyN_head block
  have hrecords := copyN_records block
  unfold recordsSize at *
  unfold shadowMemoryD2H
  rw [if_pos hshadow]
  dsimp only
  rw [if_pos hhead, hcopied, hrecords]
  by_cases hzero : UInt64.ofNat (parsedRecords block).length = 0
  · rw [if_pos hzero, if_neg fun h => h.1 hzero]
  · rw [if_neg hzero]
    by_cases hcopy : recordsCopyOk block (UInt64.ofNat (parsedRecords block).length) = true
    · rw [if_pos hcopy, if_pos ⟨hzero, hcopy⟩]
    · rw [if_neg hcopy, if_neg fun h => hcopy h.2]

theorem coversRecords_full :
    CoversRecords (parsedRecords block)
      (sizeofShadowMemoryRecordHead + recordsSize block * sizeofShadowMemoryRecord)
      (headBytes (recordsSize block) ++ (recordsBytes (parsedRecords block) ++
        (withHead block).drop (16 + 64 * (parsedRecords block).length))) := by
  have hle := length_parsedRecords_le block
  have hbytes := toNat_recordsLength block
  have hcount := recordCount_headBytes (recordsSize block) (recordsBytes (parsedRecords block) ++
    (withHead block).drop (16 + 64 * (parsedRecords block).length))
  have hsize := toNat_recordsSize block
  constructor
  case head =>
    rw [hcount]
    exact List.take_left' (length_headBytes _)
  case length =>
    rw [hcount, hsize, toNat_add64 (by rw [hbytes]; change 16 + _ < _; omega), hbytes]
    rfl
  case records =>
    rw [hcount, hsize, List.drop_left' (length_headBytes _)]
    exact List.take_left' (length_recordsBytes _)

theorem coversRecords_empty (hnil : parsedRecords block = []) :
    CoversRecords (parsedRecords block) sizeofShadowMemoryRecordHead (withHead block) := by
  have hcount : recordCount (withHead block) = recordsSize block :=
    recordCount_headBytes (recordsSize block) _
  have hzero : recordsSize block = 0 := (recordsSize_eq_zero_iff block).mpr hnil
  constructor
  case head =>
    rw [hcount]
    exact List.take_left' (length_headBytes _)
  case length =>
    rw [hcount, hzero]
    rfl
  case records =>
    rw [hcount, hzero, hnil]
    rfl

theorem not_coversRecords_headOnly (hne : parsedRecords block ≠ []) :
    ¬ CoversRecords (parsedRecords block) sizeofShadowMemoryRecordHead (withHead block) := by
  intro hcovers
  have hcount : recordCount (withHead block) = recordsSize block :=
    recordCount_headBytes (recordsSize block) _
  have hlength := hcovers.length
  have hsize := toNat_recordsSize block
  have hpos := List.length_pos_iff.mpr hne
  rw [hcount, hsize] at hlength
  change 16 = 16 + 64 * (parsedRecords block).length at hlength
  omega

/-- The copy of the records is reached, has something to write, and fails. -/
def LosesRecords (block : FinalizeBlock) : Prop :=
  shadowMemoryCopyOk block = true ∧ recordHeadCopyOk block = true ∧
    parsedRecords block ≠ [] ∧ recordsCopyOk block (recordsSize block) = false

theorem not_bodyConsistent_of_loses (h : LosesRecords block) : ¬ BodyConsistent block := by
  obtain ⟨hshadow, hhead, hne, hcopy⟩ := h
  intro hconsistent
  unfold BodyConsistent at hconsistent
  rw [reported hshadow hhead, if_neg fun h => Bool.false_ne_true (hcopy.symm.trans h.2)]
    at hconsistent
  have hreported : sizeofShadowMemoryRecordHead ≠ 0 := by decide
  exact not_coversRecords_headOnly hne (hconsistent hreported)

end

/-- A reported body covers its head and the records it counts, unless the copy of the
records fails behind the copy of the head. -/
theorem bodyConsistent_iff (block : FinalizeBlock) :
    BodyConsistent block ↔ ¬ LosesRecords block := by
  constructor
  · intro hconsistent hloses
    exact not_bodyConsistent_of_loses hloses hconsistent
  · intro hkeeps hreported
    by_cases hcopies : shadowMemoryCopyOk block = true ∧ recordHeadCopyOk block = true
    · rw [reported hcopies.1 hcopies.2]
      by_cases hnil : parsedRecords block = []
      · have hzero : recordsSize block = 0 := (recordsSize_eq_zero_iff block).mpr hnil
        rw [if_neg fun h => h.1 hzero]
        exact coversRecords_empty hnil
      · have hne : recordsSize block ≠ 0 := fun h => hnil ((recordsSize_eq_zero_iff block).mp h)
        have hcopy : recordsCopyOk block (recordsSize block) = true := by
          apply Bool.eq_true_of_not_eq_false
          intro hfails
          exact hkeeps ⟨hcopies.1, hcopies.2, hnil, hfails⟩
        rw [if_pos ⟨hne, hcopy⟩]
        exact coversRecords_full
    · exact absurd (unreported hcopies) hreported

/-! ## A block that loses its record -/

/-- Tables for `base` with one entry, at the address zero: the heap head and the three
tables one behind the other, and the rest of the heap. -/
def singleEntryTables (base status : UInt64) : List UInt8 :=
  List.replicate 64 0 ++ leBytes 8 (base + 524360).toNat ++ List.replicate 524288 0 ++
    leBytes 8 (base + 1048648).toNat ++ List.replicate 524280 0 ++
    (leBytes 8 status.toNat ++ List.replicate 51380144 0)

section
variable (base status : UInt64)

theorem length_singleEntryTables : (singleEntryTables base status).length = 52428800 := by
  unfold singleEntryTables
  simp only [List.length_append, List.length_replicate, length_leBytes]

theorem wordAt_l0 : wordAt (singleEntryTables base status) 64 = base + 524360 := by
  have hfront : (List.replicate 64 (0 : UInt8)).length = 64 := List.length_replicate
  unfold singleEntryTables
  rw [List.append_assoc, List.append_assoc, List.append_assoc, List.append_assoc]
  exact wordAt_append hfront _ _

theorem wordAt_l1 : wordAt (singleEntryTables base status) 524360 = base + 1048648 := by
  have hfront : (List.replicate 64 (0 : UInt8) ++ leBytes 8 (base + 524360).toNat ++
      List.replicate 524288 0).length = 524360 := by
    simp only [List.length_append, List.length_replicate, length_leBytes]
  unfold singleEntryTables
  rw [List.append_assoc, List.append_assoc]
  exact wordAt_append hfront _ _

theorem wordAt_l2 : wordAt (singleEntryTables base status) 1048648 = status := by
  have hfront : (List.replicate 64 (0 : UInt8) ++ leBytes 8 (base + 524360).toNat ++
      List.replicate 524288 0 ++ leBytes 8 (base + 1048648).toNat ++
      List.replicate 524280 0).length = 1048648 := by
    simp only [List.length_append, List.length_replicate, length_leBytes]
  unfold singleEntryTables
  exact wordAt_append hfront _ _

end

/-- The default cache of 100 MB; one byte was written, and the runtime fails to copy the
record of it. -/
def failedRecordsBlock : FinalizeBlock where
  blockSize := 104896256
  globalHead := ⟨⟨100, -1⟩, ⟨1, 100⟩, ⟨128, 5056, 41943168, 52428800, 52428928⟩, true⟩
  blockHead := ⟨0, ⟨0, 32, 1⟩⟩
  memInfoBackUp := 0x12C040000000
  memInfoHost := []
  shadowMemory := singleEntryTables (0x12C040000000 + 52428928) 0x0000123400001805
  runtime := ⟨true, true, false⟩

theorem copiedShadowMemory_failedRecordsBlock :
    copiedShadowMemory failedRecordsBlock =
      singleEntryTables (0x12C040000000 + 52428928) 0x0000123400001805 := by
  have hlen := length_singleEntryTables (0x12C040000000 + 52428928) 0x0000123400001805
  change [] ++ (singleEntryTables (0x12C040000000 + 52428928) 0x0000123400001805).take 52428800 ++
    [] = _
  rw [List.nil_append, List.append_nil, List.take_of_length_le hlen.le]

theorem hasEntry_failedRecordsBlock :
    ShadowMemoryDecoding.HasEntry (fun off => wordAt (copiedShadowMemory failedRecordsBlock) off.toNat)
      (smBaseAddr failedRecordsBlock) 0 0 0 := by
  have hbase : smBaseAddr failedRecordsBlock = 0x12C040000000 + 52428928 := by decide
  have hl0 := wordAt_l0 (0x12C040000000 + 52428928) 0x0000123400001805
  have hl1 := wordAt_l1 (0x12C040000000 + 52428928) 0x0000123400001805
  have hl2 := wordAt_l2 (0x12C040000000 + 52428928) 0x0000123400001805
  have hword0 : ShadowMemoryDecoding.l0Word
      (fun off => wordAt (copiedShadowMemory failedRecordsBlock) off.toNat) 0 =
      0x12C040000000 + 52428928 + 524360 := by
    have hoff : (sizeofShadowMemoryHeapHead + 8 * UInt64.ofNat 0).toNat = 64 := by decide
    unfold ShadowMemoryDecoding.l0Word
    dsimp only
    rw [hoff, copiedShadowMemory_failedRecordsBlock, hl0]
  have hword1 : ShadowMemoryDecoding.l1Word
      (fun off => wordAt (copiedShadowMemory failedRecordsBlock) off.toNat)
      (smBaseAddr failedRecordsBlock) 0 0 = 0x12C040000000 + 52428928 + 1048648 := by
    have hoff : ((0x12C040000000 : UInt64) + 52428928 + 524360 - (0x12C040000000 + 52428928) +
        8 * UInt64.ofNat 0).toNat = 524360 := by decide
    unfold ShadowMemoryDecoding.l1Word
    rw [hword0, hbase]
    dsimp only
    rw [hoff, copiedShadowMemory_failedRecordsBlock, hl1]
  have hword2 : ShadowMemoryDecoding.l2Word
      (fun off => wordAt (copiedShadowMemory failedRecordsBlock) off.toNat)
      (smBaseAddr failedRecordsBlock) 0 0 0 = 0x0000123400001805 := by
    have hoff : ((0x12C040000000 : UInt64) + 52428928 + 1048648 - (0x12C040000000 + 52428928) +
        8 * UInt64.ofNat 0).toNat = 1048648 := by decide
    unfold ShadowMemoryDecoding.l2Word
    rw [hword1, hbase]
    dsimp only
    rw [hoff, copiedShadowMemory_failedRecordsBlock, hl2]
  constructor
  case l0Bound => decide
  case l1Bound => decide
  case l2Bound => decide
  case l0Table =>
    rw [hword0]
    decide
  case l1Table =>
    rw [hword1]
    decide
  case status =>
    rw [hword2]
    decide

theorem losesRecords_failedRecordsBlock : LosesRecords failedRecordsBlock := by
  refine ⟨by decide, by decide, ?_, rfl⟩
  intro hnil
  have hexpand := ShadowMemoryDecoding.flatMap_expand_parseSmTable
    (fun off => wordAt (copiedShadowMemory failedRecordsBlock) off.toNat)
    (smBaseAddr failedRecordsBlock) failedRecordsBlock.blockHead
  have hentry := ShadowMemoryDecoding.mem_smEntries.mpr
    ⟨0, 0, 0, hasEntry_failedRecordsBlock, rfl⟩
  unfold parsedRecords at hnil
  rw [hnil, List.flatMap_nil, eq_comm, List.map_eq_nil_iff] at hexpand
  rw [hexpand] at hentry
  exact List.not_mem_nil hentry

/-- The head that is reported counts a record which is not there. -/
theorem failedRecordsBlock_inconsistent : ¬ BodyConsistent failedRecordsBlock :=
  not_bodyConsistent_of_loses losesRecords_failedRecordsBlock

end Msopcom.ShadowMemoryBody
