import Msopcom.MetaSection

set_option autoImplicit false

/-!
# Encoding argument records

The records that the parser knows, as a list of bytes, and what it makes of them.
-/
namespace Msopcom.MetaEncode
open FuelLoop MetaRecord MetaWalk MetaRecordView MetaFraming MetaSection Bytes

def beBytes (n x : ℕ) : List UInt8 := (leBytes n x).reverse

@[simp] theorem length_beBytes (n x : ℕ) : (beBytes n x).length = n := by
  rw [beBytes, List.length_reverse, length_leBytes]

theorem beNat_reverse (bytes : List UInt8) : beNat bytes.reverse = leNat bytes := by
  rw [beNat, List.foldl_reverse]
  induction bytes with
  | nil => rfl
  | cons b bytes ih =>
    rw [List.foldr_cons, ih, leNat, Nat.add_comm]

theorem beNat_beBytes {n x : ℕ} (h : x < 256 ^ n) : beNat (beBytes n x) = x := by
  rw [beBytes, beNat_reverse, leNat_leBytes h]

theorem be16_beBytes {n : ℕ} (hn : n < 2 ^ 16) : be16 (beBytes 2 n) 0 = n := by
  have hlow : (UInt8.ofNat n).toNat = n % 2 ^ 8 := UInt8.toNat_ofNat'
  have hhigh : (UInt8.ofNat (n / 256)).toNat = n / 256 % 2 ^ 8 := UInt8.toNat_ofNat'
  change 256 * (UInt8.ofNat (n / 256)).toNat + (UInt8.ofNat n).toNat = n
  omega

theorem be16_field {front rest : List UInt8} {index : UInt32} {n : ℕ}
    (hindex : index.toNat = front.length) (hfit : front.length + 2 < 2 ^ 32) (hn : n < 2 ^ 16) :
    be16 (front ++ (beBytes 2 n ++ rest)) index = n := by
  have hzero : be16 (front ++ (beBytes 2 n ++ rest)) (index + 0) = be16 (beBytes 2 n) 0 :=
    be16_context hindex (by rwa [length_beBytes]) rfl (by rw [length_beBytes]; decide)
  rw [UInt32.add_zero, be16_beBytes hn] at hzero
  exact hzero

theorem wordAt_field {front : List UInt8} {k : ℕ} (hk : front.length = k) (word : UInt64)
    (rest : List UInt8) : MetaFraming.wordAt (front ++ (beBytes 8 word.toNat ++ rest)) k = word := by
  rw [MetaFraming.wordAt, List.drop_left' hk, List.take_left' (length_beBytes 8 _),
    beNat_beBytes word.toNat_lt, UInt64.ofNat_toNat]

/-! ## Records -/

def tensorTypeCode : DfxTensorType → ℕ
  | .invalidTensor => 0
  | .generalTensor => 1
  | .inputTensor => 2
  | .outputTensor => 3
  | .workspaceTensor => 4
  | .ascendcLog => 5
  | .mc2Ctx => 6
  | .tilingData => 7
  | .l1 => 8
  | .l2 => 9
  | .overflowMes => 10
  | .fftsAddress => 11
  | .shapeTensor => 12
  | .unknown => 13

/-- A record of a type in the table: its first word names the type and the kind of
pointer, `length` is the second, and a second-level pointer has its data type size in
the third. The other bytes are not looked at. -/
structure ArgRecord where
  type : DfxTensorType
  handler : DfxHandler
  known : dfxParser type = some handler
  level2 : Bool
  reserved : UInt16
  upper : UInt32
  length : UInt64
  words : List UInt64
  enough : level2 = true → 2 ≤ words.length
  fits : words.length + 2 < 2 ^ 16

namespace ArgRecord

def pointer (r : ArgRecord) : DfxPointerType :=
  if r.level2 then .level2PointerWithShape else .level1Pointer

def pointerCode (r : ArgRecord) : ℕ := if r.level2 then 3 else 1

def dtypeBytes (r : ArgRecord) : UInt64 := r.words.headD 0

def numOfUint64 (r : ArgRecord) : ℕ := r.words.length + 2

def encode (r : ArgRecord) : List UInt8 :=
  beBytes 2 r.reserved.toNat ++ (beBytes 2 r.numOfUint64 ++ (beBytes 4 r.upper.toNat ++
    (beBytes 2 r.pointerCode ++ (beBytes 2 (tensorTypeCode r.type) ++
      (beBytes 8 r.length.toNat ++ r.words.flatMap fun word => beBytes 8 word.toNat)))))

def size (r : ArgRecord) : ℕ := 4 + r.numOfUint64 * 8

theorem length_encode (r : ArgRecord) : r.encode.length = r.size := by
  have hwords : (r.words.flatMap fun word => beBytes 8 word.toNat).length =
      8 * r.words.length := by
    induction r.words with
    | nil => rfl
    | cons word words ih =>
      rw [List.flatMap_cons, List.length_append, ih, length_beBytes, List.length_cons]
      omega
  simp only [encode, List.length_append, length_beBytes, hwords, size, numOfUint64]
  omega

theorem encode_fields (r : ArgRecord) (rest : List UInt8) :
    r.encode ++ rest = beBytes 2 r.reserved.toNat ++ (beBytes 2 r.numOfUint64 ++
      (beBytes 4 r.upper.toNat ++ (beBytes 2 r.pointerCode ++
        (beBytes 2 (tensorTypeCode r.type) ++ (beBytes 8 r.length.toNat ++
          ((r.words.flatMap fun word => beBytes 8 word.toNat) ++ rest)))))) := by
  simp only [encode, List.append_assoc]

theorem numOfUint64_encode (r : ArgRecord) (rest : List UInt8) :
    MetaRecord.numOfUint64 (r.encode ++ rest) 0 = r.numOfUint64 := by
  rw [encode_fields, MetaRecord.numOfUint64]
  exact be16_field (by rw [length_beBytes]; rfl) (by rw [length_beBytes]; decide) r.fits

theorem pointerType_encode (r : ArgRecord) (rest : List UInt8) :
    pointerType (r.encode ++ rest) 0 = r.pointer := by
  have hcode : r.pointerCode < 2 ^ 16 := by
    rw [pointerCode]
    split_ifs <;> decide
  rw [encode_fields, pointerType, ← List.append_assoc, ← List.append_assoc,
    be16_field (by simp only [List.length_append, length_beBytes]; rfl)
      (by simp only [List.length_append, length_beBytes]; decide) hcode, pointerCode, pointer]
  cases r.level2 <;> rfl

theorem tensorType_encode (r : ArgRecord) (rest : List UInt8) :
    tensorType (r.encode ++ rest) 0 = r.type := by
  have hcode : tensorTypeCode r.type < 2 ^ 16 := by
    cases r.type <;> decide
  rw [encode_fields, tensorType, ← List.append_assoc, ← List.append_assoc, ← List.append_assoc,
    be16_field (by simp only [List.length_append, length_beBytes]; rfl)
      (by simp only [List.length_append, length_beBytes]; decide) hcode]
  cases r.type <;> rfl

theorem wordAt_length (r : ArgRecord) (rest : List UInt8) :
    MetaFraming.wordAt (r.encode ++ rest) 12 = r.length := by
  rw [encode_fields, ← List.append_assoc, ← List.append_assoc, ← List.append_assoc,
    ← List.append_assoc]
  exact wordAt_field (by simp only [List.length_append, length_beBytes]) _ _

theorem wordAt_dtypeBytes (r : ArgRecord) (hlevel : r.level2 = true) (rest : List UInt8) :
    MetaFraming.wordAt (r.encode ++ rest) 20 = r.dtypeBytes := by
  have henough := r.enough hlevel
  rw [encode_fields, dtypeBytes]
  cases hwords : r.words with
  | nil =>
    rw [hwords] at henough
    exact absurd henough (by decide)
  | cons word words =>
    rw [List.flatMap_cons, List.append_assoc, ← List.append_assoc, ← List.append_assoc,
      ← List.append_assoc, ← List.append_assoc, ← List.append_assoc]
    exact wordAt_field (by simp only [List.length_append, length_beBytes]) _ _

theorem recordSize_encode (r : ArgRecord) (rest : List UInt8) :
    recordSize (r.encode ++ rest) = r.size := by
  rw [recordSize, numOfUint64_encode, size]

theorem decodable_encode (r : ArgRecord) (rest : List UInt8) :
    Decodable (r.encode ++ rest) r.handler := by
  have hlength : (r.encode ++ rest).length = 4 + (r.words.length + 2) * 8 + rest.length := by
    rw [List.length_append, length_encode, size, numOfUint64]
  constructor
  case first => omega
  case counted => rw [numOfUint64_encode, numOfUint64]; omega
  case type => rw [tensorType_encode, r.known]
  case pointer =>
    rw [pointerType_encode, pointer]
    cases r.level2 <;> rfl
  case second =>
    intro hlevel
    rw [pointerType_encode, pointer] at hlevel
    cases htwo : r.level2 with
    | false =>
      rw [htwo] at hlevel
      cases hlevel
    | true =>
      have henough := r.enough htwo
      omega
  case word => exact fun _ => by omega

def view (r : ArgRecord) : RecordView where
  handler := r.handler
  length := r.length
  dtypeBytes := if r.level2 then some r.dtypeBytes else none

theorem recordView_encode (r : ArgRecord) (rest : List UInt8) :
    recordView (r.encode ++ rest) r.handler = r.view := by
  rw [recordView, view, wordAt_length, pointerType_encode, pointer]
  cases hlevel : r.level2 with
  | false => rfl
  | true => rw [wordAt_dtypeBytes r hlevel]; rfl

end ArgRecord

def encodeRecords (rs : List ArgRecord) : List UInt8 := rs.flatMap ArgRecord.encode

theorem encodeRecords_cons (r : ArgRecord) (rs : List ArgRecord) :
    encodeRecords (r :: rs) = r.encode ++ encodeRecords rs :=
  List.flatMap_cons

theorem hasRecords_encodeRecords (rs : List ArgRecord) :
    HasRecords (encodeRecords rs) (rs.map ArgRecord.view) := by
  induction rs with
  | nil => exact .nil
  | cons r rs ih =>
    have hsize : recordSize (r.encode ++ encodeRecords rs) = r.encode.length := by
      rw [r.recordSize_encode, r.length_encode]
    rw [encodeRecords_cons, List.map_cons, ← r.recordView_encode (encodeRecords rs)]
    refine .record (r.decodable_encode _) ?_ ?_
    · rw [hsize, List.length_append]
      exact Nat.le_add_right _ _
    · rwa [hsize, List.drop_left]

theorem dfxParser_mc2Ctx (type : DfxTensorType) :
    dfxParser type = some .mc2Ctx ↔ type = .mc2Ctx := by
  cases type <;> decide

theorem ArgRecord.type_eq_mc2Ctx (r : ArgRecord) : r.type = .mc2Ctx ↔ r.handler = .mc2Ctx := by
  rw [← dfxParser_mc2Ctx, r.known, Option.some.injEq]

theorem length_le_encodeRecords (rs : List ArgRecord) :
    20 * rs.length ≤ (encodeRecords rs).length := by
  induction rs with
  | nil => exact Nat.zero_le _
  | cons r rs ih =>
    have hsize : 20 ≤ r.size := by
      rw [ArgRecord.size, ArgRecord.numOfUint64]
      omega
    rw [encodeRecords_cons, List.length_append, r.length_encode, List.length_cons]
    omega

/-- The section of one DFX entry is parsed as its records say. -/
theorem parse_dfxEntry (needAddFftsAddr : Bool) (rs : List ArgRecord)
    (fits : (encodeRecords rs).length < 2 ^ 16) :
    ∃ fuel, parse needAddFftsAddr (encode [dfxEntry (encodeRecords rs) fits]) fuel =
      .ok (found (applyViews needAddFftsAddr (rs.map ArgRecord.view) 0 {}),
        applyViews needAddFftsAddr (rs.map ArgRecord.view) 0 {}) := by
  have hlength : (encode [dfxEntry (encodeRecords rs) fits]).length =
      4 + (encodeRecords rs).length := by
    rw [encode_cons, encode_nil, List.append_nil, MetaEntry.length_encode]
    rfl
  have hsize : 1 ≤ (encode [dfxEntry (encodeRecords rs) fits]).length := by omega
  obtain ⟨fuel, j, hj, hround⟩ := @parseEntry_entry_dfx needAddFftsAddr []
    (dfxEntry (encodeRecords rs) fits) [] {} 0 rfl
    (hlength.trans_lt (by omega)) rfl _
    (leavesWith_of_hasRecords (hasRecords_encodeRecords rs) 0 {})
  cases hfound : found (applyViews needAddFftsAddr (rs.map ArgRecord.view) 0 {}) with
  | false =>
    rw [hfound, if_neg Bool.false_ne_true] at hround
    exact parses_done (parseEntry_mono hsize (Nat.le_succ fuel) _ _ hround)
  | true =>
    rw [hfound, if_pos rfl] at hround
    exact parses_next hsize hround (parses_end hsize hj _)

def fftsArg : ArgRecord := ⟨.fftsAddress, .ffts, rfl, false, 0, 0, 8, [], by decide, by decide⟩

def inputArg : ArgRecord := ⟨.inputTensor, .input, rfl, false, 0, 0, 512, [], by decide, by decide⟩

/-- An output behind a second-level pointer. -/
def pointerArg : ArgRecord :=
  ⟨.outputTensor, .input, rfl, true, 0, 0, 512, [4, 0], by decide, by decide⟩

def tilingArg : ArgRecord := ⟨.tilingData, .tiling, rfl, false, 0, 0, 64, [], by decide, by decide⟩

def sampleRecords : List ArgRecord := [fftsArg, pointerArg, tilingArg]

example : inputsFrom (sampleRecords.map ArgRecord.view) 0 = [⟨0, 512, .extra, .input, 2⟩] ∧
    secondPtrsFrom (sampleRecords.map ArgRecord.view) 0 = [(1, { dtypeBytes := 4 })] ∧
    tilingSize (sampleRecords.map ArgRecord.view) = 64 := by
  decide

end Msopcom.MetaEncode
