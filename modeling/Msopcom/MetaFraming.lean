import Msopcom.MetaRecordView
import Msopcom.Bytes

set_option autoImplicit false

/-!
# The framing of the meta section

Where the parser goes on after a DFX value, for every section that the value may
stand in.
-/
namespace Msopcom.MetaFraming
open FuelLoop MetaRecord MetaWalk MetaRecordView

/-! ## A record among other bytes -/

section Context
variable {front w post : List UInt8} {index : UInt32}

theorem toNat_add_of_lt {a b : UInt32} {n : ℕ} (ha : a.toNat = n) (h : n + b.toNat < 2 ^ 32) :
    (a + b).toNat = n + b.toNat := by
  rw [Words.toNat_add32 (by rwa [ha]), ha]

theorem length_context :
    (front ++ (w ++ post)).length = front.length + w.length + post.length := by
  rw [List.length_append, List.length_append, Nat.add_assoc]

variable (hindex : index.toNat = front.length) (hfit : front.length + w.length < 2 ^ 32)
include hindex hfit

theorem byteOf_context {k : UInt32} (hk : k.toNat < w.length) :
    byteOf (front ++ (w ++ post)) (index + k) = byteOf w k := by
  rw [byteOf, byteOf, toNat_add_of_lt hindex (by omega), List.getD_eq_getElem?_getD,
    List.getD_eq_getElem?_getD, List.getElem?_append_right (Nat.le_add_right _ _),
    Nat.add_sub_cancel_left, List.getElem?_append_left hk]

theorem be16_context {k : UInt32} (hk : (k + 1).toNat = k.toNat + 1)
    (hlt : k.toNat + 1 < w.length) :
    be16 (front ++ (w ++ post)) (index + k) = be16 w k := by
  rw [be16, be16, UInt32.add_assoc, byteOf_context hindex hfit (by omega),
    byteOf_context hindex hfit (by omega)]

theorem inBounds_context {k : UInt32} (hk : (k + 1).toNat = k.toNat + 1)
    (hlt : k.toNat + 1 < w.length) : InBounds16 (front ++ (w ++ post)) (index + k) := by
  rw [InBounds16, UInt32.add_assoc, toNat_add_of_lt hindex (by omega),
    toNat_add_of_lt hindex (by omega), length_context]
  omega

theorem numOfUint64_context (hw : 4 ≤ w.length) :
    numOfUint64 (front ++ (w ++ post)) index = numOfUint64 w 0 :=
  be16_context hindex hfit (k := 2) rfl hw

theorem tensorType_context (hw : 12 ≤ w.length) :
    tensorType (front ++ (w ++ post)) index = tensorType w 0 := by
  rw [tensorType, UInt32.add_assoc, be16_context hindex hfit (k := 4 + 6) rfl hw]
  rfl

theorem pointerType_context (hw : 12 ≤ w.length) :
    pointerType (front ++ (w ++ post)) index = pointerType w 0 := by
  rw [pointerType, UInt32.add_assoc,
    be16_context hindex hfit (k := 4 + 4) rfl (Nat.lt_of_lt_of_le (by decide) hw)]
  rfl

theorem hasWord_context (hw : 12 ≤ w.length) : HasWord (front ++ (w ++ post)) index := by
  rw [HasWord, UInt32.add_assoc, UInt32.add_assoc]
  exact ⟨inBounds_context hindex hfit (k := 4 + 6) rfl hw,
    inBounds_context hindex hfit (k := 4 + 4) rfl (Nat.lt_of_lt_of_le (by decide) hw)⟩

end Context

/-- The 64-bit word behind `k` bytes. -/
def wordAt (w : List UInt8) (k : ℕ) : UInt64 := UInt64.ofNat (beNat ((w.drop k).take 8))

theorem be64At_context {front w post : List UInt8} {k n : ℕ} (hn : n = front.length + k)
    (hk : k + 8 ≤ w.length) : be64At (front ++ (w ++ post)) n = .ok (wordAt w k) := by
  have hdrop : (w.drop k ++ post).take 8 = (w.drop k).take 8 :=
    List.take_append_of_le_length (by rw [List.length_drop]; omega)
  rw [be64At_of_le (by rw [length_context]; omega), hn, ← List.drop_drop, List.drop_left,
    List.drop_append_of_le_length (by omega), hdrop, wordAt]

/-! ## What a record says -/

def recordSize (w : List UInt8) : ℕ := 4 + numOfUint64 w 0 * 8

def recordView (w : List UInt8) (handler : DfxHandler) : RecordView where
  handler := handler
  length := wordAt w 12
  dtypeBytes := if pointerType w 0 = .level2PointerWithShape then some (wordAt w 20) else none

/-- The bytes of a record that is parsed lie in `w`. -/
structure Decodable (w : List UInt8) (handler : DfxHandler) : Prop where
  first : 12 ≤ w.length
  counted : numOfUint64 w 0 ≠ 0
  type : dfxParser (tensorType w 0) = some handler
  pointer : isSupportDfxPointPtr (pointerType w 0) = true
  second : pointerType w 0 = .level2PointerWithShape → 28 ≤ w.length
  word : readsWord handler = true → 20 ≤ w.length

/-- Where the section ends first, the word of the handler is left out. -/
theorem run_cut {needAddFftsAddr : Bool} {front w post : List UInt8} {index : UInt32}
    {memInfo : MetaMemInfo} {handler : DfxHandler} (hindex : index.toNat = front.length)
    (hcut : w.length + post.length < 20) (hend : front.length + 20 < 2 ^ 32)
    (hreads : readsWord handler = true) (paramsNo : UInt32) :
    handler.run needAddFftsAddr (front ++ (w ++ post)) (index + 4 + 8) paramsNo memInfo =
      .ok memInfo := by
  have htwenty : (index + (4 + (8 + 8))).toNat = front.length + 20 := toNat_add_of_lt hindex hend
  have hguard : (front ++ (w ++ post)).length < (8 + (index + 4 + 8)).toNat := by
    rw [UInt32.add_comm 8, UInt32.add_assoc, UInt32.add_assoc, htwenty, length_context]
    omega
  cases handler with
  | ffts => cases hreads
  | mc2Ctx => cases hreads
  | input => rw [DfxHandler.run, parseMetaInput, if_pos hguard]
  | tiling => rw [DfxHandler.run, parseMetaTiling, if_pos hguard]

section Rounds
variable {needAddFftsAddr : Bool} {front w post : List UInt8} {index dfxRange paramsIdx : UInt32}
  {memInfo : MetaMemInfo} (hindex : index.toNat = front.length)
  (hfit : front.length + w.length < 2 ^ 32)
include hindex hfit

theorem readSecondPtr_context (handler : DfxHandler)
    (h : pointerType w 0 = .level2PointerWithShape → 28 ≤ w.length) :
    readSecondPtr (front ++ (w ++ post)) (index + 4) paramsIdx (pointerType w 0) memInfo =
      .ok ((recordView w handler).second paramsIdx memInfo) := by
  rw [readSecondPtr, RecordView.second]
  by_cases hsecond : pointerType w 0 = .level2PointerWithShape
  · have hlong := h hsecond
    have hfour : (index + 4).toNat = front.length + 4 := toNat_add_of_lt hindex (by
      change front.length + 4 < 2 ^ 32
      omega)
    rw [if_pos hsecond, recordView, if_pos hsecond,
      be64At_context (by rw [hfour, Nat.add_assoc]) hlong]
    rfl
  · rw [if_neg hsecond, recordView, if_neg hsecond]

theorem run_context {handler : DfxHandler} (h : readsWord handler = true → 20 ≤ w.length)
    (paramsNo : UInt32) :
    handler.run needAddFftsAddr (front ++ (w ++ post)) (index + 4 + 8) paramsNo memInfo =
      .ok ((recordView w handler).store needAddFftsAddr paramsNo memInfo) := by
  have hword : 20 ≤ w.length → (index + 4 + 8).toNat = front.length + 12 ∧
      ¬ (front ++ (w ++ post)).length < (8 + (index + 4 + 8)).toNat := by
    intro hw
    have htwelve : (index + (4 + 8)).toNat = front.length + 12 := toNat_add_of_lt hindex (by
      change front.length + 12 < 2 ^ 32
      omega)
    have htwenty : (index + (4 + 8 + 8)).toNat = front.length + 20 := toNat_add_of_lt hindex (by
      change front.length + 20 < 2 ^ 32
      omega)
    rw [UInt32.add_comm 8, UInt32.add_assoc, UInt32.add_assoc, htwelve, htwenty, length_context]
    exact ⟨rfl, by omega⟩
  cases handler with
  | ffts => rfl
  | mc2Ctx => rfl
  | input =>
    obtain ⟨hindex', hguard⟩ := hword (h rfl)
    rw [DfxHandler.run, parseMetaInput, if_neg hguard, be64At_context hindex' (h rfl)]
    rfl
  | tiling =>
    obtain ⟨hindex', hguard⟩ := hword (h rfl)
    rw [DfxHandler.run, parseMetaTiling, if_neg hguard, be64At_context hindex' (h rfl)]
    rfl

theorem head_context (hw : 8 ≤ w.length) :
    InBounds16 (front ++ (w ++ post)) (index + 2) :=
  inBounds_context hindex hfit (k := 2) rfl (Nat.lt_of_lt_of_le (by decide) hw)

variable (hrange : index < dfxRange)
include hrange

theorem continues_context (hw : 8 ≤ w.length) :
    Continues (front ++ (w ++ post)) dfxRange index := by
  have hseven : (index + 7).toNat = front.length + 7 := toNat_add_of_lt hindex (by
    change front.length + 7 < 2 ^ 32
    omega)
  refine ⟨hrange, ?_⟩
  rw [hseven, length_context]
  omega

theorem parseRecord_null_context (hw : 8 ≤ w.length) (hnum : numOfUint64 w 0 = 0) :
    parseRecord needAddFftsAddr (front ++ (w ++ post)) dfxRange ⟨index, paramsIdx, memInfo⟩ =
      .ok (.next ⟨index + 4, paramsIdx, memInfo⟩) := by
  apply parseRecord_null (s := ⟨index, paramsIdx, memInfo⟩)
  · exact continues_context hindex hfit hrange hw
  · exact head_context hindex hfit hw
  · rwa [numOfUint64_context hindex hfit (by omega)]

section Counted
variable (hw : 12 ≤ w.length) (hnum : numOfUint64 w 0 ≠ 0)
include hw hnum

theorem parseRecord_unknown_context (htype : dfxParser (tensorType w 0) = none) :
    parseRecord needAddFftsAddr (front ++ (w ++ post)) dfxRange ⟨index, paramsIdx, memInfo⟩ =
      .ok (.done ⟨index + 4 + UInt32.ofNat (numOfUint64 w 0 * 8), paramsIdx, memInfo⟩) := by
  have hcount : numOfUint64 (front ++ (w ++ post)) index = numOfUint64 w 0 :=
    numOfUint64_context hindex hfit (by omega)
  have htensor : tensorType (front ++ (w ++ post)) index = tensorType w 0 :=
    tensorType_context hindex hfit hw
  rw [← hcount] at hnum ⊢
  rw [← htensor] at htype
  exact parseRecord_unknown (s := ⟨index, paramsIdx, memInfo⟩)
    (continues_context hindex hfit hrange (by omega)) (head_context hindex hfit (by omega)) hnum
    (hasWord_context hindex hfit hw) htype

theorem parseRecord_unsupported_context {handler : DfxHandler}
    (htype : dfxParser (tensorType w 0) = some handler)
    (hptr : isSupportDfxPointPtr (pointerType w 0) = false) :
    parseRecord needAddFftsAddr (front ++ (w ++ post)) dfxRange ⟨index, paramsIdx, memInfo⟩ =
      .ok (.done ⟨index + 4, paramsIdx, memInfo.clear⟩) := by
  have hcount : numOfUint64 (front ++ (w ++ post)) index = numOfUint64 w 0 :=
    numOfUint64_context hindex hfit (by omega)
  have htensor : tensorType (front ++ (w ++ post)) index = tensorType w 0 :=
    tensorType_context hindex hfit hw
  have hpointer : pointerType (front ++ (w ++ post)) index = pointerType w 0 :=
    pointerType_context hindex hfit hw
  rw [← hcount] at hnum
  rw [← htensor] at htype
  rw [← hpointer] at hptr
  exact parseRecord_unsupported (s := ⟨index, paramsIdx, memInfo⟩)
    (continues_context hindex hfit hrange (by omega)) (head_context hindex hfit (by omega)) hnum
    (hasWord_context hindex hfit hw) htype hptr

theorem parseRecord_reads_context {handler : DfxHandler}
    (htype : dfxParser (tensorType w 0) = some handler)
    (hptr : isSupportDfxPointPtr (pointerType w 0) = true) :
    parseRecord needAddFftsAddr (front ++ (w ++ post)) dfxRange ⟨index, paramsIdx, memInfo⟩ =
      (readSecondPtr (front ++ (w ++ post)) (index + 4) paramsIdx (pointerType w 0)
        memInfo).bind fun memInfo =>
      (handler.run needAddFftsAddr (front ++ (w ++ post)) (index + 4 + 8) (paramsIdx + 1)
        memInfo).bind fun memInfo => .ok (.next
          ⟨index + 4 + 8 + UInt32.ofNat ((numOfUint64 w 0 - 1) * 8), paramsIdx + 1, memInfo⟩) := by
  have hcount : numOfUint64 (front ++ (w ++ post)) index = numOfUint64 w 0 :=
    numOfUint64_context hindex hfit (by omega)
  have htensor : tensorType (front ++ (w ++ post)) index = tensorType w 0 :=
    tensorType_context hindex hfit hw
  have hpointer : pointerType (front ++ (w ++ post)) index = pointerType w 0 :=
    pointerType_context hindex hfit hw
  rw [← hcount] at hnum ⊢
  rw [← htensor] at htype
  rw [← hpointer] at hptr ⊢
  exact parseRecord_known (s := ⟨index, paramsIdx, memInfo⟩)
    (continues_context hindex hfit hrange (by omega)) (head_context hindex hfit (by omega)) hnum
    (hasWord_context hindex hfit hw) htype hptr

theorem parseRecord_secondFault_context {handler : DfxHandler}
    (htype : dfxParser (tensorType w 0) = some handler)
    (hptr : pointerType w 0 = .level2PointerWithShape) (hshort : w.length + post.length < 28) :
    parseRecord needAddFftsAddr (front ++ (w ++ post)) dfxRange ⟨index, paramsIdx, memInfo⟩ =
      .error .outOfBounds := by
  have hfour : (index + 4).toNat = front.length + 4 := toNat_add_of_lt hindex (by
    change front.length + 4 < 2 ^ 32
    omega)
  have hfault : ¬ (pointerType w 0 = .level2PointerWithShape →
      (index + 4).toNat + 16 + 8 ≤ (front ++ (w ++ post)).length) := by
    intro h
    have hlong := h hptr
    rw [hfour, length_context] at hlong
    omega
  rw [parseRecord_reads_context hindex hfit hrange hw hnum htype (by rw [hptr]; rfl),
    readSecondPtr_fault hfault]
  rfl

end Counted

theorem parseRecord_known_context {handler : DfxHandler} (h : Decodable w handler) :
    parseRecord needAddFftsAddr (front ++ (w ++ post)) dfxRange ⟨index, paramsIdx, memInfo⟩ =
      .ok (.next ⟨index + 4 + 8 + UInt32.ofNat ((numOfUint64 w 0 - 1) * 8), paramsIdx + 1,
        (recordView w handler).apply needAddFftsAddr paramsIdx memInfo⟩) := by
  rw [parseRecord_reads_context hindex hfit hrange h.first h.counted h.type h.pointer,
    readSecondPtr_context hindex hfit handler h.second, Except.bind, run_context hindex hfit h.word]
  rfl

end Rounds

/-! ## Values made of whole records -/

/-- The records of a DFX value behind which the parser goes on: they are of known types
and supported pointers, end with the value and hold the words read from them; the last may
be of an unknown type. Null records and one of an unknown type say nothing. -/
inductive HasRecords : List UInt8 → List RecordView → Prop
  | nil : HasRecords [] []
  | null {w : List UInt8} {vs : List RecordView} (hlen : 8 ≤ w.length) (hnum : numOfUint64 w 0 = 0)
      (rest : HasRecords (w.drop 4) vs) : HasRecords w vs
  | unknown {w : List UInt8} (hlen : 12 ≤ w.length) (hnum : numOfUint64 w 0 ≠ 0)
      (htype : dfxParser (tensorType w 0) = none) (hsize : recordSize w = w.length) :
      HasRecords w []
  | record {w : List UInt8} {vs : List RecordView} {handler : DfxHandler}
      (h : Decodable w handler) (hsize : recordSize w ≤ w.length)
      (rest : HasRecords (w.drop (recordSize w)) vs) : HasRecords w (recordView w handler :: vs)

def WholeRecords (w : List UInt8) : Prop := ∃ vs, HasRecords w vs

theorem recordSize_pos (w : List UInt8) : 4 ≤ recordSize w := Nat.le_add_right _ _

theorem recordSize_lt (w : List UInt8) : recordSize w < 2 ^ 20 := by
  have hnum : numOfUint64 w 0 < 2 ^ 16 := be16_lt w _
  rw [recordSize]
  omega

/-- The index behind a record. -/
theorem toNat_afterRecord {n : ℕ} {index : UInt32} {w : List UInt8} (hindex : index.toNat = n)
    (hnum : numOfUint64 w 0 ≠ 0) (hfit : n + recordSize w < 2 ^ 32) :
    (index + 4 + 8 + UInt32.ofNat ((numOfUint64 w 0 - 1) * 8)).toNat = n + recordSize w := by
  rw [recordSize] at hfit ⊢
  have hfour : (index + 4).toNat = n + 4 := toNat_add_of_lt hindex (by
    change n + 4 < 2 ^ 32
    omega)
  have htwelve : (index + 4 + 8).toNat = n + 4 + 8 := toNat_add_of_lt hfour (by
    change n + 4 + 8 < 2 ^ 32
    omega)
  have hskip : (index + 4 + 8 + UInt32.ofNat ((numOfUint64 w 0 - 1) * 8)).toNat =
      (index + 4 + 8).toNat + (numOfUint64 w 0 - 1) * 8 := toNat_add_ofNat (by omega)
  omega

theorem drop_context (front w post : List UInt8) (n : ℕ) :
    front ++ (w ++ post) = (front ++ w.take n) ++ (w.drop n ++ post) := by
  rw [List.append_assoc, ← List.append_assoc (w.take n), List.take_append_drop]

theorem length_front_take {front w : List UInt8} {n : ℕ} (hn : n ≤ w.length) :
    (front ++ w.take n).length = front.length + n ∧
      (front ++ w.take n).length + (w.drop n).length = front.length + w.length := by
  rw [List.length_append, List.length_take, List.length_drop]
  omega

theorem parseRecord_behind {needAddFftsAddr : Bool} {metaData : List UInt8}
    {index dfxRange paramsIdx : UInt32} {memInfo : MetaMemInfo}
    (h : dfxRange.toNat ≤ index.toNat) :
    parseRecord needAddFftsAddr metaData dfxRange ⟨index, paramsIdx, memInfo⟩ =
      .ok (.done ⟨index, paramsIdx, memInfo⟩) :=
  parseRecord_end fun hcont => Nat.not_lt.mpr h (UInt32.lt_iff_toNat_lt.mp hcont.1)

/-- In every section the loop leaves `w` at its end, with the information `m`. -/
def LeavesWith (needAddFftsAddr : Bool) (w : List UInt8) (paramsIdx : UInt32)
    (memInfo m : MetaMemInfo) : Prop :=
  ∀ front post : List UInt8, ∀ index dfxRange : UInt32, index.toNat = front.length →
    front.length + w.length < 2 ^ 32 → dfxRange.toNat = front.length + w.length →
      ∃ s : ArgsState, s.index.toNat = front.length + w.length ∧ s.memInfo = m ∧
        Ends .outOfFuel (parseRecord needAddFftsAddr (front ++ (w ++ post)) dfxRange)
          ⟨index, paramsIdx, memInfo⟩ s

/-- A round that goes on behind `n` bytes of `w`. -/
theorem LeavesWith.step {needAddFftsAddr : Bool} {w : List UInt8} {n : ℕ}
    {paramsIdx paramsIdx' : UInt32} {memInfo memInfo' m : MetaMemInfo} (hpos : 0 < w.length)
    (hn : n ≤ w.length) (next : UInt32 → UInt32)
    (hround : ∀ front post : List UInt8, ∀ index dfxRange : UInt32, index.toNat = front.length →
      front.length + w.length < 2 ^ 32 → index < dfxRange →
      (next index).toNat = front.length + n ∧
        parseRecord needAddFftsAddr (front ++ (w ++ post)) dfxRange ⟨index, paramsIdx, memInfo⟩ =
          .ok (.next ⟨next index, paramsIdx', memInfo'⟩))
    (hrest : LeavesWith needAddFftsAddr (w.drop n) paramsIdx' memInfo' m) :
    LeavesWith needAddFftsAddr w paramsIdx memInfo m := by
  intro front post index dfxRange hindex hfit hrange
  have hlt : index < dfxRange := by
    rw [UInt32.lt_iff_toNat_lt]
    omega
  obtain ⟨hnext, hround⟩ := hround front post index dfxRange hindex hfit hlt
  obtain ⟨hfront, hwhole⟩ : (front ++ w.take n).length = front.length + n ∧ _ :=
    length_front_take hn
  obtain ⟨s, hs, hm, hends⟩ := hrest (front ++ w.take n) post (next index) dfxRange
    (hnext.trans hfront.symm) (by rwa [hwhole]) (by rw [hrange, hwhole])
  refine ⟨s, by rw [hs, hwhole], hm, (ends_next hround).mpr ?_⟩
  rwa [drop_context front w post n]

/-- A value of whole records is left at its end, with what its records say. -/
theorem leavesWith_of_hasRecords {needAddFftsAddr : Bool} {w : List UInt8} {vs : List RecordView}
    (h : HasRecords w vs) (paramsIdx : UInt32) (memInfo : MetaMemInfo) :
    LeavesWith needAddFftsAddr w paramsIdx memInfo
      (applyViews needAddFftsAddr vs paramsIdx memInfo) := by
  induction h generalizing paramsIdx memInfo with
  | nil =>
    intro front post index dfxRange hindex _ hrange
    refine ⟨⟨index, paramsIdx, memInfo⟩, hindex, rfl, (ends_done ?_).mpr rfl⟩
    exact parseRecord_behind (by rw [hrange, hindex]; exact Nat.le_refl _)
  | @null w vs hlen hnum rest ih =>
    apply (ih paramsIdx memInfo).step (by omega) (by omega) (· + 4)
    intro front post index dfxRange hindex hfit hlt
    refine ⟨toNat_add_of_lt hindex ?_, parseRecord_null_context hindex hfit hlt hlen hnum⟩
    change front.length + 4 < 2 ^ 32
    omega
  | @unknown w hlen hnum htype hsize =>
    intro front post index dfxRange hindex hfit hrange
    have hlt : index < dfxRange := by
      rw [UInt32.lt_iff_toNat_lt]
      omega
    have hround : parseRecord needAddFftsAddr (front ++ (w ++ post)) dfxRange
        ⟨index, paramsIdx, memInfo⟩ = _ :=
      parseRecord_unknown_context hindex hfit hlt hlen hnum htype
    refine ⟨_, ?_, rfl, (ends_done hround).mpr rfl⟩
    rw [recordSize] at hsize
    have hfour : (index + 4).toNat = front.length + 4 := toNat_add_of_lt hindex (by
      change front.length + 4 < 2 ^ 32
      omega)
    have hskip : (index + 4 + UInt32.ofNat (numOfUint64 w 0 * 8)).toNat =
        (index + 4).toNat + numOfUint64 w 0 * 8 := toNat_add_ofNat (by omega)
    dsimp only
    omega
  | @record w vs handler h hsize rest ih =>
    have hfirst := h.first
    apply (ih (paramsIdx + 1) ((recordView w handler).apply needAddFftsAddr paramsIdx memInfo)).step
      (by omega) hsize (· + 4 + 8 + UInt32.ofNat ((numOfUint64 w 0 - 1) * 8))
    intro front post index dfxRange hindex hfit hlt
    exact ⟨toNat_afterRecord hindex h.counted (by omega),
      parseRecord_known_context hindex hfit hlt h⟩

theorem leavesWith_of_wholeRecords {needAddFftsAddr : Bool} {w : List UInt8}
    (h : WholeRecords w) (paramsIdx : UInt32) (memInfo : MetaMemInfo) :
    ∃ m, LeavesWith needAddFftsAddr w paramsIdx memInfo m := by
  obtain ⟨vs, hvs⟩ := h
  exact ⟨_, leavesWith_of_hasRecords hvs paramsIdx memInfo⟩

/-! ## Values that are not made of whole records -/

/-- The loop leaves `w`, which stands before `post`, at its end with the information `m`. -/
def LeavesAt (needAddFftsAddr : Bool) (front w : List UInt8) (dfxRange : UInt32) (s : ArgsState)
    (m : MetaMemInfo) (post : List UInt8) : Prop :=
  ∃ s' : ArgsState, s'.index.toNat = front.length + w.length ∧ s'.memInfo = m ∧
    Ends .outOfFuel (parseRecord needAddFftsAddr (front ++ (w ++ post)) dfxRange) s s'

section Converse
variable {needAddFftsAddr : Bool} {front w post : List UInt8} {dfxRange : UInt32} {s : ArgsState}
  {m : MetaMemInfo}

theorem LeavesAt.of_done (h : LeavesAt needAddFftsAddr front w dfxRange s m post) {s' : ArgsState}
    (hround : parseRecord needAddFftsAddr (front ++ (w ++ post)) dfxRange s = .ok (.done s')) :
    s'.index.toNat = front.length + w.length ∧ s'.memInfo = m := by
  obtain ⟨s₁, hindex, hm, hends⟩ := h
  rw [(ends_done hround).mp hends] at hindex hm
  exact ⟨hindex, hm⟩

theorem LeavesAt.of_error (h : LeavesAt needAddFftsAddr front w dfxRange s m post)
    {e : ParseFault}
    (hround : parseRecord needAddFftsAddr (front ++ (w ++ post)) dfxRange s = .error e) : False := by
  obtain ⟨s₁, _, _, hends⟩ := h
  exact not_ends_error hround hends

/-- A round that goes on stays in `w`, and what is left of `w` is left at its end. -/
theorem LeavesAt.of_next (h : LeavesAt needAddFftsAddr front w dfxRange s m post)
    (hrange : dfxRange.toNat = front.length + w.length) {s' : ArgsState} {n : ℕ}
    (hnext : s'.index.toNat = front.length + n)
    (hround : parseRecord needAddFftsAddr (front ++ (w ++ post)) dfxRange s = .ok (.next s')) :
    n ≤ w.length ∧
      LeavesAt needAddFftsAddr (front ++ w.take n) (w.drop n) dfxRange s' m post := by
  obtain ⟨s₁, hindex, hm, hends⟩ := h
  have hends' := (ends_next hround).mp hends
  have hn : n ≤ w.length := by
    by_contra hover
    have hbehind : parseRecord needAddFftsAddr (front ++ (w ++ post)) dfxRange s' =
        .ok (.done s') := parseRecord_behind (by rw [hrange, hnext]; omega)
    rw [(ends_done hbehind).mp hends'] at hindex
    omega
  obtain ⟨_, hwhole⟩ : (front ++ w.take n).length = front.length + n ∧ _ := length_front_take hn
  refine ⟨hn, s₁, by rw [hindex, hwhole], hm, ?_⟩
  rwa [← drop_context front w post n]

end Converse

/-- An entry of an unused type with a value of four zeroes. -/
def spareEntry (type : UInt8) : List UInt8 := [type, 0, 4, 0, 0, 0, 0, 0]

/-- At the end of the section fewer than eight bytes are not looked at. -/
theorem LeavesAt.eq_nil_of_short {needAddFftsAddr : Bool} {front w : List UInt8}
    {dfxRange : UInt32} {s : ArgsState} {m : MetaMemInfo}
    (h : LeavesAt needAddFftsAddr front w dfxRange s m []) (hindex : s.index.toNat = front.length)
    (hfit : front.length + 7 < 2 ^ 32) (hw : w.length < 8) : w.length = 0 := by
  have hend : ¬ Continues (front ++ (w ++ [])) dfxRange s.index := by
    rintro ⟨_, hlt⟩
    have hseven : (s.index + 7).toNat = front.length + 7 := toNat_add_of_lt hindex hfit
    rw [hseven, length_context, List.length_nil] at hlt
    omega
  have hleft := (h.of_done (parseRecord_end hend)).1
  omega

theorem apply_ne {needAddFftsAddr : Bool} {v : RecordView} {paramsIdx : UInt32}
    {memInfo : MetaMemInfo} {n n' : UInt64} (hreads : readsWord v.handler = true)
    (hsecond : v.dtypeBytes = none) (hne : n ≠ n') :
    RecordView.apply needAddFftsAddr { v with length := n } paramsIdx memInfo ≠
      RecordView.apply needAddFftsAddr { v with length := n' } paramsIdx memInfo := by
  obtain ⟨handler, length, dtypeBytes⟩ := v
  cases hsecond
  intro heq
  cases handler with
  | ffts => cases hreads
  | mc2Ctx => cases hreads
  | input =>
    have hinputs := congrArg (fun m => m.inputParamsAddrInfos) heq
    have hlast := List.append_cancel_left hinputs
    rw [List.cons.injEq, AddrInfo.mk.injEq] at hlast
    exact hne hlast.1.2.1
  | tiling => exact hne (congrArg (fun m => m.tilingDataSize) heq)

/-- A length that is cut off at the end of the value shows what stands behind it. -/
theorem not_leavesAt_cut {needAddFftsAddr : Bool} {front w : List UInt8} {dfxRange : UInt32}
    {s : ArgsState} {m : MetaMemInfo} {handler : DfxHandler}
    (hindex : s.index.toNat = front.length) (hfit : front.length + 20 < 2 ^ 32)
    (hrange : dfxRange.toNat = front.length + w.length) (hw : w.length = 12)
    (hnum : numOfUint64 w 0 = 1) (htype : dfxParser (tensorType w 0) = some handler)
    (hptr : isSupportDfxPointPtr (pointerType w 0) = true)
    (hlevel : pointerType w 0 ≠ .level2PointerWithShape) (hreads : readsWord handler = true)
    (h : ∀ type, LeavesAt needAddFftsAddr front w dfxRange s m (spareEntry type)) : False := by
  obtain ⟨index, paramsIdx, memInfo⟩ := s
  change index.toNat = front.length at hindex
  have hlt : index < dfxRange := by
    rw [UInt32.lt_iff_toNat_lt]
    omega
  have hdecoded : ∀ type, m = RecordView.apply needAddFftsAddr
      ⟨handler, wordAt (w ++ spareEntry type) 12, none⟩ paramsIdx memInfo := by
    intro type
    have hlength : (w ++ spareEntry type).length = 20 := by
      rw [List.length_append, hw]
      rfl
    have hsmall : ([] : List UInt8).length + w.length < 2 ^ 32 := by
      rw [hw]
      decide
    have hnum' : numOfUint64 (w ++ spareEntry type) 0 = 1 :=
      (@numOfUint64_context [] w (spareEntry type) 0 rfl hsmall (by omega)).trans hnum
    have hpointer : pointerType (w ++ spareEntry type) 0 = pointerType w 0 :=
      @pointerType_context [] w (spareEntry type) 0 rfl hsmall (by omega)
    have htensor : tensorType (w ++ spareEntry type) 0 = tensorType w 0 :=
      @tensorType_context [] w (spareEntry type) 0 rfl hsmall (by omega)
    have hdecodable : Decodable (w ++ spareEntry type) handler := by
      constructor
      case first => omega
      case counted => rw [hnum']; exact Nat.one_ne_zero
      case type => rw [htensor, htype]
      case pointer => rw [hpointer, hptr]
      case second => exact fun hsecond => absurd (hpointer.symm.trans hsecond) hlevel
      case word => exact fun _ => Nat.le_of_eq hlength.symm
    have hround : parseRecord needAddFftsAddr (front ++ ((w ++ spareEntry type) ++ [])) dfxRange
        ⟨index, paramsIdx, memInfo⟩ = _ :=
      parseRecord_known_context hindex (by rw [hlength]; exact hfit) hlt hdecodable
    have hview : (recordView (w ++ spareEntry type) handler).apply needAddFftsAddr paramsIdx
        memInfo = RecordView.apply needAddFftsAddr
          ⟨handler, wordAt (w ++ spareEntry type) 12, none⟩ paramsIdx memInfo := by
      rw [recordView, hpointer, if_neg hlevel]
    rw [List.append_nil, hview] at hround
    have hsize : recordSize (w ++ spareEntry type) = 12 := by rw [recordSize, hnum']
    have hnext := toNat_afterRecord (w := w ++ spareEntry type) hindex
      (by rw [hnum']; exact Nat.one_ne_zero) (by omega)
    rw [hsize] at hnext
    obtain ⟨_, hleft⟩ := (h type).of_next hrange hnext hround
    refine (hleft.of_done (parseRecord_behind ?_)).2.symm
    rw [hrange, hw, hnext]
  refine apply_ne (v := ⟨handler, 0, none⟩) hreads rfl ?_
    ((hdecoded 1).symm.trans (hdecoded 2))
  rw [wordAt, wordAt, List.drop_left' hw, List.drop_left' hw]
  decide

section FirstRound
variable {needAddFftsAddr : Bool} {front w : List UInt8} {index dfxRange paramsIdx : UInt32}
  {memInfo m : MetaMemInfo}

variable (hindex : index.toNat = front.length)
  (hfit : front.length + w.length + 2 ^ 20 < 2 ^ 32)
  (hrange : dfxRange.toNat = front.length + w.length) (hlt : index < dfxRange)
  (halone : LeavesAt needAddFftsAddr front w dfxRange ⟨index, paramsIdx, memInfo⟩ m [])
include hindex hfit hlt halone

theorem twelve_le_of_leavesAt (hw : 8 ≤ w.length) (hnum : numOfUint64 w 0 ≠ 0) :
    12 ≤ w.length := by
  by_contra hshort
  have hlast : (index + (4 + 6 + 1)).toNat = front.length + 11 := toNat_add_of_lt hindex (by
    change front.length + 11 < 2 ^ 32
    omega)
  have hword : ¬ HasWord (front ++ (w ++ [])) index := by
    rintro ⟨⟨_, hin⟩, _⟩
    rw [UInt32.add_assoc, UInt32.add_assoc, ← UInt32.add_assoc 4, hlast, length_context,
      List.length_nil] at hin
    omega
  refine halone.of_error (parseRecord_wordFault (s := ⟨index, paramsIdx, memInfo⟩)
    (continues_context hindex (by omega) hlt hw) (head_context hindex (by omega) hw) ?_ hword)
  rwa [numOfUint64_context hindex (by omega) (by omega)]

include hrange

theorem unknown_of_leavesAt (hw : 12 ≤ w.length) (hnum : numOfUint64 w 0 ≠ 0)
    (htype : dfxParser (tensorType w 0) = none) : HasRecords w [] := by
  have hleft := (halone.of_done
    (parseRecord_unknown_context hindex (by omega) hlt hw hnum htype)).1
  have hsize := recordSize_lt w
  refine .unknown hw hnum htype ?_
  rw [recordSize] at hsize ⊢
  have hfour : (index + 4).toNat = front.length + 4 := toNat_add_of_lt hindex (by
    change front.length + 4 < 2 ^ 32
    omega)
  have hskip : (index + 4 + UInt32.ofNat (numOfUint64 w 0 * 8)).toNat =
      (index + 4).toNat + numOfUint64 w 0 * 8 := toNat_add_ofNat (by omega)
  dsimp only at hleft
  omega

theorem supported_of_leavesAt (hw : 12 ≤ w.length) (hnum : numOfUint64 w 0 ≠ 0)
    {handler : DfxHandler} (htype : dfxParser (tensorType w 0) = some handler) :
    isSupportDfxPointPtr (pointerType w 0) = true := by
  by_contra hptr
  have hleft := (halone.of_done (parseRecord_unsupported_context hindex (by omega) hlt hw hnum
    htype (Bool.eq_false_iff.mpr hptr))).1
  have hfour : (index + 4).toNat = front.length + 4 := toNat_add_of_lt hindex (by
    change front.length + 4 < 2 ^ 32
    omega)
  dsimp only at hleft
  omega

theorem decodable_of_leavesAt (hw : 12 ≤ w.length) (hnum : numOfUint64 w 0 ≠ 0)
    {handler : DfxHandler} (htype : dfxParser (tensorType w 0) = some handler)
    (h : ∀ type, LeavesAt needAddFftsAddr front w dfxRange ⟨index, paramsIdx, memInfo⟩ m
      (spareEntry type)) : Decodable w handler := by
  have hptr := supported_of_leavesAt hindex hfit hrange hlt halone hw hnum htype
  have hsecond : pointerType w 0 = .level2PointerWithShape → 28 ≤ w.length := by
    intro hlevel
    by_contra hshort
    refine halone.of_error (parseRecord_secondFault_context hindex (by omega) hlt hw hnum htype
      hlevel ?_)
    rw [List.length_nil]
    omega
  refine ⟨hw, hnum, htype, hptr, hsecond, fun hreads => ?_⟩
  by_contra hshort
  have hlevel : pointerType w 0 ≠ .level2PointerWithShape := by
    intro hlevel
    have hlong := hsecond hlevel
    omega
  -- alone, the length is not read and the record has to end with the section
  have hround : parseRecord needAddFftsAddr (front ++ (w ++ [])) dfxRange
      ⟨index, paramsIdx, memInfo⟩ = _ :=
    parseRecord_reads_context hindex (by omega) hlt hw hnum htype hptr
  rw [readSecondPtr_context hindex (by omega) handler hsecond, Except.bind,
    run_cut hindex (by rw [List.length_nil]; omega) (by omega) hreads] at hround
  have hbound := recordSize_lt w
  obtain ⟨hsize, hrest⟩ := halone.of_next hrange
    (toNat_afterRecord hindex hnum (by omega)) hround
  have hone : numOfUint64 w 0 = 1 := by
    rw [recordSize] at hsize
    omega
  have htwelve : recordSize w = 12 := by rw [recordSize, hone]
  obtain ⟨hfront, _⟩ : (front ++ w.take (recordSize w)).length = front.length + recordSize w ∧ _ :=
    length_front_take hsize
  have hnil := hrest.eq_nil_of_short
    ((toNat_afterRecord hindex hnum (by omega)).trans hfront.symm) (by omega)
    (by rw [List.length_drop]; omega)
  rw [List.length_drop] at hnil
  exact not_leavesAt_cut hindex (by omega) hrange (by omega) hone htype hptr hlevel hreads h

end FirstRound

/-- Only a value of whole records is left at its end both alone and before every other
entry, with the same information. -/
theorem wholeRecords_of_leavesAt {needAddFftsAddr : Bool} {front w : List UInt8}
    {dfxRange : UInt32} {s : ArgsState} {m : MetaMemInfo} (hindex : s.index.toNat = front.length)
    (hfit : front.length + w.length + 2 ^ 20 < 2 ^ 32)
    (hrange : dfxRange.toNat = front.length + w.length)
    (halone : LeavesAt needAddFftsAddr front w dfxRange s m [])
    (h : ∀ type, LeavesAt needAddFftsAddr front w dfxRange s m (spareEntry type)) :
    WholeRecords w := by
  induction hlen : w.length using Nat.strong_induction_on generalizing front w s with
  | _ len ih =>
    have hrest : ∀ {n : ℕ} {s' : ArgsState}, 0 < n → 0 < w.length →
        s'.index.toNat = front.length + n →
        (∀ post, parseRecord needAddFftsAddr (front ++ (w ++ post)) dfxRange s = .ok (.next s')) →
          n ≤ w.length ∧ WholeRecords (w.drop n) := by
      intro n s' hpos hw hnext hround
      obtain ⟨hn, halone'⟩ := halone.of_next hrange hnext (hround [])
      obtain ⟨hfront, hwhole⟩ : (front ++ w.take n).length = front.length + n ∧ _ :=
        length_front_take hn
      refine ⟨hn, ih (w.drop n).length ?_ (hnext.trans hfront.symm) ?_ ?_ halone' ?_ rfl⟩
      · rw [List.length_drop]
        omega
      · rwa [hwhole]
      · rw [hrange, hwhole]
      · exact fun type => ((h type).of_next hrange hnext (hround _)).2
    obtain ⟨index, paramsIdx, memInfo⟩ := s
    change index.toNat = front.length at hindex
    by_cases hempty : w.length = 0
    · rw [List.length_eq_zero_iff.mp hempty]
      exact ⟨[], .nil⟩
    · have hlt : index < dfxRange := by
        rw [UInt32.lt_iff_toNat_lt]
        omega
      have height : 8 ≤ w.length :=
        Nat.le_of_not_lt fun hshort => hempty (halone.eq_nil_of_short hindex (by omega) hshort)
      by_cases hnum : numOfUint64 w 0 = 0
      · have hfour : (index + 4).toNat = front.length + 4 := toNat_add_of_lt hindex (by
          change front.length + 4 < 2 ^ 32
          omega)
        obtain ⟨_, vs, hvs⟩ := hrest (by decide) (by omega) hfour fun post =>
          parseRecord_null_context hindex (by omega) hlt height hnum
        exact ⟨vs, .null height hnum hvs⟩
      · have hw := twelve_le_of_leavesAt hindex hfit hlt halone height hnum
        cases htype : dfxParser (tensorType w 0) with
        | none => exact ⟨[], unknown_of_leavesAt hindex hfit hrange hlt halone hw hnum htype⟩
        | some handler =>
          have hdecodable :=
            decodable_of_leavesAt hindex hfit hrange hlt halone hw hnum htype h
          have hbound := recordSize_lt w
          obtain ⟨hsize, vs, hvs⟩ := hrest (Nat.lt_of_lt_of_le (by decide) (recordSize_pos w))
            (by omega) (toNat_afterRecord hindex hnum (by omega)) fun post =>
              parseRecord_known_context hindex (by omega) hlt hdecodable
          exact ⟨_, .record hdecodable hsize hvs⟩

end Msopcom.MetaFraming
