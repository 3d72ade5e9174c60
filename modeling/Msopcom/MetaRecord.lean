import Msopcom.KernelMetaDataParser
import Msopcom.Words

set_option autoImplicit false

/-!
# One argument record

What a round of the loop over the records does, said once for each kind of record.
-/
namespace Msopcom.MetaRecord
open FuelLoop

def byteOf (metaData : List UInt8) (index : UInt32) : ℕ := (metaData.getD index.toNat 0).toNat

def be16 (metaData : List UInt8) (index : UInt32) : ℕ :=
  256 * byteOf metaData index + byteOf metaData (index + 1)

def le16 (metaData : List UInt8) (index : UInt32) : ℕ :=
  byteOf metaData index + 256 * byteOf metaData (index + 1)

/-- The two bytes that start at an index are in the section. -/
def InBounds16 (metaData : List UInt8) (index : UInt32) : Prop :=
  index.toNat < metaData.length ∧ (index + 1).toNat < metaData.length

instance (metaData : List UInt8) (index : UInt32) : Decidable (InBounds16 metaData index) :=
  inferInstanceAs (Decidable (_ ∧ _))

theorem byteAt_of_lt {metaData : List UInt8} {index : UInt32} (h : index.toNat < metaData.length) :
    byteAt metaData index = .ok (byteOf metaData index) := by
  rw [byteAt, byteOf, List.getD_eq_getElem?_getD, List.getElem?_eq_getElem h]
  rfl

theorem byteAt_of_le {metaData : List UInt8} {index : UInt32} (h : metaData.length ≤ index.toNat) :
    byteAt metaData index = .error .outOfBounds := by
  rw [byteAt, List.getElem?_eq_none h]

/-- Two bytes in a row, put together by `f`. -/
theorem byteAt_pair (f : ℕ → ℕ → ℕ) (metaData : List UInt8) (index : UInt32) :
    ((byteAt metaData index).bind fun first =>
      (byteAt metaData (index + 1)).bind fun second => .ok (f first second)) =
      if InBounds16 metaData index then
        .ok (f (byteOf metaData index) (byteOf metaData (index + 1)))
      else .error .outOfBounds := by
  by_cases hfirst : index.toNat < metaData.length
  · rw [byteAt_of_lt hfirst]
    by_cases hsecond : (index + 1).toNat < metaData.length
    · rw [byteAt_of_lt hsecond, if_pos ⟨hfirst, hsecond⟩]
      rfl
    · rw [byteAt_of_le (Nat.le_of_not_lt hsecond), if_neg fun h => hsecond h.2]
      rfl
  · rw [byteAt_of_le (Nat.le_of_not_lt hfirst), if_neg fun h => hfirst h.1]
    rfl

theorem be16At_eq (metaData : List UInt8) (index : UInt32) :
    be16At metaData index =
      if InBounds16 metaData index then .ok (be16 metaData index) else .error .outOfBounds :=
  byteAt_pair (fun high low => 256 * high + low) metaData index

theorem le16At_eq (metaData : List UInt8) (index : UInt32) :
    le16At metaData index =
      if InBounds16 metaData index then .ok (le16 metaData index) else .error .outOfBounds :=
  byteAt_pair (fun low high => low + 256 * high) metaData index

/-! ## The record at an index -/

def numOfUint64 (metaData : List UInt8) (index : UInt32) : ℕ := be16 metaData (index + 2)

def tensorType (metaData : List UInt8) (index : UInt32) : DfxTensorType :=
  .ofCode (be16 metaData (index + 4 + 6))

def pointerType (metaData : List UInt8) (index : UInt32) : DfxPointerType :=
  .ofCode (be16 metaData (index + 4 + 4))

/-- The loop takes another round at this index. -/
def Continues (metaData : List UInt8) (dfxRange index : UInt32) : Prop :=
  index < dfxRange ∧ (index + 7).toNat < metaData.length

instance (metaData : List UInt8) (dfxRange index : UInt32) :
    Decidable (Continues metaData dfxRange index) :=
  inferInstanceAs (Decidable (_ ∧ _))

/-- The bytes of the first word that are looked at. -/
def HasWord (metaData : List UInt8) (index : UInt32) : Prop :=
  InBounds16 metaData (index + 4 + 6) ∧ InBounds16 metaData (index + 4 + 4)

instance (metaData : List UInt8) (index : UInt32) : Decidable (HasWord metaData index) :=
  inferInstanceAs (Decidable (_ ∧ _))

section Rounds
variable {needAddFftsAddr : Bool} {metaData : List UInt8} {dfxRange : UInt32} {s : ArgsState}

theorem parseRecord_end (h : ¬ Continues metaData dfxRange s.index) :
    parseRecord needAddFftsAddr metaData dfxRange s = .ok (.done s) :=
  if_pos h

/-- The round behind its guard. -/
theorem parseRecord_continues (hcont : Continues metaData dfxRange s.index) :
    parseRecord needAddFftsAddr metaData dfxRange s =
      (be16At metaData (s.index + 2)).bind fun numOfUint64 =>
        if numOfUint64 = 0 then .ok (.next { s with index := s.index + 4 })
        else
          (be16At metaData (s.index + 4 + 6)).bind fun type =>
            (be16At metaData (s.index + 4 + 4)).bind fun ptrType =>
              match dfxParser (.ofCode type) with
              | none => .ok (.done { s with
                  index := s.index + 4 + UInt32.ofNat (numOfUint64 * 8) })
              | some handler =>
                if !isSupportDfxPointPtr (.ofCode ptrType) then
                  .ok (.done { s with index := s.index + 4, memInfo := s.memInfo.clear })
                else
                  (readSecondPtr metaData (s.index + 4) s.paramsIdx (.ofCode ptrType)
                    s.memInfo).bind fun memInfo =>
                  (handler.run needAddFftsAddr metaData (s.index + 4 + 8) (s.paramsIdx + 1)
                    memInfo).bind fun memInfo => .ok (.next
                      ⟨s.index + 4 + 8 + UInt32.ofNat ((numOfUint64 - 1) * 8),
                        s.paramsIdx + 1, memInfo⟩) :=
  if_neg (not_not.mpr hcont)

variable (hcont : Continues metaData dfxRange s.index)
include hcont

theorem parseRecord_headFault (h : ¬ InBounds16 metaData (s.index + 2)) :
    parseRecord needAddFftsAddr metaData dfxRange s = .error .outOfBounds := by
  rw [parseRecord_continues hcont, be16At_eq, if_neg h]
  rfl

variable (hhead : InBounds16 metaData (s.index + 2))
include hhead

theorem parseRecord_null (hnum : numOfUint64 metaData s.index = 0) :
    parseRecord needAddFftsAddr metaData dfxRange s =
      .ok (.next { s with index := s.index + 4 }) := by
  rw [parseRecord_continues hcont, be16At_eq, if_pos hhead]
  exact if_pos hnum

variable (hnum : numOfUint64 metaData s.index ≠ 0)
include hnum

/-- The round of a record that is not null, up to its first word. -/
theorem parseRecord_counted :
    parseRecord needAddFftsAddr metaData dfxRange s =
      if HasWord metaData s.index then
        match dfxParser (tensorType metaData s.index) with
        | none => .ok (.done { s with
            index := s.index + 4 + UInt32.ofNat (numOfUint64 metaData s.index * 8) })
        | some handler =>
          if !isSupportDfxPointPtr (pointerType metaData s.index) then
            .ok (.done { s with index := s.index + 4, memInfo := s.memInfo.clear })
          else
            (readSecondPtr metaData (s.index + 4) s.paramsIdx (pointerType metaData s.index)
              s.memInfo).bind fun memInfo =>
            (handler.run needAddFftsAddr metaData (s.index + 4 + 8) (s.paramsIdx + 1)
              memInfo).bind fun memInfo => .ok (.next
                ⟨s.index + 4 + 8 + UInt32.ofNat ((numOfUint64 metaData s.index - 1) * 8),
                  s.paramsIdx + 1, memInfo⟩)
      else .error .outOfBounds := by
  have hbranch : parseRecord needAddFftsAddr metaData dfxRange s = _ :=
    parseRecord_continues hcont
  rw [be16At_eq, if_pos hhead, be16At_eq, be16At_eq] at hbranch
  rw [hbranch]
  refine (if_neg hnum).trans ?_
  by_cases htype : InBounds16 metaData (s.index + 4 + 6)
  · by_cases hptr : InBounds16 metaData (s.index + 4 + 4)
    · have hword : HasWord metaData s.index := ⟨htype, hptr⟩
      rw [if_pos htype, if_pos hptr, if_pos hword]
      rfl
    · have hword : ¬ HasWord metaData s.index := fun h => hptr h.2
      rw [if_pos htype, if_neg hptr, if_neg hword]
      rfl
  · have hword : ¬ HasWord metaData s.index := fun h => htype h.1
    rw [if_neg htype, if_neg hword]
    rfl

theorem parseRecord_wordFault (hword : ¬ HasWord metaData s.index) :
    parseRecord needAddFftsAddr metaData dfxRange s = .error .outOfBounds := by
  rw [parseRecord_counted hcont hhead hnum, if_neg hword]

variable (hword : HasWord metaData s.index)
include hword

theorem parseRecord_unknown (htype : dfxParser (tensorType metaData s.index) = none) :
    parseRecord needAddFftsAddr metaData dfxRange s =
      .ok (.done { s with
        index := s.index + 4 + UInt32.ofNat (numOfUint64 metaData s.index * 8) }) := by
  rw [parseRecord_counted hcont hhead hnum, if_pos hword, htype]

variable {handler : DfxHandler} (htype : dfxParser (tensorType metaData s.index) = some handler)
include htype

theorem parseRecord_unsupported
    (hptr : isSupportDfxPointPtr (pointerType metaData s.index) = false) :
    parseRecord needAddFftsAddr metaData dfxRange s =
      .ok (.done { s with index := s.index + 4, memInfo := s.memInfo.clear }) := by
  rw [parseRecord_counted hcont hhead hnum, if_pos hword, htype, hptr]
  rfl

theorem parseRecord_known (hptr : isSupportDfxPointPtr (pointerType metaData s.index) = true) :
    parseRecord needAddFftsAddr metaData dfxRange s =
      (readSecondPtr metaData (s.index + 4) s.paramsIdx (pointerType metaData s.index)
        s.memInfo).bind fun memInfo =>
      (handler.run needAddFftsAddr metaData (s.index + 4 + 8) (s.paramsIdx + 1)
        memInfo).bind fun memInfo => .ok (.next
          ⟨s.index + 4 + 8 + UInt32.ofNat ((numOfUint64 metaData s.index - 1) * 8),
            s.paramsIdx + 1, memInfo⟩) := by
  rw [parseRecord_counted hcont hhead hnum, if_pos hword, htype, hptr]
  rfl

end Rounds
end Msopcom.MetaRecord
