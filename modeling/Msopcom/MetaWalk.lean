import Msopcom.MetaRecord

set_option autoImplicit false

/-!
# The bytes that the parser of the meta section reads

Where the parser goes depends on the lengths, counts and types of the section alone,
and on whether any length of an argument was found.
-/
namespace Msopcom.MetaWalk
open FuelLoop MetaRecord

/-! ## The walk through a section -/

inductive Place
  | entry (index : UInt32) (found : Bool)
  | record (index dfxRange : UInt32) (found : Bool)
  deriving DecidableEq, Repr

def readsWord : DfxHandler → Bool
  | .input => true
  | .tiling => true
  | _ => false

/-- The handler finds that its word is in the section. -/
def seesWord (metaData : List UInt8) (index : UInt32) : Prop :=
  (8 + (index + 4 + 8)).toNat ≤ metaData.length

instance (metaData : List UInt8) (index : UInt32) : Decidable (seesWord metaData index) :=
  inferInstanceAs (Decidable (_ ≤ _))

def findsLength (metaData : List UInt8) (index : UInt32) : DfxHandler → Bool
  | .input => decide (seesWord metaData index)
  | .mc2Ctx => true
  | _ => false

def afterArgs (index : UInt32) (found : Bool) : Option Place :=
  if found then some (.entry index true) else none

def nextPlace (metaData : List UInt8) : Place → Option Place
  | .entry index found =>
    if ¬ index.toNat < lastIndex metaData.length then none
    else if (index + 2 + 2).toNat > metaData.length then none
    else if le16 metaData index = dfxType then
      some (.record (index + 2 + 2)
        (UInt32.ofNat (le16 metaData (index + 2)) + (index + 2 + 2)) found)
    else some (.entry (index + 2 + UInt32.ofNat (2 + le16 metaData (index + 2))) found)
  | .record index dfxRange found =>
    if ¬ Continues metaData dfxRange index then afterArgs index found
    else if numOfUint64 metaData index = 0 then some (.record (index + 4) dfxRange found)
    else
      match dfxParser (tensorType metaData index) with
      | none => afterArgs (index + 4 + UInt32.ofNat (numOfUint64 metaData index * 8)) found
      | some handler =>
        if !isSupportDfxPointPtr (pointerType metaData index) then none
        else some (.record (index + 4 + 8 + UInt32.ofNat ((numOfUint64 metaData index - 1) * 8))
          dfxRange (found || findsLength metaData index handler))

/-- The words of a record that is parsed: the data type size of a second-level pointer
and the length. -/
def WordsFit (metaData : List UInt8) (index : UInt32) (handler : DfxHandler) : Prop :=
  (pointerType metaData index = .level2PointerWithShape →
    (index + 4).toNat + 16 + 8 ≤ metaData.length) ∧
  (readsWord handler = true → seesWord metaData index →
    (index + 4 + 8).toNat + 8 ≤ metaData.length)

/-- The bytes that are looked at from a place are in the section. -/
def Fits (metaData : List UInt8) : Place → Prop
  | .entry index _ =>
    index.toNat < lastIndex metaData.length → (index + 2 + 2).toNat ≤ metaData.length →
      InBounds16 metaData (index + 2)
  | .record index dfxRange _ =>
    Continues metaData dfxRange index →
      InBounds16 metaData (index + 2) ∧
      (numOfUint64 metaData index ≠ 0 →
        HasWord metaData index ∧
        ∀ handler, dfxParser (tensorType metaData index) = some handler →
          isSupportDfxPointPtr (pointerType metaData index) = true →
            WordsFit metaData index handler)

def firstPlace : Place := .entry 0 false

/-! ## A round of the inner loop -/

def found (memInfo : MetaMemInfo) : Bool := !memInfo.inputParamsAddrInfos.isEmpty

def placeOf (dfxRange : UInt32) (s : ArgsState) : Place :=
  .record s.index dfxRange (found s.memInfo)

/-- The place that a round leads to. -/
def placeAfter (dfxRange : UInt32) : LoopStep ArgsState ArgsState → Option Place
  | .next s => some (placeOf dfxRange s)
  | .done s => afterArgs s.index (found s.memInfo)

theorem be64At_of_le {metaData : List UInt8} {index : ℕ} (h : index + 8 ≤ metaData.length) :
    be64At metaData index = .ok (UInt64.ofNat (beNat ((metaData.drop index).take 8))) :=
  if_pos h

theorem be64At_of_not {metaData : List UInt8} {index : ℕ} (h : ¬ index + 8 ≤ metaData.length) :
    be64At metaData index = .error .outOfBounds :=
  if_neg h

theorem readSecondPtr_ok {metaData : List UInt8} {index : UInt32} {ptrType : DfxPointerType}
    (h : ptrType = .level2PointerWithShape → index.toNat + 16 + 8 ≤ metaData.length)
    (paramsIdx : UInt32) (memInfo : MetaMemInfo) :
    ∃ m, readSecondPtr metaData index paramsIdx ptrType memInfo = .ok m ∧
      found m = found memInfo := by
  rw [readSecondPtr]
  by_cases hptr : ptrType = .level2PointerWithShape
  · rw [if_pos hptr, be64At_of_le (h hptr)]
    exact ⟨_, rfl, rfl⟩
  · rw [if_neg hptr]
    exact ⟨memInfo, rfl, rfl⟩

theorem readSecondPtr_fault {metaData : List UInt8} {index : UInt32} {ptrType : DfxPointerType}
    (h : ¬ (ptrType = .level2PointerWithShape → index.toNat + 16 + 8 ≤ metaData.length))
    (paramsIdx : UInt32) (memInfo : MetaMemInfo) :
    readSecondPtr metaData index paramsIdx ptrType memInfo = .error .outOfBounds := by
  obtain ⟨hptr, hword⟩ := Classical.not_imp.mp h
  rw [readSecondPtr, if_pos hptr, be64At_of_not hword]
  rfl

theorem run_ok {metaData : List UInt8} {index : UInt32} {handler : DfxHandler}
    (h : readsWord handler = true → seesWord metaData index →
      (index + 4 + 8).toNat + 8 ≤ metaData.length)
    (needAddFftsAddr : Bool) (paramsNo : UInt32) (memInfo : MetaMemInfo) :
    ∃ m, handler.run needAddFftsAddr metaData (index + 4 + 8) paramsNo memInfo = .ok m ∧
      found m = (found memInfo || findsLength metaData index handler) := by
  cases handler with
  | ffts =>
    refine ⟨_, rfl, ?_⟩
    change found (setFftsInfo needAddFftsAddr memInfo) = (found memInfo || false)
    rw [Bool.or_false, setFftsInfo]
    split_ifs <;> rfl
  | mc2Ctx =>
    refine ⟨_, rfl, ?_⟩
    simp [findsLength, parseMetaMc2Ctx, found]
  | input =>
    rw [DfxHandler.run, parseMetaInput]
    by_cases hsees : seesWord metaData index
    · rw [if_neg (Nat.not_lt.mpr hsees), be64At_of_le (h rfl hsees)]
      refine ⟨_, rfl, ?_⟩
      simp [findsLength, found, hsees]
    · rw [if_pos (Nat.lt_of_not_le hsees)]
      refine ⟨_, rfl, ?_⟩
      simp [findsLength, hsees]
  | tiling =>
    rw [DfxHandler.run, parseMetaTiling]
    by_cases hsees : seesWord metaData index
    · rw [if_neg (Nat.not_lt.mpr hsees), be64At_of_le (h rfl hsees)]
      refine ⟨_, rfl, ?_⟩
      simp [findsLength, found]
    · rw [if_pos (Nat.lt_of_not_le hsees)]
      refine ⟨_, rfl, ?_⟩
      simp [findsLength]

theorem run_fault {metaData : List UInt8} {index : UInt32} {handler : DfxHandler}
    (h : ¬ (readsWord handler = true → seesWord metaData index →
      (index + 4 + 8).toNat + 8 ≤ metaData.length))
    (needAddFftsAddr : Bool) (paramsNo : UInt32) (memInfo : MetaMemInfo) :
    handler.run needAddFftsAddr metaData (index + 4 + 8) paramsNo memInfo =
      .error .outOfBounds := by
  obtain ⟨hreads, h⟩ := Classical.not_imp.mp h
  obtain ⟨hsees, hword⟩ := Classical.not_imp.mp h
  have hguard : ¬ metaData.length < (8 + (index + 4 + 8)).toNat := Nat.not_lt.mpr hsees
  cases handler with
  | ffts => cases hreads
  | mc2Ctx => cases hreads
  | input =>
    rw [DfxHandler.run, parseMetaInput, if_neg hguard, be64At_of_not hword]
    rfl
  | tiling =>
    rw [DfxHandler.run, parseMetaTiling, if_neg hguard, be64At_of_not hword]
    rfl

/-- A round from a place that fits goes where the walk goes. -/
theorem parseRecord_of_fits {metaData : List UInt8} {dfxRange : UInt32} {s : ArgsState}
    (needAddFftsAddr : Bool) (hfits : Fits metaData (placeOf dfxRange s)) :
    ∃ x, parseRecord needAddFftsAddr metaData dfxRange s = .ok x ∧
      nextPlace metaData (placeOf dfxRange s) = placeAfter dfxRange x := by
  rw [placeOf, nextPlace]
  by_cases hcont : Continues metaData dfxRange s.index
  · obtain ⟨hhead, hfits⟩ := hfits hcont
    rw [if_neg (not_not.mpr hcont)]
    by_cases hnum : numOfUint64 metaData s.index = 0
    · rw [if_pos hnum]
      exact ⟨_, parseRecord_null hcont hhead hnum, rfl⟩
    · obtain ⟨hword, hfits⟩ := hfits hnum
      rw [if_neg hnum]
      cases htype : dfxParser (tensorType metaData s.index) with
      | none => exact ⟨_, parseRecord_unknown hcont hhead hnum hword htype, rfl⟩
      | some handler =>
        cases hptr : isSupportDfxPointPtr (pointerType metaData s.index) with
        | false => exact ⟨_, parseRecord_unsupported hcont hhead hnum hword htype hptr, rfl⟩
        | true =>
          obtain ⟨hsecond, hlength⟩ := hfits handler htype hptr
          obtain ⟨m, hm, hmfound⟩ := readSecondPtr_ok hsecond s.paramsIdx s.memInfo
          obtain ⟨m', hm', hmfound'⟩ := run_ok hlength needAddFftsAddr (s.paramsIdx + 1) m
          have hnext : parseRecord needAddFftsAddr metaData dfxRange s = _ :=
            parseRecord_known hcont hhead hnum hword htype hptr
          rw [hm, Except.bind, hm'] at hnext
          refine ⟨_, hnext, ?_⟩
          rw [placeAfter, placeOf, hmfound', hmfound]
          rfl
  · rw [if_pos hcont]
    exact ⟨_, parseRecord_end hcont, rfl⟩

theorem parseRecord_of_not_fits {metaData : List UInt8} {dfxRange : UInt32} {s : ArgsState}
    (needAddFftsAddr : Bool) (hfits : ¬ Fits metaData (placeOf dfxRange s)) :
    parseRecord needAddFftsAddr metaData dfxRange s = .error .outOfBounds := by
  obtain ⟨hcont, hfits⟩ := Classical.not_imp.mp hfits
  by_cases hhead : InBounds16 metaData (s.index + 2)
  · obtain ⟨hnum, hfits⟩ := Classical.not_imp.mp fun h => hfits ⟨hhead, h⟩
    by_cases hword : HasWord metaData s.index
    · obtain ⟨handler, hfits⟩ := not_forall.mp fun h => hfits ⟨hword, h⟩
      obtain ⟨htype, hfits⟩ := Classical.not_imp.mp hfits
      obtain ⟨hptr, hfits⟩ := Classical.not_imp.mp hfits
      rw [parseRecord_known hcont hhead hnum hword htype hptr]
      by_cases hsecond : pointerType metaData s.index = .level2PointerWithShape →
          (s.index + 4).toNat + 16 + 8 ≤ metaData.length
      · obtain ⟨m, hm, _⟩ := readSecondPtr_ok hsecond s.paramsIdx s.memInfo
        rw [hm, Except.bind, run_fault fun h => hfits ⟨hsecond, h⟩]
        rfl
      · rw [readSecondPtr_fault hsecond]
        rfl
    · exact parseRecord_wordFault hcont hhead hnum hword
  · exact parseRecord_headFault hcont hhead

/-! ## A round of the outer loop -/

theorem parseKernelArgs_eq {metaData : List UInt8} {index : UInt32} (needAddFftsAddr : Bool)
    (h : InBounds16 metaData index) (fuel : ℕ) (memInfo : MetaMemInfo) :
    parseKernelArgs needAddFftsAddr metaData fuel index memInfo =
      (runLoop .outOfFuel
        (parseRecord needAddFftsAddr metaData
          (UInt32.ofNat (le16 metaData index) + (index + 2))) fuel
        ⟨index + 2, 0, memInfo⟩).map fun s => (s.index, s.memInfo) := by
  rw [parseKernelArgs, le16At_eq, if_pos h]
  rfl

/-- A round at an index that the section does not end at. -/
theorem parseEntry_eq {needAddFftsAddr : Bool} {metaData : List UInt8} {s : ParseState}
    (hsize : 1 ≤ metaData.length) (hloop : s.index.toNat < lastIndex metaData.length) (fuel : ℕ) :
    parseEntry needAddFftsAddr metaData fuel s =
      if (s.index + 2 + 2).toNat > metaData.length then .ok (.done (false, s.memInfo))
      else if le16 metaData s.index = dfxType then
        (parseKernelArgs needAddFftsAddr metaData fuel (s.index + 2) s.memInfo).bind fun r =>
          if r.2.inputParamsAddrInfos.isEmpty then .ok (.done (false, r.2))
          else .ok (.next ⟨r.1, r.2⟩)
      else
        (le16At metaData (s.index + 2)).bind fun length => .ok (.next
          ⟨s.index + 2 + UInt32.ofNat (2 + length),
            if le16 metaData s.index = tikType then { s.memInfo with isTik := true }
            else s.memInfo⟩) := by
  have hlast : lastIndex metaData.length = metaData.length - 1 := if_neg (by omega)
  have hbounds : InBounds16 metaData s.index := by
    refine ⟨by omega, ?_⟩
    rw [UInt32.toNat_add]
    exact Nat.lt_of_le_of_lt (Nat.mod_le _ _) (by change s.index.toNat + 1 < _; omega)
  rw [parseEntry, if_neg (not_not.mpr hloop), le16At_eq, if_pos hbounds]
  rfl

theorem parseKernelArgs_mono {needAddFftsAddr : Bool} {metaData : List UInt8} {fuel fuel' : ℕ}
    (hfuel : fuel ≤ fuel') {index : UInt32} {memInfo : MetaMemInfo} {r : UInt32 × MetaMemInfo}
    (h : parseKernelArgs needAddFftsAddr metaData fuel index memInfo = .ok r) :
    parseKernelArgs needAddFftsAddr metaData fuel' index memInfo = .ok r := by
  by_cases hbounds : InBounds16 metaData index
  · rw [parseKernelArgs_eq _ hbounds] at h ⊢
    cases hs : runLoop .outOfFuel (parseRecord needAddFftsAddr metaData
        (UInt32.ofNat (le16 metaData index) + (index + 2))) fuel ⟨index + 2, 0, memInfo⟩ with
    | error e =>
      rw [hs] at h
      cases h
    | ok s =>
      rw [hs] at h
      rw [runLoop_mono (fun _ _ hs => hs) hfuel hs]
      exact h
  · rw [parseKernelArgs, le16At_eq, if_neg hbounds] at h
    cases h

theorem parseEntry_mono {needAddFftsAddr : Bool} {metaData : List UInt8} {fuel fuel' : ℕ}
    (hsize : 1 ≤ metaData.length) (hfuel : fuel ≤ fuel') (s : ParseState)
    (x : LoopStep ParseState (Bool × MetaMemInfo))
    (h : parseEntry needAddFftsAddr metaData fuel s = .ok x) :
    parseEntry needAddFftsAddr metaData fuel' s = .ok x := by
  by_cases hloop : s.index.toNat < lastIndex metaData.length
  · rw [parseEntry_eq hsize hloop] at h ⊢
    by_cases hshort : (s.index + 2 + 2).toNat > metaData.length
    · rwa [if_pos hshort] at h ⊢
    · rw [if_neg hshort] at h ⊢
      by_cases htype : le16 metaData s.index = dfxType
      · rw [if_pos htype] at h ⊢
        cases hr : parseKernelArgs needAddFftsAddr metaData fuel (s.index + 2) s.memInfo with
        | error e =>
          rw [hr] at h
          cases h
        | ok r =>
          rw [hr] at h
          rw [parseKernelArgs_mono hfuel hr]
          exact h
      · rwa [if_neg htype] at h ⊢
  · rw [parseEntry, if_pos hloop] at h ⊢
    exact h

/-! ## The parser and the walk -/

section Simulation
variable {needAddFftsAddr : Bool} {metaData : List UInt8}

theorem along_of_args {dfxRange : UInt32} {fuel : ℕ} {s s' : ArgsState}
    (h : runLoop .outOfFuel (parseRecord needAddFftsAddr metaData dfxRange) fuel s = .ok s')
    (hafter : ∀ q, afterArgs s'.index (found s'.memInfo) = some q →
      Along (nextPlace metaData) (Fits metaData) q) :
    Along (nextPlace metaData) (Fits metaData) (placeOf dfxRange s) := by
  induction fuel generalizing s with
  | zero => cases h
  | succ fuel ih =>
    by_cases hfits : Fits metaData (placeOf dfxRange s)
    · obtain ⟨x, hx, hnext⟩ := parseRecord_of_fits needAddFftsAddr hfits
      refine .intro hfits fun q hq => ?_
      rw [hnext] at hq
      cases x with
      | done s₁ =>
        rw [runLoop_done hx] at h
        cases h
        exact hafter q hq
      | next s₁ =>
        rw [runLoop_next hx] at h
        cases hq
        exact ih h
    · rw [runLoop_error (parseRecord_of_not_fits needAddFftsAddr hfits)] at h
      cases h

/-- The walk comes to an entry that the loop has not ended at, and reads its length. -/
theorem nextPlace_entry {index : UInt32} {b : Bool}
    (hloop : index.toNat < lastIndex metaData.length)
    (hshort : ¬ (index + 2 + 2).toNat > metaData.length) :
    nextPlace metaData (.entry index b) =
      some (if le16 metaData index = dfxType then
        .record (index + 2 + 2) (UInt32.ofNat (le16 metaData (index + 2)) + (index + 2 + 2)) b
      else .entry (index + 2 + UInt32.ofNat (2 + le16 metaData (index + 2))) b) := by
  rw [nextPlace, if_neg (not_not.mpr hloop), if_neg hshort]
  split_ifs <;> rfl

theorem found_tik (memInfo : MetaMemInfo) (type : ℕ) :
    found (if type = tikType then { memInfo with isTik := true } else memInfo) =
      found memInfo := by
  split_ifs <;> rfl

theorem parseEntry_fault (hsize : 1 ≤ metaData.length) {s : ParseState}
    (hloop : s.index.toNat < lastIndex metaData.length)
    (hshort : ¬ (s.index + 2 + 2).toNat > metaData.length)
    (hlength : ¬ InBounds16 metaData (s.index + 2)) (fuel : ℕ) :
    parseEntry needAddFftsAddr metaData fuel s = .error .outOfBounds := by
  rw [parseEntry_eq hsize hloop, if_neg hshort, parseKernelArgs, le16At_eq, if_neg hlength]
  split_ifs <;> rfl

/-- The round of a DFX entry, when the loop over its records ends. -/
theorem parseEntry_dfx (hsize : 1 ≤ metaData.length) {s : ParseState}
    (hloop : s.index.toNat < lastIndex metaData.length)
    (hshort : ¬ (s.index + 2 + 2).toNat > metaData.length)
    (hlength : InBounds16 metaData (s.index + 2)) (htype : le16 metaData s.index = dfxType)
    {fuel : ℕ} {s₁ : ArgsState}
    (hargs : runLoop .outOfFuel (parseRecord needAddFftsAddr metaData
      (UInt32.ofNat (le16 metaData (s.index + 2)) + (s.index + 2 + 2))) fuel
        ⟨s.index + 2 + 2, 0, s.memInfo⟩ = .ok s₁) :
    parseEntry needAddFftsAddr metaData fuel s =
      if found s₁.memInfo then .ok (.next ⟨s₁.index, s₁.memInfo⟩)
      else .ok (.done (false, s₁.memInfo)) := by
  rw [parseEntry_eq hsize hloop, if_neg hshort, if_pos htype, parseKernelArgs_eq _ hlength, hargs,
    found]
  cases hempty : s₁.memInfo.inputParamsAddrInfos.isEmpty with
  | false => exact if_neg (Bool.eq_false_iff.mp hempty)
  | true => exact if_pos hempty

theorem parseEntry_skip (hsize : 1 ≤ metaData.length) {s : ParseState}
    (hloop : s.index.toNat < lastIndex metaData.length)
    (hshort : ¬ (s.index + 2 + 2).toNat > metaData.length)
    (hlength : InBounds16 metaData (s.index + 2)) (htype : le16 metaData s.index ≠ dfxType)
    (fuel : ℕ) :
    parseEntry needAddFftsAddr metaData fuel s =
      .ok (.next ⟨s.index + 2 + UInt32.ofNat (2 + le16 metaData (s.index + 2)),
        if le16 metaData s.index = tikType then { s.memInfo with isTik := true }
        else s.memInfo⟩) := by
  rw [parseEntry_eq hsize hloop, if_neg hshort, if_neg htype, le16At_eq, if_pos hlength]
  rfl

theorem along_of_parse (hsize : 1 ≤ metaData.length) {fuel args : ℕ} {s : ParseState}
    {r : Bool × MetaMemInfo}
    (h : runLoop .outOfFuel (parseEntry needAddFftsAddr metaData args) fuel s = .ok r) :
    Along (nextPlace metaData) (Fits metaData) (.entry s.index (found s.memInfo)) := by
  induction fuel generalizing s with
  | zero => cases h
  | succ fuel ih =>
    by_cases hloop : s.index.toNat < lastIndex metaData.length
    · by_cases hshort : (s.index + 2 + 2).toNat > metaData.length
      · refine .intro (fun _ hlong => absurd hlong (Nat.not_le.mpr hshort)) fun q hq => ?_
        rw [nextPlace, if_neg (not_not.mpr hloop), if_pos hshort] at hq
        cases hq
      · by_cases hlength : InBounds16 metaData (s.index + 2)
        · refine .intro (fun _ _ => hlength) fun q hq => ?_
          rw [nextPlace_entry hloop hshort] at hq
          cases hq
          by_cases htype : le16 metaData s.index = dfxType
          · rw [if_pos htype]
            cases hargs : runLoop .outOfFuel (parseRecord needAddFftsAddr metaData
                (UInt32.ofNat (le16 metaData (s.index + 2)) + (s.index + 2 + 2))) args
                ⟨s.index + 2 + 2, 0, s.memInfo⟩ with
            | error e =>
              rw [runLoop, parseEntry_eq hsize hloop, if_neg hshort, if_pos htype,
                parseKernelArgs_eq _ hlength, hargs] at h
              cases h
            | ok s₁ =>
              have hround := parseEntry_dfx hsize hloop hshort hlength htype hargs
              refine along_of_args hargs fun q hq => ?_
              cases hfound : found s₁.memInfo with
              | false =>
                rw [hfound] at hq
                cases hq
              | true =>
                rw [hfound] at hq hround
                cases hq
                rw [runLoop_next hround] at h
                have hrest := ih h
                rwa [hfound] at hrest
          · rw [if_neg htype]
            rw [runLoop_next (parseEntry_skip hsize hloop hshort hlength htype args)] at h
            have hrest := ih h
            rwa [found_tik] at hrest
        · rw [runLoop_error (parseEntry_fault hsize hloop hshort hlength args)] at h
          cases h
    · refine .intro (fun hlt => absurd hlt hloop) fun q hq => ?_
      rw [nextPlace, if_pos hloop] at hq
      cases hq

/-- The parser comes to an end from an entry, with an answer and what it has stored. -/
def Parses (needAddFftsAddr : Bool) (metaData : List UInt8) (s : ParseState)
    (r : Bool × MetaMemInfo) : Prop :=
  ∃ fuel, runLoop .outOfFuel (parseEntry needAddFftsAddr metaData fuel) fuel s = .ok r

/-- The loop over the records comes to an end, and the parser after it. -/
def ArgsParse (needAddFftsAddr : Bool) (metaData : List UInt8) (dfxRange : UInt32)
    (s : ArgsState) : Prop :=
  ∃ fuel s₁, runLoop .outOfFuel (parseRecord needAddFftsAddr metaData dfxRange) fuel s = .ok s₁ ∧
    (found s₁.memInfo = true → ∃ r, Parses needAddFftsAddr metaData ⟨s₁.index, s₁.memInfo⟩ r)

theorem parses_done {s : ParseState} {r : Bool × MetaMemInfo} {fuel : ℕ}
    (h : parseEntry needAddFftsAddr metaData (fuel + 1) s = .ok (.done r)) :
    Parses needAddFftsAddr metaData s r :=
  ⟨fuel + 1, runLoop_done h fuel⟩

theorem parses_next (hsize : 1 ≤ metaData.length) {s s' : ParseState} {fuel : ℕ}
    {r : Bool × MetaMemInfo} (h : parseEntry needAddFftsAddr metaData fuel s = .ok (.next s'))
    (hrest : Parses needAddFftsAddr metaData s' r) : Parses needAddFftsAddr metaData s r := by
  obtain ⟨fuel', hr⟩ := hrest
  have hround := parseEntry_mono hsize (Nat.le_succ_of_le (Nat.le_max_left fuel fuel')) s _ h
  refine ⟨max fuel fuel' + 1, (runLoop_next hround _).trans ?_⟩
  exact runLoop_mono (parseEntry_mono hsize (Nat.le_succ_of_le (Nat.le_max_right fuel fuel')))
    (Nat.le_max_right fuel fuel') hr

theorem parses_dfx (hsize : 1 ≤ metaData.length) {s : ParseState}
    (hloop : s.index.toNat < lastIndex metaData.length)
    (hshort : ¬ (s.index + 2 + 2).toNat > metaData.length)
    (hlength : InBounds16 metaData (s.index + 2)) (htype : le16 metaData s.index = dfxType)
    (hargs : ArgsParse needAddFftsAddr metaData
      (UInt32.ofNat (le16 metaData (s.index + 2)) + (s.index + 2 + 2))
        ⟨s.index + 2 + 2, 0, s.memInfo⟩) :
    ∃ r, Parses needAddFftsAddr metaData s r := by
  obtain ⟨fuel, s₁, hargs, hafter⟩ := hargs
  have hmore := runLoop_mono (fun _ _ hs => hs) (Nat.le_succ fuel) hargs
  have hround := parseEntry_dfx hsize hloop hshort hlength htype hmore
  cases hfound : found s₁.memInfo with
  | false =>
    rw [hfound, if_neg Bool.false_ne_true] at hround
    exact ⟨_, parses_done hround⟩
  | true =>
    rw [hfound, if_pos rfl] at hround
    obtain ⟨r, hr⟩ := hafter hfound
    exact ⟨r, parses_next hsize hround hr⟩

/-- What the parser does from a place, whatever it has stored before. -/
def ParsesFrom (needAddFftsAddr : Bool) (metaData : List UInt8) : Place → Prop
  | .entry index b =>
    ∀ memInfo, found memInfo = b → ∃ r, Parses needAddFftsAddr metaData ⟨index, memInfo⟩ r
  | .record index dfxRange b =>
    ∀ paramsIdx memInfo, found memInfo = b →
      ArgsParse needAddFftsAddr metaData dfxRange ⟨index, paramsIdx, memInfo⟩

theorem parsesFrom_entry (hsize : 1 ≤ metaData.length) {index : UInt32} {b : Bool}
    (hfits : Fits metaData (.entry index b))
    (ih : ∀ q, nextPlace metaData (.entry index b) = some q →
      ParsesFrom needAddFftsAddr metaData q) :
    ParsesFrom needAddFftsAddr metaData (.entry index b) := by
  intro memInfo hfound
  by_cases hloop : index.toNat < lastIndex metaData.length
  · by_cases hshort : (index + 2 + 2).toNat > metaData.length
    · have hround : parseEntry needAddFftsAddr metaData 1 ⟨index, memInfo⟩ = _ :=
        parseEntry_eq hsize hloop 1
      rw [if_pos hshort] at hround
      exact ⟨_, parses_done hround⟩
    · have hlength := hfits hloop (Nat.le_of_not_gt hshort)
      have hplace := nextPlace_entry (b := b) hloop hshort
      by_cases htype : le16 metaData index = dfxType
      · rw [if_pos htype] at hplace
        have hargs := ih _ hplace 0 memInfo hfound
        exact parses_dfx (s := ⟨index, memInfo⟩) hsize hloop hshort hlength htype hargs
      · rw [if_neg htype] at hplace
        obtain ⟨r, hrest⟩ := ih _ hplace
          (if le16 metaData index = tikType then { memInfo with isTik := true } else memInfo)
          ((found_tik memInfo _).trans hfound)
        have hround := @parseEntry_skip needAddFftsAddr metaData hsize ⟨index, memInfo⟩ hloop hshort
          hlength htype 0
        exact ⟨r, parses_next hsize hround hrest⟩
  · have hround : parseEntry needAddFftsAddr metaData 1 ⟨index, memInfo⟩ =
        .ok (.done (true, memInfo)) := if_pos hloop
    exact ⟨_, parses_done hround⟩

theorem parsesFrom_record {index dfxRange : UInt32} {b : Bool}
    (hfits : Fits metaData (.record index dfxRange b))
    (ih : ∀ q, nextPlace metaData (.record index dfxRange b) = some q →
      ParsesFrom needAddFftsAddr metaData q) :
    ParsesFrom needAddFftsAddr metaData (.record index dfxRange b) := by
  rintro paramsIdx memInfo rfl
  obtain ⟨x, hx, hnext⟩ := parseRecord_of_fits (s := ⟨index, paramsIdx, memInfo⟩)
    needAddFftsAddr hfits
  cases x with
  | done s =>
    refine ⟨1, s, runLoop_done hx 0, fun hfound => ?_⟩
    have hentry : nextPlace metaData (.record index dfxRange (found memInfo)) =
        some (.entry s.index true) := hnext.trans (if_pos hfound)
    exact ih _ hentry s.memInfo hfound
  | next s =>
    obtain ⟨fuel, s', hs', hafter⟩ := ih _ hnext s.paramsIdx s.memInfo rfl
    exact ⟨fuel + 1, s', (runLoop_next hx fuel).trans hs', hafter⟩

theorem parsesFrom_of_along (hsize : 1 ≤ metaData.length) {p : Place}
    (h : Along (nextPlace metaData) (Fits metaData) p) : ParsesFrom needAddFftsAddr metaData p := by
  induction h with
  | @intro p hfits _ ih =>
    cases p with
    | entry index b => exact parsesFrom_entry hsize hfits ih
    | record index dfxRange b => exact parsesFrom_record hfits ih

theorem parse_ends_iff_along (hsize : 1 ≤ metaData.length) :
    (∃ fuel r, parse needAddFftsAddr metaData fuel = .ok r) ↔
      Along (nextPlace metaData) (Fits metaData) firstPlace := by
  constructor
  · rintro ⟨fuel, r, h⟩
    exact along_of_parse hsize h
  · intro h
    obtain ⟨r, fuel, hr⟩ := parsesFrom_of_along hsize h {} rfl
    exact ⟨fuel, r, hr⟩

end Simulation
/-! ## Sections whose index does not wrap -/

theorem byteOf_lt (metaData : List UInt8) (index : UInt32) : byteOf metaData index < 256 :=
  UInt8.toNat_lt _

theorem be16_lt (metaData : List UInt8) (index : UInt32) : be16 metaData index < 2 ^ 16 := by
  have hhigh := byteOf_lt metaData index
  have hlow := byteOf_lt metaData (index + 1)
  rw [be16]
  omega

theorem le16_lt (metaData : List UInt8) (index : UInt32) : le16 metaData index < 2 ^ 16 := by
  have hlow := byteOf_lt metaData index
  have hhigh := byteOf_lt metaData (index + 1)
  rw [le16]
  omega

theorem toNat_add_ofNat {index : UInt32} {n : ℕ} (h : index.toNat + n < 2 ^ 32) :
    (index + UInt32.ofNat n).toNat = index.toNat + n := by
  have hn : (UInt32.ofNat n).toNat = n := Words.toNat_ofNat32 (by omega)
  rw [Words.toNat_add32 (by rwa [hn]), hn]

def Place.index : Place → UInt32
  | .entry index _ => index
  | .record index _ _ => index

/-- How far the walk can still go. -/
def remaining (metaData : List UInt8) : Place → ℕ
  | .entry index _ => 2 * (metaData.length - index.toNat)
  | .record index _ _ => 2 * (metaData.length - index.toNat) + 1

/-- No step of the walk leaves the section by more than its longest record. -/
def NearSection (metaData : List UInt8) (p : Place) : Prop :=
  p.index.toNat ≤ metaData.length + 2 ^ 19

theorem remaining_entry {metaData : List UInt8} (hsize : 1 ≤ metaData.length)
    (hsmall : metaData.length + 2 ^ 20 ≤ 2 ^ 32)
    {index : UInt32} {b : Bool} {q : Place} (h : nextPlace metaData (.entry index b) = some q) :
    NearSection metaData q ∧ remaining metaData q < remaining metaData (.entry index b) := by
  by_cases hloop : index.toNat < lastIndex metaData.length
  · by_cases hshort : (index + 2 + 2).toNat > metaData.length
    · rw [nextPlace, if_neg (not_not.mpr hloop), if_pos hshort] at h
      cases h
    · rw [nextPlace_entry hloop hshort] at h
      have hlast : lastIndex metaData.length = metaData.length - 1 := if_neg (by omega)
      have htwo : (index + 2).toNat = index.toNat + 2 := toNat_add_ofNat (n := 2) (by omega)
      have hfour : (index + 2 + 2).toNat = (index + 2).toNat + 2 :=
        toNat_add_ofNat (n := 2) (by omega)
      cases h
      by_cases htype : le16 metaData index = dfxType
      · rw [if_pos htype]
        simp only [NearSection, Place.index, remaining]
        omega
      · have hlength := le16_lt metaData (index + 2)
        have hskip : (index + 2 + UInt32.ofNat (2 + le16 metaData (index + 2))).toNat =
            (index + 2).toNat + (2 + le16 metaData (index + 2)) := toNat_add_ofNat (by omega)
        rw [if_neg htype]
        simp only [NearSection, Place.index, remaining]
        omega
  · rw [nextPlace, if_pos hloop] at h
    cases h

theorem remaining_afterArgs {metaData : List UInt8} {index index' dfxRange : UInt32} {b : Bool}
    {q : Place} (hnear : index'.toNat ≤ metaData.length + 2 ^ 19)
    (hle : index.toNat ≤ index'.toNat) (h : afterArgs index' b = some q) :
    NearSection metaData q ∧ remaining metaData q < remaining metaData (.record index dfxRange b) := by
  cases b with
  | false => cases h
  | true =>
    cases h
    refine ⟨hnear, ?_⟩
    simp only [remaining]
    omega

theorem remaining_record {metaData : List UInt8} (hsmall : metaData.length + 2 ^ 20 ≤ 2 ^ 32)
    {index dfxRange : UInt32} {b : Bool} {q : Place}
    (hp : index.toNat ≤ metaData.length + 2 ^ 19)
    (h : nextPlace metaData (.record index dfxRange b) = some q) :
    NearSection metaData q ∧ remaining metaData q < remaining metaData (.record index dfxRange b) := by
  have hnum := be16_lt metaData (index + 2)
  have hseven : (index + 7).toNat = index.toNat + 7 := toNat_add_ofNat (n := 7) (by omega)
  have hfour : (index + 4).toNat = index.toNat + 4 := toNat_add_ofNat (n := 4) (by omega)
  have htwelve : (index + 4 + 8).toNat = (index + 4).toNat + 8 :=
    toNat_add_ofNat (n := 8) (by omega)
  rw [nextPlace] at h
  by_cases hcont : Continues metaData dfxRange index
  · have hlt : (index + 7).toNat < metaData.length := hcont.2
    rw [if_neg (not_not.mpr hcont)] at h
    by_cases hzero : numOfUint64 metaData index = 0
    · rw [if_pos hzero] at h
      cases h
      simp only [NearSection, Place.index, remaining]
      omega
    · rw [if_neg hzero] at h
      cases htype : dfxParser (tensorType metaData index) with
      | none =>
        have hskip : (index + 4 + UInt32.ofNat (numOfUint64 metaData index * 8)).toNat =
            (index + 4).toNat + numOfUint64 metaData index * 8 :=
          toNat_add_ofNat (by rw [numOfUint64]; omega)
        rw [htype] at h
        exact remaining_afterArgs (by rw [hskip, numOfUint64]; omega) (by omega) h
      | some handler =>
        rw [htype] at h
        cases hptr : isSupportDfxPointPtr (pointerType metaData index) with
        | false =>
          rw [hptr] at h
          cases h
        | true =>
          have hskip : (index + 4 + 8 + UInt32.ofNat ((numOfUint64 metaData index - 1) * 8)).toNat =
              (index + 4 + 8).toNat + (numOfUint64 metaData index - 1) * 8 :=
            toNat_add_ofNat (by rw [numOfUint64]; omega)
          rw [hptr] at h
          cases h
          simp only [NearSection, Place.index, remaining, hskip]
          rw [numOfUint64]
          omega
  · rw [if_pos hcont] at h
    exact remaining_afterArgs hp (Nat.le_refl _) h

theorem remaining_nextPlace {metaData : List UInt8} (hsize : 1 ≤ metaData.length)
    (hsmall : metaData.length + 2 ^ 20 ≤ 2 ^ 32)
    (p q : Place) (hp : NearSection metaData p) (h : nextPlace metaData p = some q) :
    NearSection metaData q ∧ remaining metaData q < remaining metaData p := by
  cases p with
  | entry index b => exact remaining_entry hsize hsmall h
  | record index dfxRange b => exact remaining_record hsmall hp h

theorem walk_ends {metaData : List UInt8} (hsize : 1 ≤ metaData.length)
    (hsmall : metaData.length + 2 ^ 20 ≤ 2 ^ 32) :
    ∃ n, walk (nextPlace metaData) firstPlace n = none :=
  walk_ends_of_measure (remaining metaData) (remaining_nextPlace hsize hsmall) (Nat.zero_le _)

theorem nearSection_walk {metaData : List UInt8} (hsize : 1 ≤ metaData.length)
    (hsmall : metaData.length + 2 ^ 20 ≤ 2 ^ 32) {n : ℕ} {p : Place}
    (h : walk (nextPlace metaData) firstPlace n = some p) : NearSection metaData p := by
  induction n generalizing p with
  | zero =>
    cases h
    exact Nat.zero_le _
  | succ n ih =>
    obtain ⟨q, hq, hnext⟩ := Option.bind_eq_some_iff.mp h
    exact (remaining_nextPlace hsize hsmall q p (ih hq) hnext).1

def IsSecondPtr (metaData : List UInt8) (index : UInt32) : Prop :=
  (dfxParser (tensorType metaData index)).isSome = true ∧
    pointerType metaData index = .level2PointerWithShape

/-- The count and the first word of a record are in the section, and the word of a
second-level pointer that holds its data type size. -/
def RecordFits (metaData : List UInt8) : Place → Prop
  | .entry _ _ => True
  | .record index dfxRange _ =>
    index < dfxRange → index.toNat + 8 ≤ metaData.length → numOfUint64 metaData index ≠ 0 →
      index.toNat + 12 ≤ metaData.length ∧
        (IsSecondPtr metaData index → index.toNat + 28 ≤ metaData.length)

/-- In a small section the 32-bit positions are plain ones. -/
theorem fits_iff_recordFits {metaData : List UInt8} (hsize : 1 ≤ metaData.length)
    (hsmall : metaData.length + 2 ^ 20 ≤ 2 ^ 32) {p : Place} (hp : NearSection metaData p) :
    Fits metaData p ↔ RecordFits metaData p := by
  cases p with
  | entry index b =>
    refine iff_of_true (fun hloop hshort => ?_) trivial
    have hlast : lastIndex metaData.length = metaData.length - 1 := if_neg (by omega)
    have htwo : (index + 2).toNat = index.toNat + 2 := toNat_add_ofNat (n := 2) (by omega)
    have hthree : (index + 2 + 1).toNat = (index + 2).toNat + 1 :=
      toNat_add_ofNat (n := 1) (by omega)
    have hfour : (index + 2 + 2).toNat = (index + 2).toNat + 2 :=
      toNat_add_ofNat (n := 2) (by omega)
    rw [InBounds16]
    omega
  | record index dfxRange b =>
    have hp' : index.toNat ≤ metaData.length + 2 ^ 19 := hp
    have htwo : (index + 2).toNat = index.toNat + 2 := toNat_add_ofNat (n := 2) (by omega)
    have hthree : (index + 2 + 1).toNat = (index + 2).toNat + 1 :=
      toNat_add_ofNat (n := 1) (by omega)
    have hseven : (index + 7).toNat = index.toNat + 7 := toNat_add_ofNat (n := 7) (by omega)
    have hfour : (index + 4).toNat = index.toNat + 4 := toNat_add_ofNat (n := 4) (by omega)
    have hptr : (index + 4 + 4).toNat = (index + 4).toNat + 4 :=
      toNat_add_ofNat (n := 4) (by omega)
    have hptr' : (index + 4 + 4 + 1).toNat = (index + 4 + 4).toNat + 1 :=
      toNat_add_ofNat (n := 1) (by omega)
    have htype : (index + 4 + 6).toNat = (index + 4).toNat + 6 :=
      toNat_add_ofNat (n := 6) (by omega)
    have htype' : (index + 4 + 6 + 1).toNat = (index + 4 + 6).toNat + 1 :=
      toNat_add_ofNat (n := 1) (by omega)
    have hword : HasWord metaData index ↔ index.toNat + 12 ≤ metaData.length := by
      rw [HasWord, InBounds16, InBounds16]
      omega
    have hhead : index.toNat + 8 ≤ metaData.length → InBounds16 metaData (index + 2) := by
      rw [InBounds16]
      omega
    have htwelve : (index + 4 + 8).toNat = (index + 4).toNat + 8 :=
      toNat_add_ofNat (n := 8) (by omega)
    have hsees : (8 + (index + 4 + 8)).toNat = (index + 4 + 8).toNat + 8 := by
      rw [UInt32.add_comm]
      exact toNat_add_ofNat (n := 8) (by omega)
    constructor
    · intro h hlt hcount hnum
      obtain ⟨_, h⟩ := h ⟨hlt, by omega⟩
      obtain ⟨hfirst, h⟩ := h hnum
      refine ⟨hword.mp hfirst, fun hsecond => ?_⟩
      obtain ⟨handler, hhandler⟩ := Option.isSome_iff_exists.mp hsecond.1
      have hsize := (h handler hhandler (by rw [hsecond.2]; rfl)).1 hsecond.2
      omega
    · rintro h ⟨hlt, hcount⟩
      refine ⟨hhead (by omega), fun hnum => ?_⟩
      obtain ⟨hfirst, hsecond⟩ := h hlt (by omega) hnum
      refine ⟨hword.mpr hfirst, fun handler hhandler _ => ⟨fun hptr => ?_, fun _ hsee => ?_⟩⟩
      · have hsize := hsecond ⟨by rw [hhandler]; rfl, hptr⟩
        omega
      · rw [seesWord, hsees] at hsee
        exact hsee

/-- The parser stays in bounds and comes to an end exactly when every place of the walk
fits and the walk comes to an end. In a section where the index does not wrap the walk
does end. -/
theorem parse_inBounds_iff (needAddFftsAddr : Bool) (metaData : List UInt8)
    (hsize : 1 ≤ metaData.length) :
    ((∃ fuel r, parse needAddFftsAddr metaData fuel = .ok r) ↔
      (∀ n p, walk (nextPlace metaData) firstPlace n = some p → Fits metaData p) ∧
        ∃ n, walk (nextPlace metaData) firstPlace n = none) ∧
    (metaData.length + 2 ^ 20 ≤ 2 ^ 32 →
      ((∃ fuel r, parse needAddFftsAddr metaData fuel = .ok r) ↔
        ∀ n p, walk (nextPlace metaData) firstPlace n = some p → RecordFits metaData p)) := by
  have hiff : (∃ fuel r, parse needAddFftsAddr metaData fuel = .ok r) ↔ _ :=
    (parse_ends_iff_along hsize).trans along_iff
  refine ⟨hiff, fun hsmall => (hiff.trans (and_iff_left (walk_ends hsize hsmall))).trans ?_⟩
  exact forall_congr' fun n => forall_congr' fun p => imp_congr_right fun hp =>
    fits_iff_recordFits hsize hsmall (nearSection_walk hsize hsmall hp)

/-- One record of an input tensor, with its two words. -/
def inputSection : List UInt8 :=
  [4, 0, 20, 0, 0, 0, 0, 2, 0, 0, 0, 0, 0, 1, 0, 2, 0, 0, 0, 0, 0, 0, 1, 0]

theorem parse_inBounds_inputSection :
    (∃ fuel r, parse true inputSection fuel = .ok r) ↔
      ∀ n p, walk (nextPlace inputSection) firstPlace n = some p → RecordFits inputSection p :=
  (parse_inBounds_iff true inputSection (by decide)).2 (by decide)

/-- A record that is cut off behind four bytes of its first word. -/
def truncatedSection : List UInt8 := [4, 0, 8, 0, 0, 5, 0, 1, 0, 0, 0, 0]

theorem truncatedSection_outOfBounds :
    (∀ fuel, parse true truncatedSection (fuel + 1) = .error .outOfBounds) ∧
      ¬ ∃ fuel r, parse true truncatedSection fuel = .ok r := by
  have hfault : ∀ fuel, parse true truncatedSection (fuel + 1) = .error .outOfBounds :=
    fun _ => rfl
  refine ⟨hfault, ?_⟩
  rintro ⟨fuel, r, h⟩
  cases fuel with
  | zero => cases h
  | succ fuel =>
    rw [hfault] at h
    cases h

end Msopcom.MetaWalk
