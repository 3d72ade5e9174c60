import Msopcom.MetaFraming

set_option autoImplicit false

/-!
# Sections made of entries

A well-formed section is the concatenation of its entries. A DFX value of whole records
is parsed as it would be alone, and the parser goes on with the next entry.
-/
namespace Msopcom.MetaSection
open FuelLoop MetaRecord MetaWalk MetaRecordView MetaFraming Bytes

structure MetaEntry where
  type : UInt16
  value : List UInt8
  fits : value.length < 2 ^ 16

/-- Type, length and value. -/
def MetaEntry.encode (e : MetaEntry) : List UInt8 :=
  leBytes 2 e.type.toNat ++ (leBytes 2 e.value.length ++ e.value)

def encode (es : List MetaEntry) : List UInt8 := es.flatMap MetaEntry.encode

def dfxEntry (value : List UInt8) (fits : value.length < 2 ^ 16) : MetaEntry := ⟨4, value, fits⟩

@[simp] theorem MetaEntry.length_encode (e : MetaEntry) :
    e.encode.length = 4 + e.value.length := by
  simp only [MetaEntry.encode, List.length_append, length_leBytes]
  omega

@[simp] theorem encode_nil : encode [] = [] := rfl

@[simp] theorem encode_cons (e : MetaEntry) (es : List MetaEntry) :
    encode (e :: es) = e.encode ++ encode es :=
  List.flatMap_cons

@[simp] theorem encode_append (es es' : List MetaEntry) :
    encode (es ++ es') = encode es ++ encode es' :=
  List.flatMap_append

/-- `ParseKernelArgs` comes to an end behind `size` bytes with the information `m`. -/
def ArgsLeave (needAddFftsAddr : Bool) (metaData : List UInt8) (index : ℕ) (memInfo : MetaMemInfo)
    (size : ℕ) (m : MetaMemInfo) : Prop :=
  ∃ fuel j, parseKernelArgs needAddFftsAddr metaData fuel (UInt32.ofNat index) memInfo =
    .ok (j, m) ∧ j.toNat = size

/-- Between these entries the parser goes on at the first byte behind the value, and knows
of the value what it would know of it alone. -/
def Framed (needAddFftsAddr : Bool) (before : List MetaEntry) (value : List UInt8)
    (fits : value.length < 2 ^ 16) (after : List MetaEntry) (memInfo : MetaMemInfo) : Prop :=
  ∃ m, ArgsLeave needAddFftsAddr (encode [dfxEntry value fits]) 2 memInfo (4 + value.length) m ∧
    ArgsLeave needAddFftsAddr (encode (before ++ dfxEntry value fits :: after))
      ((encode before).length + 2) memInfo ((encode before).length + 4 + value.length) m

/-! ## The two bytes of a type or a length -/

theorem le16_leBytes {n : ℕ} (hn : n < 2 ^ 16) : le16 (leBytes 2 n) 0 = n := by
  have hlow : (UInt8.ofNat n).toNat = n % 2 ^ 8 := UInt8.toNat_ofNat'
  have hhigh : (UInt8.ofNat (n / 256)).toNat = n / 256 % 2 ^ 8 := UInt8.toNat_ofNat'
  change (UInt8.ofNat n).toNat + 256 * (UInt8.ofNat (n / 256)).toNat = n
  omega

section Field
variable {front rest : List UInt8} {index : UInt32} {n : ℕ}
  (hindex : index.toNat = front.length) (hfit : front.length + 2 < 2 ^ 32)
include hindex hfit

theorem le16_field (hn : n < 2 ^ 16) : le16 (front ++ (leBytes 2 n ++ rest)) index = n := by
  have hzero : byteOf (front ++ (leBytes 2 n ++ rest)) (index + 0) = byteOf (leBytes 2 n) 0 :=
    byteOf_context hindex (by rwa [length_leBytes]) (by rw [length_leBytes]; decide)
  have hone : byteOf (front ++ (leBytes 2 n ++ rest)) (index + 1) = byteOf (leBytes 2 n) 1 :=
    byteOf_context hindex (by rwa [length_leBytes]) (by rw [length_leBytes]; decide)
  rw [UInt32.add_zero] at hzero
  rw [le16, hzero, hone]
  exact le16_leBytes hn

theorem inBounds_field : InBounds16 (front ++ (leBytes 2 n ++ rest)) index := by
  have hbounds : InBounds16 (front ++ (leBytes 2 n ++ rest)) (index + 0) :=
    inBounds_context hindex (by rwa [length_leBytes]) rfl (by rw [length_leBytes]; decide)
  rwa [UInt32.add_zero] at hbounds

end Field

/-- The loop over the records of a value, seen from the bytes before its length. -/
theorem argsLeave_iff {needAddFftsAddr : Bool} {front value post : List UInt8}
    {memInfo m : MetaMemInfo} (fits : value.length < 2 ^ 16)
    (hfit : front.length + 2 + value.length < 2 ^ 32) :
    ArgsLeave needAddFftsAddr (front ++ (leBytes 2 value.length ++ (value ++ post))) front.length
        memInfo (front.length + 2 + value.length) m ↔
      LeavesAt needAddFftsAddr (front ++ leBytes 2 value.length) value
        (UInt32.ofNat value.length + (UInt32.ofNat front.length + 2))
        ⟨UInt32.ofNat front.length + 2, 0, memInfo⟩ m post := by
  have hindex : (UInt32.ofNat front.length).toNat = front.length := Words.toNat_ofNat32 (by omega)
  have hlength : (front ++ leBytes 2 value.length).length = front.length + 2 := by
    rw [List.length_append, length_leBytes]
  have hargs : ∀ fuel, parseKernelArgs needAddFftsAddr
      (front ++ (leBytes 2 value.length ++ (value ++ post))) fuel (UInt32.ofNat front.length)
        memInfo = _ :=
    fun fuel => parseKernelArgs_eq needAddFftsAddr (inBounds_field hindex (by omega)) fuel memInfo
  rw [le16_field hindex (by omega) fits] at hargs
  constructor
  · rintro ⟨fuel, j, hj, hsize⟩
    rw [hargs] at hj
    cases hloop : runLoop .outOfFuel (parseRecord needAddFftsAddr
        (front ++ (leBytes 2 value.length ++ (value ++ post)))
        (UInt32.ofNat value.length + (UInt32.ofNat front.length + 2))) fuel
        ⟨UInt32.ofNat front.length + 2, 0, memInfo⟩ with
    | error e =>
      rw [hloop] at hj
      cases hj
    | ok s =>
      rw [hloop] at hj
      cases hj
      refine ⟨s, by rw [hsize, hlength], rfl, fuel, ?_⟩
      rwa [List.append_assoc]
  · rintro ⟨s, hsize, rfl, fuel, hloop⟩
    rw [List.append_assoc] at hloop
    refine ⟨fuel, s.index, ?_, by rw [hsize, hlength]⟩
    rw [hargs, hloop]
    rfl

/-! ## The value of one entry -/

/-- The bytes before the length of an entry, and those behind its value. -/
theorem encode_around (before after : List MetaEntry) (e : MetaEntry) :
    encode (before ++ e :: after) =
      (encode before ++ leBytes 2 e.type.toNat) ++
        (leBytes 2 e.value.length ++ (e.value ++ encode after)) := by
  simp only [encode_append, encode_cons, MetaEntry.encode, List.append_assoc]

theorem length_before (before : List MetaEntry) (n : ℕ) :
    (encode before ++ leBytes 2 n).length = (encode before).length + 2 := by
  rw [List.length_append, length_leBytes]

/-- Where the loop over the records of an entry starts and has to end. -/
theorem toNat_loop {before : List MetaEntry} {value : List UInt8}
    (hfit : (encode before).length + 4 + value.length < 2 ^ 32) :
    (UInt32.ofNat ((encode before).length + 2) + 2).toNat = (encode before).length + 4 ∧
      (UInt32.ofNat value.length + (UInt32.ofNat ((encode before).length + 2) + 2)).toNat =
        (encode before).length + 4 + value.length := by
  have hindex : (UInt32.ofNat ((encode before).length + 2)).toNat = (encode before).length + 2 :=
    Words.toNat_ofNat32 (by omega)
  have hstart : (UInt32.ofNat ((encode before).length + 2) + 2).toNat =
      (encode before).length + 2 + 2 := toNat_add_of_lt hindex (by
    change (encode before).length + 2 + 2 < 2 ^ 32
    omega)
  have hvalue : (UInt32.ofNat value.length).toNat = value.length := Words.toNat_ofNat32 (by omega)
  have hend : (UInt32.ofNat value.length + (UInt32.ofNat ((encode before).length + 2) + 2)).toNat =
      (UInt32.ofNat value.length).toNat + (UInt32.ofNat ((encode before).length + 2) + 2).toNat :=
    Words.toNat_add32 (by omega)
  omega

theorem argsLeave_dfx_iff {needAddFftsAddr : Bool} {before after : List MetaEntry}
    {value : List UInt8} {fits : value.length < 2 ^ 16} {memInfo m : MetaMemInfo}
    (hfit : (encode before).length + 4 + value.length < 2 ^ 32) :
    ArgsLeave needAddFftsAddr (encode (before ++ dfxEntry value fits :: after))
        ((encode before).length + 2) memInfo ((encode before).length + 4 + value.length) m ↔
      LeavesAt needAddFftsAddr ((encode before ++ leBytes 2 4) ++ leBytes 2 value.length) value
        (UInt32.ofNat value.length + (UInt32.ofNat ((encode before).length + 2) + 2))
        ⟨UInt32.ofNat ((encode before).length + 2) + 2, 0, memInfo⟩ m (encode after) := by
  have hbefore := length_before before 4
  have hiff : _ ↔ LeavesAt needAddFftsAddr _ value _ ⟨_, 0, memInfo⟩ m (encode after) :=
    argsLeave_iff fits (by rw [hbefore]; omega)
  rw [hbefore] at hiff
  rw [encode_around, ← hiff, Nat.add_right_comm _ 2]
  rfl

theorem argsLeave_of_leavesWith {needAddFftsAddr : Bool} {value : List UInt8}
    {fits : value.length < 2 ^ 16} {memInfo m : MetaMemInfo}
    (h : LeavesWith needAddFftsAddr value 0 memInfo m) (before after : List MetaEntry)
    (hfit : (encode before).length + 4 + value.length < 2 ^ 32) :
    ArgsLeave needAddFftsAddr (encode (before ++ dfxEntry value fits :: after))
      ((encode before).length + 2) memInfo ((encode before).length + 4 + value.length) m := by
  obtain ⟨hstart, hend⟩ := toNat_loop hfit
  have hfront : ((encode before ++ leBytes 2 4) ++ leBytes 2 value.length).length =
      (encode before).length + 4 := by
    rw [List.length_append, length_before, length_leBytes]
  rw [argsLeave_dfx_iff hfit]
  exact h _ _ _ _ (by rw [hstart, hfront]) (by rw [hfront]; exact hfit) (by rw [hend, hfront])

theorem argsLeave_alone {needAddFftsAddr : Bool} {value : List UInt8}
    {fits : value.length < 2 ^ 16} {memInfo m : MetaMemInfo}
    (h : LeavesWith needAddFftsAddr value 0 memInfo m) :
    ArgsLeave needAddFftsAddr (encode [dfxEntry value fits]) 2 memInfo (4 + value.length) m := by
  have hsize : (encode []).length + 4 + value.length = 4 + value.length := by
    rw [encode_nil, List.length_nil, Nat.zero_add]
  have halone : ArgsLeave needAddFftsAddr (encode ([] ++ [dfxEntry value fits])) _ memInfo _ m :=
    argsLeave_of_leavesWith h [] [] (by omega)
  rwa [hsize] at halone

theorem framed_of_wholeRecords {needAddFftsAddr : Bool} {before after : List MetaEntry}
    {value : List UInt8} {fits : value.length < 2 ^ 16} (memInfo : MetaMemInfo)
    (h : WholeRecords value) (hfit : (encode before).length + 4 + value.length < 2 ^ 32) :
    Framed needAddFftsAddr before value fits after memInfo := by
  obtain ⟨m, hm⟩ : ∃ m, LeavesWith needAddFftsAddr value 0 memInfo m :=
    leavesWith_of_wholeRecords h 0 memInfo
  exact ⟨m, argsLeave_alone hm, argsLeave_of_leavesWith hm before after hfit⟩

theorem ArgsLeave.unique {needAddFftsAddr : Bool} {metaData : List UInt8} {index size size' : ℕ}
    {memInfo m m' : MetaMemInfo} (h : ArgsLeave needAddFftsAddr metaData index memInfo size m)
    (h' : ArgsLeave needAddFftsAddr metaData index memInfo size' m') : m = m' := by
  obtain ⟨fuel, j, hj, _⟩ := h
  obtain ⟨fuel', j', hj', _⟩ := h'
  have hmax := parseKernelArgs_mono (Nat.le_max_left fuel fuel') hj
  rw [parseKernelArgs_mono (Nat.le_max_right fuel fuel') hj'] at hmax
  cases hmax
  rfl

theorem encode_spareEntry (type : UInt8) :
    encode [⟨type.toUInt16, [0, 0, 0, 0], by decide⟩] = spareEntry type := by
  have htype : type.toUInt16.toNat = type.toNat := UInt8.toNat_toUInt16 type
  have hhigh : type.toNat / 256 = 0 := Nat.div_eq_of_lt type.toNat_lt
  simp [encode, MetaEntry.encode, leBytes, spareEntry, htype, hhigh]

theorem wholeRecords_of_framed {needAddFftsAddr : Bool} {value : List UInt8}
    {fits : value.length < 2 ^ 16} {memInfo : MetaMemInfo}
    (h : ∀ after, Framed needAddFftsAddr [] value fits after memInfo) : WholeRecords value := by
  have hfit : (encode []).length + 4 + value.length < 2 ^ 32 := by
    rw [encode_nil, List.length_nil]
    omega
  obtain ⟨hstart, hend⟩ := @toNat_loop [] value hfit
  have hfront : ((encode [] ++ leBytes 2 4) ++ leBytes 2 value.length).length = 4 := by
    rw [List.length_append, length_before, length_leBytes]
    rfl
  obtain ⟨m, halone, hnil⟩ := h []
  have hleaves : ∀ after, LeavesAt needAddFftsAddr
      ((encode [] ++ leBytes 2 4) ++ leBytes 2 value.length) value
      (UInt32.ofNat value.length + (UInt32.ofNat ((encode []).length + 2) + 2))
      ⟨UInt32.ofNat ((encode []).length + 2) + 2, 0, memInfo⟩ m (encode after) := by
    intro after
    obtain ⟨m', halone', hafter⟩ := h after
    rw [halone.unique halone']
    exact (argsLeave_dfx_iff hfit).mp hafter
  apply wholeRecords_of_leavesAt (s := ⟨UInt32.ofNat ((encode []).length + 2) + 2, 0, memInfo⟩)
  · rw [hfront]
    exact hstart
  · rw [hfront]
    omega
  · rw [hend, hfront]
    rfl
  · exact hleaves []
  · intro type
    rw [← encode_spareEntry]
    exact hleaves _

/-! ## Whole sections -/

/-- What the parser makes of a list of entries when it knows of each DFX value what it
would know of it alone. -/
inductive EntriesParse (needAddFftsAddr : Bool) :
    List MetaEntry → MetaMemInfo → Bool × MetaMemInfo → Prop
  | nil (memInfo : MetaMemInfo) : EntriesParse needAddFftsAddr [] memInfo (true, memInfo)
  | dfxLast {e : MetaEntry} {es : List MetaEntry} {memInfo m : MetaMemInfo}
      (htype : e.type.toNat = dfxType)
      (halone : ArgsLeave needAddFftsAddr (encode [e]) 2 memInfo (4 + e.value.length) m)
      (hfound : found m = false) : EntriesParse needAddFftsAddr (e :: es) memInfo (false, m)
  | dfx {e : MetaEntry} {es : List MetaEntry} {memInfo m : MetaMemInfo} {r : Bool × MetaMemInfo}
      (htype : e.type.toNat = dfxType)
      (halone : ArgsLeave needAddFftsAddr (encode [e]) 2 memInfo (4 + e.value.length) m)
      (hfound : found m = true) (hrest : EntriesParse needAddFftsAddr es m r) :
      EntriesParse needAddFftsAddr (e :: es) memInfo r
  | skip {e : MetaEntry} {es : List MetaEntry} {memInfo : MetaMemInfo} {r : Bool × MetaMemInfo}
      (htype : e.type.toNat ≠ dfxType)
      (hrest : EntriesParse needAddFftsAddr es
        (if e.type.toNat = tikType then { memInfo with isTik := true } else memInfo) r) :
      EntriesParse needAddFftsAddr (e :: es) memInfo r

theorem eq_dfxEntry {e : MetaEntry} (htype : e.type.toNat = dfxType) :
    e = dfxEntry e.value e.fits := by
  obtain ⟨type, value, fits⟩ := e
  have htype' : type = 4 := UInt16.toNat_inj.mp htype
  rw [dfxEntry, htype']

section Entry
variable {needAddFftsAddr : Bool} {before : List MetaEntry} {e : MetaEntry} {es : List MetaEntry}
  {memInfo : MetaMemInfo} {index : UInt32} (hindex : index.toNat = (encode before).length)
  (hfit : (encode (before ++ e :: es)).length < 2 ^ 32)

theorem length_entries :
    (encode (before ++ e :: es)).length =
      (encode before).length + 4 + e.value.length + (encode es).length := by
  simp only [encode_append, encode_cons, List.length_append, MetaEntry.length_encode]
  omega

include hindex hfit

theorem loop_entry :
    index.toNat < lastIndex (encode (before ++ e :: es)).length ∧
      ¬ (index + 2 + 2).toNat > (encode (before ++ e :: es)).length := by
  rw [length_entries] at hfit ⊢
  have htwo : (index + 2).toNat = (encode before).length + 2 := toNat_add_of_lt hindex (by
    change (encode before).length + 2 < 2 ^ 32
    omega)
  have hfour : (index + 2 + 2).toNat = (encode before).length + 2 + 2 := toNat_add_of_lt htwo (by
    change (encode before).length + 2 + 2 < 2 ^ 32
    omega)
  have hlast : lastIndex ((encode before).length + 4 + e.value.length + (encode es).length) =
      (encode before).length + 4 + e.value.length + (encode es).length - 1 := if_neg (by omega)
  omega

theorem type_entry : le16 (encode (before ++ e :: es)) index = e.type.toNat := by
  rw [length_entries] at hfit
  rw [encode_around, List.append_assoc]
  exact le16_field hindex (by omega) e.type.toNat_lt

theorem length_entry :
    InBounds16 (encode (before ++ e :: es)) (index + 2) ∧
      le16 (encode (before ++ e :: es)) (index + 2) = e.value.length := by
  rw [length_entries] at hfit
  have htwo : (index + 2).toNat = (encode before ++ leBytes 2 e.type.toNat).length := by
    rw [length_before]
    exact toNat_add_of_lt hindex (by
      change (encode before).length + 2 < 2 ^ 32
      omega)
  have hroom : (encode before ++ leBytes 2 e.type.toNat).length + 2 < 2 ^ 32 := by
    rw [length_before]
    omega
  rw [encode_around]
  exact ⟨inBounds_field htwo hroom, le16_field htwo hroom e.fits⟩

theorem toNat_behind :
    (index + 2 + UInt32.ofNat (2 + e.value.length)).toNat =
      (encode (before ++ [e])).length := by
  rw [length_entries] at hfit ⊢
  have htwo : (index + 2).toNat = (encode before).length + 2 := toNat_add_of_lt hindex (by
    change (encode before).length + 2 < 2 ^ 32
    omega)
  have hskip : (index + 2 + UInt32.ofNat (2 + e.value.length)).toNat =
      (index + 2).toNat + (2 + e.value.length) := toNat_add_ofNat (by omega)
  rw [hskip, htwo, encode_nil, List.length_nil]
  omega

theorem parseEntry_entry_skip (htype : e.type.toNat ≠ dfxType) (fuel : ℕ) :
    ∃ j : UInt32, j.toNat = (encode (before ++ [e])).length ∧
      parseEntry needAddFftsAddr (encode (before ++ e :: es)) fuel ⟨index, memInfo⟩ =
        .ok (.next ⟨j,
          if e.type.toNat = tikType then { memInfo with isTik := true } else memInfo⟩) := by
  obtain ⟨hloop, hshort⟩ := loop_entry hindex hfit
  obtain ⟨hbounds, hlength⟩ := length_entry hindex hfit
  have hsize : 1 ≤ (encode (before ++ e :: es)).length := by
    rw [length_entries]
    omega
  have htype' := type_entry hindex hfit
  refine ⟨_, toNat_behind hindex hfit, ?_⟩
  rw [← hlength, ← htype']
  exact parseEntry_skip (s := ⟨index, memInfo⟩) hsize hloop hshort hbounds (by rwa [htype']) fuel

theorem parseEntry_entry_dfx (htype : e.type.toNat = dfxType) {m : MetaMemInfo}
    (h : LeavesWith needAddFftsAddr e.value 0 memInfo m) :
    ∃ fuel, ∃ j : UInt32, j.toNat = (encode (before ++ [e])).length ∧
      parseEntry needAddFftsAddr (encode (before ++ e :: es)) fuel ⟨index, memInfo⟩ =
        if found m then .ok (.next ⟨j, m⟩) else .ok (.done (false, m)) := by
  obtain ⟨hloop, hshort⟩ := loop_entry hindex hfit
  have htype' := type_entry hindex hfit
  have hsize : 1 ≤ (encode (before ++ e :: es)).length := by
    rw [length_entries]
    omega
  have hend : (encode (before ++ [e])).length = (encode before).length + 4 + e.value.length := by
    rw [length_entries, encode_nil, List.length_nil, Nat.add_zero]
  rw [length_entries] at hfit
  have htwo : (index + 2).toNat = (encode before).length + 2 := toNat_add_of_lt hindex (by
    change (encode before).length + 2 < 2 ^ 32
    omega)
  have hindex' : UInt32.ofNat ((encode before).length + 2) = index + 2 := by
    rw [← UInt32.toNat_inj, Words.toNat_ofNat32 (by omega), htwo]
  obtain ⟨fuel, j, hj, hsize'⟩ : ArgsLeave needAddFftsAddr
      (encode (before ++ dfxEntry e.value e.fits :: es)) _ memInfo _ m :=
    argsLeave_of_leavesWith h before es (by omega)
  rw [← eq_dfxEntry htype, hindex'] at hj
  refine ⟨fuel, j, hsize'.trans hend.symm, ?_⟩
  rw [parseEntry_eq (s := ⟨index, memInfo⟩) hsize hloop, if_neg hshort,
    if_pos (htype'.trans htype), hj, found]
  cases hempty : m.inputParamsAddrInfos.isEmpty with
  | false => exact if_neg (Bool.eq_false_iff.mp hempty)
  | true => exact if_pos hempty

end Entry

theorem parses_end {needAddFftsAddr : Bool} {metaData : List UInt8} {index : UInt32}
    (hsize : 1 ≤ metaData.length) (hindex : index.toNat = metaData.length)
    (memInfo : MetaMemInfo) :
    Parses needAddFftsAddr metaData ⟨index, memInfo⟩ (true, memInfo) := by
  have hlast : lastIndex metaData.length = metaData.length - 1 := if_neg (by omega)
  have hend : parseEntry needAddFftsAddr metaData 1 ⟨index, memInfo⟩ =
      .ok (.done (true, memInfo)) := if_pos (by
    rw [hlast]
    dsimp only
    omega)
  exact parses_done hend

/-- A section of whole records is parsed entry by entry. -/
theorem parses_entries {needAddFftsAddr : Bool} {es : List MetaEntry}
    (hes : ∀ e ∈ es, e.type.toNat = dfxType → WholeRecords e.value) {before : List MetaEntry}
    (hsize : 1 ≤ (encode (before ++ es)).length) (hfit : (encode (before ++ es)).length < 2 ^ 32)
    {index : UInt32} (hindex : index.toNat = (encode before).length) (memInfo : MetaMemInfo) :
    ∃ r, EntriesParse needAddFftsAddr es memInfo r ∧
      Parses needAddFftsAddr (encode (before ++ es)) ⟨index, memInfo⟩ r := by
  induction es generalizing before index memInfo with
  | nil =>
    rw [List.append_nil] at hsize ⊢
    exact ⟨(true, memInfo), .nil memInfo, parses_end hsize hindex memInfo⟩
  | cons e es ih =>
    have happend : before ++ e :: es = (before ++ [e]) ++ es := by simp
    have hrest : ∀ e' ∈ es, e'.type.toNat = dfxType → WholeRecords e'.value :=
      fun e' he' => hes e' (List.mem_cons_of_mem _ he')
    by_cases htype : e.type.toNat = dfxType
    · obtain ⟨m, hm⟩ : ∃ m, LeavesWith needAddFftsAddr e.value 0 memInfo m :=
        leavesWith_of_wholeRecords (hes e List.mem_cons_self htype) 0 memInfo
      have halone : ArgsLeave needAddFftsAddr (encode [e]) 2 memInfo (4 + e.value.length) m := by
        rw [eq_dfxEntry htype]
        exact argsLeave_alone hm
      obtain ⟨fuel, j, hj, hround⟩ := parseEntry_entry_dfx hindex hfit htype hm
      cases hfound : found m with
      | false =>
        rw [hfound, if_neg Bool.false_ne_true] at hround
        refine ⟨_, .dfxLast htype halone hfound, ?_⟩
        exact parses_done (parseEntry_mono hsize (Nat.le_succ fuel) _ _ hround)
      | true =>
        rw [hfound, if_pos rfl] at hround
        rw [happend] at hsize hfit hround ⊢
        obtain ⟨r, hentries, hparses⟩ := ih hrest hsize hfit hj m
        exact ⟨r, .dfx htype halone hfound hentries, parses_next hsize hround hparses⟩
    · obtain ⟨j, hj, hround⟩ := parseEntry_entry_skip hindex hfit htype 0
      rw [happend] at hsize hfit hround ⊢
      obtain ⟨r, hentries, hparses⟩ := ih hrest hsize hfit hj _
      exact ⟨r, .skip htype hentries, parses_next hsize hround hparses⟩

/-- Entries of other types say at most that the operator is a TIK one. -/
theorem EntriesParse.of_skip {needAddFftsAddr : Bool} {es : List MetaEntry} {memInfo : MetaMemInfo}
    {r : Bool × MetaMemInfo} (h : EntriesParse needAddFftsAddr es memInfo r)
    (hes : ∀ e ∈ es, e.type.toNat ≠ dfxType) :
    ∃ isTik, r = (true, { memInfo with isTik := isTik }) := by
  induction h with
  | nil memInfo => exact ⟨memInfo.isTik, rfl⟩
  | dfxLast htype _ _ => exact absurd htype (hes _ List.mem_cons_self)
  | dfx htype _ _ _ _ => exact absurd htype (hes _ List.mem_cons_self)
  | @skip e es memInfo r htype hrest ih =>
    obtain ⟨isTik, hr⟩ := ih fun e' he' => hes e' (List.mem_cons_of_mem _ he')
    refine ⟨isTik, hr.trans ?_⟩
    split_ifs <;> rfl

/-- With one DFX entry, what is known at the end is what its records say. -/
theorem EntriesParse.of_oneDfx {needAddFftsAddr : Bool} {before after : List MetaEntry}
    {value : List UInt8} {fits : value.length < 2 ^ 16} {vs : List RecordView}
    {memInfo : MetaMemInfo} {r : Bool × MetaMemInfo}
    (h : EntriesParse needAddFftsAddr (before ++ dfxEntry value fits :: after) memInfo r)
    (hbefore : ∀ e ∈ before, e.type.toNat ≠ dfxType)
    (hafter : ∀ e ∈ after, e.type.toNat ≠ dfxType) (hrecords : HasRecords value vs) :
    ∃ isTik isTik' m, m = applyViews needAddFftsAddr vs 0 { memInfo with isTik := isTik } ∧
      r = (found m, { m with isTik := isTik' }) := by
  have hdfx : ∀ {m : MetaMemInfo} {memInfo : MetaMemInfo},
      ArgsLeave needAddFftsAddr (encode [dfxEntry value fits]) 2 memInfo (4 + value.length) m →
        m = applyViews needAddFftsAddr vs 0 memInfo := fun halone =>
    halone.unique (argsLeave_alone (leavesWith_of_hasRecords hrecords 0 _))
  induction before generalizing memInfo with
  | nil =>
    cases h with
    | @dfxLast _ _ _ m _ halone hfound =>
      refine ⟨memInfo.isTik, m.isTik, m, hdfx halone, ?_⟩
      rw [hfound]
    | @dfx _ _ _ m _ _ halone hfound hrest =>
      obtain ⟨isTik, hr⟩ := hrest.of_skip hafter
      exact ⟨memInfo.isTik, isTik, m, hdfx halone, by rw [hfound, hr]⟩
    | skip htype _ => exact absurd rfl htype
  | cons e before ih =>
    cases h with
    | dfxLast htype _ _ => exact absurd htype (hbefore _ List.mem_cons_self)
    | dfx htype _ _ _ => exact absurd htype (hbefore _ List.mem_cons_self)
    | skip htype hrest =>
      obtain ⟨isTik, isTik', m, hm, hr⟩ := ih hrest fun e' he' =>
        hbefore e' (List.mem_cons_of_mem _ he')
      refine ⟨isTik, isTik', m, hm.trans ?_, hr⟩
      split_ifs <;> rfl

/-- The record of an input tensor of 256 bytes. -/
def inputRecord : List UInt8 := [0, 0, 0, 2, 0, 0, 0, 0, 0, 1, 0, 2, 0, 0, 0, 0, 0, 0, 1, 0]

/-- The record of a log, which the table of the parser does not have. -/
def logRecord : List UInt8 := [0, 0, 0, 1, 0, 0, 0, 0, 0, 1, 0, 5]

theorem wholeRecords_inputRecord : WholeRecords (inputRecord ++ logRecord) := by
  have hinput : Decodable (inputRecord ++ logRecord) .input :=
    ⟨by decide, by decide, by decide, by decide, by decide, by decide⟩
  exact ⟨_, .record hinput (by decide) (.unknown (by decide) (by decide) (by decide) (by decide))⟩

end Msopcom.MetaSection
