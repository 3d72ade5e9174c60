import Msopcom.ElfLoader

set_option autoImplicit false

/-!
# The bytes that the ELF loader reads

A read stays in the buffer as long as the end of what is read is not past the last 64-bit
address: sums that wrap pass the checks.
-/
namespace Msopcom.ElfLoader

def InBounds {α : Type} (m : Except Fault α) : Prop := m ≠ .error .outOfBounds

def NoWrap (offset count : UInt64) : Prop := offset.toNat + count.toNat < 2 ^ 64

instance (offset count : UInt64) : Decidable (NoWrap offset count) :=
  inferInstanceAs (Decidable (_ < _))

/-! ## What stands in the buffer -/

def HasHeader (buffer : List UInt8) (offset : UInt64) : Prop :=
  offset.toNat + 64 ≤ buffer.length

instance (buffer : List UInt8) (offset : UInt64) : Decidable (HasHeader buffer offset) :=
  inferInstanceAs (Decidable (_ ≤ _))

def headerBytes (buffer : List UInt8) (offset : UInt64) : List UInt8 :=
  (buffer.drop offset.toNat).take 64

def elfHeader (buffer : List UInt8) : Elf64Ehdr := .ofBytes (headerBytes buffer 0)

def sectionHeader (buffer : List UInt8) (idx : ℕ) : SectionHeader :=
  .ofBytes (headerBytes buffer (sectionOffset (elfHeader buffer) idx))

def HasSectionHeader (buffer : List UInt8) (idx : ℕ) : Prop :=
  HasHeader buffer (sectionOffset (elfHeader buffer) idx)

instance (buffer : List UInt8) (idx : ℕ) : Decidable (HasSectionHeader buffer idx) :=
  inferInstanceAs (Decidable (HasHeader _ _))

def nameSecHeader (buffer : List UInt8) : SectionHeader :=
  sectionHeader buffer (elfHeader buffer).eShstrndx.toNat

/-- The string table with the names of the sections. -/
def nameTable (buffer : List UInt8) : List UInt8 :=
  (buffer.drop (nameSecHeader buffer).shOffset.toNat).take (nameSecHeader buffer).shSize.toNat

def nameOf (buffer : List UInt8) (idx : ℕ) : List UInt8 :=
  ((nameTable buffer).drop (sectionHeader buffer idx).shName.toNat).takeWhile fun b => b ≠ 0

def addSection (buffer : List UInt8) (sections : Sections) (idx : ℕ) : Sections :=
  sections.insert (nameOf buffer idx) (sectionHeader buffer idx)

def headerIndices (buffer : List UInt8) : List ℕ := List.range (elfHeader buffer).eShnum.toNat

/-- Of the headers with one name the last one stays. -/
def sectionTable (buffer : List UInt8) : Sections :=
  (headerIndices buffer).foldl (addSection buffer) ∅

def Accepted (buffer : List UInt8) : Prop :=
  64 ≤ buffer.length ∧ validateElfHeader (elfHeader buffer) = true ∧
    validateElfHeaderSafety (elfHeader buffer) (size buffer) = true

instance (buffer : List UInt8) : Decidable (Accepted buffer) :=
  inferInstanceAs (Decidable (_ ∧ _))

def HasNameTable (buffer : List UInt8) : Prop :=
  (nameSecHeader buffer).shOffset.toNat + (nameSecHeader buffer).shSize.toNat ≤ buffer.length

instance (buffer : List UInt8) : Decidable (HasNameTable buffer) :=
  inferInstanceAs (Decidable (_ ≤ _))

/-- All that `FromBuffer` reads is there. -/
structure Loads (buffer : List UInt8) : Prop where
  accepted : Accepted buffer
  nameSecHeader : HasSectionHeader buffer (elfHeader buffer).eShstrndx.toNat
  nameTable : HasNameTable buffer
  sectionHeaders : ∀ idx ∈ headerIndices buffer, HasSectionHeader buffer idx

/-! ## What must not wrap -/

/-- The end of the section is an address, or the section is refused all the same. -/
def RawFits (maxSize : ℕ) (buffer : List UInt8) (header : SectionHeader) : Prop :=
  NoWrap header.shOffset header.shSize ∨ size buffer < header.shOffset + header.shSize ∨
    maxSize < header.shSize.toNat

/-- The section starts in the buffer, or it is refused for its length. -/
def StringTableFits (maxLength : ℕ) (buffer : List UInt8) (header : SectionHeader) : Prop :=
  header.shOffset.toNat ≤ buffer.length ∨ header.shSize ≤ 2 ∨
    maxLength < (stringTableLength buffer header).toNat

/-- Headers are read until one is not in the buffer; each has to point to a string. -/
def NamesFit (buffer : List UInt8) : List ℕ → Prop
  | [] => True
  | idx :: rest => NoWrap (sectionOffset (elfHeader buffer) idx) sizeofHeader ∧
    (HasSectionHeader buffer idx →
      0 ∈ (nameTable buffer).drop (sectionHeader buffer idx).shName.toNat ∧ NamesFit buffer rest)

def LoadFits (maxSize : ℕ) (buffer : List UInt8) : Prop :=
  Accepted buffer →
    NoWrap (sectionOffset (elfHeader buffer) (elfHeader buffer).eShstrndx.toNat) sizeofHeader ∧
      (HasSectionHeader buffer (elfHeader buffer).eShstrndx.toNat →
        RawFits maxSize buffer (nameSecHeader buffer) ∧
          (HasNameTable buffer → NamesFit buffer (headerIndices buffer)))

structure Fits (maxSize maxLength : ℕ) (buffer : List UInt8) : Prop where
  load : LoadFits maxSize buffer
  sections : Loads buffer → ∀ name header, (sectionTable buffer).lookup name = some header →
    RawFits maxSize buffer header ∧ StringTableFits maxLength buffer header

/-- Nothing is read outside the buffer, and every name of a section is a string of the
table, with the zero byte that ends it. -/
structure StaysInBounds (maxSize maxLength : ℕ) (buffer : List UInt8) : Prop where
  fromBuffer : InBounds (fromBuffer maxSize buffer)
  getMetaSection : ∀ kernelName, InBounds (getMetaSection maxSize buffer kernelName)
  sections : ∀ sections, ElfLoader.fromBuffer maxSize buffer = .ok (some sections) → ∀ name,
    InBounds (readRawData maxSize buffer sections name) ∧
      InBounds (readStringTable maxLength buffer sections name)
  names : ∀ sections, ElfLoader.fromBuffer maxSize buffer = .ok (some sections) →
    ∀ name header, sections.lookup name = some header →
      ∃ start, name ++ [0] <+: (nameTable buffer).drop start

/-! ## Single reads -/

section Reads
variable {buffer : List UInt8} {maxSize : ℕ}

theorem toNat_size (h : buffer.length < 2 ^ 64) : (size buffer).toNat = buffer.length :=
  Words.toNat_ofNat64 h

theorem readValueFromBuffer_eq (hlen : buffer.length < 2 ^ 64) {offset : UInt64}
    (hwrap : NoWrap offset sizeofHeader) : readValueFromBuffer buffer offset =
      .ok (if HasHeader buffer offset then some (headerBytes buffer offset) else none) := by
  have hsum : (offset + sizeofHeader).toNat = offset.toNat + 64 := Words.toNat_add64 hwrap
  unfold readValueFromBuffer
  by_cases hheader : HasHeader buffer offset
  · have hnot : ¬ size buffer < offset + sizeofHeader := by
      rw [UInt64.lt_iff_toNat_lt, toNat_size hlen, hsum]
      exact not_lt.mpr hheader
    have hread : offset.toNat + sizeofHeader.toNat ≤ buffer.length := hheader
    rw [if_neg hnot, if_pos hheader, readBytes, if_pos hread]
    rfl
  · have hlt : size buffer < offset + sizeofHeader := by
      rw [UInt64.lt_iff_toNat_lt, toNat_size hlen, hsum]
      exact not_le.mp hheader
    rw [if_pos hlt, if_neg hheader]

/-- The check compares what is left of the wrapped sum with the size. -/
theorem readValueFromBuffer_wrap (hlen : buffer.length < 2 ^ 64) (hsize : 64 ≤ buffer.length)
    {offset : UInt64} (hwrap : ¬ NoWrap offset sizeofHeader) :
    readValueFromBuffer buffer offset = .error .outOfBounds := by
  have hoffset := offset.toNat_lt
  have hwrap : 2 ^ 64 ≤ offset.toNat + 64 := not_lt.mp hwrap
  have hsum : (offset + sizeofHeader).toNat = offset.toNat + 64 - 2 ^ 64 := by
    change (offset.toNat + 64) % 2 ^ 64 = _
    omega
  have hnot : ¬ size buffer < offset + sizeofHeader := by
    rw [UInt64.lt_iff_toNat_lt, toNat_size hlen, hsum]
    omega
  have hout : ¬ offset.toNat + sizeofHeader.toNat ≤ buffer.length := by
    change ¬ offset.toNat + 64 ≤ buffer.length
    omega
  rw [readValueFromBuffer, if_neg hnot, readBytes, if_neg hout]
  rfl

theorem inBounds_readArrayFromBuffer_iff (hlen : buffer.length < 2 ^ 64) {header : SectionHeader} :
    InBounds (readArrayFromBuffer maxSize buffer header.shOffset header.shSize) ↔
      RawFits maxSize buffer header := by
  unfold readArrayFromBuffer RawFits InBounds
  by_cases hcheck : size buffer < header.shOffset + header.shSize
  · simp [hcheck]
  · by_cases hlimit : maxSize < header.shSize.toNat
    · simp [hcheck, hlimit]
    · rw [if_neg hcheck, if_neg hlimit, or_iff_left (not_or.mpr ⟨hcheck, hlimit⟩)]
      rw [UInt64.lt_iff_toNat_lt, toNat_size hlen, UInt64.toNat_add] at hcheck
      unfold readBytes NoWrap
      by_cases hread : header.shOffset.toNat + header.shSize.toNat ≤ buffer.length
      · rw [if_pos hread]
        exact iff_of_true (fun h => by cases h) (by omega)
      · rw [if_neg hread]
        exact iff_of_false (fun h => h rfl) (by omega)

theorem readArrayFromBuffer_eq (hlen : buffer.length < 2 ^ 64) (hmax : buffer.length ≤ maxSize)
    {header : SectionHeader} (hfits : RawFits maxSize buffer header) :
    (header.shOffset.toNat + header.shSize.toNat ≤ buffer.length ∧
      readArrayFromBuffer maxSize buffer header.shOffset header.shSize =
        .ok (some ((buffer.drop header.shOffset.toNat).take header.shSize.toNat))) ∨
    ¬ header.shOffset.toNat + header.shSize.toNat ≤ buffer.length ∧
      (readArrayFromBuffer maxSize buffer header.shOffset header.shSize = .ok none ∨
        readArrayFromBuffer maxSize buffer header.shOffset header.shSize = .error .lengthError) := by
  by_cases hread : header.shOffset.toNat + header.shSize.toNat ≤ buffer.length
  · refine .inl ⟨hread, ?_⟩
    have hcheck : ¬ size buffer < header.shOffset + header.shSize := by
      rw [UInt64.lt_iff_toNat_lt, toNat_size hlen, UInt64.toNat_add]
      omega
    rw [readArrayFromBuffer, if_neg hcheck, if_neg (by omega), readBytes, if_pos hread]
    rfl
  · refine .inr ⟨hread, ?_⟩
    have hbounds := (inBounds_readArrayFromBuffer_iff hlen).mpr hfits
    unfold InBounds at hbounds
    unfold readArrayFromBuffer at hbounds ⊢
    split_ifs at hbounds ⊢ with hcheck hlimit
    · exact .inl rfl
    · exact .inr rfl
    · rw [readBytes, if_neg hread] at hbounds
      exact absurd rfl hbounds

/-! ## The section headers -/

theorem stringFrom_eq {bytes : List UInt8} {start : ℕ} (h : 0 ∈ bytes.drop start) :
    stringFrom bytes start = .ok ((bytes.drop start).takeWhile fun b => b ≠ 0) := if_pos h

/-- One round of the loop, by what is read for the header. -/
theorem loadSections_cons (hlen : buffer.length < 2 ^ 64) {idx : ℕ}
    (hwrap : NoWrap (sectionOffset (elfHeader buffer) idx) sizeofHeader)
    (hheader : HasSectionHeader buffer idx) (rest : List ℕ) (sections : Sections) :
    loadSections buffer (elfHeader buffer) (nameTable buffer) (idx :: rest) sections =
      (stringFrom (nameTable buffer) (sectionHeader buffer idx).shName.toNat).bind fun name =>
        loadSections buffer (elfHeader buffer) (nameTable buffer) rest
          (sections.insert name (sectionHeader buffer idx)) := by
  have hheader : HasHeader buffer (sectionOffset (elfHeader buffer) idx) := hheader
  rw [loadSections, readValueFromBuffer_eq hlen hwrap, if_pos hheader]
  unfold sectionHeader
  dsimp only [bind, Except.bind]

theorem loadSections_missing (hlen : buffer.length < 2 ^ 64) {idx : ℕ}
    (hwrap : NoWrap (sectionOffset (elfHeader buffer) idx) sizeofHeader)
    (hheader : ¬ HasSectionHeader buffer idx) (rest : List ℕ) (sections : Sections) :
    loadSections buffer (elfHeader buffer) (nameTable buffer) (idx :: rest) sections = .ok none := by
  have hheader : ¬ HasHeader buffer (sectionOffset (elfHeader buffer) idx) := hheader
  rw [loadSections, readValueFromBuffer_eq hlen hwrap, if_neg hheader]
  rfl

/-- As far as the headers fit, the loop collects them, or ends at one that is not there. -/
theorem loadSections_eq (hlen : buffer.length < 2 ^ 64) {indices : List ℕ}
    (hfits : NamesFit buffer indices) (sections : Sections) :
    loadSections buffer (elfHeader buffer) (nameTable buffer) indices sections =
      .ok (if ∀ idx ∈ indices, HasSectionHeader buffer idx
        then some (indices.foldl (addSection buffer) sections) else none) := by
  induction indices generalizing sections with
  | nil => rfl
  | cons idx rest ih =>
    obtain ⟨hwrap, hrest⟩ := hfits
    by_cases hheader : HasSectionHeader buffer idx
    · obtain ⟨hname, hfits⟩ := hrest hheader
      rw [loadSections_cons hlen hwrap hheader, stringFrom_eq hname]
      simp only [List.forall_mem_cons, hheader, true_and, List.foldl_cons]
      exact ih hfits _
    · rw [loadSections_missing hlen hwrap hheader,
        if_neg fun h => hheader (h idx List.mem_cons_self)]

theorem inBounds_loadSections_iff (hlen : buffer.length < 2 ^ 64) (hsize : 64 ≤ buffer.length)
    {indices : List ℕ} {sections : Sections} :
    InBounds (loadSections buffer (elfHeader buffer) (nameTable buffer) indices sections) ↔
      NamesFit buffer indices := by
  constructor
  · intro h
    induction indices generalizing sections with
    | nil => trivial
    | cons idx rest ih =>
      have hwrap : NoWrap (sectionOffset (elfHeader buffer) idx) sizeofHeader := by
        by_contra hwrap
        rw [loadSections, readValueFromBuffer_wrap hlen hsize hwrap] at h
        exact h rfl
      refine ⟨hwrap, fun hheader => ?_⟩
      rw [loadSections_cons hlen hwrap hheader] at h
      have hname : 0 ∈ (nameTable buffer).drop (sectionHeader buffer idx).shName.toNat := by
        by_contra hname
        rw [stringFrom, if_neg hname] at h
        exact h rfl
      rw [stringFrom_eq hname] at h
      exact ⟨hname, ih h⟩
  · intro hfits
    rw [loadSections_eq hlen hfits]
    exact fun h => by cases h

theorem lookup_foldl_addSection {indices : List ℕ} {sections : Sections} {name : List UInt8}
    {header : SectionHeader}
    (h : (indices.foldl (addSection buffer) sections).lookup name = some header) :
    sections.lookup name = some header ∨ ∃ idx ∈ indices, name = nameOf buffer idx := by
  induction indices generalizing sections with
  | nil => exact .inl h
  | cons idx rest ih =>
    rcases ih h with hfirst | ⟨idx', hidx, hname⟩
    · rw [addSection, KeyedList.lookup_insert_eq] at hfirst
      split_ifs at hfirst with hname
      · exact .inr ⟨idx, List.mem_cons_self, hname⟩
      · exact .inl hfirst
    · exact .inr ⟨idx', List.mem_cons_of_mem idx hidx, hname⟩

theorem zero_mem_of_namesFit {indices : List ℕ} (hfits : NamesFit buffer indices)
    (hheaders : ∀ idx ∈ indices, HasSectionHeader buffer idx) {idx : ℕ} (hidx : idx ∈ indices) :
    0 ∈ (nameTable buffer).drop (sectionHeader buffer idx).shName.toNat := by
  induction indices with
  | nil => cases hidx
  | cons idx' rest ih =>
    obtain ⟨hname, hrest⟩ := hfits.2 (hheaders idx' List.mem_cons_self)
    rcases List.mem_cons.mp hidx with rfl | hidx
    · exact hname
    · exact ih hrest (fun i hi => hheaders i (List.mem_cons_of_mem idx' hi)) hidx

/-! ## The whole file -/

/-- What `FromBuffer` does behind the checks of the header. -/
def loadAccepted (maxSize : ℕ) (buffer : List UInt8) : Except Fault (Option Sections) := do
  match ← readValueFromBuffer buffer
    (sectionOffset (elfHeader buffer) (elfHeader buffer).eShstrndx.toNat) with
  | none => return none
  | some bytes =>
    match ← readArrayFromBuffer maxSize buffer (SectionHeader.ofBytes bytes).shOffset
      (SectionHeader.ofBytes bytes).shSize with
    | none => return none
    | some nameBuffer =>
      loadSections buffer (elfHeader buffer) nameBuffer (headerIndices buffer) ∅

theorem fromBuffer_eq (hlen : buffer.length < 2 ^ 64) : fromBuffer maxSize buffer =
    if Accepted buffer then loadAccepted maxSize buffer else .ok none := by
  have hstart : NoWrap 0 sizeofHeader := by decide
  unfold fromBuffer
  rw [readValueFromBuffer_eq hlen hstart]
  by_cases hsize : 64 ≤ buffer.length
  · have hheader : HasHeader buffer 0 := by
      change 0 + 64 ≤ buffer.length
      omega
    have hempty : ¬ buffer.isEmpty = true := by
      rw [List.isEmpty_iff]
      rintro rfl
      exact absurd hsize (by decide)
    rw [if_neg hempty, if_pos hheader]
    change (if !validateElfHeader (elfHeader buffer) then .ok none
      else if !validateElfHeaderSafety (elfHeader buffer) (size buffer) then .ok none
      else loadAccepted maxSize buffer) = _
    by_cases hvalid : validateElfHeader (elfHeader buffer) = true
    · by_cases hsafe : validateElfHeaderSafety (elfHeader buffer) (size buffer) = true
      · have haccepted : Accepted buffer := ⟨hsize, hvalid, hsafe⟩
        rw [hvalid, hsafe, if_pos haccepted]
        rfl
      · have haccepted : ¬ Accepted buffer := fun h => hsafe h.2.2
        rw [Bool.not_eq_true] at hsafe
        rw [hvalid, hsafe, if_neg haccepted]
        rfl
    · have haccepted : ¬ Accepted buffer := fun h => hvalid h.2.1
      rw [Bool.not_eq_true] at hvalid
      rw [hvalid, if_neg haccepted]
      rfl
  · have hheader : ¬ HasHeader buffer 0 := by
      change ¬ 0 + 64 ≤ buffer.length
      omega
    rw [if_neg hheader, if_neg fun h : Accepted buffer => hsize h.1]
    by_cases hempty : buffer.isEmpty = true
    · rw [if_pos hempty]
      rfl
    · rw [if_neg hempty]
      rfl

theorem loadAccepted_eq (hlen : buffer.length < 2 ^ 64)
    (hwrap : NoWrap (sectionOffset (elfHeader buffer) (elfHeader buffer).eShstrndx.toNat)
      sizeofHeader) : loadAccepted maxSize buffer =
      if HasSectionHeader buffer (elfHeader buffer).eShstrndx.toNat then do
        match ← readArrayFromBuffer maxSize buffer (nameSecHeader buffer).shOffset
          (nameSecHeader buffer).shSize with
        | none => return none
        | some nameBuffer =>
          loadSections buffer (elfHeader buffer) nameBuffer (headerIndices buffer) ∅
      else .ok none := by
  unfold loadAccepted
  rw [readValueFromBuffer_eq hlen hwrap]
  by_cases hheader : HasSectionHeader buffer (elfHeader buffer).eShstrndx.toNat
  · rw [if_pos hheader, if_pos (show HasHeader buffer _ from hheader)]
    unfold nameSecHeader sectionHeader
    dsimp only [bind, Except.bind]
  · rw [if_neg hheader, if_neg (show ¬ HasHeader buffer _ from hheader)]
    rfl

theorem inBounds_loadAccepted_iff (hlen : buffer.length < 2 ^ 64) (hmax : buffer.length ≤ maxSize)
    (haccepted : Accepted buffer) :
    InBounds (loadAccepted maxSize buffer) ↔ LoadFits maxSize buffer := by
  unfold LoadFits
  rw [forall_prop_of_true haccepted]
  by_cases hwrap : NoWrap (sectionOffset (elfHeader buffer) (elfHeader buffer).eShstrndx.toNat)
    sizeofHeader
  · rw [and_iff_right hwrap, loadAccepted_eq hlen hwrap]
    by_cases hheader : HasSectionHeader buffer (elfHeader buffer).eShstrndx.toNat
    · rw [if_pos hheader, forall_prop_of_true hheader,
        ← @inBounds_readArrayFromBuffer_iff _ maxSize hlen]
      by_cases hraw : RawFits maxSize buffer (nameSecHeader buffer)
      · rw [and_iff_right ((inBounds_readArrayFromBuffer_iff hlen).mpr hraw)]
        rcases readArrayFromBuffer_eq hlen hmax hraw with ⟨hnames, heq⟩ | ⟨hnames, heq | heq⟩
        · have hnames : HasNameTable buffer := hnames
          rw [heq, forall_prop_of_true hnames]
          exact inBounds_loadSections_iff hlen haccepted.1
        · rw [heq]
          exact iff_of_true (fun h => by cases h) fun h => absurd h hnames
        · rw [heq]
          exact iff_of_true (fun h => by cases h) fun h => absurd h hnames
      · have hout : ¬ InBounds (readArrayFromBuffer maxSize buffer (nameSecHeader buffer).shOffset
          (nameSecHeader buffer).shSize) := fun h => hraw ((inBounds_readArrayFromBuffer_iff hlen).mp h)
        refine iff_of_false (fun h => ?_) fun h => hout h.1
        rw [InBounds, not_not] at hout
        rw [hout] at h
        exact h rfl
    · rw [if_neg hheader]
      exact iff_of_true (fun h => by cases h) fun h => absurd h hheader
  · refine iff_of_false (fun h => ?_) fun h => hwrap h.1
    unfold loadAccepted at h
    rw [readValueFromBuffer_wrap hlen haccepted.1 hwrap] at h
    exact h rfl

theorem inBounds_fromBuffer_iff (hlen : buffer.length < 2 ^ 64) (hmax : buffer.length ≤ maxSize) :
    InBounds (fromBuffer maxSize buffer) ↔ LoadFits maxSize buffer := by
  rw [fromBuffer_eq hlen]
  by_cases haccepted : Accepted buffer
  · rw [if_pos haccepted]
    exact inBounds_loadAccepted_iff hlen hmax haccepted
  · rw [if_neg haccepted]
    exact iff_of_true (fun h => by cases h) fun h => absurd h haccepted

/-- Where the reads fit, a file is loaded exactly if all that is read is there. -/
theorem fromBuffer_eq_some_iff (hlen : buffer.length < 2 ^ 64) (hmax : buffer.length ≤ maxSize)
    (hfits : LoadFits maxSize buffer) {sections : Sections} :
    fromBuffer maxSize buffer = .ok (some sections) ↔
      Loads buffer ∧ sections = sectionTable buffer := by
  rw [fromBuffer_eq hlen]
  by_cases haccepted : Accepted buffer
  · obtain ⟨hwrap, hnames⟩ := hfits haccepted
    rw [if_pos haccepted, loadAccepted_eq hlen hwrap]
    by_cases hheader : HasSectionHeader buffer (elfHeader buffer).eShstrndx.toNat
    · obtain ⟨hraw, hnames⟩ := hnames hheader
      rw [if_pos hheader]
      rcases readArrayFromBuffer_eq hlen hmax hraw with ⟨htable, heq⟩ | ⟨htable, heq | heq⟩
      · have htable : HasNameTable buffer := htable
        have hload := loadSections_eq hlen (hnames htable) ∅
        rw [heq]
        change loadSections buffer (elfHeader buffer) (nameTable buffer) _ ∅ = _ ↔ _
        rw [hload, Except.ok.injEq]
        by_cases hall : ∀ idx ∈ headerIndices buffer, HasSectionHeader buffer idx
        · rw [if_pos hall, Option.some.injEq, eq_comm]
          exact (and_iff_right ⟨haccepted, hheader, htable, hall⟩).symm
        · rw [if_neg hall]
          exact iff_of_false (fun h => by cases h) fun h => hall h.1.sectionHeaders
      · rw [heq]
        exact iff_of_false (fun h => by cases h) fun h => htable h.1.nameTable
      · rw [heq]
        exact iff_of_false (fun h => by cases h) fun h => htable h.1.nameTable
    · rw [if_neg hheader]
      exact iff_of_false (fun h => by cases h) fun h => hheader h.1.nameSecHeader
  · rw [if_neg haccepted]
    exact iff_of_false (fun h => by cases h) fun h => haccepted h.1.accepted

/-! ## Reading a section -/

theorem inBounds_readRawData_iff (hlen : buffer.length < 2 ^ 64) {sections : Sections}
    {name : List UInt8} : InBounds (readRawData maxSize buffer sections name) ↔
      ∀ header, sections.lookup name = some header → RawFits maxSize buffer header := by
  unfold readRawData
  cases hlookup : sections.lookup name with
  | none => exact iff_of_true (fun h => by cases h) fun header h => by cases h
  | some header =>
    simp only [Option.some.injEq, forall_eq']
    rw [← inBounds_readArrayFromBuffer_iff hlen]
    unfold InBounds
    cases readArrayFromBuffer maxSize buffer header.shOffset header.shSize with
    | ok values => exact iff_of_true (fun h => by cases h) fun h => by cases h
    | error fault =>
      refine not_congr ⟨fun h => ?_, fun h => ?_⟩
      · cases h
        rfl
      · cases h
        rfl

theorem toNat_stringTableLength {header : SectionHeader} (hsize : 2 < header.shSize)
    (hrest : 2 < size buffer - header.shOffset) : (stringTableLength buffer header).toNat =
      min (header.shSize.toNat - 2) ((size buffer - header.shOffset).toNat - 2) := by
  have hfirst : (header.shSize - 2).toNat = header.shSize.toNat - 2 :=
    Words.toNat_sub64 (UInt64.le_iff_toNat_le.mp (UInt64.le_of_lt hsize))
  have hsecond : (size buffer - header.shOffset - 2).toNat =
      (size buffer - header.shOffset).toNat - 2 :=
    Words.toNat_sub64 (UInt64.le_iff_toNat_le.mp (UInt64.le_of_lt hrest))
  unfold stringTableLength
  split_ifs with hlt
  · rw [UInt64.lt_iff_toNat_lt, hfirst, hsecond] at hlt
    rw [hsecond]
    omega
  · rw [UInt64.lt_iff_toNat_lt, hfirst, hsecond] at hlt
    rw [hfirst]
    omega

/-- A section that starts behind the buffer leaves a size that has wrapped. -/
theorem inBounds_readStrings_iff (hlen : buffer.length < 2 ^ 64) (hsize : 64 ≤ buffer.length)
    {maxLength : ℕ} {header : SectionHeader} :
    InBounds (readStrings maxLength buffer header) ↔ StringTableFits maxLength buffer header := by
  have hoffset := header.shOffset.toNat_lt
  have hrest : (size buffer - header.shOffset).toNat =
      (2 ^ 64 - header.shOffset.toNat + buffer.length) % 2 ^ 64 := by
    rw [UInt64.toNat_sub, toNat_size hlen]
  unfold readStrings StringTableFits InBounds
  by_cases hcheck : 2 < header.shSize ∧ 2 < size buffer - header.shOffset
  · obtain ⟨hlong, htail⟩ := hcheck
    have hlength := toNat_stringTableLength hlong htail
    have hlong' : 2 < header.shSize.toNat := UInt64.lt_iff_toNat_lt.mp hlong
    have htail' : 2 < (size buffer - header.shOffset).toNat := UInt64.lt_iff_toNat_lt.mp htail
    have hshort : ¬ header.shSize ≤ 2 := UInt64.not_le.mpr hlong
    rw [if_neg (by simp [hlong, htail]), or_iff_right (a := header.shSize ≤ 2) hshort]
    by_cases hlimit : maxLength < (stringTableLength buffer header).toNat
    · rw [if_pos hlimit]
      exact iff_of_true (fun h => by cases h) (.inr hlimit)
    · rw [if_neg hlimit, or_iff_left hlimit]
      unfold readBytes
      by_cases hstart : header.shOffset.toNat ≤ buffer.length
      · rw [if_pos (by omega)]
        exact iff_of_true (fun h => by cases h) hstart
      · rw [if_neg (by omega)]
        exact iff_of_false (fun h => h rfl) hstart
  · have hrefused : (!(decide (header.shSize > 2) &&
        decide (size buffer - header.shOffset > 2))) = true := by
      rw [Bool.not_eq_true', Bool.and_eq_false_iff, decide_eq_false_iff_not, decide_eq_false_iff_not]
      exact not_and_or.mp hcheck
    rw [if_pos hrefused]
    refine iff_of_true (fun h => by cases h) ?_
    by_cases hlong : header.shSize ≤ 2
    · exact .inr (.inl hlong)
    · have htail : ¬ 2 < size buffer - header.shOffset :=
        fun h => hcheck ⟨UInt64.not_le.mp hlong, h⟩
      rw [UInt64.lt_iff_toNat_lt, hrest] at htail
      change ¬ 2 < _ at htail
      exact .inl (by omega)

theorem inBounds_readStringTable_iff (hlen : buffer.length < 2 ^ 64) (hsize : 64 ≤ buffer.length)
    {maxLength : ℕ} {sections : Sections} {name : List UInt8} :
    InBounds (readStringTable maxLength buffer sections name) ↔ ∀ header,
      sections.lookup name = some header → StringTableFits maxLength buffer header := by
  unfold readStringTable
  cases hlookup : sections.lookup name with
  | none => exact iff_of_true (fun h => by cases h) fun header h => by cases h
  | some header =>
    simp only [Option.some.injEq, forall_eq']
    by_cases hstart : header.shOffset < size buffer
    · rw [UInt64.lt_iff_toNat_lt, toNat_size hlen] at hstart
      have hfits : StringTableFits maxLength buffer header := .inl (le_of_lt hstart)
      have hstrings := (inBounds_readStrings_iff hlen hsize).mpr hfits
      refine iff_of_true ?_ hfits
      have hread : readBytes buffer header.shOffset.toNat 1 =
          .ok ((buffer.drop header.shOffset.toNat).take 1) := if_pos hstart
      rw [if_pos (by rwa [UInt64.lt_iff_toNat_lt, toNat_size hlen]), hread]
      change InBounds (if (buffer.drop header.shOffset.toNat).take 1 ≠ [0] then .ok []
        else readStrings maxLength buffer header)
      split_ifs
      · exact fun h => by cases h
      · exact hstrings
    · rw [if_neg hstart]
      exact inBounds_readStrings_iff hlen hsize

theorem inBounds_getMetaSection (hlen : buffer.length < 2 ^ 64)
    (hload : InBounds (fromBuffer maxSize buffer))
    (hsections : ∀ sections, fromBuffer maxSize buffer = .ok (some sections) →
      ∀ name header, sections.lookup name = some header → RawFits maxSize buffer header)
    (kernelName : List UInt8) : InBounds (getMetaSection maxSize buffer kernelName) := by
  unfold getMetaSection
  cases hbuffer : fromBuffer maxSize buffer with
  | error fault =>
    rw [hbuffer] at hload
    intro h
    cases h
    exact hload rfl
  | ok loaded =>
    cases loaded with
    | none => exact fun h => by cases h
    | some headers =>
      dsimp only [bind, Except.bind]
      cases hlookup : headers.lookup (metaPrefix ++ kernelName) with
      | none => exact fun h => by cases h
      | some header =>
        have hfits := hsections headers hbuffer _ header hlookup
        exact (inBounds_readArrayFromBuffer_iff hlen).mpr hfits

theorem takeWhile_concat_prefix {l : List UInt8} (h : 0 ∈ l) :
    (l.takeWhile fun b => b ≠ 0) ++ [0] <+: l := by
  induction l with
  | nil => cases h
  | cons b l ih =>
    by_cases hb : b = 0
    · rw [hb, List.takeWhile_cons_of_neg (by decide)]
      exact List.prefix_append [0] l
    · have hmem : 0 ∈ l := (List.mem_cons.mp h).resolve_left fun heq => hb heq.symm
      have hkept : decide (b ≠ 0) = true := decide_eq_true hb
      rw [List.takeWhile_cons, if_pos hkept, List.cons_append, List.prefix_cons_inj]
      exact ih hmem

theorem name_in_nameTable (hfits : LoadFits maxSize buffer) (hloads : Loads buffer)
    {name : List UInt8} {header : SectionHeader}
    (hlookup : (sectionTable buffer).lookup name = some header) :
    ∃ start, name ++ [0] <+: (nameTable buffer).drop start := by
  rcases lookup_foldl_addSection hlookup with hempty | ⟨idx, hidx, rfl⟩
  · cases hempty
  · have hnames := ((hfits hloads.accepted).2 hloads.nameSecHeader).2 hloads.nameTable
    have hzero := zero_mem_of_namesFit hnames hloads.sectionHeaders hidx
    exact ⟨(sectionHeader buffer idx).shName.toNat, takeWhile_concat_prefix hzero⟩

end Reads

/-- The loader stays in the buffer exactly when no sum that it checks wraps and each name
offset leads to a string. -/
theorem staysInBounds_iff {maxSize maxLength : ℕ} {buffer : List UInt8}
    (hmax : buffer.length ≤ maxSize) (hword : maxSize < 2 ^ 64) :
    StaysInBounds maxSize maxLength buffer ↔ Fits maxSize maxLength buffer := by
  have hlen : buffer.length < 2 ^ 64 := lt_of_le_of_lt hmax hword
  constructor
  · intro h
    have hload := (inBounds_fromBuffer_iff hlen hmax).mp h.fromBuffer
    refine ⟨hload, fun hloads name header hlookup => ?_⟩
    have hread := h.sections (sectionTable buffer)
      ((fromBuffer_eq_some_iff hlen hmax hload).mpr ⟨hloads, rfl⟩) name
    exact ⟨(inBounds_readRawData_iff hlen).mp hread.1 header hlookup,
      (inBounds_readStringTable_iff hlen hloads.accepted.1).mp hread.2 header hlookup⟩
  · intro h
    have hload : InBounds (fromBuffer maxSize buffer) :=
      (inBounds_fromBuffer_iff hlen hmax).mpr h.load
    have hsections : ∀ sections, fromBuffer maxSize buffer = .ok (some sections) →
        Loads buffer ∧ sections = sectionTable buffer :=
      fun sections => (fromBuffer_eq_some_iff hlen hmax h.load).mp
    constructor
    case fromBuffer => exact hload
    case getMetaSection =>
      refine inBounds_getMetaSection hlen hload fun sections hbuffer name header hlookup => ?_
      obtain ⟨hloads, rfl⟩ := hsections sections hbuffer
      exact (h.sections hloads name header hlookup).1
    case sections =>
      intro sections hbuffer name
      obtain ⟨hloads, rfl⟩ := hsections sections hbuffer
      exact ⟨(inBounds_readRawData_iff hlen).mpr fun header hlookup =>
          (h.sections hloads name header hlookup).1,
        (inBounds_readStringTable_iff hlen hloads.accepted.1).mpr fun header hlookup =>
          (h.sections hloads name header hlookup).2⟩
    case names =>
      intro sections hbuffer name header hlookup
      obtain ⟨hloads, rfl⟩ := hsections sections hbuffer
      exact name_in_nameTable h.load hloads hlookup

/-- A file with one section, the string table of three bytes behind the headers. -/
def elfFile (shName : UInt8) : List UInt8 :=
  validIdent ++ List.replicate 34 0 ++ [64, 0, 0, 0, 0, 0, 0, 0, 0, 0, 0, 0, 64, 0, 0, 0, 0, 0,
    64, 0, 1, 0, 0, 0] ++
  [shName] ++ List.replicate 23 0 ++ [128, 0, 0, 0, 0, 0, 0, 0, 3, 0, 0, 0, 0, 0, 0, 0] ++
  List.replicate 24 0 ++ [0, 97, 0]

theorem length_elfFile (shName : UInt8) : (elfFile shName).length = 131 := by
  simp [elfFile, validIdent]

theorem staysInBounds_elfFile : StaysInBounds (2 ^ 63 - 1) (2 ^ 63 - 1) (elfFile 1) ↔
    Fits (2 ^ 63 - 1) (2 ^ 63 - 1) (elfFile 1) :=
  staysInBounds_iff (by rw [length_elfFile]; decide) (by decide)

set_option maxRecDepth 4000 in
/-- The name of the section would start behind the string table. -/
theorem name_read_behind_table :
    fromBuffer (2 ^ 63 - 1) (elfFile 5) = .error .outOfBounds ∧
      ¬ StaysInBounds (2 ^ 63 - 1) (2 ^ 63 - 1) (elfFile 5) := by
  have hfault : fromBuffer (2 ^ 63 - 1) (elfFile 5) = .error .outOfBounds := by rfl
  exact ⟨hfault, fun h => h.fromBuffer hfault⟩

end Msopcom.ElfLoader
