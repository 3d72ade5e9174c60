import Mathlib.Data.List.Infix
import Msopcom.ElfLoaderReuse
import Msopcom.Splice

set_option autoImplicit false

/-!
# The flags of a saved kernel

A kernel that is compiled without a target has default flags in its ELF header, which are set by
its magic number when it is saved. The loader reads the saved kernel as the registered one.
-/
namespace Msopcom.KernelObject
open Bytes Splice ElfLoader

/-! ## Saving -/

def flagA2Aiv : UInt32 := 0x930000

def flagA2Aic : UInt32 := 0x940000

def flagDefaultValue : UInt32 := 0x810000

def magicElf : UInt32 := 0x43554245

def magicElfAivec : UInt32 := 0x41415246

def magicElfAicube : UInt32 := 0x41494343

def isA2Version (socVersion : String) : Bool :=
  decide ("Ascend910B".toList <:+: socVersion.toList)

def getFlagByMagic (socVersion : String) (magic : UInt32) : UInt32 :=
  if isA2Version socVersion then
    if magic = magicElfAivec then flagA2Aiv
    else if magic = magicElfAicube then flagA2Aic
    else if magic = magicElf then flagA2Aic
    else 0
  else 0

/-- The header has `e_flags` in the bytes from 48 to 51. -/
def eFlags (header : List UInt8) : UInt32 := UInt32.ofNat (fieldAt header 48 4)

def setFlags (flags : UInt32) (header : List UInt8) : List UInt8 :=
  copyN (leBytes 4 flags.toNat) 4 header 48

/-- `ElfLoader::LoadHeader`. -/
def loadHeader (buffer : List UInt8) : Except Fault (Option (List UInt8)) :=
  readValueFromBuffer buffer 0

/-- The bytes that `Save` writes; `none` is the answer false. -/
def savedData (socVersion : String) (magic : UInt32) (elfData : List UInt8) :
    Except Fault (Option (List UInt8)) := do
  match ← loadHeader elfData with
  | none => return none
  | some header =>
    if eFlags header = flagDefaultValue then
      let correctFlag := getFlagByMagic socVersion magic
      if correctFlag > 0 then
        return some (copyN (setFlags correctFlag header) sizeofHeader.toNat elfData 0)
      else return some elfData
    else return some elfData

/-- The flags of the file. -/
def correctFlags (socVersion : String) (magic flags : UInt32) : UInt32 :=
  if flags = flagDefaultValue ∧ getFlagByMagic socVersion magic > 0 then
    getFlagByMagic socVersion magic
  else flags

/-! ## A file with other flags -/

section SetFlags
variable {b : List UInt8} (h : 64 ≤ b.length) (flags : UInt32)
include h

theorem copyN_header : copyN (setFlags flags (headerBytes b 0)) 64 b 0 = setFlags flags b := by
  have hfit : 48 + 4 ≤ 64 := by decide
  have hlen : 0 + 64 ≤ b.length := by omega
  exact copyN_window (leBytes 4 flags.toNat) b
    (Nat.le_of_eq (length_leBytes 4 flags.toNat).symm) hfit hlen

theorem length_setFlags : (setFlags flags b).length = b.length :=
  length_copyN (Nat.le_of_eq (length_leBytes 4 flags.toNat).symm) (by omega) (by omega)

theorem eFlags_setFlags : eFlags (setFlags flags b) = flags := by
  have hlt : flags.toNat < 256 ^ 4 := flags.toNat_lt
  unfold eFlags fieldAt setFlags
  rw [window_copyN_self (Nat.le_of_eq (length_leBytes 4 flags.toNat).symm) (by omega),
    List.take_of_length_le (Nat.le_of_eq (length_leBytes 4 flags.toNat)), leNat_leBytes hlt,
    UInt32.ofNat_toNat]

/-- What is read beside the flags is what was there. -/
theorem window_setFlags {off n : ℕ} (hoff : off + n ≤ 48 ∨ 52 ≤ off) :
    ((setFlags flags b).drop off).take n = (b.drop off).take n :=
  window_copyN_beside (Nat.le_of_eq (length_leBytes 4 flags.toNat).symm) (by omega) hoff

end SetFlags

theorem eFlags_headerBytes (b : List UInt8) : eFlags (headerBytes b 0) = eFlags b := by
  unfold eFlags fieldAt headerBytes
  rw [List.drop_take, List.take_take]
  rfl

/-- The file that is saved: the registered one, with its flags set if they are the default. -/
theorem savedData_eq (socVersion : String) (magic : UInt32) {b : List UInt8}
    (hlen : b.length < 2 ^ 64) : savedData socVersion magic b =
      .ok (if b.length < 64 then none
        else if eFlags b = flagDefaultValue ∧ getFlagByMagic socVersion magic > 0 then
          some (setFlags (getFlagByMagic socVersion magic) b)
        else some b) := by
  have hstart : NoWrap 0 sizeofHeader := by decide
  unfold savedData loadHeader
  rw [readValueFromBuffer_eq hlen hstart]
  by_cases hsize : b.length < 64
  · have hheader : ¬ HasHeader b 0 := by
      change ¬ 0 + 64 ≤ b.length
      omega
    rw [if_neg hheader, if_pos hsize]
    rfl
  · have hheader : HasHeader b 0 := by
      change 0 + 64 ≤ b.length
      omega
    rw [if_pos hheader, if_neg hsize]
    change (if eFlags (headerBytes b 0) = flagDefaultValue then
      if getFlagByMagic socVersion magic > 0 then Except.ok (some
        (copyN (setFlags (getFlagByMagic socVersion magic) (headerBytes b 0)) 64 b 0))
      else Except.ok (some b) else Except.ok (some b)) = _
    rw [copyN_header (Nat.le_of_not_lt hsize), eFlags_headerBytes]
    by_cases hdefault : eFlags b = flagDefaultValue
    · rw [if_pos hdefault]
      by_cases hflag : getFlagByMagic socVersion magic > 0
      · rw [if_pos hflag, if_pos ⟨hdefault, hflag⟩]
      · rw [if_neg hflag, if_neg fun h => hflag h.2]
    · rw [if_neg hdefault, if_neg fun h => hdefault h.1]

/-- No flag that is set is the default. -/
theorem getFlagByMagic_ne_default (socVersion : String) (magic : UInt32) :
    getFlagByMagic socVersion magic ≠ flagDefaultValue := by
  unfold getFlagByMagic
  split_ifs <;> decide

/-! ## Loading the file -/

/-- The section headers and their names are behind the flags. -/
structure BehindFlags (b : List UInt8) : Prop where
  headers : ∀ idx < (elfHeader b).eShnum.toNat, 52 ≤ (sectionOffset (elfHeader b) idx).toNat
  names : 52 ≤ (nameSecHeader b).shOffset.toNat

section Load
variable {b : List UInt8} (h : 64 ≤ b.length) (flags : UInt32)
include h

theorem fieldAt_setFlags {off n : ℕ} (hoff : off + n ≤ 48 ∨ 52 ≤ off) (hn : off + n ≤ 64) :
    fieldAt (headerBytes (setFlags flags b) 0) off n = fieldAt (headerBytes b 0) off n := by
  have hwindow : ∀ c : List UInt8, ((headerBytes c 0).drop off).take n = (c.drop off).take n := by
    intro c
    unfold headerBytes
    rw [List.drop_take, List.take_take, Nat.min_eq_left (by omega)]
    rfl
  unfold fieldAt
  rw [hwindow, hwindow, window_setFlags h flags hoff]

theorem elfHeader_setFlags : elfHeader (setFlags flags b) = elfHeader b := by
  have hident : (headerBytes (setFlags flags b) 0).take 16 = (headerBytes b 0).take 16 := by
    have hwindow := window_setFlags h flags (show 0 + 16 ≤ 48 ∨ 52 ≤ 0 by omega)
    unfold headerBytes
    rw [List.take_take, List.take_take]
    exact hwindow
  unfold elfHeader Elf64Ehdr.ofBytes
  rw [hident, fieldAt_setFlags h flags (by omega) (by omega),
    fieldAt_setFlags h flags (by omega) (by omega), fieldAt_setFlags h flags (by omega) (by omega),
    fieldAt_setFlags h flags (by omega) (by omega), fieldAt_setFlags h flags (by omega) (by omega),
    fieldAt_setFlags h flags (by omega) (by omega), fieldAt_setFlags h flags (by omega) (by omega)]

theorem size_setFlags : size (setFlags flags b) = size b := by
  rw [size, length_setFlags h flags]
  rfl

theorem readBytes_setFlags {off n : ℕ} (hoff : 52 ≤ off) :
    readBytes (setFlags flags b) off n = readBytes b off n := by
  unfold readBytes
  rw [length_setFlags h flags, window_setFlags h flags (.inr hoff)]

theorem readValue_setFlags {off : UInt64} (hoff : 52 ≤ off.toNat) :
    readValueFromBuffer (setFlags flags b) off = readValueFromBuffer b off := by
  unfold readValueFromBuffer
  rw [size_setFlags h flags, readBytes_setFlags h flags hoff]

theorem readArray_setFlags (maxSize : ℕ) {off count : UInt64} (hoff : 52 ≤ off.toNat) :
    readArrayFromBuffer maxSize (setFlags flags b) off count =
      readArrayFromBuffer maxSize b off count := by
  unfold readArrayFromBuffer
  rw [size_setFlags h flags, readBytes_setFlags h flags hoff]

theorem loadSections_setFlags (header : Elf64Ehdr) (nameBuffer : List UInt8) {indices : List ℕ}
    (hoff : ∀ idx ∈ indices, 52 ≤ (sectionOffset header idx).toNat) (sections : Sections) :
    loadSections (setFlags flags b) header nameBuffer indices sections =
      loadSections b header nameBuffer indices sections := by
  induction indices generalizing sections with
  | nil => rfl
  | cons idx rest ih =>
    rw [loadSections, loadSections,
      readValue_setFlags h flags (hoff idx List.mem_cons_self)]
    cases readValueFromBuffer b (sectionOffset header idx) with
    | error fault => rfl
    | ok bytes =>
      cases bytes with
      | none => rfl
      | some bytes =>
        change (stringFrom nameBuffer _ >>= fun name => loadSections _ _ _ _ _) =
          (stringFrom nameBuffer _ >>= fun name => loadSections _ _ _ _ _)
        congr 1
        funext name
        exact ih (fun idx hidx => hoff idx (List.mem_cons_of_mem _ hidx)) _

theorem loadAccepted_setFlags (haccepted : ElfLoader.Accepted b) (hbehind : BehindFlags b)
    (maxSize : ℕ) :
    loadAccepted maxSize (setFlags flags b) = loadAccepted maxSize b := by
  have hvalid := haccepted.2.1
  have hlt : (elfHeader b).eShstrndx.toNat < (elfHeader b).eShnum.toNat := by
    unfold validateElfHeader at hvalid
    split_ifs at hvalid
    rw [Bool.not_eq_true', decide_eq_false_iff_not, UInt16.le_iff_toNat_le] at hvalid
    exact Nat.lt_of_not_le hvalid
  unfold loadAccepted
  rw [elfHeader_setFlags h flags, readValue_setFlags h flags (hbehind.headers _ hlt)]
  cases hread : readValueFromBuffer b
      (sectionOffset (elfHeader b) (elfHeader b).eShstrndx.toNat) with
  | error fault => rfl
  | ok bytes =>
    cases bytes with
    | none => rfl
    | some bytes =>
      have hnames : 52 ≤ (SectionHeader.ofBytes bytes).shOffset.toNat :=
        readValueFromBuffer_eq_some hread ▸ hbehind.names
      have hindices : headerIndices (setFlags flags b) = headerIndices b := by
        unfold headerIndices
        rw [elfHeader_setFlags h flags]
      dsimp only [bind, Except.bind]
      rw [readArray_setFlags h flags maxSize hnames, hindices]
      cases readArrayFromBuffer maxSize b _ _ with
      | error fault => rfl
      | ok nameBuffer =>
        cases nameBuffer with
        | none => rfl
        | some nameBuffer =>
          exact loadSections_setFlags h flags _ nameBuffer
            (fun idx hidx => hbehind.headers idx (List.mem_range.mp hidx)) ∅

theorem fromBuffer_setFlags (hlen : b.length < 2 ^ 64) (hbehind : BehindFlags b) (maxSize : ℕ) :
    fromBuffer maxSize (setFlags flags b) = fromBuffer maxSize b := by
  have hlen' : (setFlags flags b).length < 2 ^ 64 := by rw [length_setFlags h flags]; exact hlen
  have haccepted : ElfLoader.Accepted (setFlags flags b) ↔ ElfLoader.Accepted b := by
    unfold ElfLoader.Accepted
    rw [length_setFlags h flags, elfHeader_setFlags h flags, size_setFlags h flags]
  rw [fromBuffer_eq hlen', fromBuffer_eq hlen]
  by_cases hok : ElfLoader.Accepted b
  · rw [if_pos (haccepted.mpr hok), if_pos hok, loadAccepted_setFlags h flags hok hbehind]
  · rw [if_neg (fun h => hok (haccepted.mp h)), if_neg hok]

theorem getMetaSection_setFlags (hlen : b.length < 2 ^ 64) (hbehind : BehindFlags b) (maxSize : ℕ)
    {kernelName : List UInt8} (hmeta : ∀ sections header,
      fromBuffer maxSize b = .ok (some sections) →
        sections.lookup (metaPrefix ++ kernelName) = some header → 52 ≤ header.shOffset.toNat) :
    getMetaSection maxSize (setFlags flags b) kernelName = getMetaSection maxSize b kernelName := by
  unfold getMetaSection
  rw [fromBuffer_setFlags h flags hlen hbehind]
  cases hload : fromBuffer maxSize b with
  | error fault => rfl
  | ok sections =>
    cases sections with
    | none => rfl
    | some sections =>
      dsimp only [bind, Except.bind]
      cases hlookup : sections.lookup (metaPrefix ++ kernelName) with
      | none => rfl
      | some header =>
        change readMetaData maxSize (setFlags flags b) header = readMetaData maxSize b header
        unfold readMetaData
        rw [size_setFlags h flags, readBytes_setFlags h flags (hmeta sections header hload hlookup)]

end Load

/-- A vector kernel that was compiled without a target. -/
def kernelFile : List UInt8 := setFlags flagDefaultValue (elfFile 1)

end Msopcom.KernelObject
