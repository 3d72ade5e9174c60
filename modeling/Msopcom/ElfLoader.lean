import Msopcom.Bytes
import Msopcom.MsTxRange
import Msopcom.SanitizerLaunch

set_option autoImplicit false

/-!
# The ELF loader

Headers and sections are read at offsets that the file itself gives, as 64-bit words. A
read outside the buffer is a fault of its own, and so is a container that would be too long.
-/
namespace Msopcom.ElfLoader
open Bytes
open MsTxRange (splitString)

/-! ## Headers -/

def fieldAt (bytes : List UInt8) (off n : ℕ) : ℕ := leNat ((bytes.drop off).take n)

structure Elf64Ehdr where
  eIdent : List UInt8
  eShoff : UInt64
  eEhsize : UInt16
  ePhentsize : UInt16
  ePhnum : UInt16
  eShentsize : UInt16
  eShnum : UInt16
  eShstrndx : UInt16
  deriving DecidableEq, Repr

def Elf64Ehdr.ofBytes (bytes : List UInt8) : Elf64Ehdr where
  eIdent := bytes.take 16
  eShoff := UInt64.ofNat (fieldAt bytes 40 8)
  eEhsize := UInt16.ofNat (fieldAt bytes 52 2)
  ePhentsize := UInt16.ofNat (fieldAt bytes 54 2)
  ePhnum := UInt16.ofNat (fieldAt bytes 56 2)
  eShentsize := UInt16.ofNat (fieldAt bytes 58 2)
  eShnum := UInt16.ofNat (fieldAt bytes 60 2)
  eShstrndx := UInt16.ofNat (fieldAt bytes 62 2)

/-- A section header with its name and place in the file. -/
structure SectionHeader extends Elf64Shdr where
  shName : UInt32
  shOffset : UInt64
  deriving DecidableEq, Repr

def SectionHeader.ofBytes (bytes : List UInt8) : SectionHeader where
  shName := UInt32.ofNat (fieldAt bytes 0 4)
  shFlags := UInt64.ofNat (fieldAt bytes 8 8)
  shAddr := UInt64.ofNat (fieldAt bytes 16 8)
  shOffset := UInt64.ofNat (fieldAt bytes 24 8)
  shSize := UInt64.ofNat (fieldAt bytes 32 8)

/-- The size of both headers. -/
def sizeofHeader : UInt64 := 64

/-- The magic, the class of 64 bits and the order of the bytes. -/
def validIdent : List UInt8 := [0x7F, 0x45, 0x4C, 0x46, 2, 1]

def validateElfHeader (header : Elf64Ehdr) : Bool :=
  if header.eIdent.take 6 ≠ validIdent then false else !(header.eShnum ≤ header.eShstrndx)

def sectionOffset (header : Elf64Ehdr) (idx : ℕ) : UInt64 :=
  header.eShoff + UInt64.ofNat idx * header.eShentsize.toUInt64

def validateElfHeaderSafety (header : Elf64Ehdr) (maxSafeSize : UInt64) : Bool :=
  if maxSafeSize < header.eEhsize.toUInt64 ∨ maxSafeSize < header.ePhentsize.toUInt64 ∨
      maxSafeSize < header.ePhnum.toUInt64 ∨ maxSafeSize < header.eShentsize.toUInt64 ∨
      maxSafeSize < header.eShnum.toUInt64 ∨ maxSafeSize < header.eShstrndx.toUInt64 then false
  else !(maxSafeSize < sectionOffset header (header.eShnum.toNat - 1))

/-! ## Reads -/

inductive Fault
  | outOfBounds
  | lengthError
  deriving DecidableEq, Repr

def size (buffer : List UInt8) : UInt64 := UInt64.ofNat buffer.length

def readBytes (buffer : List UInt8) (offset count : ℕ) : Except Fault (List UInt8) :=
  if offset + count ≤ buffer.length then .ok ((buffer.drop offset).take count)
  else .error .outOfBounds

/-- `none` is the answer false. -/
def readValueFromBuffer (buffer : List UInt8) (offset : UInt64) :
    Except Fault (Option (List UInt8)) :=
  if size buffer < offset + sizeofHeader then .ok none
  else (readBytes buffer offset.toNat sizeofHeader.toNat).map some

/-- No vector is longer than `maxSize`: `resize` throws. -/
def readArrayFromBuffer (maxSize : ℕ) (buffer : List UInt8) (offset count : UInt64) :
    Except Fault (Option (List UInt8)) :=
  if size buffer < offset + count then .ok none
  else if count.toNat > maxSize then .error .lengthError
  else (readBytes buffer offset.toNat count.toNat).map some

/-- The string constructor looks for the zero byte that ends a string. -/
def stringFrom (bytes : List UInt8) (start : ℕ) : Except Fault (List UInt8) :=
  if 0 ∈ bytes.drop start then .ok ((bytes.drop start).takeWhile fun b => b ≠ 0)
  else .error .outOfBounds

/-! ## Loading -/

abbrev Sections := AList fun _ : List UInt8 => SectionHeader

def loadSections (buffer : List UInt8) (header : Elf64Ehdr) (nameBuffer : List UInt8) :
    List ℕ → Sections → Except Fault (Option Sections)
  | [], sections => .ok (some sections)
  | idx :: rest, sections => do
    match ← readValueFromBuffer buffer (sectionOffset header idx) with
    | none => return none
    | some bytes =>
      let sectionHeader := SectionHeader.ofBytes bytes
      let sectionName ← stringFrom nameBuffer sectionHeader.shName.toNat
      loadSections buffer header nameBuffer rest (sections.insert sectionName sectionHeader)

def fromBuffer (maxSize : ℕ) (buffer : List UInt8) : Except Fault (Option Sections) := do
  if buffer.isEmpty then return none
  match ← readValueFromBuffer buffer 0 with
  | none => return none
  | some bytes =>
    let header := Elf64Ehdr.ofBytes bytes
    if !validateElfHeader header then return none
    if !validateElfHeaderSafety header (size buffer) then return none
    match ← readValueFromBuffer buffer (sectionOffset header header.eShstrndx.toNat) with
    | none => return none
    | some bytes =>
      let nameSecHeader := SectionHeader.ofBytes bytes
      match ← readArrayFromBuffer maxSize buffer nameSecHeader.shOffset nameSecHeader.shSize with
      | none => return none
      | some nameBuffer =>
        loadSections buffer header nameBuffer (List.range header.eShnum.toNat) ∅

/-! ## Reading a section -/

def readRawData (maxSize : ℕ) (buffer : List UInt8) (sections : Sections) (name : List UInt8) :
    Except Fault (List UInt8) :=
  match sections.lookup name with
  | none => .ok []
  | some header => do
    let values ← readArrayFromBuffer maxSize buffer header.shOffset header.shSize
    return values.getD []

/-- `std::min` of the two sizes behind the first byte. -/
def stringTableLength (buffer : List UInt8) (header : SectionHeader) : UInt64 :=
  if size buffer - header.shOffset - 2 < header.shSize - 2 then size buffer - header.shOffset - 2
  else header.shSize - 2

/-- The strings behind the first byte. No string is longer than `maxLength`. -/
def readStrings (maxLength : ℕ) (buffer : List UInt8) (header : SectionHeader) :
    Except Fault (List (List UInt8)) :=
  if !(header.shSize > 2 && size buffer - header.shOffset > 2) then .ok []
  else if (stringTableLength buffer header).toNat > maxLength then .error .lengthError
  else (readBytes buffer (header.shOffset.toNat + 1) (stringTableLength buffer header).toNat).map
    (splitString 0)

def readStringTable (maxLength : ℕ) (buffer : List UInt8) (sections : Sections)
    (name : List UInt8) : Except Fault (List (List UInt8)) :=
  match sections.lookup name with
  | none => .ok []
  | some header => do
    if header.shOffset < size buffer then
      if (← readBytes buffer header.shOffset.toNat 1) ≠ [0] then return []
    readStrings maxLength buffer header

/-- `.ascend.meta.` -/
def metaPrefix : List UInt8 := [46, 97, 115, 99, 101, 110, 100, 46, 109, 101, 116, 97, 46]

def readMetaData (maxSize : ℕ) (binary : List UInt8) (header : SectionHeader) :
    Except Fault (Option (List UInt8)) :=
  if header.shOffset + header.shSize > size binary then .ok none
  else if header.shSize.toNat > maxSize then .error .lengthError
  else (readBytes binary header.shOffset.toNat header.shSize.toNat).map some

def getMetaSection (maxSize : ℕ) (binary kernelName : List UInt8) :
    Except Fault (Option (List UInt8)) := do
  match ← fromBuffer maxSize binary with
  | none => return none
  | some headers =>
    match headers.lookup (metaPrefix ++ kernelName) with
    | none => return none
    | some header => readMetaData maxSize binary header

end Msopcom.ElfLoader
