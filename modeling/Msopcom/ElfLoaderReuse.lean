import Msopcom.ElfLoaderBounds
import Msopcom.KeyedList

set_option autoImplicit false

/-!
# One loader for several files

The loader keeps the buffer, the header and the sections as members. A load replaces the first
two and adds to the third, and one that fails leaves what it has added.
-/
namespace Msopcom.ElfLoader
open KeyedList

abbrev Name := List UInt8

structure Loader where
  header : Elf64Ehdr := .ofBytes (List.replicate 64 0)
  buffer : List UInt8 := []
  sections : Sections := ∅

/-- What a call answers, with the loader that it leaves. A fault ends the call as well. -/
abbrev Answer := Except Fault Bool × Loader

/-- `if (!read) { return false; }`. -/
def Loader.orReturn {α : Type} (loader : Loader) (read : Except Fault (Option α))
    (next : α → Answer) : Answer :=
  match read with
  | .error fault => (.error fault, loader)
  | .ok none => (.ok false, loader)
  | .ok (some value) => next value

/-- The loop over the section headers. -/
def Loader.loadSections (nameBuffer : List UInt8) : List ℕ → Loader → Answer
  | [], loader => (.ok true, loader)
  | idx :: rest, loader =>
    loader.orReturn (readValueFromBuffer loader.buffer (sectionOffset loader.header idx))
      fun bytes =>
        let sectionHeader := SectionHeader.ofBytes bytes
        match stringFrom nameBuffer sectionHeader.shName.toNat with
        | .error fault => (.error fault, loader)
        | .ok sectionName => Loader.loadSections nameBuffer rest
            { loader with sections := loader.sections.insert sectionName sectionHeader }

/-- What `FromBuffer` does when it has read the header. -/
def Loader.fromHeader (maxSize : ℕ) (loader : Loader) : Answer :=
  if !validateElfHeader loader.header then (.ok false, loader)
  else if !validateElfHeaderSafety loader.header (size loader.buffer) then (.ok false, loader)
  else
    loader.orReturn (readValueFromBuffer loader.buffer
        (sectionOffset loader.header loader.header.eShstrndx.toNat)) fun bytes =>
      let nameSecHeader := SectionHeader.ofBytes bytes
      loader.orReturn (readArrayFromBuffer maxSize loader.buffer nameSecHeader.shOffset
          nameSecHeader.shSize) fun nameBuffer =>
        Loader.loadSections nameBuffer (List.range loader.header.eShnum.toNat) loader

def Loader.fromBuffer (maxSize : ℕ) (loader : Loader) (buffer : List UInt8) : Answer :=
  if buffer.isEmpty then (.ok false, loader)
  else
    let loader := { loader with buffer }
    loader.orReturn (readValueFromBuffer buffer 0) fun bytes =>
      Loader.fromHeader maxSize { loader with header := .ofBytes bytes }

/-- The calls of a history, each with the loader that the one before has left. -/
def Loader.afterAll (maxSize : ℕ) (history : List (List UInt8)) : Loader :=
  history.foldl (fun loader buffer => (loader.fromBuffer maxSize buffer).2) {}

/-- The maps of section headers are the same. -/
def SameSections (s t : Sections) : Prop := ∀ name : Name, s.lookup name = t.lookup name

/-- A section header of the file carries the name. -/
def IsSectionName (buffer : List UInt8) (name : Name) : Prop :=
  ∃ idx ∈ headerIndices buffer, nameOf buffer idx = name

variable {buffer : List UInt8} {maxSize : ℕ}

/-! ## What is read -/

theorem readBytes_eq_ok {offset count : ℕ} {bytes : List UInt8}
    (h : (readBytes buffer offset count).map some = .ok (some bytes)) :
    bytes = (buffer.drop offset).take count := by
  unfold readBytes at h
  split_ifs at h with hread
  · exact (Option.some.inj (Except.ok.inj h)).symm
  · cases h

theorem readValueFromBuffer_eq_some {offset : UInt64} {bytes : List UInt8}
    (h : readValueFromBuffer buffer offset = .ok (some bytes)) :
    bytes = headerBytes buffer offset := by
  unfold readValueFromBuffer at h
  split_ifs at h with hsize
  · cases Except.ok.inj h
  · exact readBytes_eq_ok h

theorem readArrayFromBuffer_eq_some {offset count : UInt64} {bytes : List UInt8}
    (h : readArrayFromBuffer maxSize buffer offset count = .ok (some bytes)) :
    bytes = (buffer.drop offset.toNat).take count.toNat := by
  unfold readArrayFromBuffer at h
  split_ifs at h with hsize hmax
  · cases Except.ok.inj h
  · exact readBytes_eq_ok h

theorem stringFrom_eq_ok {bytes name : List UInt8} {start : ℕ}
    (h : stringFrom bytes start = .ok name) :
    name = (bytes.drop start).takeWhile fun b => b ≠ 0 := by
  unfold stringFrom at h
  split_ifs at h with hzero
  exact (Except.ok.inj h).symm

/-! ## What a load stores -/

/-- Whatever loader with this header and this buffer makes the call, the answer is the same, and
so are the headers that are stored. After a success these have the given names. -/
def Stores (call : Loader → Answer) (ready : Loader → Prop) (names : List Name) : Prop :=
  ∃ (ret : Except Fault Bool) (entries : List (Name × SectionHeader)),
    (∀ loader, ready loader →
      (call loader).1 = ret ∧ (call loader).2.sections = store loader.sections entries) ∧
    (ret = .ok true → entries.map Prod.fst = names)

variable {call : Loader → Answer} {ready : Loader → Prop} {names : List Name}

theorem Stores.congr {call' : Loader → Answer} (h : Stores call' ready names)
    (heq : ∀ loader, ready loader → call loader = call' loader) : Stores call ready names := by
  obtain ⟨ret, entries, hcall, hnames⟩ := h
  refine ⟨ret, entries, fun loader hready => ?_, hnames⟩
  rw [heq loader hready]
  exact hcall loader hready

/-- A call that ends before it stores anything. -/
theorem stores_nothing {ret : Except Fault Bool} (hret : ret ≠ .ok true)
    (h : ∀ loader, ready loader → ∃ loader', call loader = (ret, loader') ∧
      loader'.sections = loader.sections) : Stores call ready names := by
  refine ⟨ret, [], fun loader hready => ?_, fun heq => absurd heq hret⟩
  obtain ⟨loader', hcall, hsections⟩ := h loader hready
  rw [hcall]
  exact ⟨rfl, hsections⟩

theorem stores_orReturn {α : Type} {read : Except Fault (Option α)} {next : Loader → α → Answer}
    (h : ∀ value, read = .ok (some value) → Stores (fun loader => next loader value) ready names) :
    Stores (fun loader => loader.orReturn read (next loader)) ready names := by
  cases hread : read with
  | error fault =>
    exact @stores_nothing _ _ _ (.error fault) (fun heq => by cases heq) fun loader _ =>
      ⟨loader, rfl, rfl⟩
  | ok value =>
    cases value with
    | none =>
      exact @stores_nothing _ _ _ (.ok false) (fun heq => by cases heq) fun loader _ =>
        ⟨loader, rfl, rfl⟩
    | some value => exact h value hread

/-- The name of a header in a table of names. -/
def nameIn (header : Elf64Ehdr) (buffer nameBuffer : List UInt8) (idx : ℕ) : Name :=
  (nameBuffer.drop (SectionHeader.ofBytes
    (headerBytes buffer (sectionOffset header idx))).shName.toNat).takeWhile fun b => b ≠ 0

theorem loadSections_stores (header : Elf64Ehdr) (buffer nameBuffer : List UInt8)
    (indices : List ℕ) :
    Stores (Loader.loadSections nameBuffer indices)
      (fun loader => loader.header = header ∧ loader.buffer = buffer)
      (indices.map (nameIn header buffer nameBuffer)) := by
  induction indices with
  | nil => exact ⟨.ok true, [], fun loader _ => ⟨rfl, rfl⟩, fun _ => rfl⟩
  | cons idx rest ih =>
    obtain ⟨ret, entries, hrest, hnames⟩ := ih
    refine Stores.congr (stores_orReturn fun bytes hread => ?_) fun loader hready => by
      rw [Loader.loadSections, hready.1, hready.2]
    cases hname : stringFrom nameBuffer (SectionHeader.ofBytes bytes).shName.toNat with
    | error fault =>
      exact @stores_nothing _ _ _ (.error fault) (fun heq => by cases heq) fun loader _ =>
        ⟨loader, by dsimp only; rw [hname], rfl⟩
    | ok name =>
      refine ⟨ret, (name, SectionHeader.ofBytes bytes) :: entries, fun loader hready => ?_,
        fun h => ?_⟩
      · dsimp only
        rw [hname]
        exact hrest _ ⟨rfl, rfl⟩
      · rw [List.map_cons, List.map_cons, hnames h, stringFrom_eq_ok hname,
          readValueFromBuffer_eq_some hread]
        rfl

theorem fromHeader_stores (maxSize : ℕ) (buffer : List UInt8) :
    Stores (Loader.fromHeader maxSize)
      (fun loader => loader.header = elfHeader buffer ∧ loader.buffer = buffer)
      ((headerIndices buffer).map (nameOf buffer)) := by
  by_cases hvalid : validateElfHeader (elfHeader buffer) = true
  · by_cases hsafe : validateElfHeaderSafety (elfHeader buffer) (size buffer) = true
    · refine Stores.congr (stores_orReturn fun bytes hread => ?_) fun loader hready => by
        rw [Loader.fromHeader, hready.1, hready.2, hvalid, hsafe]
        rfl
      refine stores_orReturn fun nameBuffer hnames => ?_
      rw [readArrayFromBuffer_eq_some hnames, readValueFromBuffer_eq_some hread]
      exact loadSections_stores (elfHeader buffer) buffer (nameTable buffer) (headerIndices buffer)
    · refine @stores_nothing _ _ _ (.ok false) (fun heq => by cases heq) fun loader hready =>
        ⟨loader, ?_, rfl⟩
      rw [Bool.not_eq_true] at hsafe
      rw [Loader.fromHeader, hready.1, hready.2, hvalid, hsafe]
      rfl
  · refine @stores_nothing _ _ _ (.ok false) (fun heq => by cases heq) fun loader hready =>
      ⟨loader, ?_, rfl⟩
    rw [Bool.not_eq_true] at hvalid
    rw [Loader.fromHeader, hready.1, hvalid]
    rfl

theorem fromBuffer_stores (maxSize : ℕ) (buffer : List UInt8) :
    Stores (fun loader => loader.fromBuffer maxSize buffer) (fun _ => True)
      ((headerIndices buffer).map (nameOf buffer)) := by
  by_cases hempty : buffer.isEmpty = true
  · exact @stores_nothing _ _ _ (.ok false) (fun heq => by cases heq) fun loader _ =>
      ⟨loader, if_pos hempty, rfl⟩
  · have hcall : ∀ loader : Loader, loader.fromBuffer maxSize buffer =
        Loader.orReturn { loader with buffer } (readValueFromBuffer buffer 0) fun bytes =>
          Loader.fromHeader maxSize { loader with header := .ofBytes bytes, buffer } :=
      fun loader => if_neg hempty
    cases hread : readValueFromBuffer buffer 0 with
    | error fault =>
      refine @stores_nothing _ _ _ (.error fault) (fun heq => by cases heq) fun loader _ =>
        ⟨{ loader with buffer }, ?_, rfl⟩
      rw [hcall, hread]
      rfl
    | ok value =>
      cases value with
      | none =>
        refine @stores_nothing _ _ _ (.ok false) (fun heq => by cases heq) fun loader _ =>
          ⟨{ loader with buffer }, ?_, rfl⟩
        rw [hcall, hread]
        rfl
      | some bytes =>
        obtain ⟨ret, entries, hheader, hnames⟩ := fromHeader_stores maxSize buffer
        refine ⟨ret, entries, fun loader _ => ?_, hnames⟩
        dsimp only
        rw [hcall, hread]
        have hbytes := congrArg Elf64Ehdr.ofBytes (readValueFromBuffer_eq_some hread)
        exact hheader { loader with header := .ofBytes bytes, buffer } ⟨hbytes, rfl⟩

/-! ## Loading again -/

/-- The answer does not depend on what was loaded before. -/
theorem fromBuffer_ret (loader loader' : Loader) (buffer : List UInt8) :
    (loader.fromBuffer maxSize buffer).1 = (loader'.fromBuffer maxSize buffer).1 := by
  obtain ⟨ret, entries, hcall, -⟩ := fromBuffer_stores maxSize buffer
  rw [(hcall loader trivial).1, (hcall loader' trivial).1]

/-- After a history of loads, a file shows the sections that it shows in a fresh loader if all
names that the loader has kept are names of its own. -/
theorem sections_fresh_iff {history : List (List UInt8)}
    (h : ((Loader.afterAll maxSize history).fromBuffer maxSize buffer).1 = .ok true) :
    SameSections ((Loader.afterAll maxSize history).fromBuffer maxSize buffer).2.sections
        (Loader.fromBuffer maxSize {} buffer).2.sections ↔
      ∀ name ∈ (Loader.afterAll maxSize history).sections, IsSectionName buffer name := by
  obtain ⟨ret, entries, hcall, hnames⟩ := fromBuffer_stores maxSize buffer
  have hhere := hcall (Loader.afterAll maxSize history) trivial
  have hfresh := hcall {} trivial
  have hkeys := hnames (hhere.1.symm.trans h)
  unfold SameSections IsSectionName
  rw [hhere.2, hfresh.2, lookup_store_eq_iff, hkeys]
  exact forall₂_congr fun name _ => List.mem_map

set_option maxRecDepth 4000 in
/-- The section of the first file shows in the second one, which has no section of its name. -/
theorem sections_of_earlier_file :
    ¬ ∀ (maxSize : ℕ) (history : List (List UInt8)) (buffer : List UInt8),
      ((Loader.afterAll maxSize history).fromBuffer maxSize buffer).1 = .ok true →
        SameSections ((Loader.afterAll maxSize history).fromBuffer maxSize buffer).2.sections
          (Loader.fromBuffer maxSize {} buffer).2.sections := by
  intro h
  have hsame := h (2 ^ 63 - 1) [elfFile 1] (elfFile 0) (by rfl) [97]
  have hkept : ((Loader.afterAll (2 ^ 63 - 1) [elfFile 1]).fromBuffer (2 ^ 63 - 1)
      (elfFile 0)).2.sections.lookup [97] ≠ none := by decide
  have hfresh : (Loader.fromBuffer (2 ^ 63 - 1) {} (elfFile 0)).2.sections.lookup [97] = none := by
    rfl
  rw [hfresh] at hsame
  exact hkept hsame

set_option maxRecDepth 4000 in
/-- A file that is loaded twice shows its own sections. -/
theorem sections_of_same_file :
    SameSections ((Loader.afterAll (2 ^ 63 - 1) [elfFile 1]).fromBuffer (2 ^ 63 - 1)
        (elfFile 1)).2.sections
        (Loader.fromBuffer (2 ^ 63 - 1) {} (elfFile 1)).2.sections ↔
      ∀ name ∈ (Loader.afterAll (2 ^ 63 - 1) [elfFile 1]).sections,
        IsSectionName (elfFile 1) name :=
  @sections_fresh_iff (elfFile 1) (2 ^ 63 - 1) [elfFile 1] (by rfl)

end Msopcom.ElfLoader
