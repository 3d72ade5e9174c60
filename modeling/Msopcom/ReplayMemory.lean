import Msopcom.KernelReplay
import Msopcom.MemorySnapshots

set_option autoImplicit false

/-!
# The allocations under kernel replay

The registered allocations follow a value that is saved, acted on and put back.
-/
namespace Msopcom

def MemSection.Covers (m : MemSection) (a : UInt64) : Prop :=
  (a - m.originAddr).toNat < m.size.toNat

instance (m : MemSection) (a : UInt64) : Decidable (m.Covers a) :=
  inferInstanceAs (Decidable (_ < _))

namespace MemoryContext
open KeyedList

def Registered (c : MemoryContext) (a : UInt64) : Prop := ∃ m ∈ c.memSectionMap.elems, m.Covers a

/-- What the registered allocations hold. -/
abbrev Allocations (c : MemoryContext) : Type := {a : UInt64 // c.Registered a} → UInt8

def contents (c : MemoryContext) (memory : UInt64 → UInt8) : Allocations c := fun a => memory a

def SameSections (c c' : MemoryContext) : Prop :=
  ∀ addr size, (∃ snapshotAddr, ⟨addr, snapshotAddr, size⟩ ∈ c.memSectionMap) ↔
    ∃ snapshotAddr, ⟨addr, snapshotAddr, size⟩ ∈ c'.memSectionMap

section Sections
variable {c c₀ : MemoryContext} {calls : UInt64 → Calls} {m : MemSection} {ms : List MemSection}

theorem SameSections.saveTo (h : SameSections c c₀) (hm : m ∈ c.memSectionMap)
    (snapshotAddr : UInt64) (copied : Option (List UInt8)) :
    SameSections (c.saveTo m snapshotAddr copied) c₀ := by
  intro addr size
  rw [← h addr size]
  constructor
  · rintro ⟨snapshot, hx⟩
    rcases mem_saveTo_iff.mp hx with heq | ⟨hx, -⟩
    · cases heq
      exact ⟨m.snapshotAddr, hm⟩
    · exact ⟨snapshot, hx⟩
  · rintro ⟨snapshot, hx⟩
    by_cases heq : addr = m.originAddr
    · have hsame := eq_of_originAddr_eq hx hm heq
      subst hsame
      exact ⟨snapshotAddr, mem_saveTo_iff.mpr (.inl rfl)⟩
    · exact ⟨snapshot, mem_saveTo_iff.mpr (.inr ⟨hx, heq⟩)⟩

theorem SameSections.covers (h : SameSections c c₀) {a : UInt64} (ha : c₀.Registered a) :
    ∃ m ∈ c.memSectionMap, m.Covers a := by
  obtain ⟨⟨addr, snapshotAddr, size⟩, hm, hcovers⟩ := ha
  obtain ⟨snapshotAddr', hm'⟩ := (h addr size).mpr ⟨snapshotAddr, hm⟩
  exact ⟨_, hm', hcovers⟩

theorem getElem?_bytesOf (m : MemSection) (c : MemoryContext) (a : UInt64) :
    (c.bytesOf m)[(a - m.originAddr).toNat]? = if m.Covers a then some (c.memory a) else none := by
  have haddr : m.originAddr + UInt64.ofNat (a - m.originAddr).toNat = a := by
    rw [UInt64.ofNat_toNat, UInt64.add_comm, UInt64.sub_add_cancel]
  unfold bytesOf
  rw [List.getElem?_map]
  by_cases hcovers : m.Covers a
  · rw [if_pos hcovers, List.getElem?_range hcovers, Option.map_some, haddr]
  · rw [if_neg hcovers, List.getElem?_eq_none, Option.map_none]
    rw [List.length_range]
    exact Nat.le_of_not_lt hcovers

/-! ## Backup -/

/-- The sections that are behind the loop of a `backup` have been saved. -/
structure Filled (calls : UInt64 → Calls) (ms : List MemSection) (c₀ c : MemoryContext) : Prop
    extends Filling calls ms c where
  memory : c.memory = c₀.memory
  sections : SameSections c c₀
  done : ∀ x ∈ c.memSectionMap, x ∈ ms ∨ x.snapshotAddr ≠ 0 ∧
    lastBackup x.originAddr c.copies = some (some (c.bytesOf x))

theorem Filled.getCurrentStream (h : Filled calls ms c₀ c) (call : Calls) :
    Filled calls ms c₀ (c.getCurrentStream call) := by
  refine ⟨h.toFilling.getCurrentStream call, ?_, ?_, ?_⟩ <;>
    obtain ⟨stream, heq⟩ := getCurrentStream_eq call c <;> rw [heq]
  · exact h.memory
  · exact h.sections
  · exact h.done

theorem createSnapshot_of_ok {call : Calls} (hok : (createSnapshot call m c).1 = true) :
    ∃ snapshotAddr, (snapshotAddr = m.snapshotAddr ∧ m.snapshotAddr ≠ 0 ∨
        m.snapshotAddr = 0 ∧ snapshotAddr ∈ call.malloc) ∧
      (createSnapshot call m c).2 = c.saveTo m snapshotAddr (some (c.bytesOf m)) := by
  rcases createSnapshot_cases call m c with heq | ⟨snapshotAddr, copied, haddr, heq⟩
  · rw [heq] at hok
    cases hok
  · refine ⟨snapshotAddr, haddr, ?_⟩
    unfold createSnapshot at heq hok ⊢
    split_ifs at heq hok ⊢ <;> simp_all

theorem Filled.saveTo (h : Filled calls (m :: ms) c₀ c) {snapshotAddr : UInt64}
    (haddr : snapshotAddr = m.snapshotAddr ∧ m.snapshotAddr ≠ 0 ∨
      m.snapshotAddr = 0 ∧ snapshotAddr ∈ (calls m.originAddr).malloc) :
    Filled calls ms c₀ (c.saveTo m snapshotAddr (some (c.bytesOf m))) := by
  have hm : m ∈ c.memSectionMap := h.listed m List.mem_cons_self
  refine ⟨h.toFilling.saveTo haddr _, h.memory, h.sections.saveTo hm _ _, fun x hx => ?_⟩
  change x ∈ ms ∨ x.snapshotAddr ≠ 0 ∧
    lastBackup x.originAddr (c.copies ++ [.toSnapshot m.originAddr _]) = _
  rw [lastBackup_toSnapshot]
  rcases mem_saveTo_iff.mp hx with rfl | ⟨hx, hne⟩
  · exact .inr ⟨(h.toFilling.bufferFor haddr).nonnull, if_pos rfl⟩
  · rw [if_neg hne.symm]
    rcases h.done x hx with hin | hdone
    · refine .inl ((List.mem_cons.mp hin).resolve_left ?_)
      rintro rfl
      exact hne rfl
    · exact .inr hdone

theorem Filled.run (h : Filled calls ms c₀ c)
    (hok : (forSections (saveSection calls) ms c).1 = true) :
    Filled calls [] c₀ (forSections (saveSection calls) ms c).2 := by
  induction ms generalizing c with
  | nil => exact h
  | cons m ms ih =>
    unfold forSections at hok ⊢
    split_ifs at hok ⊢ with hsaved
    · obtain ⟨snapshotAddr, haddr, heq⟩ := createSnapshot_of_ok hsaved
      refine ih ?_ hok
      unfold saveSection
      rw [heq]
      exact (h.getCurrentStream _).saveTo haddr
    · exact absurd hok hsaved

/-! ## Restore -/

theorem restoreSection_of_ok (hok : (restoreSection calls m c).1 = true) : ∃ stream,
    m.snapshotAddr ≠ 0 ∧ (restoreSection calls m c).2 = { c with
      memory := write m.originAddr (((c.snapshots.lookup m.snapshotAddr).getD none).getD
        (calls m.originAddr).garbage) c.memory
      stream := stream
      copies := c.copies ++
        [.toOrigin m.originAddr ((c.snapshots.lookup m.snapshotAddr).getD none)] } := by
  obtain ⟨stream, hstream⟩ := getCurrentStream_eq (calls m.originAddr) c
  unfold restoreSection restoreFromSnapshot at hok ⊢
  rw [hstream] at hok ⊢
  split_ifs at hok ⊢ with horigin hsnapshot hcopy
  exact ⟨stream, hsnapshot, rfl⟩

/-- The bytes of the section in what was saved. -/
def Holds (x : Allocations c₀) (m : MemSection) (bytes : List UInt8) : Prop :=
  ∀ a : {a // c₀.Registered a},
    bytes[(a.1 - m.originAddr).toNat]? = if m.Covers a then some (x a) else none

/-- Each section has been saved as `x` has it. -/
structure Snapshots (x : Allocations c₀) (c : MemoryContext) : Prop where
  inv : Inv c
  sections : SameSections c c₀
  saved : ∀ m ∈ c.memSectionMap, m.snapshotAddr ≠ 0 ∧ ∃ bytes,
    lastBackup m.originAddr c.copies = some (some bytes) ∧ Holds x m bytes

theorem Snapshots.lookup {x : Allocations c₀} (h : Snapshots x c) (hm : m ∈ c.memSectionMap) :
    ∃ bytes, c.snapshots.lookup m.snapshotAddr = some (some bytes) ∧ Holds x m bytes := by
  obtain ⟨hsnapshot, bytes, hlast, hholds⟩ := h.saved m hm
  obtain ⟨copied, hlookup, hlast'⟩ := h.inv.content m hm hsnapshot
  rw [hlast] at hlast'
  cases hlast'
  exact ⟨bytes, hlookup, hholds⟩

theorem write_of_holds {x : Allocations c₀} {bytes : List UInt8} (h : Holds x m bytes)
    (memory : UInt64 → UInt8) (a : {a // c₀.Registered a}) :
    write m.originAddr bytes memory a = if m.Covers a then x a else memory a := by
  unfold write
  rw [List.getD_eq_getElem?_getD, h a]
  split_ifs <;> rfl

theorem Snapshots.restoreSection {x : Allocations c₀} (h : Snapshots x c)
    (hm : m ∈ c.memSectionMap) (hok : (restoreSection calls m c).1 = true) :
    Snapshots x (restoreSection calls m c).2 ∧
      (restoreSection calls m c).2.memSectionMap = c.memSectionMap ∧
      ∀ a : {a // c₀.Registered a}, (restoreSection calls m c).2.memory a =
        if m.Covers a then x a else c.memory a := by
  obtain ⟨stream, -, heq⟩ := restoreSection_of_ok hok
  obtain ⟨bytes, hlookup, hholds⟩ := h.lookup hm
  rw [heq]
  refine ⟨⟨⟨h.inv.origin, ?_, h.inv.distinct, h.inv.nonnull⟩, h.sections, ?_⟩, rfl, ?_⟩
  · intro y hy hsnapshot
    rw [lastBackup_toOrigin]
    exact h.inv.content y hy hsnapshot
  · intro y hy
    rw [lastBackup_toOrigin]
    exact h.saved y hy
  · intro a
    rw [hlookup]
    exact write_of_holds hholds c.memory a

/-- The sections are written one after the other, each with bytes of `x`. -/
theorem Snapshots.restore {x : Allocations c₀} (h : Snapshots x c)
    (hms : ∀ m ∈ ms, m ∈ c.memSectionMap)
    (hok : (forSections (MemoryContext.restoreSection calls) ms c).1 = true) :
    Snapshots x (forSections (MemoryContext.restoreSection calls) ms c).2 ∧
      ∀ a : {a // c₀.Registered a}, (∃ m ∈ ms, m.Covers a) ∨ c.memory a = x a →
        (forSections (MemoryContext.restoreSection calls) ms c).2.memory a = x a := by
  induction ms generalizing c with
  | nil => exact ⟨h, fun a ha => ha.resolve_left fun ⟨_, hm, _⟩ => by cases hm⟩
  | cons m ms ih =>
    unfold forSections at hok ⊢
    split_ifs at hok ⊢ with hrestored
    · obtain ⟨hnext, hmap, hmemory⟩ := h.restoreSection (hms m List.mem_cons_self) hrestored
      obtain ⟨hend, hwritten⟩ := ih hnext
        (fun y hy => hmap ▸ hms y (List.mem_cons_of_mem m hy)) hok
      refine ⟨hend, fun a ha => hwritten a ?_⟩
      by_cases hcovers : m.Covers a
      · exact .inr (by rw [hmemory, if_pos hcovers])
      · rw [hmemory, if_neg hcovers]
        refine ha.imp_left ?_
        rintro ⟨y, hy, hycovers⟩
        rcases List.mem_cons.mp hy with rfl | hy
        · exact absurd hycovers hcovers
        · exact ⟨y, hy, hycovers⟩
    · exact absurd hok hrestored

end Sections
end MemoryContext
end Msopcom
