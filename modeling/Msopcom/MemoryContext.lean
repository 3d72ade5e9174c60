import Msopcom.KeyedList
import Msopcom.OrderedSet
import Msopcom.Runs

set_option autoImplicit false

/-!
# Snapshots of device memory

The memory sections of the application, each with at most one snapshot, and what is copied
between the two. Snapshot buffers are objects of their own, apart from the memory of the
application.
-/
namespace Msopcom

structure MemSection where
  originAddr : UInt64
  snapshotAddr : UInt64
  size : UInt64
  deriving DecidableEq, Repr

def MemSection.Before (a b : MemSection) : Prop := a.originAddr < b.originAddr

instance : DecidableRel MemSection.Before :=
  fun a b => inferInstanceAs (Decidable (a.originAddr < b.originAddr))

instance : IsTrans MemSection MemSection.Before := ⟨fun _ _ _ => UInt64.lt_trans⟩

namespace MemoryContext
open KeyedList

/-- A copy between a section and its snapshot. The bytes of a copy to the snapshot are
missing when it fails; those of a copy to the section, which has succeeded, when nothing
says what the buffer holds. -/
inductive Copy
  | toSnapshot (originAddr : UInt64) (bytes : Option (List UInt8))
  | toOrigin (originAddr : UInt64) (bytes : Option (List UInt8))
  deriving DecidableEq, Repr

/-- How the calls for one section end. -/
structure Calls where
  defaultStream : UInt64 := 0
  malloc : Option UInt64 := none
  memcpy : Bool := true
  memcpyAsync : Bool := true
  synchronizeStream : Bool := true
  garbage : List UInt8 := []
  deriving DecidableEq, Repr

end MemoryContext

/-- The live snapshot buffers have their content, as far as the runtime promises any. -/
structure MemoryContext where
  memory : UInt64 → UInt8
  memSectionMap : OrderedSet MemSection MemSection.Before := OrderedSet.empty
  stream : UInt64 := 0
  snapshots : AList fun _ : UInt64 => Option (List UInt8) := ∅
  copies : List MemoryContext.Copy := []

namespace MemoryContext

def append (addr size : UInt64) (c : MemoryContext) : MemoryContext :=
  if addr = 0 then c else { c with memSectionMap := c.memSectionMap.put ⟨addr, 0, size⟩ }

def discard (addr : UInt64) (c : MemoryContext) : MemoryContext :=
  match c.memSectionMap.elems.find? fun m => m.originAddr = addr with
  | none => c
  | some m =>
    { c with
      snapshots := if m.snapshotAddr ≠ 0 then c.snapshots.erase m.snapshotAddr else c.snapshots
      memSectionMap := c.memSectionMap.filter fun m => m.originAddr ≠ addr }

def getCurrentStream (calls : Calls) (c : MemoryContext) : MemoryContext :=
  if c.stream ≠ 0 then c else { c with stream := calls.defaultStream }

/-- `MemCopySync` or `MemCopyWithStream`, as there is a stream or not. -/
def memCopy (calls : Calls) (c : MemoryContext) : Bool :=
  if c.stream = 0 then calls.memcpy else calls.memcpyAsync && calls.synchronizeStream

def bytesOf (m : MemSection) (c : MemoryContext) : List UInt8 :=
  (List.range m.size.toNat).map fun i => c.memory (m.originAddr + UInt64.ofNat i)

/-- The copy to the snapshot buffer. The section has the address of the buffer even when
the copy fails. -/
def saveTo (m : MemSection) (snapshotAddr : UInt64) (copied : Option (List UInt8))
    (c : MemoryContext) : MemoryContext :=
  { c with
    memSectionMap := c.memSectionMap.put { m with snapshotAddr := snapshotAddr }
    snapshots := c.snapshots.insert snapshotAddr copied
    copies := c.copies ++ [.toSnapshot m.originAddr copied] }

def createSnapshot (calls : Calls) (m : MemSection) (c : MemoryContext) : Bool × MemoryContext :=
  if m.originAddr = 0 then (false, c)
  else
    match if m.snapshotAddr = 0 then calls.malloc else some m.snapshotAddr with
    | none => (false, c)
    | some snapshotAddr =>
      let copied := if c.memCopy calls then some (c.bytesOf m) else none
      (copied.isSome, c.saveTo m snapshotAddr copied)

def write (addr : UInt64) (bytes : List UInt8) (memory : UInt64 → UInt8) : UInt64 → UInt8 :=
  fun a => bytes.getD (a - addr).toNat (memory a)

def restoreFromSnapshot (calls : Calls) (m : MemSection) (c : MemoryContext) :
    Bool × MemoryContext :=
  if m.originAddr = 0 then (false, c)
  else if m.snapshotAddr = 0 then (false, c)
  else if c.memCopy calls then
    let bytes := (c.snapshots.lookup m.snapshotAddr).getD none
    (true, { c with
      memory := write m.originAddr (bytes.getD calls.garbage) c.memory
      copies := c.copies ++ [.toOrigin m.originAddr bytes] })
  else (false, c)

/-- The loop over the sections, which ends with the first that fails. -/
def forSections (f : MemSection → MemoryContext → Bool × MemoryContext) :
    List MemSection → MemoryContext → Bool × MemoryContext
  | [], c => (true, c)
  | m :: ms, c => if (f m c).1 then forSections f ms (f m c).2 else f m c

/-- The calls are told apart by the section they are for. -/
def saveSection (calls : UInt64 → Calls) (m : MemSection) (c : MemoryContext) :
    Bool × MemoryContext :=
  createSnapshot (calls m.originAddr) m (c.getCurrentStream (calls m.originAddr))

def restoreSection (calls : UInt64 → Calls) (m : MemSection) (c : MemoryContext) :
    Bool × MemoryContext :=
  restoreFromSnapshot (calls m.originAddr) m (c.getCurrentStream (calls m.originAddr))

def backup (calls : UInt64 → Calls) (c : MemoryContext) : Bool × MemoryContext :=
  forSections (saveSection calls) c.memSectionMap.elems c

def restore (calls : UInt64 → Calls) (c : MemoryContext) : Bool × MemoryContext :=
  forSections (restoreSection calls) c.memSectionMap.elems c

/-! ## Runs -/

/-- `run` is what the application and failed copies do to its memory. -/
inductive Event
  | run (memory : UInt64 → UInt8)
  | append (addr size : UInt64)
  | discard (addr : UInt64)
  | backup (calls : UInt64 → Calls)
  | restore (calls : UInt64 → Calls)

def step (c : MemoryContext) : Event → MemoryContext
  | .run memory => { c with memory := memory }
  | .append addr size => c.append addr size
  | .discard addr => c.discard addr
  | .backup calls => (c.backup calls).2
  | .restore calls => (c.restore calls).2

/-- A new buffer is not null and not one that has not been freed. -/
def Fresh (c : MemoryContext) : Event → Prop
  | .backup calls => ∀ m ∈ c.memSectionMap.elems, m.snapshotAddr = 0 →
    ∀ a ∈ (calls m.originAddr).malloc, a ≠ 0 ∧ c.snapshots.lookup a = none ∧
      ∀ m' ∈ c.memSectionMap.elems, m'.snapshotAddr = 0 → a ∈ (calls m'.originAddr).malloc → m' = m
  | _ => True

/-- The last copy of a section to its snapshot, whether it failed or not. -/
def lastBackup (addr : UInt64) (copies : List Copy) : Option (Option (List UInt8)) :=
  copies.foldl (fun last copy =>
    match copy with
    | .toSnapshot originAddr bytes => if originAddr = addr then some bytes else last
    | .toOrigin _ _ => last) none

/-- What the section held at the last one that succeeded. -/
def lastSaved (addr : UInt64) (copies : List Copy) : Option (List UInt8) :=
  copies.foldl (fun last copy =>
    match copy with
    | .toSnapshot originAddr (some bytes) => if originAddr = addr then some bytes else last
    | _ => last) none

/-- Every copy to a section has the bytes that were saved last. -/
def Faithful (copies : List Copy) : Prop :=
  ∀ n addr bytes, copies[n]? = some (.toOrigin addr bytes) →
    ∃ saved, bytes = some saved ∧ lastSaved addr (copies.take n) = some saved

/-- Restores are faithful, and every live snapshot buffer belongs to a section. -/
structure Sound (c : MemoryContext) : Prop where
  faithful : Faithful c.copies
  owned : ∀ a bytes, c.snapshots.lookup a = some bytes →
    ∃ m ∈ c.memSectionMap, m.snapshotAddr = a

/-- The sections that a `restore` copies to. -/
def restoredSections (calls : UInt64 → Calls) : List MemSection → MemoryContext → List MemSection
  | [], _ => []
  | m :: ms, c =>
    if (restoreSection calls m c).1 then m :: restoredSections calls ms (restoreSection calls m c).2
    else []

/-- No section with a snapshot is registered again, and the last copy to the snapshot of a
section that is restored has not failed. -/
def Safe (c : MemoryContext) : Event → Prop
  | .append addr _ => ∀ m ∈ c.memSectionMap.elems, m.originAddr = addr → m.snapshotAddr = 0
  | .restore calls => ∀ m ∈ restoredSections calls c.memSectionMap.elems c,
    lastBackup m.originAddr c.copies ≠ some none
  | _ => True

end MemoryContext
end Msopcom
