import Msopcom.ReplayMemory

set_option autoImplicit false

/-!
# Kernel replay and the application

The calls of a launch, in any run in which they succeed, against the kernel applied once.
-/
namespace Msopcom.KernelReplay
open MemoryContext

/-- The event carries out the operation, and its calls succeed. A kernel may do anything to
memory that is not registered in `c₀`. -/
def Performs (c₀ : MemoryContext) (kernel : Allocations c₀ → Allocations c₀) (c : MemoryContext) :
    DeviceOp → Event → Prop
  | .save, .backup calls => Fresh c (.backup calls) ∧ (c.backup calls).1 = true
  | .act _, .run memory => c₀.contents memory = kernel (c₀.contents c.memory)
  | .restore, .restore calls => (c.restore calls).1 = true
  | _, _ => False

def PerformsAll (c₀ : MemoryContext) (kernel : Allocations c₀ → Allocations c₀) :
    MemoryContext → List DeviceOp → List Event → Prop
  | _, [], [] => True
  | c, op :: ops, e :: events =>
    Performs c₀ kernel c op e ∧ PerformsAll c₀ kernel (MemoryContext.step c e) ops events
  | _, _, _ => False

/-- The state of the application before the launch. -/
def before (memory : UInt64 → UInt8) (history : List Event) : MemoryContext :=
  history.foldl MemoryContext.step { memory := memory }

/-- The allocations are as if the kernel had run once. -/
def Transparent (c : MemoryContext) (kernel : Allocations c → Allocations c)
    (events : List Event) : Prop :=
  c.contents (events.foldl MemoryContext.step c).memory = kernel (c.contents c.memory)

section Tracking
variable {c c₀ : MemoryContext} {kernel : Allocations c₀ → Allocations c₀}

/-- The device is in the abstract state, with the snapshots that it has. -/
structure Tracks (s : Checkpoint.State (Allocations c₀)) (c : MemoryContext) : Prop where
  inv : Inv c
  sections : SameSections c c₀
  current : c₀.contents c.memory = s.current
  saved : ∀ x, s.saved = some x → Snapshots x c

theorem Tracks.start (h : Inv c) : Tracks ⟨c.contents c.memory, none⟩ c :=
  ⟨h, fun _ _ => Iff.rfl, rfl, fun _ hsaved => by cases hsaved⟩

theorem Tracks.run_memory {s : Checkpoint.State (Allocations c₀)} (h : Tracks s c)
    {memory : UInt64 → UInt8} (hmemory : c₀.contents memory = kernel (c₀.contents c.memory)) :
    Tracks ⟨kernel s.current, s.saved⟩ { c with memory := memory } := by
  refine ⟨⟨h.inv.origin, h.inv.content, h.inv.distinct, h.inv.nonnull⟩, h.sections, ?_, ?_⟩
  · rw [← h.current, ← hmemory]
  · intro x hx
    have hsaved := h.saved x hx
    exact ⟨⟨h.inv.origin, h.inv.content, h.inv.distinct, h.inv.nonnull⟩, h.sections,
      hsaved.saved⟩

theorem Tracks.backup {s : Checkpoint.State (Allocations c₀)} (h : Tracks s c)
    {calls : UInt64 → Calls} (hfresh : Fresh c (.backup calls))
    (hok : (c.backup calls).1 = true) :
    Tracks ⟨s.current, some s.current⟩ (c.backup calls).2 := by
  have hstart : Filled calls c.memSectionMap.elems c c :=
    ⟨Filling.start h.inv hfresh, rfl, fun _ _ => Iff.rfl, fun x hx => .inl hx⟩
  have hend : Filled calls [] c (c.backup calls).2 := hstart.run hok
  have hsections : SameSections (c.backup calls).2 c₀ :=
    fun addr size => (hend.sections addr size).trans (h.sections addr size)
  refine ⟨hend.inv, hsections, by rw [hend.memory, h.current], ?_⟩
  rintro x ⟨⟩
  refine ⟨hend.inv, hsections, fun m hm => ?_⟩
  obtain ⟨hsnapshot, hlast⟩ := (hend.done m hm).resolve_left (List.not_mem_nil)
  refine ⟨hsnapshot, _, hlast, fun a => ?_⟩
  rw [getElem?_bytesOf, hend.memory, ← h.current]
  rfl

theorem Tracks.restore {current x : Allocations c₀} (h : Tracks ⟨current, some x⟩ c)
    {calls : UInt64 → Calls} (hok : (c.restore calls).1 = true) :
    Tracks ⟨x, some x⟩ (c.restore calls).2 := by
  obtain ⟨hsnapshots, hwritten⟩ := (h.saved x rfl).restore (fun _ hm => hm) hok
  refine ⟨hsnapshots.inv, hsnapshots.sections, ?_, ?_⟩
  · funext a
    exact hwritten a (.inl (h.sections.covers a.2))
  · rintro y ⟨⟩
    exact hsnapshots

theorem Tracks.step {s s' : Checkpoint.State (Allocations c₀)} {op : DeviceOp} {e : Event}
    (h : Tracks s c) (hperforms : Performs c₀ kernel c op e)
    (hstep : Checkpoint.step (fun _ => kernel) s op = some s') :
    Tracks s' (MemoryContext.step c e) := by
  cases op with
  | save =>
    cases e with
    | backup calls =>
      cases hstep
      exact h.backup hperforms.1 hperforms.2
    | _ => exact hperforms.elim
  | act hdl =>
    cases e with
    | run memory =>
      cases hstep
      exact h.run_memory hperforms
    | _ => exact hperforms.elim
  | restore =>
    cases e with
    | restore calls =>
      obtain ⟨x, hx, rfl⟩ := Option.map_eq_some_iff.mp hstep
      obtain ⟨current, saved⟩ := s
      subst hx
      exact h.restore hperforms
    | _ => exact hperforms.elim

theorem Tracks.run {s s' : Checkpoint.State (Allocations c₀)} {ops : List DeviceOp}
    {events : List Event} (h : Tracks s c) (hperforms : PerformsAll c₀ kernel c ops events)
    (hrun : Checkpoint.run (fun _ => kernel) ops s = some s') :
    Tracks s' (events.foldl MemoryContext.step c) := by
  induction ops generalizing c s events with
  | nil =>
    cases events with
    | nil =>
      cases hrun
      exact h
    | cons e events => exact hperforms.elim
  | cons op ops ih =>
    cases events with
    | nil => exact hperforms.elim
    | cons e events =>
      rw [Checkpoint.run_cons] at hrun
      obtain ⟨t, hstep, hrun⟩ := Option.bind_eq_some_iff.mp hrun
      have hnext := h.step hperforms.1 hstep
      rw [List.foldl_cons]
      exact ih hnext hperforms.2 hrun

end Tracking

section Transparency
variable {c : MemoryContext}

theorem contents_of_performsAll (h : Inv c) {kernel : Allocations c → Allocations c} (l : Launch)
    {events : List Event} (hperforms : PerformsAll c kernel c (call l) events) :
    c.contents (events.foldl MemoryContext.step c).memory =
      kernel^[furtherLaunches l] (kernel (c.contents c.memory)) := by
  have hlaunches : Launches kernel (call l) _ := launches_call l
  obtain ⟨saved, hrun⟩ := hlaunches ⟨c.contents c.memory, none⟩
  have hend := ((Tracks.start h).run hperforms hrun).current
  rw [hend, Function.iterate_succ_apply]

theorem inv_before {memory : UInt64 → UInt8} {history : List Event}
    (hfresh : Runs.Guarded MemoryContext.step Fresh { memory := memory } history) :
    Inv (before memory history) :=
  hfresh.invariant (fun _ _ h hfresh => inv_step hfresh h) (inv_start memory)

/-- The sections have buffers already, so nothing is left that could fail. -/
def Buffered (c : MemoryContext) : Prop :=
  ∀ m ∈ c.memSectionMap, m.originAddr ≠ 0 ∧ m.snapshotAddr ≠ 0

theorem forSections_of_forall {P : MemoryContext → Prop}
    {f : MemSection → MemoryContext → Bool × MemoryContext} {ms : List MemSection}
    (hstep : ∀ m ∈ ms, ∀ c, P c → (f m c).1 = true ∧ P (f m c).2) (hc : P c) :
    (forSections f ms c).1 = true ∧ P (forSections f ms c).2 := by
  induction ms generalizing c with
  | nil => exact ⟨rfl, hc⟩
  | cons m ms ih =>
    obtain ⟨hok, hnext⟩ := hstep m List.mem_cons_self c hc
    unfold forSections
    rw [if_pos hok]
    exact ih (fun m' hm' => hstep m' (List.mem_cons_of_mem m hm')) hnext

theorem memCopy_default (c : MemoryContext) : c.memCopy {} = true := by
  unfold memCopy
  split_ifs <;> rfl

theorem Buffered.backup (h : Buffered c) :
    (c.backup fun _ => {}).1 = true ∧ Buffered (c.backup fun _ => {}).2 := by
  refine forSections_of_forall (fun m hm c hc => ?_) h
  obtain ⟨horigin, hsnapshot⟩ := h m hm
  obtain ⟨stream, hstream⟩ := getCurrentStream_eq {} c
  unfold saveSection createSnapshot
  rw [hstream, if_neg horigin, if_neg hsnapshot]
  simp only [memCopy_default, if_true, Option.isSome_some, true_and]
  intro x hx
  rcases mem_saveTo_iff.mp hx with rfl | ⟨hx, -⟩
  · exact ⟨horigin, hsnapshot⟩
  · exact hc x hx

theorem Buffered.restore (h : Buffered c) :
    (c.restore fun _ => {}).1 = true ∧ Buffered (c.restore fun _ => {}).2 := by
  refine forSections_of_forall (fun m hm c hc => ?_) h
  obtain ⟨horigin, hsnapshot⟩ := h m hm
  obtain ⟨stream, hstream⟩ := getCurrentStream_eq {} c
  unfold restoreSection restoreFromSnapshot
  rw [hstream, if_neg horigin, if_neg hsnapshot, memCopy_default, if_pos rfl]
  exact ⟨rfl, hc⟩

theorem exists_contents_eq (c : MemoryContext) (x : Allocations c) :
    ∃ memory, c.contents memory = x := by
  classical
  refine ⟨fun a => if ha : c.Registered a then x ⟨a, ha⟩ else 0, ?_⟩
  funext a
  exact dif_pos a.2

theorem exists_performsAll {c₀ : MemoryContext} (h : Buffered c)
    (kernel : Allocations c₀ → Allocations c₀) (ops : List DeviceOp) :
    ∃ events, PerformsAll c₀ kernel c ops events := by
  have hfresh (c : MemoryContext) (h : Buffered c) : Fresh c (.backup fun _ => {}) :=
    fun m hm hnone => absurd hnone (h m hm).2
  induction ops generalizing c with
  | nil => exact ⟨[], trivial⟩
  | cons op ops ih =>
    cases op with
    | save =>
      obtain ⟨events, hevents⟩ := ih h.backup.2
      exact ⟨.backup (fun _ => {}) :: events, ⟨hfresh c h, h.backup.1⟩, hevents⟩
    | act hdl =>
      obtain ⟨memory, hmemory⟩ := exists_contents_eq c₀ (kernel (c₀.contents c.memory))
      obtain ⟨events, hevents⟩ := ih (c := { c with memory := memory }) h
      exact ⟨.run memory :: events, hmemory, hevents⟩
    | restore =>
      obtain ⟨events, hevents⟩ := ih h.restore.2
      exact ⟨.restore (fun _ => {}) :: events, h.restore.1, hevents⟩

/-- One section, which has been saved before. -/
def savedHistory : List Event := [.append 0x100 1, .backup savingCalls]

theorem fresh_savedHistory :
    Runs.Guarded MemoryContext.step Fresh { memory := fun _ => 0 } savedHistory := by
  refine ⟨trivial, ?_, trivial⟩
  intro m hm hsnapshot a ha
  cases ha
  refine ⟨by decide, rfl, fun m' hm' _ _ => ?_⟩
  rw [List.mem_singleton.mp hm, List.mem_singleton.mp hm']

theorem elems_savedHistory :
    (before (fun _ => 0) savedHistory).memSectionMap.elems = [⟨0x100, 0x9000, 1⟩] := by decide

theorem buffered_savedHistory : Buffered (before (fun _ => 0) savedHistory) := by
  intro m hm
  rw [OrderedSet.mem_def, elems_savedHistory, List.mem_singleton] at hm
  subst hm
  decide

theorem registered_savedHistory : (before (fun _ => 0) savedHistory).Registered 0x100 := by
  unfold Registered
  rw [elems_savedHistory]
  exact ⟨_, List.mem_singleton_self _, by decide⟩

/-- A kernel that adds one to each byte. -/
def increment (c : MemoryContext) (x : Allocations c) : Allocations c := fun a => x a + 1

theorem iterate_increment (n : Nat) (x : Allocations c) (a : {a // c.Registered a}) :
    (increment c)^[n] x a = x a + UInt8.ofNat n := by
  induction n generalizing x with
  | zero => simp
  | succ n ih =>
    rw [Function.iterate_succ_apply, ih, increment, UInt8.ofNat_add, UInt8.add_assoc,
      UInt8.add_comm 1]
    rfl

end Transparency

/-- Only the timeline is on. -/
def timelineLaunch : Launch := { config := { dbiFlag := ProfDBIType.instrProfEnd.dbiFlag } }

end Msopcom.KernelReplay
