import Msopcom.MemoryContext

set_option autoImplicit false

/-!
# What a restore writes

A snapshot has the bytes of the last copy that was made to it, unless that copy failed.
-/
namespace Msopcom.MemoryContext
open KeyedList

/-! ## The copies so far -/

section Copies
variable {addr originAddr : UInt64} {bytes : Option (List UInt8)} {copies : List Copy}

theorem lastBackup_toSnapshot :
    lastBackup addr (copies ++ [.toSnapshot originAddr bytes]) =
      if originAddr = addr then some bytes else lastBackup addr copies := by
  rw [lastBackup, List.foldl_append]
  rfl

theorem lastBackup_toOrigin :
    lastBackup addr (copies ++ [.toOrigin originAddr bytes]) = lastBackup addr copies := by
  rw [lastBackup, List.foldl_append]
  rfl

theorem lastSaved_append (copy : Copy) :
    lastSaved addr (copies ++ [copy]) = match copy with
      | .toSnapshot originAddr (some bytes) =>
        if originAddr = addr then some bytes else lastSaved addr copies
      | _ => lastSaved addr copies := by
  rw [lastSaved, List.foldl_append]
  rfl

theorem lastSaved_of_lastBackup {saved : List UInt8}
    (h : lastBackup addr copies = some (some saved)) : lastSaved addr copies = some saved := by
  induction copies using List.reverseRecOn with
  | nil => cases h
  | append_singleton copies copy ih =>
    rw [lastSaved_append]
    cases copy with
    | toOrigin originAddr bytes =>
      rw [lastBackup_toOrigin] at h
      exact ih h
    | toSnapshot originAddr bytes =>
      rw [lastBackup_toSnapshot] at h
      by_cases haddr : originAddr = addr
      · rw [if_pos haddr, Option.some.injEq] at h
        rw [h]
        exact if_pos haddr
      · rw [if_neg haddr] at h
        cases bytes with
        | none => exact ih h
        | some bytes => exact (if_neg haddr).trans (ih h)

theorem faithful_concat {copy : Copy} :
    Faithful (copies ++ [copy]) ↔ Faithful copies ∧ ∀ addr bytes, copy = .toOrigin addr bytes →
      ∃ saved, bytes = some saved ∧ lastSaved addr copies = some saved := by
  constructor
  · intro h
    constructor
    · intro n addr bytes hn
      have hlt : n < copies.length := (List.getElem?_eq_some_iff.mp hn).1
      have hcopy := h n addr bytes (by rwa [List.getElem?_append_left hlt])
      rwa [List.take_append_of_le_length (le_of_lt hlt)] at hcopy
    · rintro addr bytes rfl
      have hcopy := h copies.length addr bytes List.getElem?_concat_length
      rwa [List.take_left] at hcopy
  · rintro ⟨hcopies, hcopy⟩ n addr bytes hn
    rcases Nat.lt_or_ge n copies.length with hlt | hge
    · rw [List.getElem?_append_left hlt] at hn
      rw [List.take_append_of_le_length (le_of_lt hlt)]
      exact hcopies n addr bytes hn
    · have hlen := (List.getElem?_eq_some_iff.mp hn).1
      rw [List.length_append, List.length_singleton] at hlen
      have heq : n = copies.length := by omega
      rw [heq, List.getElem?_concat_length, Option.some.injEq] at hn
      rw [heq, List.take_left]
      exact hcopy addr bytes hn

theorem faithful_toSnapshot :
    Faithful (copies ++ [.toSnapshot originAddr bytes]) ↔ Faithful copies := by
  rw [faithful_concat]
  exact and_iff_left fun _ _ h => by cases h

theorem faithful_restores (content : MemSection → Option (List UInt8)) (ms : List MemSection) :
    Faithful (copies ++ ms.map fun m => .toOrigin m.originAddr (content m)) ↔
      Faithful copies ∧
        ∀ m ∈ ms, ∃ saved, content m = some saved ∧ lastSaved m.originAddr copies = some saved := by
  induction ms generalizing copies with
  | nil => simp
  | cons m ms ih =>
    have hassoc : copies ++ (m :: ms).map (fun m => Copy.toOrigin m.originAddr (content m)) =
        (copies ++ [Copy.toOrigin m.originAddr (content m)]) ++
          ms.map fun m => Copy.toOrigin m.originAddr (content m) := by simp
    rw [hassoc, ih, faithful_concat, List.forall_mem_cons, and_assoc]
    refine and_congr_right fun _ => and_congr ?_ ?_
    · constructor
      · exact fun h => h _ _ rfl
      · rintro h addr bytes hcopy
        cases hcopy
        exact h
    · simp only [lastSaved_append]

end Copies

/-! ## The sections -/

section Sections
variable {c : MemoryContext}

theorem mem_put_iff {a m : MemSection} :
    m ∈ c.memSectionMap.put a ↔ m = a ∨ m ∈ c.memSectionMap ∧ m.originAddr ≠ a.originAddr := by
  rw [OrderedSet.mem_put_iff]
  refine or_congr_right (and_congr_right fun _ => ?_)
  constructor
  · rintro (hlt | hlt)
    · exact (UInt64.ne_of_lt hlt).symm
    · exact UInt64.ne_of_lt hlt
  · exact fun h => UInt64.lt_or_lt_of_ne h.symm

theorem eq_of_originAddr_eq {m m' : MemSection} (hm : m ∈ c.memSectionMap)
    (hm' : m' ∈ c.memSectionMap) (h : m.originAddr = m'.originAddr) : m = m' := by
  have hdistinct : Distinct MemSection.originAddr c.memSectionMap.elems :=
    c.memSectionMap.sorted.imp fun hbefore => UInt64.ne_of_lt hbefore
  exact hdistinct.eq_of_key_eq hm hm' h

/-- What the calls keep: the buffer of a section is live and has what was copied to it last. -/
structure Inv (c : MemoryContext) : Prop where
  origin : ∀ m ∈ c.memSectionMap, m.originAddr ≠ 0
  content : ∀ m ∈ c.memSectionMap, m.snapshotAddr ≠ 0 → ∃ bytes,
    c.snapshots.lookup m.snapshotAddr = some bytes ∧ lastBackup m.originAddr c.copies = some bytes
  distinct : ∀ m ∈ c.memSectionMap, ∀ m' ∈ c.memSectionMap, m.snapshotAddr ≠ 0 →
    m.snapshotAddr = m'.snapshotAddr → m = m'
  nonnull : c.snapshots.lookup 0 = none

theorem Inv.append (h : Inv c) (addr size : UInt64) : Inv (c.append addr size) := by
  unfold MemoryContext.append
  split_ifs with hnull
  · exact h
  · constructor
    case origin =>
      intro m hm
      rcases mem_put_iff.mp hm with rfl | ⟨hm, -⟩
      · exact hnull
      · exact h.origin m hm
    case content =>
      intro m hm hsnapshot
      rcases mem_put_iff.mp hm with rfl | ⟨hm, -⟩
      · exact absurd rfl hsnapshot
      · exact h.content m hm hsnapshot
    case distinct =>
      intro m hm m' hm' hsnapshot heq
      rcases mem_put_iff.mp hm with rfl | ⟨hm, -⟩
      · exact absurd rfl hsnapshot
      · rcases mem_put_iff.mp hm' with rfl | ⟨hm', -⟩
        · exact absurd heq hsnapshot
        · exact h.distinct m hm m' hm' hsnapshot heq
    case nonnull => exact h.nonnull

/-- A new section at the address of one with a snapshot drops the snapshot. -/
theorem sound_append_iff (h : Inv c) (hsound : Sound c) (addr size : UInt64) :
    Sound (c.append addr size) ↔ Safe c (.append addr size) := by
  have hnull : ∀ m ∈ c.memSectionMap.elems, m.originAddr ≠ 0 := h.origin
  unfold MemoryContext.append Safe
  split_ifs with haddr
  · exact iff_of_true hsound fun m hm heq => absurd (heq.trans haddr) (hnull m hm)
  · constructor
    · intro hsound' m hm heq
      by_contra hsnapshot
      obtain ⟨bytes, hlookup, -⟩ := h.content m hm hsnapshot
      obtain ⟨m', hm', heq'⟩ := hsound'.owned _ bytes hlookup
      rcases mem_put_iff.mp hm' with rfl | ⟨hm', hne⟩
      · exact hsnapshot heq'.symm
      · exact hne ((h.distinct m hm m' hm' hsnapshot heq'.symm).symm ▸ heq)
    · intro hsafe
      refine ⟨hsound.faithful, fun a bytes hlookup => ?_⟩
      obtain ⟨m, hm, rfl⟩ := hsound.owned a bytes hlookup
      refine ⟨m, mem_put_iff.mpr (.inr ⟨hm, fun heq => ?_⟩), rfl⟩
      rw [hsafe m hm heq, h.nonnull] at hlookup
      cases hlookup

theorem discard_eq (addr : UInt64) (c : MemoryContext) :
    c.discard addr = c ∨ ∃ m ∈ c.memSectionMap, m.originAddr = addr ∧ c.discard addr = { c with
      snapshots := if m.snapshotAddr ≠ 0 then c.snapshots.erase m.snapshotAddr else c.snapshots
      memSectionMap := c.memSectionMap.filter fun m => m.originAddr ≠ addr } := by
  unfold discard
  split
  · exact .inl rfl
  · next m hfind =>
    exact .inr ⟨m, List.mem_of_find?_eq_some hfind, by simpa using List.find?_some hfind, rfl⟩

theorem mem_filter_iff {addr : UInt64} {m : MemSection} :
    (m ∈ c.memSectionMap.filter fun m => m.originAddr ≠ addr) ↔
      m ∈ c.memSectionMap ∧ m.originAddr ≠ addr := by
  rw [OrderedSet.mem_def, OrderedSet.elems_filter, List.mem_filter, decide_eq_true_eq]
  exact Iff.rfl

/-- No live buffer is null, so a discarded section without a snapshot frees none. -/
theorem lookup_freed (hnull : c.snapshots.lookup 0 = none) (freed a : UInt64) :
    (if freed ≠ 0 then c.snapshots.erase freed else c.snapshots).lookup a =
      if a = freed then none else c.snapshots.lookup a := by
  by_cases hfreed : freed = 0
  · rw [if_neg (not_not.mpr hfreed), hfreed]
    split_ifs with ha
    · rw [ha, hnull]
    · rfl
  · rw [if_pos hfreed, lookup_erase_eq]

theorem Inv.discard (h : Inv c) (addr : UInt64) : Inv (c.discard addr) := by
  rcases discard_eq addr c with heq | ⟨m, hm, haddr, heq⟩
  · rw [heq]
    exact h
  · rw [heq]
    constructor
    case origin => exact fun m' hm' => h.origin m' (mem_filter_iff.mp hm').1
    case content =>
      intro m' hm' hsnapshot
      obtain ⟨hm', hne⟩ := mem_filter_iff.mp hm'
      obtain ⟨bytes, hlookup, hlast⟩ := h.content m' hm' hsnapshot
      refine ⟨bytes, ?_, hlast⟩
      rw [lookup_freed h.nonnull, if_neg, hlookup]
      exact fun heq => hne (h.distinct m' hm' m hm hsnapshot heq ▸ haddr)
    case distinct =>
      intro m' hm' m'' hm''
      exact h.distinct m' (mem_filter_iff.mp hm').1 m'' (mem_filter_iff.mp hm'').1
    case nonnull =>
      rw [lookup_freed h.nonnull]
      split_ifs
      · rfl
      · exact h.nonnull

theorem Sound.discard (hsound : Sound c) (h : Inv c) (addr : UInt64) : Sound (c.discard addr) := by
  rcases discard_eq addr c with heq | ⟨m, hm, haddr, heq⟩
  · rw [heq]
    exact hsound
  · rw [heq]
    refine ⟨hsound.faithful, fun a bytes hlookup => ?_⟩
    rw [lookup_freed h.nonnull] at hlookup
    split_ifs at hlookup with hfreed
    obtain ⟨m', hm', ha⟩ := hsound.owned a bytes hlookup
    refine ⟨m', mem_filter_iff.mpr ⟨hm', fun heq => hfreed ?_⟩, ha⟩
    rw [← ha, eq_of_originAddr_eq hm' hm (heq.trans haddr.symm)]

/-! ## Backup -/

/-- The address is that of the section's buffer, or of a new one for a section without. -/
structure BufferFor (c : MemoryContext) (m : MemSection) (snapshotAddr : UInt64) : Prop where
  nonnull : snapshotAddr ≠ 0
  own : snapshotAddr = m.snapshotAddr ∨
    m.snapshotAddr = 0 ∧ c.snapshots.lookup snapshotAddr = none

theorem BufferFor.ne {m : MemSection} {snapshotAddr : UInt64} (hbuffer : BufferFor c m snapshotAddr)
    (h : Inv c) (hm : m ∈ c.memSectionMap) {m' : MemSection} (hm' : m' ∈ c.memSectionMap)
    (hne : m'.originAddr ≠ m.originAddr) : m'.snapshotAddr ≠ snapshotAddr := by
  intro heq
  rcases hbuffer.own with hown | ⟨-, hnew⟩
  · have hsame := h.distinct m hm m' hm' (hown ▸ hbuffer.nonnull) (hown.symm.trans heq.symm)
    exact hne (hsame ▸ rfl)
  · obtain ⟨bytes, hlookup, -⟩ := h.content m' hm' (heq ▸ hbuffer.nonnull)
    rw [heq, hnew] at hlookup
    cases hlookup

theorem mem_saveTo_iff {m x : MemSection} {snapshotAddr : UInt64} {copied : Option (List UInt8)} :
    x ∈ (c.saveTo m snapshotAddr copied).memSectionMap ↔
      x = { m with snapshotAddr := snapshotAddr } ∨
        x ∈ c.memSectionMap ∧ x.originAddr ≠ m.originAddr := mem_put_iff

theorem Inv.saveTo (h : Inv c) {m : MemSection} (hm : m ∈ c.memSectionMap) {snapshotAddr : UInt64}
    (hbuffer : BufferFor c m snapshotAddr) (copied : Option (List UInt8)) :
    Inv (c.saveTo m snapshotAddr copied) := by
  constructor
  case origin =>
    intro x hx
    rcases mem_saveTo_iff.mp hx with rfl | ⟨hx, -⟩
    · exact h.origin m hm
    · exact h.origin x hx
  case content =>
    intro x hx hsnapshot
    unfold MemoryContext.saveTo
    rcases mem_saveTo_iff.mp hx with rfl | ⟨hx, hne⟩
    · refine ⟨copied, ?_, ?_⟩
      · rw [lookup_insert_eq, if_pos rfl]
      · rw [lastBackup_toSnapshot, if_pos rfl]
    · obtain ⟨bytes, hlookup, hlast⟩ := h.content x hx hsnapshot
      refine ⟨bytes, ?_, ?_⟩
      · rw [lookup_insert_eq, if_neg (hbuffer.ne h hm hx hne), hlookup]
      · rw [lastBackup_toSnapshot, if_neg hne.symm, hlast]
  case distinct =>
    intro x hx y hy hsnapshot heq
    rcases mem_saveTo_iff.mp hx with rfl | ⟨hx, hxne⟩
    · rcases mem_saveTo_iff.mp hy with rfl | ⟨hy, hyne⟩
      · rfl
      · exact absurd heq.symm (hbuffer.ne h hm hy hyne)
    · rcases mem_saveTo_iff.mp hy with rfl | ⟨hy, hyne⟩
      · exact absurd heq (hbuffer.ne h hm hx hxne)
      · exact h.distinct x hx y hy hsnapshot heq
  case nonnull =>
    unfold MemoryContext.saveTo
    rw [lookup_insert_eq, if_neg hbuffer.nonnull.symm, h.nonnull]

theorem Sound.saveTo (hsound : Sound c) {m : MemSection} (hm : m ∈ c.memSectionMap)
    {snapshotAddr : UInt64} (hbuffer : BufferFor c m snapshotAddr) (hnull : c.snapshots.lookup 0 = none)
    (copied : Option (List UInt8)) : Sound (c.saveTo m snapshotAddr copied) := by
  refine ⟨faithful_toSnapshot.mpr hsound.faithful, fun a bytes hlookup => ?_⟩
  unfold MemoryContext.saveTo at hlookup
  rw [lookup_insert_eq] at hlookup
  split_ifs at hlookup with ha
  · exact ⟨_, mem_saveTo_iff.mpr (.inl rfl), ha.symm⟩
  · obtain ⟨x, hx, hxa⟩ := hsound.owned a bytes hlookup
    refine ⟨x, mem_saveTo_iff.mpr (.inr ⟨hx, fun heq => ?_⟩), hxa⟩
    have hxm : x = m := eq_of_originAddr_eq hx hm heq
    rcases hbuffer.own with hown | ⟨hnone, -⟩
    · exact ha (by rw [← hxa, hxm, hown])
    · rw [← hxa, hxm, hnone, hnull] at hlookup
      cases hlookup

theorem createSnapshot_cases (calls : Calls) (m : MemSection) (c : MemoryContext) :
    createSnapshot calls m c = (false, c) ∨ ∃ snapshotAddr copied,
      (snapshotAddr = m.snapshotAddr ∧ m.snapshotAddr ≠ 0 ∨
        m.snapshotAddr = 0 ∧ snapshotAddr ∈ calls.malloc) ∧
      createSnapshot calls m c = (copied.isSome, c.saveTo m snapshotAddr copied) := by
  unfold createSnapshot
  by_cases horigin : m.originAddr = 0
  · rw [if_pos horigin]
    exact .inl rfl
  · rw [if_neg horigin]
    by_cases hsnapshot : m.snapshotAddr = 0
    · rw [if_pos hsnapshot]
      cases hmalloc : calls.malloc with
      | none => exact .inl rfl
      | some snapshotAddr => exact .inr ⟨snapshotAddr, _, .inr ⟨hsnapshot, rfl⟩, rfl⟩
    · rw [if_neg hsnapshot]
      exact .inr ⟨m.snapshotAddr, _, .inl ⟨rfl, hsnapshot⟩, rfl⟩

/-- What is kept of the sections before it is kept of the sections behind one. -/
theorem forSections_induction {f : MemSection → MemoryContext → Bool × MemoryContext}
    {P : List MemSection → MemoryContext → Prop}
    (hstep : ∀ m ms c, P (m :: ms) c → P ms (f m c).2) {ms : List MemSection} (hms : P ms c) :
    ∃ rest, P rest (forSections f ms c).2 := by
  induction ms generalizing c with
  | nil => exact ⟨[], hms⟩
  | cons m ms ih =>
    unfold forSections
    split_ifs
    · exact ih (hstep m ms c hms)
    · exact ⟨ms, hstep m ms c hms⟩

theorem getCurrentStream_eq (calls : Calls) (c : MemoryContext) :
    ∃ stream, c.getCurrentStream calls = { c with stream := stream } := by
  unfold getCurrentStream
  split_ifs
  · exact ⟨c.stream, rfl⟩
  · exact ⟨calls.defaultStream, rfl⟩

/-- The sections that are still to be saved, and the buffers that they will get. -/
structure Filling (calls : UInt64 → Calls) (ms : List MemSection) (c : MemoryContext) : Prop where
  inv : Inv c
  listed : ∀ m ∈ ms, m ∈ c.memSectionMap
  nodup : ms.Nodup
  fresh : ∀ m ∈ ms, m.snapshotAddr = 0 → ∀ a ∈ (calls m.originAddr).malloc,
    a ≠ 0 ∧ c.snapshots.lookup a = none ∧
      ∀ m' ∈ ms, m'.snapshotAddr = 0 → a ∈ (calls m'.originAddr).malloc → m' = m

theorem Filling.start (h : Inv c) {calls : UInt64 → Calls} (hfresh : Fresh c (.backup calls)) :
    Filling calls c.memSectionMap.elems c :=
  ⟨h, fun _ hm => hm,
    c.memSectionMap.sorted.imp fun hbefore => ne_of_apply_ne _ (UInt64.ne_of_lt hbefore), hfresh⟩

theorem Filling.getCurrentStream {calls : UInt64 → Calls} {ms : List MemSection}
    (h : Filling calls ms c) (call : Calls) : Filling calls ms (c.getCurrentStream call) := by
  obtain ⟨stream, heq⟩ := getCurrentStream_eq call c
  rw [heq]
  exact ⟨⟨h.inv.origin, h.inv.content, h.inv.distinct, h.inv.nonnull⟩, h.listed, h.nodup, h.fresh⟩

theorem Filling.bufferFor {calls : UInt64 → Calls} {m : MemSection} {ms : List MemSection}
    (h : Filling calls (m :: ms) c) {snapshotAddr : UInt64}
    (haddr : snapshotAddr = m.snapshotAddr ∧ m.snapshotAddr ≠ 0 ∨
      m.snapshotAddr = 0 ∧ snapshotAddr ∈ (calls m.originAddr).malloc) :
    BufferFor c m snapshotAddr := by
  rcases haddr with ⟨hown, hnonnull⟩ | ⟨hnone, hmalloc⟩
  · exact ⟨hown ▸ hnonnull, .inl hown⟩
  · obtain ⟨hnonnull, hnew, -⟩ := h.fresh m List.mem_cons_self hnone snapshotAddr hmalloc
    exact ⟨hnonnull, .inr ⟨hnone, hnew⟩⟩

theorem Filling.ne_of_mem {calls : UInt64 → Calls} {m x : MemSection} {ms : List MemSection}
    (h : Filling calls (m :: ms) c) (hx : x ∈ ms) : x.originAddr ≠ m.originAddr := by
  intro heq
  have hsame : x = m := eq_of_originAddr_eq (h.listed x (List.mem_cons_of_mem m hx))
    (h.listed m List.mem_cons_self) heq
  exact (List.nodup_cons.mp h.nodup).1 (hsame ▸ hx)

theorem Filling.tail {calls : UInt64 → Calls} {m : MemSection} {ms : List MemSection}
    (h : Filling calls (m :: ms) c) : Filling calls ms c :=
  ⟨h.inv, fun x hx => h.listed x (List.mem_cons_of_mem m hx), (List.nodup_cons.mp h.nodup).2,
    fun x hx hnone a ha =>
      have hfresh := h.fresh x (List.mem_cons_of_mem m hx) hnone a ha
      ⟨hfresh.1, hfresh.2.1, fun y hy => hfresh.2.2 y (List.mem_cons_of_mem m hy)⟩⟩

theorem Filling.saveTo {calls : UInt64 → Calls} {m : MemSection} {ms : List MemSection}
    (h : Filling calls (m :: ms) c) {snapshotAddr : UInt64}
    (haddr : snapshotAddr = m.snapshotAddr ∧ m.snapshotAddr ≠ 0 ∨
      m.snapshotAddr = 0 ∧ snapshotAddr ∈ (calls m.originAddr).malloc)
    (copied : Option (List UInt8)) : Filling calls ms (c.saveTo m snapshotAddr copied) := by
  have hm : m ∈ c.memSectionMap := h.listed m List.mem_cons_self
  constructor
  case inv => exact h.inv.saveTo hm (h.bufferFor haddr) copied
  case listed =>
    exact fun x hx => mem_saveTo_iff.mpr (.inr ⟨h.tail.listed x hx, h.ne_of_mem hx⟩)
  case nodup => exact h.tail.nodup
  case fresh =>
    intro x hx hnone a ha
    obtain ⟨hnonnull, hnew, honly⟩ := h.fresh x (List.mem_cons_of_mem m hx) hnone a ha
    refine ⟨hnonnull, ?_, fun y hy => honly y (List.mem_cons_of_mem m hy)⟩
    unfold MemoryContext.saveTo
    rw [lookup_insert_eq, if_neg, hnew]
    rintro rfl
    rcases haddr with ⟨hown, hsnapshot⟩ | ⟨hmnone, hmalloc⟩
    · obtain ⟨bytes, hlookup, -⟩ := h.inv.content m hm hsnapshot
      rw [← hown, hnew] at hlookup
      cases hlookup
    · have hsame := honly m List.mem_cons_self hmnone hmalloc
      exact h.ne_of_mem hx (hsame ▸ rfl)

/-- The state in the middle of a `backup`, with the sections that are still to be saved. -/
structure Saving (calls : UInt64 → Calls) (ms : List MemSection) (c : MemoryContext) : Prop
    extends Filling calls ms c where
  sound : Sound c

theorem Saving.getCurrentStream {calls : UInt64 → Calls} {ms : List MemSection}
    (h : Saving calls ms c) (call : Calls) : Saving calls ms (c.getCurrentStream call) := by
  refine ⟨h.toFilling.getCurrentStream call, ?_⟩
  obtain ⟨stream, heq⟩ := getCurrentStream_eq call c
  rw [heq]
  exact ⟨h.sound.faithful, h.sound.owned⟩

theorem Filling.createSnapshot {calls : UInt64 → Calls} {m : MemSection} {ms : List MemSection}
    (h : Filling calls (m :: ms) c) :
    Filling calls ms (createSnapshot (calls m.originAddr) m c).2 := by
  rcases createSnapshot_cases (calls m.originAddr) m c with
    heq | ⟨snapshotAddr, copied, haddr, heq⟩
  · rw [heq]
    exact h.tail
  · rw [heq]
    exact h.saveTo haddr copied

theorem Saving.createSnapshot {calls : UInt64 → Calls} {m : MemSection} {ms : List MemSection}
    (h : Saving calls (m :: ms) c) :
    Saving calls ms (createSnapshot (calls m.originAddr) m c).2 := by
  refine ⟨h.toFilling.createSnapshot, ?_⟩
  rcases createSnapshot_cases (calls m.originAddr) m c with
    heq | ⟨snapshotAddr, copied, haddr, heq⟩
  · rw [heq]
    exact h.sound
  · rw [heq]
    exact h.sound.saveTo (h.listed m List.mem_cons_self) (h.bufferFor haddr) h.inv.nonnull copied

theorem Inv.backup (h : Inv c) {calls : UInt64 → Calls} (hfresh : Fresh c (.backup calls)) :
    Inv (c.backup calls).2 := by
  obtain ⟨rest, hend⟩ := forSections_induction (f := saveSection calls)
    (fun m ms c hms => (hms.getCurrentStream (calls m.originAddr)).createSnapshot)
    (Filling.start h hfresh)
  exact hend.inv

theorem Sound.backup (hsound : Sound c) (h : Inv c) {calls : UInt64 → Calls}
    (hfresh : Fresh c (.backup calls)) : Sound (c.backup calls).2 := by
  obtain ⟨rest, hend⟩ := forSections_induction (f := saveSection calls)
    (fun m ms c hms => (hms.getCurrentStream (calls m.originAddr)).createSnapshot)
    (show Saving calls _ c from ⟨Filling.start h hfresh, hsound⟩)
  exact hend.sound

/-! ## Restore -/

theorem restoreSection_cases (calls : UInt64 → Calls) (m : MemSection) (c : MemoryContext) :
    (∃ stream, restoreSection calls m c = (false, { c with stream := stream })) ∨
      m.snapshotAddr ≠ 0 ∧ ∃ memory stream, restoreSection calls m c = (true, { c with
        memory := memory
        stream := stream
        copies := c.copies ++
          [.toOrigin m.originAddr ((c.snapshots.lookup m.snapshotAddr).getD none)] }) := by
  obtain ⟨stream, hstream⟩ := getCurrentStream_eq (calls m.originAddr) c
  unfold restoreSection restoreFromSnapshot
  rw [hstream]
  split_ifs with horigin hsnapshot hcopy
  · exact .inl ⟨stream, rfl⟩
  · exact .inl ⟨stream, rfl⟩
  · exact .inr ⟨hsnapshot, _, stream, rfl⟩
  · exact .inl ⟨stream, rfl⟩

/-- A `restore` copies the buffers of the sections that it comes to, and nothing else
changes but the memory and the stream. -/
theorem forSections_restore (calls : UInt64 → Calls) (ms : List MemSection) (c : MemoryContext) :
    ∃ memory stream, (forSections (restoreSection calls) ms c).2 = { c with
      memory := memory
      stream := stream
      copies := c.copies ++ (restoredSections calls ms c).map fun m =>
        .toOrigin m.originAddr ((c.snapshots.lookup m.snapshotAddr).getD none) } := by
  induction ms generalizing c with
  | nil =>
    refine ⟨c.memory, c.stream, ?_⟩
    simp [forSections, restoredSections]
  | cons m ms ih =>
    rw [forSections, restoredSections]
    rcases restoreSection_cases calls m c with ⟨stream, heq⟩ | ⟨-, memory, stream, heq⟩
    · rw [heq]
      refine ⟨c.memory, stream, ?_⟩
      simp
    · rw [heq]
      obtain ⟨memory', stream', hih⟩ := ih { c with
        memory := memory
        stream := stream
        copies := c.copies ++
          [.toOrigin m.originAddr ((c.snapshots.lookup m.snapshotAddr).getD none)] }
      refine ⟨memory', stream', ?_⟩
      rw [if_pos rfl, if_pos rfl, hih, List.map_cons, List.append_assoc, List.singleton_append]

theorem snapshot_of_mem_restoredSections {calls : UInt64 → Calls} {ms : List MemSection}
    {m : MemSection} (h : m ∈ restoredSections calls ms c) : m ∈ ms ∧ m.snapshotAddr ≠ 0 := by
  induction ms generalizing c with
  | nil => cases h
  | cons x ms ih =>
    rw [restoredSections] at h
    rcases restoreSection_cases calls x c with ⟨stream, heq⟩ | ⟨hsnapshot, memory, stream, heq⟩
    · rw [heq] at h
      cases h
    · rw [heq, if_pos rfl] at h
      rcases List.mem_cons.mp h with rfl | h
      · exact ⟨List.mem_cons_self, hsnapshot⟩
      · exact ⟨List.mem_cons_of_mem x (ih h).1, (ih h).2⟩

theorem Inv.restore (h : Inv c) (calls : UInt64 → Calls) : Inv (c.restore calls).2 := by
  obtain ⟨memory, stream, heq⟩ := forSections_restore calls c.memSectionMap.elems c
  unfold MemoryContext.restore
  rw [heq]
  have hlast (content : MemSection → Option (List UInt8)) (addr : UInt64) (ms : List MemSection)
      (copies : List Copy) : lastBackup addr (copies ++ ms.map fun m =>
        .toOrigin m.originAddr (content m)) = lastBackup addr copies := by
    induction ms generalizing copies with
    | nil => simp
    | cons m ms ih =>
      rw [List.map_cons, List.append_cons, ih, lastBackup_toOrigin]
  refine ⟨h.origin, fun m hm hsnapshot => ?_, h.distinct, h.nonnull⟩
  obtain ⟨bytes, hlookup, hbytes⟩ := h.content m hm hsnapshot
  exact ⟨bytes, hlookup, (hlast _ _ _ _).trans hbytes⟩

theorem sound_restore_iff (h : Inv c) (hsound : Sound c) (calls : UInt64 → Calls) :
    Sound (c.restore calls).2 ↔ Safe c (.restore calls) := by
  obtain ⟨memory, stream, heq⟩ := forSections_restore calls c.memSectionMap.elems c
  unfold MemoryContext.restore
  rw [heq]
  have hsaved : ∀ m ∈ restoredSections calls c.memSectionMap.elems c,
      ((∃ saved, (c.snapshots.lookup m.snapshotAddr).getD none = some saved ∧
        lastSaved m.originAddr c.copies = some saved) ↔
          lastBackup m.originAddr c.copies ≠ some none) := by
    intro m hm
    obtain ⟨hm, hsnapshot⟩ := snapshot_of_mem_restoredSections hm
    obtain ⟨bytes, hlookup, hlast⟩ := h.content m hm hsnapshot
    rw [hlookup, hlast]
    cases bytes with
    | none => exact iff_of_false (fun ⟨_, hcontent, _⟩ => by cases hcontent) fun hne => hne rfl
    | some saved =>
      exact iff_of_true ⟨saved, rfl, lastSaved_of_lastBackup hlast⟩ fun heq => by cases heq
  constructor
  · intro hsound' m hm
    exact (hsaved m hm).mp (((faithful_restores _ _).mp hsound'.faithful).2 m hm)
  · intro hsafe
    refine ⟨(faithful_restores _ _).mpr ⟨hsound.faithful, fun m hm => ?_⟩, hsound.owned⟩
    exact (hsaved m hm).mpr (hsafe m hm)

end Sections

/-! ## Whole runs -/

theorem inv_start (memory : UInt64 → UInt8) : Inv { memory := memory } := by
  refine ⟨?_, ?_, ?_, rfl⟩ <;> exact fun m hm => by cases hm

theorem sound_start (memory : UInt64 → UInt8) : Sound { memory := memory } := by
  constructor
  · intro n addr bytes hn
    simp at hn
  · intro a bytes hlookup
    cases hlookup

theorem inv_step {c : MemoryContext} {e : Event} (hfresh : Fresh c e) (h : Inv c) :
    Inv (step c e) := by
  cases e with
  | run memory => exact ⟨h.origin, h.content, h.distinct, h.nonnull⟩
  | append addr size => exact h.append addr size
  | discard addr => exact h.discard addr
  | backup calls => exact h.backup hfresh
  | restore calls => exact h.restore calls

theorem sound_step_iff {c : MemoryContext} {e : Event} (hfresh : Fresh c e) (h : Inv c)
    (hsound : Sound c) : Sound (step c e) ↔ Safe c e := by
  cases e with
  | run memory => exact iff_of_true ⟨hsound.faithful, hsound.owned⟩ trivial
  | append addr size => exact sound_append_iff h hsound addr size
  | discard addr => exact iff_of_true (hsound.discard h addr) trivial
  | backup calls => exact iff_of_true (hsound.backup h hfresh) trivial
  | restore calls => exact sound_restore_iff h hsound calls

/-- In every state of a run restores are faithful and no live snapshot is dropped exactly
when every step is safe. -/
theorem sound_iff (memory : UInt64 → UInt8) (events : List Event)
    (hfresh : Runs.Guarded step Fresh { memory := memory } events) :
    (∀ n, Sound ((events.take n).foldl step { memory := memory })) ↔
      Runs.Guarded step Safe { memory := memory } events :=
  Runs.guarded_iff_invariant_of (fun _ _ hfresh h _ => inv_step hfresh h)
    (fun _ _ hfresh h hsound => sound_step_iff hfresh h hsound) hfresh (inv_start memory)
    (sound_start memory)

def savingCalls : UInt64 → Calls := fun _ => { defaultStream := 7, malloc := some 0x9000 }

/-- A section is saved, overwritten, restored and given back. -/
def replay : List Event :=
  [.append 0x100 4, .backup savingCalls, .run fun _ => 1, .restore savingCalls, .discard 0x100]

theorem sound_replay :
    (∀ n, Sound ((replay.take n).foldl step { memory := fun _ => 0 })) ↔
      Runs.Guarded step Safe { memory := fun _ => 0 } replay := by
  refine sound_iff (fun _ => 0) replay ⟨trivial, ?_, trivial, trivial, trivial, trivial⟩
  intro m hm hsnapshot a ha
  cases ha
  refine ⟨by decide, rfl, fun m' hm' _ _ => ?_⟩
  rw [List.mem_singleton.mp hm, List.mem_singleton.mp hm']

def failingCalls : UInt64 → Calls :=
  fun _ => { malloc := some 0x9000, memcpy := false, garbage := [0xAB, 0xAB] }

/-- The buffer is there, but nothing was copied to it before the section is restored. -/
def unsavedReplay : List Event :=
  [.append 0x100 2, .backup failingCalls, .restore fun _ => { garbage := [0xAB, 0xAB] }]

theorem unsaved_snapshot_restored :
    Runs.Guarded step Fresh { memory := fun _ => 0 } unsavedReplay ∧
      (unsavedReplay.foldl step { memory := fun _ => 0 }).copies =
        [.toSnapshot 0x100 none, .toOrigin 0x100 none] ∧
      (unsavedReplay.foldl step { memory := fun _ => 0 }).memory 0x101 = 0xAB ∧
      ¬ Sound (unsavedReplay.foldl step { memory := fun _ => 0 }) := by
  have hcopies : (unsavedReplay.foldl step { memory := fun _ => 0 }).copies =
      [.toSnapshot 0x100 none, .toOrigin 0x100 none] := by decide
  refine ⟨⟨trivial, ?_, trivial, trivial⟩, hcopies, by decide, fun h => ?_⟩
  · intro m hm hsnapshot a ha
    cases ha
    refine ⟨by decide, rfl, fun m' hm' _ _ => ?_⟩
    rw [List.mem_singleton.mp hm, List.mem_singleton.mp hm']
  · have hrestored := h.faithful
    rw [hcopies] at hrestored
    obtain ⟨saved, hbytes, -⟩ := hrestored 1 0x100 none rfl
    cases hbytes

end Msopcom.MemoryContext
