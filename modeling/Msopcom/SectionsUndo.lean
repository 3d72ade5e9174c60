import Msopcom.SanitizerLaunchScope

set_option autoImplicit false

/-!
# What the frees of sections take back

Every header counts when its section is stored, a repeated one too, and only a section whose
address is inside the address space is freed.
-/
namespace Msopcom.SectionsUndo
open MemoryManage MemoryManageFrame SanitizerLaunchScope

variable {m : MemoryManage} {pcStartAddr : UInt64} {headers : List Elf64Shdr}

/-- What a header says of where its section is. -/
def extent (h : Elf64Shdr) : UInt64 × UInt64 := (h.shAddr, h.shSize)

def sectionRecord (pcStartAddr : UInt64) (e : UInt64 × UInt64) : AddrInfo :=
  ⟨pcStartAddr + e.1, e.2, .bypass, .default, 0⟩

/-- No record of the sections' class is stored at their addresses. -/
def Unrecorded (m : MemoryManage) (pcStartAddr : UInt64) (headers : List Elf64Shdr) : Prop :=
  ∀ it ∈ m.memoryOpAddrInfos, ∀ h ∈ headers, it.addr = pcStartAddr + h.shAddr →
    isSameMemInfoSrc it.memInfoSrc .bypass = false

/-- How many headers repeat the address and the size of another. -/
def repeats (headers : List Elf64Shdr) : ℕ :=
  headers.length - (headers.map extent).dedup.length

/-- By how much the counter is ahead of the number of records. -/
def surplus (m : MemoryManage) : UInt32 :=
  m.mallocCount - UInt32.ofNat m.memoryOpAddrInfos.size

/-! ## The sections are stored -/

theorem before_or_before {a b : AddrInfo}
    (h : a.addr ≠ b.addr ∨ a.length ≠ b.length ∨ a.memInfoSrc ≠ b.memInfoSrc) :
    a.Before b ∨ b.Before a := by
  by_contra hno
  rw [not_or] at hno
  obtain ⟨haddr, hlength, hsrc⟩ := AddrInfo.eq_of_not_before hno.1 hno.2
  simp [haddr, hlength, hsrc] at h

theorem sectionRecord_injective (pcStartAddr : UInt64) :
    Function.Injective (sectionRecord pcStartAddr) := by
  intro p q hpq
  have haddr : pcStartAddr + p.1 = pcStartAddr + q.1 := congrArg AddrInfo.addr hpq
  have hsize : p.2 = q.2 := congrArg AddrInfo.length hpq
  exact Prod.ext ((UInt64.add_right_inj pcStartAddr).mp haddr) hsize

theorem mallocs_set (hpc : pcStartAddr ≠ 0) :
    ((sectionMallocs pcStartAddr headers).foldl MemoryOp.apply m).memoryOpAddrInfos =
      ((headers.map extent).map (sectionRecord pcStartAddr)).foldl OrderedSet.insert
        m.memoryOpAddrInfos := by
  rw [memoryOpAddrInfos_run, sectionMallocs, if_neg hpc]
  simp only [List.foldl_map]
  rfl

theorem mallocs_count (hpc : pcStartAddr ≠ 0) :
    ((sectionMallocs pcStartAddr headers).foldl MemoryOp.apply m).mallocCount =
      m.mallocCount + UInt32.ofNat headers.length := by
  rw [sectionMallocs, if_neg hpc]
  induction headers generalizing m with
  | nil => exact (UInt32.add_zero m.mallocCount).symm
  | cons h headers ih =>
    rw [List.map_cons, List.foldl_cons, ih, List.length_cons, UInt32.ofNat_add]
    change m.mallocCount + 1 + _ = m.mallocCount + (_ + 1)
    rw [UInt32.add_assoc, UInt32.add_comm 1]

/-- The sections are new to the table, which grows by the different ones. -/
theorem mallocs_new (hpc : pcStartAddr ≠ 0) (hnew : Unrecorded m pcStartAddr headers) :
    ((sectionMallocs pcStartAddr headers).foldl MemoryOp.apply m).memoryOpAddrInfos.size +
        repeats headers = m.memoryOpAddrInfos.size + headers.length ∧
      ∀ h ∈ headers, sectionRecord pcStartAddr (extent h) ∈
        ((sectionMallocs pcStartAddr headers).foldl MemoryOp.apply m).memoryOpAddrInfos := by
  have hinsert := @OrderedSet.size_foldl_insert _ _ _ _ _ m.memoryOpAddrInfos
    ((headers.map extent).map (sectionRecord pcStartAddr)) ?_ ?_
  · rw [mallocs_set hpc, hinsert.1,
      List.dedup_map_of_injective (sectionRecord_injective pcStartAddr), List.length_map, repeats]
    have hle : (headers.map extent).dedup.length ≤ headers.length :=
      (List.dedup_sublist _).length_le.trans_eq (List.length_map extent)
    refine ⟨by omega, fun h hh => (hinsert.2 _).mpr (.inl ?_)⟩
    exact List.mem_map_of_mem (List.mem_map_of_mem hh)
  · intro it hit a ha
    obtain ⟨e, he, rfl⟩ := List.mem_map.mp ha
    obtain ⟨h, hh, rfl⟩ := List.mem_map.mp he
    by_cases haddr : it.addr = pcStartAddr + h.shAddr
    · refine before_or_before (.inr (.inr fun hsrc => ?_))
      have hother := hnew it hit h hh haddr
      rw [← hsrc] at hother
      cases hother
    · exact before_or_before (.inl (Ne.symm haddr))
  · intro a ha b hb hne
    obtain ⟨e, he, rfl⟩ := List.mem_map.mp ha
    obtain ⟨e', he', rfl⟩ := List.mem_map.mp hb
    by_cases haddr : pcStartAddr + e'.1 = pcStartAddr + e.1
    · refine before_or_before (.inr (.inl fun hlength => hne ?_))
      rw [Prod.ext ((UInt64.add_right_inj pcStartAddr).mp haddr) hlength]
    · exact before_or_before (.inl haddr)

theorem surplus_mallocs (hpc : pcStartAddr ≠ 0) (hnew : Unrecorded m pcStartAddr headers) :
    surplus ((sectionMallocs pcStartAddr headers).foldl MemoryOp.apply m) =
      surplus m + UInt32.ofNat (repeats headers) := by
  have hsize := congrArg UInt32.ofNat (mallocs_new hpc hnew).1
  rw [UInt32.ofNat_add, UInt32.ofNat_add] at hsize
  unfold surplus
  rw [mallocs_count hpc]
  grind

/-! ## The sections are freed -/

theorem surplus_cacheFree (m : MemoryManage) (addr : UInt64) (infoSrc : MemInfoSrc) :
    surplus (m.cacheFree addr infoSrc) = surplus m := by
  unfold cacheFree
  split_ifs with hfound
  · obtain ⟨it, hit, hmatch⟩ := List.any_eq_true.mp hfound
    have hsize := congrArg UInt32.ofNat
      (OrderedSet.size_eraseFirst_of_mem (s := m.memoryOpAddrInfos) hit hmatch)
    rw [UInt32.ofNat_add] at hsize
    unfold surplus
    dsimp only
    grind
  · rfl

theorem surplus_frees (m : MemoryManage) (keys : List Key) :
    surplus ((freesOf keys).foldl MemoryOp.apply m) = surplus m := by
  induction keys generalizing m with
  | nil => rfl
  | cons k keys ih => exact (ih (m.cacheFree k.1 k.2)).trans (surplus_cacheFree m k.1 k.2)

/-- A record stays whose key is not freed. -/
theorem mem_frees {it : AddrInfo} {keys : List Key} {s : AddrInfoSet} (hit : it ∈ s)
    (hkeys : ∀ k ∈ keys, sameKey (keyOf it) k = false) :
    it ∈ (freesOf keys).foldl applySet s := by
  induction keys generalizing s with
  | nil => exact hit
  | cons k keys ih =>
    rw [List.forall_mem_cons] at hkeys
    refine ih ?_ hkeys.2
    exact (List.mem_eraseP_of_neg (by rw [matchesFree_eq]; simpa using hkeys.1)).mpr hit

/-- Where all sections are inside the address space, each is freed as often as stored. -/
theorem sectionKeys_of_inside (hpc : pcStartAddr ≠ 0)
    (hin : ∀ h ∈ headers, pcStartAddr ≤ uint64Max - h.shAddr) :
    sectionKeys pcStartAddr headers =
      headers.map fun h => (pcStartAddr + h.shAddr, MemInfoSrc.bypass) := by
  rw [sectionKeys, if_neg hpc, List.filter_eq_self.mpr fun h hh => ?_]
  simpa [UInt64.not_lt] using hin h hh

theorem pending_sections (hpc : pcStartAddr ≠ 0)
    (hin : ∀ h ∈ headers, pcStartAddr ≤ uint64Max - h.shAddr) (k : Key) :
    (sectionMallocs pcStartAddr headers).countP (allocates k) =
      (sectionKeys pcStartAddr headers).countP (sameKey k) := by
  rw [sectionKeys_of_inside hpc hin, sectionMallocs, if_neg hpc, List.countP_map,
    List.countP_map]
  congr 1
  funext h
  exact sameKey_comm _ _

theorem sections_freed (hpc : pcStartAddr ≠ 0) (hnew : Unrecorded m pcStartAddr headers)
    (hin : ∀ h ∈ headers, pcStartAddr ≤ uint64Max - h.shAddr) :
    ((freesOf (sectionKeys pcStartAddr headers)).foldl MemoryOp.apply
      ((sectionMallocs pcStartAddr headers).foldl MemoryOp.apply m)).memoryOpAddrInfos =
        m.memoryOpAddrInfos := by
  set keys := sectionKeys pcStartAddr headers with hkeys
  rw [memoryOpAddrInfos_run, memoryOpAddrInfos_run]
  have hbefore : ∀ k ∈ keys, pending k m.memoryOpAddrInfos = 0 := by
    intro k hk
    rw [hkeys, sectionKeys_of_inside hpc hin] at hk
    obtain ⟨h, hh, rfl⟩ := List.mem_map.mp hk
    refine no_pending_iff.mpr fun it hit => ?_
    by_cases haddr : it.addr = pcStartAddr + h.shAddr
    · rw [sameKey, keyOf, hnew it hit h hh haddr, Bool.and_false]
    · rw [sameKey, keyOf, decide_eq_false haddr, Bool.false_and]
  have hafter : ∀ k ∈ keys, pending k ((freesOf keys).foldl applySet
      ((sectionMallocs pcStartAddr headers).foldl applySet m.memoryOpAddrInfos)) = 0 := by
    intro k hk
    have hbalance := pending_balance k (sectionMallocs pcStartAddr headers) keys
      m.memoryOpAddrInfos
    rw [hbefore k hk, pending_sections hpc hin, Nat.zero_add, Nat.sub_self] at hbalance
    exact Nat.le_zero.mp hbalance
  have hown : ∀ op ∈ sectionMallocs pcStartAddr headers ++ freesOf keys, Owned keys op := by
    have htouches : ∀ k ∈ keys, touches keys k = true :=
      fun k hk => List.any_eq_true.mpr ⟨k, hk, sameKey_refl k⟩
    intro op hop
    rcases List.mem_append.mp hop with hop | hop
    · rw [sectionMallocs, if_neg hpc] at hop
      obtain ⟨h, hh, rfl⟩ := List.mem_map.mp hop
      refine htouches (pcStartAddr + h.shAddr, .bypass) ?_
      rw [hkeys, sectionKeys_of_inside hpc hin]
      exact List.mem_map.mpr ⟨h, hh, rfl⟩
    · obtain ⟨k, hk, rfl⟩ := List.mem_map.mp hop
      exact htouches k hk
  rw [← untouched_of_no_pending hafter, ← List.foldl_append, untouched_run_owned hown,
    untouched_of_no_pending hbefore]

/-- A section whose address passes the end of the address space stays in the table. -/
theorem section_stays (hpc : pcStartAddr ≠ 0) (hnew : Unrecorded m pcStartAddr headers)
    {h : Elf64Shdr} (hh : h ∈ headers) (hout : pcStartAddr > uint64Max - h.shAddr) :
    ((freesOf (sectionKeys pcStartAddr headers)).foldl MemoryOp.apply
      ((sectionMallocs pcStartAddr headers).foldl MemoryOp.apply m)).memoryOpAddrInfos ≠
        m.memoryOpAddrInfos := by
  intro heq
  have hstored := (mallocs_new hpc hnew).2 h hh
  have hstays : sectionRecord pcStartAddr (extent h) ∈ m.memoryOpAddrInfos := by
    rw [← heq, memoryOpAddrInfos_run]
    refine mem_frees hstored fun k hk => ?_
    rw [sectionKeys, if_neg hpc] at hk
    obtain ⟨h', hh', rfl⟩ := List.mem_map.mp hk
    have hin : ¬ pcStartAddr > uint64Max - h'.shAddr := by
      simpa using (List.mem_filter.mp hh').2
    have hne : pcStartAddr + h.shAddr ≠ pcStartAddr + h'.shAddr := by
      intro haddr
      rw [(UInt64.add_right_inj pcStartAddr).mp haddr] at hout
      exact hin hout
    exact Bool.and_eq_false_iff.mpr (.inl (decide_eq_false hne))
  have hother := hnew _ hstays h hh rfl
  cases hother

/-! ## Both -/

theorem ofNat_eq_zero_iff (n : ℕ) : UInt32.ofNat n = 0 ↔ 2 ^ 32 ∣ n := by
  rw [← UInt32.toNat_inj, UInt32.toNat_ofNat', Nat.dvd_iff_mod_eq_zero]
  rfl

/-- The frees undo the allocations exactly when all sections are inside the address space and
the counter, of 32 bits, comes round with the repeated headers. -/
theorem sections_undone_iff (r : Reporter) (pcStartAddr : UInt64) (headers : List Elf64Shdr)
    (hpc : pcStartAddr ≠ 0) (hnew : Unrecorded r.manage pcStartAddr headers) :
    (reportSectionsFree (reportSectionsMalloc r pcStartAddr headers) pcStartAddr headers).manage =
        r.manage ↔
      (∀ h ∈ headers, pcStartAddr ≤ uint64Max - h.shAddr) ∧ 2 ^ 32 ∣ repeats headers := by
  rw [manage_reportSectionsFree, manage_reportSectionsMalloc]
  have hsurplus := (surplus_frees _ (sectionKeys pcStartAddr headers)).trans
    (surplus_mallocs hpc hnew)
  constructor
  · intro heq
    constructor
    · intro h hh
      by_contra hout
      exact section_stays hpc hnew hh (UInt64.not_le.mp hout)
        (congrArg MemoryManage.memoryOpAddrInfos heq)
    · rw [heq] at hsurplus
      rw [← ofNat_eq_zero_iff]
      grind
  · rintro ⟨hin, hrepeats⟩
    have hset := sections_freed hpc hnew hin
    rw [(ofNat_eq_zero_iff _).mpr hrepeats, UInt32.add_zero, surplus, surplus, hset] at hsurplus
    refine congrArg₂ MemoryManage.mk hset ?_
    grind

theorem sections_undone_text :
    (reportSectionsFree (reportSectionsMalloc ⟨.reset, []⟩ 0x1000 [⟨6, 0x40, 0x100⟩]) 0x1000
        [⟨6, 0x40, 0x100⟩]).manage = .reset ↔
      (∀ h ∈ [(⟨6, 0x40, 0x100⟩ : Elf64Shdr)], 0x1000 ≤ uint64Max - h.shAddr) ∧
        2 ^ 32 ∣ repeats [⟨6, 0x40, 0x100⟩] :=
  sections_undone_iff ⟨.reset, []⟩ 0x1000 [⟨6, 0x40, 0x100⟩] (by decide)
    fun it hit => absurd hit List.not_mem_nil

def storedAndFreed (headers : List Elf64Shdr) : MemoryManage :=
  (reportSectionsFree (reportSectionsMalloc ⟨.reset, []⟩ 0x1000 headers) 0x1000 headers).manage

/-- A section behind the end of the address space is stored and never freed, and of two equal
headers both are counted and one is freed. -/
theorem sections_left_behind :
    (storedAndFreed [⟨6, 0xFFFFFFFFFFFFF800, 0x100⟩]).memoryOpAddrInfos.elems =
        [⟨0x800, 0x100, .bypass, .default, 0⟩] ∧
      (storedAndFreed [⟨6, 0x40, 0x100⟩, ⟨6, 0x40, 0x100⟩]).mallocCount = 1 ∧
      storedAndFreed [⟨6, 0xFFFFFFFFFFFFF800, 0x100⟩] ≠ .reset ∧
      storedAndFreed [⟨6, 0x40, 0x100⟩, ⟨6, 0x40, 0x100⟩] ≠ .reset := by
  have hwrap : (storedAndFreed [⟨6, 0xFFFFFFFFFFFFF800, 0x100⟩]).memoryOpAddrInfos.elems =
      [⟨0x800, 0x100, .bypass, .default, 0⟩] := by decide
  have hrepeat : (storedAndFreed [⟨6, 0x40, 0x100⟩, ⟨6, 0x40, 0x100⟩]).mallocCount = 1 := by
    decide
  refine ⟨hwrap, hrepeat, fun heq => ?_, fun heq => ?_⟩
  · rw [heq] at hwrap
    cases hwrap
  · rw [heq] at hrepeat
    cases hrepeat

end Msopcom.SectionsUndo
