import Msopcom.Intervals
import Msopcom.MemoryManageCount
import Msopcom.MemoryManageCoverage

set_option autoImplicit false

/-!
# The valid memory in normal form

`MergeHostMems` sweeps over the valid ranges in the order of their addresses. What the device
gets is the normal form of the valid memory, followed by empty entries.
-/
namespace Msopcom.MergedMems
open Intervals MemoryManage MemoryManageCoverage

def NoWrap (r : HostMemoryInfo) : Prop := r.addr.toNat + r.size.toNat < 2 ^ 64

def interval (r : HostMemoryInfo) : Span ℕ := ⟨r.addr.toNat, r.addr.toNat + r.size.toNat⟩

/-! ## The loop is the sweep -/

section
variable {last current : HostMemoryInfo} {l : List HostMemoryInfo}

/-- The last range when the current one is taken into it. -/
def reach (last current : HostMemoryInfo) : HostMemoryInfo :=
  { last with size := max (last.addr + last.size) (current.addr + current.size) - last.addr }

theorem mergeInto_cons (last current : HostMemoryInfo) (rest : List HostMemoryInfo) :
    mergeInto last (current :: rest) =
      if current.addr ≤ last.addr + last.size then mergeInto (reach last current) rest
      else last :: mergeInto current rest := rfl

/-- Its end moves to that of the current one, if this is behind it. -/
theorem interval_reach (hlast : NoWrap last) (hcurrent : NoWrap current) :
    interval (reach last current) =
      ⟨(interval last).lo, max (interval last).hi (interval current).hi⟩ := by
  have hlastEnd : (last.addr + last.size).toNat = last.addr.toNat + last.size.toNat :=
    Words.toNat_add64 hlast
  have hcurrentEnd : (current.addr + current.size).toNat =
      current.addr.toNat + current.size.toNat := Words.toNat_add64 hcurrent
  have hmax := Words.toNat_max64 (last.addr + last.size) (current.addr + current.size)
  rw [hlastEnd, hcurrentEnd] at hmax
  have hsize : (reach last current).size.toNat =
      max (last.addr.toNat + last.size.toNat) (current.addr.toNat + current.size.toNat) -
        last.addr.toNat := by
    rw [← hmax]
    exact Words.toNat_sub64 (by rw [hmax]; omega)
  ext
  · rfl
  · change last.addr.toNat + (reach last current).size.toNat =
      max (last.addr.toNat + last.size.toNat) (current.addr.toNat + current.size.toNat)
    rw [hsize]
    omega

theorem noWrap_reach (hlast : NoWrap last) (hcurrent : NoWrap current) :
    NoWrap (reach last current) := by
  change (interval (reach last current)).hi < 2 ^ 64
  rw [interval_reach hlast hcurrent]
  exact max_lt hlast hcurrent

theorem map_mergeInto (hlast : NoWrap last) (hl : ∀ r ∈ l, NoWrap r) :
    (mergeInto last l).map interval = sweep (interval last) (l.map interval) := by
  induction l generalizing last with
  | nil => rfl
  | cons current rest ih =>
    have hcurrent := hl current List.mem_cons_self
    have hrest : ∀ r ∈ rest, NoWrap r := fun r hr => hl r (List.mem_cons_of_mem _ hr)
    have hreached : current.addr ≤ last.addr + last.size ↔
        (interval current).lo ≤ (interval last).hi := by
      rw [UInt64.le_iff_toNat_le, Words.toNat_add64 hlast]
      rfl
    rw [mergeInto_cons, List.map_cons]
    unfold sweep
    by_cases h : current.addr ≤ last.addr + last.size
    · rw [if_pos h, if_pos (hreached.mp h), ih (noWrap_reach hlast hcurrent) hrest,
        interval_reach hlast hcurrent]
    · rw [if_neg h, if_neg (mt hreached.mpr h), List.map_cons, ih hcurrent hrest]

theorem map_mergeRanges (hl : ∀ r ∈ l, NoWrap r) :
    (mergeRanges l).map interval = merge (l.map interval) := by
  cases l with
  | nil => rfl
  | cons first rest =>
    exact map_mergeInto (hl first List.mem_cons_self) fun r hr => hl r (List.mem_cons_of_mem _ hr)

end

/-! ## What is extracted -/

/-- A range with bytes, all of them below the end of the addresses. -/
structure Sound (r : HostMemoryInfo) : Prop where
  pos : 0 < r.size.toNat
  noWrap : NoWrap r

structure SoundExtraction (acc : Extraction) : Prop where
  ranges : ∀ r ∈ acc.ranges, Sound r
  cached : ∀ r ∈ acc.cacheRtAclMems, Sound r

section
variable {a : AddrInfo} {cache : AddrsSet}

theorem sound_processMstxHeapMem (hcache : ∀ r ∈ cache, Sound r) (hpos : 0 < a.length.toNat)
    (hwrap : a.addr.toNat + a.length.toNat < 2 ^ 64) :
    ∀ r ∈ processMstxHeapMem cache a, Sound r := by
  intro r hr
  cases hfind : cache.elems.find? fun it => isAddrInRange a.addr a.length it.addr it.size with
  | none =>
    unfold processMstxHeapMem at hr
    rw [hfind] at hr
    exact hcache r hr
  | some it =>
    have hit := hcache it (List.mem_of_find?_eq_some hfind)
    have hnoWrap : it.addr.toNat + it.size.toNat < 2 ^ 64 := hit.noWrap
    have hinside : isAddrInRange a.addr a.length it.addr it.size = true := by
      simpa using List.find?_some hfind
    obtain ⟨hstart, hstop⟩ := (isAddrInRange_iff hwrap hnoWrap).mp hinside
    have hfound : Found cache a it := ⟨hfind, hpos, hstart, hstop, hnoWrap⟩
    obtain ⟨hold, -⟩ | ⟨hlt, haddr, hend⟩ | ⟨hlt, haddr, hend⟩ := hfound.mem_iff.mp hr
    · exact hcache r hold
    · exact ⟨by omega, show _ < _ by omega⟩
    · exact ⟨by omega, show _ < _ by omega⟩

/-- What one record does to the extraction. -/
theorem SoundExtraction.step {acc : Extraction} (h : SoundExtraction acc) (isExtra : Bool)
    (hwrap : a.addr.toNat + a.length.toNat < 2 ^ 64) :
    SoundExtraction (extractStep isExtra acc a) := by
  unfold extractStep
  dsimp only
  by_cases hempty : a.length = 0
  · rw [if_pos hempty]
    exact h
  have hpos : 0 < a.length.toNat := Words.pos_iff_ne_zero.mpr hempty
  have hrange : Sound ⟨a.addr, a.length⟩ := ⟨hpos, hwrap⟩
  have happend : ∀ r ∈ acc.ranges ++ [⟨a.addr, a.length⟩], Sound r := by
    intro r hr
    cases List.mem_append.mp hr with
    | inl hold => exact h.ranges r hold
    | inr hnew =>
      rw [List.mem_singleton.mp hnew]
      exact hrange
  rw [if_neg hempty]
  split_ifs
  · exact ⟨happend, h.cached⟩
  · exact h
  · refine ⟨h.ranges, ?_⟩
    intro r hr
    cases mem_insert_range.mp hr with
    | inl hnew =>
      rw [hnew]
      exact hrange
    | inr hold => exact h.cached r hold
  · exact ⟨h.ranges, sound_processMstxHeapMem h.cached hpos hwrap⟩
  · exact ⟨happend, h.cached⟩

end

/-- Every range that is extracted has bytes and does not wrap, as the records do not. -/
theorem sound_extractValidMems {infos : AddrInfoSet}
    (hwrap : ∀ a ∈ infos, a.addr.toNat + a.length.toNat < 2 ^ 64) :
    ∀ r ∈ extractValidMems infos, Sound r := by
  have hfold (l : List AddrInfo) (hl : ∀ a ∈ l, a.addr.toNat + a.length.toNat < 2 ^ 64)
      (acc : Extraction) (hacc : SoundExtraction acc) :
      SoundExtraction (l.foldl (extractStep (hasExtra infos)) acc) := by
    induction l generalizing acc with
    | nil => exact hacc
    | cons a l ih =>
      exact ih (fun b hb => hl b (List.mem_cons_of_mem a hb)) _
        (hacc.step _ (hl a List.mem_cons_self))
  have hempty : SoundExtraction ⟨[], .empty⟩ :=
    ⟨fun r hr => absurd hr List.not_mem_nil, fun r hr => absurd hr List.not_mem_nil⟩
  have hall := hfold infos.elems hwrap ⟨[], .empty⟩ hempty
  intro r hr
  cases List.mem_append.mp hr with
  | inl hrange => exact hall.ranges r hrange
  | inr hcached => exact hall.cached r hcached

/-! ## The result -/

/-- Ascending ranges with bytes, of which none reaches the next one. -/
structure NormalForm (merged : List HostMemoryInfo) : Prop where
  ascending : merged.Pairwise fun r s => r.addr < s.addr
  apart : merged.Pairwise fun r s => r.addr.toNat + r.size.toNat < s.addr.toNat
  nonempty : ∀ r ∈ merged, r.size ≠ 0

section
variable {l l' : List HostMemoryInfo}

theorem ascending_map_interval (h : l.Pairwise fun r s => r.addr ≤ s.addr) :
    Ascending (l.map interval) :=
  List.pairwise_map.mpr (h.imp UInt64.le_iff_toNat_le.mp)

theorem proper_map_interval (h : ∀ r ∈ l, Sound r) : Proper (l.map interval) := by
  intro i hi
  obtain ⟨r, hr, rfl⟩ := List.mem_map.mp hi
  exact Nat.lt_add_of_pos_right (h r hr).pos

theorem mem_points_map {b : ℕ} : b ∈ points (l.map interval) ↔ ∃ r ∈ l, b ∈ r.bytes := by
  constructor
  · intro hb
    obtain ⟨i, hi, hpoint⟩ := hb
    obtain ⟨r, hr, rfl⟩ := List.mem_map.mp hi
    exact ⟨r, hr, hpoint⟩
  · intro hb
    obtain ⟨r, hr, hpoint⟩ := hb
    exact ⟨_, List.mem_map_of_mem hr, hpoint⟩

theorem normalForm_of_normal (h : Normal (l.map interval)) : NormalForm l := by
  have hpos : ∀ r ∈ l, 0 < r.size.toNat := fun r hr =>
    Nat.lt_add_right_iff_pos.mp (h.proper _ (List.mem_map_of_mem hr))
  have hapart : l.Pairwise fun r s => r.addr.toNat + r.size.toNat < s.addr.toNat :=
    List.pairwise_map.mp h.apart
  constructor
  case ascending =>
    refine hapart.imp ?_
    intro r s hrs
    exact UInt64.lt_iff_toNat_lt.mpr (Nat.lt_of_le_of_lt (Nat.le_add_right _ _) hrs)
  case apart => exact hapart
  case nonempty =>
    intro r hr
    exact Words.pos_iff_ne_zero.mp (hpos r hr)

theorem normal_mergeRanges (hl : ∀ r ∈ l, Sound r)
    (hascending : l.Pairwise fun r s => r.addr ≤ s.addr) :
    Normal ((mergeRanges l).map interval) ∧
      points ((mergeRanges l).map interval) = points (l.map interval) := by
  rw [map_mergeRanges fun r hr => (hl r hr).noWrap]
  exact ⟨normal_merge (ascending_map_interval hascending) (proper_map_interval hl),
    points_merge (ascending_map_interval hascending) (proper_map_interval hl)⟩

theorem interval_injective : Function.Injective interval := by
  intro r s h
  have haddr : r.addr.toNat = s.addr.toNat := congrArg Span.lo h
  have hend : r.addr.toNat + r.size.toNat = s.addr.toNat + s.size.toNat := congrArg Span.hi h
  exact HostMemoryInfo.ext_toNat haddr (by omega)

/-- Ranges at the same address may come in any order: the result is the same. -/
theorem mergeRanges_eq_of_perm (hperm : l.Perm l') (hl : ∀ r ∈ l, Sound r)
    (hascending : l.Pairwise fun r s => r.addr ≤ s.addr)
    (hascending' : l'.Pairwise fun r s => r.addr ≤ s.addr) : mergeRanges l = mergeRanges l' := by
  obtain ⟨hnormal, hpoints⟩ := normal_mergeRanges hl hascending
  obtain ⟨hnormal', hpoints'⟩ := normal_mergeRanges (fun r hr => hl r (hperm.mem_iff.mpr hr))
    hascending'
  apply interval_injective.list_map
  apply hnormal.eq hnormal'
  rw [hpoints, hpoints']
  exact points_perm (hperm.map interval)

end

theorem ascending_mergeSort (ranges : List HostMemoryInfo) :
    (ranges.mergeSort fun a b => a.addr ≤ b.addr).Pairwise fun r s => r.addr ≤ s.addr := by
  have hsorted := @List.pairwise_mergeSort _ (fun a b : HostMemoryInfo => a.addr ≤ b.addr)
    (fun a b c hab hbc => by simpa using UInt64.le_trans (by simpa using hab) (by simpa using hbc))
    (fun a b => by simpa using UInt64.le_total a.addr b.addr) ranges
  exact hsorted.imp fun h => by simpa using h

/-- Without records, or when none is announced, there are no ranges either. -/
theorem mergeHostMems_of_none {m : MemoryManage}
    (hcount : (extractValidMems m.memoryOpAddrInfos).length ≤ m.mallocCount.toNat)
    (hnone : (m.memoryOpAddrInfos.elems.isEmpty || m.mallocCount = 0) = true) :
    m.mergeHostMems = [] ∧ extractValidMems m.memoryOpAddrInfos = [] := by
  constructor
  · unfold mergeHostMems
    rw [if_pos hnone]
  · cases (Bool.or_eq_true _ _).mp hnone with
    | inl hempty =>
      unfold extractValidMems
      rw [List.isEmpty_iff.mp hempty]
      rfl
    | inr hzero =>
      rw [of_decide_eq_true hzero] at hcount
      exact List.length_eq_zero_iff.mp (Nat.le_zero.mp hcount)

/-- The device gets the normal form of the valid memory and empty entries, in whatever order the
ranges at the same address are sorted. -/
theorem mergeHostMems_normalForm {m : MemoryManage}
    (hwrap : ∀ a ∈ m.memoryOpAddrInfos, a.addr.toNat + a.length.toNat < 2 ^ 64)
    (hcount : (extractValidMems m.memoryOpAddrInfos).length ≤ m.mallocCount.toNat) :
    ∃ merged padding, m.mergeHostMems = merged ++ List.replicate padding ⟨0, 0⟩ ∧
      NormalForm merged ∧
      (∀ b, (∃ r ∈ merged, b ∈ r.bytes) ↔
        ∃ r ∈ extractValidMems m.memoryOpAddrInfos, b ∈ r.bytes) ∧
      ∀ ranges, ranges.Perm (extractValidMems m.memoryOpAddrInfos) →
        ranges.Pairwise (fun r s => r.addr ≤ s.addr) → mergeRanges ranges = merged := by
  have hsound := sound_extractValidMems hwrap
  let sorted := (extractValidMems m.memoryOpAddrInfos).mergeSort fun a b => a.addr ≤ b.addr
  have hperm : sorted.Perm (extractValidMems m.memoryOpAddrInfos) := List.mergeSort_perm _ _
  have hsorted : ∀ r ∈ sorted, Sound r := fun r hr => hsound r (hperm.mem_iff.mp hr)
  have hascending := ascending_mergeSort (extractValidMems m.memoryOpAddrInfos)
  obtain ⟨hnormal, hpoints⟩ := normal_mergeRanges hsorted hascending
  have hmerged : ∃ padding, m.mergeHostMems =
      mergeRanges sorted ++ List.replicate padding ⟨0, 0⟩ := by
    by_cases hnone : (m.memoryOpAddrInfos.elems.isEmpty || m.mallocCount = 0) = true
    · obtain ⟨hresult, hranges⟩ := mergeHostMems_of_none hcount hnone
      have hempty : sorted = [] := List.perm_nil.mp (hranges ▸ hperm)
      refine ⟨0, ?_⟩
      rw [hresult, hempty]
      rfl
    · unfold mergeHostMems
      rw [if_neg hnone]
      dsimp only
      split_ifs
      · exact ⟨_, rfl⟩
      · exact ⟨0, (List.append_nil _).symm⟩
  obtain ⟨padding, hresult⟩ := hmerged
  refine ⟨mergeRanges sorted, padding, hresult, normalForm_of_normal hnormal, ?_, ?_⟩
  · intro b
    rw [← mem_points_map, hpoints, mem_points_map]
    simp only [hperm.mem_iff]
  · intro ranges hranges hascending'
    exact (mergeRanges_eq_of_perm (hperm.trans hranges.symm) hsorted hascending hascending').symm

/-- Two overlapping allocations and one that a region behind them is adjacent to. -/
def overlapping : MemoryManage :=
  (((reset.cacheMalloc 0x110 .rt 100).cacheMalloc 0x100 .rt 100).cacheMalloc 0x300 .bypass
    256).cacheMalloc 0x400 .mstxRegion 100

theorem mergeHostMems_normalForm_overlapping :
    extractValidMems overlapping.memoryOpAddrInfos =
        [⟨0x300, 256⟩, ⟨0x400, 100⟩, ⟨0x100, 100⟩, ⟨0x110, 100⟩] ∧
      mergeRanges [⟨0x100, 100⟩, ⟨0x110, 100⟩, ⟨0x300, 256⟩, ⟨0x400, 100⟩] =
        [⟨0x100, 116⟩, ⟨0x300, 356⟩] ∧
      ∃ merged padding, overlapping.mergeHostMems = merged ++ List.replicate padding ⟨0, 0⟩ ∧
        NormalForm merged ∧
        (∀ b, (∃ r ∈ merged, b ∈ r.bytes) ↔
          ∃ r ∈ extractValidMems overlapping.memoryOpAddrInfos, b ∈ r.bytes) ∧
        ∀ ranges, ranges.Perm (extractValidMems overlapping.memoryOpAddrInfos) →
          ranges.Pairwise (fun r s => r.addr ≤ s.addr) → mergeRanges ranges = merged :=
  ⟨by decide, by decide, mergeHostMems_normalForm (by decide) (by decide)⟩

end Msopcom.MergedMems
