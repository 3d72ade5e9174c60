import Mathlib.Order.Interval.Set.Basic
import Msopcom.MemoryManage
import Msopcom.Runs
import Msopcom.Words

set_option autoImplicit false

/-!
# Which bytes `ExtractValidMems` declares valid

A heap registered inside an allocation should be cut out of it. The pass does
so for a heap whose allocation it has already visited and which shares no byte
with a heap cut out before; the other heaps stay part of the allocation.
-/
namespace Msopcom

def AddrInfo.isRtAcl (a : AddrInfo) : Bool := a.memInfoSrc = .acl || a.memInfoSrc = .rt
def AddrInfo.isHeap (a : AddrInfo) : Bool := a.memInfoSrc = .mstxHeap
def AddrInfo.isOther (a : AddrInfo) : Bool := !a.isRtAcl && !a.isHeap

def AddrInfo.bytes (a : AddrInfo) : Set ℕ :=
  Set.Ico a.addr.toNat (a.addr.toNat + a.length.toNat)

def HostMemoryInfo.bytes (r : HostMemoryInfo) : Set ℕ :=
  Set.Ico r.addr.toNat (r.addr.toNat + r.size.toNat)

@[simp] theorem AddrInfo.mem_bytes {a : AddrInfo} {b : ℕ} :
    b ∈ a.bytes ↔ a.addr.toNat ≤ b ∧ b < a.addr.toNat + a.length.toNat := Iff.rfl

@[simp] theorem HostMemoryInfo.mem_bytes {r : HostMemoryInfo} {b : ℕ} :
    b ∈ r.bytes ↔ r.addr.toNat ≤ b ∧ b < r.addr.toNat + r.size.toNat := Iff.rfl

theorem isAddrInRange_iff {addr size thresholdAddr thresholdSize : UInt64}
    (h : addr.toNat + size.toNat < 2 ^ 64)
    (ht : thresholdAddr.toNat + thresholdSize.toNat < 2 ^ 64) :
    isAddrInRange addr size thresholdAddr thresholdSize = true ↔
      thresholdAddr.toNat ≤ addr.toNat ∧
        addr.toNat + size.toNat ≤ thresholdAddr.toNat + thresholdSize.toNat := by
  simp only [isAddrInRange, ge_iff_le, Bool.and_eq_true, decide_eq_true_eq, UInt64.le_iff_toNat_le,
    Words.toNat_add64 h, Words.toNat_add64 ht]
  omega

namespace MemoryManageCoverage
open MemoryManage

/-- What the callers of `ExtractValidMems` promise about the records of a run
without an EXTRA record. -/
structure WellPlaced (infos : AddrInfoSet) : Prop where
  noExtra : hasExtra infos = false
  noWrap : ∀ a ∈ infos, a.addr.toNat + a.length.toNat < 2 ^ 64
  disjoint : ∀ p ∈ infos, ∀ q ∈ infos, p.isRtAcl → q.isRtAcl →
    ∀ b, b ∈ p.bytes → b ∈ q.bytes → p = q
  inside : ∀ h ∈ infos, h.isHeap → h.length ≠ 0 → ∃ p ∈ infos, p.isRtAcl ∧ h.bytes ⊆ p.bytes

/-- An allocation holding the heap comes before it in the order of the set. -/
def followsAllocation (infos : List AddrInfo) (h : AddrInfo) : Bool :=
  infos.any fun p => p.isRtAcl && decide (p.Before h) &&
    isAddrInRange h.addr h.length p.addr p.length

def shareByte (a b : AddrInfo) : Bool :=
  a.addr.toNat < b.addr.toNat + b.length.toNat && b.addr.toNat < a.addr.toNat + a.length.toNat

/-- The heaps that are cut out of their allocation, taken in the order of the set. -/
def cutStep (infos cut : List AddrInfo) (h : AddrInfo) : List AddrInfo :=
  if h.isHeap && h.length ≠ 0 && followsAllocation infos h && !cut.any (shareByte h) then
    cut ++ [h]
  else cut

def cutHeaps (infos : AddrInfoSet) : List AddrInfo := infos.elems.foldl (cutStep infos.elems) []

theorem mem_insert_range {s : AddrsSet} {a r : HostMemoryInfo} :
    r ∈ s.insert a ↔ r = a ∨ r ∈ s :=
  OrderedSet.mem_insert_iff fun _ _ => HostMemoryInfo.eq_of_not_before

/-- The piece `it` that `ProcessMstxHeapMem` finds for the heap `h` contains it. -/
structure Found (cache : AddrsSet) (h : AddrInfo) (it : HostMemoryInfo) : Prop where
  find : cache.elems.find? (fun r => isAddrInRange h.addr h.length r.addr r.size) = some it
  pos : 0 < h.length.toNat
  start : it.addr.toNat ≤ h.addr.toNat
  stop : h.addr.toNat + h.length.toNat ≤ it.addr.toNat + it.size.toNat
  noWrap : it.addr.toNat + it.size.toNat < 2 ^ 64

section Carve
variable {cache : AddrsSet} {it : HostMemoryInfo} {h : AddrInfo}

theorem Found.mem_cache (found : Found cache h it) : it ∈ cache :=
  List.mem_of_find?_eq_some found.find

theorem Found.toNat_right_size (found : Found cache h it) :
    (it.addr - h.addr + it.size - h.length).toNat =
      it.addr.toNat + it.size.toNat - (h.addr.toNat + h.length.toNat) := by
  obtain ⟨-, -, hstart, hstop, hwrap⟩ := found
  simp only [UInt64.toNat_add, UInt64.toNat_sub]
  omega

/-- The other pieces stay; what is left of the found piece is what lies before
and after the heap. -/
theorem Found.mem_iff (found : Found cache h it) {r : HostMemoryInfo} :
    r ∈ processMstxHeapMem cache h ↔
      (r ∈ cache ∧ r ≠ it) ∨
      (it.addr.toNat < h.addr.toNat ∧ r.addr.toNat = it.addr.toNat ∧
        r.addr.toNat + r.size.toNat = h.addr.toNat) ∨
      (h.addr.toNat + h.length.toNat < it.addr.toNat + it.size.toNat ∧
        r.addr.toNat = h.addr.toNat + h.length.toNat ∧
        r.addr.toNat + r.size.toNat = it.addr.toNat + it.size.toNat) := by
  have hright := found.toNat_right_size
  obtain ⟨hfind, hlen, hstart, hstop, hwrap⟩ := found
  have hleft : (h.addr - it.addr).toNat = h.addr.toNat - it.addr.toNat :=
    Words.toNat_sub64 hstart
  have hnext : (h.addr + h.length).toNat = h.addr.toNat + h.length.toNat :=
    Words.toNat_add64 (by omega)
  have hext : ∀ {s t : HostMemoryInfo}, s = t ↔
      s.addr.toNat = t.addr.toNat ∧ s.size.toNat = t.size.toNat :=
    ⟨by rintro rfl; exact ⟨rfl, rfl⟩, fun hst => HostMemoryInfo.ext_toNat hst.1 hst.2⟩
  simp only [processMstxHeapMem, hfind]
  rw [OrderedSet.mem_eraseFirst_eq_iff]
  simp only [gt_iff_lt, UInt64.lt_iff_toNat_lt, hright, UInt64.toNat_zero]
  split_ifs <;> simp only [mem_insert_range, hext, hleft, hright, hnext, ne_eq] <;> grind

theorem Found.exists_old (found : Found cache h it) {r : HostMemoryInfo}
    (hr : r ∈ processMstxHeapMem cache h) : ∃ s ∈ cache, r.bytes ⊆ s.bytes := by
  have hlen := found.pos
  have hstart := found.start
  have hstop := found.stop
  rcases found.mem_iff.mp hr with ⟨hr, -⟩ | ⟨-, hra, hre⟩ | ⟨-, hra, hre⟩
  · exact ⟨r, hr, subset_rfl⟩
  · exact ⟨it, found.mem_cache, Set.Ico_subset_Ico (by omega) (by omega)⟩
  · exact ⟨it, found.mem_cache, Set.Ico_subset_Ico (by omega) (by omega)⟩

theorem exists_piece {x y : ℕ} (hxy : x ≤ y) (hy : y < 2 ^ 64) :
    ∃ r : HostMemoryInfo, r.addr.toNat = x ∧ r.addr.toNat + r.size.toNat = y := by
  have hx : (UInt64.ofNat x).toNat = x := Words.toNat_ofNat64 (hxy.trans_lt hy)
  have hsize : (UInt64.ofNat (y - x)).toNat = y - x :=
    Words.toNat_ofNat64 ((Nat.sub_le y x).trans_lt hy)
  refine ⟨⟨UInt64.ofNat x, UInt64.ofNat (y - x)⟩, hx, ?_⟩
  simp only [hx, hsize]
  omega

/-- Every byte of an old piece outside the heap stays in a piece, which ends
where the old one did when the byte lies behind the heap. -/
theorem Found.exists_new (found : Found cache h it) {s : HostMemoryInfo} (hs : s ∈ cache) {b : ℕ}
    (hb : b ∈ s.bytes) (hbh : b ∉ h.bytes) :
    ∃ r ∈ processMstxHeapMem cache h, b ∈ r.bytes ∧
      (h.addr.toNat < b → r.addr.toNat + r.size.toNat = s.addr.toNat + s.size.toNat) := by
  by_cases hne : s = it
  · subst hne
    have hstart := found.start
    have hstop := found.stop
    have hwrap := found.noWrap
    rw [HostMemoryInfo.mem_bytes] at hb
    rw [AddrInfo.mem_bytes] at hbh
    by_cases hlt : b < h.addr.toNat
    · obtain ⟨r, hra, hre⟩ := exists_piece hstart (show h.addr.toNat < 2 ^ 64 by omega)
      refine ⟨r, found.mem_iff.mpr (Or.inr (Or.inl ⟨by omega, hra, hre⟩)), ?_, by omega⟩
      rw [HostMemoryInfo.mem_bytes]
      omega
    · obtain ⟨r, hra, hre⟩ := exists_piece hstop hwrap
      refine ⟨r, found.mem_iff.mpr (Or.inr (Or.inr ⟨by omega, hra, hre⟩)), ?_, fun _ => hre⟩
      rw [HostMemoryInfo.mem_bytes]
      omega
  · exact ⟨s, found.mem_iff.mpr (Or.inl ⟨hs, hne⟩), hb, fun _ => rfl⟩

theorem Found.separate (found : Found cache h it)
    (hunique : ∀ r ∈ cache, ∀ s ∈ cache, ∀ b, b ∈ r.bytes → b ∈ s.bytes → r = s) :
    (∀ r ∈ processMstxHeapMem cache h, ∀ s ∈ processMstxHeapMem cache h,
      ∀ b, b ∈ r.bytes → b ∈ s.bytes → r = s) ∧
    ∀ r ∈ processMstxHeapMem cache h, ∀ b, b ∈ r.bytes → b ∉ h.bytes := by
  have hlen := found.pos
  have hstart := found.start
  have hstop := found.stop
  have hother : ∀ r ∈ cache, r ≠ it → ∀ b ∈ r.bytes, b ∉ it.bytes :=
    fun r hr hne b hb hbit => hne (hunique r hr it found.mem_cache b hb hbit)
  simp only [HostMemoryInfo.mem_bytes, AddrInfo.mem_bytes] at hother hunique ⊢
  constructor
  · intro r hr s hs b hbr hbs
    rcases found.mem_iff.mp hr with ⟨hr, hrne⟩ | ⟨-, hra, hre⟩ | ⟨-, hra, hre⟩ <;>
      rcases found.mem_iff.mp hs with ⟨hs, hsne⟩ | ⟨-, hsa, hse⟩ | ⟨-, hsa, hse⟩
    · exact hunique r hr s hs b hbr hbs
    · exact absurd (by omega) (hother r hr hrne b hbr)
    · exact absurd (by omega) (hother r hr hrne b hbr)
    · exact absurd (by omega) (hother s hs hsne b hbs)
    · exact HostMemoryInfo.ext_toNat (by omega) (by omega)
    · omega
    · exact absurd (by omega) (hother s hs hsne b hbs)
    · omega
    · exact HostMemoryInfo.ext_toNat (by omega) (by omega)
  · intro r hr b hb hbh
    rcases found.mem_iff.mp hr with ⟨hr, hrne⟩ | ⟨-, hra, hre⟩ | ⟨-, hra, hre⟩
    · exact absurd (by omega) (hother r hr hrne b hb)
    · omega
    · omega

end Carve

/-- The cached pieces after the records `pre`, with the heaps `cut` taken out. -/
structure CacheInv (pre cut : List AddrInfo) (cache : AddrsSet) : Prop where
  noWrap : ∀ r ∈ cache, r.addr.toNat + r.size.toNat < 2 ^ 64
  unique : ∀ r ∈ cache, ∀ s ∈ cache, ∀ b, b ∈ r.bytes → b ∈ s.bytes → r = s
  cover : ∀ b, (∃ r ∈ cache, b ∈ r.bytes) ↔
    (∃ p ∈ pre, p.isRtAcl ∧ b ∈ p.bytes) ∧ ∀ h ∈ cut, b ∉ h.bytes
  within : ∀ h ∈ cut, ∀ b ∈ h.bytes, ∃ p ∈ pre, p.isRtAcl ∧ b ∈ p.bytes
  /-- A byte beyond every cut lies in the last piece of its allocation. -/
  tail : ∀ p ∈ pre, p.isRtAcl → ∀ b ∈ p.bytes,
    (∀ h ∈ cut, h.addr.toNat + h.length.toNat ≤ b) →
    ∃ r ∈ cache, b ∈ r.bytes ∧
      r.addr.toNat + r.size.toNat = p.addr.toNat + p.length.toNat

theorem cacheInv_nil : CacheInv [] [] .empty where
  noWrap r hr := by simp [OrderedSet.mem_def] at hr
  unique r hr := by simp [OrderedSet.mem_def] at hr
  cover b := by simp [OrderedSet.mem_def]
  within h hh := by simp at hh
  tail p hp := by simp at hp

section Steps
variable {pre cut : List AddrInfo} {cache : AddrsSet} {a : AddrInfo}

theorem CacheInv.skip (inv : CacheInv pre cut cache) (ha : ∀ b ∈ a.bytes, a.isRtAcl = false) :
    CacheInv (pre ++ [a]) cut cache := by
  have hmem : ∀ b, (∃ p ∈ pre ++ [a], p.isRtAcl ∧ b ∈ p.bytes) ↔
      ∃ p ∈ pre, p.isRtAcl ∧ b ∈ p.bytes := by
    intro b
    constructor
    · rintro ⟨p, hp, hrt, hb⟩
      rcases List.mem_append.mp hp with hp | hp
      · exact ⟨p, hp, hrt, hb⟩
      · obtain rfl := List.mem_singleton.mp hp
        simp [ha b hb] at hrt
    · rintro ⟨p, hp, hrt, hb⟩
      exact ⟨p, List.mem_append_left _ hp, hrt, hb⟩
  refine ⟨inv.noWrap, inv.unique, ?_, ?_, ?_⟩
  · intro b
    rw [hmem]
    exact inv.cover b
  · intro h hh b hb
    exact (hmem b).mpr (inv.within h hh b hb)
  · intro p hp hrt b hb hcut
    rcases List.mem_append.mp hp with hp | hp
    · exact inv.tail p hp hrt b hb hcut
    · obtain rfl := List.mem_singleton.mp hp
      simp [ha b hb] at hrt

theorem CacheInv.alloc (inv : CacheInv pre cut cache) (hrt : a.isRtAcl)
    (hwrap : a.addr.toNat + a.length.toNat < 2 ^ 64)
    (hdisj : ∀ p ∈ pre, p.isRtAcl → ∀ b, b ∈ p.bytes → b ∉ a.bytes) :
    CacheInv (pre ++ [a]) cut (cache.insert ⟨a.addr, a.length⟩) := by
  have hins : ∀ {r : HostMemoryInfo}, r ∈ cache.insert ⟨a.addr, a.length⟩ ↔
      r = ⟨a.addr, a.length⟩ ∨ r ∈ cache :=
    OrderedSet.mem_insert_iff fun _ _ => HostMemoryInfo.eq_of_not_before
  have hold : ∀ r ∈ cache, ∀ b ∈ r.bytes, b ∉ a.bytes := by
    intro r hr b hb
    obtain ⟨⟨p, hp, hprt, hpb⟩, -⟩ := (inv.cover b).mp ⟨r, hr, hb⟩
    exact hdisj p hp hprt b hpb
  have hcut : ∀ h ∈ cut, ∀ b ∈ h.bytes, b ∉ a.bytes := by
    intro h hh b hb
    obtain ⟨p, hp, hprt, hpb⟩ := inv.within h hh b hb
    exact hdisj p hp hprt b hpb
  refine ⟨?_, ?_, ?_, ?_, ?_⟩
  · intro r hr
    rcases hins.mp hr with rfl | hr
    · exact hwrap
    · exact inv.noWrap r hr
  · intro r hr s hs b hbr hbs
    rcases hins.mp hr with rfl | hr <;> rcases hins.mp hs with rfl | hs
    · rfl
    · exact absurd hbr (hold s hs b hbs)
    · exact absurd hbs (hold r hr b hbr)
    · exact inv.unique r hr s hs b hbr hbs
  · intro b
    constructor
    · rintro ⟨r, hr, hb⟩
      rcases hins.mp hr with rfl | hr
      · exact ⟨⟨a, by simp, hrt, hb⟩, fun h hh hbh => hcut h hh b hbh hb⟩
      · obtain ⟨⟨p, hp, hprt, hpb⟩, hno⟩ := (inv.cover b).mp ⟨r, hr, hb⟩
        exact ⟨⟨p, List.mem_append_left _ hp, hprt, hpb⟩, hno⟩
    · rintro ⟨⟨p, hp, hprt, hpb⟩, hno⟩
      rcases List.mem_append.mp hp with hp | hp
      · obtain ⟨r, hr, hb⟩ := (inv.cover b).mpr ⟨⟨p, hp, hprt, hpb⟩, hno⟩
        exact ⟨r, hins.mpr (Or.inr hr), hb⟩
      · obtain rfl := List.mem_singleton.mp hp
        exact ⟨_, hins.mpr (Or.inl rfl), hpb⟩
  · intro h hh b hb
    obtain ⟨p, hp, hprt, hpb⟩ := inv.within h hh b hb
    exact ⟨p, List.mem_append_left _ hp, hprt, hpb⟩
  · intro p hp hprt b hb hend
    rcases List.mem_append.mp hp with hp | hp
    · obtain ⟨r, hr, hrb, hre⟩ := inv.tail p hp hprt b hb hend
      exact ⟨r, hins.mpr (Or.inr hr), hrb, hre⟩
    · obtain rfl := List.mem_singleton.mp hp
      exact ⟨_, hins.mpr (Or.inl rfl), hb, rfl⟩

theorem subset_bounds {h p : AddrInfo} (hpos : 0 < h.length.toNat) (hsub : h.bytes ⊆ p.bytes) :
    p.addr.toNat ≤ h.addr.toNat ∧
      h.addr.toNat + h.length.toNat ≤ p.addr.toNat + p.length.toNat := by
  have hfirst : h.addr.toNat ∈ p.bytes := hsub (AddrInfo.mem_bytes.mpr (by omega))
  have hlast : h.addr.toNat + h.length.toNat - 1 ∈ p.bytes :=
    hsub (AddrInfo.mem_bytes.mpr (by omega))
  rw [AddrInfo.mem_bytes] at hfirst hlast
  omega

/-- A heap that starts beyond every cut is found in the last piece of its allocation. -/
theorem CacheInv.exists_found (inv : CacheInv pre cut cache) (hpos : 0 < a.length.toNat)
    (hwrap : a.addr.toNat + a.length.toNat < 2 ^ 64) {p : AddrInfo} (hp : p ∈ pre)
    (hprt : p.isRtAcl) (hsub : a.bytes ⊆ p.bytes)
    (hcut : ∀ h ∈ cut, h.addr.toNat + h.length.toNat ≤ a.addr.toNat) :
    ∃ it, Found cache a it := by
  have hbounds := subset_bounds hpos hsub
  have hfirst : a.addr.toNat ∈ a.bytes := AddrInfo.mem_bytes.mpr (by omega)
  obtain ⟨last, hlast, hin, hlastEnd⟩ := inv.tail p hp hprt _ (hsub hfirst) hcut
  have hrange : isAddrInRange a.addr a.length last.addr last.size = true := by
    rw [isAddrInRange_iff hwrap (inv.noWrap last hlast)]
    rw [HostMemoryInfo.mem_bytes] at hin
    omega
  cases hfind : cache.elems.find?
      (fun r => isAddrInRange a.addr a.length r.addr r.size) with
  | none => exact absurd hrange (List.find?_eq_none.mp hfind last hlast)
  | some it =>
    have hitWrap := inv.noWrap it (List.mem_of_find?_eq_some hfind)
    have hitRange := List.find?_some hfind
    rw [isAddrInRange_iff hwrap hitWrap] at hitRange
    exact ⟨it, hfind, hpos, hitRange.1, hitRange.2, hitWrap⟩

/-- A heap in an allocation already read, beyond every cut, is one more cut. -/
theorem CacheInv.carve (inv : CacheInv pre cut cache) (hheap : a.isRtAcl = false)
    (hpos : 0 < a.length.toNat) (hwrap : a.addr.toNat + a.length.toNat < 2 ^ 64) {p : AddrInfo}
    (hp : p ∈ pre) (hprt : p.isRtAcl) (hsub : a.bytes ⊆ p.bytes)
    (hcut : ∀ h ∈ cut, h.addr.toNat + h.length.toNat ≤ a.addr.toNat) :
    CacheInv (pre ++ [a]) (cut ++ [a]) (processMstxHeapMem cache a) := by
  obtain ⟨it, found⟩ := inv.exists_found hpos hwrap hp hprt hsub hcut
  obtain ⟨hunique, hclear⟩ := found.separate inv.unique
  have hpre : ∀ b, (∃ q ∈ pre ++ [a], q.isRtAcl ∧ b ∈ q.bytes) ↔
      ∃ q ∈ pre, q.isRtAcl ∧ b ∈ q.bytes := by
    intro b
    simp [or_and_right, exists_or, hheap]
  refine ⟨?_, hunique, ?_, ?_, ?_⟩
  · intro r hr
    have hstop := found.stop
    have hitWrap := found.noWrap
    rcases found.mem_iff.mp hr with ⟨hr, -⟩ | ⟨-, -, hre⟩ | ⟨-, -, hre⟩
    · exact inv.noWrap r hr
    · omega
    · omega
  · intro b
    rw [hpre, List.forall_mem_append, List.forall_mem_singleton, ← and_assoc, ← inv.cover b]
    constructor
    · rintro ⟨r, hr, hb⟩
      obtain ⟨s, hs, hrs⟩ := found.exists_old hr
      exact ⟨⟨s, hs, hrs hb⟩, hclear r hr b hb⟩
    · rintro ⟨⟨s, hs, hb⟩, hba⟩
      obtain ⟨r, hr, hrb, -⟩ := found.exists_new hs hb hba
      exact ⟨r, hr, hrb⟩
  · intro h hh b hb
    rw [hpre]
    rcases List.mem_append.mp hh with hh | hh
    · exact inv.within h hh b hb
    · obtain rfl := List.mem_singleton.mp hh
      exact ⟨p, hp, hprt, hsub hb⟩
  · intro q hq hqrt b hb hbeyond
    have hq : q ∈ pre := by
      rcases List.mem_append.mp hq with hq | hq
      · exact hq
      · obtain rfl := List.mem_singleton.mp hq
        simp [hheap] at hqrt
    have hba := hbeyond a (by simp)
    obtain ⟨s, hs, hsb, hse⟩ := inv.tail q hq hqrt b hb
      (fun h hh => hbeyond h (List.mem_append_left _ hh))
    obtain ⟨r, hr, hrb, hre⟩ := found.exists_new hs hsb
      (fun hin => by rw [AddrInfo.mem_bytes] at hin; omega)
    exact ⟨r, hr, hrb, (hre (by omega)).trans hse⟩

/-- Nothing is cut out for a heap that no piece contains. -/
theorem processMstxHeapMem_of_uncovered
    (hwrap : a.addr.toNat + a.length.toNat < 2 ^ 64)
    (hcache : ∀ r ∈ cache, r.addr.toNat + r.size.toNat < 2 ^ 64)
    (hno : ∀ r ∈ cache, ¬ (r.addr.toNat ≤ a.addr.toNat ∧
      a.addr.toNat + a.length.toNat ≤ r.addr.toNat + r.size.toNat)) :
    processMstxHeapMem cache a = cache := by
  have hfind : cache.elems.find?
      (fun r => isAddrInRange a.addr a.length r.addr r.size) = none := by
    refine List.find?_eq_none.mpr ?_
    intro r hr hrange
    exact hno r hr ((isAddrInRange_iff hwrap (hcache r hr)).mp hrange)
  simp only [processMstxHeapMem, hfind]

end Steps
/-- What the pass has built after the records `pre`. -/
structure ExtractInv (infos : AddrInfoSet) (pre : List AddrInfo) : Prop where
  ranges : (pre.foldl (extractStep false) ⟨[], .empty⟩).ranges =
    (pre.filter fun a => a.isOther && a.length ≠ 0).map fun a => ⟨a.addr, a.length⟩
  cache : CacheInv pre (pre.foldl (cutStep infos.elems) [])
    (pre.foldl (extractStep false) ⟨[], .empty⟩).cacheRtAclMems
  cut : ∀ h ∈ pre.foldl (cutStep infos.elems) [], h ∈ pre ∧ h.isHeap ∧ 0 < h.length.toNat

section Pass
variable {infos : AddrInfoSet} {pre suf : List AddrInfo} {a : AddrInfo}

theorem mem_of_split (hsplit : infos.elems = pre ++ a :: suf) : a ∈ infos := by
  rw [OrderedSet.mem_def, hsplit]
  simp

theorem before_of_mem_pre (hsplit : infos.elems = pre ++ a :: suf) {p : AddrInfo} (hp : p ∈ pre) :
    p.Before a := by
  have hsorted := infos.sorted
  rw [hsplit, List.pairwise_append] at hsorted
  exact hsorted.2.2 p hp a List.mem_cons_self

theorem mem_pre_iff (hsplit : infos.elems = pre ++ a :: suf) {p : AddrInfo} :
    p ∈ pre ↔ p ∈ infos ∧ p.Before a := by
  constructor
  · intro hp
    refine ⟨?_, before_of_mem_pre hsplit hp⟩
    rw [OrderedSet.mem_def, hsplit]
    exact List.mem_append_left _ hp
  · rintro ⟨hp, hbefore⟩
    have hsorted := infos.sorted
    rw [OrderedSet.mem_def, hsplit] at hp
    rw [hsplit, List.pairwise_append] at hsorted
    rcases List.mem_append.mp hp with hp | hp
    · exact hp
    · rcases List.mem_cons.mp hp with rfl | hp
      · exact absurd hbefore (Std.Irrefl.irrefl (r := AddrInfo.Before) _)
      · exact absurd (IsTrans.trans _ _ _ hbefore ((List.pairwise_cons.mp hsorted.2.1).1 p hp))
          (Std.Irrefl.irrefl (r := AddrInfo.Before) _)

theorem shareByte_iff {a h : AddrInfo} (ha : 0 < a.length.toNat) (hh : 0 < h.length.toNat) :
    shareByte a h = true ↔ ∃ b, b ∈ a.bytes ∧ b ∈ h.bytes := by
  simp only [shareByte, Bool.and_eq_true, decide_eq_true_eq, AddrInfo.mem_bytes]
  constructor
  · intro hshare
    exact ⟨max a.addr.toNat h.addr.toNat, by omega⟩
  · rintro ⟨b, hb⟩
    omega

theorem followsAllocation_iff (wp : WellPlaced infos) (ha : a ∈ infos) :
    followsAllocation infos.elems a = true ↔ ∃ p ∈ infos, p.isRtAcl ∧ p.Before a ∧
      p.addr.toNat ≤ a.addr.toNat ∧
      a.addr.toNat + a.length.toNat ≤ p.addr.toNat + p.length.toNat := by
  simp only [followsAllocation, List.any_eq_true, Bool.and_eq_true, decide_eq_true_eq, and_assoc]
  constructor <;> rintro ⟨p, hp, hrt, hbefore, hin⟩
  · exact ⟨p, hp, hrt, hbefore, (isAddrInRange_iff (wp.noWrap a ha) (wp.noWrap p hp)).mp hin⟩
  · exact ⟨p, hp, hrt, hbefore, (isAddrInRange_iff (wp.noWrap a ha) (wp.noWrap p hp)).mpr hin⟩

/-- A heap that is not cut out lies in no piece: its allocation is still to come,
or one of its bytes is gone already. -/
theorem uncovered_of_not_cut (wp : WellPlaced infos) (hsplit : infos.elems = pre ++ a :: suf)
    {cut : List AddrInfo} {cache : AddrsSet} (inv : CacheInv pre cut cache)
    (hcuts : ∀ h ∈ cut, 0 < h.length.toNat) (hheap : a.isHeap) (hpos : 0 < a.length.toNat)
    (hnot : ¬ (followsAllocation infos.elems a = true ∧ ∀ h ∈ cut, ¬ shareByte a h = true)) :
    processMstxHeapMem cache a = cache := by
  have ha := mem_of_split hsplit
  refine processMstxHeapMem_of_uncovered (wp.noWrap a ha) inv.noWrap ?_
  rintro r hr ⟨hstart, hstop⟩
  have hsub : ∀ b ∈ a.bytes, b ∈ r.bytes := by
    intro b hb
    rw [AddrInfo.mem_bytes] at hb
    rw [HostMemoryInfo.mem_bytes]
    omega
  have hfirst : a.addr.toNat ∈ a.bytes := AddrInfo.mem_bytes.mpr (by omega)
  obtain ⟨⟨q, hq, hqrt, hqb⟩, -⟩ := (inv.cover _).mp ⟨r, hr, hsub _ hfirst⟩
  have hne : a.length ≠ 0 := Words.pos_iff_ne_zero.mp hpos
  obtain ⟨p, hp, hprt, hap⟩ := wp.inside a ha hheap hne
  have hqi := (mem_pre_iff hsplit).mp hq
  obtain rfl : p = q := wp.disjoint p hp q hqi.1 hprt hqrt _ (hap hfirst) hqb
  refine hnot ⟨?_, ?_⟩
  · exact (followsAllocation_iff wp ha).mpr ⟨p, hp, hprt, hqi.2, subset_bounds hpos hap⟩
  · intro h hh hshare
    obtain ⟨b, hba, hbh⟩ := (shareByte_iff hpos (hcuts h hh)).mp hshare
    exact ((inv.cover b).mp ⟨r, hr, hsub b hba⟩).2 h hh hbh

theorem extractStep_of_empty {isExtra : Bool} {acc : Extraction} (h : a.length = 0) :
    extractStep isExtra acc a = acc := by
  simp only [extractStep, h, if_true]

theorem extractStep_rtAcl {acc : Extraction} (h : a.length ≠ 0) (hrt : a.isRtAcl) :
    extractStep false acc a =
      { acc with cacheRtAclMems := acc.cacheRtAclMems.insert ⟨a.addr, a.length⟩ } := by
  unfold AddrInfo.isRtAcl at hrt
  simp only [extractStep, h, hrt, Bool.false_and, Bool.false_eq_true, if_true, if_false]

theorem extractStep_heap {acc : Extraction} (h : a.length ≠ 0) (hheap : a.isHeap) :
    extractStep false acc a =
      { acc with cacheRtAclMems := processMstxHeapMem acc.cacheRtAclMems a } := by
  simp only [AddrInfo.isHeap, decide_eq_true_eq] at hheap
  simp [extractStep, h, hheap]

theorem extractStep_other {acc : Extraction} (h : a.length ≠ 0) (hother : a.isOther) :
    extractStep false acc a = { acc with ranges := acc.ranges ++ [⟨a.addr, a.length⟩] } := by
  simp only [AddrInfo.isOther, AddrInfo.isRtAcl, AddrInfo.isHeap, Bool.and_eq_true,
    Bool.not_eq_true', Bool.or_eq_false_iff, decide_eq_false_iff_not] at hother
  simp [extractStep, h, hother]

theorem cutStep_of_not_heap {infos cut : List AddrInfo} (h : a.isHeap = false) :
    cutStep infos cut a = cut := by
  simp [cutStep, h]

theorem not_rtAcl_of_heap (h : a.isHeap) : a.isRtAcl = false := by
  simp only [AddrInfo.isHeap, decide_eq_true_eq] at h
  simp [AddrInfo.isRtAcl, h]

/-- What one record does to the cached pieces and to the heaps cut out so far. -/
theorem CacheInv.step (wp : WellPlaced infos) (hsplit : infos.elems = pre ++ a :: suf)
    {cuts : List AddrInfo} {acc : Extraction} (inv : CacheInv pre cuts acc.cacheRtAclMems)
    (hcuts : ∀ h ∈ cuts, h ∈ pre ∧ h.isHeap ∧ 0 < h.length.toNat) :
    CacheInv (pre ++ [a]) (cutStep infos.elems cuts a)
      (extractStep false acc a).cacheRtAclMems := by
  have ha := mem_of_split hsplit
  have hwrap := wp.noWrap a ha
  by_cases hzero : a.length = 0
  · have hcut : cutStep infos.elems cuts a = cuts := by simp [cutStep, hzero]
    rw [extractStep_of_empty hzero, hcut]
    refine inv.skip fun b hb => ?_
    rw [AddrInfo.mem_bytes, hzero, UInt64.toNat_zero] at hb
    omega
  have hpos := Words.pos_iff_ne_zero.mpr hzero
  by_cases hheap : a.isHeap = true
  · have hrt := not_rtAcl_of_heap hheap
    rw [extractStep_heap hzero hheap]
    by_cases hcount : followsAllocation infos.elems a = true ∧ ∀ h ∈ cuts, ¬ shareByte a h = true
    · have hcut : cutStep infos.elems cuts a = cuts ++ [a] := by
        have hclear : ∀ h ∈ cuts, shareByte a h = false :=
          fun h hh => Bool.not_eq_true _ |>.mp (hcount.2 h hh)
        simpa [cutStep, hheap, hzero, hcount.1] using hclear
      rw [hcut]
      obtain ⟨p, hp, hprt, hbefore, hstart, hstop⟩ := (followsAllocation_iff wp ha).mp hcount.1
      have hsub : a.bytes ⊆ p.bytes := Set.Ico_subset_Ico hstart hstop
      refine inv.carve hrt hpos hwrap ((mem_pre_iff hsplit).mpr ⟨hp, hbefore⟩) hprt hsub ?_
      intro h hh
      have hle := (AddrInfo.before_iff h a).mp (before_of_mem_pre hsplit (hcuts h hh).1)
      have hno := hcount.2 h hh
      simp only [shareByte, Bool.and_eq_true, decide_eq_true_eq] at hno
      omega
    · have hcut : cutStep infos.elems cuts a = cuts := by
        simp only [cutStep, hheap, hzero, Bool.true_and, ne_eq, not_false_eq_true, decide_true]
        rw [if_neg]
        simpa [List.any_eq_true] using hcount
      rw [hcut, uncovered_of_not_cut wp hsplit inv (fun h hh => (hcuts h hh).2.2) hheap hpos hcount]
      exact inv.skip fun b _ => hrt
  have hnotHeap : a.isHeap = false := Bool.not_eq_true _ |>.mp hheap
  rw [cutStep_of_not_heap hnotHeap]
  by_cases hrt : a.isRtAcl = true
  · rw [extractStep_rtAcl hzero hrt]
    refine inv.alloc hrt hwrap ?_
    intro p hp hprt b hbp hba
    obtain ⟨hpi, hbefore⟩ := (mem_pre_iff hsplit).mp hp
    obtain rfl := wp.disjoint p hpi a ha hprt hrt b hbp hba
    exact Std.Irrefl.irrefl (r := AddrInfo.Before) _ hbefore
  · have hother : a.isOther = true := by simp [AddrInfo.isOther, hrt, hnotHeap]
    rw [extractStep_other hzero hother]
    exact inv.skip fun b _ => Bool.not_eq_true _ |>.mp hrt

theorem ranges_step (acc : Extraction) (a : AddrInfo) :
    (extractStep false acc a).ranges = acc.ranges ++
      (([a].filter fun a => a.isOther && a.length ≠ 0).map fun a => ⟨a.addr, a.length⟩) := by
  by_cases hzero : a.length = 0
  · simp [extractStep_of_empty hzero, hzero]
  by_cases hheap : a.isHeap = true
  · simp [extractStep_heap hzero hheap, AddrInfo.isOther, hheap]
  by_cases hrt : a.isRtAcl = true
  · simp [extractStep_rtAcl hzero hrt, AddrInfo.isOther, hrt]
  · have hother : a.isOther = true := by simp [AddrInfo.isOther, hrt, hheap]
    simp [extractStep_other hzero hother, hother, hzero]

theorem mem_cutStep {cuts : List AddrInfo} {h : AddrInfo}
    (hh : h ∈ cutStep infos.elems cuts a) :
    h ∈ cuts ∨ h = a ∧ a.isHeap ∧ a.length ≠ 0 := by
  unfold cutStep at hh
  split_ifs at hh with hcond
  · simp only [Bool.and_eq_true, decide_eq_true_eq] at hcond
    rcases List.mem_append.mp hh with hh | hh
    · exact Or.inl hh
    · exact Or.inr ⟨List.mem_singleton.mp hh, hcond.1.1.1, hcond.1.1.2⟩
  · exact Or.inl hh

theorem ExtractInv.step (wp : WellPlaced infos) (hsplit : infos.elems = pre ++ a :: suf)
    (inv : ExtractInv infos pre) : ExtractInv infos (pre ++ [a]) := by
  obtain ⟨hranges, hcache, hcut⟩ := inv
  refine ⟨?_, ?_, ?_⟩ <;> simp only [List.foldl_append, List.foldl_cons, List.foldl_nil]
  · rw [ranges_step, hranges, List.filter_append, List.map_append]
  · exact hcache.step wp hsplit hcut
  · intro h hh
    rcases mem_cutStep hh with hh | ⟨rfl, hheap, hne⟩
    · exact ⟨List.mem_append_left _ (hcut h hh).1, (hcut h hh).2⟩
    · exact ⟨by simp, hheap, Words.pos_iff_ne_zero.mpr hne⟩

end Pass

theorem extractInv (infos : AddrInfoSet) (wp : WellPlaced infos) :
    ExtractInv infos infos.elems := by
  refine Runs.prefix_induction (P := ExtractInv infos) infos.elems ?_ ?_
  · exact ⟨rfl, cacheInv_nil, fun h hh => by simp at hh⟩
  · intro pre a suf hsplit inv
    exact inv.step wp hsplit

/-- The bytes declared valid: every record that is no heap, without the heaps cut out. -/
theorem covered_iff (infos : AddrInfoSet) (wp : WellPlaced infos) (b : ℕ) :
    (∃ r ∈ extractValidMems infos, b ∈ r.bytes) ↔
      (∃ a ∈ infos, a.isOther ∧ b ∈ a.bytes) ∨
      (∃ p ∈ infos, p.isRtAcl ∧ b ∈ p.bytes) ∧ ∀ h ∈ cutHeaps infos, b ∉ h.bytes := by
  obtain ⟨hranges, hcache, -⟩ := extractInv infos wp
  simp only [extractValidMems, wp.noExtra, List.mem_append, or_and_right, exists_or]
  refine or_congr ?_ (hcache.cover b)
  rw [hranges]
  simp only [List.mem_map, List.mem_filter, Bool.and_eq_true, decide_eq_true_eq]
  constructor
  · rintro ⟨r, ⟨a, ⟨ha, hother, -⟩, rfl⟩, hb⟩
    exact ⟨a, ha, hother, hb⟩
  · rintro ⟨a, ha, hother, hb⟩
    refine ⟨⟨a.addr, a.length⟩, ⟨a, ⟨ha, hother, ?_⟩, rfl⟩, hb⟩
    intro hzero
    rw [AddrInfo.mem_bytes, hzero, UInt64.toNat_zero] at hb
    omega

def ValidByte (infos : AddrInfoSet) (b : ℕ) : Prop :=
  (∃ a ∈ infos, a.isOther ∧ b ∈ a.bytes) ∨
  (∃ p ∈ infos, p.isRtAcl ∧ b ∈ p.bytes) ∧ ∀ h ∈ infos, h.isHeap → b ∉ h.bytes

/-- The valid ranges are right exactly when each byte of a heap belongs to a heap
that was cut out or to a record valid in its own right. -/
theorem extract_covers_valid_bytes_iff (infos : AddrInfoSet) (wp : WellPlaced infos) :
    (∀ b, (∃ r ∈ extractValidMems infos, b ∈ r.bytes) ↔ ValidByte infos b) ↔
    ∀ h ∈ infos, h.isHeap → ∀ b ∈ h.bytes,
      (∃ c ∈ cutHeaps infos, b ∈ c.bytes) ∨ ∃ a ∈ infos, a.isOther ∧ b ∈ a.bytes := by
  have hcut := (extractInv infos wp).cut
  simp only [covered_iff infos wp, ValidByte]
  constructor
  · intro hvalid h hh hheap b hb
    by_contra hno
    rw [not_or, not_exists] at hno
    have hne : h.length ≠ 0 := by
      intro hzero
      rw [AddrInfo.mem_bytes, hzero, UInt64.toNat_zero] at hb
      omega
    obtain ⟨p, hp, hprt, hhp⟩ := wp.inside h hh hheap hne
    have hcovered := (hvalid b).mp (Or.inr ⟨⟨p, hp, hprt, hhp hb⟩,
      fun c hc hbc => hno.1 c ⟨hc, hbc⟩⟩)
    rcases hcovered with hother | ⟨-, hclear⟩
    · exact hno.2 hother
    · exact hclear h hh hheap hb
  · intro hheaps b
    constructor
    · rintro (hother | ⟨hp, hclear⟩)
      · exact Or.inl hother
      by_cases hin : ∃ h ∈ infos, h.isHeap ∧ b ∈ h.bytes
      · obtain ⟨h, hh, hheap, hb⟩ := hin
        rcases hheaps h hh hheap b hb with ⟨c, hc, hbc⟩ | hother
        · exact absurd hbc (hclear c hc)
        · exact Or.inl hother
      · exact Or.inr ⟨hp, fun h hh hheap hb => hin ⟨h, hh, hheap, hb⟩⟩
    · rintro (hother | ⟨hp, hclear⟩)
      · exact Or.inl hother
      · exact Or.inr ⟨hp, fun c hc => hclear c (hcut c hc).1 (hcut c hc).2.1⟩

def middleHeap : AddrInfoSet :=
  ⟨[⟨0x100, 0x64, .rt, .default, 0⟩, ⟨0x120, 0x10, .mstxHeap, .default, 0⟩], by decide⟩

def startHeap : AddrInfoSet :=
  ⟨[⟨0x100, 0x32, .mstxHeap, .default, 0⟩, ⟨0x100, 0x64, .rt, .default, 0⟩], by decide⟩

theorem wellPlaced_pair {infos : AddrInfoSet} {p h : AddrInfo}
    (hmem : ∀ a, a ∈ infos ↔ a = p ∨ a = h) (hp : p.memInfoSrc = .rt) (hh : h.memInfoSrc = .mstxHeap)
    (hpw : p.addr.toNat + p.length.toNat < 2 ^ 64) (hstart : p.addr.toNat ≤ h.addr.toNat)
    (hstop : h.addr.toNat + h.length.toNat ≤ p.addr.toNat + p.length.toNat) :
    WellPlaced infos where
  noExtra := by
    refine List.any_eq_false.mpr ?_
    intro a ha
    rcases (hmem a).mp ha with rfl | rfl <;> simp [hp, hh]
  noWrap a ha := by
    rcases (hmem a).mp ha with rfl | rfl <;> omega
  disjoint a ha c hc hart hcrt _ _ _ := by
    rcases (hmem a).mp ha with rfl | rfl <;> rcases (hmem c).mp hc with rfl | rfl <;>
      first | rfl | simp [AddrInfo.isRtAcl, hh] at hart hcrt
  inside a ha hheap _ := by
    refine ⟨p, (hmem p).mpr (Or.inl rfl), by simp [AddrInfo.isRtAcl, hp], ?_⟩
    rcases (hmem a).mp ha with rfl | rfl
    · exact subset_rfl
    · exact Set.Ico_subset_Ico hstart hstop

theorem middleHeap_wellPlaced : WellPlaced middleHeap :=
  wellPlaced_pair (p := ⟨0x100, 0x64, .rt, .default, 0⟩)
    (h := ⟨0x120, 0x10, .mstxHeap, .default, 0⟩) (by simp [middleHeap, OrderedSet.mem_def])
    rfl rfl (by decide) (by decide) (by decide)

theorem extract_covers_valid_bytes_middleHeap :
    WellPlaced middleHeap ∧
      ∀ b, (∃ r ∈ extractValidMems middleHeap, b ∈ r.bytes) ↔ ValidByte middleHeap b := by
  refine ⟨middleHeap_wellPlaced,
    (extract_covers_valid_bytes_iff middleHeap middleHeap_wellPlaced).mpr ?_⟩
  have hcut : cutHeaps middleHeap = [⟨0x120, 0x10, .mstxHeap, .default, 0⟩] := by decide
  intro h hh hheap b hb
  refine Or.inl ⟨h, ?_, hb⟩
  rw [hcut]
  simp only [middleHeap, OrderedSet.mem_def, List.mem_cons, List.not_mem_nil, or_false] at hh
  rcases hh with rfl | rfl
  · simp [AddrInfo.isHeap] at hheap
  · simp

/-- The heap is visited before its allocation, so nothing is cut out for it. -/
theorem extract_keeps_startHeap :
    WellPlaced startHeap ∧ (∃ r ∈ extractValidMems startHeap, 0x100 ∈ r.bytes) ∧
      ¬ ValidByte startHeap 0x100 := by
  refine ⟨?_, ⟨⟨0x100, 0x64⟩, by decide, by simp⟩, ?_⟩
  · exact wellPlaced_pair (p := ⟨0x100, 0x64, .rt, .default, 0⟩)
      (h := ⟨0x100, 0x32, .mstxHeap, .default, 0⟩)
      (by simp [startHeap, OrderedSet.mem_def, or_comm]) rfl rfl (by decide) (by decide) (by decide)
  · simp [ValidByte, startHeap, OrderedSet.mem_def, AddrInfo.isOther, AddrInfo.isRtAcl,
      AddrInfo.isHeap]

end MemoryManageCoverage
end Msopcom
