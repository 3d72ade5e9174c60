import Msopcom.MemoryManageFrame
import Msopcom.ReportOp

set_option autoImplicit false

/-!
# `ReportOpFreeInfo` undoes `ReportOpMallocInfo`

Whatever the application stores and frees at other addresses in between, the
operator's own records are gone afterwards and nobody else's.
-/
namespace Msopcom.ReportOpUndo
open MemoryManage MemoryManageFrame

inductive LaunchArgs where
  | rtArgsEx (argsInfo : Option RtArgsEx)
  | aclrt (launchArgs : AclrtLaunchArgsInfo)

def LaunchArgs.reportOpMallocInfo (ctx : KernelContext) :
    LaunchArgs → Reporter → OpMemInfo → Reporter × OpMemInfo
  | .rtArgsEx argsInfo => Msopcom.reportOpMallocInfo ctx argsInfo
  | .aclrt launchArgs => reportOpMallocInfoAcl ctx launchArgs

def mallocOf (it : AddrInfo) : MemoryOp := .malloc it.addr it.memInfoSrc it.length true

/-- What the overloads do to the table: nothing, or one allocation for each of the
records that are to be freed. -/
def Reports (r : Reporter) (o : OpMemInfo) (launch : Reporter × OpMemInfo) : Prop :=
  (launch = (r, o)) ∨ ∃ infos : List AddrInfo, infos.Perm launch.2.uniqueAddrInfos ∧
    launch.1.manage = (infos.map mallocOf).foldl MemoryOp.apply r.manage

theorem manage_reportUnique (r : Reporter) (o : OpMemInfo) :
    (reportUnique r o).manage = (o.uniqueAddrInfos.map mallocOf).foldl MemoryOp.apply r.manage := by
  unfold reportUnique
  generalize o.uniqueAddrInfos = l
  induction l generalizing r with
  | nil => rfl
  | cons it l ih =>
    rw [List.foldl_cons, ih]
    rfl

theorem manage_reportTiling (r : Reporter) (o : OpMemInfo) (addr size : UInt64)
    (desc : MemInfoDesc) :
    (reportTiling (reportUnique r o) o addr size desc).1.manage =
      ((o.uniqueAddrInfos ++ [(⟨addr, size, .bypass, desc, 0⟩ : AddrInfo)]).map mallocOf).foldl
        MemoryOp.apply r.manage := by
  rw [List.map_append, List.foldl_append, ← manage_reportUnique]
  rfl

theorem reports_unique (r : Reporter) (o₀ o : OpMemInfo) : Reports r o₀ (reportUnique r o, o) :=
  Or.inr ⟨o.uniqueAddrInfos, List.Perm.refl _, manage_reportUnique r o⟩

theorem reports_tiling (r : Reporter) (o₀ o : OpMemInfo) (addr size : UInt64)
    (desc : MemInfoDesc) : Reports r o₀ (reportTiling (reportUnique r o) o addr size desc) :=
  Or.inr ⟨_, List.perm_append_comm, manage_reportTiling r o addr size desc⟩

theorem reports_launch (ctx : KernelContext) (args : LaunchArgs) (r : Reporter) (o : OpMemInfo) :
    Reports r o (args.reportOpMallocInfo ctx r o) := by
  cases args with
  | rtArgsEx argsInfo =>
    change Reports r o (Msopcom.reportOpMallocInfo ctx argsInfo r o)
    cases argsInfo with
    | none => exact Or.inl rfl
    | some a =>
      cases hargs : a.args with
      | none =>
        simp only [Msopcom.reportOpMallocInfo, hargs]
        exact Or.inl rfl
      | some buff =>
        simp only [Msopcom.reportOpMallocInfo, hargs]
        generalize collectAddrInfos ctx buff _ _ o = o'
        split_ifs
        · exact reports_unique r o o'
        · exact reports_unique r o o'
        · exact reports_tiling r o o' _ _ _
  | aclrt launchArgs =>
    change Reports r o (reportOpMallocInfoAcl ctx launchArgs r o)
    cases hargs : launchArgs.hostArgs with
    | none =>
      simp only [reportOpMallocInfoAcl, hargs]
      exact Or.inl rfl
    | some buff =>
      simp only [reportOpMallocInfoAcl, hargs]
      generalize collectAddrInfos ctx buff _ _ o = o'
      by_cases hnum : launchArgs.placeHolderNum = 0
      · rw [if_pos hnum]
        exact reports_unique r o o'
      · rw [if_neg hnum]
        exact reports_tiling r o o' _ _ _

theorem manage_reportOpFreeInfo (r : Reporter) (o : OpMemInfo) :
    (reportOpFreeInfo r o).1.manage =
      (((o.uniqueAddrInfos.map keyOf).map fun k => MemoryOp.free k.1 k.2).foldl
        MemoryOp.apply r.manage).updateMemoryOp := by
  unfold reportOpFreeInfo
  dsimp only
  congr 1
  generalize o.uniqueAddrInfos = l
  induction l generalizing r with
  | nil => rfl
  | cons it l ih =>
    rw [List.foldl_cons, ih]
    rfl

section Undo
variable {keys : List Key} {mallocs : List AddrInfo} {ops : List MemoryOp} {s : AddrInfoSet}

theorem owned_mallocs (h : ∀ it ∈ mallocs, keyOf it ∈ keys) :
    ∀ op ∈ mallocs.map mallocOf, Owned keys op := by
  intro op hop
  obtain ⟨it, hit, rfl⟩ := List.mem_map.mp hop
  exact List.any_eq_true.mpr ⟨keyOf it, h it hit, sameKey_refl _⟩

theorem owned_frees : ∀ op ∈ keys.map fun k => MemoryOp.free k.1 k.2, Owned keys op := by
  intro op hop
  obtain ⟨k, hk, rfl⟩ := List.mem_map.mp hop
  exact List.any_eq_true.mpr ⟨k, hk, sameKey_refl _⟩

theorem countP_allocates_mallocs (k : Key) :
    (mallocs.map mallocOf).countP (allocates k) = (mallocs.map keyOf).countP (sameKey k) := by
  rw [List.countP_map, List.countP_map]
  congr 1
  funext it
  exact sameKey_comm _ _

theorem countP_allocates_foreign (h : ∀ op ∈ ops, Foreign keys op) {k : Key} (hk : k ∈ keys) :
    ops.countP (allocates k) = 0 := by
  rw [List.countP_eq_zero]
  intro op hop hall
  have hforeign := h op hop
  cases op with
  | malloc addr infoSrc size upd =>
    change touches keys (addr, infoSrc) = false at hforeign
    rw [touches, List.any_eq_false] at hforeign
    exact hforeign k hk hall
  | free addr infoSrc => simp [allocates] at hall
  | count n => simp [allocates] at hall
  | update => simp [allocates] at hall

/-- Allocations under the keys, foreign calls, and a free for each key leave what
the foreign calls alone would have left. -/
theorem undo (hkeys : (mallocs.map keyOf).Perm keys ∨ mallocs = [])
    (hforeign : ∀ op ∈ ops, Foreign keys op)
    (hs : ∀ k ∈ keys, pending k s = 0) :
    (keys.map fun k => MemoryOp.free k.1 k.2).foldl applySet
        (ops.foldl applySet ((mallocs.map mallocOf).foldl applySet s)) =
      ops.foldl applySet s := by
  have hmallocs : ∀ it ∈ mallocs, keyOf it ∈ keys := by
    intro it hit
    rcases hkeys with hperm | rfl
    · exact hperm.subset (List.mem_map_of_mem hit)
    · simp at hit
  have hcount : ∀ k, (mallocs.map keyOf).countP (sameKey k) ≤ keys.countP (sameKey k) := by
    intro k
    rcases hkeys with hperm | rfl
    · exact (hperm.countP_eq _).le
    · exact Nat.zero_le _
  have hgone : ∀ k ∈ keys, pending k ((keys.map fun k => MemoryOp.free k.1 k.2).foldl applySet
      (ops.foldl applySet ((mallocs.map mallocOf).foldl applySet s))) = 0 := by
    intro k hk
    have hbalance := pending_balance k (mallocs.map mallocOf ++ ops) keys s
    rw [List.foldl_append, List.countP_append, countP_allocates_foreign hforeign hk,
      countP_allocates_mallocs, hs k hk] at hbalance
    have hle := hcount k
    omega
  have hafter : ∀ k ∈ keys, pending k (ops.foldl applySet s) = 0 := by
    intro k hk
    have hops := pending_run_le k ops s
    rw [countP_allocates_foreign hforeign hk, hs k hk] at hops
    omega
  rw [← untouched_of_no_pending hgone, untouched_run_owned owned_frees,
    untouched_run_foreign hforeign, untouched_run_owned (owned_mallocs hmallocs),
    ← untouched_run_foreign hforeign, untouched_of_no_pending hafter]

end Undo

/-- A call of `CacheMemory` at an address other than the given ones. -/
def CachesElsewhere (addrs : List UInt64) : MemoryOp → Prop
  | .malloc addr _ _ _ => addr ∉ addrs
  | .free addr _ => addr ∉ addrs
  | .count _ => False
  | .update => False

theorem foreign_of_elsewhere {infos : List AddrInfo} {op : MemoryOp}
    (h : CachesElsewhere (infos.map AddrInfo.addr) op) : Foreign (infos.map keyOf) op := by
  have hne : ∀ addr infoSrc, addr ∉ infos.map AddrInfo.addr →
      touches (infos.map keyOf) (addr, infoSrc) = false := by
    intro addr infoSrc haddr
    rw [touches, List.any_eq_false]
    intro k hk hsame
    obtain ⟨it, hit, rfl⟩ := List.mem_map.mp hk
    exact haddr (List.mem_map.mpr ⟨it, hit, ((sameKey_iff _ _).mp hsame).1.symm⟩)
  cases op with
  | malloc addr infoSrc => exact hne addr infoSrc h
  | free addr infoSrc => exact hne addr infoSrc h
  | count => exact h.elim
  | update => exact h.elim

/-- After the frees the table holds what it held before and what the application
did in between, without records of a null address or an empty range. -/
theorem freeInfo_undoes_mallocInfo (ctx : KernelContext) (args : LaunchArgs) (r : Reporter)
    (o : OpMemInfo) (ops : List MemoryOp) (sent : List HostMemRecord)
    (hclear : ∀ u ∈ (args.reportOpMallocInfo ctx r o).2.uniqueAddrInfos,
      ∀ it ∈ r.manage.memoryOpAddrInfos,
        ¬ (it.addr = u.addr ∧ isSameMemInfoSrc it.memInfoSrc u.memInfoSrc = true))
    (hops : ∀ op ∈ ops, CachesElsewhere
      ((args.reportOpMallocInfo ctx r o).2.uniqueAddrInfos.map AddrInfo.addr) op) :
    let launch := args.reportOpMallocInfo ctx r o
    let final := (reportOpFreeInfo ⟨ops.foldl MemoryOp.apply launch.1.manage, sent⟩ launch.2).1.manage
    final.memoryOpAddrInfos =
        (ops.foldl MemoryOp.apply r.manage).memoryOpAddrInfos.filter isValidMem ∧
      final.mallocCount = UInt32.ofNat final.memoryOpAddrInfos.size := by
  intro launch final
  refine ⟨?_, ?_⟩
  · have hforeign : ∀ op ∈ ops, Foreign (launch.2.uniqueAddrInfos.map keyOf) op :=
      fun op hop => foreign_of_elsewhere (hops op hop)
    have hpending : ∀ k ∈ launch.2.uniqueAddrInfos.map keyOf,
        pending k r.manage.memoryOpAddrInfos = 0 := by
      intro k hk
      obtain ⟨u, hu, rfl⟩ := List.mem_map.mp hk
      rw [no_pending_iff]
      intro it hit
      rw [← Bool.not_eq_true, sameKey, Bool.and_eq_true, decide_eq_true_eq]
      exact hclear u hu it hit
    have hundo : ∃ mallocs : List AddrInfo,
        ((mallocs.map keyOf).Perm (launch.2.uniqueAddrInfos.map keyOf) ∨ mallocs = []) ∧
        launch.1.manage = (mallocs.map mallocOf).foldl MemoryOp.apply r.manage := by
      rcases reports_launch ctx args r o with hnone | ⟨infos, hperm, hmanage⟩
      · refine ⟨[], Or.inr rfl, ?_⟩
        change (args.reportOpMallocInfo ctx r o).1.manage = _
        rw [hnone]
        rfl
      · exact ⟨infos, Or.inl (hperm.map keyOf), hmanage⟩
    obtain ⟨mallocs, hkeys, hmanage⟩ := hundo
    have hset := undo hkeys hforeign hpending
    change (reportOpFreeInfo _ _).1.manage.memoryOpAddrInfos = _
    rw [manage_reportOpFreeInfo]
    change (MemoryManage.memoryOpAddrInfos _).filter isValidMem = _
    rw [memoryOpAddrInfos_run, memoryOpAddrInfos_run, hmanage, memoryOpAddrInfos_run, hset,
      memoryOpAddrInfos_run]
  · change (reportOpFreeInfo _ _).1.manage.mallocCount =
      UInt32.ofNat (reportOpFreeInfo _ _).1.manage.memoryOpAddrInfos.size
    rw [manage_reportOpFreeInfo]
    rfl

def oneAllocation : Reporter := ⟨MemoryManage.reset.cacheMalloc 0x9000 .rt 0x100, []⟩

def tensorAndTiling : LaunchArgs := .aclrt {
  hostArgs := some
    [0, 0x10, 0, 0, 0, 0, 0, 0, 0, 0x20, 0, 0, 0, 0, 0, 0, 7, 0, 0, 0, 0, 0, 0, 0]
  argsSize := 24
  placeHolderArray := some [⟨8, 16⟩]
  placeHolderNum := 1 }

def tensorLaunch : Reporter × OpMemInfo :=
  tensorAndTiling.reportOpMallocInfo
    { mc2CtxFlag := false, throughAdumpFlag := false, needOverflowStatus := false, deviceId := 0,
      readHcclCombinOpParam := fun _ => none }
    oneAllocation { inputParamsAddrInfos := [⟨0, 64, .extra, .input, 0⟩] }

theorem freeInfo_undoes_tensorLaunch :
    let ops := [MemoryOp.malloc 0x8000 .rt 0x20 true, .free 0x7000 .rt]
    let final := (reportOpFreeInfo ⟨ops.foldl MemoryOp.apply tensorLaunch.1.manage, []⟩
      tensorLaunch.2).1.manage
    final.memoryOpAddrInfos =
        (ops.foldl MemoryOp.apply oneAllocation.manage).memoryOpAddrInfos.filter isValidMem ∧
      final.mallocCount = UInt32.ofNat final.memoryOpAddrInfos.size := by
  refine freeInfo_undoes_mallocInfo _ tensorAndTiling oneAllocation _ _ _ ?_ ?_
  · intro u hu it hit
    obtain rfl := List.mem_singleton.mp hit
    revert u
    decide
  · intro op hop
    rcases List.mem_pair.mp hop with rfl | rfl <;> change _ ∉ _ <;> decide

/-- An empty range stored in between is erased along with the operator's records. -/
theorem freeInfo_erases_empty_range :
    let op := MemoryOp.malloc 0x8000 .rt 0 true
    let final := (reportOpFreeInfo ⟨op.apply tensorLaunch.1.manage, []⟩ tensorLaunch.2).1.manage
    0x8000 ∉ tensorLaunch.2.uniqueAddrInfos.map AddrInfo.addr ∧
      final.memoryOpAddrInfos.elems = [⟨0x9000, 0x100, .rt, .default, 0⟩] ∧
      (op.apply oneAllocation.manage).memoryOpAddrInfos.elems =
        [⟨0x8000, 0, .rt, .default, 0⟩, ⟨0x9000, 0x100, .rt, .default, 0⟩] := by
  decide

end Msopcom.ReportOpUndo
