import Msopcom.MemoryManage

set_option autoImplicit false

/-!
# What the calls of one party leave behind

Frees look for an address and a class of sources. The records under the keys of
one party are touched by nobody else, and they are gone once every key has been
freed as often as it was allocated.
-/
namespace Msopcom.MemoryManageFrame
open MemoryManage

/-- The address and the source under which a record is freed. -/
abbrev Key := UInt64 × MemInfoSrc

def sameKey (k l : Key) : Bool := k.1 = l.1 && isSameMemInfoSrc k.2 l.2

def keyOf (it : AddrInfo) : Key := (it.addr, it.memInfoSrc)

theorem matchesFree_eq (addr : UInt64) (infoSrc : MemInfoSrc) :
    matchesFree addr infoSrc = fun it => sameKey (keyOf it) (addr, infoSrc) := rfl

section Keys

def sourceClass (src : MemInfoSrc) : MemInfoSrc := if src = .acl then .rt else src

theorem isSameMemInfoSrc_iff (a b : MemInfoSrc) :
    isSameMemInfoSrc a b = true ↔ sourceClass a = sourceClass b := by
  cases a <;> cases b <;> decide

theorem sameKey_iff (k l : Key) :
    sameKey k l = true ↔ k.1 = l.1 ∧ sourceClass k.2 = sourceClass l.2 := by
  rw [sameKey, Bool.and_eq_true, decide_eq_true_eq, isSameMemInfoSrc_iff]

theorem sameKey_refl (k : Key) : sameKey k k = true := (sameKey_iff k k).mpr ⟨rfl, rfl⟩

theorem sameKey_comm (k l : Key) : sameKey k l = sameKey l k := by
  rw [Bool.eq_iff_iff, sameKey_iff, sameKey_iff, eq_comm, @eq_comm _ (sourceClass k.2)]

theorem sameKey_congr {k l : Key} (h : sameKey k l = true) (j : Key) :
    sameKey k j = sameKey l j := by
  rw [sameKey_iff] at h
  rw [Bool.eq_iff_iff, sameKey_iff, sameKey_iff, h.1, h.2]

def touches (keys : List Key) (k : Key) : Bool := keys.any fun l => sameKey k l

theorem touches_congr {keys : List Key} {k l : Key} (h : sameKey k l = true) :
    touches keys k = touches keys l := by
  unfold touches
  congr 1
  funext j
  exact sameKey_congr h j

theorem respects_keyOf (p : Key → Bool) :
    OrderedSet.Respects AddrInfo.Before fun it => p (keyOf it) := by
  intro a b hab hba
  obtain ⟨haddr, -, hsrc⟩ := AddrInfo.eq_of_not_before hab hba
  simp only [keyOf, haddr, hsrc]

end Keys

def applySet (s : AddrInfoSet) : MemoryOp → AddrInfoSet
  | .malloc addr infoSrc size _ => s.insert ⟨addr, size, infoSrc, .default, 0⟩
  | .free addr infoSrc => s.eraseFirst (matchesFree addr infoSrc)
  | .count _ => s
  | .update => s.filter isValidMem

theorem memoryOpAddrInfos_apply (m : MemoryManage) (op : MemoryOp) :
    (op.apply m).memoryOpAddrInfos = applySet m.memoryOpAddrInfos op := by
  cases op with
  | malloc => rfl
  | free addr infoSrc =>
    change (m.cacheFree addr infoSrc).memoryOpAddrInfos = _
    unfold cacheFree
    split_ifs with hfound
    · rfl
    · refine OrderedSet.ext_elems (List.eraseP_of_forall_not ?_).symm
      intro it hit hmatch
      exact hfound (List.any_eq_true.mpr ⟨it, hit, hmatch⟩)
  | count => rfl
  | update => rfl

theorem memoryOpAddrInfos_run (m : MemoryManage) (ops : List MemoryOp) :
    (ops.foldl MemoryOp.apply m).memoryOpAddrInfos = ops.foldl applySet m.memoryOpAddrInfos := by
  induction ops generalizing m with
  | nil => rfl
  | cons op ops ih => rw [List.foldl_cons, ih, memoryOpAddrInfos_apply, List.foldl_cons]

def untouched (keys : List Key) (s : AddrInfoSet) : AddrInfoSet :=
  s.filter fun it => !touches keys (keyOf it)

section Frame
variable {keys : List Key}

def Owned (keys : List Key) : MemoryOp → Prop
  | .malloc addr infoSrc _ _ => touches keys (addr, infoSrc) = true
  | .free addr infoSrc => touches keys (addr, infoSrc) = true
  | .count _ => True
  | .update => False

def Foreign (keys : List Key) : MemoryOp → Prop
  | .malloc addr infoSrc _ _ => touches keys (addr, infoSrc) = false
  | .free addr infoSrc => touches keys (addr, infoSrc) = false
  | .count _ => True
  | .update => False

theorem untouched_owned {op : MemoryOp} (h : Owned keys op) (s : AddrInfoSet) :
    untouched keys (applySet s op) = untouched keys s := by
  cases op with
  | malloc addr infoSrc size =>
    change touches keys (addr, infoSrc) = true at h
    refine OrderedSet.filter_insert_of_neg ?_ s
    rw [keyOf, h, Bool.not_true]
  | free addr infoSrc =>
    refine OrderedSet.filter_eraseFirst_of_disjoint fun it hit => ?_
    rw [matchesFree_eq] at hit
    rw [touches_congr hit, Bool.not_eq_false']
    exact h
  | count => rfl
  | update => exact h.elim

theorem untouched_foreign {op : MemoryOp} (h : Foreign keys op) (s : AddrInfoSet) :
    untouched keys (applySet s op) = applySet (untouched keys s) op := by
  cases op with
  | malloc addr infoSrc size =>
    change touches keys (addr, infoSrc) = false at h
    refine OrderedSet.filter_insert_of_pos (respects_keyOf fun k => !touches keys k) ?_ s
    rw [keyOf, h, Bool.not_false]
  | free addr infoSrc =>
    refine OrderedSet.filter_eraseFirst_of_imp fun it hit => ?_
    rw [matchesFree_eq] at hit
    rw [touches_congr hit, Bool.not_eq_true']
    exact h
  | count => rfl
  | update => exact h.elim

theorem untouched_run_owned {ops : List MemoryOp} (h : ∀ op ∈ ops, Owned keys op)
    (s : AddrInfoSet) : untouched keys (ops.foldl applySet s) = untouched keys s := by
  induction ops generalizing s with
  | nil => rfl
  | cons op ops ih =>
    rw [List.forall_mem_cons] at h
    rw [List.foldl_cons, ih h.2, untouched_owned h.1]

theorem untouched_run_foreign {ops : List MemoryOp} (h : ∀ op ∈ ops, Foreign keys op)
    (s : AddrInfoSet) :
    untouched keys (ops.foldl applySet s) = ops.foldl applySet (untouched keys s) := by
  induction ops generalizing s with
  | nil => rfl
  | cons op ops ih =>
    rw [List.forall_mem_cons] at h
    rw [List.foldl_cons, ih h.2, untouched_foreign h.1, List.foldl_cons]

end Frame

def pending (k : Key) (s : AddrInfoSet) : ℕ := s.elems.countP fun it => sameKey (keyOf it) k

def allocates (k : Key) : MemoryOp → Bool
  | .malloc addr infoSrc _ _ => sameKey (addr, infoSrc) k
  | _ => false

section Pending
variable (k : Key)

theorem pending_apply_le (s : AddrInfoSet) (op : MemoryOp) :
    pending k (applySet s op) ≤ pending k s + [op].countP (allocates k) := by
  rw [List.countP_singleton]
  cases op with
  | malloc addr infoSrc size =>
    have hle : pending k (s.insert ⟨addr, size, infoSrc, .default, 0⟩) ≤ _ :=
      OrderedSet.countP_place_le (fun it => sameKey (keyOf it) k) _ s.elems
    rw [List.countP_cons] at hle
    exact hle
  | free addr infoSrc => exact OrderedSet.countP_eraseP_le _ _ _
  | count => exact le_refl _
  | update => exact (List.filter_sublist).countP_le

theorem pending_run_le (ops : List MemoryOp) (s : AddrInfoSet) :
    pending k (ops.foldl applySet s) ≤ pending k s + ops.countP (allocates k) := by
  induction ops generalizing s with
  | nil => exact le_refl _
  | cons op ops ih =>
    have hstep := pending_apply_le k s op
    have hrest := ih (applySet s op)
    rw [List.foldl_cons, ← List.singleton_append, List.countP_append]
    omega

/-- Each free of a key takes one record away while there is one. -/
theorem pending_run_frees (keys : List Key) (s : AddrInfoSet) :
    pending k ((keys.map fun l => MemoryOp.free l.1 l.2).foldl applySet s) ≤
      pending k s - keys.countP (sameKey k) := by
  induction keys generalizing s with
  | nil => exact le_refl _
  | cons l keys ih =>
    rw [List.map_cons, List.foldl_cons, List.countP_cons]
    refine (ih _).trans ?_
    by_cases hkey : sameKey k l = true
    · have hself : pending k (applySet s (.free l.1 l.2)) = pending k s - 1 := by
        have hmatch : matchesFree l.1 l.2 = fun it => sameKey (keyOf it) k := by
          rw [matchesFree_eq]
          funext it
          rw [sameKey_comm, sameKey_comm _ k]
          exact (sameKey_congr hkey _).symm
        change (s.elems.eraseP (matchesFree l.1 l.2)).countP _ = _
        rw [hmatch]
        exact OrderedSet.countP_eraseP_self _ _
      rw [hself, hkey, if_pos rfl]
      omega
    · have hle := pending_apply_le k s (.free l.1 l.2)
      rw [List.countP_singleton] at hle
      change _ ≤ pending k s at hle
      rw [if_neg hkey]
      omega

/-- Frees that follow the allocations take back what was allocated. -/
theorem pending_balance (ops : List MemoryOp) (keys : List Key) (s : AddrInfoSet) :
    pending k ((keys.map fun l => MemoryOp.free l.1 l.2).foldl applySet (ops.foldl applySet s)) ≤
      pending k s + ops.countP (allocates k) - keys.countP (sameKey k) := by
  have hfrees := pending_run_frees k keys (ops.foldl applySet s)
  have hops := pending_run_le k ops s
  omega

end Pending

theorem untouched_of_no_pending {keys : List Key} {s : AddrInfoSet}
    (h : ∀ k ∈ keys, pending k s = 0) : untouched keys s = s := by
  refine OrderedSet.ext_elems (List.filter_eq_self.mpr ?_)
  intro it hit
  rw [Bool.not_eq_true', touches, List.any_eq_false]
  intro k hk
  exact List.countP_eq_zero.mp (h k hk) it hit

theorem no_pending_iff {k : Key} {s : AddrInfoSet} :
    pending k s = 0 ↔ ∀ it ∈ s, sameKey (keyOf it) k = false := by
  rw [pending, List.countP_eq_zero]
  simp only [Bool.not_eq_true]
  rfl

end Msopcom.MemoryManageFrame
