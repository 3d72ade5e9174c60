import Msopcom.MemoryManage
import Msopcom.RecordLayout
import Msopcom.Runs

set_option autoImplicit false

/-!
# Allocations seen at two layers

The hooks of the runtime and of the ACL runtime for allocations and mappings. An ACL function
may call its function of the runtime, which is then hooked as well, and the layer manager has
to keep one of the two from recording.
-/
namespace Msopcom.LayeredRecords
open Runs

/-! ## The layers -/

inductive RtFunc
  | rtMalloc
  | rtFree
  | rtMapMem
  | rtUnmapMem
  deriving DecidableEq, Repr

inductive AclFunc
  | aclrtMallocImpl
  | aclrtMallocWithCfgImpl
  | aclrtFreeImpl
  | aclrtMapMemImpl
  | aclrtUnmapMemImpl
  deriving DecidableEq, Repr

/-- The entries of the table for these functions. -/
def aclToRuntime : AclFunc → List RtFunc
  | .aclrtMallocImpl => [.rtMalloc]
  | .aclrtMallocWithCfgImpl => []
  | .aclrtFreeImpl => [.rtFree]
  | .aclrtMapMemImpl => [.rtMapMem]
  | .aclrtUnmapMemImpl => [.rtUnmapMem]

def parentInCallStack (layers : List AclFunc) (func : RtFunc) : Bool :=
  layers.any fun p => (aclToRuntime p).contains func

/-! ## The hooks -/

/-- The arguments of a call that the hooks look at, and its result. The address of an allocation
is the one that it gives. -/
structure Args where
  addr : UInt64
  size : UInt64
  ret : Int32
  deriving DecidableEq, Repr

structure State where
  layers : List AclFunc := []
  memory : MemoryManage := .reset
  reports : List HostMemRecord := []

def notify (record : HostMemRecord) (s : State) : State :=
  { s with reports := s.reports ++ [record] }

/-- The record of an allocation is cached and sent. -/
def recordMalloc (infoSrc : MemInfoSrc) (addr size : UInt64) (s : State) : State :=
  notify { type := .malloc, infoSrc, dstAddr := addr, memSize := size }
    { s with memory := s.memory.cacheMalloc addr infoSrc size }

def recordFree (infoSrc : MemInfoSrc) (addr : UInt64) (s : State) : State :=
  notify { type := .free, infoSrc, dstAddr := addr }
    { s with memory := s.memory.cacheFree addr infoSrc }

/-- A mapping is only sent. -/
def reportMap (infoSrc : MemInfoSrc) (addr size : UInt64) (s : State) : State :=
  notify { type := .malloc, infoSrc, dstAddr := addr, memSize := size } s

def reportUnmap (infoSrc : MemInfoSrc) (addr : UInt64) (s : State) : State :=
  notify { type := .free, infoSrc, dstAddr := addr, memSize := 0 } s

def blockAlignSize : UInt32 := 32

/-- The size is rounded in 32 bits. -/
def aclMemSize (size : UInt64) : UInt64 :=
  (ceilByAlignSize blockAlignSize size.toUInt32).toUInt64 + blockAlignSize.toUInt64

def rtMallocPost (a : Args) (s : State) : State :=
  if a.ret ≠ 0 then s else recordMalloc .rt a.addr a.size s

def rtFreePre (a : Args) (s : State) : State := recordFree .rt a.addr s

def rtMapMemPost (a : Args) (s : State) : State := reportMap .rt a.addr a.size s

def rtUnmapMemPre (a : Args) (s : State) : State := reportUnmap .rt a.addr s

def aclrtMallocImplPost (a : Args) (s : State) : State :=
  if a.ret ≠ 0 then s else recordMalloc .acl a.addr (aclMemSize a.size) s

def aclrtMallocWithCfgImplPost (a : Args) (s : State) : State :=
  if a.ret ≠ 0 then s else recordMalloc .acl a.addr (aclMemSize a.size) s

def aclrtFreeImplPre (a : Args) (s : State) : State := recordFree .acl a.addr s

def aclrtMapMemImplPost (a : Args) (s : State) : State :=
  if a.ret ≠ 0 then s else reportMap .acl a.addr a.size s

def aclrtUnmapMemImplPre (a : Args) (s : State) : State := reportUnmap .acl a.addr s

/-! ## The bound functions -/

/-- `HijackedFunc::Call` of a function of the runtime, which calls no hooked function. -/
def RtFunc.hijacked (f : RtFunc) (a : Args) (s : State) : State :=
  match f with
  | .rtMalloc => rtMallocPost a s
  | .rtFree => rtFreePre a s
  | .rtMapMem => rtMapMemPost a s
  | .rtUnmapMem => rtUnmapMemPre a s

def RtFunc.call (f : RtFunc) (a : Args) (s : State) : State :=
  if parentInCallStack s.layers f then s else f.hijacked a s

def layerGuard (func : AclFunc) (body : State → State) (s : State) : State :=
  let s := body { s with layers := func :: s.layers }
  { s with layers := s.layers.drop 1 }

/-- The function of the runtime that an ACL function may call. -/
def AclFunc.runtime : AclFunc → RtFunc
  | .aclrtMallocImpl | .aclrtMallocWithCfgImpl => .rtMalloc
  | .aclrtFreeImpl => .rtFree
  | .aclrtMapMemImpl => .rtMapMem
  | .aclrtUnmapMemImpl => .rtUnmapMem

/-- The original function, with the arguments of the function of the runtime if it calls it. -/
def AclFunc.origin (f : AclFunc) (inner : Option Args) (s : State) : State :=
  match inner with
  | none => s
  | some a => f.runtime.call a s

def AclFunc.call (f : AclFunc) (a : Args) (inner : Option Args) (s : State) : State :=
  match f with
  | .aclrtMallocImpl =>
    layerGuard .aclrtMallocImpl (fun s => aclrtMallocImplPost a (f.origin inner s)) s
  | .aclrtMallocWithCfgImpl => aclrtMallocWithCfgImplPost a (f.origin inner s)
  | .aclrtFreeImpl =>
    layerGuard .aclrtFreeImpl (fun s => f.origin inner (aclrtFreeImplPre a s)) s
  | .aclrtMapMemImpl =>
    layerGuard .aclrtMapMemImpl (fun s => aclrtMapMemImplPost a (f.origin inner s)) s
  | .aclrtUnmapMemImpl =>
    layerGuard .aclrtUnmapMemImpl (fun s => f.origin inner (aclrtUnmapMemImplPre a s)) s

/-- A call of the application. -/
inductive Call
  | runtime (f : RtFunc) (a : Args)
  | acl (f : AclFunc) (a : Args) (inner : Option Args)
  deriving DecidableEq, Repr

def Call.run (s : State) : Call → State
  | .runtime f a => f.call a s
  | .acl f a inner => f.call a inner s

/-! ## What is live -/

def Call.args : Call → Args
  | .runtime _ a => a
  | .acl _ a _ => a

/-- What a call is for. -/
def Call.purpose : Call → RtFunc
  | .runtime f _ => f
  | .acl f _ _ => f.runtime

def Call.succeeds (c : Call) : Bool := c.args.ret = 0

def without (addr : UInt64) (l : List UInt64) : List UInt64 := l.filter (· ≠ addr)

/-- The live allocations and mappings; the allocations that no call has tried to free since
(`kept`), and these and the mappings that no call has tried to free or to unmap since (`told`). -/
structure Ledger where
  allocations : List UInt64 := []
  mappings : List UInt64 := []
  kept : List UInt64 := []
  told : List UInt64 := []
  deriving DecidableEq, Repr

def Ledger.step (l : Ledger) (c : Call) : Ledger :=
  let addr := c.args.addr
  match c.purpose with
  | .rtMalloc =>
    if c.succeeds then
      { l with
        allocations := addr :: l.allocations
        kept := addr :: l.kept
        told := addr :: l.told }
    else l
  | .rtMapMem =>
    if c.succeeds then { l with mappings := addr :: l.mappings, told := addr :: l.told } else l
  | .rtFree =>
    { l with
      allocations := if c.succeeds then without addr l.allocations else l.allocations
      kept := without addr l.kept
      told := without addr l.told }
  | .rtUnmapMem =>
    { l with
      mappings := if c.succeeds then without addr l.mappings else l.mappings
      told := without addr l.told }

def Ledger.live (l : Ledger) : List UInt64 := l.allocations ++ l.mappings

structure Process where
  state : State := {}
  ledger : Ledger := {}

def step (p : Process) (c : Call) : Process := ⟨c.run p.state, p.ledger.step c⟩

/-- Sizes are not zero, and what is allocated or mapped is not at an address that is live. -/
def Enabled (p : Process) (c : Call) : Prop :=
  match c.purpose with
  | .rtMalloc | .rtMapMem =>
    c.args.size ≠ 0 ∧ (c.succeeds = true → c.args.addr ∉ p.ledger.live)
  | .rtFree | .rtUnmapMem => True

instance : DecidableRel Enabled := fun p c => by
  unfold Enabled
  cases c.purpose <;> infer_instance

/-! ## What is recorded -/

def isRtOrAcl (src : MemInfoSrc) : Bool := src = .rt || src = .acl

def isRecordOf (addr : UInt64) (it : AddrInfo) : Bool := it.addr = addr && isRtOrAcl it.memInfoSrc

/-- How many records of the two layers there are for an address. -/
def recordsAt (m : MemoryManage) (addr : UInt64) : ℕ :=
  m.memoryOpAddrInfos.elems.countP (isRecordOf addr)

/-- The addresses that the records sent leave allocated. -/
def describe (told : List UInt64) (record : HostMemRecord) : List UInt64 :=
  match record.type with
  | .malloc => record.dstAddr :: told
  | .free => without record.dstAddr told
  | _ => told

def described (reports : List HostMemRecord) : List UInt64 := reports.foldl describe []

/-- There is one record for each of `cached` and none for another address, and the records sent
describe `sent`. -/
def Mirrors (cached sent : List UInt64) (s : State) : Prop :=
  (∀ addr, recordsAt s.memory addr = if addr ∈ cached then 1 else 0) ∧
    ∀ addr, addr ∈ described s.reports ↔ addr ∈ sent

/-- The two calls that go wrong: the one function that has no layer calls `rtMalloc`, and a
mapping fails in the runtime. -/
def Call.Regular : Call → Prop
  | .acl .aclrtMallocWithCfgImpl _ inner => inner = none
  | .runtime .rtMapMem a => a.ret = 0
  | _ => True

instance : DecidablePred Call.Regular
  | .acl .aclrtMallocWithCfgImpl _ inner => inferInstanceAs (Decidable (inner = none))
  | .acl .aclrtMallocImpl _ _ => isTrue trivial
  | .acl .aclrtFreeImpl _ _ => isTrue trivial
  | .acl .aclrtMapMemImpl _ _ => isTrue trivial
  | .acl .aclrtUnmapMemImpl _ _ => isTrue trivial
  | .runtime .rtMapMem a => inferInstanceAs (Decidable (a.ret = 0))
  | .runtime .rtMalloc _ => isTrue trivial
  | .runtime .rtFree _ => isTrue trivial
  | .runtime .rtUnmapMem _ => isTrue trivial

/-! ## Records -/

theorem isRecordOf_eq {addr : UInt64} {src : MemInfoSrc} (h : isRtOrAcl src = true) :
    MemoryManage.matchesFree addr src = isRecordOf addr := by
  funext it
  have hsrc : isSameMemInfoSrc it.memInfoSrc src = isRtOrAcl it.memInfoSrc := by
    revert h
    cases src <;> cases it.memInfoSrc <;> decide
  rw [MemoryManage.matchesFree, hsrc, isRecordOf]

theorem respects_isRecordOf (addr : UInt64) :
    OrderedSet.Respects AddrInfo.Before (isRecordOf addr) := by
  intro a b hab hba
  obtain ⟨haddr, -, hsrc⟩ := AddrInfo.eq_of_not_before hab hba
  rw [isRecordOf, isRecordOf, haddr, hsrc]

theorem recordsAt_eq_size (m : MemoryManage) (addr : UInt64) :
    recordsAt m addr = (m.memoryOpAddrInfos.filter (isRecordOf addr)).size :=
  List.countP_eq_length_filter

/-- A record for an address that has none. -/
theorem recordsAt_cacheMalloc {m : MemoryManage} {addr : UInt64} {src : MemInfoSrc}
    (hsrc : isRtOrAcl src = true) (hnew : recordsAt m addr = 0) (size other : UInt64) :
    recordsAt (m.cacheMalloc addr src size) other =
      if other = addr then 1 else recordsAt m other := by
  rw [recordsAt_eq_size, recordsAt_eq_size]
  rw [recordsAt_eq_size] at hnew
  split_ifs with h
  · subst h
    have hrecord : isRecordOf other ⟨other, size, src, .default, 0⟩ = true := by
      simp [isRecordOf, hsrc]
    have hfilter : (m.memoryOpAddrInfos.filter (isRecordOf other)).elems = [] :=
      List.length_eq_zero_iff.mp hnew
    change ((m.memoryOpAddrInfos.insert _).filter _).size = 1
    rw [OrderedSet.filter_insert_of_pos (respects_isRecordOf other) hrecord]
    change (OrderedSet.place _ _ (m.memoryOpAddrInfos.filter (isRecordOf other)).elems).length = 1
    rw [hfilter]
    rfl
  · have hrecord : isRecordOf other ⟨addr, size, src, .default, 0⟩ = false := by
      simp [isRecordOf, Ne.symm h]
    change ((m.memoryOpAddrInfos.insert _).filter _).size = _
    rw [OrderedSet.filter_insert_of_neg hrecord]

theorem recordsAt_cacheFree (m : MemoryManage) {src : MemInfoSrc} (hsrc : isRtOrAcl src = true)
    (addr other : UInt64) :
    recordsAt (m.cacheFree addr src) other =
      if other = addr then recordsAt m other - 1 else recordsAt m other := by
  have herase : (m.cacheFree addr src).memoryOpAddrInfos.elems =
      m.memoryOpAddrInfos.elems.eraseP (isRecordOf addr) := by
    rw [MemoryManage.cacheFree, isRecordOf_eq hsrc]
    split_ifs with hany
    · rfl
    · refine (List.eraseP_of_forall_not fun it hit hrecord => hany ?_).symm
      exact List.any_eq_true.mpr ⟨it, hit, hrecord⟩
  rw [recordsAt, recordsAt, herase]
  split_ifs with h
  · rw [h]
    exact OrderedSet.countP_eraseP_self _ _
  · rw [List.countP_eq_length_filter, List.countP_eq_length_filter,
      OrderedSet.filter_eraseP_of_disjoint fun it _ hrecord => ?_]
    have haddr : it.addr = addr := by simpa using (Bool.and_eq_true_iff.mp hrecord).1
    simp [isRecordOf, haddr, Ne.symm h]

theorem mem_without {addr other : UInt64} {l : List UInt64} :
    other ∈ without addr l ↔ other ∈ l ∧ other ≠ addr := by
  simp [without]

theorem described_append (reports : List HostMemRecord) (record : HostMemRecord) :
    described (reports ++ [record]) = describe (described reports) record := by
  rw [described, List.foldl_append]
  rfl

/-! ## One hook -/

section Hooks
variable {cached sent : List UInt64} {s : State} {src : MemInfoSrc}

theorem mirrors_recordMalloc (h : Mirrors cached sent s) (hsrc : isRtOrAcl src = true)
    {addr : UInt64} (hnew : addr ∉ cached) (size : UInt64) :
    Mirrors (addr :: cached) (addr :: sent) (recordMalloc src addr size s) := by
  have hnone : recordsAt s.memory addr = 0 := by rw [h.1, if_neg hnew]
  constructor
  · intro other
    change recordsAt (s.memory.cacheMalloc addr src size) other = _
    rw [recordsAt_cacheMalloc hsrc hnone, h.1]
    by_cases hother : other = addr
    · rw [if_pos hother, if_pos (List.mem_cons.mpr (.inl hother))]
    · rw [if_neg hother]
      simp only [List.mem_cons, hother, false_or]
  · intro other
    change other ∈ described (s.reports ++ [_]) ↔ _
    rw [described_append]
    change other ∈ addr :: described s.reports ↔ _
    rw [List.mem_cons, List.mem_cons, h.2]

theorem mirrors_recordFree (h : Mirrors cached sent s) (hsrc : isRtOrAcl src = true)
    (addr : UInt64) :
    Mirrors (without addr cached) (without addr sent) (recordFree src addr s) := by
  constructor
  · intro other
    change recordsAt (s.memory.cacheFree addr src) other = _
    rw [recordsAt_cacheFree _ hsrc, h.1]
    by_cases hother : other = addr
    · rw [if_pos hother, if_neg fun hmem => (mem_without.mp hmem).2 hother]
      split_ifs <;> rfl
    · rw [if_neg hother]
      simp only [mem_without, hother, ne_eq, not_false_eq_true, and_true]
  · intro other
    change other ∈ described (s.reports ++ [_]) ↔ _
    rw [described_append]
    change other ∈ without addr (described s.reports) ↔ _
    rw [mem_without, mem_without, h.2]

theorem mirrors_reportMap (h : Mirrors cached sent s) (addr size : UInt64) :
    Mirrors cached (addr :: sent) (reportMap src addr size s) := by
  refine ⟨h.1, fun other => ?_⟩
  change other ∈ described (s.reports ++ [_]) ↔ _
  rw [described_append]
  change other ∈ addr :: described s.reports ↔ _
  rw [List.mem_cons, List.mem_cons, h.2]

theorem mirrors_reportUnmap (h : Mirrors cached sent s) (addr : UInt64) :
    Mirrors cached (without addr sent) (reportUnmap src addr s) := by
  refine ⟨h.1, fun other => ?_⟩
  change other ∈ described (s.reports ++ [_]) ↔ _
  rw [described_append]
  change other ∈ without addr (described s.reports) ↔ _
  rw [mem_without, mem_without, h.2]

end Hooks

/-! ## One call -/

/-- Below its ACL function a function of the runtime is masked. -/
theorem call_masked {f : AclFunc} (h : f.runtime ∈ aclToRuntime f) (layers : List AclFunc)
    (inner : Option Args) (s : State) (hs : s.layers = f :: layers) : f.origin inner s = s := by
  cases inner with
  | none => rfl
  | some a =>
    have hmasked : parentInCallStack s.layers f.runtime = true := by
      rw [hs, parentInCallStack, List.any_cons, List.contains_iff_mem.mpr h, Bool.true_or]
    exact if_pos hmasked

/-- What a call of the application comes to: the hook of its layer. -/
def Call.hook : Call → State → State
  | .runtime f a => f.hijacked a
  | .acl .aclrtMallocImpl a _ => aclrtMallocImplPost a
  | .acl .aclrtMallocWithCfgImpl a _ => aclrtMallocWithCfgImplPost a
  | .acl .aclrtFreeImpl a _ => aclrtFreeImplPre a
  | .acl .aclrtMapMemImpl a _ => aclrtMapMemImplPost a
  | .acl .aclrtUnmapMemImpl a _ => aclrtUnmapMemImplPre a

theorem hijacked_layers (f : RtFunc) (a : Args) (layers : List AclFunc) (s : State) :
    f.hijacked a { s with layers } = { f.hijacked a s with layers } := by
  cases f with
  | rtMalloc =>
    change rtMallocPost a _ = { rtMallocPost a s with layers }
    unfold rtMallocPost
    split_ifs <;> rfl
  | rtFree => rfl
  | rtMapMem => rfl
  | rtUnmapMem => rfl

/-- No hook looks at the layers. -/
theorem hook_layers (c : Call) (layers : List AclFunc) (s : State) :
    c.hook { s with layers } = { c.hook s with layers } := by
  cases c with
  | runtime f a => exact hijacked_layers f a layers s
  | acl f a inner =>
    cases f with
    | aclrtMallocImpl =>
      change aclrtMallocImplPost a _ = { aclrtMallocImplPost a s with layers }
      unfold aclrtMallocImplPost
      split_ifs <;> rfl
    | aclrtMallocWithCfgImpl =>
      change aclrtMallocWithCfgImplPost a _ = { aclrtMallocWithCfgImplPost a s with layers }
      unfold aclrtMallocWithCfgImplPost
      split_ifs <;> rfl
    | aclrtFreeImpl => rfl
    | aclrtMapMemImpl =>
      change aclrtMapMemImplPost a _ = { aclrtMapMemImplPost a s with layers }
      unfold aclrtMapMemImplPost
      split_ifs <;> rfl
    | aclrtUnmapMemImpl => rfl

theorem hook_keeps_layers (c : Call) (s : State) : (c.hook s).layers = s.layers := by
  have h := congrArg State.layers (hook_layers c s.layers s)
  exact h

theorem layerGuard_hook (c : Call) {f : AclFunc} {body : State → State} {s : State}
    (hbody : body { s with layers := f :: s.layers } =
      c.hook { s with layers := f :: s.layers }) : layerGuard f body s = c.hook s := by
  have hlayers := hook_keeps_layers c s
  unfold layerGuard
  rw [hbody, hook_layers]
  change ({ c.hook s with layers := s.layers } : State) = c.hook s
  rw [← hlayers]

/-- A call that is not masked, or has nothing to mask, records at its own layer only. -/
theorem run_eq_hook {c : Call} (hregular : c.Regular) {s : State} (hs : s.layers = []) :
    c.run s = c.hook s := by
  cases c with
  | runtime f a =>
    have hopen : parentInCallStack s.layers f = false := by
      rw [hs]
      rfl
    exact if_neg (by rw [hopen]; exact Bool.false_ne_true)
  | acl f a inner =>
    cases f with
    | aclrtMallocImpl =>
      change layerGuard .aclrtMallocImpl
        (fun s => aclrtMallocImplPost a (AclFunc.origin .aclrtMallocImpl inner s)) s = _
      refine layerGuard_hook (.acl .aclrtMallocImpl a inner) ?_
      rw [call_masked (by decide) s.layers inner _ rfl]
      rfl
    | aclrtMallocWithCfgImpl =>
      obtain rfl : inner = none := hregular
      rfl
    | aclrtFreeImpl =>
      change layerGuard .aclrtFreeImpl
        (fun s => AclFunc.origin .aclrtFreeImpl inner (aclrtFreeImplPre a s)) s = _
      refine layerGuard_hook (.acl .aclrtFreeImpl a inner) ?_
      rw [call_masked (by decide) s.layers inner _ rfl]
      rfl
    | aclrtMapMemImpl =>
      change layerGuard .aclrtMapMemImpl
        (fun s => aclrtMapMemImplPost a (AclFunc.origin .aclrtMapMemImpl inner s)) s = _
      refine layerGuard_hook (.acl .aclrtMapMemImpl a inner) ?_
      rw [call_masked (by decide) s.layers inner _ rfl]
      rfl
    | aclrtUnmapMemImpl =>
      change layerGuard .aclrtUnmapMemImpl
        (fun s => AclFunc.origin .aclrtUnmapMemImpl inner (aclrtUnmapMemImplPre a s)) s = _
      refine layerGuard_hook (.acl .aclrtUnmapMemImpl a inner) ?_
      rw [call_masked (by decide) s.layers inner _ rfl]
      rfl

/-! ## Runs -/

structure Inv (p : Process) : Prop where
  layers : p.state.layers = []
  mirrors : Mirrors p.ledger.kept p.ledger.told p.state
  kept : ∀ addr ∈ p.ledger.kept, addr ∈ p.ledger.allocations

theorem inv_init : Inv {} where
  layers := rfl
  mirrors := ⟨fun _ => rfl, fun _ => Iff.rfl⟩
  kept := fun _ h => h

theorem succeeds_iff {c : Call} : c.succeeds = true ↔ c.args.ret = 0 := decide_eq_true_iff

def Call.source : Call → MemInfoSrc
  | .runtime _ _ => .rt
  | .acl _ _ _ => .acl

theorem isRtOrAcl_source (c : Call) : isRtOrAcl c.source = true := by
  cases c <;> rfl

/-- The size in the record of a call. -/
def Call.memSize : Call → UInt64
  | .runtime _ a => a.size
  | .acl .aclrtMallocImpl a _ | .acl .aclrtMallocWithCfgImpl a _ => aclMemSize a.size
  | .acl _ a _ => a.size

/-- What a regular call records, by what it is for. -/
theorem hook_eq {c : Call} (hregular : c.Regular) (s : State) :
    c.hook s =
      match c.purpose with
      | .rtMalloc => if c.args.ret ≠ 0 then s else recordMalloc c.source c.args.addr c.memSize s
      | .rtFree => recordFree c.source c.args.addr s
      | .rtMapMem => if c.args.ret ≠ 0 then s else reportMap c.source c.args.addr c.memSize s
      | .rtUnmapMem => reportUnmap c.source c.args.addr s := by
  cases c with
  | runtime f a =>
    cases f with
    | rtMalloc => rfl
    | rtFree => rfl
    | rtMapMem =>
      have hret : a.ret = 0 := hregular
      exact (if_neg (not_not.mpr hret)).symm
    | rtUnmapMem => rfl
  | acl f a inner => cases f <;> rfl

section Step
variable {p : Process} {c : Call}

theorem mirrors_step (h : Inv p) (hregular : c.Regular) (henabled : Enabled p c) :
    Mirrors (p.ledger.step c).kept (p.ledger.step c).told (c.hook p.state) := by
  rw [hook_eq hregular]
  unfold Enabled at henabled
  unfold Ledger.step
  cases hpurpose : c.purpose with
  | rtMalloc =>
    rw [hpurpose] at henabled
    dsimp only at henabled ⊢
    by_cases hret : c.args.ret = 0
    · have hsucceeds := succeeds_iff.mpr hret
      rw [if_neg (not_not.mpr hret), if_pos hsucceeds]
      refine mirrors_recordMalloc h.mirrors (isRtOrAcl_source c) (fun hkept => ?_) _
      exact henabled.2 hsucceeds (List.mem_append_left _ (h.kept _ hkept))
    · rw [if_pos hret, if_neg fun hsucceeds => hret (succeeds_iff.mp hsucceeds)]
      exact h.mirrors
  | rtFree => exact mirrors_recordFree h.mirrors (isRtOrAcl_source c) _
  | rtMapMem =>
    dsimp only
    by_cases hret : c.args.ret = 0
    · rw [if_neg (not_not.mpr hret), if_pos (succeeds_iff.mpr hret)]
      exact mirrors_reportMap h.mirrors _ _
    · rw [if_pos hret, if_neg fun hsucceeds => hret (succeeds_iff.mp hsucceeds)]
      exact h.mirrors
  | rtUnmapMem => exact mirrors_reportUnmap h.mirrors _

theorem kept_step (h : Inv p) :
    ∀ addr ∈ (p.ledger.step c).kept, addr ∈ (p.ledger.step c).allocations := by
  intro addr
  unfold Ledger.step
  cases c.purpose with
  | rtMalloc =>
    dsimp only
    split_ifs
    · intro hmem
      rcases List.mem_cons.mp hmem with hnew | hold
      · exact List.mem_cons.mpr (.inl hnew)
      · exact List.mem_cons_of_mem _ (h.kept addr hold)
    · exact h.kept addr
  | rtFree =>
    intro hmem
    obtain ⟨hkept, hother⟩ := mem_without.mp hmem
    have hold := h.kept addr hkept
    dsimp only
    split_ifs
    · exact mem_without.mpr ⟨hold, hother⟩
    · exact hold
  | rtMapMem =>
    dsimp only
    split_ifs
    · exact h.kept addr
    · exact h.kept addr
  | rtUnmapMem => exact h.kept addr

theorem inv_step (h : Inv p) (hregular : c.Regular) (henabled : Enabled p c) :
    Inv (step p c) := by
  have hrun := run_eq_hook hregular h.layers
  constructor
  case layers =>
    change (c.run p.state).layers = []
    rw [hrun, hook_keeps_layers]
    exact h.layers
  case mirrors =>
    change Mirrors _ _ (c.run p.state)
    rw [hrun]
    exact mirrors_step h hregular henabled
  case kept => exact kept_step h

end Step

theorem inv_of_guarded {calls : List Call} (henabled : Guarded step Enabled {} calls)
    (hregular : ∀ c ∈ calls, c.Regular) : Inv (calls.foldl step {}) := by
  have hall : Guarded step (fun _ c => c.Regular) {} calls :=
    (@guarded_iff_forall _ _ step (fun _ c => c.Regular) Call.Regular (fun _ _ => Iff.rfl)
      _ _).mpr hregular
  have hguard : Guarded step (fun p c => Enabled p c ∧ c.Regular) {} calls :=
    guarded_and.mpr ⟨henabled, hall⟩
  exact hguard.invariant (fun _ _ h hg => inv_step h hg.2 hg.1) inv_init

/-- After each call of a run there is one record for each allocation that no call has tried to
free since, and the records sent describe these and the mappings that no call has tried to free
or to unmap since. -/
theorem records_mirror {calls : List Call} (henabled : Guarded step Enabled {} calls)
    (hregular : ∀ c ∈ calls, c.Regular) :
    let p := calls.foldl step {}
    Mirrors p.ledger.kept p.ledger.told p.state :=
  (inv_of_guarded henabled hregular).mirrors

/-- Allocations at both layers with and without an inner call, a mapping, and a free that fails. -/
def mixedCalls : List Call :=
  [.acl .aclrtMallocImpl ⟨0x1000, 8, 0⟩ (some ⟨0x1000, 64, 0⟩), .runtime .rtMalloc ⟨0x2000, 64, 0⟩,
    .acl .aclrtMapMemImpl ⟨0x3000, 64, 0⟩ (some ⟨0x3000, 64, 0⟩),
    .acl .aclrtFreeImpl ⟨0x2000, 1, 7⟩ (some ⟨0x2000, 1, 7⟩)]

theorem records_mirror_mixedCalls :
    let p := mixedCalls.foldl step {}
    Mirrors p.ledger.kept p.ledger.told p.state :=
  records_mirror (by decide) (by decide)

theorem mapping_not_mirrored :
    ¬ ∀ calls : List Call, Guarded step Enabled {} calls →
      Mirrors (calls.foldl step {}).ledger.live (calls.foldl step {}).ledger.live
        (calls.foldl step {}).state := by
  intro h
  have hmap := (h [.runtime .rtMapMem ⟨0x1000, 64, 0⟩] (by decide)).1 0x1000
  exact absurd hmap (by decide)

/-! ## Runs in which nothing is freed in vain -/

/-- What is freed is a live allocation, what is unmapped is a live mapping, and both succeed. -/
def Proper (p : Process) (c : Call) : Prop :=
  match c.purpose with
  | .rtFree => c.succeeds = true ∧ c.args.addr ∈ p.ledger.allocations
  | .rtUnmapMem => c.succeeds = true ∧ c.args.addr ∈ p.ledger.mappings
  | _ => True

/-- The ledger of such a run: what is kept and told is what is live. -/
structure Settled (l : Ledger) : Prop where
  kept : l.kept = l.allocations
  told : ∀ addr, addr ∈ l.told ↔ addr ∈ l.live
  apart : ∀ addr ∈ l.allocations, addr ∉ l.mappings

theorem settled_init : Settled {} := ⟨rfl, fun _ => Iff.rfl, fun _ h => absurd h List.not_mem_nil⟩

theorem mem_live {l : Ledger} {addr : UInt64} :
    addr ∈ l.live ↔ addr ∈ l.allocations ∨ addr ∈ l.mappings := List.mem_append

section Settled
variable {p : Process} {c : Call} (h : Settled p.ledger) (henabled : Enabled p c)
include h henabled

omit h in
/-- What is allocated or mapped is neither a live allocation nor a live mapping. -/
theorem fresh_of_enabled (hpurpose : c.purpose = .rtMalloc ∨ c.purpose = .rtMapMem)
    (hsucceeds : c.succeeds = true) :
    c.args.addr ∉ p.ledger.allocations ∧ c.args.addr ∉ p.ledger.mappings := by
  have hfresh : c.args.addr ∉ p.ledger.live := by
    unfold Enabled at henabled
    rcases hpurpose with hpurpose | hpurpose
    · rw [hpurpose] at henabled
      exact henabled.2 hsucceeds
    · rw [hpurpose] at henabled
      exact henabled.2 hsucceeds
  rw [mem_live] at hfresh
  exact not_or.mp hfresh

theorem settled_alloc (hpurpose : c.purpose = .rtMalloc) : Settled (p.ledger.step c) := by
  unfold Ledger.step
  rw [hpurpose]
  dsimp only
  split_ifs with hsucceeds
  · have hfresh := fresh_of_enabled henabled (.inl hpurpose) hsucceeds
    refine ⟨congrArg _ h.kept, fun addr => ?_, fun addr haddr => ?_⟩
    · rw [mem_live, List.mem_cons, List.mem_cons, h.told, mem_live, or_assoc]
    · rcases List.mem_cons.mp haddr with rfl | haddr
      · exact hfresh.2
      · exact h.apart addr haddr
  · exact h

theorem settled_map (hpurpose : c.purpose = .rtMapMem) : Settled (p.ledger.step c) := by
  unfold Ledger.step
  rw [hpurpose]
  dsimp only
  split_ifs with hsucceeds
  · have hfresh := fresh_of_enabled henabled (.inr hpurpose) hsucceeds
    refine ⟨h.kept, fun addr => ?_, fun addr haddr hmap => ?_⟩
    · rw [mem_live, List.mem_cons, List.mem_cons, h.told, mem_live, or_left_comm]
    · rcases List.mem_cons.mp hmap with rfl | hmap
      · exact hfresh.1 haddr
      · exact h.apart addr haddr hmap
  · exact h

omit henabled in
theorem settled_free (hproper : Proper p c) (hpurpose : c.purpose = .rtFree) :
    Settled (p.ledger.step c) := by
  unfold Proper at hproper
  rw [hpurpose] at hproper
  obtain ⟨hsucceeds, hlive⟩ := hproper
  have hunmapped := h.apart _ hlive
  unfold Ledger.step
  rw [hpurpose]
  dsimp only
  rw [if_pos hsucceeds]
  refine ⟨congrArg _ h.kept, fun addr => ?_, fun addr haddr => ?_⟩
  · rw [mem_without, mem_live, mem_without, h.told, mem_live, or_and_right]
    refine or_congr_right ⟨And.left, fun hmap => ⟨hmap, ?_⟩⟩
    rintro rfl
    exact hunmapped hmap
  · exact h.apart addr (mem_without.mp haddr).1

omit henabled in
theorem settled_unmap (hproper : Proper p c) (hpurpose : c.purpose = .rtUnmapMem) :
    Settled (p.ledger.step c) := by
  unfold Proper at hproper
  rw [hpurpose] at hproper
  obtain ⟨hsucceeds, hlive⟩ := hproper
  have hmapped : c.args.addr ∉ p.ledger.allocations := fun halloc => h.apart _ halloc hlive
  unfold Ledger.step
  rw [hpurpose]
  dsimp only
  rw [if_pos hsucceeds]
  refine ⟨h.kept, fun addr => ?_, fun addr haddr hmap => ?_⟩
  · rw [mem_without, mem_live, mem_without, h.told, mem_live, or_and_right]
    refine or_congr_left ⟨And.left, fun halloc => ⟨halloc, ?_⟩⟩
    rintro rfl
    exact hmapped halloc
  · exact h.apart addr haddr (mem_without.mp hmap).1

end Settled

theorem settled_step {p : Process} {c : Call} (h : Settled p.ledger) (henabled : Enabled p c)
    (hproper : Proper p c) : Settled (p.ledger.step c) := by
  cases hpurpose : c.purpose with
  | rtMalloc => exact settled_alloc h henabled hpurpose
  | rtFree => exact settled_free h hproper hpurpose
  | rtMapMem => exact settled_map h henabled hpurpose
  | rtUnmapMem => exact settled_unmap h hproper hpurpose

/-- There is one record for each live allocation, and the records sent describe the live
allocations and mappings. -/
theorem live_mirrored {calls : List Call} (henabled : Guarded step Enabled {} calls)
    (hregular : ∀ c ∈ calls, c.Regular) (hproper : Guarded step Proper {} calls) :
    let p := calls.foldl step {}
    Mirrors p.ledger.allocations p.ledger.live p.state := by
  intro p
  have hguard : Guarded step (fun p c => Enabled p c ∧ Proper p c) {} calls :=
    guarded_and.mpr ⟨henabled, hproper⟩
  have hsettled : Settled p.ledger :=
    @Guarded.invariant _ _ step _ (fun p => Settled p.ledger)
      (fun _ _ h hg => settled_step h hg.1 hg.2) _ _ hguard settled_init
  have hmirrors : Mirrors p.ledger.kept p.ledger.told p.state :=
    (inv_of_guarded henabled hregular).mirrors
  rw [hsettled.kept] at hmirrors
  exact ⟨hmirrors.1, fun addr => (hmirrors.2 addr).trans (hsettled.told addr)⟩

end Msopcom.LayeredRecords
