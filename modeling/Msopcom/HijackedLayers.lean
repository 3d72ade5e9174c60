import Mathlib.Data.List.Basic
import Mathlib.Tactic.SplitIfs
import Msopcom.Interleaving

set_option autoImplicit false

/-!
# Calls of functions of two layers

The hooks of the ACL runtime and the tool's own calls of it are on a stack of the thread while they
last. A hook of the runtime leaves a call alone if a function on the stack masks it. Calls are
nested in any way, and threads interleave.
-/
namespace Msopcom.HijackedLayers
open Interleaving

/-! ## The stack -/

def aclToRuntimeMap : List (String × List String) :=
  [("aclrtSetDeviceImpl", ["rtSetDevice"]),
    ("aclrtResetDeviceImpl", ["rtDeviceReset"]),
    ("aclrtMallocImpl", ["rtMalloc"]),
    ("aclrtFreeImpl", ["rtFree"]),
    ("aclrtMemsetImpl", ["rtMemset"]),
    ("aclrtMemcpyImpl", ["rtMemcpy"]),
    ("aclrtMapMemImpl", ["rtMapMem"]),
    ("aclrtUnmapMemImpl", ["rtUnmapMem"]),
    ("aclrtIpcMemGetExportKeyImpl", ["rtIpcSetMemoryName"]),
    ("aclrtIpcMemImportByKeyImpl", ["rtIpcOpenMemory"]),
    ("aclrtIpcMemCloseImpl", ["rtIpcDestroyMemoryName", "rtIpcCloseMemory"]),
    ("aclrtGetDeviceImpl", ["rtGetDevice"]),
    ("aclrtCreateContextImpl", ["rtCtxCreateEx"]),
    ("aclrtQueryDeviceStatusImpl", ["rtDeviceStatusQuery"]),
    ("aclrtGetDeviceCountImpl", ["rtGetDeviceCount"]),
    ("aclrtGetDeviceInfoImpl", ["rtGetDeviceInfo"]),
    ("aclrtGetSocNameImpl", ["rtGetSocVersion"])]

def push (layers : List String) (func : String) : List String := func :: layers

def pop (layers : List String) : List String := layers.tail

def parentInCallStack (layers : List String) (func : String) : Bool :=
  layers.any fun p =>
    match aclToRuntimeMap.lookup p with
    | none => false
    | some set => set.contains func

/-! ## Calls -/

/-- A hook of an ACL function, one of a function of the runtime, or a call that the tool makes of
the original of an ACL function. -/
inductive Layer
  | acl
  | rt
  | origin
  deriving DecidableEq, Repr

/-- A call of a function, with the device where its hook looks at it. -/
structure Func where
  layer : Layer
  name : String
  devId : Option Int32 := none
  deriving DecidableEq, Repr

/-- A `LayerGuard` is there as long as the call is. -/
def Func.guarded (f : Func) : Bool := f.layer ≠ .rt

inductive Event
  | enter (f : Func)
  | leave (f : Func)
  deriving DecidableEq, Repr

structure State where
  /-- Of each thread. -/
  layers : ℕ → List String := fun _ => []
  usedDevIds : List Int32 := []
  /-- The calls that the hooks have not left alone. -/
  handled : List (ℕ × Func) := []

/-- `IsDevIdUsed`, where the hook asks. -/
def isDevIdUsed (used : List Int32) (devId : Option Int32) : Bool × List Int32 :=
  match devId with
  | none => (false, used)
  | some devId => if devId ∈ used then (true, used) else (false, devId :: used)

/-- A hook that has not left the call to another one asks for the device. -/
def handle (t : ℕ) (f : Func) (s : State) : State :=
  let asked := isDevIdUsed s.usedDevIds f.devId
  { s with
    usedDevIds := asked.2
    handled := if asked.1 then s.handled else s.handled ++ [(t, f)] }

def step (s : State) (p : ℕ × Event) : State :=
  match p.2 with
  | .enter f =>
    match f.layer with
    | .acl =>
      handle p.1 f
        { s with layers := Function.update s.layers p.1 (push (s.layers p.1) f.name) }
    | .origin => { s with layers := Function.update s.layers p.1 (push (s.layers p.1) f.name) }
    | .rt => if parentInCallStack (s.layers p.1) f.name then s else handle p.1 f s
  | .leave f =>
    if f.guarded then { s with layers := Function.update s.layers p.1 (pop (s.layers p.1)) } else s

/-! ## Nested calls -/

/-- Calls one after the other, each with what is called inside of it. -/
inductive Calls
  | done
  | call (f : Func) (inner rest : Calls)
  deriving DecidableEq, Repr

def trace : Calls → List Event
  | .done => []
  | .call f inner rest => .enter f :: (trace inner ++ .leave f :: trace rest)

/-- The calls that no call around them masks. Of the tool's own calls none is told. -/
def unmasked (above : List String) : Calls → List Func
  | .done => []
  | .call f inner rest =>
    (match f.layer with
      | .acl => [f]
      | .origin => []
      | .rt => if parentInCallStack above f.name then [] else [f]) ++
      unmasked (if f.guarded then f.name :: above else above) inner ++ unmasked above rest

/-- What the events of a thread do to its stack. -/
def next (layers : List String) : Event → List String
  | .enter f => if f.guarded then push layers f.name else layers
  | .leave f => if f.guarded then pop layers else layers

/-- The call that a hook does not leave alone for the stack. -/
def told (layers : List String) : Event → List Func
  | .enter f =>
    match f.layer with
    | .acl => [f]
    | .origin => []
    | .rt => if parentInCallStack layers f.name then [] else [f]
  | .leave _ => []

/-- What was pushed is popped. -/
theorem foldl_next_trace (calls : Calls) (layers : List String) :
    (trace calls).foldl next layers = layers := by
  induction calls generalizing layers with
  | done => rfl
  | call f inner rest ihInner ihRest =>
    rw [trace, List.foldl_cons, List.foldl_append, ihInner, List.foldl_cons, ihRest]
    cases hguarded : f.guarded <;> simp [next, hguarded, push, pop]

/-- What is told of nested calls are those that nothing masks. -/
theorem outputs_trace (calls : Calls) (layers : List String) :
    outputs next told layers (trace calls) = unmasked layers calls := by
  induction calls generalizing layers with
  | done => rfl
  | call f inner rest ihInner ihRest =>
    have hpop : next (next layers (.enter f)) (.leave f) = layers := by
      cases hguarded : f.guarded <;> simp [next, hguarded, push, pop]
    rw [trace, outputs_cons, outputs_append, ihInner, foldl_next_trace, outputs_cons, hpop, ihRest,
      ← List.append_assoc]
    rfl

/-! ## The devices -/

/-- Of the calls that ask for a device only the first is kept. -/
def firsts (used : List Int32) : List (ℕ × Func) → List (ℕ × Func)
  | [] => []
  | p :: rest =>
    let asked := isDevIdUsed used p.2.devId
    if asked.1 then firsts asked.2 rest else p :: firsts asked.2 rest

section Firsts
variable {used : List Int32} {l : List (ℕ × Func)} {p : ℕ × Func} {d : Int32}

theorem mem_of_mem_firsts (h : p ∈ firsts used l) : p ∈ l := by
  induction l generalizing used with
  | nil => exact h
  | cons q l ih =>
    simp only [firsts] at h
    split_ifs at h
    · exact List.mem_cons_of_mem q (ih h)
    · rcases List.mem_cons.mp h with rfl | h
      · exact List.mem_cons_self
      · exact List.mem_cons_of_mem q (ih h)

/-- Calls that ask for no device are all kept. -/
theorem filter_firsts :
    (firsts used l).filter (·.2.devId = none) = l.filter (·.2.devId = none) := by
  induction l generalizing used with
  | nil => rfl
  | cons q l ih =>
    rw [firsts]
    cases hq : q.2.devId with
    | none => simp [isDevIdUsed, hq, ih]
    | some d =>
      by_cases hused : d ∈ used
      · simp [isDevIdUsed, hused, hq, ih]
      · simp [isDevIdUsed, hused, hq, ih]

theorem countP_firsts_of_used (h : d ∈ used) :
    (firsts used l).countP (·.2.devId = some d) = 0 := by
  induction l generalizing used with
  | nil => rfl
  | cons q l ih =>
    simp only [firsts]
    cases hq : q.2.devId with
    | none => simpa [isDevIdUsed, List.countP_cons, hq] using ih h
    | some e =>
      by_cases hused : e ∈ used
      · simpa [isDevIdUsed, hused] using ih h
      · have hne : e ≠ d := fun heq => hused (heq ▸ h)
        simpa [isDevIdUsed, hused, List.countP_cons, hq, hne] using ih (List.mem_cons_of_mem e h)

/-- Of the calls that ask for one device, one is kept. -/
theorem countP_firsts (hnew : d ∉ used) (h : ∃ p ∈ l, p.2.devId = some d) :
    (firsts used l).countP (·.2.devId = some d) = 1 := by
  induction l generalizing used with
  | nil => simp at h
  | cons q l ih =>
    rw [List.exists_mem_cons_iff] at h
    simp only [firsts]
    cases hq : q.2.devId with
    | none =>
      have hrest := h.resolve_left (by simp [hq])
      simpa [isDevIdUsed, List.countP_cons, hq] using ih hnew hrest
    | some e =>
      by_cases heq : e = d
      · subst heq
        have hzero := countP_firsts_of_used (l := l) (List.mem_cons_self (a := e) (l := used))
        simpa [isDevIdUsed, hnew, List.countP_cons, hq] using hzero
      · have hrest := h.resolve_left (by simp [hq, heq])
        by_cases hused : e ∈ used
        · simpa [isDevIdUsed, hused] using ih hnew hrest
        · have hnew' : d ∉ e :: used := by simp [hnew, Ne.symm heq]
          simpa [isDevIdUsed, hused, List.countP_cons, hq, heq] using ih hnew' hrest

end Firsts

/-! ## All threads -/

theorem layers_step (s : State) (p : ℕ × Event) : (step s p).layers = nextAll next s.layers p := by
  obtain ⟨t, e⟩ := p
  cases e with
  | enter f =>
    cases hlayer : f.layer with
    | acl => simp [step, handle, hlayer, nextAll, next, Func.guarded]
    | origin => simp [step, hlayer, nextAll, next, Func.guarded]
    | rt =>
      cases hmasked : parentInCallStack (s.layers t) f.name <;>
        simp [step, handle, hlayer, hmasked, nextAll, next, Func.guarded]
  | leave f =>
    cases hguarded : f.guarded <;> simp [step, hguarded, nextAll, next]

/-- One step asks for the devices of what it tells. -/
theorem handled_step (s : State) (p : ℕ × Event) (rest : List (ℕ × Func)) :
    (step s p).handled ++ firsts (step s p).usedDevIds rest =
      s.handled ++ firsts s.usedDevIds ((told (s.layers p.1) p.2).map (Prod.mk p.1) ++ rest) := by
  obtain ⟨t, e⟩ := p
  have hhandle : ∀ (f : Func) (s' : State), s'.handled = s.handled →
      s'.usedDevIds = s.usedDevIds →
      (handle t f s').handled ++ firsts (handle t f s').usedDevIds rest =
        s.handled ++ firsts s.usedDevIds ((t, f) :: rest) := by
    intro f s' hh hu
    simp only [handle, hh, hu, firsts]
    split_ifs <;> simp
  cases e with
  | enter f =>
    cases hlayer : f.layer with
    | acl =>
      simp only [step, hlayer, told, List.map_cons, List.map_nil, List.singleton_append]
      exact hhandle f _ rfl rfl
    | origin => simp [step, hlayer, told]
    | rt =>
      cases hmasked : parentInCallStack (s.layers t) f.name with
      | true => simp [step, hlayer, hmasked, told]
      | false => simpa [step, hlayer, hmasked, told] using hhandle f s rfl rfl
  | leave f => cases hguarded : f.guarded <;> simp [step, hguarded, told]

theorem run_eq (s : State) (events : List (ℕ × Event)) :
    (events.foldl step s).layers = events.foldl (nextAll next) s.layers ∧
      (events.foldl step s).handled =
        s.handled ++ firsts s.usedDevIds (outputsAll next told s.layers events) := by
  induction events generalizing s with
  | nil => simp [outputsAll, firsts]
  | cons p events ih =>
    obtain ⟨hlayers, hhandled⟩ := ih (step s p)
    rw [List.foldl_cons, List.foldl_cons, hlayers, hhandled, layers_step, handled_step]
    exact ⟨rfl, rfl⟩

/-- When every thread has made its calls, in any order among the threads, all stacks are empty. The
hooks have handled the calls that nothing around them masks, in the order of each thread; of those
that ask for one device, one in all threads. -/
theorem handled_calls (calls : ℕ → Calls) (events : List (ℕ × Event))
    (hevents : ∀ t, ofThread t events = trace (calls t)) (s : State)
    (hs : s = events.foldl step {}) :
    (∀ t, s.layers t = []) ∧
      (∀ t, (ofThread t s.handled).filter (·.devId = none) =
        (unmasked [] (calls t)).filter (·.devId = none)) ∧
      (∀ t, ∀ f ∈ ofThread t s.handled, f ∈ unmasked [] (calls t)) ∧
      ∀ d, (∃ t, ∃ f ∈ unmasked [] (calls t), f.devId = some d) →
        s.handled.countP (·.2.devId = some d) = 1 := by
  obtain ⟨hlayers, hhandled⟩ := run_eq {} events
  rw [← hs] at hlayers hhandled
  have htold : ∀ t, ofThread t (outputsAll next told ({} : State).layers events) =
      unmasked [] (calls t) := by
    intro t
    rw [ofThread_outputsAll, hevents, outputs_trace]
  rw [List.nil_append] at hhandled
  refine ⟨fun t => ?_, fun t => ?_, fun t f hf => ?_, fun d ⟨t, f, hf, hd⟩ => ?_⟩
  · rw [hlayers, foldl_nextAll, hevents, foldl_next_trace]
  · rw [← ofThread_filter t s.handled (·.devId = none), hhandled, filter_firsts,
      ofThread_filter t (outputsAll next told _ events) (·.devId = none), htold]
  · rw [hhandled, mem_ofThread] at hf
    rw [← htold, mem_ofThread]
    exact mem_of_mem_firsts hf
  · rw [← htold, mem_ofThread] at hf
    rw [hhandled]
    exact countP_firsts List.not_mem_nil ⟨(t, f), hf, hd⟩

/-- Both threads set one device, each through one of the layers; one allocates through both. -/
def twoThreads : ℕ → Calls
  | 0 => .call ⟨.acl, "aclrtSetDeviceImpl", some 3⟩ .done
      (.call ⟨.acl, "aclrtMallocImpl", none⟩
        (.call ⟨.origin, "aclrtMallocImpl", none⟩ (.call ⟨.rt, "rtMalloc", none⟩ .done .done) .done)
        .done)
  | 1 => .call ⟨.rt, "rtSetDevice", some 3⟩ .done (.call ⟨.rt, "rtMalloc", none⟩ .done .done)
  | _ => .done

/-- The second thread allocates while the first one does. -/
def interleaved : List (ℕ × Event) :=
  [(1, .enter ⟨.rt, "rtSetDevice", some 3⟩), (0, .enter ⟨.acl, "aclrtSetDeviceImpl", some 3⟩),
    (0, .leave ⟨.acl, "aclrtSetDeviceImpl", some 3⟩), (1, .leave ⟨.rt, "rtSetDevice", some 3⟩),
    (0, .enter ⟨.acl, "aclrtMallocImpl", none⟩), (0, .enter ⟨.origin, "aclrtMallocImpl", none⟩),
    (1, .enter ⟨.rt, "rtMalloc", none⟩), (0, .enter ⟨.rt, "rtMalloc", none⟩),
    (0, .leave ⟨.rt, "rtMalloc", none⟩), (0, .leave ⟨.origin, "aclrtMallocImpl", none⟩),
    (1, .leave ⟨.rt, "rtMalloc", none⟩), (0, .leave ⟨.acl, "aclrtMallocImpl", none⟩)]

theorem handled_calls_interleaved :
    (interleaved.foldl step {}).handled =
        [(1, ⟨.rt, "rtSetDevice", some 3⟩), (0, ⟨.acl, "aclrtMallocImpl", none⟩),
          (1, ⟨.rt, "rtMalloc", none⟩)] ∧
      (∀ t, (interleaved.foldl step {}).layers t = []) ∧
      (interleaved.foldl step {}).handled.countP (·.2.devId = some 3) = 1 := by
  have hevents : ∀ t, ofThread t interleaved = trace (twoThreads t) := by
    rintro (_ | _ | t) <;> rfl
  have hcalls := handled_calls twoThreads interleaved hevents _ rfl
  exact ⟨by decide, hcalls.1, hcalls.2.2.2 3 ⟨1, ⟨.rt, "rtSetDevice", some 3⟩, by decide, rfl⟩⟩

end Msopcom.HijackedLayers
