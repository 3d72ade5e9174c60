import Mathlib.Data.Option.Basic
import Mathlib.Tactic.SplitIfs
import Msopcom.DBITask

set_option autoImplicit false

/-!
# Which conversions a thread reuses

A run of calls is followed by the requests that its tasks were converted for. The binaries
are those of the requests, whatever the conversions give.
-/
namespace Msopcom.DBITask
open Runs

/-! ## Requests instead of binaries -/

section Map
variable {A B : Type} (f : A → B) (convert : Request → A) (call : Call)

def Task.map (task : Task A) : Task B :=
  { replaceTask := task.replaceTask.map f, funcCtx := task.funcCtx.map f,
    stubFunc := task.stubFunc.map f, launchId := task.launchId }

theorem needConvert_map (task : Task A) : needConvert call (task.map f) = needConvert call task := by
  unfold needConvert Task.map
  rw [Option.isNone_map, Option.isNone_map]

theorem runWith_map {binary : Task A → Option A} {binary' : Task B → Option B}
    {setBinary : Option A → Task A → Task A} {setBinary' : Option B → Task B → Task B}
    (hbinary : ∀ task, binary' (task.map f) = (binary task).map f)
    (hset : ∀ converted task, setBinary' (converted.map f) (task.map f) =
      (setBinary converted task).map f) (task : Task A) :
    runWith (fun r => f (convert r)) call binary' setBinary' (task.map f) =
      (runWith convert call binary setBinary task).map (Option.map f) (Task.map f) := by
  unfold runWith
  rw [needConvert_map]
  split_ifs
  · cases call.ending with
    | failed => rfl
    | notRegistered => exact congrArg (Prod.mk none) (hset none task)
    | done =>
      have hstored := hset (some (convert call.request)) task
      rw [Option.map_some] at hstored
      dsimp only [Prod.map]
      rw [Option.map_some, hstored]
      rfl
  · exact Prod.ext (hbinary task) rfl

theorem run_map (task : Task A) : run (fun r => f (convert r)) call (task.map f) =
    (run convert call task).map (Option.map f) (Task.map f) :=
  runWith_map f convert call (fun _ => rfl) (fun _ _ => rfl) task

theorem runStubFunc_map (task : Task A) : runStubFunc (fun r => f (convert r)) call (task.map f) =
    (runStubFunc convert call task).map (Option.map f) (Task.map f) := by
  unfold runStubFunc
  rw [run_map]
  rcases run convert call task with ⟨_ | binary, task'⟩
  · rfl
  · dsimp only [Prod.map, Option.map_some]
    rw [Task.map, Option.isSome_map]
    split_ifs <;> rfl

theorem runLaunchCtx_map (task : Task A) : runLaunchCtx (fun r => f (convert r)) call (task.map f) =
    (runLaunchCtx convert call task).map (Option.map f) (Task.map f) :=
  runWith_map f convert call (fun _ => rfl) (fun _ _ => rfl) task

theorem runTask_map (task : Task A) : runTask (fun r => f (convert r)) call (task.map f) =
    (runTask convert call task).map (Option.map f) (Task.map f) := by
  unfold runTask
  cases call.kernel with
  | stubFunc func => exact runStubFunc_map f convert call task
  | handle tilingKey => exact run_map f convert call task
  | launchCtx funcCtx => exact runLaunchCtx_map f convert call task

def mapPool (pool : TaskPool A) : TaskPool B := Task.map f ∘ pool

theorem runDBITask_map (pool : TaskPool A) :
    runDBITask (fun r => f (convert r)) call (mapPool f pool) =
      (runDBITask convert call pool).map (Option.map f) (mapPool f) := by
  unfold runDBITask
  cases call.enabled with
  | false => rfl
  | true =>
    rw [if_pos rfl, if_pos rfl]
    dsimp only [mapPool, Prod.map, Function.comp_apply]
    rw [runTask_map, Function.comp_update]
    cases succeeds call <;> rfl

end Map

/-- A successful call hands out what converting its own kernel with its own configuration
gives. -/
def HandsOutOwn {B : Type} (convert : Request → B) (pool : TaskPool B) (call : Call) : Prop :=
  ∀ binary ∈ (runDBITask convert call pool).1, binary = convert call.request

/-- The calls of a thread, from the first one on. -/
def Transparent {B : Type} (convert : Request → B) (calls : List Call) : Prop :=
  Guarded (step convert) (HandsOutOwn convert) (fun _ => {}) calls

/-- The requests are alike in what a task does not tell apart. -/
def Alike (r r' : Request) : Prop :=
  r.argSize = r'.argSize ∧ match r.type with
    | .customize => r.archName = r'.archName ∧
      r.extraArgs ++ tilingKeyFlags r.tilingKey = r'.extraArgs ++ tilingKeyFlags r'.tilingKey
    | .bbCount => ("dav-c310".toList <:+: r.archName.toList ↔
        "dav-c310".toList <:+: r'.archName.toList) ∧
      tilingKeyFlags r.tilingKey = tilingKeyFlags r'.tilingKey
    | .pgo => tilingKeyFlags r.tilingKey = tilingKeyFlags r'.tilingKey

/-- The task has a handle, or gets one. -/
def GivesHandle (task : Task Request) (call : Call) : Prop :=
  if needConvert call task then call.ending = .done else task.replaceTask.isSome

/-- What the call hands out again was converted for a request alike. A stub function is handed
out again as it was registered, also by a task that has converted its kernel anew. -/
def Matches (requests : TaskPool Request) (call : Call) : Prop :=
  let task := requests call.key
  call.enabled → match call.kernel with
    | .handle _ => call.updatesPcStartAddr → ¬ needConvert call task →
      ∀ r ∈ task.replaceTask, Alike r call.request
    | .launchCtx _ => ¬ needConvert call task → ∀ r ∈ task.funcCtx, Alike r call.request
    | .stubFunc _ => call.updatesPcStartAddr →
      (∀ r ∈ task.stubFunc, GivesHandle task call → Alike r call.request) ∧
      (task.stubFunc = none → call.registersFunction → ¬ needConvert call task →
        ∀ r ∈ task.replaceTask, Alike r call.request)

/-! ## What a task holds -/

/-- The request is one of the task with this key. -/
structure Belongs (key : UInt64 × TaskKey) (oldKernel : UInt64 → OldKernel) (r : Request) :
    Prop where
  type : r.type = key.2.biType
  pluginPath : r.pluginPath = key.2.pluginPath
  oldKernel : r.oldKernel = oldKernel key.1

structure Keyed (key : UInt64 × TaskKey) (task : Task Request) : Prop where
  replaceTask : ∀ r ∈ task.replaceTask, Belongs key .registerEvent r
  funcCtx : ∀ r ∈ task.funcCtx, Belongs key .registerContext r
  stubFunc : ∀ r ∈ task.stubFunc, Belongs key .registerEvent r

section
variable {key : UInt64 × TaskKey} {oldKernel : UInt64 → OldKernel} {call : Call}
  {task : Task Request}

theorem convert_eq_iff {r r' : Request} (h : Belongs key oldKernel r)
    (h' : Belongs key oldKernel r') : r.convert = r'.convert ↔ Alike r r' := by
  have htype : r'.type = r.type := h'.type.trans h.type.symm
  have hplugin : r.pluginPath = r'.pluginPath := h.pluginPath.trans h'.pluginPath.symm
  have hkernel : r.oldKernel = r'.oldKernel := h.oldKernel.trans h'.oldKernel.symm
  unfold Request.convert Alike
  rw [htype]
  cases r.type with
  | customize =>
    dsimp only
    unfold customConvert
    rw [Tune.mk.injEq, Action.instruMemprobe.injEq, and_iff_left hkernel, and_iff_right hplugin,
      and_left_comm]
  | bbCount =>
    dsimp only
    unfold bbCountConvert
    by_cases harch : "dav-c310".toList <:+: r.archName.toList
    · by_cases harch' : "dav-c310".toList <:+: r'.archName.toList
      · rw [if_pos harch, if_pos harch', Tune.mk.injEq, and_iff_left hkernel, and_iff_right rfl,
          and_iff_right (iff_of_true harch harch')]
      · rw [if_pos harch, if_neg harch']
        refine iff_of_false (fun heq => ?_) fun hlike => harch' (hlike.2.1.mp harch)
        cases congrArg Tune.action heq
    · by_cases harch' : "dav-c310".toList <:+: r'.archName.toList
      · rw [if_neg harch, if_pos harch']
        refine iff_of_false (fun heq => ?_) fun hlike => harch (hlike.2.1.mpr harch')
        cases congrArg Tune.action heq
      · rw [if_neg harch, if_neg harch', Tune.mk.injEq, and_iff_left hkernel, and_iff_right rfl,
          and_iff_right (iff_of_false harch harch')]
  | pgo =>
    dsimp only
    unfold pgoConvert
    rw [Tune.mk.injEq, and_iff_left hkernel, and_iff_right rfl]

theorem belongs_request (call : Call) :
    Belongs call.key (fun regId => call.kernel.oldKernel regId) call.request := by
  unfold Call.key Call.request
  cases call.kernel <;> exact ⟨rfl, rfl, rfl⟩

theorem mem_runWith_iff {r : Request} {binary : Task Request → Option Request}
    {setBinary : Option Request → Task Request → Task Request} :
    r ∈ (runWith id call binary setBinary task).1 ↔
      needConvert call task ∧ call.ending = .done ∧ call.request = r ∨
        ¬ needConvert call task ∧ r ∈ binary task := by
  unfold runWith
  split_ifs with hneed
  · rw [or_iff_left fun h => h.1 hneed, and_iff_right hneed]
    cases call.ending with
    | failed => exact iff_of_false (fun h => by cases h) fun h => by cases h.1
    | notRegistered => exact iff_of_false (fun h => by cases h) fun h => by cases h.1
    | done => exact Option.mem_some_iff.trans (and_iff_right rfl).symm
  · rw [or_iff_right fun h => hneed h.1, and_iff_right hneed]

theorem isSome_run_iff : (run id call task).1.isSome ↔ GivesHandle task call := by
  unfold run runWith GivesHandle
  split_ifs
  · cases call.ending with
    | failed => exact iff_of_false Bool.false_ne_true fun h => by cases h
    | notRegistered => exact iff_of_false Bool.false_ne_true fun h => by cases h
    | done => exact iff_of_true rfl rfl
  · exact Iff.rfl

theorem stubFunc_run : (run id call task).2.stubFunc = task.stubFunc := by
  unfold run runWith
  split_ifs
  · cases call.ending <;> rfl
  · rfl

theorem mem_runStubFunc_iff {r : Request} : r ∈ (runStubFunc id call task).1 ↔
    r ∈ task.stubFunc ∧ GivesHandle task call ∨
      task.stubFunc = none ∧ call.registersFunction ∧ r ∈ (run id call task).1 := by
  have hstub : (run id call task).2.stubFunc = task.stubFunc := stubFunc_run
  rw [← isSome_run_iff, ← hstub]
  unfold runStubFunc
  rcases run id call task with ⟨_ | binary, task'⟩
  · refine iff_of_false (fun h => by cases h) ?_
    rintro (⟨-, h⟩ | ⟨-, -, h⟩) <;> cases h
  · dsimp only
    rw [and_iff_left (Option.isSome_some)]
    cases hfunc : task'.stubFunc with
    | some func =>
      rw [Option.isSome_some, if_pos rfl]
      exact (or_iff_left fun h => (by cases h.1)).symm
    | none =>
      rw [Option.isSome_none, if_neg Bool.false_ne_true, and_iff_right rfl,
        or_iff_right fun h => (by cases h)]
      split_ifs with hregisters
      · exact (and_iff_right hregisters).symm
      · exact iff_of_false (fun h => by cases h) fun h => hregisters h.1

theorem Keyed.run (h : Keyed call.key task)
    (hown : Belongs call.key .registerEvent call.request) :
    Keyed call.key (run id call task).2 := by
  unfold DBITask.run runWith
  split_ifs
  · cases call.ending with
    | failed => exact h
    | notRegistered => exact { h with replaceTask := fun r hr => by cases hr }
    | done => exact { h with replaceTask := by rintro r ⟨⟩; exact hown }
  · exact h

theorem Keyed.runStubFunc (h : Keyed call.key task)
    (hown : Belongs call.key .registerEvent call.request) :
    Keyed call.key (runStubFunc id call task).2 := by
  have hrun : Keyed call.key (DBITask.run id call task).2 := h.run hown
  have hmem : ∀ r ∈ (DBITask.run id call task).1, Belongs call.key .registerEvent r := by
    intro r hr
    rcases mem_runWith_iff.mp hr with ⟨-, -, rfl⟩ | ⟨-, hr⟩
    · exact hown
    · exact h.replaceTask r hr
  unfold DBITask.runStubFunc
  generalize DBITask.run id call task = handed at hrun hmem ⊢
  rcases handed with ⟨_ | binary, task'⟩
  · exact hrun
  · dsimp only at hrun ⊢
    split_ifs
    · exact hrun
    · exact { hrun with stubFunc := by rintro _ ⟨⟩; exact hmem binary rfl }
    · exact hrun

theorem Keyed.runLaunchCtx (h : Keyed call.key task)
    (hown : Belongs call.key .registerContext call.request) :
    Keyed call.key (runLaunchCtx id call task).2 := by
  unfold DBITask.runLaunchCtx runWith
  split_ifs
  · cases call.ending with
    | failed => exact h
    | notRegistered => exact { h with funcCtx := fun r hr => by cases hr }
    | done => exact { h with funcCtx := by rintro r ⟨⟩; exact hown }
  · exact h

theorem Keyed.runTask (h : Keyed call.key task) : Keyed call.key (runTask id call task).2 := by
  have hown := belongs_request call
  unfold DBITask.runTask
  cases hkernel : call.kernel with
  | stubFunc func =>
    rw [hkernel] at hown
    exact h.runStubFunc hown
  | handle tilingKey =>
    rw [hkernel] at hown
    exact h.run hown
  | launchCtx funcCtx =>
    rw [hkernel] at hown
    exact h.runLaunchCtx hown

/-! ## Runs -/

variable {requests : TaskPool Request}

theorem step_eq (requests : TaskPool Request) (call : Call) :
    step id requests call = if call.enabled then
      Function.update requests call.key (runTask id call (requests call.key)).2 else requests := by
  unfold step runDBITask
  cases call.enabled <;> rfl

/-- Requests stay with the task that they were converted for. -/
theorem keyed_step (h : ∀ key, Keyed key (requests key)) (call : Call) (key : UInt64 × TaskKey) :
    Keyed key (step id requests call key) := by
  rw [step_eq]
  split_ifs
  · rw [Function.update_apply]
    split_ifs with hkey
    · rw [hkey]
      exact (h call.key).runTask
    · exact h key
  · exact h key

/-- The call hands out what is made from the same as its own conversion would be. -/
theorem convert_handedOut_iff (h : ∀ key, Keyed key (requests key)) (call : Call) :
    (∀ r ∈ (runDBITask id call requests).1, r.convert = call.request.convert) ↔
      Matches requests call := by
  have hown := belongs_request call
  have hkeyed := h call.key
  unfold runDBITask Matches
  cases call.enabled with
  | false => exact iff_of_true (fun r hr => by cases hr) fun h => absurd h Bool.false_ne_true
  | true =>
    rw [if_pos rfl, imp_iff_right rfl]
    dsimp only
    unfold succeeds runTask
    cases hkernel : call.kernel with
    | handle tilingKey =>
      rw [hkernel] at hown
      dsimp only
      split_ifs with hsucceeds
      · rw [imp_iff_right hsucceeds]
        constructor
        · intro hall hneed r hr
          exact (convert_eq_iff (hkeyed.replaceTask r hr) hown).mp
            (hall r (mem_runWith_iff.mpr (.inr ⟨hneed, hr⟩)))
        · intro hmatches r hr
          rcases mem_runWith_iff.mp hr with ⟨-, -, rfl⟩ | ⟨hneed, hr⟩
          · rfl
          · exact (convert_eq_iff (hkeyed.replaceTask r hr) hown).mpr (hmatches hneed r hr)
      · exact iff_of_true (fun r hr => by cases hr) fun h => absurd h hsucceeds
    | launchCtx funcCtx =>
      rw [hkernel] at hown
      dsimp only
      rw [if_pos rfl]
      constructor
      · intro hall hneed r hr
        exact (convert_eq_iff (hkeyed.funcCtx r hr) hown).mp
          (hall r (mem_runWith_iff.mpr (.inr ⟨hneed, hr⟩)))
      · intro hmatches r hr
        rcases mem_runWith_iff.mp hr with ⟨-, -, rfl⟩ | ⟨hneed, hr⟩
        · rfl
        · exact (convert_eq_iff (hkeyed.funcCtx r hr) hown).mpr (hmatches hneed r hr)
    | stubFunc func =>
      rw [hkernel] at hown
      dsimp only
      split_ifs with hsucceeds
      · rw [imp_iff_right hsucceeds]
        constructor
        · intro hall
          refine ⟨fun r hr hgives => ?_, fun hnone hregisters hneed r hr => ?_⟩
          · exact (convert_eq_iff (hkeyed.stubFunc r hr) hown).mp
              (hall r (mem_runStubFunc_iff.mpr (.inl ⟨hr, hgives⟩)))
          · exact (convert_eq_iff (hkeyed.replaceTask r hr) hown).mp
              (hall r (mem_runStubFunc_iff.mpr
                (.inr ⟨hnone, hregisters, mem_runWith_iff.mpr (.inr ⟨hneed, hr⟩)⟩)))
        · rintro ⟨hstub, hreplace⟩ r hr
          rcases mem_runStubFunc_iff.mp hr with ⟨hr, hgives⟩ | ⟨hnone, hregisters, hr⟩
          · exact (convert_eq_iff (hkeyed.stubFunc r hr) hown).mpr (hstub r hr hgives)
          · rcases mem_runWith_iff.mp hr with ⟨-, -, rfl⟩ | ⟨hneed, hr⟩
            · rfl
            · exact (convert_eq_iff (hkeyed.replaceTask r hr) hown).mpr
                (hreplace hnone hregisters hneed r hr)
      · exact iff_of_true (fun r hr => by cases hr) fun h => absurd h hsucceeds

/-- Whatever the conversions give, the binaries are those of the requests. -/
theorem transparent_iff_guarded {B : Type} (tool : Tune → B) (calls : List Call) :
    Transparent (fun r => tool r.convert) calls ↔
      Guarded (step id) (fun requests call => ∀ r ∈ (runDBITask id call requests).1,
        tool r.convert = tool call.request.convert) (fun _ => {}) calls := by
  have hrun (requests : TaskPool Request) (call : Call) :=
    runDBITask_map (fun r : Request => tool r.convert) id call requests
  refine guarded_map (f := mapPool fun r : Request => tool r.convert) ?_ ?_ (fun _ => {}) calls
  · intro requests call
    exact congrArg Prod.snd (hrun requests call)
  · intro requests call
    unfold HandsOutOwn
    have hfst := congrArg Prod.fst (hrun requests call)
    dsimp only [id_eq] at hfst
    rw [hfst]
    exact Option.forall_mem_map

/-- Every successful call of a thread hands out what converting its own kernel gives, whatever
the conversions give, exactly when every reuse matches. -/
theorem cache_transparent_iff (calls : List Call) :
    (∀ (B : Type) (tool : Tune → B), Transparent (fun r => tool r.convert) calls) ↔
      Guarded (step id) Matches (fun _ => {}) calls := by
  have hkeyed (key : UInt64 × TaskKey) : Keyed key {} :=
    ⟨fun r hr => (by cases hr), fun r hr => (by cases hr), fun r hr => (by cases hr)⟩
  have hguard : Guarded (step id) (fun requests call =>
      ∀ r ∈ (runDBITask id call requests).1, r.convert = call.request.convert) (fun _ => {}) calls ↔
      Guarded (step id) Matches (fun _ => {}) calls :=
    @guarded_congr _ _ (step id) _ Matches (fun requests => ∀ key, Keyed key (requests key))
      (fun _ => True) (fun requests call h _ => convert_handedOut_iff h call)
      (fun requests call h _ => keyed_step h call) _ _ hkeyed fun _ _ => trivial
  rw [← hguard]
  constructor
  · intro h
    exact (transparent_iff_guarded id calls).mp (h Tune id)
  · intro h B tool
    exact (transparent_iff_guarded tool calls).mpr
      (h.mono fun _ _ hconvert r hr => congrArg tool (hconvert r hr))

end

/-- The launch of a stub function with as many bytes of arguments. -/
def stubLaunch (launchId : UInt64) (argsSize : UInt32) : Call where
  regId := 0
  launchId := launchId
  kernel := .stubFunc 0x1000
  archName := "dav-c220"
  config := { type := .customize, pluginPath := "plugin_memory.so", argsSize := argsSize }

/-- The second launch has one argument more, and gets the binary of the first one. -/
theorem stubLaunches_not_transparent :
    ¬ ∀ (B : Type) (tool : Tune → B),
      Transparent (fun r => tool r.convert) [stubLaunch 0 16, stubLaunch 1 24] := by
  intro h
  obtain ⟨-, hsecond, -⟩ := h Tune id
  have hhanded : (runDBITask Request.convert (stubLaunch 1 24)
      (step Request.convert (fun _ => {}) (stubLaunch 0 16))).1 =
      some (stubLaunch 0 16).request.convert := by
    decide
  have hargSize := congrArg Tune.argSize (hsecond _ hhanded)
  exact absurd hargSize (by decide)

end Msopcom.DBITask
