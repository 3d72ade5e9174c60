import Mathlib.Logic.Function.Basic
import Msopcom.Ledger
import Msopcom.Runs

set_option autoImplicit false

/-!
# Calls of other programs through pipes

Any number of calls run at the same time. Each makes two pipes, forks, and talks to its child
through them. What a step does under the mutex is one step here. The child has the descriptors of
its parent and the global list as they are at the fork, and is alone in its process.
-/
namespace Msopcom.PipeCall
open Ledger Runs

/-! ## Descriptors -/

/-- The pipes of a call, `pipeStdin` and `pipeStdout`. -/
inductive PipeName
  | pipeStdin
  | pipeStdout
  deriving DecidableEq, Repr

/-- The ends of a pipe, the descriptors 0 and 1 of its array. -/
inductive Side
  | read
  | write
  deriving DecidableEq, Repr

structure PipeEnd where
  call : ℕ
  pipe : PipeName
  side : Side
  deriving DecidableEq, Repr

/-- What a descriptor is open on. -/
inductive File
  | other
  | pipeEnd (e : PipeEnd)
  deriving DecidableEq, Repr

abbrev Table := ℕ → Option File

namespace Table

/-- `close`; `none` is the descriptor -1. -/
def close (t : Table) : Option ℕ → Table
  | none => t
  | some fd => Function.update t fd none

def dup2 (t : Table) (old : Option ℕ) (new : ℕ) : Table :=
  match old.bind t with
  | none => t
  | some file => Function.update t new (some file)

end Table

/-- The list has each descriptor that is closed, so that there is one to erase. -/
def eraseFd (fdsForClose : List ℕ) : Option ℕ → List ℕ
  | none => fdsForClose
  | some fd => fdsForClose.erase fd

/-! ## The child -/

/-- `Pipe::Close` in the child, on its descriptors and its list. -/
def closeInChild (fileno : Option ℕ) (p : Table × List ℕ) : Table × List ℕ :=
  (p.1.close fileno, eraseFd p.2 fileno)

def closeAll (p : Table × List ℕ) : Table × List ℕ :=
  (p.2.foldl (fun t fd => t.close (some fd)) p.1, [])

/-- The descriptors at `execvp`. -/
def childTable (stdin0 stdin1 stdout0 stdout1 : Option ℕ) (table : Table) (fdsForClose : List ℕ) :
    Table :=
  let table := ((table.dup2 stdin0 0).dup2 stdout1 1).dup2 (some 1) 2
  (closeAll (closeInChild stdout1 (closeInChild stdout0 (closeInChild stdin1
    (closeInChild stdin0 (table, fdsForClose)))))).1

structure Child where
  call : ℕ
  table : Table

/-! ## The calls -/

inductive Phase
  | entered
  | stdinCreated
  | created
  | forked
  | stdinClosed
  | communicating
  | unwinding
  | returned
  deriving DecidableEq, Repr

/-- `fileno` has the arrays of the pipes. The log has what was opened, and what each `close` found
at its descriptor. -/
structure Process where
  table : Table
  fdsForClose : List ℕ := []
  fileno : PipeEnd → Option ℕ := fun _ => none
  phase : ℕ → Phase := fun _ => .entered
  log : List (Event (Option File)) := []
  children : List Child := []

namespace Process

def setPhase (c : ℕ) (phase : Phase) (s : Process) : Process :=
  { s with phase := Function.update s.phase c phase }

/-- One end of a pipe that has been created. -/
def openEnd (e : PipeEnd) (fd : ℕ) (s : Process) : Process :=
  { s with
    table := Function.update s.table fd (some (.pipeEnd e))
    fdsForClose := s.fdsForClose ++ [fd]
    fileno := Function.update s.fileno e (some fd)
    log := s.log ++ [.acquire (some (.pipeEnd e))] }

/-- `Pipe::Close`. -/
def closeEnd (e : PipeEnd) (s : Process) : Process :=
  { s with
    table := s.table.close (s.fileno e)
    fdsForClose := eraseFd s.fdsForClose (s.fileno e)
    fileno := Function.update s.fileno e none
    log := s.log ++ [.release ((s.fileno e).bind s.table)] }

/-- `Pipe::Create`; `fds` is what `pipe` gives, two descriptors that are not open, or its
failure. -/
def create (c : ℕ) (pipe : PipeName) (fds : Option (ℕ × ℕ)) (next : Phase) (s : Process) :
    Process :=
  match fds with
  | none => s.setPhase c .unwinding
  | some (fd0, fd1) =>
    if fd0 ≠ fd1 ∧ s.table fd0 = none ∧ s.table fd1 = none then
      ((s.openEnd ⟨c, pipe, .read⟩ fd0).openEnd ⟨c, pipe, .write⟩ fd1).setPhase c next
    else s

def noteChild (child : Child) (s : Process) : Process :=
  { s with children := s.children ++ [child] }

def child (c : ℕ) (s : Process) : Child where
  call := c
  table := childTable (s.fileno ⟨c, .pipeStdin, .read⟩) (s.fileno ⟨c, .pipeStdin, .write⟩)
    (s.fileno ⟨c, .pipeStdout, .read⟩) (s.fileno ⟨c, .pipeStdout, .write⟩) s.table s.fdsForClose

def fork (c : ℕ) (success : Bool) (s : Process) : Process :=
  if success then (s.noteChild (s.child c)).setPhase c .forked else s.setPhase c .unwinding

/-- The ends in the order of the destructors. -/
def ends (c : ℕ) : List PipeEnd :=
  [⟨c, .pipeStdout, .read⟩, ⟨c, .pipeStdout, .write⟩, ⟨c, .pipeStdin, .read⟩,
    ⟨c, .pipeStdin, .write⟩]

/-- The next `Pipe::Close` of a call. Behind the first two, `Write` and `Read` are in two
threads. -/
def nextCloses (c : ℕ) (s : Process) : List PipeEnd :=
  match s.phase c with
  | .forked => [⟨c, .pipeStdin, .read⟩]
  | .stdinClosed => [⟨c, .pipeStdout, .write⟩]
  | .communicating =>
    [⟨c, .pipeStdin, .write⟩, ⟨c, .pipeStdout, .read⟩].filter fun e => s.fileno e ≠ none
  | .unwinding => ((ends c).find? fun e => s.fileno e ≠ none).toList
  | _ => []

def phaseAfterClose : Phase → Phase
  | .forked => .stdinClosed
  | .stdinClosed => .communicating
  | phase => phase

def close (e : PipeEnd) (s : Process) : Process :=
  if e ∈ s.nextCloses e.call then
    (s.closeEnd e).setPhase e.call (phaseAfterClose (s.phase e.call))
  else s

/-- The child has ended and the writer is joined, or all destructors are done. -/
def leave (c : ℕ) (s : Process) : Process :=
  if s.nextCloses c = [] then
    match s.phase c with
    | .communicating => s.setPhase c .unwinding
    | .unwinding => s.setPhase c .returned
    | _ => s
  else s

end Process

inductive Op
  | create (call : ℕ) (fds : Option (ℕ × ℕ))
  | fork (call : ℕ) (success : Bool)
  | close (e : PipeEnd)
  | leave (call : ℕ)
  deriving DecidableEq, Repr

def step (s : Process) : Op → Process
  | .create c fds =>
    match s.phase c with
    | .entered => s.create c .pipeStdin fds .stdinCreated
    | .stdinCreated => s.create c .pipeStdout fds .created
    | _ => s
  | .fork c success => if s.phase c = .created then s.fork c success else s
  | .close e => s.close e
  | .leave c => s.leave c

/-- No call has been entered; the descriptors in `opened` are open on other files. -/
def Process.init (opened : ℕ → Bool) : Process where
  table fd := if opened fd then some .other else none

/-! ## Descriptor hygiene -/

/-- The child has its own ends at the standard descriptors, and no other end of any pipe. -/
structure Child.Right (k : Child) : Prop where
  stdin : k.table 0 = some (.pipeEnd ⟨k.call, .pipeStdin, .read⟩)
  stdout : k.table 1 = some (.pipeEnd ⟨k.call, .pipeStdout, .write⟩)
  stderr : k.table 2 = some (.pipeEnd ⟨k.call, .pipeStdout, .write⟩)
  others : ∀ fd, 2 < fd → ∀ e, k.table fd ≠ some (.pipeEnd e)

/-- The children are right, a call that has returned has closed exactly once what it opened, and no
`close` has found anything else than an end of a pipe. -/
structure Right (s : Process) : Prop where
  children : ∀ k ∈ s.children, k.Right
  closed : ∀ e, s.phase e.call = .returned → some (.pipeEnd e) ∈ acquired s.log →
    (released s.log).count (some (.pipeEnd e)) = 1
  own : ∀ file ∈ released s.log, ∃ e, file = some (.pipeEnd e)

/-- Where a call forks, no end of a pipe is at a standard descriptor. -/
def Checked (s : Process) : Op → Prop
  | .fork c true => s.phase c = .created → ∀ fd ≤ 2, ∀ e, s.table fd ≠ some (.pipeEnd e)
  | _ => True

/-! ## What every step keeps -/

/-- How often an end has been opened. -/
def opened (s : Process) (e : PipeEnd) : ℕ := (acquired s.log).count (some (.pipeEnd e))

/-- The arrays and the list have the ends that are open, and what was opened and is not in an array
any more has been closed. -/
structure Core (s : Process) : Prop where
  fileno : ∀ e fd, s.fileno e = some fd ↔ s.table fd = some (.pipeEnd e)
  mirror : ∀ fd, fd ∈ s.fdsForClose ↔ ∃ e, s.table fd = some (.pipeEnd e)
  nodup : s.fdsForClose.Nodup
  once : ∀ e, opened s e ≤ 1
  count : ∀ e, opened s e =
    (released s.log).count (some (.pipeEnd e)) + (s.fileno e).toList.length
  own : ∀ file ∈ released s.log, ∃ e, file = some (.pipeEnd e)

def Phase.holds : Phase → PipeName → Side → Bool
  | .stdinCreated, .pipeStdin, _ => true
  | .created, _, _ => true
  | .forked, _, _ => true
  | .stdinClosed, pipe, side => (pipe, side) ≠ (.pipeStdin, .read)
  | _, _, _ => false

/-- The pipe is not yet created. -/
def Phase.fresh : Phase → PipeName → Bool
  | .entered, _ => true
  | .stdinCreated, .pipeStdout => true
  | _, _ => false

structure Inv (s : Process) : Prop where
  core : Core s
  held : ∀ e, (s.phase e.call).holds e.pipe e.side = true → s.fileno e ≠ none
  fresh : ∀ e, (s.phase e.call).fresh e.pipe = true → opened s e = 0
  returned : ∀ e, s.phase e.call = .returned → s.fileno e = none

section
variable {s : Process} {e : PipeEnd} {fd : ℕ}

theorem fileno_of_fresh (h : Core s) (hfresh : opened s e = 0) : s.fileno e = none := by
  have hcount := h.count e
  rw [hfresh] at hcount
  cases hfileno : s.fileno e with
  | none => rfl
  | some fd =>
    rw [hfileno] at hcount
    simp at hcount

@[simp] theorem fileno_openEnd (e' : PipeEnd) :
    (s.openEnd e fd).fileno e' = if e' = e then some fd else s.fileno e' :=
  Function.update_apply _ _ _ _

@[simp] theorem table_openEnd (fd' : ℕ) :
    (s.openEnd e fd).table fd' = if fd' = fd then some (.pipeEnd e) else s.table fd' :=
  Function.update_apply _ _ _ _

theorem opened_openEnd (e' : PipeEnd) :
    opened (s.openEnd e fd) e' = opened s e' + if e' = e then 1 else 0 := by
  simp [opened, Process.openEnd, List.count_append, List.count_singleton, @eq_comm _ e' e]

theorem core_openEnd (h : Core s) (hfd : s.table fd = none) (hfresh : opened s e = 0) :
    Core (s.openEnd e fd) where
  fileno e' fd' := by
    have hnone := fileno_of_fresh h hfresh
    rw [fileno_openEnd, table_openEnd]
    by_cases he : e' = e
    · by_cases hfd' : fd' = fd
      · simp [he, hfd']
      · have hne : s.table fd' ≠ some (.pipeEnd e) := fun heq => by
          simpa [hnone] using (h.fileno e fd').mpr heq
        simp [he, hfd', hne, Ne.symm hfd']
    · by_cases hfd' : fd' = fd
      · have hne : s.fileno e' ≠ some fd := fun heq => by
          simpa [hfd] using (h.fileno e' fd).mp heq
        simp [he, hfd', hne, Ne.symm he]
      · simpa [he, hfd'] using h.fileno e' fd'
  mirror fd' := by
    have hlist : fd' ∈ (s.openEnd e fd).fdsForClose ↔ fd' ∈ s.fdsForClose ∨ fd' = fd := by
      simp [Process.openEnd]
    rw [hlist, table_openEnd, h.mirror]
    by_cases hfd' : fd' = fd <;> simp [hfd']
  nodup := by
    have hnotin : fd ∉ s.fdsForClose := by
      rw [h.mirror, hfd]
      simp
    have hconcat := h.nodup.concat hnotin
    rwa [List.concat_eq_append] at hconcat
  once e' := by
    rw [opened_openEnd]
    by_cases he : e' = e
    · simp [he, hfresh]
    · simpa [he] using h.once e'
  count e' := by
    have hreleased : released (s.openEnd e fd).log = released s.log := by simp [Process.openEnd]
    have hcount := h.count e'
    rw [opened_openEnd, fileno_openEnd, hreleased]
    by_cases he : e' = e
    · subst he
      rw [fileno_of_fresh h hfresh] at hcount
      simpa using hcount
    · simpa [he] using hcount
  own file hfile := by
    have hreleased : released (s.openEnd e fd).log = released s.log := by simp [Process.openEnd]
    exact h.own file (hreleased ▸ hfile)

/-! ### `Pipe::Close` -/

@[simp] theorem fileno_closeEnd (e' : PipeEnd) :
    (s.closeEnd e).fileno e' = if e' = e then none else s.fileno e' :=
  Function.update_apply _ _ _ _

@[simp] theorem opened_closeEnd (e' : PipeEnd) : opened (s.closeEnd e) e' = opened s e' := by
  simp [opened, Process.closeEnd]

/-- The descriptor of an end that is closed is in the table and in the list. -/
theorem core_closeEnd (h : Core s) (hheld : s.fileno e ≠ none) : Core (s.closeEnd e) := by
  obtain ⟨fd, hfd⟩ := Option.ne_none_iff_exists'.mp hheld
  have hfile : s.table fd = some (.pipeEnd e) := (h.fileno e fd).mp hfd
  have htable : ∀ fd', (s.closeEnd e).table fd' = if fd' = fd then none else s.table fd' := by
    intro fd'
    simp [Process.closeEnd, hfd, Table.close, Function.update_apply]
  have hlist : (s.closeEnd e).fdsForClose = s.fdsForClose.erase fd := by
    simp [Process.closeEnd, hfd, eraseFd]
  have hreleased : released (s.closeEnd e).log = released s.log ++ [some (.pipeEnd e)] := by
    simp [Process.closeEnd, hfd, hfile]
  refine ⟨fun e' fd' => ?_, fun fd' => ?_, ?_, fun e' => ?_, fun e' => ?_, fun file hmem => ?_⟩
  · rw [fileno_closeEnd, htable]
    by_cases he : e' = e
    · have hne : fd' ≠ fd → s.table fd' ≠ some (.pipeEnd e) := fun hne heq => hne <| by
        simpa [hfd, eq_comm] using (h.fileno e fd').mpr heq
      by_cases hfd' : fd' = fd
      · simp [he, hfd']
      · simp [he, hfd', hne hfd']
    · by_cases hfd' : fd' = fd
      · have hne : s.fileno e' ≠ some fd := fun heq => he <| by
          simpa [hfile, eq_comm] using (h.fileno e' fd).mp heq
        simp [he, hfd', hne]
      · simpa [he, hfd'] using h.fileno e' fd'
  · rw [hlist, h.nodup.mem_erase_iff, h.mirror, htable]
    by_cases hfd' : fd' = fd <;> simp [hfd']
  · rw [hlist]
    exact h.nodup.erase fd
  · rw [opened_closeEnd]
    exact h.once e'
  · have hcount := h.count e'
    rw [opened_closeEnd, fileno_closeEnd, hreleased, List.count_append, List.count_singleton]
    by_cases he : e' = e
    · subst he
      rw [hfd] at hcount
      simpa using hcount
    · simpa [he, Ne.symm he] using hcount
  · rw [hreleased, List.mem_append, List.mem_singleton] at hmem
    obtain hmem | rfl := hmem
    · exact h.own file hmem
    · exact ⟨e, rfl⟩

/-! ### The phases of a call -/

@[simp] theorem phase_setPhase (c c' : ℕ) (phase : Phase) :
    (s.setPhase c phase).phase c' = if c' = c then phase else s.phase c' :=
  Function.update_apply _ _ _ _

theorem core_setPhase (h : Core s) (c : ℕ) (phase : Phase) : Core (s.setPhase c phase) where
  fileno := h.fileno
  mirror := h.mirror
  nodup := h.nodup
  once := h.once
  count := h.count
  own := h.own

/-- A step of one call, which leaves the ends of the others alone. -/
theorem inv_setPhase {s' : Process} {c : ℕ} {phase : Phase} (h : Inv s) (hcore : Core s')
    (hphase : s'.phase = s.phase)
    (hfileno : ∀ e, e.call ≠ c → s'.fileno e = s.fileno e)
    (hopened : ∀ e, e.call ≠ c → opened s' e = opened s e)
    (hheld : ∀ e, e.call = c → phase.holds e.pipe e.side = true → s'.fileno e ≠ none)
    (hfresh : ∀ e, e.call = c → phase.fresh e.pipe = true → opened s' e = 0)
    (hreturned : phase = .returned → ∀ e, e.call = c → s'.fileno e = none) :
    Inv (s'.setPhase c phase) where
  core := core_setPhase hcore c phase
  held e := by
    rw [phase_setPhase, hphase]
    split
    case isTrue hc => exact hheld e hc
    case isFalse hc =>
      intro hholds
      exact (hfileno e hc).symm ▸ h.held e hholds
  fresh e := by
    rw [phase_setPhase, hphase]
    split
    case isTrue hc => exact hfresh e hc
    case isFalse hc =>
      intro hunopened
      exact (hopened e hc).trans (h.fresh e hunopened)
  returned e := by
    rw [phase_setPhase, hphase]
    split
    case isTrue hc => exact fun hret => hreturned hret e hc
    case isFalse hc =>
      intro hret
      exact (hfileno e hc).trans (h.returned e hret)

theorem inv_create (h : Inv s) {c : ℕ} {pipe : PipeName} {phase next : Phase}
    (hphase : s.phase c = phase) (hpipe : phase.fresh pipe = true)
    (hheld : ∀ pipe' ≠ pipe, ∀ side, next.holds pipe' side = true → phase.holds pipe' side = true)
    (hfresh : ∀ pipe', next.fresh pipe' = true → pipe' ≠ pipe ∧ phase.fresh pipe' = true)
    (hreturned : next ≠ .returned) (fds : Option (ℕ × ℕ)) : Inv (s.create c pipe fds next) := by
  subst hphase
  cases fds with
  | none =>
    exact inv_setPhase h h.core rfl (fun _ _ => rfl) (fun _ _ => rfl) (fun _ _ => nofun)
      (fun _ _ => nofun) nofun
  | some fds =>
    obtain ⟨fd0, fd1⟩ := fds
    unfold Process.create
    dsimp only
    split
    case isFalse => exact h
    case isTrue hfds =>
      obtain ⟨hne, hfd0, hfd1⟩ := hfds
      have hunopened : ∀ side, opened s ⟨c, pipe, side⟩ = 0 :=
        fun side => h.fresh ⟨c, pipe, side⟩ hpipe
      have hcore : Core (s.openEnd ⟨c, pipe, .read⟩ fd0) :=
        core_openEnd h.core hfd0 (hunopened .read)
      have hcore' : Core ((s.openEnd ⟨c, pipe, .read⟩ fd0).openEnd ⟨c, pipe, .write⟩ fd1) := by
        refine core_openEnd hcore ?_ ?_
        · simp [Ne.symm hne, hfd1]
        · simp [opened_openEnd, hunopened .write]
      refine inv_setPhase h hcore' rfl ?_ ?_ ?_ ?_ (fun hret => absurd hret hreturned)
      · intro e he
        have hends : ∀ side, e ≠ ⟨c, pipe, side⟩ := fun side heq => he (heq ▸ rfl)
        simp [hends]
      · intro e he
        have hends : ∀ side, e ≠ ⟨c, pipe, side⟩ := fun side heq => he (heq ▸ rfl)
        simp [opened_openEnd, hends]
      · rintro ⟨_, pipe', side⟩ rfl hholds
        by_cases hpipe' : pipe' = pipe
        · cases side <;> simp [hpipe']
        · simpa [hpipe'] using h.held ⟨_, pipe', side⟩ (hheld pipe' hpipe' side hholds)
      · rintro ⟨_, pipe', side⟩ rfl hnext
        obtain ⟨hpipe', hphase⟩ := hfresh pipe' hnext
        simpa [opened_openEnd, hpipe'] using h.fresh ⟨_, pipe', side⟩ hphase

theorem inv_fork (h : Inv s) {c : ℕ} (hphase : s.phase c = .created) (success : Bool) :
    Inv (s.fork c success) := by
  cases success with
  | false =>
    exact inv_setPhase h h.core rfl (fun _ _ => rfl) (fun _ _ => rfl) (fun _ _ => nofun)
      (fun _ _ => nofun) nofun
  | true =>
    have hcore : Core (s.noteChild (s.child c)) :=
      ⟨h.core.fileno, h.core.mirror, h.core.nodup, h.core.once, h.core.count, h.core.own⟩
    refine inv_setPhase h hcore rfl (fun _ _ => rfl) (fun _ _ => rfl) ?_ (fun _ _ => nofun) nofun
    rintro e rfl -
    exact h.held e (by rw [hphase]; rfl)

/-- The end that is closed next is open, and those that are open behind it are others. -/
theorem nextCloses_spec (h : Inv s) (he : e ∈ s.nextCloses e.call) :
    s.fileno e ≠ none ∧ Process.phaseAfterClose (s.phase e.call) ≠ .returned ∧
      (∀ pipe, (Process.phaseAfterClose (s.phase e.call)).fresh pipe = false) ∧
      ∀ e', e'.call = e.call →
        (Process.phaseAfterClose (s.phase e.call)).holds e'.pipe e'.side = true →
          e' ≠ e ∧ (s.phase e'.call).holds e'.pipe e'.side = true := by
  obtain ⟨c, pipe, side⟩ := e
  cases hphase : s.phase c with
  | entered | stdinCreated | created | returned => simp [Process.nextCloses, hphase] at he
  | forked =>
    simp only [Process.nextCloses, hphase, List.mem_singleton, PipeEnd.mk.injEq, true_and] at he
    obtain ⟨rfl, rfl⟩ := he
    refine ⟨h.held _ (by simp [hphase, Phase.holds]), nofun, fun _ => rfl, ?_⟩
    rintro ⟨c', pipe', side'⟩ hc hnext
    obtain rfl : c' = c := hc
    have hne : (pipe', side') ≠ (.pipeStdin, .read) := of_decide_eq_true hnext
    refine ⟨fun heq => hne ?_, by simp [hphase, Phase.holds]⟩
    cases heq
    rfl
  | stdinClosed =>
    simp only [Process.nextCloses, hphase, List.mem_singleton, PipeEnd.mk.injEq, true_and] at he
    obtain ⟨rfl, rfl⟩ := he
    exact ⟨h.held _ (by simp [hphase, Phase.holds]), nofun, fun _ => rfl, fun _ _ => nofun⟩
  | communicating =>
    rw [Process.nextCloses, hphase, List.mem_filter] at he
    exact ⟨by simpa using he.2, nofun, fun _ => rfl, fun _ _ => nofun⟩
  | unwinding =>
    rw [Process.nextCloses, hphase, Option.mem_toList] at he
    have hheld := List.find?_some he
    exact ⟨by simpa using hheld, nofun, fun _ => rfl, fun _ _ => nofun⟩

theorem inv_close (h : Inv s) (e : PipeEnd) : Inv (s.close e) := by
  unfold Process.close
  split
  case isFalse => exact h
  case isTrue he =>
    obtain ⟨hheld, hreturned, hfresh, hnext⟩ := nextCloses_spec h he
    refine inv_setPhase h (core_closeEnd h.core hheld) rfl ?_ ?_ ?_ ?_
      (fun hret => absurd hret hreturned)
    · intro e' he'
      have hne : e' ≠ e := fun heq => he' (heq ▸ rfl)
      simp [hne]
    · intro e' _
      exact opened_closeEnd e'
    · intro e' hc hholds
      obtain ⟨hne, hbefore⟩ := hnext e' hc hholds
      simpa [hne] using h.held e' hbefore
    · intro e' _ hunopened
      rw [hfresh] at hunopened
      cases hunopened

theorem mem_ends (e : PipeEnd) : e ∈ Process.ends e.call := by
  obtain ⟨c, pipe, side⟩ := e
  cases pipe <;> cases side <;> simp [Process.ends]

theorem inv_leave (h : Inv s) (c : ℕ) : Inv (s.leave c) := by
  unfold Process.leave
  split
  case isFalse => exact h
  case isTrue hnone =>
    cases hphase : s.phase c with
    | communicating =>
      exact inv_setPhase h h.core rfl (fun _ _ => rfl) (fun _ _ => rfl) (fun _ _ => nofun)
        (fun _ _ => nofun) nofun
    | unwinding =>
      refine inv_setPhase h h.core rfl (fun _ _ => rfl) (fun _ _ => rfl) (fun _ _ => nofun)
        (fun _ _ => nofun) fun _ e he => ?_
      rw [Process.nextCloses, hphase] at hnone
      have hends : (Process.ends c).find? (fun e => s.fileno e ≠ none) = none := by
        simpa using hnone
      simpa using List.find?_eq_none.mp hends e (he ▸ mem_ends e)
    | _ => exact h

theorem inv_step (h : Inv s) (op : Op) : Inv (step s op) := by
  cases op with
  | create c fds =>
    unfold step
    dsimp only
    split
    case h_1 hphase =>
      refine inv_create h hphase (by decide) ?_ ?_ (by decide) fds
      · rintro (_ | _) hne side <;> simp_all [Phase.holds]
      · rintro (_ | _) <;> simp [Phase.fresh]
    case h_2 hphase =>
      refine inv_create h hphase (by decide) ?_ ?_ (by decide) fds
      · rintro (_ | _) hne side <;> simp_all [Phase.holds]
      · rintro (_ | _) <;> simp [Phase.fresh]
    case h_3 => exact h
  | fork c success =>
    unfold step
    dsimp only
    split
    case isTrue hphase => exact inv_fork h hphase success
    case isFalse => exact h
  | close e => exact inv_close h e
  | leave c => exact inv_leave h c

/-! ## The child at its fork -/

theorem foldl_close (fds : List ℕ) (t : Table) (fd : ℕ) :
    fds.foldl (fun t fd => t.close (some fd)) t fd = if fd ∈ fds then none else t fd := by
  induction fds generalizing t with
  | nil => simp
  | cons fd' fds ih =>
    rw [List.foldl_cons, ih]
    by_cases hfd : fd = fd' <;> simp [Table.close, hfd]

/-- An invariant of the closes of the child: what is not in the list any more is closed. -/
def Closing (t : Table) (fds : List ℕ) (p : Table × List ℕ) : Prop :=
  ∀ fd, (if fd ∈ p.2 then none else p.1 fd) = if fd ∈ fds then none else t fd

theorem closing_closeInChild {t : Table} {fds : List ℕ} {p : Table × List ℕ} (h : Closing t fds p)
    {fileno : Option ℕ} (hmem : ∀ fd ∈ fileno, fd ∈ fds) :
    Closing t fds (closeInChild fileno p) := by
  cases fileno with
  | none => exact h
  | some closed =>
    intro fd
    by_cases hfd : fd = closed
    · have hclosed : fd ∈ fds := hfd ▸ hmem closed rfl
      simp [closeInChild, Table.close, hfd ▸ hclosed, hfd]
    · simpa [closeInChild, Table.close, eraseFd, List.mem_erase_of_ne hfd, hfd] using h fd

/-- The child has what it has redirected, without the descriptors of the list. -/
theorem childTable_apply {stdin0 stdin1 stdout0 stdout1 : Option ℕ} {t : Table} {fds : List ℕ}
    (hmem : ∀ fileno ∈ [stdin0, stdin1, stdout0, stdout1], ∀ fd ∈ fileno, fd ∈ fds) (fd : ℕ) :
    childTable stdin0 stdin1 stdout0 stdout1 t fds fd =
      if fd ∈ fds then none else (((t.dup2 stdin0 0).dup2 stdout1 1).dup2 (some 1) 2) fd := by
  have hstart : Closing (((t.dup2 stdin0 0).dup2 stdout1 1).dup2 (some 1) 2) fds
      (((t.dup2 stdin0 0).dup2 stdout1 1).dup2 (some 1) 2, fds) := fun _ => rfl
  have h0 := closing_closeInChild hstart (hmem stdin0 (by simp))
  have h1 := closing_closeInChild h0 (hmem stdin1 (by simp))
  have h2 := closing_closeInChild h1 (hmem stdout0 (by simp))
  have h3 := closing_closeInChild h2 (hmem stdout1 (by simp))
  exact (foldl_close _ _ fd).trans (h3 fd)

theorem dup2_apply {t : Table} {old : ℕ} {file : File} (h : t old = some file) (new fd : ℕ) :
    t.dup2 (some old) new fd = if fd = new then some file else t fd := by
  rw [Table.dup2, Option.bind_some, h]
  exact Function.update_apply _ _ _ _

/-- The redirection of two descriptors, the second of which is not where the first one goes. -/
theorem redirect_apply {t : Table} {stdin0 stdout1 : ℕ} {stdin stdout : File}
    (hstdin : t stdin0 = some stdin) (hstdout : t stdout1 = some stdout) (hne : stdout1 ≠ 0)
    (fd : ℕ) : (((t.dup2 (some stdin0) 0).dup2 (some stdout1) 1).dup2 (some 1) 2) fd =
      if fd = 0 then some stdin else if fd = 1 ∨ fd = 2 then some stdout else t fd := by
  have h1 : (t.dup2 (some stdin0) 0) stdout1 = some stdout := by
    rw [dup2_apply hstdin, if_neg hne, hstdout]
  have h2 : ((t.dup2 (some stdin0) 0).dup2 (some stdout1) 1) 1 = some stdout := by
    rw [dup2_apply h1, if_pos rfl]
  rw [dup2_apply h2, dup2_apply h1, dup2_apply hstdin]
  by_cases hfd0 : fd = 0
  · simp [hfd0]
  · by_cases hfd1 : fd = 1
    · simp [hfd1]
    · by_cases hfd2 : fd = 2 <;> simp [hfd0, hfd1, hfd2]

/-- A child is right exactly if none of the descriptors of its list is a standard one. -/
theorem child_right_iff (h : Inv s) {c : ℕ} (hphase : s.phase c = .created) :
    (s.child c).Right ↔ ∀ fd ≤ 2, ∀ e, s.table fd ≠ some (.pipeEnd e) := by
  have hfileno : ∀ pipe side, ∃ fd, s.fileno ⟨c, pipe, side⟩ = some fd := fun pipe side =>
    Option.ne_none_iff_exists'.mp (h.held ⟨c, pipe, side⟩ (by simp [hphase, Phase.holds]))
  obtain ⟨stdin0, hstdin0⟩ := hfileno .pipeStdin .read
  obtain ⟨stdout1, hstdout1⟩ := hfileno .pipeStdout .write
  have hstdin : s.table stdin0 = some (.pipeEnd ⟨c, .pipeStdin, .read⟩) :=
    (h.core.fileno _ _).mp hstdin0
  have hstdout : s.table stdout1 = some (.pipeEnd ⟨c, .pipeStdout, .write⟩) :=
    (h.core.fileno _ _).mp hstdout1
  have hmem : ∀ pipe side, ∀ fd ∈ s.fileno ⟨c, pipe, side⟩, fd ∈ s.fdsForClose :=
    fun pipe side fd hfd => (h.core.mirror fd).mpr ⟨_, (h.core.fileno _ _).mp hfd⟩
  have htable : ∀ fd, (s.child c).table fd = if fd ∈ s.fdsForClose then none else
      (((s.table.dup2 (some stdin0) 0).dup2 (some stdout1) 1).dup2 (some 1) 2) fd := by
    intro fd
    rw [← hstdin0, ← hstdout1]
    refine childTable_apply (fun fileno hfileno fd hfd => ?_) fd
    simp only [List.mem_cons, List.not_mem_nil, or_false] at hfileno
    obtain rfl | rfl | rfl | rfl := hfileno
    all_goals exact hmem _ _ fd hfd
  constructor
  · intro hright fd hfd e hfile
    have hclosed : (s.child c).table fd = none := by
      rw [htable, if_pos ((h.core.mirror fd).mpr ⟨e, hfile⟩)]
    obtain rfl | rfl | rfl : fd = 0 ∨ fd = 1 ∨ fd = 2 := by omega
    · exact nomatch hclosed.symm.trans hright.stdin
    · exact nomatch hclosed.symm.trans hright.stdout
    · exact nomatch hclosed.symm.trans hright.stderr
  · intro hclear
    have hlarge : stdout1 ≠ 0 := fun heq => hclear 0 (by decide) _ (heq ▸ hstdout)
    have hnotin : ∀ fd ≤ 2, fd ∉ s.fdsForClose := fun fd hfd hlist =>
      have ⟨e, he⟩ := (h.core.mirror fd).mp hlist
      hclear fd hfd e he
    have hredirect := redirect_apply hstdin hstdout hlarge
    refine ⟨?_, ?_, ?_, fun fd hfd e hfile => ?_⟩
    · rw [htable, if_neg (hnotin 0 (by decide)), hredirect]
      rfl
    · rw [htable, if_neg (hnotin 1 (by decide)), hredirect]
      rfl
    · rw [htable, if_neg (hnotin 2 (by decide)), hredirect]
      rfl
    · rw [htable, hredirect] at hfile
      by_cases hlist : fd ∈ s.fdsForClose
      · simp [hlist] at hfile
      · refine hlist ((h.core.mirror fd).mpr ⟨e, ?_⟩)
        rw [if_neg hlist, if_neg (by omega), if_neg (by omega)] at hfile
        exact hfile

/-! ## Runs -/

theorem right_iff_children (h : Inv s) : Right s ↔ ∀ k ∈ s.children, k.Right := by
  refine ⟨Right.children, fun hchildren => ⟨hchildren, fun e hret hmem => ?_, h.core.own⟩⟩
  have hcount := h.core.count e
  have honce := h.core.once e
  have hpos : 0 < opened s e := List.count_pos_iff.mpr hmem
  rw [h.returned e hret, Option.toList_none, List.length_nil] at hcount
  omega

theorem children_create (c : ℕ) (pipe : PipeName) (fds : Option (ℕ × ℕ)) (next : Phase) :
    (s.create c pipe fds next).children = s.children := by
  unfold Process.create
  cases fds with
  | none => rfl
  | some fds =>
    dsimp only
    split <;> rfl

theorem children_leave (c : ℕ) : (s.leave c).children = s.children := by
  unfold Process.leave
  split
  · cases s.phase c <;> rfl
  · rfl

theorem children_close (e : PipeEnd) : (s.close e).children = s.children := by
  unfold Process.close
  split <;> rfl

theorem right_step_iff (h : Inv s) (hright : Right s) (op : Op) :
    Right (step s op) ↔ Checked s op := by
  have hold := (right_iff_children h).mp hright
  rw [right_iff_children (inv_step h op)]
  cases op with
  | create c fds =>
    have hsame : (step s (.create c fds)).children = s.children := by
      unfold step
      dsimp only
      split
      · exact children_create c _ fds _
      · exact children_create c _ fds _
      · rfl
    rw [hsame]
    exact iff_of_true hold trivial
  | fork c success =>
    unfold step
    dsimp only
    by_cases hphase : s.phase c = .created
    · rw [if_pos hphase]
      cases success with
      | false => exact iff_of_true hold trivial
      | true =>
        have hchildren : (s.fork c true).children = s.children ++ [s.child c] := rfl
        have hchild := child_right_iff h hphase
        rw [hchildren, List.forall_mem_append, List.forall_mem_singleton, hchild]
        exact ⟨fun hnew _ => hnew.2, fun hchecked => ⟨hold, hchecked hphase⟩⟩
    · rw [if_neg hphase]
      refine iff_of_true hold ?_
      cases success with
      | false => trivial
      | true => exact fun hcreated => absurd hcreated hphase
  | close e =>
    have hsame : (step s (.close e)).children = s.children := children_close e
    rw [hsame]
    exact iff_of_true hold trivial
  | leave c =>
    have hsame : (step s (.leave c)).children = s.children := children_leave c
    rw [hsame]
    exact iff_of_true hold trivial

theorem inv_init (opened : ℕ → Bool) : Inv (Process.init opened) where
  core :=
    { fileno := by
        intro e fd
        cases hopened : opened fd <;> simp [Process.init, hopened]
      mirror := by
        intro fd
        cases hopened : opened fd <;> simp [Process.init, hopened]
      nodup := List.nodup_nil
      once := fun _ => Nat.zero_le 1
      count := fun _ => rfl
      own := by simp [Process.init] }
  held _ := nofun
  fresh _ _ := rfl
  returned _ := nofun

/-- In every state of a run the descriptors are right, exactly if no call forks while an end of any
pipe is at a standard descriptor. -/
theorem descriptors_right_iff (opened : ℕ → Bool) (ops : List Op) :
    (∀ n, Right ((ops.take n).foldl step (Process.init opened))) ↔
      Guarded step Checked (Process.init opened) ops := by
  have hstart : Right (Process.init opened) :=
    (right_iff_children (inv_init opened)).mpr (by simp [Process.init])
  exact @guarded_iff_invariant_of _ _ step Checked Right Inv (fun _ _ => True)
    (fun _ op _ h _ => inv_step h op) (fun _ op _ h hright => right_step_iff h hright op) _ ops
    (guarded_true _ ops) (inv_init opened) hstart

theorem table_create_of_other (c : ℕ) (pipe : PipeName) (fds : Option (ℕ × ℕ)) (next : Phase)
    (hfd : s.table fd = some .other) : (s.create c pipe fds next).table fd = some .other := by
  cases fds with
  | none => exact hfd
  | some fds =>
    unfold Process.create
    dsimp only
    split
    case isFalse => exact hfd
    case isTrue hfds =>
      have hne0 : fd ≠ fds.1 := fun heq => by simp [← heq, hfd] at hfds
      have hne1 : fd ≠ fds.2 := fun heq => by simp [← heq, hfd] at hfds
      simpa [Process.setPhase, hne0, hne1] using hfd

theorem table_closeEnd_of_other (h : Core s) (e : PipeEnd) (hfd : s.table fd = some .other) :
    (s.closeEnd e).table fd = some .other := by
  cases hfileno : s.fileno e with
  | none => simpa [Process.closeEnd, hfileno, Table.close] using hfd
  | some fd' =>
    have hne : fd ≠ fd' := by
      rintro rfl
      have hfile := (h.fileno e fd).mp hfileno
      rw [hfd] at hfile
      cases hfile
    simpa [Process.closeEnd, hfileno, Table.close, hne] using hfd

/-- A descriptor that is open on another file stays so. -/
theorem table_step_of_other (h : Inv s) (op : Op) (hfd : s.table fd = some .other) :
    (step s op).table fd = some .other := by
  cases op with
  | create c fds =>
    unfold step
    dsimp only
    split
    · exact table_create_of_other c _ fds _ hfd
    · exact table_create_of_other c _ fds _ hfd
    · exact hfd
  | fork c success =>
    unfold step Process.fork
    dsimp only
    split
    · split <;> exact hfd
    · exact hfd
  | close e =>
    unfold step Process.close
    dsimp only
    split
    · exact table_closeEnd_of_other h.core e hfd
    · exact hfd
  | leave c =>
    unfold step Process.leave
    dsimp only
    split
    · cases s.phase c <;> exact hfd
    · exact hfd

theorem checked_of_standard (hstandard : ∀ fd ≤ 2, s.table fd = some .other) (op : Op) :
    Checked s op := by
  cases op with
  | fork c success =>
    cases success with
    | false => trivial
    | true =>
      intro _ fd hfd e
      rw [hstandard fd hfd]
      exact nofun
  | _ => trivial

/-- Where the standard descriptors are open from the start, every run is right. -/
theorem right_of_standard {opened : ℕ → Bool} (hstandard : ∀ fd ≤ 2, opened fd = true)
    (ops : List Op) : Right (ops.foldl step (Process.init opened)) := by
  have hright : Right (Process.init opened) :=
    (right_iff_children (inv_init opened)).mpr (by simp [Process.init])
  have htable : ∀ fd ≤ 2, (Process.init opened).table fd = some .other := fun fd hfd => by
    simp [Process.init, hstandard fd hfd]
  have hrun := @invariant _ _ step
    (fun s => (Inv s ∧ Right s) ∧ ∀ fd ≤ 2, s.table fd = some .other)
    (fun s op ⟨⟨h, hright⟩, htable⟩ =>
      ⟨⟨inv_step h op, (right_step_iff h hright op).mpr (checked_of_standard htable op)⟩,
        fun fd hfd => table_step_of_other h op (htable fd hfd)⟩)
    (Process.init opened) ops ⟨⟨inv_init opened, hright⟩, htable⟩
  exact hrun.1.2

end

/-- Without a standard input, the first pipe has its read end there. -/
def withoutStdin (fd : ℕ) : Bool := fd = 1 || fd = 2

def callWithoutStdin : List Op := [.create 0 (some (0, 3)), .create 0 (some (4, 5)), .fork 0 true]

/-- The child closes the end that it has as its standard input. -/
theorem not_right_withoutStdin :
    ¬ Right (callWithoutStdin.foldl step (Process.init withoutStdin)) := by
  intro h
  have hchild := h.children (Process.child 0 ((callWithoutStdin.take 2).foldl step
    (Process.init withoutStdin))) (List.mem_singleton.mpr rfl)
  exact absurd hchild.stdin (by decide +kernel)

end Msopcom.PipeCall
