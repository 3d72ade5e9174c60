import Mathlib.Data.List.Perm.Basic
import Msopcom.Runs

set_option autoImplicit false

/-!
# The connections that a server has accepted

`DomainSocketServer::Accept` has several exits behind the system call that gives it a
descriptor. Descriptors come back when they are closed, so that they are counted.
-/
namespace Msopcom.ServerAccept
open Runs

abbrev Fd := Int32

/-- `struct ucred`, as far as it is read. -/
@[ext] structure Ucred where
  uid : UInt32
  gid : UInt32
  deriving DecidableEq, Repr

/-- What the system calls of one `Accept` answer; a call that fails answers nothing. -/
structure Attempt where
  accept : Option Fd
  setsockopt : Bool
  getsockopt : Option Ucred
  deriving DecidableEq, Repr

/-- The table of the server, and what it has been given and has given back, last first. -/
structure Server where
  maxClientNum : ℕ
  cfds : List Fd := []
  accepted : List Fd := []
  closed : List Fd := []
  deriving DecidableEq, Repr

def Server.close (cfd : Fd) (s : Server) : Server := { s with closed := cfd :: s.closed }

/-- The call of a process with these ids, with the id that it gives to the client. -/
def Server.accept (process : Ucred) (s : Server) (attempt : Attempt) : Option ℕ × Server :=
  if s.cfds.length ≥ s.maxClientNum then (none, s)
  else match attempt.accept with
  | none => (none, s)
  | some cfd =>
    let s := { s with accepted := cfd :: s.accepted }
    if !attempt.setsockopt then (none, s.close cfd)
    else match attempt.getsockopt with
    | none => (none, s)
    | some cred =>
      if process.uid ≠ cred.uid ∨ process.gid ≠ cred.gid then (none, s)
      else (some s.cfds.length, { s with cfds := s.cfds ++ [cfd] })

def step (process : Ucred) (s : Server) (attempt : Attempt) : Server :=
  (s.accept process attempt).2

/-- `~DomainSocketServer`. -/
def Server.destroy (s : Server) : Server := s.cfds.foldl (fun s fd => s.close fd) s

/-- Each descriptor was either closed or recorded, as often as it was accepted. -/
def Accounted (s : Server) : Prop := (s.closed ++ s.cfds).Perm s.accepted

instance (s : Server) : Decidable (Accounted s) := inferInstanceAs (Decidable (List.Perm _ _))

/-- A descriptor gets no time limit, so that it is closed, or is that of a peer with the ids of
the process. -/
def Attempt.Settled (process : Ucred) (attempt : Attempt) : Prop :=
  attempt.accept ≠ none → attempt.setsockopt = true → attempt.getsockopt = some process

instance (process : Ucred) (attempt : Attempt) : Decidable (attempt.Settled process) :=
  inferInstanceAs (Decidable (_ → _ → _))

/-- There is room for a client only with a descriptor that is closed or recorded. -/
def Checked (process : Ucred) (s : Server) (attempt : Attempt) : Prop :=
  s.cfds.length < s.maxClientNum → attempt.Settled process

variable {process : Ucred} {s : Server} {attempt : Attempt}

/-! ## One call -/

theorem accept_full (h : s.maxClientNum ≤ s.cfds.length) : step process s attempt = s := by
  unfold step Server.accept
  rw [if_pos h]

theorem accept_none (h : attempt.accept = none) : step process s attempt = s := by
  unfold step Server.accept
  rw [h]
  split_ifs <;> rfl

variable {cfd : Fd}

/-- The three ways of a descriptor. -/
theorem accept_some (hroom : s.cfds.length < s.maxClientNum) (h : attempt.accept = some cfd) :
    step process s attempt =
      if attempt.setsockopt = false then
        { s with accepted := cfd :: s.accepted, closed := cfd :: s.closed }
      else if attempt.getsockopt = some process then
        { s with accepted := cfd :: s.accepted, cfds := s.cfds ++ [cfd] }
      else { s with accepted := cfd :: s.accepted } := by
  unfold step Server.accept
  rw [if_neg (not_le.mpr hroom), h]
  dsimp only
  cases attempt.setsockopt with
  | false => rfl
  | true =>
    cases hcred : attempt.getsockopt with
    | none => rfl
    | some cred =>
      by_cases heq : cred = process
      · rw [heq]
        simp
      · have hids : process.uid ≠ cred.uid ∨ process.gid ≠ cred.gid := by
          by_contra hsame
          rw [not_or, not_not, not_not] at hsame
          exact heq (Ucred.ext hsame.1.symm hsame.2.symm)
        simp [hids, heq]

/-! ## Accounting -/

/-- No descriptor is closed or recorded that was not accepted. -/
def Covered (s : Server) : Prop := s.closed.length + s.cfds.length ≤ s.accepted.length

theorem accounted_close (s : Server) (cfd : Fd) :
    Accounted { s with accepted := cfd :: s.accepted, closed := cfd :: s.closed } ↔
      Accounted s := by
  unfold Accounted
  exact List.perm_cons cfd

theorem accounted_record (s : Server) (cfd : Fd) :
    Accounted { s with accepted := cfd :: s.accepted, cfds := s.cfds ++ [cfd] } ↔ Accounted s := by
  unfold Accounted
  dsimp only
  rw [← List.append_assoc]
  exact (List.perm_append_singleton cfd _).congr_left _ |>.trans (List.perm_cons cfd)

/-- A descriptor that is neither closed nor recorded is not made up for. -/
theorem not_accounted_drop (h : Covered s) (cfd : Fd) :
    ¬ Accounted { s with accepted := cfd :: s.accepted } := by
  intro hperm
  have hlen := List.Perm.length_eq hperm
  unfold Covered at h
  simp at hlen
  omega

theorem covered_step (h : Covered s) : Covered (step process s attempt) := by
  by_cases hroom : s.cfds.length < s.maxClientNum
  · cases haccept : attempt.accept with
    | none => rwa [accept_none haccept]
    | some cfd =>
      unfold Covered at h ⊢
      rw [accept_some hroom haccept]
      split_ifs <;> simp <;> omega
  · rwa [accept_full (not_lt.mp hroom)]

theorem accounted_step_iff (h : Covered s) :
    Accounted (step process s attempt) ↔ Checked process s attempt ∧ Accounted s := by
  by_cases hroom : s.cfds.length < s.maxClientNum
  · cases haccept : attempt.accept with
    | none =>
      have hchecked : Checked process s attempt := fun _ hne => absurd haccept hne
      rw [accept_none haccept]
      exact (and_iff_right hchecked).symm
    | some cfd =>
      have hchecked : Checked process s attempt ↔
          (attempt.setsockopt = true → attempt.getsockopt = some process) :=
        ⟨fun h => h hroom (by rw [haccept]; exact Option.some_ne_none cfd), fun h _ _ => h⟩
      rw [accept_some hroom haccept, hchecked]
      split_ifs with htimeout hcred
      · rw [accounted_close, htimeout]
        simp
      · rw [accounted_record]
        simp [hcred]
      · refine iff_of_false (not_accounted_drop h cfd) fun hboth => hcred (hboth.1 ?_)
        exact (Bool.not_eq_false _).mp htimeout
  · have hchecked : Checked process s attempt := fun hlt => absurd hlt hroom
    rw [accept_full (not_lt.mp hroom)]
    exact (and_iff_right hchecked).symm

/-- After any calls from a state in which this is so: all is accounted for if it was before and
each call meets the condition. -/
theorem accounted_run_iff {attempts : List Attempt} (h : Covered s) :
    Accounted (attempts.foldl (step process) s) ↔
      Guarded (step process) (Checked process) s attempts ∧ Accounted s := by
  induction attempts generalizing s with
  | nil => exact (and_iff_right trivial).symm
  | cons attempt attempts ih =>
    rw [List.foldl_cons, ih (covered_step h), accounted_step_iff h, Guarded]
    tauto

/-- The server closes or records each descriptor, and none both, after all calls of a run
exactly if no call with room for a client is given a descriptor with a time limit whose peer is
unknown or another user. -/
theorem accept_accounts_iff (process : Ucred) (maxClientNum : ℕ) (attempts : List Attempt) :
    Accounted (attempts.foldl (step process) ⟨maxClientNum, [], [], []⟩) ↔
      Guarded (step process) (Checked process) ⟨maxClientNum, [], [], []⟩ attempts := by
  have hstart : Covered ⟨maxClientNum, [], [], []⟩ := Nat.le_refl 0
  rw [accounted_run_iff hstart]
  exact and_iff_left (List.Perm.refl [])

/-- What is accounted for is closed with the server. -/
theorem accounted_destroy (h : Accounted s) : s.destroy.closed.Perm s.accepted := by
  have hclosed : ∀ (cfds : List Fd) (s : Server),
      (cfds.foldl (fun s fd => s.close fd) s).closed = cfds.reverse ++ s.closed := by
    intro cfds
    induction cfds with
    | nil => exact fun s => rfl
    | cons cfd cfds ih =>
      intro s
      rw [List.foldl_cons, ih, List.reverse_cons, List.append_assoc]
      rfl
  rw [Server.destroy, hclosed]
  exact ((List.reverse_perm _).append_right _).trans (List.perm_append_comm.trans h)

/-- A peer of another user leaves its descriptor behind. -/
theorem accept_leaks : ¬ ∀ (process : Ucred) (maxClientNum : ℕ) (attempts : List Attempt),
    Accounted (attempts.foldl (step process) ⟨maxClientNum, [], [], []⟩) := by
  intro h
  exact absurd (h ⟨1000, 1000⟩ 1 [⟨some 5, true, some ⟨1001, 1001⟩⟩]) (by decide)

end Msopcom.ServerAccept
