import Mathlib.Data.List.Basic

set_option autoImplicit false

/-!
# A stream and its reader

What has been sent, split where the reader is. A message that the reader gathers is a window
of what it has read; windows are told apart by where they start.
-/
namespace Msopcom

structure Inbox (α : Type) where
  read : List α := []
  unread : List α
  deriving DecidableEq, Repr

namespace Inbox
variable {α : Type}

def send (bytes : List α) (i : Inbox α) : Inbox α := { i with unread := i.unread ++ bytes }

def skip (n : ℕ) (i : Inbox α) : Inbox α := ⟨i.read ++ i.unread.take n, i.unread.drop n⟩

def sent (i : Inbox α) : List α := i.read ++ i.unread

def position (i : Inbox α) : ℕ := i.read.length

@[simp] theorem sent_send (bytes : List α) (i : Inbox α) :
    (i.send bytes).sent = i.sent ++ bytes := (List.append_assoc _ _ _).symm

@[simp] theorem sent_skip (n : ℕ) (i : Inbox α) : (i.skip n).sent = i.sent := by
  simp [sent, skip, List.append_assoc]

/-- The reader has gathered `msg` since it was at `start`. -/
def Gathered (i : Inbox α) (start : ℕ) (msg : List α) : Prop :=
  ∃ before, i.read = before ++ msg ∧ before.length = start

theorem gathered_nil (i : Inbox α) : i.Gathered i.position [] :=
  ⟨i.read, (List.append_nil _).symm, rfl⟩

theorem Gathered.send {i : Inbox α} {start : ℕ} {msg : List α} (h : i.Gathered start msg)
    (bytes : List α) : (i.send bytes).Gathered start msg := h

theorem Gathered.skip {i : Inbox α} {start : ℕ} {msg : List α} (h : i.Gathered start msg)
    (n : ℕ) : (i.skip n).Gathered start (msg ++ i.unread.take n) := by
  obtain ⟨before, hread, hstart⟩ := h
  refine ⟨before, ?_, hstart⟩
  change i.read ++ _ = _
  rw [hread, List.append_assoc]

theorem Gathered.position_eq {i : Inbox α} {start : ℕ} {msg : List α} (h : i.Gathered start msg) :
    i.position = start + msg.length := by
  obtain ⟨before, hread, hstart⟩ := h
  rw [position, hread, List.length_append, hstart]

/-- What has been read has `msg` at `start`. -/
def Has (i : Inbox α) (start : ℕ) (msg : List α) : Prop :=
  ∃ before behind, i.read = before ++ msg ++ behind ∧ before.length = start

theorem Gathered.has {i : Inbox α} {start : ℕ} {msg : List α} (h : i.Gathered start msg) :
    i.Has start msg := by
  obtain ⟨before, hread, hstart⟩ := h
  exact ⟨before, [], by rw [hread, List.append_nil], hstart⟩

theorem Has.skip {i : Inbox α} {start : ℕ} {msg : List α} (h : i.Has start msg) (n : ℕ) :
    (i.skip n).Has start msg := by
  obtain ⟨before, behind, hread, hstart⟩ := h
  refine ⟨before, behind ++ i.unread.take n, ?_, hstart⟩
  change i.read ++ _ = _
  rw [hread, List.append_assoc]

end Inbox
end Msopcom
