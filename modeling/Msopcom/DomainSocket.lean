import Msopcom.KeyedList
import Msopcom.Runs
import Mathlib.Data.List.Perm.Basic

set_option autoImplicit false

/-!
# Messages on the domain socket

`DomainSocketClient::Write` holds its mutex for one system call, and a message may take
several of them. It returns true with all bytes sent, so `LocalProcess::Notify` calls it
once for a message.
-/
namespace Msopcom.DomainSocket
open KeyedList

/-- A `Write` that has not returned. -/
structure Pending where
  thread : ℕ
  message : List UInt8
  sentBytes : ℕ
  deriving DecidableEq, Repr

structure Client where
  stream : List UInt8 := []
  sending : List Pending := []
  /-- The messages that `Write` has been called with. -/
  messages : List (List UInt8) := []
  deriving DecidableEq, Repr

inductive Event
  | call (thread : ℕ) (message : List UInt8)
  /-- The system call of a thread takes `n` bytes. -/
  | write (thread n : ℕ)
  | fail (thread : ℕ)
  deriving DecidableEq, Repr

/-- The loop of a thread behind a system call; it ends when nothing is left. -/
def Pending.advance (p : Pending) (n : ℕ) : List Pending :=
  let sentBytes := p.sentBytes + n
  if sentBytes < p.message.length then [{ p with sentBytes := sentBytes }] else []

def step (c : Client) : Event → Client
  | .call thread message =>
    { c with
      sending := c.sending ++ if message.isEmpty then [] else [⟨thread, message, 0⟩]
      messages := c.messages ++ [message] }
  | .write thread n =>
    { c with
      stream := c.stream ++ (c.sending.filter fun p => p.thread = thread).flatMap fun p =>
        (p.message.drop p.sentBytes).take n
      sending := c.sending.flatMap fun p => if p.thread = thread then p.advance n else [p] }
  | .fail thread => { c with sending := c.sending.filter fun p => p.thread ≠ thread }

/-- A thread is in one `Write` at a time, and the kernel takes some of the bytes offered. -/
def Enabled (c : Client) : Event → Prop
  | .call thread _ => ∀ p ∈ c.sending, p.thread ≠ thread
  | .write thread n =>
    ∃ p ∈ c.sending, p.thread = thread ∧ 1 ≤ n ∧ p.sentBytes + n ≤ p.message.length
  | .fail thread => ∃ p ∈ c.sending, p.thread = thread

instance : DecidableRel Enabled
  | c, .call thread _ => inferInstanceAs (Decidable (∀ p ∈ c.sending, p.thread ≠ thread))
  | c, .write thread n =>
    inferInstanceAs (Decidable (∃ p ∈ c.sending, p.thread = thread ∧ 1 ≤ n ∧
      p.sentBytes + n ≤ p.message.length))
  | c, .fail thread => inferInstanceAs (Decidable (∃ p ∈ c.sending, p.thread = thread))

/-- The stream is whole messages in some order, and at most a part of one that is still
being written; with those that are being written they are all the messages. -/
def Atomic (c : Client) : Prop :=
  ∃ whole part, c.stream = whole.flatten ++ part ∧
    (whole ++ c.sending.map Pending.message).Perm c.messages ∧
    (part = [] ∨ ∃ p ∈ c.sending, part = p.message.take p.sentBytes)

/-- No system call is made while the message of another thread is partly sent, and none
fails. -/
def Undisturbed (c : Client) : Event → Prop
  | .call _ _ => True
  | .write thread _ => ∀ p ∈ c.sending, p.thread ≠ thread → p.sentBytes = 0
  | .fail _ => False

instance : DecidableRel Undisturbed
  | _, .call _ _ => isTrue trivial
  | c, .write thread _ =>
    inferInstanceAs (Decidable (∀ p ∈ c.sending, p.thread ≠ thread → p.sentBytes = 0))
  | _, .fail _ => isFalse not_false

/-! ## What is in the stream of a message -/

def Pending.part (p : Pending) : List UInt8 := p.message.take p.sentBytes

theorem flatMap_part_eq_nil {l : List Pending} (h : ∀ p ∈ l, p.sentBytes = 0) :
    l.flatMap Pending.part = [] := by
  rw [List.flatMap_eq_nil_iff]
  intro p hp
  rw [Pending.part, h p hp, List.take_zero]

/-- With no more than one message partly sent, the parts are the part of that one. -/
theorem flatMap_part_eq {l : List Pending} (hthreads : Distinct Pending.thread l)
    {thread : ℕ} (h : ∀ p ∈ l, p.thread ≠ thread → p.sentBytes = 0) :
    l.flatMap Pending.part = [] ∨ ∃ p ∈ l, l.flatMap Pending.part = p.part := by
  induction l with
  | nil => exact .inl rfl
  | cons p l ih =>
    obtain ⟨hp, hrest⟩ := List.pairwise_cons.mp hthreads
    have hl : ∀ q ∈ l, q.thread ≠ thread → q.sentBytes = 0 :=
      fun q hq => h q (List.mem_cons_of_mem _ hq)
    rw [List.flatMap_cons]
    by_cases hthread : p.thread = thread
    · have hzero : l.flatMap Pending.part = [] :=
        flatMap_part_eq_nil fun q hq => hl q hq fun heq => hp q hq (hthread.trans heq.symm)
      exact .inr ⟨p, List.mem_cons_self, by rw [hzero, List.append_nil]⟩
    · have hzero : p.part = [] := by
        rw [Pending.part, h p List.mem_cons_self hthread, List.take_zero]
      rw [hzero, List.nil_append]
      cases ih hrest hl with
      | inl hnil => exact .inl hnil
      | inr hone =>
        obtain ⟨q, hq, hpart⟩ := hone
        exact .inr ⟨q, List.mem_cons_of_mem _ hq, hpart⟩

/-! ## The threads -/

structure Inv (c : Client) : Prop where
  threads : Distinct Pending.thread c.sending
  single : ∃ thread, ∀ p ∈ c.sending, p.thread ≠ thread → p.sentBytes = 0
  whole : ∃ whole, c.stream = whole.flatten ++ c.sending.flatMap Pending.part ∧
    (whole ++ c.sending.map Pending.message).Perm c.messages

theorem inv_init : Inv {} := by
  constructor
  case threads => exact List.Pairwise.nil
  case single => exact ⟨0, fun p hp => absurd hp List.not_mem_nil⟩
  case whole => exact ⟨[], rfl, List.Perm.refl _⟩

theorem Inv.atomic {c : Client} (h : Inv c) : Atomic c := by
  obtain ⟨thread, hsingle⟩ := h.single
  obtain ⟨whole, hstream, hperm⟩ := h.whole
  exact ⟨whole, _, hstream, hperm, flatMap_part_eq h.threads hsingle⟩

theorem Inv.call {c : Client} (h : Inv c) {thread : ℕ} {message : List UInt8}
    (henabled : Enabled c (.call thread message)) : Inv (step c (.call thread message)) := by
  obtain ⟨other, hsingle⟩ := h.single
  obtain ⟨whole, hstream, hperm⟩ := h.whole
  cases hempty : message.isEmpty with
  | true =>
    have hstep : step c (.call thread message) = { c with messages := c.messages ++ [message] } := by
      rw [step, hempty, if_pos rfl, List.append_nil]
    rw [hstep]
    constructor
    case threads => exact h.threads
    case single => exact ⟨other, hsingle⟩
    case whole =>
      refine ⟨whole ++ [message], ?_, ?_⟩
      · rw [List.isEmpty_iff.mp hempty]
        simpa using hstream
      · refine List.Perm.trans ?_ (hperm.append_right [message])
        rw [List.append_assoc, List.append_assoc]
        exact List.perm_append_comm.append_left whole
  | false =>
    have hstep : step c (.call thread message) =
        { c with sending := c.sending ++ [⟨thread, message, 0⟩]
                 messages := c.messages ++ [message] } := by
      rw [step, hempty, if_neg Bool.false_ne_true]
    rw [hstep]
    constructor
    case threads => exact h.threads.concat henabled
    case single =>
      refine ⟨other, fun p hp hother => ?_⟩
      cases List.mem_append.mp hp with
      | inl hp => exact hsingle p hp hother
      | inr hp => rw [List.mem_singleton.mp hp]
    case whole =>
      refine ⟨whole, ?_, ?_⟩
      · have hpart : Pending.part ⟨thread, message, 0⟩ = [] := List.take_zero
        rw [List.flatMap_append, List.flatMap_singleton, hpart, List.append_nil]
        exact hstream
      · rw [List.map_append, ← List.append_assoc]
        exact hperm.append_right [message]

theorem flatMap_others {l : List Pending} {thread n : ℕ} (h : ∀ q ∈ l, q.thread ≠ thread) :
    (l.flatMap fun q => if q.thread = thread then q.advance n else [q]) = l := by
  induction l with
  | nil => rfl
  | cons q l ih =>
    rw [List.flatMap_cons, if_neg (h q List.mem_cons_self),
      ih fun q' hq' => h q' (List.mem_cons_of_mem _ hq')]
    rfl

/-- What a system call does to the entry of its thread. -/
theorem step_write {c : Client} {p : Pending} {before after : List Pending}
    (hsplit : c.sending = before ++ p :: after) (hbefore : ∀ q ∈ before, q.thread ≠ p.thread)
    (hafter : ∀ q ∈ after, q.thread ≠ p.thread) (n : ℕ) :
    step c (.write p.thread n) =
      { c with stream := c.stream ++ (p.message.drop p.sentBytes).take n
               sending := before ++ (p.advance n ++ after) } := by
  have hfilter : c.sending.filter (fun q => q.thread = p.thread) = [p] := by
    rw [hsplit, List.filter_append, List.filter_cons_of_pos (by simp),
      List.filter_eq_nil_iff.mpr (by simpa using hbefore),
      List.filter_eq_nil_iff.mpr (by simpa using hafter)]
    rfl
  have hothers : (c.sending.flatMap fun q => if q.thread = p.thread then q.advance n else [q]) =
      before ++ (p.advance n ++ after) := by
    rw [hsplit, List.flatMap_append, List.flatMap_cons, flatMap_others hbefore,
      flatMap_others hafter, if_pos rfl]
  rw [step, hfilter, hothers, List.flatMap_singleton]

theorem Inv.write {c : Client} (h : Inv c) {thread n : ℕ} (henabled : Enabled c (.write thread n))
    (hundisturbed : Undisturbed c (.write thread n)) : Inv (step c (.write thread n)) := by
  obtain ⟨p, hp, rfl, hn, hfit⟩ := henabled
  obtain ⟨before, after, hsplit, hbefore, hafter⟩ := h.threads.split hp
  obtain ⟨whole, hstream, hperm⟩ := h.whole
  have hothers : ∀ q ∈ before ++ after, q.thread ≠ p.thread ∧ q.sentBytes = 0 := by
    intro q hq
    have hmem : q ∈ c.sending := by
      rw [hsplit]
      cases List.mem_append.mp hq with
      | inl hq => exact List.mem_append_left _ hq
      | inr hq => exact List.mem_append_right _ (List.mem_cons_of_mem _ hq)
    have hthread : q.thread ≠ p.thread := (List.mem_append.mp hq).elim (hbefore q) (hafter q)
    exact ⟨hthread, hundisturbed q hmem hthread⟩
  have hzero : before.flatMap Pending.part = [] ∧ after.flatMap Pending.part = [] :=
    ⟨flatMap_part_eq_nil fun q hq => (hothers q (List.mem_append_left _ hq)).2,
      flatMap_part_eq_nil fun q hq => (hothers q (List.mem_append_right _ hq)).2⟩
  have hpart : p.part ++ (p.message.drop p.sentBytes).take n = p.message.take (p.sentBytes + n) :=
    List.take_add.symm
  have hthreads : (c.sending.map Pending.thread).Pairwise (· ≠ ·) := List.pairwise_map.mpr h.threads
  rw [hsplit, List.map_append, List.map_cons] at hthreads hperm
  rw [hsplit, List.flatMap_append, List.flatMap_cons, hzero.1, hzero.2, List.append_nil,
    List.nil_append] at hstream
  rw [step_write hsplit hbefore hafter]
  by_cases hmore : p.sentBytes + n < p.message.length
  · have hadvance : p.advance n = [{ p with sentBytes := p.sentBytes + n }] := if_pos hmore
    rw [hadvance]
    constructor
    case threads =>
      apply List.pairwise_map.mp
      rw [List.map_append, List.map_append]
      exact hthreads
    case single =>
      refine ⟨p.thread, fun q hq hthread => ?_⟩
      cases List.mem_append.mp hq with
      | inl hq => exact (hothers q (List.mem_append_left _ hq)).2
      | inr hq =>
        cases hq with
        | head => exact absurd rfl hthread
        | tail _ hq => exact (hothers q (List.mem_append_right _ hq)).2
    case whole =>
      refine ⟨whole, ?_, ?_⟩
      · rw [List.flatMap_append, List.flatMap_append, List.flatMap_singleton, hzero.1, hzero.2,
          List.append_nil, List.nil_append, hstream, List.append_assoc, hpart]
        rfl
      · rw [List.map_append, List.map_append]
        exact hperm
  · have hadvance : p.advance n = [] := if_neg hmore
    have hall : p.message.take (p.sentBytes + n) = p.message := List.take_of_length_le (by omega)
    rw [hadvance, List.nil_append]
    constructor
    case threads =>
      apply List.pairwise_map.mp
      rw [List.map_append]
      exact hthreads.sublist ((List.sublist_cons_self _ _).append_left _)
    case single => exact ⟨p.thread, fun q hq _ => (hothers q hq).2⟩
    case whole =>
      refine ⟨whole ++ [p.message], ?_, ?_⟩
      · rw [List.flatMap_append, hzero.1, hzero.2, List.append_nil, List.append_nil, hstream,
          List.append_assoc, hpart, hall, List.flatten_append, List.flatten_singleton]
      · refine List.Perm.trans ?_ hperm
        rw [List.map_append, List.append_assoc]
        change (whole ++ p.message :: (before.map Pending.message ++
          after.map Pending.message)).Perm _
        exact List.perm_middle.symm.append_left whole

theorem Inv.step {c : Client} (h : Inv c) (e : Event) (henabled : Enabled c e)
    (hundisturbed : Undisturbed c e) : Inv (step c e) := by
  cases e with
  | call thread message => exact h.call henabled
  | write thread n => exact h.write henabled hundisturbed
  | fail thread => exact hundisturbed.elim

/-- Where no system call comes between those of another thread's message, the stream is
whole messages, each once. -/
theorem write_atomic {events : List Event} (henabled : Runs.Guarded step Enabled {} events)
    (hundisturbed : Runs.Guarded step Undisturbed {} events) :
    Atomic (events.foldl step {}) ∧
      ((events.foldl step {}).sending = [] →
        ∃ whole : List (List UInt8), whole.Perm (events.foldl step {}).messages ∧
          (events.foldl step {}).stream = whole.flatten) := by
  have hguard : Runs.Guarded step (fun c e => Enabled c e ∧ Undisturbed c e) {} events :=
    Runs.guarded_and.mpr ⟨henabled, hundisturbed⟩
  have hinv : Inv (events.foldl step {}) :=
    hguard.invariant (fun c e h hg => h.step e hg.1 hg.2) inv_init
  refine ⟨hinv.atomic, fun hdone => ?_⟩
  obtain ⟨whole, hstream, hperm⟩ := hinv.whole
  rw [hdone, List.flatMap_nil, List.append_nil] at hstream
  rw [hdone, List.map_nil, List.append_nil] at hperm
  exact ⟨whole, hperm, hstream⟩

/-- Two threads; the first needs two system calls. -/
def inTurn : List Event :=
  [.call 0 [1, 2], .call 1 [3, 4], .write 0 1, .write 0 1, .write 1 2]

theorem write_atomic_inTurn :
    Atomic (inTurn.foldl step {}) ∧
      ((inTurn.foldl step {}).sending = [] →
        ∃ whole : List (List UInt8), whole.Perm (inTurn.foldl step {}).messages ∧
          (inTurn.foldl step {}).stream = whole.flatten) :=
  write_atomic (by decide) (by decide)

/-- The second thread writes behind a partial write of the first one. -/
def inBetween : List Event :=
  [.call 0 [1, 2], .call 1 [3, 4], .write 0 1, .write 1 2, .write 0 1]

theorem messages_interleaved :
    Runs.Guarded step Enabled {} inBetween ∧
      inBetween.foldl step {} = ⟨[1, 3, 4, 2], [], [[1, 2], [3, 4]]⟩ ∧
      ¬ Atomic (inBetween.foldl step {}) := by
  have hend : inBetween.foldl step {} = ⟨[1, 3, 4, 2], [], [[1, 2], [3, 4]]⟩ := by decide
  refine ⟨by decide, hend, ?_⟩
  rw [hend]
  rintro ⟨whole, part, hstream, hperm, hpart⟩
  have hnil : part = [] := hpart.resolve_right fun ⟨p, hp, _⟩ => absurd hp List.not_mem_nil
  change (whole ++ []).Perm [[1, 2], [3, 4]] at hperm
  rw [List.append_nil] at hperm
  rw [hnil, List.append_nil] at hstream
  have hlength : whole.length = 2 := hperm.length_eq
  obtain ⟨a, b, rfl⟩ := List.length_eq_two.mp hlength
  have ha : a ∈ [[1, 2], [3, 4]] := hperm.subset List.mem_cons_self
  have hb : b ∈ [[1, 2], [3, 4]] := hperm.subset (List.mem_cons_of_mem _ List.mem_cons_self)
  simp at ha hb hstream
  rcases ha with rfl | rfl <;> rcases hb with rfl | rfl <;> simp at hstream

end Msopcom.DomainSocket
