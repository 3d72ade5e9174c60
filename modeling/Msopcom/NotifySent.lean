import Mathlib.Data.List.Basic
import Mathlib.Order.Basic
import Msopcom.Words

set_option autoImplicit false

/-!
# What a notification reports as sent

The count of the bytes goes from the loop over the system calls through the client's `Write`,
which answers a failure with -1, to the loop of `LocalProcess::Notify`.
-/
namespace Msopcom.NotifySent

/-! ## The socket -/

/-- The most that one `write` transfers. -/
def maxRwCount : ℕ := 0x7ffff000

/-- What the kernel makes of a `write`. -/
inductive Outcome
  | failed
  /-- It takes `n + 1` bytes, or all it can of them. -/
  | takes (n : ℕ)
  deriving DecidableEq, Repr

def Outcome.bytes (size : ℕ) : Outcome → ℕ
  | .failed => 0
  | .takes n => min (min (n + 1) maxRwCount) size

/-- The result of the call. -/
def Outcome.result (size : ℕ) : Outcome → ℤ
  | .failed => -1
  | .takes n => (Outcome.takes n).bytes size

structure Socket where
  stream : List UInt8 := []
  calls : ℕ := 0
  deriving DecidableEq, Repr

def Socket.write (s : Socket) (outcome : Outcome) (buffer : List UInt8) : Socket where
  stream := s.stream ++ buffer.take (outcome.bytes buffer.length)
  calls := s.calls + 1

/-- `static_cast<int32_t>`. -/
def toInt32 (n : ℤ) : ℤ := n.bmod (2 ^ 32)

/-- `static_cast<size_t>`. -/
def toSize (n : ℤ) : ℕ := (n % 2 ^ 64).toNat

theorem bytes_le (size : ℕ) (outcome : Outcome) : outcome.bytes size ≤ size := by
  cases outcome with
  | failed => exact Nat.zero_le size
  | takes n => exact min_le_right _ _

theorem bytes_le_max (size : ℕ) (outcome : Outcome) : outcome.bytes size ≤ 0x7ffff000 := by
  cases outcome with
  | failed => exact Nat.zero_le _
  | takes n => exact (min_le_left _ _).trans (min_le_right _ _)

theorem bytes_pos {size : ℕ} (h : 0 < size) {outcome : Outcome} (hne : outcome ≠ .failed) :
    0 < outcome.bytes size := by
  cases outcome with
  | failed => exact absurd rfl hne
  | takes n => exact lt_min (lt_min (Nat.succ_pos n) (by decide)) h

theorem result_eq {size : ℕ} {outcome : Outcome} (h : outcome ≠ .failed) :
    outcome.result size = outcome.bytes size := by
  cases outcome with
  | failed => exact absurd rfl h
  | takes n => rfl

/-- No result is cut off. -/
theorem toInt32_result (size : ℕ) (outcome : Outcome) :
    toInt32 (outcome.result size) = outcome.result size := by
  by_cases h : outcome = .failed
  · rw [h]
    rfl
  · have hle := bytes_le_max size outcome
    rw [result_eq h]
    exact Int.bmod_eq_of_le (by omega) (by omega)

theorem toInt32_result_eq_neg_one (size : ℕ) (outcome : Outcome) :
    toInt32 (outcome.result size) = -1 ↔ outcome = .failed := by
  rw [toInt32_result]
  constructor
  · intro h
    by_contra hne
    rw [result_eq hne] at h
    omega
  · intro h
    rw [h]
    rfl

theorem toSize_result {size : ℕ} {outcome : Outcome} (h : outcome ≠ .failed) :
    toSize (toInt32 (outcome.result size)) = outcome.bytes size := by
  have hle := bytes_le_max size outcome
  rw [toInt32_result, result_eq h, toSize]
  omega

/-! ## The three layers -/

/-- `DomainSocketClient::Write` on a connected socket: the answer and `sentBytes`. -/
def writeLoop (pattern : ℕ → Outcome) (buffer : List UInt8) (sentBytes : ℕ) (s : Socket) :
    (Bool × ℕ) × Socket :=
  if buffer.length = 0 then ((true, sentBytes), s)
  else
    let outcome := pattern s.calls
    let ret := toInt32 (outcome.result buffer.length)
    let s := s.write outcome buffer
    if ret = -1 then ((false, sentBytes), s)
    else
      let writeBytes := toSize ret
      writeLoop pattern (buffer.drop writeBytes) (sentBytes + writeBytes) s
termination_by buffer.length
decreasing_by
  rename_i hsize hret
  rw [toInt32_result_eq_neg_one] at hret
  have hpos := bytes_pos (Nat.pos_of_ne_zero hsize) hret
  rw [List.length_drop, toSize_result hret]
  omega

/-- The members of a client: whether it has a socket, and a connected one. -/
structure Client where
  hasSocket : Bool := true
  connected : Bool := true
  deriving DecidableEq, Repr

def domainSocketWrite (client : Client) (pattern : ℕ → Outcome) (message : List UInt8)
    (s : Socket) : (Bool × ℕ) × Socket :=
  if client.connected then writeLoop pattern message 0 s else ((false, 0), s)

def socketClientWrite (client : Client) (pattern : ℕ → Outcome) (msg : List UInt8) (s : Socket) :
    ℤ × Socket :=
  if client.hasSocket then
    let written := domainSocketWrite client pattern msg s
    (if written.1.1 then written.1.2 else -1, written.2)
  else (-1, s)

/-- The loop of `LocalProcess::Notify` for a client that is there. -/
def notifyLoop (client : Client) (pattern : ℕ → Outcome) (msg : List UInt8) (totalSent : ℕ)
    (s : Socket) : ℤ × Socket :=
  if totalSent < msg.length then
    let sent := socketClientWrite client pattern (msg.drop totalSent) s
    if sent.1 ≤ 0 then (totalSent, sent.2)
    else notifyLoop client pattern msg (totalSent + sent.1.toNat) sent.2
  else (totalSent, s)
termination_by msg.length - totalSent
decreasing_by
  rename_i hmore hsent
  dsimp only [sent] at hsent
  omega

def notify (client : Option Client) (pattern : ℕ → Outcome) (msg : List UInt8) : ℤ × Socket :=
  match client with
  | none => (0, {})
  | some client => notifyLoop client pattern msg 0 {}

/-! ## The bytes of a run of system calls -/

/-- The bytes that are on the socket after `k` calls of which none has failed. -/
def taken (pattern : ℕ → Outcome) (size : ℕ) : ℕ → ℕ
  | 0 => 0
  | k + 1 => taken pattern size k + (pattern k).bytes (size - taken pattern size k)

/-- The value that `Notify` returns is the number of bytes that it has put on the socket. -/
def ReportsSent (client : Option Client) (pattern : ℕ → Outcome) (msg : List UInt8) : Prop :=
  (notify client pattern msg).1 = (notify client pattern msg).2.stream.length

/-- The first call that fails, if it comes before the end of the message, comes before its
first byte. -/
def FailsAtOnceOnly (pattern : ℕ → Outcome) (size : ℕ) : Prop :=
  ∀ k, (∀ j < k, pattern j ≠ .failed) → pattern k = .failed → k = 0 ∨ size ≤ taken pattern size k

variable {pattern : ℕ → Outcome} {msg : List UInt8}

theorem taken_le (pattern : ℕ → Outcome) (size k : ℕ) : taken pattern size k ≤ size := by
  induction k with
  | zero => exact Nat.zero_le size
  | succ k ih =>
    have hle := bytes_le (size - taken pattern size k) (pattern k)
    rw [taken]
    omega

theorem taken_mono (pattern : ℕ → Outcome) (size : ℕ) : Monotone (taken pattern size) :=
  monotone_nat_of_le_succ fun _ => Nat.le_add_right _ _

/-- Each call takes a byte until all are taken. -/
theorem le_taken {size k : ℕ} (h : ∀ j < k, pattern j ≠ .failed) (hk : k ≤ size) :
    k ≤ taken pattern size k := by
  induction k with
  | zero => exact Nat.zero_le _
  | succ k ih =>
    have hbefore : k ≤ taken pattern size k := ih (fun j hj => h j (by omega)) (by omega)
    rw [taken]
    by_cases hall : size ≤ taken pattern size k
    · omega
    · have hpos := @bytes_pos (size - taken pattern size k) (by omega) _ (h k (Nat.lt_succ_self k))
      omega

/-- The socket after `k` calls. -/
def socketAfter (pattern : ℕ → Outcome) (msg : List UInt8) (k : ℕ) : Socket where
  stream := msg.take (taken pattern msg.length k)
  calls := k

theorem write_socketAfter (pattern : ℕ → Outcome) (msg : List UInt8) (k : ℕ) :
    (socketAfter pattern msg k).write (pattern k) (msg.drop (taken pattern msg.length k)) =
      socketAfter pattern msg (k + 1) := by
  unfold socketAfter Socket.write
  rw [List.length_drop, taken, List.take_add]

/-- The loop is where its calls have brought it. -/
theorem writeLoop_after {k : ℕ} (h : ∀ j < k, pattern j ≠ .failed)
    (hleft : ∀ j < k, taken pattern msg.length j < msg.length) :
    writeLoop pattern msg 0 {} = writeLoop pattern (msg.drop (taken pattern msg.length k))
      (taken pattern msg.length k) (socketAfter pattern msg k) := by
  induction k with
  | zero => rfl
  | succ k ih =>
    have hk := hleft k (Nat.lt_succ_self k)
    have hne := h k (Nat.lt_succ_self k)
    rw [ih (fun j hj => h j (by omega)) fun j hj => hleft j (by omega), writeLoop]
    have hsize : (msg.drop (taken pattern msg.length k)).length ≠ 0 := by
      rw [List.length_drop]
      omega
    have hret :
        ¬ toInt32 ((pattern k).result (msg.drop (taken pattern msg.length k)).length) = -1 :=
      fun heq => hne ((toInt32_result_eq_neg_one _ _).mp heq)
    rw [if_neg hsize]
    dsimp only
    rw [show (socketAfter pattern msg k).calls = k from rfl, if_neg hret, write_socketAfter,
      toSize_result hne, List.length_drop, List.drop_drop]
    rfl

/-- All bytes are on the socket after `k` calls. -/
theorem writeLoop_done {k : ℕ} (h : ∀ j < k, pattern j ≠ .failed)
    (hleft : ∀ j < k, taken pattern msg.length j < msg.length)
    (hall : msg.length ≤ taken pattern msg.length k) :
    writeLoop pattern msg 0 {} = ((true, msg.length), socketAfter pattern msg k) := by
  have heq : taken pattern msg.length k = msg.length := (taken_le _ _ k).antisymm hall
  rw [writeLoop_after h hleft, writeLoop, heq, List.drop_length]
  rfl

/-- Call `k` fails before all bytes are taken. -/
theorem writeLoop_failed {k : ℕ} (h : ∀ j < k, pattern j ≠ .failed)
    (hleft : taken pattern msg.length k < msg.length) (hfail : pattern k = .failed) :
    writeLoop pattern msg 0 {} =
      ((false, taken pattern msg.length k), socketAfter pattern msg (k + 1)) := by
  have hbefore : ∀ j < k, taken pattern msg.length j < msg.length := fun j hj =>
    (taken_mono _ _ hj.le).trans_lt hleft
  rw [writeLoop_after h hbefore, writeLoop]
  have hsize : (msg.drop (taken pattern msg.length k)).length ≠ 0 := by
    rw [List.length_drop]
    omega
  have hret : toInt32 ((pattern k).result (msg.drop (taken pattern msg.length k)).length) = -1 :=
    (toInt32_result_eq_neg_one _ _).mpr hfail
  rw [if_neg hsize]
  dsimp only
  rw [show (socketAfter pattern msg k).calls = k from rfl, if_pos hret, write_socketAfter]

/-! ## The end of the run -/

/-- The calls of a message end: one fails, or all bytes are taken. -/
theorem exists_last (pattern : ℕ → Outcome) (size : ℕ) :
    ∃ k, (∀ j < k, pattern j ≠ .failed) ∧ (∀ j < k, taken pattern size j < size) ∧
      (pattern k = .failed ∨ size ≤ taken pattern size k) := by
  have hex : ∃ k, pattern k = .failed ∨ size ≤ taken pattern size k := by
    by_cases hfail : ∃ j < size, pattern j = .failed
    · obtain ⟨j, -, hj⟩ := hfail
      exact ⟨j, Or.inl hj⟩
    · exact ⟨size, Or.inr (le_taken (fun j hj hj' => hfail ⟨j, hj, hj'⟩) le_rfl)⟩
  classical
  refine ⟨Nat.find hex, fun j hj => ?_, fun j hj => ?_, Nat.find_spec hex⟩
  · exact (not_or.mp (Nat.find_min hex hj)).1
  · exact not_le.mp (not_or.mp (Nat.find_min hex hj)).2

theorem length_socketAfter (pattern : ℕ → Outcome) (msg : List UInt8) (k : ℕ) :
    (socketAfter pattern msg k).stream.length = taken pattern msg.length k := by
  rw [socketAfter, List.length_take]
  exact min_eq_left (taken_le _ _ k)

variable {client : Client}

theorem notifyLoop_empty (client : Client) (pattern : ℕ → Outcome) {totalSent : ℕ} (s : Socket)
    (h : msg.length ≤ totalSent) :
    notifyLoop client pattern msg totalSent s = ((totalSent : ℤ), s) := by
  rw [notifyLoop, if_neg (not_lt.mpr h)]

/-- Without a connection nothing is sent, and nothing reported. -/
theorem notify_unconnected (h : ¬ (client.hasSocket = true ∧ client.connected = true)) :
    notify (some client) pattern msg = (0, {}) := by
  have hwrite : socketClientWrite client pattern (msg.drop 0) {} = (-1, {}) := by
    unfold socketClientWrite domainSocketWrite
    by_cases hsocket : client.hasSocket = true
    · rw [if_pos hsocket, if_neg fun hconnected => h ⟨hsocket, hconnected⟩]
      rfl
    · rw [if_neg hsocket]
  rw [notify, notifyLoop]
  dsimp only
  rw [hwrite]
  split_ifs with hmore hsent
  · rfl
  · exact absurd (show (-1 : ℤ) ≤ 0 by decide) hsent
  · rfl

theorem socketClientWrite_eq (h : client.hasSocket = true ∧ client.connected = true) (s : Socket) :
    socketClientWrite client pattern msg s =
      (if (writeLoop pattern msg 0 s).1.1 then ((writeLoop pattern msg 0 s).1.2 : ℤ) else -1,
        (writeLoop pattern msg 0 s).2) := by
  unfold socketClientWrite domainSocketWrite
  rw [if_pos h.1, if_pos h.2]

/-- A whole message is sent by one `Write`. -/
theorem notify_done (hclient : client.hasSocket = true ∧ client.connected = true) {k : ℕ}
    (h : ∀ j < k, pattern j ≠ .failed) (hleft : ∀ j < k, taken pattern msg.length j < msg.length)
    (hall : msg.length ≤ taken pattern msg.length k) (hmsg : 0 < msg.length) :
    notify (some client) pattern msg = ((msg.length : ℤ), socketAfter pattern msg k) := by
  have hwrite : socketClientWrite client pattern (msg.drop 0) {} =
      ((msg.length : ℤ), socketAfter pattern msg k) := by
    rw [List.drop_zero, socketClientWrite_eq hclient, writeLoop_done h hleft hall]
    rfl
  rw [notify, notifyLoop]
  dsimp only
  rw [hwrite, if_pos hmsg, if_neg (by dsimp only; omega), notifyLoop_empty]
  · dsimp only
    rw [Int.toNat_natCast, Nat.zero_add]
  · dsimp only
    omega

/-- The bytes of a `Write` that fails are not reported. -/
theorem notify_failed (hclient : client.hasSocket = true ∧ client.connected = true) {k : ℕ}
    (h : ∀ j < k, pattern j ≠ .failed) (hleft : taken pattern msg.length k < msg.length)
    (hfail : pattern k = .failed) :
    notify (some client) pattern msg = (0, socketAfter pattern msg (k + 1)) := by
  have hwrite : socketClientWrite client pattern (msg.drop 0) {} =
      (-1, socketAfter pattern msg (k + 1)) := by
    rw [List.drop_zero, socketClientWrite_eq hclient, writeLoop_failed h hleft hfail]
    rfl
  rw [notify, notifyLoop]
  dsimp only
  rw [hwrite, if_pos (by omega), if_pos (show (-1 : ℤ) ≤ 0 by decide)]
  rfl

theorem reportsSent_connected_iff (hclient : client.hasSocket = true ∧ client.connected = true) :
    ReportsSent (some client) pattern msg ↔ FailsAtOnceOnly pattern msg.length := by
  obtain ⟨k, h, hleft, hlast⟩ := exists_last pattern msg.length
  by_cases hall : msg.length ≤ taken pattern msg.length k
  · have hfails : FailsAtOnceOnly pattern msg.length := by
      intro k' _ hfail
      have hk : k ≤ k' := by
        by_contra hlt
        exact h k' (by omega) hfail
      exact Or.inr (hall.trans (taken_mono _ _ hk))
    refine iff_of_true ?_ hfails
    by_cases hmsg : 0 < msg.length
    · rw [ReportsSent, notify_done hclient h hleft hall hmsg, length_socketAfter,
        (taken_le _ _ k).antisymm hall]
    · rw [ReportsSent, notify, notifyLoop_empty client pattern {} (not_lt.mp hmsg)]
      rfl
  · -- call `k` is the first one that fails, and the message is not complete
    have hfail : pattern k = .failed := hlast.resolve_right hall
    have hsent : taken pattern msg.length (k + 1) = taken pattern msg.length k := by
      rw [taken, hfail]
      rfl
    rw [ReportsSent, notify_failed hclient h (not_le.mp hall) hfail, length_socketAfter, hsent]
    constructor
    · intro hzero k' hbefore hfail'
      have hk : k' = k := by
        rcases Nat.lt_trichotomy k' k with hlt | heq | hgt
        · exact absurd hfail' (h k' hlt)
        · exact heq
        · exact absurd hfail (hbefore k hgt)
      refine Or.inl ?_
      have hle := @le_taken pattern msg.length (min k 1) (fun j hj => h j (by omega)) (by omega)
      have hmono := taken_mono pattern msg.length (min_le_left k 1)
      dsimp only at hzero
      omega
    · intro hfails
      have hk : k = 0 := (hfails k h hfail).resolve_right hall
      rw [hk]
      rfl

/-- `Notify` returns the number of bytes that it has put on the socket unless a call fails when
a part of the message is there. -/
theorem reportsSent_iff (client : Option Client) (pattern : ℕ → Outcome) (msg : List UInt8) :
    ReportsSent client pattern msg ↔
      ∀ c ∈ client, c.hasSocket = true → c.connected = true →
        FailsAtOnceOnly pattern msg.length := by
  cases client with
  | none => exact iff_of_true rfl fun c hc => by cases hc
  | some client =>
    by_cases hclient : client.hasSocket = true ∧ client.connected = true
    · have hcondition : (∀ c ∈ some client, c.hasSocket = true → c.connected = true →
          FailsAtOnceOnly pattern msg.length) ↔ FailsAtOnceOnly pattern msg.length :=
        ⟨fun h => h client rfl hclient.1 hclient.2, fun h _ _ _ _ => h⟩
      rw [hcondition]
      exact reportsSent_connected_iff hclient
    · refine iff_of_true ?_ fun c hc hsocket hconnected => ?_
      · rw [ReportsSent, notify_unconnected hclient]
        rfl
      · cases hc
        exact absurd ⟨hsocket, hconnected⟩ hclient

/-- One byte is taken, and the next call fails. -/
def brokenOff (k : ℕ) : Outcome := if k = 0 then .takes 0 else .failed

/-- One of two bytes is on the socket, and none is reported. -/
theorem notify_loses_part :
    ¬ ∀ (client : Option Client) (pattern : ℕ → Outcome) (msg : List UInt8),
      ReportsSent client pattern msg := by
  intro h
  have hsent := h (some {}) brokenOff [7, 8]
  have hfirst : ∀ j < 1, brokenOff j ≠ .failed := by decide
  have hnotify := @notify_failed brokenOff [7, 8] {} ⟨rfl, rfl⟩ 1 hfirst (by decide) rfl
  rw [ReportsSent, hnotify] at hsent
  exact absurd hsent (by decide)

end Msopcom.NotifySent
