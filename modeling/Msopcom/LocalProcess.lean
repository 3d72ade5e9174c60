import Msopcom.InteractHelper

set_option autoImplicit false

/-!
# Waiting for a message

`LocalProcess::Wait` puts together what one read after the other leaves in its receive string.
What its calls return is, in order, what the server has sent.
-/
namespace Msopcom.LocalProcess
open FuelLoop InteractHelper

/-! ## Reading -/

/-- What a read leaves in `message` and `receivedBytes`, and what it returns. -/
structure SocketRead where
  ok : Bool
  message : List UInt8
  receivedBytes : ℕ
  deriving DecidableEq, Repr

/-- `ret` is what the system call has put into the buffer; without it the call has failed. -/
def domainSocketRead (ret : Option (List UInt8)) (message : List UInt8) (receivedBytes : ℕ) :
    SocketRead :=
  match ret with
  | none => ⟨false, message, receivedBytes⟩
  | some buffer => ⟨true, if buffer.length > 0 then buffer else message, buffer.length⟩

def socketClientRead (ret : Option (List UInt8)) (msg : List UInt8) : ℤ × List UInt8 :=
  let read := domainSocketRead ret msg 0
  if !read.ok then (-1, read.message) else (read.receivedBytes, read.message)

/-- The variables of `Wait`. -/
structure Locals where
  recvMsg : List UInt8 := []
  msg : List UInt8 := []
  len : ℤ := 0
  count : UInt32 := 0
  deriving DecidableEq, Repr

/-- The body of the loop. -/
def body (timeOut : UInt32) (ret : Option (List UInt8)) (w : Locals) :
    LoopStep Locals (List UInt8) :=
  let read := socketClientRead ret w.recvMsg
  let w := { w with len := read.1, recvMsg := read.2 }
  if w.len > 0 then .next { w with msg := w.msg ++ w.recvMsg }
  else if timeOut > 0 then
    if w.count ≥ timeOut then .done w.msg else .next { w with count := w.count + 1 }
  else .next w

/-- The condition of the loop. -/
def Locals.again (w : Locals) : LoopStep Locals (List UInt8) :=
  if w.msg.isEmpty || w.len = recvBuffSize then .next w else .done w.msg

def round (timeOut : UInt32) (ret : Option (List UInt8)) (w : Locals) :
    LoopStep Locals (List UInt8) :=
  match body timeOut ret w with
  | .done msg => .done msg
  | .next w => w.again

/-! ## Runs -/

/-- The process: whether it has a client, what the server has sent and no read has taken, the
`Wait` that is going on with its time limit, and what the calls have returned. -/
structure Process where
  hasClient : Bool
  unread : List UInt8
  call : Option (UInt32 × Locals) := none
  results : List (List UInt8) := []
  deriving DecidableEq, Repr

/-- How a read ends: with the next bytes, with none, or in its time limit. -/
inductive ReadEnd
  | chunk (n : ℕ)
  | empty
  | timedOut
  deriving DecidableEq, Repr

inductive Event
  | wait (timeOut : UInt32)
  | read (ending : ReadEnd)
  deriving DecidableEq, Repr

def ReadEnd.taken : ReadEnd → ℕ
  | .chunk n => n
  | _ => 0

def ReadEnd.ret (unread : List UInt8) : ReadEnd → Option (List UInt8)
  | .chunk n => some (unread.take n)
  | .empty => some []
  | .timedOut => none

def step (p : Process) : Event → Process
  | .wait timeOut =>
    if p.hasClient then { p with call := some (timeOut, {}) }
    else { p with results := p.results ++ [[]] }
  | .read ending =>
    match p.call with
    | none => p
    | some (timeOut, w) =>
      let unread := p.unread.drop ending.taken
      match round timeOut (ending.ret p.unread) w with
      | .next w => { p with unread, call := some (timeOut, w) }
      | .done msg => { p with unread, call := none, results := p.results ++ [msg] }

/-- One call is made after the other, with a time limit, and a chunk is of bytes that have been
sent. -/
def Enabled (p : Process) : Event → Prop
  | .wait timeOut => 0 < timeOut ∧ p.call = none
  | .read (.chunk n) => p.call.isSome ∧ 1 ≤ n ∧ n ≤ recvBuffSize ∧ n ≤ p.unread.length
  | .read _ => p.call.isSome

instance (p : Process) : (e : Event) → Decidable (Enabled p e)
  | .wait timeOut => inferInstanceAs (Decidable (0 < timeOut ∧ p.call = none))
  | .read (.chunk n) => inferInstanceAs
    (Decidable (p.call.isSome ∧ 1 ≤ n ∧ n ≤ recvBuffSize ∧ n ≤ p.unread.length))
  | .read .empty => inferInstanceAs (Decidable (p.call.isSome = true))
  | .read .timedOut => inferInstanceAs (Decidable (p.call.isSome = true))

def start (hasClient : Bool) (stream : List UInt8) : Process where
  hasClient := hasClient
  unread := stream

/-! ## One round -/

def Locals.view (w : Locals) : WaitState := ⟨w.msg, w.len, w.count⟩

def view : LoopStep Locals (List UInt8) → LoopStep WaitState (List UInt8)
  | .next w => .next w.view
  | .done msg => .done msg

theorem view_again (w : Locals) : view w.again = w.view.again := by
  unfold Locals.again WaitState.again
  by_cases h : (w.msg.isEmpty || w.len = recvBuffSize) = true
  · rw [if_pos h]
    exact (if_pos h).symm
  · rw [if_neg h]
    exact (if_neg h).symm

theorem round_bytes (timeOut : UInt32) {buffer : List UInt8} (h : buffer ≠ []) (w : Locals) :
    round timeOut (some buffer) w =
      Locals.again { w with
        recvMsg := buffer
        msg := w.msg ++ buffer
        len := buffer.length } := by
  have hpos : buffer.length > 0 := List.length_pos_of_ne_nil h
  have hread : socketClientRead (some buffer) w.recvMsg = ((buffer.length : ℤ), buffer) := by
    simp [socketClientRead, domainSocketRead, hpos]
  unfold round body
  rw [hread]
  dsimp only
  rw [if_pos (Int.natCast_pos.mpr hpos)]

/-- Without bytes the receive string stays what it was, but then nobody looks at it. -/
theorem round_silent (timeOut : UInt32) {ret : Option (List UInt8)} (h : ret.getD [] = [])
    (w : Locals) : ∃ len : ℤ, len ≤ 0 ∧ (ret = none → len = -1) ∧ round timeOut ret w =
      if timeOut > 0 then
        if w.count ≥ timeOut then .done w.msg
        else Locals.again { w with len := len, count := w.count + 1 }
      else Locals.again { w with len := len } := by
  have hread : ∃ len : ℤ, len ≤ 0 ∧ (ret = none → len = -1) ∧
      socketClientRead ret w.recvMsg = (len, w.recvMsg) := by
    cases ret with
    | none => exact ⟨-1, by decide, fun _ => rfl, rfl⟩
    | some buffer =>
      obtain rfl : buffer = [] := h
      exact ⟨0, Int.le_refl 0, fun hnone => absurd hnone (Option.some_ne_none _), rfl⟩
  obtain ⟨len, hlen, hnone, hread⟩ := hread
  refine ⟨len, hlen, hnone, ?_⟩
  unfold round body
  rw [hread]
  dsimp only
  rw [if_neg (by omega)]
  split_ifs <;> rfl

/-- The round that a request waits with is this one, as its socket never reads nothing. -/
theorem view_round (timeOut : UInt32) {ret : Option (List UInt8)} (h : ret ≠ some [])
    (w : Locals) : view (round timeOut ret w) = waitRound timeOut ret w.view := by
  cases ret with
  | none =>
    obtain ⟨len, -, hlen, hround⟩ := @round_silent timeOut none rfl w
    rw [hround, hlen rfl]
    change _ = if timeOut > 0 then if w.count ≥ timeOut then _ else _ else _
    split_ifs
    · rfl
    · exact view_again _
    · exact view_again _
  | some buffer =>
    rw [round_bytes timeOut fun hnil => h (congrArg some hnil)]
    exact view_again _

theorem again_cases (w : Locals) : w.again = .done w.msg ∨ w.again = .next w := by
  unfold Locals.again
  split_ifs
  · exact .inr rfl
  · exact .inl rfl

theorem again_msg {w : Locals} {msg : List UInt8} (h : w.msg = msg) :
    w.again = .done msg ∨ ∃ w', w.again = .next w' ∧ w'.msg = msg := by
  rw [← h]
  exact (again_cases w).imp id fun hnext => ⟨w, hnext, rfl⟩

/-- A round adds what it reads to the message, whether it is the last one or not. -/
theorem round_msg (timeOut : UInt32) (ret : Option (List UInt8)) (w : Locals) :
    round timeOut ret w = .done (w.msg ++ ret.getD []) ∨
      ∃ w', round timeOut ret w = .next w' ∧ w'.msg = w.msg ++ ret.getD [] := by
  by_cases hret : ret.getD [] = []
  · obtain ⟨len, -, -, hround⟩ := round_silent timeOut hret w
    rw [hround, hret, List.append_nil]
    split_ifs with hlimit hend
    · exact .inl rfl
    · exact again_msg rfl
    · exact again_msg rfl
  · cases ret with
    | none => exact absurd rfl hret
    | some buffer =>
      have hround : round timeOut (some buffer) w = _ := round_bytes timeOut hret w
      rw [hround]
      exact again_msg rfl

theorem again_of_msg_nil {w : Locals} (h : w.msg = []) : w.again = .next w := by
  rw [Locals.again, h]
  rfl

theorem again_of_full {w : Locals} (h : w.len = recvBuffSize) : w.again = .next w := by
  rw [Locals.again, if_pos (by simp [h])]

theorem again_of_short {w : Locals} (hmsg : w.msg ≠ []) (hlen : w.len ≠ recvBuffSize) :
    w.again = .done w.msg := by
  have hempty : w.msg.isEmpty = false := List.isEmpty_eq_false_iff.mpr hmsg
  rw [Locals.again, if_neg (by simp [hempty, hlen])]

/-- A read that brings nothing ends the wait, but for the first reads. -/
theorem round_nothing {timeOut : UInt32} (htimeOut : 0 < timeOut) {ret : Option (List UInt8)}
    (hret : ret.getD [] = []) (w : Locals) :
    (w.msg = [] ∧ w.count < timeOut ∧ ∃ w', round timeOut ret w = .next w' ∧ w'.msg = []) ∨
      (¬ (w.msg = [] ∧ w.count < timeOut) ∧ round timeOut ret w = .done w.msg) := by
  obtain ⟨len, hlen, -, hround⟩ := round_silent timeOut hret w
  rw [if_pos htimeOut] at hround
  by_cases hcount : w.count ≥ timeOut
  · rw [if_pos hcount] at hround
    exact .inr ⟨fun h => absurd h.2 (UInt32.not_lt.mpr hcount), hround⟩
  · rw [if_neg hcount] at hround
    by_cases hmsg : w.msg = []
    · exact .inl ⟨hmsg, UInt32.not_le.mp hcount, _, hround.trans (again_of_msg_nil hmsg), hmsg⟩
    · have hshort : len ≠ recvBuffSize := by
        have hbuff : recvBuffSize = 1024 := rfl
        omega
      exact .inr ⟨fun h => hmsg h.1, hround.trans (again_of_short hmsg hshort)⟩

/-- A read that brings bytes ends the wait if it does not fill the buffer. -/
theorem round_chunk (timeOut : UInt32) {bytes : List UInt8} (h : bytes ≠ []) (w : Locals) :
    (bytes.length = recvBuffSize ∧
      ∃ w', round timeOut (some bytes) w = .next w' ∧ w'.msg = w.msg ++ bytes) ∨
    (bytes.length ≠ recvBuffSize ∧ round timeOut (some bytes) w = .done (w.msg ++ bytes)) := by
  have hround := round_bytes timeOut h w
  by_cases hlen : bytes.length = recvBuffSize
  · exact .inl ⟨hlen, _, hround.trans (again_of_full (congrArg Nat.cast hlen)), rfl⟩
  · have hne : w.msg ++ bytes ≠ [] := fun hnil => h (List.append_eq_nil_iff.mp hnil).2
    have hcast : (bytes.length : ℤ) ≠ recvBuffSize := fun heq => hlen (Int.natCast_inj.mp heq)
    exact .inr ⟨hlen, hround.trans (again_of_short hne hcast)⟩

theorem ReadEnd.getD_ret (ending : ReadEnd) (unread : List UInt8) :
    (ending.ret unread).getD [] = unread.take ending.taken := by
  cases ending <;> rfl

/-- A round adds what it reads to the message, whether it is the last one or not. One that
reads nothing counts, as far as the time limit. -/
theorem round_cases {timeOut : UInt32} (htimeOut : 0 < timeOut) (ret : Option (List UInt8))
    {w : Locals} (hcount : w.count ≤ timeOut) :
    round timeOut ret w = .done (w.msg ++ ret.getD []) ∨
      ∃ w', round timeOut ret w = .next w' ∧ w'.msg = w.msg ++ ret.getD [] ∧
        w'.count ≤ timeOut ∧
        (ret.getD [] ≠ [] ∧ w'.count = w.count ∨ w'.count.toNat = w.count.toNat + 1) := by
  by_cases hret : ret.getD [] = []
  · obtain ⟨len, -, -, hround⟩ := round_silent timeOut hret w
    rw [hround, hret, List.append_nil, if_pos htimeOut]
    split_ifs with hend
    · exact .inl rfl
    · have hlt := UInt32.lt_iff_toNat_lt.mp (UInt32.not_le.mp hend)
      have hmax := timeOut.toNat_lt
      have hsucc : (w.count + 1).toNat = w.count.toNat + 1 := by
        rw [UInt32.toNat_add]
        exact Nat.mod_eq_of_lt (by change w.count.toNat + 1 < _; omega)
      have hle : w.count + 1 ≤ timeOut := by
        rw [UInt32.le_iff_toNat_le]
        omega
      exact (again_cases { w with len := len, count := w.count + 1 }).imp id fun h =>
        ⟨{ w with len := len, count := w.count + 1 }, h, rfl, hle, .inr hsucc⟩
  · cases ret with
    | none => exact absurd rfl hret
    | some buffer =>
      have hround : round timeOut (some buffer) w = _ := round_bytes timeOut hret w
      rw [hround]
      rcases again_cases { w with
        recvMsg := buffer
        msg := w.msg ++ buffer
        len := buffer.length } with h | h
      · exact .inl h
      · exact .inr ⟨_, h, rfl, hcount, .inl ⟨hret, rfl⟩⟩

/-! ## Whole runs -/

/-- What the call that is going on has gathered. -/
def gathered (p : Process) : List UInt8 := p.call.elim [] fun c => c.2.msg

structure Inv (stream : List UInt8) (p : Process) : Prop where
  kept : p.results.flatten ++ gathered p ++ p.unread = stream
  limit : ∀ timeOut w, p.call = some (timeOut, w) → 0 < timeOut ∧ w.count ≤ timeOut

theorem take_taken {p : Process} {ending : ReadEnd} (h : Enabled p (.read ending)) :
    (ending.ret p.unread).getD [] = p.unread.take ending.taken ∧
      ((ending.ret p.unread).getD [] ≠ [] → 1 ≤ ending.taken ∧ ending.taken ≤ p.unread.length) := by
  cases ending with
  | chunk n => exact ⟨rfl, fun _ => ⟨h.2.1, h.2.2.2⟩⟩
  | empty => exact ⟨rfl, fun hne => absurd rfl hne⟩
  | timedOut => exact ⟨rfl, fun hne => absurd rfl hne⟩

theorem inv_start (hasClient : Bool) (stream : List UInt8) :
    Inv stream (start hasClient stream) :=
  ⟨rfl, fun _ _ h => by cases h⟩

/-- A read of the call that is going on. -/
theorem step_read {stream : List UInt8} {p : Process} (h : Inv stream p) {ending : ReadEnd}
    (henabled : Enabled p (.read ending)) {timeOut : UInt32} {w : Locals}
    (hcall : p.call = some (timeOut, w)) :
    step p (.read ending) = { p with
        unread := p.unread.drop ending.taken
        call := none
        results := p.results ++ [w.msg ++ p.unread.take ending.taken] } ∨
      ∃ w', step p (.read ending) = { p with
          unread := p.unread.drop ending.taken
          call := some (timeOut, w') } ∧
        w'.msg = w.msg ++ p.unread.take ending.taken ∧ w'.count ≤ timeOut ∧
        (p.unread.drop ending.taken).length + (timeOut.toNat - w'.count.toNat) <
          p.unread.length + (timeOut.toNat - w.count.toNat) := by
  obtain ⟨htimeOut, hcount⟩ := h.limit timeOut w hcall
  obtain ⟨htake, hsize⟩ := take_taken henabled
  have hround := round_cases htimeOut (ending.ret p.unread) hcount
  rw [htake] at hround hsize
  unfold step
  rw [hcall]
  dsimp only
  rcases hround with hdone | ⟨w', hnext, hmsg, hcount', hprogress⟩
  · rw [hdone]
    exact .inl rfl
  · rw [hnext]
    refine .inr ⟨w', rfl, hmsg, hcount', ?_⟩
    rw [List.length_drop]
    rw [UInt32.le_iff_toNat_le] at hcount'
    rcases hprogress with ⟨hne, hsame⟩ | hsucc
    · have := hsize hne
      rw [hsame]
      omega
    · omega

theorem inv_step {stream : List UInt8} {p : Process} {e : Event} (h : Inv stream p)
    (henabled : Enabled p e) : Inv stream (step p e) := by
  cases e with
  | wait timeOut =>
    obtain ⟨htimeOut, hcall⟩ := henabled
    have hkept := h.kept
    rw [gathered, hcall] at hkept
    unfold step
    dsimp only
    split_ifs
    · refine ⟨hkept, fun timeOut' w hcall' => ?_⟩
      cases hcall'
      exact ⟨htimeOut, UInt32.zero_le⟩
    · refine ⟨?_, h.limit⟩
      rw [gathered, hcall, List.flatten_append]
      simpa using hkept
  | read ending =>
    cases hcall : p.call with
    | none =>
      have hsame : step p (.read ending) = p := by rw [step, hcall]
      rw [hsame]
      exact h
    | some call =>
      obtain ⟨timeOut, w⟩ := call
      have hkept := h.kept
      rw [gathered, hcall, ← List.take_append_drop ending.taken p.unread] at hkept
      rcases step_read h henabled hcall with hstep | ⟨w', hstep, hmsg, hcount, -⟩
      · rw [hstep]
        refine ⟨?_, fun _ _ hcall' => by cases hcall'⟩
        simpa [gathered] using hkept
      · rw [hstep]
        refine ⟨?_, fun timeOut' w'' hcall' => ?_⟩
        · simpa [gathered, hmsg] using hkept
        · cases hcall'
          exact ⟨(h.limit timeOut w hcall).1, hcount⟩

/-- Each read of a call takes bytes or counts, so there are not many. -/
theorem reads_bounded {stream : List UInt8} {p : Process} (h : Inv stream p) {timeOut : UInt32}
    {w : Locals} (hcall : p.call = some (timeOut, w)) {reads : List ReadEnd}
    (hreads : Runs.Guarded step Enabled p (reads.map .read)) :
    reads.length ≤ p.unread.length + (timeOut.toNat - w.count.toNat) + 1 := by
  induction reads generalizing p w with
  | nil => exact Nat.zero_le _
  | cons ending reads ih =>
    obtain ⟨henabled, hrest⟩ := hreads
    rw [List.length_cons]
    rcases step_read h henabled hcall with hstep | ⟨w', hstep, -, -, hless⟩
    · cases reads with
      | nil => exact Nat.le_add_left 1 _
      | cons ending' reads =>
        have hnone : (step p (.read ending)).call = none := by rw [hstep]
        have henabled' := hrest.1
        cases ending' <;> simp [Enabled, hnone] at henabled'
    · have hbound := ih (inv_step h henabled) (by rw [hstep]) hrest
      rw [hstep] at hbound
      dsimp only at hbound
      omega

/-- What the calls have returned is what the server has sent first, all of it that has been
read when no call is going on; and a call ends after a number of reads that only depends on
what is left to read and on its time limit. -/
theorem wait_loses_nothing (hasClient : Bool) (stream : List UInt8) (events : List Event)
    (hrun : Runs.Guarded step Enabled (start hasClient stream) events) :
    let p := events.foldl step (start hasClient stream)
    p.results.flatten <+: stream ∧ (p.call = none → p.results.flatten ++ p.unread = stream) ∧
      ∀ timeOut w, p.call = some (timeOut, w) → ∀ reads : List ReadEnd,
        Runs.Guarded step Enabled p (reads.map .read) →
          reads.length ≤ p.unread.length + timeOut.toNat + 1 := by
  intro p
  have h : Inv stream p :=
    hrun.invariant (fun _ _ h henabled => inv_step h henabled) (inv_start hasClient stream)
  refine ⟨⟨gathered p ++ p.unread, by rw [← h.kept, List.append_assoc]⟩, fun hcall => ?_,
    fun timeOut w hcall reads hreads => ?_⟩
  · have hkept := h.kept
    rw [gathered, hcall] at hkept
    simpa using hkept
  · have hbound := reads_bounded h hcall hreads
    omega

/-- Replies with zero bytes, between reads that bring nothing, and a call that runs into its
time limit. -/
def replies : List Event :=
  [.wait 1, .read .empty, .read (.chunk 2), .wait 2, .read .timedOut, .read (.chunk 1), .wait 1,
    .read .timedOut, .read .timedOut]

theorem replies_lose_nothing :
    let p := replies.foldl step (start true [0, 7, 0])
    p.results.flatten <+: [0, 7, 0] ∧ (p.call = none → p.results.flatten ++ p.unread = [0, 7, 0]) ∧
      ∀ timeOut w, p.call = some (timeOut, w) → ∀ reads : List ReadEnd,
        Runs.Guarded step Enabled p (reads.map .read) →
          reads.length ≤ p.unread.length + timeOut.toNat + 1 := by
  exact wait_loses_nothing true [0, 7, 0] replies (by decide)

end Msopcom.LocalProcess
