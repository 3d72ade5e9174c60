import Msopcom.Bytes
import Msopcom.FuelLoop
import Msopcom.Runs

set_option autoImplicit false

/-!
# Requests and their responses

`InteractHelper::Interact` sends a request and takes what `LocalProcess::Wait` gathers for
its response. Neither side numbers them.
-/
namespace Msopcom.InteractHelper
open FuelLoop Bytes

inductive PacketType
  | deviceSummary
  | kernelSummary
  | kernelBinary
  | logString
  | memoryRecord
  | kernelRecord
  | ipcRecord
  | memRegionPermission
  | text
  | ipcResponse
  | kernelRecordResponse
  | invalid
  deriving DecidableEq, Repr

def PacketType.code : PacketType → ℕ
  | .deviceSummary => 0
  | .kernelSummary => 1
  | .kernelBinary => 2
  | .logString => 3
  | .memoryRecord => 1000
  | .kernelRecord => 1001
  | .ipcRecord => 1002
  | .memRegionPermission => 1003
  | .text => 2000
  | .ipcResponse => 3000
  | .kernelRecordResponse => 3001
  | .invalid => 2 ^ 32 - 1

def queryResponsePacketType : PacketType → PacketType
  | .ipcRecord => .ipcResponse
  | .kernelRecord => .kernelRecordResponse
  | _ => .invalid

def deserialize (size : ℕ) (msg : List UInt8) : Option (List UInt8) :=
  if msg.length < size then none else some (msg.take size)

/-! ## Waiting -/

def recvBuffSize : ℕ := 1024

/-- `none` where the read runs into its time limit. -/
def clientRead (arrived : List UInt8) : Option (List UInt8) :=
  if arrived.isEmpty then none else some (arrived.take recvBuffSize)

structure WaitState where
  msg : List UInt8 := []
  len : ℤ := 0
  count : UInt32 := 0
  deriving DecidableEq, Repr

/-- The condition of the loop. -/
def WaitState.again (w : WaitState) : LoopStep WaitState (List UInt8) :=
  if w.msg.isEmpty || w.len = recvBuffSize then .next w else .done w.msg

/-- One round of the loop in `Wait`. -/
def waitRound (timeOut : UInt32) (recvMsg : Option (List UInt8)) (w : WaitState) :
    LoopStep WaitState (List UInt8) :=
  match recvMsg with
  | some recvMsg =>
    WaitState.again { w with msg := w.msg ++ recvMsg, len := recvMsg.length }
  | none =>
    if timeOut > 0 then
      if w.count ≥ timeOut then .done w.msg
      else WaitState.again { w with len := -1, count := w.count + 1 }
    else WaitState.again { w with len := -1 }

/-! ## Interacting -/

/-- The template arguments and the type of a request. -/
structure Request where
  packetType : PacketType
  sizeofRsp : ℕ
  timeOut : UInt32
  deriving DecidableEq, Repr

/-- What `Interact` returns for the message that it has waited for, and the value it leaves
in `response`; `none` is a `response` that is left as it was. -/
def interact (r : Request) (msg : List UInt8) : Bool × Option (List UInt8) :=
  if msg.isEmpty then (false, none)
  else
    match deserialize 4 msg with
    | none => (false, none)
    | some type =>
      if leNat type ≠ (queryResponsePacketType r.packetType).code then (false, none)
      else (true, deserialize r.sizeofRsp (msg.drop 4))

/-- What a server sends for a request. -/
def responseBytes (r : Request) (payload : List UInt8) : List UInt8 :=
  leBytes 4 (queryResponsePacketType r.packetType).code ++ payload

/-! ## A connection -/

/-- The payloads that the server has answered with, by the number of the request, the
bytes that it has sent and those that have arrived, and what the calls have returned. -/
structure Connection where
  requests : List Request := []
  answers : List (ℕ × List UInt8) := []
  sent : List UInt8 := []
  arrived : List UInt8 := []
  wait : Option WaitState := none
  results : List (Bool × Option (List UInt8)) := []
  deriving DecidableEq, Repr

inductive Event
  | call (r : Request)
  | answer (k : ℕ) (payload : List UInt8)
  | arrive (n : ℕ)
  | read
  deriving DecidableEq, Repr

/-- The request of the call that is going on is the last one. -/
def Connection.read (c : Connection) (w : WaitState) (r : Request) : Connection :=
  match waitRound r.timeOut (clientRead c.arrived) w with
  | .next w => { c with wait := some w, arrived := c.arrived.drop recvBuffSize }
  | .done msg =>
    { c with
      wait := none
      arrived := c.arrived.drop recvBuffSize
      results := c.results ++ [interact r msg] }

def step (c : Connection) : Event → Connection
  | .call r => { c with requests := c.requests ++ [r], wait := some {} }
  | .answer k payload =>
    match c.requests[k]? with
    | none => c
    | some r =>
      { c with answers := c.answers ++ [(k, payload)], sent := c.sent ++ responseBytes r payload }
  | .arrive n => { c with sent := c.sent.drop n, arrived := c.arrived ++ c.sent.take n }
  | .read =>
    match c.wait, c.requests.getLast? with
    | some w, some r => c.read w r
    | _, _ => c

/-- The calls follow one another, and the server answers each request once. -/
def Enabled (c : Connection) : Event → Prop
  | .call _ => c.wait = none
  | .answer k payload =>
    (∃ r ∈ c.requests[k]?, payload.length = r.sizeofRsp) ∧ ∀ a ∈ c.answers, a.1 ≠ k
  | .arrive _ => True
  | .read => c.wait.isSome = true

instance : DecidableRel Enabled
  | c, .call _ => inferInstanceAs (Decidable (c.wait = none))
  | c, .answer k payload =>
    inferInstanceAs (Decidable ((∃ r ∈ c.requests[k]?, payload.length = r.sizeofRsp) ∧
      ∀ a ∈ c.answers, a.1 ≠ k))
  | _, .arrive _ => isTrue trivial
  | c, .read => inferInstanceAs (Decidable (c.wait.isSome = true))

/-- A call that returns true has left the payload of the response to its own request. -/
def Agrees (c : Connection) : Prop :=
  ∀ k response, c.results[k]? = some (true, response) →
    ∃ payload, (k, payload) ∈ c.answers ∧ response = some payload

/-- A call is made when every earlier request has its response, all of which has been
read, and a response arrives whole. -/
def Prompt (c : Connection) : Event → Prop
  | .call _ => (∀ k < c.requests.length, ∃ a ∈ c.answers, a.1 = k) ∧ c.sent = [] ∧ c.arrived = []
  | .read => c.sent = [] ∨ c.arrived = []
  | _ => True

instance : DecidableRel Prompt
  | c, .call _ =>
    inferInstanceAs (Decidable ((∀ k < c.requests.length, ∃ a ∈ c.answers, a.1 = k) ∧
      c.sent = [] ∧ c.arrived = []))
  | _, .answer _ _ => isTrue trivial
  | _, .arrive _ => isTrue trivial
  | c, .read => inferInstanceAs (Decidable (c.sent = [] ∨ c.arrived = []))

/-! ## Whole responses -/

theorem interact_responseBytes {r : Request} {payload : List UInt8}
    (hsize : payload.length = r.sizeofRsp) :
    interact r (responseBytes r payload) = (true, some payload) := by
  have hcode : (queryResponsePacketType r.packetType).code < 256 ^ 4 := by
    cases r.packetType <;> decide
  have htype : deserialize 4 (responseBytes r payload) =
      some (leBytes 4 (queryResponsePacketType r.packetType).code) := by
    rw [deserialize, responseBytes, if_neg (by rw [List.length_append, length_leBytes]; omega),
      List.take_left' (length_leBytes 4 _)]
  have hrest : deserialize r.sizeofRsp ((responseBytes r payload).drop 4) = some payload := by
    rw [deserialize, responseBytes, List.drop_left' (length_leBytes 4 _), if_neg (by omega),
      ← hsize, List.take_length]
  have hne : (responseBytes r payload).isEmpty = false := rfl
  rw [interact, hne, if_neg Bool.false_ne_true, htype]
  dsimp only
  rw [leNat_leBytes hcode, if_neg (not_not.mpr rfl), hrest]

theorem interact_nil (r : Request) : interact r [] = (false, none) := rfl

/-! ## What a call has of its response -/

/-- The call of the last request: either nothing of its response has been sent, or it is
in order what has been read, what has arrived and what has been sent. -/
def Waiting (c : Connection) (r : Request) (w : WaitState) : Prop :=
  ((∀ a ∈ c.answers, a.1 ≠ c.results.length) ∧ w.msg = [] ∧ c.arrived = [] ∧ c.sent = []) ∨
    ∃ payload, (c.results.length, payload) ∈ c.answers ∧ payload.length = r.sizeofRsp ∧
      w.msg ++ (c.arrived ++ c.sent) = responseBytes r payload ∧ (w.msg ≠ [] → c.sent = [])

structure Inv (c : Connection) : Prop where
  answers : ∀ a ∈ c.answers, a.1 < c.requests.length
  count : c.results.length + c.wait.toList.length = c.requests.length
  agrees : Agrees c
  waiting : ∀ w, c.wait = some w → (∀ k < c.results.length, ∃ a ∈ c.answers, a.1 = k) ∧
    ∃ r, c.requests.getLast? = some r ∧ Waiting c r w

theorem inv_init : Inv {} := by
  constructor
  case answers => exact fun a ha => absurd ha List.not_mem_nil
  case count => rfl
  case agrees => exact fun k response h => absurd h (by simp)
  case waiting => exact fun w hw => absurd hw (by simp)

theorem Agrees.more_answers {c : Connection} (h : Agrees c) {c' : Connection}
    (hresults : c'.results = c.results) (hanswers : c.answers ⊆ c'.answers) : Agrees c' := by
  intro k response hk
  rw [hresults] at hk
  obtain ⟨payload, hmem, hresponse⟩ := h k response hk
  exact ⟨payload, hanswers hmem, hresponse⟩

theorem Inv.call {c : Connection} (h : Inv c) {r : Request} (henabled : Enabled c (.call r))
    (hprompt : Prompt c (.call r)) : Inv (step c (.call r)) := by
  obtain ⟨hall, hsent, harrived⟩ := hprompt
  have hcount := h.count
  have hwait : c.wait = none := henabled
  rw [hwait] at hcount
  change c.results.length + 0 = c.requests.length at hcount
  constructor
  case answers =>
    intro a ha
    have hlt := h.answers a ha
    change a.1 < (c.requests ++ [r]).length
    rw [List.length_append]
    omega
  case count =>
    change c.results.length + 1 = (c.requests ++ [r]).length
    rw [List.length_append, List.length_singleton, ← hcount]
  case agrees => exact h.agrees.more_answers rfl (List.Subset.refl _)
  case waiting =>
    intro w hw
    cases hw
    refine ⟨fun k hk => hall k (by change k < c.results.length at hk; omega), r,
      List.getLast?_concat, .inl ⟨?_, rfl, harrived, hsent⟩⟩
    intro a ha
    have hlt := h.answers a ha
    change a.1 ≠ c.results.length
    omega

theorem Inv.answer {c : Connection} (h : Inv c) {k : ℕ} {payload : List UInt8}
    (henabled : Enabled c (.answer k payload)) : Inv (step c (.answer k payload)) := by
  obtain ⟨⟨r, hr, hsize⟩, hfresh⟩ := henabled
  have hk : k < c.requests.length := (List.getElem?_eq_some_iff.mp hr).1
  have hstep : step c (.answer k payload) =
      { c with answers := c.answers ++ [(k, payload)], sent := c.sent ++ responseBytes r payload } := by
    rw [step, hr]
  rw [hstep]
  constructor
  case answers =>
    intro a ha
    cases List.mem_append.mp ha with
    | inl ha => exact h.answers a ha
    | inr ha =>
      rw [List.mem_singleton.mp ha]
      exact hk
  case count => exact h.count
  case agrees => exact h.agrees.more_answers rfl (List.subset_append_left _ _)
  case waiting =>
    intro w hw
    obtain ⟨hall, r', hr', hwaiting⟩ := h.waiting w hw
    have hcount := h.count
    have hw' : c.wait = some w := hw
    rw [hw'] at hcount
    change c.results.length + 1 = c.requests.length at hcount
    -- every earlier request has been answered, so this answers the call
    have hlast : k = c.results.length := by
      by_contra hne
      obtain ⟨a, ha, hak⟩ := hall k (by omega)
      exact hfresh a ha hak
    have hrr' : r' = r := by
      rw [List.getLast?_eq_getElem?, ← hcount, Nat.add_sub_cancel, ← hlast, hr] at hr'
      exact (Option.some.inj hr').symm
    refine ⟨fun j hj => ?_, r', hr', ?_⟩
    · obtain ⟨a, ha, haj⟩ := hall j hj
      exact ⟨a, List.mem_append_left _ ha, haj⟩
    · cases hwaiting with
      | inl hnone =>
        obtain ⟨_, hmsg, harrived, hsent⟩ := hnone
        refine .inr ⟨payload, ?_, by rw [hrr', hsize], ?_, fun hne => absurd hmsg hne⟩
        · rw [← hlast]
          exact List.mem_append_right _ (List.mem_singleton.mpr rfl)
        · rw [hmsg, harrived, hsent, hrr']
          rfl
      | inr hsome =>
        obtain ⟨payload', hmem, _⟩ := hsome
        exact absurd hlast.symm (hfresh _ hmem)

theorem Inv.arrive {c : Connection} (h : Inv c) (n : ℕ) : Inv (step c (.arrive n)) := by
  constructor
  case answers => exact h.answers
  case count => exact h.count
  case agrees => exact h.agrees
  case waiting =>
    intro w hw
    obtain ⟨hall, r, hr, hwaiting⟩ := h.waiting w hw
    refine ⟨hall, r, hr, ?_⟩
    cases hwaiting with
    | inl hnone =>
      obtain ⟨hfresh, hmsg, harrived, hsent⟩ := hnone
      refine .inl ⟨hfresh, hmsg, ?_, ?_⟩
      · simp [step, harrived, hsent]
      · simp [step, hsent]
    | inr hsome =>
      obtain ⟨payload, hmem, hsize, hbytes, hread⟩ := hsome
      refine .inr ⟨payload, hmem, hsize, ?_, fun hne => ?_⟩
      · change w.msg ++ ((c.arrived ++ c.sent.take n) ++ c.sent.drop n) = _
        rw [List.append_assoc, List.take_append_drop, hbytes]
      · change c.sent.drop n = []
        rw [hread hne, List.drop_nil]

/-! ## A round of the loop -/

theorem waitRound_next {timeOut : UInt32} {recvMsg : Option (List UInt8)} {w w' : WaitState}
    (h : waitRound timeOut recvMsg w = .next w') : w'.msg = w.msg ++ recvMsg.getD [] := by
  cases recvMsg with
  | some m =>
    simp only [waitRound, WaitState.again] at h
    split_ifs at h
    cases h
    rfl
  | none =>
    simp only [waitRound, WaitState.again] at h
    split_ifs at h <;> cases h <;> exact (List.append_nil _).symm

theorem waitRound_done {timeOut : UInt32} {recvMsg : Option (List UInt8)} {w : WaitState}
    {msg : List UInt8} (h : waitRound timeOut recvMsg w = .done msg) :
    msg = w.msg ++ recvMsg.getD [] ∧ ∀ m, recvMsg = some m → m.length ≠ recvBuffSize := by
  cases recvMsg with
  | some m =>
    simp only [waitRound, WaitState.again] at h
    split_ifs at h with hagain
    cases h
    refine ⟨rfl, fun m' hm hlen => hagain ?_⟩
    cases hm
    simp [hlen]
  | none =>
    simp only [waitRound, WaitState.again] at h
    refine ⟨?_, fun m hm => absurd hm nofun⟩
    split_ifs at h <;> cases h <;> exact (List.append_nil _).symm

section Round
variable {c : Connection} {r : Request} {w : WaitState} (hwaiting : Waiting c r w)
  (hprompt : c.sent = [] ∨ c.arrived = [])
include hwaiting hprompt

/-- A round that goes on keeps what the call has of its response. -/
theorem waiting_next {w' : WaitState}
    (h : waitRound r.timeOut (clientRead c.arrived) w = .next w') :
    Waiting { c with wait := some w', arrived := c.arrived.drop recvBuffSize } r w' := by
  have hmsg := waitRound_next h
  rw [clientRead] at hmsg
  cases hwaiting with
  | inl hnone =>
    obtain ⟨hfresh, hempty, harrived, hsent⟩ := hnone
    rw [harrived, hempty] at hmsg
    refine .inl ⟨hfresh, hmsg, ?_, hsent⟩
    change c.arrived.drop recvBuffSize = []
    rw [harrived, List.drop_nil]
  | inr hsome =>
    obtain ⟨payload, hmem, hsize, hbytes, hread⟩ := hsome
    refine .inr ⟨payload, hmem, hsize, ?_, ?_⟩
    · change w'.msg ++ (c.arrived.drop recvBuffSize ++ c.sent) = _
      rw [hmsg, ← hbytes]
      cases c.arrived with
      | nil => simp
      | cons b bytes =>
        rw [List.isEmpty_cons, if_neg Bool.false_ne_true, Option.getD_some, List.append_assoc,
          ← List.append_assoc (List.take _ _), List.take_append_drop]
    · change w'.msg ≠ [] → c.sent = []
      rw [hmsg]
      intro hne
      cases hprompt with
      | inl hsent => exact hsent
      | inr harrived =>
        rw [harrived] at hne
        exact hread (by simpa using hne)

/-- A call that ends has nothing of its response or all of it. -/
theorem interact_done {msg : List UInt8}
    (h : waitRound r.timeOut (clientRead c.arrived) w = .done msg) :
    interact r msg = (false, none) ∨
      ∃ payload, (c.results.length, payload) ∈ c.answers ∧
        interact r msg = (true, some payload) := by
  obtain ⟨hmsg, hlen⟩ := waitRound_done h
  rw [clientRead] at hmsg hlen
  cases hwaiting with
  | inl hnone =>
    obtain ⟨_, hempty, harrived, _⟩ := hnone
    rw [harrived, hempty] at hmsg
    rw [hmsg]
    exact .inl (interact_nil r)
  | inr hsome =>
    obtain ⟨payload, hmem, hsize, hbytes, hread⟩ := hsome
    by_cases harrived : c.arrived = []
    · rw [harrived] at hmsg hbytes
      by_cases hempty : w.msg = []
      · rw [hempty] at hmsg
        rw [hmsg]
        exact .inl (interact_nil r)
      · rw [hread hempty] at hbytes
        refine .inr ⟨payload, hmem, ?_⟩
        rw [← interact_responseBytes hsize, ← hbytes, hmsg]
        rfl
    · have hsent : c.sent = [] := hprompt.resolve_right harrived
      have hnonempty : c.arrived.isEmpty = false := by
        rwa [List.isEmpty_eq_false_iff]
      rw [hnonempty, if_neg Bool.false_ne_true] at hmsg hlen
      have hshort := hlen _ rfl
      rw [List.length_take] at hshort
      have htake : c.arrived.take recvBuffSize = c.arrived := List.take_of_length_le (by omega)
      refine .inr ⟨payload, hmem, ?_⟩
      rw [← interact_responseBytes hsize, ← hbytes, hsent, List.append_nil, hmsg, htake]
      rfl

end Round

theorem Inv.read {c : Connection} (h : Inv c) (henabled : Enabled c .read)
    (hprompt : Prompt c .read) : Inv (step c .read) := by
  obtain ⟨w, hw⟩ := Option.isSome_iff_exists.mp henabled
  obtain ⟨hall, r, hr, hwaiting⟩ := h.waiting w hw
  have hcount := h.count
  rw [hw] at hcount
  have hstep : step c .read = c.read w r := by
    rw [step, hw, hr]
  rw [hstep, Connection.read]
  cases hround : waitRound r.timeOut (clientRead c.arrived) w with
  | next w' =>
    constructor
    case answers => exact h.answers
    case count => exact hcount
    case agrees => exact h.agrees
    case waiting =>
      intro w'' hw''
      cases hw''
      exact ⟨hall, r, hr, waiting_next hwaiting hprompt hround⟩
  | done msg =>
    constructor
    case answers => exact h.answers
    case count =>
      change (c.results ++ [interact r msg]).length = c.requests.length
      rw [List.length_append, ← hcount]
      rfl
    case agrees =>
      intro k response hk
      change (c.results ++ [interact r msg])[k]? = _ at hk
      by_cases hlt : k < c.results.length
      · rw [List.getElem?_append_left hlt] at hk
        exact h.agrees k response hk
      · have hlast : k = c.results.length := by
          have hbound := (List.getElem?_eq_some_iff.mp hk).1
          rw [List.length_append, List.length_singleton] at hbound
          omega
        rw [hlast, List.getElem?_concat_length] at hk
        cases interact_done hwaiting hprompt hround with
        | inl hfalse =>
          rw [hfalse] at hk
          cases hk
        | inr htrue =>
          obtain ⟨payload, hmem, htrue⟩ := htrue
          rw [htrue] at hk
          cases hk
          exact ⟨payload, hlast ▸ hmem, rfl⟩
    case waiting => exact fun w' hw' => absurd hw' nofun

theorem Inv.step {c : Connection} (h : Inv c) (e : Event) (henabled : Enabled c e)
    (hprompt : Prompt c e) : Inv (step c e) := by
  cases e with
  | call r => exact h.call henabled hprompt
  | answer k payload => exact h.answer henabled
  | arrive n => exact h.arrive n
  | read => exact h.read henabled hprompt

/-- Where no call is made before the last one has its whole response, and no read finds a
part of a response, every call that returns true has the response to its own request. -/
theorem interact_agrees {events : List Event} (henabled : Runs.Guarded step Enabled {} events)
    (hprompt : Runs.Guarded step Prompt {} events) : Agrees (events.foldl step {}) := by
  have hguard : Runs.Guarded step (fun c e => Enabled c e ∧ Prompt c e) {} events :=
    Runs.guarded_and.mpr ⟨henabled, hprompt⟩
  exact (hguard.invariant (fun c e h hg => h.step e hg.1 hg.2) inv_init).agrees

/-- The request of `IPCInteract`: its response has a type and a status. -/
def ipcRequest : Request := ⟨.ipcRecord, 8, 5⟩

def ipcPayload (type : UInt8) : List UInt8 := [type, 0, 0, 0, 0, 0, 0, 0]

/-- Two calls; the first response arrives behind two reads that time out. -/
def promptRun : List Event :=
  [.call ipcRequest, .read, .read, .answer 0 (ipcPayload 1), .arrive 12, .read,
    .call ipcRequest, .answer 1 (ipcPayload 2), .arrive 12, .read]

theorem interact_agrees_promptRun :
    Agrees (promptRun.foldl step {}) ∧
      (promptRun.foldl step {}).results =
        [(true, some (ipcPayload 1)), (true, some (ipcPayload 2))] :=
  ⟨interact_agrees (by decide) (by decide), by decide⟩

/-- The first call times out before its response arrives, and the second one takes it. -/
def lateRun : List Event :=
  [.call ipcRequest, .read, .read, .read, .read, .read, .read, .call ipcRequest,
    .answer 0 (ipcPayload 1), .arrive 12, .read, .answer 1 (ipcPayload 2)]

/-- Six bytes of a response arrive before the others. -/
def splitRun : List Event :=
  [.call ipcRequest, .answer 0 (ipcPayload 1), .arrive 6, .read]

theorem late_response_delivered :
    Runs.Guarded step Enabled {} lateRun ∧
      (lateRun.foldl step {}).results = [(false, none), (true, some (ipcPayload 1))] ∧
      ¬ Agrees (lateRun.foldl step {}) ∧
      Runs.Guarded step Enabled {} splitRun ∧
      (splitRun.foldl step {}).results = [(true, none)] ∧
      ¬ Agrees (splitRun.foldl step {}) := by
  refine ⟨by decide, by decide, fun h => ?_, by decide, by decide, fun h => ?_⟩
  · obtain ⟨payload, hmem, hresponse⟩ := h 1 (some (ipcPayload 1)) (by decide)
    cases hresponse
    exact absurd hmem (by decide)
  · obtain ⟨payload, _, hresponse⟩ := h 0 none (by decide)
    cases hresponse

end Msopcom.InteractHelper
