import Msopcom.Inbox
import Msopcom.LocalProcess

set_option autoImplicit false

/-!
# The requests of the profiler

Requests over one connection, each with a loop of its own that waits for the reply. Replies
have no number: some have a fixed size, one is a line of text and some are a word.
-/
namespace Msopcom.ProfConfigReplies
open FuelLoop InteractHelper LocalProcess Runs

/-! ## Waiting for a reply -/

/-- The packets that are waited for. -/
inductive ProfPacketType
  | config
  | dataPath
  | processCtrl
  | collectStart
  | profFinish
  deriving DecidableEq, Repr

def maxNumPacket : ℕ := 64

/-- What a request reports, and the value that it has got. -/
structure Outcome where
  success : Bool
  value : List UInt8 := []
  deriving DecidableEq, Repr

/-- The number of the next `Wait`, and what has been received. -/
abbrev Progress := ℕ × List UInt8

def nextPacket (count : ℕ) (received : List UInt8) : LoopStep Progress Outcome :=
  if count + 1 > maxNumPacket then .done ⟨false, []⟩ else .next (count + 1, received)

/-- The loop of `WaitForPayload` behind its `Wait`, for a type of `size` bytes. -/
def waitForPayload (size count : ℕ) (rspMsg buf : List UInt8) : LoopStep Progress Outcome :=
  if buf.length ≤ 0 then nextPacket count rspMsg
  else
    let rspMsg := rspMsg ++ buf
    if rspMsg.length ≥ size then .done ⟨true, rspMsg.take size⟩ else nextPacket count rspMsg

def newline : UInt8 := 10

/-- The loop of `GetOutputPathFromRemote` behind its `Wait`. -/
def getOutputPath (count : ℕ) (receivedMsg msg : List UInt8) : LoopStep Progress Outcome :=
  let receivedMsg := receivedMsg ++ msg
  if receivedMsg.getLast? = some newline then .done ⟨true, receivedMsg.dropLast⟩
  else nextPacket count receivedMsg

/-- `"SUC"` -/
def suc : List UInt8 := [83, 85, 67]

def waitForReply (objReply receivedMsg : List UInt8) : LoopStep Progress Outcome :=
  .done ⟨receivedMsg == objReply, []⟩

def sizeofMessageOfProfConfig : ℕ := 1620
def sizeofProcessCtrlRsp : ℕ := 1

namespace ProfPacketType

def timeOut : ProfPacketType → UInt32
  | .config | .dataPath | .processCtrl => 1
  | .collectStart | .profFinish => 0xFFFFFFFF

def maxWaits : ProfPacketType → ℕ
  | .config | .dataPath | .processCtrl => maxNumPacket
  | .collectStart | .profFinish => 1

/-- What a request does when `Wait` has returned `buf`. -/
def waited (t : ProfPacketType) (count : ℕ) (received buf : List UInt8) :
    LoopStep Progress Outcome :=
  match t with
  | .config => waitForPayload sizeofMessageOfProfConfig count received buf
  | .dataPath => getOutputPath count received buf
  | .processCtrl => waitForPayload sizeofProcessCtrlRsp count received buf
  | .collectStart | .profFinish => waitForReply suc buf

/-- The replies of a server: the structure, a line, or some word. -/
def IsReply (t : ProfPacketType) (reply : List UInt8) : Prop :=
  match t with
  | .config => reply.length = sizeofMessageOfProfConfig
  | .dataPath => reply.getLast? = some newline ∧ newline ∉ reply.dropLast
  | .processCtrl => reply.length = sizeofProcessCtrlRsp
  | .collectStart | .profFinish => reply ≠ []

instance (t : ProfPacketType) (reply : List UInt8) : Decidable (t.IsReply reply) := by
  unfold IsReply
  cases t <;> infer_instance

end ProfPacketType

/-! ## The connection -/

/-- The request that waits, with the position in the stream where it began. -/
structure Call where
  type : ProfPacketType
  request : ℕ
  start : ℕ
  count : ℕ := 1
  received : List UInt8 := []
  locals : Locals := {}
  deriving DecidableEq, Repr

/-- A reply to a request, with its position in the stream. -/
structure Reply where
  request : ℕ
  start : ℕ
  bytes : List UInt8
  deriving DecidableEq, Repr

/-- What a request has consumed, from which position, and what it has reported. -/
structure Taken where
  request : ℕ
  start : ℕ
  bytes : List UInt8
  outcome : Option Outcome
  deriving DecidableEq, Repr

structure Connection where
  inbox : Inbox UInt8 := { unread := [] }
  requests : List ProfPacketType := []
  replies : List Reply := []
  call : Option Call := none
  taken : List Taken := []
  deriving DecidableEq, Repr

inductive Event
  | request (type : ProfPacketType)
  | reply (request : ℕ) (bytes : List UInt8)
  | read (ending : ReadEnd)
  deriving DecidableEq, Repr

namespace Connection

def request (type : ProfPacketType) (c : Connection) : Connection :=
  { c with
    requests := c.requests ++ [type]
    call := some { type, request := c.requests.length, start := c.inbox.position } }

def reply (request : ℕ) (bytes : List UInt8) (c : Connection) : Connection :=
  { c with
    inbox := c.inbox.send bytes
    replies := c.replies ++ [⟨request, c.inbox.sent.length, bytes⟩] }

/-- `Wait` has returned. -/
def waited (call : Call) (buf : List UInt8) (c : Connection) : Connection :=
  match call.type.waited call.count call.received buf with
  | .next (count, received) => { c with call := some { call with count, received, locals := {} } }
  | .done outcome =>
    { c with
      call := none
      taken := c.taken ++ [⟨call.request, call.start, call.received ++ buf, some outcome⟩] }

def read (ending : ReadEnd) (call : Call) (c : Connection) : Connection :=
  let inbox := c.inbox.skip ending.taken
  match round call.type.timeOut (ending.ret c.inbox.unread) call.locals with
  | .next locals => { c with inbox, call := some { call with locals } }
  | .done buf => Connection.waited call buf { c with inbox }

def step (c : Connection) : Event → Connection
  | .request type => c.request type
  | .reply request bytes => c.reply request bytes
  | .read ending =>
    match c.call with
    | none => c
    | some call => c.read ending call

def Answered (c : Connection) (request : ℕ) : Prop := ∃ r ∈ c.replies, r.request = request

instance (c : Connection) (request : ℕ) : Decidable (c.Answered request) :=
  inferInstanceAs (Decidable (∃ r ∈ c.replies, r.request = request))

/-- Requests are made one after the other, each gets one reply, and a chunk is of bytes that
have been sent. -/
def Enabled (c : Connection) : Event → Prop
  | .request _ => c.call = none
  | .reply request bytes =>
    (∃ type ∈ c.requests[request]?, type.IsReply bytes) ∧ ¬ c.Answered request
  | .read (.chunk n) => c.call.isSome ∧ 1 ≤ n ∧ n ≤ recvBuffSize ∧ n ≤ c.inbox.unread.length
  | .read _ => c.call.isSome

instance : DecidableRel Enabled
  | c, .request _ => inferInstanceAs (Decidable (c.call = none))
  | c, .reply request bytes => inferInstanceAs
    (Decidable ((∃ type ∈ c.requests[request]?, type.IsReply bytes) ∧ ¬ c.Answered request))
  | c, .read (.chunk n) => inferInstanceAs
    (Decidable (c.call.isSome ∧ 1 ≤ n ∧ n ≤ recvBuffSize ∧ n ≤ c.inbox.unread.length))
  | c, .read .empty => inferInstanceAs (Decidable (c.call.isSome = true))
  | c, .read .timedOut => inferInstanceAs (Decidable (c.call.isSome = true))

/-- In the last `Wait` that a request makes, a read brings all that there is, up to the size of
the buffer, and the reply is there. Before the first of its bytes, as many reads as the time
limit says may bring nothing. -/
def Prompt (c : Connection) : Event → Prop
  | .read ending => ∀ call ∈ c.call,
    call.count < call.type.maxWaits ∨
      (ending.taken = 0 ∧ call.locals.msg = [] ∧ call.locals.count < call.type.timeOut) ∨
      (ending.taken = min recvBuffSize c.inbox.unread.length ∧ c.Answered call.request)
  | _ => True

instance : DecidableRel Prompt
  | c, .read ending => inferInstanceAs (Decidable (∀ call ∈ c.call,
    call.count < call.type.maxWaits ∨
      (ending.taken = 0 ∧ call.locals.msg = [] ∧ call.locals.count < call.type.timeOut) ∨
      (ending.taken = min recvBuffSize c.inbox.unread.length ∧ c.Answered call.request)))
  | _, .request _ => isTrue trivial
  | _, .reply _ _ => isTrue trivial

/-- What the requests have consumed, with the one that waits. -/
def takes (c : Connection) : List Taken :=
  c.taken ++ c.call.toList.map fun call =>
    ⟨call.request, call.start, call.received ++ call.locals.msg, none⟩

/-- A request that reports success has consumed the bytes of its own reply, and no request has
consumed a byte of the reply to an earlier one. -/
structure Agrees (c : Connection) : Prop where
  places : ∀ t ∈ c.takes, c.inbox.Has t.start t.bytes
  own : ∀ t ∈ c.takes, (∃ value, t.outcome = some ⟨true, value⟩) →
    ∃ r ∈ c.replies, r.request = t.request ∧ r.start = t.start ∧ r.bytes = t.bytes
  later : ∀ t ∈ c.takes, ∀ r ∈ c.replies, r.request < t.request →
    ∀ i, r.start ≤ i → i < r.start + r.bytes.length →
      ¬ (t.start ≤ i ∧ i < t.start + t.bytes.length)

end Connection

/-! ## One `Wait` -/

section Wait
variable {t : ProfPacketType} {count : ℕ} {received buf : List UInt8}

theorem nextPacket_of_lt (h : count < maxNumPacket) :
    nextPacket count received = .next (count + 1, received) := by
  rw [nextPacket, if_neg (by omega)]

theorem waitForPayload_complete {size : ℕ} (hsize : (received ++ buf).length = size)
    (hbuf : buf ≠ []) : ∃ outcome, waitForPayload size count received buf = .done outcome := by
  have hpos := List.length_pos_of_ne_nil hbuf
  rw [waitForPayload, if_neg (by omega)]
  exact ⟨_, if_pos (Nat.le_of_eq hsize.symm)⟩

theorem waitForPayload_partial {size : ℕ} (hsize : (received ++ buf).length < size)
    (hcount : count < maxNumPacket) :
    waitForPayload size count received buf = .next (count + 1, received ++ buf) := by
  unfold waitForPayload
  split_ifs with hbuf
  · have hnil : buf = [] := List.length_eq_zero_iff.mp (Nat.le_zero.mp hbuf)
    rw [hnil, List.append_nil]
    exact nextPacket_of_lt hcount
  · exact (if_neg (Nat.not_le.mpr hsize)).trans (nextPacket_of_lt hcount)

theorem getOutputPath_partial {rest : List UInt8} (hrest : rest ≠ [])
    (hline : newline ∉ (received ++ buf ++ rest).dropLast) (hcount : count < maxNumPacket) :
    getOutputPath count received buf = .next (count + 1, received ++ buf) := by
  have hopen : (received ++ buf).getLast? ≠ some newline := by
    intro hlast
    rw [List.dropLast_append_of_ne_nil hrest] at hline
    exact hline (List.mem_append_left _ (List.mem_of_getLast? hlast))
  rw [getOutputPath, if_neg hopen]
  exact nextPacket_of_lt hcount

/-- A request ends with its reply. -/
theorem waited_complete (hreply : t.IsReply (received ++ buf)) (hbuf : buf ≠ []) :
    ∃ outcome, t.waited count received buf = .done outcome := by
  cases t with
  | config => exact waitForPayload_complete hreply hbuf
  | dataPath => exact ⟨_, if_pos hreply.1⟩
  | processCtrl => exact waitForPayload_complete hreply hbuf
  | collectStart => exact ⟨_, rfl⟩
  | profFinish => exact ⟨_, rfl⟩

/-- With a part of its reply it goes on, up to its last `Wait`. -/
theorem waited_partial {rest : List UInt8} (hrest : rest ≠ [])
    (hreply : t.IsReply (received ++ buf ++ rest)) (hpos : 1 ≤ count)
    (hcount : count < t.maxWaits) :
    t.waited count received buf = .next (count + 1, received ++ buf) := by
  have hlength : (received ++ buf).length < (received ++ buf ++ rest).length := by
    rw [@List.length_append _ (received ++ buf)]
    exact Nat.lt_add_of_pos_right (List.length_pos_of_ne_nil hrest)
  cases t with
  | config => exact waitForPayload_partial (lt_of_lt_of_eq hlength hreply) hcount
  | dataPath => exact getOutputPath_partial hrest hreply.2 hcount
  | processCtrl => exact waitForPayload_partial (lt_of_lt_of_eq hlength hreply) hcount
  | collectStart => exact absurd hcount (Nat.not_lt.mpr hpos)
  | profFinish => exact absurd hcount (Nat.not_lt.mpr hpos)

theorem exists_isReply (t : ProfPacketType) : ∃ reply, t.IsReply reply := by
  cases t with
  | config => exact ⟨List.replicate _ 0, List.length_replicate⟩
  | dataPath => exact ⟨[newline], rfl, List.not_mem_nil⟩
  | processCtrl => exact ⟨[0], rfl⟩
  | collectStart => exact ⟨suc, List.cons_ne_nil _ _⟩
  | profFinish => exact ⟨suc, List.cons_ne_nil _ _⟩

theorem ne_nil_of_isReply {reply : List UInt8} (h : t.IsReply reply) : reply ≠ [] := by
  rintro rfl
  cases t with
  | config => cases h
  | dataPath => cases h.1
  | processCtrl => cases h
  | collectStart => exact h rfl
  | profFinish => exact h rfl

theorem timeOut_pos (t : ProfPacketType) : 0 < t.timeOut := by
  cases t <;> decide

/-- A `Wait` only ends in the last round that the reads may bring nothing, or with a read that
does not fill the buffer. -/
theorem round_done_cases {ending : ReadEnd} {unread : List UInt8} {w : Locals}
    (hchunk : ∀ n, ending = .chunk n → 1 ≤ n ∧ n ≤ unread.length)
    (hround : round t.timeOut (ending.ret unread) w = .done buf) :
    ¬ (ending.taken = 0 ∧ w.msg = [] ∧ w.count < t.timeOut) ∧ ending.taken ≠ recvBuffSize := by
  by_cases hnothing : (ending.ret unread).getD [] = []
  · have htaken : ending.taken = 0 := by
      cases ending with
      | chunk n =>
        obtain ⟨hpos, hlength⟩ := hchunk n rfl
        have htake : (unread.take n).length = 0 := by
          rw [show unread.take n = [] from hnothing]
          rfl
        rw [List.length_take_of_le hlength] at htake
        omega
      | empty => rfl
      | timedOut => rfl
    rw [htaken]
    refine ⟨fun ⟨_, hfirst⟩ => ?_, by decide⟩
    rcases round_nothing (timeOut_pos t) hnothing w with ⟨-, -, w', hnext, -⟩ | ⟨hlate, -⟩
    · rw [hnext] at hround
      cases hround
    · exact hlate hfirst
  · cases ending with
    | chunk n =>
      obtain ⟨hpos, hlength⟩ := hchunk n rfl
      refine ⟨fun ⟨hzero, _⟩ => absurd hzero (Nat.ne_of_gt hpos), fun hfull => ?_⟩
      rcases round_chunk t.timeOut hnothing w with ⟨-, w', hnext, -⟩ | ⟨hshort, -⟩
      · have hnext' : round t.timeOut ((ReadEnd.chunk n).ret unread) w = .next w' := hnext
        rw [hnext'] at hround
        cases hround
      · exact hshort ((List.length_take_of_le hlength).trans hfull)
    | empty => exact absurd rfl hnothing
    | timedOut => exact absurd rfl hnothing

end Wait

/-! ## What a request has of its reply -/

namespace Connection

/-- Nothing has been sent for the request, or what it has received, what its `Wait` has and what
is unread make up the reply, and it has not received all of it. -/
inductive Waiting (c : Connection) (call : Call) : Prop
  | unanswered (answered : ¬ c.Answered call.request) (received : call.received = [])
      (msg : call.locals.msg = []) (unread : c.inbox.unread = [])
  | answered (r : Reply) (mem : r ∈ c.replies) (request : r.request = call.request)
      (start : r.start = call.start)
      (bytes : call.received ++ (call.locals.msg ++ c.inbox.unread) = r.bytes)
      (rest : call.locals.msg ++ c.inbox.unread ≠ [])

structure Busy (c : Connection) (call : Call) : Prop where
  last : c.requests.length = call.request + 1
  type : c.requests[call.request]? = some call.type
  count : 1 ≤ call.count
  earlier : ∀ k < call.request, c.Answered k
  order : ∀ r ∈ c.replies, r.request < call.request → r.start + r.bytes.length ≤ call.start
  gathered : c.inbox.Gathered call.start (call.received ++ call.locals.msg)
  waiting : c.Waiting call

structure Inv (c : Connection) : Prop where
  replies : ∀ r ∈ c.replies, r.start + r.bytes.length ≤ c.inbox.sent.length ∧
    ∃ type, c.requests[r.request]? = some type ∧ type.IsReply r.bytes
  whole : ∀ t ∈ c.taken, t.request < c.requests.length ∧
    ∃ r ∈ c.replies, r.request = t.request ∧ r.start = t.start ∧ r.bytes = t.bytes
  order : ∀ t ∈ c.taken, ∀ r ∈ c.replies, r.request < t.request →
    r.start + r.bytes.length ≤ t.start
  places : ∀ t ∈ c.taken, c.inbox.Has t.start t.bytes
  idle : c.call = none → c.inbox.unread = [] ∧ ∀ k < c.requests.length, c.Answered k
  busy : ∀ call, c.call = some call → c.Busy call

theorem inv_init : Inv {} where
  replies := fun _ h => by cases h
  whole := fun _ h => by cases h
  order := fun _ h => by cases h
  places := fun _ h => by cases h
  idle := fun _ => ⟨rfl, fun _ h => absurd h (Nat.not_lt_zero _)⟩
  busy := fun _ h => by cases h

/-- What has been consumed of an earlier reply ends where a request begins. -/
theorem Inv.agrees {c : Connection} (h : Inv c) : c.Agrees where
  places := by
    intro t ht
    rcases List.mem_append.mp ht with ht | ht
    · exact h.places t ht
    · obtain ⟨call, hcall, rfl⟩ := List.mem_map.mp ht
      exact (h.busy call (Option.mem_toList.mp hcall)).gathered.has
  own := by
    intro t ht ⟨value, hvalue⟩
    rcases List.mem_append.mp ht with ht | ht
    · exact (h.whole t ht).2
    · obtain ⟨call, -, rfl⟩ := List.mem_map.mp ht
      cases hvalue
  later := by
    intro t ht r hr hlt i _ hend hin
    have hbefore : r.start + r.bytes.length ≤ t.start := by
      rcases List.mem_append.mp ht with ht | ht
      · exact h.order t ht r hr hlt
      · obtain ⟨call, hcall, rfl⟩ := List.mem_map.mp ht
        exact (h.busy call (Option.mem_toList.mp hcall)).order r hr hlt
    omega

/-! ## Requests and replies -/

theorem lt_of_getElem? {c : Connection} {k : ℕ} {type : ProfPacketType}
    (h : c.requests[k]? = some type) : k < c.requests.length :=
  (List.getElem?_eq_some_iff.mp h).1

theorem Inv.request {c : Connection} (h : Inv c) (hcall : c.call = none)
    (type : ProfPacketType) : Inv (c.request type) := by
  obtain ⟨hunread, hanswered⟩ := h.idle hcall
  have hsent : c.inbox.sent.length = c.inbox.position := by
    rw [Inbox.sent, hunread, List.append_nil, Inbox.position]
  constructor
  case replies =>
    intro r hr
    obtain ⟨hend, type', htype, hreply⟩ := h.replies r hr
    refine ⟨hend, type', ?_, hreply⟩
    exact (List.getElem?_append_left (lt_of_getElem? htype)).trans htype
  case whole =>
    intro t ht
    obtain ⟨hlt, hown⟩ := h.whole t ht
    refine ⟨?_, hown⟩
    change t.request < (c.requests ++ [type]).length
    rw [List.length_append]
    exact Nat.lt_add_right _ hlt
  case order => exact h.order
  case places => exact h.places
  case idle => exact fun hnone => by cases hnone
  case busy =>
    intro call hcall'
    cases hcall'
    constructor
    case last => exact List.length_append
    case type => exact List.getElem?_concat_length
    case count => exact Nat.le_refl 1
    case earlier => exact hanswered
    case order => exact fun r hr _ => Nat.le_trans (h.replies r hr).1 (Nat.le_of_eq hsent)
    case gathered => exact c.inbox.gathered_nil
    case waiting =>
      refine .unanswered ?_ rfl rfl hunread
      rintro ⟨r, hr, hlast⟩
      obtain ⟨-, type', htype, -⟩ := h.replies r hr
      exact absurd hlast (Nat.ne_of_lt (lt_of_getElem? htype))

theorem Inv.reply {c : Connection} (h : Inv c) {k : ℕ} {bytes : List UInt8}
    (henabled : c.Enabled (.reply k bytes)) : Inv (c.reply k bytes) := by
  obtain ⟨⟨type, htype, hreply⟩, hfresh⟩ := henabled
  have hk := lt_of_getElem? htype
  -- every earlier request has its reply, so this one is to the request that waits
  obtain ⟨call, hcall⟩ : ∃ call, c.call = some call := by
    refine Option.ne_none_iff_exists'.mp fun hnone => ?_
    exact hfresh ((h.idle hnone).2 k hk)
  have hbusy := h.busy call hcall
  have hlast : k = call.request := by
    have hlength := hbusy.last
    by_contra hne
    exact hfresh (hbusy.earlier k (by omega))
  have hnew : ∀ r ∈ c.replies ++ [⟨k, c.inbox.sent.length, bytes⟩], r.request < call.request →
      r ∈ c.replies := by
    intro r hr hlt
    rcases List.mem_append.mp hr with hr | hr
    · exact hr
    · rw [List.mem_singleton.mp hr, hlast] at hlt
      exact absurd hlt (Nat.lt_irrefl _)
  have hold : ∀ r ∈ c.replies, r ∈ c.replies ++ [⟨k, c.inbox.sent.length, bytes⟩] :=
    fun r hr => List.mem_append_left _ hr
  constructor
  case replies =>
    intro r hr
    change r.start + r.bytes.length ≤ (c.inbox.send bytes).sent.length ∧ _
    rw [Inbox.sent_send, List.length_append]
    rcases List.mem_append.mp hr with hr | hr
    · exact ⟨Nat.le_trans (h.replies r hr).1 (Nat.le_add_right _ _), (h.replies r hr).2⟩
    · rw [List.mem_singleton.mp hr]
      exact ⟨Nat.le_refl _, type, htype, hreply⟩
  case whole =>
    intro t ht
    obtain ⟨hlt, r, hr, hown⟩ := h.whole t ht
    exact ⟨hlt, r, hold r hr, hown⟩
  case order =>
    intro t ht r hr hlt
    have hbound := (h.whole t ht).1
    have hlength := hbusy.last
    exact h.order t ht r (hnew r hr (by omega)) hlt
  case places => exact h.places
  case idle =>
    intro hnone
    rw [show c.call = none from hnone] at hcall
    cases hcall
  case busy =>
    intro call' hcall'
    rw [show c.call = some call' from hcall'] at hcall
    cases hcall
    constructor
    case last => exact hbusy.last
    case type => exact hbusy.type
    case count => exact hbusy.count
    case earlier =>
      intro j hj
      obtain ⟨r, hr, hrequest⟩ := hbusy.earlier j hj
      exact ⟨r, hold r hr, hrequest⟩
    case order => exact fun r hr hlt => hbusy.order r (hnew r hr hlt) hlt
    case gathered => exact hbusy.gathered
    case waiting =>
      cases hbusy.waiting with
      | unanswered answered received msg unread =>
        have hposition := hbusy.gathered.position_eq
        rw [received, msg] at hposition
        have hbytes : call.locals.msg ++ (c.inbox.unread ++ bytes) = bytes := by
          rw [msg, unread]
          rfl
        refine .answered ⟨k, c.inbox.sent.length, bytes⟩
          (List.mem_append_right _ (List.mem_singleton.mpr rfl)) hlast ?_ ?_ ?_
        · change c.inbox.sent.length = call.start
          rw [Inbox.sent, unread, List.append_nil]
          exact hposition
        · change call.received ++ (call.locals.msg ++ (c.inbox.unread ++ bytes)) = bytes
          rw [hbytes, received]
          rfl
        · change call.locals.msg ++ (c.inbox.unread ++ bytes) ≠ []
          rw [hbytes]
          exact ne_nil_of_isReply hreply
      | answered r mem request start bytes rest =>
        exact absurd ⟨r, mem, request.trans hlast.symm⟩ hfresh

/-! ## Reads -/

/-- How a read of a request ends: the request goes on, or it has consumed its reply. -/
inductive ReadStep (c : Connection) (ending : ReadEnd) (call : Call) : Prop
  | goesOn (count : ℕ) (received : List UInt8) (locals : Locals) (pos : 1 ≤ count)
      (step : c.read ending call = { c with
        inbox := c.inbox.skip ending.taken
        call := some { call with count, received, locals } })
      (bytes : received ++ locals.msg =
        call.received ++ call.locals.msg ++ c.inbox.unread.take ending.taken)
      (rest : c.Answered call.request → locals.msg ++ c.inbox.unread.drop ending.taken ≠ [])
      (nothing : call.received = [] → call.locals.msg = [] → c.inbox.unread = [] → received = [])
  | finished (r : Reply) (outcome : Outcome) (mem : r ∈ c.replies)
      (request : r.request = call.request) (start : r.start = call.start)
      (step : c.read ending call = { c with
        inbox := c.inbox.skip ending.taken
        call := none
        taken := c.taken ++ [⟨call.request, call.start, r.bytes, some outcome⟩] })
      (bytes : call.received ++ (call.locals.msg ++ c.inbox.unread.take ending.taken) = r.bytes)
      (unread : c.inbox.unread.drop ending.taken = [])

section Read
variable {c : Connection} {call : Call} {ending : ReadEnd}

theorem chunk_of_enabled (henabled : c.Enabled (.read ending)) (n : ℕ) (h : ending = .chunk n) :
    1 ≤ n ∧ n ≤ c.inbox.unread.length := by
  rw [h] at henabled
  exact ⟨henabled.2.1, henabled.2.2.2⟩

/-- A read that ends a `Wait` with a part of the reply is not one of the last `Wait`. -/
theorem count_lt_of_rest (hcall : c.call = some call) (henabled : c.Enabled (.read ending))
    (hprompt : c.Prompt (.read ending)) {buf : List UInt8}
    (hround : round call.type.timeOut (ending.ret c.inbox.unread) call.locals = .done buf)
    (hrest : c.Answered call.request → c.inbox.unread.drop ending.taken ≠ []) :
    call.count < call.type.maxWaits := by
  obtain ⟨hfirst, hshort⟩ := round_done_cases (chunk_of_enabled henabled) hround
  rcases hprompt call hcall with hcount | hnothing | ⟨hall, hanswered⟩
  · exact hcount
  · exact absurd hnothing hfirst
  · refine absurd (List.drop_of_length_le ?_) (hrest hanswered)
    omega

theorem read_next {locals : Locals} (hbusy : c.Busy call)
    (hround : round call.type.timeOut (ending.ret c.inbox.unread) call.locals = .next locals)
    (hmsg : locals.msg = call.locals.msg ++ c.inbox.unread.take ending.taken) :
    c.ReadStep ending call := by
  refine .goesOn call.count call.received locals hbusy.count ?_ ?_ ?_ fun h _ _ => h
  · rw [read, hround]
  · rw [hmsg, List.append_assoc]
  · intro hanswered
    rw [hmsg, List.append_assoc, List.take_append_drop]
    cases hbusy.waiting with
    | unanswered answered received msg unread => exact absurd hanswered answered
    | answered r mem request start bytes rest => exact rest

theorem read_done (h : Inv c) (hcall : c.call = some call)
    (henabled : c.Enabled (.read ending)) (hprompt : c.Prompt (.read ending))
    (hround : round call.type.timeOut (ending.ret c.inbox.unread) call.locals =
      .done (call.locals.msg ++ c.inbox.unread.take ending.taken)) :
    c.ReadStep ending call := by
  have hbusy := h.busy call hcall
  have hread : c.read ending call = Connection.waited call
      (call.locals.msg ++ c.inbox.unread.take ending.taken)
      { c with inbox := c.inbox.skip ending.taken } := by
    rw [read, hround]
  -- a part of a reply, of which there is more
  have hpartial (rest : List UInt8) (hrest : rest ≠ []) (hreply : call.type.IsReply
      (call.received ++ (call.locals.msg ++ c.inbox.unread.take ending.taken) ++ rest))
      (hmore : c.Answered call.request → c.inbox.unread.drop ending.taken ≠ []) :
      c.ReadStep ending call := by
    have hcount := count_lt_of_rest hcall henabled hprompt hround hmore
    refine .goesOn (call.count + 1)
      (call.received ++ (call.locals.msg ++ c.inbox.unread.take ending.taken)) {}
      (Nat.le_add_left 1 _) ?_ ?_ ?_ ?_
    · rw [hread, Connection.waited, waited_partial hrest hreply hbusy.count hcount]
    · exact (List.append_nil _).trans (List.append_assoc _ _ _).symm
    · exact hmore
    · intro hreceived hmsg hunread
      rw [hreceived, hmsg, hunread, List.take_nil]
      rfl
  cases hbusy.waiting with
  | unanswered answered received msg unread =>
    obtain ⟨reply, hreply⟩ := exists_isReply call.type
    refine hpartial reply (ne_nil_of_isReply hreply) ?_ fun hanswered => absurd hanswered answered
    rw [received, msg, unread, List.take_nil]
    exact hreply
  | answered r mem request start bytes rest =>
    obtain ⟨-, type, htype, hreply⟩ := h.replies r mem
    rw [request, hbusy.type] at htype
    cases htype
    by_cases hunread : c.inbox.unread.drop ending.taken = []
    · have hall : c.inbox.unread.take ending.taken = c.inbox.unread :=
        List.take_of_length_le (List.drop_eq_nil_iff.mp hunread)
      rw [hall] at hread
      have hcomplete := hreply
      rw [← bytes] at hcomplete
      obtain ⟨outcome, houtcome⟩ := @waited_complete _ call.count _ _ hcomplete rest
      refine .finished r outcome mem request start ?_ ?_ hunread
      · rw [hread, Connection.waited, houtcome, ← bytes]
      · rw [hall, bytes]
    · refine hpartial _ hunread ?_ fun _ => hunread
      rw [List.append_assoc, List.append_assoc, List.take_append_drop, bytes]
      exact hreply

theorem readStep (h : Inv c) (hcall : c.call = some call) (henabled : c.Enabled (.read ending))
    (hprompt : c.Prompt (.read ending)) : c.ReadStep ending call := by
  rcases round_msg call.type.timeOut (ending.ret c.inbox.unread) call.locals with
    hround | ⟨locals, hround, hmsg⟩
  · rw [ReadEnd.getD_ret] at hround
    exact read_done h hcall henabled hprompt hround
  · rw [ReadEnd.getD_ret] at hmsg
    exact read_next (h.busy call hcall) hround hmsg

theorem Inv.read (h : Inv c) (hcall : c.call = some call) (henabled : c.Enabled (.read ending))
    (hprompt : c.Prompt (.read ending)) : Inv (c.read ending call) := by
  have hbusy := h.busy call hcall
  have hsent : (c.inbox.skip ending.taken).sent = c.inbox.sent := Inbox.sent_skip _ _
  have hreplies : ∀ r ∈ c.replies,
      r.start + r.bytes.length ≤ (c.inbox.skip ending.taken).sent.length ∧
        ∃ type, c.requests[r.request]? = some type ∧ type.IsReply r.bytes := by
    rw [hsent]
    exact h.replies
  have hplaces : ∀ t ∈ c.taken, (c.inbox.skip ending.taken).Has t.start t.bytes :=
    fun t ht => (h.places t ht).skip _
  have hgathered := hbusy.gathered.skip ending.taken
  cases readStep h hcall henabled hprompt with
  | goesOn count received locals pos step bytes rest nothing =>
    rw [step]
    refine ⟨hreplies, h.whole, h.order, hplaces, fun hnone => (by cases hnone), ?_⟩
    intro call' hcall'
    cases hcall'
    rw [← bytes] at hgathered
    refine ⟨hbusy.last, hbusy.type, pos, hbusy.earlier, hbusy.order, hgathered, ?_⟩
    cases hbusy.waiting with
    | unanswered answered hreceived msg unread =>
      rw [hreceived, msg, unread, List.take_nil] at bytes
      have hboth := List.append_eq_nil_iff.mp bytes
      refine .unanswered answered hboth.1 hboth.2 ?_
      change c.inbox.unread.drop ending.taken = []
      rw [unread, List.drop_nil]
    | answered r mem request start hbytes _ =>
      refine .answered r mem request start ?_ (rest ⟨r, mem, request⟩)
      change received ++ (locals.msg ++ c.inbox.unread.drop ending.taken) = r.bytes
      rw [← List.append_assoc, bytes, List.append_assoc, List.take_append_drop,
        List.append_assoc, hbytes]
  | finished r outcome mem request start step bytes unread =>
    rw [step]
    rw [List.append_assoc, bytes] at hgathered
    refine ⟨hreplies, ?_, ?_, ?_, fun _ => ⟨unread, ?_⟩, fun call' hcall' => by cases hcall'⟩
    · intro t ht
      rcases List.mem_append.mp ht with ht | ht
      · exact h.whole t ht
      · rw [List.mem_singleton.mp ht]
        exact ⟨lt_of_getElem? hbusy.type, r, mem, request, start, rfl⟩
    · intro t ht r' hr' hlt
      rcases List.mem_append.mp ht with ht | ht
      · exact h.order t ht r' hr' hlt
      · rw [List.mem_singleton.mp ht] at hlt ⊢
        exact hbusy.order r' hr' hlt
    · intro t ht
      rcases List.mem_append.mp ht with ht | ht
      · exact hplaces t ht
      · rw [List.mem_singleton.mp ht]
        exact hgathered.has
    · intro k hk
      have hlast : c.requests.length = call.request + 1 := hbusy.last
      change k < c.requests.length at hk
      by_cases hk' : k < call.request
      · exact hbusy.earlier k hk'
      · exact ⟨r, mem, by omega⟩

end Read

/-! ## Runs -/

theorem Inv.step {c : Connection} (h : Inv c) {e : Event} (henabled : c.Enabled e)
    (hprompt : c.Prompt e) : Inv (c.step e) := by
  cases e with
  | request type => exact h.request henabled type
  | reply k bytes => exact h.reply henabled
  | read ending =>
    cases hcall : c.call with
    | none =>
      have hstep : c.step (.read ending) = c := by rw [Connection.step, hcall]
      rw [hstep]
      exact h
    | some call =>
      have hstep : c.step (.read ending) = c.read ending call := by rw [Connection.step, hcall]
      rw [hstep]
      exact h.read hcall henabled hprompt

/-- Where no request is in its last `Wait` when a read brings only a part of its reply, or finds
nothing for too long, requests and replies agree in every state. -/
theorem replies_agree {events : List Event} (henabled : Guarded step Enabled {} events)
    (hprompt : Guarded step Prompt {} events) : (events.foldl step {}).Agrees := by
  have hguard : Guarded step (fun c e => Enabled c e ∧ Prompt c e) {} events :=
    guarded_and.mpr ⟨henabled, hprompt⟩
  exact (hguard.invariant (fun _ _ h hg => h.step hg.1 hg.2) inv_init).agrees

/-- A line in two pieces, the second of which comes late, and then a word. -/
def promptRun : List Event :=
  [.request .dataPath, .reply 0 [47, 97, newline], .read (.chunk 1), .read .timedOut,
    .read .timedOut, .read (.chunk 2), .request .profFinish, .read .timedOut, .reply 1 suc,
    .read (.chunk 3)]

theorem replies_agree_promptRun : (promptRun.foldl step {}).Agrees :=
  replies_agree (by decide) (by decide)

/-- The word comes in two pieces. -/
def splitWord : List Event :=
  [.request .collectStart, .reply 0 suc, .read (.chunk 1), .request .processCtrl, .read (.chunk 2)]

theorem splitWord_not_agrees :
    ¬ ∀ events : List Event, Guarded step Enabled {} events → (events.foldl step {}).Agrees := by
  intro h
  have hagrees := h splitWord (by decide)
  have hown := hagrees.own ⟨1, 1, [85, 67], some ⟨true, [85]⟩⟩ (by decide) ⟨_, rfl⟩
  revert hown
  decide

end Connection

end Msopcom.ProfConfigReplies
