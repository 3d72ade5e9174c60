import Msopcom.ServerAccept
import Msopcom.LocalProcess
import Msopcom.KeyedList
import Msopcom.Inbox
import Mathlib.Logic.Function.Basic

set_option autoImplicit false

/-!
# The clients of the socket server

One thread accepts the clients and calls the connect hook, and one thread for each client reads
what it sends and calls the message handler. The connections stand in the queue of the socket in
the order of their numbers.
-/
namespace Msopcom.SocketServer
open KeyedList
open ServerAccept (Fd Ucred Attempt)
open LocalProcess (ReadEnd domainSocketRead)

/-- The calls of the two hooks. -/
inductive Call
  | connect (clientId : ℕ)
  | handle (clientId : ℕ) (msg : List UInt8)
  deriving DecidableEq, Repr

/-- Which hooks are set. -/
structure Hooks where
  clientConnectHook : Bool := true
  clientMsgHandlerHook : Bool := true

/-- The string of a thread that reads, and whether it has been read for the handler. -/
structure Reader where
  msg : List UInt8 := []
  received : Bool := false
  deriving DecidableEq, Repr

/-- The kernel has a connection behind each open descriptor. The thread that accepts may be on its
way to the connect hook. -/
structure State where
  socket : ServerAccept.Server
  isRunning : Bool := true
  files : AList (fun _ : Fd => ℕ) := ∅
  inboxes : ℕ → Inbox UInt8 := fun _ => { unread := [] }
  readWorker : AList (fun _ : ℕ => Reader) := ∅
  accepted : Option ℕ := none
  calls : List Call := []

inductive Event
  | send (connection : ℕ) (bytes : List UInt8)
  | accept (attempt : Attempt)
  | connect
  | read (clientId : ℕ) (ending : ReadEnd)
  | handle (clientId : ℕ)
  | stop
  deriving DecidableEq

/-- The next connection is behind the descriptor until it is closed. -/
def Attempt.files (attempt : Attempt) (connection : ℕ) (files : AList fun _ : Fd => ℕ) :
    AList fun _ : Fd => ℕ :=
  match attempt.accept with
  | none => files
  | some cfd =>
    let files := files.insert cfd connection
    if !attempt.setsockopt then files.erase cfd else files

/-- A pass of the loop that accepts, up to the connect hook. -/
def acceptClient (process : Ucred) (hooks : Hooks) (attempt : Attempt) (s : State) : State :=
  if !(s.isRunning && decide (s.socket.cfds.length < s.socket.maxClientNum)) then s
  else
    let files := Attempt.files attempt s.socket.accepted.length s.files
    match s.socket.accept process attempt with
    | (none, socket) => { s with socket, files }
    | (some clientId, socket) =>
      { s with
        socket, files
        readWorker :=
          if hooks.clientMsgHandlerHook then s.readWorker.insert clientId {} else s.readWorker
        accepted := some clientId }

def connectHook (hooks : Hooks) (s : State) : State :=
  match s.accepted with
  | none => s
  | some clientId =>
    { s with
      accepted := none
      calls := if hooks.clientConnectHook then s.calls ++ [.connect clientId] else s.calls }

def maxSize : ℕ := 1024

/-- `ret` is what the system call has put into the buffer. -/
def domainSocketServerRead (cfds : List Fd) (id : ℕ) (ret : Option (List UInt8))
    (message : List UInt8) (receivedBytes : ℕ) : LocalProcess.SocketRead :=
  match cfds[id]? with
  | none => ⟨false, message, receivedBytes⟩
  | some cfd =>
    if cfd = -1 then ⟨false, message, receivedBytes⟩
    else domainSocketRead ret message receivedBytes

def socketServerRead (cfds : List Fd) (clientId : ℕ) (ret : Option (List UInt8))
    (msg : List UInt8) : ℤ × List UInt8 :=
  let read := domainSocketServerRead cfds clientId ret msg 0
  if !read.ok then (-1, read.message) else (read.receivedBytes, read.message)

/-- The connection that a client has come on. -/
def State.connection (s : State) (clientId : ℕ) : Option ℕ :=
  s.socket.cfds[clientId]?.bind s.files.lookup

def State.unread (s : State) (clientId : ℕ) : List UInt8 :=
  (s.connection clientId).elim [] fun p => (s.inboxes p).unread

/-- The bytes of a read are gone from the connection. -/
def State.take (s : State) (clientId : ℕ) (n : ℕ) : ℕ → Inbox UInt8 :=
  match s.connection clientId with
  | none => s.inboxes
  | some p => Function.update s.inboxes p ((s.inboxes p).skip n)

/-- A pass of the loop that listens to a client, up to the handler. -/
def listenRead (clientId : ℕ) (ending : ReadEnd) (s : State) : State :=
  match s.readWorker.lookup clientId with
  | none => s
  | some reader =>
    if !s.isRunning then s
    else
      let (len, msg) :=
        socketServerRead s.socket.cfds clientId (ending.ret (s.unread clientId)) reader.msg
      { s with
        inboxes := s.take clientId ending.taken
        readWorker := s.readWorker.insert clientId ⟨msg, !decide (len ≤ 0)⟩ }

def listenHandle (clientId : ℕ) (s : State) : State :=
  match s.readWorker.lookup clientId with
  | none => s
  | some reader =>
    if !reader.received then s
    else
      { s with
        readWorker := s.readWorker.insert clientId { reader with received := false }
        calls := s.calls ++ [.handle clientId reader.msg] }

def step (process : Ucred) (hooks : Hooks) (s : State) : Event → State
  | .send p bytes => { s with inboxes := Function.update s.inboxes p ((s.inboxes p).send bytes) }
  | .accept attempt => acceptClient process hooks attempt s
  | .connect => connectHook hooks s
  | .read clientId ending => listenRead clientId ending s
  | .handle clientId => listenHandle clientId s
  | .stop => { s with isRunning := false }

def start (maxClientNum : ℕ) : State where
  socket := { maxClientNum }

/-- What a thread has read for the handler. -/
def State.inHand (s : State) (clientId : ℕ) : List UInt8 :=
  match s.readWorker.lookup clientId with
  | none => []
  | some reader => if reader.received then reader.msg else []

/-- A thread is in its hook or at the next call. A new descriptor is one that is not open, and a
read takes some of what is there. -/
def Enabled (s : State) : Event → Prop
  | .accept attempt => s.accepted = none ∧ ∀ cfd ∈ attempt.accept, cfd ≠ -1 ∧ cfd ∉ s.files
  | .read clientId ending =>
    (∀ reader ∈ s.readWorker.lookup clientId, reader.received = false) ∧
      ending.taken ≤ maxSize ∧ ending.taken ≤ (s.unread clientId).length
  | _ => True

instance : DecidableRel Enabled
  | s, .accept attempt =>
    have : Decidable (∀ cfd ∈ attempt.accept, cfd ≠ -1 ∧ cfd ∉ s.files) :=
      Option.decidableForallMem attempt.accept
    inferInstanceAs (Decidable (s.accepted = none ∧
      ∀ cfd ∈ attempt.accept, cfd ≠ -1 ∧ cfd ∉ s.files))
  | s, .read clientId ending => inferInstanceAs (Decidable (
      (∀ reader ∈ s.readWorker.lookup clientId, reader.received = false) ∧
        ending.taken ≤ maxSize ∧ ending.taken ≤ (s.unread clientId).length))
  | _, .send _ _ => isTrue trivial
  | _, .connect => isTrue trivial
  | _, .handle _ => isTrue trivial
  | _, .stop => isTrue trivial

/-- What the handler has been called with for a client. -/
def handledOf (clientId : ℕ) (calls : List Call) : List (List UInt8) :=
  calls.filterMap fun
    | .connect _ => none
    | .handle id msg => if id = clientId then some msg else none

/-- What has been sent on a connection. -/
def sentOn (p : ℕ) (events : List Event) : List UInt8 :=
  events.flatMap fun
    | .send p' bytes => if p' = p then bytes else []
    | _ => []

def connects (calls : List Call) : List ℕ :=
  calls.filterMap fun
    | .connect id => some id
    | .handle _ _ => none

/-! ## Accepting -/

section Accept
variable (process : Ucred) (attempt : Attempt)

/-- A client gets the next id, or there is none. -/
theorem accept_cases (s : ServerAccept.Server) (hroom : s.cfds.length < s.maxClientNum) :
    (s.accept process attempt).1 = none ∧ (s.accept process attempt).2.cfds = s.cfds ∨
      ∃ cfd, attempt.accept = some cfd ∧ attempt.setsockopt = true ∧
        (s.accept process attempt).1 = some s.cfds.length ∧
        (s.accept process attempt).2.cfds = s.cfds ++ [cfd] := by
  unfold ServerAccept.Server.accept
  rw [if_neg (not_le.mpr hroom)]
  cases haccept : attempt.accept with
  | none => exact .inl ⟨rfl, rfl⟩
  | some cfd =>
    cases hset : attempt.setsockopt with
    | false => exact .inl ⟨rfl, rfl⟩
    | true =>
      cases attempt.getsockopt with
      | none => exact .inl ⟨rfl, rfl⟩
      | some cred =>
        dsimp only [Bool.not_true]
        split_ifs with hids hcred
        · exact absurd hids Bool.false_ne_true
        · exact .inl ⟨rfl, rfl⟩
        · exact .inr ⟨cfd, rfl, rfl, rfl, rfl⟩

theorem accept_counts (s : ServerAccept.Server) (hroom : s.cfds.length < s.maxClientNum) :
    (s.accept process attempt).2.accepted.length =
        s.accepted.length + (if attempt.accept.isSome then 1 else 0) ∧
      (s.accept process attempt).2.maxClientNum = s.maxClientNum := by
  unfold ServerAccept.Server.accept
  rw [if_neg (not_le.mpr hroom)]
  cases attempt.accept with
  | none => exact ⟨rfl, rfl⟩
  | some cfd =>
    cases attempt.setsockopt with
    | false => exact ⟨rfl, rfl⟩
    | true =>
      cases attempt.getsockopt with
      | none => exact ⟨rfl, rfl⟩
      | some cred =>
        by_cases hids : process.uid ≠ cred.uid ∨ process.gid ≠ cred.gid
        · simp [hids]
        · simp [hids]

theorem lookup_files (connection : ℕ) (files : AList fun _ : Fd => ℕ) (fd : Fd) :
    (Attempt.files attempt connection files).lookup fd =
      if attempt.accept = some fd then if attempt.setsockopt then some connection else none
      else files.lookup fd := by
  unfold Attempt.files
  cases attempt.accept with
  | none => rfl
  | some cfd =>
    dsimp only
    by_cases hfd : cfd = fd
    · subst hfd
      cases attempt.setsockopt <;> simp [AList.lookup_erase]
    · have hne : fd ≠ cfd := Ne.symm hfd
      cases attempt.setsockopt <;> simp [hfd, hne, AList.lookup_insert_ne, AList.lookup_erase_ne]

end Accept

/-! ## Reading -/

/-- What a read has taken is handed on, if it is something. -/
theorem socketServerRead_eq {cfds : List Fd} {id : ℕ} {cfd : Fd} (h : cfds[id]? = some cfd)
    (hopen : cfd ≠ -1) (ending : ReadEnd) (unread msg : List UInt8) :
    ((socketServerRead cfds id (ending.ret unread) msg).1 ≤ 0 ↔ unread.take ending.taken = []) ∧
      (unread.take ending.taken ≠ [] →
        (socketServerRead cfds id (ending.ret unread) msg).2 = unread.take ending.taken) := by
  unfold socketServerRead domainSocketServerRead
  rw [h]
  dsimp only
  rw [if_neg hopen]
  cases ending with
  | chunk n =>
    simp only [ReadEnd.ret, ReadEnd.taken, domainSocketRead]
    generalize unread.take n = bytes
    cases bytes with
    | nil => simp
    | cons b bytes => simp
  | empty => simp [ReadEnd.ret, ReadEnd.taken, domainSocketRead]
  | timedOut => simp [ReadEnd.ret, ReadEnd.taken, domainSocketRead]

/-! ## The readers -/

theorem handledOf_append (id : ℕ) (calls calls' : List Call) :
    handledOf id (calls ++ calls') = handledOf id calls ++ handledOf id calls' :=
  List.filterMap_append

theorem handledOf_connect (id clientId : ℕ) (calls : List Call) :
    handledOf id (calls ++ [.connect clientId]) = handledOf id calls := by
  rw [handledOf_append]
  exact List.append_nil _

theorem handledOf_handle (id clientId : ℕ) (msg : List UInt8) (calls : List Call) :
    handledOf id (calls ++ [.handle clientId msg]) =
      handledOf id calls ++ if clientId = id then [msg] else [] := by
  rw [handledOf_append]
  by_cases hid : clientId = id
  · simp [handledOf, hid]
  · simp [handledOf, hid]

/-- Clients are numbered as their connections are, and what a client has sent is with the handler,
with the thread that reads, or unread, in this order. -/
structure Inv (sent : ℕ → List UInt8) (s : State) : Prop where
  files : ∀ fd p, s.files.lookup fd = some p → p < s.socket.accepted.length
  openFiles : ∀ (id : ℕ) (cfd : Fd), s.socket.cfds[id]? = some cfd →
    cfd ≠ -1 ∧ ∃ p, s.files.lookup cfd = some p
  order : ∀ i j p q, i < j → s.connection i = some p → s.connection j = some q → p < q
  readers : ∀ id reader, s.readWorker.lookup id = some reader → id < s.socket.cfds.length
  sent : ∀ p, (s.inboxes p).sent = sent p
  heard : ∀ id p, s.connection id = some p →
    (handledOf id s.calls).flatten ++ s.inHand id = (s.inboxes p).read
  unheard : ∀ p, s.socket.accepted.length ≤ p → (s.inboxes p).read = []
  unknown : ∀ id, s.socket.cfds.length ≤ id → handledOf id s.calls = []
  chunks : ∀ id, ∀ msg ∈ handledOf id s.calls, msg ≠ [] ∧ msg.length ≤ maxSize
  inHand : ∀ id reader, s.readWorker.lookup id = some reader → reader.received = true →
    reader.msg ≠ [] ∧ reader.msg.length ≤ maxSize

theorem inv_start (maxClientNum : ℕ) : Inv (fun _ => []) (start maxClientNum) := by
  constructor
  case files => intro fd p h; cases h
  case openFiles => intro id cfd h; cases h
  case order => intro i j p q _ h; cases h
  case readers => intro id reader h; cases h
  case sent => intro p; rfl
  case heard => intro id p h; cases h
  case unheard => intro p _; rfl
  case unknown => intro id _; rfl
  case chunks => intro id msg h; cases h
  case inHand => intro id reader h; cases h

section Steps
variable {sent : ℕ → List UInt8} {s : State} (h : Inv sent s)
include h

theorem connection_some {id : ℕ} (hid : id < s.socket.cfds.length) :
    ∃ cfd p, s.socket.cfds[id]? = some cfd ∧ cfd ≠ -1 ∧ s.files.lookup cfd = some p ∧
      s.connection id = some p := by
  have hcfd : s.socket.cfds[id]? = some s.socket.cfds[id] := List.getElem?_eq_getElem hid
  obtain ⟨hne, p, hp⟩ := h.openFiles id _ hcfd
  exact ⟨s.socket.cfds[id], p, hcfd, hne, hp, by rw [State.connection, hcfd]; exact hp⟩

theorem connection_injective {i j : ℕ} {p : ℕ} (hi : s.connection i = some p)
    (hj : s.connection j = some p) : i = j := by
  rcases Nat.lt_trichotomy i j with hlt | heq | hgt
  · exact absurd (h.order i j p p hlt hi hj) (lt_irrefl p)
  · exact heq
  · exact absurd (h.order j i p p hgt hj hi) (lt_irrefl p)

theorem Inv.send (p : ℕ) (bytes : List UInt8) :
    Inv (Function.update sent p (sent p ++ bytes))
      { s with inboxes := Function.update s.inboxes p ((s.inboxes p).send bytes) } := by
  have hread : ∀ q, (Function.update s.inboxes p ((s.inboxes p).send bytes) q).read =
      (s.inboxes q).read := by
    intro q
    by_cases hq : q = p
    · rw [hq, Function.update_self]
      rfl
    · rw [Function.update_of_ne hq]
  constructor
  case files => exact h.files
  case openFiles => exact h.openFiles
  case order => exact h.order
  case readers => exact h.readers
  case sent =>
    intro q
    dsimp only
    by_cases hq : q = p
    · rw [hq, Function.update_self, Function.update_self, Inbox.sent_send, h.sent]
    · rw [Function.update_of_ne hq, Function.update_of_ne hq, h.sent]
  case heard => exact fun id q hq => (h.heard id q hq).trans (hread q).symm
  case unheard => exact fun q hq => (hread q).trans (h.unheard q hq)
  case unknown => exact h.unknown
  case chunks => exact h.chunks
  case inHand => exact h.inHand

theorem Inv.connect (hooks : Hooks) : Inv sent (connectHook hooks s) := by
  unfold connectHook
  cases s.accepted with
  | none => exact h
  | some clientId =>
    have hcalls : ∀ id, handledOf id
        (if hooks.clientConnectHook then s.calls ++ [.connect clientId] else s.calls) =
          handledOf id s.calls := by
      intro id
      split_ifs
      · exact handledOf_connect id clientId s.calls
      · rfl
    constructor
    case files => exact h.files
    case openFiles => exact h.openFiles
    case order => exact h.order
    case readers => exact h.readers
    case sent => exact h.sent
    case heard => intro id p hp; rw [hcalls]; exact h.heard id p hp
    case unheard => exact h.unheard
    case unknown => intro id hid; rw [hcalls]; exact h.unknown id hid
    case chunks => intro id; rw [hcalls]; exact h.chunks id
    case inHand => exact h.inHand

/-- The connections stay behind the descriptors that are not new. -/
theorem lookup_files_old (attempt : Attempt) {id : ℕ} {cfd : Fd}
    (hcfd : s.socket.cfds[id]? = some cfd) (hnew : ∀ fd ∈ attempt.accept, fd ≠ -1 ∧ fd ∉ s.files) :
    (Attempt.files attempt s.socket.accepted.length s.files).lookup cfd = s.files.lookup cfd := by
  obtain ⟨_, p, hp⟩ := h.openFiles id cfd hcfd
  rw [lookup_files, if_neg]
  intro haccept
  have hnone := AList.lookup_eq_none.mpr (hnew cfd haccept).2
  rw [hp] at hnone
  cases hnone

section Files
variable {socket : ServerAccept.Server} {files : AList fun _ : Fd => ℕ}
  (hfiles : ∀ fd p, files.lookup fd = some p → p < socket.accepted.length)
  (hold : ∀ (id : ℕ) (cfd : Fd), s.socket.cfds[id]? = some cfd →
    files.lookup cfd = s.files.lookup cfd)
  (hunheard : ∀ p, socket.accepted.length ≤ p → (s.inboxes p).read = [])
include hfiles hold hunheard

/-- No client has come; a descriptor may be open that nobody reads. -/
theorem Inv.noClient (hcfds : socket.cfds = s.socket.cfds) :
    Inv sent { s with socket, files } := by
  have hconnection : ∀ id, ({ s with socket, files } : State).connection id = s.connection id := by
    intro id
    unfold State.connection
    dsimp only
    rw [hcfds]
    cases hcfd : s.socket.cfds[id]? with
    | none => rfl
    | some cfd => exact hold id cfd hcfd
  constructor
  case files => exact hfiles
  case openFiles =>
    intro id cfd hcfd
    dsimp only at hcfd ⊢
    rw [hcfds] at hcfd
    rw [hold id cfd hcfd]
    exact h.openFiles id cfd hcfd
  case order => intro i j p q; rw [hconnection, hconnection]; exact h.order i j p q
  case readers => intro id reader hreader; exact hcfds ▸ h.readers id reader hreader
  case sent => exact h.sent
  case heard => intro id p; rw [hconnection]; exact h.heard id p
  case unheard => exact hunheard
  case unknown => intro id hid; exact h.unknown id (hcfds ▸ hid)
  case chunks => exact h.chunks
  case inHand => exact h.inHand

/-- A client has come on the next connection; nothing of it has been read. -/
theorem Inv.newClient {cfd : Fd} (hcfds : socket.cfds = s.socket.cfds ++ [cfd]) (hne : cfd ≠ -1)
    (hlookup : files.lookup cfd = some s.socket.accepted.length) (handler : Bool) :
    Inv sent { s with
      socket, files
      readWorker := if handler then s.readWorker.insert s.socket.cfds.length {} else s.readWorker
      accepted := some s.socket.cfds.length } := by
  generalize hs' : ({ s with
      socket, files
      readWorker := if handler then s.readWorker.insert s.socket.cfds.length {} else s.readWorker
      accepted := some s.socket.cfds.length } : State) = s'
  have hconnection : ∀ id, s'.connection id =
      if id = s.socket.cfds.length then some s.socket.accepted.length else s.connection id := by
    intro id
    unfold State.connection
    rw [← hs']
    dsimp only
    rw [hcfds]
    by_cases hid : id = s.socket.cfds.length
    · rw [if_pos hid, hid, List.getElem?_concat_length]
      exact hlookup
    · rw [if_neg hid, List.getElem?_append]
      by_cases hlt : id < s.socket.cfds.length
      · rw [if_pos hlt, List.getElem?_eq_getElem hlt]
        exact hold id _ (List.getElem?_eq_getElem hlt)
      · have hge : s.socket.cfds.length ≤ id := Nat.le_of_not_lt hlt
        have hpos : 1 ≤ id - s.socket.cfds.length := by omega
        rw [if_neg hlt, List.getElem?_eq_none hge, List.getElem?_eq_none (by simpa using hpos)]
        rfl
  have hreader : ∀ id reader, s'.readWorker.lookup id = some reader →
      reader = {} ∧ id = s.socket.cfds.length ∨ s.readWorker.lookup id = some reader := by
    intro id reader hreader
    rw [← hs'] at hreader
    dsimp only at hreader
    split_ifs at hreader
    · rw [lookup_insert_eq] at hreader
      split_ifs at hreader with hid
      · exact .inl ⟨(Option.some.inj hreader).symm, hid⟩
      · exact .inr hreader
    · exact .inr hreader
  have hnone : s.readWorker.lookup s.socket.cfds.length = none := by
    cases hlast : s.readWorker.lookup s.socket.cfds.length with
    | none => rfl
    | some reader => exact absurd (h.readers _ reader hlast) (Nat.lt_irrefl _)
  have hinHand : ∀ id, s'.inHand id = s.inHand id := by
    intro id
    unfold State.inHand
    rw [← hs']
    dsimp only
    cases handler with
    | false => rfl
    | true =>
      rw [if_pos rfl, lookup_insert_eq]
      by_cases hid : id = s.socket.cfds.length
      · rw [if_pos hid, hid, hnone]
        rfl
      · rw [if_neg hid]
  have hcalls : s'.calls = s.calls := by rw [← hs']
  have hinboxes : s'.inboxes = s.inboxes := by rw [← hs']
  have hcfds' : s'.socket.cfds = s.socket.cfds ++ [cfd] := by rw [← hs']; exact hcfds
  constructor
  case files => rw [← hs']; exact hfiles
  case openFiles =>
    intro id cfd' hcfd
    rw [hcfds', List.getElem?_append] at hcfd
    rw [← hs']
    dsimp only
    split_ifs at hcfd with hlt
    · rw [hold id cfd' hcfd]
      exact h.openFiles id cfd' hcfd
    · have hmem := List.mem_of_getElem? hcfd
      rw [List.mem_singleton.mp hmem]
      exact ⟨hne, _, hlookup⟩
  case order =>
    intro i j p q hij hp hq
    rw [hconnection] at hp hq
    have hlt : s.connection i = some p → p < s.socket.accepted.length := by
      intro hi
      obtain ⟨cfd, _, hcfd⟩ := Option.bind_eq_some_iff.mp hi
      exact h.files cfd p hcfd
    split_ifs at hp hq with hi hj hj
    · omega
    · have hnone : s.connection j = none := by
        rw [State.connection, List.getElem?_eq_none (by omega)]
        rfl
      rw [hnone] at hq
      cases hq
    · exact Option.some.inj hq ▸ hlt hp
    · exact h.order i j p q hij hp hq
  case readers =>
    intro id reader hlookup
    rw [hcfds', List.length_append]
    rcases hreader id reader hlookup with ⟨_, hid⟩ | hold'
    · simp [hid]
    · exact Nat.lt_succ_of_lt (h.readers id reader hold')
  case sent => rw [hinboxes]; exact h.sent
  case heard =>
    intro id p hp
    rw [hconnection] at hp
    rw [hcalls, hinboxes, hinHand]
    split_ifs at hp with hid
    · rw [hid, h.unknown _ le_rfl, State.inHand, hnone, ← Option.some.inj hp,
        h.unheard _ le_rfl]
      rfl
    · exact h.heard id p hp
  case unheard => rw [← hs']; exact hunheard
  case unknown =>
    intro id hid
    rw [hcfds', List.length_append] at hid
    rw [hcalls]
    exact h.unknown id (Nat.le_of_succ_le hid)
  case chunks => rw [hcalls]; exact h.chunks
  case inHand =>
    intro id reader hlookup hreceived
    rcases hreader id reader hlookup with ⟨hnew, _⟩ | hold'
    · rw [hnew] at hreceived
      cases hreceived
    · exact h.inHand id reader hold' hreceived

end Files

theorem Inv.accept (process : Ucred) (hooks : Hooks) (attempt : Attempt)
    (hnew : ∀ fd ∈ attempt.accept, fd ≠ -1 ∧ fd ∉ s.files) :
    Inv sent (acceptClient process hooks attempt s) := by
  unfold acceptClient
  by_cases hroom : (s.isRunning && decide (s.socket.cfds.length < s.socket.maxClientNum)) = true
  case neg =>
    rw [Bool.not_eq_true] at hroom
    rw [hroom, Bool.not_false, if_pos rfl]
    exact h
  rw [hroom, Bool.not_true, if_neg Bool.false_ne_true]
  have hroom' := of_decide_eq_true (Bool.and_eq_true_iff.mp hroom).2
  have hlength := (accept_counts process attempt s.socket hroom').1
  have hcases := accept_cases process attempt s.socket hroom'
  have hold : ∀ (id : ℕ) (cfd : Fd), s.socket.cfds[id]? = some cfd →
      (Attempt.files attempt s.socket.accepted.length s.files).lookup cfd = s.files.lookup cfd :=
    fun id cfd hcfd => lookup_files_old h attempt hcfd hnew
  have hfiles : ∀ fd p,
      (Attempt.files attempt s.socket.accepted.length s.files).lookup fd = some p →
        p < (s.socket.accept process attempt).2.accepted.length := by
    intro fd p hp
    rw [lookup_files] at hp
    rw [hlength]
    split_ifs at hp with haccept hset
    · cases hp
      simp [haccept]
    · exact Nat.lt_of_lt_of_le (h.files fd p hp) (Nat.le_add_right _ _)
  have hunheard : ∀ p, (s.socket.accept process attempt).2.accepted.length ≤ p →
      (s.inboxes p).read = [] := by
    intro p hp
    rw [hlength] at hp
    exact h.unheard p (Nat.le_trans (Nat.le_add_right _ _) hp)
  dsimp only
  generalize s.socket.accept process attempt = result at *
  obtain ⟨clientId, socket⟩ := result
  dsimp only at *
  rcases hcases with ⟨rfl, hcfds⟩ | ⟨cfd, haccept, hset, rfl, hcfds⟩
  · exact h.noClient hfiles hold hunheard hcfds
  · have hlookup : (Attempt.files attempt s.socket.accepted.length s.files).lookup cfd =
        some s.socket.accepted.length := by
      rw [lookup_files, if_pos haccept, if_pos hset]
    exact h.newClient hfiles hold hunheard hcfds (hnew cfd haccept).1 hlookup _

/-- What is given to the handler. -/
def Reader.inHand (reader : Reader) : List UInt8 := if reader.received then reader.msg else []

omit h in
theorem inHand_insert (id id' : ℕ) (reader : Reader) :
    State.inHand { s with readWorker := s.readWorker.insert id reader } id' =
      if id' = id then reader.inHand else s.inHand id' := by
  unfold State.inHand
  dsimp only
  rw [lookup_insert_eq]
  by_cases hid : id' = id
  · rw [if_pos hid, if_pos hid]
    rfl
  · rw [if_neg hid, if_neg hid]

theorem readers_insert {id : ℕ} {reader : Reader} (hreader : s.readWorker.lookup id = some reader)
    (reader' : Reader) (id' : ℕ) (r : Reader)
    (hr : (s.readWorker.insert id reader').lookup id' = some r) :
    id' < s.socket.cfds.length := by
  rw [lookup_insert_eq] at hr
  split_ifs at hr with hid
  · rw [hid]
    exact h.readers id reader hreader
  · exact h.readers id' r hr

/-- The bytes that a thread takes from its connection are in its hands. -/
theorem Inv.take {id p n : ℕ} {reader reader' : Reader}
    (hreader : s.readWorker.lookup id = some reader) (hidle : reader.received = false)
    (hp : s.connection id = some p) (hn : n ≤ maxSize)
    (hbytes : reader'.inHand = (s.inboxes p).unread.take n)
    (hne : reader'.received = true → reader'.msg ≠ []) :
    Inv sent { s with
      inboxes := Function.update s.inboxes p ((s.inboxes p).skip n)
      readWorker := s.readWorker.insert id reader' } := by
  have hnone : s.inHand id = [] := by
    rw [State.inHand, hreader]
    dsimp only
    rw [hidle, if_neg Bool.false_ne_true]
  constructor
  case files => exact h.files
  case openFiles => exact h.openFiles
  case order => exact h.order
  case readers => exact readers_insert h hreader reader'
  case sent =>
    intro q
    dsimp only
    by_cases hq : q = p
    · rw [hq, Function.update_self, Inbox.sent_skip, h.sent]
    · rw [Function.update_of_ne hq, h.sent]
  case heard =>
    intro id' q hq
    have hheard := h.heard id' q hq
    change (handledOf id' s.calls).flatten ++
      State.inHand { s with readWorker := s.readWorker.insert id reader' } id' = _
    rw [inHand_insert]
    dsimp only
    by_cases hid : id' = id
    · have hqp : q = p := Option.some.inj (hq.symm.trans (hid ▸ hp))
      rw [if_pos hid, hqp, Function.update_self, hbytes]
      rw [hid, hnone, List.append_nil, hqp] at hheard
      rw [hid, hheard]
      rfl
    · have hqp : q ≠ p := by
        intro hqp
        subst hqp
        exact hid (connection_injective h hq hp)
      rw [if_neg hid, Function.update_of_ne hqp]
      exact hheard
  case unheard =>
    intro q hq
    dsimp only
    have hqp : q ≠ p := by
      obtain ⟨cfd, _, hcfd⟩ := Option.bind_eq_some_iff.mp hp
      exact Nat.ne_of_gt (Nat.lt_of_lt_of_le (h.files cfd p hcfd) hq)
    rw [Function.update_of_ne hqp]
    exact h.unheard q hq
  case unknown => exact h.unknown
  case chunks => exact h.chunks
  case inHand =>
    intro id' r hr hreceived
    dsimp only at hr
    rw [lookup_insert_eq] at hr
    split_ifs at hr
    · cases hr
      have hmsg : reader'.msg = (s.inboxes p).unread.take n := by
        rw [← hbytes, Reader.inHand, if_pos hreceived]
      refine ⟨hne hreceived, ?_⟩
      rw [hmsg, List.length_take]
      exact Nat.le_trans (Nat.min_le_left _ _) hn
    · exact h.inHand id' r hr hreceived

theorem Inv.read (id : ℕ) (ending : ReadEnd)
    (hguard : (∀ reader ∈ s.readWorker.lookup id, reader.received = false) ∧
      ending.taken ≤ maxSize ∧ ending.taken ≤ (s.unread id).length) :
    Inv sent (listenRead id ending s) := by
  unfold listenRead
  cases hreader : s.readWorker.lookup id with
  | none => exact h
  | some reader =>
    cases hrunning : s.isRunning with
    | false => exact h
    | true =>
      obtain ⟨cfd, p, hcfd, hne, _, hp⟩ := connection_some h (h.readers id reader hreader)
      have hunread : s.unread id = (s.inboxes p).unread := by rw [State.unread, hp]; rfl
      have htake : s.take id ending.taken =
          Function.update s.inboxes p ((s.inboxes p).skip ending.taken) := by rw [State.take, hp]
      obtain ⟨hlen, hmsg⟩ := socketServerRead_eq hcfd hne ending (s.unread id) reader.msg
      dsimp only
      rw [Bool.not_true, if_neg Bool.false_ne_true, htake]
      generalize socketServerRead s.socket.cfds id (ending.ret (s.unread id)) reader.msg = result at *
      rw [hunread] at hlen hmsg
      refine hrunning ▸ h.take hreader (hguard.1 reader hreader) hp hguard.2.1 ?_ ?_
      · unfold Reader.inHand
        dsimp only
        by_cases hbytes : (s.inboxes p).unread.take ending.taken = []
        · rw [decide_eq_true (hlen.mpr hbytes), hbytes]
          rfl
        · rw [decide_eq_false (fun hle => hbytes (hlen.mp hle)), Bool.not_false, if_pos rfl,
            hmsg hbytes]
      · intro hreceived
        have hbytes : (s.inboxes p).unread.take ending.taken ≠ [] := by
          intro hbytes
          rw [decide_eq_true (hlen.mpr hbytes)] at hreceived
          cases hreceived
        rw [hmsg hbytes]
        exact hbytes

/-- The handler gets what the thread has in its hands. -/
theorem Inv.handle (id : ℕ) : Inv sent (listenHandle id s) := by
  unfold listenHandle
  cases hreader : s.readWorker.lookup id with
  | none => exact h
  | some reader =>
    cases hreceived : reader.received with
    | false => dsimp only; rw [hreceived]; exact h
    | true =>
      dsimp only
      rw [hreceived, Bool.not_true, if_neg Bool.false_ne_true]
      have hlt : id < s.socket.cfds.length := h.readers id reader hreader
      constructor
      case files => exact h.files
      case openFiles => exact h.openFiles
      case order => exact h.order
      case readers => exact readers_insert h hreader _
      case sent => exact h.sent
      case heard =>
        intro id' q hq
        have hheard := h.heard id' q hq
        change (handledOf id' (s.calls ++ [.handle id reader.msg])).flatten ++
          State.inHand { s with readWorker := s.readWorker.insert id ⟨reader.msg, false⟩ } id' = _
        rw [inHand_insert, handledOf_handle]
        by_cases hid : id' = id
        · rw [if_pos hid, if_pos hid.symm, ← hheard, hid, State.inHand, hreader]
          dsimp only
          rw [hreceived, if_pos rfl, List.flatten_append, List.flatten_singleton]
          exact List.append_nil _
        · rw [if_neg hid, if_neg (Ne.symm hid), List.append_nil]
          exact hheard
      case unheard => exact h.unheard
      case unknown =>
        intro id' hid'
        dsimp only at hid' ⊢
        rw [handledOf_handle, if_neg (Nat.ne_of_lt (Nat.lt_of_lt_of_le hlt hid')), List.append_nil]
        exact h.unknown id' hid'
      case chunks =>
        intro id' msg hmsg
        dsimp only at hmsg
        rw [handledOf_handle, List.mem_append] at hmsg
        rcases hmsg with hmsg | hmsg
        · exact h.chunks id' msg hmsg
        · split_ifs at hmsg
          · rw [List.mem_singleton.mp hmsg]
            exact h.inHand id reader hreader hreceived
          · cases hmsg
      case inHand =>
        intro id' r hr hr'
        dsimp only at hr
        rw [lookup_insert_eq] at hr
        split_ifs at hr
        · cases hr
          cases hr'
        · exact h.inHand id' r hr hr'

end Steps

/-! ## Runs -/

theorem sentOn_append (p : ℕ) (events : List Event) (e : Event) :
    sentOn p (events ++ [e]) = sentOn p events ++ sentOn p [e] :=
  List.flatMap_append

theorem inv_step (process : Ucred) (hooks : Hooks) {events : List Event} {s : State}
    (h : Inv (fun p => sentOn p events) s) {e : Event} (henabled : Enabled s e) :
    Inv (fun p => sentOn p (events ++ [e])) (step process hooks s e) := by
  have hsame : (∀ p, sentOn p [e] = []) →
      (fun p => sentOn p (events ++ [e])) = fun p => sentOn p events := by
    intro he
    funext p
    rw [sentOn_append, he, List.append_nil]
  cases e with
  | send p bytes =>
    have hsent : (fun q => sentOn q (events ++ [.send p bytes])) =
        Function.update (fun q => sentOn q events) p (sentOn p events ++ bytes) := by
      funext q
      rw [sentOn_append]
      by_cases hq : q = p
      · rw [hq, Function.update_self]
        simp [sentOn]
      · rw [Function.update_of_ne hq]
        simp [sentOn, Ne.symm hq]
    rw [hsent]
    exact h.send p bytes
  | accept attempt => rw [hsame fun _ => rfl]; exact h.accept process hooks attempt henabled.2
  | connect => rw [hsame fun _ => rfl]; exact h.connect hooks
  | read id ending => rw [hsame fun _ => rfl]; exact h.read id ending henabled
  | handle id => rw [hsame fun _ => rfl]; exact h.handle id
  | stop =>
    rw [hsame fun _ => rfl]
    exact ⟨h.files, h.openFiles, h.order, h.readers, h.sent, h.heard, h.unheard, h.unknown,
      h.chunks, h.inHand⟩

theorem inv_run (process : Ucred) (hooks : Hooks) (maxClientNum : ℕ) {events : List Event}
    (hrun : Runs.Guarded (step process hooks) Enabled (start maxClientNum) events) :
    Inv (fun p => sentOn p events) (events.foldl (step process hooks) (start maxClientNum)) := by
  induction events using List.reverseRecOn with
  | nil => exact inv_start maxClientNum
  | append_singleton events e ih =>
    obtain ⟨hevents, henabled, _⟩ := Runs.guarded_append.mp hrun
    rw [List.foldl_append]
    exact inv_step process hooks (ih hevents) henabled

/-- Whatever comes in between, each client has one connection of its own, its number tells when it
has come, and the handler gets what has been sent on this connection, in order: the rest is with
the thread of the client or unread. -/
theorem handler_gets_stream (process : Ucred) (hooks : Hooks) (maxClientNum : ℕ)
    (events : List Event)
    (hrun : Runs.Guarded (step process hooks) Enabled (start maxClientNum) events) (s : State)
    (hs : s = events.foldl (step process hooks) (start maxClientNum)) :
    (∀ i j p q, s.connection i = some p → s.connection j = some q → (i < j ↔ p < q)) ∧
      (∀ id, s.connection id = none → handledOf id s.calls = []) ∧
      ∀ id p, s.connection id = some p →
        (handledOf id s.calls).flatten ++ s.inHand id ++ s.unread id = sentOn p events ∧
          ∀ msg ∈ handledOf id s.calls, msg ≠ [] ∧ msg.length ≤ maxSize := by
  have h := inv_run process hooks maxClientNum hrun
  rw [← hs] at h
  refine ⟨fun i j p q hi hj => ⟨fun hij => h.order i j p q hij hi hj, fun hpq => ?_⟩,
    fun id hid => ?_, fun id p hp => ⟨?_, h.chunks id⟩⟩
  · rcases Nat.lt_trichotomy i j with hlt | heq | hgt
    · exact hlt
    · rw [heq, hj] at hi
      exact absurd hpq (Option.some.inj hi ▸ Nat.lt_irrefl p)
    · exact absurd hpq (Nat.lt_asymm (h.order j i q p hgt hj hi))
  · refine h.unknown id (Nat.le_of_not_lt fun hlt => ?_)
    obtain ⟨_, _, _, _, _, hp⟩ := connection_some h hlt
    rw [hid] at hp
    cases hp
  · rw [h.heard id p hp, State.unread, hp]
    exact h.sent p

/-- Two clients; the first one closes behind a message, and one peer is another user. -/
def twoClients : List Event :=
  [.accept ⟨some 5, true, some ⟨1, 1⟩⟩, .send 0 [1, 2], .connect, .read 0 (.chunk 2),
    .accept ⟨some 6, true, some ⟨2, 1⟩⟩, .accept ⟨some 7, true, some ⟨1, 1⟩⟩, .send 2 [3],
    .read 1 (.chunk 1), .handle 1, .handle 0, .connect, .read 0 .timedOut, .read 0 .empty]

theorem handler_gets_stream_twoClients :
    handledOf 0 (twoClients.foldl (step ⟨1, 1⟩ {}) (start 256)).calls = [[1, 2]] ∧
      ((handledOf 1 (twoClients.foldl (step ⟨1, 1⟩ {}) (start 256)).calls).flatten ++
          (twoClients.foldl (step ⟨1, 1⟩ {}) (start 256)).inHand 1 ++
            (twoClients.foldl (step ⟨1, 1⟩ {}) (start 256)).unread 1 = sentOn 2 twoClients ∧
        ∀ msg ∈ handledOf 1 (twoClients.foldl (step ⟨1, 1⟩ {}) (start 256)).calls,
          msg ≠ [] ∧ msg.length ≤ maxSize) :=
  ⟨by decide, (handler_gets_stream ⟨1, 1⟩ {} 256 twoClients (by decide) _ rfl).2.2 1 2 (by decide)⟩

end Msopcom.SocketServer
