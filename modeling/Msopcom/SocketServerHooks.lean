import Msopcom.SocketServer

set_option autoImplicit false

/-!
# The order of the hooks of the socket server

The thread of a client is started before the connect hook is called for it, so its first message
may be handled before. Clients that came earlier have been announced by then.
-/
namespace Msopcom.SocketServer
open ServerAccept (Ucred Attempt)

/-- The number of the clients that the connect hook has been called for. -/
def State.announced (s : State) : ℕ :=
  match s.accepted with
  | none => s.socket.cfds.length
  | some clientId => clientId

/-- The clients are announced in their order, and a message is handled behind the announcements of
all clients before its own. -/
structure Announced (maxClientNum : ℕ) (s : State) : Prop where
  accepted : ∀ id, s.accepted = some id → id + 1 = s.socket.cfds.length
  inOrder : connects s.calls = List.range s.announced
  before : ∀ pre id msg post, s.calls = pre ++ .handle id msg :: post →
    ∀ i < id, i ∈ connects pre
  room : s.socket.cfds.length ≤ maxClientNum
  limit : s.socket.maxClientNum = maxClientNum

theorem announced_start (maxClientNum : ℕ) : Announced maxClientNum (start maxClientNum) := by
  constructor
  case accepted => intro id h; cases h
  case inOrder => rfl
  case before => intro pre id msg post h; simp [start] at h
  case room => exact Nat.zero_le _
  case limit => rfl

theorem connects_append (calls calls' : List Call) :
    connects (calls ++ calls') = connects calls ++ connects calls' :=
  List.filterMap_append

/-- A call of a list with one more is that one, or it was there before. -/
theorem eq_concat_cases {calls pre post : List Call} {c call : Call}
    (h : calls ++ [c] = pre ++ call :: post) :
    calls = pre ∧ c = call ∨ ∃ post', calls = pre ++ call :: post' := by
  rcases List.eq_nil_or_concat post with rfl | ⟨post', last, rfl⟩
  · left
    obtain ⟨hcalls, hc⟩ := List.append_inj' h rfl
    exact ⟨hcalls, List.head_eq_of_cons_eq hc⟩
  · right
    rw [List.concat_eq_append, ← List.cons_append, ← List.append_assoc] at h
    exact ⟨post', (List.append_inj' h rfl).1⟩

theorem length_cfds_le {maxClientNum : ℕ} {s : State} (h : Announced maxClientNum s) :
    s.socket.cfds.length ≤ s.announced + 1 := by
  unfold State.announced
  cases haccepted : s.accepted with
  | none => exact Nat.le_succ _
  | some id => exact Nat.le_of_eq (h.accepted id haccepted).symm

section Step
variable {maxClientNum : ℕ} {s : State} (h : Announced maxClientNum s)
include h

theorem Announced.accept (process : Ucred) (hooks : Hooks) (attempt : Attempt)
    (hfree : s.accepted = none) : Announced maxClientNum (acceptClient process hooks attempt s) := by
  unfold acceptClient
  by_cases hroom : (s.isRunning && decide (s.socket.cfds.length < s.socket.maxClientNum)) = true
  case neg =>
    rw [Bool.not_eq_true] at hroom
    rw [hroom, Bool.not_false, if_pos rfl]
    exact h
  rw [hroom, Bool.not_true, if_neg Bool.false_ne_true]
  have hroom' := of_decide_eq_true (Bool.and_eq_true_iff.mp hroom).2
  have hcases := accept_cases process attempt s.socket hroom'
  have hmax : (s.socket.accept process attempt).2.maxClientNum = s.socket.maxClientNum :=
    (accept_counts process attempt s.socket hroom').2
  have hannounced : s.announced = s.socket.cfds.length := by rw [State.announced, hfree]
  have hconnects := h.inOrder
  rw [hannounced] at hconnects
  dsimp only
  generalize s.socket.accept process attempt = result at *
  obtain ⟨clientId, socket⟩ := result
  dsimp only at *
  rcases hcases with ⟨rfl, hcfds⟩ | ⟨cfd, _, _, rfl, hcfds⟩
  · constructor
    case accepted => intro id hid; rw [hfree] at hid; cases hid
    case inOrder => rw [hconnects, State.announced]; dsimp only; rw [hfree, hcfds]
    case before => exact h.before
    case room => rw [hcfds]; exact h.room
    case limit => exact hmax.trans h.limit
  · constructor
    case accepted =>
      intro id hid
      rw [hcfds, List.length_append, ← Option.some.inj hid]
      rfl
    case inOrder => exact hconnects
    case before => exact h.before
    case room => rw [hcfds, List.length_append, ← h.limit]; exact hroom'
    case limit => exact hmax.trans h.limit

theorem Announced.connect {hooks : Hooks} (hhook : hooks.clientConnectHook = true) :
    Announced maxClientNum (connectHook hooks s) := by
  unfold connectHook
  cases haccepted : s.accepted with
  | none => exact h
  | some id =>
    have hid := h.accepted id haccepted
    have hconnects := h.inOrder
    rw [State.announced, haccepted] at hconnects
    dsimp only
    rw [hhook, if_pos rfl]
    constructor
    case accepted => intro id hid; cases hid
    case inOrder =>
      change connects (s.calls ++ [.connect id]) = List.range s.socket.cfds.length
      rw [connects_append, hconnects, ← hid, List.range_succ]
      rfl
    case before =>
      intro pre id' msg post hcalls
      dsimp only at hcalls
      rcases eq_concat_cases hcalls with ⟨_, hcall⟩ | ⟨post', hold⟩
      · cases hcall
      · exact h.before pre id' msg post' hold
    case room => exact h.room
    case limit => exact h.limit

/-- A thread that reads has a client, and all clients but the last have been announced. -/
theorem Announced.handle (id : ℕ) (hreader : ∀ reader, s.readWorker.lookup id = some reader →
    id < s.socket.cfds.length) : Announced maxClientNum (listenHandle id s) := by
  unfold listenHandle
  cases hlookup : s.readWorker.lookup id with
  | none => exact h
  | some reader =>
    dsimp only
    split_ifs
    · exact h
    · constructor
      case accepted => exact h.accepted
      case inOrder =>
        dsimp only
        rw [connects_append, h.inOrder]
        exact List.append_nil _
      case before =>
        intro pre id' msg post hcalls i hi
        rcases eq_concat_cases hcalls with ⟨hpre, hcall⟩ | ⟨post', hold⟩
        · obtain ⟨rfl, _⟩ := Call.handle.inj hcall
          have hlt := hreader reader hlookup
          have hle := length_cfds_le h
          rw [← hpre, h.inOrder, List.mem_range]
          omega
        · exact h.before pre id' msg post' hold i hi
      case room => exact h.room
      case limit => exact h.limit

end Step

theorem Announced.of_eq {maxClientNum : ℕ} {s s' : State} (h : Announced maxClientNum s)
    (hsocket : s'.socket = s.socket) (haccepted : s'.accepted = s.accepted)
    (hcalls : s'.calls = s.calls) :
    Announced maxClientNum s' := by
  constructor
  case accepted => rw [haccepted, hsocket]; exact h.accepted
  case inOrder => rw [hcalls, State.announced, haccepted, hsocket]; exact h.inOrder
  case before => rw [hcalls]; exact h.before
  case room => rw [hsocket]; exact h.room
  case limit => rw [hsocket]; exact h.limit

theorem announced_step (process : Ucred) {hooks : Hooks} (hhook : hooks.clientConnectHook = true)
    {sent : ℕ → List UInt8} {maxClientNum : ℕ} {s : State} (hinv : Inv sent s)
    (h : Announced maxClientNum s) {e : Event} (henabled : Enabled s e) :
    Announced maxClientNum (step process hooks s e) := by
  cases e with
  | send p bytes => exact h.of_eq rfl rfl rfl
  | accept attempt => exact h.accept process hooks attempt henabled.1
  | connect => exact h.connect hhook
  | read id ending =>
    have hsame : (listenRead id ending s).socket = s.socket ∧
        (listenRead id ending s).accepted = s.accepted ∧
        (listenRead id ending s).calls = s.calls := by
      unfold listenRead
      cases s.readWorker.lookup id with
      | none => exact ⟨rfl, rfl, rfl⟩
      | some reader => dsimp only; split_ifs <;> exact ⟨rfl, rfl, rfl⟩
    exact h.of_eq hsame.1 hsame.2.1 hsame.2.2
  | handle id => exact h.handle id (hinv.readers id)
  | stop => exact h.of_eq rfl rfl rfl

/-- In every run the connect hook is called for the clients 0, 1, 2 and so on, once for each, for no
more than the limit, and with at most the last one still to come. A message is handled only when the
clients before its own have been announced. -/
theorem hooks_in_order (process : Ucred) (hooks : Hooks) (maxClientNum : ℕ) (events : List Event)
    (hhook : hooks.clientConnectHook = true)
    (hrun : Runs.Guarded (step process hooks) Enabled (start maxClientNum) events) (s : State)
    (hs : s = events.foldl (step process hooks) (start maxClientNum)) :
    connects s.calls = List.range s.announced ∧ s.announced ≤ s.socket.cfds.length ∧
      s.socket.cfds.length ≤ s.announced + 1 ∧ s.socket.cfds.length ≤ maxClientNum ∧
      ∀ pre id msg post, s.calls = pre ++ .handle id msg :: post → ∀ i < id, i ∈ connects pre := by
  have hannounced : Announced maxClientNum s := by
    subst hs
    induction events using List.reverseRecOn with
    | nil => exact announced_start maxClientNum
    | append_singleton events e ih =>
      obtain ⟨hevents, henabled, _⟩ := Runs.guarded_append.mp hrun
      rw [List.foldl_append]
      exact announced_step process hhook (inv_run process hooks maxClientNum hevents) (ih hevents)
        henabled
  have hle : s.announced ≤ s.socket.cfds.length := by
    unfold State.announced
    cases haccepted : s.accepted with
    | none => exact le_rfl
    | some id => exact Nat.le_of_succ_le (Nat.le_of_eq (hannounced.accepted id haccepted))
  exact ⟨hannounced.inOrder, hle, length_cfds_le hannounced, hannounced.room, hannounced.before⟩

/-- The second client is still to be announced when its message is handled. -/
theorem hooks_in_order_twoClients :
    (twoClients.foldl (step ⟨1, 1⟩ {}) (start 256)).calls =
        [.connect 0] ++ .handle 1 [3] :: [.handle 0 [1, 2], .connect 1] ∧
      ∀ i < 1, i ∈ connects [.connect 0] :=
  ⟨by decide, (hooks_in_order ⟨1, 1⟩ {} 256 twoClients rfl (by decide) _ rfl).2.2.2.2 [.connect 0] 1
    [3] [.handle 0 [1, 2], .connect 1] (by decide)⟩

end Msopcom.SocketServer
