import Mathlib.Logic.Function.Basic
import Mathlib.Tactic.SplitIfs
import Msopcom.Inbox
import Msopcom.LocalProcess

set_option autoImplicit false

/-!
# The configuration of the sanitizer

`ConfigManager<SanitizerConfig>::GetConfig` takes the first message of a connection for the
configuration and keeps what it made of it. `InteractHelper::Interact` asks for it before it
sends a request and waits for the response on the same connection.
-/
namespace Msopcom.ConfigHandshake
open Bytes FuelLoop InteractHelper LocalProcess Runs

/-! ## `SanitizerConfig` -/

def sizeofSanitizerConfig : ℕ := 2584

def field (offset size : ℕ) (bytes : List UInt8) : List UInt8 := (bytes.drop offset).take size

def pluginPathOffset : ℕ := 21
def pluginPathMax : ℕ := 256
def kernelNameOffset : ℕ := 277
def kernelNameMax : ℕ := 2048
def dumpPathOffset : ℕ := 2325
def dumpPathMax : ℕ := 256

/-- The string in an array of characters. -/
def cString (array : List UInt8) : List UInt8 := array.takeWhile (· != 0)

structure SanitizerConfig where
  checks : List UInt8
  checkBlockId : ℕ
  cacheSize : ℕ
  demangleMode : ℕ
  pluginPath : List UInt8
  kernelName : List UInt8
  dumpPath : List UInt8
  deriving DecidableEq, Repr

def SanitizerConfig.read (bytes : List UInt8) : SanitizerConfig where
  checks := field 0 12 bytes
  checkBlockId := leNat (field 12 2 bytes)
  cacheSize := leNat (field 16 4 bytes)
  demangleMode := leNat (field 20 1 bytes)
  pluginPath := cString (field pluginPathOffset pluginPathMax bytes)
  kernelName := cString (field kernelNameOffset kernelNameMax bytes)
  dumpPath := cString (field dumpPathOffset dumpPathMax bytes)

/-- What a server sends: its three strings end in their arrays. -/
structure ServerConfig where
  bytes : List UInt8
  sized : bytes.length = sizeofSanitizerConfig
  pluginPath : 0 ∈ field pluginPathOffset pluginPathMax bytes
  kernelName : 0 ∈ field kernelNameOffset kernelNameMax bytes
  dumpPath : 0 ∈ field dumpPathOffset dumpPathMax bytes

def defaultConfig : List UInt8 :=
  List.replicate 12 0 ++ [0xFF, 0xFF, 0, 0, 100, 0, 0, 0] ++ List.replicate 2564 0

/-- The last character of each array is cleared. -/
def terminate (bytes : List UInt8) : List UInt8 :=
  ((bytes.set (pluginPathOffset + pluginPathMax - 1) 0).set
    (kernelNameOffset + kernelNameMax - 1) 0).set (dumpPathOffset + dumpPathMax - 1) 0

/-- What `GetConfig` keeps for the message that it has waited for. -/
def configEntry (msg : List UInt8) : List UInt8 :=
  if msg.length = sizeofSanitizerConfig then terminate msg else defaultConfig

/-! ## A connection -/

/-- What a call waits for. `GetConfig` may be the first step of a request. -/
inductive Purpose
  | config (next : Option Request)
  | response (r : Request)
  deriving DecidableEq, Repr

def configTimeOut : UInt32 := 5

def Purpose.timeOut : Purpose → UInt32
  | .config _ => configTimeOut
  | .response r => r.timeOut

/-- The `Wait` that is going on, and the position in the stream where it began. -/
structure Pending where
  purpose : Purpose
  start : ℕ
  locals : Locals := {}
  deriving DecidableEq, Repr

/-- What a `Wait` has returned, for a request or, without one, for the configuration. -/
structure Taken where
  request : Option Request
  start : ℕ
  msg : List UInt8
  deriving DecidableEq, Repr

/-- A device with its connection and its entry in `configMap`. -/
structure Device where
  inbox : Inbox UInt8
  config : Option (List UInt8) := none
  requests : List Request := []
  answered : List ℕ := []
  pending : Option Pending := none
  taken : List Taken := []
  deriving DecidableEq, Repr

namespace Device

/-- The part of `Interact` behind `GetConfig`; nothing where only the configuration was asked
for. -/
def proceed (next : Option Request) (d : Device) : Device :=
  match next with
  | none => { d with pending := none }
  | some r =>
    { d with
      requests := d.requests ++ [r]
      pending := some { purpose := .response r, start := d.inbox.position } }

def getConfig (next : Option Request) (d : Device) : Device :=
  match d.config with
  | some _ => d.proceed next
  | none => { d with pending := some { purpose := .config next, start := d.inbox.position } }

def finish (p : Pending) (msg : List UInt8) (d : Device) : Device :=
  match p.purpose with
  | .config next =>
    Device.proceed next { d with
      config := some (configEntry msg)
      taken := d.taken ++ [⟨none, p.start, msg⟩] }
  | .response r => { d with pending := none, taken := d.taken ++ [⟨some r, p.start, msg⟩] }

def read (ending : ReadEnd) (p : Pending) (d : Device) : Device :=
  let inbox := d.inbox.skip ending.taken
  match LocalProcess.round p.purpose.timeOut (ending.ret d.inbox.unread) p.locals with
  | .next w => { d with inbox, pending := some { p with locals := w } }
  | .done msg => Device.finish p msg { d with inbox }

end Device

inductive Event
  | getConfig
  | interact (r : Request)
  | answer (k : ℕ) (payload : List UInt8)
  | read (ending : ReadEnd)
  deriving DecidableEq, Repr

def Device.step (d : Device) : Event → Device
  | .getConfig => d.getConfig none
  | .interact r => d.getConfig (some r)
  | .answer k payload =>
    match d.requests[k]? with
    | none => d
    | some r =>
      { d with
        answered := d.answered ++ [k]
        inbox := d.inbox.send (responseBytes r payload) }
  | .read ending =>
    match d.pending with
    | none => d
    | some p => d.read ending p

/-- The calls for a device follow one another, the server answers each request once, and a
chunk is of bytes that have been sent. -/
def Device.Enabled (d : Device) : Event → Prop
  | .getConfig | .interact _ => d.pending = none
  | .answer k _ => k < d.requests.length ∧ k ∉ d.answered
  | .read (.chunk n) =>
    d.pending.isSome ∧ 1 ≤ n ∧ n ≤ recvBuffSize ∧ n ≤ d.inbox.unread.length
  | .read _ => d.pending.isSome

/-- The server has sent its configuration, and nothing of it has been read. -/
def Device.start (w : ServerConfig) : Device where
  inbox := { unread := w.bytes }

/-- A read for the configuration brings all that is left of it, up to the size of the buffer.
Before the first of its bytes, as many reads as the time limit says may bring nothing. -/
def Device.Prompt (d : Device) : Event → Prop
  | .read ending =>
    ∀ p, d.pending = some p → ∀ next, p.purpose = .config next →
      ending.taken = 0 ∧ p.locals.msg = [] ∧ p.locals.count < configTimeOut ∨
        ending.taken = min recvBuffSize d.inbox.unread.length
  | _ => True

/-- The entry is what the server has sent, which was read once, from the first byte to the last,
and the responses were read behind it. -/
structure Device.Handshake (w : ServerConfig) (d : Device) : Prop where
  stored : ∀ bytes, d.config = some bytes →
    SanitizerConfig.read bytes = SanitizerConfig.read w.bytes
  once : d.taken.filter (·.request.isNone) =
    if d.config.isSome then [⟨none, 0, w.bytes⟩] else []
  responses : ∀ t ∈ d.taken, t.request.isSome → sizeofSanitizerConfig ≤ t.start
  places : ∀ t ∈ d.taken, d.inbox.Has t.start t.msg

/-! ## The process: a connection for each device -/

abbrev Process := Int32 → Device

def step (s : Process) (e : Int32 × Event) : Process :=
  Function.update s e.1 ((s e.1).step e.2)

def Enabled (s : Process) (e : Int32 × Event) : Prop := (s e.1).Enabled e.2

def Prompt (s : Process) (e : Int32 × Event) : Prop := (s e.1).Prompt e.2

def start (configs : Int32 → ServerConfig) : Process := fun id => .start (configs id)

def Handshake (configs : Int32 → ServerConfig) (s : Process) : Prop :=
  ∀ id, (s id).Handshake (configs id)

/-! ## What is kept of a configuration -/

theorem cString_set_last {array : List UInt8} (h : 0 ∈ array) :
    cString (array.set (array.length - 1) 0) = cString array := by
  induction array with
  | nil => cases h
  | cons a array ih =>
    cases array with
    | nil =>
      rw [List.mem_singleton] at h
      rw [← h]
      rfl
    | cons b array =>
      change cString (a :: (b :: array).set ((b :: array).length - 1) 0) = _
      by_cases ha : a = 0
      · rw [ha]
        rfl
      · have hrest := ih ((List.mem_cons.mp h).resolve_left (Ne.symm ha))
        have hcons : ∀ bytes, cString (a :: bytes) = a :: cString bytes :=
          fun bytes => List.takeWhile_cons_of_pos (bne_iff_ne.mpr ha)
        rw [hcons, hcons, hrest]

theorem field_set_of_lt {offset size i : ℕ} (h : i < offset) (bytes : List UInt8) (b : UInt8) :
    field offset size (bytes.set i b) = field offset size bytes := by
  rw [field, List.drop_set, if_pos h, field]

theorem field_set_of_le {offset size i : ℕ} (h : offset + size ≤ i) (bytes : List UInt8)
    (b : UInt8) : field offset size (bytes.set i b) = field offset size bytes := by
  rw [field, List.drop_set, if_neg (by omega), List.take_set_of_le (by omega), field]

theorem field_set_last {offset size : ℕ} (hsize : 0 < size) {bytes : List UInt8}
    (hlength : offset + size ≤ bytes.length) (b : UInt8) :
    field offset size (bytes.set (offset + size - 1) b) =
      (field offset size bytes).set ((field offset size bytes).length - 1) b := by
  have hfield : (field offset size bytes).length = size := by
    rw [field, List.length_take, List.length_drop]
    omega
  rw [hfield, field, List.drop_set, if_neg (by omega), List.take_set, field]
  congr 1
  omega

theorem field_terminate {offset size : ℕ} (h : offset + size ≤ pluginPathOffset)
    (bytes : List UInt8) : field offset size (terminate bytes) = field offset size bytes := by
  have hplugin : pluginPathOffset = 21 := rfl
  have hends : pluginPathOffset + pluginPathMax - 1 = 276 ∧
      kernelNameOffset + kernelNameMax - 1 = 2324 ∧ dumpPathOffset + dumpPathMax - 1 = 2580 :=
    ⟨rfl, rfl, rfl⟩
  rw [terminate, field_set_of_le (by omega), field_set_of_le (by omega),
    field_set_of_le (by omega)]

section Strings
variable (w : ServerConfig)

theorem pluginPath_terminate :
    cString (field pluginPathOffset pluginPathMax (terminate w.bytes)) =
      cString (field pluginPathOffset pluginPathMax w.bytes) := by
  have hfits : pluginPathOffset + pluginPathMax ≤ w.bytes.length := by
    rw [w.sized]
    decide
  rw [terminate, field_set_of_le (by decide), field_set_of_le (by decide),
    field_set_last (by decide) hfits, cString_set_last w.pluginPath]

theorem kernelName_terminate :
    cString (field kernelNameOffset kernelNameMax (terminate w.bytes)) =
      cString (field kernelNameOffset kernelNameMax w.bytes) := by
  have hfits : kernelNameOffset + kernelNameMax ≤
      (w.bytes.set (pluginPathOffset + pluginPathMax - 1) 0).length := by
    rw [List.length_set, w.sized]
    decide
  rw [terminate, field_set_of_le (by decide), field_set_last (by decide) hfits,
    field_set_of_lt (by decide), cString_set_last w.kernelName]

theorem dumpPath_terminate :
    cString (field dumpPathOffset dumpPathMax (terminate w.bytes)) =
      cString (field dumpPathOffset dumpPathMax w.bytes) := by
  have hfits : dumpPathOffset + dumpPathMax ≤
      ((w.bytes.set (pluginPathOffset + pluginPathMax - 1) 0).set
        (kernelNameOffset + kernelNameMax - 1) 0).length := by
    rw [List.length_set, List.length_set, w.sized]
    decide
  rw [terminate, field_set_last (by decide) hfits, field_set_of_lt (by decide),
    field_set_of_lt (by decide), cString_set_last w.dumpPath]

/-- Clearing the last characters does not change strings that end in their arrays. -/
theorem read_terminate : SanitizerConfig.read (terminate w.bytes) =
    SanitizerConfig.read w.bytes := by
  unfold SanitizerConfig.read
  rw [pluginPath_terminate, kernelName_terminate, dumpPath_terminate,
    @field_terminate 0 12 (by decide), @field_terminate 12 2 (by decide),
    @field_terminate 16 4 (by decide), @field_terminate 20 1 (by decide)]

theorem read_configEntry :
    SanitizerConfig.read (configEntry w.bytes) = SanitizerConfig.read w.bytes := by
  rw [configEntry, if_pos w.sized, read_terminate]

end Strings

/-! ## Where a device is -/

/-- The configuration is read; the reads have been full ones so far. -/
structure Device.Reading (w : ServerConfig) (d : Device) (p : Pending) (next : Option Request) :
    Prop where
  config : d.config = none
  pending : d.pending = some p
  requests : d.requests = []
  taken : d.taken = []
  purpose : p.purpose = .config next
  start : p.start = 0
  read : d.inbox.read = p.locals.msg
  sent : d.inbox.sent = w.bytes
  full : recvBuffSize ∣ p.locals.msg.length
  unread : d.inbox.unread ≠ []

/-- Before the configuration is asked for, while it is read, and when there is an entry. -/
inductive Device.Phase (w : ServerConfig) (d : Device) : Prop
  | fresh (config : d.config = none) (pending : d.pending = none) (requests : d.requests = [])
      (taken : d.taken = []) (read : d.inbox.read = []) (sent : d.inbox.sent = w.bytes)
  | reading (p : Pending) (next : Option Request) (reading : d.Reading w p next)
  | configured (config : d.config.isSome = true)
      (position : sizeofSanitizerConfig ≤ d.inbox.position)
      (pending : ∀ p, d.pending = some p → (∃ r, p.purpose = .response r) ∧
        sizeofSanitizerConfig ≤ p.start ∧ d.inbox.Gathered p.start p.locals.msg)

theorem handshake_start (w : ServerConfig) : (Device.start w).Handshake w where
  stored := fun _ h => by cases h
  once := rfl
  responses := fun _ h => by cases h
  places := fun _ h => by cases h

theorem phase_start (w : ServerConfig) : (Device.start w).Phase w :=
  .fresh rfl rfl rfl rfl rfl rfl

section Reading
variable {w : ServerConfig} {d : Device} {p : Pending} {next : Option Request}

namespace Device.Reading
variable (h : d.Reading w p next)
include h

theorem prompt_iff (ending : ReadEnd) :
    d.Prompt (.read ending) ↔
      ending.taken = 0 ∧ p.locals.msg = [] ∧ p.locals.count < configTimeOut ∨
        ending.taken = min recvBuffSize d.inbox.unread.length := by
  constructor
  · exact fun hprompt => hprompt p h.pending next h.purpose
  · intro hprompt p' hp' _ _
    rw [h.pending] at hp'
    cases hp'
    exact hprompt

theorem msg_append : p.locals.msg ++ d.inbox.unread = w.bytes := by
  rw [← h.read, ← h.sent]
  rfl

theorem length_add : p.locals.msg.length + d.inbox.unread.length = sizeofSanitizerConfig := by
  rw [← List.length_append, h.msg_append, w.sized]

theorem unread_pos : 0 < d.inbox.unread.length := List.length_pos_of_ne_nil h.unread

end Device.Reading

/-- How a read for the configuration ends: it goes on, it has all of it, or it is not prompt
and the wait ends with less. -/
inductive ConfigRead (w : ServerConfig) (d : Device) (p : Pending) (ending : ReadEnd) : Prop
  | goesOn (v : Locals) (prompt : d.Prompt (.read ending))
      (round : LocalProcess.round configTimeOut (ending.ret d.inbox.unread) p.locals = .next v)
      (msg : v.msg = p.locals.msg ++ d.inbox.unread.take ending.taken)
      (full : recvBuffSize ∣ v.msg.length) (unread : d.inbox.unread.drop ending.taken ≠ [])
  | complete (prompt : d.Prompt (.read ending))
      (round : LocalProcess.round configTimeOut (ending.ret d.inbox.unread) p.locals =
        .done w.bytes)
      (msg : p.locals.msg ++ d.inbox.unread.take ending.taken = w.bytes)
  | short (msg : List UInt8) (prompt : ¬ d.Prompt (.read ending))
      (round : LocalProcess.round configTimeOut (ending.ret d.inbox.unread) p.locals = .done msg)
      (short : msg.length < sizeofSanitizerConfig)

theorem configRead_nothing (h : d.Reading w p next) {ending : ReadEnd}
    (hret : (ending.ret d.inbox.unread).getD [] = []) (htaken : ending.taken = 0) :
    ConfigRead w d p ending := by
  have hleft := h.unread_pos
  have hlength := h.length_add
  have hbuff : recvBuffSize = 1024 := rfl
  have hprompt := h.prompt_iff ending
  rw [htaken] at hprompt
  rcases @round_nothing configTimeOut (by decide) _ hret p.locals with
    ⟨hmsg, hcount, v, hround, hv⟩ | ⟨hlate, hround⟩
  · refine .goesOn v (hprompt.mpr (.inl ⟨rfl, hmsg, hcount⟩)) hround ?_ ?_ ?_
    · rw [hv, hmsg, htaken]
      rfl
    · rw [hv]
      exact Nat.dvd_zero _
    · rw [htaken]
      exact h.unread
  · refine .short _ (fun hp => ?_) hround (by omega)
    rcases hprompt.mp hp with ⟨-, hfirst⟩ | hzero
    · exact hlate hfirst
    · omega

theorem configRead_chunk (h : d.Reading w p next) {n : ℕ} (hpos : 1 ≤ n)
    (hbuff : n ≤ recvBuffSize) (hunread : n ≤ d.inbox.unread.length) :
    ConfigRead w d p (.chunk n) := by
  have hlength := h.length_add
  have hsize : sizeofSanitizerConfig = 2584 := rfl
  have hrecv : recvBuffSize = 1024 := rfl
  have hprompt := h.prompt_iff (.chunk n)
  have htake : (d.inbox.unread.take n).length = n := List.length_take_of_le hunread
  have hne : d.inbox.unread.take n ≠ [] := List.ne_nil_of_length_pos (by omega)
  have hmsg : (p.locals.msg ++ d.inbox.unread.take n).length = p.locals.msg.length + n := by
    rw [List.length_append, htake]
  obtain ⟨k, hk⟩ := h.full
  rcases round_chunk configTimeOut hne p.locals with ⟨hfull, v, hround, hv⟩ | ⟨hshort, hround⟩
  · rw [htake] at hfull
    refine .goesOn v (hprompt.mpr (.inr ?_)) hround hv ?_ ?_
    · change n = min recvBuffSize d.inbox.unread.length
      omega
    · rw [hv, hmsg]
      exact ⟨k + 1, by rw [hk, hfull, Nat.mul_succ]⟩
    · refine List.ne_nil_of_length_pos ?_
      change 0 < (d.inbox.unread.drop n).length
      rw [hrecv] at hk
      rw [List.length_drop]
      omega
  · rw [htake] at hshort
    by_cases hall : n = d.inbox.unread.length
    · have hwhole : p.locals.msg ++ d.inbox.unread.take n = w.bytes := by
        rw [hall, List.take_length, h.msg_append]
      refine .complete (hprompt.mpr (.inr ?_)) (hround.trans (congrArg _ hwhole)) hwhole
      change n = min recvBuffSize d.inbox.unread.length
      omega
    · refine .short _ (fun hp => ?_) hround (by omega)
      rcases hprompt.mp hp with ⟨hzero, -⟩ | hmin
      · change n = 0 at hzero
        omega
      · change n = _ at hmin
        omega

theorem configRead (h : d.Reading w p next) {ending : ReadEnd}
    (henabled : d.Enabled (.read ending)) : ConfigRead w d p ending := by
  cases ending with
  | chunk n => exact configRead_chunk h henabled.2.1 henabled.2.2.1 henabled.2.2.2
  | empty => exact configRead_nothing h rfl rfl
  | timedOut => exact configRead_nothing h rfl rfl

end Reading

/-! ## One step of a device -/

section Step
variable {w : ServerConfig} {d : Device}

theorem proceed_config (next : Option Request) (d : Device) :
    (d.proceed next).config = d.config := by
  cases next <;> rfl

theorem proceed_taken (next : Option Request) (d : Device) : (d.proceed next).taken = d.taken := by
  cases next <;> rfl

theorem proceed_inbox (next : Option Request) (d : Device) : (d.proceed next).inbox = d.inbox := by
  cases next <;> rfl

/-- Nothing but the inbox, the entry and what was taken counts for the handshake. -/
theorem Device.Handshake.of_eq (h : d.Handshake w) {d' : Device} (hconfig : d'.config = d.config)
    (htaken : d'.taken = d.taken) (hinbox : ∀ start msg, d.inbox.Has start msg →
      d'.inbox.Has start msg) : d'.Handshake w where
  stored := by
    rw [hconfig]
    exact h.stored
  once := by
    rw [hconfig, htaken]
    exact h.once
  responses := by
    rw [htaken]
    exact h.responses
  places := by
    rw [htaken]
    exact fun t ht => hinbox _ _ (h.places t ht)

theorem phase_proceed (next : Option Request) (hconfig : d.config.isSome = true)
    (hposition : sizeofSanitizerConfig ≤ d.inbox.position) : (d.proceed next).Phase w := by
  refine .configured ?_ ?_ ?_
  · rw [proceed_config]
    exact hconfig
  · rw [proceed_inbox]
    exact hposition
  · intro p hp
    cases next with
    | none => cases hp
    | some r =>
      cases hp
      exact ⟨⟨r, rfl⟩, hposition, d.inbox.gathered_nil⟩

/-- What a step comes to: it is prompt and keeps the handshake, or neither. -/
def Device.Stays (w : ServerConfig) (d : Device) (e : Event) : Prop :=
  (d.Prompt e ∧ (d.step e).Handshake w ∧ (d.step e).Phase w) ∨
    (¬ d.Prompt e ∧ ¬ (d.step e).Handshake w)

theorem getConfig_stays (hhand : d.Handshake w) (hphase : d.Phase w) (hfree : d.pending = none)
    (next : Option Request) :
    (d.getConfig next).Handshake w ∧ (d.getConfig next).Phase w := by
  cases hphase with
  | fresh config pending requests taken read sent =>
    have hstep : d.getConfig next =
        { d with pending := some { purpose := .config next, start := d.inbox.position } } := by
      rw [Device.getConfig, config]
    have hunread : d.inbox.unread = w.bytes := by
      rw [← sent, Inbox.sent, read, List.nil_append]
    rw [hstep]
    refine ⟨hhand.of_eq rfl rfl fun _ _ h => h,
      .reading { purpose := .config next, start := d.inbox.position } next ?_⟩
    constructor
    case config => exact config
    case pending => rfl
    case requests => exact requests
    case taken => exact taken
    case purpose => rfl
    case start => exact congrArg List.length read
    case read => exact read
    case sent => exact sent
    case full => exact Nat.dvd_zero _
    case unread =>
      refine List.ne_nil_of_length_pos ?_
      change 0 < d.inbox.unread.length
      rw [hunread, w.sized]
      decide
  | reading p next' reading =>
    rw [reading.pending] at hfree
    cases hfree
  | configured config position pending =>
    obtain ⟨entry, hentry⟩ := Option.isSome_iff_exists.mp config
    have hstep : d.getConfig next = d.proceed next := by rw [Device.getConfig, hentry]
    rw [hstep]
    refine ⟨hhand.of_eq (proceed_config _ _) (proceed_taken _ _) ?_,
      phase_proceed next config position⟩
    rw [proceed_inbox]
    exact fun _ _ h => h

theorem answer_stays (hhand : d.Handshake w) (hphase : d.Phase w) (k : ℕ)
    (payload : List UInt8) :
    (d.step (.answer k payload)).Handshake w ∧ (d.step (.answer k payload)).Phase w := by
  cases hr : d.requests[k]? with
  | none =>
    have hstep : d.step (.answer k payload) = d := by rw [Device.step, hr]
    rw [hstep]
    exact ⟨hhand, hphase⟩
  | some r =>
    have hstep : d.step (.answer k payload) =
        { d with
          answered := d.answered ++ [k]
          inbox := d.inbox.send (responseBytes r payload) } := by rw [Device.step, hr]
    rw [hstep]
    refine ⟨hhand.of_eq rfl rfl fun _ _ h => h, ?_⟩
    cases hphase with
    | fresh config pending requests taken read sent =>
      rw [requests] at hr
      cases hr
    | reading p next reading =>
      rw [reading.requests] at hr
      cases hr
    | configured config position pending => exact .configured config position pending

theorem response_stays (hhand : d.Handshake w) {p : Pending} {r : Request}
    (hpurpose : p.purpose = .response r) (hconfig : d.config.isSome = true)
    (hstart : sizeofSanitizerConfig ≤ p.start) (hgathered : d.inbox.Gathered p.start p.locals.msg)
    (ending : ReadEnd) :
    (d.read ending p).Handshake w ∧ (d.read ending p).Phase w := by
  have hskip := hgathered.skip ending.taken
  have hfar : sizeofSanitizerConfig ≤ (d.inbox.skip ending.taken).position := by
    rw [hskip.position_eq]
    omega
  have hplaces : ∀ t ∈ d.taken, (d.inbox.skip ending.taken).Has t.start t.msg :=
    fun t ht => (hhand.places t ht).skip _
  rcases round_msg p.purpose.timeOut (ending.ret d.inbox.unread) p.locals with
    hround | ⟨v, hround, hv⟩
  · rw [ReadEnd.getD_ret] at hround
    have hstep : d.read ending p =
        { d with
          inbox := d.inbox.skip ending.taken
          pending := none
          taken := d.taken ++
            [⟨some r, p.start, p.locals.msg ++ d.inbox.unread.take ending.taken⟩] } := by
      rw [Device.read, hround]
      dsimp only
      rw [Device.finish, hpurpose]
    rw [hstep]
    refine ⟨⟨hhand.stored, ?_, ?_, ?_⟩, .configured hconfig hfar fun p hp => by cases hp⟩
    · rw [List.filter_append, hhand.once]
      exact List.append_nil _
    · intro t ht hrequest
      rcases List.mem_append.mp ht with ht | ht
      · exact hhand.responses t ht hrequest
      · rw [List.mem_singleton.mp ht]
        exact hstart
    · intro t ht
      rcases List.mem_append.mp ht with ht | ht
      · exact hplaces t ht
      · rw [List.mem_singleton.mp ht]
        exact hskip.has
  · rw [ReadEnd.getD_ret] at hv
    have hstep : d.read ending p =
        { d with
          inbox := d.inbox.skip ending.taken
          pending := some { p with locals := v } } := by
      rw [Device.read, hround]
    rw [hstep]
    refine ⟨⟨hhand.stored, hhand.once, hhand.responses, hplaces⟩,
      .configured hconfig hfar fun p' hp' => ?_⟩
    cases hp'
    exact ⟨⟨r, hpurpose⟩, hstart, hv ▸ hskip⟩

theorem read_config (hhand : d.Handshake w) {p : Pending} {next : Option Request}
    (h : d.Reading w p next) {ending : ReadEnd} (henabled : d.Enabled (.read ending)) :
    (d.Prompt (.read ending) ∧ (d.read ending p).Handshake w ∧ (d.read ending p).Phase w) ∨
      (¬ d.Prompt (.read ending) ∧ ¬ (d.read ending p).Handshake w) := by
  have htimeOut : p.purpose.timeOut = configTimeOut := by rw [h.purpose, Purpose.timeOut]
  have hfinish (msg : List UInt8) (hround : LocalProcess.round configTimeOut
      (ending.ret d.inbox.unread) p.locals = .done msg) :
      d.read ending p = Device.proceed next { d with
        inbox := d.inbox.skip ending.taken
        config := some (configEntry msg)
        taken := [⟨none, 0, msg⟩] } := by
    rw [Device.read, htimeOut, hround]
    dsimp only
    rw [Device.finish, h.purpose]
    dsimp only
    rw [h.taken, h.start, List.nil_append]
  have hgathered : d.inbox.Gathered 0 p.locals.msg := ⟨[], h.read, rfl⟩
  cases configRead h henabled with
  | goesOn v prompt round msg full unread =>
    have hstep : d.read ending p =
        { d with
          inbox := d.inbox.skip ending.taken
          pending := some { p with locals := v } } := by
      rw [Device.read, htimeOut, round]
    rw [hstep]
    refine .inl ⟨prompt, hhand.of_eq rfl rfl fun _ _ hhas => hhas.skip _,
      .reading { p with locals := v } next ?_⟩
    constructor
    case config => exact h.config
    case pending => rfl
    case requests => exact h.requests
    case taken => exact h.taken
    case purpose => exact h.purpose
    case start => exact h.start
    case read =>
      change d.inbox.read ++ d.inbox.unread.take ending.taken = v.msg
      rw [h.read, msg]
    case sent => exact (Inbox.sent_skip _ _).trans h.sent
    case full => exact full
    case unread => exact unread
  | complete prompt round msg =>
    have hskip := hgathered.skip ending.taken
    rw [msg] at hskip
    rw [hfinish w.bytes round]
    refine .inl ⟨prompt, ⟨?_, ?_, ?_, ?_⟩, phase_proceed next rfl ?_⟩
    · intro bytes hbytes
      rw [proceed_config] at hbytes
      cases hbytes
      exact read_configEntry w
    · rw [proceed_config, proceed_taken]
      rfl
    · intro t ht hrequest
      rw [proceed_taken] at ht
      rw [List.mem_singleton.mp ht] at hrequest
      cases hrequest
    · intro t ht
      rw [proceed_taken] at ht
      rw [proceed_inbox, List.mem_singleton.mp ht]
      exact hskip.has
    · change sizeofSanitizerConfig ≤ (d.inbox.skip ending.taken).position
      rw [hskip.position_eq, w.sized]
      omega
  | short msg prompt round short =>
    refine .inr ⟨prompt, fun hbad => ?_⟩
    have honce := hbad.once
    rw [hfinish msg round, proceed_config, proceed_taken] at honce
    have hmsg : msg = w.bytes := congrArg Taken.msg (List.singleton_inj.mp honce)
    rw [hmsg, w.sized] at short
    exact absurd short (Nat.lt_irrefl _)

theorem device_step (hhand : d.Handshake w) (hphase : d.Phase w) {e : Event}
    (henabled : d.Enabled e) : d.Stays w e := by
  cases e with
  | getConfig => exact .inl ⟨trivial, getConfig_stays hhand hphase henabled none⟩
  | interact r => exact .inl ⟨trivial, getConfig_stays hhand hphase henabled (some r)⟩
  | answer k payload => exact .inl ⟨trivial, answer_stays hhand hphase k payload⟩
  | read ending =>
    cases hpending : d.pending with
    | none =>
      have hstep : d.step (.read ending) = d := by rw [Device.step, hpending]
      refine .inl ⟨fun p hp => ?_, ?_⟩
      · rw [hpending] at hp
        cases hp
      · rw [hstep]
        exact ⟨hhand, hphase⟩
    | some p =>
      have hstep : d.step (.read ending) = d.read ending p := by rw [Device.step, hpending]
      unfold Device.Stays
      rw [hstep]
      cases hphase with
      | fresh config pending requests taken read sent =>
        rw [pending] at hpending
        cases hpending
      | reading p' next reading =>
        have hp : p' = p := Option.some.inj (reading.pending.symm.trans hpending)
        exact read_config hhand (hp ▸ reading) henabled
      | configured config position pending =>
        obtain ⟨⟨r, hpurpose⟩, hstart, hgathered⟩ := pending p hpending
        refine .inl ⟨fun p' hp' next hconfig => ?_,
          response_stays hhand hpurpose config hstart hgathered ending⟩
        rw [Option.some.inj (hpending.symm.trans hp'), hconfig] at hpurpose
        cases hpurpose

end Step

/-! ## Whole runs -/

variable {configs : Int32 → ServerConfig}

def Phases (configs : Int32 → ServerConfig) (s : Process) : Prop :=
  ∀ id, (s id).Phase (configs id)

theorem step_same (s : Process) (e : Int32 × Event) : step s e e.1 = (s e.1).step e.2 :=
  Function.update_self _ _ _

theorem step_other (s : Process) (e : Int32 × Event) {id : Int32} (h : id ≠ e.1) :
    step s e id = s id := Function.update_of_ne h _ _

/-- A step is prompt and keeps the handshake of every device, or neither. -/
theorem step_stays {s : Process} {e : Int32 × Event} (henabled : Enabled s e)
    (hhand : Handshake configs s) (hphase : Phases configs s) :
    (Prompt s e ∧ Handshake configs (step s e) ∧ Phases configs (step s e)) ∨
      (¬ Prompt s e ∧ ¬ Handshake configs (step s e)) := by
  rcases device_step (hhand e.1) (hphase e.1) henabled with ⟨hprompt, hdev⟩ | ⟨hlate, hbad⟩
  · have hall (id : Int32) :
        (step s e id).Handshake (configs id) ∧ (step s e id).Phase (configs id) := by
      by_cases hid : id = e.1
      · rw [hid, step_same]
        exact hdev
      · rw [step_other s e hid]
        exact ⟨hhand id, hphase id⟩
    exact .inl ⟨hprompt, fun id => (hall id).1, fun id => (hall id).2⟩
  · refine .inr ⟨hlate, fun h => hbad ?_⟩
    have hdev := h e.1
    rwa [step_same] at hdev

/-- The handshake holds of every device in every state of a run exactly when each read for a
configuration brings all that it has room for, but for the first ones, which may bring nothing. -/
theorem handshake_iff_prompt (configs : Int32 → ServerConfig) (events : List (Int32 × Event))
    (henabled : Guarded step Enabled (start configs) events) :
    (∀ n, Handshake configs ((events.take n).foldl step (start configs))) ↔
      Guarded step Prompt (start configs) events := by
  have hkeep (s : Process) (e : Int32 × Event) (henabled : Enabled s e)
      (hphase : Handshake configs s → Phases configs s) (hhand : Handshake configs s)
      (hnext : Handshake configs (step s e)) : Phases configs (step s e) := by
    rcases step_stays henabled hhand (hphase hhand) with ⟨-, -, h⟩ | ⟨-, hbad⟩
    · exact h
    · exact absurd hnext hbad
  have hstep (s : Process) (e : Int32 × Event) (henabled : Enabled s e)
      (hphase : Handshake configs s → Phases configs s) (hhand : Handshake configs s) :
      Handshake configs (step s e) ↔ Prompt s e := by
    rcases step_stays henabled hhand (hphase hhand) with ⟨hprompt, h, -⟩ | ⟨hlate, hbad⟩
    · exact iff_of_true h hprompt
    · exact iff_of_false hbad hlate
  exact guarded_iff_invariant_of hkeep hstep henabled (fun _ id => phase_start (configs id))
    fun id => handshake_start (configs id)

theorem mem_field_replicate {offset size n : ℕ} (h : offset < n) (hsize : 0 < size) (b : UInt8) :
    b ∈ field offset size (List.replicate n b) := by
  rw [field, List.drop_replicate, List.take_replicate]
  exact List.mem_replicate.mpr ⟨by omega, rfl⟩

def clearedConfig : ServerConfig where
  bytes := List.replicate sizeofSanitizerConfig 0
  sized := List.length_replicate
  pluginPath := mem_field_replicate (by decide) (by decide) 0
  kernelName := mem_field_replicate (by decide) (by decide) 0
  dumpPath := mem_field_replicate (by decide) (by decide) 0

def fullRead : List (Int32 × Event) := [(0, .getConfig), (0, .read (.chunk 1024))]

theorem handshake_iff_prompt_fullRead :
    (∀ n, Handshake (fun _ => clearedConfig)
      ((fullRead.take n).foldl step (start fun _ => clearedConfig))) ↔
      Guarded step Prompt (start fun _ => clearedConfig) fullRead := by
  have hsent : 1024 ≤ (List.replicate sizeofSanitizerConfig (0 : UInt8)).length := by
    rw [List.length_replicate]
    decide
  exact handshake_iff_prompt _ fullRead
    ⟨rfl, ⟨rfl, by decide, by decide, hsent⟩, trivial⟩

/-- The server takes longer than the time limit. -/
def lateConfig : List (Int32 × Event) :=
  (0, .getConfig) :: List.replicate 6 (0, .read .timedOut)

theorem lateConfig_not_handshake :
    ¬ ∀ (configs : Int32 → ServerConfig) (events : List (Int32 × Event)),
      Guarded step Enabled (start configs) events →
        ∀ n, Handshake configs ((events.take n).foldl step (start configs)) := by
  intro h
  have henabled : Guarded step Enabled (start fun _ => clearedConfig) lateConfig :=
    ⟨rfl, rfl, rfl, rfl, rfl, rfl, rfl, trivial⟩
  have hend := h (fun _ => clearedConfig) lateConfig henabled 7 0
  have htaken : (((lateConfig.take 7).foldl step (start fun _ => clearedConfig)) 0).taken =
      [⟨none, 0, []⟩] := rfl
  have hconfig : (((lateConfig.take 7).foldl step (start fun _ => clearedConfig)) 0).config =
      some defaultConfig := rfl
  have honce := hend.once
  rw [htaken, hconfig] at honce
  have hmsg : [] = clearedConfig.bytes := congrArg Taken.msg (List.singleton_inj.mp honce)
  have hlength := congrArg List.length hmsg
  rw [clearedConfig.sized] at hlength
  exact absurd hlength (by decide)

end Msopcom.ConfigHandshake
