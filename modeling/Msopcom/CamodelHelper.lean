import Mathlib.Logic.Function.Iterate
import Msopcom.Bytes
import Msopcom.Runs

set_option autoImplicit false

/-!
# The log queue of the simulator

The callbacks of the simulator queue logs, and a thread takes them out under the lock and sends them
behind it. `SendSync` waits for the queue to be empty. What is done under the lock is one step here;
a wait with a time limit may end with every step, since a thread may wake up without a reason.
-/
namespace Msopcom.CamodelHelper
open Bytes

/-! ## Logs -/

inductive ProfPacketType
  | instrLog
  | poppedLog
  | icacheLog
  | mteLog
  deriving DecidableEq, Repr

namespace ProfPacketType

def toNat : ProfPacketType → ℕ
  | instrLog => 20
  | poppedLog => 21
  | icacheLog => 22
  | mteLog => 23

/-- The size of `DvcInstrLog`, `DvciCacheLog` or `DvcMteLog`. -/
def sizeofData : ProfPacketType → ℕ
  | instrLog | poppedLog => 424
  | icacheLog => 40
  | mteLog => 64

end ProfPacketType

/-- A log with the bytes of its structure. -/
structure CaLog where
  type : ProfPacketType
  data : List UInt8
  size : data.length = type.sizeofData
  deriving DecidableEq, Repr

/-- The head of the packet, and the log. -/
def CaLog.serialize (log : CaLog) : List UInt8 :=
  leBytes 4 log.type.toNat ++ leBytes 4 log.type.sizeofData ++ log.data

/-! ## The threads -/

/-- Where the thread of `PopMessage` is: in front of the loop's condition, behind it, between the
lock and `SendMsg`, or at its end. -/
inductive Consumer
  | checking
  | polling
  | sending (log : CaLog)
  | stopped
  deriving DecidableEq, Repr

/-- A call of `SendSync`, with the number of logs that were queued before it. -/
inductive Sync
  | notCalled
  | called (before : ℕ)
  | returned (before : ℕ)
  deriving DecidableEq, Repr

end CamodelHelper

/-- The helper, with what has been queued and what has been sent so far. -/
structure CamodelHelper where
  queue : List CamodelHelper.CaLog := []
  isListening : Bool := true
  consumer : CamodelHelper.Consumer := .checking
  syncs : ℕ → CamodelHelper.Sync := fun _ => .notCalled
  queued : List CamodelHelper.CaLog := []
  sent : List (List UInt8) := []

namespace CamodelHelper
open Runs

def sendCaLog (data : CaLog) (s : CamodelHelper) : CamodelHelper :=
  { s with queue := s.queue ++ [data], queued := s.queued ++ [data] }

def setConsumer (consumer : Consumer) (s : CamodelHelper) : CamodelHelper :=
  { s with consumer := consumer }

def pop (log : CaLog) (queue : List CaLog) (s : CamodelHelper) : CamodelHelper :=
  { s with queue := queue, consumer := .sending log }

def sendMsg (msg : List UInt8) (s : CamodelHelper) : CamodelHelper :=
  { s with sent := s.sent ++ [msg], consumer := .checking }

/-- The next step of `PopMessage`. On an empty queue it waits, and then looks whether it is still to
listen. -/
def popMessage (s : CamodelHelper) : CamodelHelper :=
  match s.consumer with
  | .checking => s.setConsumer (if s.isListening then .polling else .stopped)
  | .polling =>
    match s.queue with
    | [] => s.setConsumer .checking
    | log :: queue => s.pop log queue
  | .sending log => s.sendMsg log.serialize
  | .stopped => s

def setSync (id : ℕ) (sync : Sync) (s : CamodelHelper) : CamodelHelper :=
  { s with syncs := Function.update s.syncs id sync }

def callSync (id : ℕ) (s : CamodelHelper) : CamodelHelper :=
  match s.syncs id with
  | .notCalled => s.setSync id (.called s.queued.length)
  | _ => s

/-- `SendSync` with the lock, at first or after it has waited. -/
def checkSync (id : ℕ) (s : CamodelHelper) : CamodelHelper :=
  match s.syncs id with
  | .called before => if s.queue = [] then s.setSync id (.returned before) else s
  | _ => s

/-- The destructor, which then joins the thread. -/
def stopListening (s : CamodelHelper) : CamodelHelper := { s with isListening := false }

inductive Op
  | sendCaLog (data : CaLog)
  | popMessage
  | callSync (id : ℕ)
  | checkSync (id : ℕ)
  | stopListening
  deriving DecidableEq, Repr

def step (s : CamodelHelper) : Op → CamodelHelper
  | .sendCaLog data => s.sendCaLog data
  | .popMessage => s.popMessage
  | .callSync id => s.callSync id
  | .checkSync id => s.checkSync id
  | .stopListening => s.stopListening

/-! ## What the queue is for -/

/-- Messages are sent in the order of the logs, each once; while the helper listens all of them will
be; and a call of `SendSync` that has returned leaves none behind that was queued before it. -/
structure Right (s : CamodelHelper) : Prop where
  order : s.sent <+: s.queued.map CaLog.serialize
  reach : s.isListening = true →
    ∃ n, (popMessage^[n] s).sent = s.queued.map CaLog.serialize
  sync : ∀ id before, s.syncs id = .returned before →
    (s.queued.take before).map CaLog.serialize <+: s.sent

/-- `SendSync` does not return while a log that was queued before the call is on its way. -/
def Checked (s : CamodelHelper) : Op → Prop
  | .checkSync id => ∀ before, s.syncs id = .called before → s.queue = [] →
      ∀ log, s.consumer = .sending log → before < s.queued.length
  | _ => True

/-! ## What every step keeps -/

def Consumer.held : Consumer → List CaLog
  | .sending log => [log]
  | _ => []

structure Inv (s : CamodelHelper) : Prop where
  conserved : s.queued.map CaLog.serialize =
    s.sent ++ (s.consumer.held ++ s.queue).map CaLog.serialize
  running : s.isListening = true → s.consumer ≠ .stopped
  called : ∀ id before, s.syncs id = .called before → before ≤ s.queued.length
  returned : ∀ id before, s.syncs id = .returned before → before ≤ s.queued.length

section
variable {s : CamodelHelper}

theorem inv_sendCaLog (h : Inv s) (data : CaLog) : Inv (s.sendCaLog data) where
  conserved := by simp [sendCaLog, h.conserved]
  running := h.running
  called id before hid := by
    have hle := h.called id before hid
    simp only [sendCaLog, List.length_append]
    omega
  returned id before hid := by
    have hle := h.returned id before hid
    simp only [sendCaLog, List.length_append]
    omega

theorem popMessage_checking (h : s.consumer = .checking) :
    s.popMessage = s.setConsumer (if s.isListening then .polling else .stopped) := by
  simp [popMessage, h]

theorem popMessage_listen (h : s.consumer = .checking) (hlistening : s.isListening = true) :
    s.popMessage = s.setConsumer .polling := by
  simp [popMessage, h, hlistening]

theorem popMessage_wait (h : s.consumer = .polling) (hqueue : s.queue = []) :
    s.popMessage = s.setConsumer .checking := by
  simp [popMessage, h, hqueue]

theorem popMessage_pop (h : s.consumer = .polling) {log : CaLog} {queue : List CaLog}
    (hqueue : s.queue = log :: queue) : s.popMessage = s.pop log queue := by
  simp [popMessage, h, hqueue]

theorem popMessage_send {log : CaLog} (h : s.consumer = .sending log) :
    s.popMessage = s.sendMsg log.serialize := by
  simp [popMessage, h]

theorem inv_popMessage (h : Inv s) : Inv s.popMessage := by
  have hconserved := h.conserved
  cases hconsumer : s.consumer with
  | checking =>
    rw [popMessage_checking hconsumer]
    rw [hconsumer] at hconserved
    refine ⟨?_, ?_, h.called, h.returned⟩
    · cases s.isListening <;> exact hconserved
    · intro hlistening
      have hlisten : s.isListening = true := hlistening
      simp [setConsumer, hlisten]
  | polling =>
    rw [hconsumer] at hconserved
    cases hqueue : s.queue with
    | nil =>
      rw [popMessage_wait hconsumer hqueue]
      exact ⟨hconserved, fun _ => nofun, h.called, h.returned⟩
    | cons log queue =>
      rw [popMessage_pop hconsumer hqueue]
      rw [hqueue] at hconserved
      exact ⟨hconserved, fun _ => nofun, h.called, h.returned⟩
  | sending log =>
    rw [popMessage_send hconsumer]
    rw [hconsumer] at hconserved
    refine ⟨?_, fun _ => nofun, h.called, h.returned⟩
    simpa [sendMsg, Consumer.held] using hconserved
  | stopped =>
    have hsame : s.popMessage = s := by simp [popMessage, hconsumer]
    rw [hsame]
    exact h

theorem syncs_setSync (id id' : ℕ) (sync : Sync) :
    (s.setSync id sync).syncs id' = if id' = id then sync else s.syncs id' :=
  Function.update_apply _ _ _ _

/-- What is known of a call of `SendSync` after a step of it. -/
theorem inv_setSync (h : Inv s) {id : ℕ} {sync : Sync}
    (hcalled : ∀ before, sync = .called before → before ≤ s.queued.length)
    (hreturned : ∀ before, sync = .returned before → before ≤ s.queued.length) :
    Inv (s.setSync id sync) where
  conserved := h.conserved
  running := h.running
  called id' before := by
    rw [syncs_setSync]
    split
    · exact hcalled before
    · exact h.called id' before
  returned id' before := by
    rw [syncs_setSync]
    split
    · exact hreturned before
    · exact h.returned id' before

theorem inv_callSync (h : Inv s) (id : ℕ) : Inv (s.callSync id) := by
  unfold callSync
  split
  · refine inv_setSync h (fun before hcalled => ?_) nofun
    cases hcalled
    exact Nat.le_refl _
  · exact h

theorem inv_checkSync (h : Inv s) (id : ℕ) : Inv (s.checkSync id) := by
  unfold checkSync
  split
  case h_1 before hsync =>
    split
    · refine inv_setSync h nofun (fun before' hreturned => ?_)
      cases hreturned
      exact h.called id before hsync
    · exact h
  case h_2 => exact h

theorem inv_step (h : Inv s) (op : Op) : Inv (step s op) := by
  cases op with
  | sendCaLog data => exact inv_sendCaLog h data
  | popMessage => exact inv_popMessage h
  | callSync id => exact inv_callSync h id
  | checkSync id => exact inv_checkSync h id
  | stopListening => exact ⟨h.conserved, nofun, h.called, h.returned⟩

/-! ## Every log is sent -/

/-- From the loop on, the thread sends what is in the queue; by induction on the queue. -/
theorem sends_queue (hlistening : s.isListening = true) (hconsumer : s.consumer = .polling) :
    ∃ n, (popMessage^[n] s).sent = s.sent ++ s.queue.map CaLog.serialize := by
  induction hqueue : s.queue generalizing s with
  | nil => exact ⟨0, by simp⟩
  | cons log queue ih =>
    have hpop := popMessage_pop hconsumer hqueue
    have hsend : (s.pop log queue).popMessage = (s.pop log queue).sendMsg log.serialize :=
      popMessage_send rfl
    have hcheck : ((s.pop log queue).sendMsg log.serialize).popMessage =
        ((s.pop log queue).sendMsg log.serialize).setConsumer .polling :=
      popMessage_listen rfl hlistening
    obtain ⟨n, hn⟩ := @ih (((s.pop log queue).sendMsg log.serialize).setConsumer .polling)
      hlistening rfl rfl
    refine ⟨n + 3, ?_⟩
    rw [Function.iterate_add_apply]
    have hthree : popMessage^[3] s =
        ((s.pop log queue).sendMsg log.serialize).setConsumer .polling := by
      simp only [Function.iterate_succ_apply, Function.iterate_zero_apply, hpop, hsend, hcheck]
    rw [hthree, hn]
    simp [pop, sendMsg, setConsumer]

/-- The thread comes to the loop first, and may have to send what it has taken out before. -/
theorem sends_all (h : Inv s) (hlistening : s.isListening = true) :
    ∃ n, (popMessage^[n] s).sent = s.queued.map CaLog.serialize := by
  have hconserved := h.conserved
  cases hconsumer : s.consumer with
  | checking =>
    obtain ⟨n, hn⟩ := @sends_queue (s.setConsumer .polling) hlistening rfl
    refine ⟨n + 1, ?_⟩
    rw [Function.iterate_succ_apply, popMessage_listen hconsumer hlistening, hn, hconserved,
      hconsumer]
    rfl
  | polling =>
    obtain ⟨n, hn⟩ := sends_queue hlistening hconsumer
    refine ⟨n, ?_⟩
    rw [hn, hconserved, hconsumer]
    rfl
  | sending log =>
    obtain ⟨n, hn⟩ := @sends_queue ((s.sendMsg log.serialize).setConsumer .polling) hlistening rfl
    have hcheck : (s.sendMsg log.serialize).popMessage =
        (s.sendMsg log.serialize).setConsumer .polling := popMessage_listen rfl hlistening
    refine ⟨n + 2, ?_⟩
    rw [Function.iterate_succ_apply, Function.iterate_succ_apply, popMessage_send hconsumer, hcheck,
      hn, hconserved, hconsumer]
    simp [sendMsg, setConsumer, Consumer.held]
  | stopped => exact absurd hconsumer (h.running hlistening)

/-! ## Runs -/

/-- What is sent is the front of what has been queued. -/
theorem sync_iff (h : Inv s) {before : ℕ} (hbefore : before ≤ s.queued.length) :
    (s.queued.take before).map CaLog.serialize <+: s.sent ↔ before ≤ s.sent.length := by
  have hprefix : s.sent <+: s.queued.map CaLog.serialize := ⟨_, h.conserved.symm⟩
  rw [List.map_take]
  constructor
  · intro hle
    have hlength := hle.length_le
    rw [List.length_take, List.length_map] at hlength
    omega
  · intro hle
    exact List.prefix_of_prefix_length_le (List.take_prefix _ _) hprefix (by
      rw [List.length_take]
      omega)

theorem right_iff (h : Inv s) :
    Right s ↔ ∀ id before, s.syncs id = .returned before → before ≤ s.sent.length := by
  constructor
  · intro hright id before hid
    exact (sync_iff h (h.returned id before hid)).mp (hright.sync id before hid)
  · intro hsync
    refine ⟨⟨_, h.conserved.symm⟩, sends_all h, fun id before hid => ?_⟩
    exact (sync_iff h (h.returned id before hid)).mpr (hsync id before hid)

/-- On an empty queue, what has not been sent is what the thread holds. -/
theorem length_queued (h : Inv s) (hqueue : s.queue = []) :
    s.queued.length = s.sent.length + s.consumer.held.length := by
  have hlength := congrArg List.length h.conserved
  simpa [hqueue] using hlength

theorem syncs_popMessage : s.popMessage.syncs = s.syncs := by
  unfold popMessage
  split
  · rfl
  · split <;> rfl
  · rfl
  · rfl

theorem length_sent_popMessage : s.sent.length ≤ s.popMessage.sent.length := by
  unfold popMessage
  split
  · exact Nat.le_refl _
  · split <;> exact Nat.le_refl _
  · simp [sendMsg]
  · exact Nat.le_refl _

/-- A call that returns on an empty queue leaves nothing behind, unless the thread holds a log that
was queued before it. -/
theorem before_le_iff (h : Inv s) {before : ℕ} (hbefore : before ≤ s.queued.length)
    (hqueue : s.queue = []) : before ≤ s.sent.length ↔
      ∀ log, s.consumer = .sending log → before < s.queued.length := by
  have hlength := length_queued h hqueue
  cases hconsumer : s.consumer with
  | sending log =>
    rw [hconsumer] at hlength
    have hheld : (Consumer.sending log).held.length = 1 := rfl
    constructor
    · intro _ _ _
      omega
    · intro hlt
      have hbelow := hlt log rfl
      omega
  | checking | polling | stopped =>
    rw [hconsumer] at hlength
    refine iff_of_true ?_ fun _ => nofun
    simpa [Consumer.held, hlength] using hbefore

theorem right_checkSync_iff (h : Inv s)
    (hold : ∀ id before, s.syncs id = .returned before → before ≤ s.sent.length) (id : ℕ) :
    (∀ id' before, (s.checkSync id).syncs id' = .returned before →
        before ≤ (s.checkSync id).sent.length) ↔ Checked s (.checkSync id) := by
  cases hsync : s.syncs id with
  | called before =>
    by_cases hqueue : s.queue = []
    · have hchecked : Checked s (.checkSync id) ↔ before ≤ s.sent.length := by
        rw [before_le_iff h (h.called id before hsync) hqueue]
        simp [Checked, hsync, hqueue]
      have hreturn : s.checkSync id = s.setSync id (.returned before) := by
        simp [checkSync, hsync, hqueue]
      rw [hchecked, hreturn]
      constructor
      · intro hnew
        exact hnew id before (by rw [syncs_setSync, if_pos rfl])
      · intro hle id' before' hid
        rw [syncs_setSync] at hid
        split at hid
        · cases hid
          exact hle
        · exact hold id' before' hid
    · have hsame : s.checkSync id = s := by simp [checkSync, hsync, hqueue]
      rw [hsame]
      exact iff_of_true hold fun _ _ hempty => absurd hempty hqueue
  | notCalled | returned =>
    have hsame : s.checkSync id = s := by simp [checkSync, hsync]
    rw [hsame]
    refine iff_of_true hold fun _ hcalled => ?_
    rw [hsync] at hcalled
    cases hcalled

theorem right_step_iff (h : Inv s) (hright : Right s) (op : Op) :
    Right (step s op) ↔ Checked s op := by
  have hold := (right_iff h).mp hright
  rw [right_iff (inv_step h op)]
  cases op with
  | sendCaLog data => exact iff_of_true hold trivial
  | popMessage =>
    refine iff_of_true (fun id before hid => ?_) trivial
    have hreturned : s.syncs id = .returned before := by
      rw [← syncs_popMessage]
      exact hid
    exact Nat.le_trans (hold id before hreturned) length_sent_popMessage
  | callSync id =>
    refine iff_of_true (fun id' before hid => ?_) trivial
    unfold step callSync at hid ⊢
    dsimp only at hid ⊢
    split at hid
    · rw [syncs_setSync] at hid
      split at hid
      · cases hid
      · exact hold id' before hid
    · exact hold id' before hid
  | checkSync id => exact right_checkSync_iff h hold id
  | stopListening => exact iff_of_true hold trivial

theorem inv_initial : Inv {} where
  conserved := rfl
  running := fun _ => nofun
  called _ _ := nofun
  returned _ _ := nofun

/-- In every state of a run the queue does what it is for, exactly if no call of `SendSync` returns
while a log that was queued before it is on its way. -/
theorem queue_right_iff (ops : List Op) :
    (∀ n, Right ((ops.take n).foldl step {})) ↔ Guarded step Checked {} ops := by
  have hstart : Right {} := (right_iff inv_initial).mpr fun _ _ => nofun
  exact @guarded_iff_invariant_of _ _ step Checked Right Inv (fun _ _ => True)
    (fun _ op _ h _ => inv_step h op) (fun _ op _ h hright => right_step_iff h hright op) _ ops
    (guarded_true _ ops) inv_initial hstart

end

def icacheLog : CaLog := ⟨.icacheLog, List.replicate 40 0, rfl⟩

/-- The only log is taken out, and before it is sent a call finds the queue empty. -/
def syncWhileSending : List Op :=
  [.sendCaLog icacheLog, .popMessage, .popMessage, .callSync 0, .checkSync 0]

theorem not_right_syncWhileSending : ¬ Right (syncWhileSending.foldl step {}) := by
  intro h
  exact absurd (h.sync 0 1 (by rfl)) (by decide +kernel)

end Msopcom.CamodelHelper
