import Msopcom.Runs
import Msopcom.KeyedList
import Msopcom.Words
import Mathlib.Algebra.Order.Ring.Nat

set_option autoImplicit false

/-!
# Mstx ranges

Range ids belong to the process, the counts of their messages to the threads.
-/
namespace Msopcom.MsTxRange
open KeyedList

abbrev Message := List UInt8

abbrev MessageCount := AList fun _ : Message => UInt64

abbrev UsageCount := AList fun _ : ℕ => MessageCount

structure MstxProfConfig where
  isMstxEnable : Bool
  mstxEnabledMessage : Message
  isRangeReplay : Bool

/-- `std::getline` up to the end: a separator at the end starts no token. -/
def splitString (split : UInt8) : Message → List Message
  | [] => []
  | byte :: bytes =>
    if byte = split then [] :: splitString split bytes
    else
      match splitString split bytes with
      | [] => [[byte]]
      | token :: tokens => (byte :: token) :: tokens

/-- The first token ends with the first separator. -/
theorem splitString_append_cons {split : UInt8} {token : Message} (h : split ∉ token)
    (rest : Message) :
    splitString split (token ++ split :: rest) = token :: splitString split rest := by
  induction token with
  | nil => rw [List.nil_append, splitString, if_pos rfl]
  | cons b token ih =>
    rw [List.mem_cons, not_or] at h
    rw [List.cons_append, splitString, if_neg (Ne.symm h.1), ih h.2]

def MstxProfConfig.enabledMessageList (config : MstxProfConfig) : List Message :=
  splitString 124 config.mstxEnabledMessage

def isMessageEnable (config : MstxProfConfig) (msg : Message) : Bool :=
  if config.mstxEnabledMessage.isEmpty then true else decide (msg ∈ config.enabledMessageList)

structure MsTx where
  usageCount : UsageCount := ∅
  activeId2Message : AList (fun _ : UInt64 => Message) := ∅
  invalidRangeIds : List UInt64 := []
  rangeId : UInt64 := 0

/-- Whether the calling thread is in a range. -/
def isInMstxRange (config : MstxProfConfig) (thread : ℕ) (s : MsTx) : Bool :=
  if !config.isMstxEnable then true
  else if config.mstxEnabledMessage.isEmpty then
    match s.usageCount.lookup thread with
    | none => false
    | some counts => !counts.entries.isEmpty
  else
    config.enabledMessageList.any fun message =>
      match s.usageCount.lookup thread with
      | none => false
      | some counts => (counts.lookup message).isSome

/-- In range replay a range may be invalid; its id is active, its message is not counted. -/
def rangeValid (config : MstxProfConfig) (thread : ℕ) (message : Message) (s : MsTx) : Bool :=
  if config.isRangeReplay then
    if !isMessageEnable config message then false
    else !isInMstxRange config thread s
  else true

/-- `map[thread][message]++`. -/
def addUsage (thread : ℕ) (message : Message) (usage : UsageCount) : UsageCount :=
  let counts := (usage.lookup thread).getD ∅
  usage.insert thread (counts.insert message ((counts.lookup message).getD 0 + 1))

/-- A thread without counts has no entry. -/
def storeCounts (thread : ℕ) (counts : MessageCount) (usage : UsageCount) : UsageCount :=
  if counts.entries.isEmpty then usage.erase thread else usage.insert thread counts

def removeUsage (thread : ℕ) (message : Message) (usage : UsageCount) : UsageCount :=
  match usage.lookup thread with
  | none => usage
  | some counts =>
    match counts.lookup message with
    | none => usage
    | some count =>
      let count := if count > 0 then count - 1 else count
      let counts := if count = 0 then counts.erase message else counts.insert message count
      storeCounts thread counts usage

def uint64Max : UInt64 := 0xFFFFFFFFFFFFFFFF

def mstxRangeAdd (config : MstxProfConfig) (thread : ℕ) (message : Message) (s : MsTx) :
    UInt64 × MsTx :=
  let valid := rangeValid config thread message s
  if s.rangeId = uint64Max then (uint64Max, s)
  else
    (s.rangeId,
      { usageCount := if valid then addUsage thread message s.usageCount else s.usageCount
        activeId2Message := s.activeId2Message.insert s.rangeId message
        invalidRangeIds := if valid then s.invalidRangeIds else s.rangeId :: s.invalidRangeIds
        rangeId := s.rangeId + 1 })

def mstxRangeEnd (thread : ℕ) (rangeId : UInt64) (s : MsTx) : MsTx :=
  match s.activeId2Message.lookup rangeId with
  | none => s
  | some message =>
    let s := { s with activeId2Message := s.activeId2Message.erase rangeId }
    if rangeId ∈ s.invalidRangeIds then s
    else { s with usageCount := removeUsage thread message s.usageCount }

/-! ## Runs -/

/-- A range that has been started and not ended. -/
structure Range where
  id : UInt64
  thread : ℕ
  message : Message
  valid : Bool
  deriving DecidableEq, Repr

structure Session where
  mstx : MsTx := {}
  ranges : List Range := []

inductive Event
  | add (thread : ℕ) (message : Message)
  | stop (thread : ℕ) (rangeId : UInt64)
  deriving DecidableEq, Repr

def step (config : MstxProfConfig) (s : Session) : Event → Session
  | .add thread message =>
    let (rangeId, mstx) := mstxRangeAdd config thread message s.mstx
    { mstx := mstx
      ranges :=
        if rangeId = uint64Max then s.ranges
        else s.ranges ++ [⟨rangeId, thread, message, rangeValid config thread message s.mstx⟩] }
  | .stop thread rangeId =>
    { mstx := mstxRangeEnd thread rangeId s.mstx
      ranges := s.ranges.filter fun r => r.id ≠ rangeId }

def entryOf (usage : UsageCount) (thread : ℕ) (message : Message) : Option UInt64 :=
  (usage.lookup thread).bind fun counts => counts.lookup message

/-- The count kept for a thread and a message. -/
def usageOf (usage : UsageCount) (thread : ℕ) (message : Message) : ℕ :=
  ((entryOf usage thread message).getD 0).toNat

/-- The valid ranges of a thread with a message. -/
def activeRanges (ranges : List Range) (thread : ℕ) (message : Message) : ℕ :=
  ranges.countP fun r => r.valid && (r.thread = thread && r.message = message)

/-- A valid range with the message is ended by the thread exactly when the thread has
started it. -/
def OwnEnds (thread : ℕ) (message : Message) (s : Session) : Event → Prop
  | .add _ _ => True
  | .stop ender rangeId =>
    ∀ r ∈ s.ranges, r.id = rangeId → r.valid = true → r.message = message →
      (ender = thread ↔ r.thread = thread)

instance (thread : ℕ) (message : Message) : DecidableRel (OwnEnds thread message)
  | _, .add _ _ => isTrue trivial
  | s, .stop ender rangeId =>
    inferInstanceAs (Decidable (∀ r ∈ s.ranges, r.id = rangeId → r.valid = true →
      r.message = message → (ender = thread ↔ r.thread = thread)))

/-! ## The counts -/

/-- No entry is zero, and no thread has an empty map. -/
structure Tidy (usage : UsageCount) : Prop where
  threads : ∀ thread counts, usage.lookup thread = some counts → counts.entries ≠ []
  counts : ∀ thread message count, entryOf usage thread message = some count → count ≠ 0

theorem lookup_getD_empty (counts : Option MessageCount) (message : Message) :
    (counts.getD ∅).lookup message = counts.bind fun counts => counts.lookup message := by
  cases counts <;> rfl

theorem entryOf_addUsage (usage : UsageCount) (thread thread' : ℕ) (message message' : Message) :
    entryOf (addUsage thread message usage) thread' message' =
      if thread' = thread ∧ message' = message then
        some ((entryOf usage thread message).getD 0 + 1)
      else entryOf usage thread' message' := by
  rw [entryOf, addUsage, lookup_insert_eq]
  by_cases hthread : thread' = thread
  · rw [if_pos hthread, Option.bind_some, lookup_insert_eq, lookup_getD_empty, lookup_getD_empty,
      hthread]
    by_cases hmessage : message' = message
    · rw [if_pos hmessage, if_pos ⟨rfl, hmessage⟩]
      rfl
    · rw [if_neg hmessage, if_neg fun h => hmessage h.2]
      rfl
  · rw [if_neg hthread, if_neg fun h => hthread h.1]
    rfl

theorem tidy_addUsage {usage : UsageCount} (h : Tidy usage) {thread : ℕ} {message : Message}
    (hfit : usageOf usage thread message + 1 < 2 ^ 64) : Tidy (addUsage thread message usage) := by
  constructor
  case threads =>
    intro thread' counts hcounts
    rw [addUsage, lookup_insert_eq] at hcounts
    by_cases hthread : thread' = thread
    · rw [if_pos hthread, Option.some.injEq] at hcounts
      rw [← hcounts, entries_ne_nil_iff]
      exact ⟨message, _, AList.lookup_insert _⟩
    · rw [if_neg hthread] at hcounts
      exact h.threads thread' counts hcounts
  case counts =>
    intro thread' message' count hcount
    rw [entryOf_addUsage] at hcount
    by_cases hsame : thread' = thread ∧ message' = message
    · rw [if_pos hsame, Option.some.injEq] at hcount
      have hcount' : count.toNat = usageOf usage thread message + 1 := by
        rw [← hcount]
        exact Words.toNat_add64 hfit
      intro hzero
      rw [hzero] at hcount'
      exact absurd hcount'.symm (Nat.succ_ne_zero _)
    · rw [if_neg hsame] at hcount
      exact h.counts thread' message' count hcount

theorem usageOf_addUsage {usage : UsageCount} {thread : ℕ} {message : Message}
    (hfit : usageOf usage thread message + 1 < 2 ^ 64) (thread' : ℕ) (message' : Message) :
    usageOf (addUsage thread message usage) thread' message' =
      usageOf usage thread' message' + if thread' = thread ∧ message' = message then 1 else 0 := by
  rw [usageOf, entryOf_addUsage]
  by_cases hsame : thread' = thread ∧ message' = message
  · rw [if_pos hsame, if_pos hsame, hsame.1, hsame.2]
    exact Words.toNat_add64 hfit
  · rw [if_neg hsame, if_neg hsame]
    rfl

theorem entryOf_storeCounts (usage : UsageCount) (thread thread' : ℕ) (counts : MessageCount)
    (message : Message) :
    entryOf (storeCounts thread counts usage) thread' message =
      if thread' = thread then counts.lookup message else entryOf usage thread' message := by
  rw [storeCounts]
  cases hempty : counts.entries.isEmpty with
  | true =>
    have hnone : counts.lookup message = none := by
      by_contra hsome
      obtain ⟨count, hcount⟩ := Option.ne_none_iff_exists'.mp hsome
      exact (entries_ne_nil_iff counts).mpr ⟨message, count, hcount⟩ (List.isEmpty_iff.mp hempty)
    rw [if_pos rfl, entryOf, lookup_erase_eq, hnone]
    split_ifs <;> rfl
  | false =>
    rw [if_neg Bool.false_ne_true, entryOf, lookup_insert_eq]
    split_ifs <;> rfl

theorem tidy_storeCounts {usage : UsageCount} (h : Tidy usage) (thread : ℕ) {counts : MessageCount}
    (hcounts : ∀ message count, counts.lookup message = some count → count ≠ 0) :
    Tidy (storeCounts thread counts usage) := by
  constructor
  case threads =>
    intro thread' counts' hlookup
    rw [storeCounts] at hlookup
    cases hempty : counts.entries.isEmpty with
    | true =>
      rw [hempty, if_pos rfl, lookup_erase_eq] at hlookup
      split_ifs at hlookup
      exact h.threads thread' counts' hlookup
    | false =>
      rw [hempty, if_neg Bool.false_ne_true, lookup_insert_eq] at hlookup
      split_ifs at hlookup with hthread
      · cases hlookup
        exact List.isEmpty_eq_false_iff.mp hempty
      · exact h.threads thread' counts' hlookup
  case counts =>
    intro thread' message count hcount
    rw [entryOf_storeCounts] at hcount
    split_ifs at hcount with hthread
    · exact hcounts message count hcount
    · exact h.counts thread' message count hcount

/-- What is left of the entry of a message. -/
theorem lookup_decremented (counts : MessageCount) (message message' : Message) {count : UInt64}
    (hne : count ≠ 0) :
    (if (if count > 0 then count - 1 else count) = 0 then counts.erase message
      else counts.insert message (if count > 0 then count - 1 else count)).lookup message' =
        if message' = message then (if count - 1 = 0 then none else some (count - 1))
        else counts.lookup message' := by
  have hpos : count > 0 := UInt64.pos_iff_ne_zero.mpr hne
  rw [if_pos hpos]
  by_cases hzero : count - 1 = 0
  · rw [if_pos hzero, if_pos hzero, lookup_erase_eq]
  · rw [if_neg hzero, if_neg hzero, lookup_insert_eq]

section Remove
variable {usage : UsageCount} (h : Tidy usage) (thread : ℕ) (message : Message)
include h

theorem removeUsage_cases :
    entryOf usage thread message = none ∧ removeUsage thread message usage = usage ∨
      ∃ counts count, usage.lookup thread = some counts ∧ counts.lookup message = some count ∧
        count ≠ 0 ∧ removeUsage thread message usage =
          storeCounts thread
            (if (if count > 0 then count - 1 else count) = 0 then counts.erase message
              else counts.insert message (if count > 0 then count - 1 else count)) usage := by
  rw [removeUsage, entryOf]
  cases hcounts : usage.lookup thread with
  | none => exact .inl ⟨rfl, rfl⟩
  | some counts =>
    cases hcount : counts.lookup message with
    | none => exact .inl ⟨hcount, by simp only [hcount]⟩
    | some count =>
      have hne : count ≠ 0 := h.counts thread message count (by rw [entryOf, hcounts]; exact hcount)
      exact .inr ⟨counts, count, rfl, hcount, hne, by simp only [hcount]⟩

theorem tidy_removeUsage : Tidy (removeUsage thread message usage) := by
  cases removeUsage_cases h thread message with
  | inl hnone => rwa [hnone.2]
  | inr hsome =>
    obtain ⟨counts, count, hcounts, hcount, hne, hremove⟩ := hsome
    rw [hremove]
    apply tidy_storeCounts h
    intro message' count' hcount'
    rw [lookup_decremented counts message message' hne] at hcount'
    split_ifs at hcount' with hmessage hzero
    · cases hcount'
      exact hzero
    · exact h.counts thread message' count' (by rw [entryOf, hcounts]; exact hcount')

theorem usageOf_removeUsage (thread' : ℕ) (message' : Message) :
    usageOf (removeUsage thread message usage) thread' message' =
      usageOf usage thread' message' - if thread' = thread ∧ message' = message then 1 else 0 := by
  cases removeUsage_cases h thread message with
  | inl hnone =>
    obtain ⟨hentry, hremove⟩ := hnone
    rw [hremove]
    by_cases hsame : thread' = thread ∧ message' = message
    · have hzero : usageOf usage thread' message' = 0 := by
        rw [usageOf, hsame.1, hsame.2, hentry]
        rfl
      rw [hzero, Nat.zero_sub]
    · rw [if_neg hsame, Nat.sub_zero]
  | inr hsome =>
    obtain ⟨counts, count, hcounts, hcount, hne, hremove⟩ := hsome
    rw [hremove, usageOf, entryOf_storeCounts]
    by_cases hthread : thread' = thread
    · rw [if_pos hthread, lookup_decremented counts message message' hne]
      by_cases hmessage : message' = message
      · have hentry : usageOf usage thread' message' = count.toNat := by
          rw [usageOf, entryOf, hthread, hmessage, hcounts, Option.bind_some, hcount]
          rfl
        have hpred : (count - 1).toNat = count.toNat - 1 :=
          Words.toNat_sub64 (Words.pos_iff_ne_zero.mpr hne)
        have hsame : thread' = thread ∧ message' = message := ⟨hthread, hmessage⟩
        rw [if_pos hmessage, if_pos hsame, hentry, ← hpred]
        split_ifs with hzero
        · rw [hzero]
          rfl
        · rfl
      · have hentry : usageOf usage thread' message' = ((counts.lookup message').getD 0).toNat := by
          rw [usageOf, entryOf, hthread, hcounts]
          rfl
        rw [if_neg hmessage, if_neg fun hsame => hmessage hsame.2, hentry]
        rfl
    · rw [if_neg hthread, if_neg fun hsame => hthread hsame.1]
      rfl

end Remove

theorem isSome_entryOf_iff {usage : UsageCount} (h : Tidy usage) (thread : ℕ) (message : Message) :
    (entryOf usage thread message).isSome = true ↔ usageOf usage thread message ≠ 0 := by
  rw [usageOf]
  cases hentry : entryOf usage thread message with
  | none => simp
  | some count =>
    have hne := h.counts thread message count hentry
    simpa [← UInt64.toNat_inj] using hne

/-! ## The tables of a run -/

/-- The active ids are those of the ranges; a range is counted when it is valid. -/
structure Inv (s : Session) : Prop where
  tidy : Tidy s.mstx.usageCount
  bound : ∀ thread message, usageOf s.mstx.usageCount thread message ≤ s.mstx.rangeId.toNat
  distinct : Distinct Range.id s.ranges
  ids : ∀ r ∈ s.ranges, r.id.toNat < s.mstx.rangeId.toNat
  active : Indexes s.mstx.activeId2Message Range.id Range.message s.ranges
  invalid : ∀ r ∈ s.ranges, r.valid = true ↔ r.id ∉ s.mstx.invalidRangeIds
  invalidIds : ∀ id ∈ s.mstx.invalidRangeIds, id.toNat < s.mstx.rangeId.toNat

theorem inv_init : Inv {} := by
  constructor
  case tidy =>
    constructor
    case threads => exact fun thread counts h => absurd h nofun
    case counts => exact fun thread message count h => absurd h nofun
  case bound => exact fun thread message => Nat.zero_le _
  case distinct => exact List.Pairwise.nil
  case ids => exact fun r hr => absurd hr List.not_mem_nil
  case active => exact fun id message => iff_of_false nofun fun ⟨r, hr, _⟩ => List.not_mem_nil hr
  case invalid => exact fun r hr => absurd hr List.not_mem_nil
  case invalidIds => exact fun id hid => absurd hid List.not_mem_nil

section Add
variable (config : MstxProfConfig) {s : Session} (thread : ℕ) (message : Message)

theorem step_add_limit (h : s.mstx.rangeId = uint64Max) :
    step config s (.add thread message) = s := by
  simp only [step, mstxRangeAdd, if_pos h, ite_true]

theorem step_add (h : s.mstx.rangeId ≠ uint64Max) :
    step config s (.add thread message) =
      { mstx :=
          { usageCount := if rangeValid config thread message s.mstx then
              addUsage thread message s.mstx.usageCount else s.mstx.usageCount
            activeId2Message := s.mstx.activeId2Message.insert s.mstx.rangeId message
            invalidRangeIds := if rangeValid config thread message s.mstx then
              s.mstx.invalidRangeIds else s.mstx.rangeId :: s.mstx.invalidRangeIds
            rangeId := s.mstx.rangeId + 1 }
        ranges := s.ranges ++
          [⟨s.mstx.rangeId, thread, message, rangeValid config thread message s.mstx⟩] } := by
  simp only [step, mstxRangeAdd, if_neg h]

theorem toNat_nextId (h : s.mstx.rangeId ≠ uint64Max) :
    (s.mstx.rangeId + 1).toNat = s.mstx.rangeId.toNat + 1 := by
  have hlt := s.mstx.rangeId.toNat_lt
  have hne : s.mstx.rangeId.toNat ≠ 2 ^ 64 - 1 := fun heq => h (UInt64.toNat_inj.mp heq)
  exact Words.toNat_add64 (by change s.mstx.rangeId.toNat + 1 < 2 ^ 64; omega)

theorem Inv.add (hinv : Inv s) (h : s.mstx.rangeId ≠ uint64Max) :
    Inv (step config s (.add thread message)) := by
  have hnext := toNat_nextId h
  have hlt := (s.mstx.rangeId + 1).toNat_lt
  have hfit : usageOf s.mstx.usageCount thread message + 1 < 2 ^ 64 := by
    have hbound := hinv.bound thread message
    omega
  have hfresh : ∀ r ∈ s.ranges, r.id ≠ s.mstx.rangeId := by
    intro r hr heq
    have hid := hinv.ids r hr
    rw [heq] at hid
    exact Nat.lt_irrefl _ hid
  rw [step_add config thread message h]
  constructor
  case tidy =>
    dsimp only
    split_ifs
    · exact tidy_addUsage hinv.tidy hfit
    · exact hinv.tidy
  case bound =>
    intro thread' message'
    have hbound := hinv.bound thread' message'
    dsimp only
    rw [hnext]
    split_ifs
    · rw [usageOf_addUsage hfit]
      split_ifs <;> omega
    · omega
  case distinct => exact hinv.distinct.concat hfresh
  case ids =>
    intro r hr
    dsimp only
    rw [hnext]
    cases List.mem_append.mp hr with
    | inl hr => exact Nat.lt_succ_of_lt (hinv.ids r hr)
    | inr hr =>
      rw [List.mem_singleton.mp hr]
      exact Nat.lt_succ_self _
  case active =>
    let r : Range := ⟨s.mstx.rangeId, thread, message, rangeValid config thread message s.mstx⟩
    exact hinv.active.insert (a := r) hfresh
  case invalid =>
    intro r hr
    dsimp only
    cases List.mem_append.mp hr with
    | inl hr =>
      rw [hinv.invalid r hr]
      split_ifs
      · rfl
      · rw [List.mem_cons, not_or]
        exact (and_iff_right (hfresh r hr)).symm
    | inr hr =>
      rw [List.mem_singleton.mp hr]
      dsimp only
      split_ifs with hvalid
      · refine iff_of_true hvalid fun hmem => ?_
        exact Nat.lt_irrefl _ (hinv.invalidIds _ hmem)
      · exact iff_of_false hvalid (not_not.mpr List.mem_cons_self)
  case invalidIds =>
    intro id hid
    dsimp only at hid ⊢
    rw [hnext]
    split_ifs at hid
    · exact Nat.lt_succ_of_lt (hinv.invalidIds id hid)
    · cases List.mem_cons.mp hid with
      | inl hid => rw [hid]; exact Nat.lt_succ_self _
      | inr hid => exact Nat.lt_succ_of_lt (hinv.invalidIds id hid)

end Add

section Stop
variable (config : MstxProfConfig) {s : Session} (hinv : Inv s) (ender : ℕ)
include hinv

theorem step_stop_unknown {rangeId : UInt64} (h : ∀ r ∈ s.ranges, r.id ≠ rangeId) :
    step config s (.stop ender rangeId) = s := by
  have hnone : s.mstx.activeId2Message.lookup rangeId = none := by
    by_contra hsome
    obtain ⟨message, hmessage⟩ := Option.ne_none_iff_exists'.mp hsome
    obtain ⟨r, hr, hid, _⟩ := (hinv.active rangeId message).mp hmessage
    exact h r hr hid
  have hfilter : s.ranges.filter (fun r => r.id ≠ rangeId) = s.ranges :=
    List.filter_eq_self.mpr (by simpa using h)
  rw [step, mstxRangeEnd, hnone, hfilter]

theorem step_stop {r : Range} (hr : r ∈ s.ranges) :
    step config s (.stop ender r.id) =
      { mstx :=
          { s.mstx with
            activeId2Message := s.mstx.activeId2Message.erase r.id
            usageCount := if r.valid then removeUsage ender r.message s.mstx.usageCount
              else s.mstx.usageCount }
        ranges := s.ranges.filter fun r' => r'.id ≠ r.id } := by
  have hsome : s.mstx.activeId2Message.lookup r.id = some r.message :=
    (hinv.active r.id r.message).mpr ⟨r, hr, rfl, rfl⟩
  have hvalid := hinv.invalid r hr
  rw [step, mstxRangeEnd, hsome]
  dsimp only
  cases hv : r.valid with
  | true => rw [if_neg (hvalid.mp hv), if_pos rfl]
  | false =>
    have hmem : r.id ∈ s.mstx.invalidRangeIds := by
      by_contra hmem
      rw [hvalid.mpr hmem] at hv
      cases hv
    rw [if_pos hmem, if_neg Bool.false_ne_true]

theorem Inv.stop {r : Range} (hr : r ∈ s.ranges) : Inv (step config s (.stop ender r.id)) := by
  have hkept : ∀ {r' : Range}, r' ∈ s.ranges.filter (fun r' => r'.id ≠ r.id) →
      r' ∈ s.ranges ∧ r'.id ≠ r.id := by
    intro r' hr'
    simpa using List.mem_filter.mp hr'
  rw [step_stop config hinv ender hr]
  constructor
  case tidy =>
    dsimp only
    split_ifs
    · exact tidy_removeUsage hinv.tidy ender r.message
    · exact hinv.tidy
  case bound =>
    intro thread message
    have hbound := hinv.bound thread message
    dsimp only
    split_ifs
    · rw [usageOf_removeUsage hinv.tidy]
      omega
    · exact hbound
  case distinct => exact hinv.distinct.filter _
  case ids => exact fun r' hr' => hinv.ids r' (hkept hr').1
  case active => exact hinv.active.erase r.id
  case invalid => exact fun r' hr' => hinv.invalid r' (hkept hr').1
  case invalidIds => exact hinv.invalidIds

end Stop

theorem Inv.step (config : MstxProfConfig) {s : Session} (h : Inv s) (e : Event) :
    Inv (step config s e) := by
  cases e with
  | add thread message =>
    by_cases hlimit : s.mstx.rangeId = uint64Max
    · rwa [step_add_limit config thread message hlimit]
    · exact h.add config thread message hlimit
  | stop ender rangeId =>
    by_cases hknown : ∃ r ∈ s.ranges, r.id = rangeId
    · obtain ⟨r, hr, rfl⟩ := hknown
      exact h.stop config ender hr
    · rw [step_stop_unknown config h ender fun r hr hid => hknown ⟨r, hr, hid⟩]
      exact h

theorem inv_run (config : MstxProfConfig) (events : List Event) :
    Inv (events.foldl (step config) {}) :=
  Runs.invariant (fun _ e h => h.step config e) events inv_init

/-! ## What the counts count -/

section Count
variable {thread : ℕ} {message : Message}

/-- The tables, and the count of one thread and message. -/
def Counted (thread : ℕ) (message : Message) (s : Session) : Prop :=
  Inv s ∧ usageOf s.mstx.usageCount thread message = activeRanges s.ranges thread message

theorem counted_add (config : MstxProfConfig) {s : Session} (h : Counted thread message s)
    (starter : ℕ) (message' : Message) :
    Counted thread message (step config s (.add starter message')) := by
  obtain ⟨hinv, hcount⟩ := h
  refine ⟨hinv.step config _, ?_⟩
  by_cases hlimit : s.mstx.rangeId = uint64Max
  · rwa [step_add_limit config starter message' hlimit]
  · have hfit : usageOf s.mstx.usageCount starter message' + 1 < 2 ^ 64 := by
      have hbound := hinv.bound starter message'
      have hnext := toNat_nextId hlimit
      have hlt := (s.mstx.rangeId + 1).toNat_lt
      omega
    rw [step_add config starter message' hlimit]
    dsimp only
    rw [activeRanges, List.countP_append, List.countP_singleton]
    cases rangeValid config starter message' s.mstx with
    | false =>
      rw [if_neg Bool.false_ne_true, hcount]
      rfl
    | true =>
      have hcounts : (decide (starter = thread) && decide (message' = message)) = true ↔
          thread = starter ∧ message = message' := by
        rw [Bool.and_eq_true, decide_eq_true_iff, decide_eq_true_iff, eq_comm, @eq_comm _ message']
      rw [if_pos rfl, usageOf_addUsage hfit, hcount]
      simp only [Bool.true_and, hcounts]
      rfl

theorem counted_stop (config : MstxProfConfig) {s : Session} (h : Counted thread message s)
    {ender : ℕ} {rangeId : UInt64} (hown : OwnEnds thread message s (.stop ender rangeId)) :
    Counted thread message (step config s (.stop ender rangeId)) := by
  obtain ⟨hinv, hcount⟩ := h
  refine ⟨hinv.step config _, ?_⟩
  by_cases hknown : ∃ r ∈ s.ranges, r.id = rangeId
  · obtain ⟨r, hr, rfl⟩ := hknown
    have hown := hown r hr rfl
    have hfilter : activeRanges (s.ranges.filter fun r' => r'.id ≠ r.id) thread message +
        (if r.valid && (r.thread = thread && r.message = message) then 1 else 0) =
          activeRanges s.ranges thread message :=
      hinv.distinct.countP_filter_ne hr _
    rw [step_stop config hinv ender hr]
    dsimp only
    cases hvalid : r.valid with
    | false =>
      rw [hvalid, Bool.false_and, if_neg Bool.false_ne_true] at hfilter
      rw [if_neg Bool.false_ne_true, hcount, ← hfilter]
      rfl
    | true =>
      rw [hvalid, Bool.true_and, ← hcount] at hfilter
      rw [if_pos rfl, usageOf_removeUsage hinv.tidy, ← hfilter]
      by_cases hmessage : r.message = message
      · have hthread := hown hvalid hmessage
        by_cases hender : ender = thread
        · simp [hender, hmessage, hthread.mp hender]
        · have hstarter : ¬ r.thread = thread := fun heq => hender (hthread.mpr heq)
          simp [hmessage, hstarter, Ne.symm hender]
      · simp [hmessage, Ne.symm hmessage]
  · rw [step_stop_unknown config hinv ender fun r hr hid => hknown ⟨r, hr, hid⟩]
    exact hcount

theorem counted_run (config : MstxProfConfig) {events : List Event}
    (hrun : Runs.Guarded (step config) (OwnEnds thread message) {} events) :
    Counted thread message (events.foldl (step config) {}) := by
  refine hrun.invariant (fun s e h hown => ?_) ⟨inv_init, rfl⟩
  cases e with
  | add starter message' => exact counted_add config h starter message'
  | stop ender rangeId => exact counted_stop config h hown

end Count

theorem isInMstxRange_iff {config : MstxProfConfig} (henable : config.isMstxEnable = true)
    {s : MsTx} (h : Tidy s.usageCount) (thread : ℕ) :
    isInMstxRange config thread s = true ↔
      ∃ message, isMessageEnable config message = true ∧
        usageOf s.usageCount thread message ≠ 0 := by
  have hsome : ∀ message, (match s.usageCount.lookup thread with
      | none => false
      | some counts => (counts.lookup message).isSome) = true ↔
        usageOf s.usageCount thread message ≠ 0 := by
    intro message
    rw [← isSome_entryOf_iff h, entryOf]
    cases s.usageCount.lookup thread <;> rfl
  rw [isInMstxRange, henable, Bool.not_true, if_neg Bool.false_ne_true]
  cases hempty : config.mstxEnabledMessage.isEmpty with
  | true =>
    have hall : ∀ message, isMessageEnable config message = true := by
      intro message
      rw [isMessageEnable, hempty, if_pos rfl]
    have hany : (∃ message, isMessageEnable config message = true ∧
        usageOf s.usageCount thread message ≠ 0) ↔
          ∃ message, usageOf s.usageCount thread message ≠ 0 :=
      exists_congr fun message => and_iff_right (hall message)
    rw [if_pos rfl, hany]
    cases hcounts : s.usageCount.lookup thread with
    | none =>
      refine iff_of_false Bool.false_ne_true ?_
      rintro ⟨message, hne⟩
      rw [← isSome_entryOf_iff h, entryOf, hcounts] at hne
      cases hne
    | some counts =>
      have hne := h.threads thread counts hcounts
      refine iff_of_true (by simpa using hne) ?_
      obtain ⟨message, count, hcount⟩ := (entries_ne_nil_iff counts).mp hne
      refine ⟨message, (isSome_entryOf_iff h thread message).mp ?_⟩
      rw [entryOf, hcounts, Option.bind_some, hcount]
      rfl
  | false =>
    rw [if_neg Bool.false_ne_true, List.any_eq_true]
    apply exists_congr
    intro message
    rw [hsome, isMessageEnable, hempty, if_neg Bool.false_ne_true, decide_eq_true_iff]

theorem activeRanges_ne_zero_iff (ranges : List Range) (thread : ℕ) (message : Message) :
    activeRanges ranges thread message ≠ 0 ↔
      ∃ r ∈ ranges, r.valid = true ∧ r.thread = thread ∧ r.message = message := by
  rw [activeRanges, ← Nat.pos_iff_ne_zero, List.countP_pos_iff]
  simp

/-- Only range replay has invalid ranges. -/
theorem valid_run {config : MstxProfConfig} (hreplay : config.isRangeReplay = false)
    (events : List Event) : ∀ r ∈ (events.foldl (step config) {}).ranges, r.valid = true := by
  have hkeep : ∀ s e, (∀ r ∈ s.ranges, r.valid = true) →
      ∀ r ∈ (step config s e).ranges, r.valid = true := by
    intro s e h r hr
    cases e with
    | add thread message =>
      by_cases hlimit : s.mstx.rangeId = uint64Max
      · rw [step_add_limit config thread message hlimit] at hr
        exact h r hr
      · rw [step_add config thread message hlimit] at hr
        cases List.mem_append.mp hr with
        | inl hr => exact h r hr
        | inr hr =>
          rw [List.mem_singleton.mp hr]
          dsimp only
          rw [rangeValid, hreplay, if_neg Bool.false_ne_true]
    | stop ender rangeId => exact h r (List.mem_filter.mp hr).1
  exact Runs.invariant hkeep events fun r hr => absurd hr List.not_mem_nil

/-- Whoever ends ranges, the counts of a thread are those of its active ranges as long as
it ends its own and no others; in a range is who has one of an enabled message. -/
theorem usageOf_eq_activeRanges (config : MstxProfConfig) (events : List Event) (thread : ℕ) :
    (∀ message, Runs.Guarded (step config) (OwnEnds thread message) {} events →
      usageOf (events.foldl (step config) {}).mstx.usageCount thread message =
        activeRanges (events.foldl (step config) {}).ranges thread message) ∧
    (config.isMstxEnable = true →
      (∀ message, isMessageEnable config message = true →
        Runs.Guarded (step config) (OwnEnds thread message) {} events) →
      (isInMstxRange config thread (events.foldl (step config) {}).mstx = true ↔
        ∃ r ∈ (events.foldl (step config) {}).ranges, r.valid = true ∧ r.thread = thread ∧
          isMessageEnable config r.message = true)) ∧
    (config.isRangeReplay = false →
      ∀ r ∈ (events.foldl (step config) {}).ranges, r.valid = true) := by
  refine ⟨fun message hrun => (counted_run config hrun).2, fun henable hrun => ?_,
    fun hreplay => valid_run hreplay events⟩
  rw [isInMstxRange_iff henable (inv_run config events).tidy]
  constructor
  · rintro ⟨message, hmessage, hne⟩
    rw [(counted_run config (hrun message hmessage)).2, activeRanges_ne_zero_iff] at hne
    obtain ⟨r, hr, hvalid, hthread, rfl⟩ := hne
    exact ⟨r, hr, hvalid, hthread, hmessage⟩
  · rintro ⟨r, hr, hvalid, hthread, hmessage⟩
    refine ⟨r.message, hmessage, ?_⟩
    rw [(counted_run config (hrun r.message hmessage)).2, activeRanges_ne_zero_iff]
    exact ⟨r, hr, hvalid, hthread, rfl⟩

def allMessages : MstxProfConfig := ⟨true, [], false⟩

/-- One range in another of the same thread, and one of another thread. -/
def nestedRanges : List Event :=
  [.add 0 [109], .add 0 [109], .add 1 [109], .stop 0 1, .stop 0 1, .stop 1 7]

theorem usageOf_nestedRanges :
    usageOf (nestedRanges.foldl (step allMessages) {}).mstx.usageCount 0 [109] =
        activeRanges (nestedRanges.foldl (step allMessages) {}).ranges 0 [109] ∧
      activeRanges (nestedRanges.foldl (step allMessages) {}).ranges 0 [109] = 1 :=
  ⟨(usageOf_eq_activeRanges allMessages nestedRanges 0).1 [109] (by decide), by decide⟩

/-- A range ended by another thread stays counted; in range replay a range in another one
is not counted; without mstx a thread is always in a range. -/
theorem counted_otherwise :
    (usageOf ([.add 0 [109], .stop 1 0].foldl (step allMessages) {}).mstx.usageCount 0 [109] = 1 ∧
      ([.add 0 [109], .stop 1 0].foldl (step allMessages) {}).ranges = []) ∧
    (usageOf ([.add 0 [109], .add 0 [109]].foldl (step ⟨true, [], true⟩) {}).mstx.usageCount 0
        [109] = 1 ∧
      ([.add 0 [109], .add 0 [109]].foldl (step ⟨true, [], true⟩) {}).ranges =
        [⟨0, 0, [109], true⟩, ⟨1, 0, [109], false⟩]) ∧
    isInMstxRange ⟨false, [], false⟩ 0 {} = true := by
  decide

end Msopcom.MsTxRange
