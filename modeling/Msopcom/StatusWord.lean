import Msopcom.BitFields
import Msopcom.ShadowMemory
import Msopcom.Words

set_option autoImplicit false

/-!
# The layout of a status word

A status word has the thread in its lowest bits, then the memory status, the memory type, the
state of the synchronisation and the program counter. Bits 15 to 29 are not assigned.
-/
namespace Msopcom.StatusWord
open BitFields

/-- The values of the enumeration, and of what is cast to it. -/
def memoryByteStatusValue : MemoryByteStatus → ℕ
  | .default => 0
  | .read => 1
  | .globalRead => 2
  | .write => 3
  | .race => 4
  | .unnamed bits => bits.toNat

def onlineMemoryTypeValue : OnlineMemoryType → ℕ
  | .gm => 0
  | .ub => 1

/-- What a status word is made of; an unnamed status has none of the named values. -/
structure Entry where
  pc : UInt32
  sync : Bool
  memoryType : OnlineMemoryType
  status : MemoryByteStatus
  threadId : UInt16
  unassigned : ℕ
  status_lt : memoryByteStatusValue status < 16
  status_named : ∀ bits, status = .unnamed bits → 5 ≤ bits.toNat
  threadId_lt : threadId.toNat < 2048
  unassigned_lt : unassigned < 2 ^ 15

section
variable (e : Entry)

/-- The documented layout, from the lowest bit upwards. -/
def Entry.fields : Fields :=
  [(11, e.threadId.toNat), (4, memoryByteStatusValue e.status), (15, e.unassigned),
    (1, onlineMemoryTypeValue e.memoryType), (1, e.sync.toNat), (32, e.pc.toNat)]

def Entry.word : UInt64 := UInt64.ofNat (pack e.fields)

theorem fit_fields : Fit e.fields := by
  have htype : onlineMemoryTypeValue e.memoryType < 2 := by
    cases e.memoryType <;> decide
  have hsync : e.sync.toNat < 2 := Bool.toNat_lt _
  have hpc : e.pc.toNat < 2 ^ 32 := e.pc.toNat_lt
  simp only [Entry.fields, fit_cons]
  exact ⟨e.threadId_lt, e.status_lt, e.unassigned_lt, htype, hsync, hpc,
    List.forall_mem_nil _⟩

theorem toNat_word : e.word.toNat = pack e.fields := by
  have hlt : pack e.fields < 2 ^ 64 := pack_lt (fit_fields e)
  exact Words.toNat_ofNat64 hlt

/-! ## Reading the fields -/

/-- Each field, with the fields below it and above it. -/
theorem extract_word (before : Fields) {field : ℕ × ℕ} {behind : Fields}
    (h : e.fields = before ++ field :: behind) :
    extract e.word.toNat (width before) field.1 = field.2 := by
  have hfit : Fit (before ++ field :: behind) := h ▸ fit_fields e
  rw [toNat_word, h]
  exact extract_pack before behind hfit

/-! ## What is decoded -/

theorem threadId_word : (e.word &&& threadIdMask).toUInt16 = e.threadId := by
  have hword : (e.word &&& threadIdMask).toNat = e.threadId.toNat :=
    (@toNat_and_mask e.word _ 11 rfl).trans (extract_word e [] rfl)
  rw [← UInt16.toNat_inj, UInt64.toNat_toUInt16, hword]
  exact Nat.mod_eq_of_lt e.threadId.toNat_lt

theorem memoryByteStatus_word : memoryByteStatus e.word = e.status := by
  have hword : ((e.word >>> memoryStatusStartBit) &&& memoryStatusMask).toNat =
      memoryByteStatusValue e.status :=
    (@toNat_shiftRight_and_mask e.word _ _ 4 (by decide) rfl).trans
      (extract_word e [(11, e.threadId.toNat)] rfl)
  have hbits (n : ℕ) (h : memoryByteStatusValue e.status = n) (hn : n < 16) :
      (e.word >>> memoryStatusStartBit) &&& memoryStatusMask = UInt64.ofNat n := by
    rw [← UInt64.toNat_inj, hword, h, Words.toNat_ofNat64 (by omega)]
  unfold memoryByteStatus
  cases hstatus : e.status with
  | default => rw [hbits 0 (by rw [hstatus]; rfl) (by decide)]; rfl
  | read => rw [hbits 1 (by rw [hstatus]; rfl) (by decide)]; rfl
  | globalRead => rw [hbits 2 (by rw [hstatus]; rfl) (by decide)]; rfl
  | write => rw [hbits 3 (by rw [hstatus]; rfl) (by decide)]; rfl
  | race => rw [hbits 4 (by rw [hstatus]; rfl) (by decide)]; rfl
  | unnamed bits =>
    have hnamed : 5 ≤ bits.toNat := e.status_named bits hstatus
    have hvalue : (e.word >>> memoryStatusStartBit) &&& memoryStatusMask = bits := by
      rw [← UInt64.toNat_inj, hword, hstatus]
      rfl
    have hne (k : UInt64) (hk : k.toNat < 5) : bits ≠ k := by
      rintro rfl
      omega
    simp only [hvalue, hne 0 (by decide), hne 1 (by decide), hne 2 (by decide),
      hne 3 (by decide), hne 4 (by decide), if_false]

theorem onlineMemoryType_word : onlineMemoryType e.word = e.memoryType := by
  have hword : ((e.word >>> memoryTypeStartBit) &&& memoryTypeMask).toNat =
      onlineMemoryTypeValue e.memoryType :=
    (@toNat_shiftRight_and_mask e.word _ _ 1 (by decide) rfl).trans
      (extract_word e [_, _, _] rfl)
  unfold onlineMemoryType
  cases htype : e.memoryType with
  | gm =>
    rw [htype] at hword
    exact if_pos (UInt64.toNat_inj.mp hword)
  | ub =>
    rw [htype] at hword
    refine if_neg fun hzero => ?_
    rw [hzero] at hword
    cases hword

/-- The mask has half of the bits of the field. -/
theorem toNat_pc_word : ((e.word >>> pcStartBit) &&& pcMask).toNat = e.pc.toNat % 2 ^ 16 := by
  have hfield : extract e.word.toNat 32 32 = e.pc.toNat :=
    extract_word e [_, _, _, _, _] rfl
  rw [← hfield, ← extract_of_le (by decide)]
  exact @toNat_shiftRight_and_mask e.word _ _ 16 (by decide) rfl

end

/-- A place in a block of `x` by `y` threads and as many layers as there are. -/
structure ThreadAt (threadLoc : SimtThreadLocation) (x y : UInt16) (threadId : ℕ) : Prop where
  x_lt : threadLoc.idX < x
  y_lt : threadLoc.idY < y
  threadId : threadLoc.idX.toNat + x.toNat * threadLoc.idY.toNat +
    x.toNat * y.toNat * threadLoc.idZ.toNat = threadId

theorem threadAt_decomposeThreadId (threadId : UInt16) {head : RecordBlockHead}
    (hx : 1 ≤ head.blockInfo.threadXDim) (hy : 1 ≤ head.blockInfo.threadYDim) :
    ThreadAt (decomposeThreadId threadId head) head.blockInfo.threadXDim
      head.blockInfo.threadYDim threadId.toNat := by
  generalize hX : head.blockInfo.threadXDim = X at *
  generalize hY : head.blockInfo.threadYDim = Y at *
  have hxpos : 0 < X.toNat := hx
  have hypos : 0 < Y.toNat := hy
  have hplane : 0 < X.toNat * Y.toNat := Nat.mul_pos hxpos hypos
  have hxne : X ≠ 0 := by
    rintro rfl
    exact absurd hxpos (Nat.lt_irrefl 0)
  have hyne : Y ≠ 0 := by
    rintro rfl
    exact absurd hypos (Nat.lt_irrefl 0)
  have hlt : threadId.toNat < 2 ^ 16 := threadId.toNat_lt
  have hlayer : threadId.toNat / (X.toNat * Y.toNat) < 2 ^ 16 :=
    (Nat.div_le_self _ _).trans_lt hlt
  have hrow : threadId.toNat % (X.toNat * Y.toNat) / X.toNat < Y.toNat :=
    Nat.div_lt_of_lt_mul (Nat.mod_lt _ hplane)
  have hrow16 : threadId.toNat % (X.toNat * Y.toNat) / X.toNat < 2 ^ 16 :=
    hrow.trans Y.toNat_lt
  have hidY : (UInt16.ofNat (threadId.toNat % (X.toNat * Y.toNat) / X.toNat)).toNat =
      threadId.toNat % (X.toNat * Y.toNat) / X.toNat := Nat.mod_eq_of_lt hrow16
  have hidZ : (UInt16.ofNat (threadId.toNat / (X.toNat * Y.toNat))).toNat =
      threadId.toNat / (X.toNat * Y.toNat) := Nat.mod_eq_of_lt hlayer
  have hloc : decomposeThreadId threadId head =
      { idX := threadId % X
        idY := UInt16.ofNat (threadId.toNat % (X.toNat * Y.toNat) / X.toNat)
        idZ := UInt16.ofNat (threadId.toNat / (X.toNat * Y.toNat)) } := by
    unfold decomposeThreadId
    rw [hX, hY]
    exact if_neg fun h => h.elim hxne hyne
  rw [hloc]
  constructor
  case x_lt => exact UInt16.mod_lt _ hx
  case y_lt =>
    rw [UInt16.lt_iff_toNat_lt]
    exact hidY.trans_lt hrow
  case threadId =>
    rw [UInt16.toNat_mod, hidY, hidZ, ← Nat.mod_mul_right_mod threadId.toNat X.toNat Y.toNat,
      Nat.mod_add_div, Nat.mod_add_div]

/-- The record of a word says what the word was made of. -/
structure Decoded (e : Entry) (head : RecordBlockHead) (record : ShadowMemoryRecord) : Prop where
  pc : record.location.pc = e.pc.toUInt64
  memoryType : onlineMemoryType e.word = e.memoryType
  status : memoryByteStatus e.word = e.status
  space : record.space = if e.memoryType = .gm then .gm else .ub
  accessType : record.accessType = if isReadStatus e.status then .read else .write
  thread : ThreadAt record.threadLoc head.blockInfo.threadXDim head.blockInfo.threadYDim
    e.threadId.toNat

/-- The program counter comes back exactly when it is below 2^16, and everything else always
does. -/
theorem decoded_iff (e : Entry) (addr : UInt64) (head : RecordBlockHead)
    (hx : 1 ≤ head.blockInfo.threadXDim) (hy : 1 ≤ head.blockInfo.threadYDim) :
    Decoded e head (smRecord e.word addr head) ↔ e.pc < 0x10000 := by
  have hpc : (smRecord e.word addr head).location.pc = e.pc.toUInt64 ↔ e.pc < 0x10000 := by
    change (e.word >>> pcStartBit) &&& pcMask = e.pc.toUInt64 ↔ _
    rw [← UInt64.toNat_inj, toNat_pc_word, UInt32.toNat_toUInt64, UInt32.lt_iff_toNat_lt,
      Nat.mod_eq_iff_lt (by decide)]
    rfl
  have hthread : (smRecord e.word addr head).threadLoc = decomposeThreadId e.threadId head :=
    congrArg (fun threadId => decomposeThreadId threadId head) (threadId_word e)
  constructor
  · intro h
    exact hpc.mp h.pc
  · intro h
    have htype : onlineMemoryType e.word = e.memoryType := onlineMemoryType_word e
    have hstatus : memoryByteStatus e.word = e.status := memoryByteStatus_word e
    refine ⟨hpc.mpr h, htype, hstatus, ?_, ?_, ?_⟩
    · rw [← htype]
      rfl
    · rw [← hstatus]
      rfl
    rw [hthread]
    exact threadAt_decomposeThreadId e.threadId hx hy

/-- A write of the last thread at the program counter. -/
def writeAt (pc : UInt32) : Entry where
  pc := pc
  sync := true
  memoryType := .ub
  status := .write
  threadId := 2047
  unassigned := 0
  status_lt := by decide
  status_named := fun _ h => by cases h
  threadId_lt := by decide
  unassigned_lt := by decide

def smallBlock : RecordBlockHead := ⟨0, ⟨0, 32, 4⟩⟩

theorem decoded_iff_writeAt :
    Decoded (writeAt 0x1234) smallBlock (smRecord (writeAt 0x1234).word 0 smallBlock) ↔
      (0x1234 : UInt32) < 0x10000 :=
  decoded_iff (writeAt 0x1234) 0 smallBlock (by decide) (by decide)

theorem writeAt_not_decoded :
    ¬ Decoded (writeAt 0x10000) smallBlock (smRecord (writeAt 0x10000).word 0 smallBlock) :=
  fun h => absurd h.pc (by decide)

end Msopcom.StatusWord
