import Msopcom.RunLength
import Msopcom.ShadowMemory
import Msopcom.Words

set_option autoImplicit false

/-!
# Decoding the shadow memory loses nothing

The walk feeds the entries to the merge in the order of their addresses, so the
records are the longest runs of equal attributes over those addresses.
-/
namespace Msopcom.ShadowMemoryDecoding
open Words RunLength

/-! ## Addresses -/

theorem l0TblNum_eq : l0TblNum.toNat = 65537 := by decide

theorem l1TblNum_eq : l1TblNum.toNat = 65536 := by decide

theorem smAddr_eq (l0Idx l1Idx l2Idx : UInt64) :
    smAddr l0Idx l1Idx l2Idx = (l0Idx <<< 32) ||| (l1Idx <<< 16) ||| l2Idx := by
  have hl1 : countOneBits onlineLocalMemMask = 32 := by decide
  have hl2 : countOneBits (onlineOneSmStandForByte - 1) = 16 := by decide
  unfold smAddr
  rw [hl1, hl2]
  rfl

/-- The three indices are the digits of the address. -/
theorem toNat_smAddr {i j k : ℕ} (hi : i < 65537) (hj : j < 65536) (hk : k < 65536) :
    (smAddr (UInt64.ofNat i) (UInt64.ofNat j) (UInt64.ofNat k)).toNat =
      i * 2 ^ 32 + j * 2 ^ 16 + k := by
  have hlow : 2 ^ 16 * j ||| k = 2 ^ 16 * j + k := (Nat.two_pow_add_eq_or_of_lt hk j).symm
  have hhigh : 2 ^ 32 * i ||| (2 ^ 16 * j + k) = 2 ^ 32 * i + (2 ^ 16 * j + k) :=
    (Nat.two_pow_add_eq_or_of_lt (by omega) i).symm
  rw [smAddr_eq, UInt64.toNat_or, UInt64.toNat_or, UInt64.toNat_shiftLeft, UInt64.toNat_shiftLeft,
    toNat_ofNat64 (by omega), toNat_ofNat64 (by omega), toNat_ofNat64 (by omega)]
  change (i <<< 32 % 2 ^ 64 ||| j <<< 16 % 2 ^ 64) ||| k = _
  rw [Nat.shiftLeft_eq, Nat.shiftLeft_eq, Nat.mod_eq_of_lt (by omega), Nat.mod_eq_of_lt (by omega),
    Nat.or_assoc, Nat.mul_comm i, Nat.mul_comm j, hlow, hhigh]
  omega

/-! ## The entries of an image -/

abbrev SmEntry := UInt64 × UInt64

def l2Entry (image : ShadowImage) (l2TblPtr l0Idx l1Idx : UInt64) (i : ℕ) : List SmEntry :=
  let l2Idx := UInt64.ofNat i
  let status := image (l2TblPtr + 8 * l2Idx)
  if isRecorded status then [(smAddr l0Idx l1Idx l2Idx, status)] else []

def l2Entries (image : ShadowImage) (l2TblPtr l0Idx l1Idx : UInt64) : List SmEntry :=
  (List.range onlineOneSmStandForByte.toNat).flatMap (l2Entry image l2TblPtr l0Idx l1Idx)

def l1Entry (image : ShadowImage) (smBaseAddr l0Idx l1TblPtr : UInt64) (i : ℕ) : List SmEntry :=
  let l1Idx := UInt64.ofNat i
  let entry := image (l1TblPtr + 8 * l1Idx)
  if isSkipped entry then [] else l2Entries image (entry - smBaseAddr) l0Idx l1Idx

def l1Entries (image : ShadowImage) (smBaseAddr l0Idx : UInt64) : List SmEntry :=
  (List.range l1TblNum.toNat).flatMap
    (l1Entry image smBaseAddr l0Idx (image (sizeofShadowMemoryHeapHead + 8 * l0Idx) - smBaseAddr))

def l0Entry (image : ShadowImage) (smBaseAddr : UInt64) (i : ℕ) : List SmEntry :=
  let l0Idx := UInt64.ofNat i
  if isSkipped (image (sizeofShadowMemoryHeapHead + 8 * l0Idx)) then []
  else l1Entries image smBaseAddr l0Idx

/-- All recorded entries of an image in the order of the walk. -/
def smEntries (image : ShadowImage) (smBaseAddr : UInt64) : List SmEntry :=
  (List.range l0TblNum.toNat).flatMap (l0Entry image smBaseAddr)

def mergeEntry (head : RecordBlockHead) (records : List ShadowMemoryRecord) (e : SmEntry) :
    List ShadowMemoryRecord :=
  mergeSmRecord records e.2 e.1 head

theorem parseSmL2Table_eq (image : ShadowImage) (l2TblPtr l0Idx l1Idx : UInt64)
    (head : RecordBlockHead) (records : List ShadowMemoryRecord) :
    parseSmL2Table image l2TblPtr l0Idx l1Idx head records =
      (l2Entries image l2TblPtr l0Idx l1Idx).foldl (mergeEntry head) records := by
  apply foldl_range_eq
  intro records i
  unfold l2Entry
  dsimp only
  split_ifs <;> rfl

theorem parseSmL1Table_eq (image : ShadowImage) (smBaseAddr : UInt64) (head : RecordBlockHead)
    (l0Idx : UInt64) (records : List ShadowMemoryRecord) :
    parseSmL1Table image smBaseAddr head l0Idx records =
      (l1Entries image smBaseAddr l0Idx).foldl (mergeEntry head) records := by
  apply foldl_range_eq
  intro records i
  unfold l1Entry
  dsimp only
  split_ifs
  · rfl
  · exact parseSmL2Table_eq _ _ _ _ _ _

/-- The three nested loops are one loop over the entries. -/
theorem parseSmTable_eq (image : ShadowImage) (smBaseAddr : UInt64) (head : RecordBlockHead)
    (records : List ShadowMemoryRecord) :
    parseSmTable image smBaseAddr head records =
      (smEntries image smBaseAddr).foldl (mergeEntry head) records := by
  apply foldl_range_eq
  intro records i
  unfold l0Entry
  dsimp only
  split_ifs
  · rfl
  · exact parseSmL1Table_eq _ _ _ _ _

def addrKey (e : SmEntry) : ℕ := e.1.toNat

theorem ordered_l2Entries (image : ShadowImage) (l2TblPtr : UInt64) {i j : ℕ} (hi : i < 65537)
    (hj : j < 65536) :
    Ordered addrKey (i * 2 ^ 32 + j * 2 ^ 16) (i * 2 ^ 32 + (j + 1) * 2 ^ 16)
      (l2Entries image l2TblPtr (UInt64.ofNat i) (UInt64.ofNat j)) := by
  have hwindow : i * 2 ^ 32 + (j + 1) * 2 ^ 16 = i * 2 ^ 32 + j * 2 ^ 16 + 65536 * 1 := by omega
  rw [hwindow]
  apply Ordered.flatMap_range
  intro k hk
  have hkey : ∀ status, addrKey (smAddr (UInt64.ofNat i) (UInt64.ofNat j) (UInt64.ofNat k), status) =
      i * 2 ^ 32 + j * 2 ^ 16 + k := fun _ => toNat_smAddr hi hj hk
  unfold l2Entry
  dsimp only
  split_ifs
  · apply Ordered.singleton
    · rw [hkey]
      omega
    · rw [hkey]
      omega
  · exact Ordered.nil _ _

theorem ordered_l1Entries (image : ShadowImage) (smBaseAddr : UInt64) {i : ℕ} (hi : i < 65537) :
    Ordered addrKey (i * 2 ^ 32) ((i + 1) * 2 ^ 32)
      (l1Entries image smBaseAddr (UInt64.ofNat i)) := by
  have hwindow : (i + 1) * 2 ^ 32 = i * 2 ^ 32 + 65536 * 2 ^ 16 := by omega
  unfold l1Entries
  rw [hwindow, l1TblNum_eq]
  apply Ordered.flatMap_range
  intro j hj
  unfold l1Entry
  dsimp only
  split_ifs
  · exact Ordered.nil _ _
  · exact ordered_l2Entries image _ hi hj

theorem ordered_smEntries (image : ShadowImage) (smBaseAddr : UInt64) :
    Ordered addrKey 0 (65537 * 2 ^ 32) (smEntries image smBaseAddr) := by
  have hwindow : 65537 * 2 ^ 32 = 0 + 65537 * 2 ^ 32 := by omega
  unfold smEntries
  rw [hwindow, l0TblNum_eq]
  apply Ordered.flatMap_range
  intro i hi
  rw [Nat.zero_add, Nat.zero_add]
  unfold l0Entry
  dsimp only
  split_ifs
  · exact Ordered.nil _ _
  · exact ordered_l1Entries image smBaseAddr hi

/-! ## The merge is a run-length encoding -/

structure Attributes where
  location : Location
  threadLoc : SimtThreadLocation
  space : AddressSpace
  accessType : AccessType
  deriving DecidableEq

def attributes (r : ShadowMemoryRecord) : Attributes :=
  ⟨r.location, r.threadLoc, r.space, r.accessType⟩

def toRun (r : ShadowMemoryRecord) : Run Attributes := ⟨r.addr.toNat, r.size.toNat, attributes r⟩

def byteRecord (e : ℕ × Attributes) : ShadowMemoryRecord :=
  ⟨UInt64.ofNat e.1, 1, e.2.location, e.2.threadLoc, e.2.space, e.2.accessType⟩

def expand (r : ShadowMemoryRecord) : List ShadowMemoryRecord :=
  (List.range r.size.toNat).map fun k => { r with addr := r.addr + UInt64.ofNat k, size := 1 }

theorem expand_eq (r : ShadowMemoryRecord) : expand r = (toRun r).expand.map byteRecord := by
  unfold expand Run.expand
  rw [List.map_map]
  apply List.map_congr_left
  intro k _
  have haddr : UInt64.ofNat (r.addr.toNat + k) = r.addr + UInt64.ofNat k := by
    rw [UInt64.ofNat_add, UInt64.ofNat_toNat]
  change _ = byteRecord (r.addr.toNat + k, attributes r)
  unfold byteRecord
  rw [haddr]
  rfl

theorem canMerge_iff {back record : ShadowMemoryRecord} (h : (toRun back).stop < 2 ^ 64) :
    canMerge back record = true ↔ (toRun back).Meets (toRun record) := by
  have hstop : (back.addr + back.size).toNat = (toRun back).stop := toNat_add64 h
  unfold canMerge Run.Meets
  rw [Bool.and_eq_true, Bool.and_eq_true, Bool.and_eq_true, Bool.and_eq_true, decide_eq_true_iff,
    decide_eq_true_iff, decide_eq_true_iff, decide_eq_true_iff, decide_eq_true_iff,
    ← UInt64.toNat_inj, hstop]
  change _ ↔ attributes back = attributes record ∧ _
  unfold attributes
  rw [Attributes.mk.injEq]
  constructor
  · intro h
    exact ⟨⟨h.1.1.1.1, h.1.2, h.1.1.2, h.1.1.1.2⟩, h.2⟩
  · intro h
    exact ⟨⟨⟨⟨h.1.1, h.1.2.2.2⟩, h.1.2.2.1⟩, h.1.2.1⟩, h.2⟩

def entryRun (head : RecordBlockHead) (e : SmEntry) : ℕ × Attributes :=
  (addrKey e, attributes (smRecord e.2 e.1 head))

theorem byteRecord_entryRun (head : RecordBlockHead) (e : SmEntry) :
    byteRecord (entryRun head e) = smRecord e.2 e.1 head := by
  change (⟨UInt64.ofNat e.1.toNat, 1, _, _, _, _⟩ : ShadowMemoryRecord) = _
  rw [UInt64.ofNat_toNat]
  rfl

/-- One merge is one push, as long as the addresses stay within the word. -/
theorem mergeEntry_refines (head : RecordBlockHead) {records : List ShadowMemoryRecord} {e : SmEntry}
    (haddr : addrKey e < 2 ^ 63) (hstop : ∀ r ∈ records, (toRun r).stop ≤ addrKey e) :
    (mergeEntry head records e).map toRun =
      push (records.map toRun) (addrKey e) (attributes (smRecord e.2 e.1 head)) := by
  cases List.eq_nil_or_concat records with
  | inl hnil =>
    subst hnil
    rfl
  | inr hconcat =>
    obtain ⟨init, back, rfl⟩ := hconcat
    rw [List.concat_eq_append] at hstop ⊢
    have hback := hstop back (List.mem_append_right _ (List.mem_singleton.mpr rfl))
    have hmeets : canMerge back (smRecord e.2 e.1 head) = true ↔
        (toRun back).Meets (.single (addrKey e) (attributes (smRecord e.2 e.1 head))) :=
      canMerge_iff (by omega)
    have hsize : (back.size + 1).toNat = back.size.toNat + 1 := by
      have hle : (toRun back).size ≤ (toRun back).stop := Nat.le_add_left _ _
      have hone : (1 : UInt64).toNat = 1 := rfl
      rw [toNat_add64 (by change (toRun back).size + 1 < _; omega), hone]
    unfold mergeEntry mergeSmRecord
    rw [List.getLast?_concat, List.dropLast_concat, List.map_append, List.map_singleton,
      push_concat]
    dsimp only
    split_ifs with hcan hmeet hmeet
    · rw [List.map_append, List.map_singleton]
      change _ ++ [(⟨_, (back.size + 1).toNat, _⟩ : Run Attributes)] = _
      rw [hsize]
      rfl
    · exact absurd (hmeets.mp hcan) hmeet
    · exact absurd (hmeets.mpr hmeet) hcan
    · rw [List.map_append, List.map_append]
      rfl

theorem foldl_mergeEntry_refines (head : RecordBlockHead) (entries : List SmEntry)
    (h : Ordered addrKey 0 (2 ^ 63) entries) :
    (entries.foldl (mergeEntry head) []).map toRun = encode (entries.map (entryRun head)) := by
  induction entries using List.reverseRecOn with
  | nil => rfl
  | append_singleton entries e ih =>
    have hparts := List.pairwise_append.mp h.sorted
    have hfront : Ordered addrKey 0 (2 ^ 63) entries :=
      ⟨hparts.1, fun f hf => h.within f (List.mem_append_left _ hf)⟩
    have hbelow : ∀ f ∈ entries, addrKey f < addrKey e := fun f hf =>
      hparts.2.2 f hf e (List.mem_singleton.mpr rfl)
    have hencodes := encodes_encode (entries.map (entryRun head)) (List.pairwise_map.mpr hparts.1)
    have hlast : ∀ x ∈ entries.map (entryRun head), x.1 < addrKey e := by
      intro x hx
      obtain ⟨f, hf, rfl⟩ := List.mem_map.mp hx
      exact hbelow f hf
    have hstop : ∀ r ∈ entries.foldl (mergeEntry head) [], (toRun r).stop ≤ addrKey e := by
      intro r hr
      apply hencodes.stop_le hlast
      rw [← ih hfront]
      exact List.mem_map_of_mem hr
    have haddr := (h.within e (List.mem_append_right _ (List.mem_singleton.mpr rfl))).2
    have hstep := mergeEntry_refines head haddr hstop
    unfold encode
    rw [List.foldl_append, List.map_append, List.foldl_append]
    change (mergeEntry head (entries.foldl (mergeEntry head) []) e).map toRun =
      push (encode (entries.map (entryRun head))) _ _
    rw [hstep, ih hfront]
    rfl

/-- What the records of an image encode. -/
theorem parseSmTable_encodes (image : ShadowImage) (smBaseAddr : UInt64) (head : RecordBlockHead) :
    Encodes ((smEntries image smBaseAddr).map (entryRun head))
      ((parseSmTable image smBaseAddr head []).map toRun) := by
  have hordered := ordered_smEntries image smBaseAddr
  have hbounded : Ordered addrKey 0 (2 ^ 63) (smEntries image smBaseAddr) :=
    ⟨hordered.sorted, fun e he => ⟨Nat.zero_le _, by have hlt := (hordered.within e he).2; omega⟩⟩
  rw [parseSmTable_eq, foldl_mergeEntry_refines head _ hbounded]
  exact encodes_encode _ (List.pairwise_map.mpr hordered.sorted)

theorem flatMap_expand_parseSmTable (image : ShadowImage) (smBaseAddr : UInt64)
    (head : RecordBlockHead) :
    (parseSmTable image smBaseAddr head []).flatMap expand =
      (smEntries image smBaseAddr).map fun e => smRecord e.2 e.1 head := by
  have hexpand : expand = fun r => (toRun r).expand.map byteRecord := by
    funext r
    exact expand_eq r
  have hruns := (parseSmTable_encodes image smBaseAddr head).expansion
  rw [List.flatMap_map] at hruns
  rw [hexpand, ← List.map_flatMap, hruns, List.map_map]
  apply List.map_congr_left
  intro e _
  exact byteRecord_entryRun head e

theorem length_parseSmTable_le (image : ShadowImage) (smBaseAddr : UInt64)
    (head : RecordBlockHead) :
    (parseSmTable image smBaseAddr head []).length ≤ 65537 * 2 ^ 32 := by
  have hencodes := parseSmTable_encodes image smBaseAddr head
  have hlast : ∀ x ∈ (smEntries image smBaseAddr).map (entryRun head), x.1 < 65537 * 2 ^ 32 := by
    intro x hx
    obtain ⟨e, he, rfl⟩ := List.mem_map.mp hx
    exact ((ordered_smEntries image smBaseAddr).within e he).2
  have hordered : Ordered Run.start 0 (65537 * 2 ^ 32)
      ((parseSmTable image smBaseAddr head []).map toRun) := by
    constructor
    case sorted =>
      apply List.Pairwise.imp_of_mem _ hencodes.separated
      intro r s hr _ hle
      exact (Nat.lt_add_of_pos_right (hencodes.nonempty r hr)).trans_le hle
    case within =>
      intro r hr
      have hle := hencodes.stop_le hlast r hr
      exact ⟨Nat.zero_le _, (Nat.lt_add_of_pos_right (hencodes.nonempty r hr)).trans_le hle⟩
  have hlen := hordered.length_le
  rw [List.length_map] at hlen
  exact hlen

/-! ## The entries of the three tables -/

def l0Word (image : ShadowImage) (l0Idx : ℕ) : UInt64 :=
  image (sizeofShadowMemoryHeapHead + 8 * UInt64.ofNat l0Idx)

def l1Word (image : ShadowImage) (smBaseAddr : UInt64) (l0Idx l1Idx : ℕ) : UInt64 :=
  image (l0Word image l0Idx - smBaseAddr + 8 * UInt64.ofNat l1Idx)

def l2Word (image : ShadowImage) (smBaseAddr : UInt64) (l0Idx l1Idx l2Idx : ℕ) : UInt64 :=
  image (l1Word image smBaseAddr l0Idx l1Idx - smBaseAddr + 8 * UInt64.ofNat l2Idx)

/-- The tables lead to an entry at these indices, and it is not a default one. -/
structure HasEntry (image : ShadowImage) (smBaseAddr : UInt64) (l0Idx l1Idx l2Idx : ℕ) : Prop where
  l0Bound : l0Idx < l0TblNum.toNat
  l1Bound : l1Idx < l1TblNum.toNat
  l2Bound : l2Idx < onlineOneSmStandForByte.toNat
  l0Table : isSkipped (l0Word image l0Idx) = false
  l1Table : isSkipped (l1Word image smBaseAddr l0Idx l1Idx) = false
  status : memoryByteStatus (l2Word image smBaseAddr l0Idx l1Idx l2Idx) ≠ .default

theorem isRecorded_iff (status : UInt64) :
    isRecorded status = true ↔ memoryByteStatus status ≠ .default := by
  unfold isRecorded
  cases onlineMemoryType status <;> simp

theorem mem_l2Entries {image : ShadowImage} {l2TblPtr l0Idx l1Idx : UInt64} {e : SmEntry} :
    e ∈ l2Entries image l2TblPtr l0Idx l1Idx ↔ ∃ k < onlineOneSmStandForByte.toNat,
      memoryByteStatus (image (l2TblPtr + 8 * UInt64.ofNat k)) ≠ .default ∧
        e = (smAddr l0Idx l1Idx (UInt64.ofNat k), image (l2TblPtr + 8 * UInt64.ofNat k)) := by
  unfold l2Entries
  rw [List.mem_flatMap]
  apply exists_congr
  intro k
  rw [List.mem_range, ← isRecorded_iff]
  unfold l2Entry
  dsimp only
  split_ifs with hrecorded
  · rw [List.mem_singleton, and_iff_right hrecorded]
  · exact and_congr_right fun _ => iff_of_false List.not_mem_nil fun h => hrecorded h.1

theorem mem_l1Entries {image : ShadowImage} {smBaseAddr : UInt64} {i : ℕ} {e : SmEntry} :
    e ∈ l1Entries image smBaseAddr (UInt64.ofNat i) ↔ ∃ j < l1TblNum.toNat,
      isSkipped (l1Word image smBaseAddr i j) = false ∧
        e ∈ l2Entries image (l1Word image smBaseAddr i j - smBaseAddr) (UInt64.ofNat i)
          (UInt64.ofNat j) := by
  unfold l1Entries
  rw [List.mem_flatMap]
  apply exists_congr
  intro j
  rw [List.mem_range]
  unfold l1Entry l1Word l0Word
  dsimp only
  split_ifs with hskipped
  · exact and_congr_right fun _ => iff_of_false List.not_mem_nil fun h =>
      nomatch hskipped.symm.trans h.1
  · rw [and_iff_right (Bool.eq_false_of_not_eq_true hskipped)]

theorem mem_smEntries {image : ShadowImage} {smBaseAddr : UInt64} {e : SmEntry} :
    e ∈ smEntries image smBaseAddr ↔ ∃ l0Idx l1Idx l2Idx : ℕ,
      HasEntry image smBaseAddr l0Idx l1Idx l2Idx ∧
        e = (smAddr (UInt64.ofNat l0Idx) (UInt64.ofNat l1Idx) (UInt64.ofNat l2Idx),
          l2Word image smBaseAddr l0Idx l1Idx l2Idx) := by
  have hlevel : e ∈ smEntries image smBaseAddr ↔ ∃ i < l0TblNum.toNat,
      isSkipped (l0Word image i) = false ∧ e ∈ l1Entries image smBaseAddr (UInt64.ofNat i) := by
    unfold smEntries
    rw [List.mem_flatMap]
    apply exists_congr
    intro i
    rw [List.mem_range]
    unfold l0Entry l0Word
    dsimp only
    split_ifs with hskipped
    · exact and_congr_right fun _ => iff_of_false List.not_mem_nil fun h =>
        nomatch hskipped.symm.trans h.1
    · rw [and_iff_right (Bool.eq_false_of_not_eq_true hskipped)]
  rw [hlevel]
  constructor
  · intro h
    obtain ⟨i, hi, htable, hmem⟩ := h
    obtain ⟨j, hj, htable', hmem⟩ := mem_l1Entries.mp hmem
    obtain ⟨k, hk, hstatus, he⟩ := mem_l2Entries.mp hmem
    exact ⟨i, j, k, ⟨hi, hj, hk, htable, htable', hstatus⟩, he⟩
  · intro h
    obtain ⟨i, j, k, hentry, he⟩ := h
    have hl2 := mem_l2Entries.mpr ⟨k, hentry.l2Bound, hentry.status, he⟩
    have hl1 := mem_l1Entries.mpr ⟨j, hentry.l1Bound, hentry.l1Table, hl2⟩
    exact ⟨i, hentry.l0Bound, hentry.l0Table, hl1⟩

/-- For every image the records lie one behind the other, none continues the one before
it, and byte by byte they are the entries that are not default ones. -/
theorem parseSmTable_lossless (image : ShadowImage) (smBaseAddr : UInt64) (head : RecordBlockHead) :
    (parseSmTable image smBaseAddr head []).Pairwise
        (fun a b => a.addr < b.addr ∧ a.addr.toNat + a.size.toNat ≤ b.addr.toNat) ∧
      (parseSmTable image smBaseAddr head []).IsChain (fun a b => canMerge a b = false) ∧
      ∀ record, record ∈ (parseSmTable image smBaseAddr head []).flatMap expand ↔
        ∃ l0Idx l1Idx l2Idx : ℕ, HasEntry image smBaseAddr l0Idx l1Idx l2Idx ∧
          record = smRecord (l2Word image smBaseAddr l0Idx l1Idx l2Idx)
            (smAddr (UInt64.ofNat l0Idx) (UInt64.ofNat l1Idx) (UInt64.ofNat l2Idx)) head := by
  have hencodes := parseSmTable_encodes image smBaseAddr head
  have hexpand := flatMap_expand_parseSmTable image smBaseAddr head
  have hseparated := List.pairwise_map.mp hencodes.separated
  have hmaximal := (List.isChain_map toRun).mp hencodes.maximal
  have hsize : ∀ r ∈ parseSmTable image smBaseAddr head [], 0 < r.size.toNat := fun r hr =>
    hencodes.nonempty (toRun r) (List.mem_map_of_mem hr)
  have hlast : ∀ x ∈ (smEntries image smBaseAddr).map (entryRun head), x.1 < 65537 * 2 ^ 32 := by
    intro x hx
    obtain ⟨e, he, rfl⟩ := List.mem_map.mp hx
    exact ((ordered_smEntries image smBaseAddr).within e he).2
  have hstop : ∀ r ∈ parseSmTable image smBaseAddr head [], (toRun r).stop < 2 ^ 64 := by
    intro r hr
    have hle := hencodes.stop_le hlast (toRun r) (List.mem_map_of_mem hr)
    omega
  refine ⟨?_, ?_, ?_⟩
  · apply List.Pairwise.imp_of_mem _ hseparated
    intro a b ha _ hle
    have hpos := hsize a ha
    exact ⟨UInt64.lt_iff_toNat_lt.mpr ((Nat.lt_add_of_pos_right hpos).trans_le hle), hle⟩
  · apply List.IsChain.imp_of_mem_imp _ hmaximal
    intro a b ha _ hmeets
    exact Bool.eq_false_of_not_eq_true fun hcan => hmeets ((canMerge_iff (hstop a ha)).mp hcan)
  · intro record
    rw [hexpand, List.mem_map]
    constructor
    · intro h
      obtain ⟨e, he, rfl⟩ := h
      obtain ⟨i, j, k, hentry, rfl⟩ := mem_smEntries.mp he
      exact ⟨i, j, k, hentry, rfl⟩
    · intro h
      obtain ⟨i, j, k, hentry, rfl⟩ := h
      exact ⟨_, mem_smEntries.mpr ⟨i, j, k, hentry, rfl⟩, rfl⟩

end Msopcom.ShadowMemoryDecoding
