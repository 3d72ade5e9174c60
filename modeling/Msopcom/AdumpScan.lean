import Mathlib.Data.List.AList
import Msopcom.Bytes
import Msopcom.PatternScan
import Msopcom.Words

set_option autoImplicit false

/-!
# The record that the tiling data names

An operator leaves the index of its adump record in the tiling data: AscendC operators as the
last word, others anywhere behind the magic half of the index.
-/
namespace Msopcom.AdumpScan
open Bytes PatternScan

structure AdumpInfo where
  addr : UInt64 := 0
  argsSpace : UInt32 := 0
  deriving DecidableEq, Repr

/-- What the search reads of an `OpMemInfo`. -/
structure MemInfo where
  isTik : Bool
  tilingDataSize : UInt64

/-- `atomicIndexToAddr_`. -/
abbrev AdumpMap := AList fun _ : UInt64 => AdumpInfo

inductive Fault
  | outOfBounds
  deriving DecidableEq, Repr

def u64ByteSize : UInt64 := 8
def metaMagicNum : UInt64 := 0xA5A5A5A500000000

/-- The `n` bytes at an offset of the tiling data, as a little-endian number. -/
def read (n : ℕ) (tilingBuffData : List UInt8) (off : ℕ) : Except Fault ℕ :=
  if off + n ≤ tilingBuffData.length then .ok (leNat ((tilingBuffData.drop off).take n))
  else .error .outOfBounds

/-- The rounds from byte `i` on, of which there are as many as the first argument says. -/
def magicScan (registered : AdumpMap) (tilingBuffData : List UInt8) :
    ℕ → ℕ → UInt8 → Except Fault (Option AdumpInfo)
  | 0, _, _ => .ok none
  | n + 1, i, count => do
    let byte ← read 1 tilingBuffData i
    let count := if byte = 0xA5 then count + 1 else 0
    if count ≠ 4 ∨ i < 7 then magicScan registered tilingBuffData n (i + 1) count
    else
      let value ← read 4 tilingBuffData (i - 7)
      match registered.lookup (metaMagicNum ||| UInt64.ofNat value) with
      | some info => .ok (some info)
      | none => magicScan registered tilingBuffData n (i + 1) (count - 1)

/-- The loop behind "tik算子的解析"; nothing stands for the empty result after it. -/
def magicSearch (registered : AdumpMap) (tilingBuffData : List UInt8) (tilingDataSize : UInt64) :
    Except Fault (Option AdumpInfo) :=
  magicScan registered tilingBuffData (tilingDataSize.toNat - 4) 4 0

def getAdumpInfoFromTilingData (registered : AdumpMap) (tilingData : List UInt8)
    (memInfo : MemInfo) : Except Fault AdumpInfo := do
  let search := (magicSearch registered tilingData memInfo.tilingDataSize).map fun r => r.getD {}
  if memInfo.isTik then search
  else if memInfo.tilingDataSize < u64ByteSize then return {}
  else
    let atomicIndex ← read 8 tilingData (memInfo.tilingDataSize - u64ByteSize).toNat
    match registered.lookup (UInt64.ofNat atomicIndex) with
    | some info => return info
    | none => search

/-- The function that calls it, without the flag that it sets. -/
def getAdumpInfo (registered : AdumpMap) (tilingData : List UInt8) (memInfo : MemInfo) :
    Except Fault AdumpInfo :=
  if registered.keys = [] then .ok {}
  else if memInfo.tilingDataSize = 0 then .ok {}
  else if tilingData.length < memInfo.tilingDataSize.toNat then .ok {}
  else getAdumpInfoFromTilingData registered tilingData memInfo

/-- Calls of `getAdumpInfoFromTilingData` that come to the magic search. The bound on the size
is what the caller has checked. -/
structure ReachesSearch (registered : AdumpMap) (tilingData : List UInt8) (memInfo : MemInfo) :
    Prop where
  inside : memInfo.tilingDataSize.toNat ≤ tilingData.length
  notFound : memInfo.isTik = true ∨ 8 ≤ memInfo.tilingDataSize.toNat ∧
    registered.lookup (wordAt tilingData (memInfo.tilingDataSize.toNat - 8)) = none

/-! ## The plain search -/

def magicHalf : UInt64 := 0xA5A5A5A5

/-- The record of the word at a byte offset, if the word has the magic high half. -/
def recordAt (registered : AdumpMap) (data : List UInt8) (off : ℕ) : Option AdumpInfo :=
  if wordAt data off >>> 32 = magicHalf then registered.lookup (wordAt data off) else none

/-- All byte offsets with a word in the data, from the front. -/
def plainSearch (registered : AdumpMap) (data : List UInt8) : Option AdumpInfo :=
  (List.range (data.length - 7)).findSome? (recordAt registered data)

/-- A word of the data with the magic high half is registered with this record. -/
structure NamesRecord (registered : AdumpMap) (data : List UInt8) (off : ℕ) (info : AdumpInfo) :
    Prop where
  inside : off + 8 ≤ data.length
  magic : wordAt data off >>> 32 = magicHalf
  lookup : registered.lookup (wordAt data off) = some info

/-- The first offset that names a record names this one. -/
structure NamesFirst (registered : AdumpMap) (data : List UInt8) (off : ℕ) (info : AdumpInfo) :
    Prop extends NamesRecord registered data off info where
  first : ∀ off' < off, ∀ info', ¬ NamesRecord registered data off' info'

/-- The tiling data as the search sees them. -/
def MemInfo.scanned (memInfo : MemInfo) (tilingData : List UInt8) : List UInt8 :=
  tilingData.take memInfo.tilingDataSize.toNat

variable {registered : AdumpMap} {data : List UInt8}

/-! ## Words -/

theorem read_eq {n off : ℕ} (h : off + n ≤ data.length) :
    read n data off = .ok (leNat ((data.drop off).take n)) := if_pos h

theorem leNat_ext (b0 b1 b2 b3 b4 b5 b6 b7 : UInt8) :
    leNat [b0, b1, b2, b3, b4, b5, b6, b7] =
      leNat [b0, b1, b2, b3] + 2 ^ 32 * leNat [b4, b5, b6, b7] := by
  simp only [leNat]
  omega

/-- The bytes of a word of the data. -/
theorem word_bytes {off : ℕ} (h : off + 8 ≤ data.length) : ∃ b0 b1 b2 b3 b4 b5 b6 b7 : UInt8,
    (data.drop off).take 8 = [b0, b1, b2, b3, b4, b5, b6, b7] := by
  have hlen : ((data.drop off).take 8).length = 8 := by
    rw [List.length_take, List.length_drop]
    omega
  match (data.drop off).take 8, hlen with
  | [b0, b1, b2, b3, b4, b5, b6, b7], _ => exact ⟨b0, b1, b2, b3, b4, b5, b6, b7, rfl⟩

/-- A byte of the data that counts for the magic half: the scan starts at byte 4. -/
def isMagic (data : List UInt8) (j : ℕ) : Bool := 4 ≤ j && data[j]? = some 0xA5

theorem leNat_lt (bytes : List UInt8) : leNat bytes < 256 ^ bytes.length := by
  induction bytes with
  | nil => simp [leNat]
  | cons b bytes ih =>
    have hb := b.toNat_lt
    rw [List.length_cons, Nat.pow_succ, leNat]
    omega

theorem leNat_four (b0 b1 b2 b3 : UInt8) : leNat [b0, b1, b2, b3] < 2 ^ 32 := by
  have h := leNat_lt [b0, b1, b2, b3]
  simpa using h

theorem leNat_eq_magic_iff (b4 b5 b6 b7 : UInt8) : leNat [b4, b5, b6, b7] = 0xA5A5A5A5 ↔
    b4 = 0xA5 ∧ b5 = 0xA5 ∧ b6 = 0xA5 ∧ b7 = 0xA5 := by
  have h4 := b4.toNat_lt
  have h5 := b5.toNat_lt
  have h6 := b6.toNat_lt
  have h7 := b7.toNat_lt
  simp only [leNat, ← UInt8.toNat_inj]
  change _ ↔ b4.toNat = 165 ∧ b5.toNat = 165 ∧ b6.toNat = 165 ∧ b7.toNat = 165
  omega

theorem getElem?_word {off : ℕ} {bytes : List UInt8} (hbytes : (data.drop off).take 8 = bytes)
    {k : ℕ} (hk : k < 8) : data[off + k]? = bytes[k]? := by
  rw [← hbytes, List.getElem?_take_of_lt hk, List.getElem?_drop]

theorem toNat_wordAt (data : List UInt8) (off : ℕ) :
    (wordAt data off).toNat = leNat ((data.drop off).take 8) := by
  have hlt : leNat ((data.drop off).take 8) < 2 ^ 64 :=
    (leNat_lt _).trans_le (Nat.pow_le_pow_right (by omega) (List.length_take_le 8 _))
  exact UInt64.toNat_ofNat_of_lt' hlt

/-- The high half of a word is the magic one if its last four bytes are. -/
theorem magic_iff {off : ℕ} (h : off + 8 ≤ data.length) :
    wordAt data off >>> 32 = magicHalf ↔
      ∀ j, off + 4 ≤ j → j < off + 8 → isMagic data j = true := by
  obtain ⟨b0, b1, b2, b3, b4, b5, b6, b7, hbytes⟩ := word_bytes h
  have hlow : leNat [b0, b1, b2, b3] < 2 ^ 32 := leNat_four b0 b1 b2 b3
  have hhigh : (wordAt data off >>> 32).toNat = leNat [b4, b5, b6, b7] := by
    rw [UInt64.toNat_shiftRight, toNat_wordAt, hbytes, leNat_ext, Nat.shiftRight_eq_div_pow]
    change (_ + 2 ^ 32 * _) / 2 ^ 32 = _
    omega
  have hbyte : ∀ k < 8, isMagic data (off + k) = true ↔
      4 ≤ off + k ∧ [b0, b1, b2, b3, b4, b5, b6, b7][k]? = some 0xA5 := by
    intro k hk
    rw [← getElem?_word hbytes hk]
    simp [isMagic]
  rw [← UInt64.toNat_inj, hhigh]
  change leNat [b4, b5, b6, b7] = 0xA5A5A5A5 ↔ _
  rw [leNat_eq_magic_iff]
  constructor
  · intro hall j hlo hhi
    obtain ⟨k, rfl⟩ : ∃ k, j = off + k := ⟨j - off, by omega⟩
    rw [hbyte k (by omega)]
    obtain ⟨rfl, rfl, rfl, rfl⟩ := hall
    refine ⟨by omega, ?_⟩
    obtain rfl | rfl | rfl | rfl : k = 4 ∨ k = 5 ∨ k = 6 ∨ k = 7 := by omega
    all_goals rfl
  · intro hall
    have hbyteOf : ∀ k < 8, 4 ≤ k → [b0, b1, b2, b3, b4, b5, b6, b7][k]? = some 0xA5 :=
      fun k hk hlo => ((hbyte k hk).mp (hall (off + k) (by omega) (by omega))).2
    exact ⟨Option.some.inj (hbyteOf 4 (by omega) (by omega)),
      Option.some.inj (hbyteOf 5 (by omega) (by omega)),
      Option.some.inj (hbyteOf 6 (by omega) (by omega)),
      Option.some.inj (hbyteOf 7 (by omega) (by omega))⟩

/-- The index that the code puts together is the whole word. -/
theorem index_eq {off : ℕ} (h : off + 8 ≤ data.length)
    (hmagic : wordAt data off >>> 32 = magicHalf) :
    metaMagicNum ||| UInt64.ofNat (leNat ((data.drop off).take 4)) = wordAt data off := by
  obtain ⟨b0, b1, b2, b3, b4, b5, b6, b7, hbytes⟩ := word_bytes h
  have hlow : leNat [b0, b1, b2, b3] < 2 ^ 32 := leNat_four b0 b1 b2 b3
  have hfour : (data.drop off).take 4 = [b0, b1, b2, b3] := by
    have htake := congrArg (List.take 4) hbytes
    rwa [List.take_take] at htake
  have hhigh : leNat [b4, b5, b6, b7] = 0xA5A5A5A5 := by
    have hnat := congrArg UInt64.toNat hmagic
    rw [UInt64.toNat_shiftRight, toNat_wordAt, hbytes, leNat_ext, Nat.shiftRight_eq_div_pow] at hnat
    change (_ + 2 ^ 32 * _) / 2 ^ 32 = 0xA5A5A5A5 at hnat
    omega
  rw [← UInt64.toNat_inj, UInt64.toNat_or, toNat_wordAt, hbytes, hfour, leNat_ext, hhigh,
    UInt64.toNat_ofNat_of_lt' (hlow.trans (by decide))]
  change (0xA5A5A5A5 <<< 32) ||| _ = _
  rw [← Nat.shiftLeft_add_eq_or_of_lt hlow, Nat.shiftLeft_eq]
  omega

/-! ## One round -/

theorem not_isMagic {j : ℕ} (h : j < 4) : isMagic data j = false := by
  simp [isMagic, h]

/-- Four counted bytes end at `i` if a magic word does. -/
theorem four_le_runBefore_iff {i : ℕ} (hi : i < data.length) :
    4 ≤ runBefore (isMagic data) (i + 1) ↔ 7 ≤ i ∧ wordAt data (i - 7) >>> 32 = magicHalf := by
  rw [le_runBefore_iff]
  constructor
  · intro h
    have hseven : 7 ≤ i := by
      by_contra hlt
      have hfirst : isMagic data (i - 3) = true := h.2 _ (by omega) (by omega)
      rw [not_isMagic (by omega)] at hfirst
      cases hfirst
    exact ⟨hseven, (magic_iff (by omega)).mpr fun j hlo hhi => h.2 j (by omega) (by omega)⟩
  · intro h
    exact ⟨by omega, fun j hlo hhi =>
      (magic_iff (by omega)).mp h.2 j (by omega) (by omega)⟩

theorem read_one {i : ℕ} (hlo : 4 ≤ i) (hi : i < data.length) :
    ∃ byte, read 1 data i = .ok byte ∧ (byte = 0xA5 ↔ isMagic data i = true) := by
  have hone : leNat ((data.drop i).take 1) = data[i].toNat := by
    rw [List.drop_eq_getElem_cons hi]
    rfl
  refine ⟨leNat ((data.drop i).take 1), read_eq hi, ?_⟩
  rw [hone]
  simp [isMagic, hlo, List.getElem?_eq_getElem hi, ← UInt8.toNat_inj]

/-- The counter of the code, which stops at three between two rounds. -/
def Counts (data : List UInt8) (i : ℕ) (count : UInt8) : Prop :=
  count.toNat = min 3 (runBefore (isMagic data) i)

theorem counts_start : Counts data 4 0 := by
  have hrun : ¬ 1 ≤ runBefore (isMagic data) 4 := by
    rw [le_runBefore_iff]
    intro h
    have hlast : isMagic data 3 = true := h.2 3 (by omega) (by omega)
    rw [not_isMagic (by omega)] at hlast
    cases hlast
  unfold Counts
  simp
  omega

/-- What a round makes of the counter before it looks for the word. -/
theorem toNat_counted {i byte : ℕ} {count : UInt8} (hcount : Counts data i count)
    (hbyte : byte = 0xA5 ↔ isMagic data i = true) :
    (if byte = 0xA5 then count + 1 else 0).toNat = min 4 (runBefore (isMagic data) (i + 1)) := by
  unfold Counts at hcount
  rw [runBefore]
  by_cases h : byte = 0xA5
  · rw [if_pos h, if_pos (hbyte.mp h), UInt8.toNat_add, hcount]
    change (_ + 1) % 256 = _
    omega
  · rw [if_neg h, if_neg (mt hbyte.mpr h)]
    rfl

/-- The record that the round of byte `i` finds. -/
def found (registered : AdumpMap) (data : List UInt8) (i : ℕ) : Option AdumpInfo :=
  if 7 ≤ i then recordAt registered data (i - 7) else none

theorem found_eq_none {i : ℕ} (h : ¬ (7 ≤ i ∧ wordAt data (i - 7) >>> 32 = magicHalf)) :
    found registered data i = none := by
  unfold found recordAt
  split_ifs with hi hmagic
  · exact absurd ⟨hi, hmagic⟩ h
  · rfl
  · rfl

theorem found_eq {i : ℕ} (hi : 7 ≤ i) (hmagic : wordAt data (i - 7) >>> 32 = magicHalf) :
    found registered data i = registered.lookup (wordAt data (i - 7)) := by
  rw [found, if_pos hi, recordAt, if_pos hmagic]

/-- The loop finds what its rounds find, the first of them. -/
theorem magicScan_eq {n i : ℕ} {count : UInt8} (hlo : 4 ≤ i) (hend : i + n ≤ data.length)
    (hcount : Counts data i count) :
    magicScan registered data n i count =
      .ok ((List.range' i n).findSome? (found registered data)) := by
  induction n generalizing i count with
  | zero => rfl
  | succ n ih =>
    have hi : i < data.length := by omega
    obtain ⟨byte, hread, hbyte⟩ := read_one hlo hi
    have hrest : ∀ count, Counts data (i + 1) count →
        magicScan registered data n (i + 1) count =
          .ok ((List.range' (i + 1) n).findSome? (found registered data)) :=
      fun count h => ih (by omega) (by omega) h
    have hcounted := toNat_counted hcount hbyte
    have hfour := four_le_runBefore_iff hi
    rw [List.range'_succ, List.findSome?_cons, magicScan, hread]
    dsimp only [bind, Except.bind]
    generalize (if byte = 0xA5 then count + 1 else 0) = counted at hcounted ⊢
    by_cases hhit : 4 ≤ runBefore (isMagic data) (i + 1)
    · -- the last three of the four bytes are counted again for the next word
      obtain ⟨hseven, hmagic⟩ := hfour.mp hhit
      have heq : counted = 4 := by
        rw [← UInt8.toNat_inj, hcounted]
        exact min_eq_left hhit
      have hnext : Counts data (i + 1) (counted - 1) := by
        rw [heq]
        change 3 = min 3 _
        omega
      rw [if_neg (not_or.mpr ⟨not_not.mpr heq, by omega⟩), read_eq (by omega),
        found_eq hseven hmagic]
      dsimp only
      rw [index_eq (by omega) hmagic, hrest _ hnext]
      cases registered.lookup (wordAt data (i - 7)) with
      | none => rfl
      | some info => rfl
    · have hne : counted ≠ 4 := by
        intro heq
        rw [heq] at hcounted
        change 4 = min 4 _ at hcounted
        omega
      have hnext : Counts data (i + 1) counted := by
        rw [Counts, hcounted]
        omega
      rw [if_pos (Or.inl hne), hrest _ hnext, found_eq_none (mt hfour.mpr hhit)]

/-! ## The whole search -/

theorem recordAt_eq_some_iff {off : ℕ} (h : off + 8 ≤ data.length) {info : AdumpInfo} :
    recordAt registered data off = some info ↔ NamesRecord registered data off info := by
  unfold recordAt
  by_cases hmagic : wordAt data off >>> 32 = magicHalf
  · rw [if_pos hmagic]
    exact ⟨fun hlookup => ⟨h, hmagic, hlookup⟩, NamesRecord.lookup⟩
  · rw [if_neg hmagic]
    exact ⟨fun hnone => (Option.some_ne_none _ hnone.symm).elim, fun hn => absurd hn.magic hmagic⟩

theorem recordAt_eq_none_iff {off : ℕ} (h : off + 8 ≤ data.length) :
    recordAt registered data off = none ↔ ∀ info, ¬ NamesRecord registered data off info := by
  rw [Option.eq_none_iff_forall_ne_some]
  exact forall_congr' fun info => not_congr (recordAt_eq_some_iff h)

theorem plainSearch_eq_some_iff {info : AdumpInfo} :
    plainSearch registered data = some info ↔ ∃ off, NamesFirst registered data off info := by
  rw [plainSearch, findSome?_range_eq_some]
  constructor
  · intro h
    obtain ⟨off, hoff, hsome, hbefore⟩ := h
    exact ⟨off, (recordAt_eq_some_iff (by omega)).mp hsome, fun off' hlt =>
      (recordAt_eq_none_iff (by omega)).mp (hbefore off' hlt)⟩
  · intro h
    obtain ⟨off, hnames⟩ := h
    have hinside := hnames.inside
    exact ⟨off, by omega, (recordAt_eq_some_iff hinside).mpr hnames.toNamesRecord, fun off' hlt =>
      (recordAt_eq_none_iff (by omega)).mpr (hnames.first off' hlt)⟩

theorem plainSearch_eq_none_iff :
    plainSearch registered data = none ↔ ∀ off info, ¬ NamesRecord registered data off info := by
  rw [plainSearch, List.findSome?_eq_none_iff]
  constructor
  · intro h off info hnames
    have hinside := hnames.inside
    have hnone := h off (List.mem_range.mpr (by omega))
    exact (recordAt_eq_none_iff hinside).mp hnone info hnames
  · intro h off hoff
    have hlt := List.mem_range.mp hoff
    exact (recordAt_eq_none_iff (by omega)).mpr (h off)

/-- The rounds before byte 7 find nothing, and each round from there on belongs to an offset. -/
theorem findSome?_found (registered : AdumpMap) (data : List UInt8) (size : ℕ) :
    (List.range' 4 (size - 4)).findSome? (found registered data) =
      (List.range (size - 7)).findSome? (recordAt registered data) := by
  have hearly : ∀ n ≤ 3, (List.range' 4 n).findSome? (found registered data) = none := by
    intro n hn
    refine List.findSome?_eq_none_iff.mpr fun i hi => if_neg ?_
    have hlt := (List.mem_range'_1.mp hi).2
    omega
  by_cases hsize : size ≤ 7
  · rw [hearly _ (by omega), Nat.sub_eq_zero_of_le hsize]
    rfl
  · have hsplit : List.range' 4 (size - 4) = List.range' 4 3 ++ List.range' 7 (size - 7) := by
      rw [show size - 4 = 3 + (size - 7) by omega]
      exact List.range'_append_1.symm
    rw [hsplit, List.findSome?_append, hearly 3 le_rfl, Option.none_or,
      List.range'_eq_map_range, List.findSome?_map]
    congr 1
    funext off
    change found registered data (7 + off) = _
    rw [found, if_pos (Nat.le_add_right 7 off), Nat.add_sub_cancel_left]

theorem wordAt_scanned {memInfo : MemInfo} {tilingData : List UInt8} {off : ℕ}
    (h : off + 8 ≤ (memInfo.scanned tilingData).length) :
    wordAt (memInfo.scanned tilingData) off = wordAt tilingData off := by
  have happend := wordAt_append_left h (tilingData.drop memInfo.tilingDataSize.toNat)
  rw [MemInfo.scanned, List.take_append_drop] at happend
  exact happend.symm

theorem length_scanned {memInfo : MemInfo} {tilingData : List UInt8}
    (h : memInfo.tilingDataSize.toNat ≤ tilingData.length) :
    (memInfo.scanned tilingData).length = memInfo.tilingDataSize.toNat :=
  List.length_take_of_le h

theorem magicSearch_eq {memInfo : MemInfo} {tilingData : List UInt8}
    (h : memInfo.tilingDataSize.toNat ≤ tilingData.length) :
    magicSearch registered tilingData memInfo.tilingDataSize =
      .ok (plainSearch registered (memInfo.scanned tilingData)) := by
  have hplain : plainSearch registered (memInfo.scanned tilingData) =
      (List.range (memInfo.tilingDataSize.toNat - 7)).findSome?
        (recordAt registered tilingData) := by
    rw [plainSearch, length_scanned h]
    refine findSome?_congr fun off hoff => ?_
    have hlt := List.mem_range.mp hoff
    rw [recordAt, recordAt, wordAt_scanned (by rw [length_scanned h]; omega)]
  have hloop : magicSearch registered tilingData memInfo.tilingDataSize =
      .ok ((List.range' 4 (memInfo.tilingDataSize.toNat - 4)).findSome?
        (found registered tilingData)) := by
    by_cases hsize : memInfo.tilingDataSize.toNat ≤ 4
    · rw [magicSearch, Nat.sub_eq_zero_of_le hsize]
      rfl
    · exact magicScan_eq le_rfl (by omega) counts_start
  rw [hloop, findSome?_found, hplain]

theorem lastWord_eq {memInfo : MemInfo} {tilingData : List UInt8}
    (h : memInfo.tilingDataSize.toNat ≤ tilingData.length)
    (hword : 8 ≤ memInfo.tilingDataSize.toNat) :
    ∃ atomicIndex,
      read 8 tilingData (memInfo.tilingDataSize - u64ByteSize).toNat = .ok atomicIndex ∧
      UInt64.ofNat atomicIndex = wordAt tilingData (memInfo.tilingDataSize.toNat - 8) := by
  have hoff : (memInfo.tilingDataSize - u64ByteSize).toNat = memInfo.tilingDataSize.toNat - 8 :=
    UInt64.toNat_sub_of_le _ _ hword
  rw [hoff]
  exact ⟨_, read_eq (by omega), rfl⟩

theorem getAdumpInfoFromTilingData_eq {memInfo : MemInfo} {tilingData : List UInt8}
    (h : ReachesSearch registered tilingData memInfo) :
    getAdumpInfoFromTilingData registered tilingData memInfo =
      .ok ((plainSearch registered (memInfo.scanned tilingData)).getD {}) := by
  have hsearch := @magicSearch_eq registered memInfo tilingData h.inside
  rw [getAdumpInfoFromTilingData, hsearch]
  dsimp only [Except.map]
  by_cases htik : memInfo.isTik = true
  · rw [if_pos htik]
  · obtain ⟨hword, hlast⟩ := h.notFound.resolve_left htik
    obtain ⟨atomicIndex, hread, hindex⟩ := lastWord_eq h.inside hword
    have hsize : ¬ memInfo.tilingDataSize < u64ByteSize := not_lt.mpr hword
    rw [if_neg htik, if_neg hsize, hread]
    dsimp only [bind, Except.bind]
    rw [hindex, hlast]

/-- Whatever is called for, no byte outside of the tiling data is read. -/
theorem getAdumpInfo_ok (registered : AdumpMap) (tilingData : List UInt8) (memInfo : MemInfo) :
    ∃ info, getAdumpInfo registered tilingData memInfo = .ok info := by
  unfold getAdumpInfo
  split_ifs with hempty hzero hshort
  · exact ⟨_, rfl⟩
  · exact ⟨_, rfl⟩
  · exact ⟨_, rfl⟩
  · have hinside : memInfo.tilingDataSize.toNat ≤ tilingData.length := not_lt.mp hshort
    by_cases hreach : ReachesSearch registered tilingData memInfo
    · exact ⟨_, getAdumpInfoFromTilingData_eq hreach⟩
    · have htik : ¬ memInfo.isTik = true := fun htik => hreach ⟨hinside, Or.inl htik⟩
      rw [getAdumpInfoFromTilingData, if_neg htik]
      by_cases hsize : memInfo.tilingDataSize < u64ByteSize
      · rw [if_pos hsize]
        exact ⟨_, rfl⟩
      · obtain ⟨atomicIndex, hread, hindex⟩ := lastWord_eq hinside (not_lt.mp hsize)
        rw [if_neg hsize, hread]
        dsimp only [bind, Except.bind]
        rw [hindex]
        cases hlast : registered.lookup (wordAt tilingData (memInfo.tilingDataSize.toNat - 8)) with
        | none => exact absurd ⟨hinside, Or.inr ⟨not_lt.mp hsize, hlast⟩⟩ hreach
        | some info => exact ⟨info, rfl⟩

/-- The scan is the plain search: it gives the record that the first offset names, and the
empty result if no offset names one. That it is a result means that all its reads were inside. -/
theorem scan_finds_first {tilingData : List UInt8} {memInfo : MemInfo}
    (h : ReachesSearch registered tilingData memInfo) :
    ∃ result : Option AdumpInfo,
      magicSearch registered tilingData memInfo.tilingDataSize = .ok result ∧
      getAdumpInfoFromTilingData registered tilingData memInfo = .ok (result.getD {}) ∧
      (∀ info, result = some info ↔
        ∃ off, NamesFirst registered (memInfo.scanned tilingData) off info) ∧
      (result = none ↔ ∀ off info, ¬ NamesRecord registered (memInfo.scanned tilingData) off info) ∧
      ((∀ index info, registered.lookup index = some info → info ≠ {}) →
        (getAdumpInfoFromTilingData registered tilingData memInfo = .ok {} ↔
          ∀ off info, ¬ NamesRecord registered (memInfo.scanned tilingData) off info)) := by
  have hresult := getAdumpInfoFromTilingData_eq h
  refine ⟨plainSearch registered (memInfo.scanned tilingData), magicSearch_eq h.inside, hresult,
    fun info => plainSearch_eq_some_iff, plainSearch_eq_none_iff, fun hrecords => ?_⟩
  rw [hresult, ← plainSearch_eq_none_iff]
  cases hplain : plainSearch registered (memInfo.scanned tilingData) with
  | none => exact iff_of_true rfl rfl
  | some info =>
    obtain ⟨off, hnames⟩ := plainSearch_eq_some_iff.mp hplain
    exact iff_of_false (fun heq => hrecords _ _ hnames.lookup (Except.ok.inj heq))
      (Option.some_ne_none info)

/-- Five magic bytes hold two words, of which the second one is registered. -/
def overlapping : List UInt8 := [1, 0, 0, 0, 0xA5, 0xA5, 0xA5, 0xA5, 0xA5]

def secondWord : AdumpMap := AList.insert 0xA5A5A5A5A5000000 ⟨4096, 2⟩ ∅

theorem scan_finds_first_overlapping :
    getAdumpInfoFromTilingData secondWord overlapping ⟨true, 9⟩ = .ok ⟨4096, 2⟩ ∧
    ∃ result : Option AdumpInfo, magicSearch secondWord overlapping 9 = .ok result ∧
      (∀ info, result = some info ↔ ∃ off, NamesFirst secondWord overlapping off info) := by
  obtain ⟨result, hsearch, -, hfirst, -⟩ :=
    @scan_finds_first secondWord overlapping ⟨true, 9⟩ ⟨by decide, Or.inl rfl⟩
  exact ⟨by decide, result, hsearch, hfirst⟩

end Msopcom.AdumpScan
