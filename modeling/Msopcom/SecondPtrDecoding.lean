import Mathlib.Algebra.BigOperators.Group.List.Basic
import Msopcom.MetaSecondPtr
import Msopcom.Slots

set_option autoImplicit false

/-!
# Second-level pointers written and read back

Behind the offset of the pointers, an operator writes the shape of each block that they lead to,
and then the pointers. Both interfaces walk along the shapes with one cursor and along the
pointers with another.
-/
namespace Msopcom.SecondPtrDecoding
open Bytes Slots MetaSecondPtr

/-- A block with its shape. The number of dimensions shares a word with an index. -/
structure Block where
  dims : List UInt64
  index : UInt32
  addr : UInt64
  countFits : dims.length < 2 ^ 32

namespace Block
variable (b : Block)

def dimWord : UInt64 := UInt64.ofNat (b.dims.length + 2 ^ 32 * b.index.toNat)

def shapeWords : List UInt64 := b.dimWord :: b.dims

/-- The bytes of the block, modulo the word. -/
def size (dtypeBytes : UInt64) : UInt64 :=
  UInt64.ofNat ((b.dims.map UInt64.toNat).prod * dtypeBytes.toNat)

end Block

def shapes (blocks : List Block) : List UInt64 := blocks.flatMap Block.shapeWords

/-- Where the pointers begin, in words. -/
def ptrOffset (blocks : List Block) : ℕ := 1 + (shapes blocks).length

def encode (blocks : List Block) : List UInt64 :=
  UInt64.ofNat (8 * ptrOffset blocks) :: (shapes blocks ++ blocks.map Block.addr)

/-- A host input whose data are these blocks. -/
structure Encodes (buff : List UInt8) (info : HostInputInfo) (blocks : List Block) : Prop where
  aligned : info.dataOffset.toNat % 8 = 0
  offsetFits : 8 * ptrOffset blocks < 2 ^ 64
  data : slotBytes (encode blocks) <+: buff.drop info.dataOffset.toNat

/-- What is to be stored of the blocks, numbered from `ptrIdx` on. -/
def decoded (describe : UInt64 → UInt64 → ℕ → AddrInfo) (dtypeBytes : UInt64) :
    ℕ → List Block → List AddrInfo
  | _, [] => []
  | ptrIdx, b :: blocks =>
    describe b.addr (b.size dtypeBytes) ptrIdx :: decoded describe dtypeBytes (ptrIdx + 1) blocks

/-! ## Words of the image -/

theorem leNat_take_succ (bytes : List UInt8) (n : ℕ) :
    leNat (bytes.take (n + 1)) = (bytes.getD 0 0).toNat + 256 * leNat ((bytes.drop 1).take n) := by
  cases bytes with
  | nil =>
    rw [List.drop_nil, List.take_nil, List.take_nil]
    rfl
  | cons b bytes => rfl

theorem leNat_take (bytes : List UInt8) (n : ℕ) :
    leNat (bytes.take n) =
      (List.range n).foldr (fun k acc => (bytes.getD k 0).toNat + 256 * acc) 0 := by
  induction n generalizing bytes with
  | zero => rfl
  | succ n ih =>
    have hbyte (k : ℕ) : (bytes.drop 1).getD k 0 = bytes.getD (k + 1) 0 := by
      rw [List.getD_eq_getElem?_getD, List.getD_eq_getElem?_getD, List.getElem?_drop, Nat.add_comm]
    rw [leNat_take_succ, ih, List.range_succ_eq_map, List.foldr_cons, List.foldr_map]
    simp only [hbyte]

theorem readWord_eq_wordAt (buff : List UInt8) (i : ℕ) : readWord buff i = wordAt buff (8 * i) := by
  unfold readWord wordAt
  rw [leNat_take]
  simp only [List.getD_eq_getElem?_getD, List.getElem?_drop]

theorem wordAt_drop (bytes : List UInt8) (base off : ℕ) :
    wordAt (bytes.drop base) off = wordAt bytes (base + off) := by
  unfold wordAt
  rw [List.drop_drop]

theorem readWord_of_prefix {buff : List UInt8} {base : ℕ} {words : List UInt64}
    (h : slotBytes words <+: buff.drop (8 * base)) {i : ℕ} {w : UInt64} (hw : words[i]? = some w) :
    readWord buff (base + i) = w := by
  obtain ⟨rest, hrest⟩ := h
  have hslot := slot_slotBytes hw rest
  unfold slot at hslot
  split_ifs at hslot
  rw [hrest, wordAt_drop] at hslot
  rw [readWord_eq_wordAt, Nat.mul_add]
  exact Option.some.inj hslot

theorem toNat_dimWord (b : Block) : b.dimWord.toUInt32.toNat = b.dims.length := by
  have hfits := b.countFits
  unfold Block.dimWord
  rw [UInt64.toNat_toUInt32, UInt64.toNat_ofNat']
  omega

theorem foldl_dims {dims : List UInt64} {f : ℕ → UInt64}
    (hf : ∀ j w, dims[j]? = some w → f j = w) (init : UInt64) :
    (List.range dims.length).foldl (fun total j => total * f j) init =
      init * UInt64.ofNat (dims.map UInt64.toNat).prod := by
  induction dims generalizing f init with
  | nil => exact (UInt64.mul_one init).symm
  | cons d dims ih =>
    have hrest (j : ℕ) (w : UInt64) (hw : dims[j]? = some w) : f (j + 1) = w := hf (j + 1) w hw
    rw [List.length_cons, List.range_succ_eq_map, List.foldl_cons, List.foldl_map, ih hrest,
      hf 0 d rfl, List.map_cons, List.prod_cons, UInt64.ofNat_mul, UInt64.ofNat_toNat,
      UInt64.mul_assoc]

theorem size_eq (b : Block) (dtypeBytes : UInt64) {f : ℕ → UInt64}
    (hf : ∀ j w, b.dims[j]? = some w → f j = w) :
    (List.range b.dims.length).foldl (fun total j => total * f j) 1 * dtypeBytes =
      b.size dtypeBytes := by
  unfold Block.size
  rw [foldl_dims hf, UInt64.one_mul, UInt64.ofNat_mul, UInt64.ofNat_toNat]

/-! ## The loop -/

variable {describe : UInt64 → UInt64 → ℕ → AddrInfo} {dtypeBytes : UInt64} {buff : List UInt8}

/-- One cursor is in front of the shapes of the blocks that are left, the other in front of their
pointers. -/
structure Cursors (buff : List UInt8) (hostInputsPtr ptrOffset dimIdx ptrIdx : ℕ)
    (blocks : List Block) : Prop where
  shapes : ∀ j w, (shapes blocks)[j]? = some w → readWord buff (hostInputsPtr + 1 + dimIdx + j) = w
  pointers : ∀ j b, blocks[j]? = some b →
    readWord buff (hostInputsPtr + (ptrOffset + (ptrIdx + j))) = b.addr
  ends : 1 + dimIdx + (SecondPtrDecoding.shapes blocks).length = ptrOffset

section
variable {hostInputsPtr offset dimIdx ptrIdx : ℕ} {b : Block} {blocks : List Block}

theorem shapes_cons : shapes (b :: blocks) = b.dimWord :: (b.dims ++ shapes blocks) := rfl

theorem Cursors.dim (h : Cursors buff hostInputsPtr offset dimIdx ptrIdx (b :: blocks)) :
    (readWord buff (hostInputsPtr + 1 + dimIdx)).toUInt32.toNat = b.dims.length := by
  have hword : readWord buff (hostInputsPtr + 1 + dimIdx) = b.dimWord := h.shapes 0 _ rfl
  rw [hword, toNat_dimWord]

theorem Cursors.dims (h : Cursors buff hostInputsPtr offset dimIdx ptrIdx (b :: blocks)) :
    ∀ j w, b.dims[j]? = some w → readWord buff (hostInputsPtr + 1 + (dimIdx + 1 + j)) = w := by
  intro j w hw
  have hlt : j < b.dims.length := (List.getElem?_eq_some_iff.mp hw).1
  have hindex : (SecondPtrDecoding.shapes (b :: blocks))[j + 1]? = some w := by
    rw [shapes_cons, List.getElem?_cons_succ, List.getElem?_append_left hlt]
    exact hw
  rw [← h.shapes _ w hindex]
  congr 1
  omega

theorem Cursors.next (h : Cursors buff hostInputsPtr offset dimIdx ptrIdx (b :: blocks)) :
    Cursors buff hostInputsPtr offset (dimIdx + 1 + b.dims.length) (ptrIdx + 1) blocks := by
  constructor
  case shapes =>
    intro j w hw
    have hindex : (SecondPtrDecoding.shapes (b :: blocks))[1 + (b.dims.length + j)]? = some w := by
      rw [shapes_cons, Nat.add_comm 1, List.getElem?_cons_succ,
        List.getElem?_append_right (Nat.le_add_right _ _), Nat.add_sub_cancel_left]
      exact hw
    have hword := h.shapes _ w hindex
    rw [← hword]
    congr 1
    omega
  case pointers =>
    intro j b' hb'
    have hword := h.pointers (j + 1) b' hb'
    rw [← hword]
    congr 1
    omega
  case ends =>
    have hends := h.ends
    rw [shapes_cons, List.length_cons, List.length_append] at hends
    omega

/-- The loop makes one round for each block and then ends by itself. -/
theorem secondPtrLoop_eq {fuel : ℕ} (hfuel : blocks.length ≤ fuel)
    (h : Cursors buff hostInputsPtr offset dimIdx ptrIdx blocks) :
    secondPtrLoop describe dtypeBytes buff hostInputsPtr offset fuel dimIdx ptrIdx =
      decoded describe dtypeBytes ptrIdx blocks := by
  induction blocks generalizing fuel dimIdx ptrIdx with
  | nil =>
    have hends : 1 + dimIdx + 0 = offset := h.ends
    cases fuel with
    | zero => rfl
    | succ fuel =>
      unfold secondPtrLoop
      rw [if_neg (by omega)]
      rfl
  | cons b blocks ih =>
    obtain ⟨fuel, rfl⟩ : ∃ n, fuel = n + 1 := ⟨fuel - 1, by rw [List.length_cons] at hfuel; omega⟩
    have hends := h.ends
    rw [shapes_cons, List.length_cons] at hends
    have hptr : readWord buff (hostInputsPtr + (offset + ptrIdx)) = b.addr := h.pointers 0 b rfl
    unfold secondPtrLoop
    rw [if_pos (by omega)]
    dsimp only
    rw [h.dim, size_eq b dtypeBytes h.dims, hptr,
      ih (Nat.le_of_succ_le_succ hfuel) h.next]
    rfl

end

/-! ## Host inputs -/

theorem length_le_ptrOffset (blocks : List Block) : blocks.length ≤ ptrOffset blocks := by
  unfold ptrOffset
  induction blocks with
  | nil => exact Nat.zero_le _
  | cons b blocks ih =>
    rw [shapes_cons, List.length_cons, List.length_cons, List.length_append]
    omega

section
variable {info : HostInputInfo} {blocks : List Block}

theorem Encodes.word (h : Encodes buff info blocks) {i : ℕ} {w : UInt64}
    (hw : (encode blocks)[i]? = some w) : readWord buff (info.dataOffset.toNat / 8 + i) = w := by
  have hbase : 8 * (info.dataOffset.toNat / 8) = info.dataOffset.toNat := by
    have haligned := h.aligned
    omega
  exact readWord_of_prefix (by rw [hbase]; exact h.data) hw

theorem Encodes.offset (h : Encodes buff info blocks) :
    (readWord buff (info.dataOffset.toNat / 8)).toNat / 8 = ptrOffset blocks := by
  have hword := h.word (i := 0) rfl
  rw [Nat.add_zero] at hword
  rw [hword, Words.toNat_ofNat64 h.offsetFits]
  omega

theorem Encodes.cursors (h : Encodes buff info blocks) :
    Cursors buff (info.dataOffset.toNat / 8) (ptrOffset blocks) 0 0 blocks := by
  constructor
  case shapes =>
    intro j w hw
    have hlt : j < (SecondPtrDecoding.shapes blocks).length := (List.getElem?_eq_some_iff.mp hw).1
    have hindex : (encode blocks)[j + 1]? = some w := by
      unfold encode
      rw [List.getElem?_cons_succ, List.getElem?_append_left hlt]
      exact hw
    rw [← h.word hindex]
    congr 1
    omega
  case pointers =>
    intro j b hb
    have hindex : (encode blocks)[ptrOffset blocks + j]? = some b.addr := by
      unfold encode ptrOffset
      rw [Nat.add_comm 1, Nat.add_right_comm, List.getElem?_cons_succ,
        List.getElem?_append_right (Nat.le_add_right _ _), Nat.add_sub_cancel_left,
        List.getElem?_map, hb]
      rfl
    rw [← h.word hindex, Nat.zero_add]
  case ends => rfl

theorem parseHostInput_eq (h : Encodes buff info blocks) :
    parseHostInput describe dtypeBytes buff info = decoded describe dtypeBytes 0 blocks := by
  unfold parseHostInput
  dsimp only
  rw [h.offset]
  exact secondPtrLoop_eq (length_le_ptrOffset blocks) h.cursors

end

/-! ## The two interfaces -/

/-- The host inputs behind a slot. -/
def atSlot (hostInputs : List HostInputInfo) (index : UInt32) : List HostInputInfo :=
  hostInputs.filter fun info => info.addrOffset.toNat / 8 = index.toNat

/-- The blocks of all host inputs behind a slot, in the order of the table. -/
def decodedAt (describe : UInt64 → UInt64 → ℕ → AddrInfo) (hostInputs : List HostInputInfo)
    (blocksOf : HostInputInfo → List Block) (index : UInt32) (dtypeBytes : UInt64) :
    List AddrInfo :=
  (atSlot hostInputs index).flatMap fun info => decoded describe dtypeBytes 0 (blocksOf info)

/-- The entries of the second-level pointers, that of `index` with all its blocks. -/
def withBlocks (describe : UInt64 → UInt64 → ℕ → AddrInfo) (hostInputs : List HostInputInfo)
    (blocksOf : HostInputInfo → List Block) (infos : SecondPtrAddrInfos) (index : UInt32) :
    List (UInt64 × SecondPtrInfo) :=
  infos.entries.map fun e =>
    if e.1 = index.toUInt64 then
      withPtrs e (decodedAt describe hostInputs blocksOf index e.2.dtypeBytes)
    else e

section
variable {hostInputs : List HostInputInfo} {blocksOf : HostInputInfo → List Block} {index : UInt32}

theorem parseSecondPtrAddrsWith_eq
    (hencodes : ∀ info ∈ atSlot hostInputs index, Encodes buff info (blocksOf info))
    (infos : SecondPtrAddrInfos) :
    (parseSecondPtrAddrsWith describe buff hostInputs infos index).entries =
      withBlocks describe hostInputs blocksOf infos index := by
  have hresolved (dtypeBytes : UInt64) :
      resolvedAt describe buff hostInputs dtypeBytes index.toNat =
        decodedAt describe hostInputs blocksOf index dtypeBytes :=
    List.flatMap_congr fun info hinfo => parseHostInput_eq (hencodes info hinfo)
  rw [entries_parseSecondPtrAddrsWith]
  unfold withBlocks
  simp only [hresolved]

theorem memInfoDesc_decoded (describe : UInt64 → UInt64 → ℕ → AddrInfo) {desc : MemInfoDesc}
    (hdescribe : ∀ addr length ptrIdx, (describe addr length ptrIdx).memInfoDesc = desc)
    {ptrIdx : ℕ} {blocks : List Block} {it : AddrInfo}
    (hit : it ∈ decoded describe dtypeBytes ptrIdx blocks) : it.memInfoDesc = desc := by
  induction blocks generalizing ptrIdx with
  | nil => exact absurd hit List.not_mem_nil
  | cons b blocks ih =>
    cases List.mem_cons.mp hit with
    | inl hfirst => rw [hfirst, hdescribe]
    | inr hrest => exact ih hrest

theorem decoded_eq_nil {ptrIdx : ℕ} {blocks : List Block} :
    decoded describe dtypeBytes ptrIdx blocks = [] ↔ blocks = [] := by
  cases blocks with
  | nil => exact iff_of_true rfl rfl
  | cons b blocks => exact iff_of_false (List.cons_ne_nil _ _) (List.cons_ne_nil _ _)

theorem decodedAt_eq_nil :
    decodedAt describe hostInputs blocksOf index dtypeBytes = [] ↔
      ∀ info ∈ atSlot hostInputs index, blocksOf info = [] := by
  unfold decodedAt
  rw [List.flatMap_eq_nil_iff]
  simp only [decoded_eq_nil]

/-- What the two interfaces store is described in different ways, as long as there is anything. -/
theorem decodedAt_eq_iff (dtypeBytes : UInt64) :
    decodedAt RtArgsEx.describe hostInputs blocksOf index dtypeBytes =
        decodedAt AclrtLaunchArgsInfo.describe hostInputs blocksOf index dtypeBytes ↔
      ∀ info ∈ atSlot hostInputs index, blocksOf info = [] := by
  constructor
  · intro hsame
    apply decodedAt_eq_nil.mp
    apply List.eq_nil_iff_forall_not_mem.mpr
    intro it hit
    obtain ⟨info, -, hrt⟩ := List.mem_flatMap.mp hit
    rw [hsame] at hit
    obtain ⟨info', -, hacl⟩ := List.mem_flatMap.mp hit
    have hdouble : it.memInfoDesc = .doublePtr :=
      memInfoDesc_decoded RtArgsEx.describe (fun _ _ _ => rfl) hrt
    have hdefault : it.memInfoDesc = .default :=
      memInfoDesc_decoded AclrtLaunchArgsInfo.describe (fun _ _ _ => rfl) hacl
    exact absurd (hdouble.symm.trans hdefault) (by decide)
  · intro hnone
    rw [decodedAt_eq_nil.mpr hnone, decodedAt_eq_nil.mpr hnone]

theorem withPtrs_inj {e : UInt64 × SecondPtrInfo} {ptrs ptrs' : List AddrInfo} :
    withPtrs e ptrs = withPtrs e ptrs' ↔ ptrs = ptrs' := by
  constructor
  · intro h
    exact List.append_cancel_left (congrArg (fun e => e.2.addrInfoVec) h)
  · intro h
    rw [h]

/-- Both interfaces read every block with its address and its size, in order, and the loop over
the blocks ends by itself. The entries are the same only if there are no blocks. -/
theorem secondPtrs_decoded {a : RtArgsEx} {launchArgs : AclrtLaunchArgsInfo}
    (hsame : launchArgs.hostInputs = a.hostInputs)
    (hencodes : ∀ info ∈ atSlot a.hostInputs index, Encodes buff info (blocksOf info))
    (infos : SecondPtrAddrInfos) :
    (∀ info ∈ atSlot a.hostInputs index, ∀ describe dtypeBytes fuel,
      (blocksOf info).length ≤ fuel →
        secondPtrLoop describe dtypeBytes buff (info.dataOffset.toNat / 8)
            ((readWord buff (info.dataOffset.toNat / 8)).toNat / 8) fuel 0 0 =
          decoded describe dtypeBytes 0 (blocksOf info)) ∧
      (a.parseSecondPtrAddrs buff infos index).entries =
        withBlocks RtArgsEx.describe a.hostInputs blocksOf infos index ∧
      (launchArgs.parseSecondPtrAddrs buff infos index).entries =
        withBlocks AclrtLaunchArgsInfo.describe a.hostInputs blocksOf infos index ∧
      ((a.parseSecondPtrAddrs buff infos index).entries =
          (launchArgs.parseSecondPtrAddrs buff infos index).entries ↔
        ∀ e ∈ infos.entries, e.1 = index.toUInt64 →
          ∀ info ∈ atSlot a.hostInputs index, blocksOf info = []) := by
  have hrt : (a.parseSecondPtrAddrs buff infos index).entries =
      withBlocks RtArgsEx.describe a.hostInputs blocksOf infos index :=
    parseSecondPtrAddrsWith_eq hencodes infos
  have hacl : (launchArgs.parseSecondPtrAddrs buff infos index).entries =
      withBlocks AclrtLaunchArgsInfo.describe a.hostInputs blocksOf infos index := by
    rw [← hsame] at hencodes ⊢
    exact parseSecondPtrAddrsWith_eq hencodes infos
  refine ⟨?_, hrt, hacl, ?_⟩
  · intro info hinfo describe dtypeBytes fuel hfuel
    rw [(hencodes info hinfo).offset]
    exact secondPtrLoop_eq hfuel (hencodes info hinfo).cursors
  · rw [hrt, hacl]
    unfold withBlocks
    rw [List.map_inj_left]
    apply forall₂_congr
    intro e _
    by_cases hkey : e.1 = index.toUInt64
    · rw [if_pos hkey, if_pos hkey, imp_iff_right hkey, withPtrs_inj]
      exact decodedAt_eq_iff e.2.dtypeBytes
    · rw [if_neg hkey, if_neg hkey]
      exact iff_of_true rfl fun h => absurd h hkey

end

/-! ## Two blocks behind one pointer -/

/-- A block of two by three elements and one of a single element. -/
def twoBlocks : List Block := [⟨[2, 3], 0, 0x1000, by decide⟩, ⟨[], 1, 0x2000, by decide⟩]

def twoBlocksArgs : List UInt8 := leBytes 8 8 ++ slotBytes (encode twoBlocks)

def twoBlocksRt : RtArgsEx :=
  { args := some twoBlocksArgs, hostInputInfoPtr := some [⟨0, 8⟩], argsSize := 64,
    hostInputInfoNum := 1 }

def twoBlocksAcl : AclrtLaunchArgsInfo :=
  { hostArgs := some twoBlocksArgs, argsSize := 64, placeHolderArray := some [⟨0, 8⟩],
    placeHolderNum := 1 }

def firstIsSecondPtr : SecondPtrAddrInfos := ⟨[(0, { dtypeBytes := 4 })], List.pairwise_singleton _ _⟩

theorem encodes_twoBlocks : Encodes twoBlocksArgs ⟨0, 8⟩ twoBlocks :=
  ⟨by decide, by decide, [], rfl⟩

theorem secondPtrs_decoded_twoBlocks :
    (twoBlocksRt.parseSecondPtrAddrs twoBlocksArgs firstIsSecondPtr 0).entries =
        [(0, ⟨4, [⟨0x1000, 24, .extra, .doublePtr, 1⟩, ⟨0x2000, 4, .extra, .doublePtr, 2⟩]⟩)] ∧
      (twoBlocksAcl.parseSecondPtrAddrs twoBlocksArgs firstIsSecondPtr 0).entries =
        [(0, ⟨4, [⟨0x1000, 24, .extra, .default, 0⟩, ⟨0x2000, 4, .extra, .default, 0⟩]⟩)] := by
  have hencodes : ∀ info ∈ atSlot twoBlocksRt.hostInputs 0, Encodes twoBlocksArgs info twoBlocks := by
    intro info hinfo
    rw [List.mem_singleton.mp (List.mem_of_mem_filter hinfo)]
    exact encodes_twoBlocks
  have hsame : twoBlocksAcl.hostInputs = twoBlocksRt.hostInputs := rfl
  obtain ⟨-, hrt, hacl, -⟩ := @secondPtrs_decoded twoBlocksArgs (fun _ => twoBlocks) 0 _ _ hsame
    hencodes firstIsSecondPtr
  exact ⟨hrt.trans rfl, hacl.trans rfl⟩

/-- The two lists are described in different ways. -/
theorem secondPtrs_differ_twoBlocks :
    twoBlocksAcl.hostInputs = twoBlocksRt.hostInputs ∧ twoBlocksRt.hostInputs = [⟨0, 8⟩] ∧
      Encodes twoBlocksArgs ⟨0, 8⟩ twoBlocks ∧
      (twoBlocksRt.parseSecondPtrAddrs twoBlocksArgs firstIsSecondPtr 0).entries ≠
        (twoBlocksAcl.parseSecondPtrAddrs twoBlocksArgs firstIsSecondPtr 0).entries :=
  ⟨rfl, rfl, encodes_twoBlocks, by decide⟩

end Msopcom.SecondPtrDecoding
