import Msopcom.BlockReportFraming

set_option autoImplicit false

/-!
# What a block without records sends

Its records are not copied, but their length is counted. In their place lies what an earlier block
has left there.
-/
namespace Msopcom.BlockReport
open Bytes Splice Words

section
variable {l : Launch} {memInfo : UInt64} {i : ℕ} {s s' : LaunchFinalize} {outcomes : BlockOutcomes}

/-- The copy of a head leaves what lies behind it in the buffer. -/
theorem Ready.head_before (h : Ready l memInfo i s) {old left : List UInt8}
    (hold : old.length = 128) (hbuffer : globalBytes l memInfo ++ (old ++ left) <+: s.buffer)
    (hcopy : blockHeadD2H l outcomes s = some s') : Gathered l memInfo i left s' := by
  obtain ⟨hgathered, -, -⟩ := h.head hcopy
  unfold blockHeadD2H at hcopy
  obtain ⟨t, ht, rfl⟩ := Option.map_eq_some_iff.mp hcopy
  obtain ⟨-, hwrite⟩ := memcpyD2H_some ht
  obtain ⟨rest, hrest⟩ := hbuffer
  have hown : (ownHead l memInfo i).length = old.length := by rw [length_ownHead, hold]
  have hwritten : t.buffer =
      globalBytes l memInfo ++ (ownHead l memInfo i ++ (left ++ rest)) := by
    have hcursor : (globalBytes l memInfo).length = s.memInfoHost :=
      (length_globalBytes l memInfo).trans h.cursor.symm
    have hbytes : l.deviceBytes s.memInfo sizeofRecordBlockHead.toNat = ownHead l memInfo i := by
      rw [h.device, ownHead]
    rw [hwrite, hbytes, LaunchFinalize.write, ← hrest, List.append_assoc, List.append_assoc,
      copyN_append _ _ hcursor hown.symm, List.take_length]
  refine ⟨?_, hgathered.headAt, hgathered.backUp⟩
  change _ <+: t.buffer
  rw [hwritten, List.append_assoc]
  exact (List.prefix_append_right_inj _).mpr
    ((List.prefix_append_right_inj _).mpr (List.prefix_append _ _))

/-- On a chip without threads a block whose records are skipped sends, for as many bytes as its
head counts, what the buffer held in their place before. -/
theorem Ready.skipped (h : Ready l memInfo i s) (hsimt : (globalHead l memInfo).supportSimt = false)
    (hskip : (blockHead l memInfo i).hasRecords = false) {old left : List UInt8}
    (hold : old.length = 128) (hbuffer : globalBytes l memInfo ++ (old ++ left) <+: s.buffer)
    (hleft : left.length = (blockHead l memInfo i).writeOffset.toNat)
    (hroom : 38656 + left.length ≤ l.blockSize.toNat) {r : Report}
    (hround : reportBlock l (globalHead l memInfo) outcomes i s = some (r, s')) :
    r.content = globalBytes l memInfo ++ ownHead l memInfo i ++ left := by
  unfold reportBlock at hround
  dsimp only at hround
  rw [globalHead_of_front h.buffer, hsimt, Bool.false_and, if_neg Bool.false_ne_true] at hround
  obtain ⟨t, hhead, hround⟩ := Option.bind_eq_some_iff.mp hround
  have hgathered := h.head_before hold hbuffer hhead
  have hsize : (blockHead l memInfo i).writeOffset.toNat + (0 : UInt64).toNat = left.length := by
    rw [hleft, UInt64.toNat_zero, Nat.add_zero]
  rw [hgathered.blockHead_eq, hskip, if_neg Bool.false_ne_true, Option.bind_some,
    hgathered.globalHead_eq, hsimt, Bool.false_and, if_neg Bool.false_ne_true] at hround
  obtain rfl : (sendBlock l i 0 t).1 = r := congrArg Prod.fst (Option.some.inj hround)
  exact (hgathered.content hsize hroom).2

/-- A buffer that holds other bytes in the place of the block's records. -/
def soiled (l : Launch) (memInfo : UInt64) (i : ℕ) : LaunchFinalize where
  memInfo := blockAddr l memInfo i
  memInfoBackUp := blockAddr l memInfo i
  memInfoHost := 38528
  blockHeadAt := 38528
  buffer := globalBytes l memInfo ++
    (List.replicate 128 0 ++ (ownRecords l memInfo i).map (· + 1))

theorem ready_soiled (l : Launch) (memInfo : UInt64) (i : ℕ) :
    Ready l memInfo i (soiled l memInfo i) where
  buffer := List.prefix_append _ _
  cursor := rfl
  device := rfl
  backUp := rfl

theorem map_succ_ne {bytes : List UInt8} (h : bytes ≠ []) : bytes.map (· + 1) ≠ bytes := by
  cases bytes with
  | nil => exact absurd rfl h
  | cons b bytes =>
    intro hmap
    have hbyte : b + 1 = b := (List.cons.inj hmap).1
    simp at hbyte

/-- On a chip without threads the condition is exact: when it fails, what is sent depends on what
the buffer held before. -/
theorem framed_always_iff (hsimt : (globalHead l memInfo).supportSimt = false)
    (hhead : outcomes.blockHead = true) (hsimd : outcomes.simdRecords = true)
    (hroom : 38656 + (blockHead l memInfo i).writeOffset.toNat ≤ l.blockSize.toNat) :
    (∀ s t r, Ready l memInfo i s →
        reportBlock l (globalHead l memInfo) outcomes i s = some (r, t) →
          Framed l memInfo outcomes r) ↔
      (blockHead l memInfo i).writeOffset = 0 ∨ (blockHead l memInfo i).hasRecords = true := by
  have hthreads : ¬ isSimtBlock l memInfo i = true := by
    rw [isSimtBlock, hsimt, Bool.false_and]
    exact Bool.false_ne_true
  have hcount := length_ownRecords l memInfo i
  constructor
  · intro hframed
    by_contra hunsound
    obtain ⟨hzero, hskip⟩ := not_or.mp hunsound
    have hready := ready_soiled l memInfo i
    obtain ⟨r, t, hround⟩ := hready.exists_round hsimt hhead hsimd hroom
    have hown := (hframed _ _ _ hready hround).content
    have hsent := hready.skipped hsimt (Bool.eq_false_of_not_eq_true hskip) List.length_replicate
      (List.prefix_refl _) (by rw [List.length_map, hcount])
      (by rw [List.length_map, hcount]; exact hroom) hround
    obtain ⟨-, hblock, -⟩ := hready.round hround
    rw [hblock, ownBody, if_neg hthreads, List.append_nil, hsent, List.append_cancel_left_eq]
      at hown
    refine map_succ_ne (fun hnil => hzero ?_) hown
    rw [hnil] at hcount
    exact UInt64.toNat_inj.mp hcount.symm
  · intro hrecords s t r hready hround
    obtain ⟨-, -, hframed⟩ := hready.round hround
    exact hframed ⟨hrecords, fun hsimt => absurd hsimt hthreads⟩

/-- What was sent stays in the buffer. -/
theorem content_kept {start : RecordGlobalHead} {r : Report}
    (hround : reportBlock l start outcomes i s = some (r, s')) : r.content <+: s'.buffer := by
  unfold reportBlock at hround
  dsimp only at hround
  obtain ⟨t, -, hround⟩ := Option.bind_eq_some_iff.mp hround
  obtain ⟨u, -, hround⟩ := Option.bind_eq_some_iff.mp hround
  obtain ⟨⟨size, v⟩, -, hsend⟩ := Option.map_eq_some_iff.mp hround
  obtain rfl : (sendBlock l i size v).1 = r := congrArg Prod.fst hsend
  obtain rfl : (sendBlock l i size v).2 = s' := congrArg Prod.snd hsend
  exact List.take_prefix _ _

end

theorem ownRecords_firstBlock :
    ownRecords twoBlocks 0x10000 0 = [7, 0, 0, 0, 0, 0, 0, 0] := by
  rw [ownRecords, blockHead_firstBlock, blockAddr, globalHead_twoBlocks]
  decide +kernel

theorem ownRecords_secondBlock :
    ownRecords twoBlocks 0x10000 1 = [0, 0, 0, 0, 0, 0, 0, 0] := by
  rw [ownRecords, blockHead_secondBlock, blockAddr, globalHead_twoBlocks]
  decide +kernel

theorem ownBody_twoBlocks (i : ℕ) : ownBody twoBlocks 0x10000 (allCopied.block i) i =
    globalBytes twoBlocks 0x10000 ++ ownHead twoBlocks 0x10000 i ++
      ownRecords twoBlocks 0x10000 i := by
  have hsimt : ¬ isSimtBlock twoBlocks 0x10000 i = true := by
    rw [isSimtBlock, globalHead_twoBlocks]
    exact Bool.false_ne_true
  rw [ownBody, if_neg hsimt, List.append_nil]

/-- The second block sends the record of the first one. -/
theorem process_not_framed :
    (∀ i < 2, (blockHead twoBlocks 0x10000 i).writeOffset.toNat ≤ 2 ^ 20) ∧
      ∃ r ∈ process twoBlocks allCopied 0x10000 (List.replicate 1087232 0),
        ¬ Framed twoBlocks 0x10000 (allCopied.block r.blockIdx) r := by
  constructor
  · intro i hi
    cases i with
    | zero =>
      rw [blockHead_firstBlock]
      decide
    | succ i =>
      obtain rfl : i = 0 := by omega
      rw [blockHead_secondBlock]
      decide
  obtain ⟨s, t, u, first, second, hready, hfirst, hsecond, hprocess⟩ :=
    process_twoBlocks (List.replicate 1087232 0)
  obtain ⟨hnext, hblock, hframed⟩ := hready.round hfirst
  obtain ⟨-, hblock', -⟩ := hnext.round hsecond
  refine ⟨second, by rw [hprocess]; exact List.mem_cons_of_mem _ List.mem_cons_self, ?_⟩
  have hleft : globalBytes twoBlocks 0x10000 ++
      (ownHead twoBlocks 0x10000 0 ++ ownRecords twoBlocks 0x10000 0) <+: t.buffer := by
    have hcontent := (hframed soundBlock_firstBlock).content
    rw [hblock, ownBody_twoBlocks, List.append_assoc] at hcontent
    rw [← hcontent]
    exact content_kept hfirst
  have hsimt : (globalHead twoBlocks 0x10000).supportSimt = false := by rw [globalHead_twoBlocks]
  have hsize := toNat_blockSize twoBlocks
  have hcache : twoBlocks.cacheSize.toNat = 1 := rfl
  have hsent := hnext.skipped hsimt (by rw [blockHead_secondBlock]; decide)
    (length_ownHead twoBlocks 0x10000 0) hleft
    (by rw [ownRecords_firstBlock, blockHead_secondBlock]; rfl)
    (by rw [ownRecords_firstBlock]; change 38656 + 8 ≤ _; omega) hsecond
  intro hown
  have hcontent := hown.content
  rw [hblock', ownBody_twoBlocks, hsent, List.append_cancel_left_eq, ownRecords_firstBlock,
    ownRecords_secondBlock] at hcontent
  exact absurd hcontent (by decide)

end Msopcom.BlockReport
