import Msopcom.Bytes

set_option autoImplicit false

/-!
# Images of word slots

A byte image begins with 64-bit words in slots of eight bytes; a patch overwrites one of them.
-/
namespace Msopcom.Slots
open Bytes

def slotBytes (words : List UInt64) : List UInt8 := words.flatMap fun w => leBytes 8 w.toNat

/-- A slot that is not wholly in the image has no word. -/
def slot (image : List UInt8) (i : ℕ) : Option UInt64 :=
  if 8 * i + 8 ≤ image.length then some (wordAt image (8 * i)) else none

/-- A word stored at an offset; outside the image nothing of it changes. -/
def patch (image : List UInt8) (off : ℕ) (w : UInt64) : List UInt8 :=
  if off + 8 ≤ image.length then image.take off ++ (leBytes 8 w.toNat ++ image.drop (off + 8))
  else image

theorem length_slotBytes (words : List UInt64) : (slotBytes words).length = 8 * words.length := by
  induction words with
  | nil => rfl
  | cons w words ih =>
    change (leBytes 8 w.toNat ++ slotBytes words).length = 8 * (words.length + 1)
    rw [List.length_append, length_leBytes, ih]
    omega

theorem slotBytes_append (words words' : List UInt64) :
    slotBytes (words ++ words') = slotBytes words ++ slotBytes words' :=
  List.flatMap_append

theorem slot_eq_none {image : List UInt8} {i : ℕ} (h : image.length < 8 * i + 8) :
    slot image i = none :=
  if_neg (by omega)

theorem slot_slotBytes {words : List UInt64} {i : ℕ} {w : UInt64} (h : words[i]? = some w)
    (rest : List UInt8) : slot (slotBytes words ++ rest) i = some w := by
  obtain ⟨hi, rfl⟩ := List.getElem?_eq_some_iff.mp h
  have hsplit : slotBytes words ++ rest = slotBytes (words.take i) ++
      (leBytes 8 words[i].toNat ++ (slotBytes (words.drop (i + 1)) ++ rest)) := by
    have hwords : words = words.take i ++ words[i] :: words.drop (i + 1) := by
      rw [← List.drop_eq_getElem_cons hi, List.take_append_drop]
    have hcons : slotBytes (words[i] :: words.drop (i + 1)) =
        leBytes 8 words[i].toNat ++ slotBytes (words.drop (i + 1)) := rfl
    conv_lhs => rw [hwords, slotBytes_append, hcons, List.append_assoc, List.append_assoc]
  have hfront : (slotBytes (words.take i)).length = 8 * i := by
    rw [length_slotBytes, List.length_take_of_le (Nat.le_of_lt hi)]
  have hlength : 8 * i + 8 ≤ (slotBytes words ++ rest).length := by
    rw [List.length_append, length_slotBytes]
    omega
  rw [slot, if_pos hlength, hsplit, wordAt_append hfront]

section Patch
variable {image : List UInt8} {off : ℕ} {w : UInt64}

theorem length_patch : (patch image off w).length = image.length := by
  unfold patch
  split_ifs with h
  · rw [List.length_append, List.length_append, length_leBytes, List.length_take, List.length_drop]
    omega
  · rfl

theorem drop_patch {start : ℕ} (h : off + 8 ≤ start) :
    (patch image off w).drop start = image.drop start := by
  unfold patch
  split_ifs with hfits
  · have hfront : (image.take off).length = off := List.length_take_of_le (by omega)
    have hword : (leBytes 8 w.toNat).length = 8 := length_leBytes 8 _
    have hstart : start = off + (8 + (start - (off + 8))) := by omega
    rw [hstart, ← List.drop_drop, List.drop_left' hfront, ← List.drop_drop, List.drop_left' hword,
      List.drop_drop]
    congr 1
    omega
  · rfl

theorem take_patch {stop : ℕ} (h : stop ≤ off) :
    (patch image off w).take stop = image.take stop := by
  unfold patch
  split_ifs with hfits
  · have hfront : (image.take off).length = off := List.length_take_of_le (by omega)
    rw [List.take_append_of_le_length (by omega), List.take_take, Nat.min_eq_left h]
  · rfl

theorem slot_patch_self {j : ℕ} (h : 8 * j + 8 ≤ image.length) :
    slot (patch image (8 * j) w) j = some w := by
  have hfront : (image.take (8 * j)).length = 8 * j := List.length_take_of_le (by omega)
  rw [slot, length_patch, if_pos h, patch, if_pos h, wordAt_append hfront]

/-- The other slots keep their words. -/
theorem slot_patch_of_ne {i j : ℕ} (h : i ≠ j) :
    slot (patch image (8 * j) w) i = slot image i := by
  unfold slot
  rw [length_patch]
  split_ifs
  · refine congrArg some ?_
    unfold wordAt
    rcases Nat.lt_or_gt_of_ne h with hlt | hgt
    · rw [List.take_drop, List.take_drop, take_patch (by omega)]
    · rw [drop_patch (by omega)]
  · rfl

end Patch

end Msopcom.Slots
