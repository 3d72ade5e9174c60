import Mathlib.Data.List.Basic
import Mathlib.Algebra.Ring.Nat

set_option autoImplicit false

/-!
# Splicing a piece into a buffer

A piece goes in behind the head of a buffer, after some padding. What lies behind
the head moves on by the length of both; a reader that only knows the length of the
piece finds its data again exactly when there is no padding.
-/
namespace Msopcom.Splice

variable {α : Type*}

def splice (head : ℕ) (pad piece buffer : List α) : List α :=
  buffer.take head ++ (pad ++ (piece ++ buffer.drop head))

/-- `std::copy_n`: `n` items of `src` overwrite those of `dst` from `off` on. -/
def copyN (src : List α) (n : ℕ) (dst : List α) (off : ℕ) : List α :=
  dst.take off ++ src.take n ++ dst.drop (off + n)

section
variable {head : ℕ} {pad piece buffer : List α}

theorem length_splice :
    (splice head pad piece buffer).length = buffer.length + pad.length + piece.length := by
  unfold splice
  rw [List.length_append, List.length_append, List.length_append, List.length_take,
    List.length_drop]
  omega

theorem take_splice (h : head ≤ buffer.length) :
    (splice head pad piece buffer).take head = buffer.take head := by
  have hlen : (buffer.take head).length = head := List.length_take_of_le h
  unfold splice
  exact List.take_left' hlen

theorem drop_splice_pad (h : head ≤ buffer.length) :
    (splice head pad piece buffer).drop (head + pad.length) = piece ++ buffer.drop head := by
  have hlen : (buffer.take head).length = head := List.length_take_of_le h
  unfold splice
  rw [← List.drop_drop, List.drop_left' hlen, List.drop_left]

theorem piece_splice (pad piece : List α) (h : head ≤ buffer.length) :
    ((splice head pad piece buffer).drop (head + pad.length)).take piece.length = piece := by
  rw [drop_splice_pad h, List.take_left]

theorem drop_splice (pad piece : List α) {off : ℕ} (h : head ≤ buffer.length) (hoff : head ≤ off) :
    (splice head pad piece buffer).drop (off + pad.length + piece.length) = buffer.drop off := by
  have hsplit : off + pad.length + piece.length =
      (head + pad.length) + (piece.length + (off - head)) := by omega
  rw [hsplit, ← List.drop_drop, drop_splice_pad h, ← List.drop_drop, List.drop_left,
    List.drop_drop, Nat.add_sub_cancel' hoff]

theorem getElem?_splice_of_lt {k : ℕ} (pad piece : List α) (h : head ≤ buffer.length)
    (hk : k < head) : (splice head pad piece buffer)[k]? = buffer[k]? := by
  rw [← List.getElem?_take_of_lt hk, take_splice h, List.getElem?_take_of_lt hk]

theorem getElem?_splice_of_le {k : ℕ} (pad piece : List α) (h : head ≤ buffer.length)
    (hk : head ≤ k) :
    (splice head pad piece buffer)[k + pad.length + piece.length]? = buffer[k]? := by
  have hdrop := congrArg (fun l => l[0]?) (drop_splice pad piece h hk)
  simpa only [List.getElem?_drop, Nat.add_zero] using hdrop

theorem splice_set_head {off : ℕ} (x : α) (h : head ≤ buffer.length) (hoff : off < head) :
    splice head pad piece (buffer.set off x) = (splice head pad piece buffer).set off x := by
  unfold splice
  rw [List.set_append_left _ _ (by rw [List.length_take_of_le h]; exact hoff), List.take_set,
    List.drop_set_of_lt hoff]

theorem splice_set_tail {off : ℕ} (x : α) (h : head ≤ buffer.length) (hoff : head ≤ off) :
    splice head pad piece (buffer.set off x) =
      (splice head pad piece buffer).set (off + pad.length + piece.length) x := by
  have hlen : (buffer.take head).length = head := List.length_take_of_le h
  have hskip : off + pad.length + piece.length - head - pad.length - piece.length = off - head := by
    omega
  unfold splice
  rw [List.set_append_right _ _ (by rw [hlen]; omega),
    List.set_append_right _ _ (by rw [hlen]; omega),
    List.set_append_right _ _ (by rw [hlen]; omega), List.take_set_of_le hoff, List.drop_set, hlen,
    if_neg (by omega), hskip]

end

theorem getElem?_of_drop_prefix {l m : List α} {i j : ℕ} (h : l.drop i <+: m.drop j)
    (hi : i < l.length) : m[j]? = l[i]? := by
  obtain ⟨t, ht⟩ := h
  have hfirst : (l.drop i ++ t)[0]? = (m.drop j)[0]? := congrArg (fun k => k[0]?) ht
  rw [List.getElem?_append_left (by rw [List.length_drop]; omega), List.getElem?_drop,
    List.getElem?_drop, Nat.add_zero, Nat.add_zero] at hfirst
  exact hfirst.symm

/-- A reader that moves its offset on by the length of the piece finds the same data
behind it for every buffer, exactly when nothing was padded and it reads behind the head. -/
theorem shift_iff {head off size : ℕ} {x y : α} (hne : x ≠ y) (pad : List α) {piece : List α}
    (hhead : head ≤ size) (hpiece : piece ≠ []) (hoff : off < size) :
    (∀ buffer : List α, buffer.length = size →
        buffer.drop off <+: (splice head pad piece buffer).drop (off + piece.length)) ↔
      head ≤ off ∧ pad = [] := by
  have hlen : 0 < piece.length := List.length_pos_iff.mpr hpiece
  constructor
  · intro hfront
    -- two buffers that differ at `off` alone
    let buffer := List.replicate size x
    have hsize : buffer.length = size := List.length_replicate
    have hset : (buffer.set off y).length = size := List.length_set.trans hsize
    have hx := getElem?_of_drop_prefix (hfront buffer hsize) (hsize.symm ▸ hoff)
    have hy := getElem?_of_drop_prefix (hfront (buffer.set off y) hset) (hset.symm ▸ hoff)
    rw [List.getElem?_replicate_of_lt hoff] at hx
    rw [List.getElem?_set_self (hsize.symm ▸ hoff)] at hy
    cases Nat.lt_or_ge off head with
    | inl hbefore =>
      rw [splice_set_head y (hsize.symm ▸ hhead) hbefore, List.getElem?_set_ne (by omega), hx] at hy
      exact absurd (Option.some.inj hy) hne
    | inr hbehind =>
      cases pad with
      | nil => exact ⟨hbehind, rfl⟩
      | cons first rest =>
        rw [splice_set_tail y (hsize.symm ▸ hhead) hbehind,
          List.getElem?_set_ne (by rw [List.length_cons]; omega), hx] at hy
        exact absurd (Option.some.inj hy) hne
  · intro hdense buffer hsize
    have hdrop := drop_splice pad piece (hsize.symm ▸ hhead) hdense.1
    rw [hdense.2, List.length_nil, Nat.add_zero] at hdrop
    exact ⟨[], by rw [hdense.2, hdrop, List.append_nil]⟩

/-! ## Filling a fresh buffer -/

theorem copyN_append (src : List α) {before old : List α} (rest : List α) {n off : ℕ}
    (hoff : before.length = off) (hn : old.length = n) :
    copyN src n (before ++ (old ++ rest)) off = before ++ (src.take n ++ rest) := by
  unfold copyN
  rw [List.take_left' hoff, ← List.drop_drop, List.drop_left' hoff, List.drop_left' hn,
    List.append_assoc]

theorem copyN_zero (src dst : List α) (off : ℕ) : copyN src 0 dst off = dst := by
  unfold copyN
  rw [List.take_zero, List.append_nil, Nat.add_zero, List.take_append_drop]

theorem copyN_fill {head align : ℕ} {buffer : List α} (zero : α) (piece : List α)
    (hhead : head ≤ buffer.length) (halign : head ≤ align) :
    copyN (buffer.drop head) (buffer.length - head)
        (copyN piece piece.length
          (copyN buffer head
            (List.replicate (buffer.length + (align - head) + piece.length) zero) 0)
          align)
        (align + piece.length) =
      splice head (List.replicate (align - head) zero) piece buffer := by
  let pad := List.replicate (align - head) zero
  let gap := List.replicate piece.length zero
  let tail := List.replicate (buffer.length - head) zero
  have hlen : (buffer.take head).length = head := List.length_take_of_le hhead
  have hpad : (buffer.take head ++ pad).length = align := by
    rw [List.length_append, hlen, List.length_replicate, Nat.add_sub_cancel' halign]
  have hpiece : (buffer.take head ++ pad ++ piece).length = align + piece.length := by
    rw [List.length_append, hpad]
  have hrest : (buffer.drop head).length = buffer.length - head := List.length_drop
  have hblank : List.replicate (buffer.length + (align - head) + piece.length) zero =
      List.replicate head zero ++ (pad ++ (gap ++ tail)) := by
    rw [← List.replicate_add, ← List.replicate_add, ← List.replicate_add]
    congr 1
    omega
  have hfirst : copyN buffer head (List.replicate head zero ++ (pad ++ (gap ++ tail))) 0 =
      buffer.take head ++ pad ++ (gap ++ tail) := by
    rw [List.append_assoc]
    exact copyN_append buffer (pad ++ (gap ++ tail)) List.length_nil List.length_replicate
  have hsecond : copyN piece piece.length (buffer.take head ++ pad ++ (gap ++ tail)) align =
      buffer.take head ++ pad ++ piece ++ (tail ++ []) := by
    rw [copyN_append piece tail hpad List.length_replicate, List.take_length, List.append_nil,
      List.append_assoc (buffer.take head ++ pad)]
  have hthird : copyN (buffer.drop head) (buffer.length - head)
      (buffer.take head ++ pad ++ piece ++ (tail ++ [])) (align + piece.length) =
      buffer.take head ++ pad ++ piece ++ buffer.drop head := by
    rw [copyN_append _ [] hpiece List.length_replicate, ← hrest, List.take_length,
      List.append_nil]
  rw [hblank, hfirst, hsecond, hthird, List.append_assoc, List.append_assoc]
  rfl

/-! ## Filling a buffer from its start -/

theorem prefix_copyN {front dst : List α} (h : front <+: dst) (src : List α) (n : ℕ) :
    front ++ src.take n <+: copyN src n dst front.length := by
  obtain ⟨rest, rfl⟩ := h
  unfold copyN
  rw [List.take_left]
  exact List.prefix_append _ _

theorem prefix_copyN_of_le {front dst : List α} (h : front <+: dst) (src : List α) (n : ℕ) {off : ℕ}
    (hoff : front.length ≤ off) : front <+: copyN src n dst off := by
  have htake : front <+: dst.take off := List.prefix_take_iff.mpr ⟨h, hoff⟩
  unfold copyN
  rw [List.append_assoc]
  exact htake.trans (List.prefix_append _ _)

/-! ## Overwriting a piece -/

section Overwrite
variable {src dst : List α} {n off : ℕ} (hn : n ≤ src.length) (hoff : off ≤ dst.length)
include hn hoff

theorem getElem?_copyN (k : ℕ) : (copyN src n dst off)[k]? =
    if off ≤ k ∧ k < off + n then src[k - off]? else dst[k]? := by
  have hfront : (dst.take off).length = off := List.length_take_of_le hoff
  have hpiece : (src.take n).length = n := List.length_take_of_le hn
  unfold copyN
  rw [List.append_assoc, List.getElem?_append, hfront]
  by_cases hlt : k < off
  · rw [if_pos hlt, if_neg (by omega), List.getElem?_take_of_lt hlt]
  · rw [if_neg hlt, List.getElem?_append, hpiece]
    by_cases hin : k < off + n
    · have hk : k - off < n := by omega
      rw [if_pos hk, if_pos ⟨Nat.le_of_not_lt hlt, hin⟩, List.getElem?_take_of_lt hk]
    · have hk : off + n + (k - off - n) = k := by omega
      rw [if_neg (by omega), if_neg (by omega), List.getElem?_drop, hk]

theorem length_copyN (h : off + n ≤ dst.length) : (copyN src n dst off).length = dst.length := by
  unfold copyN
  rw [List.length_append, List.length_append, List.length_take_of_le hoff,
    List.length_take_of_le hn, List.length_drop]
  omega

theorem window_copyN_self : ((copyN src n dst off).drop off).take n = src.take n := by
  have hfront : (dst.take off).length = off := List.length_take_of_le hoff
  unfold copyN
  rw [List.append_assoc, List.drop_left' hfront, List.take_left' (List.length_take_of_le hn)]

/-- What is beside the piece is what was there. -/
theorem window_copyN_beside {i m : ℕ} (h : i + m ≤ off ∨ off + n ≤ i) :
    ((copyN src n dst off).drop i).take m = (dst.drop i).take m := by
  apply List.ext_getElem?
  intro k
  rw [List.getElem?_take, List.getElem?_take, List.getElem?_drop, List.getElem?_drop,
    getElem?_copyN hn hoff]
  by_cases hk : k < m
  · rw [if_pos hk, if_pos hk, if_neg (by omega)]
  · rw [if_neg hk, if_neg hk]

end Overwrite

/-- A part of a piece is overwritten, and the piece put back. -/
theorem copyN_window (src dst : List α) {n i m off : ℕ} (hn : n ≤ src.length) (hi : i + n ≤ m)
    (hm : off + m ≤ dst.length) :
    copyN (copyN src n ((dst.drop off).take m) i) m dst off = copyN src n dst (off + i) := by
  have hwindow : ((dst.drop off).take m).length = m := by
    rw [List.length_take, List.length_drop]
    omega
  have hinner : (copyN src n ((dst.drop off).take m) i).length = m := by
    rw [length_copyN hn (by omega) (by omega), hwindow]
  apply List.ext_getElem?
  intro k
  rw [getElem?_copyN (by omega) (by omega), getElem?_copyN hn (by omega),
    getElem?_copyN hn (by omega), List.getElem?_take, List.getElem?_drop]
  by_cases hin : off ≤ k ∧ k < off + m
  · have hk : off + (k - off) = k := by omega
    have hsub : k - off - i = k - (off + i) := by omega
    rw [if_pos hin, if_pos (show k - off < m by omega), hk, hsub]
    by_cases hpiece : off + i ≤ k ∧ k < off + i + n
    · rw [if_pos hpiece, if_pos (by omega)]
    · rw [if_neg hpiece, if_neg (by omega)]
  · rw [if_neg hin, if_neg (by omega)]

end Msopcom.Splice
