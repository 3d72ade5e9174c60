import Mathlib.Data.List.Basic
import Mathlib.Algebra.Ring.Nat

set_option autoImplicit false

/-!
# Little-endian bytes

Numbers written to and read from byte buffers.
-/
namespace Msopcom.Bytes

def leBytes : ℕ → ℕ → List UInt8
  | 0, _ => []
  | n + 1, x => UInt8.ofNat x :: leBytes n (x / 256)

def leNat : List UInt8 → ℕ
  | [] => 0
  | b :: bytes => b.toNat + 256 * leNat bytes

@[simp] theorem length_leBytes (n x : ℕ) : (leBytes n x).length = n := by
  induction n generalizing x with
  | zero => rfl
  | succ n ih =>
    change (leBytes n (x / 256)).length + 1 = n + 1
    rw [ih]

theorem leNat_leBytes {n x : ℕ} (h : x < 256 ^ n) : leNat (leBytes n x) = x := by
  induction n generalizing x with
  | zero =>
    rw [Nat.pow_zero, Nat.lt_one_iff] at h
    rw [h]
    rfl
  | succ n ih =>
    rw [Nat.pow_succ] at h
    have hrest : leNat (leBytes n (x / 256)) = x / 256 := ih (Nat.div_lt_of_lt_mul (by omega))
    have hbyte : (UInt8.ofNat x).toNat = x % 256 := UInt8.toNat_ofNat'
    change (UInt8.ofNat x).toNat + 256 * leNat (leBytes n (x / 256)) = x
    rw [hrest, hbyte]
    omega

/-- The 64-bit word that starts at a byte. -/
def wordAt (bytes : List UInt8) (off : ℕ) : UInt64 :=
  UInt64.ofNat (leNat ((bytes.drop off).take 8))

theorem wordAt_append {front : List UInt8} {off : ℕ} (hoff : front.length = off) (w : UInt64)
    (rest : List UInt8) : wordAt (front ++ (leBytes 8 w.toNat ++ rest)) off = w := by
  have hlt : w.toNat < 256 ^ 8 := w.toNat_lt
  unfold wordAt
  rw [List.drop_left' hoff, List.take_left' (length_leBytes 8 _), leNat_leBytes hlt,
    UInt64.ofNat_toNat]

theorem wordAt_append_left {front : List UInt8} {off : ℕ} (h : off + 8 ≤ front.length)
    (rest : List UInt8) : wordAt (front ++ rest) off = wordAt front off := by
  unfold wordAt
  rw [List.drop_append_of_le_length (by omega),
    List.take_append_of_le_length (by rw [List.length_drop]; omega)]

theorem wordAt_append_right (front rest : List UInt8) (off : ℕ) :
    wordAt (front ++ rest) (front.length + off) = wordAt rest off := by
  unfold wordAt
  rw [← List.drop_drop, List.drop_left]

end Msopcom.Bytes
