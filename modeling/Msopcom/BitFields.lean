import Mathlib.Algebra.BigOperators.Group.List.Basic
import Mathlib.Algebra.Ring.Nat
import Mathlib.Data.Nat.Bits

set_option autoImplicit false

/-!
# Bit fields of a word

Fields of given widths, from the lowest bits upwards, and the reading of one of them by a
shift and a mask.
-/
namespace Msopcom.BitFields

/-- A width and a value for each field. -/
abbrev Fields := List (ℕ × ℕ)

def pack : Fields → ℕ
  | [] => 0
  | (width, value) :: fields => value + 2 ^ width * pack fields

def width (fields : Fields) : ℕ := (fields.map Prod.fst).sum

def extract (word start width : ℕ) : ℕ := word / 2 ^ start % 2 ^ width

/-- Every value fits into its field. -/
def Fit (fields : Fields) : Prop := ∀ field ∈ fields, field.2 < 2 ^ field.1

theorem fit_cons {field : ℕ × ℕ} {fields : Fields} :
    Fit (field :: fields) ↔ field.2 < 2 ^ field.1 ∧ Fit fields := List.forall_mem_cons

@[simp] theorem width_nil : width [] = 0 := rfl

@[simp] theorem width_cons (field : ℕ × ℕ) (fields : Fields) :
    width (field :: fields) = field.1 + width fields := by
  simp [width]

theorem pack_lt {fields : Fields} (h : Fit fields) : pack fields < 2 ^ width fields := by
  induction fields with
  | nil => exact Nat.one_pos
  | cons field fields ih =>
    obtain ⟨hfield, hfields⟩ := fit_cons.mp h
    have hrest : pack fields + 1 ≤ 2 ^ width fields := ih hfields
    calc
      pack (field :: fields) < 2 ^ field.1 * (pack fields + 1) := by
        change field.2 + 2 ^ field.1 * pack fields < _
        rw [Nat.mul_succ]
        omega
      _ ≤ 2 ^ width (field :: fields) := by
        rw [width_cons, Nat.pow_add]
        exact Nat.mul_le_mul_left _ hrest

theorem pack_div {field : ℕ × ℕ} (h : field.2 < 2 ^ field.1) (fields : Fields) :
    pack (field :: fields) / 2 ^ field.1 = pack fields := by
  change (field.2 + 2 ^ field.1 * pack fields) / 2 ^ field.1 = _
  rw [Nat.add_mul_div_left _ _ (Nat.two_pow_pos _), Nat.div_eq_of_lt h, Nat.zero_add]

/-- A field is read behind those below it. -/
theorem extract_pack (before : Fields) {field : ℕ × ℕ} (behind : Fields)
    (h : Fit (before ++ field :: behind)) :
    extract (pack (before ++ field :: behind)) (width before) field.1 = field.2 := by
  induction before with
  | nil =>
    obtain ⟨hfield, -⟩ := fit_cons.mp h
    rw [List.nil_append, width_nil, extract, Nat.pow_zero, Nat.div_one]
    change (field.2 + 2 ^ field.1 * pack behind) % 2 ^ field.1 = _
    rw [Nat.add_mul_mod_self_left, Nat.mod_eq_of_lt hfield]
  | cons lowest before ih =>
    obtain ⟨hlowest, hrest⟩ := fit_cons.mp h
    have hbefore := ih hrest
    rw [extract] at hbefore ⊢
    rw [List.cons_append, width_cons, Nat.pow_add, ← Nat.div_div_eq_div_mul, pack_div hlowest,
      hbefore]

/-- A mask that is too narrow cuts the high bits of a field off. -/
theorem extract_of_le {word start width width' : ℕ} (h : width' ≤ width) :
    extract word start width' = extract word start width % 2 ^ width' :=
  (Nat.mod_mod_of_dvd _ (Nat.pow_dvd_pow 2 h)).symm

theorem toNat_and_mask (word : UInt64) {mask : UInt64} {width : ℕ}
    (hmask : mask.toNat = 2 ^ width - 1) : (word &&& mask).toNat = extract word.toNat 0 width := by
  rw [UInt64.toNat_and, hmask, Nat.and_two_pow_sub_one_eq_mod, extract, Nat.pow_zero, Nat.div_one]

theorem toNat_shiftRight_and_mask (word : UInt64) {start mask : UInt64} {width : ℕ}
    (hstart : start.toNat < 64) (hmask : mask.toNat = 2 ^ width - 1) :
    ((word >>> start) &&& mask).toNat = extract word.toNat start.toNat width := by
  rw [UInt64.toNat_and, hmask, Nat.and_two_pow_sub_one_eq_mod, UInt64.toNat_shiftRight,
    Nat.mod_eq_of_lt hstart, Nat.shiftRight_eq_div_pow, extract]

end Msopcom.BitFields
