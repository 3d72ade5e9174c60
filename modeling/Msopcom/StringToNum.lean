import Msopcom.KernelNameLookup
import Msopcom.Ustring

set_option autoImplicit false

/-!
# Reading an integer from a string

The string is checked to be a sign and digits, and then read from a stream. For the stream the
classic locale and the default flags are in force, so that a field is a sign and decimal digits.
-/
namespace Msopcom.StringToNum
open ProgramStart (isSpace readNat)

/-! ## Integer types -/

inductive IntegerType
  | int32
  | uint32
  | int64
  | uint64
  deriving DecidableEq, Repr

namespace IntegerType

def isSigned : IntegerType → Bool
  | int32 | int64 => true
  | uint32 | uint64 => false

def bits : IntegerType → ℕ
  | int32 | uint32 => 32
  | int64 | uint64 => 64

def min (T : IntegerType) : ℤ := if T.isSigned then -2 ^ (T.bits - 1) else 0
def max (T : IntegerType) : ℤ := if T.isSigned then 2 ^ (T.bits - 1) - 1 else 2 ^ T.bits - 1

def Representable (T : IntegerType) (z : ℤ) : Prop := T.min ≤ z ∧ z ≤ T.max

instance (T : IntegerType) (z : ℤ) : Decidable (T.Representable z) :=
  inferInstanceAs (Decidable (_ ∧ _))

abbrev Value (T : IntegerType) := { z : ℤ // T.Representable z }

def ofInt (T : IntegerType) (z : ℤ) : Option T.Value :=
  if h : T.Representable z then some ⟨z, h⟩ else none

end IntegerType

/-! ## The stream -/

/-- The sign of a field, and what is behind it. -/
def splitSign : List UInt8 → Bool × List UInt8
  | [] => (false, [])
  | c :: rest =>
    if c = 45 then (true, rest) else if c = 43 then (false, rest) else (false, c :: rest)

def withSign (negative : Bool) (magnitude : ℕ) : ℤ := if negative then -magnitude else magnitude

/-- What `strtoll` and `strtoull` make of a field, as far as the type has it. The value of an
unsigned type is negated in the type, and no failure. -/
def convert (T : IntegerType) (negative : Bool) (magnitude : ℕ) : Option T.Value :=
  if T.isSigned then T.ofInt (withSign negative magnitude)
  else if magnitude ≤ T.max then T.ofInt (withSign negative magnitude % 2 ^ T.bits)
  else none

/-- `iss >> num` on a stream of the whole string; `none` when it sets the failbit. -/
def extract (T : IntegerType) (str : List UInt8) : Option T.Value :=
  let (negative, field) := splitSign (str.dropWhile isSpace)
  let digits := field.takeWhile ProgramStart.isDigit
  if digits = [] then none else convert T negative (readNat digits)

/-! ## The function -/

def uint32Max : ℕ := 0xFFFFFFFF

def isDigit (digit : List UInt8) : Bool :=
  let index :=
    match digit with
    | [] => 0
    | c :: _ => if c = 45 ∨ c = 43 then 1 else 0
  if digit.length = index ∨ uint32Max < digit.length then false
  else (digit.drop index).all ProgramStart.isDigit

/-- Whether it succeeds, and the number afterwards. -/
def stringToNum (T : IntegerType) (str : List UInt8) (number : T.Value) : Bool × T.Value :=
  if !isDigit str then (false, number)
  else
    match extract T str with
    | none => (false, number)
    | some num => (true, num)

/-! ## Literals -/

/-- The value of a decimal literal, an optional sign and one or more digits. -/
def literalValue (str : List UInt8) : Option ℤ :=
  let (negative, digits) := splitSign str
  if digits ≠ [] ∧ digits.all ProgramStart.isDigit then
    some (withSign negative (Nat.ofDigits 10 (digits.reverse.map fun c => c.toNat - 48)))
  else none

/-- The literals of the type are read as their values, and all else leaves the number alone. -/
structure Exact (T : IntegerType) (str : List UInt8) (number : T.Value) : Prop where
  succeeds : (stringToNum T str number).1 = true ↔
    ∃ z, literalValue str = some z ∧ T.Representable z
  value : (stringToNum T str number).1 = true →
    literalValue str = some (stringToNum T str number).2.val
  unchanged : (stringToNum T str number).1 = false → (stringToNum T str number).2 = number

/-- A literal of an unsigned type is not negative, unless its magnitude is too large; a literal of
the type is not longer than the check allows. -/
structure Met (T : IntegerType) (str : List UInt8) : Prop where
  sign : str.length ≤ uint32Max → T.isSigned = false →
    ∀ z, literalValue str = some z → 0 ≤ z ∨ z < -T.max
  length : uint32Max < str.length → ∀ z, literalValue str = some z → ¬ T.Representable z

/-! ## The check and the stream on literals -/

@[simp] theorem withSign_true (magnitude : ℕ) : withSign true magnitude = -magnitude := rfl
@[simp] theorem withSign_false (magnitude : ℕ) : withSign false magnitude = magnitude := rfl

theorem readNat_eq_ofDigits (digits : List UInt8) :
    readNat digits = Nat.ofDigits 10 (digits.reverse.map fun c => c.toNat - 48) := by
  induction digits using List.reverseRecOn with
  | nil => rfl
  | append_singleton digits c ih =>
    rw [ProgramStart.readNat_append_singleton, ih, List.reverse_append, List.reverse_singleton,
      List.singleton_append, List.map_cons, Nat.ofDigits_cons]
    exact Nat.add_comm _ _

theorem literalValue_eq_some_iff {str : List UInt8} {z : ℤ} : literalValue str = some z ↔
    (splitSign str).2 ≠ [] ∧ (splitSign str).2.all ProgramStart.isDigit = true ∧
      withSign (splitSign str).1 (readNat (splitSign str).2) = z := by
  rw [readNat_eq_ofDigits]
  simp only [literalValue, Option.ite_none_right_eq_some, Option.some.injEq, and_assoc]

theorem isDigit_iff {str : List UInt8} : isDigit str = true ↔
    str.length ≤ uint32Max ∧ (splitSign str).2 ≠ [] ∧
      (splitSign str).2.all ProgramStart.isDigit = true := by
  cases str with
  | nil => simp [isDigit, splitSign]
  | cons c rest =>
    by_cases hminus : c = 45
    · cases rest <;> simp [isDigit, splitSign, hminus]
    · by_cases hplus : c = 43
      · cases rest <;> simp [isDigit, splitSign, hplus]
      · simp [isDigit, splitSign, hminus, hplus]

/-- The stream reads the whole of a literal. -/
theorem extract_literal {str : List UInt8} (hne : (splitSign str).2 ≠ [])
    (hall : (splitSign str).2.all ProgramStart.isDigit = true) (T : IntegerType) :
    extract T str = convert T (splitSign str).1 (readNat (splitSign str).2) := by
  have hspace : str.dropWhile isSpace = str := by
    cases str with
    | nil => rfl
    | cons c rest =>
      have hc : isSpace c = false := by
        by_cases hminus : c = 45
        · subst hminus
          rfl
        · by_cases hplus : c = 43
          · subst hplus
            rfl
          · simp only [splitSign, hminus, hplus, if_false, List.all_cons, Bool.and_eq_true] at hall
            exact ProgramStart.isSpace_of_isDigit hall.1
      simp [List.dropWhile, hc]
  have hdigits : (splitSign str).2.takeWhile ProgramStart.isDigit = (splitSign str).2 :=
    List.takeWhile_eq_self_iff.mpr (List.all_eq_true.mp hall)
  simp only [extract, hspace, hdigits, if_neg hne]

theorem min_of_unsigned {T : IntegerType} (h : T.isSigned = false) : T.min = 0 := by
  simp [IntegerType.min, h]

theorem max_of_unsigned {T : IntegerType} (h : T.isSigned = false) : T.max = 2 ^ T.bits - 1 := by
  simp [IntegerType.max, h]

theorem ofInt_eq_none {T : IntegerType} {z : ℤ} (h : ¬ T.Representable z) : T.ofInt z = none :=
  dif_neg h

/-- Where nothing is negated in the type, a literal that it can represent is read, and no other. -/
theorem convert_eq_ofInt {T : IntegerType} {negative : Bool} {magnitude : ℕ}
    (h : T.isSigned = false →
      0 ≤ withSign negative magnitude ∨ withSign negative magnitude < -T.max) :
    convert T negative magnitude = T.ofInt (withSign negative magnitude) := by
  cases hsigned : T.isSigned with
  | true => simp [convert, hsigned]
  | false =>
    have hmin := min_of_unsigned hsigned
    have hmax := max_of_unsigned hsigned
    have hpos : (0 : ℤ) < 2 ^ T.bits := by positivity
    have hsplit := h hsigned
    simp only [convert, hsigned, Bool.false_eq_true, if_false]
    by_cases hle : (magnitude : ℤ) ≤ T.max
    · have hvalue : withSign negative magnitude = magnitude := by
        cases negative with
        | false => exact withSign_false magnitude
        | true =>
          rw [withSign_true] at hsplit ⊢
          omega
      rw [if_pos hle, hvalue, Int.emod_eq_of_lt (by omega) (by omega)]
    · rw [if_neg hle, ofInt_eq_none]
      rintro ⟨hlow, hhigh⟩
      cases negative with
      | false => exact hle hhigh
      | true =>
        rw [withSign_true] at hlow
        omega

/-- A negative number of an unsigned type is read, as another one. -/
theorem convert_unsigned {T : IntegerType} {negative : Bool} {magnitude : ℕ}
    (hunsigned : T.isSigned = false) (h : magnitude ≤ T.max) : ∃ num : T.Value,
      convert T negative magnitude = some num ∧
        num.val = withSign negative magnitude % 2 ^ T.bits := by
  have hpos : (0 : ℤ) < 2 ^ T.bits := by positivity
  have hrepresentable : T.Representable (withSign negative magnitude % 2 ^ T.bits) := by
    have hmin := min_of_unsigned hunsigned
    have hmax := max_of_unsigned hunsigned
    have hlow := Int.emod_nonneg (withSign negative magnitude) hpos.ne'
    have hhigh := Int.emod_lt_of_pos (withSign negative magnitude) hpos
    constructor <;> omega
  exact ⟨⟨_, hrepresentable⟩, by simp [convert, hunsigned, h, IntegerType.ofInt, hrepresentable],
    rfl⟩

/-! ## The function on literals -/

section
variable {T : IntegerType} {str : List UInt8} {number : T.Value}

theorem stringToNum_refused (h : isDigit str = false) :
    stringToNum T str number = (false, number) := by
  simp [stringToNum, h]

/-- What is refused is exact when it is no literal of the type. -/
theorem exact_refused_iff (h : isDigit str = false) :
    Exact T str number ↔ ∀ z, literalValue str = some z → ¬ T.Representable z := by
  have hrefused : stringToNum T str number = (false, number) := stringToNum_refused h
  constructor
  · intro hexact z hvalue hz
    have hsucceeds := hexact.succeeds.mpr ⟨z, hvalue, hz⟩
    rw [hrefused] at hsucceeds
    cases hsucceeds
  · intro hnone
    refine ⟨?_, ?_, ?_⟩ <;> rw [hrefused]
    · exact ⟨nofun, fun ⟨z, hvalue, hz⟩ => absurd hz (hnone z hvalue)⟩
    · exact nofun
    · exact fun _ => rfl

variable {negative : Bool} {digits : List UInt8}

/-- What passes the check is converted. -/
theorem stringToNum_checked (h : isDigit str = true) (hsplit : splitSign str = (negative, digits)) :
    stringToNum T str number = match convert T negative (readNat digits) with
      | none => (false, number)
      | some num => (true, num) := by
  obtain ⟨-, hne, hall⟩ := isDigit_iff.mp h
  have hextract := extract_literal hne hall T
  rw [hsplit] at hextract
  simp only [stringToNum, h, hextract, Bool.not_true, Bool.false_eq_true, if_false]

/-- What is converted is exact when nothing is negated in the type. -/
theorem exact_checked (h : isDigit str = true) (hsplit : splitSign str = (negative, digits))
    (hvalue : literalValue str = some (withSign negative (readNat digits)))
    (hsign : T.isSigned = false → 0 ≤ withSign negative (readNat digits) ∨
      withSign negative (readNat digits) < -T.max) :
    Exact T str number := by
  have hconvert := @stringToNum_checked T str number _ _ h hsplit
  rw [convert_eq_ofInt hsign] at hconvert
  by_cases hz : T.Representable (withSign negative (readNat digits))
  · rw [IntegerType.ofInt, dif_pos hz] at hconvert
    refine ⟨?_, ?_, ?_⟩ <;> rw [hconvert]
    · exact ⟨fun _ => ⟨_, hvalue, hz⟩, fun _ => rfl⟩
    · exact fun _ => hvalue
    · exact nofun
  · rw [ofInt_eq_none hz] at hconvert
    refine ⟨?_, ?_, ?_⟩ <;> rw [hconvert]
    · refine ⟨nofun, fun ⟨z, hz', hrepresentable⟩ => ?_⟩
      rw [hvalue] at hz'
      cases hz'
      exact absurd hrepresentable hz
    · exact nofun
    · exact fun _ => rfl

/-- What is negated in the type is no literal of it. -/
theorem not_exact_negated (h : isDigit str = true) (hsplit : splitSign str = (negative, digits))
    (hvalue : literalValue str = some (withSign negative (readNat digits)))
    (hunsigned : T.isSigned = false) (hneg : withSign negative (readNat digits) < 0)
    (hlow : -T.max ≤ withSign negative (readNat digits)) : ¬ Exact T str number := by
  intro hexact
  have hle : (readNat digits : ℤ) ≤ T.max := by
    cases negative with
    | false => exact absurd hneg (not_lt.mpr (Int.natCast_nonneg _))
    | true => exact Int.neg_le_neg_iff.mp hlow
  obtain ⟨num, hnum, -⟩ := @convert_unsigned T negative _ hunsigned hle
  have hconvert := @stringToNum_checked T str number _ _ h hsplit
  rw [hnum] at hconvert
  obtain ⟨z, hz, hrepresentable⟩ := hexact.succeeds.mp (by rw [hconvert])
  rw [hvalue] at hz
  cases hz
  have hmin := hrepresentable.1
  rw [min_of_unsigned hunsigned] at hmin
  omega

end

/-- Literals are read exactly, but for the negative ones of an unsigned type, of which only those
are refused whose magnitude is too large, and those that are too long for the check. -/
theorem stringToNum_exact_iff (T : IntegerType) (str : List UInt8) (number : T.Value) :
    Exact T str number ↔ Met T str := by
  cases hdigit : isDigit str with
  | false =>
    rw [exact_refused_iff hdigit]
    refine ⟨fun hnone => ⟨fun hlength => ?_, fun _ => hnone⟩, fun hmet z hvalue => ?_⟩
    · intro _ z hvalue
      obtain ⟨hne, hall, -⟩ := literalValue_eq_some_iff.mp hvalue
      exact absurd (isDigit_iff.mpr ⟨hlength, hne, hall⟩) (by simp [hdigit])
    · by_cases hlength : str.length ≤ uint32Max
      · obtain ⟨hne, hall, -⟩ := literalValue_eq_some_iff.mp hvalue
        exact absurd (isDigit_iff.mpr ⟨hlength, hne, hall⟩) (by simp [hdigit])
      · exact hmet.length (Nat.lt_of_not_le hlength) z hvalue
  | true =>
    obtain ⟨hlength, hne, hall⟩ := isDigit_iff.mp hdigit
    have hvalue := literalValue_eq_some_iff.mpr ⟨hne, hall, rfl⟩
    constructor
    · intro hexact
      refine ⟨fun _ hunsigned z hz => ?_, fun hlong => absurd hlength (Nat.not_le_of_lt hlong)⟩
      rw [hvalue] at hz
      cases hz
      by_contra hneg
      rw [not_or, not_le, not_lt] at hneg
      exact not_exact_negated hdigit rfl hvalue hunsigned hneg.1 hneg.2 hexact
    · intro hmet
      exact exact_checked hdigit rfl hvalue fun hunsigned => hmet.sign hlength hunsigned _ hvalue

/-- `-1` is read as a number of 64 bits, the largest one. -/
theorem not_exact_minusOne : ¬ Exact .uint64 [45, 49] ⟨7, by decide⟩ := by
  intro h
  have hvalue := h.value (by decide +kernel)
  exact absurd hvalue (by decide +kernel)

/-! ## Strings of characters -/

/-- The byte of a character of the ASCII range. -/
def byte (c : Char) : UInt8 := UInt8.ofNat c.toNat

def bytes (str : String) : List UInt8 := str.toList.map byte

theorem toNat_byte {c : Char} (h : c.toNat < 128) : (byte c).toNat = c.toNat := by
  simp only [byte, UInt8.toNat_ofNat']
  omega

theorem byte_eq_iff {c d : Char} (hc : c.toNat < 128) (hd : d.toNat < 128) :
    byte c = byte d ↔ c = d := by
  rw [← UInt8.toNat_inj, toNat_byte hc, toNat_byte hd]
  exact Char.toNat_inj

theorem isDigit_byte {c : Char} (h : c.toNat < 128) :
    ProgramStart.isDigit (byte c) = c.isDigit := by
  rw [Bool.eq_iff_iff]
  simp only [ProgramStart.isDigit, Bool.and_eq_true, decide_eq_true_eq, UInt8.le_iff_toNat_le,
    toNat_byte h, Char.isDigit, UInt32.le_iff_toNat_le]
  rfl

theorem foldl_bytes {digits : List Char} (hdigits : ∀ c ∈ digits, c.toNat < 128) (init : ℕ) :
    (digits.map byte).foldl (fun n c => 10 * n + (c.toNat - 48)) init =
      Nat.ofDigitChars 10 digits init := by
  induction digits generalizing init with
  | nil => simp
  | cons c digits ih =>
    have hc : c.toNat < 128 := hdigits c List.mem_cons_self
    rw [List.map_cons, List.foldl_cons, ih (fun d hd => hdigits d (List.mem_cons_of_mem c hd)),
      toNat_byte hc, Nat.ofDigitChars_cons]
    rfl

/-- The value of a field in 64 bits. -/
theorem withSign_emod (negative : Bool) (magnitude : ℕ) :
    withSign negative magnitude % 2 ^ 64 =
      (if negative then -UInt64.ofNat magnitude else UInt64.ofNat magnitude).toNat := by
  cases negative with
  | false =>
    simp only [withSign_false, Bool.false_eq_true, if_false, UInt64.toNat_ofNat']
    omega
  | true =>
    simp only [withSign_true, if_true, UInt64.toNat_neg, UInt64.toNat_ofNat', UInt64.size]
    omega

section
variable {str : String} (hascii : ∀ c ∈ str.toList, c.toNat < 128)
include hascii

theorem splitSign_bytes :
    splitSign (bytes str) = (Ustring.isNegative str, (Ustring.unsigned str.toList).map byte) := by
  unfold bytes Ustring.isNegative
  cases hlist : str.toList with
  | nil => rfl
  | cons c rest =>
    have hc : c.toNat < 128 := hascii c (by simp [hlist])
    have hminus : byte c = 45 ↔ c = '-' := @byte_eq_iff c '-' hc (by decide)
    have hplus : byte c = 43 ↔ c = '+' := @byte_eq_iff c '+' hc (by decide)
    by_cases hm : c = '-'
    · have hbyte : byte c = 45 := hminus.mpr hm
      rw [List.map_cons, splitSign, if_pos hbyte, Ustring.unsigned, if_pos (.inl hm)]
      simp [hm]
    · have hbyte : ¬ byte c = 45 := fun heq => hm (hminus.mp heq)
      by_cases hp : c = '+'
      · have hbyte' : byte c = 43 := hplus.mpr hp
        rw [List.map_cons, splitSign, if_neg hbyte, if_pos hbyte', Ustring.unsigned,
          if_pos (.inr hp)]
        simp [hm]
      · have hbyte' : ¬ byte c = 43 := fun heq => hp (hplus.mp heq)
        rw [List.map_cons, splitSign, if_neg hbyte, if_neg hbyte', Ustring.unsigned,
          if_neg (not_or.mpr ⟨hm, hp⟩)]
        simp [hm]

theorem ascii_unsigned : ∀ c ∈ Ustring.unsigned str.toList, c.toNat < 128 := by
  intro c hc
  cases hlist : str.toList with
  | nil => simp [hlist, Ustring.unsigned] at hc
  | cons first rest =>
    rw [hlist, Ustring.unsigned] at hc
    refine hascii c ?_
    rw [hlist]
    split at hc
    · exact List.mem_cons_of_mem first hc
    · exact hc

theorem readNat_bytes :
    readNat ((Ustring.unsigned str.toList).map byte) = Ustring.magnitude str :=
  foldl_bytes (ascii_unsigned hascii) 0

theorem isDigit_bytes : isDigit (bytes str) = Ustring.isDigit str := by
  have hall : ((Ustring.unsigned str.toList).map byte).all ProgramStart.isDigit =
      (Ustring.unsigned str.toList).all Char.isDigit := by
    rw [Bool.eq_iff_iff, List.all_map, List.all_eq_true, List.all_eq_true]
    exact forall₂_congr fun c hc => by
      rw [Function.comp_apply, isDigit_byte (ascii_unsigned hascii c hc)]
  have hlength : (bytes str).length = str.length := by
    rw [bytes, List.length_map, String.length_toList]
  rw [Bool.eq_iff_iff, isDigit_iff, splitSign_bytes hascii, hlength, hall, Ustring.isDigit,
    decide_eq_true_iff]
  dsimp only
  rw [Ne, List.map_eq_nil_iff]
  exact and_left_comm

/-- The reading of strings of characters for `uint64_t` is that of their bytes. -/
theorem stringToUInt64_bytes (number : IntegerType.uint64.Value) :
    (stringToNum .uint64 (bytes str) number).1 = (Ustring.stringToUInt64 str).isSome ∧
      ∀ n, Ustring.stringToUInt64 str = some n →
        (stringToNum .uint64 (bytes str) number).2.val = n.toNat := by
  cases hdigit : Ustring.isDigit str with
  | false =>
    rw [stringToNum_refused ((isDigit_bytes hascii).trans hdigit)]
    simp [Ustring.stringToUInt64, hdigit]
  | true =>
    have hchecked := @stringToNum_checked .uint64 _ number _ _
      ((isDigit_bytes hascii).trans hdigit) (splitSign_bytes hascii)
    have hmax : IntegerType.uint64.max = 2 ^ 64 - 1 := rfl
    rw [readNat_bytes hascii] at hchecked
    by_cases hmagnitude : Ustring.magnitude str < 2 ^ 64
    · obtain ⟨num, hnum, hvalue⟩ := @convert_unsigned .uint64 (Ustring.isNegative str)
        (Ustring.magnitude str) rfl (by omega)
      rw [hnum] at hchecked
      have hread : Ustring.stringToUInt64 str = some (if Ustring.isNegative str then
          -UInt64.ofNat (Ustring.magnitude str) else UInt64.ofNat (Ustring.magnitude str)) :=
        if_pos ⟨hdigit, hmagnitude⟩
      rw [hchecked, hread]
      refine ⟨rfl, fun n hn => ?_⟩
      cases hn
      exact hvalue.trans (withSign_emod _ _)
    · have hconvert : convert .uint64 (Ustring.isNegative str) (Ustring.magnitude str) = none := by
        have hle : ¬ (Ustring.magnitude str : ℤ) ≤ IntegerType.uint64.max := by omega
        simp [convert, IntegerType.isSigned, hle]
      have hread : Ustring.stringToUInt64 str = none := if_neg fun h => hmagnitude h.2
      rw [hconvert] at hchecked
      rw [hchecked, hread]
      exact ⟨rfl, fun n hn => absurd hn.symm (Option.some_ne_none n)⟩

/-- The same for `int32_t`. -/
theorem stringToInt32_bytes (number : IntegerType.int32.Value) :
    (stringToNum .int32 (bytes str) number).1 = (Ustring.stringToInt32 str).isSome ∧
      ∀ n, Ustring.stringToInt32 str = some n →
        (stringToNum .int32 (bytes str) number).2.val = n.toInt := by
  cases hdigit : Ustring.isDigit str with
  | false =>
    rw [stringToNum_refused ((isDigit_bytes hascii).trans hdigit)]
    simp [Ustring.stringToInt32, hdigit]
  | true =>
    have hchecked := @stringToNum_checked .int32 _ number _ _
      ((isDigit_bytes hascii).trans hdigit) (splitSign_bytes hascii)
    rw [readNat_bytes hascii, convert_eq_ofInt fun h => absurd h (by decide)] at hchecked
    have hsigned : withSign (Ustring.isNegative str) (Ustring.magnitude str) =
        Ustring.signed str := rfl
    rw [hsigned] at hchecked
    have hmin : IntegerType.int32.min = -2 ^ 31 := rfl
    have hmax : IntegerType.int32.max = 2 ^ 31 - 1 := rfl
    by_cases hrange : -2 ^ 31 ≤ Ustring.signed str ∧ Ustring.signed str < 2 ^ 31
    · have hrepresentable : IntegerType.int32.Representable (Ustring.signed str) := by
        constructor <;> omega
      have hread : Ustring.stringToInt32 str = some (Int32.ofInt (Ustring.signed str)) :=
        if_pos ⟨hdigit, hrange⟩
      rw [IntegerType.ofInt, dif_pos hrepresentable] at hchecked
      rw [hchecked, hread]
      refine ⟨rfl, fun n hn => ?_⟩
      cases hn
      exact (Int32.toInt_ofInt_of_le hrange.1 hrange.2).symm
    · have hread : Ustring.stringToInt32 str = none := if_neg fun h => hrange h.2
      have hrepresentable : ¬ IntegerType.int32.Representable (Ustring.signed str) := by
        rintro ⟨hlow, hhigh⟩
        exact hrange ⟨by omega, by omega⟩
      rw [ofInt_eq_none hrepresentable] at hchecked
      rw [hchecked, hread]
      exact ⟨rfl, fun n hn => absurd hn.symm (Option.some_ne_none n)⟩

end
end Msopcom.StringToNum
