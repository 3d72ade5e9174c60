import Mathlib.Algebra.Group.Int.Defs
import Mathlib.Algebra.Group.Nat.Defs

set_option autoImplicit false

/-!
# Numbers and lists in strings

The reading of decimal numbers and of lists with a separator, and that what is written is read.
-/
namespace Msopcom.Ustring

/-- What is behind the sign, if there is one. -/
def unsigned : List Char → List Char
  | [] => []
  | c :: rest => if c = '-' ∨ c = '+' then rest else c :: rest

/-- Lengths count characters; a string with a character of several bytes is refused anyway. -/
def isDigit (digit : String) : Bool :=
  unsigned digit.toList ≠ [] ∧ digit.length ≤ 0xFFFFFFFF ∧
    (unsigned digit.toList).all Char.isDigit

def checkInputStringValid (inputString : String) (length : ℕ) : Bool :=
  inputString ≠ "" ∧ inputString.length ≤ length ∧
    inputString.toList.all fun c => c.isAlphanum || c = '_'

/-- `getline` ends at the end of the input: an empty rest behind the last separator is no token. -/
def splitString (str : String) (split : Char) : List String :=
  let tokens := (str.toList.splitOn split).map String.ofList
  if tokens.getLast? = some "" then tokens.dropLast else tokens

def join (slices : List String) (sep : String) : String := sep.intercalate slices

def magnitude (str : String) : ℕ := Nat.ofDigitChars 10 (unsigned str.toList) 0

def isNegative (str : String) : Bool := str.toList.head? = some '-'

def signed (str : String) : ℤ := if isNegative str then -magnitude str else magnitude str

/-- `StringToNum<int32_t>`; a number out of range fails. -/
def stringToInt32 (str : String) : Option Int32 :=
  if isDigit str ∧ -2 ^ 31 ≤ signed str ∧ signed str < 2 ^ 31 then
    some (Int32.ofInt (signed str))
  else none

/-- `StringToNum<uint64_t>`; a minus sign is no failure, it negates modulo 2^64. -/
def stringToUInt64 (str : String) : Option UInt64 :=
  if isDigit str ∧ magnitude str < 2 ^ 64 then
    some (if isNegative str then -UInt64.ofNat (magnitude str) else UInt64.ofNat (magnitude str))
  else none

/-! ## Lists -/

theorem splitString_join {slices : List String} {split : Char} {sep : String}
    (hsep : sep.toList = [split]) (hne : slices ≠ []) (hfree : ∀ s ∈ slices, split ∉ s.toList) :
    splitString (join slices sep) split =
      if slices.getLast? = some "" then slices.dropLast else slices := by
  have htokens : ((join slices sep).toList.splitOn split).map String.ofList = slices := by
    rw [join, String.toList_intercalate, hsep, List.splitOn_intercalate split]
    · rw [List.map_map]
      exact (List.map_congr_left fun s _ => String.ofList_toList).trans (List.map_id slices)
    · intro l hl
      obtain ⟨s, hs, rfl⟩ := List.mem_map.mp hl
      exact hfree s hs
    · exact fun h => hne (List.map_eq_nil_iff.mp h)
  unfold splitString
  rw [htokens]

theorem splitString_join_of_last {slices : List String} {split : Char} {sep : String}
    (hsep : sep.toList = [split]) (hne : slices ≠ []) (hfree : ∀ s ∈ slices, split ∉ s.toList)
    (hlast : slices.getLast? ≠ some "") : splitString (join slices sep) split = slices := by
  rw [splitString_join hsep hne hfree, if_neg hlast]

/-- A list that is written comes back unless it is empty or ends in an empty string. -/
theorem length_splitString_join_iff {slices : List String} {split : Char} {sep : String}
    (hsep : sep.toList = [split]) (hne : slices ≠ []) (hfree : ∀ s ∈ slices, split ∉ s.toList) :
    (splitString (join slices sep) split).length = slices.length ↔ slices.getLast? ≠ some "" := by
  have hpos : 0 < slices.length := List.length_pos_iff.mpr hne
  rw [splitString_join hsep hne hfree]
  by_cases hlast : slices.getLast? = some ""
  · rw [if_pos hlast, List.length_dropLast]
    exact ⟨fun h => by omega, fun h => absurd hlast h⟩
  · rw [if_neg hlast]
    exact ⟨fun _ => hlast, fun _ => rfl⟩

/-! ## Numbers -/

theorem isDigit_of_mem_toDigits {n : ℕ} {c : Char} (h : c ∈ Nat.toDigits 10 n) : c.isDigit :=
  Nat.isDigit_of_mem_toDigits (by decide) (by decide) h

/-- A written number has no sign, no separator and no letter. -/
theorem ne_of_mem_toDigits {n : ℕ} {c d : Char} (h : c ∈ Nat.toDigits 10 n)
    (hd : d.isDigit = false) : c ≠ d := by
  rintro rfl
  rw [isDigit_of_mem_toDigits h] at hd
  exact absurd hd (by decide)

theorem unsigned_toDigits (n : ℕ) : unsigned (Nat.toDigits 10 n) = Nat.toDigits 10 n := by
  cases hdigits : Nat.toDigits 10 n with
  | nil => rfl
  | cons c rest =>
    have hc : c ∈ Nat.toDigits 10 n := hdigits ▸ List.mem_cons_self
    refine if_neg fun h => ?_
    rcases h with h | h
    · exact ne_of_mem_toDigits hc (by decide) h
    · exact ne_of_mem_toDigits hc (by decide) h

section Repr
variable {n : ℕ}

theorem toList_repr : n.repr.toList = Nat.toDigits 10 n := Nat.toList_repr

theorem unsigned_repr : unsigned n.repr.toList = Nat.toDigits 10 n := by
  rw [toList_repr, unsigned_toDigits]

theorem magnitude_repr : magnitude n.repr = n := by
  rw [magnitude, unsigned_repr, Nat.ofDigitChars_ten_toDigits]

theorem isNegative_repr : isNegative n.repr = false := by
  rw [isNegative, toList_repr, decide_eq_false_iff_not]
  intro h
  exact ne_of_mem_toDigits (List.mem_of_mem_head? h) (by decide) rfl

theorem not_mem_repr {c : Char} (hc : c.isDigit = false) : c ∉ n.repr.toList := by
  rw [toList_repr]
  exact fun h => ne_of_mem_toDigits h hc rfl

theorem repr_ne_empty : n.repr ≠ "" := by
  rw [ne_eq, ← String.toList_inj, toList_repr]
  exact Nat.toDigits_ne_nil

theorem length_repr_le {k : ℕ} (hk : 0 < k) (h : n < 10 ^ k) : n.repr.length ≤ k := by
  rw [← String.length_toList, toList_repr]
  exact (Nat.length_toDigits_le_iff (by decide) hk).mpr h

theorem isDigit_repr (h : n < 2 ^ 64) : isDigit n.repr := by
  have hlength : n.repr.length ≤ 20 := length_repr_le (by decide) (by omega)
  rw [isDigit, decide_eq_true_iff, unsigned_repr]
  exact ⟨Nat.toDigits_ne_nil, by omega, List.all_eq_true.mpr fun c hc => isDigit_of_mem_toDigits hc⟩

end Repr

theorem stringToUInt64_toString (n : UInt64) : stringToUInt64 (toString n) = some n := by
  change stringToUInt64 n.toNat.repr = some n
  have hn : n.toNat < 2 ^ 64 := n.toNat_lt
  rw [stringToUInt64, if_pos ⟨isDigit_repr hn, magnitude_repr.symm ▸ hn⟩, isNegative_repr,
    magnitude_repr]
  exact congrArg some UInt64.ofNat_toNat

/-- A number without a sign fits if it is below 2^31. -/
theorem stringToInt32_repr {n : ℕ} (h : n < 2 ^ 64) :
    stringToInt32 n.repr = if n < 2 ^ 31 then some (Int32.ofInt n) else none := by
  have hsigned : signed n.repr = n := by
    rw [signed, isNegative_repr, magnitude_repr]
    rfl
  rw [stringToInt32, hsigned]
  by_cases hn : n < 2 ^ 31
  · rw [if_pos hn, if_pos ⟨isDigit_repr h, by omega, by omega⟩]
  · rw [if_neg hn, if_neg fun hfits => hn (by omega)]

theorem unsigned_neg (n : ℕ) : unsigned ("-" ++ n.repr).toList = Nat.toDigits 10 n := by
  rw [String.toList_append, toList_repr]
  rfl

theorem isDigit_neg {n : ℕ} (h : n < 2 ^ 64) : isDigit ("-" ++ n.repr) := by
  have hlength : n.repr.length ≤ 20 := length_repr_le (by decide) (by omega)
  rw [isDigit, decide_eq_true_iff, unsigned_neg, String.length_append]
  refine ⟨Nat.toDigits_ne_nil, ?_,
    List.all_eq_true.mpr fun c hc => isDigit_of_mem_toDigits hc⟩
  have hsign : "-".length = 1 := rfl
  omega

theorem signed_neg (n : ℕ) : signed ("-" ++ n.repr) = -n := by
  have hneg : isNegative ("-" ++ n.repr) = true := by
    rw [isNegative, String.toList_append]
    rfl
  rw [signed, hneg, if_pos rfl, magnitude, unsigned_neg, Nat.ofDigitChars_ten_toDigits]

theorem stringToInt32_toString (z : Int32) : stringToInt32 (toString z) = some z := by
  change stringToInt32 z.toInt.repr = some z
  have hlow : -2 ^ 31 ≤ z.toInt := z.le_toInt
  have hhigh : z.toInt < 2 ^ 31 := z.toInt_lt
  have hz : Int32.ofInt z.toInt = z := Int32.ofInt_toInt z
  rw [Int.repr_eq_if]
  by_cases hsign : 0 ≤ z.toInt
  · have hcast : (z.toInt.toNat : ℤ) = z.toInt := Int.toNat_of_nonneg hsign
    rw [if_pos hsign, stringToInt32_repr (by omega), if_pos (by omega), hcast, hz]
  · have hcast : ((-z.toInt).toNat : ℤ) = -z.toInt := Int.toNat_of_nonneg (by omega)
    have hsigned : signed ("-" ++ (-z.toInt).toNat.repr) = z.toInt := by
      rw [signed_neg, hcast, Int.neg_neg]
    rw [if_neg hsign, stringToInt32, hsigned, if_pos ⟨isDigit_neg (by omega), hlow, hhigh⟩, hz]

end Msopcom.Ustring
