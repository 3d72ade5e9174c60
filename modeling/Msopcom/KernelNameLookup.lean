import Mathlib.Data.List.TakeWhile
import Mathlib.Data.Nat.Digits.Lemmas
import Msopcom.ProgramStart

set_option autoImplicit false

/-!
# A kernel by its tiling key

The name of a kernel is looked up by the text of the key, and its offset by the number that
each name of the table reads as.
-/
namespace Msopcom.ProgramStart
open MsTxRange (splitString)

/-! ## The lookup of the name -/

/-- `std::to_string`. -/
def toDecimal (n : UInt64) : Name :=
  if n = 0 then [48] else (Nat.digits 10 n.toNat).reverse.map fun d => UInt8.ofNat (48 + d)

def suffixNames (tilingKey : UInt64) : List Name :=
  let nameSuffix := 95 :: toDecimal tilingKey
  [nameSuffix, nameSuffix ++ mixAicTail, nameSuffix ++ mixAivTail]

def endsWithKey (tilingKey : UInt64) (name : Name) : Bool :=
  (suffixNames tilingKey).any fun suffix => suffix.isSuffixOf name

/-- `GetNameByTilingKey` for the names of an event; the empty name is its failure. -/
def nameByTilingKey (names : List Name) (tilingKey : UInt64) : Name :=
  if names.length = 1 then names.getLastD []
  else (names.find? (endsWithKey tilingKey)).getD []

def getNameByTilingKey (hdl tilingKey : UInt64) (c : ProgramStart) : Name :=
  ((c.getRegisterEvent hdl).map fun event =>
    nameByTilingKey (event.symbols.map Prod.fst) tilingKey).getD []

/-! ## What the lookups have to agree on -/

/-- The offset that is found is that of symbol `i`, whatever the offsets are. -/
def TakesSymbol (names : List Name) (tilingKey : UInt64) (i : ℕ) : Prop :=
  i < names.length ∧ ∀ offsets : List UInt64, offsets.length = names.length →
    getKernelOffsetByTilingKey (names.zip offsets) tilingKey = offsets[i]?

def withoutMixTail (name : Name) : Name :=
  if mixAicTail.isSuffixOf name || mixAivTail.isSuffixOf name then name.take (name.length - 8)
  else name

/-- The piece of a name that is read as its key. -/
def suffixOf (name : Name) : Name := (splitString 95 (withoutMixTail name)).getLastD []

def HasDecimalSuffix (name : Name) : Prop :=
  suffixOf name ≠ [] ∧ ∀ c ∈ suffixOf name, isDigit c = true

structure LookupsAgree (names : List Name) (tilingKey : UInt64) : Prop where
  offset : nameByTilingKey names tilingKey ≠ [] → ∀ offsets : List UInt64,
    offsets.length = names.length → getKernelOffsetByTilingKey (names.zip offsets) tilingKey =
      (names.zip offsets).lookup (nameByTilingKey names tilingKey)
  failure : ∀ offsets : List UInt64, offsets.length = names.length →
    (nameByTilingKey names tilingKey = [] ↔
      getKernelOffsetByTilingKey (names.zip offsets) tilingKey = none)
  decimal : ∀ (i : ℕ) (name : Name), names[i]? = some name → TakesSymbol names tilingKey i →
    HasDecimalSuffix name

/-- The keys that the names of the table read as, of which each may keep the one before. -/
def keysRead : List Name → UInt64 → List (Option UInt64)
  | [], _ => []
  | name :: names, tilingKey =>
    getTilingKeyFromName name tilingKey ::
      keysRead names ((getTilingKeyFromName name tilingKey).getD tilingKey)

/-- No name reads as the key in front of the first one that ends with it. -/
def OwnDigitsFirst (names : List Name) (tilingKey : UInt64) : Prop :=
  ∀ i : ℕ, (keysRead names 0)[i]? = some (some tilingKey) →
    ∃ j ≤ i, ∃ name : Name, names[j]? = some name ∧ endsWithKey tilingKey name = true

/-! ## Numerals -/

theorem isDigit_digit {d : ℕ} (h : d < 10) : isDigit (UInt8.ofNat (48 + d)) = true := by
  interval_cases d <;> rfl

theorem toNat_digit {d : ℕ} (h : d < 10) : (UInt8.ofNat (48 + d)).toNat - 48 = d := by
  interval_cases d <;> rfl

theorem isDigit_of_mem {n : UInt64} {c : UInt8} (h : c ∈ toDecimal n) : isDigit c = true := by
  unfold toDecimal at h
  split_ifs at h with hzero
  · rw [List.mem_singleton.mp h]
    rfl
  · obtain ⟨d, hd, rfl⟩ := List.mem_map.mp h
    exact isDigit_digit (Nat.digits_lt_base (by decide) (List.mem_reverse.mp hd))

theorem toDecimal_ne_nil (n : UInt64) : toDecimal n ≠ [] := by
  unfold toDecimal
  split_ifs with hzero
  · exact List.cons_ne_nil _ _
  · have hne : n.toNat ≠ 0 := fun h => hzero (UInt64.toNat_inj.mp h)
    rw [Ne, List.map_eq_nil_iff, List.reverse_eq_nil_iff]
    exact Nat.digits_ne_nil_iff_ne_zero.mpr hne

theorem readNat_append_singleton (digits : Name) (c : UInt8) :
    readNat (digits ++ [c]) = 10 * readNat digits + (c.toNat - 48) := by
  rw [readNat, List.foldl_append]
  rfl

theorem readNat_reverse {digits : List ℕ} (h : ∀ d ∈ digits, d < 10) :
    readNat (digits.reverse.map fun d => UInt8.ofNat (48 + d)) = Nat.ofDigits 10 digits := by
  induction digits with
  | nil => rfl
  | cons d digits ih =>
    have hd : d < 10 := h d List.mem_cons_self
    rw [List.reverse_cons, List.map_append, List.map_singleton, readNat_append_singleton,
      ih fun d' hd' => h d' (List.mem_cons_of_mem d hd'), toNat_digit hd, Nat.ofDigits_cons]
    exact Nat.add_comm _ _

theorem readNat_toDecimal (n : UInt64) : readNat (toDecimal n) = n.toNat := by
  unfold toDecimal
  split_ifs with hzero
  · rw [hzero]
    rfl
  · rw [readNat_reverse fun d hd => Nat.digits_lt_base (by decide) hd, Nat.ofDigits_digits]

theorem toNat_of_isDigit {c : UInt8} (h : isDigit c = true) : 48 ≤ c.toNat ∧ c.toNat ≤ 57 := by
  simp only [isDigit, Bool.and_eq_true, decide_eq_true_eq, UInt8.le_iff_toNat_le] at h
  exact h

theorem isSpace_of_isDigit {c : UInt8} (h : isDigit c = true) : isSpace c = false := by
  have hdigit := toNat_of_isDigit h
  simp only [isSpace, Bool.or_eq_false_iff, Bool.and_eq_false_iff, decide_eq_false_iff_not,
    UInt8.le_iff_toNat_le, ← UInt8.toNat_inj]
  change ¬ c.toNat = 32 ∧ (¬ 9 ≤ c.toNat ∨ ¬ c.toNat ≤ 13)
  omega

/-- A byte of another value than the digits have. -/
theorem ne_of_isDigit {c b : UInt8} (h : isDigit c = true) (hb : isDigit b = false) : c ≠ b := by
  intro heq
  rw [heq, hb] at h
  cases h

/-- The digits of a number read as this number, whatever was read before. -/
theorem readUInt64_toDecimal (n old : UInt64) : readUInt64 (toDecimal n) old = n := by
  have hnat := readNat_toDecimal n
  have hall : ∀ c ∈ toDecimal n, isDigit c = true := fun c hc => isDigit_of_mem hc
  cases hdigits : toDecimal n with
  | nil => exact absurd hdigits (toDecimal_ne_nil n)
  | cons c rest =>
    rw [hdigits] at hnat hall
    have hc : isDigit c = true := hall c List.mem_cons_self
    have hplus : c ≠ 43 := ne_of_isDigit hc rfl
    have hminus : c ≠ 45 := ne_of_isDigit hc rfl
    have hlt : ¬ 2 ^ 64 ≤ n.toNat := not_le.mpr n.toNat_lt
    rw [readUInt64, List.dropWhile_cons_of_neg (by rw [isSpace_of_isDigit hc]; decide)]
    dsimp only
    rw [if_neg (not_or.mpr ⟨hplus, hminus⟩), List.takeWhile_eq_self_iff.mpr hall, hnat, if_neg hlt,
      if_neg hminus, UInt64.ofNat_toNat]

/-! ## A name that ends with the key -/

theorem splitString_of_not_mem {split : UInt8} {piece : Name} (hne : piece ≠ [])
    (h : split ∉ piece) : splitString split piece = [piece] := by
  induction piece with
  | nil => exact absurd rfl hne
  | cons b rest ih =>
    rw [List.mem_cons, not_or] at h
    rw [splitString, if_neg fun heq => h.1 heq.symm]
    cases rest with
    | nil => rfl
    | cons b' rest => rw [ih (List.cons_ne_nil _ _) h.2]

/-- The last piece of a text is what stands behind its last separator. -/
theorem splitString_append (split : UInt8) (front : Name) {piece : Name} (hne : piece ≠ [])
    (h : split ∉ piece) :
    ∃ items, items ≠ [] ∧ splitString split (front ++ split :: piece) = items ++ [piece] := by
  induction front with
  | nil =>
    refine ⟨[[]], List.cons_ne_nil _ _, ?_⟩
    rw [List.nil_append, splitString, if_pos rfl, splitString_of_not_mem hne h]
    rfl
  | cons b front ih =>
    obtain ⟨items, hitems, hsplit⟩ := ih
    rw [List.cons_append, splitString, hsplit]
    by_cases hb : b = split
    · rw [if_pos hb]
      exact ⟨[] :: items, List.cons_ne_nil _ _, rfl⟩
    · rw [if_neg hb]
      cases items with
      | nil => exact absurd rfl hitems
      | cons item items => exact ⟨(b :: item) :: items, List.cons_ne_nil _ _, rfl⟩

theorem endsWithKey_iff {tilingKey : UInt64} {name : Name} : endsWithKey tilingKey name = true ↔
    ∃ front tail, name = front ++ 95 :: toDecimal tilingKey ++ tail ∧
      (tail = [] ∨ tail = mixAicTail ∨ tail = mixAivTail) := by
  unfold endsWithKey suffixNames
  simp only [List.any_cons, List.any_nil, Bool.or_false, Bool.or_eq_true,
    List.isSuffixOf_iff_suffix]
  constructor
  · intro h
    obtain ⟨front, rfl⟩ | ⟨front, rfl⟩ | ⟨front, rfl⟩ := h
    · exact ⟨front, [], (List.append_nil _).symm, Or.inl rfl⟩
    · exact ⟨front, mixAicTail, (List.append_assoc _ _ _).symm, Or.inr (Or.inl rfl)⟩
    · exact ⟨front, mixAivTail, (List.append_assoc _ _ _).symm, Or.inr (Or.inr rfl)⟩
  · intro h
    obtain ⟨front, tail, rfl, rfl | rfl | rfl⟩ := h
    · exact Or.inl ⟨front, (List.append_nil _).symm⟩
    · exact Or.inr (Or.inl ⟨front, (List.append_assoc _ _ _).symm⟩)
    · exact Or.inr (Or.inr ⟨front, (List.append_assoc _ _ _).symm⟩)

/-- A text that ends with digits does not end with a letter. -/
theorem not_suffix_of_digits {front tail : Name} {n : UInt64} {b : UInt8} (hb : isDigit b = false) :
    ¬ tail ++ [b] <:+ front ++ 95 :: toDecimal n := by
  intro hsuffix
  obtain ⟨before, heq⟩ := hsuffix
  obtain ⟨digits, c, hdigits⟩ := (List.eq_nil_or_concat' (toDecimal n)).resolve_left
    (toDecimal_ne_nil n)
  have hc : isDigit c = true := by
    refine @isDigit_of_mem n c ?_
    rw [hdigits]
    exact List.mem_append_right _ (List.mem_singleton_self c)
  have hends : (before ++ tail) ++ [b] = (front ++ 95 :: digits) ++ [c] := by
    rw [hdigits] at heq
    simpa using heq
  have hbc : b = c := List.singleton_inj.mp (List.append_inj_right' hends rfl)
  exact ne_of_isDigit hc hb hbc.symm

/-- Only a tail that the name has is cut off. -/
theorem withoutMixTail_eq (front : Name) (n : UInt64) {tail : Name}
    (htail : tail = [] ∨ tail = mixAicTail ∨ tail = mixAivTail) :
    withoutMixTail (front ++ 95 :: toDecimal n ++ tail) = front ++ 95 :: toDecimal n := by
  obtain rfl | hmix := htail
  · rw [List.append_nil, withoutMixTail, if_neg]
    rw [Bool.or_eq_true, List.isSuffixOf_iff_suffix, List.isSuffixOf_iff_suffix, not_or]
    exact ⟨@not_suffix_of_digits front [95, 109, 105, 120, 95, 97, 105] n 99 rfl,
      @not_suffix_of_digits front [95, 109, 105, 120, 95, 97, 105] n 118 rfl⟩
  · have hlen : tail.length = 8 := by
      obtain rfl | rfl := hmix <;> rfl
    rw [withoutMixTail, if_pos, List.length_append, hlen, Nat.add_sub_cancel, List.take_left]
    rw [Bool.or_eq_true, List.isSuffixOf_iff_suffix, List.isSuffixOf_iff_suffix]
    obtain rfl | rfl := hmix
    · exact Or.inl (List.suffix_append _ _)
    · exact Or.inr (List.suffix_append _ _)

theorem getTilingKeyFromName_eq (name : Name) (old : UInt64) : getTilingKeyFromName name old =
    if (splitString 95 (withoutMixTail name)).length < 2 then none
    else some (readUInt64 (suffixOf name) old) := rfl

theorem underscore_not_mem (n : UInt64) : (95 : UInt8) ∉ toDecimal n := by
  intro hmem
  have hdigit : isDigit 95 = true := isDigit_of_mem hmem
  exact absurd hdigit (by decide)

/-- What the text says of a name with the key at its end, the number says as well. -/
theorem endsWithKey_reads {tilingKey : UInt64} {name : Name}
    (h : endsWithKey tilingKey name = true) :
    suffixOf name = toDecimal tilingKey ∧ name ≠ [] ∧
      ∀ old, getTilingKeyFromName name old = some tilingKey := by
  obtain ⟨front, tail, rfl, htail⟩ := endsWithKey_iff.mp h
  obtain ⟨items, hitems, hsplit⟩ := splitString_append 95 front (toDecimal_ne_nil tilingKey)
    (underscore_not_mem tilingKey)
  have hsuffix : suffixOf (front ++ 95 :: toDecimal tilingKey ++ tail) = toDecimal tilingKey := by
    rw [suffixOf, withoutMixTail_eq front tilingKey htail, hsplit]
    simp
  refine ⟨hsuffix, by simp, fun old => ?_⟩
  have hpos : 0 < items.length := List.length_pos_of_ne_nil hitems
  rw [getTilingKeyFromName_eq, withoutMixTail_eq front tilingKey htail, hsplit, hsuffix,
    readUInt64_toDecimal, if_neg]
  rw [List.length_append, List.length_singleton]
  omega

theorem hasDecimalSuffix_of_endsWithKey {tilingKey : UInt64} {name : Name}
    (h : endsWithKey tilingKey name = true) : HasDecimalSuffix name := by
  unfold HasDecimalSuffix
  rw [(endsWithKey_reads h).1]
  exact ⟨toDecimal_ne_nil _, fun c hc => isDigit_of_mem hc⟩

/-! ## The first name that matches -/

variable {names : List Name} {tilingKey : UInt64}

theorem keysRead_of_endsWithKey {j : ℕ} {name : Name} (hname : names[j]? = some name)
    (h : endsWithKey tilingKey name = true) (old : UInt64) :
    (keysRead names old)[j]? = some (some tilingKey) := by
  induction names generalizing j old with
  | nil => cases hname
  | cons first names ih =>
    cases j with
    | zero =>
      have heq : first = name := Option.some.inj hname
      rw [keysRead, List.getElem?_cons_zero, heq, (endsWithKey_reads h).2.2 old]
    | succ j => exact ih hname _

theorem length_keysRead (names : List Name) (old : UInt64) :
    (keysRead names old).length = names.length := by
  induction names generalizing old with
  | nil => rfl
  | cons name names ih => exact congrArg (· + 1) (ih _)

/-- The symbol that the loop over the offsets stops at. -/
def takenIndex (names : List Name) (tilingKey old : UInt64) : Option ℕ :=
  (keysRead names old).findIdx? fun key => key = some tilingKey

theorem findKernelOffset_zip {offsets : List UInt64} (h : offsets.length = names.length)
    (old : UInt64) : findKernelOffset tilingKey (names.zip offsets) old =
      (takenIndex names tilingKey old).bind fun i => offsets[i]? := by
  induction names generalizing offsets old with
  | nil => rfl
  | cons name names ih =>
    cases offsets with
    | nil => cases h
    | cons offset offsets =>
      have hrest : offsets.length = names.length := Nat.succ.inj h
      have htaken : takenIndex (name :: names) tilingKey old =
          if getTilingKeyFromName name old = some tilingKey then some 0
          else (takenIndex names tilingKey ((getTilingKeyFromName name old).getD old)).map
            (· + 1) := by
        rw [takenIndex, keysRead, List.findIdx?_cons]
        simp only [decide_eq_true_eq]
        rfl
      have hshift : ∀ taken : Option ℕ,
          ((taken.map (· + 1)).bind fun i => (offset :: offsets)[i]?) =
            taken.bind fun i => offsets[i]? := by
        intro taken
        cases taken <;> rfl
      rw [List.zip_cons_cons, findKernelOffset, htaken]
      cases hkey : getTilingKeyFromName name old with
      | none =>
        rw [if_neg (Option.some_ne_none _).symm, hshift]
        exact ih hrest old
      | some key =>
        dsimp only
        by_cases heq : key = tilingKey
        · rw [if_pos heq, if_pos (congrArg some heq)]
          rfl
        · rw [if_neg heq, if_neg fun h => heq (Option.some.inj h), hshift]
          exact ih hrest key

theorem takenIndex_eq_some_iff {old : UInt64} {i : ℕ} : takenIndex names tilingKey old = some i ↔
    (keysRead names old)[i]? = some (some tilingKey) ∧
      ∀ j < i, (keysRead names old)[j]? ≠ some (some tilingKey) := by
  unfold takenIndex
  rw [List.findIdx?_eq_some_iff_getElem]
  constructor
  · intro h
    obtain ⟨hi, hkey, hbefore⟩ := h
    refine ⟨?_, fun j hj => ?_⟩
    · rw [List.getElem?_eq_getElem hi, of_decide_eq_true hkey]
    · rw [List.getElem?_eq_getElem (hj.trans hi)]
      exact fun heq => hbefore j hj (decide_eq_true (Option.some.inj heq))
  · intro h
    obtain ⟨hi, hkey⟩ := List.getElem?_eq_some_iff.mp h.1
    refine ⟨hi, decide_eq_true hkey, fun j hj heq => h.2 j hj ?_⟩
    rw [List.getElem?_eq_getElem (hj.trans hi), of_decide_eq_true heq]

theorem takenIndex_eq_none_iff {old : UInt64} : takenIndex names tilingKey old = none ↔
    ∀ j : ℕ, (keysRead names old)[j]? ≠ some (some tilingKey) := by
  unfold takenIndex
  rw [List.findIdx?_eq_none_iff]
  constructor
  · intro h j hj
    exact absurd rfl (of_decide_eq_false (h _ (List.mem_of_getElem? hj)))
  · intro h key hmem
    obtain ⟨j, hj⟩ := List.getElem?_of_mem hmem
    exact decide_eq_false fun heq => h j (heq ▸ hj)

/-- The loop stops at none of the names, or at one that ends with the key. -/
theorem ownDigitsFirst_iff : OwnDigitsFirst names tilingKey ↔
    ∀ i, takenIndex names tilingKey 0 = some i →
      ∃ name : Name, names[i]? = some name ∧ endsWithKey tilingKey name = true := by
  constructor
  · intro h i hi
    obtain ⟨hkey, hbefore⟩ := takenIndex_eq_some_iff.mp hi
    obtain ⟨j, hj, name, hname, hends⟩ := h i hkey
    have heq : j = i := by
      by_contra hne
      exact hbefore j (by omega) (keysRead_of_endsWithKey hname hends 0)
    exact ⟨name, heq ▸ hname, hends⟩
  · intro h k hk
    cases htaken : takenIndex names tilingKey 0 with
    | none => exact absurd hk (takenIndex_eq_none_iff.mp htaken k)
    | some i =>
      have hle : i ≤ k := by
        by_contra hlt
        exact (takenIndex_eq_some_iff.mp htaken).2 k (by omega) hk
      exact ⟨i, hle, h i htaken⟩

theorem getKernelOffset_zip {offsets : List UInt64} (h : offsets.length = names.length) :
    getKernelOffsetByTilingKey (names.zip offsets) tilingKey =
      (takenIndex names tilingKey 0).bind fun i => offsets[i]? := findKernelOffset_zip h 0

theorem nameByTilingKey_eq (h : 1 < names.length) :
    nameByTilingKey names tilingKey = (names.find? (endsWithKey tilingKey)).getD [] :=
  if_neg (by omega)

theorem taken_lt {i : ℕ} (h : takenIndex names tilingKey 0 = some i) : i < names.length := by
  have hkey := (takenIndex_eq_some_iff.mp h).1
  have hlt := (List.getElem?_eq_some_iff.mp hkey).1
  rwa [length_keysRead] at hlt

/-- Two symbols whose offsets are always the same are one. -/
theorem eq_of_offsets {n i k : ℕ} (hi : i < n)
    (h : ∀ offsets : List UInt64, offsets.length = n → offsets[i]? = offsets[k]?) : i = k := by
  have hlen : ((List.range n).map fun j => if j = i then (1 : UInt64) else 0).length = n := by simp
  have hsame := h _ hlen
  by_contra hne
  by_cases hk : k < n
  · simp [hi, hk, Ne.symm hne] at hsame
  · simp [hi, hk] at hsame

theorem lookup_zip {n : Name} {k : ℕ} {offsets : List UInt64} (hlen : offsets.length = names.length)
    (hk : names[k]? = some n) (hfirst : ∀ j < k, names[j]? ≠ some n) :
    (names.zip offsets).lookup n = offsets[k]? := by
  induction names generalizing k offsets with
  | nil => cases hk
  | cons name names ih =>
    cases offsets with
    | nil => cases hlen
    | cons offset offsets =>
      rw [List.zip_cons_cons]
      cases k with
      | zero =>
        rw [Option.some.inj hk]
        exact List.lookup_cons_self
      | succ k =>
        have hne : n ≠ name := fun heq => hfirst 0 (Nat.succ_pos k) (congrArg some heq.symm)
        rw [List.lookup_cons, beq_false_of_ne hne]
        exact ih (Nat.succ.inj hlen) hk fun j hj => hfirst (j + 1) (by omega)

theorem lookupsAgree_of_none (h : 1 < names.length) (hnone : takenIndex names tilingKey 0 = none) :
    LookupsAgree names tilingKey := by
  have hfind : names.find? (endsWithKey tilingKey) = none := by
    rw [List.find?_eq_none]
    intro name hmem hends
    obtain ⟨j, hj⟩ := List.getElem?_of_mem hmem
    exact takenIndex_eq_none_iff.mp hnone j (keysRead_of_endsWithKey hj hends 0)
  have hname : nameByTilingKey names tilingKey = [] := by
    rw [nameByTilingKey_eq h, hfind]
    rfl
  constructor
  · exact fun hne => absurd hname hne
  · intro offsets hlen
    rw [getKernelOffset_zip hlen, hnone]
    exact iff_of_true hname rfl
  · intro i name _ htakes
    obtain ⟨hi, htakes⟩ := htakes
    have hoffset := htakes (List.replicate names.length 0) (by simp)
    rw [getKernelOffset_zip (by simp), hnone] at hoffset
    simp [hi] at hoffset

theorem lookupsAgree_of_some (h : 1 < names.length) {i : ℕ} {name : Name}
    (hsome : takenIndex names tilingKey 0 = some i) (hname : names[i]? = some name)
    (hends : endsWithKey tilingKey name = true) : LookupsAgree names tilingKey := by
  -- no name in front of this one ends with the key, since the loop has passed them all
  have hbefore : ∀ (j : ℕ) (name' : Name), names[j]? = some name' →
      endsWithKey tilingKey name' = true → i ≤ j := by
    intro j name' hname' hends'
    by_contra hlt
    exact (takenIndex_eq_some_iff.mp hsome).2 j (by omega) (keysRead_of_endsWithKey hname' hends' 0)
  have hfind : names.find? (endsWithKey tilingKey) = some name := by
    obtain ⟨hi, hget⟩ := List.getElem?_eq_some_iff.mp hname
    rw [List.find?_eq_some_iff_getElem]
    refine ⟨hends, i, hi, hget, fun j hj => ?_⟩
    rw [Bool.not_eq_true', ← Bool.not_eq_true]
    exact fun hends' => absurd (hbefore j _ (List.getElem?_eq_getElem _) hends') (by omega)
  have hresult : nameByTilingKey names tilingKey = name := by
    rw [nameByTilingKey_eq h, hfind]
    rfl
  constructor
  · intro _ offsets hlen
    rw [getKernelOffset_zip hlen, hsome, hresult, lookup_zip hlen hname fun j hj heq =>
      absurd (hbefore j name heq hends) (by omega)]
    rfl
  · intro offsets hlen
    have hlt : i < offsets.length := hlen ▸ taken_lt hsome
    rw [getKernelOffset_zip hlen, hsome, hresult, Option.bind_some, List.getElem?_eq_getElem hlt]
    exact iff_of_false (endsWithKey_reads hends).2.1 (Option.some_ne_none _)
  · intro k name' hname' htakes
    have hik : i = k := eq_of_offsets (taken_lt hsome) fun offsets hlen => by
      rw [← htakes.2 offsets hlen, getKernelOffset_zip hlen, hsome]
      rfl
    rw [← hik, hname] at hname'
    rw [← Option.some.inj hname']
    exact hasDecimalSuffix_of_endsWithKey hends

theorem endsWithKey_of_lookupsAgree (h : 1 < names.length) (hagree : LookupsAgree names tilingKey)
    {i : ℕ} (hsome : takenIndex names tilingKey 0 = some i) :
    ∃ name : Name, names[i]? = some name ∧ endsWithKey tilingKey name = true := by
  have hi : i < names.length := taken_lt hsome
  have hne : nameByTilingKey names tilingKey ≠ [] := by
    intro hnil
    have hnone := (hagree.failure (List.replicate names.length 0) (by simp)).mp hnil
    rw [getKernelOffset_zip (by simp), hsome] at hnone
    simp [hi] at hnone
  cases hfind : names.find? (endsWithKey tilingKey) with
  | none =>
    rw [nameByTilingKey_eq h, hfind] at hne
    exact absurd rfl hne
  | some name =>
    have hresult : nameByTilingKey names tilingKey = name := by
      rw [nameByTilingKey_eq h, hfind]
      rfl
    obtain ⟨hends, k, hk, hget, hfirst⟩ := List.find?_eq_some_iff_getElem.mp hfind
    have hname : names[k]? = some name := List.getElem?_eq_some_iff.mpr ⟨hk, hget⟩
    have hbefore : ∀ j < k, names[j]? ≠ some name := by
      intro j hj heq
      obtain ⟨hj', hget'⟩ := List.getElem?_eq_some_iff.mp heq
      have hnot := hfirst j hj
      rw [hget', hends] at hnot
      cases hnot
    have hik : i = k := eq_of_offsets hi fun offsets hlen => by
      have hoffset := hagree.offset hne offsets hlen
      rw [getKernelOffset_zip hlen, hsome, hresult, lookup_zip hlen hname hbefore] at hoffset
      exact hoffset
    exact ⟨name, hik ▸ hname, hends⟩

/-- Name and offset of a key are those of one symbol exactly if no name reads as the key in front
of the first one that ends with its digits. -/
theorem lookups_agree_iff (h : 1 < names.length) (tilingKey : UInt64) :
    LookupsAgree names tilingKey ↔ OwnDigitsFirst names tilingKey := by
  rw [ownDigitsFirst_iff]
  constructor
  · exact fun hagree i hsome => endsWithKey_of_lookupsAgree h hagree hsome
  · intro hfirst
    cases htaken : takenIndex names tilingKey 0 with
    | none => exact lookupsAgree_of_none h htaken
    | some i =>
      obtain ⟨name, hname, hends⟩ := hfirst i htaken
      exact lookupsAgree_of_some h htaken hname hends

/-- The context gives out the offset of the symbol whose name it gives out. -/
theorem getKernelOffset_of_lookupsAgree {c : ProgramStart} {hdl tilingKey : UInt64}
    {event : RegisterEvent} (hevent : c.getRegisterEvent hdl = some event)
    (hagree : LookupsAgree (event.symbols.map Prod.fst) tilingKey)
    (hfound : getNameByTilingKey hdl tilingKey c ≠ []) : c.getKernelOffset hdl tilingKey =
      event.symbols.lookup (getNameByTilingKey hdl tilingKey c) := by
  have hname : getNameByTilingKey hdl tilingKey c =
      nameByTilingKey (event.symbols.map Prod.fst) tilingKey := by
    simp [getNameByTilingKey, hevent]
  have hzip : (event.symbols.map Prod.fst).zip (event.symbols.map Prod.snd) = event.symbols :=
    (List.zip_of_prod rfl rfl).symm
  have hoffset := hagree.offset (hname ▸ hfound) (event.symbols.map Prod.snd) (by simp)
  rw [hzip] at hoffset
  rw [hname, ← hoffset]
  simp [getKernelOffset, hevent]

/-- `k_abc` and `k_1`. -/
def lettersFirst : List Name := [[107, 95, 97, 98, 99], [107, 95, 49]]

/-- A suffix that is no number reads as 0. -/
theorem letters_read_as_zero : ¬ ∀ (names : List Name) (tilingKey : UInt64), 1 < names.length →
    LookupsAgree names tilingKey := by
  intro h
  have hfailure := (h lettersFirst 0 (by decide)).failure [16, 32] rfl
  exact absurd hfailure (by decide)

theorem lookups_agree_lettersFirst : LookupsAgree lettersFirst 1 ↔ OwnDigitsFirst lettersFirst 1 :=
  @lookups_agree_iff lettersFirst (by decide) 1

end Msopcom.ProgramStart
