import Mathlib.Data.List.Sort

set_option autoImplicit false

/-!
# Flat JSON objects

The text of a JSON object whose values are plain strings. The keys are written in their order;
between two quotes stands a key, a value or the punctuation that follows it.
-/
namespace Msopcom.FlatJson

/-- A string that stands in a JSON text as it is. -/
def plain (s : String) : Bool := s.toList.all fun c => c ≠ '"' ∧ c ≠ '\\' ∧ 0x20 ≤ c.toNat

def byKey (object : List (String × String)) : List (String × String) :=
  object.insertionSort fun a b => a.1 ≤ b.1

/-- The pieces between the quotes, behind the opening brace. -/
def pieces : List (String × String) → List (List Char)
  | [] => []
  | [(key, value)] => [key.toList, [':'], value.toList, ['}']]
  | (key, value) :: rest => key.toList :: [':'] :: value.toList :: [','] :: pieces rest

def text (object : List (String × String)) : String :=
  if object = [] then "{}" else String.ofList (['"'].intercalate (['{'] :: pieces object))

def dump (object : List (String × String)) : Option String :=
  if object.all fun member => plain member.1 && plain member.2 then some (text (byKey object))
  else none

def readPieces : List (List Char) → Option (List (String × String))
  | key :: colon :: value :: close :: rest =>
      if colon ≠ [':'] then none
      else if close = ['}'] ∧ rest = [] then some [(String.ofList key, String.ofList value)]
      else if close = [','] then
        (readPieces rest).map ((String.ofList key, String.ofList value) :: ·)
      else none
  | _ => none

def items (s : String) : Option (List (String × String)) :=
  if s = "{}" then some []
  else match s.toList.splitOn '"' with
    | opening :: rest => if opening = ['{'] then readPieces rest else none
    | [] => none

theorem quote_not_mem {s : String} (h : plain s) : '"' ∉ s.toList := fun hmem =>
  (of_decide_eq_true (List.all_eq_true.mp h _ hmem)).1 rfl

section Plain
variable {object : List (String × String)}

def AllPlain (object : List (String × String)) : Prop :=
  ∀ member ∈ object, plain member.1 ∧ plain member.2

theorem quote_not_mem_pieces (h : AllPlain object) : ∀ piece ∈ pieces object, '"' ∉ piece := by
  induction object with
  | nil => exact fun piece hpiece => absurd hpiece List.not_mem_nil
  | cons member rest ih =>
    obtain ⟨hmember, hrest⟩ := List.forall_mem_cons.mp h
    cases rest with
    | nil =>
      simp only [pieces, List.forall_mem_cons]
      exact ⟨quote_not_mem hmember.1, by decide, quote_not_mem hmember.2, by decide, by simp⟩
    | cons next rest =>
      simp only [pieces, List.forall_mem_cons]
      exact ⟨quote_not_mem hmember.1, by decide, quote_not_mem hmember.2, by decide, ih hrest⟩

theorem readPieces_pieces (hne : object ≠ []) : readPieces (pieces object) = some object := by
  induction object with
  | nil => exact absurd rfl hne
  | cons member rest ih =>
    cases rest with
    | nil => simp [pieces, readPieces]
    | cons next rest =>
      have hclose : ¬([','] = ['}'] ∧ pieces (next :: rest) = []) := fun h => absurd h.1 (by decide)
      change readPieces (_ :: [':'] :: _ :: [','] :: pieces (next :: rest)) = _
      rw [readPieces, if_neg (not_not.mpr rfl), if_neg hclose, if_pos rfl,
        ih (List.cons_ne_nil _ _)]
      simp

theorem items_text (h : AllPlain object) : items (text object) = some object := by
  by_cases hne : object = []
  · rw [hne]
    rfl
  · have hsplit : (['"'].intercalate (['{'] :: pieces object)).splitOn '"' =
        ['{'] :: pieces object := by
      refine List.splitOn_intercalate '"' ?_ (List.cons_ne_nil _ _)
      exact List.forall_mem_cons.mpr ⟨by decide, quote_not_mem_pieces h⟩
    have htext : text object = String.ofList (['"'].intercalate (['{'] :: pieces object)) :=
      if_neg hne
    have hnotEmpty : text object ≠ "{}" := by
      intro heq
      rw [htext] at heq
      have hlist := congrArg (fun s : String => s.toList.splitOn '"') heq
      rw [String.toList_ofList, hsplit] at hlist
      exact absurd (List.cons.inj hlist).1 (by decide)
    unfold items
    rw [if_neg hnotEmpty, htext, String.toList_ofList, hsplit]
    exact (if_pos rfl).trans (readPieces_pieces hne)

end Plain

/-- What is dumped is read back, its members by their keys. -/
theorem items_of_dump {object : List (String × String)} {s : String} (h : dump object = some s) :
    s ≠ "" ∧ ∃ read, items s = some read ∧ read.Perm object := by
  unfold dump at h
  split_ifs at h with hplain
  rw [← Option.some.inj h]
  have hperm : (byKey object).Perm object := List.perm_insertionSort _ object
  have hread : items (text (byKey object)) = some (byKey object) := items_text fun member hmember =>
    Bool.and_eq_true_iff.mp (List.all_eq_true.mp hplain member (hperm.mem_iff.mp hmember))
  refine ⟨fun hempty => ?_, byKey object, hread, hperm⟩
  have hnone : items "" = none := by decide
  rw [hempty, hnone] at hread
  exact absurd hread (by simp)

end Msopcom.FlatJson
