import Msopcom.PathRoundTrip

set_option autoImplicit false

/-!
# The file that a path names

Before a file is read or written its path is resolved, and the resolved path is checked. In a file
system without links it names the file that the path itself names, but for blanks at its ends.
-/
namespace Msopcom.Path
open StackFold

/-- What the system sees when it follows a path, link by link. -/
structure FileSystem (ν : Type) where
  root : ν
  isDir : ν → Bool
  parent : ν → ν
  child : ν → Str → Option ν
  root_isDir : isDir root = true
  parent_root : parent root = root

namespace FileSystem
variable {ν : Type} (fs : FileSystem ν)

def lookup (n : ν) (segment : Str) : Option ν :=
  if fs.isDir n = false then none
  else if segment = [] ∨ segment = currentSegment then some n
  else if segment = parentSegment then some (fs.parent n)
  else fs.child n segment

/-- The file that a text without nulls names in a directory. -/
def named (cwd : ν) (text : Str) : Option ν :=
  if text = [] then none
  else walk fs.lookup (if text.head? = some pathSep then fs.root else cwd) (text.splitOn pathSep)

/-- A name leads down: `..` leads back from where it has led. -/
def NoLinks : Prop := ∀ n r m, fs.child n r = some m → fs.parent m = n

end FileSystem

section Named
variable {ν : Type} {fs : FileSystem ν} {w n m : ν} {text : Str} {p : Path} {cwd : Option Cwd}

/-- Where a segment leads. -/
theorem lookup_cases {r : Str} (h : fs.lookup n r = some m) :
    resolve r = .skip ∧ m = n ∨ resolve r = .pop ∧ m = fs.parent n ∨
      resolve r = .push ∧ fs.child n r = some m := by
  unfold FileSystem.lookup at h
  split_ifs at h with hdir hidle hparent
  · exact .inl ⟨if_pos hidle, (Option.some.inj h).symm⟩
  · subst hparent
    exact .inr (.inl ⟨rfl, (Option.some.inj h).symm⟩)
  · exact .inr (.inr ⟨by simp [resolve, hidle, hparent], h⟩)

theorem undoes_resolve (h : fs.NoLinks) : Undoes resolve fs.lookup fs.parent fs.root where
  push := fun hact hm => by
    rcases lookup_cases hm with ⟨hskip, _⟩ | ⟨hpop, _⟩ | ⟨_, hchild⟩
    · simp [hact] at hskip
    · simp [hact] at hpop
    · exact h _ _ _ hchild
  pop := fun hact hm => by
    rcases lookup_cases hm with ⟨hskip, _⟩ | ⟨_, heq⟩ | ⟨hpush, _⟩
    · simp [hact] at hskip
    · exact heq
    · simp [hact] at hpush
  skip := fun hact hm => by
    rcases lookup_cases hm with ⟨_, heq⟩ | ⟨hpop, _⟩ | ⟨hpush, _⟩
    · exact heq
    · simp [hact] at hpop
    · simp [hact] at hpush
  root := fs.parent_root

theorem lookup_root_nil : fs.lookup fs.root [] = some fs.root := by
  simp [FileSystem.lookup, fs.root_isDir]

theorem walk_sep (rest : Str) :
    walk fs.lookup fs.root ((pathSep :: rest).splitOn pathSep) =
      walk fs.lookup fs.root (rest.splitOn pathSep) := by
  rw [splitOn_sep, ← List.singleton_append, walk_append, walk_singleton, lookup_root_nil,
    Option.bind_some]

/-- An absolute path names the file that its components lead to. -/
theorem named_toString (h : p.absolute = true) :
    fs.named w p.toString = walk fs.lookup fs.root p.route := by
  have htext : p.toString = pathSep :: join p.route [pathSep] := by simp [toString, h]
  have hsegments : walk fs.lookup fs.root ((join p.route [pathSep]).splitOn pathSep) =
      walk fs.lookup fs.root p.route := by
    cases hroute : p.route with
    | nil => simp [join, lookup_root_nil]
    | cons r rest =>
      rw [join_eq_intercalate, List.splitOn_intercalate pathSep _ (List.cons_ne_nil r rest)]
      exact fun r hr => (p.components r (hroute ▸ hr)).2.2
  rw [htext, FileSystem.named, if_neg (List.cons_ne_nil _ _), List.head?_cons, if_pos rfl,
    walk_sep, hsegments]

theorem walk_of_named {start : ν} (hhead : text.head? = some pathSep ∧ start = fs.root ∨
      text.head? ≠ some pathSep ∧ start = w) (h : fs.named w text = some n) :
    walk fs.lookup start (text.splitOn pathSep) = some n := by
  unfold FileSystem.named at h
  split_ifs at h with hnil hsep
  · rcases hhead with ⟨_, rfl⟩ | ⟨hne, _⟩
    · exact h
    · exact absurd hsep hne
  · rcases hhead with ⟨heq, _⟩ | ⟨_, rfl⟩
    · exact absurd heq hsep
    · exact h

/-- A text without the blanks around it names the file that the segments lead to from the root. -/
theorem walk_segmentsFrom
    (hcwd : ∀ d, cwd = some d → fs.named w (strip d.text [blank]) = some w)
    (hfrom : isAbsolute text = true ∨ cwd.isSome = true)
    (h : fs.named w (strip text [blank]) = some n) :
    walk fs.lookup fs.root (segmentsFrom cwd text) = some n := by
  unfold segmentsFrom
  cases habsolute : isAbsolute text with
  | true =>
    have hhead : (strip text [blank]).head? = some pathSep := of_decide_eq_true habsolute
    exact walk_of_named (.inl ⟨hhead, rfl⟩) h
  | false =>
    have hhead : (strip text [blank]).head? ≠ some pathSep := of_decide_eq_false habsolute
    rw [habsolute] at hfrom
    obtain ⟨d, rfl⟩ := Option.isSome_iff_exists.mp (hfrom.resolve_left Bool.false_ne_true)
    have hsep : pathSep ∉ [blank] := by decide
    have hstart : walk fs.lookup fs.root (segments (cwdText (some d))) = some w :=
      walk_of_named (.inl ⟨strip_head d.absolute hsep, rfl⟩) (hcwd d rfl)
    rw [if_neg Bool.false_ne_true, walk_append, hstart, Option.bind_some]
    exact walk_of_named (.inr ⟨hhead, rfl⟩) h

/-- The text that `CheckInputFileValid` checks for a path. -/
def checkedPath (cwd : Option Cwd) (path : Str) : Str := ((parse path).resolved cwd).toString

/-- Where there are no links, the file that is checked is the one that the path names without the
blanks around it, if the same holds of the working directory. -/
theorem named_checkedPath (hlinks : fs.NoLinks)
    (hcwd : ∀ d, cwd = some d → fs.named w (strip d.text [blank]) = some w)
    (hfrom : isAbsolute text = true ∨ cwd.isSome = true)
    (h : fs.named w (strip text [blank]) = some n) :
    fs.named w (checkedPath cwd text) = some n := by
  have habsolute : ((parse text).resolved cwd).absolute = true := by
    rw [resolved_absolute, parse_absolute, Bool.or_eq_true]
    exact hfrom
  rw [checkedPath, named_toString habsolute, resolved_parse_route]
  exact walk_run (undoes_resolve hlinks) (walk_segmentsFrom hcwd hfrom h)

/-- Then the file that is checked is the one that is opened, if no blanks surround the path. -/
theorem named_checkedPath_of_bare (hlinks : fs.NoLinks)
    (hcwd : ∀ d, cwd = some d → fs.named w (strip d.text [blank]) = some w)
    (hfrom : isAbsolute text = true ∨ cwd.isSome = true) (htext : Bare [blank] text)
    (h : fs.named w text = some n) : fs.named w (checkedPath cwd text) = some n := by
  rw [← strip_of_bare htext] at h
  exact named_checkedPath hlinks hcwd hfrom h

/-- With blanks around it the path is checked as without, although it is opened as it is. -/
theorem checkedPath_strip (cwd : Option Cwd) (path : Str) :
    checkedPath cwd (strip path [blank]) = checkedPath cwd path := by
  have hstrip : strip (strip path [blank]) [blank] = strip path [blank] := by
    by_cases hnil : strip path [blank] = []
    · rw [hnil]
      rfl
    · exact strip_of_bare (bare_strip hnil)
  rw [checkedPath, parse, hstrip]
  rfl

end Named
end Msopcom.Path
