import Mathlib.Data.List.DropRight
import Msopcom.StackFold

set_option autoImplicit false

/-!
# Paths

A path is parsed into an absolute flag and components. It is resolved by a pass in place over these,
which leaves what a stack leaves of the segments of the text.
-/
namespace Msopcom
open StackFold

/-- The bytes of a string. -/
abbrev Str := List UInt8

namespace Path

def pathSep : UInt8 := 47
def currentSegment : Str := [46]
def parentSegment : Str := [46, 46]
def blank : UInt8 := 32

/-! ## Strings -/

def findFirstNotOf (str cs : Str) : Option ℕ := str.findIdx? (· ∉ cs)

def findLastNotOf (str cs : Str) : Option ℕ :=
  (str.reverse.findIdx? (· ∉ cs)).map (str.length - 1 - ·)

def strip (str cs : Str) : Str :=
  match findFirstNotOf str cs, findLastNotOf str cs with
  | some l, some r => (str.drop l).take (r - l + 1)
  | _, _ => []

def join (slices : List Str) (sep : Str) : Str :=
  match slices with
  | [] => []
  | s :: rest => rest.foldl (fun ret r => ret ++ sep ++ r) s

/-- A string that begins and ends with other characters. -/
structure Bare (cs str : Str) : Prop where
  head : ∃ c, str.head? = some c ∧ c ∉ cs
  last : ∃ c, str.getLast? = some c ∧ c ∉ cs

section Strings
variable {str cs a m b : Str}

theorem Bare.ne_nil (h : Bare cs m) : m ≠ [] := by
  rintro rfl
  obtain ⟨c, hhead, _⟩ := h.head
  simp at hhead

theorem strip_append (ha : ∀ x ∈ a, x ∈ cs) (hb : ∀ x ∈ b, x ∈ cs) (hm : Bare cs m) :
    strip (a ++ m ++ b) cs = m := by
  have hfirst : findFirstNotOf (a ++ m ++ b) cs = some a.length := by
    obtain ⟨c, hhead, hc⟩ := hm.head
    obtain ⟨rest, rfl⟩ : ∃ rest, m = c :: rest := List.head?_eq_some_iff.mp hhead
    have hnone : a.findIdx? (· ∉ cs) = none := by simpa [List.findIdx?_eq_none_iff] using ha
    rw [findFirstNotOf, List.append_assoc, List.findIdx?_append, hnone]
    simp [List.findIdx?_cons, hc]
  have hlast : findLastNotOf (a ++ m ++ b) cs = some (a.length + m.length - 1) := by
    obtain ⟨d, hlast, hd⟩ := hm.last
    obtain ⟨rest, rfl⟩ : ∃ rest, m = rest ++ [d] := List.getLast?_eq_some_iff.mp hlast
    have hnone : b.reverse.findIdx? (· ∉ cs) = none := by
      simpa [List.findIdx?_eq_none_iff] using hb
    rw [findLastNotOf, List.reverse_append, List.findIdx?_append, hnone]
    simp [List.findIdx?_cons, hd]
    omega
  have hpos : 0 < m.length := List.length_pos_iff.mpr hm.ne_nil
  have hcount : a.length + m.length - 1 - a.length + 1 = m.length := by omega
  rw [strip, hfirst, hlast]
  dsimp only
  rw [hcount, List.append_assoc, List.drop_left, List.take_left]

theorem strip_of_bare (hm : Bare cs m) : strip m cs = m := by
  simpa using strip_append (a := []) (b := []) (by simp) (by simp) hm

theorem strip_of_all (h : ∀ x ∈ str, x ∈ cs) : strip str cs = [] := by
  have hnone : findFirstNotOf str cs = none := by
    simpa [findFirstNotOf, List.findIdx?_eq_none_iff] using h
  rw [strip, hnone]

theorem exists_head (h : ¬ ∀ x ∈ str, x ∈ cs) :
    ∃ a c m, str = a ++ c :: m ∧ (∀ x ∈ a, x ∈ cs) ∧ c ∉ cs := by
  induction str with
  | nil => simp at h
  | cons x str ih =>
    by_cases hx : x ∈ cs
    · obtain ⟨a, c, m, rfl, ha, hc⟩ := ih fun hall => h (by simpa [hx] using hall)
      exact ⟨x :: a, c, m, rfl, by simpa [hx] using ha, hc⟩
    · exact ⟨[], x, str, rfl, by simp, hx⟩

theorem exists_last (h : ¬ ∀ x ∈ str, x ∈ cs) :
    ∃ m c b, str = m ++ c :: b ∧ (∀ x ∈ b, x ∈ cs) ∧ c ∉ cs := by
  have hreverse : ¬ ∀ x ∈ str.reverse, x ∈ cs := by simpa using h
  obtain ⟨b, c, m, hstr, hb, hc⟩ := exists_head hreverse
  refine ⟨m.reverse, c, b.reverse, ?_, by simpa using hb, hc⟩
  rw [← List.reverse_reverse str, hstr]
  simp

/-- Stripped are the characters at both ends, and no others. -/
theorem exists_strip (h : ¬ ∀ x ∈ str, x ∈ cs) :
    ∃ a b, str = a ++ strip str cs ++ b ∧ (∀ x ∈ a, x ∈ cs) ∧ (∀ x ∈ b, x ∈ cs) ∧
      Bare cs (strip str cs) := by
  obtain ⟨a, c, rest, rfl, ha, hc⟩ := exists_head h
  obtain ⟨m, d, b, hm, hb, hd⟩ : ∃ m d b, c :: rest = m ++ d :: b ∧ (∀ x ∈ b, x ∈ cs) ∧ d ∉ cs :=
    exists_last fun hall => hc (hall c List.mem_cons_self)
  have hbare : Bare cs (m ++ [d]) := by
    refine ⟨⟨c, ?_, hc⟩, d, by simp, hd⟩
    cases m with
    | nil => simp_all
    | cons x m => simp_all
  have hstr : a ++ c :: rest = a ++ (m ++ [d]) ++ b := by simp [hm]
  have hstrip : strip (a ++ c :: rest) cs = m ++ [d] := by rw [hstr, strip_append ha hb hbare]
  exact ⟨a, b, by rw [hstrip, hstr], ha, hb, hstrip ▸ hbare⟩

theorem strip_head {c : UInt8} (hhead : str.head? = some c) (hc : c ∉ cs) :
    (strip str cs).head? = some c := by
  have hmem : c ∈ str := List.mem_of_mem_head? hhead
  obtain ⟨a, b, hstr, ha, _, hbare⟩ := exists_strip fun hall => hc (hall c hmem)
  cases a with
  | nil =>
    rw [hstr, List.nil_append, List.head?_append_of_ne_nil _ hbare.ne_nil] at hhead
    exact hhead
  | cons x a =>
    rw [hstr, List.append_assoc, List.cons_append, List.head?_cons] at hhead
    exact absurd (ha x List.mem_cons_self) (Option.some.inj hhead ▸ hc)

theorem bare_strip (h : strip str cs ≠ []) : Bare cs (strip str cs) := by
  by_cases hall : ∀ x ∈ str, x ∈ cs
  · exact absurd (strip_of_all hall) h
  · obtain ⟨_, _, _, _, _, hbare⟩ := exists_strip hall
    exact hbare

end Strings

/-! ## The text of a path -/

/-- The loop of the constructor, at what it has not read yet. -/
def routes : Str → List Str
  | [] => []
  | c :: rest =>
    if c = pathSep then routes rest
    else
      let route := c :: rest.takeWhile (· ≠ pathSep)
      let others := routes (rest.dropWhile (· ≠ pathSep))
      if route ≠ currentSegment then route :: others else others
termination_by path => path.length
decreasing_by
  · simp
  · exact Nat.lt_succ_of_le (List.length_dropWhile_le _ _)

/-- What is between two separators names nothing if it is empty or the current directory. -/
def keep (segment : Str) : Action :=
  if segment = [] ∨ segment = currentSegment then .skip else .push

theorem keep_ne_pop (segment : Str) : keep segment ≠ .pop := by
  unfold keep
  split_ifs <;> decide

theorem splitOn_sep (rest : Str) :
    (pathSep :: rest).splitOn pathSep = [] :: rest.splitOn pathSep :=
  List.splitOn_append_cons_self_of_not_mem (List.not_mem_nil) rest

/-- The segments have all that is not a separator. -/
theorem flatten_splitOn (path : Str) :
    (path.splitOn pathSep).flatten = path.filter (· ≠ pathSep) := by
  induction path with
  | nil => rfl
  | cons c rest ih =>
    by_cases hc : c = pathSep
    · simp [hc, splitOn_sep, ih]
    · cases hsplit : rest.splitOn pathSep with
      | nil => exact absurd hsplit (List.splitOn_ne_nil pathSep rest)
      | cons segment others =>
        rw [hsplit] at ih
        simpa [List.splitOn_cons_eq_if_modifyHead, hsplit, hc] using ih

theorem not_mem_of_mem_splitOn {path segment : Str} (h : segment ∈ path.splitOn pathSep) :
    pathSep ∉ segment := by
  intro hsep
  have hflatten : pathSep ∈ (path.splitOn pathSep).flatten :=
    List.mem_flatten.mpr ⟨segment, h, hsep⟩
  simp [flatten_splitOn] at hflatten

/-- A segment is read, and then what begins with the separator behind it. -/
theorem run_splitOn {act : Str → Action} {stack : List Str} {segment others : Str}
    (hskip : act [] = .skip) (hsegment : pathSep ∉ segment)
    (hothers : others = [] ∨ others.head? = some pathSep) :
    run act stack ((segment ++ others).splitOn pathSep) =
      run act (step act stack segment) (others.splitOn pathSep) := by
  rcases hothers with rfl | hhead
  · rw [List.append_nil, List.splitOn_eq_singleton hsegment]
    simp [step_skip hskip]
  · obtain ⟨rest, rfl⟩ := List.head?_eq_some_iff.mp hhead
    rw [List.splitOn_append_cons_self_of_not_mem hsegment, splitOn_sep]
    simp [step_skip hskip]

theorem run_splitOn_cons {act : Str → Action} {stack : List Str} {c : UInt8} {rest : Str}
    (hskip : act [] = .skip) (hc : c ≠ pathSep) :
    run act stack ((c :: rest).splitOn pathSep) =
      run act (step act stack (c :: rest.takeWhile (· ≠ pathSep)))
        ((rest.dropWhile (· ≠ pathSep)).splitOn pathSep) := by
  have hsegment : pathSep ∉ c :: rest.takeWhile (· ≠ pathSep) := by
    intro h
    rcases List.mem_cons.mp h with heq | htake
    · exact hc heq.symm
    · simpa using List.mem_takeWhile_imp htake
  have hothers : rest.dropWhile (· ≠ pathSep) = [] ∨
      (rest.dropWhile (· ≠ pathSep)).head? = some pathSep := by
    have hhead := List.head?_dropWhile_not (fun b : UInt8 => decide (b ≠ pathSep)) rest
    cases hdrop : rest.dropWhile (· ≠ pathSep) with
    | nil => exact .inl rfl
    | cons b others =>
      rw [hdrop] at hhead
      exact .inr (by simpa using hhead)
  rw [← run_splitOn hskip hsegment hothers, List.cons_append, List.takeWhile_append_dropWhile]

theorem run_keep (stack l : List Str) : run keep stack l = stack ++ run keep [] l := by
  have hpop : ∀ x ∈ l, keep x ≠ .pop := fun x _ => keep_ne_pop x
  rw [run_of_no_pop hpop, run_of_no_pop hpop, List.nil_append]

/-- The components are the segments that name something. -/
theorem routes_eq_run (path : Str) : routes path = run keep [] (path.splitOn pathSep) := by
  induction path using routes.induct with
  | case1 => simp [routes, step, keep]
  | case2 rest ih => simp [routes, splitOn_sep, step, keep, ih]
  | case3 c rest hc route hnamed ih =>
    have hpush : keep route = .push := if_neg fun h => h.elim (List.cons_ne_nil _ _) hnamed
    rw [run_splitOn_cons (by rfl) hc, step_push hpush, run_keep, ← ih, routes, if_neg hc]
    exact if_pos hnamed
  | case4 c rest hc route hnamed ih =>
    have hskip : keep route = .skip := if_pos (.inr (not_not.mp hnamed))
    rw [run_splitOn_cons (by rfl) hc, step_skip hskip, ← ih, routes, if_neg hc]
    exact if_neg hnamed

/-! ## Paths -/

/-- What a component may be. -/
def IsComponent (r : Str) : Prop := r ≠ [] ∧ r ≠ currentSegment ∧ pathSep ∉ r

instance : DecidablePred IsComponent := fun _ => inferInstanceAs (Decidable (_ ∧ _))

end Path

@[ext] structure Path where
  absolute : Bool
  route : List Str
  components : ∀ r ∈ route, Path.IsComponent r
  deriving DecidableEq

namespace Path

/-- The text of `getcwd`, which gives an absolute path or fails. -/
structure Cwd where
  text : Str
  absolute : text.head? = some pathSep

theorem isComponent_of_mem_routes {path r : Str} (h : r ∈ routes path) : IsComponent r := by
  rw [routes_eq_run] at h
  obtain ⟨hsegment, hpush⟩ := mem_run_nil h
  have hnamed : ¬ (r = [] ∨ r = currentSegment) := fun hidle => by simp [keep, hidle] at hpush
  rw [not_or] at hnamed
  exact ⟨hnamed.1, hnamed.2, not_mem_of_mem_splitOn hsegment⟩

/-- `Path(void)` is the current directory. -/
instance : Inhabited Path := ⟨⟨false, [], by simp⟩⟩

def parse (path : Str) : Path :=
  let path := strip path [blank]
  if path = [] then default
  else ⟨path.head? = some pathSep, routes path, fun _ => isComponent_of_mem_routes⟩

def toString (p : Path) : Str :=
  if p.absolute then [pathSep] ++ join p.route [pathSep]
  else if p.route = [] then currentSegment
  else join p.route [pathSep]

def name (p : Path) : Str := p.route.getLast?.getD []

def parent (p : Path) : Path where
  absolute := p.absolute
  route := p.route.dropLast
  components := fun r hr => p.components r (List.mem_of_mem_dropLast hr)

theorem parent_append_name {p : Path} (h : p.route ≠ []) :
    p.parent.route ++ [p.name] = p.route := by
  have hname : p.name = p.route.getLast h := by simp [name, List.getLast?_eq_some_getLast h]
  rw [hname]
  exact List.dropLast_append_getLast h

/-- `operator/` -/
def div (p rhs : Path) : Path :=
  if rhs.absolute then rhs
  else
    { absolute := p.absolute
      route := p.route ++ rhs.route
      components := fun r hr =>
        (List.mem_append.mp hr).elim (p.components r) (rhs.components r) }

instance : Div Path := ⟨div⟩

/-- A `getcwd` that fails leaves the empty text. -/
def cwdText (cwd : Option Cwd) : Str := (cwd.map Cwd.text).getD []

def absolutePath (cwd : Option Cwd) (p : Path) : Path := parse (cwdText cwd) / p

/-- The round of the loop in which `fast` is so far. -/
def resolveStep (path : Pass Str) (fast : ℕ) : Pass Str :=
  match path.cells[fast]? with
  | none => path
  | some r =>
    if r ≠ parentSegment then ⟨path.cells.set path.slow r, path.slow + 1⟩
    else if 0 < path.slow then ⟨path.cells, path.slow - 1⟩
    else path

def resolveRoute (route : List Str) : List Str :=
  let path := (List.range route.length).foldl resolveStep ⟨route, 0⟩
  path.cells.take path.slow

/-- What a component does to the stack: `..` takes the last one back. -/
def climb (r : Str) : Action := if r = parentSegment then .pop else .push

/-- What any segment of a text does to the stack. -/
def resolve (segment : Str) : Action :=
  if segment = [] ∨ segment = currentSegment then .skip
  else if segment = parentSegment then .pop
  else .push

theorem resolveStep_eq (path : Pass Str) (fast : ℕ) :
    resolveStep path fast = path.step climb fast := by
  unfold resolveStep Pass.step
  cases path.cells[fast]? with
  | none => rfl
  | some r =>
    by_cases hr : r = parentSegment
    · by_cases hslow : 0 < path.slow
      · simp [climb, hr, hslow]
      · obtain ⟨cells, slow⟩ := path
        simp_all [climb]
    · simp [climb, hr]

/-- The pass over any vector leaves what a stack leaves of it. -/
theorem resolveRoute_eq_run (route : List Str) : resolveRoute route = run climb [] route := by
  have hstep : resolveStep = Pass.step climb := funext₂ resolveStep_eq
  rw [resolveRoute, hstep, ← Pass.result_eq_run]
  rfl

theorem climb_eq_resolve {r : Str} (h : IsComponent r) : climb r = resolve r := by
  simp [climb, resolve, h.1, h.2.1]

theorem components_resolveRoute {route : List Str} (h : ∀ r ∈ route, IsComponent r) :
    ∀ r ∈ resolveRoute route, IsComponent r := by
  intro r hr
  rw [resolveRoute_eq_run] at hr
  exact h r (mem_run_nil hr).1

/-- A relative path is resolved in the directory that `getcwd` gives. -/
def resolved (cwd : Option Cwd) (p : Path) : Path where
  absolute := (p.absolutePath cwd).absolute
  route := resolveRoute (p.absolutePath cwd).route
  components := components_resolveRoute (p.absolutePath cwd).components

/-! ## What is parsed -/

def segments (path : Str) : List Str := (strip path [blank]).splitOn pathSep

def isAbsolute (path : Str) : Bool := (strip path [blank]).head? = some pathSep

section Parse
variable {cwd : Option Cwd} {path : Str} {p : Path}

@[simp] theorem parse_route (path : Str) : (parse path).route = run keep [] (segments path) := by
  unfold parse segments
  by_cases hpath : strip path [blank] = []
  · simp [hpath, default, step, keep]
  · simp [hpath, routes_eq_run]

@[simp] theorem parse_absolute (path : Str) : (parse path).absolute = isAbsolute path := by
  unfold parse isAbsolute
  by_cases hpath : strip path [blank] = []
  · simp [hpath, default]
  · simp [hpath]

theorem absolutePath_of_absolute (h : p.absolute = true) : p.absolutePath cwd = p := if_pos h

theorem absolutePath_route (h : p.absolute = false) :
    (p.absolutePath cwd).route = (parse (cwdText cwd)).route ++ p.route := by
  simp [absolutePath, HDiv.hDiv, Div.div, div, h]

theorem absolutePath_absolute (h : p.absolute = false) :
    (p.absolutePath cwd).absolute = isAbsolute (cwdText cwd) := by
  simp [absolutePath, HDiv.hDiv, Div.div, div, h]

theorem isAbsolute_cwdText : isAbsolute (cwdText cwd) = cwd.isSome := by
  cases cwd with
  | none => rfl
  | some d =>
    have hsep : pathSep ∉ [blank] := by decide
    have hhead := strip_head d.absolute hsep
    simp [isAbsolute, cwdText, hhead]

/-- The segments of a text from where its path begins. -/
def segmentsFrom (cwd : Option Cwd) (path : Str) : List Str :=
  if isAbsolute path then segments path else segments (cwdText cwd) ++ segments path

theorem absolutePath_parse_route :
    ((parse path).absolutePath cwd).route = run keep [] (segmentsFrom cwd path) := by
  unfold segmentsFrom
  cases h : isAbsolute path with
  | true => simp [absolutePath_of_absolute, h]
  | false =>
    rw [absolutePath_route ((parse_absolute path).trans h), parse_route, parse_route]
    simp [run_append, ← run_keep]

theorem resolve_keep (l : List Str) : run resolve [] (run keep [] l) = run resolve [] l := by
  have hkeep : run keep [] l = l.filter (resolve · ≠ .skip) := by
    rw [run_of_no_pop fun r _ => keep_ne_pop r, List.nil_append]
    refine List.filter_congr fun r _ => ?_
    unfold keep resolve
    split_ifs <;> simp
  rw [hkeep, run_filter]

theorem resolved_route :
    (p.resolved cwd).route = run resolve [] (p.absolutePath cwd).route := by
  rw [← run_congr fun r hr => climb_eq_resolve ((p.absolutePath cwd).components r hr)]
  exact resolveRoute_eq_run _

/-- From the segments of the text on. -/
theorem resolved_parse_route :
    ((parse path).resolved cwd).route = run resolve [] (segmentsFrom cwd path) := by
  rw [resolved_route, absolutePath_parse_route, resolve_keep]

theorem resolved_absolute : (p.resolved cwd).absolute = (p.absolute || cwd.isSome) := by
  cases h : p.absolute with
  | true => simp [resolved, absolutePath_of_absolute h, h]
  | false => simp [resolved, absolutePath_absolute h, isAbsolute_cwdText]

/-- A resolved path with nothing to put in front of it is resolved for good. -/
theorem resolved_of_absolutePath_eq {cwd' : Option Cwd}
    (h : (p.resolved cwd).absolutePath cwd' = p.resolved cwd) :
    (p.resolved cwd).resolved cwd' = p.resolved cwd := by
  refine Path.ext ?_ ?_
  · change ((p.resolved cwd).absolutePath cwd').absolute = (p.resolved cwd).absolute
    rw [h]
  · rw [resolved_route, h, resolved_route, run_run]

theorem resolve_eq_push {r : Str} (h : resolve r = .push) :
    r ≠ [] ∧ r ≠ currentSegment ∧ r ≠ parentSegment := by
  unfold resolve at h
  split_ifs at h with hidle hparent
  rw [not_or] at hidle
  exact ⟨hidle.1, hidle.2, hparent⟩

theorem mem_resolved {r : Str} (h : r ∈ (p.resolved cwd).route) :
    r ≠ [] ∧ r ≠ currentSegment ∧ r ≠ parentSegment := by
  rw [resolved_route] at h
  exact resolve_eq_push (mem_run_nil h).2

end Parse

/-! ## Every path is resolved as on a stack -/

/-- The path is what the stack leaves of its components, and resolved for good: a second time it
stays as it is, also in another directory if it is absolute. -/
structure OnStack (cwd : Option Cwd) (p : Path) : Prop where
  route : (p.resolved cwd).route = run resolve [] (p.absolutePath cwd).route
  absolute : (p.resolved cwd).absolute = (p.absolutePath cwd).absolute
  clean : ∀ r ∈ (p.resolved cwd).route, r ≠ currentSegment ∧ r ≠ parentSegment
  again : ∀ cwd', cwd' = cwd ∨ (p.resolved cwd).absolute = true →
    (p.resolved cwd).resolved cwd' = p.resolved cwd

theorem resolved_again {cwd cwd' : Option Cwd} {p : Path}
    (h : cwd' = cwd ∨ (p.resolved cwd).absolute = true) :
    (p.resolved cwd).resolved cwd' = p.resolved cwd := by
  refine resolved_of_absolutePath_eq ?_
  cases habsolute : (p.resolved cwd).absolute with
  | true => exact absolutePath_of_absolute habsolute
  | false =>
    obtain rfl : cwd' = cwd := h.resolve_right fun htrue => by simp [habsolute] at htrue
    -- Nothing is in front of a path that stays relative: `getcwd` has failed.
    have hfails : cwd' = none := by
      rw [resolved_absolute, Bool.or_eq_false_iff] at habsolute
      simpa using habsolute.2
    refine Path.ext ?_ ?_
    · rw [absolutePath_absolute habsolute, habsolute, isAbsolute_cwdText, hfails]
      rfl
    · rw [absolutePath_route habsolute, parse_route, hfails]
      rfl

/-- Every path, and every text from its segments. -/
theorem resolved_onStack (cwd : Option Cwd) :
    (∀ p, OnStack cwd p) ∧ ∀ path,
      ((parse path).resolved cwd).route = run resolve [] (segmentsFrom cwd path) := by
  refine ⟨fun p => ?_, fun path => resolved_parse_route⟩
  exact ⟨resolved_route, rfl, fun r hr => (mem_resolved hr).2, fun cwd' => resolved_again⟩

end Path
end Msopcom
