import Mathlib.Data.List.Flatten
import Msopcom.Path

set_option autoImplicit false

/-!
# The text of a path, read again

A text is stripped of the blanks around it before it is read. The separators and current directories
at its ends are dropped behind that, so that a blank may come to the end of the text of a path.
-/
namespace Msopcom.Path
open StackFold

/-! ## The state of a file -/

/-- A string of C ends in front of its first null. -/
def cStr (text : Str) : Str := text.takeWhile (· ≠ 0)

section
variable {σ : Type}

/-- `stat` gives the state of the file that a text names, or fails. -/
def getStat (stat : Str → Option σ) (p : Path) : Option σ := stat (cStr p.toString)

end

/-! ## What is written -/

section Written
variable {slices : List Str} {s : Str} {p : Path}

theorem join_cons (s : Str) (rest : List Str) :
    join (s :: rest) [pathSep] = s ++ (rest.map (pathSep :: ·)).flatten := by
  change rest.foldl (fun ret r => ret ++ [pathSep] ++ r) s = _
  induction rest generalizing s with
  | nil => simp
  | cons r rest ih => simp

theorem join_eq_intercalate : join slices [pathSep] = [pathSep].intercalate slices := by
  induction slices with
  | nil => rfl
  | cons s rest ih =>
    cases rest with
    | nil => simp [join_cons]
    | cons r rest =>
      rw [List.intercalate_cons_of_ne_nil (List.cons_ne_nil r rest), ← ih]
      simp [join_cons]

theorem keep_component {r : Str} (h : IsComponent r) : keep r = .push :=
  if_neg (not_or.mpr ⟨h.1, h.2.1⟩)

theorem run_keep_join (h : ∀ r ∈ slices, IsComponent r) :
    run keep [] ((join slices [pathSep]).splitOn pathSep) = slices := by
  cases slices with
  | nil => rfl
  | cons r rest =>
    have hpush : ∀ s ∈ r :: rest, keep s = .push := fun s hs => keep_component (h s hs)
    rw [join_eq_intercalate, List.splitOn_intercalate pathSep (fun s hs => (h s hs).2.2)
      (List.cons_ne_nil r rest), run_of_push [] hpush, List.nil_append]

/-- The segments of the text of a path are its components. -/
theorem run_keep_toString : run keep [] (p.toString.splitOn pathSep) = p.route := by
  unfold toString
  split_ifs with habsolute hroute
  · rw [List.singleton_append, splitOn_sep, run_cons, step_skip (by rfl)]
    exact run_keep_join p.components
  · rw [hroute]
    rfl
  · exact run_keep_join p.components

theorem join_head {r : Str} (hr : r ≠ []) (rest : List Str) :
    (join (r :: rest) [pathSep]).head? = r.head? := by
  rw [join_cons, List.head?_append_of_ne_nil _ hr]

theorem join_last {r : Str} (hr : r ≠ []) (others : List Str) :
    (join (others ++ [r]) [pathSep]).getLast? = r.getLast? := by
  cases others with
  | nil => simp [join_cons]
  | cons s others =>
    rw [List.cons_append, join_cons, List.map_append, List.flatten_append]
    simp [List.getLast?_cons, List.getLast?_append, List.getLast?_eq_some_getLast hr]

/-- A text of a path has an end of a component, a separator or a dot at each end. -/
theorem toString_head : p.toString.head? =
    if p.absolute then some pathSep
    else if p.route = [] then some 46 else p.route.head?.bind List.head? := by
  unfold toString
  split_ifs with habsolute hroute
  · rfl
  · rfl
  · obtain ⟨r, rest, hcons⟩ := List.exists_cons_of_ne_nil hroute
    have hr : IsComponent r := p.components r (hcons ▸ List.mem_cons_self)
    rw [hcons, join_head hr.1]
    rfl

theorem toString_last : p.toString.getLast? =
    if p.route = [] then some (if p.absolute then pathSep else 46)
    else p.route.getLast?.bind List.getLast? := by
  by_cases hroute : p.route = []
  · cases habsolute : p.absolute with
    | true => simp [toString, hroute, habsolute, join]
    | false => simp [toString, hroute, habsolute, currentSegment]
  · obtain ⟨others, r, hconcat⟩ := (List.eq_nil_or_concat' p.route).resolve_left hroute
    have hr : IsComponent r := p.components r (hconcat ▸ List.mem_concat_self)
    have hlast : (join p.route [pathSep]).getLast? = r.getLast? := hconcat ▸ join_last hr.1 others
    rw [if_neg hroute, hconcat, List.getLast?_concat]
    cases habsolute : p.absolute with
    | true =>
      have hr' : r.getLast? = some (r.getLast hr.1) := List.getLast?_eq_some_getLast hr.1
      simp [toString, habsolute, hlast, List.getLast?_cons, hr']
    | false => simp [toString, hroute, habsolute, hlast]

theorem toString_ne_nil : p.toString ≠ [] := by
  unfold toString
  split_ifs with habsolute hroute
  · exact List.cons_ne_nil _ _
  · exact List.cons_ne_nil _ _
  · obtain ⟨r, rest, hcons⟩ := List.exists_cons_of_ne_nil hroute
    have hr : IsComponent r := p.components r (hcons ▸ List.mem_cons_self)
    rw [hcons, join_cons]
    exact List.append_ne_nil_of_left_ne_nil hr.1 _

end Written

/-! ## What is read again -/

section Read
variable {p : Path} {m cs : Str}

theorem bare_iff (h : m ≠ []) :
    Bare [blank] m ↔ m.getLast? ≠ some blank ∧ m.head? ≠ some blank := by
  constructor
  · rintro ⟨⟨c, hhead, hc⟩, d, hlast, hd⟩
    rw [hhead, hlast]
    simp_all
  · rintro ⟨hlast, hhead⟩
    have hfirst' : m.head? = some (m.head h) := List.head?_eq_some_head h
    have hlast' : m.getLast? = some (m.getLast h) := List.getLast?_eq_some_getLast h
    refine ⟨⟨m.head h, hfirst', ?_⟩, m.getLast h, hlast', ?_⟩
    · simpa [hfirst'] using hhead
    · simpa [hlast'] using hlast

/-- Neither end of the text is a blank. -/
theorem bare_toString_iff : Bare [blank] p.toString ↔
    (∀ r, p.route.getLast? = some r → r.getLast? ≠ some blank) ∧
      (p.absolute = false → ∀ r, p.route.head? = some r → r.head? ≠ some blank) := by
  rw [bare_iff toString_ne_nil, toString_head, toString_last]
  by_cases hroute : p.route = []
  · cases p.absolute <;> simp [hroute, blank, pathSep]
  · cases p.absolute <;> simp [hroute, blank, pathSep, Option.bind_eq_some_iff]

/-- A text that nothing is stripped of is read as the path it was written for. -/
theorem parse_toString (h : Bare [blank] p.toString) : parse p.toString = p := by
  have hstrip : strip p.toString [blank] = p.toString := strip_of_bare h
  refine Path.ext ?_ ?_
  · rw [parse_absolute, isAbsolute, hstrip, toString_head]
    cases habsolute : p.absolute with
    | true => simp
    | false =>
      cases hroute : p.route with
      | nil => simp [pathSep]
      | cons r rest =>
        have hr : IsComponent r := p.components r (hroute ▸ List.mem_cons_self)
        have hsep : r.head? ≠ some pathSep := fun hhead => hr.2.2 (List.mem_of_mem_head? hhead)
        simp [hsep]
  · rw [parse_route, segments, hstrip, run_keep_toString]

/-- How many characters of a text are in segments. -/
def weight (text : Str) : ℕ := (text.filter (· ≠ pathSep)).length

theorem weight_append (a b : Str) : weight (a ++ b) = weight a + weight b := by simp [weight]

theorem weight_blanks {a : Str} (ha : ∀ x ∈ a, x ∈ [blank]) : weight a = a.length := by
  have hfilter : a.filter (· ≠ pathSep) = a := by
    refine List.filter_eq_self.mpr fun x hx => ?_
    have hblank : x = blank := List.mem_singleton.mp (ha x hx)
    subst hblank
    decide
  rw [weight, hfilter]

theorem weight_eq (text : Str) : weight text = (text.splitOn pathSep).flatten.length := by
  rw [flatten_splitOn, weight]

/-- The components have no more than is in the segments. -/
theorem length_parse_le (text : Str) :
    (parse text).route.flatten.length ≤ weight (strip text [blank]) := by
  rw [parse_route, weight_eq, run_of_no_pop fun r _ => keep_ne_pop r, List.nil_append]
  exact (List.filter_sublist.flatten).length_le

/-- Nothing of the components is lost in the text. -/
theorem weight_toString (h : p.route ≠ []) : weight p.toString = p.route.flatten.length := by
  have hjoin : (join p.route [pathSep]).splitOn pathSep = p.route := by
    rw [join_eq_intercalate]
    exact List.splitOn_intercalate pathSep (fun r hr => (p.components r hr).2.2) h
  rw [weight_eq]
  cases habsolute : p.absolute with
  | true => simp [toString, habsolute, splitOn_sep, hjoin]
  | false => simp [toString, habsolute, h, hjoin]

/-- A path is lost if something is stripped of its text. -/
theorem bare_of_parse_toString (h : (parse p.toString).route = p.route) :
    Bare [blank] p.toString := by
  by_cases hroute : p.route = []
  · rw [bare_toString_iff]
    simp [hroute]
  have hweight := weight_toString hroute
  have hle := length_parse_le p.toString
  rw [h, ← hweight] at hle
  by_cases hall : ∀ x ∈ p.toString, x ∈ [blank]
  · have hpos : 0 < p.toString.length := List.length_pos_iff.mpr toString_ne_nil
    rw [strip_of_all hall, weight_blanks hall] at hle
    exact absurd hle (Nat.not_le.mpr hpos)
  · obtain ⟨a, b, htext, ha, hb, hbare⟩ := exists_strip hall
    have hsum := congrArg weight htext
    rw [weight_append, weight_append, weight_blanks ha, weight_blanks hb] at hsum
    obtain rfl : a = [] := List.length_eq_zero_iff.mp (by omega)
    obtain rfl : b = [] := List.length_eq_zero_iff.mp (by omega)
    rw [List.nil_append, List.append_nil] at htext
    rw [htext]
    exact hbare

/-- A path whose text names the same components and the same file when it is read again. -/
structure RoundTrip (p : Path) : Prop where
  route : (parse p.toString).route = p.route
  absolute : (parse p.toString).absolute = p.absolute
  file : ∀ {σ : Type} (stat : Str → Option σ), getStat stat (parse p.toString) = getStat stat p

theorem roundTrip_iff_bare : RoundTrip p ↔ Bare [blank] p.toString := by
  constructor
  · exact fun h => bare_of_parse_toString h.route
  · intro h
    have hparse := parse_toString h
    exact ⟨by rw [hparse], by rw [hparse], fun stat => by rw [hparse]⟩

end Read

/-! ## The texts that come back -/

/-- Of what is left of the segments, the last one does not end in a blank, and, in a relative path,
the first one does not begin with one. -/
structure Tidy (act : Str → Action) (absolute : Bool) (segments : List Str) : Prop where
  last : ∀ others r rest, segments = others ++ r :: rest → Balanced act rest →
    r.getLast? ≠ some blank
  first : absolute = false → ∀ others r rest, segments = others ++ r :: rest →
    Spent act others → Standing act rest → r.head? ≠ some blank

section Tidy
variable {act : Str → Action} {l : List Str} {p : Path}

/-- A path of what is left comes back if its segments are tidy. -/
theorem roundTrip_iff_tidy
    (hact : ∀ r, act r ≠ .push → r.getLast? ≠ some blank ∧ r.head? ≠ some blank)
    (hroute : p.route = run act [] l) : RoundTrip p ↔ Tidy act p.absolute l := by
  rw [roundTrip_iff_bare, bare_toString_iff, hroute]
  constructor
  · rintro ⟨hlast, hfirst⟩
    refine ⟨fun others r rest hl hrest => ?_, fun habsolute others r rest hl hothers hrest => ?_⟩
    · by_cases hpush : act r = .push
      · exact hlast r (getLast?_run.mpr ⟨others, rest, hl, hpush, hrest⟩)
      · exact (hact r hpush).1
    · by_cases hpush : act r = .push
      · exact hfirst habsolute r (head?_run.mpr ⟨others, rest, hl, hpush, hothers, hrest⟩)
      · exact (hact r hpush).2
  · rintro ⟨hlast, hfirst⟩
    refine ⟨fun r hr => ?_, fun habsolute r hr => ?_⟩
    · obtain ⟨others, rest, hl, _, hrest⟩ := getLast?_run.mp hr
      exact hlast others r rest hl hrest
    · obtain ⟨others, rest, hl, _, hothers, hrest⟩ := head?_run.mp hr
      exact hfirst habsolute others r rest hl hothers hrest

theorem ends_of_keep {r : Str} (h : keep r ≠ .push) :
    r.getLast? ≠ some blank ∧ r.head? ≠ some blank := by
  unfold keep at h
  split_ifs at h with hidle
  · rcases hidle with rfl | rfl <;> decide
  · exact absurd rfl h

theorem ends_of_resolve {r : Str} (h : resolve r ≠ .push) :
    r.getLast? ≠ some blank ∧ r.head? ≠ some blank := by
  unfold resolve at h
  split_ifs at h with hidle hparent
  · rcases hidle with rfl | rfl <;> decide
  · subst hparent
    decide
  · exact absurd rfl h

/-- Segments with no blank at an end are tidy. -/
theorem tidy_of_trimmed {absolute : Bool}
    (h : ∀ r ∈ l, r.getLast? ≠ some blank ∧ r.head? ≠ some blank) : Tidy act absolute l := by
  refine ⟨fun others r rest hl _ => ?_, fun _ others r rest hl _ _ => ?_⟩
  · exact (h r (by simp [hl])).1
  · exact (h r (by simp [hl])).2

variable {cwd : Option Cwd} {path : Str}

theorem roundTrip_parse_iff :
    RoundTrip (parse path) ↔ Tidy keep (isAbsolute path) (segments path) := by
  rw [← parse_absolute]
  exact roundTrip_iff_tidy (fun _ => ends_of_keep) (parse_route path)

theorem roundTrip_resolved_iff : RoundTrip ((parse path).resolved cwd) ↔
    Tidy resolve (isAbsolute path || cwd.isSome) (segmentsFrom cwd path) := by
  rw [← parse_absolute, ← resolved_absolute]
  exact roundTrip_iff_tidy (fun _ => ends_of_resolve) resolved_parse_route

end Tidy

/-- The path of a text comes back, as it is and resolved. -/
structure RoundTrips (cwd : Option Cwd) (path : Str) : Prop where
  parsed : RoundTrip (parse path)
  resolved : RoundTrip ((parse path).resolved cwd)

theorem roundTrips_iff (cwd : Option Cwd) (path : Str) :
    RoundTrips cwd path ↔ Tidy keep (isAbsolute path) (segments path) ∧
      Tidy resolve (isAbsolute path || cwd.isSome) (segmentsFrom cwd path) := by
  rw [← roundTrip_parse_iff, ← roundTrip_resolved_iff]
  exact ⟨fun h => ⟨h.parsed, h.resolved⟩, fun h => ⟨h.1, h.2⟩⟩

/-- `a /` is the directory `a ` with a blank at its end, and its text `a ` is read as `a`. -/
theorem not_roundTrips_blankBeforeSep : ¬ RoundTrips (some ⟨[pathSep], rfl⟩) [97, 32, 47] := by
  intro h
  have htext : (parse [97, 32, 47]).toString = [97, 32] := by
    unfold toString
    rw [parse_absolute, parse_route]
    decide
  have hroute := h.parsed.route
  rw [htext, parse_route, parse_route] at hroute
  exact absurd hroute (by decide)

/-- A text comes back if no segment, of it or of the working directory, has a blank at an end. -/
theorem roundTrips_of_trimmed {cwd : Option Cwd} {path : Str}
    (hpath : ∀ r ∈ segments path, r.getLast? ≠ some blank ∧ r.head? ≠ some blank)
    (hcwd : ∀ r ∈ segments (cwdText cwd), r.getLast? ≠ some blank ∧ r.head? ≠ some blank) :
    RoundTrips cwd path := by
  refine ⟨roundTrip_parse_iff.mpr (tidy_of_trimmed hpath),
    roundTrip_resolved_iff.mpr (tidy_of_trimmed fun r hr => ?_)⟩
  unfold segmentsFrom at hr
  split_ifs at hr with habsolute
  · exact hpath r hr
  · exact (List.mem_append.mp hr).elim (hcwd r) (hpath r)

end Msopcom.Path
