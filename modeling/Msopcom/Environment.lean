import Mathlib.Data.List.Nodup
import Msopcom.FuelLoop

set_option autoImplicit false

/-!
# The environment of a simulator

The variables that a program defines are joined with those of the system. The scan goes over the
system's entries by hand.
-/
namespace Msopcom.Environment
open FuelLoop

abbrev Text := List UInt8

def text (s : String) : Text := s.toList.map fun c => UInt8.ofNat c.toNat

def needJoinEnv : List Text := [text "LD_PRELOAD", text "LD_LIBRARY_PATH", text "PATH"]

/-- A `std::map` of variables, in the order of its iteration. -/
structure Envs where
  entries : List (Text × Text)
  distinct : (entries.map Prod.fst).Nodup

def Envs.find (envs : Envs) (key : Text) : Option Text :=
  (envs.entries.find? fun e => e.1 = key).map Prod.snd

def Envs.erase (envs : Envs) (key : Text) : Envs where
  entries := envs.entries.filter fun e => e.1 ≠ key
  distinct := envs.distinct.sublist (List.filter_sublist.map Prod.fst)

/-- `key + "=" + value`. -/
def entryOf (key value : Text) : Text := key ++ 61 :: value

/-- The variables of the scan; `systemEnvs` are the entries from the pointer on. -/
structure Scan where
  systemEnvs : List Text
  envs : Envs
  outEnv : List Text

/-- One round of the loop. -/
def round (combineMode : Bool) (s : Scan) : LoopStep Scan Scan :=
  match s.systemEnvs with
  | [] => .done s
  | entry :: systemEnvs =>
    if !combineMode then .next { s with systemEnvs, outEnv := s.outEnv ++ [entry] }
    else
      let pos := entry.idxOf 61
      if pos = entry.length then .next s
      else
        let key := entry.take pos
        match if needJoinEnv.contains key then s.envs.find key else none with
        | some value =>
          let joined := if pos = entry.length - 1 then entryOf key value ++ entry.drop (pos + 1)
            else entryOf key value ++ 58 :: entry.drop (pos + 1)
          .next ⟨systemEnvs, s.envs.erase key, s.outEnv ++ [joined]⟩
        | none => .next { s with systemEnvs, outEnv := s.outEnv ++ [entry] }

inductive Fault
  | outOfFuel
  deriving DecidableEq, Repr

def scan (combineMode : Bool) (s : Scan) : Except Fault (LoopStep Scan Scan) :=
  .ok (round combineMode s)

/-- The environment that is left in `outEnv`, when the scan ends. -/
def joinWithSystemEnv (fuel : ℕ) (systemEnvs : List Text) (envs : Envs) (outEnv : List Text)
    (combineMode : Bool) : Except Fault (List Text) :=
  (runLoop .outOfFuel (scan combineMode) fuel ⟨systemEnvs, envs, outEnv⟩).map fun s =>
    s.outEnv ++ s.envs.entries.map fun pair => entryOf pair.1 pair.2

def Returns (systemEnvs : List Text) (envs : Envs) (outEnv : List Text) (combineMode : Bool)
    (out : List Text) : Prop :=
  ∃ fuel, joinWithSystemEnv fuel systemEnvs envs outEnv combineMode = .ok out

/-! ## What joining means -/

def keyOf (entry : Text) : Text := entry.take (entry.idxOf 61)

def WellFormed (entry : Text) : Prop := 61 ∈ entry

instance (entry : Text) : Decidable (WellFormed entry) := inferInstanceAs (Decidable (_ ∈ _))

/-- The program sets a variable of the system that is to be joined. -/
def Joins (envs : Envs) (entry : Text) : Prop :=
  keyOf entry ∈ needJoinEnv ∧ keyOf entry ∈ envs.entries.map Prod.fst

instance (envs : Envs) (entry : Text) : Decidable (Joins envs entry) :=
  decidable_of_iff (needJoinEnv.contains (keyOf entry) ∧
    (envs.entries.map Prod.fst).contains (keyOf entry)) (by simp [Joins])

/-- A variable of the program that is not joined with one of the system. -/
def Remains (systemEnvs : List Text) (pair : Text × Text) : Prop :=
  ¬ (pair.1 ∈ needJoinEnv ∧ pair.1 ∈ systemEnvs.map keyOf)

instance (systemEnvs : List Text) (pair : Text × Text) : Decidable (Remains systemEnvs pair) :=
  decidable_of_iff (¬ (needJoinEnv.contains pair.1 ∧ (systemEnvs.map keyOf).contains pair.1))
    (by simp [Remains])

def HasKey (key entry : Text) : Prop := key ++ [61] <+: entry

instance (key entry : Text) : Decidable (HasKey key entry) :=
  inferInstanceAs (Decidable (_ <+: _))

/-- What the entries that are added have to be. -/
structure JoinsCorrectly (systemEnvs : List Text) (envs : Envs) (added : List Text) : Prop where
  once : ∀ key ∈ needJoinEnv, key ∈ envs.entries.map Prod.fst → added.countP (HasKey key) = 1
  ahead : ∀ key ∈ needJoinEnv, ∀ value old, (key, value) ∈ envs.entries →
    entryOf key old ∈ systemEnvs → old ≠ [] → entryOf key (value ++ 58 :: old) ∈ added
  alone : ∀ key ∈ needJoinEnv, ∀ value, (key, value) ∈ envs.entries →
    (∀ old, entryOf key old ∈ systemEnvs → old = []) → entryOf key value ∈ added
  others : (systemEnvs.filter fun entry => WellFormed entry ∧ ¬ Joins envs entry).Sublist added
  appended : ∃ front, front.length = systemEnvs.length ∧
    added = front ++ (envs.entries.filter fun pair => Remains systemEnvs pair).map fun pair =>
      entryOf pair.1 pair.2

/-! ## Entries -/

variable {key value old entry : Text} {envs : Envs} {systemEnvs : List Text}

theorem idxOf_entryOf (h : 61 ∉ key) (value : Text) :
    (entryOf key value).idxOf 61 = key.length := by
  rw [entryOf, List.idxOf_append_of_notMem h, List.idxOf_cons_self, Nat.add_zero]

theorem keyOf_entryOf (h : 61 ∉ key) (value : Text) : keyOf (entryOf key value) = key := by
  rw [keyOf, idxOf_entryOf h, entryOf, List.take_left]

theorem wellFormed_entryOf (key value : Text) : WellFormed (entryOf key value) :=
  List.mem_append_right key List.mem_cons_self

theorem exists_entryOf (h : WellFormed entry) :
    ∃ key value, 61 ∉ key ∧ entry = entryOf key value := by
  obtain ⟨key, value, heq, hkey⟩ := List.eq_append_cons_of_mem h
  exact ⟨key, value, hkey, heq⟩

theorem mem_needJoinEnv (h : key ∈ needJoinEnv) : 61 ∉ key := by
  have hall : ∀ key ∈ needJoinEnv, 61 ∉ key := by decide
  exact hall key h

/-- A key begins an entry of its own or one of a key that it begins. -/
theorem hasKey_entryOf_iff {k : Text} (h : 61 ∉ key) :
    HasKey key (entryOf k value) ↔ k = key ∨ HasKey key k := by
  constructor
  · intro hstart
    by_cases hlen : key.length < k.length
    · refine Or.inr (List.prefix_of_prefix_length_le hstart (List.prefix_append k _) ?_)
      rw [List.length_append, List.length_singleton]
      omega
    · have hk : k <+: key := by
        have hkey : key <+: entryOf k value := (List.prefix_append key [61]).trans hstart
        exact List.prefix_of_prefix_length_le (List.prefix_append k _) hkey (not_lt.mp hlen)
      obtain ⟨rest, rfl⟩ := hk
      cases rest with
      | nil => exact Or.inl (List.append_nil k).symm
      | cons b rest =>
        -- the byte behind `k` is the `=` of the entry
        have hb : b = 61 := by
          rw [HasKey, entryOf, List.append_assoc, List.prefix_append_right_inj] at hstart
          exact (List.cons_prefix_cons.mp hstart).1
        exact absurd (List.mem_append_right k (hb ▸ List.mem_cons_self)) h
  · intro hkey
    obtain rfl | hstart := hkey
    · refine ⟨value, ?_⟩
      rw [entryOf, List.append_assoc]
      rfl
    · exact hstart.trans (List.prefix_append k _)

theorem hasKey_of_wellFormed (h : 61 ∉ key) (hentry : WellFormed entry) :
    HasKey key entry ↔ keyOf entry = key := by
  obtain ⟨k, value, hk, rfl⟩ := exists_entryOf hentry
  rw [hasKey_entryOf_iff h, keyOf_entryOf hk]
  refine or_iff_left fun hstart => hk ?_
  exact hstart.subset (List.mem_append_right key (List.mem_singleton_self 61))

/-! ## The map of the program -/

theorem find?_key {e : Text × Text} (h : (envs.entries.find? fun e => e.1 = key) = some e) :
    e.1 = key ∧ e ∈ envs.entries := by
  have hkey := List.find?_some h
  exact ⟨by simpa using hkey, List.mem_of_find?_eq_some h⟩

theorem find_eq_some_iff : envs.find key = some value ↔ (key, value) ∈ envs.entries := by
  rw [Envs.find, Option.map_eq_some_iff]
  constructor
  · intro h
    obtain ⟨e, hfind, rfl⟩ := h
    rw [← (find?_key hfind).1]
    exact (find?_key hfind).2
  · intro h
    have hex : (envs.entries.find? fun e => e.1 = key).isSome = true :=
      List.find?_isSome.mpr ⟨_, h, decide_eq_true rfl⟩
    obtain ⟨e, hfind⟩ := Option.isSome_iff_exists.mp hex
    have heq : e = (key, value) :=
      List.inj_on_of_nodup_map envs.distinct (find?_key hfind).2 h (find?_key hfind).1
    exact ⟨e, hfind, congrArg Prod.snd heq⟩

theorem exists_value (h : key ∈ envs.entries.map Prod.fst) :
    ∃ value, (key, value) ∈ envs.entries := by
  obtain ⟨e, he, rfl⟩ := List.mem_map.mp h
  exact ⟨e.2, he⟩

theorem find_erase_of_ne {k : Text} (h : key ≠ k) : (envs.erase k).find key = envs.find key := by
  unfold Envs.find Envs.erase
  dsimp only
  rw [List.find?_filter]
  congr 2
  funext e
  by_cases he : e.1 = key
  · simp [he, h]
  · simp [he]

/-! ## One round -/

/-- What becomes of an entry of the system. -/
def joinEntry (envs : Envs) (entry : Text) : Text :=
  match if needJoinEnv.contains (keyOf entry) then envs.find (keyOf entry) else none with
  | some value =>
    let old := entry.drop (entry.idxOf 61 + 1)
    entryOf (keyOf entry) (if old = [] then value else value ++ 58 :: old)
  | none => entry

def leave (envs : Envs) (entry : Text) : Envs :=
  if Joins envs entry then envs.erase (keyOf entry) else envs

theorem joins_iff {envs : Envs} : Joins envs entry ↔
    ∃ value, (if needJoinEnv.contains (keyOf entry) then envs.find (keyOf entry) else none) =
      some value := by
  unfold Joins
  by_cases h : keyOf entry ∈ needJoinEnv
  · rw [if_pos (List.contains_iff_mem.mpr h), and_iff_right h]
    constructor
    · intro hkey
      obtain ⟨value, hvalue⟩ := exists_value hkey
      exact ⟨value, find_eq_some_iff.mpr hvalue⟩
    · intro hfind
      obtain ⟨value, hvalue⟩ := hfind
      exact List.mem_map_of_mem (find_eq_some_iff.mp hvalue)
  · rw [if_neg (mt List.contains_iff_mem.mp h)]
    exact iff_of_false (fun hboth => h hboth.1) fun hfind => by cases hfind.choose_spec

theorem drop_entryOf (key value : Text) : (entryOf key value).drop (key.length + 1) = value := by
  rw [entryOf, List.drop_append]
  simp

theorem round_entryOf (envs : Envs) (outEnv : List Text) (h : WellFormed entry) :
    round true ⟨entry :: systemEnvs, envs, outEnv⟩ =
      .next ⟨systemEnvs, leave envs entry, outEnv ++ [joinEntry envs entry]⟩ := by
  obtain ⟨key, old, hkey, rfl⟩ := exists_entryOf h
  have hpos := idxOf_entryOf hkey old
  have hlen : (entryOf key old).length = key.length + 1 + old.length := by
    rw [entryOf, List.length_append, List.length_cons]
    omega
  have hnpos : ¬ (entryOf key old).idxOf 61 = (entryOf key old).length := by
    rw [hpos, hlen]
    omega
  have hlast : key.length = key.length + 1 + old.length - 1 ↔ old = [] := by
    rw [← List.length_eq_zero_iff]
    omega
  have hjoins : Joins envs (entryOf key old) ↔ _ := joins_iff
  have hkeyOf : (entryOf key old).take key.length = key := by
    rw [entryOf, List.take_left]
  unfold round leave joinEntry
  dsimp only
  rw [keyOf_entryOf hkey] at hjoins ⊢
  rw [Bool.not_true, if_neg Bool.false_ne_true, if_neg hnpos, hpos, hlen, hkeyOf, drop_entryOf]
  cases hfind : (if needJoinEnv.contains key then envs.find key else none) with
  | none =>
    rw [hfind] at hjoins
    rw [if_neg fun hboth => by cases (hjoins.mp hboth).choose_spec]
  | some value =>
    rw [hfind] at hjoins
    dsimp only
    rw [if_pos (hjoins.mpr ⟨value, rfl⟩)]
    by_cases hold : old = []
    · rw [if_pos (hlast.mpr hold), if_pos hold, hold, List.append_nil]
    · rw [if_neg (mt hlast.mp hold), if_neg hold, entryOf, entryOf, List.append_assoc]
      rfl

theorem round_illFormed (envs : Envs) (outEnv : List Text) (h : ¬ WellFormed entry) :
    round true ⟨entry :: systemEnvs, envs, outEnv⟩ = .next ⟨entry :: systemEnvs, envs, outEnv⟩ := by
  have hpos : entry.idxOf 61 = entry.length := List.idxOf_eq_length h
  unfold round
  dsimp only
  rw [Bool.not_true, if_neg Bool.false_ne_true, if_pos hpos]

/-! ## The scan -/

/-- The entries of the system as they are joined one after the other. -/
def joinAll (envs : Envs) : List Text → List Text
  | [] => []
  | entry :: systemEnvs => joinEntry envs entry :: joinAll (leave envs entry) systemEnvs

theorem ends_combined (h : ∀ entry ∈ systemEnvs, WellFormed entry) (envs : Envs)
    (outEnv : List Text) (r : Scan) :
    Ends .outOfFuel (scan true) ⟨systemEnvs, envs, outEnv⟩ r ↔
      r = ⟨[], systemEnvs.foldl leave envs, outEnv ++ joinAll envs systemEnvs⟩ := by
  induction systemEnvs generalizing envs outEnv with
  | nil =>
    rw [joinAll, List.append_nil]
    exact ends_done rfl
  | cons entry systemEnvs ih =>
    have hentry : WellFormed entry := h entry List.mem_cons_self
    have hround : scan true ⟨entry :: systemEnvs, envs, outEnv⟩ =
        .ok (.next ⟨systemEnvs, leave envs entry, outEnv ++ [joinEntry envs entry]⟩) :=
      congrArg Except.ok (round_entryOf envs outEnv hentry)
    rw [ends_next hround, ih fun entry' h' => h entry' (List.mem_cons_of_mem entry h'), joinAll,
      List.append_assoc]
    rfl

theorem ends_separate (systemEnvs : List Text) (envs : Envs) (outEnv : List Text) (r : Scan) :
    Ends .outOfFuel (scan false) ⟨systemEnvs, envs, outEnv⟩ r ↔
      r = ⟨[], envs, outEnv ++ systemEnvs⟩ := by
  induction systemEnvs generalizing outEnv with
  | nil =>
    rw [List.append_nil]
    exact ends_done rfl
  | cons entry systemEnvs ih =>
    have hround : scan false ⟨entry :: systemEnvs, envs, outEnv⟩ =
        .ok (.next ⟨systemEnvs, envs, outEnv ++ [entry]⟩) := rfl
    rw [ends_next hround, ih, List.append_assoc]
    rfl

/-- The scan does not get past an entry without `=`. -/
theorem wellFormed_of_ends {outEnv : List Text} {r : Scan}
    (h : Ends .outOfFuel (scan true) ⟨systemEnvs, envs, outEnv⟩ r) :
    ∀ entry ∈ systemEnvs, WellFormed entry := by
  induction systemEnvs generalizing envs outEnv with
  | nil => exact fun entry hentry => by cases hentry
  | cons entry systemEnvs ih =>
    by_cases hentry : WellFormed entry
    · have hround : scan true ⟨entry :: systemEnvs, envs, outEnv⟩ =
          .ok (.next ⟨systemEnvs, leave envs entry, outEnv ++ [joinEntry envs entry]⟩) :=
        congrArg Except.ok (round_entryOf envs outEnv hentry)
      rw [ends_next hround] at h
      exact List.forall_mem_cons.mpr ⟨hentry, ih h⟩
    · exact absurd h (not_ends_stuck (congrArg Except.ok (round_illFormed envs outEnv hentry)))

theorem returns_iff {outEnv out : List Text} {combineMode : Bool} :
    Returns systemEnvs envs outEnv combineMode out ↔ ∃ r : Scan,
      Ends .outOfFuel (scan combineMode) ⟨systemEnvs, envs, outEnv⟩ r ∧
        out = r.outEnv ++ r.envs.entries.map fun pair => entryOf pair.1 pair.2 := by
  constructor
  · intro h
    obtain ⟨fuel, hfuel⟩ := h
    unfold joinWithSystemEnv at hfuel
    cases hrun : runLoop .outOfFuel (scan combineMode) fuel ⟨systemEnvs, envs, outEnv⟩ with
    | error fault =>
      rw [hrun] at hfuel
      cases hfuel
    | ok r =>
      rw [hrun] at hfuel
      exact ⟨r, ⟨fuel, hrun⟩, (Except.ok.inj hfuel).symm⟩
  · intro h
    obtain ⟨r, ⟨fuel, hrun⟩, rfl⟩ := h
    exact ⟨fuel, by rw [joinWithSystemEnv, hrun]; rfl⟩

/-! ## What is added -/

theorem leave_entries_filter (envs : Envs) (entry : Text) (systemEnvs : List Text) :
    (leave envs entry).entries.filter (fun pair => Remains systemEnvs pair) =
      envs.entries.filter fun pair => Remains (entry :: systemEnvs) pair := by
  unfold leave
  by_cases hjoins : Joins envs entry
  · have hboth : ∀ pair : Text × Text, Remains (entry :: systemEnvs) pair ↔
        Remains systemEnvs pair ∧ pair.1 ≠ keyOf entry := by
      intro pair
      unfold Remains
      rw [List.map_cons, List.mem_cons]
      by_cases hkey : pair.1 = keyOf entry
      · simp [hkey, hjoins.1]
      · simp [hkey]
    rw [if_pos hjoins, Envs.erase, List.filter_filter]
    refine List.filter_congr fun pair _ => ?_
    rw [Bool.eq_iff_iff, Bool.and_eq_true, decide_eq_true_iff, decide_eq_true_iff,
      decide_eq_true_iff, hboth]
  · rw [if_neg hjoins]
    refine List.filter_congr fun pair hpair => ?_
    have hkey : pair.1 ∈ envs.entries.map Prod.fst := List.mem_map_of_mem hpair
    have hsame : Remains systemEnvs pair ↔ Remains (entry :: systemEnvs) pair := by
      unfold Remains
      rw [List.map_cons, List.mem_cons]
      by_cases heq : pair.1 = keyOf entry
      · have hneed : pair.1 ∉ needJoinEnv := by
          intro hneed
          rw [heq] at hneed hkey
          exact hjoins ⟨hneed, hkey⟩
        simp [hneed]
      · simp [heq]
    rw [Bool.eq_iff_iff, decide_eq_true_iff, decide_eq_true_iff, hsame]

theorem entries_after (systemEnvs : List Text) (envs : Envs) :
    (systemEnvs.foldl leave envs).entries =
      envs.entries.filter fun pair => Remains systemEnvs pair := by
  induction systemEnvs generalizing envs with
  | nil => simp [Remains]
  | cons entry systemEnvs ih => rw [List.foldl_cons, ih, leave_entries_filter]

/-- Another entry of the system does not change what becomes of this one. -/
theorem joinEntry_leave {other : Text} (h : keyOf entry ≠ keyOf other) :
    joinEntry (leave envs other) entry = joinEntry envs entry := by
  unfold leave
  by_cases hjoins : Joins envs other
  · rw [if_pos hjoins, joinEntry, joinEntry, find_erase_of_ne h]
  · rw [if_neg hjoins]

theorem joinAll_eq (h : (systemEnvs.map keyOf).Nodup) (envs : Envs) :
    joinAll envs systemEnvs = systemEnvs.map (joinEntry envs) := by
  induction systemEnvs generalizing envs with
  | nil => rfl
  | cons entry systemEnvs ih =>
    rw [List.map_cons, List.nodup_cons] at h
    rw [joinAll, ih h.2, List.map_cons]
    refine congrArg _ (List.map_congr_left fun entry' hentry' => joinEntry_leave fun heq => h.1 ?_)
    exact heq ▸ List.mem_map_of_mem hentry'

/-- What is added to `outEnv` in combine mode. -/
def addedEnvs (systemEnvs : List Text) (envs : Envs) : List Text :=
  systemEnvs.map (joinEntry envs) ++
    (envs.entries.filter fun pair => Remains systemEnvs pair).map fun pair => entryOf pair.1 pair.2

theorem returns_combined (hwell : ∀ entry ∈ systemEnvs, WellFormed entry)
    (hdistinct : (systemEnvs.map keyOf).Nodup) {outEnv out : List Text} :
    Returns systemEnvs envs outEnv true out ↔ out = outEnv ++ addedEnvs systemEnvs envs := by
  have hout : ∀ r : Scan,
      r = ⟨[], systemEnvs.foldl leave envs, outEnv ++ joinAll envs systemEnvs⟩ →
      (r.outEnv ++ r.envs.entries.map fun pair => entryOf pair.1 pair.2) =
        outEnv ++ addedEnvs systemEnvs envs := by
    intro r hr
    rw [hr, addedEnvs, entries_after, joinAll_eq hdistinct, List.append_assoc]
  rw [returns_iff]
  constructor
  · intro h
    obtain ⟨r, hends, rfl⟩ := h
    exact hout r ((ends_combined hwell envs outEnv r).mp hends)
  · intro h
    exact ⟨_, (ends_combined hwell envs outEnv _).mpr rfl, h.trans (hout _ rfl).symm⟩

/-! ## How often a key occurs -/

theorem keyOf_joinEntry (h : WellFormed entry) :
    WellFormed (joinEntry envs entry) ∧ keyOf (joinEntry envs entry) = keyOf entry := by
  obtain ⟨key, old, hkey, rfl⟩ := exists_entryOf h
  unfold joinEntry
  split
  · rw [keyOf_entryOf hkey old]
    exact ⟨wellFormed_entryOf _ _, keyOf_entryOf hkey _⟩
  · exact ⟨h, rfl⟩

theorem countP_system (hwell : ∀ entry ∈ systemEnvs, WellFormed entry) (hkey : 61 ∉ key) :
    (systemEnvs.map (joinEntry envs)).countP (HasKey key) = (systemEnvs.map keyOf).count key := by
  rw [List.countP_map, List.count, List.countP_map]
  refine List.countP_congr fun entry hentry => ?_
  obtain ⟨hjoined, hkeyOf⟩ := @keyOf_joinEntry _ envs (hwell entry hentry)
  simp [hasKey_of_wellFormed hkey hjoined, hkeyOf]

/-- A key among pairs, and the keys that it begins. -/
theorem countP_pairs (pairs : List (Text × Text)) (hkey : 61 ∉ key) :
    (pairs.map fun pair => entryOf pair.1 pair.2).countP (HasKey key) =
      (pairs.map Prod.fst).count key + (pairs.map Prod.fst).countP (HasKey key) := by
  induction pairs with
  | nil => rfl
  | cons pair pairs ih =>
    have hself : ¬ HasKey key key := fun hstart => hkey
      (hstart.subset (List.mem_append_right key (List.mem_singleton_self 61)))
    rw [List.map_cons, List.map_cons, List.countP_cons, List.countP_cons, List.count_cons, ih]
    by_cases heq : pair.1 = key
    · simp [hasKey_entryOf_iff hkey, heq, hself]
      omega
    · by_cases hstart : HasKey key pair.1
      · simp [hasKey_entryOf_iff hkey, heq, hstart]
        omega
      · simp [hasKey_entryOf_iff hkey, heq, hstart]

/-- A joinable key of the program is added for the variable itself and for each key it begins. -/
theorem countP_addedEnvs (hwell : ∀ entry ∈ systemEnvs, WellFormed entry)
    (hdistinct : (systemEnvs.map keyOf).Nodup) (hneed : key ∈ needJoinEnv)
    (hset : key ∈ envs.entries.map Prod.fst) :
    (addedEnvs systemEnvs envs).countP (HasKey key) =
      1 + (envs.entries.map Prod.fst).countP (HasKey key) := by
  have hkey := mem_needJoinEnv hneed
  -- a key that `key=` begins is not joinable, so that it remains
  have hremains : ∀ pair : Text × Text, HasKey key pair.1 → Remains systemEnvs pair := by
    intro pair hstart hboth
    refine mem_needJoinEnv hboth.1 (hstart.subset ?_)
    exact List.mem_append_right key (List.mem_singleton_self 61)
  have hlonger : ((envs.entries.filter fun pair => Remains systemEnvs pair).map Prod.fst).countP
      (HasKey key) = (envs.entries.map Prod.fst).countP (HasKey key) := by
    rw [List.countP_map, List.countP_map, List.countP_filter]
    refine List.countP_congr fun pair _ => ?_
    by_cases hstart : HasKey key pair.1
    · simp [hstart, hremains pair hstart]
    · simp [hstart]
  have hone : (systemEnvs.map keyOf).count key +
      ((envs.entries.filter fun pair => Remains systemEnvs pair).map Prod.fst).count key = 1 := by
    have hcount : (envs.entries.map Prod.fst).count key = 1 :=
      List.count_eq_one_of_mem envs.distinct hset
    rw [List.count, List.countP_map] at hcount
    by_cases hsystem : key ∈ systemEnvs.map keyOf
    · rw [List.count_eq_one_of_mem hdistinct hsystem, List.count_eq_zero_of_not_mem]
      intro hmem
      obtain ⟨pair, hpair, rfl⟩ := List.mem_map.mp hmem
      have hpairRemains := (List.mem_filter.mp hpair).2
      simp [Remains, hneed, hsystem] at hpairRemains
    · rw [List.count_eq_zero_of_not_mem hsystem, List.count, List.countP_map, List.countP_filter,
        Nat.zero_add, ← hcount]
      refine List.countP_congr fun pair _ => ?_
      by_cases heq : pair.1 = key
      · simp [heq, Remains, hsystem]
      · simp [heq]
  rw [addedEnvs, List.countP_append, countP_system hwell hkey, countP_pairs _ hkey, hlonger]
  omega

/-! ## Joining -/

theorem joinEntry_entryOf (hneed : key ∈ needJoinEnv) (hvalue : (key, value) ∈ envs.entries)
    (old : Text) : joinEntry envs (entryOf key old) =
      entryOf key (if old = [] then value else value ++ 58 :: old) := by
  have hkey := mem_needJoinEnv hneed
  rw [joinEntry, keyOf_entryOf hkey, if_pos (List.contains_iff_mem.mpr hneed),
    find_eq_some_iff.mpr hvalue, idxOf_entryOf hkey, drop_entryOf]

theorem joinEntry_of_not_joins (h : ¬ Joins envs entry) : joinEntry envs entry = entry := by
  unfold joinEntry
  split
  · next value hfind => exact absurd (joins_iff.mpr ⟨value, hfind⟩) h
  · rfl

/-- What the scan adds for an environment that is well formed. -/
theorem joinsCorrectly_addedEnvs (hwell : ∀ entry ∈ systemEnvs, WellFormed entry)
    (hdistinct : (systemEnvs.map keyOf).Nodup)
    (hkeys : ∀ key ∈ needJoinEnv, key ∈ envs.entries.map Prod.fst →
      ∀ k ∈ envs.entries.map Prod.fst, ¬ HasKey key k) :
    JoinsCorrectly systemEnvs envs (addedEnvs systemEnvs envs) where
  once := by
    intro key hneed hset
    rw [countP_addedEnvs hwell hdistinct hneed hset, Nat.add_eq_left, List.countP_eq_zero]
    exact fun k hk => by simpa using hkeys key hneed hset k hk
  ahead := by
    intro key hneed value old hvalue hold hne
    refine List.mem_append_left _ (List.mem_map.mpr ⟨_, hold, ?_⟩)
    rw [joinEntry_entryOf hneed hvalue, if_neg hne]
  alone := by
    intro key hneed value hvalue hempty
    by_cases hsystem : key ∈ systemEnvs.map keyOf
    · obtain ⟨entry, hentry, hkeyOf⟩ := List.mem_map.mp hsystem
      obtain ⟨k, old, hk, rfl⟩ := exists_entryOf (hwell entry hentry)
      rw [keyOf_entryOf hk] at hkeyOf
      subst hkeyOf
      refine List.mem_append_left _ (List.mem_map.mpr ⟨_, hentry, ?_⟩)
      rw [joinEntry_entryOf hneed hvalue, if_pos (hempty old hentry)]
    · refine List.mem_append_right _ (List.mem_map.mpr ⟨(key, value), ?_, rfl⟩)
      exact List.mem_filter.mpr ⟨hvalue, by simp [Remains, hsystem]⟩
  others := by
    refine List.Sublist.trans ?_ (List.sublist_append_left _ _)
    have hsame : (systemEnvs.filter fun entry => WellFormed entry ∧ ¬ Joins envs entry) =
        (systemEnvs.filter fun entry => WellFormed entry ∧ ¬ Joins envs entry).map
          (joinEntry envs) := by
      refine (List.map_id _).symm.trans (List.map_congr_left fun entry hentry => ?_)
      have hboth := (List.mem_filter.mp hentry).2
      simp only [decide_eq_true_eq] at hboth
      exact (joinEntry_of_not_joins hboth.2).symm
    rw [hsame]
    exact List.filter_sublist.map _
  appended := ⟨systemEnvs.map (joinEntry envs), List.length_map _, rfl⟩

/-- The scan ends from every vector, and in combine mode what it adds is joined correctly. -/
def JoinsWithSystemEnv (systemEnvs : List Text) (envs : Envs) (combineMode : Bool) : Prop :=
  ∀ outEnv, ∃ added, Returns systemEnvs envs outEnv combineMode (outEnv ++ added) ∧
    (combineMode = true → JoinsCorrectly systemEnvs envs added)

theorem nodup_keys (hwell : ∀ entry ∈ systemEnvs, WellFormed entry)
    (hdistinct : ((systemEnvs.filter fun entry => WellFormed entry).map keyOf).Nodup) :
    (systemEnvs.map keyOf).Nodup := by
  rwa [List.filter_eq_self.mpr fun entry hentry => by simpa using hwell entry hentry] at hdistinct

theorem joinWithSystemEnv_iff (systemEnvs : List Text) (envs : Envs) (combineMode : Bool)
    (hdistinct : ((systemEnvs.filter fun entry => WellFormed entry).map keyOf).Nodup) :
    JoinsWithSystemEnv systemEnvs envs combineMode ↔
      (combineMode = true → (∀ entry ∈ systemEnvs, WellFormed entry) ∧
        ∀ key ∈ needJoinEnv, key ∈ envs.entries.map Prod.fst →
          ∀ k ∈ envs.entries.map Prod.fst, ¬ HasKey key k) := by
  cases combineMode with
  | false =>
    refine iff_of_true (fun outEnv => ?_) fun h => by cases h
    refine ⟨systemEnvs ++ envs.entries.map fun pair => entryOf pair.1 pair.2, ?_,
      fun h => by cases h⟩
    refine returns_iff.mpr ⟨_, (ends_separate systemEnvs envs outEnv _).mpr rfl, ?_⟩
    rw [List.append_assoc]
  | true =>
    constructor
    · intro hjoins _
      obtain ⟨added, hreturns, hcorrect⟩ := hjoins []
      have hwell : ∀ entry ∈ systemEnvs, WellFormed entry := by
        obtain ⟨r, hends, _⟩ := returns_iff.mp hreturns
        exact wellFormed_of_ends hends
      have hnodup := nodup_keys hwell hdistinct
      have hadded : added = addedEnvs systemEnvs envs :=
        (returns_combined hwell hnodup).mp hreturns
      refine ⟨hwell, fun key hneed hset k hk => ?_⟩
      have honce := (hcorrect rfl).once key hneed hset
      rw [hadded, countP_addedEnvs hwell hnodup hneed hset, Nat.add_eq_left,
        List.countP_eq_zero] at honce
      simpa using honce k hk
    · intro h outEnv
      obtain ⟨hwell, hkeys⟩ := h rfl
      have hnodup := nodup_keys hwell hdistinct
      exact ⟨addedEnvs systemEnvs envs, (returns_combined hwell hnodup).mpr rfl,
        fun _ => joinsCorrectly_addedEnvs hwell hnodup hkeys⟩

theorem joinWithSystemEnv_path :
    JoinsWithSystemEnv [text "HOME=/root", text "PATH=/bin"]
      ⟨[(text "PATH", text "/opt")], List.nodup_singleton _⟩ true :=
  (joinWithSystemEnv_iff _ _ true (by decide)).mpr fun _ => ⟨by decide, by decide⟩

/-- The scan stays at an entry without `=`. -/
theorem joinWithSystemEnv_stuck :
    (([text "FOO"].filter fun entry => WellFormed entry).map keyOf).Nodup ∧
      ¬ JoinsWithSystemEnv [text "FOO"] ⟨[], List.nodup_nil⟩ true := by
  refine ⟨by decide, fun hjoins => ?_⟩
  obtain ⟨added, hreturns, _⟩ := hjoins []
  obtain ⟨r, hends, _⟩ := returns_iff.mp hreturns
  have hwell : WellFormed (text "FOO") := wellFormed_of_ends hends _ List.mem_cons_self
  exact absurd hwell (by decide)

end Msopcom.Environment
