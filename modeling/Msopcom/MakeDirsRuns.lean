import Msopcom.MakeDirs

set_option autoImplicit false

/-!
# What the calls leave

A call goes on from one directory to the next, whatever the others do in the meantime. What it knows
of those that it has left behind is kept, as the disk only grows.
-/
namespace Msopcom.MakeDirs
open Msopcom.Path StackFold
open MsTxRange (splitString)

/-! ## What is made so far -/

/-- The first directories are there, as far as one bit tells. -/
def Made (c : Caller) (d : Disk) (front : List Str) : Prop :=
  ∀ pre r, pre ++ [r] <+: front → r ≠ [] → d.isDir c.cwd (join (pre ++ [r]) [pathSep]) = true

/-- Something that is no directory has the name of one that is to be made. -/
def Blocked (c : Caller) (d : Disk) : Prop :=
  ∃ front r rest m, c.dirs = front ++ r :: rest ∧
    d.fs.named c.cwd (join (front ++ [r]) [pathSep]) = some m ∧ d.fileType m ≠ .dir

section Made
variable {c : Caller} {d d' : Disk} {front rest : List Str} {r : Str} {n m k : ℕ}

theorem made_nil (c : Caller) (d : Disk) : Made c d [] := fun pre r h _ =>
  absurd (List.prefix_nil.mp h) (List.concat_ne_nil r pre)

theorem made_concat_nil (h : Made c d front) : Made c d (front ++ [[]]) := by
  intro pre s hpre hs
  rcases List.prefix_concat_iff.mp hpre with heq | hpre
  · exact absurd (List.append_inj_right' heq rfl) (by simpa using hs)
  · exact h pre s hpre hs

theorem made_concat (h : Made c d front)
    (hr : d.isDir c.cwd (join (front ++ [r]) [pathSep]) = true) : Made c d (front ++ [r]) := by
  intro pre s hpre hs
  rcases List.prefix_concat_iff.mp hpre with heq | hpre
  · rw [heq]
    exact hr
  · exact h pre s hpre hs

theorem Made.grows (h : Made c d front) (hgrows : Grows d d') : Made c d' front :=
  fun pre r hpre hr => hgrows.isDir (h pre r hpre hr)

theorem Blocked.grows (h : Blocked c d) (hgrows : Grows d d') : Blocked c d' := by
  obtain ⟨front, r, rest, m, hdirs, hm, htype⟩ := h
  refine ⟨front, r, rest, m, hdirs, hgrows.named hm, ?_⟩
  rw [hgrows.fileType m (named_lt hm)]
  exact htype

theorem noSep_front (hdirs : c.dirs = front ++ r :: rest) : ∀ s ∈ front ++ [r], pathSep ∉ s := by
  intro s hs
  apply (dirs_cases c).1.noSep s
  rw [hdirs]
  rcases List.mem_append.mp hs with hs | hs
  · exact List.mem_append_left _ hs
  · rw [List.mem_singleton.mp hs]
    simp

theorem named_front (hdirs : c.dirs = front ++ r :: rest) (hr : r ≠ []) :
    d.fs.named c.cwd (join (front ++ [r]) [pathSep]) =
      walk d.fs.lookup (startOf c.cwd c.dirs) (front ++ [r]) := by
  rw [named_join hr (noSep_front hdirs), hdirs, startOf_append r front rest]

/-- What is made so far leads somewhere, and to a directory if nothing is in the way. -/
theorem walk_front (hdirs : c.dirs = front ++ rest) (hcwd : d.fileType c.cwd = .dir)
    (hmade : Made c d front) :
    ∃ n, walk d.fs.lookup (startOf c.cwd c.dirs) front = some n ∧
      (d.fileType n = .dir ∨ Blocked c d) := by
  rcases List.eq_nil_or_concat' front with rfl | ⟨pre, f, rfl⟩
  · refine ⟨_, rfl, .inl ?_⟩
    unfold startOf
    split_ifs
    · exact d.root_dir
    · exact hcwd
  · rw [List.append_assoc, List.singleton_append] at hdirs
    by_cases hf : f = []
    · -- only the first directory is empty
      have hpre : pre = [] := by
        cases pre with
        | nil => rfl
        | cons s pre =>
          refine absurd hf ((dirs_cases c).1.nonempty f ?_)
          simp [hdirs]
      subst hpre hf
      refine ⟨0, ?_, .inl d.root_dir⟩
      have hstart : startOf c.cwd c.dirs = 0 := by simp [startOf, hdirs]
      rw [hstart]
      exact walk_singleton.trans lookup_root_nil
    · have hdir := hmade pre f (List.prefix_refl _) hf
      unfold Disk.isDir Disk.stat at hdir
      cases hn : d.fs.named c.cwd (join (pre ++ [f]) [pathSep]) with
      | none => rw [hn] at hdir; cases hdir
      | some n =>
        refine ⟨n, (named_front hdirs hf).symm.trans hn, ?_⟩
        by_cases htype : d.fileType n = .dir
        · exact .inl htype
        · exact .inr ⟨pre, f, rest, n, hdirs, hn, htype⟩

theorem walk_concat (hn : walk d.fs.lookup m front = some n) (hlookup : d.fs.lookup n r = some k) :
    walk d.fs.lookup m (front ++ [r]) = some k := by
  rw [walk_append, hn, Option.bind_some, walk_singleton, hlookup]

/-- A directory that is not made is there, unless something is in the way. -/
theorem mkdir_eq_none (hdirs : c.dirs = front ++ r :: rest) (hr : r ≠ [])
    (hcwd : d.fileType c.cwd = .dir) (hmade : Made c d front)
    (h : d.mkdir c.cwd (join (front ++ [r]) [pathSep]) = none) :
    Blocked c d ∨ d.isDir c.cwd (join (front ++ [r]) [pathSep]) = true := by
  obtain ⟨n, hn, hdir | hblocked⟩ := walk_front hdirs hcwd hmade
  · -- what the name leads to, whatever it is
    have hnamed : ∀ k, d.fs.lookup n r = some k →
        Blocked c d ∨ d.isDir c.cwd (join (front ++ [r]) [pathSep]) = true := by
      intro k hk
      have hk' : d.fs.named c.cwd (join (front ++ [r]) [pathSep]) = some k := by
        rw [named_front hdirs hr, walk_concat hn hk]
      by_cases htype : d.fileType k = .dir
      · exact .inr (isDir_of_dir hk' htype)
      · exact .inl ⟨front, r, rest, k, hdirs, hk', htype⟩
    by_cases hcurrent : r = currentSegment
    · exact hnamed n (by simp [FileSystem.lookup, Disk.fs, hdir, hcurrent])
    · have hparent : r ≠ parentSegment := (dirs_cases c).1.noParent r (by simp [hdirs])
      cases hchild : d.child n r with
      | some k =>
        exact hnamed k (by simp [FileSystem.lookup, Disk.fs, hdir, hr, hcurrent, hparent, hchild])
      | none =>
        have hpush : resolve r = .push := by simp [resolve, hr, hcurrent, hparent]
        have hstart : startOf c.cwd (front ++ [r]) = startOf c.cwd c.dirs := by
          rw [hdirs, startOf_append r front rest]
        rw [mkdir_join hr (noSep_front hdirs), hstart, Disk.makeLeaf] at h
        simp [hpush, hn, hdir, hchild] at h
  · exact .inl hblocked

/-- A directory that is made is there. -/
theorem isDir_mkdir (hdirs : c.dirs = front ++ r :: rest) (hr : r ≠ [])
    (h : d.mkdir c.cwd (join (front ++ [r]) [pathSep]) = some d') :
    d'.isDir c.cwd (join (front ++ [r]) [pathSep]) = true := by
  have hgrows := grows_mkdir h
  rw [mkdir_join hr (noSep_front hdirs)] at h
  obtain ⟨n, hn, hwalk, _, hpush, rfl⟩ := makeLeaf_eq_some h
  have hlt : n ≠ d.next := Nat.ne_of_lt (d.lt_of_dir hn)
  have hlookup : (d.make n hn r .dir).fs.lookup n r = some d.next := by
    have hdir : (d.make n hn r .dir).fileType n = .dir := by simp [Disk.make, hlt, hn]
    obtain ⟨_, hcurrent, hparent⟩ := resolve_eq_push hpush
    have hchild := @child_make d n r hn .dir
    simp [FileSystem.lookup, Disk.fs, hdir, hr, hcurrent, hparent, hchild]
  have hnamed : (d.make n hn r .dir).fs.named c.cwd (join (front ++ [r]) [pathSep]) =
      some d.next := by
    rw [named_join hr (noSep_front hdirs), walk_concat (hgrows.walk hwalk) hlookup]
  exact isDir_of_dir hnamed (by simp [Disk.make])

end Made

/-! ## Every call -/

/-- The call is at a directory, and has made those in front of it. -/
def At (c : Caller) (d : Disk) (current : Str) (rest : List Str) : Prop :=
  ∃ front r, c.dirs = front ++ r :: rest ∧ r ≠ [] ∧ current = join (front ++ [r]) [pathSep] ∧
    Made c d front

/-- What is known of a call, and whether it has been refused anything. -/
def Inv (refused : Prop) (c : Caller) (d : Disk) : Pc → Prop
  | .isDirPath dirs => dirs = c.dirs
  | .isDir current rest => At c d current rest
  | .mkdir current rest => At c d current rest
  | .isDirAgain current rest =>
    At c d current rest ∧ (refused ∨ Blocked c d ∨ d.isDir c.cwd current = true)
  | .checkOwner current rest => At c d current rest ∧ d.isDir c.cwd current = true
  | .done true => d.isDir c.cwd c.path = true ∨ Made c d c.dirs
  | .done false => c.path = [] ∨ refused ∨ Blocked c d

section Inv
variable {refused : Prop} {c : Caller} {d d' : Disk} {current : Str} {rest : List Str} {pc : Pc}

theorem At.grows (h : At c d current rest) (hgrows : Grows d d') : At c d' current rest := by
  obtain ⟨front, r, hdirs, hr, hcurrent, hmade⟩ := h
  exact ⟨front, r, hdirs, hr, hcurrent, hmade.grows hgrows⟩

theorem Inv.grows (h : Inv refused c d pc) (hgrows : Grows d d') : Inv refused c d' pc := by
  cases pc with
  | isDirPath dirs => exact h
  | isDir current rest => exact At.grows h hgrows
  | mkdir current rest => exact At.grows h hgrows
  | isDirAgain current rest =>
    exact ⟨h.1.grows hgrows, h.2.imp_right (Or.imp (·.grows hgrows) hgrows.isDir)⟩
  | checkOwner current rest => exact ⟨h.1.grows hgrows, hgrows.isDir h.2⟩
  | done result =>
    cases result with
    | true => exact Or.imp hgrows.isDir (·.grows hgrows) h
    | false => exact Or.imp_right (Or.imp_right (·.grows hgrows)) h

theorem Inv.mono {refused' : Prop} (h : Inv refused c d pc) (himp : refused → refused') :
    Inv refused' c d pc := by
  cases pc with
  | isDirPath dirs => exact h
  | isDir current rest => exact h
  | mkdir current rest => exact h
  | isDirAgain current rest => exact ⟨h.1, h.2.imp_left himp⟩
  | checkOwner current rest => exact h
  | done result =>
    cases result with
    | true => exact h
    | false => exact Or.imp_right (Or.imp_left himp) h

/-- The rounds that call nothing pass over what is empty. -/
theorem inv_rounds {front : List Str} (hdirs : c.dirs = front ++ rest) (hmade : Made c d front) :
    Inv refused c d (rounds (if front = [] then none else some (join front [pathSep])) rest) := by
  induction rest generalizing front with
  | nil =>
    rw [List.append_nil] at hdirs
    exact .inr (hdirs ▸ hmade)
  | cons r rest ih =>
    have hnext : extend (if front = [] then none else some (join front [pathSep])) r =
        join (front ++ [r]) [pathSep] := by
      by_cases hfront : front = []
      · simp [hfront, extend, join]
      · rw [if_neg hfront, join_concat hfront]
        rfl
    rw [rounds, hnext]
    by_cases hr : r = []
    · rw [if_pos hr]
      have hdirs' : c.dirs = (front ++ [r]) ++ rest := by simp [hdirs]
      have hrounds := ih hdirs' (hr ▸ made_concat_nil hmade)
      rwa [if_neg (List.concat_ne_nil r front)] at hrounds
    · rw [if_neg hr]
      exact ⟨front, r, hdirs, hr, rfl, hmade⟩

theorem inv_start (c : Caller) (d : Disk) : Inv refused c d c.start := by
  have hdirs : c.dirs ≠ [] := by
    rcases (dirs_cases c).2 with ⟨hroot, _⟩ | ⟨hne, _⟩
    · rw [hroot]
      exact List.cons_ne_nil _ _
    · exact hne
  unfold Caller.start
  split_ifs with hpath
  · exact .inl hpath
  · rfl

/-- Behind a directory that is there come the others. -/
theorem inv_next (h : At c d current rest) (hdir : d.isDir c.cwd current = true) :
    Inv refused c d (rounds (some current) rest) := by
  obtain ⟨front, r, hdirs, hr, rfl, hmade⟩ := h
  have hdirs' : c.dirs = (front ++ [r]) ++ rest := by simp [hdirs]
  have hrounds := @inv_rounds refused c d rest (front ++ [r]) hdirs' (made_concat hmade hdir)
  rwa [if_neg (List.concat_ne_nil r front)] at hrounds

theorem checkOwnerPermission_of_isDir {cwd : ℕ} {path : Str} (h : d.isDir cwd path = true) :
    d.checkOwnerPermission cwd path = true := by
  unfold Disk.isDir at h
  unfold Disk.checkOwnerPermission
  cases hstat : d.stat cwd path with
  | none => rw [hstat] at h; cases h
  | some type => rfl

theorem inv_systemCall (h : Inv refused c d pc) (hcwd : d.fileType c.cwd = .dir) :
    Inv refused c (systemCall c d pc).2 (reply pc (systemCall c d pc).1) := by
  cases pc with
  | isDirPath dirs =>
    obtain rfl : dirs = c.dirs := h
    cases hdir : d.isDir c.cwd c.path with
    | true =>
      simp only [systemCall, reply, hdir, if_true]
      exact Or.inl hdir
    | false =>
      simp only [systemCall, reply, hdir]
      exact @inv_rounds refused c d c.dirs [] rfl (made_nil c d)
  | isDir current rest =>
    cases hdir : d.isDir c.cwd current with
    | true =>
      simp only [systemCall, reply, hdir, if_true]
      exact inv_next h hdir
    | false =>
      simp only [systemCall, reply, hdir]
      exact h
  | mkdir current rest =>
    have hat : At c d current rest := h
    obtain ⟨front, r, hdirs, hr, rfl, hmade⟩ := h
    cases hmkdir : d.mkdir c.cwd (join (front ++ [r]) [pathSep]) with
    | none =>
      simp only [systemCall, reply, hmkdir]
      exact ⟨hat, .inr (mkdir_eq_none hdirs hr hcwd hmade hmkdir)⟩
    | some d' =>
      simp only [systemCall, reply, hmkdir, if_true]
      exact inv_next (hat.grows (grows_mkdir hmkdir)) (isDir_mkdir hdirs hr hmkdir)
  | isDirAgain current rest =>
    cases hdir : d.isDir c.cwd current with
    | true =>
      simp only [systemCall, reply, hdir, if_true]
      exact ⟨h.1, hdir⟩
    | false =>
      simp only [systemCall, reply, hdir]
      exact Or.inr (h.2.imp_right fun hor => hor.resolve_right (by simp [hdir]))
  | checkOwner current rest =>
    have howner := checkOwnerPermission_of_isDir h.2
    simp only [systemCall, reply, howner, if_true]
    exact inv_next h.1 h.2
  | done result => exact h

theorem inv_refuse (h : Inv refused c d pc) : Inv True c d (reply pc false) := by
  cases pc with
  | isDirPath dirs =>
    obtain rfl : dirs = c.dirs := h
    exact @inv_rounds True c d c.dirs [] rfl (made_nil c d)
  | isDir current rest => exact h
  | mkdir current rest => exact ⟨h, .inl trivial⟩
  | isDirAgain current rest => exact Or.inr (.inl trivial)
  | checkOwner current rest => exact Or.inr (.inl trivial)
  | done result => exact h.mono fun _ => trivial

end Inv

/-! ## How long a call takes -/

/-- The most system calls that are still to come. -/
def todo : Pc → ℕ
  | .isDirPath dirs => 4 * dirs.length + 1
  | .isDir _ rest => 4 * rest.length + 4
  | .mkdir _ rest => 4 * rest.length + 3
  | .isDirAgain _ rest => 4 * rest.length + 2
  | .checkOwner _ rest => 4 * rest.length + 1
  | .done _ => 0

theorem todo_rounds (current : Option Str) (rest : List Str) :
    todo (rounds current rest) ≤ 4 * rest.length := by
  induction rest generalizing current with
  | nil => exact le_rfl
  | cons it rest ih =>
    rw [rounds]
    split_ifs
    · have hrest := ih (some (extend current it))
      rw [List.length_cons]
      omega
    · simp only [todo, List.length_cons]
      omega

theorem todo_reply (pc : Pc) (ok : Bool) : todo (reply pc ok) ≤ todo pc - 1 := by
  cases pc with
  | isDirPath dirs =>
    have hrounds := todo_rounds none dirs
    cases ok
    · exact hrounds
    · exact Nat.zero_le _
  | isDir current rest =>
    have hrounds := todo_rounds (some current) rest
    cases ok
    · exact le_rfl
    · exact Nat.le_trans hrounds (by simp only [todo]; omega)
  | mkdir current rest =>
    have hrounds := todo_rounds (some current) rest
    cases ok
    · exact le_rfl
    · exact Nat.le_trans hrounds (by simp only [todo]; omega)
  | isDirAgain current rest =>
    cases ok
    · exact Nat.zero_le _
    · exact le_rfl
  | checkOwner current rest =>
    have hrounds := todo_rounds (some current) rest
    cases ok
    · exact Nat.zero_le _
    · exact Nat.le_trans hrounds (by simp only [todo]; omega)
  | done result => exact Nat.zero_le _

theorem todo_start (c : Caller) : todo c.start ≤ 4 * c.dirs.length + 1 := by
  unfold Caller.start
  split_ifs
  · exact Nat.zero_le _
  · exact Nat.zero_le _
  · exact le_rfl

/-! ## Runs -/

/-- Whose system call an event is. -/
def Event.caller? : Event → Option ℕ
  | .run i => some i
  | .refuse i => some i
  | .make _ _ _ => none
  | .link _ _ _ => none

section Runs
variable {callers : ℕ → Caller} {disk : Disk} {events : List Event}

theorem pcs_step (callers : ℕ → Caller) (s : State) (e : Event) (i : ℕ) :
    (e.caller? = some i → ∃ ok, (step callers s e).pcs i = reply (s.pcs i) ok) ∧
      (e.caller? ≠ some i → (step callers s e).pcs i = s.pcs i) := by
  cases e with
  | run j =>
    constructor
    · intro h
      obtain rfl : j = i := Option.some.inj h
      exact ⟨_, Function.update_self _ _ _⟩
    · intro h
      exact Function.update_of_ne (fun heq : i = j => h (congrArg some heq.symm)) _ _
  | refuse j =>
    constructor
    · intro h
      obtain rfl : j = i := Option.some.inj h
      exact ⟨false, Function.update_self _ _ _⟩
    · intro h
      exact Function.update_of_ne (fun heq : i = j => h (congrArg some heq.symm)) _ _
  | make n r type =>
    constructor
    · intro h
      cases h
    · intro _
      dsimp only [step]
      split_ifs <;> rfl
  | link n r m =>
    constructor
    · intro h
      cases h
    · intro _
      dsimp only [step]
      split_ifs <;> rfl

theorem todo_run (callers : ℕ → Caller) (disk : Disk) (events : List Event) (i : ℕ) :
    todo ((events.foldl (step callers) (.start callers disk)).pcs i) ≤
      4 * (callers i).dirs.length + 1 - events.countP (·.caller? = some i) := by
  induction events using List.reverseRecOn with
  | nil => exact todo_start (callers i)
  | append_singleton events e ih =>
    rw [List.foldl_concat, List.countP_append, List.countP_singleton]
    obtain ⟨hown, hother⟩ :=
      pcs_step callers (events.foldl (step callers) (.start callers disk)) e i
    by_cases he : e.caller? = some i
    · obtain ⟨ok, hpc⟩ := hown he
      have hreply := todo_reply ((events.foldl (step callers) (.start callers disk)).pcs i) ok
      simp only [he, decide_true, if_true]
      rw [hpc]
      omega
    · rw [hother he]
      simpa [he] using ih

theorem grows_run (callers : ℕ → Caller) (events : List Event) (s : State) :
    Grows s.disk (events.foldl (step callers) s).disk := by
  induction events generalizing s with
  | nil => exact Grows.refl s.disk
  | cons e events ih => exact (grows_step callers s e).trans (ih (step callers s e))

theorem inv_run (hcwd : ∀ i, disk.fileType (callers i).cwd = .dir) (events : List Event) (i : ℕ) :
    Inv (.refuse i ∈ events) (callers i) (events.foldl (step callers) (.start callers disk)).disk
      ((events.foldl (step callers) (.start callers disk)).pcs i) := by
  induction events using List.reverseRecOn with
  | nil => exact inv_start (callers i) disk
  | append_singleton events e ih =>
    rw [List.foldl_concat]
    have hgrows := grows_run callers events (.start callers disk)
    generalize events.foldl (step callers) (.start callers disk) = s at *
    have hcwd' : s.disk.fileType (callers i).cwd = .dir := by
      rw [hgrows.fileType _ (disk.lt_of_dir (hcwd i)), ← hcwd i]
      rfl
    have hstep := grows_step callers s e
    by_cases he : e.caller? = some i
    · cases e with
      | run j =>
        obtain rfl : j = i := Option.some.inj he
        have hcalled := (inv_systemCall ih hcwd').mono fun h =>
          List.mem_append_left [Event.run j] h
        simpa [step] using hcalled
      | refuse j =>
        obtain rfl : j = i := Option.some.inj he
        have hrefused := (inv_refuse ih).mono fun _ =>
          List.mem_append_right events (List.mem_singleton_self (Event.refuse j))
        simpa [step] using hrefused
      | make n r type => cases he
      | link n r m => cases he
    · rw [(pcs_step callers s e i).2 he]
      exact (ih.grows hstep).mono fun h => List.mem_append_left [e] h

/-- The bit that `IsDir` tests is set for three types. -/
theorem isDir_iff {d : Disk} {cwd : ℕ} {path : Str} : d.isDir cwd path = true ↔
    ∃ type, d.stat cwd path = some type ∧ (type = .dir ∨ type = .blk ∨ type = .sock) := by
  unfold Disk.isDir
  cases d.stat cwd path with
  | none => simp
  | some type => cases type <;> simp <;> decide

/-- What is made is there under the path that was resolved. -/
theorem isDir_of_made {c : Caller} {d : Disk} (h : Made c d c.dirs) :
    d.isDir c.cwd (checkedPath c.getcwd c.path) = true := by
  obtain ⟨hsegments, ⟨_, hroot⟩ | ⟨hne, hroot, hjoin⟩⟩ := dirs_cases c
  · have hnamed : d.fs.named c.cwd [pathSep] = some 0 := by
      rw [FileSystem.named, if_neg (List.cons_ne_nil _ _), List.head?_cons, if_pos rfl]
      exact (walk_sep []).trans (walk_singleton.trans lookup_root_nil)
    rw [hroot]
    exact isDir_of_dir hnamed d.root_dir
  · obtain ⟨front, r, hdirs⟩ := (List.eq_nil_or_concat' c.dirs).resolve_left hne
    have hr : r ≠ [] := by
      cases front with
      | nil =>
        rintro rfl
        exact hroot hdirs
      | cons s front => exact hsegments.nonempty r (by simp [hdirs])
    rw [← hjoin, hdirs]
    exact h front r (hdirs ▸ List.prefix_refl _) hr

/-- Whatever the others do, a call comes to its end. If it succeeds, its path or what this is
resolved to names what looks like a directory; if it fails, the path was empty, the system has
refused it something, or one of its directories has the name of what is none. -/
theorem call_ends (callers : ℕ → Caller) (disk : Disk)
    (hcwd : ∀ i, disk.fileType (callers i).cwd = .dir) (events : List Event) (i : ℕ)
    (hcalls : 4 * (callers i).dirs.length + 1 ≤ events.countP (·.caller? = some i)) (s : State)
    (hs : s = events.foldl (step callers) (.start callers disk)) :
    ∃ result, s.pcs i = .done result ∧
      (result = true → ∃ path, (path = (callers i).path ∨
          path = checkedPath (callers i).getcwd (callers i).path) ∧
        ∃ type, s.disk.stat (callers i).cwd path = some type ∧
          (type = .dir ∨ type = .blk ∨ type = .sock)) ∧
      (result = false → (callers i).path = [] ∨ .refuse i ∈ events ∨
        ∃ front r rest m, (callers i).dirs = front ++ r :: rest ∧
          s.disk.fs.named (callers i).cwd (join (front ++ [r]) [pathSep]) = some m ∧
          s.disk.fileType m ≠ .dir) := by
  have htodo := todo_run callers disk events i
  have hinv := inv_run hcwd events i
  rw [← hs] at htodo hinv
  cases hpc : s.pcs i with
  | done result =>
    rw [hpc] at hinv
    refine ⟨result, rfl, fun hresult => ?_, fun hresult => ?_⟩
    · subst hresult
      rcases hinv with hdir | hmade
      · exact ⟨_, .inl rfl, isDir_iff.mp hdir⟩
      · exact ⟨_, .inr rfl, isDir_iff.mp (isDir_of_made hmade)⟩
    · subst hresult
      exact hinv
  | isDirPath dirs => rw [hpc] at htodo; simp only [todo] at htodo; omega
  | isDir current rest => rw [hpc] at htodo; simp only [todo] at htodo; omega
  | mkdir current rest => rw [hpc] at htodo; simp only [todo] at htodo; omega
  | isDirAgain current rest => rw [hpc] at htodo; simp only [todo] at htodo; omega
  | checkOwner current rest => rw [hpc] at htodo; simp only [todo] at htodo; omega

/-- Each of two processes makes `/a/b`, step by step with the other. -/
def bothMake : List Event :=
  [.run 0, .run 1, .run 0, .run 1, .run 0, .run 1, .run 0, .run 1, .run 0, .run 1, .run 0, .run 1,
    .run 0, .run 1, .run 0, .run 1, .run 0, .run 1, .run 0, .run 1, .run 0, .run 1, .run 0, .run 1,
    .run 0, .run 1]

def makesAB : Caller := ⟨[47, 97, 47, 98], none, 0⟩

theorem dirs_makesAB : makesAB.dirs = [[], [97], [98]] := by
  let p : Path := ⟨true, [[97], [98]], by decide⟩
  have hbare : Bare [blank] p.toString := ⟨⟨47, rfl, by decide⟩, 98, rfl, by decide⟩
  have hparse : Msopcom.Path.parse makesAB.path = p := parse_toString hbare
  have hresolved : p.resolved none = p := Path.ext rfl rfl
  rw [Caller.dirs, checkedPath, hparse]
  change splitString pathSep (p.resolved none).toString = _
  rw [hresolved]
  rfl

def bothMade : State := bothMake.foldl (step fun _ => makesAB) (.start (fun _ => makesAB) .empty)

theorem call_ends_bothMake :
    ∃ result, bothMade.pcs 1 = .done result ∧
      (result = true → ∃ path, (path = makesAB.path ∨ path = checkedPath none makesAB.path) ∧
        ∃ type, bothMade.disk.stat 0 path = some type ∧
          (type = .dir ∨ type = .blk ∨ type = .sock)) ∧
      (result = false → makesAB.path = [] ∨ .refuse 1 ∈ bothMake ∨
        ∃ front r rest m, makesAB.dirs = front ++ r :: rest ∧
          bothMade.disk.fs.named 0 (join (front ++ [r]) [pathSep]) = some m ∧
          bothMade.disk.fileType m ≠ .dir) :=
  call_ends (fun _ => makesAB) .empty (fun _ => rfl) bothMake 1 (by rw [dirs_makesAB]; decide) _ rfl

/-! ## What the calls make -/

/-- The file that a name has got is one of the directories of a call. -/
def MadeBy (callers : ℕ → Caller) (d : Disk) (n : ℕ) (r : Str) (m : ℕ) : Prop :=
  ∃ i front rest, (callers i).dirs = front ++ r :: rest ∧
    walk d.fs.lookup (startOf (callers i).cwd (callers i).dirs) front = some n ∧ d.fileType m = .dir

theorem MadeBy.grows {d d' : Disk} {n m : ℕ} {r : Str} (h : MadeBy callers d n r m)
    (hgrows : Grows d d') : MadeBy callers d' n r m := by
  obtain ⟨i, front, rest, hdirs, hn, hdir⟩ := h
  refine ⟨i, front, rest, hdirs, hgrows.walk hn, ?_⟩
  rw [hgrows.fileType m (d.lt_of_dir hdir), hdir]

/-- What `mkdir` makes is named by the last directory of its path. -/
theorem child_mkdir {c : Caller} {d d' : Disk} {current : Str} {rest : List Str} {n m : ℕ} {t : Str}
    (hat : At c d current rest) (h : d.mkdir c.cwd current = some d')
    (hchild : d'.child n t = some m) :
    d.child n t = some m ∨ ∃ front rest, c.dirs = front ++ t :: rest ∧
      walk d'.fs.lookup (startOf c.cwd c.dirs) front = some n ∧ d'.fileType m = .dir := by
  obtain ⟨front, r, hdirs, hr, rfl, _⟩ := hat
  have hgrows := grows_mkdir h
  have hstart : startOf c.cwd (front ++ [r]) = startOf c.cwd c.dirs := by
    rw [hdirs, startOf_append r front rest]
  rw [mkdir_join hr (noSep_front hdirs), hstart] at h
  obtain ⟨k, hk, hwalk, _, _, rfl⟩ := makeLeaf_eq_some h
  by_cases hsame : n = k ∧ t = r
  · obtain ⟨rfl, rfl⟩ := hsame
    have hm : d.next = m := by rw [child_make hk] at hchild; exact Option.some.inj hchild
    refine .inr ⟨front, rest, hdirs, hgrows.walk hwalk, ?_⟩
    simp [Disk.make, hm]
  · rw [child_make_of_ne hk _ (not_and_or.mp hsame)] at hchild
    exact .inl hchild

/-- A name is as it was, or somebody else has made or linked it, or a call has. -/
theorem child_step {s : State} {e : Event} {n m : ℕ} {r : Str}
    (hinv : ∀ i, ∃ refused, Inv refused (callers i) s.disk (s.pcs i))
    (h : (step callers s e).disk.child n r = some m) :
    s.disk.child n r = some m ∨ (∃ type, e = .make n r type) ∨ e = .link n r m ∨
      MadeBy callers (step callers s e).disk n r m := by
  cases e with
  | run i =>
    cases hpc : s.pcs i with
    | mkdir current rest =>
      obtain ⟨refused, hi⟩ := hinv i
      rw [hpc] at hi
      cases hmkdir : s.disk.mkdir (callers i).cwd current with
      | none =>
        simp only [step, systemCall, hpc, hmkdir] at h
        exact .inl h
      | some d' =>
        have hdisk : (step callers s (.run i)).disk = d' := by simp [step, systemCall, hpc, hmkdir]
        rw [hdisk] at h ⊢
        rcases child_mkdir hi hmkdir h with hold | ⟨front, rest', hmade⟩
        · exact .inl hold
        · exact .inr (.inr (.inr ⟨i, front, rest', hmade⟩))
    | isDirPath dirs => simp only [step, systemCall, hpc] at h; exact .inl h
    | isDir current rest => simp only [step, systemCall, hpc] at h; exact .inl h
    | isDirAgain current rest => simp only [step, systemCall, hpc] at h; exact .inl h
    | checkOwner current rest => simp only [step, systemCall, hpc] at h; exact .inl h
    | done result => simp only [step, systemCall, hpc] at h; exact .inl h
  | refuse i => exact .inl h
  | make k t type =>
    simp only [step] at h
    split_ifs at h with hfree
    · by_cases hsame : n = k ∧ r = t
      · obtain ⟨rfl, rfl⟩ := hsame
        exact .inr (.inl ⟨type, rfl⟩)
      · rw [child_make_of_ne hfree.1 _ (not_and_or.mp hsame)] at h
        exact .inl h
    · exact .inl h
  | link k t l =>
    simp only [step] at h
    split_ifs at h with hfree
    · by_cases hsame : n = k ∧ r = t
      · obtain ⟨rfl, rfl⟩ := hsame
        have hl : l = m := by simpa [Disk.link] using h
        exact .inr (.inr (.inl (by rw [hl])))
      · rw [child_link_of_ne hfree.2.1 (not_and_or.mp hsame)] at h
        exact .inl h
    · exact .inl h

/-- Whatever has been named stays as it is, and what the calls add are directories of theirs, each
in the one that its front leads to. -/
theorem calls_make_only (callers : ℕ → Caller) (disk : Disk)
    (hcwd : ∀ i, disk.fileType (callers i).cwd = .dir) (events : List Event) (s : State)
    (hs : s = events.foldl (step callers) (.start callers disk)) :
    (∀ cwd path type, disk.stat cwd path = some type → s.disk.stat cwd path = some type) ∧
      ∀ n r m, s.disk.child n r = some m → disk.child n r = some m ∨
        (∃ type, .make n r type ∈ events) ∨ .link n r m ∈ events ∨
          ∃ i front rest, (callers i).dirs = front ++ r :: rest ∧
            walk s.disk.fs.lookup (startOf (callers i).cwd (callers i).dirs) front = some n ∧
            s.disk.fileType m = .dir := by
  subst hs
  refine ⟨fun cwd path type h => (grows_run callers events (.start callers disk)).stat h, ?_⟩
  induction events using List.reverseRecOn with
  | nil => exact fun n r m h => .inl h
  | append_singleton events e ih =>
    rw [List.foldl_concat]
    intro n r m h
    have hinv : ∀ i, ∃ refused, Inv refused (callers i)
        (events.foldl (step callers) (.start callers disk)).disk
          ((events.foldl (step callers) (.start callers disk)).pcs i) :=
      fun i => ⟨_, inv_run hcwd events i⟩
    rcases child_step hinv h with hold | ⟨type, rfl⟩ | rfl | hmade
    · rcases ih n r m hold with hdisk | ⟨type, hmem⟩ | hmem | hmade
      · exact .inl hdisk
      · exact .inr (.inl ⟨type, List.mem_append_left _ hmem⟩)
      · exact .inr (.inr (.inl (List.mem_append_left _ hmem)))
      · have hby : MadeBy callers (events.foldl (step callers) (.start callers disk)).disk n r m :=
          hmade
        exact .inr (.inr (.inr (hby.grows (grows_step callers _ e))))
    · exact .inr (.inl ⟨type, List.mem_append_right _ (List.mem_singleton_self _)⟩)
    · exact .inr (.inr (.inl (List.mem_append_right _ (List.mem_singleton_self _))))
    · exact .inr (.inr (.inr hmade))

theorem calls_make_only_bothMake :
    (∀ cwd path type, Disk.empty.stat cwd path = some type →
        bothMade.disk.stat cwd path = some type) ∧
      ∀ n r m, bothMade.disk.child n r = some m → Disk.empty.child n r = some m ∨
        (∃ type, .make n r type ∈ bothMake) ∨ .link n r m ∈ bothMake ∨
          ∃ i front rest, ((fun _ : ℕ => makesAB) i).dirs = front ++ r :: rest ∧
            walk bothMade.disk.fs.lookup (startOf 0 makesAB.dirs) front = some n ∧
            bothMade.disk.fileType m = .dir :=
  calls_make_only (fun _ => makesAB) .empty (fun _ => rfl) bothMake _ rfl

end Runs

end Msopcom.MakeDirs
