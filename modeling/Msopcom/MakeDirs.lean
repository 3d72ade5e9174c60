import Mathlib.Logic.Function.Basic
import Msopcom.KernelNameLookup
import Msopcom.PathFiles

set_option autoImplicit false

/-!
# Directories that are made together

A call makes the directories of a path from the first to the last. Several processes do so at one
time, on a disk on which others make files and links too. Nobody removes anything.
-/
namespace Msopcom.MakeDirs
open Msopcom.Path StackFold
open MsTxRange (splitString splitString_append_cons)
open ProgramStart (splitString_of_not_mem)

/-! ## The disk -/

inductive FileType
  | fifo
  | chr
  | dir
  | blk
  | reg
  | sock
  deriving DecidableEq

/-- The bits of `st_mode` for the type. -/
def FileType.mode : FileType → UInt32
  | .fifo => 0x1000
  | .chr => 0x2000
  | .dir => 0x4000
  | .blk => 0x6000
  | .reg => 0x8000
  | .sock => 0xC000

def sIfdir : UInt32 := 0x4000

/-- The files are numbered as they come; 0 is the root. Links are followed. -/
structure Disk where
  next : ℕ
  fileType : ℕ → FileType
  parent : ℕ → ℕ
  child : ℕ → Str → Option ℕ
  root_lt : 0 < next
  root_dir : fileType 0 = .dir
  parent_root : parent 0 = 0
  unused : ∀ n, next ≤ n → fileType n = .reg
  parent_lt : ∀ n < next, parent n < next
  child_lt : ∀ n r m, child n r = some m → m < next

/-- A disk with nothing but the root. -/
def Disk.empty : Disk where
  next := 1
  fileType n := if n = 0 then .dir else .reg
  parent _ := 0
  child _ _ := none
  root_lt := Nat.one_pos
  root_dir := rfl
  parent_root := rfl
  unused _ h := if_neg (Nat.ne_of_gt h)
  parent_lt _ _ := Nat.one_pos
  child_lt _ _ _ h := by cases h

def Disk.fs (d : Disk) : FileSystem ℕ where
  root := 0
  isDir n := d.fileType n = .dir
  parent := d.parent
  child := d.child
  root_isDir := by simp [d.root_dir]
  parent_root := d.parent_root

theorem Disk.lt_of_dir (d : Disk) {n : ℕ} (h : d.fileType n = .dir) : n < d.next := by
  by_contra hn
  rw [d.unused n (Nat.le_of_not_lt hn)] at h
  cases h

/-- A file of a type comes into a directory. -/
def Disk.make (d : Disk) (n : ℕ) (hn : d.fileType n = .dir) (r : Str) (type : FileType) : Disk where
  next := d.next + 1
  fileType := Function.update d.fileType d.next type
  parent := Function.update d.parent d.next n
  child := Function.update d.child n (Function.update (d.child n) r (some d.next))
  root_lt := Nat.succ_pos _
  root_dir := by rw [Function.update_of_ne (Nat.ne_of_lt d.root_lt), d.root_dir]
  parent_root := by rw [Function.update_of_ne (Nat.ne_of_lt d.root_lt), d.parent_root]
  unused k hk := by rw [Function.update_of_ne (Nat.ne_of_gt hk), d.unused k (Nat.le_of_succ_le hk)]
  parent_lt k hk := by
    by_cases heq : k = d.next
    · simp [heq, Nat.lt_succ_of_lt (d.lt_of_dir hn)]
    · have hlt : k < d.next := by omega
      simp [heq, Nat.lt_succ_of_lt (d.parent_lt k hlt)]
  child_lt k s m h := by
    by_cases heq : k = n
    · subst heq
      rw [Function.update_self] at h
      by_cases hs : s = r
      · simp_all
      · rw [Function.update_of_ne hs] at h
        exact Nat.lt_succ_of_lt (d.child_lt k s m h)
    · rw [Function.update_of_ne heq] at h
      exact Nat.lt_succ_of_lt (d.child_lt k s m h)

/-- A name is linked to what is there. -/
def Disk.link (d : Disk) (n : ℕ) (r : Str) (m : ℕ) (hm : m < d.next) : Disk :=
  { d with
    child := Function.update d.child n (Function.update (d.child n) r (some m))
    child_lt := fun k s l h => by
      by_cases heq : k = n
      · subst heq
        rw [Function.update_self] at h
        by_cases hs : s = r
        · simp_all
        · rw [Function.update_of_ne hs] at h
          exact d.child_lt k s l h
      · rw [Function.update_of_ne heq] at h
        exact d.child_lt k s l h }

/-! ## System calls -/

/-- The type of the file that a path names, as `stat` tells it. -/
def Disk.stat (d : Disk) (cwd : ℕ) (path : Str) : Option FileType :=
  (d.fs.named cwd path).map d.fileType

/-- `IsDir` tests one bit. -/
def Disk.isDir (d : Disk) (cwd : ℕ) (checkPath : Str) : Bool :=
  match d.stat cwd checkPath with
  | some type => type.mode &&& sIfdir ≠ 0
  | none => false

/-- `CheckOwnerPermission`, which fails only where `stat` does. -/
def Disk.checkOwnerPermission (d : Disk) (cwd : ℕ) (path : Str) : Bool := (d.stat cwd path).isSome

/-- The last segment is made in the directory that the others lead to. -/
def Disk.makeLeaf (d : Disk) (start : ℕ) (segments : List Str) : Option Disk :=
  if resolve (segments.getLastD []) ≠ .push then none
  else
    match walk d.fs.lookup start segments.dropLast with
    | none => none
    | some n =>
      if hn : d.fileType n = .dir ∧ d.child n (segments.getLastD []) = none then
        some (d.make n hn.1 (segments.getLastD []) .dir)
      else none

/-- `mkdir` of a path that is not refused for another reason. -/
def Disk.mkdir (d : Disk) (cwd : ℕ) (path : Str) : Option Disk :=
  if path = [] then none
  else d.makeLeaf (if path.head? = some pathSep then d.fs.root else cwd) (path.splitOn pathSep)

/-! ## A call -/

/-- Where a call is: before its next system call, or at its end. -/
inductive Pc
  | isDirPath (dirs : List Str)
  | isDir (current : Str) (rest : List Str)
  | mkdir (current : Str) (rest : List Str)
  | isDirAgain (current : Str) (rest : List Str)
  | checkOwner (current : Str) (rest : List Str)
  | done (result : Bool)
  deriving DecidableEq

/-- The first directory begins the current path, the others are appended to it. -/
def extend (current : Option Str) (it : Str) : Str :=
  match current with
  | none => it
  | some current => current ++ (pathSep :: it)

/-- The rounds of the loop up to the next system call. -/
def rounds (current : Option Str) : List Str → Pc
  | [] => .done true
  | it :: rest =>
    if it = [] then rounds (some (extend current it)) rest else .isDir (extend current it) rest

/-- Who calls `MkdirRecusively`, with what and where. -/
structure Caller where
  path : Str
  getcwd : Option Cwd
  cwd : ℕ

def Caller.dirs (c : Caller) : List Str := splitString pathSep (checkedPath c.getcwd c.path)

def Caller.start (c : Caller) : Pc :=
  if c.path = [] then .done false
  else if c.dirs = [] then .done false
  else .isDirPath c.dirs

/-- What the call does when its system call has succeeded or failed. -/
def reply : Pc → Bool → Pc
  | .isDirPath dirs, ok => if ok then .done true else rounds none dirs
  | .isDir current rest, ok => if ok then rounds (some current) rest else .mkdir current rest
  | .mkdir current rest, ok => if ok then rounds (some current) rest else .isDirAgain current rest
  | .isDirAgain current rest, ok => if ok then .checkOwner current rest else .done false
  | .checkOwner current rest, ok => if ok then rounds (some current) rest else .done false
  | .done result, _ => .done result

/-- The system call that is next, and what it leaves. -/
def systemCall (c : Caller) (d : Disk) : Pc → Bool × Disk
  | .isDirPath _ => (d.isDir c.cwd c.path, d)
  | .isDir current _ => (d.isDir c.cwd current, d)
  | .mkdir current _ =>
    match d.mkdir c.cwd current with
    | some d' => (true, d')
    | none => (false, d)
  | .isDirAgain current _ => (d.isDir c.cwd current, d)
  | .checkOwner current _ => (d.checkOwnerPermission c.cwd current, d)
  | .done _ => (true, d)

/-! ## All of them -/

structure State where
  disk : Disk
  pcs : ℕ → Pc

inductive Event
  | run (i : ℕ)
  /-- The system refuses what the call asks for, whatever is on the disk. -/
  | refuse (i : ℕ)
  | make (n : ℕ) (r : Str) (type : FileType)
  | link (n : ℕ) (r : Str) (m : ℕ)
  deriving DecidableEq

def State.start (callers : ℕ → Caller) (disk : Disk) : State :=
  ⟨disk, fun i => (callers i).start⟩

def step (callers : ℕ → Caller) (s : State) : Event → State
  | .run i =>
    let called := systemCall (callers i) s.disk (s.pcs i)
    ⟨called.2, Function.update s.pcs i (reply (s.pcs i) called.1)⟩
  | .refuse i => { s with pcs := Function.update s.pcs i (reply (s.pcs i) false) }
  | .make n r type =>
    if h : s.disk.fileType n = .dir ∧ s.disk.child n r = none then
      { s with disk := s.disk.make n h.1 r type }
    else s
  | .link n r m =>
    if h : s.disk.fileType n = .dir ∧ m < s.disk.next ∧ s.disk.child n r = none then
      { s with disk := s.disk.link n r m h.2.1 }
    else s

/-! ## The disk only grows -/

/-- What leads anywhere leads there still, to a file of the same type. -/
structure Grows (d d' : Disk) : Prop where
  next_le : d.next ≤ d'.next
  fileType : ∀ n < d.next, d'.fileType n = d.fileType n
  lookup : ∀ n r m, d.fs.lookup n r = some m → d'.fs.lookup n r = some m

section Grows
variable {d d' d'' : Disk} {n m cwd : ℕ} {r : Str} {l : List Str} {path : Str}

theorem Grows.refl (d : Disk) : Grows d d := ⟨le_rfl, fun _ _ => rfl, fun _ _ _ h => h⟩

theorem Grows.trans (h : Grows d d') (h' : Grows d' d'') : Grows d d'' where
  next_le := Nat.le_trans h.next_le h'.next_le
  fileType n hn := by rw [h'.fileType n (Nat.lt_of_lt_of_le hn h.next_le), h.fileType n hn]
  lookup n r m hlookup := h'.lookup n r m (h.lookup n r m hlookup)

theorem dir_of_lookup (h : d.fs.lookup n r = some m) : d.fileType n = .dir := by
  unfold FileSystem.lookup at h
  split_ifs at h with hdir
  · simpa [Disk.fs] using hdir
  · simpa [Disk.fs] using hdir
  · simpa [Disk.fs] using hdir

theorem lookup_lt (h : d.fs.lookup n r = some m) : m < d.next := by
  have hn : n < d.next := d.lt_of_dir (dir_of_lookup h)
  rcases lookup_cases h with ⟨_, rfl⟩ | ⟨_, rfl⟩ | ⟨_, hchild⟩
  · exact hn
  · exact d.parent_lt n hn
  · exact d.child_lt n r m hchild

theorem walk_lt (hl : l ≠ []) (h : walk d.fs.lookup n l = some m) : m < d.next := by
  obtain ⟨u, x, rfl⟩ := (List.eq_nil_or_concat' l).resolve_left hl
  rw [walk_append] at h
  obtain ⟨k, _, hx⟩ := Option.bind_eq_some_iff.mp h
  rw [walk_singleton] at hx
  exact lookup_lt hx

theorem Grows.walk (h : Grows d d') (hl : walk d.fs.lookup n l = some m) :
    walk d'.fs.lookup n l = some m := by
  induction l using List.reverseRecOn generalizing m with
  | nil => exact hl
  | append_singleton u x ih =>
    rw [walk_append] at hl ⊢
    obtain ⟨k, hk, hx⟩ := Option.bind_eq_some_iff.mp hl
    rw [walk_singleton] at hx
    rw [ih hk, Option.bind_some, walk_singleton, h.lookup k x m hx]

theorem named_lt (h : d.fs.named cwd path = some n) : n < d.next := by
  unfold FileSystem.named at h
  split_ifs at h
  · exact walk_lt (List.splitOn_ne_nil _ _) h
  · exact walk_lt (List.splitOn_ne_nil _ _) h

theorem Grows.named (h : Grows d d') (hn : d.fs.named cwd path = some n) :
    d'.fs.named cwd path = some n := by
  unfold FileSystem.named at hn ⊢
  split_ifs at hn with hnil hhead
  · rw [if_neg hnil, if_pos hhead]
    exact h.walk hn
  · rw [if_neg hnil, if_neg hhead]
    exact h.walk hn

theorem Grows.stat {type : FileType} (h : Grows d d') (hstat : d.stat cwd path = some type) :
    d'.stat cwd path = some type := by
  obtain ⟨n, hn, rfl⟩ := Option.map_eq_some_iff.mp hstat
  rw [Disk.stat, h.named hn, Option.map_some, h.fileType n (named_lt hn)]

theorem Grows.isDir (h : Grows d d') (hdir : d.isDir cwd path = true) :
    d'.isDir cwd path = true := by
  unfold Disk.isDir at hdir ⊢
  cases hstat : d.stat cwd path with
  | none => rw [hstat] at hdir; cases hdir
  | some type => rw [h.stat hstat]; rwa [hstat] at hdir

theorem grows_of_child (hnext : d.next ≤ d'.next)
    (htype : ∀ n < d.next, d'.fileType n = d.fileType n)
    (hparent : ∀ n < d.next, d'.parent n = d.parent n)
    (hchild : ∀ n r m, d.child n r = some m → d'.child n r = some m) : Grows d d' := by
  refine ⟨hnext, htype, fun n r m h => ?_⟩
  have hdir : d.fileType n = .dir := dir_of_lookup h
  have hdir' : d'.fileType n = .dir := by rw [htype n (d.lt_of_dir hdir), hdir]
  have hparent' := hparent n (d.lt_of_dir hdir)
  simp only [FileSystem.lookup, Disk.fs, hdir, hdir', hparent'] at h ⊢
  split_ifs at h ⊢
  · exact h
  · exact h
  · exact hchild n r m h

theorem child_make (hn : d.fileType n = .dir) (type : FileType) :
    (d.make n hn r type).child n r = some d.next := by simp [Disk.make]

theorem child_make_of_ne (hn : d.fileType n = .dir) (type : FileType) {k : ℕ} {t : Str}
    (hne : k ≠ n ∨ t ≠ r) : (d.make n hn r type).child k t = d.child k t := by
  by_cases hk : k = n
  · subst hk
    simp [Disk.make, hne.resolve_left (fun h => h rfl)]
  · simp [Disk.make, hk]

theorem grows_make (hn : d.fileType n = .dir) (hmissing : d.child n r = none) (type : FileType) :
    Grows d (d.make n hn r type) := by
  apply grows_of_child
  · exact Nat.le_succ _
  · exact fun k hk => Function.update_of_ne (Nat.ne_of_lt hk) _ _
  · exact fun k hk => Function.update_of_ne (Nat.ne_of_lt hk) _ _
  · intro k t m h
    rw [child_make_of_ne hn type, h]
    by_contra hsame
    rw [not_or, not_not, not_not] at hsame
    rw [hsame.1, hsame.2, hmissing] at h
    cases h

theorem child_link_of_ne (hm : m < d.next) {k : ℕ} {t : Str} (hne : k ≠ n ∨ t ≠ r) :
    (d.link n r m hm).child k t = d.child k t := by
  by_cases hk : k = n
  · subst hk
    simp [Disk.link, hne.resolve_left (fun h => h rfl)]
  · simp [Disk.link, hk]

theorem grows_link (hm : m < d.next) (hmissing : d.child n r = none) :
    Grows d (d.link n r m hm) := by
  apply grows_of_child
  · exact le_rfl
  · exact fun _ _ => rfl
  · exact fun _ _ => rfl
  · intro k t l h
    rw [child_link_of_ne hm, h]
    by_contra hsame
    rw [not_or, not_not, not_not] at hsame
    rw [hsame.1, hsame.2, hmissing] at h
    cases h

theorem makeLeaf_eq_some {start : ℕ} (h : d.makeLeaf start (l ++ [r]) = some d') :
    ∃ n, ∃ hn : d.fileType n = .dir, walk d.fs.lookup start l = some n ∧
      d.child n r = none ∧ resolve r = .push ∧ d' = d.make n hn r .dir := by
  unfold Disk.makeLeaf at h
  simp only [List.getLastD_concat, List.dropLast_concat] at h
  split_ifs at h with hr
  split at h
  · cases h
  · rename_i n hn
    split_ifs at h with hdir
    exact ⟨n, hdir.1, hn, hdir.2, not_not.mp hr, (Option.some.inj h).symm⟩

theorem grows_mkdir (h : d.mkdir cwd path = some d') : Grows d d' := by
  by_cases hnil : path = []
  · rw [Disk.mkdir, if_pos hnil] at h
    cases h
  rw [Disk.mkdir, if_neg hnil] at h
  obtain ⟨l, r, hsplit⟩ := (List.eq_nil_or_concat' (path.splitOn pathSep)).resolve_left
    (List.splitOn_ne_nil _ _)
  rw [hsplit] at h
  obtain ⟨n, hn, _, hmissing, _, rfl⟩ := makeLeaf_eq_some h
  exact grows_make hn hmissing .dir

theorem grows_systemCall (c : Caller) (d : Disk) (pc : Pc) : Grows d (systemCall c d pc).2 := by
  cases pc with
  | mkdir current rest =>
    unfold systemCall
    dsimp only
    split
    · rename_i hmkdir
      exact grows_mkdir hmkdir
    · exact Grows.refl d
  | isDirPath dirs => exact Grows.refl d
  | isDir current rest => exact Grows.refl d
  | isDirAgain current rest => exact Grows.refl d
  | checkOwner current rest => exact Grows.refl d
  | done result => exact Grows.refl d

theorem isDir_of_dir (hn : d.fs.named cwd path = some n) (hdir : d.fileType n = .dir) :
    d.isDir cwd path = true := by
  rw [Disk.isDir, Disk.stat, hn, Option.map_some, hdir]
  rfl

end Grows

theorem grows_step (callers : ℕ → Caller) (s : State) (e : Event) :
    Grows s.disk (step callers s e).disk := by
  cases e with
  | run i => exact grows_systemCall (callers i) s.disk (s.pcs i)
  | refuse i => exact Grows.refl s.disk
  | make n r type =>
    dsimp only [step]
    split_ifs with h
    · exact grows_make h.1 h.2 type
    · exact Grows.refl s.disk
  | link n r m =>
    dsimp only [step]
    split_ifs with h
    · exact grows_link h.2.1 h.2.2
    · exact Grows.refl s.disk

/-! ## The directories of a call -/

/-- What a call makes one after the other: what is not empty is behind what is, and none of it
leads back. -/
structure Segments (dirs : List Str) : Prop where
  noSep : ∀ r ∈ dirs, pathSep ∉ r
  noParent : ∀ r ∈ dirs, r ≠ parentSegment
  nonempty : ∀ r ∈ dirs.tail, r ≠ []

theorem splitString_join {route : List Str} (hnil : route ≠ [])
    (h : ∀ r ∈ route, r ≠ [] ∧ pathSep ∉ r) :
    splitString pathSep (join route [pathSep]) = route := by
  induction route with
  | nil => exact absurd rfl hnil
  | cons r rest ih =>
    have hr := h r List.mem_cons_self
    cases rest with
    | nil => exact splitString_of_not_mem hr.1 hr.2
    | cons r' rest =>
      have hjoin : join (r :: r' :: rest) [pathSep] =
          r ++ pathSep :: join (r' :: rest) [pathSep] := by
        rw [join_eq_intercalate, join_eq_intercalate,
          List.intercalate_cons_of_ne_nil (List.cons_ne_nil r' rest)]
        simp
      rw [hjoin, splitString_append_cons hr.2,
        ih (List.cons_ne_nil r' rest) fun s hs => h s (List.mem_cons_of_mem r hs)]

theorem segments_of_route {route : List Str}
    (h : ∀ r ∈ route, r ≠ [] ∧ r ≠ parentSegment ∧ pathSep ∉ r) :
    Segments route ∧ Segments ([] :: route) := by
  refine ⟨⟨fun r hr => (h r hr).2.2, fun r hr => (h r hr).2.1,
    fun r hr => (h r (List.mem_of_mem_tail hr)).1⟩, fun r hr => ?_, fun r hr => ?_,
    fun r hr => (h r hr).1⟩
  · rcases List.mem_cons.mp hr with rfl | hr
    · exact List.not_mem_nil
    · exact (h r hr).2.2
  · rcases List.mem_cons.mp hr with rfl | hr
    · decide
    · exact (h r hr).2.1

/-- The directories are those of the path that is resolved. The root has none but itself. -/
theorem dirs_cases (c : Caller) : Segments c.dirs ∧
    (c.dirs = [[]] ∧ checkedPath c.getcwd c.path = [pathSep] ∨
      c.dirs ≠ [] ∧ c.dirs ≠ [[]] ∧ join c.dirs [pathSep] = checkedPath c.getcwd c.path) := by
  let p : Path := (Msopcom.Path.parse c.path).resolved c.getcwd
  have hroute : ∀ r ∈ p.route, r ≠ [] ∧ r ≠ parentSegment ∧ pathSep ∉ r := fun r hr =>
    ⟨(mem_resolved hr).1, (mem_resolved hr).2.2, (p.components r hr).2.2⟩
  have hsegments := segments_of_route hroute
  have hdirs : c.dirs = splitString pathSep p.toString := rfl
  have hchecked : checkedPath c.getcwd c.path = p.toString := rfl
  cases habsolute : p.absolute with
  | true =>
    have htext : p.toString = [] ++ pathSep :: join p.route [pathSep] := by
      simp [Path.toString, habsolute]
    rw [htext, splitString_append_cons List.not_mem_nil] at hdirs
    rw [htext] at hchecked
    cases hp : p.route with
    | nil =>
      rw [hp] at hdirs hchecked hsegments
      have hsplit : splitString pathSep (join [] [pathSep]) = [] := rfl
      rw [hsplit] at hdirs
      exact ⟨hdirs ▸ hsegments.2, .inl ⟨hdirs, hchecked⟩⟩
    | cons r rest =>
      have hne : p.route ≠ [] := hp ▸ List.cons_ne_nil r rest
      rw [splitString_join hne fun r hr => ⟨(hroute r hr).1, (hroute r hr).2.2⟩] at hdirs
      rw [hdirs, hchecked]
      refine ⟨hsegments.2, .inr ⟨List.cons_ne_nil _ _, by simp [hne], ?_⟩⟩
      rw [join_eq_intercalate, List.intercalate_cons_of_ne_nil hne, ← join_eq_intercalate]
      rfl
  | false =>
    cases hp : p.route with
    | nil =>
      have htext : p.toString = currentSegment := by simp [Path.toString, habsolute, hp]
      have hcurrent : ∀ r ∈ [currentSegment], r ≠ [] ∧ r ≠ parentSegment ∧ pathSep ∉ r := by
        simp [currentSegment, parentSegment, pathSep]
      have hsplit : splitString pathSep currentSegment = [currentSegment] := rfl
      rw [hdirs, hchecked, htext, hsplit]
      exact ⟨(segments_of_route hcurrent).1, .inr ⟨List.cons_ne_nil _ _, by decide, rfl⟩⟩
    | cons r rest =>
      have hne : p.route ≠ [] := hp ▸ List.cons_ne_nil r rest
      have htext : p.toString = join p.route [pathSep] := by simp [Path.toString, habsolute, hne]
      rw [htext, splitString_join hne fun r hr => ⟨(hroute r hr).1, (hroute r hr).2.2⟩] at hdirs
      rw [hdirs, hchecked, htext]
      refine ⟨hsegments.1, .inr ⟨hne, fun heq => ?_, rfl⟩⟩
      exact (hroute [] (heq ▸ List.mem_singleton_self [])).1 rfl

/-! ## A path of first directories -/

/-- Where the walk along the directories begins. -/
def startOf (cwd : ℕ) (dirs : List Str) : ℕ := if dirs.head? = some [] then 0 else cwd

section Front
variable {d d' : Disk} {dirs front rest : List Str} {r : Str} {cwd n m : ℕ}

theorem join_concat (hfront : front ≠ []) (r : Str) :
    join (front ++ [r]) [pathSep] = join front [pathSep] ++ pathSep :: r := by
  cases front with
  | nil => exact absurd rfl hfront
  | cons s rest => simp [join, List.foldl_append]

/-- A text begins with the separator where its first segment is empty. -/
theorem head?_join (hr : r ≠ []) (hsep : ∀ s ∈ front ++ [r], pathSep ∉ s) :
    (join (front ++ [r]) [pathSep]).head? = some pathSep ↔ (front ++ [r]).head? = some [] := by
  cases front with
  | nil =>
    obtain ⟨b, r, rfl⟩ := List.exists_cons_of_ne_nil hr
    have hb : b ≠ pathSep := fun heq => hsep (b :: r) (by simp) (by simp [heq])
    simp [join, hb]
  | cons s front =>
    cases s with
    | nil =>
      have hjoin : (join ([] :: (front ++ [r])) [pathSep]).head? = some pathSep := by
        rw [join_cons]
        cases front <;> simp
      exact iff_of_true hjoin rfl
    | cons b s =>
      have hb : b ≠ pathSep := fun heq => hsep (b :: s) (by simp) (by simp [heq])
      rw [List.cons_append, join_cons]
      simp [hb]

theorem join_ne_nil (hr : r ≠ []) : join (front ++ [r]) [pathSep] ≠ [] := by
  cases front with
  | nil => exact hr
  | cons s front =>
    rw [List.cons_append, join_cons]
    cases front <;> simp

theorem splitOn_join (hsep : ∀ s ∈ front ++ [r], pathSep ∉ s) :
    (join (front ++ [r]) [pathSep]).splitOn pathSep = front ++ [r] := by
  rw [join_eq_intercalate]
  exact List.splitOn_intercalate pathSep hsep (List.concat_ne_nil r front)

theorem start_eq (hr : r ≠ []) (hsep : ∀ s ∈ front ++ [r], pathSep ∉ s) :
    (if (join (front ++ [r]) [pathSep]).head? = some pathSep then 0 else cwd) =
      startOf cwd (front ++ [r]) :=
  if_congr (head?_join hr hsep) rfl rfl

/-- A path of first directories names what the walk along them leads to. -/
theorem named_join (hr : r ≠ []) (hsep : ∀ s ∈ front ++ [r], pathSep ∉ s) :
    d.fs.named cwd (join (front ++ [r]) [pathSep]) =
      walk d.fs.lookup (startOf cwd (front ++ [r])) (front ++ [r]) := by
  rw [FileSystem.named, if_neg (join_ne_nil hr), splitOn_join hsep, ← start_eq hr hsep]
  rfl

theorem mkdir_join (hr : r ≠ []) (hsep : ∀ s ∈ front ++ [r], pathSep ∉ s) :
    d.mkdir cwd (join (front ++ [r]) [pathSep]) =
      d.makeLeaf (startOf cwd (front ++ [r])) (front ++ [r]) := by
  rw [Disk.mkdir, if_neg (join_ne_nil hr), splitOn_join hsep, ← start_eq hr hsep]
  rfl

theorem startOf_append (r : Str) (front rest : List Str) :
    startOf cwd (front ++ r :: rest) = startOf cwd (front ++ [r]) := by
  cases front <;> rfl

end Front

end Msopcom.MakeDirs
