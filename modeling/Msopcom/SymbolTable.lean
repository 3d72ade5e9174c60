import Mathlib.Data.List.Infix
import Mathlib.Data.List.TakeWhile
import Msopcom.ProgramStart

set_option autoImplicit false

/-!
# The symbols of a kernel binary

The names and the offsets of the kernels are taken from the symbol table that `llvm-objdump`
prints. `grep` picks the lines of global functions before they are read.
-/
namespace Msopcom.SymbolTable
open MsTxRange (splitString splitString_append_cons)
open ProgramStart (Name isSpace)

/-! ## Reading words and numbers -/

/-- The strings that `istream_iterator` reads from a line. -/
def words (line : Name) : List Name := (line.splitOnP isSpace).filter fun word => word ≠ []

def hexDigit (c : UInt8) : Option ℕ :=
  if 48 ≤ c ∧ c ≤ 57 then some (c.toNat - 48)
  else if 97 ≤ c ∧ c ≤ 102 then some (c.toNat - 87)
  else if 65 ≤ c ∧ c ≤ 70 then some (c.toNat - 55)
  else none

def skipSign : Name → Name
  | 43 :: rest => rest
  | 45 :: rest => rest
  | bytes => bytes

/-- `0x` and `0X` are skipped. -/
def skipHexPrefix : Name → Name
  | 48 :: 120 :: rest => rest
  | 48 :: 88 :: rest => rest
  | bytes => bytes

def hexValue (digits : Name) : ℕ := digits.foldl (fun n c => 16 * n + (hexDigit c).getD 0) 0

/-- `ss >> std::hex >> offset`; it fails without digits and when the number does not fit. -/
def readHex (bytes : Name) : Option UInt64 :=
  let digits := (skipHexPrefix (skipSign bytes)).takeWhile fun c => (hexDigit c).isSome
  if digits = [] ∨ 2 ^ 64 ≤ hexValue digits then none
  else if bytes.head? = some 45 then some (0 - UInt64.ofNat (hexValue digits))
  else some (UInt64.ofNat (hexValue digits))

/-! ## Reading the table -/

/-- `.text` -/
def textSegment : Name := [46, 116, 101, 120, 116]

/-- The kernel of a line with the columns address, symbol, segment, type, size and name. -/
def kernelOf (line : Name) : Option (Name × UInt64) :=
  match words line with
  | [address, symbol, segment, type, _, kernelName] =>
    if symbol = [103] ∧ segment = [70] ∧ type = textSegment then
      (readHex address).map fun offset => (kernelName, offset)
    else none
  | _ => none

structure SymInfo where
  kernelNames : List Name := []
  kernelOffsets : List UInt64 := []
  deriving DecidableEq, Repr

def SymInfo.readLine (info : SymInfo) (line : Name) : SymInfo :=
  match kernelOf line with
  | none => info
  | some (kernelName, offset) =>
    { kernelNames := info.kernelNames ++ [kernelName]
      kernelOffsets := info.kernelOffsets ++ [offset] }

/-- If `grep` does not succeed, all lines are read. -/
def getObjdumpOutput (llvmObjdump grep : Name → Option Name) (binaryData : Name) : Option Name :=
  (llvmObjdump binaryData).map fun objdumpOutput => (grep objdumpOutput).getD objdumpOutput

/-- `none` is the answer false. -/
def getSymInfoFromBinary (llvmObjdump grep : Name → Option Name) (data : Option Name)
    (info : SymInfo) : Option SymInfo :=
  match data with
  | none => none
  | some binaryData => (getObjdumpOutput llvmObjdump grep binaryData).map fun output =>
    (splitString 10 output).foldl SymInfo.readLine info

/-- `g     F .text` -/
def grepPattern : Name := [103, 32, 32, 32, 32, 32, 70, 32, 46, 116, 101, 120, 116]

def hasPattern (line : Name) : Bool := decide (grepPattern <:+: line)

/-- Where `grep` succeeds its output has the lines with the pattern. -/
def Selects (grep : Name → Option Name) : Prop :=
  ∀ input output, grep input = some output →
    splitString 10 output = (splitString 10 input).filter hasPattern

/-- `grep` succeeds when it finds a line. -/
def FindsLines (grep : Name → Option Name) : Prop :=
  ∀ input, (grep input).isSome = true ↔ ∃ line ∈ splitString 10 input, hasPattern line = true

/-- `grep` as it is documented. -/
def grepLines (input : Name) : Option Name :=
  let found := (splitString 10 input).filter hasPattern
  if found = [] then none else some (found.flatMap fun line => line ++ [10])

/-! ## Words -/

theorem words_space {c : UInt8} (h : isSpace c = true) (rest : Name) :
    words (c :: rest) = words rest := by
  have hnil : ∀ x ∈ ([] : Name), isSpace x = false := fun x hx => absurd hx List.not_mem_nil
  have hsplit := List.splitOnP_append_cons_of_forall_mem hnil c h rest
  rw [List.nil_append] at hsplit
  rw [words, hsplit]
  rfl

theorem words_word {word : Name} (hne : word ≠ []) (hword : ∀ c ∈ word, isSpace c = false) :
    words word = [word] := by
  rw [words, List.splitOnP_eq_singleton hword]
  simp [hne]

theorem words_append {word : Name} (hne : word ≠ []) (hword : ∀ c ∈ word, isSpace c = false)
    {c : UInt8} (hc : isSpace c = true) (rest : Name) :
    words (word ++ c :: rest) = word :: words rest := by
  rw [words, List.splitOnP_append_cons_of_forall_mem hword c hc rest]
  simp [hne, words]

/-! ## Hexadecimal numbers -/

def hexChar (d : ℕ) : UInt8 := UInt8.ofNat (if d < 10 then 48 + d else 87 + d)

/-- The last `n` digits. -/
def hexDigits : ℕ → ℕ → Name
  | 0, _ => []
  | n + 1, x => hexDigits n (x / 16) ++ [hexChar (x % 16)]

theorem hexDigit_hexChar : ∀ d < 16, hexDigit (hexChar d) = some d := by decide

theorem isSpace_hexChar : ∀ d < 16, isSpace (hexChar d) = false := by decide

theorem hexChar_ne : ∀ d < 16, hexChar d ≠ 43 ∧ hexChar d ≠ 45 ∧ hexChar d ≠ 120 ∧
    hexChar d ≠ 88 := by decide

theorem length_hexDigits (n x : ℕ) : (hexDigits n x).length = n := by
  induction n generalizing x with
  | zero => rfl
  | succ n ih => rw [hexDigits, List.length_append, ih, List.length_singleton]

theorem mem_hexDigits {n x : ℕ} {c : UInt8} (h : c ∈ hexDigits n x) : ∃ d < 16, c = hexChar d := by
  induction n generalizing x with
  | zero => cases h
  | succ n ih =>
    rw [hexDigits, List.mem_append, List.mem_singleton] at h
    rcases h with h | h
    · exact ih h
    · exact ⟨x % 16, Nat.mod_lt _ (by decide), h⟩

theorem hexValue_hexDigits (n x : ℕ) : hexValue (hexDigits n x) = x % 16 ^ n := by
  induction n generalizing x with
  | zero => rw [pow_zero, Nat.mod_one]; rfl
  | succ n ih =>
    have hdigit := hexDigit_hexChar (x % 16) (Nat.mod_lt _ (by decide))
    have hstep : hexValue (hexDigits (n + 1) x) =
        16 * hexValue (hexDigits n (x / 16)) + x % 16 := by
      rw [hexDigits, hexValue, List.foldl_append, List.foldl_cons, List.foldl_nil, hdigit]
      rfl
    rw [hstep, ih, Nat.pow_succ', Nat.mod_mul]
    omega

theorem skipHexPrefix_eq {bytes : Name} (h : ∀ c ∈ bytes, c ≠ 120 ∧ c ≠ 88) :
    skipHexPrefix bytes = bytes := by
  unfold skipHexPrefix
  split
  · exact absurd rfl (h 120 (by simp)).1
  · exact absurd rfl (h 88 (by simp)).2
  · rfl

theorem skipSign_eq {bytes : Name} (h : ∀ c ∈ bytes, c ≠ 43 ∧ c ≠ 45) : skipSign bytes = bytes := by
  unfold skipSign
  split
  · exact absurd rfl (h 43 (by simp)).1
  · exact absurd rfl (h 45 (by simp)).2
  · rfl

/-- An address of 16 digits is read back. -/
theorem readHex_hexDigits (x : UInt64) : readHex (hexDigits 16 x.toNat) = some x := by
  have hlt : x.toNat < 16 ^ 16 := x.toNat_lt
  have hvalue := hexValue_hexDigits 16 x.toNat
  rw [Nat.mod_eq_of_lt hlt] at hvalue
  have hne : hexDigits 16 x.toNat ≠ [] := by
    intro h
    have hlen := length_hexDigits 16 x.toNat
    rw [h] at hlen
    cases hlen
  have hplain : ∀ c ∈ hexDigits 16 x.toNat,
      (hexDigit c).isSome = true ∧ c ≠ 43 ∧ c ≠ 45 ∧ c ≠ 120 ∧ c ≠ 88 := by
    intro c hc
    obtain ⟨d, hd, rfl⟩ := mem_hexDigits hc
    rw [hexDigit_hexChar d hd]
    exact ⟨rfl, hexChar_ne d hd⟩
  generalize hexDigits 16 x.toNat = digits at *
  have hdigits : (skipHexPrefix (skipSign digits)).takeWhile (fun c => (hexDigit c).isSome) =
      digits := by
    rw [skipSign_eq fun c hc => ⟨(hplain c hc).2.1, (hplain c hc).2.2.1⟩,
      skipHexPrefix_eq fun c hc => (hplain c hc).2.2.2]
    exact List.takeWhile_eq_self_iff.mpr fun c hc => (hplain c hc).1
  have hfits : ¬ (digits = [] ∨ 2 ^ 64 ≤ hexValue digits) := by
    rw [hvalue]
    exact not_or.mpr ⟨hne, not_le.mpr hlt⟩
  have hpositive : digits.head? ≠ some 45 := by
    intro h
    exact (hplain 45 (List.mem_of_mem_head? h)).2.2.1 rfl
  unfold readHex
  dsimp only
  rw [hdigits, if_neg hfits, if_neg hpositive, hvalue, UInt64.ofNat_toNat]

/-! ## The table as it is printed -/

inductive Line
  | kernel (kernelName : Name) (offset size : UInt64)
  | other (line : Name)

/-- `llvm-objdump -t` prints a function so. -/
def Line.text : Line → Name
  | .kernel kernelName offset size =>
    hexDigits 16 offset.toNat ++ 32 :: (grepPattern ++ 9 :: (hexDigits 16 size.toNat ++
      32 :: kernelName))
  | .other line => line

def Line.kernel? : Line → Option (Name × UInt64)
  | .kernel kernelName offset _ => some (kernelName, offset)
  | .other _ => none

/-- A name is one word, and what is printed beside the functions is not read as one. -/
def Line.Printed : Line → Prop
  | .kernel kernelName _ _ => kernelName ≠ [] ∧ ∀ c ∈ kernelName, isSpace c = false
  | .other line => 10 ∉ line ∧ kernelOf line = none

theorem isSpace_hexDigits {n x : ℕ} {c : UInt8} (h : c ∈ hexDigits n x) : isSpace c = false := by
  obtain ⟨d, hd, rfl⟩ := mem_hexDigits h
  exact isSpace_hexChar d hd

theorem hexDigits_ne_nil (n x : ℕ) : hexDigits (n + 1) x ≠ [] := by
  rw [hexDigits]
  exact List.append_ne_nil_of_right_ne_nil _ (List.cons_ne_nil _ _)

theorem words_kernel {kernelName : Name} (hne : kernelName ≠ [])
    (hname : ∀ c ∈ kernelName, isSpace c = false) (offset size : UInt64) :
    words (Line.kernel kernelName offset size).text =
      [hexDigits 16 offset.toNat, [103], [70], textSegment, hexDigits 16 size.toNat,
        kernelName] := by
  have hspace : isSpace 32 = true := rfl
  have htab : isSpace 9 = true := rfl
  have hglobal : ∀ c ∈ ([103] : Name), isSpace c = false := by simp [isSpace]
  have hfunction : ∀ c ∈ ([70] : Name), isSpace c = false := by simp [isSpace]
  have htextSegment : ∀ c ∈ textSegment, isSpace c = false := by simp [textSegment, isSpace]
  have hne' : textSegment ≠ [] := List.cons_ne_nil _ _
  have htext : (Line.kernel kernelName offset size).text =
      hexDigits 16 offset.toNat ++ 32 :: ([103] ++ 32 :: 32 :: 32 :: 32 :: 32 :: ([70] ++ 32 ::
        (textSegment ++ 9 :: (hexDigits 16 size.toNat ++ 32 :: kernelName)))) := rfl
  rw [htext, words_append (hexDigits_ne_nil 15 _) (fun _ => isSpace_hexDigits) hspace,
    words_append (List.cons_ne_nil _ _) hglobal hspace, words_space hspace, words_space hspace,
    words_space hspace, words_space hspace, words_append (List.cons_ne_nil _ _) hfunction hspace,
    words_append hne' htextSegment htab,
    words_append (hexDigits_ne_nil 15 _) (fun _ => isSpace_hexDigits) hspace, words_word hne hname]

theorem kernelOf_text {line : Line} (h : line.Printed) : kernelOf line.text = line.kernel? := by
  cases line with
  | kernel kernelName offset size =>
    rw [kernelOf, words_kernel h.1 h.2]
    dsimp only
    rw [if_pos ⟨rfl, rfl, rfl⟩, readHex_hexDigits]
    rfl
  | other line => exact h.2

theorem newline_not_mem_text {line : Line} (h : line.Printed) : 10 ∉ line.text := by
  cases line with
  | kernel kernelName offset size =>
    have hname : 10 ∉ kernelName := fun hmem => by
      have := h.2 10 hmem
      cases this
    have hdigits : ∀ n x, 10 ∉ hexDigits n x := fun n x hmem => by
      have := isSpace_hexDigits hmem
      cases this
    have hpattern : 10 ∉ grepPattern := by decide
    simp [Line.text, hname, hdigits, hpattern]
  | other line => exact h.1

/-- The pattern stands in each line that is printed for a function. -/
theorem hasPattern_text {line : Line} (h : line.Printed) (hkernel : kernelOf line.text ≠ none) :
    hasPattern line.text = true := by
  cases line with
  | kernel kernelName offset size =>
    apply decide_eq_true
    exact ⟨hexDigits 16 offset.toNat ++ [32], 9 :: (hexDigits 16 size.toNat ++ 32 :: kernelName),
      by simp [Line.text]⟩
  | other line => exact absurd h.2 hkernel

theorem splitString_lines {split : UInt8} {lines : List Name} (h : ∀ line ∈ lines, split ∉ line) :
    splitString split (lines.flatMap fun line => line ++ [split]) = lines := by
  induction lines with
  | nil => rfl
  | cons line lines ih =>
    rw [List.flatMap_cons, List.append_assoc, List.singleton_append,
      splitString_append_cons (h line List.mem_cons_self),
      ih fun line hline => h line (List.mem_cons_of_mem _ hline)]

/-! ## The whole table -/

/-- The names and the offsets stay side by side. -/
def SymInfo.append (info : SymInfo) (kernels : List (Name × UInt64)) : SymInfo where
  kernelNames := info.kernelNames ++ kernels.map Prod.fst
  kernelOffsets := info.kernelOffsets ++ kernels.map Prod.snd

theorem append_injective {info : SymInfo} {kernels kernels' : List (Name × UInt64)}
    (h : info.append kernels = info.append kernels') : kernels = kernels' := by
  have hnames := List.append_cancel_left (congrArg SymInfo.kernelNames h)
  have hoffsets := List.append_cancel_left (congrArg SymInfo.kernelOffsets h)
  rw [List.zip_of_prod hnames hoffsets]
  exact (List.zip_of_prod rfl rfl).symm

theorem foldl_readLine (info : SymInfo) (lines : List Name) :
    lines.foldl SymInfo.readLine info = info.append (lines.filterMap kernelOf) := by
  induction lines generalizing info with
  | nil => simp [SymInfo.append]
  | cons line lines ih =>
    rw [List.foldl_cons, ih, SymInfo.readLine, List.filterMap_cons]
    cases kernelOf line with
    | none => rfl
    | some kernel => simp [SymInfo.append]

/-- What a filter leaves out is not missed exactly when none of it counts. -/
theorem filterMap_filter_eq_iff {α β : Type} (f : α → Option β) (p : α → Bool) (l : List α) :
    (l.filter p).filterMap f = l.filterMap f ↔ ∀ a ∈ l, f a ≠ none → p a = true := by
  induction l with
  | nil => simp
  | cons a l ih =>
    have hle : ((l.filter p).filterMap f).length ≤ (l.filterMap f).length :=
      (List.filter_sublist.filterMap f).length_le
    rw [List.forall_mem_cons, ← ih, List.filterMap_cons, List.filter_cons]
    cases hf : f a with
    | none =>
      cases p a with
      | false => simp
      | true => simp [hf]
    | some b =>
      cases p a with
      | false =>
        refine iff_of_false (fun h => ?_) fun h => absurd (h.1 (Option.some_ne_none b)) (by decide)
        have hlen := congrArg List.length h
        dsimp only at hlen
        rw [if_neg Bool.false_ne_true, List.length_cons] at hlen
        omega
      | true => simp [hf]

theorem not_mem_of_mem_splitString {split : UInt8} {text : Name} :
    ∀ line ∈ splitString split text, split ∉ line := by
  induction text with
  | nil => simp [splitString]
  | cons b text ih =>
    rw [splitString]
    split_ifs with hb
    · simpa using ih
    · cases hrest : splitString split text with
      | nil => simpa using Ne.symm hb
      | cons token tokens =>
        rw [hrest, List.forall_mem_cons] at ih
        rw [List.forall_mem_cons, List.mem_cons, not_or]
        exact ⟨⟨Ne.symm hb, ih.1⟩, ih.2⟩

theorem selects_grepLines : Selects grepLines := by
  intro input output h
  unfold grepLines at h
  dsimp only at h
  split_ifs at h
  rw [← Option.some.inj h]
  refine splitString_lines fun line hline => ?_
  exact not_mem_of_mem_splitString line (List.mem_of_mem_filter hline)

theorem findsLines_grepLines : FindsLines grepLines := by
  intro input
  unfold grepLines
  dsimp only
  split_ifs with hnone
  · rw [List.filter_eq_nil_iff] at hnone
    refine iff_of_false Bool.false_ne_true ?_
    rintro ⟨line, hline, hpattern⟩
    exact hnone line hline hpattern
  · obtain ⟨line, hline⟩ := List.exists_mem_of_ne_nil _ hnone
    exact iff_of_true rfl ⟨line, List.mem_filter.mp hline⟩

/-- One kernel, `k_1` at 128, behind the title of the table. -/
def oneKernel : List Line := [.other [83, 89, 77, 66, 79, 76, 58], .kernel [107, 95, 49] 128 168]

/-- Two kernels; the columns of the first are set apart by single spaces. -/
def twoSpacings : Name :=
  [48, 32, 103, 32, 70, 32, 46, 116, 101, 120, 116, 32, 48, 32, 97, 10] ++
    ((Line.kernel [98] 1 1).text ++ [10])

end Msopcom.SymbolTable
