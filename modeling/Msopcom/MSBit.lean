import Mathlib.Data.List.AList
import Mathlib.Data.List.Induction
import Msopcom.Decoder

set_option autoImplicit false

/-!
# The control binary of the instruction bindings

The bindings become entries that name their function by a number, and a list of the names. The
binary is read back by its own sizes.
-/
namespace Msopcom.MSBit
open Bytes Decoder

def funcNameSep : UInt8 := 12
def sizeofFuncNameList : ℕ := 4
def sizeofCtrlInfo : ℕ := 12
def sizeofFuncInfo : ℕ := 6

/-- Every `InstrType` fits into 16 bits. -/
structure Binding where
  instrType : UInt16
  injectedFuncName : List UInt8
  paraMask : List UInt16

structure InjectInfo where
  instrId : UInt16
  injectFuncId : UInt16
  paraMask : List UInt16

structure InjectBindHelper where
  funcNames : List (List UInt8) := []
  injectFuncIdMap : AList fun _ : List UInt8 => UInt16 := ∅
  injectInfo : List InjectInfo := []

def wordBytes (word : UInt16) : List UInt8 := leBytes 2 word.toNat

/-- The masks are written up to their number, which has 16 bits. -/
def InjectInfo.serialize (info : InjectInfo) : List UInt8 :=
  let paraNum := UInt16.ofNat info.paraMask.length
  wordBytes info.instrId ++ (wordBytes info.injectFuncId ++ (wordBytes paraNum ++
    (info.paraMask.take paraNum.toNat).flatMap wordBytes))

def bind (helper : InjectBindHelper) (b : Binding) : InjectBindHelper :=
  let helper :=
    if b.injectedFuncName ∈ helper.injectFuncIdMap then helper
    else
      { helper with
        injectFuncIdMap := helper.injectFuncIdMap.insert b.injectedFuncName
          (UInt16.ofNat helper.funcNames.length)
        funcNames := helper.funcNames ++ [b.injectedFuncName] }
  { helper with
    injectInfo := helper.injectInfo ++
      [⟨b.instrType, (helper.injectFuncIdMap.lookup b.injectedFuncName).getD 0, b.paraMask⟩] }

/-- The calls since the last `Reset`. -/
def bound (bindings : List Binding) : InjectBindHelper := bindings.foldl bind {}

structure CtrlInfo where
  size : UInt32
  version : UInt16
  splitOffset1 : UInt16
  reserve : UInt16 × UInt16

def CtrlInfo.serialize (ctrlInfo : CtrlInfo) : List UInt8 :=
  leBytes 4 ctrlInfo.size.toNat ++ (wordBytes ctrlInfo.version ++
    (wordBytes ctrlInfo.splitOffset1 ++
      (wordBytes ctrlInfo.reserve.1 ++ wordBytes ctrlInfo.reserve.2)))

namespace InjectBindHelper
variable (helper : InjectBindHelper) (behind : Fin 4 → UInt8)

def injectInfos : List UInt8 := helper.injectInfo.flatMap InjectInfo.serialize

def funcLists : List UInt8 := [funcNameSep].intercalate helper.funcNames

def funcNameListSize : UInt32 := UInt32.ofNat (helper.funcLists.length + sizeofFuncNameList)

/-- As many bytes as the size says are taken from where the names start, so also those that stand
`behind` them in memory. -/
def funcNameList : List UInt8 :=
  leBytes 4 helper.funcNameListSize.toNat ++
    (helper.funcLists ++ List.ofFn behind).take helper.funcNameListSize.toNat

def buffer : List UInt8 := helper.injectInfos ++ helper.funcNameList behind

def ctrlInfo : CtrlInfo where
  size := UInt32.ofNat ((helper.buffer behind).length + sizeofCtrlInfo)
  version := 0
  splitOffset1 := UInt16.ofNat helper.injectInfos.length
  reserve := (0, 0)

def serialize : List UInt8 := (helper.ctrlInfo behind).serialize ++ helper.buffer behind

end InjectBindHelper

/-! ## The documented layout -/

def readWord (input : List UInt8) : Option (UInt16 × List UInt8) :=
  (readLe 2 input).map fun (x, rest) => (UInt16.ofNat x, rest)

def readFuncInfo (input : List UInt8) : Option (InjectInfo × List UInt8) := do
  let (instrId, rest) ← readWord input
  let (injectFuncId, rest) ← readWord rest
  let (paraNum, rest) ← readWord rest
  let (paraMask, rest) ← times readWord paraNum.toNat rest
  some (⟨instrId, injectFuncId, paraMask⟩, rest)

/-- The entries stand before `splitOffset1` and the list of the names behind it. -/
def decodeData (splitOffset1 : ℕ) (data : List UInt8) : Option (List Binding) := do
  let injectInfo ← all readFuncInfo data.length (data.take splitOffset1)
  let (listSize, rest) ← readLe 4 (data.drop splitOffset1)
  if listSize - sizeofFuncNameList ≤ rest.length then
    let funcNames := (rest.take (listSize - sizeofFuncNameList)).splitOn funcNameSep
    injectInfo.mapM fun info =>
      (funcNames[info.injectFuncId.toNat]?).map fun name => ⟨info.instrId, name, info.paraMask⟩
  else none

/-- What the sizes leave out is not looked at. -/
def decode (bin : List UInt8) : Option (List Binding) := do
  let (size, rest) ← readLe 4 bin
  let (_, rest) ← readWord rest
  let (splitOffset1, _) ← readWord rest
  decodeData splitOffset1.toNat ((bin.take size).drop sizeofCtrlInfo)

section
variable (bindings : List Binding) (behind : Fin 4 → UInt8)

/-- Each size and offset is the number of bytes that were written. -/
structure SizesExact : Prop where
  splitOffset1 : ((bound bindings).ctrlInfo behind).splitOffset1.toNat =
    (bound bindings).injectInfos.length
  funcNameList : (bound bindings).funcNameListSize.toNat =
    ((bound bindings).funcNameList behind).length
  size : ((bound bindings).ctrlInfo behind).size.toNat =
    ((bound bindings).serialize behind).length

structure RoundTrip : Prop where
  decodes : decode ((bound bindings).serialize behind) = some bindings
  sizes : SizesExact bindings behind

end

/-! ## The bound entries -/

def Binding.info (funcNames : List (List UInt8)) (b : Binding) : InjectInfo :=
  ⟨b.instrType, UInt16.ofNat (funcNames.idxOf b.injectedFuncName), b.paraMask⟩

/-- Each name is listed once, and the entries have the numbers of their names. -/
structure Describes (bindings : List Binding) (helper : InjectBindHelper) : Prop where
  nodup : helper.funcNames.Nodup
  mem : ∀ name, name ∈ helper.funcNames ↔ ∃ b ∈ bindings, b.injectedFuncName = name
  known : ∀ name, name ∈ helper.injectFuncIdMap ↔ name ∈ helper.funcNames
  ids : ∀ name ∈ helper.funcNames, helper.injectFuncIdMap.lookup name =
    some (UInt16.ofNat (helper.funcNames.idxOf name))
  infos : helper.injectInfo = bindings.map (Binding.info helper.funcNames)

section
variable {bindings : List Binding} {helper : InjectBindHelper}

theorem describes_bind (h : Describes bindings helper) (b : Binding) :
    Describes (bindings ++ [b]) (bind helper b) := by
  have hmem (funcNames : List (List UInt8)) (hnames : ∀ name, name ∈ funcNames ↔
      name ∈ helper.funcNames ∨ name = b.injectedFuncName) (name : List UInt8) :
      name ∈ funcNames ↔ ∃ b' ∈ bindings ++ [b], b'.injectedFuncName = name := by
    simp only [List.mem_append, List.mem_singleton, or_and_right, exists_or, exists_eq_left]
    rw [hnames, h.mem, eq_comm (a := name)]
  unfold bind
  by_cases hold : b.injectedFuncName ∈ helper.injectFuncIdMap
  · rw [if_pos hold]
    have hlisted := (h.known _).mp hold
    refine ⟨h.nodup, hmem _ fun name => ?_, h.known, h.ids, ?_⟩
    · exact ⟨.inl, fun hor => hor.elim id fun heq => heq ▸ hlisted⟩
    · dsimp only
      rw [h.ids _ hlisted, h.infos, List.map_append]
      rfl
  · rw [if_neg hold]
    have hfresh : b.injectedFuncName ∉ helper.funcNames := fun hin => hold ((h.known _).mpr hin)
    have hidx : (helper.funcNames ++ [b.injectedFuncName]).idxOf b.injectedFuncName =
        helper.funcNames.length := by
      rw [List.idxOf_append_of_notMem hfresh, List.idxOf_cons_self, Nat.add_zero]
    have hkeep (name : List UInt8) (hin : name ∈ helper.funcNames) :
        (helper.funcNames ++ [b.injectedFuncName]).idxOf name = helper.funcNames.idxOf name :=
      List.idxOf_append_of_mem hin
    refine ⟨?_, hmem _ fun name => ?_, fun name => ?_, fun name hin => ?_, ?_⟩
    · rw [List.nodup_append_comm]
      exact List.nodup_cons.mpr ⟨hfresh, h.nodup⟩
    · rw [List.mem_append, List.mem_singleton]
    · rw [AList.mem_insert, h.known, List.mem_append, List.mem_singleton, or_comm]
    · dsimp only
      rcases List.mem_append.mp hin with hin | hin
      · have hne : name ≠ b.injectedFuncName := fun heq => hfresh (heq ▸ hin)
        rw [AList.lookup_insert_ne hne, h.ids name hin, hkeep name hin]
      · rw [List.mem_singleton.mp hin, AList.lookup_insert, hidx]
    · dsimp only
      rw [AList.lookup_insert, h.infos, List.map_append, List.map_singleton]
      congr 1
      · refine List.map_congr_left fun b' hb' => ?_
        unfold Binding.info
        rw [hkeep _ ((h.mem _).mpr ⟨b', hb', rfl⟩)]
      · unfold Binding.info
        rw [hidx]
        rfl

theorem describes_bound (bindings : List Binding) : Describes bindings (bound bindings) := by
  induction bindings using List.reverseRecOn with
  | nil =>
    refine ⟨List.nodup_nil, fun name => ?_, fun name => Iff.rfl, fun name hin => ?_, rfl⟩
    · exact iff_of_false List.not_mem_nil fun ⟨_, hb, _⟩ => List.not_mem_nil hb
    · cases hin
  | append_singleton bindings b ih =>
    unfold bound
    rw [List.foldl_append]
    exact describes_bind ih b

end

/-! ## Reading the entries -/

def infoSize (info : InjectInfo) : ℕ := sizeofFuncInfo + 2 * info.paraMask.length

theorem decodes_readWord (word : UInt16) : Decodes readWord wordBytes word := by
  intro rest
  have hlt : word.toNat < 256 ^ 2 := word.toNat_lt
  have hread := readLe_leBytes hlt rest
  unfold readWord wordBytes
  rw [hread, Option.map_some]
  dsimp only
  rw [UInt16.ofNat_toNat]

theorem sized_readWord : Sized readWord fun _ => 2 := by
  intro input word rest h
  obtain ⟨⟨x, rest'⟩, hread, heq⟩ := Option.map_eq_some_iff.mp h
  cases heq
  exact sized_readLe 2 _ _ _ hread

theorem decodes_readFuncInfo {info : InjectInfo} (h : info.paraMask.length < 2 ^ 16) :
    Decodes readFuncInfo InjectInfo.serialize info := by
  intro rest
  have hnum : (UInt16.ofNat info.paraMask.length).toNat = info.paraMask.length :=
    UInt16.toNat_ofNat_of_lt' h
  have hmasks := decodes_times (fun word (_ : word ∈ info.paraMask) => decodes_readWord word) rest
  unfold InjectInfo.serialize readFuncInfo
  dsimp only
  rw [List.append_assoc, List.append_assoc, List.append_assoc, decodes_readWord]
  dsimp only [Bind.bind, Option.bind]
  rw [decodes_readWord]
  dsimp only
  rw [decodes_readWord]
  dsimp only
  rw [hnum, List.take_length, hmasks]

theorem sized_readFuncInfo : Sized readFuncInfo infoSize := by
  intro input info rest h
  obtain ⟨⟨instrId, rest₁⟩, hinstr, h⟩ := Option.bind_eq_some_iff.mp h
  obtain ⟨⟨injectFuncId, rest₂⟩, hfunc, h⟩ := Option.bind_eq_some_iff.mp h
  obtain ⟨⟨paraNum, rest₃⟩, hnum, h⟩ := Option.bind_eq_some_iff.mp h
  obtain ⟨⟨paraMask, rest₄⟩, hmask, h⟩ := Option.bind_eq_some_iff.mp h
  cases h
  obtain ⟨hcount, hlen⟩ := sized_times sized_readWord hmask
  have hfirst : input.length = 2 + rest₁.length := sized_readWord _ _ _ hinstr
  have hsecond : rest₁.length = 2 + rest₂.length := sized_readWord _ _ _ hfunc
  have hthird : rest₂.length = 2 + rest₃.length := sized_readWord _ _ _ hnum
  unfold infoSize sizeofFuncInfo
  dsimp only
  omega

end Msopcom.MSBit
