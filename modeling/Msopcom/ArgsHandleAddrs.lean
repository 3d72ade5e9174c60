import Msopcom.ArgsHandleContext
import Msopcom.OpMemInfo
import Msopcom.Slots

set_option autoImplicit false

/-!
# The addresses of the inputs in an args handle

The inputs get the words of the cached parameters in order. The kernel has these words where its
argument image has them: behind all bytes of the parameters before, with a pointer in the place of
every placeholder.
-/
namespace Msopcom.ArgsHandleContext
open Bytes Slots

/-- One round of `GetFlattenedParams`: the whole words of a normal parameter, each as a parameter
of its own. -/
def flatten (p : ParamData) : List ParamData :=
  match p.type with
  | .placeholder => [p]
  | .normal => (List.range (p.param.length / 8)).map fun j =>
      { paramHandle := 0, param := (p.param.drop (8 * j)).take 8, type := .normal }

def getFlattenedParams (params : List ParamData) : List ParamData := params.flatMap flatten

/-- The loop over the inputs, which stops at the first parameter that is no pointer. -/
def assignAddrs : List ParamData → List AddrInfo → Bool × List AddrInfo
  | _, [] => (true, [])
  | [], infos => (false, infos)
  | p :: ps, it :: infos =>
    if p.param.length ≠ 8 then (false, it :: infos)
    else
      let rest := assignAddrs ps infos
      (rest.1, { it with addr := wordAt p.param 0 } :: rest.2)

def updateNormalTaskArgsAddr (params : List ParamData) (memInfo : OpMemInfo) : Bool × OpMemInfo :=
  let flattenParams := getFlattenedParams params
  if flattenParams.length < memInfo.inputParamsAddrInfos.length then (false, memInfo)
  else
    let assigned := assignAddrs flattenParams memInfo.inputParamsAddrInfos
    (assigned.1, { memInfo with inputParamsAddrInfos := assigned.2 })

/-! ## The argument image -/

/-- What a parameter is for the kernel: a placeholder is a pointer, which the runtime puts into
its slot. -/
def imagePart (p : ParamData) (pointer : UInt64) : List UInt8 :=
  match p.type with
  | .normal => p.param
  | .placeholder => leBytes 8 pointer.toNat

def image : List ParamData → (ℕ → UInt64) → List UInt8
  | [], _ => []
  | p :: ps, slots => imagePart p (slots 0) ++ image ps fun i => slots (i + 1)

/-- Each input has the word of the image at its place. -/
def Assigned (params : List ParamData) (slots : ℕ → UInt64) (memInfo : OpMemInfo) : Prop :=
  ∀ i < memInfo.inputParamsAddrInfos.length,
    ((updateNormalTaskArgsAddr params memInfo).2.inputParamsAddrInfos[i]?).map (·.addr) =
      slot (image params slots) i

def shape (p : ParamData) : ParamType × ℕ := (p.type, p.param.length)

/-- Parameters that differ in their contents alone. -/
def SameShape (params params' : List ParamData) : Prop := params.map shape = params'.map shape

/-- As long as there are inputs left, the next parameter is a normal one that has words for all of
them, or nothing but words. -/
def WholeWords : List ParamData → ℕ → Prop
  | [], _ => True
  | p :: ps, n => n = 0 ∨ p.type = .normal ∧
      (n ≤ p.param.length / 8 ∨
        p.param.length % 8 = 0 ∧ WholeWords ps (n - p.param.length / 8))

/-! ## The words that the code looks at -/

def addrs (params : List ParamData) : List UInt64 :=
  (getFlattenedParams params).map fun p => wordAt p.param 0

theorem addrs_cons (p : ParamData) (ps : List ParamData) :
    addrs (p :: ps) = (flatten p).map (fun p => wordAt p.param 0) ++ addrs ps := by
  unfold addrs getFlattenedParams
  rw [List.flatMap_cons, List.map_append]

theorem wordAt_take_drop (bytes : List UInt8) (off : ℕ) :
    wordAt ((bytes.drop off).take 8) 0 = wordAt bytes off := by
  unfold wordAt
  rw [List.drop_zero, List.take_take, Nat.min_self]

theorem words_normal {p : ParamData} (h : p.type = .normal) :
    (flatten p).map (fun p => wordAt p.param 0) =
      (List.range (p.param.length / 8)).map fun j => wordAt p.param (8 * j) := by
  unfold flatten
  rw [h, List.map_map]
  apply List.map_congr_left
  intro j _
  exact wordAt_take_drop p.param (8 * j)

theorem length_words_normal {p : ParamData} (h : p.type = .normal) :
    ((flatten p).map fun p => wordAt p.param 0).length = p.param.length / 8 := by
  rw [words_normal h, List.length_map, List.length_range]

theorem getElem?_addrs_of_lt {p : ParamData} (ps : List ParamData) (h : p.type = .normal) {i : ℕ}
    (hi : i < p.param.length / 8) : (addrs (p :: ps))[i]? = some (wordAt p.param (8 * i)) := by
  rw [addrs_cons, List.getElem?_append_left (by rw [length_words_normal h]; exact hi),
    words_normal h, List.getElem?_map, List.getElem?_range hi]
  rfl

theorem getElem?_addrs_add {p : ParamData} (ps : List ParamData) (h : p.type = .normal) (i : ℕ) :
    (addrs (p :: ps))[p.param.length / 8 + i]? = (addrs ps)[i]? := by
  rw [addrs_cons, List.getElem?_append_right (by rw [length_words_normal h]; omega),
    length_words_normal h, Nat.add_sub_cancel_left]

theorem addrs_placeholder {p : ParamData} (ps : List ParamData) (h : p.type = .placeholder) :
    (addrs (p :: ps))[0]? = some (wordAt p.param 0) := by
  have hword : flatten p = [p] := by
    unfold flatten
    rw [h]
  rw [addrs_cons, hword]
  rfl

/-! ## The words of the image -/

theorem slot_append_left {front : List UInt8} (rest : List UInt8) {i : ℕ}
    (h : 8 * i + 8 ≤ front.length) : slot (front ++ rest) i = some (wordAt front (8 * i)) := by
  unfold slot wordAt
  rw [List.length_append, if_pos (by omega), List.drop_append_of_le_length (by omega),
    List.take_append_of_le_length (by rw [List.length_drop]; omega)]

theorem slot_append_right {front : List UInt8} (rest : List UInt8) {m : ℕ}
    (h : front.length = 8 * m) (i : ℕ) : slot (front ++ rest) (m + i) = slot rest i := by
  have hsplit : 8 * (m + i) = front.length + 8 * i := by omega
  have hdrop : (front ++ rest).drop (8 * (m + i)) = rest.drop (8 * i) := by
    rw [hsplit, ← List.drop_drop, List.drop_left]
  unfold slot wordAt
  rw [hdrop, List.length_append]
  by_cases hfits : 8 * i + 8 ≤ rest.length
  · rw [if_pos hfits, if_pos (by omega)]
  · rw [if_neg hfits, if_neg (by omega)]

theorem slot_pointer (w : UInt64) (rest : List UInt8) :
    slot (leBytes 8 w.toNat ++ rest) 0 = some w := by
  unfold slot
  rw [List.length_append, length_leBytes, if_pos (by omega)]
  exact congrArg some (@wordAt_append [] 0 rfl w rest)

theorem image_normal {p : ParamData} (ps : List ParamData) (slots : ℕ → UInt64)
    (h : p.type = .normal) : image (p :: ps) slots = p.param ++ image ps fun i => slots (i + 1) := by
  have hpart : imagePart p (slots 0) = p.param := by
    unfold imagePart
    rw [h]
  rw [image, hpart]

theorem image_placeholder {p : ParamData} (ps : List ParamData) (slots : ℕ → UInt64)
    (h : p.type = .placeholder) :
    image (p :: ps) slots = leBytes 8 (slots 0).toNat ++ image ps fun i => slots (i + 1) := by
  have hpart : imagePart p (slots 0) = leBytes 8 (slots 0).toNat := by
    unfold imagePart
    rw [h]
  rw [image, hpart]

/-- The first words of the image are those that the code looks at. -/
def Agree (params : List ParamData) (slots : ℕ → UInt64) (n : ℕ) : Prop :=
  ∀ i < n, (addrs params)[i]? = slot (image params slots) i

theorem agree_of_wholeWords {params : List ParamData} {n : ℕ} (h : WholeWords params n)
    (slots : ℕ → UInt64) : Agree params slots n := by
  induction params generalizing n slots with
  | nil =>
    intro i _
    exact (slot_eq_none (Nat.zero_lt_succ _)).symm
  | cons p ps ih =>
    intro i hi
    cases h with
    | inl hzero => omega
    | inr hnormal =>
      obtain ⟨htype, hrest⟩ := hnormal
      rw [image_normal ps slots htype]
      by_cases hown : i < p.param.length / 8
      · rw [getElem?_addrs_of_lt ps htype hown, slot_append_left _ (by omega)]
      · cases hrest with
        | inl hcovers => omega
        | inr hwhole =>
          have hback : p.param.length / 8 + (i - p.param.length / 8) = i := by omega
          have hlength : p.param.length = 8 * (p.param.length / 8) := by omega
          rw [← hback, getElem?_addrs_add ps htype, slot_append_right _ hlength]
          exact ih hwhole.2 _ _ (by omega)

/-! ## Contents that give the difference away -/

def shapeLengths (s : ParamType × ℕ) : List ℕ :=
  match s.1 with
  | .normal => List.replicate (s.2 / 8) 8
  | .placeholder => [s.2]

theorem lengths_flatten (p : ParamData) :
    (flatten p).map (·.param.length) = shapeLengths (shape p) := by
  unfold flatten shapeLengths shape
  cases p.type with
  | normal =>
    refine List.eq_replicate_iff.mpr ⟨by simp, ?_⟩
    intro k hk
    simp only [List.map_map, List.mem_map, List.mem_range, Function.comp_apply, List.length_take,
      List.length_drop] at hk
    obtain ⟨j, hj, rfl⟩ := hk
    omega
  | placeholder => rfl

theorem lengths_getFlattenedParams (params : List ParamData) :
    (getFlattenedParams params).map (·.param.length) =
      (params.map shape).flatMap shapeLengths := by
  induction params with
  | nil => rfl
  | cons p ps ih =>
    change (flatten p ++ getFlattenedParams ps).map _ = _
    rw [List.map_append, lengths_flatten, ih, List.map_cons, List.flatMap_cons]

theorem length_getFlattenedParams_normal {p : ParamData} (ps : List ParamData)
    (h : p.type = .normal) : (getFlattenedParams (p :: ps)).length =
      p.param.length / 8 + (getFlattenedParams ps).length := by
  have hlengths := congrArg List.length (lengths_flatten p)
  unfold shapeLengths shape at hlengths
  rw [h, List.length_map, List.length_replicate] at hlengths
  change (flatten p ++ getFlattenedParams ps).length = _
  rw [List.length_append, hlengths]

def zeroed (p : ParamData) : ParamData := { p with param := List.replicate p.param.length 0 }

/-- All zeros but for the first byte behind the whole words. -/
def marked (p : ParamData) : ParamData :=
  { p with param := List.replicate (8 * (p.param.length / 8)) 0 ++
      1 :: List.replicate (p.param.length % 8 - 1) 0 }

theorem sameShape_zeroed (ps : List ParamData) : SameShape (ps.map zeroed) ps := by
  unfold SameShape
  rw [List.map_map]
  apply List.map_congr_left
  intro p _
  exact Prod.ext rfl List.length_replicate

theorem length_marked {p : ParamData} (h : p.param.length % 8 ≠ 0) :
    (marked p).param.length = p.param.length := by
  unfold marked
  rw [List.length_append, List.length_replicate, List.length_cons, List.length_replicate]
  omega

theorem wordAt_eq_zero {bytes : List UInt8} (h : ∀ b ∈ bytes, b = 0) (off : ℕ) :
    wordAt bytes off = 0 := by
  have hzero (l : List UInt8) (hl : ∀ b ∈ l, b = 0) : leNat l = 0 := by
    induction l with
    | nil => rfl
    | cons b l ih =>
      unfold leNat
      rw [hl b List.mem_cons_self, ih fun b hb => hl b (List.mem_cons_of_mem _ hb)]
      rfl
  unfold wordAt
  rw [hzero _ fun b hb => h b (List.mem_of_mem_drop (List.mem_of_mem_take hb))]
  rfl

theorem wordAt_marked {p : ParamData} (rest : List UInt8) :
    wordAt ((marked p).param ++ rest) (8 * (p.param.length / 8)) ≠ 0 := by
  have hdrop : ((marked p).param ++ rest).drop (8 * (p.param.length / 8)) =
      1 :: (List.replicate (p.param.length % 8 - 1) 0 ++ rest) := by
    unfold marked
    rw [List.append_assoc, List.drop_left' List.length_replicate]
    rfl
  unfold wordAt
  rw [hdrop, List.take_succ_cons]
  unfold leNat
  intro hzero
  have hnat := congrArg UInt64.toNat hzero
  rw [UInt64.toNat_ofNat'] at hnat
  change (1 + 256 * _) % 2 ^ 64 = 0 at hnat
  omega

theorem mem_param_of_mem_flatten {p q : ParamData} (hq : q ∈ flatten p) {b : UInt8}
    (hb : b ∈ q.param) : b ∈ p.param := by
  unfold flatten at hq
  cases htype : p.type with
  | normal =>
    rw [htype] at hq
    obtain ⟨j, -, rfl⟩ := List.mem_map.mp hq
    exact List.mem_of_mem_drop (List.mem_of_mem_take hb)
  | placeholder =>
    rw [htype] at hq
    rw [← List.mem_singleton.mp hq]
    exact hb

theorem length_addrs_eq {params params' : List ParamData} (h : SameShape params params') :
    (addrs params).length = (addrs params').length := by
  have hlengths := lengths_getFlattenedParams params
  rw [h, ← lengths_getFlattenedParams] at hlengths
  have hcount := congrArg List.length hlengths
  rw [List.length_map, List.length_map] at hcount
  unfold addrs
  rw [List.length_map, List.length_map, hcount]

theorem addrs_zeroed {ps : List ParamData} {w : UInt64} (hw : w ∈ addrs (ps.map zeroed)) :
    w = 0 := by
  obtain ⟨q, hq, rfl⟩ := List.mem_map.mp hw
  obtain ⟨z, hz, hflat⟩ := List.mem_flatMap.mp hq
  obtain ⟨p, -, rfl⟩ := List.mem_map.mp hz
  apply wordAt_eq_zero
  intro b hb
  exact (List.mem_replicate.mp (mem_param_of_mem_flatten hflat hb)).2

theorem ne_add_one (w : UInt64) : w ≠ w + 1 := by
  intro h
  have hnat := congrArg UInt64.toNat h
  have hlt : w.toNat < 2 ^ 64 := w.toNat_lt
  rw [UInt64.toNat_add] at hnat
  change w.toNat = (w.toNat + 1) % 2 ^ 64 at hnat
  omega

theorem getElem?_addrs_zeroed {ps : List ParamData} (h : 0 < (getFlattenedParams ps).length) :
    (addrs (ps.map zeroed))[0]? = some 0 := by
  have hpos : 0 < (addrs (ps.map zeroed)).length := by
    rw [length_addrs_eq (sameShape_zeroed ps)]
    unfold addrs
    rw [List.length_map]
    exact h
  rw [List.getElem?_eq_getElem hpos, addrs_zeroed (List.getElem_mem hpos)]

/-- Where a word is not whole, or a placeholder comes in, the image can differ. -/
theorem exists_not_agree {params : List ParamData} {n : ℕ}
    (hlen : n ≤ (getFlattenedParams params).length) (h : ¬ WholeWords params n) :
    ∃ params' slots, SameShape params' params ∧ ¬ Agree params' slots n := by
  induction params generalizing n with
  | nil => exact absurd trivial h
  | cons p ps ih =>
    have hpos : 0 < n := Nat.pos_of_ne_zero fun hzero => h (.inl hzero)
    cases htype : p.type with
    | placeholder =>
      -- the runtime's pointer is not what the data begins with
      refine ⟨p :: ps, fun _ => wordAt p.param 0 + 1, rfl, ?_⟩
      intro hagree
      have hword := hagree 0 hpos
      rw [addrs_placeholder ps htype, image_placeholder ps _ htype, slot_pointer] at hword
      exact absurd (Option.some.inj hword) (ne_add_one _)
    | normal =>
      have hmore : ¬ n ≤ p.param.length / 8 := fun hcovers => h (.inr ⟨htype, .inl hcovers⟩)
      rw [length_getFlattenedParams_normal ps htype] at hlen
      by_cases hwhole : p.param.length % 8 = 0
      · have hrest : ¬ WholeWords ps (n - p.param.length / 8) :=
          fun hrest => h (.inr ⟨htype, .inr ⟨hwhole, hrest⟩⟩)
        obtain ⟨ps', slots, hshape, hdiffer⟩ := ih (by omega) hrest
        refine ⟨p :: ps', fun i => slots (i - 1), congrArg (shape p :: ·) hshape, ?_⟩
        intro hagree
        apply hdiffer
        intro i hi
        have hword := hagree (p.param.length / 8 + i) (by omega)
        rw [getElem?_addrs_add ps' htype, image_normal ps' _ htype,
          slot_append_right _ (by omega)] at hword
        exact hword
      · have hlength := length_marked hwhole
        have hshape : SameShape (marked p :: ps.map zeroed) (p :: ps) :=
          congrArg₂ (· :: ·) (Prod.ext rfl hlength) (sameShape_zeroed ps)
        refine ⟨_, fun _ => 0, hshape, ?_⟩
        intro hagree
        have hword := hagree (p.param.length / 8) (by omega)
        have hzero := getElem?_addrs_add (p := marked p) (ps.map zeroed) htype 0
        rw [hlength, Nat.add_zero, getElem?_addrs_zeroed (by omega)] at hzero
        rw [hzero, image_normal (p := marked p) _ _ htype] at hword
        unfold slot at hword
        split_ifs at hword
        exact wordAt_marked _ (Option.some.inj hword).symm

/-! ## What the inputs get -/

theorem assignAddrs_ret {ps : List ParamData} {infos : List AddrInfo} :
    (assignAddrs ps infos).1 = true ↔
      ∀ i < infos.length, (ps.map (·.param.length))[i]? = some 8 := by
  induction infos generalizing ps with
  | nil => exact iff_of_true (by cases ps <;> rfl) fun i hi => absurd hi (Nat.not_lt_zero i)
  | cons it infos ih =>
    cases ps with
    | nil =>
      apply iff_of_false Bool.false_ne_true
      intro h
      exact absurd (h 0 (Nat.succ_pos _)).symm (Option.some_ne_none 8)
    | cons p ps =>
      unfold assignAddrs
      by_cases hword : p.param.length = 8
      · rw [if_neg (not_not_intro hword)]
        refine ih.trans ⟨?_, ?_⟩
        · intro h i hi
          cases i with
          | zero => exact congrArg some hword
          | succ i => exact h i (Nat.lt_of_succ_lt_succ hi)
        · intro h i hi
          exact h (i + 1) (Nat.succ_lt_succ hi)
      · rw [if_pos hword]
        apply iff_of_false Bool.false_ne_true
        intro h
        exact hword (Option.some.inj (h 0 (Nat.succ_pos _)))

theorem addr_assignAddrs {ps : List ParamData} {infos : List AddrInfo}
    (h : (assignAddrs ps infos).1 = true) {i : ℕ} (hi : i < infos.length) :
    ((assignAddrs ps infos).2[i]?).map (·.addr) = (ps.map fun p => wordAt p.param 0)[i]? := by
  induction infos generalizing ps i with
  | nil => exact absurd hi (Nat.not_lt_zero i)
  | cons it infos ih =>
    cases ps with
    | nil => exact absurd h Bool.false_ne_true
    | cons p ps =>
      have hword : p.param.length = 8 := Option.some.inj (assignAddrs_ret.mp h 0 (Nat.succ_pos _))
      unfold assignAddrs at h ⊢
      rw [if_neg (not_not_intro hword)] at h ⊢
      cases i with
      | zero => rfl
      | succ i => exact ih h (Nat.lt_of_succ_lt_succ hi)

section
variable {params params' : List ParamData} {memInfo : OpMemInfo}

theorem updateNormalTaskArgsAddr_ret :
    (updateNormalTaskArgsAddr params memInfo).1 = true ↔
      memInfo.inputParamsAddrInfos.length ≤ (getFlattenedParams params).length ∧
        ∀ i < memInfo.inputParamsAddrInfos.length,
          ((getFlattenedParams params).map (·.param.length))[i]? = some 8 := by
  unfold updateNormalTaskArgsAddr
  dsimp only
  by_cases hfew :
      (getFlattenedParams params).length < memInfo.inputParamsAddrInfos.length
  · rw [if_pos hfew]
    exact iff_of_false Bool.false_ne_true fun h => absurd h.1 (Nat.not_le.mpr hfew)
  · rw [if_neg hfew, and_iff_right (Nat.not_lt.mp hfew)]
    exact assignAddrs_ret

/-- Whether the function succeeds does not depend on the contents. -/
theorem SameShape.ret (hshape : SameShape params' params)
    (h : (updateNormalTaskArgsAddr params memInfo).1 = true) :
    (updateNormalTaskArgsAddr params' memInfo).1 = true := by
  rw [updateNormalTaskArgsAddr_ret] at h ⊢
  have hlengths := lengths_getFlattenedParams params'
  rw [hshape, ← lengths_getFlattenedParams] at hlengths
  have hcount := congrArg List.length hlengths
  rw [List.length_map, List.length_map] at hcount
  rw [hlengths, hcount]
  exact h

theorem SameShape.wholeWords {n : ℕ} (hshape : SameShape params' params)
    (h : WholeWords params n) : WholeWords params' n := by
  induction params generalizing params' n with
  | nil =>
    rw [List.map_eq_nil_iff.mp hshape]
    trivial
  | cons p ps ih =>
    obtain ⟨p', ps', rfl, hp, hps⟩ := List.map_eq_cons_iff.mp hshape
    have htype : p'.type = p.type := congrArg Prod.fst hp
    have hlength : p'.param.length = p.param.length := congrArg Prod.snd hp
    unfold WholeWords at h ⊢
    rw [htype, hlength]
    exact h.imp_right fun hnormal => hnormal.imp_right fun hrest =>
      hrest.imp_right fun hwhole => hwhole.imp_right (ih hps)

theorem assigned_iff (h : (updateNormalTaskArgsAddr params memInfo).1 = true) (slots : ℕ → UInt64) :
    Assigned params slots memInfo ↔ Agree params slots memInfo.inputParamsAddrInfos.length := by
  have haddr (i : ℕ) (hi : i < memInfo.inputParamsAddrInfos.length) :
      ((updateNormalTaskArgsAddr params memInfo).2.inputParamsAddrInfos[i]?).map (·.addr) =
        (addrs params)[i]? := by
    have hfits := (updateNormalTaskArgsAddr_ret.mp h).1
    unfold updateNormalTaskArgsAddr at h ⊢
    dsimp only at h ⊢
    rw [if_neg (Nat.not_lt.mpr hfits)] at h ⊢
    exact addr_assignAddrs h hi
  unfold Assigned Agree
  constructor
  · intro hassigned i hi
    rw [← haddr i hi, hassigned i hi]
  · intro hagree i hi
    rw [haddr i hi, hagree i hi]

/-- On success the inputs have the words of the argument image, whatever the parameters and the
slots of the placeholders contain, exactly when the parameters up to the last input are normal ones
of whole words. -/
theorem addrs_assigned_iff (h : (updateNormalTaskArgsAddr params memInfo).1 = true) :
    (∀ params', SameShape params' params → ∀ slots, Assigned params' slots memInfo) ↔
      WholeWords params memInfo.inputParamsAddrInfos.length := by
  constructor
  · intro hall
    by_contra hnot
    obtain ⟨params', slots, hshape, hdiffer⟩ :=
      exists_not_agree (updateNormalTaskArgsAddr_ret.mp h).1 hnot
    exact hdiffer ((assigned_iff (hshape.ret h) slots).mp (hall params' hshape slots))
  · intro hwhole params' hshape slots
    rw [assigned_iff (hshape.ret h)]
    exact agree_of_wholeWords (hshape.wholeWords hwhole) slots

end

def inputs (n : ℕ) : OpMemInfo :=
  { inputParamsAddrInfos := List.replicate n ⟨0, 64, .extra, .input, 0⟩ }

/-- Two pointers in one parameter, and the tiling data. -/
def twoPointers : List ParamData :=
  [⟨1, leBytes 8 0x1000 ++ leBytes 8 0x2000, .normal⟩, ⟨2, List.replicate 40 7, .placeholder⟩]

theorem addrs_assigned_twoPointers : Assigned twoPointers (fun _ => 0x7000) (inputs 2) :=
  (@addrs_assigned_iff twoPointers (inputs 2) (by decide)).mpr
    (.inr ⟨rfl, .inl (by decide)⟩) twoPointers rfl _

/-- Tiling data of eight bytes is taken for the address of the input. -/
theorem addrs_take_tilingData :
    (updateNormalTaskArgsAddr [⟨1, leBytes 8 5, .placeholder⟩] (inputs 1)).1 = true ∧
      ¬ Assigned [⟨1, leBytes 8 5, .placeholder⟩] (fun _ => 0x7000) (inputs 1) := by
  constructor
  · decide
  · intro h
    exact absurd (h 0 Nat.one_pos) (by decide)

end Msopcom.ArgsHandleContext
