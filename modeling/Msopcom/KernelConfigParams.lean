import Msopcom.Decoder
import Msopcom.KernelConfigParser

set_option autoImplicit false

/-!
# The parameters of accepted configurations

What holds of the parameters that the parser makes, whichever keys a configuration has and in
whichever order they are read.
-/
namespace Msopcom
namespace KernelConfigParser
open KernelConfig Ustring

/-- Only outputs are named, and what is read of a parameter is assigned. -/
structure Made (param : Param) : Prop where
  name : param.name ≠ "" → param.type = .output
  isRequired : param.type = .input → param.isRequired.isSome
  tilingSize : param.type = .tiling → param.dataSize.isSome

def isTiling (param : Param) : Bool := param.type = .tiling

/-- The parameters are made, with at most so many for tiling data. -/
structure WellMade (tilings : ℕ) (p : KernelConfigParser) : Prop where
  made : ∀ param ∈ p.kernelConfig.params, Made param
  tilings : p.kernelConfig.params.countP isTiling ≤ tilings

section Steps
variable {arg : String} {p q : KernelConfigParser} {n : ℕ}

theorem WellMade.mono {m : ℕ} (h : WellMade n p) (hle : n ≤ m) : WellMade m p :=
  ⟨h.made, Nat.le_trans h.tilings hle⟩

theorem WellMade.same (h : WellMade n p) (hparams : q.kernelConfig.params = p.kernelConfig.params) :
    WellMade n q := by
  refine ⟨?_, ?_⟩
  · rw [hparams]
    exact h.made
  · rw [hparams]
    exact h.tilings

theorem WellMade.added {params : List Param} (h : WellMade n p)
    (hparams : q.kernelConfig.params = p.kernelConfig.params ++ params)
    (hmade : ∀ param ∈ params, Made param) : WellMade (n + params.countP isTiling) q := by
  refine ⟨fun param hparam => ?_, ?_⟩
  · rw [hparams, List.mem_append] at hparam
    exact hparam.elim (h.made param) (hmade param)
  · rw [hparams, List.countP_append]
    exact Nat.add_le_add_right h.tilings _

/-- Parameters that are added for another type do not count. -/
theorem WellMade.addedOther {params : List Param} (h : WellMade n p)
    (hparams : q.kernelConfig.params = p.kernelConfig.params ++ params)
    (hmade : ∀ param ∈ params, Made param ∧ param.type ≠ .tiling) : WellMade n q := by
  have hcount : params.countP isTiling = 0 :=
    List.countP_eq_zero.mpr fun param hparam htiling =>
      (hmade param hparam).2 (of_decide_eq_true htiling)
  have hadded := h.added hparams fun param hparam => (hmade param hparam).1
  rwa [hcount] at hadded

/-- A parameter whose size may have been set. -/
structure Resized (param param' : Param) : Prop where
  type : param'.type = param.type
  name : param'.name = param.name
  isRequired : param'.isRequired = param.isRequired
  dataSize : param.dataSize.isSome → param'.dataSize.isSome

theorem Resized.made {param param' : Param} (h : Resized param param') (hmade : Made param) :
    Made param' where
  name := fun hname => h.type.trans (hmade.name (h.name ▸ hname))
  isRequired := fun htype => h.isRequired ▸ hmade.isRequired (h.type ▸ htype)
  tilingSize := fun htype => h.dataSize (hmade.tilingSize (h.type ▸ htype))

theorem setSizes_resized {type : TypeName} {params params' : List Param} {sizeVec : List String}
    (h : setSizes type params sizeVec = some params') : List.Forall₂ Resized params params' := by
  induction params generalizing sizeVec params' with
  | nil =>
    rw [setSizes, Option.some.injEq] at h
    rw [← h]
    exact .nil
  | cons param params ih =>
    by_cases htype : param.type = type
    · cases sizeVec with
      | nil =>
        have hnone : setSizes type (param :: params) [] = none := if_neg (not_not.mpr htype)
        rw [hnone] at h
        cases h
      | cons size sizeVec =>
        rw [setSizes_same htype] at h
        obtain ⟨dataSize, _, hrest⟩ := Option.bind_eq_some_iff.mp h
        obtain ⟨rest, hset, rfl⟩ := Option.map_eq_some_iff.mp hrest
        exact .cons ⟨rfl, rfl, rfl, fun _ => rfl⟩ (ih hset)
    · rw [setSizes_other htype] at h
      obtain ⟨rest, hset, rfl⟩ := Option.map_eq_some_iff.mp h
      exact .cons ⟨rfl, rfl, rfl, id⟩ (ih hset)

theorem made_of_resized {params params' : List Param} (h : List.Forall₂ Resized params params')
    (hmade : ∀ param ∈ params, Made param) : ∀ param ∈ params', Made param := by
  induction h with
  | nil => exact fun param hparam => absurd hparam List.not_mem_nil
  | cons hfirst _ ih =>
    obtain ⟨hparam, hrest⟩ := List.forall_mem_cons.mp hmade
    exact List.forall_mem_cons.mpr ⟨hfirst.made hparam, ih hrest⟩

theorem countP_isTiling_of_resized {params params' : List Param}
    (h : List.Forall₂ Resized params params') :
    params'.countP isTiling = params.countP isTiling := by
  induction h with
  | nil => rfl
  | cons hfirst _ ih =>
    rw [List.countP_cons, List.countP_cons, ih, isTiling, isTiling, hfirst.type]

theorem WellMade.setAllSizes {type : TypeName} {sizeVec : List String} (h : WellMade n p)
    (hset : p.setAllSizes type sizeVec = some q) : WellMade n q := by
  obtain ⟨params, hparams, rfl⟩ := Option.map_eq_some_iff.mp hset
  have hresized := setSizes_resized hparams
  exact ⟨made_of_resized hresized h.made,
    Nat.le_trans (Nat.le_of_eq (countP_isTiling_of_resized hresized)) h.tilings⟩

/-! ### The functions of the keys -/

theorem WellMade.setFfts (h : WellMade n p) (hset : setFfts arg p = some q) : WellMade n q := by
  unfold KernelConfigParser.setFfts at hset
  rw [← Option.some.inj hset]
  split_ifs
  · refine h.addedOther rfl fun param hparam => ?_
    rw [List.mem_singleton.mp hparam]
    exact ⟨⟨fun hname => absurd rfl hname, nofun, nofun⟩, nofun⟩
  · exact h

theorem WellMade.setInputPath (h : WellMade n p) (hset : setInputPath arg p = some q) :
    WellMade n q := by
  unfold KernelConfigParser.setInputPath at hset
  dsimp only at hset
  split_ifs at hset
  rw [← Option.some.inj hset]
  refine h.addedOther rfl fun param hparam => ?_
  obtain ⟨binPath, _, rfl⟩ := List.mem_map.mp hparam
  exact ⟨⟨fun hname => absurd rfl hname, fun _ => rfl, nofun⟩, nofun⟩

theorem WellMade.setOutputName (h : WellMade n p) (hset : setOutputName arg p = some q) :
    WellMade n q := by
  unfold KernelConfigParser.setOutputName at hset
  rw [← Option.some.inj hset]
  refine h.addedOther rfl fun param hparam => ?_
  obtain ⟨name, _, rfl⟩ := List.mem_map.mp hparam
  exact ⟨⟨fun _ => rfl, nofun, nofun⟩, nofun⟩

theorem WellMade.setWorkspaceSize (h : WellMade n p) (hset : setWorkspaceSize arg p = some q) :
    WellMade n q := by
  obtain ⟨params, hparams, rfl⟩ := Option.map_eq_some_iff.mp hset
  refine h.addedOther rfl fun param hparam => ?_
  obtain ⟨size, _, hsize⟩ := Decoder.exists_of_mapM hparams hparam
  obtain ⟨dataSize, _, rfl⟩ := Option.map_eq_some_iff.mp hsize
  exact ⟨⟨fun hname => absurd rfl hname, nofun, nofun⟩, nofun⟩

theorem WellMade.setTilingDataPath (h : WellMade n p)
    (hset : setTilingDataPath arg p = some q) : WellMade (n + 1) q := by
  unfold KernelConfigParser.setTilingDataPath at hset
  split_ifs at hset with hempty
  · rw [← Option.some.inj hset]
    exact h.mono (Nat.le_succ n)
  · split at hset
    · obtain ⟨dataSize, _, rfl⟩ := Option.map_eq_some_iff.mp hset
      refine @WellMade.added p _ n [tilingParam _ dataSize] h rfl fun param hparam => ?_
      rw [List.mem_singleton.mp hparam]
      exact ⟨fun hname => absurd rfl hname, nofun, fun _ => rfl⟩
    · cases hset

theorem WellMade.setInputSize (h : WellMade n p) (hset : setInputSize arg p = some q) :
    WellMade n q := by
  unfold KernelConfigParser.setInputSize at hset
  dsimp only at hset
  split_ifs at hset
  exact h.setAllSizes hset

theorem WellMade.setOutputSize (h : WellMade n p) (hset : setOutputSize arg p = some q) :
    WellMade n q := by
  unfold KernelConfigParser.setOutputSize at hset
  dsimp only at hset
  split_ifs at hset
  · rw [← Option.some.inj hset]
    exact h
  · exact h.setAllSizes hset

/-- The functions of the other keys leave the parameters alone. -/
theorem params_setKernelName (hset : setKernelName arg p = some q) :
    q.kernelConfig.params = p.kernelConfig.params := by
  unfold setKernelName at hset
  split_ifs at hset
  rw [← Option.some.inj hset]
  rfl

theorem params_setMagic (hset : setMagic arg p = some q) :
    q.kernelConfig.params = p.kernelConfig.params := by
  unfold setMagic at hset
  split_ifs at hset
  rw [← Option.some.inj hset]
  rfl

theorem params_setTilingKey (hset : setTilingKey arg p = some q) :
    q.kernelConfig.params = p.kernelConfig.params := by
  unfold setTilingKey at hset
  split_ifs at hset
  · rw [← Option.some.inj hset]
  · obtain ⟨tilingKey, _, rfl⟩ := Option.map_eq_some_iff.mp hset
    rfl

end Steps

/-! ## Runs of the parser -/

section Runs
variable {p q : KernelConfigParser} {n : ℕ}

def isTilingKey (item : String × String) : Bool := item.1 = "tiling_data_path"

theorem WellMade.parseItem {item : String × String} (h : WellMade n p)
    (hparse : parseItem item p = some q) : WellMade (n + (isTilingKey item).toNat) q := by
  unfold KernelConfigParser.parseItem at hparse
  cases hlookup : parserFuncs.lookup item.1 with
  | none =>
    rw [hlookup] at hparse
    rw [← Option.some.inj hparse]
    exact h.mono (Nat.le_add_right _ _)
  | some parserFunc =>
    rw [hlookup] at hparse
    dsimp only at hparse
    by_cases htiling : item.1 = "tiling_data_path"
    · have hfunc : parserFuncs.lookup item.1 = some KernelConfigParser.setTilingDataPath := by
        rw [htiling]
        rfl
      rw [hfunc, Option.some.injEq] at hlookup
      rw [← hlookup] at hparse
      have hkey : isTilingKey item = true := decide_eq_true htiling
      rw [hkey]
      exact h.setTilingDataPath hparse
    · refine WellMade.mono ?_ (Nat.le_add_right _ _)
      obtain ⟨before, after, hfuncs, _⟩ := List.lookup_eq_some_iff.mp hlookup
      have hmem : (item.1, parserFunc) ∈ parserFuncs :=
        hfuncs ▸ List.mem_append_right _ List.mem_cons_self
      unfold parserFuncs at hmem
      simp only [List.mem_cons, Prod.mk.injEq, List.not_mem_nil, or_false] at hmem
      rcases hmem with ⟨_, rfl⟩ | ⟨_, rfl⟩ | ⟨_, rfl⟩ | ⟨_, rfl⟩ | ⟨_, rfl⟩ | ⟨_, rfl⟩ | ⟨_, rfl⟩ |
        ⟨_, rfl⟩ | ⟨hkey, _⟩ | ⟨_, rfl⟩ | ⟨_, rfl⟩ | ⟨_, rfl⟩ | ⟨_, rfl⟩ | ⟨_, rfl⟩ | ⟨_, rfl⟩
      · exact h.same (params_setKernelName hparse)
      · rw [← Option.some.inj hparse]
        exact h.same rfl
      · obtain ⟨blockDim, _, rfl⟩ := Option.map_eq_some_iff.mp hparse
        exact h.same rfl
      · obtain ⟨deviceID, _, rfl⟩ := Option.map_eq_some_iff.mp hparse
        exact h.same rfl
      · exact h.same (params_setMagic hparse)
      · exact h.setFfts hparse
      · exact h.setInputPath hparse
      · exact h.setInputSize hparse
      · exact absurd hkey htiling
      · exact h.same (params_setTilingKey hparse)
      · exact h.setOutputSize hparse
      · exact h.setWorkspaceSize hparse
      · rw [← Option.some.inj hparse]
        exact h.same rfl
      · exact h.setOutputName hparse
      · rw [← Option.some.inj hparse]
        exact h.same rfl

/-- Every member of the object with the tiling data makes at most one parameter for it. -/
theorem WellMade.parseItems {items : List (String × String)} (h : WellMade n p)
    (hparse : parseItems items p = some q) : WellMade (n + items.countP isTilingKey) q := by
  induction items generalizing p n with
  | nil =>
    rw [← Option.some.inj hparse]
    exact h
  | cons item rest ih =>
    obtain ⟨next, hitem, hrest⟩ := Option.bind_eq_some_iff.mp hparse
    have hnext := ih (h.parseItem hitem) hrest
    rw [List.countP_cons, Nat.add_comm (List.countP _ _), ← Nat.add_assoc]
    convert hnext using 2
    cases isTilingKey item <;> rfl

theorem countP_isTilingKey_le {items : List (String × String)}
    (h : (items.map Prod.fst).Nodup) : items.countP isTilingKey ≤ 1 := by
  have hcount : items.countP isTilingKey = (items.map Prod.fst).count "tiling_data_path" := by
    rw [List.count, List.countP_map]
    rfl
  rw [hcount]
  exact List.nodup_iff_count_le_one.mp h _

end Runs

end KernelConfigParser

/-! ## Accepted configurations -/

open KernelConfig KernelConfigParser

/-- A configuration that the parser makes of an object; its items come in whichever order the
sort leaves them. -/
def KernelConfigAccepted (config : KernelConfig) : Prop :=
  ∃ items : List (String × String), (items.map Prod.fst).Nodup ∧
    ∃ p, parseItems items {} = some p ∧ p.kernelConfig = config

theorem JsonLibrary.accepted {json : JsonLibrary} {rawFile : String} {config : KernelConfig}
    (hkeys : ∀ items, json.items rawFile = some items → (items.map Prod.fst).Nodup)
    (h : json.getKernelConfig rawFile = some config) : KernelConfigAccepted config := by
  unfold JsonLibrary.getKernelConfig at h
  split_ifs at h
  obtain ⟨items, hitems, hparse⟩ := Option.bind_eq_some_iff.mp h
  obtain ⟨p, hp, rfl⟩ := Option.map_eq_some_iff.mp hparse
  have hperm : (sortItems items).Perm items := List.mergeSort_perm _ _
  exact ⟨sortItems items, ((hperm.map Prod.fst).nodup_iff).mpr (hkeys items hitems), p, hp, rfl⟩

theorem KernelConfigAccepted.wellMade {config : KernelConfig} (h : KernelConfigAccepted config) :
    (∀ param ∈ config.params, Made param) ∧ config.params.countP isTiling ≤ 1 := by
  obtain ⟨items, hnodup, p, hparse, rfl⟩ := h
  have hempty : WellMade 0 {} := ⟨fun param hparam => absurd hparam List.not_mem_nil, Nat.le_refl 0⟩
  have hrun := hempty.parseItems hparse
  rw [Nat.zero_add] at hrun
  exact ⟨hrun.made, Nat.le_trans hrun.tilings (countP_isTilingKey_le hnodup)⟩

end Msopcom
