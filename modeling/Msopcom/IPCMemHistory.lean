import Msopcom.IPCMemManager
import Mathlib.Data.List.TakeDrop

set_option autoImplicit false

/-!
# When the map of shared memory is the history of the calls

The hooks of import and close do not look at how the call has ended, an entry of the map stays
when its key is shared again, and a key is cut at the size of a name.
-/
namespace Msopcom.IPCMemManager
open KeyedList

/-! ## Keys -/

theorem findIdx_take_of_noNul (key : CString) (n : Nat) :
    (key.bytes.take n).findIdx (· == 0) = min n key.bytes.length := by
  have hnone : ∀ b ∈ key.bytes.take n, ¬ (b == 0) = true := by
    intro b hb hzero
    rw [beq_iff_eq.mp hzero] at hb
    exact key.noNul (List.mem_of_mem_take hb)
  rw [List.findIdx_eq_length.mpr (by simpa using hnone), List.length_take]

theorem getValidLength_toNat (key : CString) (maxLen : UInt64) :
    (getValidLength key.bytes maxLen).toNat =
      min (min maxLen.toNat key.bytes.length) (maxLen - 1).toNat := by
  have hlt : min maxLen.toNat key.bytes.length < 2 ^ 64 :=
    Nat.lt_of_le_of_lt (Nat.min_le_left _ _) maxLen.toNat_lt
  unfold getValidLength
  dsimp only
  rw [findIdx_take_of_noNul]
  split_ifs with h
  · rw [UInt64.lt_iff_toNat_lt, Words.toNat_ofNat64 hlt] at h
    rw [Words.toNat_ofNat64 hlt]
    omega
  · rw [UInt64.lt_iff_toNat_lt, Words.toNat_ofNat64 hlt] at h
    omega

/-- The hooks see the whole key exactly when a name has room for it. -/
theorem validName_eq_iff (key : CString) (maxLen : UInt64) :
    validName key maxLen = key.bytes ↔ Fits key maxLen := by
  rw [validName, List.take_eq_self_iff, getValidLength_toNat, Fits, ← List.length_eq_zero_iff]
  have hmax := maxLen.toNat_lt
  by_cases hzero : maxLen = 0
  · rw [hzero]
    change key.bytes.length ≤ min (min 0 _) _ ↔ key.bytes.length < 0 ∨ _
    omega
  · have hpos : maxLen.toNat ≠ 0 := fun h => hzero (UInt64.toNat_inj.mp h)
    have hpred : (maxLen - 1).toNat = maxLen.toNat - 1 :=
      Words.toNat_sub64 (by change 1 ≤ maxLen.toNat; omega)
    omega

/-! ## The map after one call -/

section Map
variable {m : IPCMemManager} {live : AList fun _ : List UInt8 => IPCMemInfo}

theorem lookup_insert (m : IPCMemManager) (key k : List UInt8) (info : IPCMemInfo) :
    (m.insert key info).ipcMemInfoMap.lookup k =
      if k = key then some ((m.ipcMemInfoMap.lookup key).getD info)
      else m.ipcMemInfoMap.lookup k := by
  unfold insert
  by_cases hk : k = key
  · subst hk
    cases hlookup : m.ipcMemInfoMap.lookup k with
    | none => simp
    | some old => simp [hlookup]
  · split_ifs
    · rfl
    · exact AList.lookup_insert_ne hk

/-- Sharing a key leaves its latest share in the map exactly when there is no other. -/
theorem insert_agrees_iff (hmap : ∀ k, m.ipcMemInfoMap.lookup k = live.lookup k)
    (key : List UInt8) (info : IPCMemInfo) :
    (∀ k, (m.insert key info).ipcMemInfoMap.lookup k = (live.insert key info).lookup k) ↔
      ∀ old ∈ m.ipcMemInfoMap.lookup key, old = info := by
  constructor
  · intro h old hold
    have hkey := h key
    rw [lookup_insert, if_pos rfl, AList.lookup_insert, Option.mem_def.mp hold] at hkey
    exact Option.some.inj hkey
  · intro h k
    rw [lookup_insert, lookup_insert_eq, hmap k]
    split_ifs
    · cases hlookup : m.ipcMemInfoMap.lookup key with
      | none => rfl
      | some old => rw [h old hlookup, Option.getD_some]
    · rfl

theorem erase_agrees (hmap : ∀ k, m.ipcMemInfoMap.lookup k = live.lookup k)
    (key k : List UInt8) :
    (m.erase key).ipcMemInfoMap.lookup k = (live.erase key).lookup k := by
  rw [erase, lookup_erase_eq, lookup_erase_eq, hmap k]

end Map

/-! ## Calls that fail -/

section Step
variable {p : Process}

/-- What a call adds to a faithful history. -/
def Settled (p : Process) (c : Call) : Prop :=
  (∀ k, (post c p.manager).manager.ipcMemInfoMap.lookup k = (step p c).live.lookup k) ∧
    Reported ⟨c, c.request.key.bind fun key => p.live.lookup key.bytes,
      (post c p.manager).record⟩

theorem faithful_step (h : Faithful p) (c : Call) : Faithful (step p c) ↔ Settled p c := by
  constructor
  · rintro ⟨hmap, hreported⟩
    exact ⟨hmap, hreported _ (by simp [step])⟩
  · rintro ⟨hmap, hreported⟩
    refine ⟨hmap, fun e he => ?_⟩
    rcases List.mem_append.mp he with he | he
    · exact h.reported e he
    · rw [List.mem_singleton.mp he]
      exact hreported

/-- A call that fails is to leave the map as it is and send nothing. -/
theorem settled_failed (h : Faithful p) {c : Call} (hret : c.ret ≠ ACL_ERROR_NONE)
    (hpost : (post c p.manager).record = none → (post c p.manager).manager = p.manager) :
    Settled p c ↔ (post c p.manager).record = none := by
  unfold Settled Reported
  rw [if_neg hret]
  constructor
  · exact fun ⟨_, hrecord⟩ => hrecord
  · intro hrecord
    refine ⟨fun k => ?_, hrecord⟩
    rw [hpost hrecord, step, if_neg hret]
    exact h.map k

theorem settled_getExportKey_failed (h : Faithful p) {devPtr size len : UInt64}
    {key : Option CString} {ret : Int32} (hret : ret ≠ ACL_ERROR_NONE) :
    Settled p ⟨.getExportKey devPtr size key len, ret⟩ := by
  have hpost : post ⟨.getExportKey devPtr size key len, ret⟩ p.manager =
      { ret, manager := p.manager } := if_pos hret
  exact (settled_failed h hret fun _ => by rw [hpost]).mpr (by rw [hpost])

theorem settled_importByKey_failed (h : Faithful p) {devPtr : Option UInt64}
    {key : Option CString} {ret : Int32} (hret : ret ≠ ACL_ERROR_NONE) :
    Settled p ⟨.importByKey devPtr key, ret⟩ ↔ devPtr = none ∨ key = none := by
  cases key with
  | none =>
    have hpost : post ⟨.importByKey devPtr none, ret⟩ p.manager =
        { ret, manager := p.manager } := rfl
    exact iff_of_true ((settled_failed h hret fun _ => by rw [hpost]).mpr (by rw [hpost]))
      (.inr rfl)
  | some key =>
    cases devPtr with
    | none =>
      have hpost : post ⟨.importByKey none (some key), ret⟩ p.manager =
          { ret, manager := p.manager } := rfl
      exact iff_of_true ((settled_failed h hret fun _ => by rw [hpost]).mpr (by rw [hpost]))
        (.inl rfl)
    | some addr =>
      refine iff_of_false (fun hsettled => ?_) (by simp)
      -- The record is sent whatever the call returns.
      have hsent := (settled_failed h hret fun hnone => by cases hnone).mp hsettled
      cases hsent

theorem post_close_missing {m : IPCMemManager} {key : CString} (ret : Int32)
    (hlookup : m.ipcMemInfoMap.lookup (validName key nameSize) = none) :
    post ⟨.close (some key), ret⟩ m = { ret, manager := m } := by
  simp [post, closePost, hlookup]

theorem post_close_found {m : IPCMemManager} {key : CString} {info : IPCMemInfo} (ret : Int32)
    (hlookup : m.ipcMemInfoMap.lookup (validName key nameSize) = some info) :
    post ⟨.close (some key), ret⟩ m =
      { ret
        manager := m.erase (validName key nameSize)
        record := some (closeRecord (validName key nameSize) info) } := by
  simp [post, closePost, hlookup]

/-- The hooks hand on what the call has returned. -/
theorem post_ret (c : Call) (m : IPCMemManager) : (post c m).ret = c.ret := by
  obtain ⟨request, ret⟩ := c
  cases request with
  | getExportKey devPtr size key len =>
    by_cases hret : ret ≠ ACL_ERROR_NONE
    · simp only [post, getExportKeyPost, if_pos hret]
    · cases key <;> simp only [post, getExportKeyPost, if_neg hret, if_true]
  | importByKey devPtr key => cases key <;> cases devPtr <;> rfl
  | close key =>
    cases key with
    | none => rfl
    | some key =>
      cases hlookup : m.ipcMemInfoMap.lookup (validName key nameSize) with
      | none => rw [post_close_missing ret hlookup]
      | some info => rw [post_close_found ret hlookup]

theorem settled_close_failed (h : Faithful p) {key : Option CString} {ret : Int32}
    (hret : ret ≠ ACL_ERROR_NONE) :
    Settled p ⟨.close key, ret⟩ ↔
      ∀ k ∈ key, p.manager.ipcMemInfoMap.lookup (validName k nameSize) = none := by
  cases key with
  | none =>
    have hpost : post ⟨.close none, ret⟩ p.manager = { ret, manager := p.manager } := rfl
    exact iff_of_true ((settled_failed h hret fun _ => by rw [hpost]).mpr (by rw [hpost]))
      fun k hk => by cases hk
  | some key =>
    cases hlookup : p.manager.ipcMemInfoMap.lookup (validName key nameSize) with
    | none =>
      have hpost := post_close_missing ret hlookup
      refine iff_of_true ((settled_failed h hret fun _ => by rw [hpost]).mpr (by rw [hpost])) ?_
      rintro k ⟨⟩
      exact hlookup
    | some info =>
      have hsome : (post ⟨.close (some key), ret⟩ p.manager).record ≠ none := by
        rw [post_close_found ret hlookup]
        exact Option.some_ne_none _
      refine iff_of_false (fun hsettled => ?_) fun hnone => ?_
      · exact hsome ((settled_failed h hret fun hnone => absurd hnone hsome).mp hsettled)
      · rw [hnone key rfl] at hlookup
        cases hlookup

/-! ## Calls that succeed -/

theorem not_settled_of_unsent {c : Call} (hret : c.ret = ACL_ERROR_NONE)
    (hrecord : (post c p.manager).record = none) : ¬ Settled p c := by
  rintro ⟨-, hreported⟩
  unfold Reported at hreported
  rw [if_pos hret] at hreported
  obtain ⟨r, hr, -⟩ := hreported
  rw [hrecord] at hr
  cases hr

/-- A call that shares `key` and whose record names it as `name`. -/
theorem settled_share (h : Faithful p) {c : Call} {name key : List UInt8} {info : IPCMemInfo}
    {r : IPCMemRecord} (hret : c.ret = ACL_ERROR_NONE)
    (hpost : post c p.manager =
      { ret := c.ret, manager := p.manager.insert name info, record := some r })
    (hlive : settle c.request p.live = p.live.insert key info)
    (hdescribes : ∀ share, Describes share r c.request ↔ name = key) :
    Settled p c ↔ name = key ∧ ∀ old ∈ p.manager.ipcMemInfoMap.lookup key, old = info := by
  have hagrees := insert_agrees_iff h.map key info
  unfold Settled Reported
  rw [if_pos hret, hpost, step, if_pos hret, hlive]
  constructor
  · rintro ⟨hmap, r', hr, hdescribed⟩
    cases hr
    have hname : name = key := (hdescribes _).mp hdescribed
    rw [hname] at hmap
    exact ⟨hname, hagrees.mp hmap⟩
  · rintro ⟨hname, hsame⟩
    rw [hname]
    exact ⟨hagrees.mpr hsame, r, rfl, (hdescribes _).mpr hname⟩

theorem settled_getExportKey (h : Faithful p) {devPtr size len : UInt64}
    {key : Option CString} :
    Settled p ⟨.getExportKey devPtr size key len, ACL_ERROR_NONE⟩ ↔
      Expected p.manager (.getExportKey devPtr size key len) := by
  cases key with
  | none => exact iff_of_false (not_settled_of_unsent rfl rfl) (by simp [Expected])
  | some key =>
    rw [settled_share h rfl rfl rfl fun share => by simp [Describes], validName_eq_iff]
    simp [Expected]

theorem settled_importByKey (h : Faithful p) {devPtr : Option UInt64} {key : Option CString} :
    Settled p ⟨.importByKey devPtr key, ACL_ERROR_NONE⟩ ↔
      Expected p.manager (.importByKey devPtr key) := by
  cases key with
  | none => exact iff_of_false (not_settled_of_unsent rfl rfl) (by simp [Expected])
  | some key =>
    cases devPtr with
    | none => exact iff_of_false (not_settled_of_unsent rfl rfl) (by simp [Expected])
    | some addr =>
      rw [settled_share h rfl rfl rfl fun share => by simp [Describes], validName_eq_iff]
      simp [Expected]

theorem settled_close (h : Faithful p) {key : Option CString} :
    Settled p ⟨.close key, ACL_ERROR_NONE⟩ ↔ Expected p.manager (.close key) := by
  cases key with
  | none => exact iff_of_false (not_settled_of_unsent rfl rfl) (by simp [Expected])
  | some key =>
    have hexpected : Expected p.manager (.close (some key)) ↔
        validName key nameSize = key.bytes ∧
          (p.manager.ipcMemInfoMap.lookup key.bytes).isSome = true := by
      rw [validName_eq_iff]
      simp [Expected]
    rw [hexpected]
    cases hlookup : p.manager.ipcMemInfoMap.lookup (validName key nameSize) with
    | none =>
      refine iff_of_false (not_settled_of_unsent rfl ?_) ?_
      · rw [post_close_missing _ hlookup]
      · rintro ⟨hname, hsome⟩
        rw [← hname, hlookup] at hsome
        cases hsome
    | some info =>
      have hpost := post_close_found ACL_ERROR_NONE hlookup
      constructor
      · rintro ⟨hmap, -⟩
        -- A key that was cut erases the entry of another.
        have hname : validName key nameSize = key.bytes := by
          by_contra hne
          have herased : (p.manager.erase (validName key nameSize)).ipcMemInfoMap.lookup
              (validName key nameSize) =
                (p.live.erase key.bytes).lookup (validName key nameSize) := by
            have hkey := hmap (validName key nameSize)
            rw [hpost] at hkey
            exact hkey
          rw [erase, AList.lookup_erase, AList.lookup_erase_ne hne, ← h.map, hlookup] at herased
          cases herased
        exact ⟨hname, by rw [← hname, hlookup]; rfl⟩
      · rintro ⟨hname, -⟩
        rw [hname] at hpost hlookup
        have hlive : p.live.lookup key.bytes = some info := by rw [← h.map, hlookup]
        unfold Settled Reported
        rw [hpost]
        refine ⟨erase_agrees h.map key.bytes, closeRecord key.bytes info, rfl, ?_⟩
        rw [show (Request.close (some key)).key.bind _ = p.live.lookup key.bytes from rfl, hlive]
        obtain ⟨actor, devPtr⟩ := info
        cases actor with
        | SHARER => exact ⟨key, rfl, rfl⟩
        | SHAREE => rfl

/-! ## Whole runs -/

theorem faithful_step_iff (h : Faithful p) (c : Call) : Faithful (step p c) ↔ Proper p c := by
  rw [faithful_step h]
  obtain ⟨request, ret⟩ := c
  unfold Proper
  dsimp only
  split_ifs with hret
  · subst hret
    cases request with
    | getExportKey devPtr size key len => exact settled_getExportKey h
    | importByKey devPtr key => exact settled_importByKey h
    | close key => exact settled_close h
  · cases request with
    | getExportKey devPtr size key len =>
      exact iff_of_true (settled_getExportKey_failed h hret) trivial
    | importByKey devPtr key => exact settled_importByKey_failed h hret
    | close key => exact settled_close_failed h hret

end Step

theorem faithful_start : Faithful start :=
  ⟨fun _ => rfl, fun _ he => absurd he List.not_mem_nil⟩

/-- The map and the records follow the calls that succeed exactly when every call is proper. -/
theorem history_faithful_iff (calls : List Call) :
    (∀ n, Faithful ((calls.take n).foldl step start)) ↔ Runs.Guarded step Proper start calls :=
  @Runs.guarded_iff_invariant _ _ step Proper Faithful (fun _ _ => True)
    (fun _ c _ h => faithful_step_iff h c) _ _
    (Runs.guarded_true start calls) faithful_start

def key : CString := ⟨[0x6B], by decide⟩

/-- An export and the close of its key. -/
example : Runs.Guarded step Proper start
    [⟨.getExportKey 0x4000 64 (some key) 65, 0⟩, ⟨.close (some key), 0⟩] := by
  refine ⟨⟨key, rfl, .inl (by decide), fun info hinfo => ?_⟩,
    ⟨key, rfl, .inl (by decide), ?_⟩, trivial⟩
  · cases hinfo
  · decide

/-- The import has failed, but the map has its key and the server is told of the mapping. -/
theorem failed_import_mapped :
    (post ⟨.importByKey (some 0x4000) (some key), 507899⟩ {}).record =
        some (.mapInfo 0x4000 [0x6B]) ∧
      (step start ⟨.importByKey (some 0x4000) (some key), 507899⟩).manager.ipcMemInfoMap.lookup
        [0x6B] = some ⟨.SHAREE, 0x4000⟩ ∧
      ¬ Faithful (step start ⟨.importByKey (some 0x4000) (some key), 507899⟩) := by
  refine ⟨by decide, by decide, fun h => ?_⟩
  have hshare := h.map [0x6B]
  revert hshare
  decide

end Msopcom.IPCMemManager
