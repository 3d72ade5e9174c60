import Msopcom.ProgramStart

set_option autoImplicit false

/-!
# Program starts over whole runs

An address is right when the table describes the binary whose handle was queried. Only an
instrumentation changes the table, and only its own handle is queried behind it.
-/
namespace Msopcom.ProgramStart
open KeyedList

section Addresses
variable {c : ProgramStart} {hdl tilingKey kernelAddr pcStartAddr : UInt64}

theorem getPcStartAddr_eq_some_iff {answer : Option UInt64} :
    c.getPcStartAddr answer hdl tilingKey = some pcStartAddr ↔ ∃ kernelAddr kernelOffset,
      answer = some kernelAddr ∧ c.getKernelOffset hdl tilingKey = some kernelOffset ∧
        ¬ kernelAddr < kernelOffset ∧ pcStartAddr = kernelAddr - kernelOffset := by
  unfold getPcStartAddr
  simp only [Option.bind_eq_bind, Option.bind_eq_some_iff, Option.ite_none_left_eq_some,
    Option.some.injEq]
  constructor
  · rintro ⟨kernelAddr, haddr, kernelOffset, hoffset, hle, rfl⟩
    exact ⟨kernelAddr, kernelOffset, haddr, hoffset, hle, rfl⟩
  · rintro ⟨kernelAddr, kernelOffset, haddr, hoffset, hle, rfl⟩
    exact ⟨kernelAddr, haddr, kernelOffset, hoffset, hle, rfl⟩

theorem right_iff_getKernelOffset (queried : DevBinary) (tilingKey kernelAddr kernelOffset : UInt64) :
    Obtained.Right ⟨queried, tilingKey, kernelAddr, kernelAddr - kernelOffset⟩ ↔
      getKernelOffsetByTilingKey queried.symbols tilingKey = some kernelOffset := by
  constructor
  · rintro ⟨offset, hoffset, heq⟩
    rw [hoffset, (UInt64.sub_right_inj kernelAddr).mp heq]
  · exact fun hoffset => ⟨kernelOffset, hoffset, rfl⟩

/-- With an address for the kernel, the start is right when the binary that was queried has
the kernel where the table has it. -/
theorem right_noteObtained_iff (queried : DevBinary) (hdl tilingKey : UInt64)
    (answer : Option UInt64) (c : ProgramStart) :
    Right (c.noteObtained queried tilingKey answer (c.getPcStartAddr answer hdl tilingKey)) ↔
      Right c ∧ ∀ pcStartAddr, c.getPcStartAddr answer hdl tilingKey = some pcStartAddr →
        getKernelOffsetByTilingKey queried.symbols tilingKey = c.getKernelOffset hdl tilingKey := by
  cases hpc : c.getPcStartAddr answer hdl tilingKey with
  | none =>
    have hsame : c.noteObtained queried tilingKey answer none = c := by
      unfold noteObtained
      cases answer <;> rfl
    rw [hsame]
    exact ⟨fun h => ⟨h, fun _ hnone => by cases hnone⟩, fun h => h.1⟩
  | some pcStartAddr =>
    obtain ⟨kernelAddr, kernelOffset, rfl, hoffset, -, rfl⟩ := getPcStartAddr_eq_some_iff.mp hpc
    have hnew := right_iff_getKernelOffset queried tilingKey kernelAddr kernelOffset
    constructor
    · intro h
      refine ⟨⟨fun o ho => h.obtained o (List.mem_append_left _ ho), h.reported⟩, fun _ _ => ?_⟩
      rw [hoffset]
      exact hnew.mp (h.obtained _ (List.mem_append_right _ (List.mem_singleton_self _)))
    · rintro ⟨h, hagree⟩
      refine ⟨fun o ho => ?_, h.reported⟩
      rcases List.mem_append.mp ho with ho | ho
      · exact h.obtained o ho
      · rw [List.mem_singleton.mp ho, hnew, hagree _ rfl, hoffset]

theorem noteObtained_eq (queried : DevBinary) (tilingKey : UInt64)
    (answer pcStartAddr : Option UInt64) (c : ProgramStart) :
    ∃ obtained, c.noteObtained queried tilingKey answer pcStartAddr =
      { c with obtained := obtained } := by
  unfold noteObtained
  split
  · exact ⟨_, rfl⟩
  · exact ⟨c.obtained, rfl⟩

end Addresses
/-! ## Launches -/

section Launches
variable {c : ProgramStart} {hdl tilingKey : UInt64} {e : RegisterEvent}

theorem getKernelOffset_of_event (he : c.getRegisterEvent hdl = some e) :
    c.getKernelOffset hdl tilingKey = getKernelOffsetByTilingKey e.symbols tilingKey := by
  rw [getKernelOffset, he, Option.bind_some]

theorem right_addLaunchEvent_iff (answer : Option UInt64) :
    Right (c.addLaunchEvent hdl tilingKey answer) ↔
      Right c ∧ ∀ e pcStartAddr, c.getRegisterEvent hdl = some e →
        c.getPcStartAddr answer hdl tilingKey = some pcStartAddr → TableAgrees e tilingKey := by
  have hright (c : ProgramStart) (launchEvents : List LaunchEvent) :
      Right { c with launchEvents := launchEvents } ↔ Right c :=
    ⟨fun h => ⟨h.obtained, h.reported⟩, fun h => ⟨h.obtained, h.reported⟩⟩
  unfold addLaunchEvent
  cases he : c.getRegisterEvent hdl with
  | none => exact (hright _ _).trans ⟨fun h => ⟨h, fun _ _ hnone => by cases hnone⟩, fun h => h.1⟩
  | some e =>
    refine (hright _ _).trans ((right_noteObtained_iff _ _ _ _ _).trans (and_congr_right fun _ => ?_))
    rw [getKernelOffset_of_event he]
    constructor
    · rintro h _ pcStartAddr ⟨⟩ hpc
      exact h pcStartAddr hpc
    · exact fun h pcStartAddr hpc => h e pcStartAddr rfl hpc

theorem addLaunchEvent_eq (hdl tilingKey : UInt64) (answer : Option UInt64) (c : ProgramStart) :
    ∃ obtained, c.addLaunchEvent hdl tilingKey answer = { c with
      obtained := obtained
      launchEvents := c.launchEvents ++
        [⟨hdl, tilingKey, (c.getPcStartAddr answer hdl tilingKey).getD 0⟩] } := by
  unfold addLaunchEvent
  cases c.getRegisterEvent hdl with
  | none => exact ⟨c.obtained, rfl⟩
  | some e =>
    obtain ⟨obtained, heq⟩ := noteObtained_eq e.bin tilingKey answer
      (c.getPcStartAddr answer hdl tilingKey) c
    refine ⟨obtained, ?_⟩
    dsimp only
    rw [heq]

/-- The event behind an instrumentation. -/
def RegisterEvent.after (e : RegisterEvent) : Dbi → RegisterEvent
  | .none => e
  | .lost task => { e with stubBin := e.stubBin.drop task }
  | .replaced task dbiBinary _ =>
    { e with stubBin := .live task dbiBinary, symbols := dbiBinary.symbols }

theorem getRegisterEvent_update (f : RegisterEvent → RegisterEvent) {regId : Nat}
    (hregId : c.hdlToRegId.lookup hdl = some regId) :
    (c.updateRegisterEvent regId f).getRegisterEvent hdl = (c.getRegisterEvent hdl).map f := by
  unfold getRegisterEvent updateRegisterEvent
  rw [hregId, Option.bind_some, Option.bind_some, List.getElem?_modify_eq]
  rfl

theorem updatePcStartAddrByDbi_eq (dbiBinary : DevBinary) (hdl tilingKey : UInt64)
    (answer : Option UInt64) (c : ProgramStart) :
    ∃ obtained launchEvents, c.updatePcStartAddrByDbi dbiBinary hdl tilingKey answer =
      { c with obtained := obtained, launchEvents := launchEvents } := by
  unfold updatePcStartAddrByDbi
  split
  · exact ⟨c.obtained, c.launchEvents, rfl⟩
  · rename_i pcStartAddr _
    obtain ⟨obtained, heq⟩ := noteObtained_eq dbiBinary tilingKey answer (some pcStartAddr) c
    rw [heq]
    exact ⟨obtained, _, rfl⟩

theorem getRegisterEvent_runDBITask (dbi : Dbi) :
    (c.runDBITask hdl tilingKey dbi).getRegisterEvent hdl =
      (c.getRegisterEvent hdl).map fun e => e.after dbi := by
  cases hregId : c.hdlToRegId.lookup hdl with
  | none =>
    unfold runDBITask getRegisterEvent
    rw [hregId]
    dsimp only
    rw [hregId]
    rfl
  | some regId =>
    unfold runDBITask
    rw [hregId]
    cases dbi with
    | none =>
      dsimp only [RegisterEvent.after]
      rw [Option.map_id']
    | lost task => exact getRegisterEvent_update _ hregId
    | replaced task dbiBinary answer =>
      dsimp only
      obtain ⟨obtained, launchEvents, heq⟩ := updatePcStartAddrByDbi_eq dbiBinary hdl tilingKey
        answer (c.setDbiBinary regId task dbiBinary)
      rw [heq]
      exact getRegisterEvent_update _ hregId

theorem right_updateRegisterEvent_iff (regId : Nat) (f : RegisterEvent → RegisterEvent) :
    Right (c.updateRegisterEvent regId f) ↔ Right c :=
  ⟨fun h => ⟨h.obtained, h.reported⟩, fun h => ⟨h.obtained, h.reported⟩⟩

/-- A start that is obtained from the handle of the binary that the table describes is
right. -/
theorem right_updatePcStartAddrByDbi_iff {dbiBinary : DevBinary} {answer : Option UInt64}
    (htable : ∀ e, c.getRegisterEvent hdl = some e → e.symbols = dbiBinary.symbols) :
    Right (c.updatePcStartAddrByDbi dbiBinary hdl tilingKey answer) ↔ Right c := by
  have hnote := right_noteObtained_iff dbiBinary hdl tilingKey answer c
  unfold updatePcStartAddrByDbi
  cases hpc : c.getPcStartAddr answer hdl tilingKey with
  | none => exact Iff.rfl
  | some pcStartAddr =>
    rw [hpc] at hnote
    refine Iff.trans ⟨fun h => ⟨h.obtained, h.reported⟩, fun h => ⟨h.obtained, h.reported⟩⟩
      (hnote.trans (and_iff_left fun _ _ => ?_))
    obtain ⟨kernelAddr, kernelOffset, -, hoffset, -⟩ := getPcStartAddr_eq_some_iff.mp hpc
    obtain ⟨e, he, -⟩ := Option.bind_eq_some_iff.mp hoffset
    rw [getKernelOffset_of_event he, htable e he]

/-- Behind an instrumentation the table is that of the binary that is queried. -/
theorem right_runDBITask_iff (dbi : Dbi) : Right (c.runDBITask hdl tilingKey dbi) ↔ Right c := by
  unfold runDBITask
  cases hregId : c.hdlToRegId.lookup hdl with
  | none => exact Iff.rfl
  | some regId =>
    cases dbi with
    | none => exact Iff.rfl
    | lost task => exact right_updateRegisterEvent_iff _ _
    | replaced task dbiBinary answer =>
      refine (right_updatePcStartAddrByDbi_iff fun e he => ?_).trans
        (right_updateRegisterEvent_iff _ _)
      rw [setDbiBinary, getRegisterEvent_update _ hregId] at he
      obtain ⟨e', -, rfl⟩ := Option.map_eq_some_iff.mp he
      rfl

theorem right_reportSections_iff (launched : DevBinary) :
    Right (c.reportSections launched hdl) ↔ Right c ∧ ∀ event sections,
      c.launchEvents.getLast? = some event →
      (c.getRegisterEvent hdl).bind reportedSections = some sections → event.pcStartAddr ≠ 0 →
        sections.isSome ∧ sections = launched.allocSectionHeaders := by
  unfold reportSections
  cases c.launchEvents.getLast? with
  | none => exact ⟨fun h => ⟨h, fun _ _ hnone => by cases hnone⟩, fun h => h.1⟩
  | some event =>
    cases (c.getRegisterEvent hdl).bind reportedSections with
    | none => exact ⟨fun h => ⟨h, fun _ _ _ hnone => by cases hnone⟩, fun h => h.1⟩
    | some sections =>
      dsimp only
      split_ifs with hpc
      · exact ⟨fun h => ⟨h, fun _ _ hevent _ hne => by cases hevent; exact absurd hpc hne⟩,
          fun h => h.1⟩
      · constructor
        · intro h
          refine ⟨⟨h.obtained, fun r hr => h.reported r (List.mem_append_left _ hr)⟩, ?_⟩
          rintro _ _ ⟨⟩ ⟨⟩ -
          exact h.reported _ (List.mem_append_right _ (List.mem_singleton_self _))
        · rintro ⟨h, hnew⟩
          refine ⟨h.obtained, fun r hr => ?_⟩
          rcases List.mem_append.mp hr with hr | hr
          · exact h.reported r hr
          · rw [List.mem_singleton.mp hr]
            exact hnew event sections rfl rfl hpc

theorem launchEvents_runDBITask {dbi : Dbi} (hdbi : ∀ task dbiBinary answer,
    dbi ≠ .replaced task dbiBinary answer) :
    (c.runDBITask hdl tilingKey dbi).launchEvents = c.launchEvents := by
  unfold runDBITask
  cases c.hdlToRegId.lookup hdl with
  | none => rfl
  | some regId =>
    cases dbi with
    | none => rfl
    | lost task => rfl
    | replaced task dbiBinary answer => exact absurd rfl (hdbi task dbiBinary answer)

/-- Sections that come from the stub binary of an event are those of the binary itself
exactly when the two agree. -/
theorem reportedSections_right_iff (e : RegisterEvent) :
    (∀ sections, reportedSections e = some sections →
      sections.isSome ∧ sections = e.bin.allocSectionHeaders) ↔ StubAgrees e := by
  unfold reportedSections StubAgrees
  cases e.stubBin with
  | null =>
    refine iff_of_true (fun sections h => ?_) trivial
    obtain ⟨headers, hheaders, rfl⟩ := Option.map_eq_some_iff.mp h
    exact ⟨rfl, hheaders.symm⟩
  | freed => exact iff_of_false (fun h => absurd (h none rfl).1 (by decide)) id
  | live task stubBin =>
    dsimp only
    constructor
    · intro h
      cases hheaders : stubBin.headers with
      | none => exact .inl rfl
      | some headers =>
        refine .inr ?_
        have hsome : stubBin.allocSectionHeaders = some (getAllocSectionHeaders headers) := by
          rw [DevBinary.allocSectionHeaders, hheaders, Option.map_some]
        rw [hsome] at h ⊢
        exact (h _ rfl).2
    · intro h sections hsections
      obtain ⟨headers, hheaders, rfl⟩ := Option.map_eq_some_iff.mp hsections
      refine ⟨rfl, ?_⟩
      rcases h with hnone | hagree
      · rw [DevBinary.allocSectionHeaders, hnone] at hheaders
        cases hheaders
      · rw [← hagree, hheaders]

theorem right_foldl_runDBITask_iff (dbis : List Dbi) :
    Right (dbis.foldl (fun c dbi => c.runDBITask hdl tilingKey dbi) c) ↔ Right c := by
  induction dbis generalizing c with
  | nil => exact Iff.rfl
  | cons dbi dbis ih => exact ih.trans (right_runDBITask_iff dbi)

/-- The sections behind an instrumentation that replaces the handle. -/
theorem right_sanitized_replaced_iff (he : c.getRegisterEvent hdl = some e) (task : Nat)
    (dbiBinary : DevBinary) (answer : Option UInt64) :
    Right ((c.runDBITask hdl tilingKey (.replaced task dbiBinary answer)).reportSections
      dbiBinary hdl) ↔ Right c := by
  rw [right_reportSections_iff, right_runDBITask_iff, getRegisterEvent_runDBITask, he]
  refine and_iff_left fun event sections _ hsections _ => ?_
  obtain ⟨headers, hheaders, rfl⟩ := Option.map_eq_some_iff.mp hsections
  exact ⟨rfl, hheaders.symm⟩

theorem right_sanitized_kept_iff (he : c.getRegisterEvent hdl = some e) {dbi : Dbi}
    (hdbi : ∀ task dbiBinary answer, dbi ≠ .replaced task dbiBinary answer) {event : LaunchEvent}
    (hevent : c.launchEvents.getLast? = some event) :
    Right ((c.runDBITask hdl tilingKey dbi).reportSections (launchedBinary e dbi) hdl) ↔
      Right c ∧ (event.pcStartAddr = 0 ∨ StubAgrees (e.behind dbi)) := by
  have hbehind : e.after dbi = e.behind dbi ∧ launchedBinary e dbi = (e.behind dbi).bin := by
    cases dbi with
    | none => exact ⟨rfl, rfl⟩
    | lost task => exact ⟨rfl, rfl⟩
    | replaced task dbiBinary answer => exact absurd rfl (hdbi task dbiBinary answer)
  rw [right_reportSections_iff, right_runDBITask_iff, getRegisterEvent_runDBITask, he,
    launchEvents_runDBITask hdbi, hevent, Option.map_some, Option.bind_some, hbehind.1,
    hbehind.2, ← reportedSections_right_iff]
  refine and_congr_right fun _ => ⟨fun h => ?_, ?_⟩
  · exact or_iff_not_imp_left.mpr fun hpc sections hsections =>
      h event sections rfl hsections hpc
  · rintro h _ sections ⟨⟩ hsections hpc
    exact h.resolve_left hpc sections hsections

theorem right_launchKernel_iff (h : Right c) (l : Launch) :
    Right (c.launchKernel l) ↔ Safe c (.launch l) := by
  obtain ⟨hdl, tilingKey, answer, mode⟩ := l
  have hadd : Right (c.addLaunchEvent hdl tilingKey answer) ↔ _ :=
    (right_addLaunchEvent_iff answer).trans (and_iff_right h)
  obtain ⟨obtained, heq⟩ := addLaunchEvent_eq hdl tilingKey answer c
  have hevent : (c.addLaunchEvent hdl tilingKey answer).launchEvents.getLast? =
      some ⟨hdl, tilingKey, (c.getPcStartAddr answer hdl tilingKey).getD 0⟩ := by
    rw [heq]
    exact List.getLast?_concat
  dsimp only [launchKernel, Safe]
  cases mode with
  | profiled dbis =>
    refine (right_foldl_runDBITask_iff dbis).trans (hadd.trans ?_)
    simp only [and_true]
  | sanitized dbi =>
    cases he : c.getRegisterEvent hdl with
    | none =>
      refine ((right_runDBITask_iff dbi).trans hadd).trans ?_
      rw [he]
      exact iff_of_true (fun _ _ hnone => by cases hnone) fun _ _ hnone => by cases hnone
    | some e =>
      have he' : (c.addLaunchEvent hdl tilingKey answer).getRegisterEvent hdl = some e := by
        rw [heq]
        exact he
      have hstart (P : RegisterEvent → UInt64 → Prop) :
          (∀ e' pcStartAddr, some e = some e' →
            c.getPcStartAddr answer hdl tilingKey = some pcStartAddr →
            TableAgrees e' tilingKey ∧ P e' pcStartAddr) ↔
          (∀ e' pcStartAddr, c.getRegisterEvent hdl = some e' →
            c.getPcStartAddr answer hdl tilingKey = some pcStartAddr →
              TableAgrees e' tilingKey) ∧
            ∀ pcStartAddr, c.getPcStartAddr answer hdl tilingKey = some pcStartAddr →
              P e pcStartAddr := by
        rw [he]
        constructor
        · exact fun h => ⟨fun e' pc he' hpc => (h e' pc he' hpc).1, fun pc hpc => (h e pc rfl hpc).2⟩
        · rintro h _ pc ⟨⟩ hpc
          exact ⟨h.1 e pc rfl hpc, h.2 pc hpc⟩
      have hkept (hdbi : ∀ task dbiBinary answer, dbi ≠ .replaced task dbiBinary answer) :
          Right (((c.addLaunchEvent hdl tilingKey answer).runDBITask hdl tilingKey
            dbi).reportSections (launchedBinary e dbi) hdl) ↔ _ :=
        (right_sanitized_kept_iff he' hdbi hevent).trans (and_congr_left' hadd)
      have hpc (P : Prop) : (((c.getPcStartAddr answer hdl tilingKey).getD 0 = 0 ∨ P) ↔
          ∀ pcStartAddr, c.getPcStartAddr answer hdl tilingKey = some pcStartAddr →
            pcStartAddr = 0 ∨ P) := by
        cases c.getPcStartAddr answer hdl tilingKey with
        | none => exact iff_of_true (.inl rfl) fun _ hnone => by cases hnone
        | some pcStartAddr => exact ⟨fun h _ heq => by cases heq; exact h, fun h => h _ rfl⟩
      cases dbi with
      | none =>
        refine (hkept fun _ _ _ heq => by cases heq).trans (Iff.trans ?_
          (hstart fun e pcStartAddr => pcStartAddr = 0 ∨ StubAgrees (e.behind .none)).symm)
        exact and_congr_right fun _ => hpc _
      | lost task =>
        refine (hkept fun _ _ _ heq => by cases heq).trans (Iff.trans ?_
          (hstart fun e pcStartAddr => pcStartAddr = 0 ∨ StubAgrees (e.behind (.lost task))).symm)
        exact and_congr_right fun _ => hpc _
      | replaced task dbiBinary dbiAnswer =>
        refine ((right_sanitized_replaced_iff he' task dbiBinary dbiAnswer).trans hadd).trans
          (Iff.trans ?_ (hstart fun _ _ => True).symm)
        exact (and_iff_left fun _ _ => trivial).symm

end Launches

/-! ## The table of a binary that was never instrumented -/

section Undisturbed
variable {c : ProgramStart}

/-- Unless there is a stub binary, the table is that of the binary itself. -/
def Undisturbed (c : ProgramStart) : Prop :=
  ∀ e ∈ c.registerEvents, e.stubBin = .null → e.symbols = e.bin.symbols

theorem Undisturbed.updateRegisterEvent (h : Undisturbed c) (regId : Nat)
    {f : RegisterEvent → RegisterEvent}
    (hf : ∀ e, (f e).stubBin = .null → e.stubBin = .null ∧ (f e).symbols = e.symbols ∧
      (f e).bin = e.bin) : Undisturbed (c.updateRegisterEvent regId f) := by
  intro e he hnull
  obtain ⟨i, hi⟩ := List.mem_iff_getElem?.mp he
  change (c.registerEvents.modify regId f)[i]? = some e at hi
  rw [List.getElem?_modify] at hi
  obtain ⟨e', he', heq⟩ := Option.map_eq_some_iff.mp hi
  have hmem : e' ∈ c.registerEvents := List.mem_of_getElem? he'
  split_ifs at heq
  · subst heq
    obtain ⟨hnull', hsymbols, hbin⟩ := hf e' hnull
    rw [hsymbols, hbin, h e' hmem hnull']
  · subst heq
    exact h e' hmem hnull

theorem Undisturbed.runDBITask (h : Undisturbed c) (hdl tilingKey : UInt64) (dbi : Dbi) :
    Undisturbed (c.runDBITask hdl tilingKey dbi) := by
  unfold ProgramStart.runDBITask
  split
  · rename_i regId task _
    refine h.updateRegisterEvent regId fun e hnull => ⟨?_, rfl, rfl⟩
    change e.stubBin.drop task = .null at hnull
    unfold StubBin.drop at hnull
    split at hnull
    · split_ifs at hnull
    · exact hnull
  · rename_i regId task dbiBinary answer _
    obtain ⟨obtained, launchEvents, heq⟩ := updatePcStartAddrByDbi_eq dbiBinary hdl tilingKey answer
      (c.setDbiBinary regId task dbiBinary)
    rw [heq]
    exact h.updateRegisterEvent regId fun e hnull => by cases hnull
  · exact h

theorem Undisturbed.launchKernel (h : Undisturbed c) (l : Launch) :
    Undisturbed (c.launchKernel l) := by
  obtain ⟨hdl, tilingKey, answer, mode⟩ := l
  have hadd : Undisturbed (c.addLaunchEvent hdl tilingKey answer) := by
    obtain ⟨obtained, heq⟩ := addLaunchEvent_eq hdl tilingKey answer c
    rw [heq]
    exact h
  dsimp only [ProgramStart.launchKernel]
  cases mode with
  | profiled dbis => exact Runs.invariant (fun _ dbi h => h.runDBITask hdl tilingKey dbi) dbis hadd
  | sanitized dbi =>
    dsimp only
    split
    · exact hadd.runDBITask hdl tilingKey dbi
    · unfold reportSections
      split
      · split_ifs
        · exact hadd.runDBITask hdl tilingKey dbi
        · exact hadd.runDBITask hdl tilingKey dbi
      · exact hadd.runDBITask hdl tilingKey dbi

theorem Undisturbed.addHdlRegisterEvent (h : Undisturbed c) (hdl : UInt64) (bin : DevBinary) :
    Undisturbed (c.addHdlRegisterEvent hdl bin) := by
  unfold ProgramStart.addHdlRegisterEvent
  split_ifs
  · exact h
  · intro e he hnull
    rcases List.mem_append.mp he with he | he
    · exact h e he hnull
    · rw [List.mem_singleton.mp he]

theorem undisturbed_run (ops : List Op) : Undisturbed (ops.foldl step {}) := by
  refine Runs.invariant (fun c op h => ?_) ops fun _ he => by cases he
  cases op with
  | register hdl bin => exact h.addHdlRegisterEvent hdl bin
  | setDbiBinary regId task devBinary =>
    exact h.updateRegisterEvent regId fun e hnull => by cases hnull
  | launch l => exact h.launchKernel l

/-- No launch goes wrong before the first instrumentation of its binary. -/
theorem safe_of_null (h : Undisturbed c) {l : Launch}
    (hnull : ∀ e, c.getRegisterEvent l.hdl = some e → e.stubBin = .null) :
    Safe c (.launch l) := by
  intro e pcStartAddr he _
  obtain ⟨regId, -, hregId⟩ := Option.bind_eq_some_iff.mp he
  have hsymbols : e.symbols = e.bin.symbols := h e (List.mem_of_getElem? hregId) (hnull e he)
  refine ⟨by rw [TableAgrees, hsymbols], ?_⟩
  split
  · trivial
  · trivial
  · rename_i dbi _ _
    have hbehind : (e.behind dbi).stubBin = .null := by
      unfold RegisterEvent.behind
      split
      · rw [hnull e he]
        rfl
      · exact hnull e he
    refine .inr ?_
    rw [StubAgrees, hbehind]
    trivial

end Undisturbed

/-! ## Runs -/

theorem right_step_iff {c : ProgramStart} {op : Op} (h : Right c) :
    Right (step c op) ↔ Safe c op := by
  cases op with
  | register hdl bin =>
    refine iff_of_true ?_ trivial
    dsimp only [step, addHdlRegisterEvent]
    split_ifs
    · exact h
    · exact ⟨h.obtained, h.reported⟩
  | setDbiBinary regId task devBinary =>
    exact iff_of_true ((right_updateRegisterEvent_iff _ _).mpr h) trivial
  | launch l => exact right_launchKernel_iff h l

/-- In a run every start that is obtained and all sections that are reported are right
exactly when every launch is safe. -/
theorem starts_right_iff (ops : List Op) :
    (∀ n, Right ((ops.take n).foldl step {})) ↔ Runs.Guarded step Safe {} ops := by
  have hstart : Right {} := by constructor <;> exact fun _ h => by cases h
  exact @Runs.guarded_iff_invariant _ _ step Safe Right (fun _ _ => True)
    (fun _ _ _ h => right_step_iff h) {} ops (Runs.guarded_true _ ops) hstart

/-- Two kernels of a binary, and an instrumented binary that has only the second. -/
def twoKernels : DevBinary :=
  { symbols := [([107, 95, 49], 0), ([107, 95, 50], 0x100)], headers := some [⟨2, 0, 0x200⟩] }

def secondInstrumented : DevBinary :=
  { symbols := [([107, 95, 50], 0)], headers := some [⟨2, 0, 0x80⟩] }

/-- The second kernel is launched with an instrumentation and then without. -/
def instrumentedOnce : List Op :=
  [.register 7 twoKernels,
    .launch ⟨7, 2, some 0x5100, .sanitized (.replaced 1 secondInstrumented (some 0x9000))⟩,
    .launch ⟨7, 2, some 0x5100, .sanitized .none⟩]

theorem instrumentedOnce_not_right :
    (instrumentedOnce.foldl step {}).obtained =
        [⟨twoKernels, 2, 0x5100, 0x5000⟩, ⟨secondInstrumented, 2, 0x9000, 0x9000⟩,
          ⟨twoKernels, 2, 0x5100, 0x5100⟩] ∧
      (instrumentedOnce.foldl step {}).reported =
        [⟨secondInstrumented, 0x9000, some [⟨2, 0, 0x80⟩]⟩,
          ⟨twoKernels, 0x5100, some [⟨2, 0, 0x80⟩]⟩] ∧
      ¬ Right (instrumentedOnce.foldl step {}) := by
  have hreported : (instrumentedOnce.foldl step {}).reported =
      [⟨secondInstrumented, 0x9000, some [⟨2, 0, 0x80⟩]⟩,
        ⟨twoKernels, 0x5100, some [⟨2, 0, 0x80⟩]⟩] := by decide
  refine ⟨by decide, hreported, fun h => ?_⟩
  have hlast := h.reported ⟨twoKernels, 0x5100, some [⟨2, 0, 0x80⟩]⟩ (by rw [hreported]; decide)
  exact absurd hlast.2 (by decide)

end Msopcom.ProgramStart
