import PacketOffload.Proofs.Loading.Admission
import PacketOffload.Proofs.Loading.Steps

/-!
# What can be loaded

On a reliable device a load goes through or not by the image alone: the gates that the loader finds
do not matter, because it opens them itself. An image is loadable if its sections can be read and
lie in the memory window, its handlers can be looked up, and its handlers' data do not begin past
the level-2 memory.

Main statements: the verdict of a load is that of its image (`verdict_loadScript_eq_ok_iff`), a load
that fails does so for a cause in the image (`loadFault_of_verdict`), and both together say what the
loader's calls come to (`loader_accepts`).
-/

namespace PacketOffload

/-! ## Loadable images -/

namespace FirmwareImage

/-- A section can be read, lies in the memories of the device and, unless it is empty, in the memory
window as whole words. -/
def SectionFits (image : FirmwareImage) (name : String) : Prop :=
  ∃ info bytes, image.sectionInfo name = .ok info ∧ image.sectionBytes name = .ok bytes ∧
    l2Base ≤ info.addr.toNat ∧
    (bytes ≠ [] → ∃ offset, windowOffset info.addr = .ok offset ∧ offset % 4 = 0 ∧
      offset + 4 * ((bytes.length + 3) / 4) ≤ windowLength)

structure Loadable (image : FirmwareImage) : Prop where
  fits : ∀ name ∈ firmwareSections, image.SectionFits name
  /-- Every handler can be looked up, though it may turn out to be missing. -/
  lookups : ∀ name ∈ handlerSymbols, ∃ found, image.symbolAddress name = .ok found
  dataInL2 : ∃ info, image.sectionInfo handlerDataSection = .ok info ∧ info.addr.toNat ≤ l2End

/-- What can be wrong with an image. -/
inductive LoadFault (image : FirmwareImage) : Fault → Prop where
  | info {name : String} {e : Fault} (hm : name ∈ firmwareSections)
      (h : image.sectionInfo name = .error e) : LoadFault image e
  | bytes {name : String} {e : Fault} (hm : name ∈ firmwareSections)
      (h : image.sectionBytes name = .error e) : LoadFault image e
  | symbol {name : String} {e : Fault} (hm : name ∈ handlerSymbols)
      (h : image.symbolAddress name = .error e) : LoadFault image e
  | belowDevice (addr : UInt32) : LoadFault image (.invalidImage (.belowDevice addr))
  | outsideWindow (offset : Nat) : LoadFault image (.memoryRange offset)
  | beyondL2 (addr : UInt32) : LoadFault image (.invalidImage (.beyondL2 addr))

end FirmwareImage

/-! ## Verdicts of sections -/

theorem exists_windowOffset_iff {addr : UInt32} :
    (∃ offset, windowOffset addr = .ok offset) ↔ l2Base ≤ addr.toNat := by
  have hbase : l2Base ≤ programBase := by decide
  unfold windowOffset
  by_cases hp : programBase ≤ addr.toNat
  · simp [hp, Nat.le_trans hbase hp]
  · by_cases hl : l2Base ≤ addr.toNat <;> simp [hp, hl]

theorem windowOffset_eq_error {addr : UInt32} {e : Fault} (h : windowOffset addr = .error e) :
    e = .invalidImage (.belowDevice addr) := by
  unfold windowOffset at h
  split at h
  · cases h
  · split at h
    · cases h
    · exact (Except.error.inj h).symm

/-- Words can be stored one after the other exactly if all of them lie in the memory window. -/
theorem verdict_storeScript_eq_ok_iff {offset : Nat} {words : List UInt32} :
    (storeScript offset words).verdict = .ok () ↔
      (words ≠ [] → offset % 4 = 0 ∧ offset + 4 * words.length ≤ windowLength) := by
  induction words generalizing offset with
  | nil => simp [storeScript, Script.verdict]
  | cons word rest ih =>
    rw [Script.verdict_eq_ok_iff, storeScript, List.forall_mem_cons, ← Script.verdict_eq_ok_iff, ih,
      Step.verdict_store_eq_ok_iff, InWindow, List.length_cons]
    constructor
    · rintro ⟨⟨haligned, hfirst⟩, hrest⟩ -
      refine ⟨haligned, ?_⟩
      cases rest with
      | nil => exact hfirst
      | cons next rest =>
        have hlast := (hrest (List.cons_ne_nil _ _)).2
        omega
    · intro hall
      obtain ⟨haligned, hlast⟩ := hall (List.cons_ne_nil _ _)
      refine ⟨⟨haligned, by omega⟩, fun _ => ⟨by omega, by omega⟩⟩

/-- The script of a section stores its words, or refuses to, for one of three causes. -/
theorem sectionScript_cases (image : FirmwareImage) (name : String) :
    (∃ e, image.sectionInfo name = .error e ∧ sectionScript image name = [.refuse e]) ∨
      ∃ info, image.sectionInfo name = .ok info ∧
        ((∃ e, image.sectionBytes name = .error e ∧ sectionScript image name = [.refuse e]) ∨
          ∃ bytes, image.sectionBytes name = .ok bytes ∧
            ((∃ e, windowOffset info.addr = .error e ∧ sectionScript image name = [.refuse e]) ∨
              ∃ base, windowOffset info.addr = .ok base ∧
                sectionScript image name = storeScript base (Bytes.words bytes))) := by
  cases hi : image.sectionInfo name with
  | error e => exact Or.inl ⟨e, rfl, by simp [sectionScript, hi]⟩
  | ok info =>
    refine Or.inr ⟨info, rfl, ?_⟩
    cases hb : image.sectionBytes name with
    | error e => exact Or.inl ⟨e, rfl, by simp [sectionScript, hi, hb]⟩
    | ok bytes =>
      refine Or.inr ⟨bytes, rfl, ?_⟩
      cases hw : windowOffset info.addr with
      | error e => exact Or.inl ⟨e, rfl, by simp [sectionScript, hi, hb, hw]⟩
      | ok base => exact Or.inr ⟨base, rfl, by simp [sectionScript, hi, hb, hw]⟩

theorem verdict_sectionScript_eq_ok_iff {image : FirmwareImage} {name : String} :
    (sectionScript image name).verdict = .ok () ↔ image.SectionFits name := by
  have hrefuse : ∀ e, Script.verdict [.refuse e] ≠ .ok () := nofun
  unfold FirmwareImage.SectionFits
  rcases sectionScript_cases image name with
    ⟨e, hi, hs⟩ | ⟨info, hi, ⟨e, hb, hs⟩ | ⟨bytes, hb, ⟨e, hw, hs⟩ | ⟨base, hw, hs⟩⟩⟩
  · simp [hs, hi, hrefuse]
  · simp [hs, hb, hrefuse]
  · have hlow : ¬ l2Base ≤ info.addr.toNat := by
      rw [← exists_windowOffset_iff, hw]
      simp
    simp [hs, hi, hb, hrefuse, hlow]
  · have hhigh : l2Base ≤ info.addr.toNat := exists_windowOffset_iff.1 ⟨base, hw⟩
    have hwords : Bytes.words bytes ≠ [] ↔ bytes ≠ [] := by
      rw [← List.length_pos_iff, ← List.length_pos_iff, Bytes.length_words]
      omega
    rw [hs, verdict_storeScript_eq_ok_iff, hwords, Bytes.length_words]
    simp [hi, hb, hw, hhigh]

theorem eq_store_of_mem_storeScript {step : Step} {offset : Nat} {words : List UInt32}
    (h : step ∈ storeScript offset words) : ∃ place word, step = .store place word := by
  induction words generalizing offset with
  | nil => cases h
  | cons word rest ih =>
    rcases List.mem_cons.1 h with rfl | h
    · exact ⟨offset, word, rfl⟩
    · exact ih h

theorem loadFault_of_mem_sectionScript {image : FirmwareImage} {name : String} {step : Step}
    {e : Fault} (hn : name ∈ firmwareSections) (hm : step ∈ sectionScript image name)
    (he : step.verdict = .error e) : image.LoadFault e := by
  have hrefuse : ∀ {fault : Fault}, step ∈ [Step.refuse fault] → fault = e := by
    intro fault hmem
    obtain rfl := List.mem_singleton.1 hmem
    exact Except.error.inj he
  rcases sectionScript_cases image name with
    ⟨f, hi, hs⟩ | ⟨info, -, ⟨f, hb, hs⟩ | ⟨bytes, -, ⟨f, hw, hs⟩ | ⟨base, -, hs⟩⟩⟩ <;> rw [hs] at hm
  · obtain rfl := hrefuse hm
    exact .info hn hi
  · obtain rfl := hrefuse hm
    exact .bytes hn hb
  · obtain rfl := hrefuse hm
    rw [windowOffset_eq_error hw]
    exact .belowDevice info.addr
  · obtain ⟨offset, word, rfl⟩ := eq_store_of_mem_storeScript hm
    simp only [Step.verdict] at he
    split at he
    · cases he
    · obtain rfl := Except.error.inj he
      exact .outsideWindow offset

/-! ## The verdict of a load -/

theorem HandlerStage.aperture_eq_ok_iff {stage : HandlerStage} {image : FirmwareImage} :
    (∃ a, stage.aperture image = .ok a) ↔
      ∃ found, image.symbolAddress stage.symbol = .ok found := by
  unfold HandlerStage.aperture
  cases image.symbolAddress stage.symbol <;> simp [Except.map]

theorem HandlerStage.aperture_eq_error_iff {stage : HandlerStage} {image : FirmwareImage}
    {e : Fault} :
    stage.aperture image = .error e ↔ image.symbolAddress stage.symbol = .error e := by
  unfold HandlerStage.aperture
  cases image.symbolAddress stage.symbol <;> simp [Except.map]

theorem HandlerStage.verdict_script {stage : HandlerStage} {image : FirmwareImage} {ctx : Nat} :
    (stage.script image ctx).verdict = (stage.aperture image).map fun _ => () := by
  unfold HandlerStage.script
  cases stage.aperture image <;> rfl

/-- The stages of handlers are programmed without an objection if each handler can be looked up. -/
theorem verdict_handlerScript_eq_ok_iff {image : FirmwareImage} {ctx : Nat} :
    (handlerScript image ctx).verdict = .ok () ↔
      ∀ name ∈ handlerSymbols, ∃ found, image.symbolAddress name = .ok found := by
  have hstage : ∀ stage : HandlerStage,
      (∀ step ∈ stage.script image ctx, step.verdict = .ok ()) ↔
        ∃ found, image.symbolAddress stage.symbol = .ok found := by
    intro stage
    rw [← Script.verdict_eq_ok_iff, HandlerStage.verdict_script, ← HandlerStage.aperture_eq_ok_iff]
    cases stage.aperture image <;> simp [Except.map]
  simp only [Script.verdict_eq_ok_iff, handlerScript, List.forall_mem_flatMap, hstage,
    handlerSymbols, List.forall_mem_map]

theorem loadFault_of_mem_handlerScript {image : FirmwareImage} {ctx : Nat} {step : Step}
    {e : Fault} (hm : step ∈ handlerScript image ctx) (he : step.verdict = .error e) :
    image.LoadFault e := by
  obtain ⟨stage, hstage, hm⟩ := List.mem_flatMap.1 hm
  cases ha : stage.aperture image with
  | error f =>
    simp only [HandlerStage.script, ha] at hm
    obtain rfl := List.mem_singleton.1 hm
    obtain rfl := Except.error.inj he
    exact .symbol (List.mem_map_of_mem hstage) (HandlerStage.aperture_eq_error_iff.1 ha)
  | ok a =>
    have hscript : (stage.script image ctx).verdict = .ok () := by
      rw [HandlerStage.verdict_script, ha]
      rfl
    rw [Script.verdict_eq_ok_iff.1 hscript step hm] at he
    cases he

theorem handlerAperture_eq_ok_iff {image : FirmwareImage} :
    (∃ a, handlerAperture image = .ok a) ↔
      ∃ info, image.sectionInfo handlerDataSection = .ok info ∧ info.addr.toNat ≤ l2End := by
  unfold handlerAperture
  cases image.sectionInfo handlerDataSection with
  | error e => simp [bind, Except.bind]
  | ok info =>
    by_cases hl : info.addr.toNat ≤ l2End <;> simp [bind, Except.bind, dataAperture, hl]

theorem handlerAperture_eq_error {image : FirmwareImage} {e : Fault}
    (h : handlerAperture image = .error e) : image.LoadFault e := by
  unfold handlerAperture at h
  cases hi : image.sectionInfo handlerDataSection with
  | error f =>
    simp only [hi, bind, Except.bind] at h
    obtain rfl := Except.error.inj h
    exact .info (by decide) hi
  | ok info =>
    simp only [hi, bind, Except.bind, dataAperture] at h
    split at h
    · cases h
    · obtain rfl := Except.error.inj h
      exact .beyondL2 info.addr

theorem verdict_memoryScript {image : FirmwareImage} {ctx : Nat} {host : HostAperture} :
    (memoryScript image ctx host).verdict = (handlerAperture image).map fun _ => () := by
  unfold memoryScript
  cases handlerAperture image <;> rfl

/-- The apertures are programmed without an objection unless the handlers' data begin past the
level-2 memory. -/
theorem verdict_memoryScript_eq_ok_iff {image : FirmwareImage} {ctx : Nat} {host : HostAperture} :
    (memoryScript image ctx host).verdict = .ok () ↔
      ∃ info, image.sectionInfo handlerDataSection = .ok info ∧ info.addr.toNat ≤ l2End := by
  rw [verdict_memoryScript, ← handlerAperture_eq_ok_iff]
  cases handlerAperture image <;> simp [Except.map]

theorem loadFault_of_mem_memoryScript {image : FirmwareImage} {ctx : Nat} {host : HostAperture}
    {step : Step} {e : Fault} (hm : step ∈ memoryScript image ctx host)
    (he : step.verdict = .error e) : image.LoadFault e := by
  cases ha : handlerAperture image with
  | error f =>
    simp only [memoryScript, ha] at hm
    obtain rfl := List.mem_singleton.1 hm
    obtain rfl := Except.error.inj he
    exact handlerAperture_eq_error ha
  | ok a =>
    have hscript : (memoryScript image ctx host).verdict = .ok () := by
      rw [verdict_memoryScript, ha]
      rfl
    rw [Script.verdict_eq_ok_iff.1 hscript step hm] at he
    cases he

/-- A load is made of register writes, but for its sections, its handlers and its apertures. -/
theorem step_of_mem_loadScript {image : FirmwareImage} {ctx : Nat} {host : HostAperture}
    {step : Step} (h : step ∈ loadScript image ctx host) :
    step.verdict = .ok () ∨ (∃ name ∈ firmwareSections, step ∈ sectionScript image name) ∨
      step ∈ handlerScript image ctx ∨ step ∈ memoryScript image ctx host := by
  simp only [loadScript, loadPlan, List.flatMap_cons, List.flatMap_nil, List.append_nil,
    List.mem_append] at h
  rcases h with h | h | h | h | h | h | h
  · refine Or.inl ?_
    simp only [resetScript, List.mem_cons, List.not_mem_nil, or_false] at h
    rcases h with rfl | rfl | rfl <;> rfl
  · exact Or.inr (Or.inl (List.mem_flatMap.1 h))
  · obtain rfl := List.mem_singleton.1 h
    exact Or.inl rfl
  · obtain rfl := List.mem_singleton.1 h
    exact Or.inl rfl
  · exact Or.inr (Or.inr (Or.inl h))
  · exact Or.inr (Or.inr (Or.inr h))
  · refine Or.inl ?_
    simp only [List.mem_cons, List.not_mem_nil, or_false] at h
    rcases h with rfl | rfl <;> rfl

theorem mem_loadScript_of_section {image : FirmwareImage} {name : String} {step : Step}
    (hn : name ∈ firmwareSections) (hm : step ∈ sectionScript image name) (ctx : Nat)
    (host : HostAperture) : step ∈ loadScript image ctx host := by
  refine List.mem_flatMap.2 ⟨(.writeSections, firmwareSections.flatMap (sectionScript image)), ?_,
    List.mem_flatMap.2 ⟨name, hn, hm⟩⟩
  simp [loadPlan]

theorem mem_loadScript_of_handler {image : FirmwareImage} {ctx : Nat} {step : Step}
    (hm : step ∈ handlerScript image ctx) (host : HostAperture) :
    step ∈ loadScript image ctx host := by
  refine List.mem_flatMap.2 ⟨(.programHandlers, handlerScript image ctx), ?_, hm⟩
  simp [loadPlan]

theorem mem_loadScript_of_memory {image : FirmwareImage} {ctx : Nat} {host : HostAperture}
    {step : Step} (hm : step ∈ memoryScript image ctx host) : step ∈ loadScript image ctx host := by
  refine List.mem_flatMap.2 ⟨(.programApertures, memoryScript image ctx host), ?_, hm⟩
  simp [loadPlan]

/-- The verdict of a load is that of its image. -/
theorem verdict_loadScript_eq_ok_iff {image : FirmwareImage} {ctx : Nat} {host : HostAperture} :
    (loadScript image ctx host).verdict = .ok () ↔ image.Loadable := by
  rw [Script.verdict_eq_ok_iff]
  constructor
  · intro hall
    refine ⟨fun name hn => ?_, ?_, ?_⟩
    · rw [← verdict_sectionScript_eq_ok_iff, Script.verdict_eq_ok_iff]
      exact fun step hm => hall step (mem_loadScript_of_section hn hm ctx host)
    · have hhandlers : (handlerScript image ctx).verdict = .ok () :=
        Script.verdict_eq_ok_iff.2 fun step hm => hall step (mem_loadScript_of_handler hm host)
      exact verdict_handlerScript_eq_ok_iff.1 hhandlers
    · have hmemory : (memoryScript image ctx host).verdict = .ok () :=
        Script.verdict_eq_ok_iff.2 fun step hm => hall step (mem_loadScript_of_memory hm)
      exact verdict_memoryScript_eq_ok_iff.1 hmemory
  · intro hl step hm
    rcases step_of_mem_loadScript hm with hok | ⟨name, hn, hm⟩ | hm | hm
    · exact hok
    · have hfits := verdict_sectionScript_eq_ok_iff.2 (hl.fits name hn)
      exact Script.verdict_eq_ok_iff.1 hfits step hm
    · exact Script.verdict_eq_ok_iff.1 (verdict_handlerScript_eq_ok_iff.2 hl.lookups) step hm
    · exact Script.verdict_eq_ok_iff.1 (verdict_memoryScript_eq_ok_iff.2 hl.dataInL2) step hm

/-- What stops a load on a reliable device is in its image. -/
theorem loadFault_of_verdict {image : FirmwareImage} {ctx : Nat} {host : HostAperture} {e : Fault}
    (h : (loadScript image ctx host).verdict = .error e) : image.LoadFault e := by
  obtain ⟨step, hm, he⟩ := Script.exists_of_verdict_eq_error h
  rcases step_of_mem_loadScript hm with hok | ⟨name, hn, hm⟩ | hm | hm
  · rw [hok] at he
    cases he
  · exact loadFault_of_mem_sectionScript hn hm he
  · exact loadFault_of_mem_handlerScript hm he
  · exact loadFault_of_mem_memoryScript hm he

/-! ## What the calls of the loader come to -/

/-- The faults by which a session stops an access itself: a register that it does not know or that
cannot be written so, or the memory window during a reset. -/
def Fault.IsObjection : Fault → Prop
  | .registerRefused _ _ _ _ | .unknownRegister _ | .registerIndex _ _ | .readOnlyRegister _
  | .inReset => True
  | _ => False

/-- A load stopped by such a fault was given it by the image. -/
theorem FirmwareImage.LoadFault.of_objection {image : FirmwareImage} {e : Fault}
    (h : image.LoadFault e) (ho : e.IsObjection) :
    (∃ name ∈ firmwareSections,
      image.sectionInfo name = .error e ∨ image.sectionBytes name = .error e) ∨
      ∃ name ∈ handlerSymbols, image.symbolAddress name = .error e := by
  cases h with
  | info hm hi => exact Or.inl ⟨_, hm, Or.inl hi⟩
  | bytes hm hb => exact Or.inl ⟨_, hm, Or.inr hb⟩
  | symbol hm hs => exact Or.inr ⟨_, hm, hs⟩
  | belowDevice addr => cases ho
  | outsideWindow offset => cases ho
  | beyondL2 addr => cases ho

section Calls

variable {σ : Type} [Transport σ] {s : Session σ}

theorem Session.result_loadScript (hd : Reliable s.device) (image : FirmwareImage) {ctx : Nat}
    (hc : ctx < numContexts) (host : HostAperture) :
    (s.perform (loadScript image ctx host)).1 = (loadScript image ctx host).verdict :=
  (perform_of_admitted hd (admitted_loadPlan image hc host s.gates)).1

theorem Session.result_loadable (hd : Reliable s.device) {image : FirmwareImage}
    (hi : image.Loadable) {ctx : Nat} (hc : ctx < numContexts) (host : HostAperture) :
    (s.perform (loadScript image ctx host)).1 = .ok () := by
  rw [s.result_loadScript hd image hc host]
  exact verdict_loadScript_eq_ok_iff.2 hi

/-- On a reliable device the loadable images are those that are loaded. -/
theorem Loader.load_eq_ok_iff_loadable (l : Loader) (hd : Reliable s.device)
    (image : FirmwareImage) {ctx : Nat} (hc : ctx < numContexts) (host : HostAperture) :
    (∃ context, (l.load s image ctx host).1 = .ok context) ↔ image.Loadable := by
  rw [load_eq_ok_iff l s image hc host, s.result_loadScript hd image hc host,
    verdict_loadScript_eq_ok_iff]

/-- Whatever the device, a script goes through only if nothing in it stands against that. -/
theorem Session.verdict_of_performed {script : Script} (h : (s.perform script).1 = .ok ()) :
    script.verdict = .ok () := by
  induction script generalizing s with
  | nil => rfl
  | cons step rest ih =>
    obtain ⟨hs, hrest⟩ := perform_cons_eq_ok_iff.1 h
    obtain ⟨a, ha⟩ := accept_of_ok hs
    have hstep : step.verdict = .ok () := by
      cases step with
      | write g index value => rfl
      | store offset word =>
        simp only [accept] at ha
        cases hc : s.checkMemory offset with
        | ok => exact Step.verdict_store_eq_ok_iff.2 (checkMemory_eq_ok_iff.1 hc).2
        | error e =>
          rw [hc] at ha
          cases ha
      | refuse fault => cases ha
    rw [Script.verdict, hstep]
    exact ih hrest

/-- Whatever the device, only loadable images are loaded. -/
theorem Loader.loadable_of_load (l : Loader) {image : FirmwareImage} {ctx : Nat}
    (hc : ctx < numContexts) {host : HostAperture} {context : HandlerContext}
    (h : (l.load s image ctx host).1 = .ok context) : image.Loadable :=
  verdict_loadScript_eq_ok_iff.1
    (Session.verdict_of_performed ((load_eq_ok_iff l s image hc host).1 ⟨context, h⟩))

/-- On a reliable device a load that fails does so for a cause in the image. -/
theorem Loader.load_eq_error (l : Loader) (hd : Reliable s.device) (image : FirmwareImage)
    {ctx : Nat} (hc : ctx < numContexts) (host : HostAperture) {e : Fault}
    (h : (l.load s image ctx host).1 = .error e) :
    ∃ stage cause, e = .loadFailed ctx stage cause ∧ image.LoadFault cause := by
  cases hp : (s.perform (loadScript image ctx host)).1 with
  | ok =>
    obtain ⟨context, hload⟩ := (load_eq_ok_iff l s image hc host).2 hp
    rw [hload] at h
    cases h
  | error cause =>
    have hfault : image.LoadFault cause := by
      rw [s.result_loadScript hd image hc host] at hp
      exact loadFault_of_verdict hp
    rw [← map_snd_loadSteps] at hp
    obtain ⟨before, stage, step, after, t, u, hsplit, hbefore, hstep⟩ :=
      Session.exists_failed_of_perform hp
    rw [load_of_failed l hc hsplit hbefore hstep] at h
    exact ⟨stage, cause, (Except.error.inj h).symm, hfault⟩

theorem verdict_unloadScript (ctx : Nat) : (unloadScript ctx).verdict = .ok () := rfl

theorem verdict_ruleSetScript (sets : List RuleSet) : (ruleSetScript sets).verdict = .ok () := rfl

theorem Session.result_unloadScript (hd : Reliable s.device) {ctx : Nat} (hc : ctx < numContexts) :
    (s.perform (unloadScript ctx)).1 = .ok () := by
  rw [← verdict_unloadScript ctx]
  exact (perform_of_admitted hd (admitted_unloadScript hc s.gates)).1

/-- A programming of the slots goes through on a reliable device. -/
theorem Loader.programRuleSets_of_reliable (hd : Reliable s.device) {sets : List RuleSet}
    (hl : sets.length ≤ numRuleSets) : (programRuleSets s sets).1 = .ok () := by
  rw [programRuleSets, if_pos hl, ← verdict_ruleSetScript sets]
  exact (Session.perform_of_admitted hd (admitted_ruleSetScript sets s.gates)).1

/-- **What the loader's calls come to.** On a reliable device, in whatever state it and the session
are, a load goes through exactly if the image is loadable, and fails otherwise for a cause in the
image; an unload and a programming of at most four slots go through. On any device the session
itself never stops one of the calls: it passes on each of their accesses. -/
theorem loader_accepts (l : Loader) (s : Session σ) (image : FirmwareImage) {ctx : Nat}
    (hc : ctx < numContexts) (host : HostAperture) :
    (Reliable s.device →
      ((∃ context, (l.load s image ctx host).1 = .ok context) ↔ image.Loadable) ∧
      (∀ e, (l.load s image ctx host).1 = .error e →
        ∃ stage cause, e = .loadFailed ctx stage cause ∧ image.LoadFault cause ∧
          (cause.IsObjection →
            (∃ name ∈ firmwareSections,
              image.sectionInfo name = .error cause ∨ image.sectionBytes name = .error cause) ∨
            ∃ name ∈ handlerSymbols, image.symbolAddress name = .error cause)) ∧
      (∀ sets : List RuleSet, sets.length ≤ numRuleSets →
        (Loader.programRuleSets s sets).1 = .ok ()) ∧
      (l.unload s ctx).1 = .ok ()) ∧
    ∀ (c : LoaderCall) (before after : Script) (step : Step), c.script = before ++ step :: after →
      (s.perform before).1 = .ok () → ¬ (s.perform before).2.Objects step := by
  refine ⟨fun hd => ⟨l.load_eq_ok_iff_loadable hd image hc host, ?_, ?_, ?_⟩, ?_⟩
  · intro e he
    obtain ⟨stage, cause, rfl, hfault⟩ := l.load_eq_error hd image hc host he
    exact ⟨stage, cause, rfl, hfault, hfault.of_objection⟩
  · intro sets hl
    exact Loader.programRuleSets_of_reliable hd hl
  · rw [l.unload_of_performed hc (s.result_unloadScript hd hc)]
  · intro c before after step hsplit hbefore
    exact Session.not_objects_of_admitted (c.admitted_script s.gates) hsplit hbefore

end Calls

/-- An image with sections of five, no, four and eight bytes; the empty one is at an odd address. -/
def smallImage : FirmwareImage :=
  ((((AssembledImage.empty.addSection ".rodata" 0x1c000000 [1, 2, 3, 4, 5]).addSized
    handlerDataSection ⟨0x1c0c0001, 256⟩ []).addSection ".vectors" 0x1d000000
      [0x6f, 0, 0, 0]).addSection ".text" 0x1d000100 [1, 2, 3, 4, 5, 6, 7, 8]).image

theorem loadable_smallImage : smallImage.Loadable := by
  refine ⟨?_, fun _ _ => ⟨_, rfl⟩, ⟨_, rfl, by decide⟩⟩
  intro name hn
  simp only [firmwareSections, List.mem_cons, List.not_mem_nil, or_false] at hn
  rcases hn with rfl | rfl | rfl | rfl
  · exact ⟨_, _, rfl, rfl, by decide, fun _ => ⟨_, rfl, by decide, by decide⟩⟩
  · exact ⟨_, _, rfl, rfl, by decide, fun h => absurd rfl h⟩
  · exact ⟨_, _, rfl, rfl, by decide, fun _ => ⟨_, rfl, by decide, by decide⟩⟩
  · exact ⟨_, _, rfl, rfl, by decide, fun _ => ⟨_, rfl, by decide, by decide⟩⟩

/-- A session that takes its device to be in reset, with both engines enabled. -/
def lockedSession {σ : Type} (device : σ) : Session σ where
  device := device
  contextId := 0
  region := none
  buffer := none
  gates := ⟨true, true, true⟩
  ringAttached := false
  notices := []

/-- A session with every gate shut loads the small image nevertheless. -/
theorem loader_accepts_locked :
    1 < numContexts ∧ Reliable (lockedSession Simulator.powerOn).device ∧ smallImage.Loadable ∧
      (∃ context, (Loader.fresh.load (lockedSession Simulator.powerOn) smallImage 1
        ⟨0x123456000, 65536⟩).1 = .ok context) ∧
      (Loader.programRuleSets (lockedSession Simulator.powerOn) [.slmp]).1 = .ok () ∧
      (Loader.fresh.unload (lockedSession Simulator.powerOn) 1).1 = .ok () := by
  have hd : Reliable (lockedSession Simulator.powerOn).device := Simulator.reliable rfl
  obtain ⟨hall, -⟩ := loader_accepts Loader.fresh (lockedSession Simulator.powerOn) smallImage
    (show 1 < numContexts by decide) ⟨0x123456000, 65536⟩
  obtain ⟨hload, -, hprogram, hunload⟩ := hall hd
  exact ⟨by decide, hd, loadable_smallImage, hload.2 loadable_smallImage,
    hprogram [.slmp] (by decide), hunload⟩

end PacketOffload
