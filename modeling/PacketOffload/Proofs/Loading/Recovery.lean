import PacketOffload.Proofs.Device.Window
import PacketOffload.Proofs.Loading.Interruption
import PacketOffload.Proofs.Matching.Activation

/-!
# Loads that are made again

An interrupted load leaves a part of the firmware on the device, and the gates as they were then. An
unload always clears up after it, and another load of the same image puts everything where it
belongs, whether the unload came before or not: what the interrupted load wrote, the second one
writes again, and what lies between touches nothing that a load is made of but the cluster control.

Main statements: a load after a beginning of the same load leaves what the load alone would have
left (`sameLoad_again`), and so an interrupted load can be recovered from (`load_recovers`).
-/

namespace PacketOffload

/-- What a load is made of: the cluster control and the registers of handler execution. -/
def RegisterGroup.IsOfLoad (g : RegisterGroup) : Prop :=
  g = .clusterControl ∨ g = .handlerValid ∨ g.isHandlerConfig = true

/-- Two devices show the same load: the same words in the memory window, and the same values in the
cluster control and in the registers of handler execution. -/
structure SameLoad {σ : Type} [Transport σ] [RegisterView σ] [WindowView σ] (d d' : σ) : Prop where
  window : WindowView.window d = WindowView.window d'
  registers : ∀ g : RegisterGroup, g.IsOfLoad → ∀ index, registers d g index = registers d' g index

/-! ## Steps beside a load -/

/-- A step that touches the matching engine at most. -/
def Step.OnEngine : Step → Prop
  | .write g _ _ => g = .matchValid ∨ g.isMatchConfig = true
  | .store _ _ => False
  | .refuse _ => True

theorem RegisterGroup.IsOfLoad.not_onEngine {g : RegisterGroup} (h : g.IsOfLoad) :
    ¬ (g = .matchValid ∨ g.isMatchConfig = true) := by
  rintro (rfl | hg)
  · rcases h with h | h | h <;> cases h
  · rcases h with rfl | rfl | h
    · cases hg
    · cases hg
    · revert hg h
      cases g <;> decide

theorem valueFor_of_onEngine {g : RegisterGroup} (hg : g.IsOfLoad) (index : Nat) {step : Step}
    (h : step.OnEngine) : step.valueFor g index = none := by
  cases step with
  | write k i value =>
    refine if_neg ?_
    rintro ⟨rfl, -⟩
    exact hg.not_onEngine h
  | store offset word => rfl
  | refuse fault => rfl

theorem wordFor_of_onEngine (offset : Nat) {step : Step} (h : step.OnEngine) :
    step.wordFor offset = none := by
  cases step with
  | write g index value => rfl
  | store other word => cases h
  | refuse fault => rfl

theorem onEngine_of_mem_slotScript {slot : Nat} {set : RuleSet} {step : Step}
    (h : step ∈ slotScript slot set) : step.OnEngine := by
  have hall : ∀ step ∈ slotScript slot set, step.OnEngine := by
    simp [slotScript, ruleScript, Step.OnEngine, RegisterGroup.isMatchConfig]
  exact hall step h

theorem onEngine_of_mem_whileDisabled {slot : Nat} {set : RuleSet} {step : Step}
    (h : step ∈ whileDisabled (slotScript slot set)) : step.OnEngine := by
  rcases List.mem_cons.1 h with rfl | h
  · exact Or.inl rfl
  · rcases List.mem_append.1 h with h | h
    · exact onEngine_of_mem_slotScript h
    · obtain rfl := List.mem_singleton.1 h
      exact Or.inl rfl

/-- Beside the reset, with which a load begins as well, an unload touches the matching engine
only. -/
theorem mem_unloadScript {ctx : Nat} {step : Step} (h : step ∈ unloadScript ctx)
    (image : FirmwareImage) (other : Nat) (host : HostAperture) :
    step ∈ loadScript image other host ∨ step.OnEngine := by
  rcases List.mem_append.1 h with h | h
  · refine Or.inl (List.mem_flatMap.2 ⟨(.reset, resetScript), ?_, h⟩)
    simp [loadPlan]
  · exact Or.inr (onEngine_of_mem_whileDisabled h)

/-! ## What an unload leaves -/

/-- The clusters are out of reset and fetch nothing, and the engine is enabled with the slot of a
context closed. -/
structure RegisterFile.Detached (r : RegisterFile) (ctx : Nat) : Prop where
  fetchOff : r .clusterControl fetchIndex = 0
  outOfReset : r .clusterControl resetIndex = 0
  enabled : r .matchValid 0 = 1
  closed : r.HoldsSet ctx .bypass

theorem detached_unloadScript (r : RegisterFile) (ctx : Nat) :
    ((unloadScript ctx).settle r).Detached ctx := by
  -- After the reset nothing writes the cluster control.
  have hkept : ∀ index, (unloadScript ctx).settle r .clusterControl index =
      resetScript.settle r .clusterControl index := by
    intro index
    rw [unloadScript, Script.settle_append]
    refine Script.settle_of_spared _ fun value hm => ?_
    exact RegisterGroup.IsOfLoad.not_onEngine (Or.inl rfl) (onEngine_of_mem_whileDisabled hm)
  refine ⟨?_, ?_, valid_unloadScript r ctx, holdsSet_unloadScript r ctx⟩
  · rw [hkept]
    rfl
  · rw [hkept]
    rfl

/-! ## Doing a load again -/

/-- What a load puts nowhere, neither a beginning of it nor what touches the engine only puts
there. -/
theorem filterMap_eq_nil_of_load {whole between : Script} {place : Step → Option UInt32}
    (hengine : ∀ step : Step, step.OnEngine → place step = none)
    (hbetween : ∀ step ∈ between, step ∈ whole ∨ step.OnEngine)
    (h : whole.filterMap place = []) (n : Nat) :
    (whole.take n).filterMap place = [] ∧ between.filterMap place = [] := by
  rw [List.filterMap_eq_nil_iff] at h
  constructor
  · exact List.filterMap_eq_nil_iff.2 fun step hm => h step (List.mem_of_mem_take hm)
  · refine List.filterMap_eq_nil_iff.2 fun step hm => ?_
    rcases hbetween step hm with hw | he
    · exact h step hw
    · exact hengine step he

section Recovery

variable {σ : Type} [Transport σ] [RegisterView σ] [WindowView σ] {s : Session σ}

omit [RegisterView σ] [WindowView σ] in
/-- A place in which scripts leave the last value that they put there: what stands in it after a
whole does not depend on a beginning of the whole made before, nor on what touches the engine at
most. -/
theorem view_again (view : Session σ → UInt32) {place : Step → Option UInt32}
    (hview : ∀ {s : Session σ} {script : Script}, (s.perform script).1 = .ok () →
      view (s.perform script).2 = (script.filterMap place).getLastD (view s))
    (hengine : ∀ step : Step, step.OnEngine → place step = none)
    {whole between : Script} {n : Nat} {t u : Session σ}
    (hwhole : (s.perform whole).1 = .ok ()) (hstarted : s.perform (whole.take n) = (.ok (), t))
    (hbetween : t.perform between = (.ok (), u)) (hagain : (u.perform whole).1 = .ok ())
    (hspares : ∀ step ∈ between, step ∈ whole ∨ step.OnEngine) :
    view (u.perform whole).2 = view (s.perform whole).2 := by
  have hnil : whole.filterMap place = [] →
      (whole.take n).filterMap place = [] ∧ between.filterMap place = [] :=
    fun h => filterMap_eq_nil_of_load hengine hspares h n
  have ht := hview (congrArg Prod.fst hstarted)
  have hu := hview (congrArg Prod.fst hbetween)
  rw [hstarted] at ht
  rw [hbetween, ht] at hu
  rw [hview hagain, hu, getLastD_again _ (fun h => (hnil h).1) (fun h => (hnil h).2)]
  exact (hview hwhole).symm

/-- A whole after a beginning of it, with something between that touches the engine at most, leaves
the load that the whole leaves alone. -/
theorem sameLoad_again {whole between : Script} {n : Nat} {t u : Session σ}
    (hwhole : (s.perform whole).1 = .ok ()) (hstarted : s.perform (whole.take n) = (.ok (), t))
    (hbetween : t.perform between = (.ok (), u)) (hagain : (u.perform whole).1 = .ok ())
    (hspares : ∀ step ∈ between, step ∈ whole ∨ step.OnEngine) :
    SameLoad (u.perform whole).2.device (s.perform whole).2.device := by
  constructor
  · funext offset
    exact view_again (·.window offset) (fun h => Session.window_perform h offset)
      (fun _ => wordFor_of_onEngine offset) hwhole hstarted hbetween hagain hspares
  · intro g hg index
    have hview : ∀ {s : Session σ} {script : Script}, (s.perform script).1 = .ok () →
        (s.perform script).2.registers g index =
          (script.filterMap (Step.valueFor g index)).getLastD (s.registers g index) := by
      intro s script h
      rw [Session.registers_of_performed h, Script.settle_eq_getLastD]
    exact view_again (·.registers g index) hview (fun _ => valueFor_of_onEngine hg index) hwhole
      hstarted hbetween hagain hspares

/-! ## Calls after the fault -/

omit [RegisterView σ] [WindowView σ] in
/-- On a reliable device a beginning of a load goes through, and leaves the device reliable. -/
theorem exists_started (hd : Reliable s.device) {image : FirmwareImage} (hi : image.Loadable)
    {ctx : Nat} (hc : ctx < numContexts) (host : HostAperture) (n : Nat) :
    ∃ t, s.perform ((loadScript image ctx host).take n) = (.ok (), t) ∧ Reliable t.device := by
  have hsplit := List.take_append_drop n (loadScript image ctx host)
  have hadmitted : (loadScript image ctx host).Admitted s.gates :=
    admitted_loadPlan image hc host s.gates
  have hok := s.result_loadable hd hi hc host
  rw [← hsplit] at hadmitted hok
  obtain ⟨hstarted, -⟩ := Session.perform_split hok
  exact ⟨_, Prod.ext hstarted rfl,
    (Session.perform_of_admitted hd (Script.admitted_append.1 hadmitted).1).2⟩

namespace Loader

omit [RegisterView σ] [WindowView σ]

variable {image : FirmwareImage} {ctx : Nat} {host : HostAperture}

/-- After the fault a load is what it is on the device. -/
theorem load_uninterrupted (l : Loader) (hc : ctx < numContexts) {context : HandlerContext}
    (hcontext : loadedContext image ctx host = .ok context)
    (h : (s.perform (loadScript image ctx host)).1 = .ok ()) (e : Fault) :
    l.load (s.interrupted none e) image ctx host =
      (.ok context, l.setState ctx .enabled,
        (s.perform (loadScript image ctx host)).2.interrupted none e) := by
  have hperform := s.perform_uninterrupted (loadScript image ctx host) e
  have hok : ((s.interrupted none e).perform (loadScript image ctx host)).1 = .ok () := by
    rw [hperform]
    exact h
  obtain ⟨told, htold, hload⟩ := l.load_of_performed hc hok
  obtain rfl : context = told := Except.ok.inj (hcontext.symm.trans htold)
  rw [hload, hperform]

theorem unload_uninterrupted (l : Loader) (hc : ctx < numContexts)
    (h : (s.perform (unloadScript ctx)).1 = .ok ()) (e : Fault) :
    l.unload (s.interrupted none e) ctx =
      (.ok (), l.setState ctx .unloaded,
        (s.perform (unloadScript ctx)).2.interrupted none e) := by
  have hperform := s.perform_uninterrupted (unloadScript ctx) e
  have hok : ((s.interrupted none e).perform (unloadScript ctx)).1 = .ok () := by
    rw [hperform]
    exact h
  rw [l.unload_of_performed hc hok, hperform]

end Loader

/-- **Recovering from an interrupted load.** Whichever access of a load fails, on a reliable device
in whatever state: an unload goes through and leaves the clusters and the slot of the context closed;
and a second load of the same image goes through, after the unload or without it, and leaves the
memory window, the cluster control and the registers of handler execution as one load alone would
have left them. -/
theorem load_recovers (l : Loader) (s : Session σ) (hd : Reliable s.device)
    {image : FirmwareImage} (hi : image.Loadable) {ctx : Nat} (hc : ctx < numContexts)
    (host : HostAperture) {n : Nat} (hn : n < (loadSteps image ctx host).length) (e : Fault) :
    let once := l.load s image ctx host
    let failed := l.load (s.interrupted (some n) e) image ctx host
    let unloaded := failed.2.1.unload failed.2.2 ctx
    let again := unloaded.2.1.load unloaded.2.2 image ctx host
    let retried := failed.2.1.load failed.2.2 image ctx host
    (∃ stage, failed.1 = .error (.loadFailed ctx stage e)) ∧
      (unloaded.1 = .ok () ∧ unloaded.2.1.state ctx = .unloaded ∧
        (registers unloaded.2.2.device.device).Detached ctx) ∧
      (∃ context, once.1 = .ok context ∧ again.1 = .ok context ∧ retried.1 = .ok context) ∧
      SameLoad again.2.2.device.device once.2.2.device ∧
      SameLoad retried.2.2.device.device once.2.2.device := by
  obtain ⟨context, hcontext, honce⟩ := l.load_of_performed hc (s.result_loadable hd hi hc host)
  -- The beginning that took effect, the unload, and what a second load finds after each of them.
  obtain ⟨t, hstarted, hdt⟩ := exists_started hd hi hc host n
  obtain ⟨u, hunload, hdu⟩ : ∃ u, t.perform (unloadScript ctx) = (.ok (), u) ∧ Reliable u.device :=
    ⟨_, Prod.ext (t.result_unloadScript hdt hc) rfl,
      (Session.perform_of_admitted hdt (admitted_unloadScript hc t.gates)).2⟩
  intro once failed unloaded again retried
  let stage := (loadSteps image ctx host)[n].1
  have hfailed : failed = (.error (.loadFailed ctx stage e), l.setState ctx stage.progress,
      t.interrupted none e) := by
    have := l.load_of_interrupted hc (s.result_loadable hd hi hc host) hn e
    rwa [hstarted] at this
  have hunloaded : unloaded = (.ok (), (l.setState ctx stage.progress).setState ctx .unloaded,
      u.interrupted none e) := by
    have := (l.setState ctx stage.progress).unload_uninterrupted hc (congrArg Prod.fst hunload) e
    rw [hunload] at this
    simp only [unloaded, hfailed, this]
  have hagain : again = (.ok context, unloaded.2.1.setState ctx .enabled,
      (u.perform (loadScript image ctx host)).2.interrupted none e) := by
    have := unloaded.2.1.load_uninterrupted hc hcontext (u.result_loadable hdu hi hc host) e
    simpa only [again, hunloaded] using this
  have hretried : retried = (.ok context, failed.2.1.setState ctx .enabled,
      (t.perform (loadScript image ctx host)).2.interrupted none e) := by
    have := failed.2.1.load_uninterrupted hc hcontext (t.result_loadable hdt hi hc host) e
    simpa only [retried, hfailed] using this
  refine ⟨⟨stage, congrArg Prod.fst hfailed⟩, ⟨congrArg Prod.fst hunloaded, ?_, ?_⟩,
    ⟨context, congrArg Prod.fst honce, congrArg Prod.fst hagain, congrArg Prod.fst hretried⟩,
    ?_, ?_⟩
  · simp [hunloaded, Loader.state_setState]
  · have hregisters := Session.registers_of_performed (congrArg Prod.fst hunload)
    rw [hunload] at hregisters
    rw [hunloaded]
    show (Session.registers u).Detached ctx
    rw [hregisters]
    exact detached_unloadScript t.registers ctx
  · simp only [hagain, once, honce]
    exact sameLoad_again (s.result_loadable hd hi hc host) hstarted hunload
      (u.result_loadable hdu hi hc host) fun step hm => mem_unloadScript hm image ctx host
  · simp only [hretried, once, honce]
    have hnothing : t.perform [] = (.ok (), t) := rfl
    exact sameLoad_again (s.result_loadable hd hi hc host) hstarted hnothing
      (t.result_loadable hdt hi hc host) nofun

end Recovery

/-- A load of the small image fails at its sixth access, and the unload and the second load that
follow go through. -/
theorem load_recovers_at_third_section :
    Reliable (lockedSession Simulator.powerOn).device ∧ smallImage.Loadable ∧ 1 < numContexts ∧
      5 < (loadSteps smallImage 1 ⟨0x123456000, 65536⟩).length ∧
      let once := Loader.fresh.load (lockedSession Simulator.powerOn) smallImage 1
        ⟨0x123456000, 65536⟩
      let failed := Loader.fresh.load ((lockedSession Simulator.powerOn).interrupted (some 5)
        (.transfer .shortRead)) smallImage 1 ⟨0x123456000, 65536⟩
      let unloaded := failed.2.1.unload failed.2.2 1
      let again := unloaded.2.1.load unloaded.2.2 smallImage 1 ⟨0x123456000, 65536⟩
      failed.1 = .error (.loadFailed 1 .writeSections (.transfer .shortRead)) ∧
        (registers unloaded.2.2.device.device).Detached 1 ∧ (∃ context, again.1 = .ok context) ∧
        SameLoad again.2.2.device.device once.2.2.device := by
  have hd : Reliable (lockedSession Simulator.powerOn).device := Simulator.reliable rfl
  have hn : 5 < (loadSteps smallImage 1 ⟨0x123456000, 65536⟩).length := by decide +kernel
  obtain ⟨-, ⟨-, -, hdetached⟩, ⟨context, -, hagain, -⟩, hsame, -⟩ :=
    load_recovers Loader.fresh (lockedSession Simulator.powerOn) hd loadable_smallImage
      (show 1 < numContexts by decide) ⟨0x123456000, 65536⟩ hn (.transfer .shortRead)
  exact ⟨hd, loadable_smallImage, by decide, hn, rfl, hdetached, ⟨context, hagain⟩, hsame⟩

end PacketOffload
