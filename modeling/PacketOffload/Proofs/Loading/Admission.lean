import PacketOffload.Proofs.Device.Host
import PacketOffload.Proofs.Device.Reliable

/-!
# Calls that open their own gates

Every call of the loader opens the gates that it needs before it needs them. A load and an unload
begin with the reset, which opens the memory window; a load disables handler execution before it
writes what that locks; and the slots of the matching engine are written between its being disabled
and enabled. The gates that an earlier call left behind, or that a failed one did, do not matter.

Main statements: the script of a call is admitted in every state of the gates
(`LoaderCall.admitted_script`), and how a load leaves them (`follow_loadPlan`).
-/

namespace PacketOffload

variable {gates : Gates}

/-! ## Configuration -/

theorem RegisterGroup.count_of_isHandlerConfig :
    ∀ g : RegisterGroup, g.isHandlerConfig = true → g.count = numContexts := by
  decide +kernel

/-- What the matching engine locks may be written while the engine is disabled. -/
theorem still_matchConfig (hoff : gates.matchEnabled = false) {g : RegisterGroup}
    (hg : g.isMatchConfig = true) {index : Nat} (hi : index < g.count) (value : UInt32) :
    (Step.write g index value).Admitted gates ∧
      (Step.write g index value).follow gates = gates := by
  refine ⟨?_, ?_⟩
  · have hrule := (RegisterGroup.isMatchConfig_iff g).1 hg
    refine RegisterGroup.checkWrite_eq_ok_iff.2 ⟨hi, .matchConfig, hrule, ?_⟩
    simp [WriteRule.refusal?, hoff]
  · refine gates.apply_of_other index value ?_ ?_ ?_ <;> rintro rfl <;> cases hg

/-- What handler execution locks may be written while it is disabled. -/
theorem still_handlerConfig (hoff : gates.handlersEnabled = false) {g : RegisterGroup}
    (hg : g.isHandlerConfig = true) {ctx : Nat} (hc : ctx < numContexts) (value : UInt32) :
    (Step.write g ctx value).Admitted gates ∧ (Step.write g ctx value).follow gates = gates := by
  refine ⟨?_, ?_⟩
  · have hrule := (RegisterGroup.isHandlerConfig_iff g).1 hg
    have hi : ctx < g.count := by
      rw [RegisterGroup.count_of_isHandlerConfig g hg]
      exact hc
    refine RegisterGroup.checkWrite_eq_ok_iff.2 ⟨hi, .handlerConfig, hrule, ?_⟩
    simp [WriteRule.refusal?, hoff]
  · refine gates.apply_of_other ctx value ?_ ?_ ?_ <;> rintro rfl <;> cases hg

/-! ## The matching engine -/

theorem still_ruleScript (hoff : gates.matchEnabled = false) {index : Nat}
    (hi : index < numRuleSets * rulesPerSet) (rule : MatchRule) :
    (ruleScript index rule).Still gates := by
  simp only [Script.Still, ruleScript, List.forall_mem_cons]
  refine ⟨still_matchConfig hoff rfl hi _, still_matchConfig hoff rfl hi _,
    still_matchConfig hoff rfl hi _, still_matchConfig hoff rfl hi _, ?_⟩
  exact List.forall_mem_nil _

theorem still_slotScript (hoff : gates.matchEnabled = false) {slot : Nat}
    (hs : slot < numRuleSets) (set : RuleSet) : (slotScript slot set).Still gates := by
  have hrule : ∀ k < rulesPerSet, ∀ rule : MatchRule,
      (ruleScript (slot * rulesPerSet + k) rule).Still gates := by
    intro k hk rule
    refine still_ruleScript hoff ?_ rule
    simp only [numRuleSets, rulesPerSet] at hs hk ⊢
    omega
  refine List.forall_mem_cons.2 ⟨still_matchConfig hoff rfl hs _, ?_⟩
  have hfirst := hrule 0 (by decide) set.first
  have hsecond := hrule 1 (by decide) set.second
  have hthird := hrule 2 (by decide) set.third
  have heom := hrule 3 (by decide) set.eom
  exact ((hfirst.append hsecond).append hthird).append heom

/-- What may be written while the engine is disabled may be written between its being disabled and
enabled. -/
theorem admitted_whileDisabled {slots : Script}
    (h : slots.Still { gates with matchEnabled := false }) :
    (whileDisabled slots).Admitted gates := by
  refine ⟨rfl, Script.admitted_append.2 ⟨h.admitted, ?_⟩⟩
  exact ⟨rfl, trivial⟩

theorem admitted_ruleSetScript (sets : List RuleSet) (gates : Gates) :
    (ruleSetScript sets).Admitted gates := by
  refine admitted_whileDisabled fun step hm => ?_
  obtain ⟨slot, hslot, hm⟩ := List.mem_flatMap.1 hm
  exact still_slotScript rfl (List.mem_range.1 hslot) _ step hm

/-! ## The reset -/

theorem admitted_resetScript (gates : Gates) : resetScript.Admitted gates :=
  ⟨rfl, rfl, rfl, trivial⟩

theorem follow_resetScript (gates : Gates) :
    resetScript.follow gates = { gates with inReset := false } := rfl

theorem admitted_unloadScript {ctx : Nat} (hc : ctx < numContexts) (gates : Gates) :
    (unloadScript ctx).Admitted gates := by
  refine Script.admitted_append.2 ⟨admitted_resetScript gates, ?_⟩
  exact admitted_whileDisabled (still_slotScript rfl hc .bypass)

/-! ## Loads -/

theorem still_storeScript (hopen : gates.inReset = false) (offset : Nat) (words : List UInt32) :
    (storeScript offset words).Still gates := by
  induction words generalizing offset with
  | nil => exact List.forall_mem_nil _
  | cons word rest ih => exact List.forall_mem_cons.2 ⟨⟨hopen, rfl⟩, ih (offset + 4)⟩

theorem still_refuse (gates : Gates) (fault : Fault) : Script.Still [.refuse fault] gates :=
  List.forall_mem_singleton.2 ⟨trivial, rfl⟩

theorem still_sectionScript (hopen : gates.inReset = false) (image : FirmwareImage)
    (name : String) : (sectionScript image name).Still gates := by
  unfold sectionScript
  split
  · exact still_refuse gates _
  · exact still_refuse gates _
  · split
    · exact still_storeScript hopen _ _
    · exact still_refuse gates _

theorem still_apertureScript (hoff : gates.handlersEnabled = false) {addr size : RegisterGroup}
    (ha : addr.isHandlerConfig = true) (hs : size.isHandlerConfig = true) {ctx : Nat}
    (hc : ctx < numContexts) (a : Aperture) : (apertureScript addr size ctx a).Still gates := by
  simp only [Script.Still, apertureScript, List.forall_mem_cons]
  exact ⟨still_handlerConfig hoff ha hc _, still_handlerConfig hoff hs hc _,
    List.forall_mem_nil _⟩

theorem HandlerStage.isHandlerConfig {stage : HandlerStage} (h : stage ∈ all) :
    stage.addr.isHandlerConfig = true ∧ stage.size.isHandlerConfig = true := by
  revert stage
  decide

theorem still_handlerScript (hoff : gates.handlersEnabled = false) (image : FirmwareImage)
    {ctx : Nat} (hc : ctx < numContexts) : (handlerScript image ctx).Still gates := by
  intro step hm
  rcases eq_of_mem_handlerScript hm with ⟨e, rfl⟩ | ⟨stage, hstage, value, rfl | rfl⟩
  · exact ⟨trivial, rfl⟩
  · exact still_handlerConfig hoff (HandlerStage.isHandlerConfig hstage).1 hc value
  · exact still_handlerConfig hoff (HandlerStage.isHandlerConfig hstage).2 hc value

theorem still_memoryScript (hoff : gates.handlersEnabled = false) (image : FirmwareImage)
    {ctx : Nat} (hc : ctx < numContexts) (host : HostAperture) :
    (memoryScript image ctx host).Still gates := by
  unfold memoryScript
  split
  · exact still_refuse gates _
  next a _ =>
    refine (still_apertureScript hoff rfl rfl hc a).append ?_
    simp only [Script.Still, List.forall_mem_cons]
    refine ⟨still_handlerConfig hoff rfl hc _, still_handlerConfig hoff rfl hc _,
      still_handlerConfig hoff rfl hc _, still_handlerConfig hoff rfl hc _,
      still_handlerConfig hoff rfl hc _, ?_⟩
    exact List.forall_mem_nil _

theorem still_sections (hopen : gates.inReset = false) (image : FirmwareImage) :
    Script.Still (firmwareSections.flatMap (sectionScript image)) gates := by
  intro step hm
  obtain ⟨name, -, hm⟩ := List.mem_flatMap.1 hm
  exact still_sectionScript hopen image name step hm

/-- What a load writes between the disabling of handler execution and its enabling. -/
def configurationScript (image : FirmwareImage) (ctx : Nat) (host : HostAperture) : Script :=
  handlerScript image ctx ++ (memoryScript image ctx host ++ [.write .contextEnabled ctx 1])

theorem still_configurationScript (hoff : gates.handlersEnabled = false) (image : FirmwareImage)
    {ctx : Nat} (hc : ctx < numContexts) (host : HostAperture) :
    (configurationScript image ctx host).Still gates := by
  refine (still_handlerScript hoff image hc).append
    ((still_memoryScript hoff image hc host).append ?_)
  exact List.forall_mem_singleton.2 (still_handlerConfig hoff rfl hc 1)

/-- The parts of a load: none of the gates moves in its sections and in its configuration. -/
theorem flatMap_loadPlan (image : FirmwareImage) (ctx : Nat) (host : HostAperture) :
    (loadPlan image ctx host).flatMap Prod.snd =
      resetScript ++ (firmwareSections.flatMap (sectionScript image) ++
        (.write .clusterControl fetchIndex allClusters :: .write .handlerValid 0 0 ::
          (configurationScript image ctx host ++ [.write .handlerValid 0 1]))) := by
  simp [loadPlan, configurationScript]

section LoadPlan

variable (image : FirmwareImage) {ctx : Nat} (hc : ctx < numContexts) (host : HostAperture)
  (gates : Gates)

include hc

theorem admitted_loadPlan :
    Script.Admitted ((loadPlan image ctx host).flatMap Prod.snd) gates := by
  rw [flatMap_loadPlan]
  refine Script.admitted_append.2 ⟨admitted_resetScript gates, ?_⟩
  have hsections : Script.Still (firmwareSections.flatMap (sectionScript image))
      { gates with inReset := false } := still_sections rfl image
  rw [follow_resetScript]
  refine Script.admitted_append.2 ⟨hsections.admitted, ?_⟩
  have hconfiguration : (configurationScript image ctx host).Still
      ⟨false, gates.matchEnabled, false⟩ := still_configurationScript rfl image hc host
  rw [hsections.follow_eq]
  refine ⟨rfl, rfl, Script.admitted_append.2 ⟨hconfiguration.admitted, ?_⟩⟩
  exact ⟨rfl, trivial⟩

/-- A load leaves the memory window open and handler execution enabled. -/
theorem follow_loadPlan :
    Script.follow ((loadPlan image ctx host).flatMap Prod.snd) gates =
      ⟨false, gates.matchEnabled, true⟩ := by
  have hsections : Script.Still (firmwareSections.flatMap (sectionScript image))
      { gates with inReset := false } := still_sections rfl image
  have hconfiguration : (configurationScript image ctx host).Still
      ⟨false, gates.matchEnabled, false⟩ := still_configurationScript rfl image hc host
  rw [flatMap_loadPlan, Script.follow_append, follow_resetScript, Script.follow_append,
    hsections.follow_eq]
  show Script.follow (configurationScript image ctx host ++ [.write .handlerValid 0 1])
    ⟨false, gates.matchEnabled, false⟩ = _
  rw [Script.follow_append, hconfiguration.follow_eq]
  rfl

end LoadPlan

/-- No call of the loader is ever stopped by the gates, in whatever state it finds them. -/
theorem LoaderCall.admitted_script (c : LoaderCall) (gates : Gates) : c.script.Admitted gates := by
  cases c with
  | load image ctx host =>
    simp only [LoaderCall.script]
    split
    next hc => exact admitted_loadPlan image hc host gates
    · trivial
  | unload ctx =>
    simp only [LoaderCall.script]
    split
    next hc => exact admitted_unloadScript hc gates
    · trivial
  | program sets =>
    simp only [LoaderCall.script]
    split
    · exact admitted_ruleSetScript sets gates
    · trivial

end PacketOffload
