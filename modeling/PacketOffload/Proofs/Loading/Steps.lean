import PacketOffload.Proofs.Device.Host
import PacketOffload.Proofs.Device.Reliable

/-!
# A load, step by step

A load is performed stage by stage, each stage a script. Seen as one list of steps, of which each
knows its stage, it stops at the first step that fails and names the stage of this step.

Main statements: the two ways of performing a plan agree
(`Session.performStages_eq_performStaged`), and what a load comes to is known from the step at which
it stops (`Loader.load_of_performed`, `Loader.load_of_failed`).
-/

namespace PacketOffload

/-- The steps of a plan, each with the stage that it belongs to. -/
def stagedSteps (plan : List (LoadStage × Script)) : List (LoadStage × Step) :=
  plan.flatMap fun entry => entry.2.map fun step => (entry.1, step)

/-- The steps of a load, each with its stage. -/
def loadSteps (image : FirmwareImage) (ctx : Nat) (host : HostAperture) : List (LoadStage × Step) :=
  stagedSteps (loadPlan image ctx host)

/-- All steps of a load. -/
def loadScript (image : FirmwareImage) (ctx : Nat) (host : HostAperture) : Script :=
  (loadPlan image ctx host).flatMap Prod.snd

theorem map_snd_stagedSteps (plan : List (LoadStage × Script)) :
    (stagedSteps plan).map Prod.snd = plan.flatMap Prod.snd := by
  have hstage : ∀ entry : LoadStage × Script,
      (entry.2.map fun step => (entry.1, step)).map Prod.snd = entry.2 := by
    intro entry
    simp [Function.comp_def]
  simp only [stagedSteps, List.map_flatMap, hstage]

theorem map_snd_loadSteps (image : FirmwareImage) (ctx : Nat) (host : HostAperture) :
    (loadSteps image ctx host).map Prod.snd = loadScript image ctx host :=
  map_snd_stagedSteps _

theorem LoaderCall.script_load (image : FirmwareImage) {ctx : Nat} (h : ctx < numContexts)
    (host : HostAperture) :
    (LoaderCall.load image ctx host).script = loadScript image ctx host := if_pos h

/-! ## Performing a plan -/

namespace Session

variable {σ : Type} [Transport σ] {s : Session σ}

/-- Performs steps up to the first one that fails, and names the stage of this one. -/
def performStaged (s : Session σ) :
    List (LoadStage × Step) → Except (LoadStage × Fault) Unit × Session σ
  | [] => (.ok (), s)
  | (stage, step) :: rest =>
    match s.performStep step with
    | (.ok (), s) => s.performStaged rest
    | (.error e, s) => (.error (stage, e), s)

/-- The steps of one stage are performed before those that follow. -/
theorem performStaged_map_append (s : Session σ) (stage : LoadStage) (script : Script)
    (rest : List (LoadStage × Step)) :
    s.performStaged (script.map (fun step => (stage, step)) ++ rest) =
      match s.perform script with
      | (.ok (), s) => s.performStaged rest
      | (.error e, s) => (.error (stage, e), s) := by
  induction script generalizing s with
  | nil => rfl
  | cons step script ih =>
    rw [List.map_cons, List.cons_append, performStaged, perform]
    rcases s.performStep step with ⟨⟨e⟩ | ⟨⟨⟩⟩, t⟩
    · rfl
    · exact ih t

theorem performStages_eq_performStaged (s : Session σ) (plan : List (LoadStage × Script)) :
    s.performStages plan = s.performStaged (stagedSteps plan) := by
  induction plan generalizing s with
  | nil => rfl
  | cons entry rest ih =>
    obtain ⟨stage, script⟩ := entry
    rw [stagedSteps, List.flatMap_cons, performStaged_map_append, performStages]
    rcases s.perform script with ⟨⟨e⟩ | ⟨⟨⟩⟩, t⟩
    · rfl
    · exact ih t

theorem performStaged_of_ok {steps : List (LoadStage × Step)}
    (h : (s.perform (steps.map Prod.snd)).1 = .ok ()) :
    s.performStaged steps = (.ok (), (s.perform (steps.map Prod.snd)).2) := by
  induction steps generalizing s with
  | nil => rfl
  | cons entry rest ih =>
    obtain ⟨stage, step⟩ := entry
    rw [List.map_cons, perform] at h ⊢
    rw [performStaged]
    revert h
    rcases s.performStep step with ⟨⟨e⟩ | ⟨⟨⟩⟩, t⟩ <;> intro h
    · cases h
    · exact ih h

/-- Where the steps before it went through, a step that fails is the last one. -/
theorem performStaged_of_failed {before after : List (LoadStage × Step)} {stage : LoadStage}
    {step : Step} {t u : Session σ} {e : Fault}
    (hbefore : s.perform (before.map Prod.snd) = (.ok (), t))
    (hstep : t.performStep step = (.error e, u)) :
    s.performStaged (before ++ (stage, step) :: after) = (.error (stage, e), u) := by
  induction before generalizing s with
  | nil =>
    obtain rfl : s = t := congrArg Prod.snd hbefore
    rw [List.nil_append, performStaged, hstep]
  | cons entry rest ih =>
    obtain ⟨first, other⟩ := entry
    rw [List.map_cons, perform] at hbefore
    rw [List.cons_append, performStaged]
    revert hbefore
    rcases s.performStep other with ⟨⟨f⟩ | ⟨⟨⟩⟩, v⟩ <;> intro hbefore
    · cases hbefore
    · exact ih hbefore

/-- Where a script fails, one of its steps fails after all those before it went through. -/
theorem exists_failed_of_perform {steps : List (LoadStage × Step)} {e : Fault}
    (h : (s.perform (steps.map Prod.snd)).1 = .error e) :
    ∃ before stage step after t u, steps = before ++ (stage, step) :: after ∧
      s.perform (before.map Prod.snd) = (.ok (), t) ∧ t.performStep step = (.error e, u) := by
  induction steps generalizing s with
  | nil => cases h
  | cons entry rest ih =>
    obtain ⟨stage, step⟩ := entry
    rw [List.map_cons, perform] at h
    rcases hs : s.performStep step with ⟨⟨f⟩ | ⟨⟨⟩⟩, v⟩
    · rw [hs] at h
      obtain rfl := Except.error.inj h
      exact ⟨[], stage, step, rest, s, v, rfl, rfl, hs⟩
    · rw [hs] at h
      obtain ⟨before, stage', step', after, t, u, rfl, hbefore, hstep⟩ := ih h
      refine ⟨(stage, step) :: before, stage', step', after, t, u, rfl, ?_, hstep⟩
      rw [List.map_cons, perform, hs]
      exact hbefore

/-- A script that went through refuses nothing. -/
theorem refuse_notMem_of_perform {script : Script} (h : (s.perform script).1 = .ok ())
    (fault : Fault) : Step.refuse fault ∉ script := by
  induction script generalizing s with
  | nil => exact List.not_mem_nil
  | cons step rest ih =>
    rw [perform] at h
    rcases hs : s.performStep step with ⟨⟨f⟩ | ⟨⟨⟩⟩, t⟩
    · rw [hs] at h
      cases h
    · rw [hs] at h
      intro hm
      rcases List.mem_cons.1 hm with rfl | hm
      · cases congrArg Prod.fst hs
      · exact ih h hm

end Session

/-! ## What a load comes to -/

namespace Loader

variable {σ : Type} [Transport σ] {s : Session σ} {image : FirmwareImage} {ctx : Nat}
  {host : HostAperture}

theorem bind_eq_ok_iff {α β : Type} {x : Except Fault α} {f : α → Except Fault β} {b : β} :
    (x >>= f) = .ok b ↔ ∃ a, x = .ok a ∧ f a = .ok b := by
  cases x <;> simp [bind, Except.bind]

/-- A load tells of a context once its stages and the memory behind its data are known. -/
theorem loadedContext_eq_ok_iff {context : HandlerContext} :
    loadedContext image ctx host = .ok context ↔
      HandlerStage.head.aperture image = .ok context.headHandler ∧
        HandlerStage.packet.aperture image = .ok context.packetHandler ∧
        HandlerStage.tail.aperture image = .ok context.tailHandler ∧
        handlerAperture image = .ok context.handlerMem ∧ context.ctx = ctx ∧
        context.hostMem = host ∧ context.scratchpadSize = PacketOffload.scratchpadSize ∧
        context.enabled = true := by
  simp only [loadedContext, bind_eq_ok_iff]
  constructor
  · rintro ⟨head, hhead, packet, hpacket, tail, htail, mem, hmem, htold⟩
    obtain rfl := Except.ok.inj htold
    exact ⟨hhead, hpacket, htail, hmem, rfl, rfl, rfl, rfl⟩
  · obtain ⟨_, head, packet, tail, mem, _, _, _⟩ := context
    rintro ⟨hhead, hpacket, htail, hmem, rfl, rfl, rfl, rfl⟩
    exact ⟨head, hhead, packet, hpacket, tail, htail, mem, hmem, rfl⟩

/-- A script that could be performed has what was looked up for a stage in it. -/
theorem exists_of_refuse {α : Type} {found : Except Fault α} {script : Script}
    (h : (s.perform script).1 = .ok ()) (hm : ∀ e, found = .error e → Step.refuse e ∈ script) :
    ∃ a, found = .ok a := by
  cases hfound : found with
  | ok a => exact ⟨a, rfl⟩
  | error e => exact absurd (hm e hfound) (Session.refuse_notMem_of_perform h e)

/-- A load of which all steps could be performed tells of a context. -/
theorem exists_loadedContext_of_performed
    (h : (s.perform (loadScript image ctx host)).1 = .ok ()) :
    ∃ context, loadedContext image ctx host = .ok context := by
  have hscript : ∀ step, step ∈ handlerScript image ctx ++ memoryScript image ctx host →
      step ∈ loadScript image ctx host := by
    intro step hm
    simp only [loadScript, loadPlan, List.flatMap_cons, List.mem_append]
    rcases List.mem_append.1 hm with hm | hm <;> simp [hm]
  have hstage : ∀ stage ∈ HandlerStage.all, ∃ a, stage.aperture image = .ok a := by
    intro stage hstage
    refine exists_of_refuse h fun e he => hscript _ (List.mem_append_left _ ?_)
    exact List.mem_flatMap.2 ⟨stage, hstage, by simp [HandlerStage.script, he]⟩
  obtain ⟨head, hhead⟩ := hstage .head (by decide)
  obtain ⟨packet, hpacket⟩ := hstage .packet (by decide)
  obtain ⟨tail, htail⟩ := hstage .tail (by decide)
  obtain ⟨mem, hmem⟩ : ∃ a, handlerAperture image = .ok a :=
    exists_of_refuse h fun e he => hscript _ (by simp [memoryScript, he])
  exact ⟨⟨ctx, head, packet, tail, mem, host, PacketOffload.scratchpadSize, true⟩,
    loadedContext_eq_ok_iff.2 ⟨hhead, hpacket, htail, hmem, rfl, rfl, rfl, rfl⟩⟩

/-- A load of which every step goes through brings the context up. -/
theorem load_of_performed (l : Loader) (hc : ctx < numContexts)
    (h : (s.perform (loadScript image ctx host)).1 = .ok ()) :
    ∃ context, loadedContext image ctx host = .ok context ∧
      l.load s image ctx host = (.ok context, l.setState ctx .enabled,
        (s.perform (loadScript image ctx host)).2) := by
  obtain ⟨context, hcontext⟩ := exists_loadedContext_of_performed h
  have hsteps := h
  rw [← map_snd_loadSteps] at hsteps
  refine ⟨context, hcontext, ?_⟩
  rw [load, checkContext, if_pos hc]
  simp only [Session.performStages_eq_performStaged]
  have hall : s.performStaged (stagedSteps (loadPlan image ctx host)) =
      (.ok (), (s.perform ((loadSteps image ctx host).map Prod.snd)).2) :=
    Session.performStaged_of_ok hsteps
  simp only [hall, hcontext, map_snd_loadSteps]

/-- A load stops at the first step that fails, in the progress of its stage. -/
theorem load_of_failed (l : Loader) (hc : ctx < numContexts) {before after : List (LoadStage × Step)}
    {stage : LoadStage} {step : Step} {t u : Session σ} {e : Fault}
    (hsplit : loadSteps image ctx host = before ++ (stage, step) :: after)
    (hbefore : s.perform (before.map Prod.snd) = (.ok (), t))
    (hstep : t.performStep step = (.error e, u)) :
    l.load s image ctx host =
      (.error (.loadFailed ctx stage e), l.setState ctx stage.progress, u) := by
  rw [load, checkContext, if_pos hc]
  simp only [Session.performStages_eq_performStaged]
  have hall : s.performStaged (stagedSteps (loadPlan image ctx host)) = (.error (stage, e), u) := by
    have hsteps : stagedSteps (loadPlan image ctx host) = before ++ (stage, step) :: after := hsplit
    rw [hsteps]
    exact Session.performStaged_of_failed hbefore hstep
  simp only [hall]

/-- A load goes through exactly if all its steps do. -/
theorem load_eq_ok_iff (l : Loader) (s : Session σ) (image : FirmwareImage)
    (hc : ctx < numContexts) (host : HostAperture) :
    (∃ context, (l.load s image ctx host).1 = .ok context) ↔
      (s.perform (loadScript image ctx host)).1 = .ok () := by
  constructor
  · rintro ⟨context, hload⟩
    cases hp : (s.perform (loadScript image ctx host)).1 with
    | ok => rfl
    | error e =>
      rw [← map_snd_loadSteps] at hp
      obtain ⟨before, stage, step, after, t, u, hsplit, hbefore, hstep⟩ :=
        Session.exists_failed_of_perform hp
      rw [load_of_failed l hc hsplit hbefore hstep] at hload
      cases hload
  · intro hp
    obtain ⟨context, -, hload⟩ := load_of_performed l hc hp
    exact ⟨context, congrArg Prod.fst hload⟩

theorem ctx_lt_of_load {l : Loader} {context : HandlerContext}
    (h : (l.load s image ctx host).1 = .ok context) : ctx < numContexts := by
  by_cases hctx : ctx < numContexts
  · exact hctx
  · rw [load, checkContext, if_neg hctx] at h
    cases h

/-- What a load that went through did, and what it tells. -/
theorem performed_of_load {l : Loader} {context : HandlerContext}
    (h : (l.load s image ctx host).1 = .ok context) :
    (s.perform (loadScript image ctx host)).1 = .ok () ∧
      (l.load s image ctx host).2.2 = (s.perform (loadScript image ctx host)).2 ∧
      loadedContext image ctx host = .ok context := by
  have hctx := ctx_lt_of_load h
  have hperformed := (load_eq_ok_iff l s image hctx host).1 ⟨context, h⟩
  obtain ⟨told, htold, hload⟩ := load_of_performed l hctx hperformed
  rw [hload] at h ⊢
  obtain rfl := Except.ok.inj h
  exact ⟨hperformed, rfl, htold⟩

/-- An unload of which every step goes through is done. -/
theorem unload_of_performed (l : Loader) (hc : ctx < numContexts)
    (h : (s.perform (unloadScript ctx)).1 = .ok ()) :
    l.unload s ctx = (.ok (), l.setState ctx .unloaded, (s.perform (unloadScript ctx)).2) := by
  rw [unload, checkContext, if_pos hc]
  revert h
  rcases s.perform (unloadScript ctx) with ⟨⟨e⟩ | ⟨⟨⟩⟩, t⟩ <;> intro h
  · cases h
  · rfl

end Loader

end PacketOffload
