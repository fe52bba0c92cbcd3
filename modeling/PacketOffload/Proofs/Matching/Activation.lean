import Mathlib.Data.List.Induction
import PacketOffload.Proofs.Matching.Slots

/-!
# What the matching engine is enabled with

Three calls of the loader end by enabling the matching engine or leave it as it is. Programming
writes all slots, an unload writes the slot of its context alone, a load writes none, and each of
them can stop anywhere.

Main statements: a call that did not go to its end leaves the engine untouched or disabled
(`LoaderCall.engine_of_started`); an unload can enable slots that nobody wrote
(`unload_enables_power_on`); and the slots are complete whenever the engine is enabled if and only
if every unload that goes through finds the other slots complete (`alwaysComplete_iff`).
-/

namespace PacketOffload

/-! ## Complete slots -/

/-- A call gives a slot its rule set. -/
def LoaderCall.Gives (slot : Nat) (set : RuleSet) : LoaderCall → Prop
  | .program sets => sets.length ≤ numRuleSets ∧ sets[slot]? = some set
  | _ => False

namespace RegisterFile

variable {r q : RegisterFile} {calls more : List LoaderCall}

/-- A slot holds a rule set as a whole, either the one that lets all traffic pass by or one that a
call gave it. -/
def Complete (r : RegisterFile) (calls : List LoaderCall) (slot : Nat) : Prop :=
  ∃ set, r.HoldsSet slot set ∧ (set = .bypass ∨ ∃ c ∈ calls, c.Gives slot set)

/-- If the engine is enabled, all its slots are complete. -/
def EngineSafe (r : RegisterFile) (calls : List LoaderCall) : Prop :=
  r .matchValid 0 = 1 → ∀ slot < numRuleSets, r.Complete calls slot

theorem Complete.congr {slot : Nat} (h : r.Complete calls slot)
    (hs : ∀ g i, InSlot slot g i → q g i = r g i) : q.Complete calls slot := by
  obtain ⟨set, hset, hgiven⟩ := h
  exact ⟨set, hset.congr hs, hgiven⟩

theorem Complete.append {slot : Nat} (h : r.Complete calls slot) (more : List LoaderCall) :
    r.Complete (calls ++ more) slot := by
  obtain ⟨set, hset, rfl | ⟨c, hc, hgives⟩⟩ := h
  · exact ⟨.bypass, hset, Or.inl rfl⟩
  · exact ⟨set, hset, Or.inr ⟨c, List.mem_append_left more hc, hgives⟩⟩

theorem EngineSafe.congr (h : r.EngineSafe calls) (hs : r.SameEngine q) : q.EngineSafe calls := by
  intro hv slot hslot
  have hvr : r .matchValid 0 = 1 := by
    rw [← hs .matchValid 0 (Or.inl rfl)]
    exact hv
  exact (h hvr slot hslot).congr fun g i hi => hs g i (Or.inr hi.isMatchConfig)

theorem EngineSafe.append (h : r.EngineSafe calls) (more : List LoaderCall) :
    r.EngineSafe (calls ++ more) :=
  fun hv slot hslot => (h hv slot hslot).append more

theorem engineSafe_of_disabled (h : r .matchValid 0 = 0) : r.EngineSafe calls := by
  intro hv
  rw [h] at hv
  exact absurd hv (by decide)

end RegisterFile

/-! ## Calls that stop on the way -/

/-- With the engine disabled first and enabled last, a beginning of a script did nothing, or left
the engine disabled, or is the whole script. -/
theorem started_whileDisabled {slots done left : Script}
    (hslots : ∀ value, Step.write .matchValid 0 value ∉ slots)
    (h : whileDisabled slots = done ++ left) (r : RegisterFile) :
    done = [] ∨ done.settle r .matchValid 0 = 0 ∨ left = [] := by
  cases done with
  | nil => exact Or.inl rfl
  | cons step done =>
    refine Or.inr ?_
    simp only [whileDisabled, List.cons_append, List.cons.injEq] at h
    obtain ⟨rfl, hrest⟩ := h
    rcases List.append_eq_append_iff.1 hrest with ⟨mid, rfl, hlast⟩ | ⟨mid, rfl, -⟩
    · -- Beyond the slots there is only the step that enables the engine.
      rcases List.singleton_eq_append_iff.1 hlast with ⟨rfl, -⟩ | ⟨-, rfl⟩
      · refine Or.inl ?_
        rw [List.append_nil]
        exact Script.settle_of_spared (r.set .matchValid 0 0) hslots
      · exact Or.inr rfl
    · refine Or.inl ?_
      exact Script.settle_of_spared (r.set .matchValid 0 0) fun value hm =>
        hslots value (List.mem_append_left mid hm)

theorem valid_notMem_slotScript (slot : Nat) (set : RuleSet) (value : UInt32) :
    Step.write .matchValid 0 value ∉ slotScript slot set := by
  intro hm
  exact (inSlot_of_mem_slotScript hm).ne_valid rfl

/-- A script writes neither the enable flag of the engine nor what the flag locks. -/
def Script.SparesEngine (script : Script) : Prop :=
  ∀ g i value, Step.write g i value ∈ script → g ≠ .matchValid ∧ g.isMatchConfig = false

namespace Script.SparesEngine

variable {first second : Script}

theorem settle {script : Script} (h : script.SparesEngine) (r : RegisterFile) :
    r.SameEngine (script.settle r) := by
  intro g i hg
  refine settle_of_spared r fun value hm => ?_
  obtain ⟨hv, hc⟩ := h g i value hm
  rcases hg with rfl | hg
  · exact hv rfl
  · rw [hc] at hg
    exact absurd hg (by decide)

theorem left (h : (first ++ second).SparesEngine) : first.SparesEngine :=
  fun g i value hm => h g i value (List.mem_append_left second hm)

end Script.SparesEngine

theorem sparesEngine_resetScript : resetScript.SparesEngine := by
  intro g i value hm
  simp only [resetScript, List.mem_cons, Step.write.injEq, List.not_mem_nil, or_false] at hm
  rcases hm with ⟨rfl, -⟩ | ⟨rfl, -⟩ | ⟨rfl, -⟩ <;> exact ⟨by decide, rfl⟩

theorem write_notMem_storeScript (g : RegisterGroup) (i : Nat) (value : UInt32) (offset : Nat)
    (words : List UInt32) : Step.write g i value ∉ storeScript offset words := by
  induction words generalizing offset with
  | nil => exact List.not_mem_nil
  | cons word rest ih =>
    intro hm
    rcases List.mem_cons.1 hm with heq | hm
    · cases heq
    · exact ih (offset + 4) hm

theorem write_notMem_sectionScript (g : RegisterGroup) (i : Nat) (value : UInt32)
    (image : FirmwareImage) (name : String) :
    Step.write g i value ∉ sectionScript image name := by
  unfold sectionScript
  split
  · simp
  · simp
  · split
    · exact write_notMem_storeScript g i value _ _
    · simp

theorem sparesEngine_memoryScript (image : FirmwareImage) (ctx : Nat) (host : HostAperture) :
    (memoryScript image ctx host).SparesEngine := by
  intro g i value hm
  unfold memoryScript at hm
  split at hm
  · simp at hm
  · simp only [apertureScript, List.mem_append, List.mem_cons, Step.write.injEq, List.not_mem_nil,
      or_false] at hm
    rcases hm with (⟨rfl, -⟩ | ⟨rfl, -⟩) | ⟨rfl, -⟩ | ⟨rfl, -⟩ | ⟨rfl, -⟩ | ⟨rfl, -⟩ | ⟨rfl, -⟩ <;>
      exact ⟨by decide, rfl⟩

theorem sparesEngine_handlerScript (image : FirmwareImage) (ctx : Nat) :
    (handlerScript image ctx).SparesEngine := by
  intro g i value hm
  have hspared : ∀ stage ∈ HandlerStage.all,
      (stage.addr ≠ .matchValid ∧ stage.addr.isMatchConfig = false) ∧
        stage.size ≠ .matchValid ∧ stage.size.isMatchConfig = false := by decide
  rcases eq_of_mem_handlerScript hm with ⟨e, he⟩ | ⟨stage, hstage, word, hw | hw⟩
  · cases he
  · obtain ⟨rfl, -⟩ := Step.write.inj hw
    exact (hspared stage hstage).1
  · obtain ⟨rfl, -⟩ := Step.write.inj hw
    exact (hspared stage hstage).2

/-- A load has nothing to do with the matching engine. -/
theorem sparesEngine_load (image : FirmwareImage) (ctx : Nat) (host : HostAperture) :
    (LoaderCall.load image ctx host).script.SparesEngine := by
  intro g i value hm
  simp only [LoaderCall.script] at hm
  split at hm
  · simp only [loadPlan, List.flatMap_cons, List.flatMap_nil, List.append_nil, List.mem_append]
      at hm
    rcases hm with hm | hm | hm | hm | hm | hm | hm
    · exact sparesEngine_resetScript g i value hm
    · obtain ⟨name, -, hm⟩ := List.mem_flatMap.1 hm
      exact absurd hm (write_notMem_sectionScript g i value image name)
    · obtain ⟨rfl, -⟩ := Step.write.inj (List.mem_singleton.1 hm)
      exact ⟨by decide, rfl⟩
    · obtain ⟨rfl, -⟩ := Step.write.inj (List.mem_singleton.1 hm)
      exact ⟨by decide, rfl⟩
    · exact sparesEngine_handlerScript image ctx g i value hm
    · exact sparesEngine_memoryScript image ctx host g i value hm
    · simp only [List.mem_cons, Step.write.injEq, List.not_mem_nil, or_false] at hm
      rcases hm with ⟨rfl, -⟩ | ⟨rfl, -⟩ <;> exact ⟨by decide, rfl⟩
  · cases hm

/-- What a beginning of a call's script leaves of the matching engine: the engine as it was, or a
disabled engine, or, at the end of the script, what a programming or an unload put there. -/
theorem LoaderCall.engine_of_started {c : LoaderCall} {done left : Script}
    (h : c.script = done ++ left) (r : RegisterFile) :
    r.SameEngine (done.settle r) ∨ done.settle r .matchValid 0 = 0 ∨
      left = [] ∧ ((∃ sets, c = .program sets ∧ sets.length ≤ numRuleSets) ∨
        ∃ ctx, c = .unload ctx ∧ ctx < numContexts) := by
  have same : ∀ {q : RegisterFile}, q.SameEngine (Script.settle [] q) := fun _ _ _ => rfl
  cases c with
  | load image ctx host =>
    refine Or.inl (Script.SparesEngine.settle ?_ r)
    have hspares := sparesEngine_load image ctx host
    rw [h] at hspares
    exact hspares.left
  | program sets =>
    by_cases hl : sets.length ≤ numRuleSets
    · have hscript : whileDisabled (slotsScript (List.range numRuleSets) (ruleSetOf sets)) =
          done ++ left := (LoaderCall.script_program hl).symm.trans h
      have hslots : ∀ value, Step.write .matchValid 0 value ∉
          slotsScript (List.range numRuleSets) (ruleSetOf sets) := by
        intro value hm
        obtain ⟨slot, -, hm⟩ := List.mem_flatMap.1 hm
        exact valid_notMem_slotScript slot _ value hm
      rcases started_whileDisabled hslots hscript r with rfl | hv | rfl
      · exact Or.inl same
      · exact Or.inr (Or.inl hv)
      · exact Or.inr (Or.inr ⟨rfl, Or.inl ⟨sets, rfl, hl⟩⟩)
    · simp only [LoaderCall.script, hl, if_false] at h
      obtain ⟨rfl, -⟩ := List.append_eq_nil_iff.1 h.symm
      exact Or.inl same
  | unload ctx =>
    by_cases hc : ctx < numContexts
    · rw [LoaderCall.script_unload hc, unloadScript] at h
      rcases List.append_eq_append_iff.1 h with ⟨mid, rfl, hlast⟩ | ⟨mid, hmid, -⟩
      · rw [Script.settle_append]
        have hreset := sparesEngine_resetScript.settle r
        rcases started_whileDisabled (valid_notMem_slotScript ctx .bypass) hlast
          (resetScript.settle r) with rfl | hv | rfl
        · exact Or.inl hreset
        · exact Or.inr (Or.inl hv)
        · exact Or.inr (Or.inr ⟨rfl, Or.inr ⟨ctx, rfl, hc⟩⟩)
      · refine Or.inl (Script.SparesEngine.settle ?_ r)
        have hspares := sparesEngine_resetScript
        rw [hmid] at hspares
        exact hspares.left
    · simp only [LoaderCall.script, hc, if_false] at h
      obtain ⟨rfl, -⟩ := List.append_eq_nil_iff.1 h.symm
      exact Or.inl same

/-! ## Calls that go to their end -/

theorem settle_whileDisabled (r : RegisterFile) (slots : Script) :
    (whileDisabled slots).settle r = (slots.settle (r.set .matchValid 0 0)).set .matchValid 0 1 :=
  Script.settle_append slots [.write .matchValid 0 1] (r.set .matchValid 0 0)

theorem settle_whileDisabled_of_inSlot (r : RegisterFile) (slots : Script) {slot i : Nat}
    {g : RegisterGroup} (hi : InSlot slot g i) :
    (whileDisabled slots).settle r g i = slots.settle (r.set .matchValid 0 0) g i := by
  rw [settle_whileDisabled]
  exact RegisterFile.set_of_group_ne _ 0 i 1 hi.ne_valid

theorem valid_whileDisabled (r : RegisterFile) (slots : Script) :
    (whileDisabled slots).settle r .matchValid 0 = 1 := by
  rw [settle_whileDisabled, RegisterFile.set_self]

/-- A programming puts into each slot the rule set that it gives it. -/
theorem holdsSet_ruleSetScript (r : RegisterFile) (sets : List RuleSet) {slot : Nat}
    (h : slot < numRuleSets) :
    ((ruleSetScript sets).settle r).HoldsSet slot (ruleSetOf sets slot) := by
  have hslots := holdsSet_slotsScript (r.set .matchValid 0 0) List.nodup_range (ruleSetOf sets)
    (List.mem_range.2 h)
  exact hslots.congr fun g i hi => settle_whileDisabled_of_inSlot r _ hi

/-- An unload closes the slot of its context. -/
theorem holdsSet_unloadScript (r : RegisterFile) (ctx : Nat) :
    ((unloadScript ctx).settle r).HoldsSet ctx .bypass := by
  rw [unloadScript, Script.settle_append]
  have hslot := holdsSet_slotScript ((resetScript.settle r).set .matchValid 0 0) ctx .bypass
  exact hslot.congr fun g i hi => settle_whileDisabled_of_inSlot _ _ hi

/-- An unload leaves all other slots as they are. -/
theorem settle_unloadScript_of_inSlot (r : RegisterFile) {ctx slot i : Nat} {g : RegisterGroup}
    (hne : slot ≠ ctx) (hi : InSlot slot g i) : (unloadScript ctx).settle r g i = r g i := by
  rw [unloadScript, Script.settle_append, settle_whileDisabled_of_inSlot _ _ hi]
  have hspared : ∀ value, Step.write g i value ∉ slotScript ctx .bypass :=
    fun value hm => hne (hi.unique (inSlot_of_mem_slotScript hm))
  rw [Script.settle_of_spared _ hspared, RegisterFile.set_of_group_ne _ 0 i 0 hi.ne_valid]
  exact sparesEngine_resetScript.settle r g i (Or.inr hi.isMatchConfig)

theorem valid_unloadScript (r : RegisterFile) (ctx : Nat) :
    (unloadScript ctx).settle r .matchValid 0 = 1 := by
  rw [unloadScript, Script.settle_append, valid_whileDisabled]

/-! ## Runs of calls -/

namespace Host

variable {σ : Type} [Transport σ] [RegisterView σ]

/-- Calls the loader, one call after the other, whatever comes of each. -/
def runCalls (h : Host σ) (calls : List LoaderCall) : Host σ := h.run (calls.map .call)

/-- Whenever the matching engine is enabled, between two calls or in the middle of one, its slots
are complete. -/
def AlwaysComplete (h : Host σ) (calls : List LoaderCall) : Prop :=
  ∀ before after, calls = before ++ after →
    (h.runCalls before).session.registers.EngineSafe before ∧
      ∀ c ∈ after.head?, ∀ n < c.script.length,
        ((h.runCalls before).session.perform (c.script.take n)).2.registers.EngineSafe before

/-- Every unload that goes through finds the slots of the other contexts complete. -/
def UnloadsFindComplete (h : Host σ) (calls : List LoaderCall) : Prop :=
  ∀ before ctx after, calls = before ++ .unload ctx :: after →
    ((h.runCalls before).call (.unload ctx)).1 = .ok .done →
      ∀ slot < numRuleSets, slot ≠ ctx →
        (h.runCalls before).session.registers.Complete before slot

omit [RegisterView σ] in
theorem runCalls_append (h : Host σ) (before : List LoaderCall) (c : LoaderCall) :
    h.runCalls (before ++ [c]) = ((h.runCalls before).call c).2 := by
  rw [runCalls, run, List.map_append, List.foldl_append]
  rfl

omit [RegisterView σ] in
theorem unload_eq_done_iff (h : Host σ) (ctx : Nat) :
    (h.call (.unload ctx)).1 = .ok .done ↔
      ctx < numContexts ∧ (h.session.perform (unloadScript ctx)).1 = .ok () := by
  by_cases hc : ctx < numContexts
  · simp only [call, Loader.unload, Loader.checkContext, hc, if_true, true_and]
    rcases h.session.perform (unloadScript ctx) with ⟨⟨e⟩ | ⟨⟨⟩⟩, t⟩ <;> simp [Except.map]
  · simp [call, Loader.unload, Loader.checkContext, hc, Except.map]

end Host

/-- After the first so many steps of a call the matching engine is as it was, or disabled, or the
call went to its end. -/
theorem Session.engine_of_perform {σ : Type} [Transport σ] [RegisterView σ] (s : Session σ)
    (c : LoaderCall) (n : Nat) :
    s.registers.SameEngine (s.perform (c.script.take n)).2.registers ∨
      (s.perform (c.script.take n)).2.registers .matchValid 0 = 0 ∨
      c.script.length ≤ n ∧ (s.perform c.script).1 = .ok () ∧
        (s.perform c.script).2.registers = c.script.settle s.registers ∧
        ((∃ sets, c = .program sets ∧ sets.length ≤ numRuleSets) ∨
          ∃ ctx, c = .unload ctx ∧ ctx < numContexts) := by
  obtain ⟨done, rest, hsplit, hregs, hok⟩ := s.registers_perform (c.script.take n)
  have hscript : c.script = done ++ (rest ++ c.script.drop n) := by
    rw [← List.append_assoc, ← hsplit, List.take_append_drop]
  rw [hregs]
  rcases LoaderCall.engine_of_started hscript s.registers with hsame | hoff | ⟨hend, hkind⟩
  · exact Or.inl hsame
  · exact Or.inr (Or.inl hoff)
  · obtain ⟨hrest, hdrop⟩ := List.append_eq_nil_iff.1 hend
    have hn : c.script.length ≤ n := List.drop_eq_nil_iff.1 hdrop
    have hall : c.script.take n = c.script := List.take_of_length_le hn
    have hdone : done = c.script := by
      rw [hscript, hend, List.append_nil]
    rw [hall] at hregs hok
    rw [hdone] at hregs
    exact Or.inr (Or.inr ⟨hn, hok.2 hrest, hregs, hkind⟩)

namespace Host

variable {σ : Type} [Transport σ] [RegisterView σ] {h : Host σ} {before : List LoaderCall}

/-- A call keeps the engine safe, if the other slots are complete in case it is an unload. -/
theorem engineSafe_call (hsafe : h.session.registers.EngineSafe before) (c : LoaderCall)
    (hunload : ∀ ctx, c = .unload ctx → (h.call c).1 = .ok .done →
      ∀ slot < numRuleSets, slot ≠ ctx → h.session.registers.Complete before slot) :
    (h.call c).2.session.registers.EngineSafe (before ++ [c]) := by
  rw [session_call]
  have hout := h.session.engine_of_perform c c.script.length
  rw [List.take_length] at hout
  rcases hout with hsame | hoff | ⟨-, hok, hregs, ⟨sets, rfl, hl⟩ | ⟨ctx, rfl, hc⟩⟩
  · exact (hsafe.congr hsame).append [c]
  · exact RegisterFile.engineSafe_of_disabled hoff
  · intro _ slot hslot
    rw [hregs, LoaderCall.script_program hl]
    refine ⟨ruleSetOf sets slot, holdsSet_ruleSetScript _ sets hslot, ?_⟩
    -- A slot past the end of the list is given the bypass.
    cases hget : sets[slot]? with
    | none => exact Or.inl (by simp [ruleSetOf, hget])
    | some set =>
      refine Or.inr ⟨.program sets, by simp, hl, ?_⟩
      simp [ruleSetOf, hget]
  · intro _ slot hslot
    rw [LoaderCall.script_unload hc] at hok hregs
    have hdone : (h.call (.unload ctx)).1 = .ok .done := (unload_eq_done_iff h ctx).2 ⟨hc, hok⟩
    rw [LoaderCall.script_unload hc, hregs]
    by_cases hne : slot = ctx
    · subst hne
      exact ⟨.bypass, holdsSet_unloadScript _ slot, Or.inl rfl⟩
    · have hcomplete := hunload ctx rfl hdone slot hslot hne
      have hkept := hcomplete.congr (q := (unloadScript ctx).settle h.session.registers)
        fun g i hi => settle_unloadScript_of_inSlot _ hne hi
      exact hkept.append [.unload ctx]

/-- In the middle of a call the engine is as it was, or disabled. -/
theorem engineSafe_started (hsafe : h.session.registers.EngineSafe before) {c : LoaderCall}
    {n : Nat} (hn : n < c.script.length) :
    (h.session.perform (c.script.take n)).2.registers.EngineSafe before := by
  rcases h.session.engine_of_perform c n with hsame | hoff | ⟨hle, -⟩
  · exact hsafe.congr hsame
  · exact RegisterFile.engineSafe_of_disabled hoff
  · exact absurd hn (Nat.not_lt.2 hle)

/-- An unload that went through left the engine enabled, so that it found the other slots complete
if they are complete afterwards. -/
theorem complete_of_unload {ctx : Nat} (hdone : (h.call (.unload ctx)).1 = .ok .done)
    (hsafe : (h.call (.unload ctx)).2.session.registers.EngineSafe (before ++ [.unload ctx]))
    {slot : Nat} (hslot : slot < numRuleSets) (hne : slot ≠ ctx) :
    h.session.registers.Complete before slot := by
  obtain ⟨hc, hok⟩ := (unload_eq_done_iff h ctx).1 hdone
  obtain ⟨done, rest, hsplit, hregs, hend⟩ := h.session.registers_perform (unloadScript ctx)
  obtain rfl := hend.1 hok
  rw [List.append_nil] at hsplit
  have hafter : (h.call (.unload ctx)).2.session.registers =
      (unloadScript ctx).settle h.session.registers := by
    rw [session_call, LoaderCall.script_unload hc, hregs, hsplit]
  rw [hafter] at hsafe
  have hcomplete := hsafe (valid_unloadScript _ ctx) slot hslot
  obtain ⟨set, hset, hgiven⟩ := hcomplete.congr (q := h.session.registers)
    fun g i hi => (settle_unloadScript_of_inSlot _ hne hi).symm
  refine ⟨set, hset, hgiven.imp_right ?_⟩
  rintro ⟨c, hm, hgives⟩
  rcases List.mem_append.1 hm with hm | hm
  · exact ⟨c, hm, hgives⟩
  · obtain rfl := List.mem_singleton.1 hm
    cases hgives

end Host

/-- **What an unload finds decides.** On a device after power-on, whatever is called and whichever
writes fail, the matching engine is only ever enabled with complete slots if and only if every
unload that goes through finds the slots of the other contexts complete. -/
theorem alwaysComplete_iff (plan : FaultPlan) (ctx : Nat) {s : Session (Faulty Simulator)}
    (hs : Session.start ((Faulty.of Simulator.powerOn).follow plan) ctx = .ok s)
    (calls : List LoaderCall) :
    (Host.of s).AlwaysComplete calls ↔ (Host.of s).UnloadsFindComplete calls := by
  constructor
  · intro halways before unloaded after hcalls hdone slot hslot hne
    have hsplit : calls = (before ++ [.unload unloaded]) ++ after := by
      rw [hcalls, List.append_assoc]
      rfl
    obtain ⟨hsafe, -⟩ := halways _ _ hsplit
    rw [Host.runCalls_append] at hsafe
    exact Host.complete_of_unload hdone hsafe hslot hne
  · intro hunloads before
    -- Over the calls made so far, the last one apart.
    induction before using List.reverseRecOn with
    | nil =>
      intro after hcalls
      have hstart : s.registers .matchValid 0 = 0 := by
        obtain ⟨hd, -⟩ := Session.mirrors_start hs
        rw [Session.registers, hd]
        rfl
      have hsafe : s.registers.EngineSafe [] := RegisterFile.engineSafe_of_disabled hstart
      exact ⟨hsafe, fun c _ n hn => Host.engineSafe_started hsafe hn⟩
    | append_singleton before c ih =>
      intro after hcalls
      have hsplit : calls = before ++ c :: after := by
        rw [hcalls, List.append_assoc]
        rfl
      have hsafe : ((Host.of s).runCalls (before ++ [c])).session.registers.EngineSafe
          (before ++ [c]) := by
        rw [Host.runCalls_append]
        refine Host.engineSafe_call (ih _ hsplit).1 c ?_
        rintro unloaded rfl hdone
        exact hunloads before unloaded after hsplit hdone
      exact ⟨hsafe, fun c _ n hn => Host.engineSafe_started hsafe hn⟩

/-- A programming of the slots fails at its tenth write, in the middle of the second rule of slot 0.
The next unload, of another context, enables what is there. -/
theorem unload_enables_half_written :
    ∃ s, Session.start ((Faulty.of Simulator.powerOn).follow (.nthWrite 10)) 0 = .ok s ∧
      ¬ (Host.of s).AlwaysComplete [.program [.slmp], .unload 3] := by
  refine ⟨_, rfl, ?_⟩
  rw [alwaysComplete_iff (.nthWrite 10) 0 rfl]
  intro hunloads
  obtain ⟨set, hset, rfl | ⟨c, hm, hgives⟩⟩ :=
    hunloads [.program [.slmp]] 3 [] rfl rfl 0 (by decide) (by decide)
  · exact absurd hset.first.low (by decide)
  · obtain rfl := List.mem_singleton.1 hm
    obtain ⟨-, hget⟩ := hgives
    obtain rfl := Option.some.inj hget
    exact absurd hset.second.high (by decide)

/-- The first unload on a device after power-on enables slots that nobody wrote. They are zero, and
zero takes every packet. -/
theorem unload_enables_power_on :
    ∃ s, Session.start ((Faulty.of Simulator.powerOn).follow .none) 0 = .ok s ∧
      ¬ (Host.of s).AlwaysComplete [.unload 0] := by
  refine ⟨_, rfl, ?_⟩
  intro halways
  obtain ⟨hsafe, -⟩ := halways [.unload 0] [] rfl
  obtain ⟨set, hset, rfl | ⟨c, hm, hgives⟩⟩ := hsafe rfl 1 (by decide)
  · exact absurd hset.first.low (by decide)
  · obtain rfl := List.mem_singleton.1 hm
    cases hgives

end PacketOffload
