import PacketOffload.Proofs.Device.Moments
import PacketOffload.Proofs.Matching.Contents

/-!
# The matching engine is switched at once

A programming of the slots and an unload write the registers of the engine one after the other, and
any of these writes can fail. Packets are matched all the while. What they are matched with is never
something in between: at each moment at which the engine is enabled its configuration is that from
before the call, or that which the call leaves when it goes through.

Main statement: the moments of a call, its faults and its reach (`engine_switched_at_once`).
-/

namespace PacketOffload

namespace RegisterFile

/-- The registers that the enable flag of the matching engine locks are the same. -/
def SameConfig (r q : RegisterFile) : Prop :=
  ∀ g : RegisterGroup, g.isMatchConfig = true → ∀ index, q g index = r g index

theorem SameEngine.sameConfig {r q : RegisterFile} (h : r.SameEngine q) : r.SameConfig q :=
  fun g hg index => h g index (Or.inr hg)

end RegisterFile

/-- A call that takes firmware onto the device; the others switch the matching engine. -/
def LoaderCall.IsLoad : LoaderCall → Prop
  | .load _ _ _ => True
  | .unload _ => False
  | .program _ => False

/-! ## What the calls are made of -/

/-- A call that is no load does something to the slots while the engine is disabled, and before that
at most a reset; or it is refused. -/
theorem LoaderCall.script_eq_whileDisabled {c : LoaderCall} (hc : ¬ c.IsLoad) :
    c.script = [] ∨ ∃ first slots, c.script = first ++ whileDisabled slots ∧
      first.SparesEngine ∧ (∀ step ∈ first, step ∈ resetScript) ∧
      ∀ step ∈ slots, ∃ slot set, step ∈ slotScript slot set := by
  cases c with
  | load image ctx host => exact absurd trivial hc
  | unload ctx =>
    by_cases hctx : ctx < numContexts
    · refine Or.inr ⟨resetScript, slotScript ctx .bypass, ?_, sparesEngine_resetScript,
        fun _ hm => hm, fun step hm => ⟨ctx, .bypass, hm⟩⟩
      exact LoaderCall.script_unload hctx
    · exact Or.inl (if_neg hctx)
  | program sets =>
    by_cases hl : sets.length ≤ numRuleSets
    · refine Or.inr ⟨[], slotsScript (List.range numRuleSets) (ruleSetOf sets), ?_, nofun, nofun,
        fun step hm => ?_⟩
      · exact LoaderCall.script_program hl
      · obtain ⟨slot, -, hm⟩ := List.mem_flatMap.1 hm
        exact ⟨slot, _, hm⟩
    · exact Or.inl (if_neg hl)

theorem write_of_mem_slotScript {slot : Nat} {set : RuleSet} {step : Step}
    (h : step ∈ slotScript slot set) :
    ∃ g index value, step = .write g index value ∧ g.isMatchConfig = true := by
  have hall : ∀ step ∈ slotScript slot set,
      ∃ g index value, step = Step.write g index value ∧ g.isMatchConfig = true := by
    simp [slotScript, ruleScript, RegisterGroup.isMatchConfig]
  exact hall step h

theorem RegisterGroup.not_handlers_of_isMatchConfig : ∀ g : RegisterGroup,
    g.isMatchConfig = true → g ≠ .handlerValid ∧ g.isHandlerConfig = false := by
  decide +kernel

/-- Such a call writes registers, and none of handler execution. -/
theorem LoaderCall.write_of_mem_script {c : LoaderCall} (hc : ¬ c.IsLoad) {step : Step}
    (hm : step ∈ c.script) : ∃ g index value, step = .write g index value ∧
      g ≠ .handlerValid ∧ g.isHandlerConfig = false := by
  rcases LoaderCall.script_eq_whileDisabled hc with hnil | ⟨first, slots, hscript, -, hreset, hslots⟩
  · rw [hnil] at hm
    cases hm
  · rw [hscript] at hm
    rcases List.mem_append.1 hm with hm | hm
    · have hall : ∀ step ∈ resetScript, ∃ g index value, step = Step.write g index value ∧
          g ≠ .handlerValid ∧ g.isHandlerConfig = false := by
        simp [resetScript, RegisterGroup.isHandlerConfig]
      exact hall step (hreset step hm)
    · rcases List.mem_cons.1 hm with rfl | hm
      · exact ⟨_, _, _, rfl, by decide, rfl⟩
      · rcases List.mem_append.1 hm with hm | hm
        · obtain ⟨slot, set, hm⟩ := hslots step hm
          obtain ⟨g, index, value, rfl, hg⟩ := write_of_mem_slotScript hm
          exact ⟨g, index, value, rfl, RegisterGroup.not_handlers_of_isMatchConfig g hg⟩
        · obtain rfl := List.mem_singleton.1 hm
          exact ⟨_, _, _, rfl, by decide, rfl⟩

/-- Once the engine was disabled, a call that stops before its end leaves it disabled. -/
theorem LoaderCall.disabled_of_started {c : LoaderCall} (hc : ¬ c.IsLoad) {done left : Script}
    (h : c.script = done ++ left) (hm : Step.write .matchValid 0 0 ∈ done) (r : RegisterFile) :
    done.settle r .matchValid 0 = 0 ∨ left = [] := by
  rcases LoaderCall.script_eq_whileDisabled hc with hnil | ⟨first, slots, hscript, hfirst, -, hslots⟩
  · obtain ⟨rfl, -⟩ := List.append_eq_nil_iff.1 (h.symm.trans hnil)
    cases hm
  · have hnot : Step.write .matchValid 0 0 ∉ first := fun hm => (hfirst _ _ _ hm).1 rfl
    have hslots' : ∀ value, Step.write .matchValid 0 value ∉ slots := by
      intro value hm
      obtain ⟨slot, set, hm⟩ := hslots _ hm
      exact valid_notMem_slotScript slot set value hm
    rcases List.append_eq_append_iff.1 (hscript.symm.trans h) with ⟨mid, rfl, hlast⟩ | ⟨mid, hmid, -⟩
    · rw [Script.settle_append]
      rcases started_whileDisabled hslots' hlast (first.settle r) with rfl | hoff | hend
      · rw [List.append_nil] at hm
        exact absurd hm hnot
      · exact Or.inl hoff
      · exact Or.inr hend
    · exact absurd (hmid ▸ List.mem_append_left mid hm) hnot

/-- What a beginning of a call leaves with the engine enabled is the configuration from before, or
the beginning is the whole call. -/
theorem LoaderCall.sameConfig_of_started {c : LoaderCall} {done left : Script}
    (h : c.script = done ++ left) (r : RegisterFile) (hon : done.settle r .matchValid 0 = 1) :
    r.SameConfig (done.settle r) ∨ left = [] := by
  rcases LoaderCall.engine_of_started h r with hsame | hoff | ⟨hend, -⟩
  · exact Or.inl hsame.sameConfig
  · rw [hoff] at hon
    exact absurd hon (by decide)
  · exact Or.inr hend

/-! ## Calls -/

/-- A call that is no load and of which all steps go through only fails if it was refused. -/
theorem Host.script_eq_nil_of_error {σ : Type} [Transport σ] {h : Host σ} {c : LoaderCall}
    (hc : ¬ c.IsLoad) {e : Fault} (he : (h.call c).1 = .error e)
    (hok : (h.session.perform c.script).1 = .ok ()) : c.script = [] := by
  cases c with
  | load image ctx host => exact absurd trivial hc
  | unload ctx =>
    by_cases hctx : ctx < numContexts
    · rw [LoaderCall.script_unload hctx] at hok
      rw [(Host.unload_eq_done_iff h ctx).2 ⟨hctx, hok⟩] at he
      cases he
    · exact if_neg hctx
  | program sets =>
    by_cases hl : sets.length ≤ numRuleSets
    · rw [LoaderCall.script_program hl] at hok
      simp only [call, Loader.programRuleSets, hl, if_true, hok] at he
      cases he
    · exact if_neg hl

variable {σ : Type} [Transport σ] [RegisterView σ]

/-- **The engine is switched at once.** On any device and from any session, a programming of the
slots or an unload, whichever of its writes fail: whenever one of its writes reaches the device, and
at its end, the engine is disabled, or configured as before the call, or configured as the call
leaves it when it goes through. A call that fails after it has disabled the engine leaves it
disabled. No register of handler execution and no word of the memory window is written. -/
theorem engine_switched_at_once (h : Host (Recorded σ)) {c : LoaderCall} (hc : ¬ c.IsLoad) :
    let before := h.session.registers
    let after := (h.call c).2.session
    (∀ answer, (h.call c).1 = .ok answer → after.registers = c.script.settle before) ∧
    ∃ made : List (Attempt σ), after.device.attempts = h.session.device.attempts ++ made ∧
      (∀ moment ∈ made.map (fun a => registers a.device) ++ [after.registers],
        moment .matchValid 0 = 1 →
          before.SameConfig moment ∨ (c.script.settle before).SameConfig moment) ∧
      (∀ e, (h.call c).1 = .error e →
        (∃ a ∈ made, a.access = .write .matchValid 0 0 ∧ a.result = .ok ()) →
          after.registers .matchValid 0 = 0) ∧
      ∀ a ∈ made, ∃ g index value, a.access = .write g index value ∧
        g ≠ .handlerValid ∧ g.isHandlerConfig = false := by
  intro before after
  have hafter : after = (h.session.perform c.script).2 := h.session_call c
  obtain ⟨done, made, ht⟩ := h.session.exists_trace c.script
  obtain ⟨rest, hsplit⟩ := ht.beginning
  have hregisters : after.registers = done.settle before := by
    rw [hafter]
    exact ht.registers
  refine ⟨fun answer hok => Host.registers_call hok, made, by rw [hafter]; exact ht.attempts,
    ?_, ?_, ?_⟩
  · intro moment hm hon
    rcases List.mem_append.1 hm with hm | hm
    · obtain ⟨a, ha, rfl⟩ := List.mem_map.1 hm
      obtain ⟨first, step, more, hscript, -, hseen, -⟩ := ht.step a ha
      rw [hseen] at hon ⊢
      rcases LoaderCall.sameConfig_of_started hscript before hon with hsame | hnil
      · exact Or.inl hsame
      · cases hnil
    · obtain rfl := List.mem_singleton.1 hm
      rw [hregisters] at hon ⊢
      rcases LoaderCall.sameConfig_of_started hsplit.symm before hon with hsame | rfl
      · exact Or.inl hsame
      · rw [← hsplit, List.append_nil]
        exact Or.inr fun _ _ _ => rfl
  · rintro e he ⟨a, ha, haccess, hresult⟩
    obtain ⟨first, step, more, -, hstep, -, hdone⟩ := ht.step a ha
    obtain rfl : step = .write .matchValid 0 0 := by
      rw [haccess] at hstep
      cases step <;> cases hstep
      rfl
    have hm : Step.write .matchValid 0 0 ∈ done := (hdone hresult).subset (by simp)
    rw [hregisters]
    rcases LoaderCall.disabled_of_started hc hsplit.symm hm before with hoff | rfl
    · exact hoff
    · -- A call of which every step took effect does not fail.
      rw [List.append_nil] at hsplit
      have hnil := Host.script_eq_nil_of_error hc he (ht.result.2 hsplit)
      rw [hsplit, hnil] at hm
      cases hm
  · intro a ha
    obtain ⟨first, step, more, hscript, hstep, -, -⟩ := ht.step a ha
    have hm : step ∈ c.script := by simp [hscript]
    obtain ⟨g, index, value, rfl, hg⟩ := LoaderCall.write_of_mem_script hc hm
    exact ⟨g, index, value, (Option.some.inj hstep).symm, hg⟩

/-- A programming fails at its tenth write, on a device whose engine is enabled with the slots of
power-on. The engine stays disabled, so that the half-written slot takes no packet. -/
theorem engine_switched_at_once_half_written :
    let device := (Simulator.powerOn.setRegister .matchValid 0 1).setRegister .handlerValid 0 1
    let h := Host.of (lockedSession (Recorded.of ((Faulty.of device).follow (.nthWrite 10))))
    h.session.registers .matchValid 0 = 1 ∧ ¬ (LoaderCall.program [.slmp]).IsLoad ∧
      (h.call (.program [.slmp])).1 = .error (.transfer .chosenWrite) ∧
      (h.call (.program [.slmp])).2.session.device.attempts.length = 10 ∧
      (h.call (.program [.slmp])).2.session.registers .matchValid 0 = 0 := by
  intro device h
  obtain ⟨-, made, hattempts, -, hfailed, -⟩ :=
    engine_switched_at_once h (c := .program [.slmp]) id
  have hmade : made = (h.call (.program [.slmp])).2.session.device.attempts := hattempts.symm
  have hfirst : ⟨(Faulty.of device).follow (.nthWrite 10), .write .matchValid 0 0⟩ ∈ made := by
    rw [hmade]
    exact List.mem_of_getElem? (i := 0) rfl
  exact ⟨rfl, id, rfl, rfl, hfailed _ rfl ⟨_, hfirst, rfl, rfl⟩⟩

end PacketOffload
