import PacketOffload.Proofs.Device.Reliable

/-!
# Scripts, moment by moment

A session brings the accesses of a script to its device one by one, until an access fails or the
session stops a step itself. Between two accesses the device stands as the steps before left it,
and that is what anything that looks at the device meanwhile can see.

Main statements: what reached the device and what it showed each time (`Session.exists_trace`), and
that a script which the gates admit can only be ended by its device
(`Session.Trace.exists_failed`).
-/

namespace PacketOffload

variable {σ : Type} [Transport σ]

/-- What came of an access that reached a device. -/
def Attempt.result (a : Attempt σ) : Except Fault Unit := (a.access.make a.device).1

/-- An access goes through a record to the device, and is noted. -/
theorem Recorded.make_eq (r : Recorded σ) (a : Access) :
    a.make r = ((a.make r.device).1, ⟨(a.make r.device).2, r.note a⟩) := by
  cases a <;> rfl

namespace Session

/-! ## One step -/

theorem result_of_accepted {s : Session (Recorded σ)} {step : Step} {a : Access}
    (h : s.accept step = .ok a) : (s.performStep step).1 = (a.make s.device.device).1 := by
  rw [performStep_of_accepted h, make, Recorded.make_eq]

theorem attempts_of_accepted {s : Session (Recorded σ)} {step : Step} {a : Access}
    (h : s.accept step = .ok a) :
    (s.performStep step).2.device.attempts = s.device.attempts ++ [⟨s.device.device, a⟩] := by
  rw [performStep_of_accepted h, make, Recorded.make_eq]
  rfl

/-! ## Whole scripts -/

variable [RegisterView σ]

/-- What a session did of a script: the steps that took effect, and the accesses that reached the
device, of which the last one may have failed. -/
structure Trace (s : Session (Recorded σ)) (script done : Script) (made : List (Attempt σ)) :
    Prop where
  beginning : done <+: script
  performed : (s.perform done).1 = .ok ()
  attempts : (s.perform script).2.device.attempts = s.device.attempts ++ made
  registers : (s.perform script).2.registers = done.settle s.registers
  result : (s.perform script).1 = .ok () ↔ done = script
  /-- Each access is that of a step, and met what the steps before had left. If it succeeded, the
  step took effect. -/
  step : ∀ a ∈ made, ∃ (before : Script) (step : Step) (after : Script),
    script = before ++ step :: after ∧ step.access? = some a.access ∧
    RegisterView.registers a.device = before.settle s.registers ∧
    (a.result = .ok () → before ++ [step] <+: done)
  /-- An access that fails ends the script. -/
  failed : ∀ a ∈ made, ∀ e, a.result = .error e → (s.perform script).1 = .error e
  /-- A script is ended by an access that fails or by the session. -/
  ended : ∀ e, (s.perform script).1 = .error e → (∃ a ∈ made, a.result = .error e) ∨
    ∃ step rest, script = done ++ step :: rest ∧ (s.perform done).2.accept step = .error e

namespace Trace

variable {s : Session (Recorded σ)} {step : Step} {rest done : Script} {made : List (Attempt σ)}
  {a : Access} {e : Fault}

theorem nil : s.Trace [] [] [] :=
  ⟨List.prefix_rfl, rfl, (List.append_nil _).symm, rfl, by simp [perform], nofun, nofun, nofun⟩

/-- The session stops the first step itself. -/
theorem stopped (ha : s.accept step = .error e) : s.Trace (step :: rest) [] [] := by
  have hstop : s.perform (step :: rest) = (.error e, s) := by
    simp only [perform, performStep_of_stopped ha]
  refine ⟨List.nil_prefix, rfl, ?_, ?_, ?_, fun _ hb => absurd hb List.not_mem_nil,
    fun _ hb => absurd hb List.not_mem_nil, ?_⟩
  · rw [hstop, List.append_nil]
  · rw [hstop]
    rfl
  · rw [hstop]
    simp
  · intro f hf
    rw [hstop] at hf
    obtain rfl := Except.error.inj hf
    exact Or.inr ⟨step, rest, rfl, ha⟩

/-- The access of the first step reaches the device and fails there. -/
theorem struck (ha : s.accept step = .ok a) (hm : (a.make s.device.device).1 = .error e) :
    s.Trace (step :: rest) [] [⟨s.device.device, a⟩] := by
  have hfailed : (s.performStep step).1 = .error e := (result_of_accepted ha).trans hm
  have hregisters := s.registers_performStep step
  rw [hfailed] at hregisters
  refine ⟨List.nil_prefix, rfl, ?_, ?_, ?_, ?_, ?_, ?_⟩
  · rw [perform_cons_of_error hfailed, attempts_of_accepted ha]
  · rw [perform_cons_of_error hfailed]
    exact hregisters
  · rw [perform_cons_of_error hfailed]
    simp
  · intro b hb
    obtain rfl := List.mem_singleton.1 hb
    refine ⟨[], step, rest, rfl, access?_of_accept ha, rfl, fun hok => ?_⟩
    cases hm.symm.trans hok
  · intro b hb f hf
    obtain rfl := List.mem_singleton.1 hb
    obtain rfl := Except.error.inj (hm.symm.trans hf)
    rw [perform_cons_of_error hfailed]
  · intro f hf
    rw [perform_cons_of_error hfailed] at hf
    obtain rfl := Except.error.inj hf
    exact Or.inl ⟨_, List.mem_singleton_self _, hm⟩

/-- The first step takes effect, and the session goes on. -/
theorem cons (ha : s.accept step = .ok a) (hm : (a.make s.device.device).1 = .ok ())
    (ht : (s.performStep step).2.Trace rest done made) :
    s.Trace (step :: rest) (step :: done) (⟨s.device.device, a⟩ :: made) := by
  have hok : (s.performStep step).1 = .ok () := (result_of_accepted ha).trans hm
  have hregisters := s.registers_performStep step
  rw [hok] at hregisters
  have hsettle : Script.settle (step :: done) s.registers =
      done.settle (s.performStep step).2.registers := by
    rw [hregisters]
    rfl
  refine ⟨List.cons_prefix_cons.2 ⟨rfl, ht.beginning⟩, ?_, ?_, ?_, ?_, ?_, ?_, ?_⟩
  · rw [perform_cons_of_ok hok]
    exact ht.performed
  · rw [perform_cons_of_ok hok, ht.attempts, attempts_of_accepted ha, List.append_assoc]
    rfl
  · rw [perform_cons_of_ok hok, ht.registers, hsettle]
  · rw [perform_cons_of_ok hok, ht.result]
    simp
  · intro b hb
    rcases List.mem_cons.1 hb with rfl | hb
    · refine ⟨[], step, rest, rfl, access?_of_accept ha, rfl, fun _ => ?_⟩
      exact List.cons_prefix_cons.2 ⟨rfl, List.nil_prefix⟩
    · obtain ⟨before, other, after, rfl, haccess, hseen, hdone⟩ := ht.step b hb
      refine ⟨step :: before, other, after, rfl, haccess, ?_, fun hb => ?_⟩
      · rw [hseen, hregisters]
        rfl
      · exact List.cons_prefix_cons.2 ⟨rfl, hdone hb⟩
  · intro b hb f hf
    rw [perform_cons_of_ok hok]
    rcases List.mem_cons.1 hb with rfl | hb
    · cases hm.symm.trans hf
    · exact ht.failed b hb f hf
  · intro f hf
    rw [perform_cons_of_ok hok] at hf ⊢
    rcases ht.ended f hf with ⟨b, hb, hb'⟩ | ⟨other, left, rfl, hstop⟩
    · exact Or.inl ⟨b, List.mem_cons_of_mem _ hb, hb'⟩
    · exact Or.inr ⟨other, left, rfl, hstop⟩

end Trace

/-- A step is stopped by the session, fails at the device or takes effect. -/
theorem exists_trace (s : Session (Recorded σ)) (script : Script) :
    ∃ done made, s.Trace script done made := by
  induction script generalizing s with
  | nil => exact ⟨[], [], .nil⟩
  | cons step rest ih =>
    cases ha : s.accept step with
    | error e => exact ⟨[], [], .stopped ha⟩
    | ok a =>
      cases hm : (a.make s.device.device).1 with
      | error e => exact ⟨[], _, .struck ha hm⟩
      | ok =>
        obtain ⟨done, made, ht⟩ := ih (s.performStep step).2
        exact ⟨step :: done, _, .cons ha hm ht⟩

namespace Trace

variable {s : Session (Recorded σ)} {script done : Script} {made : List (Attempt σ)}

/-- A script that the gates admit and whose verdict is good fails at an access. -/
theorem exists_failed (ht : s.Trace script done made) (ha : script.Admitted s.gates)
    (hv : script.verdict = .ok ()) {e : Fault} (h : (s.perform script).1 = .error e) :
    ∃ a ∈ made, a.result = .error e := by
  rcases ht.ended e h with hfailed | ⟨step, rest, rfl, hstop⟩
  · exact hfailed
  · have hadmitted : step.Admitted (s.perform done).2.gates := by
      rw [gates_perform ht.performed]
      exact (Script.admitted_append.1 ha).2.1
    rcases accept_of_admitted hadmitted with ⟨a, haccept, -⟩ | ⟨f, -, hbad⟩
    · cases hstop.symm.trans haccept
    · rw [Script.verdict_eq_ok_iff.1 hv step (by simp)] at hbad
      cases hbad

end Trace

end Session

end PacketOffload
