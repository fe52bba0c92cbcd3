import PacketOffload.Proofs.Device.Interrupted
import PacketOffload.Proofs.Loading.Acceptance

/-!
# Loads that are interrupted

An access of a load can fail at any point. The load then stops where it is: what it did is a
beginning of the whole load, its fault names the stage that the access belongs to, and the context is
left in the progress of this stage.

Main statements: an interrupted load is a beginning of the whole one
(`Loader.load_of_interrupted`); a context counts as enabled after a load exactly if the load went
through (`Loader.state_load_eq_enabled_iff`); and all together (`load_stops_at`).
-/

namespace PacketOffload

/-! ## What reaches the device -/

namespace Session

variable {σ : Type} [Transport σ] {s : Session (Recorded σ)}

/-- A step that goes through brings its access to the device. -/
theorem attempts_performStep {step : Step} (h : (s.performStep step).1 = .ok ()) :
    ∃ a, step.access? = some a ∧ (s.performStep step).2.device.attempts =
      s.device.attempts ++ [⟨s.device.device, a⟩] := by
  obtain ⟨a, ha⟩ := accept_of_ok h
  rw [performStep_of_accepted ha]
  refine ⟨a, access?_of_accept ha, ?_⟩
  cases a <;> rfl

/-- What a script that goes through brings to the device, one access for each step; the device is at
each of them as the steps before left it. -/
theorem attempts_perform {script : Script} (h : (s.perform script).1 = .ok ()) :
    ∃ made : List (Attempt σ), made.map (fun a => some a.access) = script.map Step.access? ∧
      (s.perform script).2.device.attempts = s.device.attempts ++ made ∧
      ∀ (n : Nat) (hn : n < made.length), (s.perform (script.take n)).2.device =
        ⟨made[n].device, s.device.attempts ++ made.take n⟩ := by
  induction script generalizing s with
  | nil => exact ⟨[], rfl, (List.append_nil _).symm, nofun⟩
  | cons step rest ih =>
    obtain ⟨hs, hrest⟩ := perform_cons_eq_ok_iff.1 h
    obtain ⟨a, hstep, hattempt⟩ := attempts_performStep hs
    obtain ⟨made, haccess, hall, hpart⟩ := ih hrest
    refine ⟨⟨s.device.device, a⟩ :: made, by simp [haccess, hstep], ?_, ?_⟩
    · rw [perform_cons_of_ok hs, hall, hattempt, List.append_assoc]
      rfl
    · intro n hn
      cases n with
      | zero => simp [perform]
      | succ n =>
        rw [List.take_succ_cons, perform_cons_of_ok hs, hpart n (Nat.lt_of_succ_lt_succ hn),
          hattempt, List.append_assoc]
        rfl

end Session

/-! ## Loads that stop -/

namespace Loader

variable {σ : Type} [Transport σ] {s : Session σ} {image : FirmwareImage} {ctx : Nat}
  {host : HostAperture}

/-- A load of which one access fails, while the whole load would go through, is stopped by the fault
in the stage of this access. The device and the session are where the steps before it brought them,
and no further access will fail. -/
theorem load_of_interrupted (l : Loader) (hc : ctx < numContexts)
    (hok : (s.perform (loadScript image ctx host)).1 = .ok ()) {n : Nat}
    (hn : n < (loadSteps image ctx host).length) (e : Fault) :
    l.load (s.interrupted (some n) e) image ctx host =
      (.error (.loadFailed ctx (loadSteps image ctx host)[n].1 e),
        l.setState ctx (loadSteps image ctx host)[n].1.progress,
        (s.perform ((loadScript image ctx host).take n)).2.interrupted none e) := by
  have hsplit : loadSteps image ctx host = (loadSteps image ctx host).take n ++
      (loadSteps image ctx host)[n] :: (loadSteps image ctx host).drop (n + 1) := by
    rw [List.getElem_cons_drop, List.take_append_drop]
  have hbefore : ((loadSteps image ctx host).take n).map Prod.snd =
      (loadScript image ctx host).take n := by
    rw [List.map_take, map_snd_loadSteps]
  have hscript : loadScript image ctx host = (loadScript image ctx host).take n ++
      (loadSteps image ctx host)[n].2 :: ((loadSteps image ctx host).drop (n + 1)).map Prod.snd := by
    rw [← hbefore, ← List.map_cons, ← List.map_append, ← hsplit, map_snd_loadSteps]
  rw [hscript] at hok
  obtain ⟨hfirst, hrest⟩ := Session.perform_split hok
  have hlength : ((loadScript image ctx host).take n).length + 0 = n := by
    rw [← hbefore, List.length_map, List.length_take]
    omega
  -- The accesses of the steps before are spared, and then none is.
  have hspared := Session.perform_spared hfirst 0 e
  rw [hlength] at hspared
  have hstruck := Session.performStep_struck (Session.perform_cons_eq_ok_iff.1 hrest).1 e
  exact load_of_failed l hc hsplit (hbefore.symm ▸ hspared) hstruck

/-- A context counts as enabled after a load exactly if the load went through. -/
theorem state_load_eq_enabled_iff (l : Loader) (s : Session σ) (image : FirmwareImage)
    (hc : ctx < numContexts) (host : HostAperture) :
    (l.load s image ctx host).2.1.state ctx = .enabled ↔
      ∃ context, (l.load s image ctx host).1 = .ok context := by
  cases hp : (s.perform (loadScript image ctx host)).1 with
  | ok =>
    obtain ⟨context, -, hload⟩ := l.load_of_performed hc hp
    simp [hload, state_setState]
  | error e =>
    rw [← map_snd_loadSteps] at hp
    obtain ⟨before, stage, step, after, t, u, hsplit, hbefore, hstep⟩ :=
      Session.exists_failed_of_perform hp
    have hload := l.load_of_failed hc hsplit hbefore hstep
    have hprogress : stage.progress ≠ .enabled := by
      cases stage <;> decide
    simp [hload, state_setState, hprogress]

theorem state_unload_of_ne (l : Loader) (s : Session σ) {ctx other : Nat} (h : other ≠ ctx) :
    (l.unload s ctx).2.1.state other = l.state other := by
  unfold unload
  split
  · rfl
  · split <;> simp [state_setState, h]

/-- An unload that fails changes no progress. -/
theorem unload_of_error {l : Loader} {s : Session σ} {e : Fault}
    (h : (l.unload s ctx).1 = .error e) : (l.unload s ctx).2.1 = l := by
  unfold unload at h ⊢
  split at h
  · rfl
  · split at h
    · cases h
    · rfl

end Loader

/-- **Where a load stops.** If one access of a load that would go through fails, with whatever fault
and without effect, then the accesses that took effect are those before it and the device is left as
they left it, the load fails with the fault in the stage of the access, and the context is left in
the progress of this stage. On any transport a context counts as enabled after a load exactly if the
load went through, no call changes the progress of another context, and an unload that fails changes
none. -/
theorem load_stops_at {σ : Type} [Transport σ] (l : Loader) (s : Session (Recorded σ))
    (hd : Reliable s.device) {image : FirmwareImage} (hi : image.Loadable) {ctx : Nat}
    (hc : ctx < numContexts) (host : HostAperture) :
    (∃ made : List (Attempt σ),
      (∃ context, (l.load s image ctx host).1 = .ok context) ∧
      (l.load s image ctx host).2.2.device.attempts = s.device.attempts ++ made ∧
      made.map (fun a => some a.access) =
        (loadSteps image ctx host).map (fun step => step.2.access?) ∧
      ∀ (n : Nat) (hn : n < made.length) (e : Fault),
        ∃ stage, ((loadSteps image ctx host)[n]?).map Prod.fst = some stage ∧
          let stopped := l.load (s.interrupted (some n) e) image ctx host
          stopped.1 = .error (.loadFailed ctx stage e) ∧
          stopped.2.2.device.device = ⟨made[n].device, s.device.attempts ++ made.take n⟩ ∧
          stopped.2.1.state ctx =
            match stage with
            | .reset => .unloaded
            | .writeSections => .fetchDisabled
            | .enableFetch | .disableHandlers | .programHandlers | .programApertures =>
              .sectionsWritten
            | .enable => .handlersProgrammed) ∧
    ∀ (τ : Type) [Transport τ] (l : Loader) (t : Session τ) (image : FirmwareImage)
      (host : HostAperture),
      ((l.load t image ctx host).2.1.state ctx = .enabled ↔
        ∃ context, (l.load t image ctx host).1 = .ok context) ∧
      (∀ any other, other ≠ any →
        (l.load t image any host).2.1.state other = l.state other ∧
          (l.unload t any).2.1.state other = l.state other) ∧
      ∀ e, (l.unload t ctx).1 = .error e → (l.unload t ctx).2.1.state ctx = l.state ctx := by
  constructor
  · have hok := s.result_loadable hd hi hc host
    obtain ⟨context, -, hload⟩ := l.load_of_performed hc hok
    obtain ⟨made, haccess, hall, hpart⟩ := Session.attempts_perform hok
    have hsteps : made.map (fun a => some a.access) =
        (loadSteps image ctx host).map (fun step => step.2.access?) := by
      rw [haccess, ← map_snd_loadSteps, List.map_map]
      rfl
    have hlength : made.length = (loadSteps image ctx host).length := by
      have := congrArg List.length hsteps
      simpa only [List.length_map] using this
    refine ⟨made, ?_, ?_, hsteps, ?_⟩
    · exact ⟨_, congrArg Prod.fst hload⟩
    · rw [hload, hall]
    · intro n hn e
      have hn' : n < (loadSteps image ctx host).length := hlength ▸ hn
      refine ⟨(loadSteps image ctx host)[n].1, by simp [hn'], ?_⟩
      rw [l.load_of_interrupted hc hok hn' e]
      refine ⟨rfl, hpart n hn, ?_⟩
      simp only [Loader.state_setState, if_true]
      cases (loadSteps image ctx host)[n].1 <;> rfl
  · intro τ _ l t image host
    refine ⟨l.state_load_eq_enabled_iff t image hc host, ?_, ?_⟩
    · intro any other hne
      exact ⟨l.state_load_of_ne t image host hne, l.state_unload_of_ne t hne⟩
    · intro e he
      rw [Loader.unload_of_error he]

/-- The sixth access of a load of the small image, which is to store the first word of its third
section, fails. Five accesses took effect. -/
theorem load_stops_at_third_section :
    Reliable (lockedSession (Recorded.of Simulator.powerOn)).device ∧ smallImage.Loadable ∧
      1 < numContexts ∧
      let stopped := Loader.fresh.load ((lockedSession (Recorded.of Simulator.powerOn)).interrupted
        (some 5) (.transfer .shortRead)) smallImage 1 ⟨0x123456000, 65536⟩
      stopped.1 = .error (.loadFailed 1 .writeSections (.transfer .shortRead)) ∧
        stopped.2.1.state 1 = .fetchDisabled ∧ stopped.2.2.device.device.attempts.length = 5 := by
  have hd : Reliable (lockedSession (Recorded.of Simulator.powerOn)).device :=
    Recorded.reliable (Simulator.reliable rfl)
  obtain ⟨⟨made, -, -, haccess, hstops⟩, -⟩ := load_stops_at Loader.fresh
    (lockedSession (Recorded.of Simulator.powerOn)) hd loadable_smallImage
    (show 1 < numContexts by decide) ⟨0x123456000, 65536⟩
  have hlength : made.length = 25 := by
    have := congrArg List.length haccess
    simp only [List.length_map] at this
    exact this
  obtain ⟨stage, hstage, hresult, hdevice, hstate⟩ := hstops 5 (by omega) (.transfer .shortRead)
  obtain rfl : LoadStage.writeSections = stage := Option.some.inj hstage
  refine ⟨hd, loadable_smallImage, by decide, hresult, hstate, ?_⟩
  rw [hdevice]
  simp [lockedSession, Recorded.of, hlength]

end PacketOffload
