import PacketOffload.Proofs.Device.Recorded

/-!
# Reliable devices

A reliable device takes every register write, and every store of a word inside the memory window,
whatever was done to it before. A session passes a step on to its device or objects to it: to a
register write by its check, to a store while the clusters are in reset. On a reliable device what
comes of a step that the session does not object to is known from the step alone, its verdict.

Main statements: a script to which the gates never object goes on a reliable device exactly as far
as its steps allow (`Session.perform_of_admitted`), and on any device the session is then never the
one that stops it (`Session.not_objects_of_admitted`).
-/

namespace PacketOffload

/-! ## Devices that take everything -/

section Reliable

variable {σ : Type} [Transport σ]

/-- Makes an access of a device. -/
def Access.make (d : σ) : Access → Except Fault Unit × σ
  | .write g index value => Transport.writeRegister d g index value
  | .store offset word => Transport.writeWord d offset word
  | .poke addr word => Transport.poke d addr word

/-- The device after accesses, whatever came of each. -/
def Access.makeAll (d : σ) (accesses : List Access) : σ :=
  accesses.foldl (fun d a => (a.make d).2) d

/-- A whole word of the memory window lies at an offset. -/
def InWindow (offset : Nat) : Prop := offset % 4 = 0 ∧ offset + 4 ≤ windowLength

instance (offset : Nat) : Decidable (InWindow offset) := inferInstanceAs (Decidable (_ ∧ _))

/-- A device that takes every register write and every store in the memory window, after whatever
accesses. -/
structure Reliable (d : σ) : Prop where
  write : ∀ (before : List Access) (g : RegisterGroup) (index : Nat) (value : UInt32),
    (Transport.writeRegister (Access.makeAll d before) g index value).1 = .ok ()
  store : ∀ (before : List Access) (offset : Nat) (word : UInt32), InWindow offset →
    (Transport.writeWord (Access.makeAll d before) offset word).1 = .ok ()

namespace Reliable

variable {d : σ}

theorem make (h : Reliable d) (a : Access) : Reliable (a.make d).2 :=
  ⟨fun before => h.write (a :: before), fun before => h.store (a :: before)⟩

theorem result_write (h : Reliable d) (g : RegisterGroup) (index : Nat) (value : UInt32) :
    (Transport.writeRegister d g index value).1 = .ok () := h.write [] g index value

theorem result_store (h : Reliable d) {offset : Nat} (hw : InWindow offset) (word : UInt32) :
    (Transport.writeWord d offset word).1 = .ok () := h.store [] offset word hw

/-- What every access keeps makes a device reliable, if it makes the next access succeed. -/
theorem of_kept {P : σ → Prop} (hd : P d) (hkept : ∀ (d : σ) (a : Access), P d → P (a.make d).2)
    (hwrite : ∀ (d : σ) (g : RegisterGroup) (index : Nat) (value : UInt32), P d →
      (Transport.writeRegister d g index value).1 = .ok ())
    (hstore : ∀ (d : σ) (offset : Nat) (word : UInt32), P d → InWindow offset →
      (Transport.writeWord d offset word).1 = .ok ()) : Reliable d := by
  have hall : ∀ before, P (Access.makeAll d before) := by
    intro before
    induction before generalizing d with
    | nil => exact hd
    | cons a rest ih => exact ih (hkept d a hd)
  exact ⟨fun before g index value => hwrite _ g index value (hall before),
    fun before offset word hw => hstore _ offset word (hall before) hw⟩

end Reliable

/-- The simulated device is reliable while it is told to refuse nothing. -/
theorem Simulator.reliable {d : Simulator} (h : d.failing = none) : Reliable d := by
  have hoffset : ∀ {offset : Nat}, InWindow offset → checkOffset offset = .ok () := by
    intro offset hw
    have hlt : offset < windowLength := by
      have := hw.2
      omega
    exact if_pos hlt
  refine Reliable.of_kept (P := fun d : Simulator => d.failing = none) h ?_ ?_ ?_
  · intro d a hd
    cases a with
    | write g index value =>
      simp [Access.make, Transport.writeRegister, writeRegister, hd, setRegister]
    | store offset word =>
      simp only [Access.make, Transport.writeWord]
      cases checkOffset offset <;> exact hd
    | poke addr word => exact hd
  · intro d g index value hd
    simp [Transport.writeRegister, writeRegister, hd]
  · intro d offset word _ hw
    simp [Transport.writeWord, hoffset hw]

/-- A record does not stand in the way. -/
theorem Recorded.reliable {r : Recorded σ} (h : Reliable r.device) : Reliable r := by
  refine Reliable.of_kept (P := fun r : Recorded σ => Reliable r.device) h ?_ ?_ ?_
  · intro r a hr
    cases a with
    | write g index value => exact hr.make (.write g index value)
    | store offset word => exact hr.make (.store offset word)
    | poke addr word => exact hr.make (.poke addr word)
  · intro r g index value hr
    exact hr.result_write g index value
  · intro r offset word hr hw
    exact hr.result_store hw word

end Reliable

/-! ## Scripts that the gates admit -/

/-- The gates after a step that took effect. -/
def Step.follow (gates : Gates) : Step → Gates
  | .write g index value => gates.apply g index value
  | .store _ _ => gates
  | .refuse _ => gates

/-- The gates stand open for a step. -/
def Step.Admitted (gates : Gates) : Step → Prop
  | .write g index value => g.checkWrite index value gates = .ok ()
  | .store _ _ => gates.inReset = false
  | .refuse _ => True

namespace Script

/-- The gates after a script of which every step took effect. -/
def follow (script : Script) (gates : Gates) : Gates := script.foldl Step.follow gates

/-- The gates stand open for each step of a script when its turn comes. -/
def Admitted : Script → Gates → Prop
  | [], _ => True
  | step :: rest, gates => step.Admitted gates ∧ Admitted rest (step.follow gates)

/-- The gates stand open for all steps of a script, and none of them moves a gate. -/
def Still (script : Script) (gates : Gates) : Prop :=
  ∀ step ∈ script, step.Admitted gates ∧ step.follow gates = gates

variable {first second script : Script} {gates : Gates}

theorem admitted_append :
    (first ++ second).Admitted gates ↔
      first.Admitted gates ∧ second.Admitted (first.follow gates) := by
  induction first generalizing gates with
  | nil => simp [Admitted, follow]
  | cons step rest ih =>
    simp only [List.cons_append, Admitted, and_assoc]
    exact and_congr_right fun _ => ih

theorem follow_append : (first ++ second).follow gates = second.follow (first.follow gates) :=
  List.foldl_append

theorem Still.admitted (h : script.Still gates) : script.Admitted gates := by
  induction script with
  | nil => trivial
  | cons step rest ih =>
    obtain ⟨⟨hstep, hgates⟩, hrest⟩ := List.forall_mem_cons.1 h
    refine ⟨hstep, ?_⟩
    rw [hgates]
    exact ih hrest

theorem Still.follow_eq (h : script.Still gates) : script.follow gates = gates := by
  induction script with
  | nil => rfl
  | cons step rest ih =>
    obtain ⟨⟨-, hgates⟩, hrest⟩ := List.forall_mem_cons.1 h
    have hcons : follow (step :: rest) gates = follow rest (step.follow gates) := rfl
    rw [hcons, hgates, ih hrest]

theorem Still.append (h : first.Still gates) (h' : second.Still gates) :
    (first ++ second).Still gates := List.forall_mem_append.2 ⟨h, h'⟩

end Script

/-! ## Verdicts -/

/-- What comes of a step on a reliable device, if the session does not object. -/
def Step.verdict : Step → Except Fault Unit
  | .write _ _ _ => .ok ()
  | .store offset _ => if InWindow offset then .ok () else .error (.memoryRange offset)
  | .refuse fault => .error fault

theorem Step.verdict_store_eq_ok_iff {offset : Nat} {word : UInt32} :
    (Step.store offset word).verdict = .ok () ↔ InWindow offset := by
  by_cases hw : InWindow offset <;> simp [verdict, hw]

/-- What comes of a script on a reliable device, if the session does not object. -/
def Script.verdict : Script → Except Fault Unit
  | [] => .ok ()
  | step :: rest =>
    match step.verdict with
    | .ok () => Script.verdict rest
    | .error e => .error e

namespace Script

variable {script : Script}

theorem verdict_eq_ok_iff : script.verdict = .ok () ↔ ∀ step ∈ script, step.verdict = .ok () := by
  induction script with
  | nil => simp [verdict]
  | cons step rest ih =>
    rw [verdict, List.forall_mem_cons]
    cases step.verdict with
    | error e => simp
    | ok => simp [ih]

theorem exists_of_verdict_eq_error {e : Fault} (h : script.verdict = .error e) :
    ∃ step ∈ script, step.verdict = .error e := by
  induction script with
  | nil => cases h
  | cons step rest ih =>
    rw [verdict] at h
    cases hs : step.verdict with
    | error f =>
      rw [hs] at h
      exact ⟨step, List.mem_cons_self, hs.trans h⟩
    | ok =>
      rw [hs] at h
      obtain ⟨other, hm, ho⟩ := ih h
      exact ⟨other, List.mem_cons_of_mem _ hm, ho⟩

end Script

/-! ## Sessions -/

/-- The gates after an access that took effect. -/
def Access.follow (gates : Gates) : Access → Gates
  | .write g index value => gates.apply g index value
  | .store _ _ => gates
  | .poke _ _ => gates

/-- The access that a step asks for. -/
def Step.access? : Step → Option Access
  | .write g index value => some (.write g index value)
  | .store offset word => some (.store offset word)
  | .refuse _ => none

namespace Session

variable {σ : Type} {s : Session σ} {step : Step}

/-- The access that a session makes for a step, if it does not stop the step itself. -/
def accept (s : Session σ) : Step → Except Fault Access
  | .write g index value =>
    match g.checkWrite index value s.gates with
    | .ok () => .ok (.write g index value)
    | .error e => .error e
  | .store offset word =>
    match s.checkMemory offset with
    | .ok () => .ok (.store offset word)
    | .error e => .error e
  | .refuse fault => .error fault

theorem access?_of_accept {a : Access} (h : s.accept step = .ok a) : step.access? = some a := by
  cases step with
  | write g index value =>
    simp only [accept] at h
    cases hc : g.checkWrite index value s.gates with
    | error e => rw [hc] at h; cases h
    | ok => rw [hc] at h; cases h; rfl
  | store offset word =>
    simp only [accept] at h
    cases hc : s.checkMemory offset with
    | error e => rw [hc] at h; cases h
    | ok => rw [hc] at h; cases h; rfl
  | refuse fault => cases h

/-- The session itself stops a step, whatever its device would do. -/
def Objects (s : Session σ) : Step → Prop
  | .write g index value => g.checkWrite index value s.gates ≠ .ok ()
  | .store _ _ => s.gates.inReset = true
  | .refuse _ => False

theorem not_objects_of_admitted_step (h : step.Admitted s.gates) : ¬ s.Objects step := by
  cases step with
  | write g index value => exact fun hne => hne h
  | store offset word =>
    intro hin
    have hopen : s.gates.inReset = false := h
    have hclosed : s.gates.inReset = true := hin
    rw [hopen] at hclosed
    cases hclosed
  | refuse fault => exact id

/-- A session accepts a step that the gates admit, if it can succeed at all. -/
theorem accept_of_admitted (h : step.Admitted s.gates) :
    (∃ a, s.accept step = .ok a ∧ step.verdict = .ok ()) ∨
      ∃ e, s.accept step = .error e ∧ step.verdict = .error e := by
  cases step with
  | write g index value =>
    have hc : g.checkWrite index value s.gates = .ok () := h
    exact Or.inl ⟨.write g index value, by simp [accept, hc], rfl⟩
  | store offset word =>
    have hopen : s.gates.inReset = false := h
    by_cases hw : InWindow offset
    · have hc : s.checkMemory offset = .ok () := checkMemory_eq_ok_iff.2 ⟨hopen, hw⟩
      exact Or.inl ⟨.store offset word, by simp [accept, hc],
        Step.verdict_store_eq_ok_iff.2 hw⟩
    · have hout : offset % 4 ≠ 0 ∨ windowLength < offset + 4 := by
        simp only [InWindow] at hw
        omega
      have hc : s.checkMemory offset = .error (.memoryRange offset) := by
        simp [checkMemory, hopen, hout]
      exact Or.inr ⟨.memoryRange offset, by simp [accept, hc], by
        rw [Step.verdict, if_neg hw]⟩
  | refuse fault => exact Or.inr ⟨fault, rfl, rfl⟩

variable [Transport σ]

/-- Makes an access of the device. The gates follow it if it went through. -/
def make (s : Session σ) (a : Access) : Except Fault Unit × Session σ :=
  ((a.make s.device).1,
    { s with
      device := (a.make s.device).2
      gates := match (a.make s.device).1 with
        | .ok () => a.follow s.gates
        | .error _ => s.gates })

theorem performStep_of_accepted {a : Access} (h : s.accept step = .ok a) :
    s.performStep step = s.make a := by
  cases step with
  | write g index value =>
    simp only [accept] at h
    cases hc : g.checkWrite index value s.gates with
    | error e => rw [hc] at h; cases h
    | ok =>
      rw [hc] at h
      cases h
      rw [performStep, write_of_checked hc, make]
      simp only [Access.make]
      cases (Transport.writeRegister s.device g index value).1 <;> rfl
  | store offset word =>
    simp only [accept] at h
    cases hc : s.checkMemory offset with
    | error e => rw [hc] at h; cases h
    | ok =>
      rw [hc] at h
      cases h
      rw [performStep, writeMemory_of_checked hc, make]
      simp only [Access.make]
      cases (Transport.writeWord s.device offset word).1 <;> rfl
  | refuse fault => cases h

theorem performStep_of_stopped {e : Fault} (h : s.accept step = .error e) :
    s.performStep step = (.error e, s) := by
  cases step with
  | write g index value =>
    simp only [accept] at h
    cases hc : g.checkWrite index value s.gates with
    | error f => rw [hc] at h; cases h; rw [performStep, write_of_refused hc]
    | ok => rw [hc] at h; cases h
  | store offset word =>
    simp only [accept] at h
    cases hc : s.checkMemory offset with
    | error f => rw [hc] at h; cases h; rw [performStep, writeMemory_of_refused hc]
    | ok => rw [hc] at h; cases h
  | refuse fault => cases h; rfl

/-- A step that goes through was accepted. -/
theorem accept_of_ok (h : (s.performStep step).1 = .ok ()) : ∃ a, s.accept step = .ok a := by
  cases ha : s.accept step with
  | ok a => exact ⟨a, rfl⟩
  | error e =>
    rw [performStep_of_stopped ha] at h
    cases h

/-- The gates of a session follow every step that took effect. -/
theorem gates_performStep (h : (s.performStep step).1 = .ok ()) :
    (s.performStep step).2.gates = step.follow s.gates := by
  obtain ⟨a, ha⟩ := accept_of_ok h
  rw [performStep_of_accepted ha] at h ⊢
  have hok : (a.make s.device).1 = .ok () := h
  have hstep := access?_of_accept ha
  cases step with
  | write g index value => cases hstep; simp only [make, hok]; rfl
  | store offset word => cases hstep; simp only [make, hok]; rfl
  | refuse fault => cases hstep

theorem perform_cons_of_ok (h : (s.performStep step).1 = .ok ()) (rest : Script) :
    s.perform (step :: rest) = (s.performStep step).2.perform rest := by
  rw [perform]
  revert h
  rcases s.performStep step with ⟨⟨e⟩ | ⟨⟨⟩⟩, t⟩ <;> intro h
  · cases h
  · rfl

theorem perform_cons_of_error {e : Fault} (h : (s.performStep step).1 = .error e)
    (rest : Script) : s.perform (step :: rest) = (.error e, (s.performStep step).2) := by
  rw [perform]
  revert h
  rcases s.performStep step with ⟨⟨f⟩ | ⟨⟨⟩⟩, t⟩ <;> intro h
  · obtain rfl := Except.error.inj h
    rfl
  · cases h

/-- A script goes through if its first step does and then the rest. -/
theorem perform_cons_eq_ok_iff {rest : Script} :
    (s.perform (step :: rest)).1 = .ok () ↔
      (s.performStep step).1 = .ok () ∧ ((s.performStep step).2.perform rest).1 = .ok () := by
  cases hs : (s.performStep step).1 with
  | error e => simp [perform_cons_of_error hs]
  | ok => simp [perform_cons_of_ok hs]

/-- Where a script goes through, its beginning does, and then the rest. -/
theorem perform_split {first second : Script} (h : (s.perform (first ++ second)).1 = .ok ()) :
    (s.perform first).1 = .ok () ∧ ((s.perform first).2.perform second).1 = .ok () := by
  rcases hf : s.perform first with ⟨⟨e⟩ | ⟨⟨⟩⟩, t⟩
  · rw [perform_append_of_error hf] at h
    cases h
  · rw [perform_append hf] at h
    exact ⟨rfl, h⟩

theorem gates_perform {script : Script} (h : (s.perform script).1 = .ok ()) :
    (s.perform script).2.gates = script.follow s.gates := by
  induction script generalizing s with
  | nil => rfl
  | cons step rest ih =>
    obtain ⟨hs, hrest⟩ := perform_cons_eq_ok_iff.1 h
    rw [perform_cons_of_ok hs, ih hrest, gates_performStep hs]
    rfl

/-- A session does not object to the next step of a script that its gates admit, whatever its
device did so far. -/
theorem not_objects_of_admitted {script before after : Script}
    (ha : script.Admitted s.gates) (hsplit : script = before ++ step :: after)
    (hbefore : (s.perform before).1 = .ok ()) : ¬ (s.perform before).2.Objects step := by
  rw [hsplit, Script.admitted_append] at ha
  refine not_objects_of_admitted_step ?_
  rw [gates_perform hbefore]
  exact ha.2.1

/-- A step that the gates admit comes on a reliable device to its verdict, and leaves the device
reliable. -/
theorem performStep_of_admitted (hd : Reliable s.device) (ha : step.Admitted s.gates) :
    (s.performStep step).1 = step.verdict ∧ Reliable (s.performStep step).2.device := by
  rcases accept_of_admitted ha with ⟨a, haccept, hv⟩ | ⟨e, haccept, hv⟩
  · rw [performStep_of_accepted haccept, hv]
    refine ⟨?_, hd.make a⟩
    have hstep := access?_of_accept haccept
    cases step with
    | write g index value => cases hstep; exact hd.result_write g index value
    | store offset word =>
      cases hstep
      exact hd.result_store (Step.verdict_store_eq_ok_iff.1 hv) word
    | refuse fault => cases hstep
  · rw [performStep_of_stopped haccept, hv]
    exact ⟨rfl, hd⟩

/-- A script that the gates admit comes on a reliable device to its verdict. -/
theorem perform_of_admitted {script : Script} (hd : Reliable s.device)
    (ha : script.Admitted s.gates) :
    (s.perform script).1 = script.verdict ∧ Reliable (s.perform script).2.device := by
  induction script generalizing s with
  | nil => exact ⟨rfl, hd⟩
  | cons step rest ih =>
    obtain ⟨hstep, hrest⟩ := ha
    obtain ⟨hresult, hdevice⟩ := performStep_of_admitted hd hstep
    rw [Script.verdict]
    cases hs : (s.performStep step).1 with
    | error e =>
      rw [perform_cons_of_error hs, ← hresult, hs]
      exact ⟨rfl, hdevice⟩
    | ok =>
      rw [perform_cons_of_ok hs, ← hresult, hs]
      rw [← gates_performStep hs] at hrest
      exact ih hdevice hrest

end Session

end PacketOffload
