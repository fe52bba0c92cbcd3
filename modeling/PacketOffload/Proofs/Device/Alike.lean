import PacketOffload.Proofs.Device.Reliable

/-!
# Devices that no host can tell apart

Two devices may be reached in different ways and keep their state in different forms. A host cannot
tell them apart if every access that a session lets through has the same outcome on both, and leaves
states that correspond again. What a session refuses by itself does not matter.

Main statements: a step and a script have the same outcome on both (`performStep_alike`,
`perform_alike`), and so has whatever a host does, one thing after the other (`act_alike`,
`work_alike`).
-/

namespace PacketOffload

/-! ## Correspondence -/

/-- The same outcome, and states that correspond. -/
def SameOutcome {α σ τ : Type} (R : σ → τ → Prop) (x : α × σ) (y : α × τ) : Prop :=
  x.1 = y.1 ∧ R x.2 y.2

theorem SameOutcome.exists_eq {α σ τ : Type} {R : σ → τ → Prop} {x : α × σ} {y : α × τ}
    (h : SameOutcome R x y) : ∃ a s t, x = (a, s) ∧ y = (a, t) ∧ R s t :=
  ⟨x.1, x.2, y.2, rfl, Prod.ext h.1.symm rfl, h.2⟩

/-- States of devices that correspond have the same outcomes, of every access to a register of a
group and to a word of the memory window. -/
structure Alike {σ τ : Type} [Transport σ] [Transport τ] (R : σ → τ → Prop) : Prop where
  readRegister : ∀ {d e}, R d e → ∀ {g : RegisterGroup} {index}, index < g.count →
    Transport.readRegister d g index = Transport.readRegister e g index
  writeRegister : ∀ {d e}, R d e → ∀ {g : RegisterGroup} {index}, index < g.count → ∀ value,
    SameOutcome R (Transport.writeRegister d g index value) (Transport.writeRegister e g index value)
  readWord : ∀ {d e}, R d e → ∀ {offset}, InWindow offset →
    Transport.readWord d offset = Transport.readWord e offset
  writeWord : ∀ {d e}, R d e → ∀ {offset}, InWindow offset → ∀ word,
    SameOutcome R (Transport.writeWord d offset word) (Transport.writeWord e offset word)

/-- Two sessions that differ in their devices only, and these correspond. -/
def Session.Corresponds {σ τ : Type} (R : σ → τ → Prop) (s : Session σ) (t : Session τ) : Prop :=
  ∃ device, R s.device device ∧ t = { s with device }

/-- Two hosts with sessions that correspond and the same loader. -/
structure Host.Corresponds {σ τ : Type} (R : σ → τ → Prop) (h : Host σ) (k : Host τ) : Prop where
  session : h.session.Corresponds R k.session
  loader : h.loader = k.loader

/-! ## Actions -/

/-- What is done with a device: a new session begins on it, or its host acts. -/
inductive Action where
  | start (ctx : Nat)
  | act (operation : Operation)

namespace Host

variable {σ : Type} [Transport σ]

/-- Does one thing. A session that cannot begin leaves the one before. -/
def follow (h : Host σ) : Action → Except Fault Answer × Host σ
  | .start ctx =>
    match Session.start h.session.device ctx with
    | .ok session => (.ok .done, { h with session })
    | .error e => (.error e, h)
  | .act operation => h.act operation

/-- Does one thing after the other, and keeps the answers. -/
def work (h : Host σ) : List Action → List (Except Fault Answer) × Host σ
  | [] => ([], h)
  | action :: rest =>
    let (answer, h) := h.follow action
    let (answers, h) := h.work rest
    (answer :: answers, h)

end Host

/-! ## Sessions -/

namespace Session

variable {σ τ : Type} [Transport σ] [Transport τ] {R : σ → τ → Prop} {s : Session σ} {t : Session τ}

theorem start_alike (hR : Alike R) {d : σ} {e : τ} (h : R d e) (ctx : Nat) :
    (∃ f, start d ctx = .error f ∧ start e ctx = .error f) ∨
      ∃ s t, start d ctx = .ok s ∧ start e ctx = .ok t ∧ s.Corresponds R t := by
  have hreset := hR.readRegister h (show resetIndex < RegisterGroup.count .clusterControl by decide)
  have hmatch := hR.readRegister h (show 0 < RegisterGroup.count .matchValid by decide)
  have hhandlers := hR.readRegister h (show 0 < RegisterGroup.count .handlerValid by decide)
  unfold start
  rw [← hreset, ← hmatch, ← hhandlers]
  cases Transport.readRegister d .clusterControl resetIndex with
  | error f => exact Or.inl ⟨f, rfl, rfl⟩
  | ok reset =>
    cases Transport.readRegister d .matchValid 0 with
    | error f => exact Or.inl ⟨f, rfl, rfl⟩
    | ok matching =>
      cases Transport.readRegister d .handlerValid 0 with
      | error f => exact Or.inl ⟨f, rfl, rfl⟩
      | ok handlers => exact Or.inr ⟨_, _, rfl, rfl, e, h, rfl⟩

theorem readNamed_alike (hR : Alike R) (h : s.Corresponds R t) (name : String) (index : Nat) :
    s.readNamed name index = t.readNamed name index := by
  obtain ⟨e, hd, rfl⟩ := h
  unfold readNamed read
  cases RegisterGroup.find name with
  | error f => rfl
  | ok g =>
    by_cases hi : index < g.count
    · simp only [RegisterGroup.checkIndex, if_pos hi, bind, Except.bind, hR.readRegister hd hi]
    · simp only [RegisterGroup.checkIndex, if_neg hi, bind, Except.bind]

theorem write_alike (hR : Alike R) (h : s.Corresponds R t) (g : RegisterGroup) (index : Nat)
    (value : UInt32) :
    SameOutcome (Corresponds R) (s.write g index value) (t.write g index value) := by
  obtain ⟨e, hd, rfl⟩ := h
  unfold write
  cases hc : g.checkWrite index value s.gates with
  | error f => exact ⟨rfl, e, hd, rfl⟩
  | ok =>
    obtain ⟨hi, -⟩ := RegisterGroup.checkWrite_eq_ok_iff.1 hc
    obtain ⟨result, d', e', hs, ht, hstates⟩ := (hR.writeRegister hd hi value).exists_eq
    simp only [hs, ht]
    cases result with
    | error f => exact ⟨rfl, e', hstates, rfl⟩
    | ok => exact ⟨rfl, e', hstates, rfl⟩

theorem readMemory_alike (hR : Alike R) (h : s.Corresponds R t) (offset : Nat) :
    s.readMemory offset = t.readMemory offset := by
  obtain ⟨e, hd, rfl⟩ := h
  unfold readMemory
  have hsame : checkMemory { s with device := e } offset = s.checkMemory offset := rfl
  rw [hsame]
  cases hc : s.checkMemory offset with
  | error f => rfl
  | ok =>
    obtain ⟨-, hin⟩ := checkMemory_eq_ok_iff.1 hc
    exact hR.readWord hd hin

theorem writeMemory_alike (hR : Alike R) (h : s.Corresponds R t) (offset : Nat) (word : UInt32) :
    SameOutcome (Corresponds R) (s.writeMemory offset word) (t.writeMemory offset word) := by
  obtain ⟨e, hd, rfl⟩ := h
  unfold writeMemory
  have hsame : checkMemory { s with device := e } offset = s.checkMemory offset := rfl
  rw [hsame]
  cases hc : s.checkMemory offset with
  | error f => exact ⟨rfl, e, hd, rfl⟩
  | ok =>
    obtain ⟨-, hin⟩ := checkMemory_eq_ok_iff.1 hc
    obtain ⟨hresult, hstates⟩ := hR.writeWord hd hin word
    exact ⟨hresult, _, hstates, rfl⟩

/-! ## Scripts -/

theorem performStep_alike (hR : Alike R) (h : s.Corresponds R t) (step : Step) :
    SameOutcome (Corresponds R) (s.performStep step) (t.performStep step) := by
  cases step with
  | write g index value => exact write_alike hR h g index value
  | store offset word => exact writeMemory_alike hR h offset word
  | refuse fault => exact ⟨rfl, h⟩

theorem perform_alike (hR : Alike R) (h : s.Corresponds R t) (script : Script) :
    SameOutcome (Corresponds R) (s.perform script) (t.perform script) := by
  induction script generalizing s t with
  | nil => exact ⟨rfl, h⟩
  | cons step rest ih =>
    obtain ⟨result, s', t', hs, ht, hstates⟩ := (performStep_alike hR h step).exists_eq
    simp only [perform, hs, ht]
    cases result with
    | error f => exact ⟨rfl, hstates⟩
    | ok => exact ih hstates

theorem performStages_alike (hR : Alike R) (h : s.Corresponds R t)
    (plan : List (LoadStage × Script)) :
    SameOutcome (Corresponds R) (s.performStages plan) (t.performStages plan) := by
  induction plan generalizing s t with
  | nil => exact ⟨rfl, h⟩
  | cons entry rest ih =>
    obtain ⟨stage, script⟩ := entry
    obtain ⟨result, s', t', hs, ht, hstates⟩ := (perform_alike hR h script).exists_eq
    simp only [performStages, hs, ht]
    cases result with
    | error f => exact ⟨rfl, hstates⟩
    | ok => exact ih hstates

end Session

/-! ## Hosts -/

namespace Host

variable {σ τ : Type} [Transport σ] [Transport τ] {R : σ → τ → Prop} {h : Host σ} {k : Host τ}

theorem call_alike (hR : Alike R) (hh : h.Corresponds R k) (c : LoaderCall) :
    SameOutcome (Corresponds R) (h.call c) (k.call c) := by
  obtain ⟨s, l⟩ := h
  obtain ⟨t, l'⟩ := k
  obtain ⟨hs, rfl⟩ := hh
  dsimp only at hs
  cases c with
  | load image ctx host =>
    obtain ⟨result, s', t', hperform, hperform', hstates⟩ :=
      (Session.performStages_alike hR hs (loadPlan image ctx host)).exists_eq
    simp only [call, Loader.load, hperform, hperform']
    cases Loader.checkContext ctx with
    | error f => exact ⟨rfl, hs, rfl⟩
    | ok =>
      cases result with
      | error f => exact ⟨rfl, hstates, rfl⟩
      | ok => exact ⟨rfl, hstates, rfl⟩
  | unload ctx =>
    obtain ⟨result, s', t', hperform, hperform', hstates⟩ :=
      (Session.perform_alike hR hs (unloadScript ctx)).exists_eq
    simp only [call, Loader.unload, hperform, hperform']
    cases Loader.checkContext ctx with
    | error f => exact ⟨rfl, hs, rfl⟩
    | ok =>
      cases result with
      | error f => exact ⟨rfl, hstates, rfl⟩
      | ok => exact ⟨rfl, hstates, rfl⟩
  | program sets =>
    simp only [call, Loader.programRuleSets]
    split
    · obtain ⟨hsame, hstates⟩ := Session.perform_alike hR hs (ruleSetScript sets)
      exact ⟨congrArg (Except.map fun _ => Answer.done) hsame, hstates, rfl⟩
    · exact ⟨rfl, hs, rfl⟩

theorem act_alike (hR : Alike R) (hh : h.Corresponds R k) (operation : Operation) :
    SameOutcome (Corresponds R) (h.act operation) (k.act operation) := by
  obtain ⟨hs, hl⟩ := hh
  cases operation with
  | writeRegister name index value =>
    simp only [act, Session.writeNamed]
    cases RegisterGroup.find name with
    | error f => exact ⟨rfl, hs, hl⟩
    | ok g =>
      obtain ⟨hsame, hstates⟩ := Session.write_alike hR hs g index value
      exact ⟨congrArg (Except.map fun _ => Answer.done) hsame, hstates, hl⟩
  | readRegister name index =>
    exact ⟨congrArg (Except.map Answer.value) (Session.readNamed_alike hR hs name index), hs, hl⟩
  | writeWord offset word =>
    obtain ⟨hsame, hstates⟩ := Session.writeMemory_alike hR hs offset word
    exact ⟨congrArg (Except.map fun _ => Answer.done) hsame, hstates, hl⟩
  | readWord offset =>
    exact ⟨congrArg (Except.map Answer.value) (Session.readMemory_alike hR hs offset), hs, hl⟩
  | call c => exact call_alike hR ⟨hs, hl⟩ c

theorem follow_alike (hR : Alike R) (hh : h.Corresponds R k) (action : Action) :
    SameOutcome (Corresponds R) (h.follow action) (k.follow action) := by
  cases action with
  | start ctx =>
    have hdevice : R h.session.device k.session.device := by
      obtain ⟨e, he, hk⟩ := hh.session
      rw [hk]
      exact he
    unfold follow
    rcases Session.start_alike hR hdevice ctx with ⟨f, hs, ht⟩ | ⟨s, t, hs, ht, hst⟩
    · simp only [hs, ht]
      exact ⟨rfl, hh⟩
    · simp only [hs, ht]
      exact ⟨rfl, hst, hh.loader⟩
  | act operation => exact act_alike hR hh operation

theorem work_alike (hR : Alike R) (hh : h.Corresponds R k) (actions : List Action) :
    SameOutcome (Corresponds R) (h.work actions) (k.work actions) := by
  induction actions generalizing h k with
  | nil => exact ⟨rfl, hh⟩
  | cons action rest ih =>
    obtain ⟨hanswer, hstates⟩ := follow_alike hR hh action
    obtain ⟨hanswers, hend⟩ := ih hstates
    refine ⟨?_, hend⟩
    rw [work, work]
    exact List.cons_eq_cons.2 ⟨hanswer, hanswers⟩

end Host

end PacketOffload
