import PacketOffload.Firmware.Loader
import PacketOffload.Proofs.Device.Registers

/-!
# A host at work

Everything that a host does to a device through one session and one loader, as data: register
accesses by name, accesses to the memory window, and calls of the loader. A run is a list of them.

Main statements: a call of the loader is the script of the call, performed (`session_call`), and
what every write and every store keeps, a run keeps (`run_keeps`).
-/

namespace PacketOffload

/-- What a loader is asked for. -/
inductive LoaderCall where
  | load (image : FirmwareImage) (ctx : Nat) (host : HostAperture)
  | unload (ctx : Nat)
  /-- Give the slots of the matching engine these rule sets. -/
  | program (sets : List RuleSet)

/-- What a host does next. -/
inductive Operation where
  | writeRegister (name : String) (index : Nat) (value : UInt32)
  | readRegister (name : String) (index : Nat)
  | writeWord (offset : Nat) (word : UInt32)
  | readWord (offset : Nat)
  | call (c : LoaderCall)

/-- What a host is told. -/
inductive Answer where
  | done
  | value (word : UInt32)
  | loaded (context : HandlerContext)
  deriving DecidableEq, Repr

/-- All that a call does to the device; nothing if the call is refused. -/
def LoaderCall.script : LoaderCall → Script
  | .load image ctx host =>
    if ctx < numContexts then (loadPlan image ctx host).flatMap Prod.snd else []
  | .unload ctx => if ctx < numContexts then unloadScript ctx else []
  | .program sets => if sets.length ≤ numRuleSets then ruleSetScript sets else []

theorem LoaderCall.script_unload {ctx : Nat} (h : ctx < numContexts) :
    (LoaderCall.unload ctx).script = unloadScript ctx := if_pos h

theorem LoaderCall.script_program {sets : List RuleSet} (h : sets.length ≤ numRuleSets) :
    (LoaderCall.program sets).script = ruleSetScript sets := if_pos h

/-- A host: its session on a device, and its loader. -/
structure Host (σ : Type) where
  session : Session σ
  loader : Loader

namespace Host

variable {σ : Type}

/-- A host that did nothing yet. -/
def of (session : Session σ) : Host σ := ⟨session, .fresh⟩

variable [Transport σ]

/-- Calls the loader. -/
def call (h : Host σ) : LoaderCall → Except Fault Answer × Host σ
  | .load image ctx host =>
    let (result, loader, session) := h.loader.load h.session image ctx host
    (result.map .loaded, ⟨session, loader⟩)
  | .unload ctx =>
    let (result, loader, session) := h.loader.unload h.session ctx
    (result.map fun _ => .done, ⟨session, loader⟩)
  | .program sets =>
    let (result, session) := Loader.programRuleSets h.session sets
    (result.map fun _ => .done, ⟨session, h.loader⟩)

/-- Does one thing. -/
def act (h : Host σ) : Operation → Except Fault Answer × Host σ
  | .writeRegister name index value =>
    let (result, session) := h.session.writeNamed name index value
    (result.map fun _ => .done, { h with session })
  | .readRegister name index => ((h.session.readNamed name index).map .value, h)
  | .writeWord offset word =>
    let (result, session) := h.session.writeMemory offset word
    (result.map fun _ => .done, { h with session })
  | .readWord offset => ((h.session.readMemory offset).map .value, h)
  | .call c => h.call c

/-- Does one thing after the other, whatever comes of each. -/
def run (h : Host σ) (operations : List Operation) : Host σ :=
  operations.foldl (fun h op => (h.act op).2) h

end Host

/-! ## Calls as scripts -/

namespace Session

variable {σ : Type} [Transport σ]

theorem performStages_eq (s : Session σ) (plan : List (LoadStage × Script)) :
    (s.performStages plan).2 = (s.perform (plan.flatMap Prod.snd)).2 ∧
      ((s.performStages plan).1 = .ok () ↔ (s.perform (plan.flatMap Prod.snd)).1 = .ok ()) := by
  induction plan generalizing s with
  | nil => exact ⟨rfl, by simp [performStages, perform]⟩
  | cons entry rest ih =>
    obtain ⟨stage, script⟩ := entry
    rw [List.flatMap_cons]
    unfold performStages
    rcases hp : s.perform script with ⟨⟨e⟩ | ⟨⟨⟩⟩, t⟩
    · rw [perform_append_of_error hp]
      simp
    · rw [perform_append hp]
      exact ih t

end Session

namespace Host

variable {σ : Type} [Transport σ]

/-- What a call does to the session is what its script does. -/
theorem session_call (h : Host σ) (c : LoaderCall) :
    (h.call c).2.session = (h.session.perform c.script).2 := by
  cases c with
  | load image ctx host =>
    by_cases hc : ctx < numContexts
    · obtain ⟨hstate, -⟩ := h.session.performStages_eq (loadPlan image ctx host)
      simp only [call, Loader.load, Loader.checkContext, LoaderCall.script, hc, if_true]
      rw [← hstate]
      rcases h.session.performStages (loadPlan image ctx host) with ⟨⟨stage, e⟩ | ⟨⟨⟩⟩, t⟩ <;> rfl
    · simp [call, Loader.load, Loader.checkContext, LoaderCall.script, hc, Session.perform]
  | unload ctx =>
    by_cases hc : ctx < numContexts
    · simp only [call, Loader.unload, Loader.checkContext, LoaderCall.script, hc, if_true]
      rcases h.session.perform (unloadScript ctx) with ⟨⟨e⟩ | ⟨⟨⟩⟩, t⟩ <;> rfl
    · simp [call, Loader.unload, Loader.checkContext, LoaderCall.script, hc, Session.perform]
  | program sets =>
    by_cases hl : sets.length ≤ numRuleSets
    · simp [call, Loader.programRuleSets, LoaderCall.script, hl]
    · simp [call, Loader.programRuleSets, LoaderCall.script, hl, Session.perform]

/-- What every write and every store keeps, whatever the host does keeps. -/
theorem act_keeps {P : Session σ → Prop}
    (hwrite : ∀ s g index value, P s → P (s.write g index value).2)
    (hstore : ∀ s offset word, P s → P (s.writeMemory offset word).2)
    {h : Host σ} (hp : P h.session) (op : Operation) : P (h.act op).2.session := by
  cases op with
  | writeRegister name index value =>
    simp only [act, Session.writeNamed]
    cases RegisterGroup.find name with
    | error e => exact hp
    | ok g => exact hwrite h.session g index value hp
  | readRegister name index => exact hp
  | writeWord offset word => exact hstore h.session offset word hp
  | readWord offset => exact hp
  | call c =>
    simp only [act, session_call]
    exact Session.perform_keeps hwrite hstore c.script hp

theorem run_keeps {P : Session σ → Prop}
    (hwrite : ∀ s g index value, P s → P (s.write g index value).2)
    (hstore : ∀ s offset word, P s → P (s.writeMemory offset word).2)
    {h : Host σ} (hp : P h.session) (operations : List Operation) :
    P (h.run operations).session := by
  induction operations generalizing h with
  | nil => exact hp
  | cons op rest ih => exact ih (act_keeps hwrite hstore hp op)

end Host

end PacketOffload
