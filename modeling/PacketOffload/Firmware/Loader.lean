import PacketOffload.Firmware.LoadPlan

/-!
# The firmware loader

The loader performs load plans stage by stage and remembers how far each context has come: a load
that fails leaves the device as it is then, and the context in the progress of the stage that
failed. The matching engine is programmed with all its slots at once, and an unload puts the
clusters back and closes the context's slot.

| here | operation |
| --- | --- |
| `checkContext` | `check_ctx` |
| `load`, `unload` | `load_image`, `unload_image` |
| `programRuleSets` | `program_rulesets` |

Main statement: a load leaves the progress of other contexts alone (`state_load_of_ne`).
-/

namespace PacketOffload

/-- Performs the scripts of stages up to the first one that fails. -/
def Session.performStages {σ : Type} [Transport σ] (s : Session σ) :
    List (LoadStage × Script) → Except (LoadStage × Fault) Unit × Session σ
  | [] => (.ok (), s)
  | (stage, script) :: rest =>
    match s.perform script with
    | (.ok (), s) => s.performStages rest
    | (.error e, s) => (.error (stage, e), s)

/-- The loader: how far each context has come. -/
structure Loader where
  state : (ctx : Nat) → LoadState

namespace Loader

def fresh : Loader := ⟨fun _ => .unloaded⟩

def setState (l : Loader) (ctx : Nat) (state : LoadState) : Loader :=
  ⟨fun other => if other = ctx then state else l.state other⟩

def checkContext (ctx : Nat) : Except Fault Unit :=
  if ctx < numContexts then .ok () else .error (.invalidArgument (.contextRange ctx))

variable {σ : Type} [Transport σ]

def load (l : Loader) (s : Session σ) (image : FirmwareImage) (ctx : Nat) (host : HostAperture) :
    Except Fault HandlerContext × Loader × Session σ :=
  match checkContext ctx with
  | .error e => (.error e, l, s)
  | .ok () =>
    match s.performStages (loadPlan image ctx host) with
    | (.error (stage, cause), s) =>
      (.error (.loadFailed ctx stage cause), l.setState ctx stage.progress, s)
    | (.ok (), s) => (loadedContext image ctx host, l.setState ctx .enabled, s)

def programRuleSets (s : Session σ) (sets : List RuleSet) : Except Fault Unit × Session σ :=
  if sets.length ≤ numRuleSets then s.perform (ruleSetScript sets)
  else (.error (.invalidArgument (.ruleSetCount sets.length)), s)

def unload (l : Loader) (s : Session σ) (ctx : Nat) : Except Fault Unit × Loader × Session σ :=
  match checkContext ctx with
  | .error e => (.error e, l, s)
  | .ok () =>
    match s.perform (unloadScript ctx) with
    | (.ok (), s) => (.ok (), l.setState ctx .unloaded, s)
    | (.error e, s) => (.error e, l, s)

theorem state_setState (l : Loader) (ctx other : Nat) (state : LoadState) :
    (l.setState ctx state).state other = if other = ctx then state else l.state other := rfl

theorem state_load_of_ne (l : Loader) (s : Session σ) (image : FirmwareImage) {ctx other : Nat}
    (host : HostAperture) (h : other ≠ ctx) :
    (l.load s image ctx host).2.1.state other = l.state other := by
  unfold load
  split
  · rfl
  · split <;> simp [state_setState, h]

end Loader

end PacketOffload
