import PacketOffload.Firmware.Loader
import PacketOffload.Ring.FlagRing

/-!
# Running contexts

A context runs once its DMA buffer is mapped, its firmware loaded, the matching engine programmed
and the words for responses found. A start that fails after the buffer was mapped takes the firmware
off the device again.

| here | operation |
| --- | --- |
| `start`, `bringUp`, `cleanUp` | `init`, `bring_up`, and what `init` does when that fails |
| `attachRing` | `ring_with`; `ring` with the standard geometry |
| `programRuleSets` | `program_rulesets` |
| `averageCycles` | `avg_cycles` |
| `exit` | `exit` |
| `describe` | the text that shows a context to a developer |

Main statement: the words for responses of a started context lie in the level-2 memory
(`l2Base_le_of_findHostFlags`).
-/

namespace PacketOffload

structure Context (σ : Type) where
  session : Session σ
  loader : Loader
  handlers : HandlerContext
  /-- Address of the words through which the host answers. -/
  hostFlagBase : Nat

/-- The address of the words through which the host answers, which lies in the level-2 memory or
after it. -/
def findHostFlags (image : FirmwareImage) : Except Fault Nat :=
  match image.symbolAddress hostDataSymbol with
  | .error e => .error e
  | .ok none => .error (.missingSymbol hostDataSymbol)
  | .ok (some addr) =>
    if l2Base ≤ addr.toNat then .ok addr.toNat else .error (.invalidImage (.flagsBelowL2 addr))

theorem l2Base_le_of_findHostFlags {image : FirmwareImage} {base : Nat}
    (h : findHostFlags image = .ok base) : l2Base ≤ base := by
  unfold findHostFlags at h
  split at h
  · cases h
  · cases h
  · split at h
    · next hle => rw [← Except.ok.inj h]; exact hle
    · cases h

namespace Context

variable {σ : Type} [Transport σ]

/-- Loads a context, programs the matching engine and finds the words for responses. -/
def bringUp (s : Session σ) (image : FirmwareImage) (sets : List RuleSet) (region : DmaRegion) :
    Except Fault (HandlerContext × Nat) × Loader × Session σ :=
  match HostAperture.ofRegion region with
  | .error e => (.error e, .fresh, s)
  | .ok host =>
    match Loader.fresh.load s image s.contextId host with
    | (.error e, loader, s) => (.error e, loader, s)
    | (.ok handlers, loader, s) =>
      match Loader.programRuleSets s sets with
      | (.error e, s) => (.error e, loader, s)
      | (.ok (), s) => ((findHostFlags image).map fun base => (handlers, base), loader, s)

/-- Takes a context off the device after a failed start. -/
def cleanUp (loader : Loader) (s : Session σ) : Session σ :=
  match loader.unload s s.contextId with
  | (.ok (), _, s) => s
  | (.error e, _, s) => s.report (.unloadFailed s.contextId e)

/-- Starts the context of a session. If that fails, the session is given back as it is then. -/
def start (s : Session σ) (image : FirmwareImage) (sets : List RuleSet) (pages : Nat) :
    Except (Fault × Session σ) (Context σ) :=
  match s.queryRegion s.contextId with
  | (.error e, s) => .error (e, s)
  | (.ok region, s) =>
    match s.mapBuffer pages with
    | (.error e, s) => .error (e, s)
    | (.ok _, s) =>
      match bringUp s image sets region with
      | (.ok (handlers, hostFlagBase), loader, session) =>
        .ok { session, loader, handlers, hostFlagBase }
      | (.error e, loader, s) => .error (e, cleanUp loader s)

def state (c : Context σ) : LoadState := c.loader.state c.session.contextId

def programRuleSets (c : Context σ) (sets : List RuleSet) : Except Fault Unit × Context σ :=
  let (result, session) := Loader.programRuleSets c.session sets
  (result, { c with session })

def attachRing (c : Context σ) (g : Geometry) : Except Fault FlagRing × Context σ :=
  let (result, session) := c.session.attachRing g c.hostFlagBase
  (result, { c with session })

/-- The address of the word with the handlers' cycle count, after the words for responses. -/
def cyclesAddress (c : Context σ) : Nat := c.hostFlagBase - l2Base + flagLength * numUnits

/-- The mean of the handlers' cycles: the high half of the word is their sum, the low half their
number. -/
def averageCycles (c : Context σ) : Except Fault UInt32 :=
  (c.session.peek c.cyclesAddress).map fun (word : UInt64) =>
    let count := word.toUInt32
    let sum := (word >>> 32).toUInt32
    if count = 0 then 0 else sum / count

/-- Ends the context by taking it off the device. -/
def exit (c : Context σ) : Except Fault Unit × Session σ :=
  let (result, _, session) := c.loader.unload c.session c.session.contextId
  (result, session)

end Context

/-! ## Texts -/

def Aperture.describe (a : Aperture) : String :=
  s!"Aperture \x7b addr: {a.addr.toNat}, size: {a.size.toNat} \x7d"

def HostAperture.describe (a : HostAperture) : String :=
  s!"HostAperture \x7b addr: {a.addr.toNat}, size: {a.size.toNat} \x7d"

def HandlerContext.describe (h : HandlerContext) : String :=
  let fields := ", ".intercalate
    [s!"ctx: {h.ctx}",
      s!"hh: {h.headHandler.describe}",
      s!"ph: {h.packetHandler.describe}",
      s!"th: {h.tailHandler.describe}",
      s!"handler_mem: {h.handlerMem.describe}",
      s!"host_mem: {h.hostMem.describe}",
      s!"scratchpad_size: {h.scratchpadSize.toNat}",
      s!"enabled: {h.enabled}"]
  s!"HandlerContext \x7b {fields} \x7d"

def Context.describe {σ : Type} (c : Context σ) : String :=
  let ctx := s!"ctx: {c.session.contextId}"
  let handlers := s!"handlers: {c.handlers.describe}"
  let base := s!"host_flag_base: {Text.hex c.hostFlagBase}"
  s!"FpspinContext \x7b {ctx}, {handlers}, {base} \x7d"

end PacketOffload
