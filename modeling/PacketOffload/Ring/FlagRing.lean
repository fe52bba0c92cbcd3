import PacketOffload.Ring.Wait

/-!
# Rings on a session

A ring is attached to the buffer of a session, one at a time, and is given up when the last of its
units is dropped. From then on the session reads the slots for it and writes the responses.

| here | operation |
| --- | --- |
| `attachRing`, `newUnit` | `initialize`, with `claim_ring` |
| `FlagRing.find` | `unit` |
| `keepUnits`, `dropUnit`, `detachRing` | `into_units`, and the drop of units and of a claim |
| `readFlag`, `hasRequest` | `read_flag`, `has_request` |
| `popRequest`, `lend` | `pop_request`, with the payload it lends |
| `waitRequest`, `waitRequestResumed` | `wait_request`, `wait_request_async` |
| `pushResponse` | `push_response` |

Main statement: dropping all units of a ring detaches it (`detachRing_eq`).
-/

namespace PacketOffload

/-- An attached ring: the units that were not dropped yet. -/
structure FlagRing where
  units : List UnitRing
  deriving DecidableEq, Repr

namespace FlagRing

def find (ring : FlagRing) (unit : Nat) : Except Fault UnitRing :=
  match ring.units[unit]? with
  | some u => .ok u
  | none => .error (.invalidArgument (.unitRange unit ring.units.length))

def setUnit (ring : FlagRing) (unit : Nat) (u : UnitRing) : FlagRing :=
  ⟨ring.units.set unit u⟩

/-- The unit that was set is there, and the others are the same. -/
theorem getElem?_setUnit {ring : FlagRing} {unit other : Nat} {u v : UnitRing}
    (h : (ring.setUnit unit u).units[other]? = some v) :
    other = unit ∧ v = u ∨ other ≠ unit ∧ ring.units[other]? = some v := by
  by_cases ho : other = unit
  · subst ho
    have hlt := (List.getElem?_eq_some_iff.1 h).1
    simp only [setUnit, List.length_set] at hlt
    rw [setUnit, List.getElem?_set_self hlt] at h
    exact .inl ⟨rfl, (Option.some.inj h).symm⟩
  · rw [setUnit, List.getElem?_set_ne (Ne.symm ho)] at h
    exact .inr ⟨ho, h⟩

end FlagRing

namespace Session

variable {σ : Type} [Transport σ]

/-! ## Attaching -/

/-- One unit's end of a new ring; what stands in the slot counts as seen. -/
def newUnit (s : Session σ) (g : Geometry) (hostFlagBase unit : Nat) : Except Fault UnitRing := do
  let bits ← s.readWord (g.slotStart unit)
  return ⟨g, hostFlagBase, unit, FlagWord.seq ⟨bits⟩, 0⟩

def attachRing (s : Session σ) (g : Geometry) (hostFlagBase : Nat) :
    Except Fault FlagRing × Session σ :=
  match s.buffer with
  | none => (.error .noBuffer, s)
  | some buffer =>
    match g.check buffer.length with
    | .error e => (.error e, s)
    | .ok () =>
      if s.ringAttached then (.error (.invalidArgument (.ringAttached s.contextId)), s)
      else match (List.range g.unitCount).mapM (s.newUnit g hostFlagBase) with
        | .ok units => (.ok ⟨units⟩, { s with ringAttached := true })
        | .error e => (.error e, s)

/-- Drops the units of a ring that are not in `kept`; the last one to go detaches the ring. -/
def dropTo (s : Session σ) (ring : FlagRing) (kept : List UnitRing) : FlagRing × Session σ :=
  (⟨kept⟩, if kept.isEmpty && !ring.units.isEmpty then { s with ringAttached := false } else s)

/-- Drops all units of a ring past the first `count`. -/
def keepUnits (s : Session σ) (ring : FlagRing) (count : Nat) : FlagRing × Session σ :=
  s.dropTo ring (ring.units.take count)

def dropUnit (s : Session σ) (ring : FlagRing) (position : Nat) : FlagRing × Session σ :=
  s.dropTo ring (ring.units.eraseIdx position)

def detachRing (s : Session σ) (ring : FlagRing) : Session σ := (s.keepUnits ring 0).2

omit [Transport σ] in
theorem detachRing_eq (s : Session σ) {ring : FlagRing} (h : ring.units ≠ []) :
    s.detachRing ring = { s with ringAttached := false } := by
  simp [detachRing, keepUnits, dropTo, h]

/-! ## Requests -/

def readFlag (s : Session σ) (u : UnitRing) : Except Fault FlagWord :=
  (s.readWord (u.geometry.slotStart u.unit)).map FlagWord.mk

/-- The session after what is to be reported of a request was reported. -/
def reportRequest (s : Session σ) (request : Option Request) : Session σ :=
  match request.bind Request.notice? with
  | some notice => s.report notice
  | none => s

/-- Whether a request waits in a unit's slot. -/
def hasRequest (s : Session σ) (u : UnitRing) : Except Fault Bool :=
  (s.readFlag u).map u.announces

/-- Lends the payload of a request that was taken. It has to lie in the buffer. -/
def lend (s : Session σ) : Option Request → Except Fault (Option Request)
  | none => .ok none
  | some r => do
    let buffer ← s.getBuffer
    buffer.checkRange r.start r.length
    return some r

/-- Takes the request in a unit's slot, if there is one. -/
def popRequest (s : Session σ) (u : UnitRing) :
    Except Fault (Option Request) × UnitRing × Session σ :=
  match s.readFlag u with
  | .error e => (.error e, u, s)
  | .ok flag =>
    let (request, u) := u.pop flag
    (s.lend request, u, s.reportRequest request)

/-- What a wait on a slot comes to, in the session in which it took its request. -/
def finishWait (s : Session σ) (o : WaitOutcome) :
    Except Fault (Option Request) × UnitRing × Session σ :=
  match o.result with
  | .ok request => (s.lend request, o.unit, s.reportRequest request)
  | .error e => (.error e, o.unit, s)

/-- Waits for a request in a unit's slot and takes it, while nothing else happens. -/
def waitRequest (s : Session σ) (u : UnitRing) (maxPolls : Nat) :
    Except Fault (Option Request) × UnitRing × Session σ :=
  s.finishWait (u.wait (fun _ => s.readFlag u) maxPolls)

/-- Waits for a request in a unit's slot by being resumed, and takes it. -/
def waitRequestResumed (s : Session σ) (u : UnitRing) (maxPolls : Nat) :
    Except Fault (Option Request) × UnitRing × Session σ :=
  s.finishWait (u.waitResumed (fun _ => s.readFlag u) maxPolls)

/-- The first bytes of a request's payload, at most `count`. -/
def readPayload (s : Session σ) (r : Request) (count : Nat) : Except Fault Bytes :=
  s.readBytes r.start (min count r.length)

/-- Writes the first bytes of a request's payload; what has no room is cut. -/
def writePayload (s : Session σ) (r : Request) (data : Bytes) : Except Fault Unit × Session σ :=
  s.writeBytes r.start (data.take r.length)

/-- Answers the last request seen by a unit. -/
def pushResponse (s : Session σ) (u : UnitRing) (flag : FlagWord) : Except Fault Unit × Session σ :=
  match u.responseAddress with
  | .ok addr => s.poke addr (u.response flag).bits
  | .error e => (.error e, s)

/-! ## The accelerator's side -/

/-- Delivers a request to a unit as the accelerator does: first the payload, then the flag word. -/
def deliver (s : Session σ) (g : Geometry) (unit : Nat) (data : Bytes) (flag : FlagWord) :
    Except Fault Unit × Session σ :=
  match s.writeBytes (g.payloadStart unit) data with
  | (.ok (), s) => s.writeWord (g.slotStart unit) flag.bits
  | (.error e, s) => (.error e, s)

end Session

end PacketOffload
