import PacketOffload.Ring.FlagWord
import PacketOffload.Ring.Geometry
import PacketOffload.Session

/-!
# One unit's end of a ring

The accelerator announces a request by a flag word with a new sequence number in the unit's slot.
The host has seen a request once it took over the number. Everything here looks at a flag word that
was read before; reading it is the session's work.

| here | operation |
| --- | --- |
| `announces` | `has_request` |
| `pop` | `pop_request` |
| `response`, `responseAddress` | `push_response`: what is poked, and where |

Main statement: after a slot was looked at, the number in it is the last one seen
(`lastSeen_pop`).
-/

namespace PacketOffload

/-- A request that was taken from a slot. -/
structure Request where
  unit : Nat
  flag : FlagWord
  start : Nat
  length : Nat
  deriving DecidableEq, Repr

/-- What is to be reported of a request: its flag should name the unit of the slot. -/
def Request.notice? (r : Request) : Option Notice :=
  if r.flag.unit.toNat = r.unit then none
  else some (.foreignUnit r.unit r.flag.bits r.flag.unit.toNat)

/-- One unit's end of a ring. -/
structure UnitRing where
  geometry : Geometry
  /-- Address of the words through which the host answers. -/
  hostFlagBase : Nat
  unit : Nat
  /-- Sequence number of the last request seen. -/
  lastSeen : UInt8
  /-- Requests so far that named another unit. -/
  anomalies : Nat
  deriving DecidableEq, Repr

namespace UnitRing

/-- Whether a flag word announces a request that was not seen yet. -/
def announces (u : UnitRing) (flag : FlagWord) : Bool := flag.seq != u.lastSeen

/-- The request of this unit that a flag word announces. -/
def request (u : UnitRing) (flag : FlagWord) : Request where
  unit := u.unit
  flag := flag
  start := u.geometry.payloadStart u.unit
  length := u.geometry.payloadLength

/-- Takes the request that a flag word announces, if it does. -/
def pop (u : UnitRing) (flag : FlagWord) : Option Request × UnitRing :=
  if u.announces flag then
    let request := u.request flag
    (some request,
      { u with
        lastSeen := flag.seq
        anomalies := if request.notice?.isSome then u.anomalies + 1 else u.anomalies })
  else (none, u)

/-- The word of a response: the bits of `flag`, and the number of the request it answers and the
unit filled in. -/
def response (u : UnitRing) (flag : FlagWord) : FlagWord :=
  flag.union (.compose u.lastSeen 0 (UInt8.ofNat u.unit))

/-- The address of the unit's word for responses. -/
def responseAddress (u : UnitRing) : Except Fault Nat :=
  if l2Base ≤ u.hostFlagBase then .ok (u.hostFlagBase - l2Base + flagLength * u.unit)
  else .error (.invalidArgument (.flagsBelowL2 u.hostFlagBase))

def describe (u : UnitRing) : String :=
  let fields := s!"unit: {u.unit}, last_seen: {u.lastSeen.toNat}, anomalies: {u.anomalies}"
  s!"UnitRing \x7b {fields} \x7d"

theorem lastSeen_pop (u : UnitRing) (flag : FlagWord) : (u.pop flag).2.lastSeen = flag.seq := by
  by_cases h : flag.seq = u.lastSeen <;> simp [pop, announces, h]

end UnitRing

end PacketOffload
