import PacketOffload.Bytes
import PacketOffload.Fault
import PacketOffload.Slmp.Endpoint

/-!
# Networks

What a sender needs of a network: whether an endpoint can be bound, and what becomes of a datagram.
A datagram that was sent may be answered; the answers arrive before the sender waits for them. It
may also be lost, which the sender does not notice, or come back as an error, which the sender finds
where it would have read an answer.

| here | operation |
| --- | --- |
| `Network.bind`, `Network.send` | `bind` and `send_to` of a UDP socket |
| `Arrival` | what `recv_from` gives, less the address it came from |
-/

namespace PacketOffload.Slmp

/-- What a read at a socket gives. -/
inductive Arrival where
  | datagram (bytes : Bytes)
  /-- The system reports an error of the socket. -/
  | fault (error : OsError)
  deriving DecidableEq, Repr

structure Network where
  bind : (here : Endpoint) → Except OsError Unit
  /-- What arrives in answer to a datagram. -/
  send : (here dest : Endpoint) → (datagram : Bytes) → Except OsError (List Arrival)
  /-- Whether the datagrams that are sent arrive. -/
  delivers : Bool

namespace Network

/-- Why a destination is refused before a way to it is looked for: an IPv4 socket sends to no IPv6
address, and no socket sends to port 0. -/
def refusal? (here dest : Endpoint) : Option OsError :=
  if here.host.isIpv4 && !dest.host.isIpv4 then some .addressFamily
  else if dest.port = 0 then some .invalidArgument
  else none

/-! ## A host without a network -/

/-- The zone of a host itself, which is the only one of a host without a network. -/
def ownZone : UInt32 := 1

/-- Whether a host without a network lets an address be bound. It has no table of IPv4 addresses to
miss one in, but it knows that it has no IPv6 address. A zone is asked for and looked up where an
address needs one, and is ignored elsewhere. -/
def bindAlone (here : Host) : Except OsError Unit :=
  if here.ipv4?.isSome || here.isUnspecified then .ok ()
  else if here.isLocal && here.zone == 0 then .error .invalidArgument
  else if here.isLocal && here.zone != ownZone then .error .noSuchDevice
  else if here.isMulticast then .ok ()
  else .error .addressUnavailable

/-- Whether a host without a network finds a way. The unspecified IPv4 address is the host itself;
IPv6 fails for want of an address to send from, and all else for want of a route. -/
def routeAlone (here dest : Host) : Except OsError Unit :=
  if dest.ipv4? = some 0 ∧ (here.isIpv4 ∨ here.isUnspecified) then .ok ()
  else if here.ipv4? = none ∧ dest.ipv4? = none then .error .addressUnavailable
  else .error .networkUnreachable

/-- A host without a network: what is sent has nowhere to go, and what the host sends to itself is
lost. -/
def isolated : Network where
  bind here := bindAlone here.host
  send here dest _ :=
    match refusal? here dest with
    | some e => .error e
    | none => (routeAlone here.host dest.host).map fun _ => []
  delivers := false

/-! ## A peer -/

/-- A network that takes every datagram and answers by a rule. -/
def answering (answers : (datagram : Bytes) → List Bytes) : Network where
  bind _ := .ok ()
  send here dest datagram :=
    match refusal? here dest with
    | some e => .error e
    | none => .ok ((answers datagram).map .datagram)
  delivers := true

end Network

end PacketOffload.Slmp
