import PacketOffload.Slmp.Network
import PacketOffload.Slmp.Plan

/-!
# Sending a fragment

A sender sends the datagram of a fragment and, if the fragment asks for it, waits for an
acknowledgement: the next datagram that arrives has to be one. An acknowledgement need not name the
fragment; a late one of an earlier fragment counts. A wait also ends when its time is over, and when
the read fails.

| here | operation |
| --- | --- |
| `sendFragment`, `transmit` | `send_fragment` |
| `await`, `checkReply`, `readFault` | `wait_ack` |
| `sendAll` | `send_message_to` without workers |

Left out: the delay for flow control after a fragment, and traces of what is sent.

Main statements: when a wait succeeds (`result_await_eq_ok_iff`), and that it takes one arrival at
most (`inbox_await`).
-/

namespace PacketOffload.Slmp

/-- Bytes that a wait reads of a datagram. -/
def replyLimit : Nat := 64

/-- Judges what was read of the reply to a fragment. -/
def checkReply (msgId offset : UInt32) (reply : Bytes) : Except Fault Unit :=
  if reply.length = slmpHeaderLength then
    match Header.decode reply with
    | .error e => .error e
    | .ok header =>
      if header.flags.contains .ack then .ok ()
      else .error (.notAck msgId offset header.flags.bits)
  else .error (.sendFailed (.replyLength reply.length))

/-- The fault of a wait whose read failed. An error that tells of the time alone is a reply that did
not come. -/
def readFault (msgId offset : UInt32) (error : OsError) : Fault :=
  if error.isTimeout then .ackTimeout msgId offset else .sendFailed (.receive offset error)

inductive Event where
  | sent (f : Fragment)
  /-- The wait for its acknowledgement read a datagram. -/
  | replied (f : Fragment) (reply : Bytes)
  /-- The wait for its acknowledgement read nothing. -/
  | timedOut (f : Fragment)
  /-- The wait for its acknowledgement met an error of the socket. -/
  | unread (f : Fragment) (error : OsError)
  deriving DecidableEq, Repr

/-- How a wait for an acknowledgement ended. -/
structure Waited where
  result : Except Fault Unit
  inbox : List Arrival
  event : Event

/-- Waits for the acknowledgement of a fragment: takes what arrived first, or gives up if nothing
arrives. -/
def await (msgId : UInt32) (f : Fragment) : (inbox : List Arrival) → Waited
  | [] => ⟨.error (.ackTimeout msgId f.offset), [], .timedOut f⟩
  | .datagram bytes :: rest =>
    let reply := bytes.take replyLimit
    ⟨checkReply msgId f.offset reply, rest, .replied f reply⟩
  | .fault error :: rest => ⟨.error (readFault msgId f.offset error), rest, .unread f error⟩

theorem result_await_eq_ok_iff {msgId : UInt32} {f : Fragment} {inbox : List Arrival} :
    (await msgId f inbox).result = .ok () ↔
      ∃ bytes rest, inbox = .datagram bytes :: rest ∧
        checkReply msgId f.offset (bytes.take replyLimit) = .ok () := by
  match inbox with
  | [] => simp [await]
  | .datagram bytes :: rest => simp [await]
  | .fault error :: rest => simp [await]

theorem inbox_await (msgId : UInt32) (f : Fragment) (inbox : List Arrival) :
    (await msgId f inbox).inbox = inbox.drop 1 := by
  match inbox with
  | [] | .datagram bytes :: rest | .fault error :: rest => rfl

/-- What a sender needs to know to send the fragments of a message. -/
structure Sender where
  network : Network
  here : Endpoint
  dest : Endpoint
  msgId : UInt32
  payload : Payload

/-- What arrived at a socket and waits to be read, and what happened so far, oldest first. -/
structure Traffic where
  inbox : List Arrival
  log : List Event
  deriving DecidableEq, Repr

/-- The fragments that were sent, in their order. -/
def sentFragments (log : List Event) : List Fragment :=
  log.filterMap fun
    | .sent f => some f
    | _ => none

namespace Sender

def datagram (s : Sender) (f : Fragment) : Bytes := f.datagram s.msgId s.payload

/-- The datagrams that arrived at the destination, in the order in which they were sent. -/
def arrived (s : Sender) (log : List Event) : List Bytes :=
  if s.network.delivers then (sentFragments log).map s.datagram else []

def transmit (s : Sender) (f : Fragment) : Except Fault (List Arrival) :=
  match s.network.send s.here s.dest (s.datagram f) with
  | .ok answers => .ok answers
  | .error e => .error (.sendFailed (.send f.offset e))

/-- Sends a fragment, and waits if it asks for an acknowledgement. -/
def sendFragment (s : Sender) (t : Traffic) (f : Fragment) : Except Fault Unit × Traffic :=
  match s.transmit f with
  | .error e => (.error e, t)
  | .ok answers =>
    let inbox := t.inbox ++ answers
    let log := t.log ++ [.sent f]
    if f.needsAck then
      let w := await s.msgId f inbox
      (w.result, ⟨w.inbox, log ++ [w.event]⟩)
    else (.ok (), ⟨inbox, log⟩)

/-- Sends fragments in their order, up to the first one that fails. -/
def sendAll (s : Sender) (t : Traffic) : List Fragment → Except Fault Unit × Traffic
  | [] => (.ok (), t)
  | f :: rest =>
    match s.sendFragment t f with
    | (.ok (), t) => s.sendAll t rest
    | (.error e, t) => (.error e, t)

end Sender

end PacketOffload.Slmp
