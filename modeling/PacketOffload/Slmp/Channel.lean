import PacketOffload.Slmp.Workers

/-!
# Channels

A channel sends messages from one endpoint. A message is sent in order, fragment after fragment;
with a parallel configuration and three fragments or more, the first one goes alone, workers send
those between, and the last one follows when all workers are done and none has failed.

| here | operation |
| --- | --- |
| `bind` | `bind`; `new` at the unspecified endpoint |
| `sendByWorkers` | `send_parallel` |
| `sendTo`, `sendParallel` | `send_message_to` |
| `send` | `send_message` |
-/

namespace PacketOffload.Slmp

structure Channel where
  network : Network
  here : Endpoint
  config : Config
  /-- What arrived and was not read yet. -/
  inbox : List Arrival

namespace Channel

def bind (network : Network) (here : Endpoint) (config : Config) : Except Fault Channel :=
  match config.fragmentSize, network.bind here with
  | .error e, _ => .error e
  | .ok _, .error e => .error (.transfer (.os e))
  | .ok _, .ok () =>
    if config.ackTimeoutMicros = 0 then .error (.transfer .zeroTimeout)
    else .ok ⟨network, here, config, []⟩

/-- The longest message, in bytes: offsets have 32 bits. -/
def maxMessage : Nat := UInt32.size - 1

/-- The sender of one message of a channel. -/
def sender (c : Channel) (dest : Endpoint) (msgId : UInt32) (payload : Payload) : Sender :=
  ⟨c.network, c.here, dest, msgId, payload⟩

/-- Sends fragments by workers, whose sockets have ports of their own, in the interleaving of a
schedule. -/
def sendByWorkers (c : Channel) (s : Sender) (fragments : List Fragment) (schedule : List Nat) :
    Except Fault Unit × List Event :=
  let own := c.here.atPort 0
  let count := min c.config.workers fragments.length
  match (List.range count).mapM fun _ => c.network.bind own with
  | .error e => (.error (.transfer (.os e)), [])
  | .ok _ =>
    let crew :=
      (Crew.ofFragments count fragments).run { s with here := own } c.config.policy schedule
    (crew.result, crew.log.map (·.2))

/-- Sends a first fragment, then others by workers, then a last one. -/
def sendParallel (c : Channel) (s : Sender) (t : Traffic) (first last : Fragment)
    (interior : List Fragment) (schedule : List Nat) : Except Fault Unit × Traffic :=
  match s.sendFragment t first with
  | (.error e, t) => (.error e, t)
  | (.ok (), t) =>
    let (result, log) := c.sendByWorkers s interior schedule
    let t := { t with log := t.log ++ log }
    match result with
    | .error e => (.error e, t)
    | .ok () => s.sendFragment t last

/-- Sends a message to an endpoint. With workers, they run in the interleaving of `schedule`. -/
def sendTo (c : Channel) (dest : Endpoint) (msgId : UInt32) (payload : Payload)
    (schedule : List Nat) : Except Fault Unit × Traffic :=
  let t : Traffic := ⟨c.inbox, []⟩
  if maxMessage < payload.length then
    (.error (.invalidArgument (.messageLength payload.length)), t)
  else match c.config.fragmentSize with
    | .error e => (.error e, t)
    | .ok size =>
      let s := c.sender dest msgId payload
      let fragments := plan payload.length size c.config.alwaysAck
      match fragments with
      | first :: second :: third :: rest =>
        if c.config.parallel then
          let others := second :: third :: rest
          c.sendParallel s t first (others.getLast (by simp [others])) others.dropLast schedule
        else s.sendAll t fragments
      | _ => s.sendAll t fragments

/-- Sends a message to an address, where SLMP receivers listen. -/
def send (c : Channel) (dest : Endpoint) (msgId : UInt32) (payload : Payload)
    (schedule : List Nat) : Except Fault Unit × Traffic :=
  c.sendTo (dest.atPort port) msgId payload schedule

end Channel

end PacketOffload.Slmp
