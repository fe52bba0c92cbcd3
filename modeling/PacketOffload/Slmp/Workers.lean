import PacketOffload.Slmp.Config
import PacketOffload.Slmp.Exchange

/-!
# Workers

In a parallel send, workers share the fragments between the first and the last one: each takes every
`n`-th of them. They run side by side and share one flag, which a worker sets when it fails and
looks at before each fragment; under the policy `abort` it looks once more before it waits for an
acknowledgement. A worker has a socket of its own.

`Crew.step` is the smallest step of one worker, so that a schedule, a list of workers to move, is an
interleaving. `Crew.run` follows a schedule and then lets the workers finish one after the other.

| here | operation |
| --- | --- |
| `Crew.ofFragments` | the share of each thread in `send_parallel` |
| `Crew.move` | one step of a thread: the flag is read or set, a datagram sent, or a reply awaited |
| `Crew.result` | the results of the threads, collected in their order |

Left out: a thread that ends without a result.

Main statement: every step brings a worker closer to its end (`remaining_move_lt`).
-/

namespace PacketOffload.Slmp

/-- What a worker does next. -/
inductive Phase where
  /-- Look at the flag, if a fragment is left. -/
  | ready
  | sending (f : Fragment)
  /-- The fragment was sent; look at the flag again, if the policy says so. -/
  | sent (f : Fragment)
  | waiting (f : Fragment)
  /-- Set the flag. -/
  | failing (fault : Fault)
  | done (fault : Option Fault)
  deriving DecidableEq, Repr

structure Worker where
  /-- The fragments that it did not begin yet. -/
  todo : List Fragment
  phase : Phase
  inbox : List Arrival
  deriving DecidableEq, Repr

def Worker.of (todo : List Fragment) : Worker := ⟨todo, .ready, []⟩

structure Crew where
  workers : List Worker
  /-- A worker failed. -/
  cancelled : Bool
  /-- What happened so far and by which worker, oldest first. -/
  log : List (Nat × Event)
  deriving DecidableEq, Repr

/-- Every `n`-th element, from the first on. -/
def everyNth {α : Type} (n : Nat) (xs : List α) : List α :=
  (List.range xs.length).filterMap fun i => if i % n = 0 then xs[i]? else none

namespace Crew

/-- The crew at the beginning: worker `w` of `count` has every `count`-th fragment from the `w`-th
on. -/
def ofFragments (count : Nat) (fragments : List Fragment) : Crew where
  workers := (List.range count).map fun w => .of (everyNth count (fragments.drop w))
  cancelled := false
  log := []

/-- What one step of a worker makes of it and of the flag, and what happens in it. -/
def move (s : Sender) (policy : FailurePolicy) (cancelled : Bool) (w : Worker) :
    Worker × Bool × List Event :=
  match w.phase with
  | .ready =>
    match w.todo with
    | [] => ({ w with phase := .done none }, cancelled, [])
    | f :: rest =>
      if cancelled then ({ w with phase := .done none }, cancelled, [])
      else ({ w with todo := rest, phase := .sending f }, cancelled, [])
  | .sending f =>
    match s.transmit f with
    | .ok answers =>
      ({ w with phase := .sent f, inbox := w.inbox ++ answers }, cancelled, [.sent f])
    | .error e => ({ w with phase := .failing e }, cancelled, [])
  | .sent f =>
    if f.needsAck && !(policy == .abort && cancelled) then
      ({ w with phase := .waiting f }, cancelled, [])
    else ({ w with phase := .ready }, cancelled, [])
  | .waiting f =>
    let waited := await s.msgId f w.inbox
    let phase := match waited.result with
      | .ok () => .ready
      | .error e => .failing e
    ({ w with phase, inbox := waited.inbox }, cancelled, [waited.event])
  | .failing e => ({ w with phase := .done (some e) }, true, [])
  | .done _ => (w, cancelled, [])

/-- One step of worker `i`; a worker that is done, or that does not exist, does nothing. -/
def step (s : Sender) (policy : FailurePolicy) (crew : Crew) (i : Nat) : Crew :=
  match crew.workers[i]? with
  | none => crew
  | some w =>
    let (w, cancelled, events) := move s policy crew.cancelled w
    ⟨crew.workers.set i w, cancelled, crew.log ++ events.map fun event => (i, event)⟩

def follow (s : Sender) (policy : FailurePolicy) (crew : Crew) (schedule : List Nat) : Crew :=
  schedule.foldl (step s policy) crew

/-- A bound on the steps to the end of a worker. -/
def remaining (w : Worker) : Nat :=
  match w.phase with
  | .ready => 4 * w.todo.length + 2
  | .sending _ => 4 * w.todo.length + 5
  | .sent _ => 4 * w.todo.length + 4
  | .waiting _ => 4 * w.todo.length + 3
  | .failing _ => 1
  | .done _ => 0

/-- The schedule on which the workers finish one after the other. -/
def finishing (crew : Crew) : List Nat :=
  crew.workers.zipIdx.flatMap fun (w, i) => List.replicate (remaining w) i

/-- Follows a schedule, and then lets the workers finish. -/
def run (s : Sender) (policy : FailurePolicy) (crew : Crew) (schedule : List Nat) : Crew :=
  let crew := crew.follow s policy schedule
  crew.follow s policy crew.finishing

def fault? (w : Worker) : Option Fault :=
  match w.phase with
  | .done fault => fault
  | _ => none

/-- The result of a crew whose workers are done: the fault of the first worker that has one. -/
def result (crew : Crew) : Except Fault Unit :=
  match crew.workers.findSome? fault? with
  | some e => .error e
  | none => .ok ()

theorem remaining_move_lt (s : Sender) (policy : FailurePolicy) (cancelled : Bool) (w : Worker)
    (h : remaining w ≠ 0) : remaining (move s policy cancelled w).1 < remaining w := by
  obtain ⟨todo, phase, inbox⟩ := w
  cases phase with
  | ready =>
    cases todo with
    | nil => simp [move, remaining]
    | cons f rest =>
      cases cancelled with
      | true => simp [move, remaining]
      | false => simp [move, remaining]; omega
  | sending f =>
    simp only [move]
    split <;> simp [remaining]
  | sent f =>
    simp only [move]
    split <;> simp [remaining]
  | waiting f =>
    simp only [move]
    cases (await s.msgId f inbox).result <;> simp [remaining]
  | failing e => simp [move, remaining]
  | done fault => simp [remaining] at h

end Crew

end PacketOffload.Slmp
