import PacketOffload.Ring.UnitRing

/-!
# Waiting for a request

A wait reads the flag word of a slot again and again, with a pause after every read that finds
nothing, until a request is there or the reads are used up; then the request is taken by one more
read. What the reads find is given as a function of their number, so that the slot may change at any
of them.

The wait comes in two forms: as a loop (`wait`), and as a state that is resumed after every pause by
someone else's timer (`PendingWait`), which `waitResumed` does until the end.

| here | operation |
| --- | --- |
| `wait` | `wait_request` |
| `PendingWait`, `waitResumed` | `wait_request_async` |

A pause is an event of the wait; how it is made, and how long it takes, is left out.
-/

namespace PacketOffload

inductive WaitEvent where
  | read
  | pause
  deriving DecidableEq, Repr

structure WaitOutcome where
  result : Except Fault (Option Request)
  unit : UnitRing
  /-- What the wait did, in order. -/
  events : List WaitEvent

/-- The outcome after one more thing was done before. -/
def WaitOutcome.after (event : WaitEvent) (o : WaitOutcome) : WaitOutcome :=
  { o with events := event :: o.events }

namespace UnitRing

/-- Takes a request by the `i`-th read. -/
def popAt (u : UnitRing) (slot : Nat → Except Fault FlagWord) (i : Nat) : WaitOutcome :=
  match slot i with
  | .ok flag => ⟨.ok (u.pop flag).1, (u.pop flag).2, [.read]⟩
  | .error e => ⟨.error e, u, [.read]⟩

/-- Waits from the `i`-th read on, with at most `more` reads after it. -/
def waitFrom (u : UnitRing) (slot : Nat → Except Fault FlagWord) : (more i : Nat) → WaitOutcome
  | more, i =>
    match slot i with
    | .error e => ⟨.error e, u, [.read]⟩
    | .ok flag =>
      if u.announces flag then (u.popAt slot (i + 1)).after .read
      else match more with
        | 0 => ⟨.ok none, u, [.read]⟩
        | more + 1 => ((u.waitFrom slot more (i + 1)).after .pause).after .read

/-- Waits for at most `maxPolls` reads, and at least for one. -/
def wait (u : UnitRing) (slot : Nat → Except Fault FlagWord) (maxPolls : Nat) : WaitOutcome :=
  u.waitFrom slot (maxPolls - 1) 0

end UnitRing

/-- A wait that was interrupted for a pause. -/
structure PendingWait where
  unit : UnitRing
  /-- Reads so far that found nothing. -/
  polls : Nat
  maxPolls : Nat
  deriving DecidableEq, Repr

namespace PendingWait

/-- What one more read brings a wait to. -/
inductive Resumed where
  | failed (fault : Fault)
  | found
  | gaveUp
  /-- To be resumed after a pause. -/
  | pending (next : PendingWait)
  deriving DecidableEq, Repr

/-- Resumes a wait with what its next read finds. -/
def resume (w : PendingWait) : Except Fault FlagWord → Resumed
  | .error e => .failed e
  | .ok flag =>
    if w.unit.announces flag then .found
    else if w.polls + 1 < w.maxPolls then .pending { w with polls := w.polls + 1 }
    else .gaveUp

theorem pending_of_resume {w next : PendingWait} {found : Except Fault FlagWord}
    (h : w.resume found = .pending next) :
    next = { w with polls := w.polls + 1 } ∧ w.polls + 1 < w.maxPolls := by
  unfold resume at h
  split at h
  · simp at h
  · split at h
    · simp at h
    · split at h
      · next hlt => exact ⟨(Resumed.pending.inj h).symm, hlt⟩
      · simp at h

/-- Resumes a wait with its `i`-th read and those after it, until it ends. -/
def run (w : PendingWait) (slot : Nat → Except Fault FlagWord) (i : Nat) : WaitOutcome :=
  match h : w.resume (slot i) with
  | .failed e => ⟨.error e, w.unit, [.read]⟩
  | .found => (w.unit.popAt slot (i + 1)).after .read
  | .gaveUp => ⟨.ok none, w.unit, [.read]⟩
  | .pending next => ((next.run slot (i + 1)).after .pause).after .read
termination_by w.maxPolls - w.polls
decreasing_by
  obtain ⟨rfl, hlt⟩ := pending_of_resume h
  simp only
  omega

end PendingWait

/-- Waits by being resumed. -/
def UnitRing.waitResumed (u : UnitRing) (slot : Nat → Except Fault FlagWord) (maxPolls : Nat) :
    WaitOutcome :=
  PendingWait.run ⟨u, 0, maxPolls⟩ slot 0

end PacketOffload
