import PacketOffload.Fault

/-!
# Sender configuration

How messages are cut and sent. Fragments are as large as a datagram allows, rounded down to the
alignment.

| here | operation |
| --- | --- |
| `withWorkers` | `with_parallel` |
| `fragmentSize` | `fragment_size` |

Main statement: the size of a fragment is the largest multiple of the alignment that fits
(`fragmentSize_eq_ok_iff`).
-/

namespace PacketOffload.Slmp

/-- Bytes of a fragment that fit a datagram. -/
def maxFragment : Nat := 1462

/-- What the workers of a parallel send do when one of them failed. -/
inductive FailurePolicy where
  /-- Wait for the acknowledgements of what was sent. -/
  | drain
  /-- Do not wait any more. -/
  | abort
  deriving DecidableEq, Repr

structure Config where
  /-- Fragments begin at multiples of it. -/
  alignment : Nat
  /-- Every fragment asks for an acknowledgement. -/
  alwaysAck : Bool
  /-- Pause after each fragment, in microseconds. -/
  delayMicros : Nat
  /-- Fragments between the first and the last are sent by workers. -/
  parallel : Bool
  workers : Nat
  policy : FailurePolicy
  /-- How long to wait for an acknowledgement, in microseconds. -/
  ackTimeoutMicros : Nat
  deriving DecidableEq, Repr

namespace Config

def standard : Config where
  alignment := 1
  alwaysAck := false
  delayMicros := 0
  parallel := false
  workers := 4
  policy := .drain
  ackTimeoutMicros := 100000

instance : Inhabited Config := ⟨standard⟩

/-- The configuration with this many workers; a single one sends in order. -/
def withWorkers (c : Config) (workers : Nat) : Config :=
  { c with parallel := decide (1 < workers), workers := max workers 1 }

def fragmentSize (c : Config) : Except Fault Nat :=
  if c.alignment = 0 ∨ maxFragment < c.alignment then
    .error (.invalidArgument (.alignment c.alignment))
  else .ok (maxFragment / c.alignment * c.alignment)

theorem fragmentSize_eq_ok_iff {c : Config} {size : Nat} :
    c.fragmentSize = .ok size ↔
      (0 < c.alignment ∧ c.alignment ≤ maxFragment) ∧
        maxFragment / c.alignment * c.alignment = size := by
  unfold fragmentSize
  by_cases h : c.alignment = 0 ∨ maxFragment < c.alignment
  · simp [h]; omega
  · simp [h]; omega

end Config

end PacketOffload.Slmp
