import PacketOffload.Slmp.Header

/-!
# Fragment plans

A message is cut into fragments of one size, of which the last may be shorter. The first and the
last one ask for an acknowledgement, and with `alwaysAck` all of them; the last one ends the
message.

| here | operation |
| --- | --- |
| `needsAck` | `needs_ack` |
| `Fragment.datagram` | the packet that `send_fragment` puts together |
| `plan` | `plan_fragments` |

Main statements: how many fragments there are (`length_plan`), and which flags each one has
(`contains_syn_plannedFlags`, `contains_eom_plannedFlags`).
-/

namespace PacketOffload.Slmp

/-- The contents of a message, by position. -/
structure Payload where
  length : Nat
  byte : Nat → UInt8

namespace Payload

def ofBytes (bytes : Bytes) : Payload :=
  let cells := bytes.toArray
  ⟨cells.size, fun i => cells.getD i 0⟩

def zeros (length : Nat) : Payload := ⟨length, fun _ => 0⟩

/-- The bytes from `start` on. -/
def cut (p : Payload) (start count : Nat) : Bytes :=
  (List.range count).map fun i => p.byte (start + i)

def bytes (p : Payload) : Bytes := p.cut 0 p.length

@[simp] theorem length_cut (p : Payload) (start count : Nat) :
    (p.cut start count).length = count := by
  simp [cut]

theorem bytes_ofBytes (bytes : Bytes) : (ofBytes bytes).bytes = bytes := by
  apply List.ext_getElem
  · simp [Payload.bytes, ofBytes]
  · intro i h₁ h₂
    simp [Payload.bytes, ofBytes, cut, h₂]

end Payload

structure Fragment where
  offset : UInt32
  length : Nat
  flags : Flags
  deriving DecidableEq, Repr

namespace Fragment

/-- Whether the sender waits for an acknowledgement. -/
def needsAck (f : Fragment) : Bool := f.flags.contains .syn

def header (f : Fragment) (msgId : UInt32) : Header := ⟨f.flags, msgId, f.offset⟩

def datagram (f : Fragment) (msgId : UInt32) (payload : Payload) : Bytes :=
  (f.header msgId).encode ++ payload.cut f.offset.toNat f.length

end Fragment

def fragmentCount (length fragmentSize : Nat) : Nat :=
  (length + fragmentSize - 1) / fragmentSize

/-- The flags that the `i`-th of `count` fragments has by its place. -/
def placeFlags (count i : Nat) : Flags :=
  if i + 1 = count then Flags.syn.union .eom else if i = 0 then .syn else .empty

/-- The flags of the `i`-th of `count` fragments. -/
def plannedFlags (count : Nat) (alwaysAck : Bool) (i : Nat) : Flags :=
  if alwaysAck then (placeFlags count i).union .syn else placeFlags count i

/-- The `i`-th fragment of a message. -/
def planned (length fragmentSize : Nat) (alwaysAck : Bool) (i : Nat) : Fragment where
  offset := UInt32.ofNat (i * fragmentSize)
  length := min fragmentSize (length - i * fragmentSize)
  flags := plannedFlags (fragmentCount length fragmentSize) alwaysAck i

/-- The fragments of a message in their order; with fragments of no size there are none. -/
def plan (length fragmentSize : Nat) (alwaysAck : Bool) : List Fragment :=
  if fragmentSize = 0 then []
  else (List.range (fragmentCount length fragmentSize)).map (planned length fragmentSize alwaysAck)

theorem length_plan {length fragmentSize : Nat} (h : fragmentSize ≠ 0) (alwaysAck : Bool) :
    (plan length fragmentSize alwaysAck).length = fragmentCount length fragmentSize := by
  simp [plan, h]

theorem contains_syn_plannedFlags (count : Nat) (alwaysAck : Bool) (i : Nat) :
    (plannedFlags count alwaysAck i).contains .syn =
      (alwaysAck || decide (i = 0) || decide (i + 1 = count)) := by
  unfold plannedFlags placeFlags
  by_cases hl : i + 1 = count
  · rw [if_pos hl, decide_eq_true hl]
    cases alwaysAck <;> cases decide (i = 0) <;> rfl
  · rw [if_neg hl, decide_eq_false hl]
    by_cases h0 : i = 0
    · rw [if_pos h0, decide_eq_true h0]
      cases alwaysAck <;> rfl
    · rw [if_neg h0, decide_eq_false h0]
      cases alwaysAck <;> rfl

theorem contains_eom_plannedFlags (count : Nat) (alwaysAck : Bool) (i : Nat) :
    (plannedFlags count alwaysAck i).contains .eom = decide (i + 1 = count) := by
  unfold plannedFlags placeFlags
  by_cases hl : i + 1 = count
  · rw [if_pos hl, decide_eq_true hl]
    cases alwaysAck <;> rfl
  · rw [if_neg hl, decide_eq_false hl]
    by_cases h0 : i = 0
    · rw [if_pos h0]
      cases alwaysAck <;> rfl
    · rw [if_neg h0]
      cases alwaysAck <;> rfl

end PacketOffload.Slmp
