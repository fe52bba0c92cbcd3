import PacketOffload.Dma.Buffer

/-!
# Ring geometry

A ring divides a buffer into slots of one size, one for each processing unit. A slot begins with the
flag word; the payload begins at an offset and goes to the end of the slot.

| here | operation |
| --- | --- |
| `requiredLength`, `payloadLength` | `required_len`, `payload_len` |
| `check` | `validate` |

Main statement: which geometries a buffer has room for (`check_eq_ok_iff`).
-/

namespace PacketOffload

def numUnits : Nat := 16

/-- Processing units that a flag word can name. -/
def maxUnits : Nat := 256

def flagLength : Nat := 8

structure Geometry where
  unitCount : Nat
  slotSize : Nat
  payloadOffset : Nat
  deriving DecidableEq, Repr

namespace Geometry

/-- A page for each unit, with the payload in the second cache line. -/
def standard : Geometry := ⟨numUnits, pageSize, 64⟩

instance : Inhabited Geometry := ⟨standard⟩

def requiredLength (g : Geometry) : Nat := g.unitCount * g.slotSize

def payloadLength (g : Geometry) : Nat := g.slotSize - g.payloadOffset

/-- Where the slot of a unit begins, and with it its flag word. -/
def slotStart (g : Geometry) (unit : Nat) : Nat := unit * g.slotSize

def payloadStart (g : Geometry) (unit : Nat) : Nat := g.slotStart unit + g.payloadOffset

/-- Accepts the geometries for a buffer of some length. -/
def check (g : Geometry) (length : Nat) : Except Fault Unit :=
  if g.unitCount = 0 ∨ maxUnits < g.unitCount then
    .error (.invalidArgument (.unitCount g.unitCount))
  else if g.slotSize % 8 ≠ 0 ∨ g.payloadOffset < flagLength ∨ g.slotSize ≤ g.payloadOffset then
    .error (.invalidArgument (.slotLayout g.slotSize g.payloadOffset))
  else if length < g.requiredLength then
    .error (.invalidArgument (.ringSize g.requiredLength length))
  else .ok ()

theorem check_eq_ok_iff {g : Geometry} {length : Nat} :
    g.check length = .ok () ↔
      (1 ≤ g.unitCount ∧ g.unitCount ≤ maxUnits) ∧
        (g.slotSize % 8 = 0 ∧ flagLength ≤ g.payloadOffset ∧ g.payloadOffset < g.slotSize) ∧
          g.requiredLength ≤ length := by
  unfold check
  repeat' split
  all_goals simp
  all_goals omega

end Geometry

end PacketOffload
