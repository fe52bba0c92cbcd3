import PacketOffload.Fault

/-!
# Gates

Three registers decide what else may be done to the device: the cluster reset closes the memory
window, and each of the two engines locks its configuration while it is enabled. `Gates` is what the
host knows of them; a write is checked against it before it reaches the device, and an accepted
write updates it.

| here | operation |
| --- | --- |
| `Gates`, `Gates.apply` | `GateState`, and its `apply` |
| `WriteRule.refusal?` | `check` of a validator |
| `find`, `checkIndex` | `block`, `resolve` |
| `checkWrite` | `check_write` |

Main statements: `checkWrite_eq_ok_iff` says which writes are accepted, and `Gates.apply_of_other`
that only the three gate registers change the gates.
-/

namespace PacketOffload

/-- Index of the fetch mask in the cluster control group. -/
def fetchIndex : Nat := 0

/-- Index of the reset in the cluster control group. -/
def resetIndex : Nat := 1

/-- The fetch mask that names every cluster. -/
def allClusters : UInt32 := UInt32.ofNat (1 <<< numClusters - 1)

/-- The state of the device that decides which writes it accepts. -/
structure Gates where
  inReset : Bool
  matchEnabled : Bool
  handlersEnabled : Bool
  deriving DecidableEq, Repr

namespace Gates

/-- After power-on the clusters are in reset and both engines are disabled. -/
def powerOn : Gates := ⟨true, false, false⟩

instance : Inhabited Gates := ⟨powerOn⟩

def apply (gates : Gates) (g : RegisterGroup) (index : Nat) (value : UInt32) : Gates :=
  match g with
  | .clusterControl => if index = resetIndex then { gates with inReset := value == 1 } else gates
  | .matchValid => { gates with matchEnabled := value == 1 }
  | .handlerValid => { gates with handlersEnabled := value == 1 }
  | _ => gates

/-- Only the reset and the two enable flags are gates. -/
theorem apply_of_other (gates : Gates) {g : RegisterGroup} (index : Nat) (value : UInt32)
    (hc : g ≠ .clusterControl) (hm : g ≠ .matchValid) (hh : g ≠ .handlerValid) :
    gates.apply g index value = gates := by
  cases g <;> simp_all [apply]

end Gates

/-- Why a rule refuses a value, if it does. -/
def WriteRule.refusal? (rule : WriteRule) (index : Nat) (value : UInt32) (gates : Gates) :
    Option Refusal :=
  match rule with
  | .clusterControl =>
    if index = fetchIndex then (if value > allClusters then some .fetchMask else none)
    else if value > 1 then some .flagValue else none
  | .enableFlag => if value > 1 then some .flagValue else none
  | .matchConfig => if gates.matchEnabled then some .matchEnabled else none
  | .handlerConfig => if gates.handlersEnabled then some .handlersEnabled else none

namespace RegisterGroup

def find (name : String) : Except Fault RegisterGroup :=
  match ofName? name with
  | some g => .ok g
  | none => .error (.unknownRegister name)

def checkIndex (g : RegisterGroup) (index : Nat) : Except Fault Unit :=
  if index < g.count then .ok () else .error (.registerIndex g index)

/-- Accepts the writes that the device would accept: of an index of the group, to a writable group,
of a value that the group's rule admits in the present state of the gates. -/
def checkWrite (g : RegisterGroup) (index : Nat) (value : UInt32) (gates : Gates) :
    Except Fault Unit :=
  if g.count ≤ index then .error (.registerIndex g index)
  else match g.block.writeRule with
    | none => .error (.readOnlyRegister g)
    | some rule =>
      match rule.refusal? index value gates with
      | some why => .error (.registerRefused g index value why)
      | none => .ok ()

theorem checkWrite_eq_ok_iff {g : RegisterGroup} {index : Nat} {value : UInt32} {gates : Gates} :
    g.checkWrite index value gates = .ok () ↔
      index < g.count ∧
        ∃ rule, g.block.writeRule = some rule ∧ rule.refusal? index value gates = none := by
  unfold checkWrite
  by_cases hi : g.count ≤ index
  · simp [hi, Nat.not_lt.2 hi]
  · simp only [hi, if_false]
    cases hr : g.block.writeRule with
    | none => simp
    | some rule =>
      cases hw : rule.refusal? index value gates with
      | none => simp [hw]; omega
      | some why => simp [hw]

end RegisterGroup

end PacketOffload
