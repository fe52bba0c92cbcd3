import PacketOffload.Register.Gates
import PacketOffload.Transport

/-!
# A simulated device

The device as plain state: a value in every register, a memory window of 32-bit words, 64-bit words
for direct accesses, and a DMA region for each context that has one. It checks nothing but the end
of the memory window, and it keeps a record of the register writes and pokes that took effect.
Writes to one group can be made to fail.

| here | operation |
| --- | --- |
| `enableRegion`, `failWritesTo` | `enable_dma`, `fail_writes_to` |
| `clearLog`, `setRaw`, `writesTo` | `clear_log`, `set_raw`, `writes_to` |

Main statement: what a register reads after a write (`register_writeRegister`).
-/

namespace PacketOffload

/-- A register write that took effect. -/
structure RegisterWrite where
  group : RegisterGroup
  index : Nat
  value : UInt32
  deriving DecidableEq, Repr

structure Simulator where
  register : RegisterGroup → (index : Nat) → UInt32
  /-- The memory window, by byte offset. -/
  memory : Memory UInt32
  /-- The words of direct accesses, by address. -/
  raw : Memory UInt64
  regions : (ctx : Nat) → Option DmaRegion
  /-- Register writes, oldest first. -/
  writes : Array RegisterWrite
  /-- Pokes as address and word, oldest first. -/
  pokes : Array (Nat × UInt64)
  /-- Writes to this group fail. -/
  failing : Option RegisterGroup
  /-- The host that maps memory. -/
  host : MappingHost := .standard

namespace Simulator

/-- After power-on the clusters are in reset, and all else is zero. -/
def powerOn : Simulator where
  register g index := if g = .clusterControl ∧ index = resetIndex then 1 else 0
  memory := .empty
  raw := .empty
  regions _ := none
  writes := #[]
  pokes := #[]
  failing := none

instance : Inhabited Simulator := ⟨powerOn⟩

def setRegister (d : Simulator) (g : RegisterGroup) (index : Nat) (value : UInt32) : Simulator :=
  { d with register := fun h i => if h = g ∧ i = index then value else d.register h i }

/-- The device with an enabled DMA region for a context, if there is such a context. -/
def enableRegion (d : Simulator) (ctx : Nat) (handle size : UInt64) : Simulator :=
  if ctx < numContexts then
    { d with regions := fun other =>
        if other = ctx then some ⟨handle, size, true⟩ else d.regions other }
  else d

/-- The device that refuses writes to a group, or to none. -/
def failWritesTo (d : Simulator) (g : Option RegisterGroup) : Simulator := { d with failing := g }

/-- The device without its record of writes and pokes. -/
def clearLog (d : Simulator) : Simulator := { d with writes := #[], pokes := #[] }

def setRaw (d : Simulator) (addr : Nat) (word : UInt64) : Simulator :=
  { d with raw := d.raw.set addr word }

def writesTo (d : Simulator) (g : RegisterGroup) : Array RegisterWrite :=
  d.writes.filter (·.group = g)

/-- A register write, which fails for the failing group. -/
def writeRegister (d : Simulator) (g : RegisterGroup) (index : Nat) (value : UInt32) :
    Except Fault Unit × Simulator :=
  if d.failing = some g then (.error (.transfer (.refusedWrite g index)), d)
  else (.ok (), { d.setRegister g index value with writes := d.writes.push ⟨g, index, value⟩ })

def checkOffset (offset : Nat) : Except Fault Unit :=
  if offset < windowLength then .ok () else .error (.memoryRange offset)

instance : Transport Simulator where
  file _ := none
  setFile d _ := d
  host := Simulator.host
  readRegister d g index := .ok (d.register g index)
  writeRegister := writeRegister
  readWord d offset := (checkOffset offset).map fun _ => d.memory.get offset
  writeWord d offset word :=
    match checkOffset offset with
    | .ok () => (.ok (), { d with memory := d.memory.set offset word })
    | .error e => (.error e, d)
  region d ctx :=
    match d.regions ctx with
    | some region => if region.enabled then .ok region else .error (.regionDisabled ctx)
    | none => .error (.regionDisabled ctx)
  peek d addr := .ok (d.raw.get addr)
  poke d addr word := (.ok (), { d.setRaw addr word with pokes := d.pokes.push (addr, word) })

theorem register_setRegister (d : Simulator) (g h : RegisterGroup) (i j : Nat) (value : UInt32) :
    (d.setRegister g i value).register h j = if h = g ∧ j = i then value else d.register h j := rfl

theorem register_writeRegister (d : Simulator) (g h : RegisterGroup) (i j : Nat) (value : UInt32) :
    (d.writeRegister g i value).2.register h j =
      if d.failing ≠ some g ∧ h = g ∧ j = i then value else d.register h j := by
  unfold writeRegister
  by_cases hf : d.failing = some g <;> simp [hf, setRegister]

end Simulator

end PacketOffload
