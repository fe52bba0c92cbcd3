import PacketOffload.Transport

/-!
# Faulty transports

A transport around another one that fails now and then. It numbers the accesses that change the
device, register writes and stores to the memory window, and a plan says which of them fail; a
failed access does not reach the device. It can also report DMA regions as not enabled.

Main statements: an access that the plan spares goes through (`writeRegister_of_spared`), and one
that it names leaves the device as it is (`writeRegister_of_chosen`).
-/

namespace PacketOffload

/-- Which accesses fail: a register write or a store, after so many register writes and so many
stores. -/
structure FaultPlan where
  write : (writes stores : Nat) → Bool
  store : (writes stores : Nat) → Bool

namespace FaultPlan

def none : FaultPlan := ⟨fun _ _ => false, fun _ _ => false⟩

/-- Only the `n`-th register write fails, counted from one. -/
def nthWrite (n : Nat) : FaultPlan := ⟨fun writes _ => writes + 1 == n, fun _ _ => false⟩

/-- Only the `n`-th access fails, counted from one. -/
def nthAccess (n : Nat) : FaultPlan :=
  ⟨fun writes stores => writes + stores + 1 == n, fun writes stores => writes + stores + 1 == n⟩

/-- Some register writes fail, counted from zero. -/
def someWrites (chosen : Nat → Bool) : FaultPlan :=
  ⟨fun writes _ => chosen writes, fun _ _ => false⟩

end FaultPlan

structure Faulty (σ : Type) where
  device : σ
  plan : FaultPlan
  writes : Nat
  stores : Nat
  /-- A context whose DMA region shows as not enabled. -/
  hidden : Option Nat

namespace Faulty

variable {σ : Type}

def of (device : σ) : Faulty σ := ⟨device, .none, 0, 0, none⟩

/-- The transport with another plan, which counts from here. -/
def follow (f : Faulty σ) (plan : FaultPlan) : Faulty σ := { f with plan, writes := 0, stores := 0 }

/-- The transport that shows the region of a context, and of no other, as not enabled. -/
def hideRegion (f : Faulty σ) (ctx : Nat) : Faulty σ := { f with hidden := some ctx }

variable [Transport σ]

/-- A register write, unless the plan makes it fail. -/
def writeRegister (f : Faulty σ) (g : RegisterGroup) (index : Nat) (value : UInt32) :
    Except Fault Unit × Faulty σ :=
  if f.plan.write f.writes f.stores then
    (.error (.transfer .chosenWrite), { f with writes := f.writes + 1 })
  else
    let (result, device) := Transport.writeRegister f.device g index value
    (result, { f with device, writes := f.writes + 1 })

/-- A store to the memory window, unless the plan makes it fail. -/
def writeWord (f : Faulty σ) (offset : Nat) (word : UInt32) : Except Fault Unit × Faulty σ :=
  if f.plan.store f.writes f.stores then
    (.error (.transfer .chosenWrite), { f with stores := f.stores + 1 })
  else
    let (result, device) := Transport.writeWord f.device offset word
    (result, { f with device, stores := f.stores + 1 })

instance : Transport (Faulty σ) where
  file f := DmaSource.file f.device
  setFile f contents := { f with device := DmaSource.setFile f.device contents }
  host f := DmaSource.host f.device
  readRegister f := Transport.readRegister f.device
  writeRegister := writeRegister
  readWord f := Transport.readWord f.device
  writeWord := writeWord
  region f ctx := (Transport.region f.device ctx).map fun region =>
    if f.hidden = some ctx then { region with enabled := false } else region
  peek f := Transport.peek f.device
  poke f addr word :=
    let (result, device) := Transport.poke f.device addr word
    (result, { f with device })

theorem writeRegister_of_spared {f : Faulty σ} (h : f.plan.write f.writes f.stores = false)
    (g : RegisterGroup) (index : Nat) (value : UInt32) :
    f.writeRegister g index value =
      ((Transport.writeRegister f.device g index value).1,
        { f with
          device := (Transport.writeRegister f.device g index value).2
          writes := f.writes + 1 }) := by
  simp [writeRegister, h]

theorem writeRegister_of_chosen {f : Faulty σ} (h : f.plan.write f.writes f.stores = true)
    (g : RegisterGroup) (index : Nat) (value : UInt32) :
    f.writeRegister g index value =
      (.error (.transfer .chosenWrite), { f with writes := f.writes + 1 }) := by
  simp [writeRegister, h]

end Faulty

end PacketOffload
