import PacketOffload.Files.Tree
import PacketOffload.Ring.Geometry

/-!
# Configuration

Where a device is found and which context is driven. Everything has a default; three variables of
the environment override it.

| here | operation |
| --- | --- |
| `ofEnvironment` | `from_env`, `with_overrides` |
| `withContext` | `with_context` |
| `geometry` | `ring_geometry` |
| `hostDmaPages` | `hostdma_num_pages` |
-/

namespace PacketOffload

/-- Where to find a device, and which of its contexts to drive. -/
structure DeviceConfig where
  devicePath : String
  /-- The directory of the registers' files. -/
  registerBase : String
  /-- The file with the size of the host DMA memory in pages. -/
  pagesFile : String
  contextId : Nat
  /-- Slots of the ring. -/
  unitCount : Nat
  deriving DecidableEq, Repr

namespace DeviceConfig

def standard : DeviceConfig where
  devicePath := "/dev/pspin0"
  registerBase := "/sys/devices/pci0000:00/0000:00:03.1/0000:1d:00.0/mqnic.app_12340100.0"
  pagesFile := "/sys/module/mqnic_app_pspin/parameters/hostdma_num_pages"
  contextId := 0
  unitCount := numUnits

def deviceVariable : String := "FPSPIN_DEVICE"

def registerBaseVariable : String := "FPSPIN_REGS_BASE"

def contextVariable : String := "FPSPIN_CTX"

/-- The configuration for another context, of those that the device has. -/
def withContext (c : DeviceConfig) (ctx : Nat) : Except Fault DeviceConfig :=
  if ctx < numContexts then .ok { c with contextId := ctx }
  else .error (.invalidArgument (.contextRange ctx))

/-- The configuration for the context that a text names; blanks around the number do not count. -/
def withContextText (c : DeviceConfig) (text : String) : Except Fault DeviceConfig :=
  match Text.count? (Text.trim text) with
  | some ctx => c.withContext ctx
  | none => .error (.invalidArgument (.contextText contextVariable text))

/-- The standard configuration with the overrides of an environment; a value that is no text counts
as none. -/
def ofEnvironment (value? : (name : String) → Option Bytes) : Except Fault DeviceConfig :=
  let text? name := (value? name).bind Utf8.decode?
  let c := { standard with
    devicePath := (text? deviceVariable).getD standard.devicePath
    registerBase := (text? registerBaseVariable).getD standard.registerBase }
  match text? contextVariable with
  | some text => c.withContextText text
  | none => .ok c

/-- A ring of standard slots, as many as the configuration says. -/
def geometry (c : DeviceConfig) : Geometry := { Geometry.standard with unitCount := c.unitCount }

/-- The size of the host DMA memory in pages. -/
def hostDmaPages (c : DeviceConfig) (tree : FileTree) : Except Fault Nat := do
  let path ← (Path.resolve [] c.pagesFile).mapError Fault.transfer
  let text ← tree.readText path
  match Text.count? text with
  | some count => return count
  | none => throw (.invalidArgument (.countText c.pagesFile text))

end DeviceConfig

end PacketOffload
