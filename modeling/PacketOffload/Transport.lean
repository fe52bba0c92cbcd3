import PacketOffload.Fault
import PacketOffload.Files.Contents
import PacketOffload.Firmware.Aperture

/-!
# Transports

A transport carries the host's accesses to a device. It checks nothing: what reaches it was
checked before. A state `σ` of which this module's classes have instances stands for a device and
the way to it; whatever changes the device gives a new state.

| here | operation |
| --- | --- |
| `DmaSource.file` | `dma_file` |
| `MappingHost` | `mmap` and `madvise` of the host's system |
| `readRegister`, `writeRegister` | `read_register`, `write_register` |
| `readWord`, `writeWord` | `read_mem_word`, `write_mem_word` |
| `region`, `peek`, `poke` | `query_dma`, `raw_peek`, `raw_poke` |
-/

namespace PacketOffload

/-- What the system of the host grants of its memory. -/
structure MappingHost where
  /-- The longest mapping in whole pages. -/
  longest : (source : MapSource) → Nat
  /-- Keeps a fresh mapping of a length out of child processes. -/
  exclude : (length : Nat) → Except OsError Unit

/-- A host that maps a file as far as the largest free range of its address space goes, and memory
of its own as far as it has it, and that keeps every mapping out of child processes. -/
def MappingHost.standard : MappingHost where
  longest
    | .device => 0x555555544000
    | .anonymous => 0x7fffff000
  exclude _ := .ok ()

/-- Where host memory that the device can reach comes from: the file, if there is one, whose bytes
stand behind it, and the host that maps it. -/
class DmaSource (σ : Type) where
  file : σ → Option FileContents
  setFile : σ → FileContents → σ
  host : σ → MappingHost

/-- The accesses to a device. An access that may change something gives the state after it, also if
it fails. -/
class Transport (σ : Type) extends DmaSource σ where
  readRegister : σ → RegisterGroup → (index : Nat) → Except Fault UInt32
  writeRegister : σ → RegisterGroup → (index : Nat) → (value : UInt32) → Except Fault Unit × σ
  readWord : σ → (offset : Nat) → Except Fault UInt32
  writeWord : σ → (offset : Nat) → (word : UInt32) → Except Fault Unit × σ
  region : σ → (ctx : Nat) → Except Fault DmaRegion
  peek : σ → (addr : Nat) → Except Fault UInt64
  poke : σ → (addr : Nat) → (word : UInt64) → Except Fault Unit × σ

/-- The contents of a file are a source of their own. -/
instance : DmaSource FileContents where
  file := some
  setFile _ contents := contents
  host _ := .standard

/-- Without a device there is no file. -/
instance : DmaSource Unit where
  file _ := none
  setFile _ _ := ()
  host _ := .standard

end PacketOffload
