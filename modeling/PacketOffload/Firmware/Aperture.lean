import PacketOffload.Firmware.Image

/-!
# The memories of the device

Addresses of the accelerator fall into two memories that a load can reach, the level-2 memory and
the program memory. The host sees both through one memory window, each from an offset of its own.
An aperture is a range of addresses that a context's handlers may use.

| here | operation |
| --- | --- |
| `windowOffset` | `translate_address` |
| `HostAperture.ofRegion` | `from_region` |
| `dataAperture` | the handler memory in `program_apertures` |
-/

namespace PacketOffload

def l2Base : Nat := 0x1c000000

def l2End : Nat := 0x1c100000

def programBase : Nat := 0x1d000000

/-- Offset of the program memory in the memory window. -/
def programOffset : Nat := 0x400000

def windowLength : Nat := 0x800000

/-- The offset in the memory window of an address of the accelerator. -/
def windowOffset (addr : UInt32) : Except Fault Nat :=
  if programBase ≤ addr.toNat then .ok (addr.toNat - programBase + programOffset)
  else if l2Base ≤ addr.toNat then .ok (addr.toNat - l2Base)
  else .error (.invalidImage (.belowDevice addr))

/-- A range of accelerator memory. -/
structure Aperture where
  addr : UInt32
  size : UInt32
  deriving DecidableEq, Repr, Inhabited

/-- The aperture of a stage without a handler. -/
def Aperture.none : Aperture := ⟨0, 0⟩

/-- A range of host memory. -/
structure HostAperture where
  addr : UInt64
  size : UInt32
  deriving DecidableEq, Repr

/-- The host memory of a context, as the driver reports it. -/
structure DmaRegion where
  /-- Bus address. -/
  handle : UInt64
  size : UInt64
  /-- Allocated, and ready for use. -/
  enabled : Bool
  deriving DecidableEq, Repr

def HostAperture.ofRegion (region : DmaRegion) : Except Fault HostAperture :=
  if region.size.toNat < UInt32.size then .ok ⟨region.handle, region.size.toUInt32⟩
  else .error (.invalidArgument (.regionSize region.size))

/-- The aperture on the level-2 memory behind a section of handler data: it begins after the
section, and its size is what the level-2 memory holds from the start of the section on. -/
def dataAperture (info : SectionInfo) : Except Fault Aperture :=
  if info.addr.toNat ≤ l2End then
    .ok ⟨info.addr + info.size, UInt32.ofNat (l2End - info.addr.toNat)⟩
  else .error (.invalidImage (.beyondL2 info.addr))

end PacketOffload
