import PacketOffload.Transport

/-!
# DMA buffers

A DMA buffer is host memory that the device can reach: a range of the device's file if there is one,
else memory of its own. It is mapped as far as the host grants that, and kept out of child
processes. Bytes and little-endian 64-bit words are read and written at offsets in the
buffer; an access that does not lie in the buffer changes nothing and is refused, and so is one to
a word whose offset is no multiple of eight.

| here | operation |
| --- | --- |
| `ofDeviceFile`, `anonymous`, `pin` | `map_device`, `anonymous`, `pin` |
| `checkRange`, `checkWord` | `check_range`, `check_word` |
| `readWord`, `writeWord` | `read_u64`, `write_u64` |
| `readBytes`, `writeBytes` | `read_bytes`, `write_bytes`, `slice_mut` |

A buffer that is dropped is unmapped, which nothing here can observe.

Main statements: a read succeeds exactly in range (`readBytes_eq_ok_iff`, `readWord_eq_ok_iff`).
-/

namespace PacketOffload

/-- Where the bytes of a buffer are kept. -/
inductive DmaBacking where
  | own (cells : Memory UInt8)
  | deviceFile (offset : Nat)

structure DmaBuffer where
  length : Nat
  backing : DmaBacking

namespace DmaBuffer

/-! ## Mapping -/

section

variable (host : MappingHost)

/-- Accepts the lengths that can be mapped. -/
def checkLength (source : MapSource) (length : Nat) : Except Fault Unit :=
  if length = 0 then .error (.mapFailed (.map source) .invalidArgument)
  else if host.longest source < wholePages length then
    .error (.mapFailed (.map source) .outOfMemory)
  else .ok ()

/-- Keeps a buffer that was just mapped out of child processes; where that fails it is given up. -/
def pin (b : DmaBuffer) : Except Fault DmaBuffer :=
  match host.exclude b.length with
  | .ok () => .ok b
  | .error e => .error (.mapFailed .exclude e)

/-- A buffer of zero bytes. -/
def anonymous (length : Nat) : Except Fault DmaBuffer := do
  checkLength host .anonymous length
  pin host ⟨length, .own .empty⟩

/-- Accepts the offsets of a file that a mapping can begin at. -/
def checkStart (offset length : Nat) : Except Fault Unit :=
  if positionLimit ≤ offset then .error (.invalidArgument (.mapOffset offset))
  else if offset % pageSize ≠ 0 then .error (.mapFailed (.map .device) .invalidArgument)
  else match checkLength host .device length with
    | .error e => .error e
    | .ok () =>
      if offset + wholePages length < positionLimit then .ok ()
      else .error (.mapFailed (.map .device) .valueTooLarge)

def ofDeviceFile (length offset : Nat) : Except Fault DmaBuffer := do
  checkStart host offset length
  pin host ⟨length, .deviceFile offset⟩

end

/-- A buffer on the device's file if there is one, else a buffer of zero bytes. -/
def map {σ : Type} [DmaSource σ] (source : σ) (length offset : Nat) : Except Fault DmaBuffer :=
  match DmaSource.file source with
  | some _ => ofDeviceFile (DmaSource.host source) length offset
  | none => anonymous (DmaSource.host source) length

/-- The text that shows a buffer, with its place in memory as `place`. -/
def describe (b : DmaBuffer) (place : String) : String :=
  s!"DmaBuffer \x7b ptr: {place}, len: {b.length} \x7d"

/-! ## Access -/

def checkRange (b : DmaBuffer) (offset length : Nat) : Except Fault Unit :=
  if offset + length ≤ b.length then .ok ()
  else .error (.invalidArgument (.bufferRange offset length b.length))

def checkWord (b : DmaBuffer) (offset : Nat) : Except Fault Unit :=
  match b.checkRange offset 8 with
  | .error e => .error e
  | .ok () =>
    if offset % 8 = 0 then .ok () else .error (.invalidArgument (.wordAlignment offset))

section

variable {σ : Type} [DmaSource σ]

/-- The bytes from `start` on. -/
def getBytes (b : DmaBuffer) (source : σ) (start count : Nat) : Bytes :=
  match b.backing with
  | .own cells => cells.getRange start count
  | .deviceFile offset =>
    match DmaSource.file source with
    | some f => f.readMapped (offset + start) count
    | none => List.replicate count 0

/-- The buffer and what is behind it after bytes were written from `start` on. -/
def setBytes (b : DmaBuffer) (source : σ) (start : Nat) (data : Bytes) : DmaBuffer × σ :=
  match b.backing with
  | .own cells => ({ b with backing := .own (cells.setRange start data) }, source)
  | .deviceFile offset =>
    match DmaSource.file source with
    | some f => (b, DmaSource.setFile source (f.writeMapped (offset + start) data))
    | none => (b, source)

def readBytes (b : DmaBuffer) (source : σ) (offset length : Nat) : Except Fault Bytes :=
  (b.checkRange offset length).map fun _ => b.getBytes source offset length

def writeBytes (b : DmaBuffer) (source : σ) (offset : Nat) (data : Bytes) :
    Except Fault Unit × DmaBuffer × σ :=
  match b.checkRange offset data.length with
  | .ok () => (.ok (), b.setBytes source offset data)
  | .error e => (.error e, b, source)

def readWord (b : DmaBuffer) (source : σ) (offset : Nat) : Except Fault UInt64 :=
  (b.checkWord offset).map fun _ => Bytes.toWord64 (b.getBytes source offset 8)

def writeWord (b : DmaBuffer) (source : σ) (offset : Nat) (word : UInt64) :
    Except Fault Unit × DmaBuffer × σ :=
  match b.checkWord offset with
  | .ok () => (.ok (), b.setBytes source offset (Bytes.ofWord64 word))
  | .error e => (.error e, b, source)

theorem checkRange_eq_ok_iff {b : DmaBuffer} {offset length : Nat} :
    b.checkRange offset length = .ok () ↔ offset + length ≤ b.length := by
  unfold checkRange; split <;> simp_all

theorem checkWord_eq_ok_iff {b : DmaBuffer} {offset : Nat} :
    b.checkWord offset = .ok () ↔ offset + 8 ≤ b.length ∧ offset % 8 = 0 := by
  unfold checkWord checkRange
  by_cases h : offset + 8 ≤ b.length <;> by_cases h8 : offset % 8 = 0 <;> simp [h, h8]

theorem readBytes_eq_ok_iff {b : DmaBuffer} {source : σ} {offset length : Nat} {bytes : Bytes} :
    b.readBytes source offset length = .ok bytes ↔
      offset + length ≤ b.length ∧ b.getBytes source offset length = bytes := by
  unfold readBytes checkRange
  by_cases h : offset + length ≤ b.length <;> simp [h, Except.map]

theorem readWord_eq_ok_iff {b : DmaBuffer} {source : σ} {offset : Nat} {word : UInt64} :
    b.readWord source offset = .ok word ↔
      (offset + 8 ≤ b.length ∧ offset % 8 = 0) ∧
        Bytes.toWord64 (b.getBytes source offset 8) = word := by
  unfold readWord
  rw [← checkWord_eq_ok_iff]
  cases h : b.checkWord offset <;> simp [Except.map]

end

end DmaBuffer

end PacketOffload
