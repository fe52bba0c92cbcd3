import PacketOffload.Dma.Buffer
import PacketOffload.Register.Gates

/-!
# Sessions

A session is the host's hold of one device for one context. It knows the state of the gates from
the device's registers when it begins and from its own writes afterwards, and refuses the writes
and memory accesses that the device would not take. Once mapped, it holds the context's DMA buffer;
at most one ring is attached to that buffer at a time.

| here | operation |
| --- | --- |
| `Session.start` | `with_transport` |
| `read`, `readNamed` | `read_register` |
| `write`, `writeNamed` | `write_register` |
| `checkMemory`, `readMemory`, `writeMemory` | `check_mem`, `read_mem_word`, `write_mem_word` |
| `queryRegion` | `query_dma` |
| `mapBuffer`, `getBuffer` | `map_dma_buffer`, `dma_buffer` |
| `peek`, `poke`, `stats` | `raw_peek`, `raw_poke`, `cluster_stats` |

Of what is logged, warnings are kept as notices; the rest is left out.

Main statement: a write that is refused leaves the session as it is (`write_of_refused`).
-/

namespace PacketOffload

/-- Something that is reported and does not stop anything. -/
inductive Notice where
  /-- A request in the slot of one unit names another one. -/
  | foreignUnit (slot : Nat) (flag : UInt64) (named : Nat)
  /-- The clean-up after a failed start failed, too. -/
  | unloadFailed (ctx : Nat) (fault : Fault)
  deriving DecidableEq, Repr

def Notice.message : Notice → String
  | .foreignUnit slot flag named =>
    s!"ring anomaly on slot {slot}: flag {Text.hex flag.toNat} names hpu {named}"
  | .unloadFailed ctx fault => s!"unload after failed init of context {ctx}: {fault.message}"

structure Session (σ : Type) where
  device : σ
  contextId : Nat
  /-- The DMA region of the context, once it was asked for. -/
  region : Option DmaRegion
  buffer : Option DmaBuffer
  gates : Gates
  /-- A ring is attached to the buffer. -/
  ringAttached : Bool
  /-- What was reported so far, oldest first. -/
  notices : List Notice

/-- Words of the device's counters. -/
structure ClusterStats where
  cluster : List UInt32
  messageQueue : UInt32
  datapath : List UInt32
  deriving DecidableEq, Repr

namespace Session

variable {σ : Type} [Transport σ]

def start (device : σ) (ctx : Nat) : Except Fault (Session σ) := do
  let reset ← Transport.readRegister device .clusterControl resetIndex
  let matching ← Transport.readRegister device .matchValid 0
  let handlers ← Transport.readRegister device .handlerValid 0
  return {
    device
    contextId := ctx
    region := none
    buffer := none
    gates := ⟨reset == 1, matching == 1, handlers == 1⟩
    ringAttached := false
    notices := [] }

def report (s : Session σ) (notice : Notice) : Session σ :=
  { s with notices := s.notices ++ [notice] }

/-! ## Registers -/

def read (s : Session σ) (g : RegisterGroup) (index : Nat) : Except Fault UInt32 := do
  g.checkIndex index
  Transport.readRegister s.device g index

/-- The value of a register of the group of a name. -/
def readNamed (s : Session σ) (name : String) (index : Nat) : Except Fault UInt32 := do
  let g ← RegisterGroup.find name
  s.read g index

/-- Writes a register, if the device would take the value. -/
def write (s : Session σ) (g : RegisterGroup) (index : Nat) (value : UInt32) :
    Except Fault Unit × Session σ :=
  match g.checkWrite index value s.gates with
  | .error e => (.error e, s)
  | .ok () =>
    match Transport.writeRegister s.device g index value with
    | (.ok (), device) => (.ok (), { s with device, gates := s.gates.apply g index value })
    | (.error e, device) => (.error e, { s with device })

/-- Writes a register of the group of a name. -/
def writeNamed (s : Session σ) (name : String) (index : Nat) (value : UInt32) :
    Except Fault Unit × Session σ :=
  match RegisterGroup.find name with
  | .ok g => s.write g index value
  | .error e => (.error e, s)

/-- The counters of the clusters, the message queues and the datapath. -/
def stats (s : Session σ) : Except Fault ClusterStats := do
  let busy0 ← s.read .clusterStatus 0
  let busy1 ← s.read .clusterStatus 1
  let messageQueue ← s.read .messageQueue 0
  let taken ← s.read .datapathStats 0
  let bypassed ← s.read .datapathStats 1
  return ⟨[busy0, busy1], messageQueue, [taken, bypassed]⟩

/-! ## The memory window -/

/-- Accepts the accesses that the memory window takes: of aligned words inside it, while the
clusters are out of reset. -/
def checkMemory (s : Session σ) (offset : Nat) : Except Fault Unit :=
  if s.gates.inReset then .error .inReset
  else if offset % 4 ≠ 0 ∨ windowLength < offset + 4 then .error (.memoryRange offset)
  else .ok ()

def readMemory (s : Session σ) (offset : Nat) : Except Fault UInt32 := do
  s.checkMemory offset
  Transport.readWord s.device offset

def writeMemory (s : Session σ) (offset : Nat) (word : UInt32) : Except Fault Unit × Session σ :=
  match s.checkMemory offset with
  | .error e => (.error e, s)
  | .ok () =>
    let (result, device) := Transport.writeWord s.device offset word
    (result, { s with device })

/-! ## Direct accesses -/

def peek (s : Session σ) (addr : Nat) : Except Fault UInt64 := Transport.peek s.device addr

def poke (s : Session σ) (addr : Nat) (word : UInt64) : Except Fault Unit × Session σ :=
  let (result, device) := Transport.poke s.device addr word
  (result, { s with device })

/-! ## Host memory -/

/-- The DMA region of a context, which has to be enabled. The session keeps that of its own
context. -/
def queryRegion (s : Session σ) (ctx : Nat) : Except Fault DmaRegion × Session σ :=
  match Transport.region s.device ctx with
  | .error e => (.error e, s)
  | .ok region =>
    if region.enabled then
      (.ok region, if ctx = s.contextId then { s with region := some region } else s)
    else (.error (.regionDisabled ctx), s)

/-- Length and offset of the buffer of a context that is `pages` pages long: the buffers of the
contexts lie one after the other. -/
def bufferPlace (ctx pages : Nat) : Except Fault (Nat × Nat) :=
  let length := pages * pageSize
  if pages = 0 then .error (.invalidArgument .noPages)
  else if length < UInt64.size ∧ ctx * length < UInt64.size then .ok (length, ctx * length)
  else .error (.invalidArgument (.pageCount pages))

/-- Maps the context's buffer, in place of the one before. -/
def mapBuffer (s : Session σ) (pages : Nat) : Except Fault DmaBuffer × Session σ :=
  match bufferPlace s.contextId pages with
  | .error e => (.error e, s)
  | .ok (length, offset) =>
    match DmaBuffer.map s.device length offset with
    | .ok buffer => (.ok buffer, { s with buffer := some buffer })
    | .error e => (.error e, { s with buffer := none })

def getBuffer (s : Session σ) : Except Fault DmaBuffer :=
  match s.buffer with
  | some buffer => .ok buffer
  | none => .error .noBuffer

def readBytes (s : Session σ) (offset length : Nat) : Except Fault Bytes := do
  let buffer ← s.getBuffer
  buffer.readBytes s.device offset length

def readWord (s : Session σ) (offset : Nat) : Except Fault UInt64 := do
  let buffer ← s.getBuffer
  buffer.readWord s.device offset

def writeBytes (s : Session σ) (offset : Nat) (data : Bytes) : Except Fault Unit × Session σ :=
  match s.buffer with
  | none => (.error .noBuffer, s)
  | some buffer =>
    let (result, buffer, device) := buffer.writeBytes s.device offset data
    (result, { s with buffer := some buffer, device })

def writeWord (s : Session σ) (offset : Nat) (word : UInt64) : Except Fault Unit × Session σ :=
  match s.buffer with
  | none => (.error .noBuffer, s)
  | some buffer =>
    let (result, buffer, device) := buffer.writeWord s.device offset word
    (result, { s with buffer := some buffer, device })

/-! ## What a write does -/

theorem write_of_refused {s : Session σ} {g : RegisterGroup} {index : Nat} {value : UInt32}
    {e : Fault} (h : g.checkWrite index value s.gates = .error e) :
    s.write g index value = (.error e, s) := by
  simp [write, h]

end Session

end PacketOffload
