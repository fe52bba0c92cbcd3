/-!
# Register groups

The control registers of the accelerator come in groups of 32-bit registers. A group has a name, a
number of registers, a place in the register space, a directory of attribute files, and a rule for
writes: none at all (the group is read-only), or a condition on the value and on the state of the
device.

| here | operation |
| --- | --- |
| `RegisterGroup`, `block` | the register table, in its order |
| `address` | `address` of a block, on 32 bits |
| `ofName?` | `block` |

Main statements: a group is found by its name and by no other (`ofName?_name`,
`name_of_ofName?`), and a directory belongs to one group (`directory_injective`).
-/

namespace PacketOffload

def numClusters : Nat := 2

def numRuleSets : Nat := 4

def rulesPerSet : Nat := 4

def numContexts : Nat := 4

/-- When a register of a writable group accepts a value. -/
inductive WriteRule where
  /-- The fetch mask names existing clusters only; the reset is 0 or 1. -/
  | clusterControl
  /-- The value is 0 or 1. -/
  | enableFlag
  /-- The matching engine is disabled. -/
  | matchConfig
  /-- Handler execution is disabled. -/
  | handlerConfig
  deriving DecidableEq, Repr

/-- The register groups, in the order of the register space. -/
inductive RegisterGroup where
  /-- Fetch mask (index 0) and reset (index 1) of the clusters. -/
  | clusterControl
  | clusterFifo
  /-- End-of-computation and busy masks. -/
  | clusterStatus
  /-- Mask of full message queues. -/
  | messageQueue
  | datapathStats
  /-- Enable of the matching engine. -/
  | matchValid
  | matchMode
  | matchIndex
  | matchMask
  | matchStart
  | matchEnd
  /-- Enable of handler execution. -/
  | handlerValid
  | contextEnabled
  | handlerMemAddr
  | handlerMemSize
  | hostMemAddrLo
  | hostMemAddrHi
  | hostMemSize
  | headAddr
  | headSize
  | packetAddr
  | packetSize
  | tailAddr
  | tailSize
  | scratchpad0Addr
  | scratchpad0Size
  | scratchpad1Addr
  | scratchpad1Size
  | scratchpad2Addr
  | scratchpad2Size
  | scratchpad3Addr
  | scratchpad3Size
  deriving DecidableEq, Repr

/-- A group's entry in the register table. -/
structure RegisterBlock where
  name : String
  count : Nat
  /-- Byte offset of the group's first register. -/
  offset : UInt32
  /-- Directory of the attribute files, from the register directory on. -/
  directory : List String
  /-- `none` for a read-only group. -/
  writeRule : Option WriteRule
  deriving DecidableEq, Repr

/-- A group with one register for each rule of the matching engine. -/
def ruleBlock (name : String) (offset : UInt32) (directory : String) : RegisterBlock :=
  ⟨name, numRuleSets * rulesPerSet, offset, ["me", directory], some .matchConfig⟩

/-- A group with one register for each context's description. -/
def contextBlock (name : String) (offset : UInt32) (directory : String) : RegisterBlock :=
  ⟨name, numContexts, offset, ["her_meta", directory], some .handlerConfig⟩

namespace RegisterGroup

/-- The register table. -/
def block : RegisterGroup → RegisterBlock
  | .clusterControl => ⟨"cl_ctrl", 2, 0x0000, ["cl", "ctrl"], some .clusterControl⟩
  | .clusterFifo => ⟨"cl_fifo", 1, 0x0008, ["cl", "fifo"], none⟩
  | .clusterStatus => ⟨"cl_stat", 2, 0x1000, ["stats", "cluster"], none⟩
  | .messageQueue => ⟨"mpq", 1, 0x1008, ["stats", "mpq"], none⟩
  | .datapathStats => ⟨"datapath_stats", 2, 0x100c, ["stats", "datapath"], none⟩
  | .matchValid => ⟨"me_valid", 1, 0x2000, ["me", "valid"], some .enableFlag⟩
  | .matchMode => ⟨"me_mode", numRuleSets, 0x2004, ["me", "mode"], some .matchConfig⟩
  | .matchIndex => ruleBlock "me_idx" 0x2014 "idx"
  | .matchMask => ruleBlock "me_mask" 0x2054 "mask"
  | .matchStart => ruleBlock "me_start" 0x2094 "start"
  | .matchEnd => ruleBlock "me_end" 0x20d4 "end"
  | .handlerValid => ⟨"her_valid", 1, 0x3000, ["her", "valid"], some .enableFlag⟩
  | .contextEnabled =>
    ⟨"her_ctx_enabled", numContexts, 0x3004, ["her", "ctx_enabled"], some .handlerConfig⟩
  | .handlerMemAddr => contextBlock "her_handler_mem_addr" 0x4000 "handler_mem_addr"
  | .handlerMemSize => contextBlock "her_handler_mem_size" 0x4010 "handler_mem_size"
  | .hostMemAddrLo => contextBlock "her_host_mem_addr_lo" 0x4020 "host_mem_addr_0"
  | .hostMemAddrHi => contextBlock "her_host_mem_addr_hi" 0x4030 "host_mem_addr_1"
  | .hostMemSize => contextBlock "her_host_mem_size" 0x4040 "host_mem_size"
  | .headAddr => contextBlock "her_hh_addr" 0x4050 "hh_addr"
  | .headSize => contextBlock "her_hh_size" 0x4060 "hh_size"
  | .packetAddr => contextBlock "her_ph_addr" 0x4070 "ph_addr"
  | .packetSize => contextBlock "her_ph_size" 0x4080 "ph_size"
  | .tailAddr => contextBlock "her_th_addr" 0x4090 "th_addr"
  | .tailSize => contextBlock "her_th_size" 0x40a0 "th_size"
  | .scratchpad0Addr => contextBlock "her_scratchpad_0_addr" 0x40b0 "scratchpad_0_addr"
  | .scratchpad0Size => contextBlock "her_scratchpad_0_size" 0x40c0 "scratchpad_0_size"
  | .scratchpad1Addr => contextBlock "her_scratchpad_1_addr" 0x40d0 "scratchpad_1_addr"
  | .scratchpad1Size => contextBlock "her_scratchpad_1_size" 0x40e0 "scratchpad_1_size"
  | .scratchpad2Addr => contextBlock "her_scratchpad_2_addr" 0x40f0 "scratchpad_2_addr"
  | .scratchpad2Size => contextBlock "her_scratchpad_2_size" 0x4100 "scratchpad_2_size"
  | .scratchpad3Addr => contextBlock "her_scratchpad_3_addr" 0x4110 "scratchpad_3_addr"
  | .scratchpad3Size => contextBlock "her_scratchpad_3_size" 0x4120 "scratchpad_3_size"

/-- All groups, in the order of the table. -/
def all : List RegisterGroup :=
  [.clusterControl, .clusterFifo, .clusterStatus, .messageQueue, .datapathStats, .matchValid,
   .matchMode, .matchIndex, .matchMask, .matchStart, .matchEnd, .handlerValid, .contextEnabled,
   .handlerMemAddr, .handlerMemSize, .hostMemAddrLo, .hostMemAddrHi, .hostMemSize, .headAddr,
   .headSize, .packetAddr, .packetSize, .tailAddr, .tailSize, .scratchpad0Addr, .scratchpad0Size,
   .scratchpad1Addr, .scratchpad1Size, .scratchpad2Addr, .scratchpad2Size, .scratchpad3Addr,
   .scratchpad3Size]

def name (g : RegisterGroup) : String := g.block.name

def count (g : RegisterGroup) : Nat := g.block.count

def directory (g : RegisterGroup) : List String := g.block.directory

/-- Byte address of a register; the index is taken modulo `2 ^ 32`, and so is the sum. -/
def address (g : RegisterGroup) (index : Nat) : UInt32 :=
  g.block.offset + 4 * UInt32.ofNat index

def ofName? (name : String) : Option RegisterGroup := all.find? (·.name == name)

theorem mem_all (g : RegisterGroup) : g ∈ all := by
  cases g <;> decide

theorem directory_injective {g h : RegisterGroup} (eq : g.directory = h.directory) : g = h := by
  have key : ∀ g ∈ all, ∀ h ∈ all, g.directory = h.directory → g = h := by decide +kernel
  exact key g (mem_all g) h (mem_all h) eq

@[simp] theorem ofName?_name (g : RegisterGroup) : ofName? g.name = some g := by
  have key : ∀ g ∈ all, ofName? g.name = some g := by decide +kernel
  exact key g (mem_all g)

theorem name_of_ofName? {name : String} {g : RegisterGroup} (h : ofName? name = some g) :
    g.name = name := by
  simpa using List.find?_some h

/-- The registers of the table, group after group. -/
def registers : List (RegisterGroup × Nat) :=
  all.flatMap fun g => (List.range g.count).map fun i => (g, i)

theorem mem_registers {g : RegisterGroup} {i : Nat} : (g, i) ∈ registers ↔ i < g.count := by
  simp [registers, mem_all]

end RegisterGroup

end PacketOffload
