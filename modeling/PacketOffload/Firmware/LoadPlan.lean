import PacketOffload.Match.Engine

/-!
# Load plans

A load brings the firmware of one context onto the device, in the stages of `LoadStage`. Each stage
is a script that depends on the image, the context and the context's host memory alone, so that the
whole load is known before it begins.

| here | operation |
| --- | --- |
| `resetScript` | `fetch_off`, `pulse_reset` |
| `sectionScript` | `write_section` |
| `handlerScript` | `program_stage`, once for each of the three handlers |
| `memoryScript` | `program_apertures` |
| `loadPlan`, `loadedContext` | `load_image`: its stages, and the context it returns |
| `unloadScript` | `unload_image` |
-/

namespace PacketOffload

def handlerStageSize : UInt32 := 4096

/-- Bytes of each of the two scratchpads that a context is given. -/
def scratchpadSize : UInt32 := 4096

/-- The sections that a load writes, in their order. -/
def firmwareSections : List String := [".rodata", handlerDataSection, ".vectors", ".text"]

/-- A stage of a context's handlers: the symbol of the handler, and its aperture's registers. -/
structure HandlerStage where
  symbol : String
  addr : RegisterGroup
  size : RegisterGroup
  deriving DecidableEq, Repr

namespace HandlerStage

def head : HandlerStage := ⟨"_hh", .headAddr, .headSize⟩

def packet : HandlerStage := ⟨"_ph", .packetAddr, .packetSize⟩

def tail : HandlerStage := ⟨"_th", .tailAddr, .tailSize⟩

/-- The stages, in the order in which a load programs them. -/
def all : List HandlerStage := [head, packet, tail]

end HandlerStage

/-- The symbols that a load asks for. -/
def handlerSymbols : List String := HandlerStage.all.map (·.symbol)

/-- What a context was loaded with. -/
structure HandlerContext where
  ctx : Nat
  headHandler : Aperture
  packetHandler : Aperture
  tailHandler : Aperture
  /-- The level-2 memory after the handlers' data. -/
  handlerMem : Aperture
  hostMem : HostAperture
  scratchpadSize : UInt32
  enabled : Bool
  deriving DecidableEq, Repr

/-! ## Scripts of a load -/

/-- Takes the clusters through a reset, with instruction fetch off. -/
def resetScript : Script :=
  [.write .clusterControl fetchIndex 0, .write .clusterControl resetIndex 1,
    .write .clusterControl resetIndex 0]

/-- Stores words one after the other, from an offset on. -/
def storeScript (offset : Nat) : List UInt32 → Script
  | [] => []
  | word :: rest => .store offset word :: storeScript (offset + 4) rest

def sectionScript (image : FirmwareImage) (name : String) : Script :=
  match image.sectionInfo name, image.sectionBytes name with
  | .error e, _ => [.refuse e]
  | _, .error e => [.refuse e]
  | .ok info, .ok bytes =>
    match windowOffset info.addr with
    | .ok base => storeScript base (Bytes.words bytes)
    | .error e => [.refuse e]

/-- The aperture of a stage; empty if the image does not define its handler. -/
def HandlerStage.aperture (stage : HandlerStage) (image : FirmwareImage) : Except Fault Aperture :=
  (image.symbolAddress stage.symbol).map fun
    | some addr => ⟨addr, handlerStageSize⟩
    | none => .none

def handlerAperture (image : FirmwareImage) : Except Fault Aperture := do
  let info ← image.sectionInfo handlerDataSection
  dataAperture info

/-- Writes an aperture to the two groups that hold apertures of its kind. -/
def apertureScript (addr size : RegisterGroup) (ctx : Nat) (a : Aperture) : Script :=
  [.write addr ctx a.addr, .write size ctx a.size]

/-- Looks the handler of a stage up and programs the stage. -/
def HandlerStage.script (stage : HandlerStage) (image : FirmwareImage) (ctx : Nat) : Script :=
  match stage.aperture image with
  | .error e => [.refuse e]
  | .ok a => apertureScript stage.addr stage.size ctx a

def handlerScript (image : FirmwareImage) (ctx : Nat) : Script :=
  HandlerStage.all.flatMap fun stage => stage.script image ctx

/-- The stages of handlers are written to their registers, unless a handler is refused. -/
theorem eq_of_mem_handlerScript {image : FirmwareImage} {ctx : Nat} {step : Step}
    (h : step ∈ handlerScript image ctx) :
    (∃ e, step = .refuse e) ∨ ∃ stage ∈ HandlerStage.all, ∃ value,
      step = .write stage.addr ctx value ∨ step = .write stage.size ctx value := by
  obtain ⟨stage, hstage, h⟩ := List.mem_flatMap.1 h
  unfold HandlerStage.script at h
  split at h
  · exact Or.inl ⟨_, List.mem_singleton.1 h⟩
  · simp only [apertureScript, List.mem_cons, List.not_mem_nil, or_false] at h
    rcases h with h | h
    · exact Or.inr ⟨stage, hstage, _, Or.inl h⟩
    · exact Or.inr ⟨stage, hstage, _, Or.inr h⟩

/-- Programs the memories of a context. The device itself places the scratchpads. -/
def memoryScript (image : FirmwareImage) (ctx : Nat) (host : HostAperture) : Script :=
  match handlerAperture image with
  | .error e => [.refuse e]
  | .ok a =>
    apertureScript .handlerMemAddr .handlerMemSize ctx a ++
      [.write .hostMemAddrHi ctx (host.addr >>> 32).toUInt32,
        .write .hostMemAddrLo ctx host.addr.toUInt32,
        .write .hostMemSize ctx host.size,
        .write .scratchpad0Size ctx scratchpadSize,
        .write .scratchpad1Size ctx scratchpadSize]

/-- What a load tells of the context that it brought up. -/
def loadedContext (image : FirmwareImage) (ctx : Nat) (host : HostAperture) :
    Except Fault HandlerContext := do
  let headHandler ← HandlerStage.head.aperture image
  let packetHandler ← HandlerStage.packet.aperture image
  let tailHandler ← HandlerStage.tail.aperture image
  let handlerMem ← handlerAperture image
  return { ctx, headHandler, packetHandler, tailHandler, handlerMem, hostMem := host,
           scratchpadSize, enabled := true }

/-- The scripts of a load, stage by stage. -/
def loadPlan (image : FirmwareImage) (ctx : Nat) (host : HostAperture) :
    List (LoadStage × Script) :=
  [(.reset, resetScript),
    (.writeSections, firmwareSections.flatMap (sectionScript image)),
    (.enableFetch, [.write .clusterControl fetchIndex allClusters]),
    (.disableHandlers, [.write .handlerValid 0 0]),
    (.programHandlers, handlerScript image ctx),
    (.programApertures, memoryScript image ctx host),
    (.enable, [.write .contextEnabled ctx 1, .write .handlerValid 0 1])]

/-- Puts the clusters back and closes the slot of a context. -/
def unloadScript (ctx : Nat) : Script :=
  resetScript ++ whileDisabled (slotScript ctx .bypass)

end PacketOffload
