import PacketOffload.Register.Group
import PacketOffload.Firmware.Stage
import PacketOffload.Text.Numeral

/-!
# Faults

Everything that can go wrong, as causes. A fault keeps what its message shows and nothing else; the
wording is in one function per type, `OsError.text`, `Misuse.message`, ..., `Fault.message`.
-/

namespace PacketOffload

open Text (hex hexDigits)

inductive OsError where
  | noEntry
  | interrupted
  | wouldBlock
  | outOfMemory
  | noSuchDevice
  | notDirectory
  | isDirectory
  | invalidArgument
  | noSuchControl
  | fileTooLarge
  | nameTooLong
  | valueTooLarge
  | addressFamily
  | addressUnavailable
  | networkUnreachable
  | timedOut
  | connectionRefused
  deriving DecidableEq, Repr

namespace OsError

/-- The system's number of an error. -/
def code : OsError → Nat
  | .noEntry => 2
  | .interrupted => 4
  | .wouldBlock => 11
  | .outOfMemory => 12
  | .noSuchDevice => 19
  | .notDirectory => 20
  | .isDirectory => 21
  | .invalidArgument => 22
  | .noSuchControl => 25
  | .fileTooLarge => 27
  | .nameTooLong => 36
  | .valueTooLarge => 75
  | .addressFamily => 97
  | .addressUnavailable => 99
  | .networkUnreachable => 101
  | .timedOut => 110
  | .connectionRefused => 111

def description : OsError → String
  | .noEntry => "No such file or directory"
  | .interrupted => "Interrupted system call"
  | .wouldBlock => "Resource temporarily unavailable"
  | .outOfMemory => "Cannot allocate memory"
  | .noSuchDevice => "No such device"
  | .notDirectory => "Not a directory"
  | .isDirectory => "Is a directory"
  | .invalidArgument => "Invalid argument"
  | .noSuchControl => "Inappropriate ioctl for device"
  | .fileTooLarge => "File too large"
  | .nameTooLong => "File name too long"
  | .valueTooLarge => "Value too large for defined data type"
  | .addressFamily => "Address family not supported by protocol"
  | .addressUnavailable => "Cannot assign requested address"
  | .networkUnreachable => "Network is unreachable"
  | .timedOut => "Connection timed out"
  | .connectionRefused => "Connection refused"

def text (e : OsError) : String := s!"{e.description} (os error {e.code})"

/-- The error says that the time for the operation ran out. -/
def isTimeout (e : OsError) : Bool := e = .wouldBlock ∨ e = .timedOut

end OsError

inductive TransferError where
  | os (error : OsError)
  /-- A file ended before the bytes asked for. -/
  | shortRead
  | notUtf8
  /-- A name with a zero character, which no file can have. -/
  | zeroInName
  | zeroTimeout
  /-- The simulated device was told to refuse writes to this group. -/
  | refusedWrite (group : RegisterGroup) (index : Nat)
  /-- The write was one of those chosen to fail. -/
  | chosenWrite
  deriving DecidableEq, Repr

def TransferError.text : TransferError → String
  | .os e => e.text
  | .shortRead => "failed to fill whole buffer"
  | .notUtf8 => "stream did not contain valid UTF-8"
  | .zeroInName => "file name contained an unexpected NUL byte"
  | .zeroTimeout => "cannot set a 0 duration timeout"
  | .refusedWrite g i => s!"injected failure writing {g.name}[{i}]"
  | .chosenWrite => "countdown failure"

/-- Causes for which a device counts as unavailable. -/
inductive DeviceError where
  | notOpened (path : String) (error : OsError)
  | noRegisters (path : String)
  deriving DecidableEq, Repr

def DeviceError.text : DeviceError → String
  | .notOpened path e => s!"{path}: {e.text}"
  | .noRegisters path => s!"register directory {path} not found"

inductive Refusal where
  | fetchMask
  | flagValue
  | matchEnabled
  | handlersEnabled
  deriving DecidableEq, Repr

def Refusal.reason : Refusal → String
  | .fetchMask => "fetch-enable mask exceeds cluster count"
  | .flagValue => "value must be 0 or 1"
  | .matchEnabled => "matching engine is enabled"
  | .handlersEnabled => "handler execution is enabled"

inductive ImageDefect where
  | notElf
  | otherClass
  | truncated (offset : Nat)
  | stringOffset (offset : Nat)
  | openString (offset : Nat)
  | headerSize (size : Nat)
  | noNameTable
  | noStringTable
  | sectionBounds (name : String)
  /-- A section below the memories of the device. -/
  | belowDevice (addr : UInt32)
  /-- A section of handler data past the level-2 memory. -/
  | beyondL2 (addr : UInt32)
  /-- Host flags below the level-2 memory. -/
  | flagsBelowL2 (addr : UInt32)
  deriving DecidableEq, Repr

/-- Section with the handlers' own data. -/
def handlerDataSection : String := ".l2_handler_data"

/-- Symbol of the words through which the host answers, one for each processing unit. -/
def hostDataSymbol : String := "__host_data"

def ImageDefect.text : ImageDefect → String
  | .notElf => "not an ELF file"
  | .otherClass => "expected 32-bit little-endian ELF"
  | .truncated offset => s!"truncated at {hex offset}"
  | .stringOffset offset => s!"string offset {hex offset} out of range"
  | .openString offset => s!"unterminated string at {hex offset}"
  | .headerSize size => s!"unexpected section header size {size}"
  | .noNameTable => "no section name table"
  | .noStringTable => "symbol table without strings"
  | .sectionBounds name => s!"section {name} out of bounds"
  | .belowDevice addr => s!"address {hex addr.toNat} is outside device memory"
  | .beyondL2 addr => s!"{handlerDataSection} at {hex addr.toNat} is beyond L2"
  | .flagsBelowL2 addr => s!"{hostDataSymbol} at {hex addr.toNat} is below L2"

inductive Misuse where
  /-- An environment variable that names no context. -/
  | contextText (name text : String)
  | contextRange (ctx : Nat)
  /-- A context number that the driver has no room for. -/
  | contextNumber (ctx : Nat)
  | countText (path text : String)
  | registerText (path text : String)
  | ruleSetCount (count : Nat)
  | regionSize (size : UInt64)
  | noPages
  | pageCount (pages : Nat)
  | mapOffset (offset : Nat)
  | bufferRange (offset length size : Nat)
  | wordAlignment (offset : Nat)
  | unitCount (count : Nat)
  | slotLayout (size payloadOffset : Nat)
  | ringSize (needed size : Nat)
  | ringAttached (ctx : Nat)
  | unitRange (unit count : Nat)
  | flagsBelowL2 (base : Nat)
  | alignment (bytes : Nat)
  | messageLength (length : Nat)
  | datagramLength (length : Nat)
  deriving DecidableEq, Repr

def Misuse.message : Misuse → String
  | .contextText name text => s!"{name}={text} is not a context id"
  | .contextRange ctx => s!"context {ctx} out of range (0..{numContexts})"
  | .contextNumber ctx => s!"context {ctx}"
  | .countText path text => s!"invalid count in {path}: {text}"
  | .registerText path text => s!"invalid register value in {path}: {text}"
  | .ruleSetCount count => s!"{count} rulesets given, device has {numRuleSets}"
  | .regionSize size => s!"dma region of {size.toNat} bytes does not fit the host aperture"
  | .noPages => "dma buffer needs at least one page"
  | .pageCount pages => s!"dma buffer of {pages} pages is too large"
  | .mapOffset offset => s!"mapping offset {hex offset} too large"
  | .bufferRange offset length size =>
    s!"dma access at {hex offset} (+{length}) outside of {size} byte buffer"
  | .wordAlignment offset => s!"unaligned dma word offset {hex offset}"
  | .unitCount count => s!"unit count {count} out of range"
  | .slotLayout size payloadOffset =>
    s!"bad slot layout: size {size}, payload offset {payloadOffset}"
  | .ringSize needed size => s!"ring needs {needed} bytes, dma buffer has {size}"
  | .ringAttached ctx => s!"flag ring of context {ctx} is already attached"
  | .unitRange unit count => s!"hpu {unit} out of range (0..{count})"
  | .flagsBelowL2 base => s!"host flag base {hex base} below L2"
  | .alignment bytes => s!"alignment {bytes} leaves no room for payload"
  | .messageLength length => s!"message of {length} bytes exceeds the SLMP offset range"
  | .datagramLength length => s!"SLMP datagram of {length} bytes"

inductive MapSource where
  | device
  | anonymous
  deriving DecidableEq, Repr

def MapSource.text : MapSource → String
  | .device => "map host dma area"
  | .anonymous => "map anonymous dma area"

/-- The steps in which host memory is mapped. -/
inductive MapStep where
  | map (source : MapSource)
  /-- The fresh mapping is kept out of child processes. -/
  | exclude
  deriving DecidableEq, Repr

def MapStep.text : MapStep → String
  | .map source => source.text
  | .exclude => "madvise DONTFORK"

inductive SendError where
  | send (offset : UInt32) (error : OsError)
  /-- The read of an acknowledgement failed. -/
  | receive (offset : UInt32) (error : OsError)
  | replyLength (length : Nat)
  deriving DecidableEq, Repr

/-- Bytes of an SLMP header, and so of an acknowledgement. -/
def slmpHeaderLength : Nat := 10

def SendError.text : SendError → String
  | .send offset e => s!"offset {offset.toNat}: {e.text}"
  | .receive offset e => s!"ACK wait for offset {offset.toNat}: {e.text}"
  | .replyLength length => s!"ACK size mismatch: expected {slmpHeaderLength}, got {length}"

/-- Everything that can go wrong. -/
inductive Fault where
  | deviceUnavailable (cause : DeviceError)
  | regionDisabled (ctx : Nat)
  /-- A write was refused; the register keeps its value. -/
  | registerRefused (group : RegisterGroup) (index : Nat) (value : UInt32) (why : Refusal)
  | unknownRegister (name : String)
  | registerIndex (group : RegisterGroup) (index : Nat)
  | readOnlyRegister (group : RegisterGroup)
  /-- The memory window is closed while the clusters are in reset. -/
  | inReset
  | memoryRange (offset : Nat)
  /-- A firmware load stopped; the device is left as it is. -/
  | loadFailed (ctx : Nat) (stage : LoadStage) (cause : Fault)
  | missingSection (name : String)
  | missingSymbol (name : String)
  | invalidImage (defect : ImageDefect)
  | invalidArgument (misuse : Misuse)
  | noBuffer
  | ackTimeout (msgId offset : UInt32)
  /-- A reply arrived that acknowledges nothing. -/
  | notAck (msgId offset : UInt32) (flags : UInt16)
  | sendFailed (cause : SendError)
  | transfer (cause : TransferError)
  | mapFailed (step : MapStep) (error : OsError)
  deriving DecidableEq, Repr

namespace Fault

def message : Fault → String
  | .deviceUnavailable cause => s!"device unavailable: {cause.text}"
  | .regionDisabled ctx => s!"DMA region of context {ctx} is not enabled"
  | .registerRefused group index value why =>
    s!"write of {hex value.toNat} to {group.name}[{index}] rejected: {why.reason}"
  | .unknownRegister name => s!"unknown register group: {name}"
  | .registerIndex group index =>
    s!"register index {index} out of range for {group.name} (count {group.count})"
  | .readOnlyRegister group => s!"register group {group.name} is read-only"
  | .inReset => "accelerator cluster is in reset"
  | .memoryRange offset =>
    s!"memory access at {hex offset} (+4) outside of the device memory window"
  | .loadFailed ctx stage cause =>
    s!"firmware load of context {ctx} failed while {stage.activity}: {cause.message}"
  | .missingSection name => s!"firmware image has no section {name}"
  | .missingSymbol name => s!"firmware image has no symbol {name}"
  | .invalidImage defect => s!"invalid firmware image: {defect.text}"
  | .invalidArgument misuse => s!"invalid argument: {misuse.message}"
  | .noBuffer => "no DMA buffer mapped"
  | .ackTimeout msgId offset =>
    s!"SLMP ACK timeout for message {msgId.toNat} at offset {offset.toNat}"
  | .notAck msgId offset flags =>
    let shown := "0x" ++ hexDigits 4 flags.toNat
    s!"SLMP reply for message {msgId.toNat} at offset {offset.toNat} is not an ACK (flags {shown})"
  | .sendFailed cause => s!"SLMP send failed: {cause.text}"
  | .transfer cause => s!"I/O error: {cause.text}"
  | .mapFailed step e => s!"mmap failed: {step.text}: {e.text}"

end Fault

end PacketOffload
