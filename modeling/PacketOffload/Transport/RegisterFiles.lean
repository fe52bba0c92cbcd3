import PacketOffload.Files.Tree
import PacketOffload.Transport

/-!
# A device through files

The driver shows every register as a file with its value as text, in the directory of the
register's group, and the memory window as the device's own file. Whatever else a device does, the
driver does on a control request; a plain file in the device's place knows none.

| here | operation |
| --- | --- |
| `ofTree` | `open` |
| `path` | `attribute` |
| `readRegister`, `writeRegister` | `read_register`, `write_register` |
| `readWord`, `writeWord` | `read_mem_word`, `write_mem_word` |
| `region`, `peek`, `poke` | `query_dma`, `raw_peek`, `raw_poke`, whose `ioctl` is refused |

Left out: control requests that a driver answers, and a device that may not be opened.
-/

namespace PacketOffload

/-- A device as files of a tree. -/
structure RegisterFiles where
  tree : FileTree
  /-- The file of the memory window. -/
  devicePath : Path
  /-- The directory of the groups' directories. -/
  base : Path
  /-- The host that maps memory. -/
  host : MappingHost := .standard

namespace RegisterFiles

/-- The device with these files, of which the device's own has to be a file, and the directory of
registers a directory. -/
def ofTree (tree : FileTree) (devicePath base : Path) : Except Fault RegisterFiles :=
  match tree.read devicePath with
  | .error e => .error (.deviceUnavailable (.notOpened devicePath.text e))
  | .ok _ =>
    if tree.isDirectory base then .ok { tree, devicePath, base }
    else .error (.deviceUnavailable (.noRegisters base.text))

def path (d : RegisterFiles) (g : RegisterGroup) (index : Nat) : Path :=
  d.base ++ g.directory ++ [toString index]

def readRegister (d : RegisterFiles) (g : RegisterGroup) (index : Nat) : Except Fault UInt32 := do
  let text ← d.tree.readText (d.path g index)
  match Text.registerValue? text with
  | some value => return value
  | none => throw (.invalidArgument (.registerText (d.path g index).text text))

/-- Writes a value, in decimal, to the file of a register. -/
def writeRegister (d : RegisterFiles) (g : RegisterGroup) (index : Nat) (value : UInt32) :
    Except Fault Unit × RegisterFiles :=
  let text := (toString value.toNat).toList.map fun c => UInt8.ofNat c.toNat
  match d.tree.write (d.path g index) (.ofBytes text) with
  | .ok tree => (.ok (), { d with tree })
  | .error e => (.error (.transfer (.os e)), d)

def deviceFile (d : RegisterFiles) : Except Fault FileContents :=
  match d.tree.read d.devicePath with
  | .ok contents => .ok contents
  | .error e => .error (.transfer (.os e))

/-- The device with other contents in its own file. -/
def setDeviceFile (d : RegisterFiles) (contents : FileContents) : RegisterFiles :=
  match d.tree.write d.devicePath contents with
  | .ok tree => { d with tree }
  | .error _ => d

/-- Accepts the positions of a word that files can have. -/
def checkPosition (offset : Nat) : Except Fault Unit :=
  if offset + 4 < positionLimit then .ok () else .error (.transfer (.os .invalidArgument))

/-- The word at an offset, which has to lie in the device's file. -/
def readWord (d : RegisterFiles) (offset : Nat) : Except Fault UInt32 := do
  checkPosition offset
  let contents ← d.deviceFile
  let bytes := contents.read offset 4
  if bytes.length = 4 then return Bytes.toWord32 bytes
  else throw (.transfer .shortRead)

/-- Writes a word to the device's file. Of a word that reaches past the longest file, the bytes
before are written. -/
def writeWord (d : RegisterFiles) (offset : Nat) (word : UInt32) :
    Except Fault Unit × RegisterFiles :=
  match checkPosition offset, d.deviceFile with
  | .error e, _ => (.error e, d)
  | _, .error e => (.error e, d)
  | .ok (), .ok contents =>
    let data := (Bytes.ofWord32 word).take (fileLimit - offset)
    (if data.length = 4 then .ok () else .error (.transfer (.os .fileTooLarge)),
      d.setDeviceFile (contents.write offset data))

/-- The answer of a plain file to a control request. -/
def noControl : Fault := .transfer (.os .noSuchControl)

/-- Context numbers that fit the driver's request. -/
def maxContextNumber : Nat := 0x7fffffff

instance : Transport RegisterFiles where
  file d := d.deviceFile.toOption
  setFile := setDeviceFile
  host := RegisterFiles.host
  readRegister := readRegister
  writeRegister := writeRegister
  readWord := readWord
  writeWord := writeWord
  region _ ctx :=
    if ctx ≤ maxContextNumber then .error noControl
    else .error (.invalidArgument (.contextNumber ctx))
  peek _ _ := .error noControl
  poke d _ _ := (.error noControl, d)

end RegisterFiles

end PacketOffload
