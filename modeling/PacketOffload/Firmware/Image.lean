import PacketOffload.Bytes
import PacketOffload.Fault

/-!
# Firmware images

A load asks three things of an image: the bytes of a section, the address and size of a section, and
the address of a symbol. `FirmwareImage` is these three questions; whatever can answer them can be
loaded. `AssembledImage` is an image put together by hand.

| here | operation |
| --- | --- |
| `FirmwareImage` | `section_bytes`, `symbol_address` and `section_info` of an image |
| `addSection`, `addSized`, `addSymbol` | `with_section`, `with_sized_section`, `with_symbol` |
-/

namespace PacketOffload

/-- Where a section is loaded, and how much memory it takes. -/
structure SectionInfo where
  addr : UInt32
  size : UInt32
  deriving DecidableEq, Repr

/-- What a load asks of an image. -/
structure FirmwareImage where
  sectionInfo : (name : String) → Except Fault SectionInfo
  sectionBytes : (name : String) → Except Fault Bytes
  /-- `none` if the image does not define the symbol. -/
  symbolAddress : (name : String) → Except Fault (Option UInt32)

/-- A section of an assembled image. The size may differ from the number of bytes, as in a section
that begins as zeros. -/
structure AssembledSection where
  info : SectionInfo
  bytes : Bytes
  deriving DecidableEq, Repr

/-- An image put together from sections and symbols. What is added later replaces what was added
earlier under the same name. -/
structure AssembledImage where
  sections : List (String × AssembledSection)
  symbols : List (String × UInt32)
  deriving DecidableEq, Repr

namespace AssembledImage

def empty : AssembledImage := ⟨[], []⟩

/-- The image with one more section, of a given size. -/
def addSized (image : AssembledImage) (name : String) (info : SectionInfo) (bytes : Bytes) :
    AssembledImage :=
  { image with sections := (name, ⟨info, bytes⟩) :: image.sections }

/-- The image with one more section, as large as its bytes. -/
def addSection (image : AssembledImage) (name : String) (addr : UInt32) (bytes : Bytes) :
    AssembledImage :=
  image.addSized name ⟨addr, UInt32.ofNat bytes.length⟩ bytes

/-- The image with one more symbol. -/
def addSymbol (image : AssembledImage) (name : String) (addr : UInt32) : AssembledImage :=
  { image with symbols := (name, addr) :: image.symbols }

def find (image : AssembledImage) (name : String) : Except Fault AssembledSection :=
  match image.sections.lookup name with
  | some s => .ok s
  | none => .error (.missingSection name)

def image (image : AssembledImage) : FirmwareImage where
  sectionInfo name := (image.find name).map (·.info)
  sectionBytes name := (image.find name).map (·.bytes)
  symbolAddress name := .ok (image.symbols.lookup name)

end AssembledImage

end PacketOffload
