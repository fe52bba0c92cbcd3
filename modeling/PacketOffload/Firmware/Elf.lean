import PacketOffload.Files.Tree
import PacketOffload.Firmware.Image

/-!
# ELF images

Handler firmware comes as 32-bit little-endian ELF files. Of such a file only the section headers
and the symbol tables count; what a section holds is looked at when a load asks for it, so that a
file may be read whose sections lie outside it.

A symbol is found by its full name or, if no symbol has that name, by the end of its name: the first
symbol in the file that ends in it.

| here | operation |
| --- | --- |
| `halfAt`, `wordAt`, `textAt` | `u16_at`, `u32_at`, `cstr_at` |
| `File.parse`, `File.ofPath` | `parse`, `open` |
| `File.find` | `section` |
| `File.image` | `section_bytes`, `symbol_address`, `section_info` |
-/

namespace PacketOffload.Elf

def fileHeaderLength : Nat := 52

def sectionHeaderLength : Nat := 40

def symbolLength : Nat := 16

/-- Type of the sections that hold symbol tables. -/
def symbolTableKind : UInt32 := 2

/-- Type of the sections that take memory and hold no bytes. -/
def noBitsKind : UInt32 := 8

def magic : Bytes := [0x7f, 0x45, 0x4c, 0x46]

/-! ## Fields -/

/-- The bytes of a field, which has to lie in the file. -/
def fieldAt (data : Bytes) (offset width : Nat) : Except Fault Bytes :=
  match data.slice? offset width with
  | some field => .ok field
  | none => .error (.invalidImage (.truncated offset))

def halfAt (data : Bytes) (offset : Nat) : Except Fault Nat :=
  (fieldAt data offset 2).map Bytes.leNat

def wordAt (data : Bytes) (offset : Nat) : Except Fault UInt32 :=
  (fieldAt data offset 4).map Bytes.toWord32

/-- The text at an offset, up to a zero byte, which has to lie in the file. -/
def textAt (data : Bytes) (offset : Nat) : Except Fault String :=
  if data.length < offset then .error (.invalidImage (.stringOffset offset))
  else
    let tail := data.drop offset
    if tail.contains 0 then .ok (Utf8.decodeLenient (tail.takeWhile (· != 0)))
    else .error (.invalidImage (.openString offset))

/-! ## Sections -/

/-- The fields of a section header that count. -/
structure SectionHeader where
  /-- Offset of the name in the table of section names. -/
  name : UInt32
  kind : UInt32
  addr : UInt32
  /-- Offset of the contents in the file. -/
  offset : UInt32
  size : UInt32
  /-- Index of a related section. -/
  link : UInt32
  deriving DecidableEq, Repr

def SectionHeader.read (data : Bytes) (base : Nat) : Except Fault SectionHeader := do
  let name ← wordAt data base
  let kind ← wordAt data (base + 4)
  let addr ← wordAt data (base + 12)
  let offset ← wordAt data (base + 16)
  let size ← wordAt data (base + 20)
  let link ← wordAt data (base + 24)
  return ⟨name, kind, addr, offset, size, link⟩

/-- The headers of a table of `count` section headers. -/
def readHeaders (data : Bytes) (tableOffset : Nat) : (count index : Nat) →
    Except Fault (List SectionHeader)
  | 0, _ => .ok []
  | count + 1, index => do
    let header ← SectionHeader.read data (tableOffset + index * sectionHeaderLength)
    let rest ← readHeaders data tableOffset count (index + 1)
    return header :: rest

structure Section where
  name : String
  header : SectionHeader
  deriving DecidableEq, Repr

/-- The sections of a list of headers, whose names lie in the table at `names`. -/
def readSections (data : Bytes) (names : Nat) : List SectionHeader → Except Fault (List Section)
  | [] => .ok []
  | header :: rest => do
    let name ← textAt data (names + header.name.toNat)
    let rest ← readSections data names rest
    return ⟨name, header⟩ :: rest

/-! ## Symbols -/

abbrev Symbol := String × UInt32

/-- The symbol table entry at an offset; nameless ones do not count. -/
def readSymbol (data : Bytes) (strings entry : Nat) : Except Fault (Option Symbol) := do
  let offset ← wordAt data entry
  let name ← textAt data (strings + offset.toNat)
  if name.isEmpty then return none
  else
    let value ← wordAt data (entry + 4)
    return some (name, value)

/-- `count` entries of the symbol table at `table`, from entry `index` on. -/
def readEntries (data : Bytes) (strings table : Nat) : (count index : Nat) →
    Except Fault (List Symbol)
  | 0, _ => .ok []
  | count + 1, index => do
    let symbol ← readSymbol data strings (table + index * symbolLength)
    let rest ← readEntries data strings table count (index + 1)
    return symbol.toList ++ rest

/-- The symbols of one section; entry 0 of a table is the undefined symbol. -/
def readTable (data : Bytes) (headers : List SectionHeader) (header : SectionHeader) :
    Except Fault (List Symbol) :=
  if header.kind = symbolTableKind then
    match headers[header.link.toNat]? with
    | some strings =>
      readEntries data strings.offset.toNat header.offset.toNat
        (header.size.toNat / symbolLength - 1) 1
    | none => .error (.invalidImage .noStringTable)
  else .ok []

/-- The symbols of a list of sections, in their order. -/
def readTables (data : Bytes) (headers : List SectionHeader) : List SectionHeader →
    Except Fault (List Symbol)
  | [] => .ok []
  | header :: rest => do
    let symbols ← readTable data headers header
    let others ← readTables data headers rest
    return symbols ++ others

/-! ## Files -/

/-- An ELF file whose headers and symbols were read. -/
structure File where
  data : Bytes
  sections : List Section
  symbols : List Symbol
  deriving DecidableEq, Repr

namespace File

/-- Reads a 32-bit little-endian ELF file. -/
def parse (data : Bytes) : Except Fault File := do
  if data.length < fileHeaderLength ∨ data.take 4 ≠ magic then
    throw (.invalidImage .notElf)
  if data.getD 4 0 ≠ 1 ∨ data.getD 5 0 ≠ 1 then
    throw (.invalidImage .otherClass)
  let tableOffset ← wordAt data 0x20
  let headerSize ← halfAt data 0x2e
  let count ← halfAt data 0x30
  let namesIndex ← halfAt data 0x32
  if 0 < count ∧ headerSize ≠ sectionHeaderLength then
    throw (.invalidImage (.headerSize headerSize))
  let headers ← readHeaders data tableOffset.toNat count 0
  match headers[namesIndex]? with
  | none => throw (.invalidImage .noNameTable)
  | some names =>
    let sections ← readSections data names.offset.toNat headers
    let symbols ← readTables data headers headers
    return ⟨data, sections, symbols⟩

def ofPath (t : FileTree) (path : Path) : Except Fault File :=
  match t.read path with
  | .ok contents => parse contents.bytes
  | .error e => .error (.transfer (.os e))

/-- The names of the sections, in the order of their headers. -/
def sectionNames (file : File) : List String := file.sections.map (·.name)

def find (file : File) (name : String) : Except Fault SectionHeader :=
  match file.sections.find? (·.name == name) with
  | some s => .ok s.header
  | none => .error (.missingSection name)

/-- The contents of a section, which have to lie in the file. -/
def sectionBytes (file : File) (name : String) : Except Fault Bytes := do
  let header ← file.find name
  if header.kind = noBitsKind then return []
  else
    match file.data.slice? header.offset.toNat header.size.toNat with
    | some bytes => return bytes
    | none => throw (.invalidImage (.sectionBounds name))

def endsIn (text ending : String) : Bool := ending.toList.isSuffixOf text.toList

/-- The address of the first symbol with this name or, if there is none, of the first one whose name
ends in it. -/
def symbolAddress (file : File) (name : String) : Option UInt32 :=
  let found := match file.symbols.find? (·.1 == name) with
    | some symbol => some symbol
    | none => file.symbols.find? fun symbol => endsIn symbol.1 name
  found.map (·.2)

def image (file : File) : FirmwareImage where
  sectionInfo name := (file.find name).map fun header => ⟨header.addr, header.size⟩
  sectionBytes := file.sectionBytes
  symbolAddress name := .ok (file.symbolAddress name)

end File

end PacketOffload.Elf
