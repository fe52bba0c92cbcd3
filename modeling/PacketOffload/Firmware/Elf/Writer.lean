import PacketOffload.Firmware.Elf

/-!
# Writing ELF files

A small writer of firmware files, for sections with program bits or without bytes and for symbols.
After the file header come the contents of the sections, one after the other, and at the next whole
word the section headers. The writer adds three sections, the symbol table and the two tables of
names, for symbols and for sections; a null header comes first.

The same sections and symbols make an assembled image.

| here | operation |
| --- | --- |
| `write` | `build_elf`, by which the tests of the reader make their files |
| `assemble` | `with_sized_section` and `with_symbol`, once for each part and symbol |
-/

namespace PacketOffload.Elf

/-- Type of the sections that hold what is loaded. -/
def programBitsKind : UInt32 := 1

/-- Type of the sections that hold names. -/
def stringTableKind : UInt32 := 3

/-- What a section is to hold. -/
inductive PartContents where
  | bits (bytes : Bytes)
  /-- Memory of this size, and no bytes. -/
  | noBits (size : UInt32)
  deriving DecidableEq, Repr

/-- A section to be written. -/
structure Part where
  name : String
  addr : UInt32
  contents : PartContents
  deriving DecidableEq, Repr

/-! ## Tables of names -/

def nameBytes (name : String) : Bytes := Utf8.encode name ++ [0]

/-- A table of names; the empty name stands at its beginning. -/
def nameTable (names : List String) : Bytes := 0 :: names.flatMap nameBytes

/-! ## Section headers -/

/-- A section with all that its header says, but where its name and its contents are. -/
structure Draft where
  name : String
  kind : UInt32
  addr : UInt32
  size : UInt32
  link : UInt32
  bytes : Bytes
  deriving DecidableEq, Repr

def Draft.header (d : Draft) (name offset : Nat) : SectionHeader :=
  ⟨UInt32.ofNat name, d.kind, d.addr, UInt32.ofNat offset, d.size, d.link⟩

/-- The headers of sections whose names and contents lie one after the other. -/
def draftHeaders : (name offset : Nat) → List Draft → List SectionHeader
  | _, _, [] => []
  | name, offset, d :: rest =>
    d.header name offset ::
      draftHeaders (name + (nameBytes d.name).length) (offset + d.bytes.length) rest

/-- What is read of the null header. -/
def nullHeader : SectionHeader := ⟨0, 0, 0, 0, 0, 0⟩

/-- The words of a header; those that no reader looks at are constant. -/
def SectionHeader.words (h : SectionHeader) : List UInt32 :=
  [h.name, h.kind, 0, h.addr, h.offset, h.size, h.link, 0, 4, 0]

def wordBytes (words : List UInt32) : Bytes := words.flatMap Bytes.ofWord32

/-! ## Symbols -/

/-- The entries of symbols whose names lie one after the other. -/
def symbolEntries : (name : Nat) → List Symbol → Bytes
  | _, [] => []
  | name, symbol :: rest =>
    wordBytes [UInt32.ofNat name, symbol.2, 0, 0] ++
      symbolEntries (name + (nameBytes symbol.1).length) rest

/-- The table of symbols, after the entry of the undefined one. -/
def symbolTable (symbols : List Symbol) : Bytes :=
  wordBytes [0, 0, 0, 0] ++ symbolEntries 1 symbols

/-! ## Files -/

def Part.draft (p : Part) : Draft :=
  match p.contents with
  | .bits bytes => ⟨p.name, programBitsKind, p.addr, UInt32.ofNat bytes.length, 0, bytes⟩
  | .noBits size => ⟨p.name, noBitsKind, p.addr, size, 0, []⟩

/-- A section that the writer adds. -/
def tableDraft (name : String) (kind link : UInt32) (bytes : Bytes) : Draft :=
  ⟨name, kind, 0, UInt32.ofNat bytes.length, link, bytes⟩

/-- The symbol table, which comes after the given sections and refers to the section after it. -/
def symbolsDraft (parts : List Part) (symbols : List Symbol) : Draft :=
  tableDraft ".symtab" symbolTableKind (UInt32.ofNat (parts.length + 2)) (symbolTable symbols)

/-- The table of the names of symbols. -/
def symbolNamesDraft (symbols : List Symbol) : Draft :=
  tableDraft ".strtab" stringTableKind 0 (nameTable (symbols.map (·.1)))

/-- The sections before the table of their names. -/
def namedDrafts (parts : List Part) (symbols : List Symbol) : List Draft :=
  parts.map Part.draft ++ [symbolsDraft parts symbols, symbolNamesDraft symbols]

/-- The table of the names of sections, in which it has a name itself. -/
def namesDraft (named : List Draft) : Draft :=
  tableDraft ".shstrtab" stringTableKind 0 (nameTable (named.map (·.name) ++ [".shstrtab"]))

def withNames (named : List Draft) : List Draft := named ++ [namesDraft named]

/-- A length filled up to whole words. -/
def wholeWords (length : Nat) : Nat := (length + 3) / 4 * 4

/-- The header of a file with `count` sections after the null section; the last one holds the names
of all. -/
def fileHeader (tableOffset count : Nat) : Bytes :=
  magic ++ ([1, 1, 1] ++ (List.replicate 25 0 ++
    (Bytes.ofWord32 (UInt32.ofNat tableOffset) ++ (List.replicate 10 0 ++
      (Bytes.leBytes 2 sectionHeaderLength ++
        (Bytes.leBytes 2 (count + 1) ++ Bytes.leBytes 2 count))))))

/-- The headers of the sections of a file, after the null header. -/
def headersOf (drafts : List Draft) : List SectionHeader :=
  draftHeaders 1 fileHeaderLength drafts

/-- Where the section headers begin. -/
def tableOffset (drafts : List Draft) : Nat :=
  wholeWords (fileHeaderLength + (drafts.flatMap (·.bytes)).length)

def writeDrafts (drafts : List Draft) : Bytes :=
  let contents := drafts.flatMap (·.bytes)
  let filling := tableOffset drafts - (fileHeaderLength + contents.length)
  fileHeader (tableOffset drafts) drafts.length ++ (contents ++ (List.replicate filling 0 ++
    (wordBytes (List.replicate 10 0) ++
      (headersOf drafts).flatMap fun h => wordBytes h.words)))

/-- The ELF file with these sections and symbols. -/
def write (parts : List Part) (symbols : List Symbol) : Bytes :=
  writeDrafts (withNames (namedDrafts parts symbols))

/-! ## Images -/

/-- An assembled image with one more section. -/
def Part.addTo (image : AssembledImage) (p : Part) : AssembledImage :=
  match p.contents with
  | .bits bytes => image.addSection p.name p.addr bytes
  | .noBits size => image.addSized p.name ⟨p.addr, size⟩ []

/-- The image assembled of these sections and symbols. -/
def assemble (parts : List Part) (symbols : List Symbol) : AssembledImage :=
  symbols.foldl (fun image symbol => image.addSymbol symbol.1 symbol.2)
    (parts.foldl Part.addTo .empty)

end PacketOffload.Elf
