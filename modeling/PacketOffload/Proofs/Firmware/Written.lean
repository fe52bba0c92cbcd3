import PacketOffload.Proofs.Firmware.Tables

/-!
# Files that the writer makes

Where the parts of a written file stand follows from their lengths, and what the reader takes from
each of them from the lemmas on tables. The reader finds the table of section names through the
header of the last section, and the names of the symbols through the link of the symbol table.

Main statement: a written file is read as the sections and the symbols that it was made of
(`parse_write`).
-/

namespace PacketOffload.Elf

/-! ## Places -/

@[simp] theorem length_fileHeader (table count : Nat) :
    (fileHeader table count).length = fileHeaderLength := by
  simp [fileHeader, magic, fileHeaderLength]

theorem le_wholeWords (length : Nat) : length ≤ wholeWords length := by
  unfold wholeWords
  omega

theorem standing_contents (drafts : List Draft) :
    Standing (writeDrafts drafts) fileHeaderLength (drafts.flatMap (·.bytes)) :=
  ⟨_, _, rfl, length_fileHeader _ _⟩

/-- The section headers begin at the table's place, with the null header. -/
theorem standing_headers (drafts : List Draft) :
    Standing (writeDrafts drafts) (tableOffset drafts) (wordBytes (List.replicate 10 0) ++
      (headersOf drafts).flatMap fun h => wordBytes h.words) := by
  have hle := le_wholeWords (fileHeaderLength + (drafts.flatMap (·.bytes)).length)
  refine ⟨fileHeader (tableOffset drafts) drafts.length ++ (drafts.flatMap (·.bytes) ++
    List.replicate (tableOffset drafts -
      (fileHeaderLength + (drafts.flatMap (·.bytes)).length)) 0), [], ?_, ?_⟩
  · simp only [writeDrafts, List.append_assoc, List.append_nil]
  · simp only [List.length_append, length_fileHeader, List.length_replicate]
    unfold tableOffset
    omega

/-- The fields of the file header that are read. -/
theorem standing_fileHeader (drafts : List Draft) :
    let data := writeDrafts drafts
    Standing data 0x20 (Bytes.ofWord32 (UInt32.ofNat (tableOffset drafts))) ∧
      Standing data 0x2e (Bytes.leBytes 2 sectionHeaderLength) ∧
      Standing data 0x30 (Bytes.leBytes 2 (drafts.length + 1)) ∧
      Standing data 0x32 (Bytes.leBytes 2 drafts.length) := by
  intro data
  have h : Standing data 0 (fileHeader (tableOffset drafts) drafts.length) := ⟨[], _, rfl, rfl⟩
  have htable := h.right.right.right
  have hsize := htable.right.right
  have hcount := hsize.right
  exact ⟨htable.left, hsize.left, hcount.left, hcount.right⟩

/-! ## Headers and sections -/

@[simp] theorem length_draftHeaders (name offset : Nat) (drafts : List Draft) :
    (draftHeaders name offset drafts).length = drafts.length := by
  induction drafts generalizing name offset with
  | nil => rfl
  | cons d rest ih => rw [draftHeaders, List.length_cons, ih, List.length_cons]

theorem map_kind_draftHeaders (name offset : Nat) (drafts : List Draft) :
    (draftHeaders name offset drafts).map (·.kind) = drafts.map (·.kind) := by
  induction drafts generalizing name offset with
  | nil => rfl
  | cons d rest ih =>
    rw [draftHeaders, List.map_cons, ih, List.map_cons]
    rfl

theorem draftHeaders_append (name offset : Nat) (drafts others : List Draft) :
    draftHeaders name offset (drafts ++ others) =
      draftHeaders name offset drafts ++
        draftHeaders (name + ((drafts.map (·.name)).flatMap nameBytes).length)
          (offset + (drafts.flatMap (·.bytes)).length) others := by
  induction drafts generalizing name offset with
  | nil => rfl
  | cons d rest ih =>
    rw [List.cons_append, draftHeaders, ih, draftHeaders, List.map_cons, List.flatMap_cons,
      List.flatMap_cons, List.length_append, List.length_append, Nat.add_assoc, Nat.add_assoc]
    rfl

theorem readHeaders_write {drafts : List Draft}
    (hlength : (writeDrafts drafts).length < UInt32.size) :
    readHeaders (writeDrafts drafts) (UInt32.ofNat (tableOffset drafts)).toNat (drafts.length + 1)
        0 = .ok (nullHeader :: headersOf drafts) := by
  have hstanding := standing_headers drafts
  rw [toNat_ofNat_of_standing hlength hstanding (Nat.le_add_right _ _)]
  have hnull := hstanding.left.readHeader (h := nullHeader) rfl
  have hrest : readHeaders (writeDrafts drafts) (tableOffset drafts) (headersOf drafts).length 1 =
      .ok (headersOf drafts) := readHeaders_eq hstanding.right
  rw [headersOf, length_draftHeaders, ← headersOf] at hrest
  simp only [readHeaders, Nat.zero_mul, Nat.add_zero, hnull, Nat.zero_add, hrest, bind, Except.bind,
    pure, Except.pure]

/-- What is read of the null section. -/
def nullSection : Section := ⟨"", nullHeader⟩

/-- Where the table of the sections' names begins. -/
def namesOffset (named : List Draft) : Nat :=
  fileHeaderLength + (named.flatMap (·.bytes)).length

theorem standing_names (named : List Draft) :
    Standing (writeDrafts (withNames named)) (namesOffset named)
      ([0] ++ ((withNames named).map (·.name)).flatMap nameBytes) := by
  have hcontents := standing_contents (withNames named)
  rw [withNames, List.flatMap_append] at hcontents
  have hlast := hcontents.right
  rw [List.flatMap_singleton] at hlast
  rw [withNames, List.map_append]
  exact hlast

section Read

variable {named : List Draft} (hlength : (writeDrafts (withNames named)).length < UInt32.size)

include hlength

theorem describes_withNames :
    List.Forall₂ (Describes (writeDrafts (withNames named)) (namesOffset named)) (withNames named)
      (headersOf (withNames named)) :=
  describes_draftHeaders hlength (standing_names named).right (standing_contents _)

/-- The header at the index of the table of names points at that table. -/
theorem exists_last_header :
    ∃ last, (nullHeader :: headersOf (withNames named))[(withNames named).length]? = some last ∧
      last.offset.toNat = namesOffset named := by
  refine ⟨(namesDraft named).header (1 + ((named.map (·.name)).flatMap nameBytes).length)
    (namesOffset named), ?_,
    toNat_ofNat_of_standing hlength (standing_names named) (Nat.le_add_right _ _)⟩
  rw [headersOf, withNames, draftHeaders_append, List.length_append, List.length_singleton,
    List.getElem?_cons_succ, List.getElem?_append_right (by simp), length_draftHeaders,
    Nat.sub_self]
  rfl

variable (hplain : ∀ d ∈ withNames named, Char.ofNat 0 ∉ d.name.toList)

include hplain

theorem readSections_withNames :
    readSections (writeDrafts (withNames named)) (namesOffset named)
        (nullHeader :: headersOf (withNames named)) =
      .ok (nullSection ::
        (withNames named).zipWith Draft.section (headersOf (withNames named))) := by
  have hempty : Standing (writeDrafts (withNames named)) (namesOffset named) (nameBytes "") :=
    (standing_names named).left
  have hnull : textAt (writeDrafts (withNames named)) (namesOffset named + nullHeader.name.toNat) =
      .ok "" := hempty.textAt (by simp)
  have hrest := readSections_eq (describes_withNames hlength) hplain
  simp only [readSections, hnull, hrest, bind, Except.bind, pure, Except.pure]
  rfl

/-- The sections of a written file are read, and then the symbol tables. -/
theorem parse_writeDrafts (hcount : (withNames named).length < 65535) :
    File.parse (writeDrafts (withNames named)) =
      (readTables (writeDrafts (withNames named)) (nullHeader :: headersOf (withNames named))
        (nullHeader :: headersOf (withNames named))).map fun symbols =>
        ⟨writeDrafts (withNames named), nullSection ::
          (withNames named).zipWith Draft.section (headersOf (withNames named)), symbols⟩ := by
  obtain ⟨htable, hsize, hnumber, hindex⟩ := standing_fileHeader (withNames named)
  have hlong : ¬ (writeDrafts (withNames named)).length < fileHeaderLength := by
    have hend := (standing_contents (withNames named)).end_le
    omega
  have hmagic : (writeDrafts (withNames named)).take 4 = magic := rfl
  have hclass : (writeDrafts (withNames named)).getD 4 0 = 1 := rfl
  have horder : (writeDrafts (withNames named)).getD 5 0 = 1 := rfl
  obtain ⟨last, hlast, hplace⟩ := exists_last_header hlength
  have hsections := readSections_withNames hlength hplain
  rw [← hplace] at hsections
  simp only [File.parse, hlong, hmagic, hclass, horder, ne_eq, not_true, or_self, if_false,
    htable.wordAt, hsize.halfAt (by decide), hnumber.halfAt (by omega), hindex.halfAt (by omega),
    and_false, readHeaders_write hlength, hlast, hsections, bind, Except.bind, pure, Except.pure]
  cases readTables (writeDrafts (withNames named)) (nullHeader :: headersOf (withNames named))
    (nullHeader :: headersOf (withNames named)) <;> rfl

end Read

/-! ## Symbols -/

/-- Where the contents of the table sections begin. -/
def tablesOffset (parts : List Part) : Nat :=
  fileHeaderLength + ((parts.map Part.draft).flatMap (·.bytes)).length

theorem kind_draft (p : Part) : p.draft.kind = programBitsKind ∨ p.draft.kind = noBitsKind := by
  unfold Part.draft
  cases p.contents
  · exact .inl rfl
  · exact .inr rfl

/-- The sections that the writer adds. -/
def tableDrafts (parts : List Part) (symbols : List Symbol) : List Draft :=
  [symbolsDraft parts symbols, symbolNamesDraft symbols, namesDraft (namedDrafts parts symbols)]

theorem withNames_namedDrafts (parts : List Part) (symbols : List Symbol) :
    withNames (namedDrafts parts symbols) = parts.map Part.draft ++ tableDrafts parts symbols := by
  rw [withNames, namedDrafts, List.append_assoc]
  rfl

/-- The tables come after the contents of the given sections. -/
theorem standing_tables (parts : List Part) (symbols : List Symbol) :
    Standing (write parts symbols) (tablesOffset parts) (symbolTable symbols) ∧
      Standing (write parts symbols) (tablesOffset parts + (symbolTable symbols).length)
        (nameTable (symbols.map (·.1))) := by
  have hcontents : Standing (write parts symbols) fileHeaderLength _ :=
    standing_contents (withNames (namedDrafts parts symbols))
  rw [withNames_namedDrafts, List.flatMap_append, tableDrafts, List.flatMap_cons,
    List.flatMap_cons] at hcontents
  exact ⟨hcontents.right.left, hcontents.right.right.left⟩

/-- The headers of the tables come after those of the given sections, which are no symbol tables. -/
theorem headersOf_write (parts : List Part) (symbols : List Symbol) :
    ∃ headers tableName stringsName last,
      headersOf (withNames (namedDrafts parts symbols)) =
        headers ++ [(symbolsDraft parts symbols).header tableName (tablesOffset parts),
          (symbolNamesDraft symbols).header stringsName
            (tablesOffset parts + (symbolTable symbols).length), last] ∧
      headers.length = parts.length ∧ symbolTableKind ∉ headers.map (·.kind) ∧
      last.kind = stringTableKind := by
  have hkinds : symbolTableKind ∉
      (draftHeaders 1 fileHeaderLength (parts.map Part.draft)).map (·.kind) := by
    rw [map_kind_draftHeaders, List.map_map, List.mem_map]
    rintro ⟨p, -, hp⟩
    rcases kind_draft p with h | h
    · exact absurd (h.symm.trans hp) (by decide)
    · exact absurd (h.symm.trans hp) (by decide)
  have hheaders := draftHeaders_append 1 fileHeaderLength (parts.map Part.draft)
    (tableDrafts parts symbols)
  rw [← withNames_namedDrafts] at hheaders
  refine ⟨_, _, _, _, hheaders, ?_, hkinds, rfl⟩
  rw [length_draftHeaders, List.length_map]

theorem readTables_write {parts : List Part} {symbols : List Symbol}
    (hlength : (write parts symbols).length < UInt32.size)
    (hcount : parts.length + 2 < UInt32.size)
    (hplain : ∀ s ∈ symbols, s.1 ≠ "" ∧ Char.ofNat 0 ∉ s.1.toList) :
    readTables (write parts symbols)
        (nullHeader :: headersOf (withNames (namedDrafts parts symbols)))
        (nullHeader :: headersOf (withNames (namedDrafts parts symbols))) = .ok symbols := by
  obtain ⟨headers, tableName, stringsName, last, hheaders, hcountHeaders, hkinds, hlast⟩ :=
    headersOf_write parts symbols
  obtain ⟨htable, hnames⟩ := standing_tables parts symbols
  rw [hheaders]
  generalize hall : nullHeader :: (headers ++ _) = all
  have hlink : all[(UInt32.ofNat (parts.length + 2)).toNat]? =
      some ((symbolNamesDraft symbols).header stringsName
        (tablesOffset parts + (symbolTable symbols).length)) := by
    rw [UInt32.toNat_ofNat_of_lt' hcount, ← hall, ← hcountHeaders]
    simp
  have hsymbols : readTable (write parts symbols) all
      ((symbolsDraft parts symbols).header tableName (tablesOffset parts)) = .ok symbols := by
    refine readTable_eq hlength rfl hlink rfl ?_ ?_ hplain
    · show Standing _ (UInt32.ofNat (tablesOffset parts)).toNat _
      rwa [toNat_ofNat_of_standing hlength htable (Nat.le_add_right _ _)]
    · show Standing _ (UInt32.ofNat (tablesOffset parts + (symbolTable symbols).length)).toNat _
      rwa [toNat_ofNat_of_standing hlength hnames (Nat.le_add_right _ _)]
  have hnoSymbols : ∀ header : SectionHeader, header.kind = stringTableKind →
      readTable (write parts symbols) all header = .ok [] := fun header hkind =>
    if_neg (hkind ▸ by decide)
  have hothers : symbolTableKind ∉ (nullHeader :: headers).map (·.kind) := by
    rw [List.map_cons, List.mem_cons, not_or]
    exact ⟨by decide, hkinds⟩
  refine (congrArg (readTables _ all) hall.symm).trans
    ((readTables_append_of_other _ hothers).trans ?_)
  simp only [readTables, hsymbols, hnoSymbols _ hlast, bind, Except.bind, pure, Except.pure,
    hnoSymbols ((symbolNamesDraft symbols).header _ _) rfl, List.append_nil]

/-! ## Files -/

/-- The names of the headers that the writer adds. -/
def reservedNames : List String := ["", ".symtab", ".strtab", ".shstrtab"]

/-- Sections and symbols that a file can hold so that they are read back: their names tell them
apart and end where they should, and the fields of the file have room for its places and its
counts. -/
structure Writable (parts : List Part) (symbols : List Symbol) : Prop where
  distinct : (parts.map (·.name)).Nodup
  unreserved : ∀ p ∈ parts, p.name ∉ reservedNames
  plain : ∀ p ∈ parts, Char.ofNat 0 ∉ p.name.toList
  distinctSymbols : (symbols.map (·.1)).Nodup
  plainSymbols : ∀ s ∈ symbols, s.1 ≠ "" ∧ Char.ofNat 0 ∉ s.1.toList
  /-- With the null header and those of the three tables. -/
  count : parts.length + 4 ≤ 65535
  length : (write parts symbols).length < UInt32.size

/-- What a written file is read as. -/
def writtenFile (parts : List Part) (symbols : List Symbol) : File where
  data := write parts symbols
  sections := nullSection :: (withNames (namedDrafts parts symbols)).zipWith Draft.section
    (headersOf (withNames (namedDrafts parts symbols)))
  symbols := symbols

@[simp] theorem name_draft (p : Part) : p.draft.name = p.name := by
  unfold Part.draft
  cases p.contents <;> rfl

variable {parts : List Part} {symbols : List Symbol}

theorem name_mem_reservedNames : ∀ d ∈ tableDrafts parts symbols, d.name ∈ reservedNames := by
  intro d hd
  simp only [tableDrafts, List.mem_cons, List.not_mem_nil, or_false] at hd
  rcases hd with rfl | rfl | rfl <;> simp [symbolsDraft, symbolNamesDraft, namesDraft, tableDraft,
    reservedNames]

theorem plain_reservedNames : ∀ name ∈ reservedNames, Char.ofNat 0 ∉ name.toList := by
  decide

theorem Writable.plain_drafts (h : Writable parts symbols) :
    ∀ d ∈ withNames (namedDrafts parts symbols), Char.ofNat 0 ∉ d.name.toList := by
  intro d hd
  rw [withNames_namedDrafts, List.mem_append, List.mem_map] at hd
  rcases hd with ⟨p, hp, rfl⟩ | hd
  · rw [name_draft]
    exact h.plain p hp
  · exact plain_reservedNames _ (name_mem_reservedNames d hd)

/-- A written file is read as what it was written for. -/
theorem parse_write (h : Writable parts symbols) :
    File.parse (write parts symbols) = .ok (writtenFile parts symbols) := by
  have hcount := h.count
  have hdrafts : (withNames (namedDrafts parts symbols)).length < 65535 := by
    rw [withNames_namedDrafts, List.length_append, List.length_map]
    simp only [tableDrafts, List.length_cons, List.length_nil]
    omega
  have hsymbols := readTables_write h.length
    (Nat.lt_of_le_of_lt (by omega) (by decide : 65535 < UInt32.size)) h.plainSymbols
  rw [write] at hsymbols ⊢
  rw [parse_writeDrafts h.length h.plain_drafts hdrafts, hsymbols]
  rfl

end PacketOffload.Elf
