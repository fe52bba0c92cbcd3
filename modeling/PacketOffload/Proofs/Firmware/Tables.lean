import Mathlib.Data.List.Forall2
import PacketOffload.Proofs.Firmware.Fields

/-!
# Tables of ELF files

The tables that the writer makes are read entry by entry: the section headers, with the names and
the contents that they point at, and the symbols with their names. Offsets fit a word, since what
they point at stands in a file that is shorter than that.

Main statements: the headers are read back (`readHeaders_eq`), point at what their sections are made
of (`describes_draftHeaders`), and give the names back (`readSections_eq`), and a symbol table gives
the symbols back (`readTable_eq`).
-/

namespace PacketOffload.Elf

variable {data : Bytes}

/-! ## Section headers -/

theorem readHeaders_eq {headers : List SectionHeader} {table index : Nat}
    (h : Standing data (table + index * sectionHeaderLength)
      (headers.flatMap fun h => wordBytes h.words)) :
    readHeaders data table headers.length index = .ok headers := by
  induction headers generalizing index with
  | nil => rfl
  | cons header rest ih =>
    rw [List.flatMap_cons] at h
    have hrest := h.right
    rw [length_wordBytes, show header.words.length = 10 from rfl, Nat.add_assoc] at hrest
    have hindex : index * sectionHeaderLength + 4 * 10 = (index + 1) * sectionHeaderLength := by
      simp only [sectionHeaderLength]
      omega
    rw [hindex] at hrest
    simp only [readHeaders, List.length_cons, h.left.readHeader rfl, ih hrest, bind, Except.bind,
      pure, Except.pure]

/-- A header says what its section is, and points at its name and its contents. -/
structure Describes (data : Bytes) (names : Nat) (d : Draft) (h : SectionHeader) : Prop where
  kind : h.kind = d.kind
  addr : h.addr = d.addr
  size : h.size = d.size
  link : h.link = d.link
  name : Standing data (names + h.name.toNat) (nameBytes d.name)
  bytes : Standing data h.offset.toNat d.bytes

theorem toNat_ofNat_of_standing (hdata : data.length < UInt32.size) {n offset : Nat} {field : Bytes}
    (h : Standing data offset field) (hn : n ≤ offset + field.length) :
    (UInt32.ofNat n).toNat = n := by
  have hle := h.end_le
  rw [UInt32.toNat_ofNat', Nat.mod_eq_of_lt]
  exact Nat.lt_of_le_of_lt (by omega) hdata

theorem describes_draftHeaders (hdata : data.length < UInt32.size) {drafts : List Draft}
    {names name offset : Nat}
    (hnames : Standing data (names + name) ((drafts.map (·.name)).flatMap nameBytes))
    (hbytes : Standing data offset (drafts.flatMap (·.bytes))) :
    List.Forall₂ (Describes data names) drafts (draftHeaders name offset drafts) := by
  induction drafts generalizing name offset with
  | nil => exact .nil
  | cons d rest ih =>
    rw [List.map_cons, List.flatMap_cons] at hnames
    rw [List.flatMap_cons] at hbytes
    have hname := toNat_ofNat_of_standing hdata hnames (n := name) (by omega)
    have hoffset := toNat_ofNat_of_standing hdata hbytes (Nat.le_add_right offset _)
    refine .cons ⟨rfl, rfl, rfl, rfl, ?_, ?_⟩ (ih ?_ hbytes.right)
    · show Standing data (names + (UInt32.ofNat name).toNat) _
      rw [hname]
      exact hnames.left
    · show Standing data (UInt32.ofNat offset).toNat _
      rw [hoffset]
      exact hbytes.left
    · rw [← Nat.add_assoc]
      exact hnames.right

/-- A section with the header that describes it. -/
def Draft.section (d : Draft) (h : SectionHeader) : Section := ⟨d.name, h⟩

theorem readSections_eq {drafts : List Draft} {headers : List SectionHeader} {names : Nat}
    (h : List.Forall₂ (Describes data names) drafts headers)
    (hplain : ∀ d ∈ drafts, Char.ofNat 0 ∉ d.name.toList) :
    readSections data names headers = .ok (drafts.zipWith Draft.section headers) := by
  induction h with
  | nil => rfl
  | @cons d header drafts headers hd hrest ih =>
    have hname := hd.name.textAt (hplain d List.mem_cons_self)
    have hothers := ih fun other ho => hplain other (List.mem_cons_of_mem d ho)
    simp only [readSections, hname, hothers, bind, Except.bind, pure, Except.pure]
    rfl

/-! ## Symbols -/

theorem readEntries_eq (hdata : data.length < UInt32.size) {symbols : List Symbol}
    {table strings name index : Nat}
    (htable : Standing data (table + index * symbolLength) (symbolEntries name symbols))
    (hnames : Standing data (strings + name) ((symbols.map (·.1)).flatMap nameBytes))
    (hplain : ∀ s ∈ symbols, s.1 ≠ "" ∧ Char.ofNat 0 ∉ s.1.toList) :
    readEntries data strings table symbols.length index = .ok symbols := by
  induction symbols generalizing name index with
  | nil => rfl
  | cons symbol rest ih =>
    rw [List.map_cons, List.flatMap_cons] at hnames
    obtain ⟨hne, htext⟩ := hplain symbol List.mem_cons_self
    have hoffset := (htable.left.getElem?_words (i := 0) rfl).wordAt
    have hvalue := (htable.left.getElem?_words (i := 1) rfl).wordAt
    rw [Nat.mul_zero, Nat.add_zero] at hoffset
    have hname := hnames.left.textAt htext
    rw [← toNat_ofNat_of_standing hdata hnames (n := name) (by omega)] at hname
    have hentry : readSymbol data strings (table + index * symbolLength) = .ok (some symbol) := by
      simp only [readSymbol, hoffset, hname, hvalue, bind, Except.bind, pure, Except.pure,
        String.isEmpty_iff, hne, if_false]
    have hindex : table + index * symbolLength + 4 * 4 = table + (index + 1) * symbolLength := by
      simp only [symbolLength]
      omega
    have hothers := htable.right
    rw [length_wordBytes, show List.length [UInt32.ofNat name, symbol.2, 0, 0] = 4 from rfl,
      hindex] at hothers
    have hrest := ih hothers (Nat.add_assoc strings name _ ▸ hnames.right)
      fun other ho => hplain other (List.mem_cons_of_mem symbol ho)
    simp only [readEntries, List.length_cons, hentry, hrest, bind, Except.bind, pure, Except.pure]
    rfl

@[simp] theorem length_symbolEntries (name : Nat) (symbols : List Symbol) :
    (symbolEntries name symbols).length = symbolLength * symbols.length := by
  induction symbols generalizing name with
  | nil => rfl
  | cons symbol rest ih =>
    rw [symbolEntries, List.length_append, length_wordBytes, ih]
    simp only [symbolLength, List.length_cons, List.length_nil]
    omega

theorem length_symbolTable (symbols : List Symbol) :
    (symbolTable symbols).length = symbolLength * (symbols.length + 1) := by
  rw [symbolTable, List.length_append, length_wordBytes, length_symbolEntries]
  simp only [symbolLength, List.length_cons, List.length_nil]
  omega

/-- The symbols of a table are read, where the table and its names are found through headers. -/
theorem readTable_eq (hdata : data.length < UInt32.size) {symbols : List Symbol}
    {headers : List SectionHeader} {header strings : SectionHeader}
    (hkind : header.kind = symbolTableKind) (hlink : headers[header.link.toNat]? = some strings)
    (hsize : header.size = UInt32.ofNat (symbolTable symbols).length)
    (htable : Standing data header.offset.toNat (symbolTable symbols))
    (hnames : Standing data strings.offset.toNat (nameTable (symbols.map (·.1))))
    (hplain : ∀ s ∈ symbols, s.1 ≠ "" ∧ Char.ofNat 0 ∉ s.1.toList) :
    readTable data headers header = .ok symbols := by
  have hlength : header.size.toNat = (symbolTable symbols).length := by
    rw [hsize]
    exact toNat_ofNat_of_standing hdata htable (Nat.le_add_left _ _)
  have hcount : header.size.toNat / symbolLength - 1 = symbols.length := by
    rw [hlength, length_symbolTable, Nat.mul_div_cancel_left _ (by decide), Nat.add_sub_cancel]
  -- The first entry is the undefined symbol, and the first name is empty.
  have hentries : Standing data (header.offset.toNat + 1 * symbolLength)
      (symbolEntries 1 symbols) := htable.right
  have hsplit : Standing data strings.offset.toNat ([0] ++ (symbols.map (·.1)).flatMap nameBytes) :=
    hnames
  rw [readTable, if_pos hkind, hlink]
  show readEntries data strings.offset.toNat header.offset.toNat _ 1 = _
  rw [hcount]
  exact readEntries_eq hdata hentries hsplit.right hplain

/-- Headers of other sections give no symbols. -/
theorem readTables_append_of_other {headers others : List SectionHeader} (rest : List SectionHeader)
    (h : symbolTableKind ∉ others.map (·.kind)) :
    readTables data headers (others ++ rest) = readTables data headers rest := by
  induction others with
  | nil => rfl
  | cons header others ih =>
    rw [List.map_cons, List.mem_cons, not_or] at h
    have hnone : readTable data headers header = .ok [] := if_neg (Ne.symm h.1)
    rw [List.cons_append, readTables, hnone, ih h.2]
    cases readTables data headers rest <;> rfl

end PacketOffload.Elf
