import Mathlib.Data.List.Basic
import PacketOffload.Firmware.Elf

/-!
# The format of ELF files

A file comes from outside, and its offsets may point anywhere: tables of headers, names and symbols
may lie outside the file, or in one another. Each of the readers gives one value under one condition
and refuses the file as no image otherwise, and both are known from the bytes alone. So are, in the
end, the format and what is read of a file.

Main statement: what is read as an ELF file, and what it is read as (`parse_exact`).
-/

namespace PacketOffload.Elf

/-! ## Reads -/

/-- A read gives a value exactly under a condition; otherwise it refuses the file as no image. -/
structure Reads {α : Type} (read : Except Fault α) (P : Prop) (a : α) : Prop where
  value : P → read = .ok a
  refused : ¬ P → ∃ defect, read = .error (.invalidImage defect)

namespace Reads

variable {α β : Type} {read : Except Fault α} {P Q : Prop} {a : α} {b : β}

theorem eq_ok_iff (h : Reads read P a) {x : α} : read = .ok x ↔ P ∧ x = a := by
  constructor
  · intro hx
    by_cases hp : P
    · exact ⟨hp, Except.ok.inj (hx.symm.trans (h.value hp))⟩
    · obtain ⟨defect, he⟩ := h.refused hp
      cases hx.symm.trans he
  · rintro ⟨hp, rfl⟩
    exact h.value hp

theorem refused_iff (h : Reads read P a) :
    (∃ defect, read = .error (.invalidImage defect)) ↔ ¬ P := by
  refine ⟨?_, h.refused⟩
  rintro ⟨defect, he⟩ hp
  cases (h.value hp).symm.trans he

theorem congr (h : Reads read P a) (hpq : P ↔ Q) : Reads read Q a :=
  ⟨fun hq => h.value (hpq.2 hq), fun hq => h.refused fun hp => hq (hpq.1 hp)⟩

theorem pure (a : α) : Reads (Pure.pure a) True a := ⟨fun _ => rfl, fun h => absurd trivial h⟩

theorem bind {next : α → Except Fault β} (h : Reads read P a) (hnext : P → Reads (next a) Q b) :
    Reads (read >>= next) (P ∧ Q) b := by
  constructor
  · rintro ⟨hp, hq⟩
    rw [h.value hp]
    exact (hnext hp).value hq
  · intro hn
    by_cases hp : P
    · rw [h.value hp]
      exact (hnext hp).refused fun hq => hn ⟨hp, hq⟩
    · obtain ⟨defect, he⟩ := h.refused hp
      exact ⟨defect, by rw [he]; rfl⟩

theorem map (h : Reads read P a) (f : α → β) : Reads (read.map f) P (f a) := by
  constructor
  · intro hp
    rw [h.value hp]
    rfl
  · intro hp
    obtain ⟨defect, he⟩ := h.refused hp
    exact ⟨defect, by rw [he]; rfl⟩

/-- A check of its own, before the rest of a read. -/
theorem check {c : Prop} [Decidable c] {defect : ImageDefect} {next : PUnit → Except Fault β}
    (h : ¬ c → Reads (next ()) Q b) :
    Reads (if c then throw (.invalidImage defect) >>= next else next ()) (¬ c ∧ Q) b := by
  by_cases hc : c
  · rw [if_pos hc]
    exact ⟨fun hn => absurd hc hn.1, fun _ => ⟨defect, rfl⟩⟩
  · rw [if_neg hc]
    exact (h hc).congr (by simp [hc])

end Reads

/-! ## Fields -/

/-- The number in the two bytes at an offset. -/
def halfFrom (data : Bytes) (offset : Nat) : Nat := Bytes.leNat ((data.drop offset).take 2)

/-- A name that begins at an offset ends in the file: a zero byte stands there or behind. -/
def Ends (data : Bytes) (offset : Nat) : Prop := 0 ∈ data.drop offset

/-- The bytes of the name that begins at an offset, up to a zero byte. -/
def nameFrom (data : Bytes) (offset : Nat) : Bytes := (data.drop offset).takeWhile (· != 0)

def textFrom (data : Bytes) (offset : Nat) : String := Utf8.decodeLenient (nameFrom data offset)

variable (data : Bytes)

theorem fieldAt_reads (offset width : Nat) :
    Reads (fieldAt data offset width) (offset + width ≤ data.length)
      ((data.drop offset).take width) := by
  unfold fieldAt Bytes.slice?
  by_cases h : offset + width ≤ data.length
  · rw [if_pos h]
    exact ⟨fun _ => rfl, fun hn => absurd h hn⟩
  · rw [if_neg h]
    exact ⟨fun hp => absurd hp h, fun _ => ⟨_, rfl⟩⟩

theorem halfAt_reads (offset : Nat) :
    Reads (halfAt data offset) (offset + 2 ≤ data.length) (halfFrom data offset) :=
  (fieldAt_reads data offset 2).map Bytes.leNat

theorem wordAt_reads (offset : Nat) :
    Reads (wordAt data offset) (offset + 4 ≤ data.length) (data.wordFrom offset) :=
  (fieldAt_reads data offset 4).map Bytes.toWord32

theorem textAt_reads (offset : Nat) :
    Reads (textAt data offset) (Ends data offset) (textFrom data offset) := by
  unfold textAt Ends
  by_cases hlen : data.length < offset
  · rw [if_pos hlen, List.drop_eq_nil_of_le (Nat.le_of_lt hlen)]
    exact ⟨fun h => absurd h List.not_mem_nil, fun _ => ⟨_, rfl⟩⟩
  · rw [if_neg hlen]
    by_cases hzero : 0 ∈ data.drop offset
    · have hcontains : (data.drop offset).contains 0 = true := List.contains_iff_mem.2 hzero
      simp only [hcontains, if_true]
      exact ⟨fun _ => rfl, fun hn => absurd hzero hn⟩
    · have hcontains : (data.drop offset).contains 0 = false := by simpa using hzero
      simp only [hcontains]
      exact ⟨fun hp => absurd hp hzero, fun _ => ⟨_, rfl⟩⟩

/-! ## Section headers -/

/-- The section header at an offset. -/
def headerFrom (base : Nat) : SectionHeader where
  name := data.wordFrom base
  kind := data.wordFrom (base + 4)
  addr := data.wordFrom (base + 12)
  offset := data.wordFrom (base + 16)
  size := data.wordFrom (base + 20)
  link := data.wordFrom (base + 24)

theorem read_reads (base : Nat) :
    Reads (SectionHeader.read data base) (base + 28 ≤ data.length) (headerFrom data base) := by
  unfold SectionHeader.read
  refine Reads.congr (.bind (wordAt_reads data base) fun _ =>
    .bind (wordAt_reads data (base + 4)) fun _ => .bind (wordAt_reads data (base + 12)) fun _ =>
    .bind (wordAt_reads data (base + 16)) fun _ => .bind (wordAt_reads data (base + 20)) fun _ =>
    .bind (wordAt_reads data (base + 24)) fun _ => .pure _) ?_
  simp only [and_true]
  omega

theorem readHeaders_reads (table count index : Nat) :
    Reads (readHeaders data table count index)
      (∀ i ∈ List.range' index count, table + i * sectionHeaderLength + 28 ≤ data.length)
      ((List.range' index count).map fun i =>
        headerFrom data (table + i * sectionHeaderLength)) := by
  induction count generalizing index with
  | zero => exact (Reads.pure []).congr (by simp)
  | succ count ih =>
    rw [List.range'_succ, readHeaders]
    refine Reads.congr (.bind (read_reads data (table + index * sectionHeaderLength)) fun _ =>
      .bind (ih (index + 1)) fun _ => .pure _) ?_
    simp

theorem readSections_reads (names : Nat) (headers : List SectionHeader) :
    Reads (readSections data names headers) (∀ h ∈ headers, Ends data (names + h.name.toNat))
      (headers.map fun h => ⟨textFrom data (names + h.name.toNat), h⟩) := by
  induction headers with
  | nil => exact (Reads.pure []).congr (by simp)
  | cons header rest ih =>
    rw [readSections]
    refine Reads.congr (.bind (textAt_reads data (names + header.name.toNat)) fun _ =>
      .bind ih fun _ => .pure _) ?_
    simp

/-! ## Symbols -/

theorem textFrom_eq_empty_iff {offset : Nat} :
    textFrom data offset = "" ↔ nameFrom data offset = [] := by
  unfold textFrom
  cases nameFrom data offset with
  | nil => exact ⟨fun _ => rfl, fun _ => rfl⟩
  | cons b rest => simp [Utf8.decodeLenient, Utf8.pieces, Utf8.piecesFrom]

/-- An entry of a symbol table can be read: its name, and its value unless the name is empty. -/
structure EntryFits (strings entry : Nat) : Prop where
  nameWord : entry + 4 ≤ data.length
  nameEnds : Ends data (strings + (data.wordFrom entry).toNat)
  valueWord : nameFrom data (strings + (data.wordFrom entry).toNat) ≠ [] → entry + 8 ≤ data.length

/-- The symbol of an entry of a symbol table, if it has a name. -/
def symbolFrom (strings entry : Nat) : Option Symbol :=
  if nameFrom data (strings + (data.wordFrom entry).toNat) = [] then none
  else some (textFrom data (strings + (data.wordFrom entry).toNat), data.wordFrom (entry + 4))

theorem readSymbol_reads (strings entry : Nat) :
    Reads (readSymbol data strings entry) (EntryFits data strings entry)
      (symbolFrom data strings entry) := by
  unfold readSymbol symbolFrom
  refine Reads.congr (.bind (wordAt_reads data entry) fun _ =>
    .bind (textAt_reads data (strings + (data.wordFrom entry).toNat))
      (Q := nameFrom data (strings + (data.wordFrom entry).toNat) ≠ [] → entry + 8 ≤ data.length)
      fun _ => ?_) ⟨?_, ?_⟩
  · simp only [String.isEmpty_iff, textFrom_eq_empty_iff]
    by_cases hempty : nameFrom data (strings + (data.wordFrom entry).toNat) = []
    · rw [if_pos hempty, if_pos hempty]
      exact (Reads.pure none).congr (by simp [hempty])
    · rw [if_neg hempty, if_neg hempty]
      refine Reads.congr (.bind (wordAt_reads data (entry + 4)) fun _ => .pure _) ?_
      simp [hempty, Nat.add_assoc]
  · rintro ⟨hword, hends, hvalue⟩
    exact ⟨hword, hends, hvalue⟩
  · rintro ⟨hword, hends, hvalue⟩
    exact ⟨hword, hends, hvalue⟩

theorem readEntries_reads (strings table count index : Nat) :
    Reads (readEntries data strings table count index)
      (∀ i ∈ List.range' index count, EntryFits data strings (table + i * symbolLength))
      ((List.range' index count).filterMap fun i =>
        symbolFrom data strings (table + i * symbolLength)) := by
  induction count generalizing index with
  | zero => exact (Reads.pure []).congr (by simp)
  | succ count ih =>
    rw [List.range'_succ, readEntries, List.filterMap_eq_flatMap_toList, List.flatMap_cons,
      ← List.filterMap_eq_flatMap_toList]
    refine Reads.congr (.bind (readSymbol_reads data strings (table + index * symbolLength)) fun _ =>
      .bind (ih (index + 1)) fun _ => .pure _) ?_
    simp

/-! ## What the file header says -/

/-- Offset of the table of section headers. -/
def tableStart : Nat := (data.wordFrom 0x20).toNat

/-- Number of section headers. -/
def headerCount : Nat := halfFrom data 0x30

/-- Index of the section that holds the names of the sections. -/
def namesIndex : Nat := halfFrom data 0x32

/-- The section header of an index. -/
def headerOf (index : Nat) : SectionHeader :=
  headerFrom data (tableStart data + index * sectionHeaderLength)

/-- The section headers, in their order. -/
def headersFrom : List SectionHeader := (List.range (headerCount data)).map (headerOf data)

/-- Offset of the names of the sections. -/
def namesStart : Nat := (headerOf data (namesIndex data)).offset.toNat

theorem getElem?_headersFrom (index : Nat) :
    (headersFrom data)[index]? =
      if index < headerCount data then some (headerOf data index) else none := by
  by_cases h : index < headerCount data <;> simp [headersFrom, h]

theorem headersFrom_reads :
    Reads (readHeaders data (tableStart data) (headerCount data) 0)
      (∀ index < headerCount data,
        tableStart data + index * sectionHeaderLength + 28 ≤ data.length)
      (headersFrom data) := by
  have h := readHeaders_reads data (tableStart data) (headerCount data) 0
  rw [← List.range_eq_range'] at h
  exact h.congr (by simp only [List.mem_range])

/-! ## Symbol tables -/

/-- Offset of the names that the entries of a symbol table refer to. -/
def stringsStart (header : SectionHeader) : Nat :=
  (headerOf data header.link.toNat).offset.toNat

/-- Offset of an entry of a symbol table. -/
def SectionHeader.entryStart (header : SectionHeader) (index : Nat) : Nat :=
  header.offset.toNat + index * symbolLength

/-- A symbol table can be read: the section of its names exists, and every entry can be read but
entry 0, which is the undefined symbol. -/
structure TableFits (header : SectionHeader) : Prop where
  link : header.link.toNat < headerCount data
  entries : ∀ index, 1 ≤ index → index < header.size.toNat / symbolLength →
    EntryFits data (stringsStart data header) (header.entryStart index)

/-- The symbols of a section, in the order of its entries. -/
def symbolsFrom (header : SectionHeader) : List Symbol :=
  if header.kind = symbolTableKind then
    (List.range' 1 (header.size.toNat / symbolLength - 1)).filterMap fun index =>
      symbolFrom data (stringsStart data header) (header.entryStart index)
  else []

theorem readTable_reads (header : SectionHeader) :
    Reads (readTable data (headersFrom data) header)
      (header.kind = symbolTableKind → TableFits data header) (symbolsFrom data header) := by
  unfold readTable symbolsFrom
  by_cases hkind : header.kind = symbolTableKind
  · rw [if_pos hkind, if_pos hkind]
    rw [getElem?_headersFrom]
    by_cases hlink : header.link.toNat < headerCount data
    · rw [if_pos hlink]
      refine (readEntries_reads data _ header.offset.toNat _ 1).congr ⟨fun h _ => ⟨hlink, ?_⟩, ?_⟩
      · intro index hlow hhigh
        exact h index (List.mem_range'_1.2 ⟨hlow, by omega⟩)
      · intro h index hi
        obtain ⟨hlow, hhigh⟩ := List.mem_range'_1.1 hi
        exact (h hkind).entries index hlow (by omega)
    · rw [if_neg hlink]
      exact ⟨fun h => absurd (h hkind).link hlink, fun _ => ⟨_, rfl⟩⟩
  · rw [if_neg hkind, if_neg hkind]
    exact (Reads.pure []).congr (by simp [hkind])

theorem readTables_reads (headers : List SectionHeader) :
    Reads (readTables data (headersFrom data) headers)
      (∀ h ∈ headers, h.kind = symbolTableKind → TableFits data h)
      (headers.flatMap (symbolsFrom data)) := by
  induction headers with
  | nil => exact (Reads.pure []).congr (by simp)
  | cons header rest ih =>
    rw [readTables, List.flatMap_cons]
    refine Reads.congr (.bind (readTable_reads data header) fun _ => .bind ih fun _ => .pure _) ?_
    simp

/-! ## Files -/

/-- What can be read once the headers are known: the section of the names exists, the names of the
sections end, and the symbol tables fit. -/
structure ContentsFit : Prop where
  names : namesIndex data < headerCount data
  nameEnds : ∀ header ∈ headersFrom data, Ends data (namesStart data + header.name.toNat)
  tables : ∀ header ∈ headersFrom data, header.kind = symbolTableKind → TableFits data header

/-- The format of the files that are read. Nothing is said of the contents of the sections, nor of
the fields that do not count. -/
structure WellFormed : Prop where
  length : fileHeaderLength ≤ data.length
  magic : data.take 4 = magic
  /-- 32-bit words. -/
  wordSize : data[4]? = some 1
  littleEndian : data[5]? = some 1
  headerSize : halfFrom data 0x2e = sectionHeaderLength
  headers : ∀ index < headerCount data,
    tableStart data + index * sectionHeaderLength + 28 ≤ data.length
  contents : ContentsFit data

/-- What there is to read in a file: the headers in their order, with their names, and the symbols
of all symbol tables. -/
def fileFrom : File where
  data := data
  sections := (headersFrom data).map fun header =>
    ⟨textFrom data (namesStart data + header.name.toNat), header⟩
  symbols := (headersFrom data).flatMap (symbolsFrom data)

theorem getD_zero_eq_one_iff {index : Nat} : data.getD index 0 = 1 ↔ data[index]? = some 1 := by
  rw [List.getD_eq_getElem?_getD]
  cases data[index]? <;> simp

theorem parse_reads : Reads (File.parse data) (WellFormed data) (fileFrom data) := by
  unfold File.parse
  refine Reads.congr (.check fun _ => .check fun _ => .bind (wordAt_reads data 0x20) fun _ =>
    .bind (halfAt_reads data 0x2e) fun _ => .bind (halfAt_reads data 0x30) fun _ =>
    .bind (halfAt_reads data 0x32) fun _ => .check fun _ =>
    .bind (headersFrom_reads data) (Q := ContentsFit data) fun _ => ?_) ?_
  · -- The section of the names is looked up when all headers are read.
    have hlookup : (headersFrom data)[halfFrom data 0x32]? = _ :=
      getElem?_headersFrom data (namesIndex data)
    rw [hlookup]
    by_cases hnames : namesIndex data < headerCount data
    · rw [if_pos hnames]
      refine Reads.congr (.bind (readSections_reads data _ _) fun _ =>
        .bind (readTables_reads data _) fun _ => .pure _) ⟨?_, ?_⟩
      · rintro ⟨hends, htables, -⟩
        exact ⟨hnames, hends, htables⟩
      · intro h
        exact ⟨h.nameEnds, h.tables, trivial⟩
    · rw [if_neg hnames]
      exact ⟨fun h => absurd h.names hnames, fun _ => ⟨_, rfl⟩⟩
  · simp only [not_or, not_and, Nat.not_lt, Decidable.not_not, getD_zero_eq_one_iff]
    constructor
    · rintro ⟨⟨hlength, hmagic⟩, ⟨hclass, horder⟩, -, -, -, -, hsize, hheaders, hcontents⟩
      exact ⟨hlength, hmagic, hclass, horder, hsize (Nat.zero_lt_of_lt hcontents.names), hheaders,
        hcontents⟩
    · rintro ⟨hlength, hmagic, hclass, horder, hsize, hheaders, hcontents⟩
      -- The fields of the file header lie in its 52 bytes.
      have h52 : 52 ≤ data.length := hlength
      exact ⟨⟨hlength, hmagic⟩, ⟨hclass, horder⟩, by omega, by omega, by omega, by omega,
        fun _ => hsize, hheaders, hcontents⟩

/-- **What is read as an ELF file.** A byte string is read exactly if it is well-formed, and what is
read is then what stands in it; everything else is refused as no image. -/
theorem parse_exact :
    (∀ file, File.parse data = .ok file ↔ WellFormed data ∧ file = fileFrom data) ∧
      ((∃ defect, File.parse data = .error (.invalidImage defect)) ↔ ¬ WellFormed data) :=
  ⟨fun _ => (parse_reads data).eq_ok_iff, (parse_reads data).refused_iff⟩

end PacketOffload.Elf
