import PacketOffload.Proofs.Firmware.Format
import PacketOffload.Proofs.Firmware.Images

/-!
# Files that were cut short

All that is read of an ELF file is found by offsets from its beginning, and a name ends at the first
zero byte. What is well-formed stays so when bytes are put behind it, and nothing that was read is
read otherwise then. So a file that was cut short is read as the whole file, if it is read at all.
What may be lost are contents of sections, and a section is complete or refused.

Main statements: well-formed files can be continued by any bytes (`WellFormed.append`), and what is
read of them does not change (`longer_file_answers_alike`).
-/

namespace PacketOffload.Elf

variable {data : Bytes} (extra : Bytes)

/-! ## Fields -/

/-- Bytes put behind a file move none of its fields. -/
theorem field_append {offset width : Nat} (h : offset + width ≤ data.length) :
    ((data ++ extra).drop offset).take width = (data.drop offset).take width := by
  have hfield : width ≤ (data.drop offset).length := by
    rw [List.length_drop]
    omega
  rw [List.drop_append_of_le_length (Nat.le_trans (Nat.le_add_right _ _) h),
    List.take_append_of_le_length hfield]

theorem wordFrom_append {offset : Nat} (h : offset + 4 ≤ data.length) :
    (data ++ extra).wordFrom offset = data.wordFrom offset := by
  unfold Bytes.wordFrom
  rw [field_append extra h]

theorem halfFrom_append {offset : Nat} (h : offset + 2 ≤ data.length) :
    halfFrom (data ++ extra) offset = halfFrom data offset := by
  unfold halfFrom
  rw [field_append extra h]

namespace Ends

variable {offset : Nat}

theorem drop_append (h : Ends data offset) :
    (data ++ extra).drop offset = data.drop offset ++ extra := by
  apply List.drop_append_of_le_length
  by_contra hlen
  unfold Ends at h
  rw [List.drop_eq_nil_of_le (by omega)] at h
  exact List.not_mem_nil h

theorem append (h : Ends data offset) : Ends (data ++ extra) offset := by
  unfold Ends
  rw [h.drop_append]
  exact List.mem_append_left extra h

theorem nameFrom_append (h : Ends data offset) :
    nameFrom (data ++ extra) offset = nameFrom data offset := by
  unfold nameFrom
  rw [h.drop_append, List.takeWhile_append, if_neg]
  -- The zero byte that ends the name is not taken.
  intro hlength
  have hall := (List.takeWhile_prefix (· != 0)).eq_of_length hlength
  have hzero : 0 ∈ (data.drop offset).takeWhile (· != 0) := by
    rw [hall]
    exact h
  cases List.mem_takeWhile_imp hzero

theorem textFrom_append (h : Ends data offset) :
    textFrom (data ++ extra) offset = textFrom data offset := by
  unfold textFrom
  rw [h.nameFrom_append]

end Ends

theorem headerFrom_append {base : Nat} (h : base + 28 ≤ data.length) :
    headerFrom (data ++ extra) base = headerFrom data base := by
  have hword : ∀ offset ≤ 24, (data ++ extra).wordFrom (base + offset) =
      data.wordFrom (base + offset) := by
    intro offset hoffset
    exact wordFrom_append extra (by omega)
  have hname : (data ++ extra).wordFrom base = data.wordFrom base := hword 0 (by decide)
  simp only [headerFrom, hname, hword 4 (by decide), hword 12 (by decide), hword 16 (by decide),
    hword 20 (by decide), hword 24 (by decide)]

/-! ## Entries of symbol tables -/

namespace EntryFits

variable {strings entry : Nat}

theorem append (h : EntryFits data strings entry) : EntryFits (data ++ extra) strings entry := by
  have hword := wordFrom_append extra h.nameWord
  constructor
  · rw [List.length_append]
    exact Nat.le_add_right_of_le h.nameWord
  · rw [hword]
    exact h.nameEnds.append extra
  · rw [hword, h.nameEnds.nameFrom_append, List.length_append]
    intro hnamed
    exact Nat.le_add_right_of_le (h.valueWord hnamed)

theorem symbolFrom_append (h : EntryFits data strings entry) :
    symbolFrom (data ++ extra) strings entry = symbolFrom data strings entry := by
  unfold symbolFrom
  rw [wordFrom_append extra h.nameWord, h.nameEnds.nameFrom_append, h.nameEnds.textFrom_append]
  by_cases hname : nameFrom data (strings + (data.wordFrom entry).toNat) = []
  · rw [if_pos hname, if_pos hname]
  · rw [if_neg hname, if_neg hname, wordFrom_append extra (h.valueWord hname)]

end EntryFits

/-! ## Headers -/

namespace WellFormed

theorem tableStart_append (h : WellFormed data) : tableStart (data ++ extra) = tableStart data := by
  have hlength : 52 ≤ data.length := h.length
  unfold tableStart
  rw [wordFrom_append extra (by omega)]

theorem headerCount_append (h : WellFormed data) :
    headerCount (data ++ extra) = headerCount data := by
  have hlength : 52 ≤ data.length := h.length
  unfold headerCount
  rw [halfFrom_append extra (by omega)]

theorem namesIndex_append (h : WellFormed data) :
    namesIndex (data ++ extra) = namesIndex data := by
  have hlength : 52 ≤ data.length := h.length
  unfold namesIndex
  rw [halfFrom_append extra (by omega)]

theorem headerOf_append (h : WellFormed data) {index : Nat} (hindex : index < headerCount data) :
    headerOf (data ++ extra) index = headerOf data index := by
  unfold headerOf
  rw [h.tableStart_append, headerFrom_append extra (h.headers index hindex)]

theorem headersFrom_append (h : WellFormed data) :
    headersFrom (data ++ extra) = headersFrom data := by
  unfold headersFrom
  rw [h.headerCount_append]
  apply List.map_congr_left
  intro index hindex
  exact h.headerOf_append extra (List.mem_range.1 hindex)

theorem namesStart_append (h : WellFormed data) :
    namesStart (data ++ extra) = namesStart data := by
  unfold namesStart
  rw [h.namesIndex_append, h.headerOf_append extra h.contents.names]

/-! ## Symbol tables -/

variable {header : SectionHeader}

theorem stringsStart_append (h : WellFormed data) (hlink : header.link.toNat < headerCount data) :
    stringsStart (data ++ extra) header = stringsStart data header := by
  unfold stringsStart
  rw [h.headerOf_append extra hlink]

theorem tableFits_append (h : WellFormed data) (hfits : TableFits data header) :
    TableFits (data ++ extra) header := by
  constructor
  · rw [h.headerCount_append]
    exact hfits.link
  · intro index hlow hhigh
    rw [h.stringsStart_append extra hfits.link]
    exact (hfits.entries index hlow hhigh).append extra

theorem symbolsFrom_append (h : WellFormed data)
    (hfits : header.kind = symbolTableKind → TableFits data header) :
    symbolsFrom (data ++ extra) header = symbolsFrom data header := by
  unfold symbolsFrom
  by_cases hkind : header.kind = symbolTableKind
  · rw [if_pos hkind, if_pos hkind, h.stringsStart_append extra (hfits hkind).link]
    apply List.filterMap_congr
    intro index hindex
    obtain ⟨hlow, hhigh⟩ := List.mem_range'_1.1 hindex
    exact ((hfits hkind).entries index hlow (by omega)).symbolFrom_append extra
  · rw [if_neg hkind, if_neg hkind]

/-! ## Files -/

/-- A well-formed file stays well-formed when bytes are put behind it. -/
theorem append (h : WellFormed data) : WellFormed (data ++ extra) := by
  have hlength : 52 ≤ data.length := h.length
  have hlonger : data.length ≤ (data ++ extra).length := by simp
  constructor
  · exact Nat.le_trans h.length hlonger
  · rw [List.take_append_of_le_length (by omega)]
    exact h.magic
  · rw [List.getElem?_append_left (by omega)]
    exact h.wordSize
  · rw [List.getElem?_append_left (by omega)]
    exact h.littleEndian
  · rw [halfFrom_append extra (by omega)]
    exact h.headerSize
  · rw [h.headerCount_append, h.tableStart_append]
    intro index hindex
    exact Nat.le_trans (h.headers index hindex) hlonger
  · constructor
    · rw [h.namesIndex_append, h.headerCount_append]
      exact h.contents.names
    · rw [h.headersFrom_append, h.namesStart_append]
      intro header hheader
      exact (h.contents.nameEnds header hheader).append extra
    · rw [h.headersFrom_append]
      intro header hheader hkind
      exact h.tableFits_append extra (h.contents.tables header hheader hkind)

theorem sections_append (h : WellFormed data) :
    (fileFrom (data ++ extra)).sections = (fileFrom data).sections := by
  simp only [fileFrom]
  rw [h.headersFrom_append, h.namesStart_append]
  apply List.map_congr_left
  intro header hheader
  rw [(h.contents.nameEnds header hheader).textFrom_append]

theorem symbols_append (h : WellFormed data) :
    (fileFrom (data ++ extra)).symbols = (fileFrom data).symbols := by
  simp only [fileFrom]
  rw [h.headersFrom_append, List.flatMap_def, List.flatMap_def]
  congr 1
  apply List.map_congr_left
  intro header hheader
  exact h.symbolsFrom_append extra (h.contents.tables header hheader)

end WellFormed

/-! ## Answers -/

/-- The longer file has the sections and symbols of the shorter one and answers as it does, but that
it may have contents of sections that the shorter one refuses. -/
structure File.AnswersAs (longer shorter : File) : Prop where
  sections : longer.sections = shorter.sections
  symbols : longer.symbols = shorter.symbols
  info : ∀ name, longer.image.sectionInfo name = shorter.image.sectionInfo name
  addresses : ∀ name, longer.image.symbolAddress name = shorter.image.symbolAddress name
  bytes : ∀ name bytes, shorter.image.sectionBytes name = .ok bytes →
    longer.image.sectionBytes name = .ok bytes

theorem slice?_append {start length : Nat} {bytes : Bytes}
    (h : data.slice? start length = some bytes) :
    (data ++ extra).slice? start length = some bytes := by
  unfold Bytes.slice? at h ⊢
  split at h
  · next hfits =>
    rw [List.length_append, if_pos (Nat.le_add_right_of_le hfits), field_append extra hfits]
    exact h
  · cases h

namespace File

variable {longer shorter : File}

theorem sectionBytes_of_append {name : String} {bytes : Bytes}
    (hfind : longer.find name = shorter.find name) (hdata : longer.data = shorter.data ++ extra)
    (h : shorter.sectionBytes name = .ok bytes) : longer.sectionBytes name = .ok bytes := by
  unfold sectionBytes at h ⊢
  rw [hfind, hdata]
  cases hheader : shorter.find name with
  | error e =>
    rw [hheader] at h
    cases h
  | ok header =>
    rw [hheader] at h
    simp only [bind, Except.bind] at h ⊢
    by_cases hkind : header.kind = noBitsKind
    · rw [if_pos hkind] at h ⊢
      exact h
    · rw [if_neg hkind] at h ⊢
      cases hfield : shorter.data.slice? header.offset.toNat header.size.toNat with
      | none =>
        rw [hfield] at h
        cases h
      | some field =>
        rw [hfield] at h
        rw [slice?_append extra hfield]
        exact h

/-- The answers of a file follow from its sections, its symbols and its bytes. -/
theorem answersAs_of_append (hsections : longer.sections = shorter.sections)
    (hsymbols : longer.symbols = shorter.symbols) (hdata : longer.data = shorter.data ++ extra) :
    longer.AnswersAs shorter := by
  have hfind : ∀ name, longer.find name = shorter.find name := by
    intro name
    unfold find
    rw [hsections]
  refine ⟨hsections, hsymbols, ?_, ?_, ?_⟩
  · intro name
    simp only [image, hfind]
  · intro name
    simp only [image, symbolAddress, hsymbols]
  · intro name bytes h
    exact sectionBytes_of_append extra (hfind name) hdata h

end File

theorem exists_parse_append {file : File} (h : File.parse data = .ok file) :
    ∃ longer, File.parse (data ++ extra) = .ok longer ∧ longer.AnswersAs file := by
  obtain ⟨hformed, rfl⟩ := (parse_reads data).eq_ok_iff.1 h
  refine ⟨fileFrom (data ++ extra), (parse_reads _).value (hformed.append extra), ?_⟩
  exact File.answersAs_of_append extra (hformed.sections_append extra)
    (hformed.symbols_append extra) rfl

/-- A file cut short that is read is answered for by the whole file. -/
theorem answersAs_of_take {file short : File} (h : File.parse data = .ok file) {n : Nat}
    (hshort : File.parse (data.take n) = .ok short) : file.AnswersAs short := by
  obtain ⟨longer, hlonger, hanswers⟩ := exists_parse_append (data.drop n) hshort
  rw [List.take_append_drop, h] at hlonger
  cases hlonger
  exact hanswers

/-- **A longer file answers as the shorter one.** Whatever is put behind a file that is read, the
longer file is read with the same sections and symbols. Every section has the same address and size,
every symbol the same address, and every section whose contents the shorter file gives has the same
contents. So no cut makes another file of a file that is read: what is left of it is refused, or it
is read as the whole file is. -/
theorem longer_file_answers_alike (data : Bytes) (file : File) (h : File.parse data = .ok file) :
    (∀ extra, ∃ longer, File.parse (data ++ extra) = .ok longer ∧ longer.AnswersAs file) ∧
      ∀ n, (∃ defect, File.parse (data.take n) = .error (.invalidImage defect)) ∨
        ∃ short, File.parse (data.take n) = .ok short ∧ file.AnswersAs short := by
  refine ⟨fun extra => exists_parse_append extra h, ?_⟩
  intro n
  by_cases hformed : WellFormed (data.take n)
  · have hshort := (parse_reads (data.take n)).value hformed
    exact Or.inr ⟨_, hshort, answersAs_of_take h hshort⟩
  · exact Or.inl ((parse_reads (data.take n)).refused hformed)

theorem exists_of_map_eq_ok {α β : Type} {x : Except Fault α} {f : α → β} {b : β}
    (h : x.map f = .ok b) : ∃ a, x = .ok a ∧ f a = b := by
  cases x with
  | error e => cases h
  | ok a => exact ⟨a, rfl, Except.ok.inj h⟩

/-- A file that ends in the code of its section. -/
def codeLast : Bytes :=
  fileHeader 52 2 ++ (wordBytes (List.replicate 10 0) ++
    (wordBytes (SectionHeader.words ⟨1, programBitsKind, 0x1d000100, 189, 4, 0⟩) ++
      (wordBytes (SectionHeader.words ⟨7, stringTableKind, 0, 172, 17, 0⟩) ++
        (nameTable [".text", ".shstrtab"] ++ [0x13, 0, 0, 0]))))

/-- Bytes behind its code change nothing; without the last two bytes the code is refused. -/
theorem longer_file_answers_alike_code_last :
    ∃ file, File.parse codeLast = .ok file ∧
      file.image.sectionBytes ".text" = .ok [0x13, 0, 0, 0] ∧
      (∃ longer, File.parse (codeLast ++ [1, 2, 3]) = .ok longer ∧
        longer.image.sectionBytes ".text" = .ok [0x13, 0, 0, 0]) ∧
      ∃ short, File.parse (codeLast.take 191) = .ok short ∧ file.AnswersAs short ∧
        short.image.sectionBytes ".text" = .error (.invalidImage (.sectionBounds ".text")) := by
  obtain ⟨file, hfile, hcode⟩ := exists_of_map_eq_ok (x := File.parse codeLast)
    (f := fun file => file.image.sectionBytes ".text") (b := .ok [0x13, 0, 0, 0])
    (by decide +kernel)
  obtain ⟨short, hshort, hcut⟩ := exists_of_map_eq_ok (x := File.parse (codeLast.take 191))
    (f := fun file => file.image.sectionBytes ".text")
    (b := .error (.invalidImage (.sectionBounds ".text"))) (by decide +kernel)
  obtain ⟨hlonger, hcuts⟩ := longer_file_answers_alike codeLast file hfile
  obtain ⟨longer, hread, hanswers⟩ := hlonger [1, 2, 3]
  refine ⟨file, hfile, hcode, ⟨longer, hread, hanswers.bytes _ _ hcode⟩, short, hshort, ?_, hcut⟩
  rcases hcuts 191 with ⟨defect, hrefused⟩ | ⟨other, hother, hsame⟩
  · cases hshort.symm.trans hrefused
  · cases hshort.symm.trans hother
    exact hsame

end PacketOffload.Elf
