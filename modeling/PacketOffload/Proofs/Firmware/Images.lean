import PacketOffload.Proofs.Firmware.Written
import PacketOffload.Proofs.Loading.Answers

/-!
# Images of written files

A written file and the image assembled of the same sections and symbols answer alike. Both find a
section by its name among the given ones, and what the section's header says and points at in the
file is what the assembled image holds.

Main statement: a written file is read, lists its sections, and answers as the assembled image does
(`written_image_answers_as_assembled`).
-/

namespace PacketOffload

/-! ## Lookups -/

theorem lookup_eq_find? {α : Type} (entries : List (String × α)) (key : String) :
    entries.lookup key = (entries.find? (·.1 == key)).map (·.2) := by
  induction entries with
  | nil => rfl
  | cons entry rest ih =>
    rw [List.lookup_cons, List.find?_cons, BEq.comm, ih]
    cases entry.1 == key <;> rfl

/-- Among entries with different keys the order does not matter. -/
theorem lookup_reverse {α : Type} {entries : List (String × α)}
    (h : (entries.map Prod.fst).Nodup) (key : String) :
    entries.reverse.lookup key = entries.lookup key := by
  induction entries with
  | nil => rfl
  | cons entry rest ih =>
    rw [List.map_cons, List.nodup_cons] at h
    rw [List.reverse_cons, List.lookup_append, ih h.2]
    by_cases hkey : key = entry.1
    · have hnone : rest.lookup key = none := by
        rw [List.lookup_eq_none_iff]
        intro other hother
        rw [bne_iff_ne, hkey]
        intro heq
        exact h.1 (heq ▸ List.mem_map_of_mem hother)
      rw [hnone, List.lookup_cons, List.lookup_cons, beq_iff_eq.mpr hkey]
      rfl
    · rw [List.lookup_cons, List.lookup_cons, beq_eq_false_iff_ne.mpr hkey, List.lookup_nil,
        Option.or_none]

namespace Elf

variable {parts : List Part} {symbols : List Symbol}

/-! ## The assembled image -/

/-- What the assembled image holds of a section. -/
def Part.entry (p : Part) : String × AssembledSection :=
  (p.name, ⟨⟨p.draft.addr, p.draft.size⟩, p.draft.bytes⟩)

theorem sections_addTo (image : AssembledImage) (p : Part) :
    (p.addTo image).sections = p.entry :: image.sections := by
  obtain ⟨name, addr, contents⟩ := p
  cases contents <;> rfl

theorem sections_foldl_addTo (image : AssembledImage) (parts : List Part) :
    (parts.foldl Part.addTo image).sections = (parts.map Part.entry).reverse ++ image.sections := by
  induction parts generalizing image with
  | nil => rfl
  | cons p rest ih =>
    rw [List.foldl_cons, ih, sections_addTo, List.map_cons, List.reverse_cons, List.append_assoc]
    rfl

theorem symbols_foldl_addTo (image : AssembledImage) (parts : List Part) :
    (parts.foldl Part.addTo image).symbols = image.symbols := by
  induction parts generalizing image with
  | nil => rfl
  | cons p rest ih =>
    obtain ⟨name, addr, contents⟩ := p
    rw [List.foldl_cons, ih]
    cases contents <;> rfl

theorem foldl_addSymbol (image : AssembledImage) (symbols : List Symbol) :
    symbols.foldl (fun image symbol => image.addSymbol symbol.1 symbol.2) image =
      ⟨image.sections, symbols.reverse ++ image.symbols⟩ := by
  induction symbols generalizing image with
  | nil => rfl
  | cons symbol rest ih =>
    rw [List.foldl_cons, ih, List.reverse_cons, List.append_assoc]
    rfl

theorem assemble_eq (parts : List Part) (symbols : List Symbol) :
    assemble parts symbols = ⟨(parts.map Part.entry).reverse, symbols.reverse⟩ := by
  rw [assemble, foldl_addSymbol, sections_foldl_addTo, symbols_foldl_addTo]
  simp only [AssembledImage.empty, List.append_nil]

theorem find_assemble (h : Writable parts symbols) (name : String) :
    (assemble parts symbols).find name =
      match parts.find? (·.name == name) with
      | some p => .ok p.entry.2
      | none => .error (.missingSection name) := by
  have hkeys : ((parts.map Part.entry).map Prod.fst).Nodup := by
    rw [List.map_map]
    exact h.distinct
  have hpart : (parts.find? fun p => p.entry.1 == name) = parts.find? (·.name == name) := rfl
  rw [AssembledImage.find, assemble_eq, lookup_reverse hkeys, lookup_eq_find?, List.find?_map]
  simp only [Function.comp_def, hpart]
  cases parts.find? (·.name == name) <;> rfl

/-! ## The file -/

/-- A header says as much as there is: the number of bytes, or that there are none. -/
def Draft.Fits (d : Draft) : Prop :=
  if d.kind = noBitsKind then d.bytes = [] else d.size = UInt32.ofNat d.bytes.length

theorem fits_draft (p : Part) : p.draft.Fits := by
  obtain ⟨name, addr, contents⟩ := p
  cases contents with
  | bits bytes =>
    have hkind : programBitsKind ≠ noBitsKind := by decide
    exact (if_neg hkind).mpr rfl
  | noBits size => exact (if_pos rfl).mpr rfl

section Described

variable {data : Bytes} {names : Nat} {drafts : List Draft} {headers : List SectionHeader}

theorem map_name_sections (h : List.Forall₂ (Describes data names) drafts headers) :
    (drafts.zipWith Draft.section headers).map (·.name) = drafts.map (·.name) := by
  induction h with
  | nil => rfl
  | cons _ _ ih =>
    rw [List.zipWith_cons_cons, List.map_cons, ih, List.map_cons]
    rfl

/-- The first section of a name is the one of the first draft of that name. -/
theorem find?_sections (h : List.Forall₂ (Describes data names) drafts headers) {name : String}
    {d : Draft} (hd : drafts.find? (·.name == name) = some d) :
    ∃ header, (drafts.zipWith Draft.section headers).find? (·.name == name) =
      some (d.section header) ∧ Describes data names d header := by
  induction h with
  | nil => cases hd
  | @cons first header drafts headers hfirst hrest ih =>
    rw [List.find?_cons] at hd
    rw [List.zipWith_cons_cons, List.find?_cons, Draft.section]
    cases hname : first.name == name with
    | true =>
      rw [hname] at hd
      obtain rfl := Option.some.inj hd
      exact ⟨header, rfl, hfirst⟩
    | false =>
      rw [hname] at hd
      exact ih hd

/-- A section holds the bytes that its header points at. -/
theorem Describes.sectionBytes {file : File} {name : String} {d : Draft} {header : SectionHeader}
    (hd : Describes file.data names d header) (hfits : d.Fits)
    (hdata : file.data.length < UInt32.size) (hfind : file.find name = .ok header) :
    file.sectionBytes name = .ok d.bytes := by
  unfold Draft.Fits at hfits
  by_cases hkind : d.kind = noBitsKind
  · rw [if_pos hkind] at hfits
    simp only [File.sectionBytes, hfind, hd.kind, hkind, if_true, hfits, bind, Except.bind, pure,
      Except.pure]
  · rw [if_neg hkind] at hfits
    have hsize : header.size.toNat = d.bytes.length := by
      rw [hd.size, hfits]
      exact toNat_ofNat_of_standing hdata hd.bytes (Nat.le_add_left _ _)
    simp only [File.sectionBytes, hfind, hd.kind, hkind, if_false, hsize, hd.bytes.slice?, bind,
      Except.bind, pure, Except.pure]

end Described

theorem sectionNames_writtenFile (h : Writable parts symbols) :
    (writtenFile parts symbols).sectionNames =
      "" :: (parts.map (·.name) ++ [".symtab", ".strtab", ".shstrtab"]) := by
  have hdrafts : (withNames (namedDrafts parts symbols)).map (·.name) =
      parts.map (·.name) ++ [".symtab", ".strtab", ".shstrtab"] := by
    rw [withNames_namedDrafts, List.map_append, List.map_map]
    exact congrArg (· ++ _) (List.map_congr_left fun p _ => name_draft p)
  rw [File.sectionNames, writtenFile, List.map_cons,
    map_name_sections (describes_withNames h.length), hdrafts]
  rfl

/-- The sections that the writer adds are found under reserved names only. -/
theorem find?_withNames (parts : List Part) (symbols : List Symbol) {name : String}
    (hname : name ∉ reservedNames) :
    (withNames (namedDrafts parts symbols)).find? (·.name == name) =
      (parts.find? (·.name == name)).map Part.draft := by
  have htables : (tableDrafts parts symbols).find? (·.name == name) = none := by
    rw [List.find?_eq_none]
    intro d hd heq
    exact hname (beq_iff_eq.mp heq ▸ name_mem_reservedNames d hd)
  rw [withNames_namedDrafts, List.find?_append, htables, Option.or_none, List.find?_map]
  simp only [Function.comp_def, name_draft]

/-- The null section is found under a reserved name only. -/
theorem find?_writtenFile {name : String} (hname : name ∉ reservedNames) :
    (writtenFile parts symbols).sections.find? (·.name == name) =
      ((withNames (namedDrafts parts symbols)).zipWith Draft.section
        (headersOf (withNames (namedDrafts parts symbols)))).find? (·.name == name) := by
  refine List.find?_cons_of_neg fun heq => hname ?_
  rw [← beq_iff_eq.mp heq]
  decide

theorem find_writtenFile_of_some (h : Writable parts symbols) {name : String}
    (hname : name ∉ reservedNames) {p : Part} (hp : parts.find? (·.name == name) = some p) :
    ∃ header, (writtenFile parts symbols).find name = .ok header ∧
      Describes (writtenFile parts symbols).data (namesOffset (namedDrafts parts symbols)) p.draft
        header := by
  have hdraft := find?_withNames parts symbols hname
  rw [hp, Option.map_some] at hdraft
  obtain ⟨header, hsection, hheader⟩ := find?_sections (describes_withNames h.length) hdraft
  refine ⟨header, ?_, hheader⟩
  simp only [File.find, find?_writtenFile hname, hsection, Draft.section]

theorem find_writtenFile_of_none (h : Writable parts symbols) {name : String}
    (hname : name ∉ reservedNames) (hp : parts.find? (·.name == name) = none) :
    (writtenFile parts symbols).find name = .error (.missingSection name) := by
  have hdraft := find?_withNames parts symbols hname
  rw [hp, Option.map_none, List.find?_eq_none] at hdraft
  have hnone : (writtenFile parts symbols).sections.find? (·.name == name) = none := by
    rw [find?_writtenFile hname, List.find?_eq_none]
    intro s hs
    have hmem := List.mem_map_of_mem (f := Section.name) hs
    rw [map_name_sections (describes_withNames h.length), List.mem_map] at hmem
    obtain ⟨d, hd, heq⟩ := hmem
    exact heq ▸ hdraft d hd
  rw [File.find, hnone]

/-! ## Answers -/

theorem sectionInfo_writtenFile (h : Writable parts symbols) {name : String}
    (hname : name ∉ reservedNames) :
    (writtenFile parts symbols).image.sectionInfo name =
      (assemble parts symbols).image.sectionInfo name := by
  simp only [File.image, AssembledImage.image, find_assemble h]
  cases hp : parts.find? (·.name == name) with
  | none => rw [find_writtenFile_of_none h hname hp]; rfl
  | some p =>
    obtain ⟨header, hfind, hheader⟩ := find_writtenFile_of_some h hname hp
    rw [hfind, Except.map, hheader.addr, hheader.size]
    rfl

theorem sectionBytes_writtenFile (h : Writable parts symbols) {name : String}
    (hname : name ∉ reservedNames) :
    (writtenFile parts symbols).image.sectionBytes name =
      (assemble parts symbols).image.sectionBytes name := by
  simp only [File.image, AssembledImage.image, find_assemble h]
  cases hp : parts.find? (·.name == name) with
  | none =>
    rw [File.sectionBytes, find_writtenFile_of_none h hname hp]
    rfl
  | some p =>
    obtain ⟨header, hfind, hheader⟩ := find_writtenFile_of_some h hname hp
    exact hheader.sectionBytes (fits_draft p) h.length hfind

/-- Looking for a symbol by the end of its name makes no difference for this name: there is a symbol
of this name, or none whose name ends in it. -/
def Definite (symbols : List Symbol) (name : String) : Prop :=
  (∃ s ∈ symbols, s.1 = name) ∨ ∀ s ∈ symbols, ¬ name.toList <:+ s.1.toList

instance (symbols : List Symbol) (name : String) : Decidable (Definite symbols name) :=
  inferInstanceAs (Decidable ((∃ s ∈ symbols, s.1 = name) ∨
    ∀ s ∈ symbols, ¬ name.toList <:+ s.1.toList))

theorem symbolAddress_writtenFile (h : Writable parts symbols) {name : String}
    (hname : Definite symbols name) :
    (writtenFile parts symbols).image.symbolAddress name =
      (assemble parts symbols).image.symbolAddress name := by
  have hassembled : (assemble parts symbols).image.symbolAddress name =
      .ok ((symbols.find? (·.1 == name)).map (·.2)) := by
    rw [assemble_eq]
    show Except.ok (symbols.reverse.lookup name) = _
    rw [lookup_reverse h.distinctSymbols, lookup_eq_find?]
  rw [hassembled]
  show Except.ok (File.symbolAddress _ name) = _
  unfold File.symbolAddress
  cases hexact : symbols.find? (·.1 == name) with
  | some s => simp only [writtenFile, hexact]
  | none =>
    have hends : symbols.find? (fun symbol => File.endsIn symbol.1 name) = none := by
      rcases hname with ⟨s, hs, heq⟩ | hname
      · exact absurd (beq_iff_eq.mpr heq) (List.find?_eq_none.mp hexact s hs)
      · rw [List.find?_eq_none]
        intro s hs hsuffix
        exact hname s hs (List.isSuffixOf_iff_suffix.mp hsuffix)
    simp only [writtenFile, hexact, hends]

/-- **A written file answers as the assembled image.** The file of sections and symbols is read and
lists the null section, the given sections and the writer's tables. Under every name but the
reserved ones it has the sections of the image assembled of the same sections and symbols, and it
has the same symbols but for those that are found by the end of a name alone. If no handler is found
so, then a load has the same outcome and the same effect with both. -/
theorem written_image_answers_as_assembled (parts : List Part) (symbols : List Symbol)
    (h : Writable parts symbols) :
    ∃ file, File.parse (write parts symbols) = .ok file ∧
      file.sectionNames = "" :: (parts.map (·.name) ++ [".symtab", ".strtab", ".shstrtab"]) ∧
      (∀ name ∉ reservedNames,
        file.image.sectionInfo name = (assemble parts symbols).image.sectionInfo name ∧
        file.image.sectionBytes name = (assemble parts symbols).image.sectionBytes name) ∧
      (∀ name, Definite symbols name →
        file.image.symbolAddress name = (assemble parts symbols).image.symbolAddress name) ∧
      ((∀ name ∈ handlerSymbols, Definite symbols name) →
        ∀ (σ : Type) [Transport σ] (l : Loader) (s : Session σ) (ctx : Nat) (host : HostAperture),
          l.load s file.image ctx host = l.load s (assemble parts symbols).image ctx host) := by
  have hreserved : ∀ name ∈ firmwareSections, name ∉ reservedNames := by decide
  refine ⟨writtenFile parts symbols, parse_write h, sectionNames_writtenFile h,
    fun name hname => ⟨sectionInfo_writtenFile h hname, sectionBytes_writtenFile h hname⟩,
    fun name hname => symbolAddress_writtenFile h hname, ?_⟩
  intro hsymbols σ _ l s ctx host
  have hloads : (writtenFile parts symbols).image.LoadsAs (assemble parts symbols).image :=
    { info := fun name hname => sectionInfo_writtenFile h (hreserved name hname)
      bytes := fun name hname => sectionBytes_writtenFile h (hreserved name hname)
      symbols := fun name hname => symbolAddress_writtenFile h (hsymbols name hname) }
  exact hloads.load_eq l s ctx host

/-- Code and data of a handler. -/
def sampleParts : List Part :=
  [⟨".text", 0x1d000100, .bits [0x13, 0, 0, 0, 0x6f]⟩,
    ⟨".l2_handler_data", 0x1c0c0000, .noBits 512⟩]

/-- Handlers of two stages, and a symbol that no load asks for. -/
def sampleSymbols : List Symbol :=
  [("_hh", 0x1d000400), ("_ph", 0x1d000800), ("__host_data", 0x1c0c0100)]

theorem writable_sample : Writable sampleParts sampleSymbols where
  distinct := by decide
  unreserved := by decide
  plain := by decide
  distinctSymbols := by decide
  plainSymbols := by decide
  count := by decide
  length := by decide +kernel

theorem written_image_answers_as_assembled_sample :
    Writable sampleParts sampleSymbols ∧
      ∃ file, File.parse (write sampleParts sampleSymbols) = .ok file ∧
        file.sectionNames =
          ["", ".text", ".l2_handler_data", ".symtab", ".strtab", ".shstrtab"] ∧
        file.image.sectionBytes ".text" = .ok [0x13, 0, 0, 0, 0x6f] ∧
        file.image.sectionInfo ".l2_handler_data" = .ok ⟨0x1c0c0000, 512⟩ ∧
        file.image.sectionInfo ".data" = .error (.missingSection ".data") ∧
        file.image.symbolAddress "_ph" = .ok (some 0x1d000800) ∧
        file.image.symbolAddress "_th" = .ok none ∧
        ∀ (σ : Type) [Transport σ] (l : Loader) (s : Session σ) (ctx : Nat) (host : HostAperture),
          l.load s file.image ctx host =
            l.load s (assemble sampleParts sampleSymbols).image ctx host := by
  obtain ⟨file, hparse, hnames, hsections, hsymbols, hload⟩ :=
    written_image_answers_as_assembled sampleParts sampleSymbols writable_sample
  refine ⟨writable_sample, file, hparse, hnames, ?_, ?_, ?_, ?_, ?_, hload (by decide)⟩
  · rw [(hsections ".text" (by decide)).2]
    rfl
  · rw [(hsections ".l2_handler_data" (by decide)).1]
    rfl
  · rw [(hsections ".data" (by decide)).1]
    rfl
  · rw [hsymbols "_ph" (by decide)]
    rfl
  · rw [hsymbols "_th" (by decide)]
    rfl

end Elf

end PacketOffload
