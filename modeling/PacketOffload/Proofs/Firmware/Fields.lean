import PacketOffload.Firmware.Elf.Writer
import PacketOffload.Proofs.Text.Encoding

/-!
# Fields of ELF files

What stands at an offset of a byte string is read there, whatever comes before it and after it. The
parts of a field that stands somewhere stand behind one another from the same place on, so that one
fact about a table gives the place of everything in it.

Main statements: words, names and section headers are read where they stand (`Standing.wordAt`,
`Standing.textAt`, `Standing.readHeader`).
-/

namespace PacketOffload.Elf

/-- A field stands at an offset of a byte string. -/
def Standing (data : Bytes) (offset : Nat) (field : Bytes) : Prop :=
  ∃ before after, data = before ++ (field ++ after) ∧ before.length = offset

namespace Standing

variable {data field first second : Bytes} {offset inner : Nat}

theorem left (h : Standing data offset (first ++ second)) : Standing data offset first := by
  obtain ⟨before, after, rfl, rfl⟩ := h
  exact ⟨before, second ++ after, by rw [List.append_assoc], rfl⟩

theorem right (h : Standing data offset (first ++ second)) :
    Standing data (offset + first.length) second := by
  obtain ⟨before, after, rfl, rfl⟩ := h
  exact ⟨before ++ first, after, by simp only [List.append_assoc], List.length_append⟩

theorem end_le (h : Standing data offset field) : offset + field.length ≤ data.length := by
  obtain ⟨before, after, rfl, rfl⟩ := h
  simp only [List.length_append]
  omega

theorem slice? (h : Standing data offset field) :
    data.slice? offset field.length = some field := by
  rw [Bytes.slice?, if_pos h.end_le]
  obtain ⟨before, after, rfl, rfl⟩ := h
  rw [List.drop_left, List.take_left]

theorem fieldAt (h : Standing data offset field) :
    fieldAt data offset field.length = .ok field := by
  simp only [Elf.fieldAt, h.slice?]

/-! ## Numbers -/

theorem wordAt {word : UInt32} (h : Standing data offset (Bytes.ofWord32 word)) :
    wordAt data offset = .ok word := by
  have hfield := h.fieldAt
  rw [Bytes.length_ofWord32] at hfield
  rw [Elf.wordAt, hfield, Except.map, Bytes.toWord32_ofWord32]

theorem halfAt {n : Nat} (h : Standing data offset (Bytes.leBytes 2 n)) (hn : n < 65536) :
    halfAt data offset = .ok n := by
  have hfield := h.fieldAt
  rw [Bytes.length_leBytes] at hfield
  rw [Elf.halfAt, hfield, Except.map, Bytes.leNat_leBytes, Bytes.span_two, Nat.mod_eq_of_lt hn]

/-- The words of a row of words stand behind one another. -/
theorem getElem?_words {words : List UInt32} (h : Standing data offset (wordBytes words)) {i : Nat}
    {word : UInt32} (hi : words[i]? = some word) :
    Standing data (offset + 4 * i) (Bytes.ofWord32 word) := by
  induction words generalizing offset i with
  | nil => cases hi
  | cons first rest ih =>
    have hsplit : Standing data offset (Bytes.ofWord32 first ++ wordBytes rest) := h
    cases i with
    | zero =>
      obtain rfl := Option.some.inj hi
      exact hsplit.left
    | succ i =>
      have hrest := hsplit.right
      rw [Bytes.length_ofWord32] at hrest
      have hword := ih hrest hi
      rwa [show offset + 4 + 4 * i = offset + 4 * (i + 1) by omega] at hword

/-! ## Names -/

/-- A name is read up to the zero byte that ends it. -/
theorem textAt {name : String} (h : Standing data offset (nameBytes name))
    (hname : Char.ofNat 0 ∉ name.toList) : textAt data offset = .ok name := by
  obtain ⟨before, after, rfl, rfl⟩ := h
  have hbytes : ∀ b ∈ Utf8.encode name, (b != 0) = true := by
    intro b hb
    rw [bne_iff_ne]
    rintro rfl
    exact Utf8.zero_notMem_encode hname hb
  have htaken : (nameBytes name ++ after).takeWhile (· != 0) = Utf8.encode name := by
    rw [nameBytes, List.append_assoc, List.takeWhile_append_of_pos hbytes]
    simp
  have hzero : (nameBytes name ++ after).contains 0 = true := by
    simp [nameBytes]
  have hlength : ¬ (before ++ (nameBytes name ++ after)).length < before.length := by
    simp
  simp only [Elf.textAt, hlength, if_false, List.drop_left, hzero, if_true, htaken,
    Utf8.decodeLenient_encode]

/-! ## Section headers -/

/-- A section header is read from its first seven words. -/
theorem readHeader {words : List UInt32} {h : SectionHeader}
    (hs : Standing data offset (wordBytes words)) (hwords : words.take 7 = h.words.take 7) :
    SectionHeader.read data offset = .ok h := by
  have hword : ∀ i < 7, ∀ word, h.words[i]? = some word →
      Elf.wordAt data (offset + 4 * i) = .ok word := by
    intro i hi word hword
    rw [← List.getElem?_take_of_lt hi, ← hwords, List.getElem?_take_of_lt hi] at hword
    exact (hs.getElem?_words hword).wordAt
  have hname := hword 0 (by decide) _ rfl
  have hkind := hword 1 (by decide) _ rfl
  have haddr := hword 3 (by decide) _ rfl
  have hoffset := hword 4 (by decide) _ rfl
  have hsize := hword 5 (by decide) _ rfl
  have hlink := hword 6 (by decide) _ rfl
  rw [Nat.mul_zero, Nat.add_zero] at hname
  simp only [SectionHeader.read, hname, hkind, haddr, hoffset, hsize, hlink, bind, Except.bind,
    pure, Except.pure]

end Standing

@[simp] theorem length_wordBytes (words : List UInt32) :
    (wordBytes words).length = 4 * words.length := by
  induction words with
  | nil => rfl
  | cons word rest ih =>
    rw [wordBytes, List.flatMap_cons, List.length_append, Bytes.length_ofWord32]
    rw [wordBytes] at ih
    rw [ih, List.length_cons]
    omega

end PacketOffload.Elf
