import PacketOffload.Proofs.Device.Recorded
import PacketOffload.Proofs.Files.Storage
import PacketOffload.Transport.RegisterFiles

/-!
# Host memory through a session

Whether a buffer has memory of its own or is a range of the device's file, it is a row of bytes, as
long as the file reaches to its end: a write inside it is what is read afterwards, and all other
bytes stay. Pokes do not reach it.

Main statements: what bytes a session shows after a write (`writeBytes_of_mapped`,
`writeWord_of_mapped`), and that reads in range succeed with these bytes (`readBytes_of_mapped`,
`readWord_of_mapped`).
-/

namespace PacketOffload

/-- The file behind the host memory stays what it was made, and pokes leave it alone. -/
class LawfulSource (σ : Type) [Transport σ] : Prop where
  file_setFile : ∀ {d : σ} {f : FileContents}, DmaSource.file d = some f →
    ∀ contents, DmaSource.file (DmaSource.setFile d contents) = some contents
  file_poke : ∀ (d : σ) (addr : Nat) (word : UInt64),
    DmaSource.file (Transport.poke d addr word).2 = DmaSource.file d

/-- The file behind the host memory stays what it was made. -/
class LawfulFile (σ : Type) [DmaSource σ] : Prop where
  file_setFile : ∀ {d : σ} {f : FileContents}, DmaSource.file d = some f →
    ∀ contents, DmaSource.file (DmaSource.setFile d contents) = some contents

/-! ## Instances -/

instance {σ : Type} [Transport σ] [LawfulSource σ] : LawfulFile σ where
  file_setFile := LawfulSource.file_setFile

instance : LawfulFile FileContents where
  file_setFile _ _ := rfl

instance : LawfulFile Unit where
  file_setFile h := by cases h

instance : LawfulSource Simulator where
  file_setFile h := by cases h
  file_poke _ _ _ := rfl

instance {σ : Type} [Transport σ] [LawfulSource σ] : LawfulSource (Faulty σ) where
  file_setFile {f _} h contents := LawfulSource.file_setFile (d := f.device) h contents
  file_poke f := LawfulSource.file_poke f.device

instance {σ : Type} [Transport σ] [LawfulSource σ] : LawfulSource (Recorded σ) where
  file_setFile {r _} h contents := LawfulSource.file_setFile (d := r.device) h contents
  file_poke r := LawfulSource.file_poke r.device

instance : LawfulSource RegisterFiles where
  file_setFile {d f} h contents := by
    have hread : d.tree.read d.devicePath = .ok f := by
      simp only [DmaSource.file, RegisterFiles.deviceFile] at h
      cases hr : d.tree.read d.devicePath with
      | error e => simp [hr, Except.toOption] at h
      | ok g => simpa [hr, Except.toOption] using h
    obtain ⟨u, hwrite, hback⟩ := FileTree.read_write hread contents
    simp [DmaSource.file, DmaSource.setFile, RegisterFiles.setDeviceFile, hwrite,
      RegisterFiles.deviceFile, hback, Except.toOption]
  file_poke _ _ _ := rfl

/-! ## Bytes of a buffer -/

namespace DmaBuffer

variable {σ : Type} [DmaSource σ]

/-- The byte at an offset of a buffer. -/
def byte (b : DmaBuffer) (source : σ) (i : Nat) : UInt8 :=
  match b.backing with
  | .own cells => cells.get i
  | .deviceFile offset =>
    match DmaSource.file source with
    | some f => f.mappedCell (offset + i)
    | none => 0

/-- The file of a buffer reaches to the end of its first `count` bytes. -/
def Reaches (b : DmaBuffer) (source : σ) (count : Nat) : Prop :=
  match b.backing with
  | .own _ => True
  | .deviceFile offset => ∃ f, DmaSource.file source = some f ∧ offset + count ≤ f.pageEnd

/-- The file of a buffer reaches to its end. -/
def Whole (b : DmaBuffer) (source : σ) : Prop :=
  match b.backing with
  | .own _ => True
  | .deviceFile offset => ∃ f, DmaSource.file source = some f ∧ offset + b.length ≤ f.pageEnd

theorem whole_iff_reaches {b : DmaBuffer} {source : σ} :
    b.Whole source ↔ b.Reaches source b.length := Iff.rfl

theorem Reaches.mono {b : DmaBuffer} {source : σ} {count fewer : Nat} (h : b.Reaches source count)
    (hle : fewer ≤ count) : b.Reaches source fewer := by
  unfold Reaches at h ⊢
  split at h
  · trivial
  · obtain ⟨f, hf, hend⟩ := h
    exact ⟨f, hf, by omega⟩

theorem getBytes_eq_map (b : DmaBuffer) (source : σ) (start count : Nat) :
    b.getBytes source start count = (List.range count).map fun i => b.byte source (start + i) := by
  unfold getBytes byte
  cases b.backing with
  | own cells => rfl
  | deviceFile offset =>
    cases DmaSource.file source with
    | none => simp [List.map_const']
    | some f => simp [FileContents.readMapped, Nat.add_assoc]

end DmaBuffer

/-- A buffer after bytes were written that its file reaches to the end of, if there are any. -/
theorem DmaBuffer.setBytes_spec {σ : Type} [DmaSource σ] [LawfulFile σ] {b : DmaBuffer}
    {source : σ} {start : Nat} {data : Bytes}
    (hr : data ≠ [] → b.Reaches source (start + data.length)) :
    (b.setBytes source start data).1.length = b.length ∧
      (∀ count, b.Reaches source count →
        (b.setBytes source start data).1.Reaches (b.setBytes source start data).2 count) ∧
      ∀ i, (b.setBytes source start data).1.byte (b.setBytes source start data).2 i =
        if start ≤ i then (data[i - start]?).getD (b.byte source i) else b.byte source i := by
  obtain ⟨length, backing⟩ := b
  cases backing with
  | own cells => exact ⟨rfl, fun _ h => h, fun i => Memory.get_setRange cells start i data⟩
  | deviceFile offset =>
    cases hf : DmaSource.file source with
    | none =>
      have hnil : data = [] := Decidable.byContradiction fun hne => by
        obtain ⟨f, hsome, -⟩ := hr hne
        simp [hf] at hsome
      simp [setBytes, byte, hf, hnil]
    | some f =>
      have hset : (DmaBuffer.setBytes ⟨length, .deviceFile offset⟩ source start data) =
          (⟨length, .deviceFile offset⟩,
            DmaSource.setFile source (f.writeMapped (offset + start) data)) := by
        simp only [setBytes, hf]
      have hfile := LawfulFile.file_setFile hf (f.writeMapped (offset + start) data)
      have hreach : ∀ count, DmaBuffer.Reaches ⟨length, .deviceFile offset⟩ source count →
          offset + count ≤ f.pageEnd := by
        rintro count ⟨g, hg, hend⟩
        rw [hf, Option.some.injEq] at hg
        rwa [hg]
      rw [hset]
      refine ⟨rfl, fun count h => ⟨_, hfile, hreach count h⟩, fun i => ?_⟩
      have hsub : offset + i - (offset + start) = i - start := by omega
      simp only [byte, hfile, hf, FileContents.mappedCell_writeMapped, hsub,
        Nat.add_le_add_iff_left]
      by_cases hin : offset + i < f.pageEnd
      · simp [hin]
      · -- Past the last page there is nothing of what was written.
        have hnone : data[i - start]? = none := by
          refine List.getElem?_eq_none ?_
          by_cases hne : data = []
          · simp [hne]
          · have hend := hreach _ (hr hne)
            omega
        simp [hin, hnone]

/-! ## Bytes of a session -/

namespace Session

/-- A buffer of some length is mapped, and all of it is there. -/
def Mapped {σ : Type} [DmaSource σ] (s : Session σ) (length : Nat) : Prop :=
  ∃ b, s.buffer = some b ∧ b.length = length ∧ b.Whole s.device

/-- The byte at an offset of the buffer. -/
def byte {σ : Type} [DmaSource σ] (s : Session σ) (i : Nat) : UInt8 :=
  match s.buffer with
  | some b => b.byte s.device i
  | none => 0

def bytes {σ : Type} [DmaSource σ] (s : Session σ) (start count : Nat) : Bytes :=
  (List.range count).map fun i => s.byte (start + i)

theorem length_bytes {σ : Type} [DmaSource σ] (s : Session σ) (start count : Nat) :
    (s.bytes start count).length = count := by
  simp [bytes]

theorem bytes_congr {σ : Type} [DmaSource σ] {s t : Session σ} {start count : Nat}
    (h : ∀ i, start ≤ i → i < start + count → t.byte i = s.byte i) :
    t.bytes start count = s.bytes start count := by
  refine List.map_congr_left fun i hi => ?_
  have hlt := List.mem_range.1 hi
  exact h (start + i) (by omega) (by omega)

/-- Fewer bytes are a beginning of more. -/
theorem take_bytes {σ : Type} [DmaSource σ] (s : Session σ) (start : Nat) {count fewer : Nat}
    (h : fewer ≤ count) : (s.bytes start count).take fewer = s.bytes start fewer := by
  rw [bytes, ← List.map_take, List.take_range, Nat.min_eq_left h]
  rfl

section

variable {σ : Type} [Transport σ] {s : Session σ} {length start count : Nat}

theorem readBytes_of_mapped (h : s.Mapped length) (hr : start + count ≤ length) :
    s.readBytes start count = .ok (s.bytes start count) := by
  obtain ⟨b, hb, rfl, -⟩ := h
  have hread := DmaBuffer.readBytes_eq_ok_iff.2
    ⟨hr, DmaBuffer.getBytes_eq_map b s.device start count⟩
  simp only [readBytes, getBuffer, hb, bytes, byte, bind, Except.bind]
  exact hread

theorem readWord_of_mapped (h : s.Mapped length) (hr : start + 8 ≤ length) (ha : start % 8 = 0) :
    s.readWord start = .ok (Bytes.toWord64 (s.bytes start 8)) := by
  obtain ⟨b, hb, rfl, -⟩ := h
  have hread : b.readWord s.device start = .ok (Bytes.toWord64 (b.getBytes s.device start 8)) :=
    DmaBuffer.readWord_eq_ok_iff.2 ⟨⟨hr, ha⟩, rfl⟩
  rw [DmaBuffer.getBytes_eq_map] at hread
  simp only [readWord, getBuffer, hb, bytes, byte, bind, Except.bind]
  exact hread

end

variable {σ : Type} [Transport σ] {s t : Session (Recorded σ)} {length start : Nat} {data : Bytes}

/-- A session after bytes were written inside its buffer. -/
structure Wrote (s : Session (Recorded σ)) (length start : Nat) (data : Bytes)
    (t : Session (Recorded σ)) : Prop where
  mapped : t.Mapped length
  byte : ∀ i < length, t.byte i =
    if start ≤ i then (data[i - start]?).getD (s.byte i) else s.byte i
  attempts : t.device.attempts = s.device.attempts

theorem attempts_setBytes (b : DmaBuffer) (r : Recorded σ) (start : Nat) (data : Bytes) :
    (b.setBytes r start data).2.attempts = r.attempts := by
  obtain ⟨length, backing⟩ := b
  cases backing with
  | own cells => rfl
  | deviceFile offset =>
    simp only [DmaBuffer.setBytes]
    split <;> rfl

variable [LawfulSource σ]

theorem wrote_setBytes {b : DmaBuffer} (hb : s.buffer = some b) (hw : b.Whole s.device)
    (hr : start + data.length ≤ b.length) :
    Wrote s b.length start data { s with
      buffer := some (b.setBytes s.device start data).1
      device := (b.setBytes s.device start data).2 } := by
  have hreach : b.Reaches s.device b.length := DmaBuffer.whole_iff_reaches.1 hw
  have hdata : data ≠ [] → b.Reaches s.device (start + data.length) := fun _ => hreach.mono hr
  obtain ⟨hlength, hkept, hbyte⟩ := DmaBuffer.setBytes_spec hdata
  have hwhole := hkept b.length hreach
  refine ⟨⟨_, rfl, hlength, ?_⟩, fun i _ => ?_, attempts_setBytes b s.device start data⟩
  · rw [DmaBuffer.whole_iff_reaches, hlength]
    exact hwhole
  · simp only [Session.byte, hb]
    exact hbyte i

theorem writeBytes_of_mapped (h : s.Mapped length) (hr : start + data.length ≤ length) :
    (s.writeBytes start data).1 = .ok () ∧
      Wrote s length start data (s.writeBytes start data).2 := by
  obtain ⟨b, hb, rfl, hw⟩ := h
  have hcheck := DmaBuffer.checkRange_eq_ok_iff.2 hr
  simp only [writeBytes, hb, DmaBuffer.writeBytes, hcheck]
  exact ⟨trivial, wrote_setBytes hb hw hr⟩

theorem writeWord_of_mapped (h : s.Mapped length) (hr : start + 8 ≤ length) (ha : start % 8 = 0)
    (word : UInt64) :
    (s.writeWord start word).1 = .ok () ∧
      Wrote s length start (Bytes.ofWord64 word) (s.writeWord start word).2 := by
  obtain ⟨b, hb, rfl, hw⟩ := h
  have hcheck := DmaBuffer.checkWord_eq_ok_iff.2 ⟨hr, ha⟩
  simp only [writeWord, hb, DmaBuffer.writeWord, hcheck]
  exact ⟨trivial, wrote_setBytes hb hw (by rw [Bytes.length_ofWord64]; exact hr)⟩

omit [LawfulSource σ] in
/-- What was written is what is there. -/
theorem Wrote.bytes_self (h : Wrote s length start data t) (hr : start + data.length ≤ length) :
    t.bytes start data.length = data := by
  refine List.ext_getElem (length_bytes t start _) fun i hi hd => ?_
  have hin : start + i < length := by omega
  have hsub : start + i - start = i := by omega
  simp only [bytes, List.getElem_map, List.getElem_range, h.byte _ hin, Nat.le_add_right, if_true,
    hsub, List.getElem?_eq_getElem hd, Option.getD_some]

omit [LawfulSource σ] in
/-- Bytes outside of what was written stay. -/
theorem Wrote.byte_of_outside (h : Wrote s length start data t) {i : Nat} (hi : i < length)
    (hout : i < start ∨ start + data.length ≤ i) : t.byte i = s.byte i := by
  rw [h.byte i hi]
  split
  next hle =>
    have hnone : data[i - start]? = none := List.getElem?_eq_none (by omega)
    rw [hnone, Option.getD_none]
  next => rfl

/-! ## Pokes -/

theorem byte_poke (s : Session (Recorded σ)) (addr : Nat) (word : UInt64) (i : Nat) :
    (s.poke addr word).2.byte i = s.byte i := by
  have hfile := LawfulSource.file_poke s.device addr word
  simp only [Session.byte, poke]
  cases s.buffer with
  | none => rfl
  | some b =>
    simp only [DmaBuffer.byte, hfile]

theorem Mapped.poke (h : s.Mapped length) (addr : Nat) (word : UInt64) :
    (s.poke addr word).2.Mapped length := by
  obtain ⟨b, hb, hl, hw⟩ := h
  refine ⟨b, hb, hl, ?_⟩
  have hfile := LawfulSource.file_poke s.device addr word
  obtain ⟨len, backing⟩ := b
  cases backing with
  | own cells => trivial
  | deviceFile offset =>
    obtain ⟨f, hf, hend⟩ := hw
    exact ⟨f, hfile.trans hf, hend⟩

end Session

end PacketOffload
