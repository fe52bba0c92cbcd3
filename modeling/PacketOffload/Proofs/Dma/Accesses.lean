import PacketOffload.Proofs.Ring.HostMemory

/-!
# A buffer as a row of bytes

Words, bytes and lent pieces of a buffer are views of one row of bytes. Which accesses it takes
depends on their place alone. Those that it takes show what stands there and put other bytes in the
place, and it makes no difference how the bytes came there; those that it refuses leave everything
as it is.

Main statements: which accesses are taken (`DmaBuffer.perform_eq_ok_iff`), what one access does to
the row (`DmaBuffer.contents_perform`) and what many do (`DmaBuffer.contents_run`), and that a
buffer answers every access as the row would (`accesses_as_on_plain_bytes`).
-/

namespace PacketOffload

/-! ## Rows of bytes -/

namespace Bytes

variable {cells data : Bytes} {offset length i : Nat}

/-- The bytes at an offset. -/
def load (cells : Bytes) (offset length : Nat) : Bytes := (cells.drop offset).take length

/-- The row with other bytes at an offset. -/
def store (cells : Bytes) (offset : Nat) (data : Bytes) : Bytes :=
  cells.take offset ++ data ++ cells.drop (offset + data.length)

theorem getElem?_store (h : offset + data.length ≤ cells.length) (i : Nat) :
    (cells.store offset data)[i]? =
      if offset ≤ i then (data[i - offset]?).or cells[i]? else cells[i]? := by
  have hmin : min offset cells.length = offset := by omega
  rw [store, List.append_assoc]
  by_cases hi : offset ≤ i
  · rw [List.getElem?_append_right (by simpa [hmin] using hi), List.length_take, hmin, if_pos hi]
    by_cases hin : i - offset < data.length
    · rw [List.getElem?_append_left hin, List.getElem?_eq_getElem hin, Option.some_or]
    · have hskip : offset + data.length + (i - offset - data.length) = i := by omega
      rw [List.getElem?_append_right (by omega), List.getElem?_drop, hskip,
        List.getElem?_eq_none (Nat.le_of_not_lt hin), Option.none_or]
  · have hlt : i < offset := by omega
    rw [List.getElem?_append_left (by simpa [hmin] using hlt), List.getElem?_take, if_pos hlt,
      if_neg hi]

theorem length_load (h : offset + length ≤ cells.length) :
    (cells.load offset length).length = length := by
  simp [load]
  omega

/-- Bytes that are put back where they were taken change nothing. -/
theorem store_load (h : offset + length ≤ cells.length) :
    cells.store offset (cells.load offset length) = cells := by
  rw [store, length_load h, load, ← List.drop_drop, List.append_assoc, List.take_append_drop,
    List.take_append_drop]

end Bytes

/-! ## Accesses -/

/-- An access to a buffer. -/
inductive BufferAccess where
  | readWord (offset : Nat)
  | writeWord (offset : Nat) (word : UInt64)
  | readBytes (offset length : Nat)
  | writeBytes (offset : Nat) (data : Bytes)
  /-- Bytes are lent, and the holder leaves `change i byte` in the place of the `i`-th. -/
  | edit (offset length : Nat) (change : Nat → UInt8 → UInt8)

/-- What an access shows. -/
inductive Shown where
  | nothing
  | word (word : UInt64)
  | bytes (bytes : Bytes)
  deriving DecidableEq, Repr

namespace BufferAccess

def offset : BufferAccess → Nat
  | readWord offset | writeWord offset _ | readBytes offset _ | writeBytes offset _
  | edit offset _ _ => offset

def length : BufferAccess → Nat
  | readWord _ | writeWord _ _ => 8
  | readBytes _ length | edit _ length _ => length
  | writeBytes _ data => data.length

/-- The access is to a word. -/
def OnWord : BufferAccess → Prop
  | readWord _ | writeWord _ _ => True
  | readBytes _ _ | writeBytes _ _ | edit _ _ _ => False

instance : DecidablePred OnWord
  | readWord _ | writeWord _ _ => .isTrue trivial
  | readBytes _ _ | writeBytes _ _ | edit _ _ _ => .isFalse id

/-- An access lies in a row of `size` bytes, and at a multiple of eight if it is to a word. -/
def Admitted (a : BufferAccess) (size : Nat) : Prop :=
  a.offset + a.length ≤ size ∧ (a.OnWord → a.offset % 8 = 0)

instance (a : BufferAccess) (size : Nat) : Decidable (a.Admitted size) :=
  inferInstanceAs (Decidable (_ ∧ _))

/-- What an access shows of the bytes in its place. -/
def shows (bytes : Bytes) : BufferAccess → Shown
  | readWord _ => .word (Bytes.toWord64 bytes)
  | readBytes _ _ | edit _ _ _ => .bytes bytes
  | writeWord _ _ | writeBytes _ _ => .nothing

/-- What an access leaves of the bytes in its place. -/
def leaves (bytes : Bytes) : BufferAccess → Bytes
  | readWord _ | readBytes _ _ => bytes
  | writeWord _ word => Bytes.ofWord64 word
  | writeBytes _ data => data
  | edit _ _ change => bytes.mapIdx change

/-- What an access shows of a row of bytes. -/
def answer (a : BufferAccess) (cells : Bytes) : Shown := a.shows (cells.load a.offset a.length)

/-- A row of bytes after an access that lies in it. -/
def apply (cells : Bytes) (a : BufferAccess) : Bytes :=
  if a.Admitted cells.length then
    cells.store a.offset (a.leaves (cells.load a.offset a.length))
  else cells

variable {a : BufferAccess} {bytes cells : Bytes}

theorem length_leaves (h : bytes.length = a.length) : (a.leaves bytes).length = a.length := by
  cases a with
  | writeWord => exact Bytes.length_ofWord64 _
  | writeBytes => rfl
  | readWord | readBytes => exact h
  | edit => rw [leaves, List.length_mapIdx, h]

/-- An access that leaves the bytes in its place as they are changes nothing. -/
theorem apply_of_leaves
    (h : a.leaves (cells.load a.offset a.length) = cells.load a.offset a.length) :
    a.apply cells = cells := by
  unfold apply
  split
  next hin => rw [h, Bytes.store_load hin.1]
  next => rfl

end BufferAccess

/-! ## What a buffer does -/

namespace DmaBuffer

open BufferAccess

variable {σ : Type} [DmaSource σ] {b : DmaBuffer} {source : σ} {a : BufferAccess}

def perform (b : DmaBuffer) (source : σ) : BufferAccess → Except Fault Shown × DmaBuffer × σ
  | .readWord offset => ((b.readWord source offset).map .word, b, source)
  | .readBytes offset length => ((b.readBytes source offset length).map .bytes, b, source)
  | .writeWord offset word =>
    let (result, after) := b.writeWord source offset word
    (result.map fun _ => .nothing, after)
  | .writeBytes offset data =>
    let (result, after) := b.writeBytes source offset data
    (result.map fun _ => .nothing, after)
  | .edit offset length change =>
    match b.readBytes source offset length with
    | .error e => (.error e, b, source)
    | .ok bytes =>
      let (result, after) := b.writeBytes source offset (bytes.mapIdx change)
      (result.map fun _ => .bytes bytes, after)

/-- A buffer and what is behind it after accesses, one after the other. -/
def run (b : DmaBuffer) (source : σ) (accesses : List BufferAccess) : DmaBuffer × σ :=
  accesses.foldl (fun now a => (now.1.perform now.2 a).2) (b, source)

/-- The row of bytes that a buffer shows. -/
def contents (b : DmaBuffer) (source : σ) : Bytes := b.getBytes source 0 b.length

/-- The file of a buffer reaches to the end of every access that the buffer takes. -/
def Backs (b : DmaBuffer) (source : σ) (accesses : List BufferAccess) : Prop :=
  ∀ a ∈ accesses, a.Admitted b.length → 0 < a.length → b.Reaches source (a.offset + a.length)

/-! ### One access -/

theorem length_getBytes (b : DmaBuffer) (source : σ) (start count : Nat) :
    (b.getBytes source start count).length = count := by
  rw [getBytes_eq_map, List.length_map, List.length_range]

theorem length_setBytes (b : DmaBuffer) (source : σ) (start : Nat) (data : Bytes) :
    (b.setBytes source start data).1.length = b.length := by
  unfold setBytes
  split
  · rfl
  · split <;> rfl

/-- What a buffer checks before an access. -/
def check (b : DmaBuffer) : BufferAccess → Except Fault Unit
  | .readWord offset | .writeWord offset _ => b.checkWord offset
  | .readBytes offset length | .edit offset length _ => b.checkRange offset length
  | .writeBytes offset data => b.checkRange offset data.length

theorem check_eq_ok_iff : b.check a = .ok () ↔ a.Admitted b.length := by
  cases a <;>
    simp [check, checkRange_eq_ok_iff, checkWord_eq_ok_iff, Admitted, OnWord, BufferAccess.offset,
      BufferAccess.length]

/-- An access that a buffer takes shows the bytes in its place, and leaves what it leaves of them:
one that leaves them as they are writes nothing. -/
theorem perform_of_ok (source : σ) (h : b.check a = .ok ()) :
    ∃ after, b.perform source a = (.ok (a.shows (b.getBytes source a.offset a.length)), after) ∧
      ((∀ bytes, a.leaves bytes = bytes) ∧ after = (b, source) ∨
        after = b.setBytes source a.offset
          (a.leaves (b.getBytes source a.offset a.length))) := by
  cases a with
  | readWord offset =>
    simp only [check] at h
    refine ⟨_, ?_, .inl ⟨fun _ => rfl, rfl⟩⟩
    simp [perform, readWord, h, Except.map, shows, BufferAccess.offset, BufferAccess.length]
  | writeWord offset word =>
    simp only [check] at h
    refine ⟨_, ?_, .inr rfl⟩
    simp [perform, writeWord, h, Except.map, shows, leaves, BufferAccess.offset]
  | readBytes offset length =>
    simp only [check] at h
    refine ⟨_, ?_, .inl ⟨fun _ => rfl, rfl⟩⟩
    simp [perform, readBytes, h, Except.map, shows, BufferAccess.offset, BufferAccess.length]
  | writeBytes offset data =>
    simp only [check] at h
    refine ⟨_, ?_, .inr rfl⟩
    simp [perform, writeBytes, h, Except.map, shows, leaves, BufferAccess.offset]
  | edit offset length change =>
    simp only [check] at h
    refine ⟨_, ?_, .inr rfl⟩
    simp [perform, readBytes, writeBytes, h, length_getBytes, Except.map, shows, leaves,
      BufferAccess.offset, BufferAccess.length]

/-- An access that a buffer refuses leaves everything as it is. -/
theorem perform_of_error {e : Fault} (h : b.check a = .error e) :
    b.perform source a = (.error e, b, source) := by
  cases a with
  | readWord | readBytes | writeWord | writeBytes | edit =>
    simp only [check] at h
    simp [perform, readWord, readBytes, writeWord, writeBytes, h, Except.map]

/-- A buffer takes the accesses that lie in it, and to words at multiples of eight only. -/
theorem perform_eq_ok_iff :
    (∃ shown, (b.perform source a).1 = .ok shown) ↔ a.Admitted b.length := by
  rw [← check_eq_ok_iff]
  cases hc : b.check a with
  | error e => simp [perform_of_error hc]
  | ok u =>
    obtain ⟨after, hperform, -⟩ := perform_of_ok source hc
    simp [hperform]

theorem length_perform (b : DmaBuffer) (source : σ) (a : BufferAccess) :
    (b.perform source a).2.1.length = b.length := by
  cases hc : b.check a with
  | error e => rw [perform_of_error hc]
  | ok u =>
    obtain ⟨after, hperform, ⟨-, rfl⟩ | rfl⟩ := perform_of_ok source hc
    · rw [hperform]
    · rw [hperform, length_setBytes]

theorem run_cons (b : DmaBuffer) (source : σ) (a : BufferAccess) (rest : List BufferAccess) :
    b.run source (a :: rest) = (b.perform source a).2.1.run (b.perform source a).2.2 rest := rfl

theorem length_run (b : DmaBuffer) (source : σ) (accesses : List BufferAccess) :
    (b.run source accesses).1.length = b.length := by
  induction accesses generalizing b source with
  | nil => rfl
  | cons a rest ih => rw [run_cons, ih, length_perform]

/-! ### The row of bytes -/

theorem length_contents (b : DmaBuffer) (source : σ) : (b.contents source).length = b.length :=
  length_getBytes b source 0 b.length

theorem getElem?_contents (b : DmaBuffer) (source : σ) (i : Nat) :
    (b.contents source)[i]? = if i < b.length then some (b.byte source i) else none := by
  simp only [contents, getBytes_eq_map, List.getElem?_map, Nat.zero_add]
  split
  next h => simp [List.getElem?_range h]
  next h => simp [h]

/-- Bytes of a buffer are those of its row. -/
theorem load_contents (source : σ) {start count : Nat} (h : start + count ≤ b.length) :
    (b.contents source).load start count = b.getBytes source start count := by
  ext1 i
  simp only [Bytes.load, List.getElem?_take, List.getElem?_drop, getElem?_contents,
    getBytes_eq_map, List.getElem?_map]
  split
  next hi => simp [List.getElem?_range hi, show start + i < b.length by omega]
  next hi => simp [hi]

/-- A buffer that was kept out of child processes is the one that was mapped. -/
theorem pin_eq_ok {host : MappingHost} {mapped : DmaBuffer} (h : pin host mapped = .ok b) :
    b = mapped := by
  unfold pin at h
  split at h
  · exact (Except.ok.inj h).symm
  · cases h

/-- A buffer shows zeros at first if there is no file, else what the file's pages hold. -/
theorem contents_of_map {length offset : Nat} (h : map source length offset = .ok b) :
    b.contents source = match DmaSource.file source with
      | some f => f.readMapped offset length
      | none => List.replicate length 0 := by
  unfold map at h
  cases hf : DmaSource.file source with
  | none =>
    simp only [hf, anonymous] at h
    cases hc : checkLength (DmaSource.host source) .anonymous length with
    | error e => simp [hc, bind, Except.bind] at h
    | ok u =>
      simp only [hc, bind, Except.bind] at h
      obtain rfl := pin_eq_ok h
      simp [contents, getBytes, Memory.getRange, default, List.map_const']
  | some f =>
    simp only [hf, ofDeviceFile] at h
    cases hc : checkStart (DmaSource.host source) offset length with
    | error e => simp [hc, bind, Except.bind] at h
    | ok u =>
      simp only [hc, bind, Except.bind] at h
      obtain rfl := pin_eq_ok h
      simp [contents, getBytes, hf]

section

variable [LawfulFile σ]

/-- Bytes that are written inside a buffer are written to its row. -/
theorem contents_setBytes {start : Nat} {data : Bytes} (hin : start + data.length ≤ b.length)
    (hr : data ≠ [] → b.Reaches source (start + data.length)) :
    (b.setBytes source start data).1.contents (b.setBytes source start data).2 =
      (b.contents source).store start data := by
  obtain ⟨hlength, -, hbyte⟩ := setBytes_spec hr
  ext1 i
  rw [Bytes.getElem?_store (by rw [length_contents]; exact hin), getElem?_contents,
    getElem?_contents, hlength, hbyte]
  by_cases hi : i < b.length
  · by_cases hs : start ≤ i
    · cases data[i - start]? <;> simp [hi, hs]
    · simp [hi, hs]
  · have hnone : data[i - start]? = none := List.getElem?_eq_none (by omega)
    simp [hi, hnone]

/-- One access to a buffer, as one to its row of bytes. -/
theorem contents_perform
    (hr : a.Admitted b.length → 0 < a.length → b.Reaches source (a.offset + a.length)) :
    (b.perform source a).2.1.contents (b.perform source a).2.2 = a.apply (b.contents source) ∧
      ∀ count, b.Reaches source count →
        (b.perform source a).2.1.Reaches (b.perform source a).2.2 count := by
  have hlength := length_contents b source
  cases hc : b.check a with
  | error e =>
    have hout : ¬ a.Admitted (b.contents source).length := by
      rw [hlength, ← check_eq_ok_iff, hc]
      exact nofun
    rw [perform_of_error hc, BufferAccess.apply, if_neg hout]
    exact ⟨rfl, fun _ h => h⟩
  | ok u =>
    have hin := check_eq_ok_iff.1 hc
    have hload := load_contents source hin.1
    obtain ⟨after, hperform, ⟨hsame, rfl⟩ | rfl⟩ := perform_of_ok source hc
    · rw [hperform, apply_of_leaves (hsame _)]
      exact ⟨rfl, fun _ h => h⟩
    · have hleft := length_leaves (length_getBytes b source a.offset a.length)
      have hreach : a.leaves (b.getBytes source a.offset a.length) ≠ [] → b.Reaches source
          (a.offset + (a.leaves (b.getBytes source a.offset a.length)).length) := by
        intro hne
        rw [hleft]
        exact hr hin (hleft ▸ List.length_pos_iff.2 hne)
      rw [hperform, BufferAccess.apply, if_pos (by rwa [hlength]), hload]
      exact ⟨contents_setBytes (by rw [hleft]; exact hin.1) hreach, (setBytes_spec hreach).2.1⟩

/-- Accesses to a buffer, as accesses to its row of bytes. -/
theorem contents_run {accesses : List BufferAccess} (h : b.Backs source accesses) :
    (b.run source accesses).1.contents (b.run source accesses).2 =
      accesses.foldl BufferAccess.apply (b.contents source) := by
  induction accesses generalizing b source with
  | nil => rfl
  | cons a rest ih =>
    obtain ⟨hcontents, hkept⟩ := contents_perform (h a List.mem_cons_self)
    have hrest : (b.perform source a).2.1.Backs (b.perform source a).2.2 rest := by
      intro e he hin hpos
      rw [length_perform] at hin
      exact hkept _ (h e (List.mem_cons_of_mem a he) hin hpos)
    rw [run_cons, ih hrest, hcontents, List.foldl_cons]

end

end DmaBuffer

/-- A buffer after accesses of all kinds, wherever they lie: it takes the next one if the access
lies in the buffer and, to a word, at a multiple of eight; one that it refuses changes nothing; and
what one shows that it takes is what a row of bytes shows that began as the buffer was mapped and
that the accesses were made to instead. For the last, the file behind the buffer, if there is one,
has to reach to the end of what was taken: no access past its last page comes back. -/
theorem accesses_as_on_plain_bytes {σ : Type} [DmaSource σ] [LawfulFile σ] (b : DmaBuffer)
    (source : σ) (accesses : List BufferAccess) (a : BufferAccess) :
    let now := b.run source accesses
    ((∃ shown, (now.1.perform now.2 a).1 = .ok shown) ↔
        a.offset + a.length ≤ b.length ∧ (a.OnWord → a.offset % 8 = 0)) ∧
      ((∃ e, (now.1.perform now.2 a).1 = .error e) → (now.1.perform now.2 a).2 = now) ∧
      (b.Backs source accesses → ∀ shown, (now.1.perform now.2 a).1 = .ok shown →
        shown = a.answer (accesses.foldl BufferAccess.apply (b.contents source))) ∧
      ∀ length offset, DmaBuffer.map source length offset = .ok b →
        b.contents source = match DmaSource.file source with
          | some f => f.readMapped offset length
          | none => List.replicate length 0 := by
  intro now
  have hlength : now.1.length = b.length := DmaBuffer.length_run b source accesses
  have htaken : (∃ shown, (now.1.perform now.2 a).1 = .ok shown) ↔ a.Admitted b.length := by
    rw [← hlength]
    exact DmaBuffer.perform_eq_ok_iff
  refine ⟨htaken, ?_, ?_, fun _ _ => DmaBuffer.contents_of_map⟩
  · rintro ⟨e, he⟩
    cases hc : now.1.check a with
    | error e => rw [DmaBuffer.perform_of_error hc]
    | ok u =>
      obtain ⟨after, hperform, -⟩ := DmaBuffer.perform_of_ok now.2 hc
      simp [hperform] at he
  · intro hbacks shown hshown
    have hin : a.Admitted now.1.length := by
      rw [hlength]
      exact htaken.1 ⟨shown, hshown⟩
    obtain ⟨after, hperform, -⟩ :=
      DmaBuffer.perform_of_ok now.2 (DmaBuffer.check_eq_ok_iff.2 hin)
    rw [hperform, Except.ok.injEq] at hshown
    rw [← hshown, ← DmaBuffer.load_contents now.2 hin.1, DmaBuffer.contents_run hbacks,
      BufferAccess.answer]

/-- Words, bytes and a lent piece that overlap, with two accesses that are refused. -/
def overlapping : List BufferAccess :=
  [.writeWord 8 0x1122334455667788, .writeBytes 6 [1, 2, 3, 4], .writeWord 4 0,
    .edit 9 2 fun i byte => byte + UInt8.ofNat i + 1, .writeBytes 15 [9, 9]]

theorem accesses_as_on_plain_bytes_overlapping :
    let b : DmaBuffer := ⟨16, .own .empty⟩
    let now := b.run () overlapping
    b.Backs () overlapping ∧ DmaBuffer.map () 16 0 = .ok b ∧
      (now.1.perform now.2 (.readWord 8)).1 = .ok (.word 0x1122334455680503) ∧
      (now.1.perform now.2 (.readWord 12)).2 = now := by
  intro b now
  have hmap : DmaBuffer.map () 16 0 = .ok b := rfl
  have hbacks : b.Backs () overlapping := fun _ _ _ _ => trivial
  obtain ⟨htaken, -, hshown, hfresh⟩ :=
    accesses_as_on_plain_bytes b () overlapping (.readWord 8)
  obtain ⟨hrefused, hsame, -, -⟩ := accesses_as_on_plain_bytes b () overlapping (.readWord 12)
  obtain ⟨shown, hok⟩ := htaken.2 (by decide)
  refine ⟨hbacks, hmap, ?_, hsame ?_⟩
  · have hrow : b.contents () = List.replicate 16 0 := hfresh 16 0 hmap
    rw [hok, hshown hbacks shown hok, hrow]
    exact congrArg Except.ok (by decide)
  · cases hr : (now.1.perform now.2 (.readWord 12)).1 with
    | error e => exact ⟨e, rfl⟩
    | ok word => exact absurd (hrefused.1 ⟨word, hr⟩) (by decide)

end PacketOffload
