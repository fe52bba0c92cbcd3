import Mathlib.Algebra.Order.Floor.Div
import PacketOffload.Hexdump
import PacketOffload.Text.Numeral

/-!
# Hex dumps read back

A line of a dump has a place for each byte, in the hex columns and in the ASCII column, and the
places are the same in all lines: a line that is cut short has blanks where a full one has digits,
the gap in the middle included. So a reader who knows the places finds the bytes again, and needs
no more for it than what stands before the bar.

Main statements: the column of a byte starts at its place (`column_hexColumns`), behind the last
byte there are blanks up to the bar (`hexColumns_of_length_le`), and a dump of any length has its
lines aligned and is read back from their hex columns (`dump_read_from_columns`).
-/

namespace PacketOffload.Hexdump

variable {bytes : Bytes} {i count : Nat} {c : Char}

/-! ## The places in a line -/

/-- Where the column of a byte starts: three characters for each byte before it, and one more past
the gap. -/
def hexStart (i : Nat) : Nat := 3 * i + if 8 ≤ i then 1 else 0

/-- The columns of a line up to one of them. -/
def hexColumns (bytes : Bytes) (count : Nat) : List Char :=
  (List.range count).flatMap fun i => hexColumn bytes[i]? ++ gap i

theorem line_eq (bytes : Bytes) :
    line bytes = hexColumns bytes lineWidth ++ ([' ', '|', ' ', ' '] ++ bytes.map glyph) :=
  List.append_assoc ..

theorem hexColumns_succ (bytes : Bytes) (count : Nat) :
    hexColumns bytes (count + 1) =
      hexColumns bytes count ++ (hexColumn bytes[count]? ++ gap count) := by
  simp [hexColumns, List.range_succ]

theorem hexStart_succ (count : Nat) :
    hexStart (count + 1) = hexStart count + 3 + (gap count).length := by
  simp only [hexStart, gap]
  by_cases hgap : count = 7
  · simp [hgap]
  · have hside : 8 ≤ count + 1 ↔ 8 ≤ count := by omega
    simp only [hgap, hside, if_false, List.length_nil]
    omega

theorem hexStart_add_le (h : i < count) : hexStart i + 3 ≤ hexStart count := by
  unfold hexStart
  split <;> split <;> omega

theorem length_hexColumns (bytes : Bytes) (count : Nat) :
    (hexColumns bytes count).length = hexStart count := by
  induction count with
  | zero => rfl
  | succ count ih =>
    rw [hexColumns_succ, List.length_append, List.length_append, ih, length_hexColumn,
      hexStart_succ, Nat.add_assoc]

/-- The column of a byte starts at its place. -/
theorem column_hexColumns (bytes : Bytes) (h : i < count) :
    ((hexColumns bytes count).drop (hexStart i)).take 3 = hexColumn bytes[i]? := by
  induction count with
  | zero => omega
  | succ count ih =>
    rw [hexColumns_succ]
    by_cases hlast : i = count
    · subst hlast
      rw [List.drop_left' (length_hexColumns bytes i)]
      exact List.take_left' (length_hexColumn _)
    · have hi : i < count := by omega
      have hlength := length_hexColumns bytes count
      have hroom := hexStart_add_le hi
      rw [List.drop_append_of_le_length (by omega),
        List.take_append_of_le_length (by rw [List.length_drop]; omega), ih hi]

/-- Behind the columns of the bytes there are blanks, as many as there is room for. -/
theorem hexColumns_of_length_le (h : bytes.length ≤ count) :
    hexColumns bytes count = hexColumns bytes bytes.length ++
      List.replicate (hexStart count - hexStart bytes.length) ' ' := by
  induction count, h using Nat.le_induction with
  | base => simp
  | succ count hle ih =>
    -- Behind a byte past the middle the gap is written already; otherwise it is one of the blanks.
    have hblank : hexColumn bytes[count]? ++ gap count =
        List.replicate (3 + (gap count).length) ' ' := by
      rw [List.getElem?_eq_none hle, gap]
      split <;> rfl
    have hstart : hexStart bytes.length ≤ hexStart count := by
      rcases Nat.eq_or_lt_of_le hle with heq | hlt
      · rw [heq]
      · have := hexStart_add_le hlt
        omega
    have hroom : hexStart (count + 1) - hexStart bytes.length =
        (hexStart count - hexStart bytes.length) + (3 + (gap count).length) := by
      rw [hexStart_succ]
      omega
    rw [hexColumns_succ, ih, hblank, List.append_assoc, List.replicate_append_replicate, hroom]

/-! ## The characters of a line -/

/-- An ASCII character that leaves a mark or is a blank. -/
def Printable (c : Char) : Prop := 0x20 ≤ c.toNat ∧ c.toNat ≤ 0x7E

instance (c : Char) : Decidable (Printable c) := inferInstanceAs (Decidable (_ ∧ _))

theorem printable_upperDigit : ∀ d < 16, Printable (upperDigit d) ∧ upperDigit d ≠ '|' := by
  decide

theorem printable_ofNat : ∀ n < 0x7F, 0x20 ≤ n → Printable (Char.ofNat n) := by
  decide

theorem printable_glyph (b : UInt8) : Printable (glyph b) := by
  unfold glyph
  split
  case isTrue h =>
    have hlow : 0x20 ≤ b.toNat := UInt8.le_iff_toNat_le.1 h.1
    have hhigh : b.toNat ≤ 0x7E := UInt8.le_iff_toNat_le.1 h.2
    exact printable_ofNat b.toNat (by omega) hlow
  case isFalse => decide

theorem printable_hexColumn {b : Option UInt8} (h : c ∈ hexColumn b) : Printable c ∧ c ≠ '|' := by
  cases b with
  | none =>
    obtain rfl : c = ' ' := by simpa [hexColumn] using h
    decide
  | some b =>
    have hb := b.toNat_lt
    simp only [hexColumn, List.mem_cons, List.not_mem_nil, or_false] at h
    rcases h with rfl | rfl | rfl
    · exact printable_upperDigit _ (by omega)
    · exact printable_upperDigit _ (by omega)
    · decide

/-- The bar behind the hex columns is the first one. -/
theorem printable_hexColumns (h : c ∈ hexColumns bytes count) : Printable c ∧ c ≠ '|' := by
  obtain ⟨i, -, hc⟩ := List.mem_flatMap.1 h
  rcases List.mem_append.1 hc with hc | hc
  · exact printable_hexColumn hc
  · obtain ⟨-, rfl⟩ : i = 7 ∧ c = ' ' := by simpa [gap] using hc
    decide

theorem printable_line (h : c ∈ line bytes) : Printable c := by
  rw [line_eq, List.mem_append, List.mem_append] at h
  rcases h with h | h | h
  · exact (printable_hexColumns h).1
  · simp only [List.mem_cons, List.not_mem_nil, or_false] at h
    rcases h with rfl | rfl | rfl | rfl <;> decide
  · obtain ⟨b, -, rfl⟩ := List.mem_map.1 h
    exact printable_glyph b

/-! ## Reading a line -/

/-- The byte that a column shows: two digits and a blank; three blanks show none. -/
def columnByte : List Char → Option UInt8
  | [high, low, ' '] => (Text.digitsValue? 16 0 [high, low]).map UInt8.ofNat
  | _ => none

/-- The byte at a place of a line. -/
def byteAt (line : List Char) (i : Nat) : Option UInt8 :=
  columnByte ((line.drop (hexStart i)).take 3)

/-- The bytes that the hex columns of a line show. -/
def lineBytes (line : List Char) : Bytes := (List.range lineWidth).filterMap (byteAt line)

/-- A line of text shows these bytes, each at its place. -/
structure Aligned (line : List Char) (bytes : Bytes) : Prop where
  hex : ∀ i < lineWidth, byteAt line i = bytes[i]?
  /-- From the place of the first byte that is not there up to the bar. -/
  padding : (line.drop (hexStart bytes.length)).take (49 - hexStart bytes.length) =
    List.replicate (49 - hexStart bytes.length) ' '
  /-- Behind these four characters the ASCII column starts. -/
  bar : (line.drop 49).take 4 = [' ', '|', ' ', ' ']
  /-- No bar stands before it. -/
  firstBar : line.idxOf '|' = 50
  ascii : line.drop 53 = bytes.map glyph
  printable : ∀ c ∈ line, Printable c

theorem digitValue?_upperDigit : ∀ d < 16, Text.digitValue? (upperDigit d) = some d := by
  decide

theorem columnByte_hexColumn (b : Option UInt8) : columnByte (hexColumn b) = b := by
  cases b with
  | none => rfl
  | some b =>
    have hb := b.toNat_lt
    have hhigh : b.toNat / 16 < 16 := by omega
    have hlow : b.toNat % 16 < 16 := by omega
    have hvalue : (0 * 16 + b.toNat / 16) * 16 + b.toNat % 16 = b.toNat := by omega
    simp only [hexColumn, columnByte, Text.digitsValue?, digitValue?_upperDigit _ hhigh,
      digitValue?_upperDigit _ hlow, hhigh, hlow, if_true, hvalue, Option.map_some,
      UInt8.ofNat_toNat]

theorem byteAt_line (bytes : Bytes) (hi : i < lineWidth) : byteAt (line bytes) i = bytes[i]? := by
  have hlength := length_hexColumns bytes lineWidth
  have hroom := hexStart_add_le hi
  rw [byteAt, line_eq, List.drop_append_of_le_length (by omega),
    List.take_append_of_le_length (by rw [List.length_drop]; omega), column_hexColumns bytes hi,
    columnByte_hexColumn]

/-- What stands behind the hex columns is not read. -/
theorem byteAt_take (line : List Char) (hi : i < lineWidth) :
    byteAt (line.take 49) i = byteAt line i := by
  have hroom : hexStart i + 3 ≤ 49 := hexStart_add_le hi
  rw [byteAt, byteAt, List.drop_take, List.take_take, Nat.min_eq_left (by omega)]

theorem lineBytes_take (line : List Char) : lineBytes (line.take 49) = lineBytes line :=
  List.filterMap_congr fun _ hi => byteAt_take line (List.mem_range.1 hi)

theorem filterMap_range_getElem? (bytes : Bytes) (count : Nat) :
    (List.range count).filterMap (bytes[·]?) = bytes.take count := by
  induction count with
  | zero => rfl
  | succ count ih =>
    rw [List.range_succ, List.filterMap_append, ih, List.take_add_one]
    cases hbyte : bytes[count]? <;> simp [hbyte]

/-- The columns of an aligned line tell its bytes. -/
theorem Aligned.lineBytes_eq {shown : List Char} (h : Aligned shown bytes)
    (hlength : bytes.length ≤ lineWidth) : lineBytes shown = bytes := by
  calc lineBytes shown
      = (List.range lineWidth).filterMap (bytes[·]?) :=
        List.filterMap_congr fun i hi => h.hex i (List.mem_range.1 hi)
    _ = bytes.take lineWidth := filterMap_range_getElem? bytes lineWidth
    _ = bytes := List.take_of_length_le hlength

theorem aligned_line (h : bytes.length ≤ lineWidth) : Aligned (line bytes) bytes := by
  have hwidth : (hexColumns bytes lineWidth).length = 49 := length_hexColumns bytes lineWidth
  refine ⟨fun i hi => byteAt_line bytes hi, ?padding, ?bar, ?firstBar, ?ascii,
    fun c => printable_line⟩
  case padding =>
    have hstart : hexStart lineWidth = 49 := rfl
    rw [line_eq, hexColumns_of_length_le h, hstart, List.append_assoc,
      List.drop_left' (length_hexColumns bytes _)]
    exact List.take_left' List.length_replicate
  case bar =>
    rw [line_eq, List.drop_left' hwidth]
    rfl
  case firstBar =>
    have hfirst : '|' ∉ hexColumns bytes lineWidth := fun hmem => (printable_hexColumns hmem).2 rfl
    rw [line_eq, List.idxOf_append, if_neg hfirst, hwidth]
    rfl
  case ascii =>
    have hstart : (hexColumns bytes lineWidth ++ [' ', '|', ' ', ' ']).length = 53 := by
      rw [List.length_append, hwidth]
      rfl
    exact List.drop_left' hstart

/-! ## Reading a dump -/

/-- The bytes that a text shows, read from the hex columns of its lines; what stands behind the
columns is cut off first. -/
def readBack (text : String) : Bytes :=
  (text.toList.splitOn '\n').flatMap fun shown => lineBytes (shown.take 49)

/-- Lines that a line feed ends each are cut there, and nothing is left behind the last one. -/
theorem splitOn_flatMap_lineFeed {lines : List (List Char)} (h : ∀ shown ∈ lines, '\n' ∉ shown) :
    (lines.flatMap (· ++ ['\n'])).splitOn '\n' = lines ++ [[]] := by
  induction lines with
  | nil => rfl
  | cons shown rest ih =>
    rw [List.flatMap_cons, List.append_assoc, List.singleton_append, List.splitOn_append_cons_self,
      List.splitOn_eq_singleton (h shown List.mem_cons_self),
      ih fun other hmem => h other (List.mem_cons_of_mem shown hmem)]
    rfl

theorem getElem?_dumpLines (data : Bytes) (k : Nat) :
    (dumpLines data)[k]? = if lineWidth * k < data.length
      then some (line ((data.drop (lineWidth * k)).take lineWidth)) else none := by
  rw [dumpLines, List.getElem?_map, Bytes.getElem?_lines (by decide)]
  split <;> rfl

theorem length_dumpLines (data : Bytes) :
    (dumpLines data).length = data.length ⌈/⌉ lineWidth := by
  refine eq_of_forall_ge_iff fun k => ?_
  rw [ceilDiv_le_iff_le_mul (by decide), ← List.getElem?_eq_none_iff, getElem?_dumpLines]
  simp

theorem splitOn_dump (data : Bytes) :
    (dump data).toList.splitOn '\n' = dumpLines data ++ [[]] := by
  have hfeed : ∀ shown ∈ dumpLines data, '\n' ∉ shown := by
    intro shown hmem hfeed
    obtain ⟨bytes, -, rfl⟩ := List.mem_map.1 hmem
    exact absurd (printable_line hfeed) (by decide)
  rw [dump, String.toList_ofList]
  exact splitOn_flatMap_lineFeed hfeed

theorem aligned_of_getElem?_dumpLines {data : Bytes} {k : Nat} {shown : List Char}
    (h : (dumpLines data)[k]? = some shown) :
    Aligned shown ((data.drop (lineWidth * k)).take lineWidth) := by
  rw [getElem?_dumpLines] at h
  split at h
  · obtain rfl := Option.some.inj h
    exact aligned_line (List.length_take_le _ _)
  · cases h

theorem readBack_dump (data : Bytes) : readBack (dump data) = data := by
  have hline : ∀ bytes ∈ data.lines lineWidth, lineBytes ((line bytes).take 49) = bytes := by
    intro bytes hmem
    have hlength : bytes.length ≤ lineWidth := Bytes.length_le_of_mem_lines (by decide) hmem
    rw [lineBytes_take, (aligned_line hlength).lineBytes_eq hlength]
  have hrest : lineBytes [] = [] := rfl
  calc readBack (dump data)
      = (dumpLines data).flatMap fun shown => lineBytes (shown.take 49) := by
        rw [readBack, splitOn_dump, List.flatMap_append]
        simp [hrest]
    _ = ((data.lines lineWidth).map fun bytes => lineBytes ((line bytes).take 49)).flatten := by
        rw [dumpLines, List.flatMap_map, List.flatMap_def]
    _ = data := by
        rw [List.map_congr_left hline, List.map_id', Bytes.flatten_lines (by decide)]

/-- **What a dump shows, and where.** A dump has one line for every sixteen bytes and one for what
is left of them, each ended by a line feed. In all lines, full or cut short, the bytes have the same
hex columns, the bar and the ASCII column start at the same place, and each byte has one printable
character there. The hex columns alone tell the bytes, so that different bytes never have the same
dump. -/
theorem dump_read_from_columns (data : Bytes) :
    (dump data).toList.splitOn '\n' = dumpLines data ++ [[]] ∧
      (dumpLines data).length = data.length ⌈/⌉ 16 ∧
      (∀ (k : Nat) (shown : List Char), (dumpLines data)[k]? = some shown →
        Aligned shown ((data.drop (16 * k)).take 16)) ∧
      readBack (dump data) = data ∧ Function.Injective dump := by
  have hinjective : Function.Injective dump := Function.LeftInverse.injective readBack_dump
  exact ⟨splitOn_dump data, length_dumpLines data,
    fun _ _ h => aligned_of_getElem?_dumpLines h, readBack_dump data, hinjective⟩

/-- A second line of three bytes: the gap in the middle is among its blanks, and two of its bytes
are no characters. -/
theorem dump_read_from_columns_cut_short :
    let data : Bytes := List.replicate 16 0x20 ++ [0x00, 0x7F, 0x61]
    let shown := "00 7F 61                                          |  ..a".toList
    (dumpLines data)[1]? = some shown ∧ Aligned shown [0x00, 0x7F, 0x61] ∧
      readBack (dump data) = data := by
  intro data shown
  have hline : (dumpLines data)[1]? = some shown := by decide
  obtain ⟨-, -, haligned, hread, -⟩ := dump_read_from_columns data
  exact ⟨hline, haligned 1 shown hline, hread⟩

end PacketOffload.Hexdump
