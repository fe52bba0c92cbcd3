/-!
# Words as bytes

A word of a fixed number of bytes is written in one of two orders: little-endian in the memory of
the accelerator, in its firmware files and in host DMA memory, big-endian in packets. Both orders
are defined over natural numbers, for every width at once, and the widths in use are read off.

Main statements: writing and reading back is reduction modulo `span width`, the number of
numbers that fit (`leNat_leBytes`), every byte string is the writing of its own value
(`leBytes_leNat`), swapping the bytes of a word twice gives the word (`swap32_swap32`), the words
of a byte string are those of its bytes, four by four (`getElem?_words`), and its lines, one after
the other, are the byte string again (`flatten_lines`).
-/

namespace PacketOffload

abbrev Bytes := List UInt8

namespace Bytes

/-- How many numbers can be written in `width` bytes. -/
def span : (width : Nat) → Nat
  | 0 => 1
  | width + 1 => 256 * span width

/-- The value of a byte string whose first byte is the least significant. -/
def leNat : Bytes → Nat
  | [] => 0
  | b :: rest => b.toNat + 256 * leNat rest

/-- The lowest `width` bytes of a number, least significant first. -/
def leBytes : (width : Nat) → Nat → Bytes
  | 0, _ => []
  | width + 1, n => UInt8.ofNat n :: leBytes width (n / 256)

/-- The value of a byte string whose first byte is the most significant. -/
def beNat (bytes : Bytes) : Nat := leNat bytes.reverse

/-- The lowest `width` bytes of a number, most significant first. -/
def beBytes (width n : Nat) : Bytes := (leBytes width n).reverse

@[simp] theorem span_two : span 2 = 65536 := rfl

@[simp] theorem span_four : span 4 = 4294967296 := rfl

@[simp] theorem span_eight : span 8 = 18446744073709551616 := rfl

@[simp] theorem length_leBytes (width n : Nat) : (leBytes width n).length = width := by
  induction width generalizing n with
  | zero => rfl
  | succ width ih => simp [leBytes, ih]

@[simp] theorem length_beBytes (width n : Nat) : (beBytes width n).length = width := by
  simp [beBytes]

theorem span_le_span {m n : Nat} (h : m ≤ n) : span m ≤ span n := by
  induction h with
  | refl => exact Nat.le_refl _
  | step _ ih =>
    rw [span]
    omega

theorem leNat_lt (bytes : Bytes) : leNat bytes < span bytes.length := by
  induction bytes with
  | nil => simp [leNat, span]
  | cons b rest ih =>
    have := b.toNat_lt
    simp only [leNat, List.length_cons, span]
    omega

theorem leNat_leBytes (width n : Nat) : leNat (leBytes width n) = n % span width := by
  induction width generalizing n with
  | zero => simp [leBytes, leNat, span, Nat.mod_one]
  | succ width ih =>
    have hb : (UInt8.ofNat n).toNat = n % 256 := UInt8.toNat_ofNat'
    rw [leBytes, leNat, ih, hb, span, Nat.mod_mul]

/-- Written in more bytes than it takes, a number is followed by zeros. -/
theorem leBytes_add (bytes : Bytes) (n : Nat) :
    leBytes (bytes.length + n) (leNat bytes) = bytes ++ List.replicate n 0 := by
  induction bytes with
  | nil =>
    rw [List.length_nil, Nat.zero_add, List.nil_append]
    induction n with
    | zero => rfl
    | succ n ih => exact congrArg (0 :: ·) ih
  | cons b rest ih =>
    have hb := b.toNat_lt
    have hdiv : (b.toNat + 256 * leNat rest) / 256 = leNat rest := by omega
    have hmod : UInt8.ofNat (b.toNat + 256 * leNat rest) = b := by
      apply UInt8.toNat_inj.1
      rw [UInt8.toNat_ofNat']
      omega
    rw [List.length_cons, Nat.succ_add, leNat, leBytes, hmod, hdiv, ih, List.cons_append]

theorem leBytes_leNat (bytes : Bytes) : leBytes bytes.length (leNat bytes) = bytes := by
  simpa using leBytes_add bytes 0

theorem beNat_beBytes (width n : Nat) : beNat (beBytes width n) = n % span width := by
  simp [beNat, beBytes, leNat_leBytes]

theorem beBytes_beNat (bytes : Bytes) : beBytes bytes.length (beNat bytes) = bytes := by
  have := leBytes_leNat bytes.reverse
  simp only [List.length_reverse] at this
  simp [beNat, beBytes, this]

/-! ## The widths in use -/

/-- The little-endian bytes of a 32-bit word. -/
def ofWord32 (word : UInt32) : Bytes := leBytes 4 word.toNat

/-- The 32-bit word that little-endian bytes stand for. -/
def toWord32 (bytes : Bytes) : UInt32 := UInt32.ofNat (leNat bytes)

/-- The little-endian bytes of a 64-bit word. -/
def ofWord64 (word : UInt64) : Bytes := leBytes 8 word.toNat

/-- The 64-bit word that little-endian bytes stand for. -/
def toWord64 (bytes : Bytes) : UInt64 := UInt64.ofNat (leNat bytes)

@[simp] theorem length_ofWord32 (word : UInt32) : (ofWord32 word).length = 4 := by
  simp [ofWord32]

@[simp] theorem length_ofWord64 (word : UInt64) : (ofWord64 word).length = 8 := by
  simp [ofWord64]

@[simp] theorem toWord32_ofWord32 (word : UInt32) : toWord32 (ofWord32 word) = word := by
  apply UInt32.toNat_inj.1
  have := word.toNat_lt
  simp only [toWord32, ofWord32, leNat_leBytes, span_four, UInt32.toNat_ofNat']
  omega

@[simp] theorem toWord64_ofWord64 (word : UInt64) : toWord64 (ofWord64 word) = word := by
  apply UInt64.toNat_inj.1
  have := word.toNat_lt
  simp only [toWord64, ofWord64, leNat_leBytes, span_eight, UInt64.toNat_ofNat']
  omega

/-- A field that is too short for a word is filled up with zeros. -/
theorem ofWord32_toWord32 {field : Bytes} (h : field.length ≤ 4) :
    ofWord32 (toWord32 field) = field ++ List.replicate (4 - field.length) 0 := by
  have hlt : leNat field < 4294967296 := Nat.lt_of_lt_of_le (leNat_lt field) (span_le_span h)
  have hfour : 4 = field.length + (4 - field.length) := by omega
  rw [ofWord32, toWord32, UInt32.toNat_ofNat', Nat.mod_eq_of_lt hlt]
  exact (congrArg (leBytes · (leNat field)) hfour).trans (leBytes_add field _)

/-- The word with its four bytes in the opposite order. -/
def swap32 (word : UInt32) : UInt32 := UInt32.ofNat (beNat (ofWord32 word))

theorem ofWord32_swap32 (word : UInt32) : ofWord32 (swap32 word) = (ofWord32 word).reverse := by
  have hlength : (ofWord32 word).reverse.length = 4 := by simp
  have hlt := leNat_lt (ofWord32 word).reverse
  rw [hlength, span_four] at hlt
  have hvalue : (swap32 word).toNat = leNat (ofWord32 word).reverse := by
    rw [swap32, UInt32.toNat_ofNat', beNat]
    omega
  rw [ofWord32, hvalue, ← hlength]
  exact leBytes_leNat _

@[simp] theorem swap32_swap32 (word : UInt32) : swap32 (swap32 word) = word := by
  rw [swap32, beNat, ofWord32_swap32, List.reverse_reverse]
  exact toWord32_ofWord32 word

/-! ## Cutting -/

/-- The `length` bytes at `start`, if the string reaches that far. -/
def slice? (bytes : Bytes) (start length : Nat) : Option Bytes :=
  if start + length ≤ bytes.length then some ((bytes.drop start).take length) else none

/-- The 32-bit words of a byte string; a last word that is cut short is filled up with zero bytes.
-/
def words : Bytes → List UInt32
  | [] => []
  | a :: b :: c :: d :: rest => toWord32 [a, b, c, d] :: words rest
  | tail => [toWord32 tail]

/-- The 32-bit word of the four bytes at an offset, of which those past the end count as zero. -/
def wordFrom (bytes : Bytes) (offset : Nat) : UInt32 := toWord32 ((bytes.drop offset).take 4)

/-- Consecutive lines of `width` bytes, of at most `count` lines. -/
def linesUpTo (width : Nat) : (count : Nat) → Bytes → List Bytes
  | 0, _ => []
  | _, [] => []
  | count + 1, bytes => bytes.take width :: linesUpTo width count (bytes.drop width)

/-- Consecutive lines of `width` bytes; the last one holds what is left. -/
def lines (width : Nat) (bytes : Bytes) : List Bytes := linesUpTo width bytes.length bytes

theorem getElem?_linesUpTo {width count : Nat} {bytes : Bytes} (hwidth : 0 < width)
    (hcount : bytes.length ≤ count) (k : Nat) :
    (linesUpTo width count bytes)[k]? =
      if width * k < bytes.length then some ((bytes.drop (width * k)).take width) else none := by
  fun_induction linesUpTo width count bytes generalizing k with
  | case1 bytes => simp [List.length_eq_zero_iff.1 (Nat.le_zero.1 hcount)]
  | case2 => simp
  | case3 count bytes hne ih =>
    have hpos : 0 < bytes.length := List.length_pos_iff.2 hne
    cases k with
    | zero => simp [hpos]
    | succ k =>
      have hmul : width * (k + 1) = width + width * k := by rw [Nat.mul_succ, Nat.add_comm]
      have hinside : width * k < bytes.length - width ↔ width + width * k < bytes.length := by
        omega
      rw [List.getElem?_cons_succ, ih (by rw [List.length_drop]; omega), List.drop_drop,
        List.length_drop, hmul]
      simp only [hinside]

/-- The line at an index, if the byte string reaches that far. -/
theorem getElem?_lines {width : Nat} (hwidth : 0 < width) (bytes : Bytes) (k : Nat) :
    (bytes.lines width)[k]? =
      if width * k < bytes.length then some ((bytes.drop (width * k)).take width) else none :=
  getElem?_linesUpTo hwidth (Nat.le_refl _) k

theorem length_le_of_mem_lines {width : Nat} (hwidth : 0 < width) {bytes part : Bytes}
    (h : part ∈ bytes.lines width) : part.length ≤ width := by
  obtain ⟨k, hk⟩ := List.mem_iff_getElem?.1 h
  rw [getElem?_lines hwidth] at hk
  split at hk
  · obtain rfl := Option.some.inj hk
    exact List.length_take_le _ _
  · cases hk

theorem flatten_linesUpTo {width count : Nat} {bytes : Bytes} (hwidth : 0 < width)
    (hcount : bytes.length ≤ count) : (linesUpTo width count bytes).flatten = bytes := by
  fun_induction linesUpTo width count bytes with
  | case1 bytes => exact (List.length_eq_zero_iff.1 (Nat.le_zero.1 hcount)).symm
  | case2 => rfl
  | case3 count bytes hne ih =>
    have hpos : 0 < bytes.length := List.length_pos_iff.2 hne
    rw [List.flatten_cons, ih (by rw [List.length_drop]; omega), List.take_append_drop]

theorem flatten_lines {width : Nat} (hwidth : 0 < width) (bytes : Bytes) :
    (bytes.lines width).flatten = bytes :=
  flatten_linesUpTo hwidth (Nat.le_refl _)

/-- What is left of a byte string that no four bytes begin. -/
theorem length_of_cut_short {tail : Bytes} (hnil : tail ≠ [])
    (hshort : ∀ a b c d rest, tail ≠ a :: b :: c :: d :: rest) :
    0 < tail.length ∧ tail.length < 4 := by
  match tail with
  | [] => exact absurd rfl hnil
  | [_] => simp
  | [_, _] => simp
  | [_, _, _] => simp
  | a :: b :: c :: d :: rest => exact absurd rfl (hshort a b c d rest)

theorem length_words (bytes : Bytes) : (words bytes).length = (bytes.length + 3) / 4 := by
  fun_induction words bytes with
  | case1 => rfl
  | case2 a b c d rest ih =>
    simp only [List.length_cons, ih]
    omega
  | case3 tail hnil hlong =>
    have hlen := length_of_cut_short hnil hlong
    simp only [List.length_singleton]
    omega

theorem getElem?_words (bytes : Bytes) (i : Nat) :
    (words bytes)[i]? = if 4 * i < bytes.length then some (bytes.wordFrom (4 * i)) else none := by
  fun_induction words bytes generalizing i with
  | case1 => simp
  | case2 a b c d rest ih =>
    cases i with
    | zero => simp [wordFrom]
    | succ i =>
      rw [List.getElem?_cons_succ, ih]
      have hdrop : (a :: b :: c :: d :: rest).drop (4 * (i + 1)) = rest.drop (4 * i) := by
        rw [Nat.mul_succ]
        rfl
      simp only [wordFrom, hdrop, List.length_cons]
      split <;> split <;> first | rfl | omega
  | case3 tail hnil hlong =>
    have hlen := length_of_cut_short hnil hlong
    cases i with
    | zero => simp [wordFrom, hlen.1, List.take_of_length_le (Nat.le_of_lt hlen.2)]
    | succ i => simp [show ¬ 4 * (i + 1) < tail.length by omega]

/-- The bytes of the word at an offset are those of the byte string. -/
theorem getD_ofWord32_wordFrom (bytes : Bytes) (offset : Nat) {k : Nat} (hk : k < 4) :
    (ofWord32 (bytes.wordFrom offset)).getD k 0 = bytes.getD (offset + k) 0 := by
  rw [wordFrom, ofWord32_toWord32 (List.length_take_le 4 _)]
  simp only [List.getD_eq_getElem?_getD, List.getElem?_append, List.getElem?_take,
    List.getElem?_drop, List.getElem?_replicate, List.length_take, List.length_drop]
  by_cases hin : offset + k < bytes.length
  · rw [if_pos (by omega), if_pos hk]
  · rw [List.getElem?_eq_none (Nat.le_of_not_lt hin), if_neg (by omega)]
    split <;> rfl

end Bytes

end PacketOffload
