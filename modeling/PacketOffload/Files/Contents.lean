import PacketOffload.Bytes
import PacketOffload.Memory

/-!
# File contents

The contents of a file, by position. A positioned write past the end extends the file, and the gap
reads as zero; a read stops at the end. Writes are stored at once.

Files are mapped by whole pages, so that a mapping reaches the rest of the last page, too. What it
leaves there is no part of the file; it stays until the last page is stored with zeros in its place.

Main statements: what a write leaves at each position (`get_write`), and what a mapping shows after
a write through it (`mappedCell_writeMapped`).
-/

namespace PacketOffload

/-- Positions in files lie below it. -/
def positionLimit : Nat := 0x8000000000000000

/-- The length of the longest file that can be stored. -/
def fileLimit : Nat := 0xffffffff000

def pageSize : Nat := 4096

/-- A length rounded up to whole pages. -/
def wholePages (length : Nat) : Nat := (length + (pageSize - 1)) / pageSize * pageSize

/-- Where the last page of a file of `size` bytes begins. -/
def lastPage (size : Nat) : Nat := wholePages size - pageSize

/-- The bytes of a file. -/
structure FileContents where
  size : Nat
  cells : Memory UInt8
  /-- What mappings left on the last page past the end. -/
  tail : Memory UInt8
  /-- A file that grows shows zeros in its new cells. -/
  blank : ∀ position, size ≤ position → cells.get position = 0

namespace FileContents

def ofBytes (bytes : Bytes) : FileContents where
  size := bytes.length
  cells := Memory.empty.setRange 0 bytes
  tail := .empty
  blank position h := by simp [Memory.get_setRange, List.getElem?_eq_none h, default]

instance : Inhabited FileContents := ⟨ofBytes []⟩

/-- The bytes at `start`, at most `count` of them and none past the end. -/
def read (f : FileContents) (start count : Nat) : Bytes :=
  f.cells.getRange start (min count (f.size - start))

def bytes (f : FileContents) : Bytes := f.read 0 f.size

/-- The file after bytes were written at `start`. The pages that they lie on are stored. -/
def write (f : FileContents) (start : Nat) (data : Bytes) : FileContents :=
  if data.isEmpty then f
  else
    let size := max f.size (start + data.length)
    { size
      cells := f.cells.setRange start data
      tail := if start + data.length ≤ lastPage size then f.tail else .empty
      blank := fun position h => by
        have hlen : data.length ≤ position - start := by omega
        simp [Memory.get_setRange, List.getElem?_eq_none hlen, f.blank position (by omega)] }

/-- The file cut to `size` bytes, or filled up with zero bytes to as many. -/
def resize (f : FileContents) (size : Nat) : FileContents :=
  if h : f.size ≤ size then
    { size
      cells := f.cells
      tail := .empty
      blank := fun position hp => f.blank position (by omega) }
  else ofBytes (f.read 0 size)

/-! ## Mappings -/

/-- Where the last page of the file ends. -/
def pageEnd (f : FileContents) : Nat := wholePages f.size

/-- What a mapping shows at a position. -/
def mappedCell (f : FileContents) (position : Nat) : UInt8 :=
  if position < f.size then f.cells.get position else f.tail.get position

/-- What a mapping shows from `start` on. -/
def readMapped (f : FileContents) (start count : Nat) : Bytes :=
  (List.range count).map fun i => f.mappedCell (start + i)

/-- The file after bytes were written at `start` through a mapping, which does not change its size.
-/
def writeMapped (f : FileContents) (start : Nat) (data : Bytes) : FileContents :=
  let data := data.take (f.pageEnd - start)
  { size := f.size
    cells := f.cells.setRange start (data.take (f.size - start))
    tail := f.tail.setRange (max start f.size) (data.drop (f.size - start))
    blank := fun position h => by
      have hlen : (data.take (f.size - start)).length ≤ position - start := by
        simp only [List.length_take]; omega
      simp [Memory.get_setRange, List.getElem?_eq_none hlen, f.blank position h] }

/-! ## Laws -/

theorem size_le_pageEnd (f : FileContents) : f.size ≤ f.pageEnd := by
  simp only [pageEnd, wholePages, pageSize]; omega

theorem get_write (f : FileContents) (start position : Nat) (data : Bytes) :
    (f.write start data).cells.get position =
      if start ≤ position then (data[position - start]?).getD (f.cells.get position)
      else f.cells.get position := by
  unfold write
  split
  · simp_all
  · exact Memory.get_setRange ..

theorem mappedCell_writeMapped (f : FileContents) (start position : Nat) (data : Bytes) :
    (f.writeMapped start data).mappedCell position =
      if start ≤ position ∧ position < f.pageEnd then
        (data[position - start]?).getD (f.mappedCell position)
      else f.mappedCell position := by
  have hend := f.size_le_pageEnd
  unfold mappedCell writeMapped
  by_cases hp : position < f.size
  · have hpage : position < f.pageEnd := by omega
    by_cases hs : start ≤ position
    · have hi : position - start < min (f.size - start) (f.pageEnd - start) := by omega
      simp [Memory.get_setRange, hp, hs, hpage, List.take_take, hi]
    · simp [Memory.get_setRange, hp, hs]
  · by_cases hs : start ≤ position
    · have hi : f.size - start + (position - max start f.size) = position - start := by omega
      have hm : max start f.size ≤ position := by omega
      by_cases hpage : position < f.pageEnd
      · simp [Memory.get_setRange, hp, hs, hm, hpage, hi,
          show position - start < f.pageEnd - start by omega]
      · have hnone : (data.take (f.pageEnd - start))[position - start]? = none :=
          List.getElem?_eq_none (by simp only [List.length_take]; omega)
        simp [Memory.get_setRange, hp, hm, hpage, hi, hnone]
    · have hm : ¬ max start f.size ≤ position := by omega
      simp [Memory.get_setRange, hp, hs, hm]

@[simp] theorem length_read (f : FileContents) (start count : Nat) :
    (f.read start count).length = min count (f.size - start) := by
  simp [read]

end FileContents

end PacketOffload
