import PacketOffload.Bytes

/-!
# Hex dumps

Sixteen bytes a line: two upper-case digits and a blank for each byte, one more blank after the
eighth, then a bar and the bytes as ASCII, with a dot for those that have no graphic form. Lines
that are cut short are filled up with blanks, so that the bars stand in one column. -/

namespace PacketOffload.Hexdump

def lineWidth : Nat := 16

def upperDigit (n : Nat) : Char :=
  if n < 10 then Char.ofNat ('0'.toNat + n) else Char.ofNat ('A'.toNat + (n - 10))

/-- The column of one byte: its two digits and a blank, or three blanks past the end of the data. -/
def hexColumn : Option UInt8 → List Char
  | some b => [upperDigit (b.toNat / 16), upperDigit (b.toNat % 16), ' ']
  | none => [' ', ' ', ' ']

/-- The gap after a column: one more blank in the middle of the line. -/
def gap (column : Nat) : List Char := if column = 7 then [' '] else []

/-- A byte as a graphic ASCII character, a blank, or a dot. -/
def glyph (b : UInt8) : Char :=
  if 0x20 ≤ b ∧ b ≤ 0x7E then Char.ofNat b.toNat else '.'

/-- One line of the dump, up to its line feed. -/
def line (bytes : Bytes) : List Char :=
  ((List.range lineWidth).flatMap fun i => hexColumn bytes[i]? ++ gap i) ++
    [' ', '|', ' ', ' '] ++ bytes.map glyph

def dumpLines (bytes : Bytes) : List (List Char) := (bytes.lines lineWidth).map line

/-- The dump (`hexdump`): every line ends with a line feed. -/
def dump (bytes : Bytes) : String :=
  String.ofList ((dumpLines bytes).flatMap (· ++ ['\n']))

theorem length_hexColumn (b : Option UInt8) : (hexColumn b).length = 3 := by
  cases b <;> rfl

end PacketOffload.Hexdump
