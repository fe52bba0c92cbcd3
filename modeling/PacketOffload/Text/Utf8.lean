import PacketOffload.Bytes

/-!
# UTF-8

Text as bytes, and reading text from bytes. A byte string is cut into pieces from left to right:
each piece is one character or, where no character starts, the longest run of bytes that begins some
character's encoding (one byte where there is none). Strict reading refuses a text with a piece of
the second kind; lenient reading shows each of them as the replacement character.
-/

namespace PacketOffload.Utf8

/-- The bytes of a text. -/
def encode (text : String) : Bytes := text.toList.flatMap String.utf8EncodeChar

/-- What the first byte of a character of two to four bytes says about the others. -/
structure Lead where
  /-- Least and greatest second byte. -/
  low : UInt8
  high : UInt8
  /-- Bytes after the second one. -/
  more : Nat
  /-- The bits of the code point that the first byte holds. -/
  bits : Nat
  deriving DecidableEq, Repr

/-- The first bytes of characters of two to four bytes; overlong encodings, surrogates and code
points past `U+10FFFF` are excluded by the bounds on the second byte. -/
def lead? (b : UInt8) : Option Lead :=
  if 0xC2 ≤ b ∧ b ≤ 0xDF then some ⟨0x80, 0xBF, 0, b.toNat - 0xC0⟩
  else if b = 0xE0 then some ⟨0xA0, 0xBF, 1, 0⟩
  else if b = 0xED then some ⟨0x80, 0x9F, 1, 0xD⟩
  else if 0xE1 ≤ b ∧ b ≤ 0xEF then some ⟨0x80, 0xBF, 1, b.toNat - 0xE0⟩
  else if b = 0xF0 then some ⟨0x90, 0xBF, 2, 0⟩
  else if 0xF1 ≤ b ∧ b ≤ 0xF3 then some ⟨0x80, 0xBF, 2, b.toNat - 0xF0⟩
  else if b = 0xF4 then some ⟨0x80, 0x8F, 2, 4⟩
  else none

def isContinuation (b : UInt8) : Bool := 0x80 ≤ b && b ≤ 0xBF

/-- The code point that a first byte's bits and the continuation bytes after it stand for. -/
def codePoint (bits : Nat) (continuation : Bytes) : Nat :=
  continuation.foldl (fun n b => n * 64 + b.toNat % 64) bits

/-- The piece that begins with byte `b`: its character, or `none` where there is none, and how many
bytes of `rest` belong to it. -/
def piece (b : UInt8) (rest : Bytes) : Option Char × Nat :=
  if b < 0x80 then (some (Char.ofNat b.toNat), 0)
  else match lead? b, rest with
    | some lead, second :: rest =>
      if lead.low ≤ second ∧ second ≤ lead.high then
        let tail := (rest.take lead.more).takeWhile isContinuation
        if tail.length = lead.more then
          (some (Char.ofNat (codePoint lead.bits (second :: tail))), lead.more + 1)
        else (none, tail.length + 1)
      else (none, 0)
    | _, _ => (none, 0)

/-- The pieces of a byte string after its first `skip` bytes. -/
def piecesFrom : (skip : Nat) → Bytes → List (Option Char)
  | _, [] => []
  | skip + 1, _ :: rest => piecesFrom skip rest
  | 0, b :: rest => (piece b rest).1 :: piecesFrom (piece b rest).2 rest

/-- The pieces of a byte string, ill-formed ones as `none`. -/
def pieces (bytes : Bytes) : List (Option Char) := piecesFrom 0 bytes

/-- The text of a byte string, unless a piece of it is ill-formed. -/
def decode? (bytes : Bytes) : Option String := ((pieces bytes).mapM id).map String.ofList

/-- The text of a byte string, with `U+FFFD` for every ill-formed piece. -/
def decodeLenient (bytes : Bytes) : String :=
  String.ofList ((pieces bytes).map (·.getD '\uFFFD'))

end PacketOffload.Utf8
