import PacketOffload.Text.Blank

/-!
# Numerals

Unsigned numbers as text. A numeral is an optional plus sign and at least one digit, and nothing
else; a number that does not fit its type is no numeral of that type. Register values may be
written in hexadecimal after `0x` or `0X`.

Addresses, values and flag words are shown as `0x` and lower-case hexadecimal digits.

| here | operation |
| --- | --- |
| `registerValue?` | `parse_register` |
| `count?` | the number in `hostdma_num_pages` and in a context's variable |
-/

namespace PacketOffload.Text

/-- The value of a digit: `0` to `9`, then `a` to `z` in either case. -/
def digitValue? (c : Char) : Option Nat :=
  if '0' ≤ c ∧ c ≤ '9' then some (c.toNat - '0'.toNat)
  else if 'a' ≤ c ∧ c ≤ 'z' then some (c.toNat - 'a'.toNat + 10)
  else if 'A' ≤ c ∧ c ≤ 'Z' then some (c.toNat - 'A'.toNat + 10)
  else none

/-- The number that digits of a base stand for, read after the value of the digits before them. -/
def digitsValue? (base : Nat) : (before : Nat) → List Char → Option Nat
  | before, [] => some before
  | before, c :: rest =>
    match digitValue? c with
    | some d => if d < base then digitsValue? base (before * base + d) rest else none
    | none => none

/-- The number below `bound` that a numeral stands for. -/
def numeral? (base bound : Nat) (cs : List Char) : Option Nat :=
  let digits := match cs with
    | '+' :: rest => rest
    | cs => cs
  if digits.isEmpty then none
  else (digitsValue? base 0 digits).filter (· < bound)

def count? (s : String) : Option Nat := numeral? 10 UInt64.size s.toList

/-- A register value: decimal, or hexadecimal after `0x` or `0X`. -/
def registerValue? (s : String) : Option UInt32 :=
  let value := match s.toList with
    | '0' :: 'x' :: rest => numeral? 16 UInt32.size rest
    | '0' :: 'X' :: rest => numeral? 16 UInt32.size rest
    | cs => numeral? 10 UInt32.size cs
  value.map UInt32.ofNat

/-- Hexadecimal digits in lower case, at least `width` of them. -/
def hexDigits (width n : Nat) : String :=
  let digits := Nat.toDigits 16 n
  String.ofList (List.replicate (width - digits.length) '0' ++ digits)

/-- A number as `0x` and its hexadecimal digits. -/
def hex (n : Nat) : String := "0x" ++ hexDigits 1 n

end PacketOffload.Text
