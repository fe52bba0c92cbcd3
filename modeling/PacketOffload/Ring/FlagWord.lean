/-!
# Flag words

A request and its response are announced by one 64-bit word: a sequence number in bits 0 to 3, a
length in bits 8 to 15 and the number of a processing unit in bits 24 to 31. The other bits are
carried along.

| here | operation |
| --- | --- |
| `compose`, `ofLength` | `compose`, `with_len` |
| `seq`, `length`, `unit` | the fields of these names |

Main statements: the fields of a composed word are the ones it was composed of (`seq_compose`,
`length_compose`, `unit_compose`).
-/

namespace PacketOffload

/-- The word that announces a request or a response. -/
structure FlagWord where
  bits : UInt64
  deriving DecidableEq, Repr, Inhabited

namespace FlagWord

/-- The word of a sequence number, of which the low four bits count, a length and a unit. -/
def compose (seq length unit : UInt8) : FlagWord :=
  ⟨(seq.toUInt64 &&& (0xf : UInt64)) ||| (length.toUInt64 <<< 8) ||| (unit.toUInt64 <<< 24)⟩

/-- The word with a length and nothing else. -/
def ofLength (length : UInt8) : FlagWord := compose 0 length 0

def seq (flag : FlagWord) : UInt8 := (flag.bits &&& (0xf : UInt64)).toUInt8

/-- The length, whose meaning is up to the application. -/
def length (flag : FlagWord) : UInt8 := (flag.bits >>> 8).toUInt8

def unit (flag : FlagWord) : UInt8 := (flag.bits >>> 24).toUInt8

def union (a b : FlagWord) : FlagWord := ⟨a.bits ||| b.bits⟩

theorem seq_compose (seq length unit : UInt8) : (compose seq length unit).seq = seq &&& 0xf := by
  apply UInt8.toBitVec_inj.1
  ext i hi
  simp [FlagWord.seq, compose]

theorem length_compose (seq length unit : UInt8) : (compose seq length unit).length = length := by
  apply UInt8.toBitVec_inj.1
  ext i hi
  have h64 : 8 + i < 64 := by omega
  have h24 : 8 + i < 24 := by omega
  have hi64 : i < 64 := by omega
  simp [FlagWord.length, compose, h64, h24, hi64, hi, BitVec.getLsbD_eq_getElem]

theorem unit_compose (seq length unit : UInt8) : (compose seq length unit).unit = unit := by
  apply UInt8.toBitVec_inj.1
  ext i hi
  have h64 : 24 + i < 64 := by omega
  have h24 : ¬ 24 + i < 24 := by omega
  have h8 : ¬ 24 + i < 8 := by omega
  have hi64 : i < 64 := by omega
  have hl : length.toBitVec.getLsbD (24 + i - 8) = false := BitVec.getLsbD_of_ge _ _ (by omega)
  have hs : seq.toBitVec.getLsbD (24 + i) = false := BitVec.getLsbD_of_ge _ _ (by omega)
  simp only [FlagWord.unit, compose, UInt64.toBitVec_toUInt8, UInt64.toBitVec_shiftRight,
    UInt64.toBitVec_or, UInt64.toBitVec_and, UInt64.toBitVec_shiftLeft, UInt8.toBitVec_toUInt64]
  simp [h64, h24, h8, hi64, hi, hl, hs, BitVec.getLsbD_eq_getElem]

end FlagWord

end PacketOffload
