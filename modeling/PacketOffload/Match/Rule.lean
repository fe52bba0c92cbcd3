import PacketOffload.Slmp.Header

/-!
# Match rules

The matching engine reads a packet as big-endian 32-bit words, from the Ethernet header on; words
past the end of the packet read as zero. A rule takes one word, masks it, and asks whether the
result lies in a range.

| here | operation |
| --- | --- |
| `packetWord` | `packet_word` |
| `matchesWord`, `matchesPacket` | `matches`, `matches_packet` |
| `ipv4`, `ipProtocol`, `udpPort`, `slmpEom` | `ipv4`, `ip_proto`, `udp_dport`, `slmp_eom` |

Main statement: a rule sees a packet only through the word it names (`matchesPacket_congr`), and
trailing zero bytes do not show (`packetWord_append_zeros`).
-/

namespace PacketOffload

/-- A condition on one word of a packet. -/
structure MatchRule where
  word : UInt32
  mask : UInt32
  /-- The least and the greatest masked value that match. -/
  low : UInt32
  high : UInt32
  deriving DecidableEq, Repr

/-- The byte of a packet at a position; zero past its end. -/
def packetByte (packet : Bytes) (i : Nat) : UInt8 := packet.getD i 0

/-- The word of a packet at an index; zero past its end. -/
def packetWord (packet : Bytes) (index : Nat) : UInt32 :=
  UInt32.ofNat (Bytes.beNat ((List.range 4).map fun k => packetByte packet (4 * index + k)))

namespace MatchRule

def always : MatchRule := ⟨0, 0, 0, 0⟩

def never : MatchRule := ⟨0, 0, 1, 0⟩

def equals (word mask value : UInt32) : MatchRule := ⟨word, mask, value, value⟩

/-- The frame carries IPv4. -/
def ipv4 : MatchRule := equals 3 0xffff0000 0x08000000

/-- The IPv4 packet carries this protocol. -/
def ipProtocol (protocol : UInt8) : MatchRule := equals 5 0xff protocol.toUInt32

/-- The UDP datagram is for this port, in an IPv4 packet without options. -/
def udpPort (port : UInt16) : MatchRule := equals 9 0xffff0000 (port.toUInt32 <<< 16)

/-- The SLMP header marks the end of the message. -/
def slmpEom : MatchRule := equals 10 Slmp.Flags.eom.bits.toUInt32 Slmp.Flags.eom.bits.toUInt32

def matchesWord (rule : MatchRule) (word : UInt32) : Bool :=
  rule.low ≤ word &&& rule.mask && word &&& rule.mask ≤ rule.high

def matchesPacket (rule : MatchRule) (packet : Bytes) : Bool :=
  rule.matchesWord (packetWord packet rule.word.toNat)

@[simp] theorem matchesWord_never (word : UInt32) : never.matchesWord word = false := by
  simp [never, matchesWord]

theorem matchesWord_equals {index mask value word : UInt32} :
    (equals index mask value).matchesWord word = true ↔ word &&& mask = value := by
  rw [matchesWord, Bool.and_eq_true, decide_eq_true_iff, decide_eq_true_iff]
  constructor
  · rintro ⟨hlow, hhigh⟩
    exact UInt32.le_antisymm hhigh hlow
  · rintro rfl
    exact ⟨UInt32.le_refl _, UInt32.le_refl _⟩

theorem matchesPacket_congr {rule : MatchRule} {p q : Bytes}
    (h : packetWord p rule.word.toNat = packetWord q rule.word.toNat) :
    rule.matchesPacket p = rule.matchesPacket q := by
  simp [matchesPacket, h]

end MatchRule

theorem packetByte_append_zeros (packet : Bytes) (n i : Nat) :
    packetByte (packet ++ List.replicate n 0) i = packetByte packet i := by
  simp only [packetByte, List.getD_eq_getElem?_getD, List.getElem?_append]
  by_cases h : i < packet.length
  · simp [h]
  · by_cases hn : i - packet.length < n <;> simp [h, hn]

theorem packetWord_append_zeros (packet : Bytes) (n index : Nat) :
    packetWord (packet ++ List.replicate n 0) index = packetWord packet index := by
  simp [packetWord, packetByte_append_zeros]

end PacketOffload
