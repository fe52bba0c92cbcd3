import PacketOffload.Bytes
import PacketOffload.Fault

/-!
# SLMP headers

SLMP carries a message over UDP in fragments. Every datagram begins with ten bytes, all big-endian:
two of flags, four of the message's number, four of the fragment's offset in the message.

| here | operation |
| --- | --- |
| `Flags` | the flags of these names |
| `Header.encode`, `Header.decode` | `encode`, `decode` |

Main statements: a header reads back from its encoding, whatever follows it
(`decode_encode_append`), and the first ten bytes of a datagram are the encoding of the header read
from it (`encode_of_decode`).
-/

namespace PacketOffload.Slmp

/-- SLMP receivers listen on this UDP port. -/
def port : UInt16 := 9330

/-- The flags of a datagram; bits without a meaning are kept. -/
structure Flags where
  bits : UInt16
  deriving DecidableEq, Repr, Inhabited

namespace Flags

def empty : Flags := ⟨0⟩

/-- The last fragment of the message. -/
def eom : Flags := ⟨0x8000⟩

/-- The sender waits for an acknowledgement. -/
def syn : Flags := ⟨0x4000⟩

/-- This datagram is an acknowledgement. -/
def ack : Flags := ⟨0x2000⟩

def union (a b : Flags) : Flags := ⟨a.bits ||| b.bits⟩

def contains (a b : Flags) : Bool := a.bits &&& b.bits == b.bits

end Flags

structure Header where
  flags : Flags
  msgId : UInt32
  offset : UInt32
  deriving DecidableEq, Repr

namespace Header

/-- The ten bytes of a header. -/
def encode (h : Header) : Bytes :=
  Bytes.beBytes 2 h.flags.bits.toNat ++ Bytes.beBytes 4 h.msgId.toNat ++
    Bytes.beBytes 4 h.offset.toNat

/-- The header at the start of a datagram. -/
def decode (datagram : Bytes) : Except Fault Header :=
  if datagram.length < slmpHeaderLength then
    .error (.invalidArgument (.datagramLength datagram.length))
  else
    .ok {
      flags := ⟨UInt16.ofNat (Bytes.beNat (datagram.take 2))⟩
      msgId := UInt32.ofNat (Bytes.beNat ((datagram.drop 2).take 4))
      offset := UInt32.ofNat (Bytes.beNat ((datagram.drop 6).take 4)) }

@[simp] theorem length_encode (h : Header) : h.encode.length = slmpHeaderLength := by
  simp [encode, slmpHeaderLength]

theorem decode_encode_append (h : Header) (rest : Bytes) : decode (h.encode ++ rest) = .ok h := by
  have hf := h.flags.bits.toNat_lt
  have hm := h.msgId.toNat_lt
  have ho := h.offset.toNat_lt
  have take2 : (h.encode ++ rest).take 2 = Bytes.beBytes 2 h.flags.bits.toNat := by
    simp [encode, List.append_assoc]
  have take4 : ((h.encode ++ rest).drop 2).take 4 = Bytes.beBytes 4 h.msgId.toNat := by
    simp [encode, List.append_assoc]
  have last4 : ((h.encode ++ rest).drop 6).take 4 = Bytes.beBytes 4 h.offset.toNat := by
    simp [encode, List.append_assoc, List.drop_append, List.drop_eq_nil_of_le]
  have hlen : ¬ (h.encode ++ rest).length < slmpHeaderLength := by simp
  rw [decode, if_neg hlen, take2, take4, last4]
  simp only [Bytes.beNat_beBytes, Bytes.span_two, Bytes.span_four]
  have e1 : UInt16.ofNat (h.flags.bits.toNat % 65536) = h.flags.bits := by
    apply UInt16.toNat_inj.1; rw [UInt16.toNat_ofNat']; omega
  have e2 : UInt32.ofNat (h.msgId.toNat % 4294967296) = h.msgId := by
    apply UInt32.toNat_inj.1; rw [UInt32.toNat_ofNat']; omega
  have e3 : UInt32.ofNat (h.offset.toNat % 4294967296) = h.offset := by
    apply UInt32.toNat_inj.1; rw [UInt32.toNat_ofNat']; omega
  rw [e1, e2, e3]

theorem decode_encode (h : Header) : decode h.encode = .ok h := by
  simpa using decode_encode_append h []

theorem encode_of_decode {datagram : Bytes} {h : Header} (eq : decode datagram = .ok h) :
    h.encode = datagram.take slmpHeaderLength := by
  unfold decode at eq
  split at eq
  · simp at eq
  · next hlen =>
    simp only [Except.ok.injEq] at eq
    subst eq
    simp only [slmpHeaderLength, Nat.not_lt] at hlen
    have word : ∀ (bytes : Bytes) (n : Nat), bytes.length = n →
        Bytes.beBytes n (Bytes.beNat bytes) = bytes := by
      rintro bytes n rfl; exact Bytes.beBytes_beNat bytes
    have bound : ∀ bytes : Bytes, Bytes.beNat bytes < Bytes.span bytes.length := by
      intro bytes; simpa [Bytes.beNat] using Bytes.leNat_lt bytes.reverse
    have l2 : (datagram.take 2).length = 2 := by simp; omega
    have l4 : ((datagram.drop 2).take 4).length = 4 := by simp; omega
    have l6 : ((datagram.drop 6).take 4).length = 4 := by simp; omega
    have b2 : Bytes.beNat (datagram.take 2) < UInt16.size := by
      have := bound (datagram.take 2); rwa [l2] at this
    have b4 : Bytes.beNat ((datagram.drop 2).take 4) < UInt32.size := by
      have := bound ((datagram.drop 2).take 4); rwa [l4] at this
    have b6 : Bytes.beNat ((datagram.drop 6).take 4) < UInt32.size := by
      have := bound ((datagram.drop 6).take 4); rwa [l6] at this
    simp only [encode, UInt16.toNat_ofNat_of_lt' b2, UInt32.toNat_ofNat_of_lt' b4,
      UInt32.toNat_ofNat_of_lt' b6, word _ _ l2, word _ _ l4, word _ _ l6]
    have cut : ∀ k m : Nat,
        datagram.take k ++ (datagram.drop k).take m = datagram.take (k + m) := by
      intro k m; rw [List.take_add]
    rw [cut 2 4, cut 6 4, slmpHeaderLength]

end Header

end PacketOffload.Slmp
