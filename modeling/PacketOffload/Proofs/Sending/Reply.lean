import PacketOffload.Slmp.Exchange

/-!
# Replies

A wait for an acknowledgement reads one datagram, cut to `replyLimit` bytes, or meets an error of
the socket, or reads nothing. A header alone with the flag `ack` is an acknowledgement, whatever
fragment it names; all else fails the wait, and the fault says what was wrong.

Main statements: which replies end a wait with success (`result_await_eq_ok_iff_isAck`), and with
which fault the others end it (`result_await_eq_error_iff`).
-/

namespace PacketOffload.Slmp

/-- A reply is an acknowledgement: a header and nothing behind it, with the flag `ack`. -/
def IsAck (reply : Bytes) : Prop := ∃ h : Header, reply = h.encode ∧ h.flags.contains .ack = true

/-- A reply is an acknowledgement of this very fragment. -/
def IsAckOf (msgId : UInt32) (f : Fragment) (reply : Bytes) : Prop :=
  ∃ h : Header, reply = h.encode ∧ h.flags.contains .ack = true ∧
    h.msgId = msgId ∧ h.offset = f.offset

/-- Why a wait for the acknowledgement of a fragment fails, by what it read if it read anything. -/
inductive Refused (msgId : UInt32) (f : Fragment) : Option Arrival → Fault → Prop
  | nothing : Refused msgId f none (.ackTimeout msgId f.offset)
  | late {error : OsError} (h : error.isTimeout = true) :
    Refused msgId f (some (.fault error)) (.ackTimeout msgId f.offset)
  | unread {error : OsError} (h : error.isTimeout = false) :
    Refused msgId f (some (.fault error)) (.sendFailed (.receive f.offset error))
  | length {reply : Bytes} (h : reply.length ≠ slmpHeaderLength) :
    Refused msgId f (some (.datagram reply)) (.sendFailed (.replyLength reply.length))
  | flags {h : Header} (hf : h.flags.contains .ack = false) :
    Refused msgId f (some (.datagram h.encode)) (.notAck msgId f.offset h.flags.bits)

/-- A read takes no more of a datagram than there is room for. -/
def Arrival.read : Arrival → Arrival
  | .datagram bytes => .datagram (bytes.take replyLimit)
  | .fault error => .fault error

/-- What a wait reads of what has arrived. -/
def readOf (inbox : List Arrival) : Option Arrival := inbox.head?.map Arrival.read

variable {msgId offset : UInt32} {f : Fragment} {reply : Bytes} {inbox : List Arrival}

theorem Header.encode_injective {g h : Header} (heq : g.encode = h.encode) : g = h := by
  have hdecode := congrArg decode heq
  simp only [decode_encode] at hdecode
  exact Except.ok.inj hdecode

/-- A reply of a header's length is a header. -/
theorem exists_header_of_length (h : reply.length = slmpHeaderLength) :
    ∃ g : Header, reply = g.encode ∧ Header.decode reply = .ok g := by
  have hread : ∃ g, Header.decode reply = .ok g := by
    rw [Header.decode, if_neg (by omega)]
    exact ⟨_, rfl⟩
  obtain ⟨g, hg⟩ := hread
  refine ⟨g, ?_, hg⟩
  rw [Header.encode_of_decode hg, List.take_of_length_le (Nat.le_of_eq h)]

theorem checkReply_encode (g : Header) :
    checkReply msgId offset g.encode =
      if g.flags.contains .ack then .ok () else .error (.notAck msgId offset g.flags.bits) := by
  rw [checkReply, if_pos g.length_encode, Header.decode_encode]

theorem checkReply_of_length (h : reply.length ≠ slmpHeaderLength) :
    checkReply msgId offset reply = .error (.sendFailed (.replyLength reply.length)) := by
  rw [checkReply, if_neg h]

theorem checkReply_eq_ok_iff : checkReply msgId offset reply = .ok () ↔ IsAck reply := by
  constructor
  · intro hok
    by_cases hlen : reply.length = slmpHeaderLength
    · obtain ⟨g, rfl, -⟩ := exists_header_of_length hlen
      refine ⟨g, rfl, ?_⟩
      rw [checkReply_encode] at hok
      cases hack : g.flags.contains .ack with
      | true => rfl
      | false => rw [hack] at hok; cases hok
    · rw [checkReply_of_length hlen] at hok
      cases hok
  · rintro ⟨g, rfl, hack⟩
    rw [checkReply_encode, if_pos hack]

theorem checkReply_eq_error_iff {e : Fault} :
    checkReply msgId f.offset reply = .error e ↔
      Refused msgId f (some (.datagram reply)) e := by
  constructor
  · intro herr
    by_cases hlen : reply.length = slmpHeaderLength
    · obtain ⟨g, rfl, -⟩ := exists_header_of_length hlen
      rw [checkReply_encode] at herr
      cases hack : g.flags.contains .ack with
      | true => rw [hack] at herr; cases herr
      | false =>
        rw [hack] at herr
        obtain rfl := Except.error.inj herr
        exact .flags hack
    · rw [checkReply_of_length hlen] at herr
      obtain rfl := Except.error.inj herr
      exact .length hlen
  · intro hrefused
    cases hrefused with
    | length hlen => exact checkReply_of_length hlen
    | flags hack => rw [checkReply_encode, hack]; rfl

/-- An error of the socket refuses, with its own fault. -/
theorem refused_fault_iff {error : OsError} {e : Fault} :
    Refused msgId f (some (.fault error)) e ↔ e = readFault msgId f.offset error := by
  unfold readFault
  constructor
  · intro hrefused
    cases hrefused with
    | late htime => rw [if_pos htime]
    | unread htime => rw [if_neg (Bool.eq_false_iff.1 htime)]
  · rintro rfl
    split
    next htime => exact .late htime
    next htime => exact .unread (Bool.eq_false_iff.2 htime)

/-- A wait succeeds exactly if it reads an acknowledgement. -/
theorem result_await_eq_ok_iff_isAck :
    (await msgId f inbox).result = .ok () ↔
      ∃ reply, readOf inbox = some (.datagram reply) ∧ IsAck reply := by
  rw [result_await_eq_ok_iff]
  match inbox with
  | [] => simp [readOf]
  | .datagram bytes :: rest => simp [readOf, Arrival.read, checkReply_eq_ok_iff]
  | .fault error :: rest => simp [readOf, Arrival.read]

/-- A wait fails with the fault that tells what it read. -/
theorem result_await_eq_error_iff {e : Fault} :
    (await msgId f inbox).result = .error e ↔ Refused msgId f (readOf inbox) e := by
  match inbox with
  | [] =>
    constructor
    · intro herr
      obtain rfl := Except.error.inj herr
      exact .nothing
    · intro hrefused
      cases hrefused
      rfl
  | .datagram bytes :: rest => exact checkReply_eq_error_iff
  | .fault error :: rest =>
    rw [readOf, List.head?_cons, Option.map_some, Arrival.read, refused_fault_iff]
    exact ⟨fun h => (Except.error.inj h).symm, fun h => congrArg Except.error h.symm⟩

/-- Nobody listens at the destination, which the read after the send reports. -/
example : (await msgId f [.fault .connectionRefused]).result =
    .error (.sendFailed (.receive f.offset .connectionRefused)) := rfl

/-- No reply is an acknowledgement and a refusal at once. -/
theorem Refused.not_isAck {e : Fault} (h : Refused msgId f (some (.datagram reply)) e) :
    ¬ IsAck reply := by
  intro hack
  have hok : checkReply msgId f.offset reply = .ok () := checkReply_eq_ok_iff.2 hack
  rw [checkReply_eq_error_iff.2 h] at hok
  cases hok

end PacketOffload.Slmp
