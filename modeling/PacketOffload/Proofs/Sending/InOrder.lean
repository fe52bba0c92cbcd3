import PacketOffload.Proofs.Sending.Reply
import PacketOffload.Proofs.Sending.Parallel

/-!
# Sends in order

Without workers a message is sent fragment after fragment, and a fragment that asks for an
acknowledgement holds those behind it until its wait has read one. Every wait takes what arrived
first and was not taken yet, a datagram or an error of the socket. So what a wait reads can be told
before anything is sent: by what had arrived, by the answers to the fragments so far, and by the
number of the waits before it.

Main statement: the fragments that are sent, the replies that are taken and the result are decided
by the first wait that reads no acknowledgement (`sendTo_in_order`).
-/

namespace PacketOffload.Slmp

def Event.isTimeout : Event → Bool
  | .timedOut _ => true
  | .sent _ | .replied .. | .unread .. => false

/-- Fragments to be sent in their order, and what arrives meanwhile. -/
structure Conversation where
  /-- What arrived before the first fragment is sent. -/
  inbox : List Arrival
  /-- What arrives after a fragment was sent and before its wait reads. -/
  answers : Fragment → List Arrival
  fragments : List Fragment

namespace Conversation

/-- What had arrived when the `i`-th fragment was sent. -/
def arrivedAt (x : Conversation) (i : Nat) : List Arrival :=
  x.inbox ++ (x.fragments.take (i + 1)).flatMap x.answers

/-- How many fragments before the `i`-th one ask for an acknowledgement. -/
def waitsBefore (x : Conversation) (i : Nat) : Nat :=
  (x.fragments.take i).countP Fragment.needsAck

/-- What the wait for the `i`-th fragment reads, if each wait before it took one arrival. -/
def replyTo (x : Conversation) (i : Nat) : Option Arrival :=
  readOf ((x.arrivedAt i).drop (x.waitsBefore i))

/-- The `i`-th fragment does not ask for an acknowledgement, or its wait reads one. -/
def Acked (x : Conversation) (i : Nat) : Prop :=
  ∀ f, x.fragments[i]? = some f → f.needsAck = true →
    ∃ reply, x.replyTo i = some (.datagram reply) ∧ IsAck reply

def AckedBefore (x : Conversation) (n : Nat) : Prop := ∀ i < n, x.Acked i

end Conversation

/-- How fragments were sent in their order: up to the first one that was not acknowledged. -/
structure SentInOrder (msgId : UInt32) (x : Conversation) (result : Except Fault Unit)
    (left : List Arrival) (log : List Event) : Prop where
  /-- A fragment is sent exactly if all before it were acknowledged, so the first ones are sent. -/
  sent : ∃ m, sentFragments log = x.fragments.take m ∧
    ∀ i < x.fragments.length, (i < m ↔ x.AckedBefore i)
  /-- Every wait takes what arrived next, unless nothing did. -/
  taken : ∃ k, left = (x.inbox ++ (sentFragments log).flatMap x.answers).drop k ∧
    k ≤ (x.inbox ++ (sentFragments log).flatMap x.answers).length ∧
    k + log.countP Event.isTimeout = (sentFragments log).countP Fragment.needsAck
  ok_iff : result = .ok () ↔ x.AckedBefore x.fragments.length
  /-- The first wait that reads no acknowledgement decides the fault. -/
  fault : ∀ i f, x.fragments[i]? = some f → x.AckedBefore i → ¬ x.Acked i →
    ∃ e, result = .error e ∧ Refused msgId f (x.replyTo i) e

variable {msgId : UInt32} {inbox taken left : List Arrival} {answers : Fragment → List Arrival}
  {f : Fragment} {rest : List Fragment}

/-! ## The first fragment and the rest -/

namespace Conversation

/-- The wait for the first fragment reads first. -/
theorem replyTo_zero (inbox : List Arrival) (answers : Fragment → List Arrival) (f : Fragment)
    (rest : List Fragment) :
    (⟨inbox, answers, f :: rest⟩ : Conversation).replyTo 0 = readOf (inbox ++ answers f) := by
  simp [replyTo, arrivedAt, waitsBefore]

/-- What the first wait leaves is what the others read from. -/
theorem replyTo_succ (hsplit : inbox ++ answers f = taken ++ left)
    (htaken : taken.length = [f].countP Fragment.needsAck) (i : Nat) :
    (⟨inbox, answers, f :: rest⟩ : Conversation).replyTo (i + 1) =
      (⟨left, answers, rest⟩ : Conversation).replyTo i := by
  have harrived : (⟨inbox, answers, f :: rest⟩ : Conversation).arrivedAt (i + 1) =
      taken ++ (⟨left, answers, rest⟩ : Conversation).arrivedAt i := by
    simp only [arrivedAt, List.take_succ_cons, List.flatMap_cons]
    rw [← List.append_assoc, hsplit, List.append_assoc]
  have hwaits : (⟨inbox, answers, f :: rest⟩ : Conversation).waitsBefore (i + 1) =
      taken.length + (⟨left, answers, rest⟩ : Conversation).waitsBefore i := by
    simp only [waitsBefore, List.take_succ_cons, htaken]
    rw [← List.countP_append, List.singleton_append]
  rw [replyTo, replyTo, harrived, hwaits, List.drop_length_add_append]

theorem acked_succ (hsplit : inbox ++ answers f = taken ++ left)
    (htaken : taken.length = [f].countP Fragment.needsAck) (i : Nat) :
    (⟨inbox, answers, f :: rest⟩ : Conversation).Acked (i + 1) ↔
      (⟨left, answers, rest⟩ : Conversation).Acked i := by
  simp only [Acked, List.getElem?_cons_succ, replyTo_succ hsplit htaken]

theorem ackedBefore_zero (x : Conversation) : x.AckedBefore 0 :=
  fun i hi => absurd hi (Nat.not_lt_zero i)

theorem ackedBefore_succ (rest : List Fragment) (hsplit : inbox ++ answers f = taken ++ left)
    (htaken : taken.length = [f].countP Fragment.needsAck) (n : Nat) :
    (⟨inbox, answers, f :: rest⟩ : Conversation).AckedBefore (n + 1) ↔
      (⟨inbox, answers, f :: rest⟩ : Conversation).Acked 0 ∧
        (⟨left, answers, rest⟩ : Conversation).AckedBefore n := by
  constructor
  · intro h
    exact ⟨h 0 (Nat.succ_pos n), fun i hi =>
      (acked_succ hsplit htaken i).1 (h (i + 1) (Nat.succ_lt_succ hi))⟩
  · rintro ⟨hzero, h⟩ i hi
    cases i with
    | zero => exact hzero
    | succ i => exact (acked_succ hsplit htaken i).2 (h i (Nat.lt_of_succ_lt_succ hi))

end Conversation

namespace SentInOrder

theorem nil (msgId : UInt32) (inbox : List Arrival) (answers : Fragment → List Arrival) :
    SentInOrder msgId ⟨inbox, answers, []⟩ (.ok ()) inbox [] where
  sent := ⟨0, rfl, fun i hi => absurd hi (Nat.not_lt_zero i)⟩
  taken := ⟨0, by simp [sentFragments], Nat.zero_le _, rfl⟩
  ok_iff := iff_of_true rfl (Conversation.ackedBefore_zero _)
  fault i f hf := by cases hf

/-- The first fragment is passed, and the others are sent in their order. -/
theorem cons {result : Except Fault Unit} {left' : List Arrival} {events log : List Event}
    (h : SentInOrder msgId ⟨left, answers, rest⟩ result left' log)
    (hsplit : inbox ++ answers f = taken ++ left)
    (htaken : taken.length = [f].countP Fragment.needsAck)
    (hack : (⟨inbox, answers, f :: rest⟩ : Conversation).Acked 0)
    (hsent : sentFragments events = [f]) (htimeout : events.countP Event.isTimeout = 0) :
    SentInOrder msgId ⟨inbox, answers, f :: rest⟩ result left' (events ++ log) := by
  have hbefore := Conversation.ackedBefore_succ rest hsplit htaken
  have hall : sentFragments (events ++ log) = f :: sentFragments log := by
    rw [sentFragments_append, hsent, List.singleton_append]
  constructor
  case sent =>
    obtain ⟨m, hm, hiff⟩ := h.sent
    refine ⟨m + 1, ?_, fun i hi => ?_⟩
    · rw [hall, hm, List.take_succ_cons]
    · cases i with
      | zero => exact iff_of_true (Nat.succ_pos m) (Conversation.ackedBefore_zero _)
      | succ i =>
        rw [Nat.succ_lt_succ_iff, hbefore, hiff i (Nat.lt_of_succ_lt_succ hi)]
        exact (and_iff_right hack).symm
  case taken =>
    obtain ⟨k, hleft, hk, hcount⟩ := h.taken
    have harrived : inbox ++ (f :: sentFragments log).flatMap answers =
        taken ++ (left ++ (sentFragments log).flatMap answers) := by
      rw [List.flatMap_cons, ← List.append_assoc, hsplit, List.append_assoc]
    refine ⟨taken.length + k, ?_, ?_, ?_⟩
    · rw [hall, harrived, List.drop_length_add_append]
      exact hleft
    · rw [hall, harrived, List.length_append]
      exact Nat.add_le_add_left hk _
    · rw [hall, List.countP_append, htimeout, ← List.singleton_append, List.countP_append, ← htaken,
        ← hcount]
      omega
  case ok_iff =>
    rw [h.ok_iff, List.length_cons, hbefore]
    exact (and_iff_right hack).symm
  case fault =>
    intro i g hg hprior hno
    cases i with
    | zero => exact absurd hack hno
    | succ i =>
      obtain ⟨e, he, hrefused⟩ := h.fault i g hg ((hbefore i).1 hprior).2
        fun hi => hno ((Conversation.acked_succ hsplit htaken i).2 hi)
      rw [Conversation.replyTo_succ hsplit htaken]
      exact ⟨e, he, hrefused⟩

/-- The wait for the first fragment fails, and nothing else is sent. -/
theorem refused {e : Fault} (hf : f.needsAck = true)
    (h : Refused msgId f (readOf (inbox ++ answers f)) e) :
    SentInOrder msgId ⟨inbox, answers, f :: rest⟩ (.error e) ((inbox ++ answers f).drop 1)
      [.sent f, (await msgId f (inbox ++ answers f)).event] := by
  have hno : ¬ (⟨inbox, answers, f :: rest⟩ : Conversation).Acked 0 := by
    intro hack
    obtain ⟨reply, hreply, hisack⟩ := hack f rfl hf
    rw [Conversation.replyTo_zero] at hreply
    rw [hreply] at h
    exact h.not_isAck hisack
  have hsent := sentFragments_sent_await msgId f (inbox ++ answers f)
  constructor
  case sent =>
    refine ⟨1, by rw [hsent]; rfl, fun i _ => ?_⟩
    cases i with
    | zero => exact iff_of_true Nat.one_pos (Conversation.ackedBefore_zero _)
    | succ i => exact iff_of_false (by omega) fun hprior => hno (hprior 0 (Nat.succ_pos i))
  case taken =>
    rw [hsent, List.flatMap_singleton]
    have hasks : [f].countP Fragment.needsAck = 1 := by simp [hf]
    rw [hasks]
    match inbox ++ answers f with
    | [] => exact ⟨0, rfl, Nat.le_refl 0, rfl⟩
    | .datagram bytes :: left | .fault error :: left => exact ⟨1, rfl, by simp, rfl⟩
  case ok_iff =>
    refine iff_of_false nofun fun hall => hno (hall 0 ?_)
    exact Nat.succ_pos rest.length
  case fault =>
    intro i g hg hprior _
    cases i with
    | zero =>
      obtain rfl := Option.some.inj hg
      rw [Conversation.replyTo_zero]
      exact ⟨e, rfl, h⟩
    | succ i => exact absurd (hprior 0 (Nat.succ_pos i)) hno

end SentInOrder

/-! ## Fragment after fragment -/

/-- What comes of a fragment whose datagram the network takes: it is passed, or its wait fails. -/
theorem sendFragment_cases (s : Sender) (t : Traffic) {f : Fragment} {answers : List Arrival}
    (hsend : s.transmit f = .ok answers) :
    (∃ taken left events, t.inbox ++ answers = taken ++ left ∧
        taken.length = [f].countP Fragment.needsAck ∧
        (f.needsAck = true →
          ∃ reply, readOf (t.inbox ++ answers) = some (.datagram reply) ∧ IsAck reply) ∧
        sentFragments events = [f] ∧ events.countP Event.isTimeout = 0 ∧
        s.sendFragment t f = (.ok (), ⟨left, t.log ++ events⟩)) ∨
      ∃ e, f.needsAck = true ∧ Refused s.msgId f (readOf (t.inbox ++ answers)) e ∧
        s.sendFragment t f = (.error e, ⟨(t.inbox ++ answers).drop 1,
          t.log ++ [.sent f, (await s.msgId f (t.inbox ++ answers)).event]⟩) := by
  have hopen : s.sendFragment t f =
      if f.needsAck then
        ((await s.msgId f (t.inbox ++ answers)).result,
          ⟨(t.inbox ++ answers).drop 1,
            t.log ++ [.sent f, (await s.msgId f (t.inbox ++ answers)).event]⟩)
      else (.ok (), ⟨t.inbox ++ answers, t.log ++ [.sent f]⟩) := by
    simp only [Sender.sendFragment, hsend, inbox_await, List.append_assoc, List.cons_append,
      List.nil_append]
  rw [hopen]
  cases hf : f.needsAck with
  | false => exact .inl ⟨[], t.inbox ++ answers, [.sent f], rfl, by simp [hf], nofun, rfl, rfl, rfl⟩
  | true =>
    rw [if_pos rfl]
    cases hresult : (await s.msgId f (t.inbox ++ answers)).result with
    | error e => exact .inr ⟨e, rfl, result_await_eq_error_iff.1 hresult, rfl⟩
    | ok =>
      have hack := result_await_eq_ok_iff_isAck.1 hresult
      obtain ⟨bytes, left, harrived, -⟩ := result_await_eq_ok_iff.1 hresult
      rw [harrived] at hack ⊢
      exact .inl ⟨[.datagram bytes], left, _, rfl, by simp [hf], fun _ => hack, rfl, rfl, rfl⟩

/-- Fragments that the network takes are sent in their order. -/
theorem sendAll_in_order (s : Sender) (answers : Fragment → List Arrival) (t : Traffic)
    (fragments : List Fragment) (hsend : ∀ f ∈ fragments, s.transmit f = .ok (answers f)) :
    ∃ events, (s.sendAll t fragments).2.log = t.log ++ events ∧
      SentInOrder s.msgId ⟨t.inbox, answers, fragments⟩ (s.sendAll t fragments).1
        (s.sendAll t fragments).2.inbox events := by
  induction fragments generalizing t with
  | nil => exact ⟨[], (List.append_nil _).symm, .nil s.msgId t.inbox answers⟩
  | cons f rest ih =>
    rcases sendFragment_cases s t (hsend f List.mem_cons_self) with
      ⟨taken, left, events, hsplit, htaken, hack, hsent, htimeout, heq⟩ | ⟨e, hf, hrefused, heq⟩
    · obtain ⟨more, hlog, hmore⟩ := ih ⟨left, t.log ++ events⟩
        fun g hg => hsend g (List.mem_cons_of_mem f hg)
      simp only [Sender.sendAll, heq]
      refine ⟨events ++ more, by rw [hlog, List.append_assoc], ?_⟩
      refine hmore.cons hsplit htaken ?_ hsent htimeout
      intro g hg hneeds
      obtain rfl := Option.some.inj hg
      rw [Conversation.replyTo_zero]
      exact hack hneeds
    · simp only [Sender.sendAll, heq]
      exact ⟨_, rfl, .refused hf hrefused⟩

/-! ## Datagrams -/

theorem Payload.cut_eq {p : Payload} {start count : Nat} (h : start + count ≤ p.length) :
    p.cut start count = (p.bytes.drop start).take count := by
  apply List.ext_getElem
  · simp [Payload.bytes]
    omega
  · intro i h₁ h₂
    simp [Payload.bytes, Payload.cut]

/-- A fragment of a plan lies inside its message. -/
theorem fragment_end_le {length size : Nat} {alwaysAck : Bool} (hl : length < UInt32.size)
    (hf : f ∈ plan length size alwaysAck) : f.offset.toNat + f.length ≤ length := by
  rw [plan] at hf
  split at hf
  · cases hf
  obtain ⟨i, hi, rfl⟩ := List.mem_map.1 hf
  have hlt := mul_lt_of_lt_fragmentCount (List.mem_range.1 hi)
  rw [offset_planned hl (List.mem_range.1 hi), planned]
  simp only
  omega

/-- The datagram of a fragment: its header, and its part of the message. -/
theorem datagram_eq {s : Sender} {size : Nat} {alwaysAck : Bool}
    (hl : s.payload.length < UInt32.size) (hf : f ∈ plan s.payload.length size alwaysAck) :
    s.datagram f = Header.encode ⟨f.flags, s.msgId, f.offset⟩ ++
      (s.payload.bytes.drop f.offset.toNat).take f.length := by
  rw [Sender.datagram, Fragment.datagram, Payload.cut_eq (fragment_end_le hl hf)]
  rfl

/-! ## Whole messages -/

namespace Channel

variable {c : Channel} {size : Nat} {dest : Endpoint} {payload : Payload}

/-- Without workers, or with nothing for them to send, a message is sent in order. -/
theorem sendTo_eq_sendAll (hsize : c.config.fragmentSize = .ok size)
    (hlength : payload.length ≤ maxMessage)
    (hfew : c.config.parallel = true → (plan payload.length size c.config.alwaysAck).length < 3)
    (schedule : List Nat) :
    c.sendTo dest msgId payload schedule =
      (c.sender dest msgId payload).sendAll ⟨c.inbox, []⟩
        (plan payload.length size c.config.alwaysAck) := by
  simp only [sendTo, if_neg (Nat.not_lt.2 hlength), hsize]
  split
  next first second third rest hplan =>
    have hparallel : ¬ c.config.parallel = true := by
      intro h
      have hlt := hfew h
      rw [hplan] at hlt
      simp only [List.length_cons] at hlt
      omega
    rw [if_neg hparallel]
  · rfl

/-- **A send in order.** Whatever waits in the inbox and whatever the network answers, the fragments
that are sent are the first ones, up to the first whose wait reads no acknowledgement; what it reads
instead decides the fault, and without such a wait the send succeeds. No datagram is sent twice, and
each carries its own part of the message. -/
theorem sendTo_in_order (hsize : c.config.fragmentSize = .ok size)
    (hlength : payload.length ≤ maxMessage)
    (hfew : c.config.parallel = true → (plan payload.length size c.config.alwaysAck).length < 3)
    (dest : Endpoint) (msgId : UInt32) (schedule : List Nat) (answers : Fragment → List Arrival)
    (hsend : ∀ f ∈ plan payload.length size c.config.alwaysAck,
      (c.sender dest msgId payload).transmit f = .ok (answers f)) :
    SentInOrder msgId ⟨c.inbox, answers, plan payload.length size c.config.alwaysAck⟩
        (c.sendTo dest msgId payload schedule).1 (c.sendTo dest msgId payload schedule).2.inbox
        (c.sendTo dest msgId payload schedule).2.log ∧
      ((sentFragments (c.sendTo dest msgId payload schedule).2.log).map
        (c.sender dest msgId payload).datagram).Nodup ∧
      ∀ f ∈ plan payload.length size c.config.alwaysAck,
        (c.sender dest msgId payload).datagram f =
          Header.encode ⟨f.flags, msgId, f.offset⟩ ++
            (payload.bytes.drop f.offset.toNat).take f.length := by
  have hl := lt_of_le_maxMessage hlength
  obtain ⟨events, hlog, hsent⟩ :=
    sendAll_in_order (c.sender dest msgId payload) answers ⟨c.inbox, []⟩ _ hsend
  rw [sendTo_eq_sendAll hsize hlength hfew]
  rw [List.nil_append] at hlog
  rw [hlog]
  refine ⟨hsent, ?_, fun f hf => datagram_eq hl hf⟩
  obtain ⟨m, hm, -⟩ := hsent.sent
  rw [hm, List.map_take]
  exact (nodup_datagrams (nodup_offset_plan hl size c.config.alwaysAck)).take

/-- Three fragments that ask for acknowledgements, and a second reply without the flag. -/
theorem sendTo_in_order_refused :
    let here : Endpoint := ⟨.v4 0x7f000001, 4000⟩
    let ack : Header := ⟨.ack, 7, 0⟩
    let echo : Header := ⟨.syn, 7, 1462⟩
    let c : Channel := ⟨.answering fun _ => [], here, { Config.standard with alwaysAck := true },
      [ack.encode, echo.encode, ack.encode].map .datagram⟩
    let s := c.sendTo (here.atPort port) 7 (.zeros 4000) []
    s.1 = .error (.notAck 7 1462 0x4000) ∧ (sentFragments s.2.log).length = 2 ∧
      SentInOrder 7 ⟨c.inbox, fun _ => [], plan 4000 1462 true⟩ s.1 s.2.inbox s.2.log := by
  intro here ack echo c s
  have hsize : c.config.fragmentSize = .ok 1462 := by decide
  have hlength : (Payload.zeros 4000).length ≤ maxMessage := by decide
  obtain ⟨hsent, -, -⟩ := sendTo_in_order (c := c) hsize hlength nofun (here.atPort port) 7 []
    (fun _ => []) fun _ _ => rfl
  exact ⟨by decide, by decide, hsent⟩

end Channel

end PacketOffload.Slmp
