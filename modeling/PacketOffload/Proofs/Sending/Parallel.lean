import PacketOffload.Proofs.Sending.Crew
import PacketOffload.Slmp.Channel

/-!
# Parallel sends

A message of three fragments or more that is sent in parallel: the first fragment alone, those
between by workers, the last one when all workers are done.

Main statement: on every network and whatever the schedule, the send succeeds if and only if each
fragment was sent and each acknowledgement that was asked for was waited for and came, and then
each datagram was sent once, in an order that keeps the ends of the message at the ends
(`sendTo_parallel`).
-/

namespace PacketOffload.Slmp

variable {s : Sender}

/-! ## Single fragments -/

theorem settled_single_iff {msgId : UInt32} {f : Fragment} {e : Event} (hf : f.needsAck = true) :
    Settled msgId [.sent f, e] f ↔
      ∃ reply, e = .replied f reply ∧ checkReply msgId f.offset reply = .ok () := by
  constructor
  · rintro ⟨-, hack⟩
    obtain ⟨reply, hm, hok⟩ := hack hf
    simp only [List.mem_cons, List.not_mem_nil, or_false, reduceCtorEq, false_or] at hm
    exact ⟨reply, hm.symm, hok⟩
  · rintro ⟨reply, rfl, hok⟩
    exact ⟨List.mem_cons_self, fun _ => ⟨reply, by simp, hok⟩⟩

/-- What comes of one fragment. -/
theorem sendFragment_spec (s : Sender) (t : Traffic) (f : Fragment) :
    ∃ events, (s.sendFragment t f).2.log = t.log ++ events ∧ (∀ e ∈ events, e.fragment = f) ∧
      ((s.sendFragment t f).1 = .ok () ↔ Settled s.msgId events f) ∧
      ((s.sendFragment t f).1 = .ok () → sentFragments events = [f]) := by
  unfold Sender.sendFragment
  cases s.transmit f with
  | error e =>
    refine ⟨[], (List.append_nil _).symm, fun e he => absurd he List.not_mem_nil, ?_, ?_⟩
    · simp [(untouched_nil f).not_settled]
    · intro h
      cases h
  | ok answers =>
    by_cases hf : f.needsAck = true
    · simp only [hf, if_true]
      refine ⟨[.sent f, (await s.msgId f (t.inbox ++ answers)).event], by simp, ?_, ?_, fun _ => ?_⟩
      · intro e he
        rcases List.mem_cons.1 he with rfl | he
        · rfl
        · obtain rfl := List.mem_singleton.1 he
          exact fragment_await _ _ _
      · rw [settled_single_iff hf, result_await_eq_ok_iff_event]
      · rw [sentFragments_sent_await]
    · simp only [hf, Bool.false_eq_true, if_false]
      refine ⟨[.sent f], rfl, ?_, ?_, fun _ => rfl⟩
      · intro e he
        obtain rfl := List.mem_singleton.1 he
        rfl
      · simp [Settled, hf]

/-! ## Logs in three parts -/

/-- What happened to a first fragment, to those between, and to a last one. -/
structure Parts (first last : Fragment) (interior : List Fragment)
    (before between after : List Event) : Prop where
  before : ∀ e ∈ before, e.fragment = first
  between : ∀ e ∈ between, e.fragment ∈ interior
  after : ∀ e ∈ after, e.fragment = last

/-- Each part of a log tells of its own fragments, and nothing of the others. -/
theorem Parts.settled_iff {first last : Fragment} {interior : List Fragment}
    {before between after : List Event} (h : Parts first last interior before between after)
    (hn : (first :: (interior ++ [last])).Nodup) (msgId : UInt32) :
    (∀ f ∈ first :: (interior ++ [last]), Settled msgId (before ++ between ++ after) f) ↔
      Settled msgId before first ∧ (∀ f ∈ interior, Settled msgId between f) ∧
        Settled msgId after last := by
  obtain ⟨hfirst, hrest⟩ := List.nodup_cons.1 hn
  obtain ⟨-, -, hapart⟩ := List.nodup_append.1 hrest
  have hbefore : ∀ f, f ≠ first → Untouched before f := by
    rintro f hf e he rfl
    exact hf (h.before e he)
  have hbetween : ∀ f, f ∉ interior → Untouched between f := by
    rintro f hf e he rfl
    exact hf (h.between e he)
  have hafter : ∀ f, f ≠ last → Untouched after f := by
    rintro f hf e he rfl
    exact hf (h.after e he)
  have hends : first ≠ last := by
    rintro rfl
    exact hfirst (List.mem_append_right interior List.mem_cons_self)
  have hlast : ∀ f ∈ interior, f ≠ last := fun f hf => hapart f hf last List.mem_cons_self
  have hinterior : ∀ f ∈ interior, f ≠ first := by
    rintro f hf rfl
    exact hfirst (List.mem_append_left [last] hf)
  have atFirst : Settled msgId (before ++ between ++ after) first ↔ Settled msgId before first := by
    rw [settled_append_left (hafter first hends), settled_append_left]
    exact hbetween first fun hm => hinterior first hm rfl
  have atInterior : ∀ f ∈ interior,
      (Settled msgId (before ++ between ++ after) f ↔ Settled msgId between f) := by
    intro f hf
    rw [settled_append_left (hafter f (hlast f hf)),
      settled_append_right (hbefore f (hinterior f hf))]
  have atLast : Settled msgId (before ++ between ++ after) last ↔ Settled msgId after last := by
    refine settled_append_right (untouched_append.2 ⟨hbefore last (Ne.symm hends), ?_⟩)
    exact hbetween last fun hm => hlast last hm rfl
  constructor
  · intro hall
    refine ⟨atFirst.1 (hall first List.mem_cons_self), fun f hf => ?_, ?_⟩
    · exact (atInterior f hf).1 (hall f (by simp [hf]))
    · exact atLast.1 (hall last (by simp))
  · rintro ⟨h₁, h₂, h₃⟩ f hf
    rcases List.mem_cons.1 hf with rfl | hf
    · exact atFirst.2 h₁
    · rcases List.mem_append.1 hf with hf | hf
      · exact (atInterior f hf).2 (h₂ f hf)
      · obtain rfl := List.mem_singleton.1 hf
        exact atLast.2 h₃

/-! ## Workers -/

namespace Channel

variable {c : Channel}

/-- The workers of a channel, before their first step. -/
def crew (c : Channel) (fragments : List Fragment) : Crew :=
  .ofFragments (min c.config.workers fragments.length) fragments

/-- A sender with the port of a worker. -/
def workerSender (c : Channel) (s : Sender) : Sender := { s with here := c.here.atPort 0 }

/-- With a socket for each, the workers send. -/
theorem sendByWorkers_eq (hbind : c.network.bind (c.here.atPort 0) = .ok ()) (s : Sender)
    (fragments : List Fragment) (schedule : List Nat) :
    c.sendByWorkers s fragments schedule =
      (((c.crew fragments).run (c.workerSender s) c.config.policy schedule).result,
        ((c.crew fragments).run (c.workerSender s) c.config.policy schedule).events) := by
  have hsockets : ∀ ns : List Nat,
      (ns.mapM fun _ => c.network.bind (c.here.atPort 0)) = .ok (ns.map fun _ => ()) := by
    intro ns
    rw [hbind]
    exact List.mapM_pure
  simp only [sendByWorkers, hsockets]
  rfl

theorem sendByWorkers_spec (hworkers : 1 ≤ c.config.workers) (s : Sender)
    {fragments : List Fragment} (hne : fragments ≠ []) (hn : fragments.Nodup)
    (schedule : List Nat) :
    ((c.sendByWorkers s fragments schedule).1 = .ok () ↔
        ∀ f ∈ fragments, Settled s.msgId (c.sendByWorkers s fragments schedule).2 f) ∧
      ((c.sendByWorkers s fragments schedule).1 = .ok () →
        (sentFragments (c.sendByWorkers s fragments schedule).2).Perm fragments) ∧
      ∀ e ∈ (c.sendByWorkers s fragments schedule).2, e.fragment ∈ fragments := by
  have hcount : 0 < min c.config.workers fragments.length :=
    Nat.lt_min.2 ⟨hworkers, List.length_pos_iff.2 hne⟩
  unfold sendByWorkers
  simp only []
  split
  next e he =>
    -- No socket, no worker.
    have hfailed : (Except.error (.transfer (.os e)) : Except Fault Unit) ≠ .ok () := nofun
    refine ⟨⟨fun h => absurd h hfailed, fun hall => ?_⟩, fun h => absurd h hfailed,
      fun e he => absurd he List.not_mem_nil⟩
    obtain ⟨f, hf⟩ := List.exists_mem_of_ne_nil fragments hne
    exact absurd (hall f hf) (untouched_nil f).not_settled
  next hbound =>
    exact Crew.run_crew { s with here := c.here.atPort 0 } c.config.policy hcount hn schedule rfl

/-- A first fragment, others by workers, a last one. -/
theorem sendParallel_spec (hworkers : 1 ≤ c.config.workers) (s : Sender) {t : Traffic}
    (ht : t.log = []) {first last : Fragment} {interior : List Fragment} (hne : interior ≠ [])
    (hn : (first :: (interior ++ [last])).Nodup) (schedule : List Nat) :
    ((c.sendParallel s t first last interior schedule).1 = .ok () ↔
        ∀ f ∈ first :: (interior ++ [last]),
          Settled s.msgId (c.sendParallel s t first last interior schedule).2.log f) ∧
      ((c.sendParallel s t first last interior schedule).1 = .ok () →
        ∃ middle, middle.Perm interior ∧
          sentFragments (c.sendParallel s t first last interior schedule).2.log =
            first :: (middle ++ [last])) := by
  have hinterior : interior.Nodup := (List.nodup_append.1 (List.nodup_cons.1 hn).2).1
  have nothing : ∀ {P : Event → Prop}, ∀ e ∈ [], P e := fun e he => absurd he List.not_mem_nil
  obtain ⟨events₁, hlog₁, hmine₁, hok₁, hsent₁⟩ := sendFragment_spec s t first
  obtain ⟨hok₂, hperm₂, hmine₂⟩ := sendByWorkers_spec hworkers s hne hinterior schedule
  rw [ht, List.nil_append] at hlog₁
  unfold sendParallel
  rcases h₁ : s.sendFragment t first with ⟨result₁, t₁⟩
  rw [h₁] at hlog₁ hok₁ hsent₁
  obtain rfl : t₁.log = events₁ := hlog₁
  rcases result₁ with ⟨e⟩ | ⟨⟨⟩⟩
  · -- The first fragment failed, and is all that was tried.
    have hiff := Parts.settled_iff ⟨hmine₁, nothing, nothing⟩ hn s.msgId
    rw [List.append_nil, List.append_nil] at hiff
    refine ⟨?_, nofun⟩
    rw [hiff]
    exact ⟨nofun, fun hall => hok₁.2 hall.1⟩
  rcases h₂ : c.sendByWorkers s interior schedule with ⟨⟨e⟩ | ⟨⟨⟩⟩, log₂⟩
  · -- A worker failed, and the last fragment was not tried.
    rw [h₂] at hok₂ hmine₂
    have hiff := Parts.settled_iff ⟨hmine₁, hmine₂, nothing⟩ hn s.msgId
    rw [List.append_nil] at hiff
    refine ⟨?_, nofun⟩
    rw [hiff]
    exact ⟨nofun, fun hall => hok₂.2 hall.2.1⟩
  rw [h₂] at hok₂ hperm₂ hmine₂
  simp only []
  obtain ⟨events₃, hlog₃, hmine₃, hok₃, hsent₃⟩ :=
    sendFragment_spec s { t₁ with log := t₁.log ++ log₂ } last
  rw [hlog₃]
  refine ⟨?_, fun h => ⟨sentFragments log₂, hperm₂ rfl, ?_⟩⟩
  · rw [Parts.settled_iff ⟨hmine₁, hmine₂, hmine₃⟩ hn s.msgId]
    exact ⟨fun h => ⟨hok₁.1 rfl, hok₂.1 rfl, hok₃.1 h⟩, fun hall => hok₃.2 hall.2.2⟩
  · rw [sentFragments_append, sentFragments_append, hsent₁ rfl, hsent₃ h, List.append_assoc]
    rfl

end Channel

/-! ## Whole messages -/

/-- The datagrams of a plan were sent once each, and no others, with the ends of the message at the
ends. -/
structure SentOnce (s : Sender) (fragments : List Fragment) (log : List Event) : Prop where
  once : ∀ f ∈ fragments, ((sentFragments log).map s.datagram).count (s.datagram f) = 1
  planned : ∀ f ∈ sentFragments log, f ∈ fragments
  ordered : ∃ first middle last, sentFragments log = first :: (middle ++ [last]) ∧
    first.offset = 0 ∧ last.flags.contains .eom = true ∧
      ∀ f ∈ middle, f.offset ≠ 0 ∧ f.flags.contains .eom = false

/-- The offset of a fragment can be read from its datagram. -/
theorem offset_eq_of_datagram_eq {f g : Fragment} (h : s.datagram f = s.datagram g) :
    f.offset = g.offset := by
  have hheader : Header.decode (s.datagram f) = Header.decode (s.datagram g) := by rw [h]
  rw [Sender.datagram, Sender.datagram, Fragment.datagram, Fragment.datagram,
    Header.decode_encode_append, Header.decode_encode_append] at hheader
  exact congrArg Header.offset (Except.ok.inj hheader)

theorem nodup_datagrams {fragments : List Fragment}
    (hn : (fragments.map Fragment.offset).Nodup) : (fragments.map s.datagram).Nodup := by
  refine List.Nodup.map_on ?_ (hn.of_map Fragment.offset)
  intro f hf g hg heq
  exact List.inj_on_of_nodup_map hn hf hg (offset_eq_of_datagram_eq heq)

theorem sentOnce_of_perm {length size : Nat} {alwaysAck : Bool} (hl : length < UInt32.size)
    {first last : Fragment} {interior middle : List Fragment} {log : List Event}
    (hplan : plan length size alwaysAck = first :: (interior ++ [last]))
    (hperm : middle.Perm interior) (hsent : sentFragments log = first :: (middle ++ [last])) :
    SentOnce s (plan length size alwaysAck) log := by
  obtain ⟨hzero, heom, hbetween⟩ := ends_of_plan hl hplan
  have hall : (sentFragments log).Perm (plan length size alwaysAck) := by
    rw [hsent, hplan]
    exact (hperm.append_right [last]).cons first
  refine ⟨fun f hf => ?_, fun f hf => hall.mem_iff.1 hf, first, middle, last, hsent, hzero, heom,
    fun f hf => hbetween f (hperm.mem_iff.1 hf)⟩
  have hnodup := nodup_datagrams (s := s) (nodup_offset_plan hl size alwaysAck)
  rw [(hall.map s.datagram).count_eq]
  exact List.count_eq_one_of_mem hnodup (List.mem_map_of_mem hf)

namespace Channel

variable {c : Channel} {size : Nat} {dest : Endpoint} {msgId : UInt32} {payload : Payload}

theorem split_of_length {α : Type} {xs : List α} (h : 3 ≤ xs.length) :
    ∃ first interior last, xs = first :: (interior ++ [last]) ∧ interior ≠ [] := by
  obtain ⟨first, rest, rfl⟩ := List.exists_cons_of_length_pos (by omega : 0 < xs.length)
  rw [List.length_cons] at h
  have hrest : rest ≠ [] := List.ne_nil_of_length_pos (by omega)
  refine ⟨first, rest.dropLast, rest.getLast hrest, ?_, ?_⟩
  · rw [List.dropLast_concat_getLast]
  · refine List.ne_nil_of_length_pos ?_
    rw [List.length_dropLast]
    omega

/-- Offsets reach all bytes of a message. -/
theorem lt_of_le_maxMessage {length : Nat} (h : length ≤ maxMessage) : length < UInt32.size :=
  Nat.lt_of_le_sub_one (by decide) h

theorem sendTo_eq_sendParallel (hparallel : c.config.parallel = true)
    (hsize : c.config.fragmentSize = .ok size) (hlength : payload.length ≤ maxMessage)
    {first last : Fragment} {interior : List Fragment} (hne : interior ≠ [])
    (hplan : plan payload.length size c.config.alwaysAck = first :: (interior ++ [last]))
    (schedule : List Nat) :
    c.sendTo dest msgId payload schedule =
      c.sendParallel (c.sender dest msgId payload) ⟨c.inbox, []⟩ first last interior schedule := by
  obtain ⟨second, rest, rfl⟩ := List.exists_cons_of_ne_nil hne
  simp only [sendTo, if_neg (Nat.not_lt.2 hlength), hsize, hplan, hparallel, if_true]
  cases rest with
  | nil => rfl
  | cons third rest =>
    have hdrop : (third :: (rest ++ [last])).dropLast = third :: rest := by
      rw [← List.cons_append, List.dropLast_concat]
    simp [hdrop]

/-- **A parallel send.** A message of three fragments or more was sent with success if and only if
each of its fragments was sent and, if it asks for an acknowledgement, acknowledged. Then each
datagram was sent once, the first one before all others and the last one after them. -/
theorem sendTo_parallel (hparallel : c.config.parallel = true) (hworkers : 1 ≤ c.config.workers)
    (hsize : c.config.fragmentSize = .ok size) (hlength : payload.length ≤ maxMessage)
    (hcount : 3 ≤ (plan payload.length size c.config.alwaysAck).length) (dest : Endpoint)
    (msgId : UInt32) (schedule : List Nat) :
    ((c.sendTo dest msgId payload schedule).1 = .ok () ↔
        ∀ f ∈ plan payload.length size c.config.alwaysAck,
          Settled msgId (c.sendTo dest msgId payload schedule).2.log f) ∧
      ((c.sendTo dest msgId payload schedule).1 = .ok () →
        SentOnce (c.sender dest msgId payload) (plan payload.length size c.config.alwaysAck)
          (c.sendTo dest msgId payload schedule).2.log) := by
  obtain ⟨first, interior, last, hplan, hne⟩ := split_of_length hcount
  have hl : payload.length < UInt32.size := Nat.lt_of_le_sub_one (by decide) hlength
  have hn := nodup_plan hl size c.config.alwaysAck
  rw [hplan] at hn
  obtain ⟨hok, hsent⟩ := sendParallel_spec hworkers (c.sender dest msgId payload)
    (t := ⟨c.inbox, []⟩) rfl hne hn schedule
  rw [sendTo_eq_sendParallel hparallel hsize hlength hne hplan, hplan]
  refine ⟨hok, fun h => ?_⟩
  obtain ⟨middle, hperm, hlog⟩ := hsent h
  rw [← hplan]
  exact sentOnce_of_perm hl hplan hperm hlog

/-- Two workers, whose steps are mixed, and a peer that acknowledges every datagram. -/
theorem sendTo_parallel_acknowledged :
    let here : Endpoint := ⟨.v4 0x7f000001, 4000⟩
    let config := { Config.standard with parallel := true, workers := 2, alwaysAck := true }
    let ack : Header := ⟨.ack, 7, 0⟩
    let c : Channel := ⟨.answering fun _ => [ack.encode], here, config, []⟩
    let s := c.sendTo (here.atPort port) 7 (.zeros 6000) [1, 0, 1, 1, 0, 1, 0]
    s.1 = .ok () ∧
      (∀ f ∈ plan 6000 1462 true, Settled 7 s.2.log f) ∧
      SentOnce (c.sender (here.atPort port) 7 (.zeros 6000)) (plan 6000 1462 true) s.2.log := by
  intro here config ack c s
  have hok : s.1 = .ok () := by decide
  have hsize : c.config.fragmentSize = .ok 1462 := by decide
  have hlength : (Payload.zeros 6000).length ≤ maxMessage := by decide
  obtain ⟨hsettled, honce⟩ := sendTo_parallel (c := c) rfl (by decide) hsize hlength (by decide)
    (here.atPort port) 7 [1, 0, 1, 1, 0, 1, 0]
  exact ⟨hok, hsettled.1 hok, honce hok⟩

end Channel

end PacketOffload.Slmp
