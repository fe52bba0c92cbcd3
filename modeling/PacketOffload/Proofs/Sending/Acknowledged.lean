import PacketOffload.Proofs.Sending.InOrder

/-!
# Acknowledged sends

What a send that succeeds tells about the acknowledgements: every fragment that asks for one has
waited and has read one, the last fragment always. The acknowledgement need not name the fragment.
Whatever arrived first is read first, so an acknowledgement that comes late, of an earlier fragment
or of an earlier message, ends the wait of another fragment with success.

A parallel configuration without workers sends the ends of a message only, and only they are
acknowledged.

Main statement: a send that succeeds has read an acknowledgement in each wait
(`acknowledged_of_sendTo`).
-/

namespace PacketOffload.Slmp

variable {s : Sender} {msgId : UInt32} {log : List Event} {f : Fragment}

/-- The wait for a settled fragment that asks for an acknowledgement has read one. -/
theorem Settled.acknowledged (h : Settled msgId log f) (hf : f.needsAck = true) :
    ∃ reply, .replied f reply ∈ log ∧ IsAck reply := by
  obtain ⟨reply, hm, hok⟩ := h.2 hf
  exact ⟨reply, hm, checkReply_eq_ok_iff.1 hok⟩

theorem Settled.prepend (h : Settled msgId log f) (before : List Event) :
    Settled msgId (before ++ log) f :=
  h.mono fun _ he _ => List.mem_append_right before he

/-- A plan ends with a fragment that ends the message and asks for an acknowledgement. -/
theorem last_of_plan {length size : Nat} {alwaysAck : Bool} {last : Fragment}
    (h : (plan length size alwaysAck).getLast? = some last) :
    last.flags.contains .eom = true ∧ last.needsAck = true := by
  have hs : size ≠ 0 := by
    rintro rfl
    cases h
  have hne : plan length size alwaysAck ≠ [] := by
    intro hnil
    rw [hnil] at h
    cases h
  have hpos := List.length_pos_iff.2 hne
  rw [length_plan hs] at hpos
  rw [List.getLast?_eq_getElem?, length_plan hs, getElem?_plan hs, if_pos (by omega)] at h
  obtain rfl := Option.some.inj h
  have hplace : fragmentCount length size - 1 + 1 = fragmentCount length size := by omega
  rw [Fragment.needsAck, planned, contains_eom_plannedFlags, contains_syn_plannedFlags, hplace]
  simp

/-- Fragments that were sent in order with success are settled. -/
theorem settled_of_sendAll (s : Sender) (t : Traffic) (fragments : List Fragment) :
    ∃ events, (s.sendAll t fragments).2.log = t.log ++ events ∧
      ((s.sendAll t fragments).1 = .ok () → ∀ f ∈ fragments, Settled s.msgId events f) := by
  induction fragments generalizing t with
  | nil => exact ⟨[], (List.append_nil _).symm, fun _ f hf => absurd hf List.not_mem_nil⟩
  | cons f rest ih =>
    obtain ⟨events, hlog, -, hiff, -⟩ := sendFragment_spec s t f
    rcases hsend : s.sendFragment t f with ⟨⟨e⟩ | ⟨⟨⟩⟩, t'⟩
    · rw [hsend] at hlog
      simp only [Sender.sendAll, hsend]
      refine ⟨events, hlog, fun hok => ?_⟩
      cases hok
    · obtain ⟨more, hmore, hrest⟩ := ih t'
      rw [hsend] at hlog hiff
      simp only [Sender.sendAll, hsend]
      refine ⟨events ++ more, by rw [hmore, hlog, List.append_assoc], fun hok g hg => ?_⟩
      rcases List.mem_cons.1 hg with rfl | hg
      · exact (hiff.1 rfl).append more
      · exact (hrest hok g hg).prepend events

namespace Channel

variable {c : Channel} {size : Nat} {dest : Endpoint} {payload : Payload} {first last : Fragment}
  {interior : List Fragment} {schedule : List Nat}

/-- The ends of a message that was sent in parallel with success are settled, and with workers all
of it is. -/
theorem settled_of_sendParallel {t : Traffic} (hne : interior ≠ []) (hn : interior.Nodup)
    (hok : (c.sendParallel s t first last interior schedule).1 = .ok ()) :
    Settled s.msgId (c.sendParallel s t first last interior schedule).2.log first ∧
      Settled s.msgId (c.sendParallel s t first last interior schedule).2.log last ∧
      (1 ≤ c.config.workers → ∀ f ∈ interior,
        Settled s.msgId (c.sendParallel s t first last interior schedule).2.log f) := by
  obtain ⟨events₁, hlog₁, -, hiff₁, -⟩ := sendFragment_spec s t first
  unfold sendParallel at hok ⊢
  rcases h₁ : s.sendFragment t first with ⟨⟨e⟩ | ⟨⟨⟩⟩, t₁⟩
  · rw [h₁] at hok
    cases hok
  rcases h₂ : c.sendByWorkers s interior schedule with ⟨⟨e⟩ | ⟨⟨⟩⟩, log₂⟩
  · rw [h₁, h₂] at hok
    cases hok
  rw [h₁] at hlog₁ hiff₁
  obtain ⟨events₃, hlog₃, -, hiff₃, -⟩ :=
    sendFragment_spec s { t₁ with log := t₁.log ++ log₂ } last
  simp only [h₁, h₂] at hok ⊢
  rw [hlog₃, hlog₁]
  refine ⟨?_, (hiff₃.1 hok).prepend _, fun hworkers f hf => ?_⟩
  · exact (((hiff₁.1 rfl).prepend t.log).append log₂).append events₃
  · obtain ⟨hiff₂, -, -⟩ := sendByWorkers_spec hworkers s hne hn schedule
    rw [h₂] at hiff₂
    exact ((hiff₂.1 rfl f hf).prepend _).append events₃

/-- A message that was sent with success is settled; of one that no worker was there to send, the
ends are. -/
theorem settled_of_sendTo (hsize : c.config.fragmentSize = .ok size)
    (hok : (c.sendTo dest msgId payload schedule).1 = .ok ())
    (hf : f ∈ plan payload.length size c.config.alwaysAck)
    (hends : c.config.parallel = true → c.config.workers = 0 →
      f.offset = 0 ∨ f.flags.contains .eom = true) :
    Settled msgId (c.sendTo dest msgId payload schedule).2.log f := by
  have hlength : payload.length ≤ maxMessage := by
    refine Nat.le_of_not_lt fun hlong => ?_
    rw [sendTo, if_pos hlong] at hok
    cases hok
  by_cases hfew :
      c.config.parallel = true → (plan payload.length size c.config.alwaysAck).length < 3
  · obtain ⟨events, hlog, hsettled⟩ := settled_of_sendAll (c.sender dest msgId payload)
      ⟨c.inbox, []⟩ (plan payload.length size c.config.alwaysAck)
    rw [sendTo_eq_sendAll hsize hlength hfew] at hok ⊢
    rw [hlog]
    exact hsettled hok f hf
  · obtain ⟨hparallel, hmany⟩ := Classical.not_imp.1 hfew
    obtain ⟨first, interior, last, hplan, hne⟩ := split_of_length (Nat.le_of_not_lt hmany)
    have hl := lt_of_le_maxMessage hlength
    obtain ⟨hinterior, -⟩ := nodup_interior_of_plan hl hplan
    obtain ⟨-, -, hbetween⟩ := ends_of_plan hl hplan
    rw [hplan] at hf
    rw [sendTo_eq_sendParallel hparallel hsize hlength hne hplan] at hok ⊢
    obtain ⟨hfirst, hlast, hall⟩ := settled_of_sendParallel hne hinterior hok
    rcases List.mem_cons.1 hf with rfl | hf
    · exact hfirst
    rcases List.mem_append.1 hf with hf | hf
    · refine hall (Nat.pos_of_ne_zero fun hnone => ?_) f hf
      obtain ⟨hoffset, heom⟩ := hbetween f hf
      rcases hends hparallel hnone with h | h
      · exact hoffset h
      · rw [h] at heom
        cases heom
    · obtain rfl := List.mem_singleton.1 hf
      exact hlast

/-- **A send that succeeded.** Whatever arrived and whatever the schedule, the wait for each
fragment that asks for an acknowledgement has read one: a header alone with the flag `ack`, of
whichever fragment. The wait for the last fragment always has. Without workers this is said of the
ends of the message alone. -/
theorem acknowledged_of_sendTo (hsize : c.config.fragmentSize = .ok size)
    (hok : (c.sendTo dest msgId payload schedule).1 = .ok ()) :
    (∀ f ∈ plan payload.length size c.config.alwaysAck, f.needsAck = true →
        (c.config.parallel = true → c.config.workers = 0 →
          f.offset = 0 ∨ f.flags.contains .eom = true) →
        ∃ reply, .replied f reply ∈ (c.sendTo dest msgId payload schedule).2.log ∧ IsAck reply) ∧
      ∀ last ∈ (plan payload.length size c.config.alwaysAck).getLast?,
        ∃ reply, .replied last reply ∈ (c.sendTo dest msgId payload schedule).2.log ∧
          IsAck reply := by
  refine ⟨fun f hf hneeds hends => ?_, fun last hlast => ?_⟩
  · exact (settled_of_sendTo hsize hok hf hends).acknowledged hneeds
  · obtain ⟨heom, hneeds⟩ := last_of_plan hlast
    exact (settled_of_sendTo hsize hok (List.mem_of_getLast? hlast)
      fun _ _ => .inr heom).acknowledged hneeds

/-- Four fragments that all ask for acknowledgements, sent by two workers. -/
theorem acknowledged_of_sendTo_workers :
    let here : Endpoint := ⟨.v4 0x7f000001, 4000⟩
    let config := { Config.standard with parallel := true, workers := 2, alwaysAck := true }
    let ack : Header := ⟨.ack, 7, 0⟩
    let c : Channel := ⟨.answering fun _ => [ack.encode], here, config, []⟩
    let s := c.sendTo (here.atPort port) 7 (.zeros 5000) [1, 0, 0, 1]
    s.1 = .ok () ∧ ∀ f ∈ plan 5000 1462 true, f.needsAck = true →
      ∃ reply, .replied f reply ∈ s.2.log ∧ IsAck reply := by
  intro here config ack c s
  have hsize : c.config.fragmentSize = .ok 1462 := by decide
  have hok : s.1 = .ok () := by decide
  obtain ⟨hall, -⟩ := acknowledged_of_sendTo hsize hok
  exact ⟨hok, fun f hf hneeds => hall f hf hneeds fun _ hnone => absurd hnone (by decide)⟩

/-- An acknowledgement of message 3 waits in the inbox; the receiver of message 7 never answers,
and yet the send of message 7 succeeds. -/
theorem late_acknowledgement_accepted :
    let here : Endpoint := ⟨.v4 0x7f000001, 4000⟩
    let late : Header := ⟨.ack, 3, 1462⟩
    let c : Channel := ⟨.answering fun _ => [], here, .standard, [.datagram late.encode]⟩
    let s := c.sendTo (here.atPort port) 7 (.zeros 10) []
    s.1 = .ok () ∧ ∃ f ∈ plan 10 1462 false, f.needsAck = true ∧
      ¬ ∃ reply, .replied f reply ∈ s.2.log ∧ IsAckOf 7 f reply := by
  intro here late c s
  refine ⟨by decide, planned 10 1462 false 0, by decide, by decide, ?_⟩
  rintro ⟨reply, hm, h, rfl, -, hmsg, -⟩
  have hlog : s.2.log =
      [.sent (planned 10 1462 false 0), .replied (planned 10 1462 false 0) late.encode] := by decide
  rw [hlog] at hm
  simp only [List.mem_cons, List.not_mem_nil, or_false, reduceCtorEq, false_or] at hm
  obtain rfl := Header.encode_injective (Event.replied.inj hm).2
  exact absurd hmsg (by decide)

end Channel

end PacketOffload.Slmp
