import PacketOffload.Proofs.Sending.Containment

/-!
# Sends to a peer that acknowledges

No datagram is refused or lost, each fragment that asks for an acknowledgement gets one, and nothing
else arrives. Then every wait reads an acknowledgement, so no worker fails and none stops before the
end of its share. The message arrives whole, whether it is sent in order or by workers.

It takes a worker, though: a parallel configuration with none leaves out the fragments between the
first and the last one, and the send succeeds.

Main statement: when a parallel send delivers what a send in order delivers (`sendTo_alike_iff`).
-/

namespace PacketOffload.Slmp

/-- What arrived is an acknowledgement. -/
def Arrival.Acks (a : Arrival) : Prop := ∃ reply, a = .datagram reply ∧ IsAck reply

/-- The network takes the datagram of a fragment, and acknowledges it if it asks for that. -/
def Sender.Acked (s : Sender) (f : Fragment) : Prop :=
  ∃ answers, s.transmit f = .ok answers ∧ (∀ a ∈ answers, a.Acks) ∧
    (f.needsAck = true → answers ≠ [])

variable {s : Sender} {t : Traffic} {f : Fragment}

/-- A wait reads acknowledgements whole. -/
theorem exists_isAck_of_ne_nil {inbox : List Arrival} (h : ∀ a ∈ inbox, a.Acks)
    (hne : inbox ≠ []) : ∃ reply, readOf inbox = some (.datagram reply) ∧ IsAck reply := by
  obtain ⟨a, rest, rfl⟩ := List.exists_cons_of_ne_nil hne
  obtain ⟨-, rfl, g, rfl, hack⟩ := h a List.mem_cons_self
  have hwhole : g.encode.take replyLimit = g.encode := by
    refine List.take_of_length_le ?_
    rw [g.length_encode]
    decide
  refine ⟨g.encode, ?_, g, rfl, hack⟩
  rw [readOf, List.head?_cons, Option.map_some, Arrival.read, hwhole]

/-! ## In order -/

theorem sendFragment_of_acked (h : s.Acked f) (hinbox : ∀ a ∈ t.inbox, a.Acks) :
    ∃ left events, s.sendFragment t f = (.ok (), ⟨left, t.log ++ events⟩) ∧
      sentFragments events = [f] ∧ ∀ a ∈ left, a.Acks := by
  obtain ⟨answers, hsend, hacks, hne⟩ := h
  have hall : ∀ a ∈ t.inbox ++ answers, a.Acks := List.forall_mem_append.2 ⟨hinbox, hacks⟩
  rcases sendFragment_cases s t hsend with
    ⟨taken, left, events, hsplit, -, -, hsent, -, heq⟩ | ⟨e, hneeds, hrefused, -⟩
  · refine ⟨left, events, heq, hsent, fun a ha => hall a ?_⟩
    rw [hsplit]
    exact List.mem_append_right taken ha
  · obtain ⟨reply, hread, hack⟩ :=
      exists_isAck_of_ne_nil hall (List.append_ne_nil_of_right_ne_nil t.inbox (hne hneeds))
    rw [hread] at hrefused
    exact absurd hack hrefused.not_isAck

theorem sendAll_of_acked {fragments : List Fragment} (h : ∀ f ∈ fragments, s.Acked f)
    (hinbox : ∀ a ∈ t.inbox, a.Acks) :
    (s.sendAll t fragments).1 = .ok () ∧
      sentFragments (s.sendAll t fragments).2.log = sentFragments t.log ++ fragments := by
  induction fragments generalizing t with
  | nil => exact ⟨rfl, (List.append_nil _).symm⟩
  | cons f rest ih =>
    obtain ⟨left, events, heq, hsent, hleft⟩ :=
      sendFragment_of_acked (h f List.mem_cons_self) hinbox
    obtain ⟨hok, hall⟩ := ih (t := ⟨left, t.log ++ events⟩)
      (fun g hg => h g (List.mem_cons_of_mem f hg)) hleft
    simp only [Sender.sendAll, heq]
    refine ⟨hok, ?_⟩
    rw [hall, sentFragments_append, hsent, List.append_assoc, List.singleton_append]

/-! ## By workers -/

/-- A worker whose fragments are acknowledged: it has got acknowledgements only, and where it is
going to wait for one, it has one. -/
structure Worker.Served (s : Sender) (w : Worker) : Prop where
  acked : ∀ f ∈ w.hand, s.Acked f
  inbox : ∀ a ∈ w.inbox, a.Acks
  sent : ∀ f, w.phase = .sent f → f.needsAck = true → w.inbox ≠ []
  waiting : ∀ f, w.phase = .waiting f → w.inbox ≠ []

namespace Worker.Served

variable {w v : Worker} {b c : Bool} {events : List Event}

theorem of_share {share : List Fragment} (h : ∀ f ∈ share, s.Acked f) : (Worker.of share).Served s
    where
  acked := h
  inbox a ha := absurd ha List.not_mem_nil
  sent f hp := by cases hp
  waiting f hp := by cases hp

/-- Every step keeps a worker served. -/
theorem move (h : w.Served s) (hm : Moves s b w v c events) : v.Served s := by
  -- What arrives with the datagram that is sent.
  have hanswers : ∀ {f answers}, f ∈ w.hand → s.transmit f = .ok answers →
      (∀ a ∈ answers, a.Acks) ∧ (f.needsAck = true → answers ≠ []) := by
    intro f answers hf ht
    obtain ⟨given, hsend, hacks⟩ := h.acked f hf
    rw [ht] at hsend
    obtain rfl := Except.ok.inj hsend
    exact hacks
  constructor
  case acked => exact fun f hf => h.acked f (hm.hand_subset f hf)
  case inbox =>
    cases hm with
    | send ht =>
      exact List.forall_mem_append.2 ⟨h.inbox, (hanswers List.mem_cons_self ht).1⟩
    | acked | refused => exact fun a ha => h.inbox a (List.mem_of_mem_drop ha)
    | finish | stop | take | sendFailed | wait | pass | fail | rest => exact h.inbox
  case sent =>
    cases hm with
    | send ht =>
      intro g hp hneeds
      obtain rfl := Phase.sent.inj hp
      exact List.append_ne_nil_of_right_ne_nil _ ((hanswers List.mem_cons_self ht).2 hneeds)
    | finish | stop | take | sendFailed | wait | pass | acked | refused | fail | rest =>
      exact fun g hp => nomatch hp
  case waiting =>
    cases hm with
    | wait hneeds => exact fun g _ => h.sent _ rfl hneeds
    | finish | stop | take | send | sendFailed | pass | acked | refused | fail | rest =>
      exact fun g hp => nomatch hp

theorem not_fails (h : w.Served s) {e : Fault} : ¬ Fails s w e := by
  rintro (⟨hp, ht⟩ | ⟨hp, hrefused⟩)
  · obtain ⟨answers, hsend, -⟩ := h.acked _ (by rw [Worker.hand, hp]; exact List.mem_cons_self)
    rw [ht] at hsend
    cases hsend
  · obtain ⟨reply, hread, hack⟩ := exists_isAck_of_ne_nil h.inbox (h.waiting _ hp)
    rw [hread] at hrefused
    exact hrefused.not_isAck hack

end Worker.Served

/-- No worker of a crew fails whose fragments are acknowledged. -/
theorem Crew.result_of_acked (policy : FailurePolicy) (count : Nat) {fragments : List Fragment}
    (h : ∀ f ∈ fragments, s.Acked f) (schedule : List Nat) :
    ((ofFragments count fragments).run s policy schedule).result = .ok () := by
  rw [result]
  split
  next e he =>
    obtain ⟨v, hv, hfault⟩ := List.exists_of_findSome?_eq_some he
    obtain ⟨i, hi⟩ := List.mem_iff_getElem?.1 hv
    obtain ⟨before, after, -, w, hw, hfails⟩ := failsIn_of_fault? rfl hi hfault
    obtain ⟨u, hu, hserved⟩ := follow_keeps_always s policy (P := fun w _ => w.Served s)
      (fun c w _ hw => hw.move (moves_move s policy c w)) (start_of_follow hw)
      (.of_share fun f hf => h f (mem_of_mem_share hf)) before
    obtain rfl : w = u := Option.some.inj (hw.symm.trans hu)
    exact absurd hfails hserved.not_fails
  next => rfl

/-- Without workers nothing happens. -/
theorem Crew.events_of_no_worker (s : Sender) (policy : FailurePolicy) {fragments : List Fragment}
    (hn : fragments.Nodup) (turns : List Nat) :
    ((ofFragments 0 fragments).follow s policy turns).events = [] := by
  refine List.eq_nil_iff_forall_not_mem.2 fun e he => ?_
  obtain ⟨i, hi, -⟩ := (sound_follow s policy 0 hn turns).shared e he
  rw [length_follow, length_ofFragments] at hi
  exact absurd hi (Nat.not_lt_zero i)

/-! ## A peer -/

/-- A network with a peer that acknowledges every datagram that asks for it. -/
def Network.acknowledging : Network :=
  .answering fun datagram =>
    match Header.decode datagram with
    | .ok h => if h.flags.contains .syn then [Header.encode ⟨.ack, h.msgId, h.offset⟩] else []
    | .error _ => []

theorem acked_of_acknowledging (hpeer : s.network = .acknowledging)
    (hroute : Network.refusal? s.here s.dest = none) (f : Fragment) : s.Acked f := by
  have hdecode : Header.decode (s.datagram f) = .ok (f.header s.msgId) :=
    Header.decode_encode_append _ _
  have hsend : s.transmit f =
      .ok (if f.needsAck then [.datagram (Header.encode ⟨.ack, s.msgId, f.offset⟩)] else []) := by
    have hasks : (f.header s.msgId).flags.contains .syn = f.needsAck := rfl
    simp only [Sender.transmit, hpeer, Network.acknowledging, Network.answering, hroute, hdecode,
      hasks]
    split <;> rfl
  refine ⟨_, hsend, fun a ha => ?_, fun hneeds => ?_⟩
  · have hack : Flags.ack.contains .ack = true := by decide
    split at ha
    · exact ⟨_, List.mem_singleton.1 ha, _, rfl, hack⟩
    · cases ha
  · rw [if_pos hneeds]
    exact List.cons_ne_nil _ _

/-! ## Whole messages -/

namespace Channel

/-- The channel with another choice between sending in order and by workers. -/
def withParallel (c : Channel) (parallel : Bool) : Channel :=
  { c with config := { c.config with parallel } }

@[simp] theorem workers_withParallel (c : Channel) (parallel : Bool) :
    (c.withParallel parallel).config.workers = c.config.workers := rfl

/-- Nothing goes wrong with a message: whoever sends a fragment of it, it arrives and is
acknowledged if it asks for that. -/
structure Obliging (c : Channel) (s : Sender) (fragments : List Fragment) : Prop where
  bound : c.network.bind (c.here.atPort 0) = .ok ()
  delivers : s.network.delivers = true
  inbox : ∀ a ∈ c.inbox, a.Acks
  acked : ∀ f ∈ fragments, s.Acked f
  byWorkers : ∀ f ∈ fragments, (c.workerSender s).Acked f

variable {c : Channel} {size : Nat} {dest : Endpoint} {msgId : UInt32} {payload : Payload}
  {first last : Fragment} {interior : List Fragment}

theorem sendByWorkers_of_acked (hbind : c.network.bind (c.here.atPort 0) = .ok ())
    {fragments : List Fragment} (hne : fragments ≠ []) (hn : fragments.Nodup)
    (h : ∀ f ∈ fragments, (c.workerSender s).Acked f) (schedule : List Nat) :
    (c.sendByWorkers s fragments schedule).1 = .ok () ∧
      (sentFragments (c.sendByWorkers s fragments schedule).2).Perm
        (if c.config.workers = 0 then [] else fragments) := by
  have hok : (c.sendByWorkers s fragments schedule).1 = .ok () := by
    rw [sendByWorkers_eq hbind]
    exact Crew.result_of_acked c.config.policy _ h schedule
  refine ⟨hok, ?_⟩
  split
  next hnone =>
    have hcrew : c.crew fragments = .ofFragments 0 fragments := by
      rw [crew, hnone, Nat.zero_min]
    rw [sendByWorkers_eq hbind, hcrew, Crew.run_eq_follow,
      Crew.events_of_no_worker (c.workerSender s) c.config.policy hn]
    exact .nil
  next hsome =>
    obtain ⟨-, hperm, -⟩ := sendByWorkers_spec (Nat.pos_of_ne_zero hsome) s hne hn schedule
    exact hperm hok

/-- All fragments are sent, if there is a worker; the ends anyway. -/
theorem sendParallel_of_acked (hpeer : c.Obliging s (first :: (interior ++ [last])))
    (hinbox : ∀ a ∈ t.inbox, a.Acks) (hne : interior ≠ []) (hn : interior.Nodup)
    (schedule : List Nat) :
    (c.sendParallel s t first last interior schedule).1 = .ok () ∧
      ∃ middle, middle.Perm (if c.config.workers = 0 then [] else interior) ∧
        sentFragments (c.sendParallel s t first last interior schedule).2.log =
          sentFragments t.log ++ first :: (middle ++ [last]) := by
  obtain ⟨left, events, hbegun, hfirst, hleft⟩ :=
    sendFragment_of_acked (hpeer.acked first List.mem_cons_self) hinbox
  obtain ⟨hok, hperm⟩ := sendByWorkers_of_acked (s := s) hpeer.bound hne hn
    (fun f hf => hpeer.byWorkers f (by simp [hf])) schedule
  rcases hbetween : c.sendByWorkers s interior schedule with ⟨result, log⟩
  rw [hbetween] at hok hperm
  obtain rfl : result = .ok () := hok
  obtain ⟨left', events', hend, hlast, -⟩ :=
    sendFragment_of_acked (s := s) (t := ⟨left, t.log ++ events ++ log⟩)
      (hpeer.acked last (by simp)) hleft
  simp only [sendParallel, hbegun, hbetween, hend]
  refine ⟨trivial, _, hperm, ?_⟩
  simp only [sentFragments_append, hfirst, hlast, List.append_assoc, List.cons_append,
    List.nil_append]

/-- A peer that acknowledges is obliging. -/
theorem obliging_of_acknowledging (hpeer : c.network = .acknowledging) (hinbox : c.inbox = [])
    (hroute : Network.refusal? c.here dest = none)
    (hroute' : Network.refusal? (c.here.atPort 0) dest = none) (fragments : List Fragment) :
    c.Obliging (c.sender dest msgId payload) fragments where
  bound := by
    rw [hpeer]
    rfl
  delivers := by
    rw [sender, hpeer]
    rfl
  inbox a ha := by
    rw [hinbox] at ha
    cases ha
  acked f _ := acked_of_acknowledging hpeer hroute f
  byWorkers f _ := acked_of_acknowledging hpeer hroute' f

section Obliged

variable (hsize : c.config.fragmentSize = .ok size) (hlength : payload.length ≤ maxMessage)
  (hpeer : c.Obliging (c.sender dest msgId payload) (plan payload.length size c.config.alwaysAck))
include hsize hlength hpeer

theorem sendTo_of_acked_in_order
    (hfew : c.config.parallel = true → (plan payload.length size c.config.alwaysAck).length < 3)
    (schedule : List Nat) :
    (c.sendTo dest msgId payload schedule).1 = .ok () ∧
      sentFragments (c.sendTo dest msgId payload schedule).2.log =
        plan payload.length size c.config.alwaysAck := by
  rw [sendTo_eq_sendAll hsize hlength hfew]
  exact sendAll_of_acked hpeer.acked hpeer.inbox

theorem sendTo_of_acked_by_workers (hparallel : c.config.parallel = true) (hne : interior ≠ [])
    (hplan : plan payload.length size c.config.alwaysAck = first :: (interior ++ [last]))
    (schedule : List Nat) :
    (c.sendTo dest msgId payload schedule).1 = .ok () ∧
      ∃ middle, middle.Perm (if c.config.workers = 0 then [] else interior) ∧
        sentFragments (c.sendTo dest msgId payload schedule).2.log =
          first :: (middle ++ [last]) := by
  obtain ⟨hinterior, -⟩ := nodup_interior_of_plan (lt_of_le_maxMessage hlength) hplan
  rw [hplan] at hpeer
  rw [sendTo_eq_sendParallel hparallel hsize hlength hne hplan]
  exact sendParallel_of_acked hpeer hpeer.inbox hne hinterior schedule

end Obliged

/-- **The same by workers as in order.** If nothing goes wrong, a message is sent with success in
both ways, and in order it arrives whole. By workers the same datagrams arrive if and only if there
is a worker, or nothing for it to send. -/
theorem sendTo_alike_iff (hsize : c.config.fragmentSize = .ok size)
    (hlength : payload.length ≤ maxMessage)
    (hpeer : c.Obliging (c.sender dest msgId payload)
      (plan payload.length size c.config.alwaysAck)) (schedule : List Nat) :
    let s := c.sender dest msgId payload
    let fragments := plan payload.length size c.config.alwaysAck
    let inOrder := (c.withParallel false).sendTo dest msgId payload schedule
    let byWorkers := (c.withParallel true).sendTo dest msgId payload schedule
    inOrder.1 = .ok () ∧ byWorkers.1 = .ok () ∧
      s.arrived inOrder.2.log = fragments.map s.datagram ∧
      ((s.arrived byWorkers.2.log).Perm (s.arrived inOrder.2.log) ↔
        c.config.workers ≠ 0 ∨ fragments.length < 3) := by
  intro s fragments inOrder byWorkers
  have hserved : ∀ parallel, (c.withParallel parallel).Obliging s fragments := fun _ =>
    ⟨hpeer.bound, hpeer.delivers, hpeer.inbox, hpeer.acked, hpeer.byWorkers⟩
  have harrived : ∀ log, s.arrived log = (sentFragments log).map s.datagram := fun log => by
    rw [Sender.arrived, if_pos hpeer.delivers]
  obtain ⟨hok, hsent⟩ := sendTo_of_acked_in_order (c := c.withParallel false) hsize hlength
    (hserved false) nofun schedule
  have hwhole : s.arrived inOrder.2.log = fragments.map s.datagram :=
    (harrived _).trans (congrArg (List.map s.datagram) hsent)
  rw [hwhole, harrived]
  by_cases hfew : fragments.length < 3
  · obtain ⟨hok', hsent'⟩ := sendTo_of_acked_in_order (c := c.withParallel true) hsize hlength
      (hserved true) (fun _ => hfew) schedule
    refine ⟨hok, hok', rfl, iff_of_true ?_ (.inr hfew)⟩
    exact .of_eq (congrArg (List.map s.datagram) hsent')
  · obtain ⟨first, interior, last, hplan, hne⟩ := split_of_length (Nat.le_of_not_lt hfew)
    obtain ⟨hok', middle, hperm, hsent'⟩ := sendTo_of_acked_by_workers (c := c.withParallel true)
      hsize hlength (hserved true) rfl hne hplan schedule
    refine ⟨hok, hok', rfl, fun hall => .inl fun hnone => ?_, fun hworkers => ?_⟩
    · -- Without workers the two ends arrive, and the message is longer.
      have hmiddle : middle.Perm [] := by
        rw [workers_withParallel, if_pos hnone] at hperm
        exact hperm
      have hcount := hall.length_eq
      rw [hsent', hmiddle.eq_nil, List.length_map, List.length_map] at hcount
      exact hfew (hcount ▸ (by decide : 2 < 3))
    · have hsome : c.config.workers ≠ 0 := hworkers.resolve_right hfew
      rw [hsent', hplan]
      refine List.Perm.map s.datagram (.cons first (.append_right [last] ?_))
      rw [workers_withParallel, if_neg hsome] at hperm
      exact hperm

/-- Two workers and two fragments between the ends. -/
theorem sendTo_alike_two_workers :
    let here : Endpoint := ⟨.v4 0x7f000001, 4000⟩
    let config := { Config.standard with workers := 2, alwaysAck := true }
    let c : Channel := ⟨.acknowledging, here, config, []⟩
    let s := c.sender (here.atPort port) 7 (.zeros 5000)
    let inOrder := (c.withParallel false).sendTo (here.atPort port) 7 (.zeros 5000) [1, 0, 1]
    let byWorkers := (c.withParallel true).sendTo (here.atPort port) 7 (.zeros 5000) [1, 0, 1]
    c.Obliging s (plan 5000 1462 true) ∧ inOrder.1 = .ok () ∧ byWorkers.1 = .ok () ∧
      s.arrived inOrder.2.log = (plan 5000 1462 true).map s.datagram ∧
      (s.arrived byWorkers.2.log).Perm (s.arrived inOrder.2.log) := by
  intro here config c s inOrder byWorkers
  have hsize : c.config.fragmentSize = .ok 1462 := by decide
  have hlength : (Payload.zeros 5000).length ≤ maxMessage := by decide
  have hpeer : c.Obliging s (plan 5000 1462 true) :=
    obliging_of_acknowledging rfl rfl (by decide) (by decide) _
  obtain ⟨hok, hok', hwhole, hiff⟩ := sendTo_alike_iff hsize hlength hpeer [1, 0, 1]
  exact ⟨hpeer, hok, hok', hwhole, hiff.2 (.inl (by decide))⟩

/-- In parallel without workers, a message of four fragments is sent with success and arrives as
two; the same message in order arrives as four. -/
theorem sendTo_without_workers_incomplete :
    let here : Endpoint := ⟨.v4 0x7f000001, 4000⟩
    let config := { Config.standard with parallel := true, workers := 0 }
    let c : Channel := ⟨.acknowledging, here, config, []⟩
    let s := c.sender (here.atPort port) 7 (.zeros 5000)
    let inOrder := (c.withParallel false).sendTo (here.atPort port) 7 (.zeros 5000) []
    let byWorkers := c.sendTo (here.atPort port) 7 (.zeros 5000) []
    c.Obliging s (plan 5000 1462 false) ∧ inOrder.1 = .ok () ∧ byWorkers.1 = .ok () ∧
      sentFragments byWorkers.2.log = [0, 3].map (planned 5000 1462 false) ∧
      ¬ (s.arrived byWorkers.2.log).Perm (s.arrived inOrder.2.log) := by
  intro here config c s inOrder byWorkers
  have hsize : c.config.fragmentSize = .ok 1462 := by decide
  have hlength : (Payload.zeros 5000).length ≤ maxMessage := by decide
  have hpeer : c.Obliging s (plan 5000 1462 false) :=
    obliging_of_acknowledging rfl rfl (by decide) (by decide) _
  obtain ⟨hok, hsent⟩ := sendTo_of_acked_in_order (c := c.withParallel false) hsize hlength
    ⟨hpeer.bound, hpeer.delivers, hpeer.inbox, hpeer.acked, hpeer.byWorkers⟩ nofun []
  have hplan : plan 5000 1462 false = planned 5000 1462 false 0 ::
      ([1, 2].map (planned 5000 1462 false) ++ [planned 5000 1462 false 3]) := by decide
  obtain ⟨hok', middle, hperm, hsent'⟩ :=
    sendTo_of_acked_by_workers hsize hlength hpeer rfl (by decide) hplan []
  obtain rfl : middle = [] := List.Perm.eq_nil hperm
  refine ⟨hpeer, hok, hok', hsent', fun hall => ?_⟩
  have hcount : (sentFragments byWorkers.2.log).length = (sentFragments inOrder.2.log).length := by
    simpa [Sender.arrived, hpeer.delivers] using hall.length_eq
  rw [hsent, hsent'] at hcount
  exact absurd hcount (by decide)

end Channel

end PacketOffload.Slmp
