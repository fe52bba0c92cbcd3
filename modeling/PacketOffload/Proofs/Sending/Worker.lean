import PacketOffload.Slmp.Workers

/-!
# One worker

A worker goes through its share fragment after fragment. As long as no worker has failed, all that
lies behind it is settled, which means sent and acknowledged if it asks for that, and nothing
happened yet to what lies ahead of it.

Main statements: what a step can be (`moves_move`), and that a step of the worker keeps it where it
stands in its share (`Progress.move`).
-/

namespace PacketOffload.Slmp

/-! ## Fragments in a log -/

/-- The fragment that an event is about. -/
def Event.fragment : Event → Fragment
  | .sent f | .replied f _ | .timedOut f | .unread f _ => f

/-- A fragment was sent and, if it asks for it, a wait for its acknowledgement succeeded. -/
def Settled (msgId : UInt32) (log : List Event) (f : Fragment) : Prop :=
  .sent f ∈ log ∧ (f.needsAck = true →
    ∃ reply, .replied f reply ∈ log ∧ checkReply msgId f.offset reply = .ok ())

/-- Nothing happened to a fragment. -/
def Untouched (log : List Event) (f : Fragment) : Prop := ∀ e ∈ log, e.fragment ≠ f

variable {msgId : UInt32} {log more : List Event} {f g : Fragment}

theorem sentFragments_append (log more : List Event) :
    sentFragments (log ++ more) = sentFragments log ++ sentFragments more :=
  List.filterMap_append

theorem mem_sentFragments : f ∈ sentFragments log ↔ .sent f ∈ log := by
  simp only [sentFragments, List.mem_filterMap]
  constructor
  · rintro ⟨e, he, hf⟩
    cases e with
    | sent k => obtain rfl := Option.some.inj hf; exact he
    | replied | timedOut | unread => cases hf
  · intro hm
    exact ⟨.sent f, hm, rfl⟩

/-- A wait sends nothing. -/
theorem sentFragments_await (msgId : UInt32) (f : Fragment) (inbox : List Arrival) :
    sentFragments [(await msgId f inbox).event] = [] := by
  match inbox with
  | [] | .datagram bytes :: rest | .fault error :: rest => rfl

theorem sentFragments_sent_await (msgId : UInt32) (f : Fragment) (inbox : List Arrival) :
    sentFragments [.sent f, (await msgId f inbox).event] = [f] :=
  congrArg (f :: ·) (sentFragments_await msgId f inbox)

theorem fragment_await (msgId : UInt32) (f : Fragment) (inbox : List Arrival) :
    (await msgId f inbox).event.fragment = f := by
  match inbox with
  | [] | .datagram bytes :: rest | .fault error :: rest => rfl

/-- Whether a wait succeeded, its event tells. -/
theorem result_await_eq_ok_iff_event (msgId : UInt32) (f : Fragment) (inbox : List Arrival) :
    (await msgId f inbox).result = .ok () ↔
      ∃ reply, (await msgId f inbox).event = .replied f reply ∧
        checkReply msgId f.offset reply = .ok () := by
  match inbox with
  | [] => simp [await]
  | .datagram bytes :: rest => simp [await]
  | .fault error :: rest => simp [await]

theorem untouched_nil (f : Fragment) : Untouched [] f := fun _ he => absurd he List.not_mem_nil

theorem untouched_append : Untouched (log ++ more) f ↔ Untouched log f ∧ Untouched more f :=
  List.forall_mem_append

theorem untouched_singleton {e : Event} : Untouched [e] f ↔ e.fragment ≠ f :=
  List.forall_mem_singleton

theorem Untouched.not_settled (h : Untouched log f) : ¬ Settled msgId log f :=
  fun hs => h (.sent f) hs.1 rfl

/-- Whether a fragment is settled, its own events tell. -/
theorem Settled.mono (h : Settled msgId log f) (hm : ∀ e ∈ log, e.fragment = f → e ∈ more) :
    Settled msgId more f := by
  obtain ⟨hsent, hack⟩ := h
  refine ⟨hm _ hsent rfl, fun hf => ?_⟩
  obtain ⟨reply, hreply, hok⟩ := hack hf
  exact ⟨reply, hm _ hreply rfl, hok⟩

theorem Settled.append (h : Settled msgId log f) (more : List Event) :
    Settled msgId (log ++ more) f :=
  h.mono fun _ he _ => List.mem_append_left more he

theorem settled_append_left (h : Untouched more f) :
    Settled msgId (log ++ more) f ↔ Settled msgId log f := by
  refine ⟨fun hs => hs.mono fun e he hf => ?_, fun hs => hs.append more⟩
  rcases List.mem_append.1 he with he | he
  · exact he
  · exact absurd hf (h e he)

theorem settled_append_right (h : Untouched log f) :
    Settled msgId (log ++ more) f ↔ Settled msgId more f := by
  refine ⟨fun hs => hs.mono fun e he hf => ?_,
    fun hs => hs.mono fun e he _ => List.mem_append_right log he⟩
  rcases List.mem_append.1 he with he | he
  · exact absurd hf (h e he)
  · exact he

/-! ## Steps -/

/-- What a step of a worker can be: the flag before it, the worker before and after it, the flag
after it, and what happened. -/
inductive Moves (s : Sender) : Bool → Worker → Worker → Bool → List Event → Prop
  | finish {c inbox} : Moves s c ⟨[], .ready, inbox⟩ ⟨[], .done none, inbox⟩ c []
  | stop {f todo inbox} :
    Moves s true ⟨f :: todo, .ready, inbox⟩ ⟨f :: todo, .done none, inbox⟩ true []
  | take {f todo inbox} :
    Moves s false ⟨f :: todo, .ready, inbox⟩ ⟨todo, .sending f, inbox⟩ false []
  | send {c f todo inbox answers} (h : s.transmit f = .ok answers) :
    Moves s c ⟨todo, .sending f, inbox⟩ ⟨todo, .sent f, inbox ++ answers⟩ c [.sent f]
  | sendFailed {c f todo inbox e} (h : s.transmit f = .error e) :
    Moves s c ⟨todo, .sending f, inbox⟩ ⟨todo, .failing e, inbox⟩ c []
  | wait {c f todo inbox} (h : f.needsAck = true) :
    Moves s c ⟨todo, .sent f, inbox⟩ ⟨todo, .waiting f, inbox⟩ c []
  /-- Nobody waits for an acknowledgement that is not asked for, or after a failure. -/
  | pass {c f todo inbox} (h : c = false → f.needsAck = false) :
    Moves s c ⟨todo, .sent f, inbox⟩ ⟨todo, .ready, inbox⟩ c []
  | acked {c f todo inbox} (h : (await s.msgId f inbox).result = .ok ()) :
    Moves s c ⟨todo, .waiting f, inbox⟩ ⟨todo, .ready, inbox.drop 1⟩ c
      [(await s.msgId f inbox).event]
  | refused {c f todo inbox e} (h : (await s.msgId f inbox).result = .error e) :
    Moves s c ⟨todo, .waiting f, inbox⟩ ⟨todo, .failing e, inbox.drop 1⟩ c
      [(await s.msgId f inbox).event]
  | fail {c e todo inbox} :
    Moves s c ⟨todo, .failing e, inbox⟩ ⟨todo, .done (some e), inbox⟩ true []
  | rest {c fault todo inbox} :
    Moves s c ⟨todo, .done fault, inbox⟩ ⟨todo, .done fault, inbox⟩ c []

/-- A step is one of these. -/
theorem moves_move (s : Sender) (policy : FailurePolicy) (c : Bool) (w : Worker) :
    Moves s c w (Crew.move s policy c w).1 (Crew.move s policy c w).2.1
      (Crew.move s policy c w).2.2 := by
  obtain ⟨todo, phase, inbox⟩ := w
  cases phase with
  | ready =>
    cases todo with
    | nil => exact .finish
    | cons f todo =>
      cases c with
      | true => exact .stop
      | false => exact .take
  | sending f =>
    simp only [Crew.move]
    cases h : s.transmit f with
    | ok answers => exact .send h
    | error e => exact .sendFailed h
  | sent f =>
    simp only [Crew.move]
    split
    next hwait =>
      rw [Bool.and_eq_true] at hwait
      exact .wait hwait.1
    next hpass =>
      refine .pass ?_
      rintro rfl
      simpa using hpass
  | waiting f =>
    simp only [Crew.move, inbox_await]
    cases h : (await s.msgId f inbox).result with
    | ok => exact .acked h
    | error e => exact .refused h
  | failing e => exact .fail
  | done fault => exact .rest

/-! ## Progress -/

namespace Worker

/-- The fragments that a worker may still do something to. -/
def hand (w : Worker) : List Fragment :=
  match w.phase with
  | .sending f | .sent f | .waiting f => f :: w.todo
  | .ready | .failing _ | .done _ => w.todo

/-- A share in two parts: what is settled, and what nothing happened to. -/
def Cut (msgId : UInt32) (log : List Event) (share rest : List Fragment) : Prop :=
  ∃ begun, share = begun ++ rest ∧ (∀ g ∈ begun, Settled msgId log g) ∧ ∀ g ∈ rest, Untouched log g

/-- A share with one fragment between the two parts, which was sent and for which nobody waited. -/
def Open (msgId : UInt32) (log : List Event) (share : List Fragment) (f : Fragment)
    (rest : List Fragment) : Prop :=
  ∃ begun, share = begun ++ f :: rest ∧ (∀ g ∈ begun, Settled msgId log g) ∧
    (∀ g ∈ rest, Untouched log g) ∧ .sent f ∈ log ∧ ∀ reply, .replied f reply ∉ log

/-- Where a worker stands in its share, as long as no worker has set the flag. -/
def Progress (msgId : UInt32) (log : List Event) (share : List Fragment) (w : Worker) : Prop :=
  match w.phase with
  | .ready => Cut msgId log share w.todo
  | .sending f => Cut msgId log share (f :: w.todo)
  | .sent f => Open msgId log share f w.todo
  | .waiting f => f.needsAck = true ∧ Open msgId log share f w.todo
  | .failing _ | .done (some _) => ∃ f ∈ share, ¬ Settled msgId log f
  | .done none => ∀ f ∈ share, Settled msgId log f

variable {share rest : List Fragment}

theorem Cut.append (h : Cut msgId log share rest) (hmore : ∀ g ∈ share, Untouched more g) :
    Cut msgId (log ++ more) share rest := by
  obtain ⟨begun, rfl, hbegun, hrest⟩ := h
  refine ⟨begun, rfl, fun g hg => (hbegun g hg).append more, fun g hg => ?_⟩
  exact untouched_append.2 ⟨hrest g hg, hmore g (List.mem_append_right begun hg)⟩

theorem Open.append (h : Open msgId log share f rest) (hmore : ∀ g ∈ share, Untouched more g) :
    Open msgId (log ++ more) share f rest := by
  obtain ⟨begun, rfl, hbegun, hrest, hsent, hopen⟩ := h
  refine ⟨begun, rfl, fun g hg => (hbegun g hg).append more, fun g hg => ?_,
    List.mem_append_left more hsent, fun reply hm => ?_⟩
  · exact untouched_append.2 ⟨hrest g hg, hmore g (by simp [hg])⟩
  · rcases List.mem_append.1 hm with hm | hm
    · exact hopen reply hm
    · exact hmore f (by simp) _ hm rfl

/-- What happens to fragments of others leaves a worker where it stands. -/
theorem Progress.append {w : Worker} (h : w.Progress msgId log share)
    (hmore : ∀ g ∈ share, Untouched more g) : w.Progress msgId (log ++ more) share := by
  have hfailed : (∃ g ∈ share, ¬ Settled msgId log g) →
      ∃ g ∈ share, ¬ Settled msgId (log ++ more) g := by
    rintro ⟨g, hg, hns⟩
    exact ⟨g, hg, fun hs => hns ((settled_append_left (hmore g hg)).1 hs)⟩
  obtain ⟨todo, phase, inbox⟩ := w
  cases phase with
  | ready => exact Cut.append h hmore
  | sending f => exact Cut.append h hmore
  | sent f => exact Open.append h hmore
  | waiting f => exact ⟨h.1, Open.append h.2 hmore⟩
  | failing e => exact hfailed h
  | done fault =>
    cases fault with
    | none => exact fun g hg => (h g hg).append more
    | some e => exact hfailed h

/-- The fragment at the cut is sent. -/
theorem Cut.send (hn : share.Nodup) (h : Cut msgId log share (f :: rest)) :
    Open msgId (log ++ [.sent f]) share f rest := by
  obtain ⟨begun, rfl, hbegun, hrest⟩ := h
  obtain ⟨hf, -⟩ := List.nodup_cons.1 (List.nodup_append.1 hn).2.1
  refine ⟨begun, rfl, fun g hg => (hbegun g hg).append _, fun g hg => ?_,
    List.mem_append_right log List.mem_cons_self, fun reply hm => ?_⟩
  · refine untouched_append.2 ⟨hrest g (List.mem_cons_of_mem f hg), untouched_singleton.2 ?_⟩
    rintro rfl
    exact hf hg
  · rcases List.mem_append.1 hm with hm | hm
    · exact hrest f List.mem_cons_self _ hm rfl
    · cases List.mem_singleton.1 hm

/-- The open fragment is settled by what happens next. -/
theorem Open.close (hn : share.Nodup) (h : Open msgId log share f rest)
    (hmore : ∀ e ∈ more, e.fragment = f) (hs : Settled msgId (log ++ more) f) :
    Cut msgId (log ++ more) share rest := by
  obtain ⟨begun, rfl, hbegun, hrest, -, -⟩ := h
  obtain ⟨hf, -⟩ := List.nodup_cons.1 (List.nodup_append.1 hn).2.1
  refine ⟨begun ++ [f], by simp, ?_, fun g hg => untouched_append.2 ⟨hrest g hg, ?_⟩⟩
  · intro g hg
    rcases List.mem_append.1 hg with hg | hg
    · exact (hbegun g hg).append more
    · obtain rfl := List.mem_singleton.1 hg
      exact hs
  · rintro e he rfl
    rw [hmore e he] at hg
    exact hf hg

/-- A wait that failed leaves its fragment unsettled. -/
theorem Open.not_settled {e : Event} (h : Open msgId log share f rest) (hf : f.needsAck = true)
    (he : ∀ reply, e = .replied f reply → checkReply msgId f.offset reply ≠ .ok ()) :
    ∃ g ∈ share, ¬ Settled msgId (log ++ [e]) g := by
  obtain ⟨begun, rfl, -, -, -, hopen⟩ := h
  refine ⟨f, by simp, ?_⟩
  rintro ⟨-, hack⟩
  obtain ⟨reply, hm, hok⟩ := hack hf
  rcases List.mem_append.1 hm with hm | hm
  · exact hopen reply hm
  · exact he reply (List.mem_singleton.1 hm).symm hok

/-- A step with the flag not set before it keeps a worker where it stands. -/
theorem Progress.move {s : Sender} {w v : Worker} {c : Bool} {events : List Event}
    (hn : share.Nodup) (hm : Moves s false w v c events) (h : w.Progress s.msgId log share) :
    v.Progress s.msgId (log ++ events) share := by
  cases hm with
  | finish =>
    obtain ⟨begun, rfl, hbegun, -⟩ := h
    intro g hg
    rw [List.append_nil] at hg ⊢
    exact hbegun g hg
  | take =>
    rw [List.append_nil]
    exact h
  | send ht => exact Cut.send hn h
  | sendFailed ht =>
    obtain ⟨begun, rfl, -, hrest⟩ := h
    rw [List.append_nil]
    exact ⟨_, by simp, (hrest _ List.mem_cons_self).not_settled⟩
  | wait hf =>
    rw [List.append_nil]
    exact ⟨hf, h⟩
  | pass hf =>
    have hsent := h
    obtain ⟨-, -, -, -, hsent, -⟩ := hsent
    refine Open.close hn h (fun e he => absurd he List.not_mem_nil) ?_
    rw [List.append_nil]
    refine ⟨hsent, fun hack => ?_⟩
    rw [hf rfl] at hack
    cases hack
  | acked hok =>
    obtain ⟨hf, hopen⟩ := h
    have hsent := hopen
    obtain ⟨-, -, -, -, hsent, -⟩ := hsent
    obtain ⟨reply, hreply, hcheck⟩ := (result_await_eq_ok_iff_event _ _ _).1 hok
    refine Open.close hn hopen (fun e he => ?_) ⟨List.mem_append_left _ hsent, fun _ => ?_⟩
    · obtain rfl := List.mem_singleton.1 he
      exact fragment_await _ _ _
    · exact ⟨reply, List.mem_append_right log (List.mem_singleton.2 hreply.symm), hcheck⟩
  | refused herr =>
    obtain ⟨hf, hopen⟩ := h
    refine hopen.not_settled hf ?_
    rintro reply hreply hcheck
    rw [(result_await_eq_ok_iff_event _ _ _).2 ⟨reply, hreply, hcheck⟩] at herr
    cases herr
  | fail =>
    rw [List.append_nil]
    exact h
  | rest =>
    rw [List.append_nil]
    exact h

/-- A step sends at most one fragment, to which nothing happened before. -/
theorem Progress.nodup_move {s : Sender} {w v : Worker} {c : Bool} {events : List Event}
    (hm : Moves s false w v c events) (h : w.Progress s.msgId log share)
    (hn : (sentFragments log).Nodup) : (sentFragments (log ++ events)).Nodup := by
  have hnone : sentFragments events = [] → (sentFragments (log ++ events)).Nodup := by
    intro he
    rw [sentFragments_append, he, List.append_nil]
    exact hn
  cases hm with
  | send ht =>
    obtain ⟨begun, -, -, hrest⟩ := h
    rw [sentFragments_append]
    refine List.nodup_append.2 ⟨hn, List.pairwise_singleton _ _, ?_⟩
    rintro g hg k hk rfl
    obtain rfl := List.mem_singleton.1 hk
    exact hrest g List.mem_cons_self _ (mem_sentFragments.1 hg) rfl
  | acked | refused => exact hnone (sentFragments_await _ _ _)
  | finish | take | sendFailed | wait | pass | fail | rest => exact hnone rfl

end Worker

/-! ## What a step touches -/

namespace Moves

variable {s : Sender} {w v : Worker} {b c : Bool} {events : List Event}

theorem hand_subset (h : Moves s b w v c events) : ∀ f ∈ v.hand, f ∈ w.hand := by
  cases h with
  | pass | acked | refused | sendFailed => exact fun f hf => List.mem_cons_of_mem _ hf
  | finish | stop | take | send | wait | fail | rest => exact fun f hf => hf

theorem fragment_mem_hand (h : Moves s b w v c events) :
    ∀ e ∈ events, e.fragment ∈ w.hand := by
  cases h with
  | send =>
    intro e he
    obtain rfl := List.mem_singleton.1 he
    exact List.mem_cons_self
  | acked | refused =>
    intro e he
    obtain rfl := List.mem_singleton.1 he
    rw [fragment_await]
    exact List.mem_cons_self
  | finish | stop | take | sendFailed | wait | pass | fail | rest =>
    exact fun e he => absurd he List.not_mem_nil

/-- The flag is set by a worker that has failed. -/
theorem flag_set (h : Moves s b w v c events) (hb : b = false) (hc : c = true) :
    ∃ e, w.phase = .failing e ∧ v.phase = .done (some e) ∧ events = [] := by
  cases h with
  | fail => exact ⟨_, rfl, rfl, rfl⟩
  | stop => cases hb
  | take => cases hc
  | finish | send | sendFailed | wait | pass | acked | refused | rest =>
    rw [hb] at hc
    cases hc

theorem flag_kept (h : Moves s b w v c events) (hb : b = true) : c = true := by
  cases h with
  | take => exact hb
  | fail => rfl
  | finish | stop | send | sendFailed | wait | pass | acked | refused | rest => exact hb

/-- A worker ends with a fault once it has set the flag, and does nothing afterwards. -/
theorem of_done {e : Fault} (h : Moves s b w v c events) (hv : v.phase = .done (some e)) :
    c = true ∨ v = w ∧ c = b := by
  cases h with
  | fail => exact Or.inl rfl
  | rest => exact Or.inr ⟨rfl, rfl⟩
  | finish | stop | take | send | sendFailed | wait | pass | acked | refused => cases hv

theorem of_rest {fault : Option Fault} (h : Moves s b w v c events) (hw : w.phase = .done fault) :
    v = w ∧ c = b ∧ events = [] := by
  cases h with
  | rest => exact ⟨rfl, rfl, rfl⟩
  | finish | stop | take | send | sendFailed | wait | pass | acked | refused | fail => cases hw

end Moves

end PacketOffload.Slmp
