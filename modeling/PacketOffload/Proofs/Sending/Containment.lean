import PacketOffload.Proofs.Sending.Acknowledged
import PacketOffload.Proofs.Sending.Runs

/-!
# Failures of parallel sends

When the network refuses a datagram, or a wait reads no acknowledgement, a worker fails: it sets the
flag and ends. The others find the flag set at the next fragment they would begin. One of them may
have looked at the flag just before and still sends the fragment it holds, and under the policy
`abort` it does not wait for its acknowledgement any more.

Main statements: how little a crew sends once a worker has failed (`contained_follow`), whose fault
is the result (`result_of_failsIn`), and what becomes of the message (`sendTo_contained`).
-/

namespace PacketOffload.Slmp

/-- The event ends a wait for an acknowledgement. -/
def Event.isWait : Event → Bool
  | .replied .. | .timedOut _ | .unread .. => true
  | .sent _ => false

/-- The next step of a worker fails: the network refuses its datagram, or its wait reads something
else than an acknowledgement. -/
inductive Fails (s : Sender) (w : Worker) (e : Fault) : Prop
  | send {f : Fragment} (hp : w.phase = .sending f) (h : s.transmit f = .error e)
  | wait {f : Fragment} (hp : w.phase = .waiting f) (h : Refused s.msgId f (readOf w.inbox) e)

namespace Worker

/-- The fragments that a worker has not sent yet and does not give up. -/
def ahead (w : Worker) : List Fragment :=
  match w.phase with
  | .sending f => f :: w.todo
  | .ready | .sent _ | .waiting _ => w.todo
  | .failing _ | .done _ => []

/-- How many datagrams a worker sends without looking at the flag again. -/
def owing (w : Worker) : Nat :=
  match w.phase with
  | .sending _ => 1
  | .ready | .sent _ | .waiting _ | .failing _ | .done _ => 0

/-- A worker has failed, and is about to set the flag or has set it. -/
def Failed (w : Worker) (e : Fault) : Prop := w.phase = .failing e ∨ w.phase = .done (some e)

theorem owing_le_one (w : Worker) : w.owing ≤ 1 := by
  unfold owing
  split <;> omega

theorem Failed.unique {w : Worker} {d e : Fault} (hd : w.Failed d) (he : w.Failed e) : d = e := by
  rcases hd with hd | hd <;> rcases he with he | he <;> rw [hd] at he
  · exact Phase.failing.inj he
  · cases he
  · cases he
  · exact Option.some.inj (Phase.done.inj he)

end Worker

/-! ## Steps -/

namespace Moves

variable {s : Sender} {w v : Worker} {b c : Bool} {events : List Event} {e : Fault}

/-- A worker sends the fragments of its share in their order. -/
theorem sentFragments_append_ahead (h : Moves s b w v c events) :
    sentFragments events ++ v.ahead <+: w.ahead := by
  cases h with
  | acked =>
    rw [sentFragments_await]
    exact List.prefix_rfl
  | refused =>
    rw [sentFragments_await]
    exact List.nil_prefix
  | take | send | wait | pass => exact List.prefix_rfl
  | finish | stop | sendFailed | fail | rest => exact List.nil_prefix

/-- With the flag set, a worker sends only what it has already begun to send. -/
theorem owing_le (h : Moves s b w v c events) (hb : b = true) :
    (sentFragments events).length + v.owing ≤ w.owing := by
  cases h with
  | take => cases hb
  | send => exact Nat.le_refl 1
  | sendFailed => exact Nat.zero_le 1
  | acked | refused =>
    rw [sentFragments_await]
    exact Nat.le_refl 0
  | finish | stop | wait | pass | fail | rest => exact Nat.le_refl 0

theorem failed_of_fails (h : Moves s b w v c events) (hf : Fails s w e) :
    v.Failed e ∧ sentFragments events = [] := by
  cases hf with
  | send hp ht =>
    cases h with
    | send ht' =>
      obtain rfl := Phase.sending.inj hp
      rw [ht'] at ht
      cases ht
    | sendFailed ht' =>
      obtain rfl := Phase.sending.inj hp
      rw [ht'] at ht
      exact ⟨.inl (congrArg Phase.failing (Except.error.inj ht)), rfl⟩
    | finish | stop | take | wait | pass | acked | refused | fail | rest => cases hp
  | wait hp hr =>
    have hd := result_await_eq_error_iff.2 hr
    cases h with
    | acked hok =>
      obtain rfl := Phase.waiting.inj hp
      rw [hok] at hd
      cases hd
    | refused herr =>
      obtain rfl := Phase.waiting.inj hp
      rw [herr] at hd
      exact ⟨.inl (congrArg Phase.failing (Except.error.inj hd)), sentFragments_await _ _ _⟩
    | finish | stop | take | send | sendFailed | wait | pass | fail | rest => cases hp

/-- Nobody is failed who did not fail. -/
theorem fails_of_failed (h : Moves s b w v c events) (hv : v.Failed e) (hw : ¬ w.Failed e) :
    Fails s w e := by
  cases h with
  | sendFailed ht =>
    rcases hv with hv | hv
    · obtain rfl := Phase.failing.inj hv
      exact .send rfl ht
    · cases hv
  | refused herr =>
    rcases hv with hv | hv
    · obtain rfl := Phase.failing.inj hv
      exact .wait rfl (result_await_eq_error_iff.1 herr)
    · cases hv
  | fail =>
    rcases hv with hv | hv
    · cases hv
    · obtain rfl := Option.some.inj (Phase.done.inj hv)
      exact absurd (.inl rfl) hw
  | rest => exact absurd hv hw
  | finish | stop | take | send | wait | pass | acked => rcases hv with hv | hv <;> cases hv

/-- A worker that has failed does nothing any more. -/
theorem failed_kept (h : Moves s b w v c events) (hw : w.Failed e) : v.Failed e ∧ events = [] := by
  cases h with
  | fail =>
    rcases hw with hw | hw
    · obtain rfl := Phase.failing.inj hw
      exact ⟨.inr rfl, rfl⟩
    · cases hw
  | rest => exact ⟨hw, rfl⟩
  | finish | stop | take | send | sendFailed | wait | pass | acked | refused =>
    rcases hw with hw | hw <;> cases hw

end Moves

namespace Crew

variable {s : Sender} {policy : FailurePolicy} {crew : Crew} {i : Nat} {e : Fault}

/-- Under the policy `abort` a worker that finds the flag set does not begin to wait. -/
theorem move_of_abort {w : Worker} (hw : ∀ f, w.phase ≠ .waiting f) :
    (∀ f, (move s .abort true w).1.phase ≠ .waiting f) ∧
      (move s .abort true w).2.2.filter Event.isWait = [] := by
  obtain ⟨todo, phase, inbox⟩ := w
  cases phase with
  | ready =>
    refine ⟨fun f hp => ?_, ?_⟩
    · cases todo <;> cases hp
    · cases todo <;> rfl
  | sending f =>
    simp only [move]
    cases s.transmit f with
    | ok answers => exact ⟨fun g hp => Phase.noConfusion hp, rfl⟩
    | error e => exact ⟨fun g hp => Phase.noConfusion hp, rfl⟩
  | sent f =>
    have hpass : (f.needsAck && !((FailurePolicy.abort == .abort) && true)) = false := by
      cases f.needsAck <;> rfl
    simp only [move, hpass]
    exact ⟨fun g hp => Phase.noConfusion hp, rfl⟩
  | waiting f => exact absurd rfl (hw f)
  | failing d => exact ⟨fun g hp => Phase.noConfusion hp, rfl⟩
  | done fault => exact ⟨fun g hp => Phase.noConfusion hp, rfl⟩

/-! ## Failing in a run -/

/-- In this state of a crew, the next step of a worker fails. -/
def FailsAt (s : Sender) (crew : Crew) (i : Nat) (e : Fault) : Prop :=
  ∃ w, crew.workers[i]? = some w ∧ Fails s w e

/-- A worker fails at one of its turns. -/
def FailsIn (s : Sender) (policy : FailurePolicy) (crew : Crew) (turns : List Nat) (i : Nat)
    (e : Fault) : Prop :=
  ∃ before after, turns = before ++ i :: after ∧ FailsAt s (crew.follow s policy before) i e

/-- A worker that has failed stays so, and does nothing. -/
theorem follow_of_failed (s : Sender) (policy : FailurePolicy) {w : Worker}
    (hw : crew.workers[i]? = some w) (hf : w.Failed e) (turns : List Nat) :
    ∃ v, (crew.follow s policy turns).workers[i]? = some v ∧ v.Failed e ∧
      doneBy i (crew.follow s policy turns).log = doneBy i crew.log := by
  refine follow_keeps_always s policy (P := fun v log => v.Failed e ∧ log = doneBy i crew.log) ?_ hw
    ⟨hf, rfl⟩ turns
  rintro c u log ⟨hu, rfl⟩
  obtain ⟨hv, hnone⟩ := (moves_move s policy c u).failed_kept hu
  rw [hnone, List.append_nil]
  exact ⟨hv, rfl⟩

/-- A worker whose turn fails is failed ever after, and sends nothing from that turn on. -/
theorem follow_of_failsAt (policy : FailurePolicy) (h : FailsAt s crew i e) (after : List Nat) :
    ∃ v, (crew.follow s policy (i :: after)).workers[i]? = some v ∧ v.Failed e ∧
      (crew.follow s policy (i :: after)).sentBy i = crew.sentBy i := by
  obtain ⟨w, hw, hf⟩ := h
  obtain ⟨hv, hlog⟩ := step_self s policy hw
  obtain ⟨hfailed, hnone⟩ := (moves_move s policy crew.cancelled w).failed_of_fails hf
  obtain ⟨v, hv, hfailed, hdone⟩ := follow_of_failed s policy hv hfailed after
  refine ⟨v, hv, hfailed, ?_⟩
  rw [follow_cons, sentBy, sentBy, hdone, hlog, sentFragments_append, hnone, List.append_nil]

theorem failed_of_failsIn {turns : List Nat} (h : FailsIn s policy crew turns i e) :
    ∃ v, (crew.follow s policy turns).workers[i]? = some v ∧ v.Failed e := by
  obtain ⟨before, after, rfl, hat⟩ := h
  rw [follow_append]
  obtain ⟨v, hv, hfailed, -⟩ := follow_of_failsAt policy hat after
  exact ⟨v, hv, hfailed⟩

/-- Who is failed after a run has failed in it. -/
theorem failsIn_of_failed {turns : List Nat} {w v : Worker} (hw : crew.workers[i]? = some w)
    (hnot : ∀ d, ¬ w.Failed d) (hv : (crew.follow s policy turns).workers[i]? = some v)
    (hf : v.Failed e) : FailsIn s policy crew turns i e := by
  induction turns generalizing crew w with
  | nil =>
    obtain rfl : w = v := Option.some.inj (hw.symm.trans hv)
    exact absurd hf (hnot e)
  | cons j rest ih =>
    have hlater : FailsIn s policy (crew.step s policy j) rest i e →
        FailsIn s policy crew (j :: rest) i e := by
      rintro ⟨before, after, rfl, hat⟩
      exact ⟨j :: before, after, rfl, hat⟩
    by_cases hji : j = i
    · subst hji
      obtain ⟨hu, -⟩ := step_self s policy hw
      by_cases hd : ∃ d, (move s policy crew.cancelled w).1.Failed d
      · obtain ⟨d, hd⟩ := hd
        have hfails := (moves_move s policy crew.cancelled w).fails_of_failed hd (hnot d)
        obtain ⟨u, hu, hkept, -⟩ := follow_of_failed s policy hu hd rest
        obtain rfl : u = v := Option.some.inj (hu.symm.trans hv)
        obtain rfl := hkept.unique hf
        exact ⟨[], rest, rfl, w, hw, hfails⟩
      · exact hlater (ih hu (fun d h => hd ⟨d, h⟩) hv)
    · obtain ⟨hu, -⟩ := step_other s policy hji crew
      exact hlater (ih (hu.trans hw) hnot hv)

/-- Who has a fault at the end of a run has failed in it. -/
theorem failsIn_of_fault? {count : Nat} {fragments : List Fragment}
    (hcrew : crew = ofFragments count fragments) {schedule : List Nat} {w : Worker}
    (hw : (crew.run s policy schedule).workers[i]? = some w) (hf : fault? w = some e) :
    FailsIn s policy crew (crew.turns s policy schedule) i e := by
  have hfailed : w.Failed e := by
    rw [fault?] at hf
    split at hf
    next fault hdone => exact .inr (hf ▸ hdone)
    next => cases hf
  rw [run_eq_follow] at hw
  rw [hcrew] at hw ⊢
  refine failsIn_of_failed (start_of_follow hw) (fun d hd => ?_) hw hfailed
  rcases hd with hd | hd <;> cases hd

/-! ## What is still sent -/

/-- How a run goes on around a failure. -/
structure Contained (s : Sender) (policy : FailurePolicy) (crew : Crew)
    (shares : Nat → List Fragment) (turns : List Nat) : Prop where
  once : (sentFragments (crew.follow s policy turns).events).Nodup
  /-- Every worker sends its share in order, from the first fragment on. -/
  shared : ∀ i, (crew.follow s policy turns).sentBy i <+: shares i
  /-- A worker that fails sends nothing from that turn on. -/
  silent : ∀ before after i e, turns = before ++ i :: after →
    FailsAt s (crew.follow s policy before) i e →
      (crew.follow s policy turns).sentBy i = (crew.follow s policy before).sentBy i
  /-- With the flag set, every worker sends one more fragment at most. -/
  oneMore : ∀ before after, turns = before ++ after →
    (crew.follow s policy before).cancelled = true → ∀ i, ∃ more, more.length ≤ 1 ∧
      (crew.follow s policy turns).sentBy i = (crew.follow s policy before).sentBy i ++ more
  /-- Under the policy `abort`, with the flag set, only those wait who had begun to. -/
  unawaited : policy = .abort → ∀ before after, turns = before ++ after →
    (crew.follow s policy before).cancelled = true →
      ∀ i w, (crew.follow s policy before).workers[i]? = some w → (∀ f, w.phase ≠ .waiting f) →
        (doneBy i (crew.follow s policy turns).log).filter Event.isWait =
          (doneBy i (crew.follow s policy before).log).filter Event.isWait

/-- Every worker sends a beginning of its share. -/
theorem sentBy_share (s : Sender) (policy : FailurePolicy) (count : Nat)
    (fragments : List Fragment) (turns : List Nat) (i : Nat) :
    ((ofFragments count fragments).follow s policy turns).sentBy i <+: share count fragments i := by
  cases hw : (ofFragments count fragments).workers[i]? with
  | none =>
    rw [sentBy, doneBy_of_none hw]
    exact List.nil_prefix
  | some w =>
    obtain ⟨-, rfl⟩ := getElem?_ofFragments hw
    obtain ⟨v, -, hv⟩ := follow_keeps_always s policy
      (P := fun v log => sentFragments log ++ v.ahead <+: share count fragments i) (by
        intro c u log hu
        rw [sentFragments_append, List.append_assoc]
        have hmoves := (moves_move s policy c u).sentFragments_append_ahead
        exact ((List.prefix_append_right_inj _).2 hmoves).trans hu)
      hw List.prefix_rfl turns
    exact (List.prefix_append _ _).trans hv

theorem sentBy_of_cancelled (hc : crew.cancelled = true) (turns : List Nat) (i : Nat) :
    ∃ more, more.length ≤ 1 ∧
      (crew.follow s policy turns).sentBy i = crew.sentBy i ++ more := by
  cases hw : crew.workers[i]? with
  | none => exact ⟨[], Nat.zero_le 1, by rw [sentBy, doneBy_of_none hw, List.append_nil]; rfl⟩
  | some w =>
    obtain ⟨v, -, more, hlog, hle⟩ := follow_keeps s policy (· = true)
      (P := fun v log => ∃ more, sentFragments log = crew.sentBy i ++ more ∧
        more.length + v.owing ≤ 1)
      (fun c u hc => (moves_move s policy c u).flag_kept hc)
      (by
        rintro c u log hc ⟨more, hlog, hle⟩
        have hstep := (moves_move s policy c u).owing_le hc
        refine ⟨more ++ sentFragments (move s policy c u).2.2, ?_, ?_⟩
        · rw [sentFragments_append, hlog, List.append_assoc]
        · rw [List.length_append]
          omega)
      hc hw ⟨[], (List.append_nil _).symm, by simpa using w.owing_le_one⟩ turns
    exact ⟨more, by omega, hlog⟩

theorem waits_of_abort (hc : crew.cancelled = true) {w : Worker} (hw : crew.workers[i]? = some w)
    (hp : ∀ f, w.phase ≠ .waiting f) (turns : List Nat) :
    (doneBy i (crew.follow s .abort turns).log).filter Event.isWait =
      (doneBy i crew.log).filter Event.isWait := by
  obtain ⟨v, -, -, hlog⟩ := follow_keeps s .abort (· = true)
    (P := fun v log => (∀ f, v.phase ≠ .waiting f) ∧
      log.filter Event.isWait = (doneBy i crew.log).filter Event.isWait)
    (fun c u hc => (moves_move s .abort c u).flag_kept hc)
    (by
      rintro c u log rfl ⟨hu, hlog⟩
      obtain ⟨hphase, hnone⟩ := move_of_abort (s := s) hu
      rw [List.filter_append, hnone, List.append_nil]
      exact ⟨hphase, hlog⟩)
    hc hw ⟨hp, rfl⟩ turns
  exact hlog

/-- **Containment.** Whoever moves and whatever fails, a crew sends no fragment twice, its workers
keep to their shares, and little is sent after a failure. -/
theorem contained_follow (s : Sender) (policy : FailurePolicy) {count : Nat}
    {fragments : List Fragment} (hn : fragments.Nodup) (turns : List Nat) :
    Contained s policy (ofFragments count fragments) (share count fragments) turns := by
  have hshare := sentBy_share s policy count fragments turns
  obtain ⟨hnodup, hunique⟩ := apart_shares count hn
  -- Who sends anything has a share.
  have hworker : ∀ i f,
      f ∈ ((ofFragments count fragments).follow s policy turns).sentBy i → i < count := by
    intro i f hf
    refine Nat.lt_of_not_le fun hle => ?_
    have hnone : (ofFragments count fragments).workers[i]? = none := by
      rw [List.getElem?_eq_none_iff, length_ofFragments]
      exact hle
    rw [sentBy, doneBy_of_none hnone] at hf
    cases hf
  constructor
  case once =>
    refine nodup_of_doneBy (fun i => ?_) fun i j f hi hj => ?_
    · by_cases hi : i < count
      · exact (hnodup i hi).sublist (hshare i).sublist
      · have hnil : ((ofFragments count fragments).follow s policy turns).sentBy i = [] :=
          List.eq_nil_iff_forall_not_mem.2 fun f hf => hi (hworker i f hf)
        rw [sentBy] at hnil
        rw [hnil]
        exact List.nodup_nil
    · exact hunique i (hworker i f hi) j (hworker j f hj) f ((hshare i).subset hi)
        ((hshare j).subset hj)
  case shared => exact hshare
  case silent =>
    rintro before after i e rfl hat
    rw [follow_append]
    obtain ⟨-, -, -, hsent⟩ := follow_of_failsAt policy hat after
    exact hsent
  case oneMore =>
    rintro before after rfl hc i
    rw [follow_append]
    exact sentBy_of_cancelled hc after i
  case unawaited =>
    rintro rfl before after rfl hc i w hw hp
    rw [follow_append]
    exact waits_of_abort hc hw hp after

/-! ## The fault -/

/-- Who has failed in a run has its fault at the end. -/
theorem fault?_of_failsIn {schedule : List Nat}
    (h : FailsIn s policy crew (crew.turns s policy schedule) i e) :
    ∃ v, (crew.run s policy schedule).workers[i]? = some v ∧ fault? v = some e := by
  obtain ⟨v, hv, hfailed⟩ := failed_of_failsIn h
  rw [← run_eq_follow] at hv
  obtain ⟨fault, hdone⟩ := done_run _ schedule hv
  refine ⟨v, hv, ?_⟩
  rcases hfailed with hp | hp
  · rw [hp] at hdone
    cases hdone
  · rw [fault?, hp]

/-- If workers fail, the fault of the first of them is the result. -/
theorem result_of_failsIn {count : Nat} {fragments : List Fragment}
    (hcrew : crew = ofFragments count fragments) {schedule : List Nat}
    (h : ∃ i e, FailsIn s policy crew (crew.turns s policy schedule) i e) :
    ∃ i e, FailsIn s policy crew (crew.turns s policy schedule) i e ∧
      (∀ j d, FailsIn s policy crew (crew.turns s policy schedule) j d → i ≤ j) ∧
      (crew.run s policy schedule).result = .error e := by
  rw [result]
  split
  next e he =>
    obtain ⟨first, w, rest, hsplit, hw, hnone⟩ := List.findSome?_eq_some_iff.1 he
    have hget : (crew.run s policy schedule).workers[first.length]? = some w := by
      rw [hsplit, List.getElem?_append_right (Nat.le_refl _), Nat.sub_self]
      rfl
    refine ⟨first.length, e, failsIn_of_fault? hcrew hget hw,
      fun j d hd => Nat.le_of_not_lt fun hlt => ?_, rfl⟩
    obtain ⟨v, hv, hd⟩ := fault?_of_failsIn hd
    rw [hsplit, List.getElem?_append_left hlt] at hv
    rw [hnone v (List.mem_of_getElem? hv)] at hd
    cases hd
  next he =>
    obtain ⟨i, e, hin⟩ := h
    obtain ⟨v, hv, hd⟩ := fault?_of_failsIn hin
    rw [List.findSome?_eq_none_iff.1 he v (List.mem_of_getElem? hv)] at hd
    cases hd

end Crew

/-! ## Whole messages -/

/-- A fragment is sent at most once. -/
theorem sent_sendFragment (s : Sender) (t : Traffic) (f : Fragment) :
    ∃ events, (s.sendFragment t f).2.log = t.log ++ events ∧ sentFragments events <+: [f] := by
  unfold Sender.sendFragment
  cases s.transmit f with
  | error e => exact ⟨[], (List.append_nil _).symm, List.nil_prefix⟩
  | ok answers =>
    simp only []
    split
    · refine ⟨[.sent f, (await s.msgId f (t.inbox ++ answers)).event], by simp, ?_⟩
      exact ⟨[], by rw [sentFragments_sent_await, List.append_nil]⟩
    · exact ⟨[.sent f], rfl, List.prefix_rfl⟩

/-- A message that was not sent to its end: nothing was sent twice, and the end not at all. -/
structure Unfinished (log : List Event) : Prop where
  once : (sentFragments log).Nodup
  noEnd : ∀ f ∈ sentFragments log, f.flags.contains .eom = false

/-- The first fragment was sent at most once, and of those between each one at most once. -/
theorem unfinished_append {first : Fragment} {interior : List Fragment}
    {before between : List Event} (hfirst : sentFragments before <+: [first])
    (honce : (sentFragments between).Nodup)
    (hbetween : ∀ f ∈ sentFragments between, f ∈ interior) (hnew : first ∉ interior)
    (hnoEnd : ∀ f ∈ first :: interior, f.flags.contains .eom = false) :
    Unfinished (before ++ between) := by
  have hmine : ∀ f ∈ sentFragments before, f = first :=
    fun f hf => List.mem_singleton.1 (hfirst.subset hf)
  constructor
  case once =>
    rw [sentFragments_append]
    refine List.nodup_append.2 ⟨(List.nodup_singleton first).sublist hfirst.sublist, honce, ?_⟩
    rintro f hf g hg rfl
    rw [hmine f hf] at hg
    exact hnew (hbetween first hg)
  case noEnd =>
    intro f hf
    rw [sentFragments_append] at hf
    rcases List.mem_append.1 hf with hf | hf
    · rw [hmine f hf]
      exact hnoEnd first List.mem_cons_self
    · exact hnoEnd f (List.mem_cons_of_mem first (hbetween f hf))

/-- A crew sends what it was given. -/
theorem Crew.Contained.mem_of_sent {s : Sender} {policy : FailurePolicy} {crew : Crew}
    {count : Nat} {fragments : List Fragment} {turns : List Nat}
    (h : crew.Contained s policy (share count fragments) turns) :
    ∀ f ∈ sentFragments (crew.follow s policy turns).events, f ∈ fragments := by
  intro f hf
  obtain ⟨i, hi⟩ := Crew.mem_sentFragments_log.1 hf
  exact mem_of_mem_share ((h.shared i).subset hi)

namespace Channel

variable {c : Channel} {s : Sender} {t : Traffic} {size : Nat} {payload : Payload}
  {first last : Fragment} {interior : List Fragment} {schedule : List Nat} {e : Fault}

theorem sendParallel_of_first (h : (s.sendFragment t first).1 = .error e) :
    c.sendParallel s t first last interior schedule = (.error e, (s.sendFragment t first).2) := by
  rw [sendParallel]
  rcases hbegun : s.sendFragment t first with ⟨result, begun⟩
  rw [hbegun] at h
  obtain rfl : result = .error e := h
  rfl

theorem sendParallel_of_worker (h : (s.sendFragment t first).1 = .ok ())
    (hbind : c.network.bind (c.here.atPort 0) = .ok ())
    (hresult : ((c.crew interior).run (c.workerSender s) c.config.policy schedule).result =
      .error e) :
    c.sendParallel s t first last interior schedule =
      (.error e, { (s.sendFragment t first).2 with
        log := (s.sendFragment t first).2.log ++
          ((c.crew interior).run (c.workerSender s) c.config.policy schedule).events }) := by
  rw [sendParallel]
  rcases hbegun : s.sendFragment t first with ⟨result, begun⟩
  rw [hbegun] at h
  obtain rfl : result = .ok () := h
  simp only [sendByWorkers_eq hbind, hresult]

/-- If the first fragment fails, nothing else is sent. -/
theorem unfinished_of_first (ht : t.log = []) (hnew : first ∉ interior)
    (hnoEnd : ∀ f ∈ first :: interior, f.flags.contains .eom = false)
    (he : (s.sendFragment t first).1 = .error e) :
    (c.sendParallel s t first last interior schedule).1 = .error e ∧
      Unfinished (c.sendParallel s t first last interior schedule).2.log ∧
      ∀ f ∈ interior,
        f ∉ sentFragments (c.sendParallel s t first last interior schedule).2.log := by
  obtain ⟨events, hlog, hsent⟩ := sent_sendFragment s t first
  rw [ht, List.nil_append] at hlog
  have hunfinished : Unfinished (events ++ []) :=
    unfinished_append hsent List.nodup_nil (fun f hf => absurd hf List.not_mem_nil) hnew hnoEnd
  rw [List.append_nil] at hunfinished
  rw [sendParallel_of_first he, hlog]
  refine ⟨rfl, hunfinished, fun f hf hm => hnew ?_⟩
  rw [← List.mem_singleton.1 (hsent.subset hm)]
  exact hf

/-- If workers fail, the first of them decides the fault, and the others are contained. -/
theorem unfinished_of_worker (ht : t.log = []) (hn : interior.Nodup) (hnew : first ∉ interior)
    (hnoEnd : ∀ f ∈ first :: interior, f.flags.contains .eom = false)
    (hok : (s.sendFragment t first).1 = .ok ())
    (hbind : c.network.bind (c.here.atPort 0) = .ok ()) :
    let own := c.workerSender s
    let policy := c.config.policy
    let crew := c.crew interior
    let turns := crew.turns own policy schedule
    let out := c.sendParallel s t first last interior schedule
    (∃ i e, Crew.FailsIn own policy crew turns i e) →
      (∃ i e, Crew.FailsIn own policy crew turns i e ∧
          (∀ j d, Crew.FailsIn own policy crew turns j d → i ≤ j) ∧ out.1 = .error e) ∧
        Unfinished out.2.log ∧
        out.2.log = (s.sendFragment t first).2.log ++ (crew.follow own policy turns).events ∧
        Crew.Contained own policy crew
          (share (min c.config.workers interior.length) interior) turns := by
  intro own policy crew turns out hfails
  have hcrew : crew = .ofFragments (min c.config.workers interior.length) interior := rfl
  have hcontained : crew.Contained own policy
      (share (min c.config.workers interior.length) interior) turns :=
    Crew.contained_follow own policy hn turns
  obtain ⟨i, e, hin, hleast, hresult⟩ := Crew.result_of_failsIn hcrew hfails
  have hout : out = _ := sendParallel_of_worker hok hbind hresult
  obtain ⟨events, hlog, hsent⟩ := sent_sendFragment s t first
  rw [ht, List.nil_append] at hlog
  rw [hout, Crew.run_eq_follow, hlog]
  exact ⟨⟨i, e, hin, hleast, rfl⟩,
    unfinished_append hsent hcontained.once hcontained.mem_of_sent hnew hnoEnd, rfl, hcontained⟩

/-- **A parallel send that fails.** If the first fragment fails, nothing else is sent. If a fragment
between the first and the last one fails, the fault is that of the first worker that failed, and
around each failure the others are contained. In both cases the end of the message is not sent, and
nothing is sent twice. -/
theorem sendTo_contained (hparallel : c.config.parallel = true)
    (hsize : c.config.fragmentSize = .ok size) (hlength : payload.length ≤ maxMessage)
    (hplan : plan payload.length size c.config.alwaysAck = first :: (interior ++ [last]))
    (hne : interior ≠ []) (dest : Endpoint) (msgId : UInt32) (schedule : List Nat) :
    let s := c.sender dest msgId payload
    let own := c.workerSender s
    let policy := c.config.policy
    let crew := c.crew interior
    let turns := crew.turns own policy schedule
    let begun := s.sendFragment ⟨c.inbox, []⟩ first
    let out := c.sendTo dest msgId payload schedule
    (∀ e, begun.1 = .error e → out.1 = .error e ∧ Unfinished out.2.log ∧
        ∀ f ∈ interior, f ∉ sentFragments out.2.log) ∧
      (begun.1 = .ok () → c.network.bind (c.here.atPort 0) = .ok () →
        (∃ i e, Crew.FailsIn own policy crew turns i e) →
        (∃ i e, Crew.FailsIn own policy crew turns i e ∧
            (∀ j d, Crew.FailsIn own policy crew turns j d → i ≤ j) ∧ out.1 = .error e) ∧
          Unfinished out.2.log ∧
          out.2.log = begun.2.log ++ (crew.follow own policy turns).events ∧
          Crew.Contained own policy crew
            (share (min c.config.workers interior.length) interior) turns) := by
  intro s own policy crew turns begun out
  obtain ⟨hinterior, hnew⟩ := nodup_interior_of_plan (lt_of_le_maxMessage hlength) hplan
  have hnoEnd : ∀ f ∈ first :: interior, f.flags.contains .eom = false :=
    eom_eq_false_of_plan hplan
  have hout : out = c.sendParallel s ⟨c.inbox, []⟩ first last interior schedule :=
    sendTo_eq_sendParallel hparallel hsize hlength hne hplan schedule
  rw [hout]
  exact ⟨fun e he => unfinished_of_first rfl hnew hnoEnd he, fun hok hbind hfails =>
    unfinished_of_worker rfl hinterior hnew hnoEnd hok hbind hfails⟩

/-- The peer acknowledges the first of six fragments and nothing else. Worker 0 waits in vain; while
it has not set the flag yet, worker 1 begins its own fragment and sends it. -/
theorem sendTo_contained_silent :
    let here : Endpoint := ⟨.v4 0x7f000001, 4000⟩
    let config := { Config.standard with
      parallel := true, workers := 2, alwaysAck := true, policy := .abort }
    let ack : Header := ⟨.ack, 7, 0⟩
    let first : Header := ⟨.syn, 7, 0⟩
    let answers (datagram : Bytes) := if datagram.take 10 = first.encode then [ack.encode] else []
    let c : Channel := ⟨.answering answers, here, config, []⟩
    let interior := [1, 2, 3, 4].map (planned 8000 1462 true)
    let out := c.sendTo (here.atPort port) 7 (.zeros 8000) [0, 0, 0, 0, 1, 0, 1, 1]
    out.1 = .error (.ackTimeout 7 1462) ∧ Unfinished out.2.log ∧
      sentFragments out.2.log = [0, 1, 2].map (planned 8000 1462 true) ∧
      ∃ turns, Crew.Contained (c.workerSender (c.sender (here.atPort port) 7 (.zeros 8000))) .abort
        (c.crew interior) (share 2 interior) turns := by
  intro here config ack first answers c interior out
  have hsize : c.config.fragmentSize = .ok 1462 := by decide
  have hlength : (Payload.zeros 8000).length ≤ maxMessage := by decide
  have hplan : plan (Payload.zeros 8000).length 1462 c.config.alwaysAck =
      planned 8000 1462 true 0 :: (interior ++ [planned 8000 1462 true 5]) := by decide
  obtain ⟨-, hinterior⟩ := sendTo_contained (c := c) rfl hsize hlength hplan (by decide)
    (here.atPort port) 7 [0, 0, 0, 0, 1, 0, 1, 1]
  have hwaits : Fails (c.workerSender (c.sender (here.atPort port) 7 (.zeros 8000)))
      ⟨[planned 8000 1462 true 3], .waiting (planned 8000 1462 true 1), []⟩ (.ackTimeout 7 1462) :=
    .wait rfl .nothing
  obtain ⟨-, hunfinished, -, hcontained⟩ := hinterior (by decide) rfl
    ⟨0, .ackTimeout 7 1462, [0, 0, 0], _, rfl, _, by decide, hwaits⟩
  exact ⟨by decide, hunfinished, by decide, _, hcontained⟩

end Channel

end PacketOffload.Slmp
