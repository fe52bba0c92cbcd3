import PacketOffload.Proofs.Ring.Attaching
import PacketOffload.Proofs.Ring.Moves

/-!
# Every delivery once

Sequence numbers have four bits and are compared for equality alone. That is enough: the
accelerator waits for an answer before it goes on, so that the number in a slot is the last one that
the host saw, or the one after it.

Main statement: in every run the requests that the host takes at a slot are the ones that were
delivered there, in their order and each once, with their flags and payloads, and each is answered
by one poke at the unit's word, the only place that is poked (`run_exact`).
-/

namespace PacketOffload

variable {σ : Type} [Transport σ] [LawfulSource σ] {g : Geometry} {base length : Nat}
  {s : Session (Recorded σ)}

/-! ## Runs -/

namespace Exchange

/-- A ring whose slots are all sound, and that poked the words of its units alone. -/
structure Sound (s : Session (Recorded σ)) (g : Geometry) (base length : Nat) (e : Exchange σ) :
    Prop where
  mapped : e.session.Mapped length
  count : e.ring.units.length = g.unitCount
  first : ∀ unit, (e.slots unit).first = seqAt s g unit
  slot : ∀ (unit : Nat) (u : UnitRing), e.ring.units[unit]? = some u →
    SlotSound g base (s.device.pokesAt (responsePlace base unit)) unit e.session u (e.slots unit)
  elsewhere : ∀ place, (∀ unit < g.unitCount, place ≠ responsePlace base unit) →
    e.session.device.pokesAt place = s.device.pokesAt place

variable {e : Exchange σ}

omit [LawfulSource σ] in
theorem step_of_unit {unit : Nat} (hu : e.ring.units[unit]? = some u) (move : RingMove) :
    e.step (unit, move) = ⟨(u.moveAt e.session (e.slots unit) move).1,
      e.ring.setUnit unit (u.moveAt e.session (e.slots unit) move).2.1,
      fun other => if other = unit then (u.moveAt e.session (e.slots unit) move).2.2
        else e.slots other⟩ := by
  simp only [step, FlagRing.find, hu]

omit [LawfulSource σ] in
theorem step_of_none {unit : Nat} (hu : e.ring.units[unit]? = none) (move : RingMove) :
    e.step (unit, move) = e := by
  simp only [step, FlagRing.find, hu]

theorem Sound.step (hg : g.Fits length) (hbase : l2Base ≤ base) (h : e.Sound s g base length)
    (move : Nat × RingMove) : (e.step move).Sound s g base length := by
  obtain ⟨unit, move⟩ := move
  cases hu : e.ring.units[unit]? with
  | none =>
    rw [step_of_none hu]
    exact h
  | some u =>
    have hlt : unit < g.unitCount := h.count ▸ (List.getElem?_eq_some_iff.1 hu).1
    obtain ⟨hslot, hstays⟩ := (h.slot unit u hu).moveAt hg h.mapped hlt hbase move
    rw [step_of_unit hu]
    refine ⟨hstays.mapped, ?_, fun other => ?_, fun other v hv => ?_, fun place hplace => ?_⟩
    · simp only [FlagRing.setUnit, List.length_set]
      exact h.count
    · by_cases ho : other = unit
      · simp only [ho, if_true, first_moveAt]
        exact h.first unit
      · simp only [ho, if_false]
        exact h.first other
    · rcases FlagRing.getElem?_setUnit hv with ⟨rfl, rfl⟩ | ⟨ho, hv⟩
      · simp only [if_true]
        exact hslot
      · simp only [ho, if_false]
        have hother : other < g.unitCount := h.count ▸ (List.getElem?_eq_some_iff.1 hv).1
        have hsame := hstays.sameSlot hg ho hother
        exact (h.slot other v hv).congr hg hsame.byte hsame.pokes
    · exact (hstays.pokes place (hplace unit hlt)).trans (h.elsewhere place hplace)

theorem Sound.run (hg : g.Fits length) (hbase : l2Base ≤ base) (h : e.Sound s g base length)
    (moves : List (Nat × RingMove)) : (e.run moves).Sound s g base length := by
  induction moves generalizing e with
  | nil => exact h
  | cons move rest ih => exact ih (h.step hg hbase move)

/-! ## The start of a run -/

omit [LawfulSource σ] in
theorem newUnit_eq (hg : g.Fits length) (hs : s.Mapped length) {unit : Nat}
    (hu : unit < g.unitCount) :
    s.newUnit g base unit = .ok ⟨g, base, unit, (s.flagAt g unit).seq, 0⟩ := by
  rw [Session.newUnit, Session.readWord_of_mapped hs (hg.flagEnd_le hu) (hg.slotStart_mod unit)]
  rfl

omit [LawfulSource σ] in
theorem seqAt_eq (hg : g.Fits length) (hs : s.Mapped length) {unit : Nat}
    (hu : unit < g.unitCount) : seqAt s g unit = (s.flagAt g unit).seq.toNat := by
  rw [seqAt, Session.readWord_of_mapped hs (hg.flagEnd_le hu) (hg.slotStart_mod unit)]
  rfl

omit [LawfulSource σ] in
/-- A slot over which nothing was exchanged yet; what stands there counts as seen. -/
theorem slotSound_start (hg : g.Fits length) (hs : s.Mapped length) {unit : Nat}
    (hu : unit < g.unitCount) :
    SlotSound g base (s.device.pokesAt (responsePlace base unit)) unit s
      ⟨g, base, unit, (s.flagAt g unit).seq, 0⟩ ⟨seqAt s g unit, none, [], [], none, []⟩ := by
  have hlt := (s.flagAt g unit).seq_lt
  have hfirst : (s.flagAt g unit).seq.toNat = (seqAt s g unit + 0) % 16 := by
    rw [seqAt_eq hg hs hu]
    omega
  exact {
    geometry_eq := rfl
    base_eq := rfl
    unit_eq := rfl
    lastSeen := hfirst
    seq := hfirst
    order := ⟨Nat.le_refl 0, Nat.le_refl 0, Nat.zero_le 1⟩
    held_iff := by simp
    held := nofun
    pending := nofun
    waiting := nofun
    shown := nofun
    anomalies := rfl
    answered := ⟨[], (List.append_nil _).symm, rfl, nofun⟩ }

omit [LawfulSource σ] in
/-- A ring can be attached to a buffer that has room for it. -/
theorem start_eq_ok (base : Nat) (hg : g.check length = .ok ()) (hs : s.Mapped length)
    (hfree : s.ringAttached = false) :
    ∃ e, start s g base = .ok e ∧ e.Sound s g base length := by
  obtain ⟨b, hb, rfl, -⟩ := id hs
  have hfits := Geometry.fits_of_check hg
  obtain ⟨ring, t, hattach⟩ := (Session.attachRing_eq_ok_iff base hb hfits).2 hfree
  obtain ⟨hattached, rfl⟩ := Session.attached_of_eq_ok hattach
  refine ⟨_, by rw [start, hattach], hs, hattached.count, fun unit => rfl, fun unit u hu => ?_,
    fun _ _ => rfl⟩
  have hlt : unit < g.unitCount := hattached.count ▸ (List.getElem?_eq_some_iff.1 hu).1
  have hnew := hattached.unit unit u hu
  rw [newUnit_eq hfits hs hlt] at hnew
  obtain rfl := Except.ok.inj hnew
  exact (slotSound_start hfits hs hlt).congr hfits (fun _ _ => rfl) rfl

end Exchange

/-! ## Exactness -/

/-- What the host gets at a slot is what was delivered there. -/
structure Exact (before : List UInt64) (base unit : Nat) (s : Session (Recorded σ)) (u : UnitRing)
    (l : SlotLog) : Prop where
  /-- What was taken are the deliveries, from the first one on. -/
  taken : ∀ (i : Nat) k, l.taken[i]? = some k → ∃ d, l.delivered[i]? = some d ∧ k.Shows d
  ahead : l.delivered.length ≤ l.taken.length + 1
  /-- A poll shows whether a delivery was not taken yet. -/
  poll : s.hasRequest u = .ok (decide (l.taken.length < l.delivered.length))
  pop_none : l.delivered.length = l.taken.length → s.popRequest u = (.ok none, u, s)
  pop_some : ∀ d, l.delivered[l.taken.length]? = some d → ∃ r payload,
    (s.popRequest u).1 = .ok (some r) ∧ s.readPayload r r.length = .ok payload ∧
      Taken.Shows ⟨r, payload⟩ d
  anomalies : u.anomalies = l.taken.countP fun k => k.request.flag.unit.toNat ≠ unit
  responses : l.responses.length ≤ l.taken.length
  answered : Answered base before unit s l

omit [LawfulSource σ] in
theorem SlotSound.exact {before : List UInt64} {unit : Nat} {u : UnitRing} {l : SlotLog}
    (h : SlotSound g base before unit s u l) (hg : g.Fits length) (hs : s.Mapped length)
    (hu : unit < g.unitCount) : Exact before base unit s u l := by
  obtain ⟨hanswered, hbehind, hahead⟩ := h.order
  have hread := h.readFlag hg hs hu
  have hpop := Session.popRequest_of_flag hg hs hu h.geometry_eq h.unit_eq hread
  constructor
  · intro i k hk
    have hi := (List.getElem?_eq_some_iff.1 hk).1
    have hd := List.getElem?_eq_getElem (Nat.lt_of_lt_of_le hi hbehind)
    exact ⟨_, hd, h.shown i k _ hk hd⟩
  · omega
  · have hannounces : u.announces (s.flagAt g unit) =
        decide (l.taken.length < l.delivered.length) := by
      rw [Bool.eq_iff_iff, decide_eq_true_iff]
      exact h.announces_iff
    rw [Session.hasRequest, hread, ← hannounces]
    rfl
  · intro hall
    have hseen : ¬ u.announces (s.flagAt g unit) = true := by
      rw [h.announces_iff]
      omega
    rw [hpop, UnitRing.pop_of_seen hseen]
    rfl
  · intro d hd
    have hlt := (List.getElem?_eq_some_iff.1 hd).1
    obtain ⟨hflag, hlen, hdata⟩ := h.waiting d hd
    have hann := h.announces_iff.2 hlt
    have hend := hg.payloadEnd_le hu
    refine ⟨u.request (s.flagAt g unit), s.bytes (g.payloadStart unit) g.payloadLength, ?_, ?_,
      hflag, (Session.take_bytes s _ hlen).trans hdata⟩
    · rw [hpop, UnitRing.pop_of_announced hann]
    · simp only [Session.readPayload, UnitRing.request, h.geometry_eq, h.unit_eq, Nat.min_self]
      exact Session.readBytes_of_mapped hs hend
  · exact h.anomalies
  · exact hanswered
  · exact h.answered

/-- **Every delivery once.** A ring can be attached to every buffer that has room for it. Whatever
the host and the accelerator do then, in whatever order, each slot gives the host the deliveries
that were made there, in their order, each once and whole, and nothing else; and each response is
one poke at the unit's word, with the number of the request that it answers. Nothing is poked
anywhere else. -/
theorem run_exact (hs : s.Mapped length) (hg : g.check length = .ok ())
    (hfree : s.ringAttached = false) (hbase : l2Base ≤ base) :
    ∃ e, Exchange.start s g base = .ok e ∧ ∀ moves,
      (∀ unit < g.unitCount, ((e.run moves).slots unit).first = Exchange.seqAt s g unit ∧
        ∃ u, (e.run moves).ring.find unit = .ok u ∧
          Exact (s.device.pokesAt (responsePlace base unit)) base unit (e.run moves).session u
            ((e.run moves).slots unit)) ∧
      ∀ place, (∀ unit < g.unitCount, place ≠ responsePlace base unit) →
        (e.run moves).session.device.pokesAt place = s.device.pokesAt place := by
  have hfits := Geometry.fits_of_check hg
  obtain ⟨e, he, hstart⟩ := Exchange.start_eq_ok base hg hs hfree
  refine ⟨e, he, fun moves => ?_⟩
  have hrun := hstart.run hfits hbase moves
  refine ⟨fun unit hu => ⟨hrun.first unit, ?_⟩, hrun.elsewhere⟩
  have hlt : unit < (e.run moves).ring.units.length := by
    rw [hrun.count]
    exact hu
  have hget := List.getElem?_eq_getElem hlt
  refine ⟨(e.run moves).ring.units[unit], ?_, (hrun.slot unit _ hget).exact hfits hrun.mapped hu⟩
  rw [FlagRing.find, hget]

/-- Two slots on a fresh device. The second unit delivers, the host polls too early, takes, fills
and answers; the next delivery names the wrong unit. -/
theorem run_exact_two_slots :
    let s : Session (Recorded Simulator) :=
      ⟨.of .powerOn, 0, none, some ⟨8192, .own .empty⟩, ⟨true, false, false⟩, false, []⟩
    let moves : List (Nat × RingMove) :=
      [(1, .load [7, 8]), (1, .take), (1, .announce ⟨0x01000201⟩), (1, .take), (1, .fill [9]),
        (1, .respond ⟨0x500⟩), (1, .load [3]), (1, .announce ⟨0x00000102⟩), (1, .take)]
    ∃ e, Exchange.start s ⟨2, 4096, 64⟩ (l2Base + 256) = .ok e ∧
      (∃ u, (e.run moves).ring.find 1 = .ok u ∧
        Exact [] (l2Base + 256) 1 (e.run moves).session u ((e.run moves).slots 1)) ∧
      (e.run moves).session.device.pokesAt 272 = [] ∧ ((e.run moves).slots 1).taken.length = 2 ∧
      (e.run moves).session.device.pokesAt 264 = [0x01000501] := by
  intro s moves
  have hroom : Geometry.check ⟨2, 4096, 64⟩ 8192 = .ok () := rfl
  have hmapped : s.Mapped 8192 := ⟨_, rfl, rfl, trivial⟩
  have hbase : l2Base ≤ l2Base + 256 := Nat.le_add_right l2Base 256
  obtain ⟨e, he, hrun⟩ := run_exact hmapped hroom rfl hbase
  obtain ⟨hunits, helsewhere⟩ := hrun moves
  obtain ⟨-, u, hu, hexact⟩ := hunits 1 (by decide)
  refine ⟨e, he, ⟨u, hu, hexact⟩, helsewhere 272 (by decide), ?_⟩
  obtain rfl := Except.ok.inj he
  exact ⟨by decide +kernel, by decide +kernel⟩

end PacketOffload
