import PacketOffload.Proofs.Ring.Attaching
import PacketOffload.Proofs.Ring.Moves

/-!
# Slots do not see each other

Each slot of a ring has one end on the host, and these ends are used side by side, in any order of
their steps; so are the slots by the accelerator. Nothing is asked here of how they are used: the
accelerator may write over a request that was not taken yet, and the host may answer what it never
took. Whatever is done at one slot stays in the bytes of the slot and at the unit's word for
responses, and what is seen there comes from these bytes alone.

Main statements: a move does the same wherever the bytes of its slot are the same
(`actAt_alike`), and in every run each slot goes through what its own moves do
(`slots_independent`).
-/

namespace PacketOffload

/-- A step at a slot, by the host or by the accelerator. -/
inductive SlotMove where
  /-- The host asks whether a request waits. -/
  | poll
  /-- The host takes the request in the slot, if there is one. -/
  | take
  /-- The host writes to the payload of the last request taken, after so many bytes of it. -/
  | fill (skip : Nat) (data : Bytes)
  /-- The host answers. -/
  | respond (flag : FlagWord)
  /-- The accelerator writes to the slot, after so many bytes of it. -/
  | load (skip : Nat) (data : Bytes)
  /-- The accelerator writes the flag word. -/
  | announce (flag : FlagWord)

/-- What the host was told at a slot. -/
inductive SlotAnswer where
  | polled (result : Except Fault Bool)
  | took (result : Except Fault (Option Taken))

/-- What the host has of a slot, besides its end of the ring. -/
structure SlotHand where
  /-- The last request taken. -/
  held : Option Request
  /-- All that it was told, oldest first. -/
  told : List SlotAnswer

def SlotHand.hear (l : SlotHand) (answer : SlotAnswer) : SlotHand :=
  { l with told := l.told ++ [answer] }

/-- The payload of a request without its first bytes. -/
def Request.from (r : Request) (skip : Nat) : Request :=
  { r with start := r.start + min skip r.length, length := r.length - skip }

/-- A ring in use. -/
structure RingUse (σ : Type) where
  session : Session (Recorded σ)
  ring : FlagRing
  hands : (unit : Nat) → SlotHand

variable {σ : Type} [Transport σ]

/-- A move at the slot of one end of a ring. The accelerator writes to this slot only. -/
def UnitRing.actAt (s : Session (Recorded σ)) (u : UnitRing) (l : SlotHand) :
    SlotMove → Session (Recorded σ) × UnitRing × SlotHand
  | .poll => (s, u, l.hear (.polled (s.hasRequest u)))
  | .take =>
    match s.popRequest u with
    | (.ok (some r), v, t) =>
      (t, v, { l with held := some r }.hear (.took (.ok (some ⟨r, t.payloadOf r⟩))))
    | (.ok none, v, t) => (t, v, l.hear (.took (.ok none)))
    | (.error e, v, t) => (t, v, l.hear (.took (.error e)))
  | .fill skip data =>
    match l.held with
    | some r => ((s.writePayload (r.from skip) data).2, u, l)
    | none => (s, u, l)
  | .respond flag => ((s.pushResponse u flag).2, u, l)
  | .load skip data =>
    if skip + data.length ≤ u.geometry.slotSize then
      ((s.writeBytes (u.geometry.slotStart u.unit + skip) data).2, u, l)
    else (s, u, l)
  | .announce flag => ((s.writeWord (u.geometry.slotStart u.unit) flag.bits).2, u, l)

namespace RingUse

def start (s : Session (Recorded σ)) (g : Geometry) (hostFlagBase : Nat) :
    Except Fault (RingUse σ) :=
  match s.attachRing g hostFlagBase with
  | (.ok ring, t) => .ok ⟨t, ring, fun _ => ⟨none, []⟩⟩
  | (.error e, _) => .error e

/-- A move at the slot of a unit; a unit that does not exist has none. -/
def step (e : RingUse σ) : Nat × SlotMove → RingUse σ
  | (unit, move) =>
    match e.ring.find unit with
    | .error _ => e
    | .ok u =>
      let (t, v, l) := u.actAt e.session (e.hands unit) move
      ⟨t, e.ring.setUnit unit v, fun other => if other = unit then l else e.hands other⟩

def run (e : RingUse σ) (moves : List (Nat × SlotMove)) : RingUse σ := moves.foldl step e

end RingUse

variable {g : Geometry} {base length unit : Nat} {s t s' t' : Session (Recorded σ)}
  {u : UnitRing} {l : SlotHand}

/-! ## One slot in two sessions -/

/-- Two sessions did the same at the slot of a unit, and nothing elsewhere. -/
inductive DidAlike (g : Geometry) (base length unit : Nat) (s t : Session (Recorded σ)) :
    (s' t' : Session (Recorded σ)) → Prop
  | reported (r : Option Request) :
    DidAlike g base length unit s t (s.reportRequest r) (t.reportRequest r)
  | wrote {start : Nat} {data : Bytes} {s' t' : Session (Recorded σ)}
    (own : ∀ k < data.length, g.Owns unit (start + k)) (hs : s.Wrote length start data s')
    (ht : t.Wrote length start data t') : DidAlike g base length unit s t s' t'
  | poked (word : UInt64) : DidAlike g base length unit s t
    (s.poke (responsePlace base unit) word).2 (t.poke (responsePlace base unit) word).2

/-- The host's end of the slot of a unit, and the request that it holds of it. -/
structure SlotHand.Fits (g : Geometry) (base unit : Nat) (u : UnitRing) (l : SlotHand) :
    Prop where
  geometry_eq : u.geometry = g
  base_eq : u.hostFlagBase = base
  unit_eq : u.unit = unit
  held : ∀ r, l.held = some r → r.start = g.payloadStart unit ∧ r.length = g.payloadLength

section

variable [LawfulSource σ]

theorem DidAlike.staysIn (h : DidAlike g base length unit s t s' t') (hs : s.Mapped length) :
    StaysIn g base length unit s s' := by
  cases h with
  | reported r => exact StaysIn.report hs r
  | wrote own hwrote => exact hwrote.staysIn own
  | poked word => exact StaysIn.poke hs word

theorem DidAlike.sameSlot (h : DidAlike g base length unit s t s' t') (hg : g.Fits length)
    (hu : unit < g.unitCount) (hsame : SameSlot g base unit s t) :
    SameSlot g base unit s' t' := by
  cases h with
  | reported r =>
    refine ⟨fun i hi => ?_, ?_⟩
    · rw [Session.byte_report, Session.byte_report]
      exact hsame.byte i hi
    · rw [Session.device_report, Session.device_report]
      exact hsame.pokes
  | wrote own hs ht =>
    refine ⟨fun i hi => ?_, ?_⟩
    · have hin : i < length := by
        have hend := hg.slotEnd_le hu
        have := hi.2
        omega
      rw [hs.byte i hin, ht.byte i hin, hsame.byte i hi]
    · rw [pokesAt_congr hs.attempts, pokesAt_congr ht.attempts]
      exact hsame.pokes
  | poked word =>
    refine ⟨fun i hi => ?_, ?_⟩
    · rw [Session.byte_poke, Session.byte_poke]
      exact hsame.byte i hi
    · rw [pokesAt_poke, pokesAt_poke, hsame.pokes]

/-! ## One move -/

theorem DidAlike.of_writeBytes (hg : g.Fits length) (hs : s.Mapped length) (ht : t.Mapped length)
    (hu : unit < g.unitCount) {start : Nat} {data : Bytes} (hlo : g.slotStart unit ≤ start)
    (hhi : start + data.length ≤ g.slotStart unit + g.slotSize) :
    DidAlike g base length unit s t (s.writeBytes start data).2 (t.writeBytes start data).2 := by
  have hend := hg.slotEnd_le hu
  have hroom : start + data.length ≤ length := by omega
  obtain ⟨-, hwrote⟩ := Session.writeBytes_of_mapped hs hroom
  obtain ⟨-, hwrote'⟩ := Session.writeBytes_of_mapped ht hroom
  exact .wrote (fun k hk => ⟨by omega, by omega⟩) hwrote hwrote'

omit [LawfulSource σ] in
/-- What the host reads of a flag word is what stands in the slot. -/
theorem readFlag_alike (hg : g.Fits length) (hs : s.Mapped length) (ht : t.Mapped length)
    (hu : unit < g.unitCount) (hl : l.Fits g base unit u) (hsame : SameSlot g base unit s t) :
    s.readFlag u = .ok (s.flagAt g unit) ∧ t.readFlag u = .ok (s.flagAt g unit) := by
  refine ⟨readFlag_of_mapped hg hs hu hl.geometry_eq hl.unit_eq, ?_⟩
  rw [readFlag_of_mapped hg ht hu hl.geometry_eq hl.unit_eq, flagAt_of_owned hg hsame.byte]

omit [LawfulSource σ] in
theorem take_alike (hg : g.Fits length) (hs : s.Mapped length) (ht : t.Mapped length)
    (hu : unit < g.unitCount) (hl : l.Fits g base unit u) (hsame : SameSlot g base unit s t) :
    DidAlike g base length unit s t (u.actAt s l .take).1 (u.actAt t l .take).1 ∧
      (u.actAt t l .take).2 = (u.actAt s l .take).2 ∧
      (u.actAt s l .take).2.2.Fits g base unit (u.actAt s l .take).2.1 := by
  obtain ⟨hread, hread'⟩ := readFlag_alike hg hs ht hu hl hsame
  have hpop := Session.popRequest_of_flag hg hs hu hl.geometry_eq hl.unit_eq hread
  have hpop' := Session.popRequest_of_flag hg ht hu hl.geometry_eq hl.unit_eq hread'
  by_cases hann : u.announces (s.flagAt g unit) = true
  · rw [UnitRing.pop_of_announced hann] at hpop hpop'
    have hstart : (u.request (s.flagAt g unit)).start = g.payloadStart unit := by
      simp only [UnitRing.request, hl.geometry_eq, hl.unit_eq]
    have hlength : (u.request (s.flagAt g unit)).length = g.payloadLength := by
      simp only [UnitRing.request, hl.geometry_eq]
    have hpayload : ∀ r : Session (Recorded σ), r.Mapped length → SameSlot g base unit s r →
        (r.reportRequest (some (u.request (s.flagAt g unit)))).payloadOf
          (u.request (s.flagAt g unit)) = s.bytes (g.payloadStart unit) g.payloadLength := by
      intro r hr hsame
      rw [Session.payloadOf_eq (hr.report _) (by rw [hstart, hlength]; exact hg.payloadEnd_le hu),
        hstart, hlength]
      refine bytes_of_owned hg (fun i hi => ?_) (Nat.le_refl _)
      rw [Session.byte_report]
      exact hsame.byte i hi
    simp only [UnitRing.actAt, hpop, hpop', hpayload s hs (.refl g base unit s), hpayload t ht hsame]
    refine ⟨.reported _, trivial, hl.geometry_eq, hl.base_eq, hl.unit_eq, fun r hr => ?_⟩
    obtain rfl := Option.some.inj hr
    exact ⟨hstart, hlength⟩
  · rw [UnitRing.pop_of_seen hann] at hpop hpop'
    simp only [UnitRing.actAt, hpop, hpop']
    exact ⟨.reported none, trivial, hl.geometry_eq, hl.base_eq, hl.unit_eq, hl.held⟩

/-- **A move does the same wherever the bytes of its slot are the same**, to the host as well as to
the slot. -/
theorem actAt_alike (hg : g.Fits length) (hs : s.Mapped length) (ht : t.Mapped length)
    (hu : unit < g.unitCount) (hl : l.Fits g base unit u) (hsame : SameSlot g base unit s t)
    (move : SlotMove) :
    DidAlike g base length unit s t (u.actAt s l move).1 (u.actAt t l move).1 ∧
      (u.actAt t l move).2 = (u.actAt s l move).2 ∧
      (u.actAt s l move).2.2.Fits g base unit (u.actAt s l move).2.1 := by
  have hend := hg.slotEnd_le hu
  cases move with
  | poll =>
    obtain ⟨hread, hread'⟩ := readFlag_alike hg hs ht hu hl hsame
    simp only [UnitRing.actAt, Session.hasRequest, hread, hread']
    exact ⟨.reported none, trivial, hl.geometry_eq, hl.base_eq, hl.unit_eq, hl.held⟩
  | take => exact take_alike hg hs ht hu hl hsame
  | fill skip data =>
    simp only [UnitRing.actAt]
    cases hheld : l.held with
    | none => exact ⟨.reported none, rfl, hl⟩
    | some r =>
      obtain ⟨hstart, hlength⟩ := hl.held r hheld
      have hpayload := hg.payload
      simp only [Session.writePayload, Request.from, hstart, hlength]
      refine ⟨.of_writeBytes hg hs ht hu ?_ ?_, trivial, hl⟩
      · simp only [Geometry.payloadStart]
        omega
      · simp only [Geometry.payloadStart, Geometry.payloadLength, List.length_take]
        omega
  | respond flag =>
    simp only [UnitRing.actAt, Session.pushResponse]
    by_cases hbase : l2Base ≤ base
    · have hplace : u.responseAddress = .ok (responsePlace base unit) := by
        rw [UnitRing.responseAddress, hl.base_eq, if_pos hbase, hl.unit_eq]
        rfl
      simp only [hplace]
      exact ⟨.poked _, trivial, hl⟩
    · have hplace : u.responseAddress = .error (.invalidArgument (.flagsBelowL2 base)) := by
        rw [UnitRing.responseAddress, hl.base_eq, if_neg hbase]
      simp only [hplace]
      exact ⟨.reported none, trivial, hl⟩
  | load skip data =>
    simp only [UnitRing.actAt, hl.geometry_eq, hl.unit_eq]
    split
    next hle => exact ⟨.of_writeBytes hg hs ht hu (Nat.le_add_right _ _) (by omega), rfl, hl⟩
    next => exact ⟨.reported none, rfl, hl⟩
  | announce flag =>
    simp only [UnitRing.actAt, hl.geometry_eq, hl.unit_eq]
    have hroom := hg.flagEnd_le hu
    obtain ⟨-, hwrote⟩ :=
      Session.writeWord_of_mapped hs hroom (hg.slotStart_mod unit) flag.bits
    obtain ⟨-, hwrote'⟩ :=
      Session.writeWord_of_mapped ht hroom (hg.slotStart_mod unit) flag.bits
    refine ⟨.wrote (fun k hk => hg.owns_flag ?_) hwrote hwrote', trivial, hl⟩
    rwa [Bytes.length_ofWord64] at hk

end

/-! ## Runs -/

namespace RingUse

/-- A ring in use, whose ends have their slots. -/
structure Sound (g : Geometry) (base length : Nat) (e : RingUse σ) : Prop where
  mapped : e.session.Mapped length
  count : e.ring.units.length = g.unitCount
  hand : ∀ (unit : Nat) (u : UnitRing), e.ring.units[unit]? = some u →
    (e.hands unit).Fits g base unit u

/-- All that there is to see of a slot is the same: the host's end of it, with the last sequence
number seen and the anomalies, what the host was told, the bytes, and the words for responses. -/
structure SameAt (g : Geometry) (base unit : Nat) (e f : RingUse σ) : Prop where
  unit_eq : f.ring.units[unit]? = e.ring.units[unit]?
  hand : f.hands unit = e.hands unit
  slot : SameSlot g base unit e.session f.session

variable {e f : RingUse σ}

theorem step_of_unit (hu : e.ring.units[unit]? = some u) (move : SlotMove) :
    e.step (unit, move) = ⟨(u.actAt e.session (e.hands unit) move).1,
      e.ring.setUnit unit (u.actAt e.session (e.hands unit) move).2.1,
      fun other => if other = unit then (u.actAt e.session (e.hands unit) move).2.2
        else e.hands other⟩ := by
  simp only [step, FlagRing.find, hu]

theorem step_of_none (hu : e.ring.units[unit]? = none) (move : SlotMove) :
    e.step (unit, move) = e := by
  simp only [step, FlagRing.find, hu]

theorem SameAt.refl (g : Geometry) (base unit : Nat) (e : RingUse σ) : SameAt g base unit e e :=
  ⟨rfl, rfl, .refl g base unit e.session⟩

variable [LawfulSource σ]

theorem Sound.step (hg : g.Fits length) (h : e.Sound g base length) (move : Nat × SlotMove) :
    (e.step move).Sound g base length := by
  obtain ⟨unit, move⟩ := move
  cases hu : e.ring.units[unit]? with
  | none =>
    rw [step_of_none hu]
    exact h
  | some u =>
    have hlt : unit < g.unitCount := h.count ▸ (List.getElem?_eq_some_iff.1 hu).1
    obtain ⟨hdid, -, hfits⟩ :=
      actAt_alike hg h.mapped h.mapped hlt (h.hand unit u hu) (.refl g base unit _) move
    rw [step_of_unit hu]
    refine ⟨(hdid.staysIn h.mapped).mapped, ?_, fun other v hv => ?_⟩
    · simp only [FlagRing.setUnit, List.length_set]
      exact h.count
    · rcases FlagRing.getElem?_setUnit hv with ⟨rfl, rfl⟩ | ⟨ho, hv⟩
      · simp only [if_true]
        exact hfits
      · simp only [ho, if_false]
        exact h.hand other v hv

theorem Sound.run (hg : g.Fits length) (h : e.Sound g base length)
    (moves : List (Nat × SlotMove)) : (e.run moves).Sound g base length := by
  induction moves generalizing e with
  | nil => exact h
  | cons move rest ih => exact ih (h.step hg move)

/-- A move stays in its slot. -/
theorem Sound.staysIn (hg : g.Fits length) (h : e.Sound g base length) (unit : Nat)
    (move : SlotMove) :
    StaysIn g base length unit e.session (e.step (unit, move)).session := by
  cases hu : e.ring.units[unit]? with
  | none =>
    rw [step_of_none hu]
    exact StaysIn.refl h.mapped
  | some u =>
    have hlt : unit < g.unitCount := h.count ▸ (List.getElem?_eq_some_iff.1 hu).1
    obtain ⟨hdid, -, -⟩ :=
      actAt_alike hg h.mapped h.mapped hlt (h.hand unit u hu) (.refl g base unit _) move
    rw [step_of_unit hu]
    exact hdid.staysIn h.mapped

/-- A move at one slot does not show at another. -/
theorem Sound.sameAt_step_other (hg : g.Fits length) (h : e.Sound g base length)
    {other : Nat} (ho : other ≠ unit) (hother : other < g.unitCount) (move : SlotMove) :
    SameAt g base other e (e.step (unit, move)) := by
  have hslot := (h.staysIn hg unit move).sameSlot hg ho hother
  cases hu : e.ring.units[unit]? with
  | none =>
    rw [step_of_none hu]
    exact .refl g base other e
  | some u =>
    refine ⟨?_, ?_, hslot⟩
    · rw [step_of_unit hu]
      exact List.getElem?_set_ne (Ne.symm ho)
    · rw [step_of_unit hu]
      simp only [ho, if_false]

/-- A move at a slot depends on the slot alone. -/
theorem SameAt.step (hg : g.Fits length) (he : e.Sound g base length)
    (hf : f.Sound g base length) (h : SameAt g base unit e f) (move : SlotMove) :
    SameAt g base unit (e.step (unit, move)) (f.step (unit, move)) := by
  cases hu : e.ring.units[unit]? with
  | none =>
    rw [step_of_none hu, step_of_none (h.unit_eq.trans hu)]
    exact h
  | some u =>
    have hlt := (List.getElem?_eq_some_iff.1 hu).1
    have hlt' := (List.getElem?_eq_some_iff.1 (h.unit_eq.trans hu)).1
    obtain ⟨hdid, hsame, -⟩ := actAt_alike hg he.mapped hf.mapped (he.count ▸ hlt)
      (he.hand unit u hu) h.slot move
    rw [step_of_unit hu, step_of_unit (h.unit_eq.trans hu), h.hand]
    refine ⟨?_, ?_, hdid.sameSlot hg (he.count ▸ hlt) h.slot⟩
    · simp only [FlagRing.setUnit, List.getElem?_set_self hlt, List.getElem?_set_self hlt', hsame]
    · simp only [if_true, hsame]

omit [LawfulSource σ] in
theorem SameAt.trans {d : RingUse σ} (h : SameAt g base unit d e) (h' : SameAt g base unit e f) :
    SameAt g base unit d f :=
  ⟨h'.unit_eq.trans h.unit_eq, h'.hand.trans h.hand, h.slot.trans h'.slot⟩

theorem SameAt.run (hg : g.Fits length) (hu : unit < g.unitCount) (he : e.Sound g base length)
    (hf : f.Sound g base length) (h : SameAt g base unit e f) (moves : List (Nat × SlotMove)) :
    SameAt g base unit (e.run (moves.filter (·.1 = unit))) (f.run moves) := by
  induction moves generalizing e f with
  | nil => exact h
  | cons move rest ih =>
    obtain ⟨other, move⟩ := move
    by_cases ho : other = unit
    · subst ho
      rw [List.filter_cons_of_pos (by simp)]
      exact ih (he.step hg _) (hf.step hg _) (h.step hg he hf move)
    · rw [List.filter_cons_of_neg (by simpa using ho)]
      exact ih he (hf.step hg _) (h.trans (hf.sameAt_step_other hg (Ne.symm ho) hu move))

omit [LawfulSource σ] in
/-- A ring that was attached fits the buffer, and its ends have their slots. -/
theorem fits_and_sound_of_start (hs : s.Mapped length) (he : start s g base = .ok e) :
    g.Fits length ∧ e.Sound g base length := by
  obtain ⟨b, hb, rfl, -⟩ := id hs
  rcases s.attachRing_cases g base with ⟨fault, hattach⟩ | ⟨ring, hattach, hattached⟩
  · rw [start, hattach] at he
    cases he
  · rw [start, hattach] at he
    obtain rfl := Except.ok.inj he
    obtain ⟨b', hb', hfits⟩ := hattached.buffer
    obtain rfl := Option.some.inj (hb.symm.trans hb')
    refine ⟨hfits, hs, hattached.count, fun unit u hu => ?_⟩
    obtain ⟨hgeometry, hbase, hunit⟩ := Session.newUnit_eq_ok (hattached.unit unit u hu)
    exact ⟨hgeometry, hbase, hunit, nofun⟩

/-- A move has to do with one slot alone. -/
structure Confined (g : Geometry) (base length unit : Nat) (move : SlotMove) (e : RingUse σ) :
    Prop where
  /-- No other byte is written, and no other word is poked. -/
  writes : StaysIn g base length unit e.session (e.step (unit, move)).session
  /-- No other byte is read: whatever stands elsewhere, the same happens and the host is told the
  same. -/
  reads : ∀ t : Session (Recorded σ), t.Mapped length → SameSlot g base unit e.session t →
    SameAt g base unit (e.step (unit, move)) ({ e with session := t }.step (unit, move))

theorem Sound.confined (hg : g.Fits length) (h : e.Sound g base length) (unit : Nat)
    (move : SlotMove) : Confined g base length unit move e where
  writes := h.staysIn hg unit move
  reads t ht hsame := by
    have hother : Sound g base length { e with session := t } := ⟨ht, h.count, h.hand⟩
    exact SameAt.step hg h hother ⟨rfl, rfl, hsame⟩ move

end RingUse

/-! ## Independence -/

/-- **Slots do not see each other.** Once a ring is attached, each of its units goes, in every run
and whatever is done at the others, through what its own moves do when they are alone. Each move has
to do with the bytes of its slot and the unit's word for responses only, and no two units share any
of these. -/
theorem slots_independent {e : RingUse σ} [LawfulSource σ] (hs : s.Mapped length)
    (he : RingUse.start s g base = .ok e) :
    (∀ moves, ∀ unit < g.unitCount,
        RingUse.SameAt g base unit (e.run (moves.filter (·.1 = unit))) (e.run moves)) ∧
      (∀ moves unit move, RingUse.Confined g base length unit move (e.run moves)) ∧
      ∀ unit other, unit ≠ other → (∀ i, g.Owns unit i → ¬ g.Owns other i) ∧
        responsePlace base unit ≠ responsePlace base other := by
  obtain ⟨hfits, hsound⟩ := RingUse.fits_and_sound_of_start hs he
  refine ⟨fun moves unit hu => ?_, fun moves unit move => ?_, fun unit other hne => ⟨?_, ?_⟩⟩
  · exact RingUse.SameAt.run hfits hu hsound hsound (.refl g base unit e) moves
  · exact (hsound.run hfits moves).confined hfits unit move
  · exact fun i hi hi' => hne (hi.unique hi')
  · exact fun heq => hne (responsePlace_injective heq)

/-- Two slots on a fresh device. The accelerator writes over a request of the first unit before it
was taken, and the second unit is answered twice; the first unit was told of one request, and the
flag of that named the wrong unit. -/
theorem slots_independent_two_slots :
    let s : Session (Recorded Simulator) :=
      ⟨.of .powerOn, 0, none, some ⟨8192, .own .empty⟩, ⟨true, false, false⟩, false, []⟩
    let moves : List (Nat × SlotMove) :=
      [(0, .load 64 [7]), (1, .load 64 [8, 9]), (0, .announce ⟨0x00000101⟩),
        (1, .announce ⟨0x01000202⟩), (0, .announce ⟨0x01000103⟩), (1, .take), (0, .poll),
        (1, .respond ⟨0x500⟩), (0, .take), (1, .fill 1 [5]), (0, .take), (1, .respond ⟨0x600⟩)]
    ∃ e, RingUse.start s ⟨2, 4096, 64⟩ (l2Base + 256) = .ok e ∧
      RingUse.SameAt ⟨2, 4096, 64⟩ (l2Base + 256) 0 (e.run (moves.filter (·.1 = 0)))
        (e.run moves) ∧
      ((e.run moves).hands 0).told.length = 3 ∧
      (e.run moves).ring.units.map UnitRing.lastSeen = [3, 2] ∧
      (e.run moves).ring.units.map UnitRing.anomalies = [1, 0] ∧
      (e.run moves).session.device.pokesAt 264 = [0x01000502, 0x01000602] := by
  intro s moves
  have hmapped : s.Mapped 8192 := ⟨_, rfl, rfl, trivial⟩
  refine ⟨_, rfl, ?_, ?_, ?_, ?_, ?_⟩
  · exact (slots_independent hmapped rfl).1 moves 0 (by decide)
  · decide +kernel
  · decide +kernel
  · decide +kernel
  · decide +kernel

end PacketOffload
