import Mathlib.Tactic.ByContra
import PacketOffload.Proofs.Ring.Attaching
import PacketOffload.Proofs.Ring.Exchange

/-!
# Moves at a slot

Each of the five moves keeps a slot sound, and touches nothing but the bytes of the slot and the
unit's word for responses. The host's moves find the accelerator waiting, and the accelerator's find
everything answered, so that neither disturbs what the other one is at.

Main statement: a move at a slot keeps the slot sound, and stays there (`SlotSound.moveAt`).
-/

namespace PacketOffload

variable {σ : Type} [Transport σ] {g : Geometry} {base length unit : Nat} {before : List UInt64}
  {s t : Session (Recorded σ)} {u : UnitRing} {l : SlotLog}

/-! ## Moves that stay in a slot -/

omit [Transport σ] in
theorem pokesAt_congr (h : t.device.attempts = s.device.attempts) (place : Nat) :
    t.device.pokesAt place = s.device.pokesAt place := by
  rw [Recorded.pokesAt, h, Recorded.pokesAt]

theorem pokesAt_poke (s : Session (Recorded σ)) (addr place : Nat) (word : UInt64) :
    (s.poke addr word).2.device.pokesAt place =
      s.device.pokesAt place ++ if addr = place then [word] else [] := by
  have hattempts : (s.poke addr word).2.device.attempts = s.device.note (.poke addr word) := rfl
  rw [Recorded.pokesAt, hattempts, Recorded.note, List.filterMap_append, Recorded.pokesAt]
  by_cases h : addr = place <;> simp [h]

theorem StaysIn.refl (hs : s.Mapped length) : StaysIn g base length unit s s :=
  ⟨hs, fun _ _ _ => rfl, fun _ _ => rfl⟩

theorem Session.Wrote.staysIn {start : Nat} {data : Bytes} (h : s.Wrote length start data t)
    (hown : ∀ k < data.length, g.Owns unit (start + k)) : StaysIn g base length unit s t := by
  refine ⟨h.mapped, fun i hi hout => h.byte_of_outside hi ?_, fun place _ =>
    pokesAt_congr h.attempts place⟩
  by_contra hin
  have hk : i - start < data.length := by omega
  have howns := hown (i - start) hk
  rw [Nat.add_sub_cancel' (by omega)] at howns
  exact hout howns

theorem Session.Mapped.report (hs : s.Mapped length) (r : Option Request) :
    (s.reportRequest r).Mapped length := by
  unfold Session.reportRequest
  split <;> exact hs

theorem Session.byte_report (s : Session (Recorded σ)) (r : Option Request) (i : Nat) :
    (s.reportRequest r).byte i = s.byte i := by
  unfold Session.reportRequest
  split <;> rfl

theorem Session.device_report {σ : Type} (s : Session σ) (r : Option Request) :
    (s.reportRequest r).device = s.device := by
  unfold Session.reportRequest
  split <;> rfl

theorem StaysIn.report (hs : s.Mapped length) (r : Option Request) :
    StaysIn g base length unit s (s.reportRequest r) :=
  ⟨hs.report r, fun i _ _ => s.byte_report r i, fun place _ => by rw [s.device_report r]⟩

/-! ## Taking -/

theorem Session.popRequest_of_flag (hg : g.Fits length) (hs : s.Mapped length)
    (hu : unit < g.unitCount) (hgeometry : u.geometry = g) (hunit : u.unit = unit)
    {flag : FlagWord} (h : s.readFlag u = .ok flag) :
    s.popRequest u = (.ok (u.pop flag).1, (u.pop flag).2, s.reportRequest (u.pop flag).1) := by
  subst hgeometry hunit
  obtain ⟨b, hb, rfl, -⟩ := hs
  simp only [Session.popRequest, h, Session.lend_pop hb hg hu]

theorem Session.payloadOf_eq (hs : s.Mapped length) {r : Request}
    (hr : r.start + r.length ≤ length) : s.payloadOf r = s.bytes r.start r.length := by
  have hread := Session.readBytes_of_mapped hs hr
  simp only [Session.payloadOf, Session.readPayload, Nat.min_self, hread]

theorem UnitRing.pop_of_announced {flag : FlagWord} (h : u.announces flag = true) :
    u.pop flag = (some (u.request flag),
      { u with
        lastSeen := flag.seq
        anomalies :=
          if (u.request flag).notice?.isSome then u.anomalies + 1 else u.anomalies }) := by
  simp only [UnitRing.pop, h, if_true]

theorem UnitRing.pop_of_seen {flag : FlagWord} (h : ¬ u.announces flag = true) :
    u.pop flag = (none, u) := by
  simp only [UnitRing.pop, h]
  rfl

theorem UnitRing.notice?_request (hu : u.unit = unit) (flag : FlagWord) :
    (u.request flag).notice?.isSome = decide (flag.unit.toNat ≠ unit) := by
  subst hu
  simp only [Request.notice?, UnitRing.request]
  by_cases h : flag.unit.toNat = u.unit <;> simp [h]

/-- Nothing waits once as much was taken as was delivered. -/
theorem not_waiting {taken : List Taken} {delivered : List Delivery}
    (h : delivered.length ≤ taken.length) (d : Delivery) : delivered[taken.length]? ≠ some d := by
  rw [List.getElem?_eq_none h]
  nofun

/-- One more request that shows the next delivery. -/
theorem shows_concat {taken : List Taken} {delivered : List Delivery}
    (h : ∀ (i : Nat) k d, taken[i]? = some k → delivered[i]? = some d → k.Shows d) {last : Taken}
    {d : Delivery} (hd : delivered[taken.length]? = some d) (hlast : last.Shows d) (i : Nat)
    {k : Taken} {c : Delivery} (hk : (taken ++ [last])[i]? = some k)
    (hc : delivered[i]? = some c) : k.Shows c := by
  rcases Nat.lt_or_ge i taken.length with hi | hi
  · rw [List.getElem?_append_left hi] at hk
    exact h i k c hk hc
  · have hbound := (List.getElem?_eq_some_iff.1 hk).1
    rw [List.length_append, List.length_singleton] at hbound
    obtain rfl : i = taken.length := by omega
    rw [List.getElem?_concat_length] at hk
    obtain rfl := Option.some.inj hk
    obtain rfl : d = c := Option.some.inj (hd.symm.trans hc)
    exact hlast

/-- A request that the host takes is the delivery that was waiting. -/
theorem SlotSound.take (h : SlotSound g base before unit s u l) (hg : g.Fits length)
    (hs : s.Mapped length) (hu : unit < g.unitCount) :
    SlotSound g base before unit (u.moveAt s l .take).1 (u.moveAt s l .take).2.1
        (u.moveAt s l .take).2.2 ∧
      StaysIn g base length unit s (u.moveAt s l .take).1 := by
  have hread := h.readFlag hg hs hu
  have hpop := Session.popRequest_of_flag hg hs hu h.geometry_eq h.unit_eq hread
  by_cases hann : u.announces (s.flagAt g unit) = true
  · rw [UnitRing.pop_of_announced hann] at hpop
    obtain ⟨hanswered, hbehind, hahead⟩ := h.order
    have hlt := h.announces_iff.1 hann
    obtain ⟨d, hd⟩ : ∃ d, l.delivered[l.taken.length]? = some d :=
      ⟨_, List.getElem?_eq_getElem hlt⟩
    obtain ⟨hflag, hlen, hdata⟩ := h.waiting d hd
    have hstart : (u.request (s.flagAt g unit)).start = g.payloadStart unit := by
      simp only [UnitRing.request, h.geometry_eq, h.unit_eq]
    have hlength : (u.request (s.flagAt g unit)).length = g.payloadLength := by
      simp only [UnitRing.request, h.geometry_eq]
    have hkept : SlotSound g base before unit
        (s.reportRequest (some (u.request (s.flagAt g unit)))) u l :=
      h.congr hg (fun i _ => s.byte_report _ i) (by rw [s.device_report])
    have hpayload := Session.payloadOf_eq (hs.report (some (u.request (s.flagAt g unit))))
      (r := u.request (s.flagAt g unit)) (by rw [hstart, hlength]; exact hg.payloadEnd_le hu)
    rw [hstart, hlength, bytes_of_owned hg (fun i _ => s.byte_report _ i) (Nat.le_refl _)]
      at hpayload
    have hlast : Taken.Shows ⟨u.request (s.flagAt g unit),
        s.bytes (g.payloadStart unit) g.payloadLength⟩ d :=
      ⟨hflag, (Session.take_bytes s _ hlen).trans hdata⟩
    simp only [UnitRing.moveAt, hpop, hpayload]
    refine ⟨{ hkept with
      lastSeen := ?lastSeen
      order := ?order
      held_iff := ?held_iff
      held := ?held
      waiting := ?waiting
      shown := fun i k c => shows_concat h.shown hd hlast i
      anomalies := ?anomalies }, StaysIn.report hs _⟩
    case lastSeen =>
      rw [h.seq]
      simp only [List.length_append, List.length_singleton]
      omega
    case order =>
      simp only [List.length_append, List.length_singleton]
      omega
    case held_iff =>
      simp only [List.length_append, List.length_singleton, Option.isSome_some, true_iff]
      omega
    case held =>
      rintro r hr
      obtain rfl := Option.some.inj hr
      exact ⟨hstart, hlength⟩
    case waiting =>
      intro c hc
      refine absurd hc (not_waiting ?_ c)
      simp only [List.length_append, List.length_singleton]
      omega
    case anomalies =>
      rw [List.countP_append, List.countP_singleton, ← h.anomalies,
        UnitRing.notice?_request h.unit_eq]
      by_cases hown : (s.flagAt g unit).unit.toNat = unit <;> simp [UnitRing.request, hown]
  · rw [UnitRing.pop_of_seen hann] at hpop
    simp only [UnitRing.moveAt, hpop]
    exact ⟨h, StaysIn.refl hs⟩

/-! ## Answering -/

/-- While the host holds a request, the accelerator has nothing more under way. -/
theorem SlotSound.turn_of_held (h : SlotSound g base before unit s u l)
    (hheld : l.held.isSome = true) :
    l.taken.length = l.responses.length + 1 ∧ l.delivered.length = l.taken.length ∧
      l.pending = none := by
  have hlt := h.held_iff.1 hheld
  obtain ⟨-, hbehind, hahead⟩ := h.order
  refine ⟨by omega, by omega, ?_⟩
  cases hp : l.pending with
  | none => rfl
  | some data =>
    obtain ⟨hturn, -⟩ := h.pending data hp
    omega

/-- With nothing under way, the payload does not matter. -/
theorem SlotSound.of_quiet (h : SlotSound g base before unit s u l) (hp : l.pending = none)
    (hall : l.delivered.length = l.taken.length) (hflag : t.flagAt g unit = s.flagAt g unit)
    (hpokes : t.device.pokesAt (responsePlace base unit) =
      s.device.pokesAt (responsePlace base unit)) : SlotSound g base before unit t u l := by
  refine { h with seq := ?seq, pending := ?pending, waiting := ?waiting, answered := ?answered }
  case seq =>
    rw [hflag]
    exact h.seq
  case pending =>
    intro data hd
    rw [hp] at hd
    cases hd
  case waiting =>
    intro d hd
    exact absurd hd (not_waiting (Nat.le_of_eq hall) d)
  case answered =>
    rw [Answered, hpokes]
    exact h.answered

/-- The flag word lies before the payload. -/
theorem Session.Wrote.flagAt {start : Nat} {data : Bytes} (h : s.Wrote length start data t)
    (hg : g.Fits length) (hu : unit < g.unitCount) (hstart : g.payloadStart unit ≤ start) :
    t.flagAt g unit = s.flagAt g unit := by
  have hbytes : t.bytes (g.slotStart unit) 8 = s.bytes (g.slotStart unit) 8 := by
    refine Session.bytes_congr fun i hlo hhi => ?_
    have hend := hg.flagEnd_le hu
    have hflag := hg.flag
    simp only [Geometry.payloadStart] at hstart
    simp only [flagLength] at hflag
    exact h.byte_of_outside (by omega) (Or.inl (by omega))
  rw [Session.flagAt, hbytes, Session.flagAt]

section

variable [LawfulSource σ]

theorem StaysIn.poke (hs : s.Mapped length) (word : UInt64) :
    StaysIn g base length unit s (s.poke (responsePlace base unit) word).2 := by
  refine ⟨hs.poke _ word, fun i _ _ => s.byte_poke _ word i, fun place hp => ?_⟩
  rw [pokesAt_poke, if_neg (Ne.symm hp), List.append_nil]

/-- What is written to a payload stays in the slot, apart from its flag. -/
theorem writePayload_spec (base : Nat) (hg : g.Fits length) (hs : s.Mapped length)
    (hu : unit < g.unitCount) {data : Bytes} (hle : data.length ≤ g.payloadLength) :
    s.Wrote length (g.payloadStart unit) data (s.writeBytes (g.payloadStart unit) data).2 ∧
      (s.writeBytes (g.payloadStart unit) data).2.flagAt g unit = s.flagAt g unit ∧
      StaysIn g base length unit s (s.writeBytes (g.payloadStart unit) data).2 := by
  have hend := hg.payloadEnd_le hu
  have hroom : g.payloadStart unit + data.length ≤ length := by omega
  obtain ⟨-, hwrote⟩ := Session.writeBytes_of_mapped hs hroom
  refine ⟨hwrote, hwrote.flagAt hg hu (Nat.le_refl _), hwrote.staysIn fun k hk => ?_⟩
  exact hg.owns_payload (by omega)

theorem SlotSound.fill (h : SlotSound g base before unit s u l) (hg : g.Fits length)
    (hs : s.Mapped length) (hu : unit < g.unitCount) (data : Bytes) :
    SlotSound g base before unit (u.moveAt s l (.fill data)).1 (u.moveAt s l (.fill data)).2.1
        (u.moveAt s l (.fill data)).2.2 ∧
      StaysIn g base length unit s (u.moveAt s l (.fill data)).1 := by
  simp only [UnitRing.moveAt]
  cases hheld : l.held with
  | none => exact ⟨h, StaysIn.refl hs⟩
  | some r =>
    obtain ⟨hstart, hlength⟩ := h.held r hheld
    obtain ⟨-, hall, hidle⟩ := h.turn_of_held (by rw [hheld]; rfl)
    have hle : (data.take r.length).length ≤ g.payloadLength := by
      rw [List.length_take, hlength]
      omega
    simp only [Session.writePayload, hstart]
    obtain ⟨hwrote, hflag, hstays⟩ := writePayload_spec base hg hs hu hle
    exact ⟨h.of_quiet hidle hall hflag (pokesAt_congr hwrote.attempts _), hstays⟩

omit [LawfulSource σ] in
/-- One more response, and the poke that it was. -/
theorem Answered.push (h : Answered base before unit s l) {flag : FlagWord} {word : UInt64}
    (hw : FlagWord.Answers word flag ((l.first + l.responses.length + 1) % 16) unit) :
    Answered base before unit (s.poke (responsePlace base unit) word).2
      { l with held := none, responses := l.responses ++ [flag] } := by
  obtain ⟨words, hwords, hlength, hanswers⟩ := h
  refine ⟨words ++ [word], ?_, ?_, ?_⟩
  · rw [pokesAt_poke, if_pos rfl, hwords, List.append_assoc]
  · simp only [List.length_append, hlength, List.length_singleton]
  · intro k other given hother hgiven
    rcases Nat.lt_or_ge k words.length with hk | hk
    · rw [List.getElem?_append_left hk] at hother
      rw [List.getElem?_append_left (hlength ▸ hk)] at hgiven
      exact hanswers k other given hother hgiven
    · have hbound := (List.getElem?_eq_some_iff.1 hother).1
      rw [List.length_append, List.length_singleton] at hbound
      obtain rfl : k = words.length := by omega
      rw [List.getElem?_concat_length] at hother
      rw [hlength, List.getElem?_concat_length] at hgiven
      obtain rfl := Option.some.inj hother
      obtain rfl := Option.some.inj hgiven
      rw [hlength]
      exact hw

omit [LawfulSource σ] in
/-- The word of a response has the number of the request that the host holds. -/
theorem SlotSound.answers (h : SlotSound g base before unit s u l) (hg : g.Fits length)
    (hu : unit < g.unitCount) (hheld : l.held.isSome = true) {flag : FlagWord} (hs : flag.seq = 0)
    (hn : flag.unit = 0) : FlagWord.Answers (u.response flag).bits flag
      ((l.first + l.responses.length + 1) % 16) unit := by
  obtain ⟨hturn, -, -⟩ := h.turn_of_held hheld
  have hnumber : u.lastSeen.toNat = (l.first + l.responses.length + 1) % 16 := by
    rw [h.lastSeen, hturn, Nat.add_assoc]
  have hname : (UInt8.ofNat u.unit).toNat = unit := by
    have hmax := hg.units.2
    rw [h.unit_eq]
    exact UInt8.toNat_ofNat_of_lt' (Nat.lt_of_lt_of_le hu hmax)
  have hanswer : FlagWord.Answers (u.response flag).bits flag u.lastSeen.toNat
      (UInt8.ofNat u.unit).toNat := FlagWord.answers_union hs hn (by omega)
  rw [hnumber, hname] at hanswer
  exact hanswer

/-- A response is one poke, and changes nothing in host memory. -/
theorem SlotSound.respond (h : SlotSound g base before unit s u l) (hg : g.Fits length)
    (hs : s.Mapped length) (hu : unit < g.unitCount) (hbase : l2Base ≤ base) (flag : FlagWord) :
    SlotSound g base before unit (u.moveAt s l (.respond flag)).1
        (u.moveAt s l (.respond flag)).2.1 (u.moveAt s l (.respond flag)).2.2 ∧
      StaysIn g base length unit s (u.moveAt s l (.respond flag)).1 := by
  simp only [UnitRing.moveAt]
  by_cases hgo : l.held.isSome ∧ flag.seq = 0 ∧ flag.unit = 0
  · obtain ⟨hheld, hseq, hunit⟩ := hgo
    obtain ⟨hturn, hall, hidle⟩ := h.turn_of_held hheld
    have hplace : u.responseAddress = .ok (responsePlace base unit) := by
      rw [UnitRing.responseAddress, h.base_eq, if_pos hbase, h.unit_eq]
      rfl
    have hbyte := s.byte_poke (responsePlace base unit) (u.response flag).bits
    have hflag : (s.poke (responsePlace base unit) (u.response flag).bits).2.flagAt g unit =
        s.flagAt g unit := flagAt_of_owned hg fun i _ => hbyte i
    simp only [hheld, hseq, hunit, and_self, if_true, Session.pushResponse, hplace]
    refine ⟨{ h with
      seq := ?seq
      order := ?order
      held_iff := ?held_iff
      held := fun r hr => by cases hr
      pending := ?pending
      waiting := ?waiting
      answered := h.answered.push (h.answers hg hu hheld hseq hunit) }, StaysIn.poke hs _⟩
    case seq =>
      rw [hflag]
      exact h.seq
    case order =>
      simp only [List.length_append, List.length_singleton]
      omega
    case held_iff =>
      simp only [List.length_append, List.length_singleton, Option.isSome_none,
        Bool.false_eq_true, false_iff]
      omega
    case pending =>
      intro data hd
      rw [hidle] at hd
      cases hd
    case waiting =>
      intro d hd
      exact absurd hd (not_waiting (Nat.le_of_eq hall) d)
  · simp only [hgo, if_false]
    exact ⟨h, StaysIn.refl hs⟩

/-! ## Delivering -/

omit [LawfulSource σ] in
/-- When it is the accelerator's turn, all that was delivered was taken and answered. -/
theorem SlotSound.turn_of_answered (h : SlotSound g base before unit s u l)
    (hturn : l.delivered.length = l.responses.length) :
    l.delivered.length = l.taken.length ∧ l.held = none := by
  obtain ⟨hanswered, hbehind, -⟩ := h.order
  refine ⟨by omega, ?_⟩
  cases hheld : l.held with
  | none => rfl
  | some r =>
    obtain ⟨hone, -, -⟩ := h.turn_of_held (by rw [hheld]; rfl)
    omega

theorem SlotSound.load (h : SlotSound g base before unit s u l) (hg : g.Fits length)
    (hs : s.Mapped length) (hu : unit < g.unitCount) (data : Bytes) :
    SlotSound g base before unit (u.moveAt s l (.load data)).1 (u.moveAt s l (.load data)).2.1
        (u.moveAt s l (.load data)).2.2 ∧
      StaysIn g base length unit s (u.moveAt s l (.load data)).1 := by
  simp only [UnitRing.moveAt, h.geometry_eq, h.unit_eq]
  split
  next hgo =>
    obtain ⟨hidle, hturn, hle⟩ := hgo
    obtain ⟨hall, hheld⟩ := h.turn_of_answered hturn
    obtain ⟨hwrote, hflag, hstays⟩ := writePayload_spec base hg hs hu hle
    have hend := hg.payloadEnd_le hu
    have hquiet := h.of_quiet hidle hall hflag (pokesAt_congr hwrote.attempts _)
    refine ⟨{ hquiet with pending := fun other hd => ?_ }, hstays⟩
    obtain rfl := Option.some.inj hd
    exact ⟨hturn, hle, hwrote.bytes_self (by omega)⟩
  next => exact ⟨h, StaysIn.refl hs⟩

/-- Writing the flag word of a slot leaves the payload alone. -/
theorem writeFlag_spec (base : Nat) (hg : g.Fits length) (hs : s.Mapped length)
    (hu : unit < g.unitCount) (flag : FlagWord) :
    (s.writeWord (g.slotStart unit) flag.bits).2.flagAt g unit = flag ∧
      (∀ count ≤ g.payloadLength,
        (s.writeWord (g.slotStart unit) flag.bits).2.bytes (g.payloadStart unit) count =
          s.bytes (g.payloadStart unit) count) ∧
      (s.writeWord (g.slotStart unit) flag.bits).2.device.attempts = s.device.attempts ∧
      StaysIn g base length unit s (s.writeWord (g.slotStart unit) flag.bits).2 := by
  have hend := hg.flagEnd_le hu
  have hlen := Bytes.length_ofWord64 flag.bits
  obtain ⟨-, hwrote⟩ := Session.writeWord_of_mapped hs hend (hg.slotStart_mod unit) flag.bits
  refine ⟨?_, fun count hc => ?_, hwrote.attempts, hwrote.staysIn fun k hk => ?_⟩
  · have hself := hwrote.bytes_self (by rw [hlen]; exact hend)
    rw [hlen] at hself
    rw [Session.flagAt, hself, Bytes.toWord64_ofWord64]
  · have hpayload := hg.payloadEnd_le hu
    have hflag := hg.flag
    simp only [flagLength] at hflag
    refine Session.bytes_congr fun i hlo hhi => hwrote.byte_of_outside (by omega) (Or.inr ?_)
    simp only [Geometry.payloadStart] at hlo
    omega
  · exact hg.owns_flag (hlen ▸ hk)

/-- The flag word makes a delivery of the payload that was written before. -/
theorem SlotSound.announce (h : SlotSound g base before unit s u l) (hg : g.Fits length)
    (hs : s.Mapped length) (hu : unit < g.unitCount) (flag : FlagWord) :
    SlotSound g base before unit (u.moveAt s l (.announce flag)).1
        (u.moveAt s l (.announce flag)).2.1 (u.moveAt s l (.announce flag)).2.2 ∧
      StaysIn g base length unit s (u.moveAt s l (.announce flag)).1 := by
  simp only [UnitRing.moveAt, h.geometry_eq, h.unit_eq]
  split
  next data hpending =>
    split
    next hseq =>
      obtain ⟨hturn, hlen, hdata⟩ := h.pending data hpending
      obtain ⟨hall, hheld⟩ := h.turn_of_answered hturn
      obtain ⟨hflag, hbytes, hattempts, hstays⟩ := writeFlag_spec base hg hs hu flag
      refine ⟨{ h with
        seq := ?seq
        order := ?order
        pending := fun other hd => by cases hd
        waiting := ?waiting
        shown := ?shown
        answered := ?answered }, hstays⟩
      case seq =>
        rw [hflag, hseq]
        simp only [List.length_append, List.length_singleton, Nat.add_assoc]
      case order =>
        obtain ⟨hanswered, -, -⟩ := h.order
        simp only [List.length_append, List.length_singleton]
        omega
      case waiting =>
        intro d hd
        rw [← hall, List.getElem?_concat_length] at hd
        obtain rfl := Option.some.inj hd
        exact ⟨hflag, hlen, (hbytes _ hlen).trans hdata⟩
      case shown =>
        intro i k d hk hd
        have hi := (List.getElem?_eq_some_iff.1 hk).1
        rw [List.getElem?_append_left (hall ▸ hi)] at hd
        exact h.shown i k d hk hd
      case answered =>
        rw [Answered, pokesAt_congr hattempts]
        exact h.answered
    next => exact ⟨h, StaysIn.refl hs⟩
  next => exact ⟨h, StaysIn.refl hs⟩

/-! ## All moves -/

/-- A move at a slot keeps the slot sound, and stays there. -/
theorem SlotSound.moveAt (h : SlotSound g base before unit s u l) (hg : g.Fits length)
    (hs : s.Mapped length) (hu : unit < g.unitCount) (hbase : l2Base ≤ base) (move : RingMove) :
    SlotSound g base before unit (u.moveAt s l move).1 (u.moveAt s l move).2.1
        (u.moveAt s l move).2.2 ∧
      StaysIn g base length unit s (u.moveAt s l move).1 := by
  cases move with
  | take => exact h.take hg hs hu
  | fill data => exact h.fill hg hs hu data
  | respond flag => exact h.respond hg hs hu hbase flag
  | load data => exact h.load hg hs hu data
  | announce flag => exact h.announce hg hs hu flag

omit [LawfulSource σ] in
theorem first_moveAt (s : Session (Recorded σ)) (u : UnitRing) (l : SlotLog) (move : RingMove) :
    (u.moveAt s l move).2.2.first = l.first := by
  cases move <;> simp only [UnitRing.moveAt] <;> repeat' split
  all_goals rfl

end

end PacketOffload
