import PacketOffload.Proofs.Context.Counter

/-!
# What a response says

A response is to have the number of the request that it answers, the unit of the slot, and the
length that the host gives. The host gives it as a flag word, and number and unit are put on top of
what this word has in their place: bits are added, and none is taken away. So the response says what
it should exactly if the word has no other bits there, as the word of a request has if it names the
unit of the slot.

Main statements: whatever is done with a ring, its units keep their places and numbers that a flag
word can have (`RingActivity.inRing_run`), and what the responses of these units say
(`response_filled_in_iff`).
-/

namespace PacketOffload

/-! ## Bits -/

/-- Whatever bits the first number has, the second has as well. -/
def BitsAmong (a b : Nat) : Prop := ∀ i, a.testBit i = true → b.testBit i = true

theorem or_eq_right_iff_bitsAmong {a b : Nat} : a ||| b = b ↔ BitsAmong a b := by
  constructor
  · intro h i hi
    rw [← h, Nat.testBit_or, hi, Bool.true_or]
  · intro h
    apply Nat.eq_of_testBit_eq
    intro i
    rw [Nat.testBit_or]
    cases ha : a.testBit i with
    | false => rw [Bool.false_or]
    | true => rw [h i ha, Bool.true_or]

theorem FlagWord.length_union (a b : FlagWord) : (a.union b).length = a.length ||| b.length := by
  apply UInt8.toBitVec_inj.1
  ext i hi
  simp [FlagWord.length, union]

/-! ## Units of a ring in use -/

namespace UnitRing

/-- An end of a ring that answers at a place of its own, and saw a number that a flag word can have.
-/
structure InRing (base : Nat) (u : UnitRing) : Prop where
  base_eq : u.hostFlagBase = base
  unit_lt : u.unit < maxUnits
  seq_lt : u.lastSeen.toNat < 16

theorem InRing.took {base : Nat} {u v : UnitRing} (h : u.InRing base) (hv : u.Took v) :
    v.InRing base := by
  obtain ⟨hflags, hunit⟩ := hv.place
  refine ⟨hflags.trans h.base_eq, hunit ▸ h.unit_lt, ?_⟩
  cases hv with
  | nothing => exact h.seq_lt
  | popped flag =>
    rw [u.lastSeen_pop]
    exact flag.seq_lt

end UnitRing

theorem Session.inRing_newUnit {σ : Type} [Transport σ] {s : Session σ} {g : Geometry}
    {base unit : Nat} {u : UnitRing} (hunit : unit < maxUnits)
    (h : s.newUnit g base unit = .ok u) : u.InRing base := by
  unfold newUnit at h
  cases hread : s.readWord (g.slotStart unit) with
  | error e =>
    rw [hread] at h
    cases h
  | ok bits =>
    rw [hread] at h
    obtain rfl := Except.ok.inj h
    exact ⟨rfl, hunit, FlagWord.seq_lt ⟨bits⟩⟩

namespace RingActivity

variable {σ : Type} [Transport σ] {e : RingActivity σ} {P : UnitRing → Prop}

/-- What taking a request keeps, every event keeps at every end of a ring. -/
theorem units_step (hP : ∀ u v : UnitRing, u.Took v → P u → P v) (h : ∀ u ∈ e.ring.units, P u)
    (event : RingEvent) : ∀ u ∈ (e.step event).ring.units, P u := by
  have htaken : ∀ (position : Nat) (u : UnitRing) (outcome : _ × UnitRing × Session σ),
      u ∈ e.ring.units → u.Took outcome.2.1 →
        ∀ v ∈ (e.taken position outcome).ring.units, P v := by
    intro position u outcome hu ho v hv
    rcases List.mem_or_eq_of_mem_set hv with hv | rfl
    · exact h v hv
    · exact hP u _ ho (h u hu)
  cases event with
  | arrive offset data => exact h
  | host position act =>
    cases hfind : e.ring.units[position]? with
    | none =>
      simp only [step, FlagRing.find, hfind]
      exact h
    | some u =>
      have hu := List.mem_of_getElem? hfind
      simp only [step, FlagRing.find, hfind]
      cases act with
      | poll => exact h
      | take => exact htaken position u _ hu (Session.device_popRequest _ u).2
      | wait maxPolls found =>
        exact htaken position u _ hu
          (Session.device_finishWait _ (u.took_waitFrom found _ _)).2
      | waitResumed maxPolls found =>
        exact htaken position u _ hu
          (Session.device_finishWait _ (PendingWait.took_run ⟨u, 0, maxPolls⟩ found _)).2
      | fill r data => exact h
      | respond flag => exact h
      | drop => exact fun v hv => h v (List.mem_of_mem_eraseIdx hv)

theorem units_run (hP : ∀ u v : UnitRing, u.Took v → P u → P v) (h : ∀ u ∈ e.ring.units, P u)
    (events : List RingEvent) : ∀ u ∈ (e.run events).ring.units, P u := by
  induction events generalizing e with
  | nil => exact h
  | cons event rest ih => exact ih (units_step hP h event)

theorem inRing_start {c c' : Context σ} {g : Geometry} {ring : FlagRing}
    (h : c.attachRing g = (.ok ring, c')) : ∀ u ∈ ring.units, u.InRing c.hostFlagBase := by
  obtain ⟨hattached, -⟩ := attached_of_attachRing h
  obtain ⟨b, -, hfits⟩ := hattached.buffer
  intro u hu
  obtain ⟨unit, hunit⟩ := List.mem_iff_getElem?.1 hu
  have hlt : unit < g.unitCount := hattached.count ▸ (List.getElem?_eq_some_iff.1 hunit).1
  exact Session.inRing_newUnit (Nat.lt_of_lt_of_le hlt hfits.units.2) (hattached.unit unit u hunit)

/-- Whatever is done with a ring, its units keep their places, and the numbers they saw are those of
flag words. -/
theorem inRing_run {c c' : Context σ} {g : Geometry} {ring : FlagRing}
    (h : c.attachRing g = (.ok ring, c')) (events : List RingEvent) :
    ∀ u ∈ ((start c' ring).run events).ring.units, u.InRing c.hostFlagBase :=
  units_run (fun _ _ htook hu => hu.took htook) (inRing_start h) events

end RingActivity

/-! ## Responses -/

namespace UnitRing

/-- A word has the number of the request that was seen last, and the unit of the slot. -/
structure FilledIn (u : UnitRing) (word : FlagWord) : Prop where
  seq : word.seq = u.lastSeen
  unit : word.unit.toNat = u.unit

variable {base : Nat} {u : UnitRing}

theorem length_response (u : UnitRing) (flag : FlagWord) :
    (u.response flag).length = flag.length := by
  rw [response, FlagWord.length_union, FlagWord.length_compose, UInt8.or_zero]

theorem InRing.seq_response (h : u.InRing base) (flag : FlagWord) :
    (u.response flag).seq = flag.seq ||| u.lastSeen := by
  rw [response, FlagWord.seq_union, FlagWord.seq_compose_of_lt h.seq_lt]

theorem InRing.unit_response (h : u.InRing base) (flag : FlagWord) :
    (u.response flag).unit.toNat = flag.unit.toNat ||| u.unit := by
  have hunit : (UInt8.ofNat u.unit).toNat = u.unit := UInt8.toNat_ofNat_of_lt' h.unit_lt
  rw [response, FlagWord.unit_union, FlagWord.unit_compose, UInt8.toNat_or, hunit]

theorem InRing.filledIn_response_iff (h : u.InRing base) (flag : FlagWord) :
    u.FilledIn (u.response flag) ↔
      BitsAmong flag.seq.toNat u.lastSeen.toNat ∧ BitsAmong flag.unit.toNat u.unit := by
  rw [← or_eq_right_iff_bitsAmong, ← or_eq_right_iff_bitsAmong, ← UInt8.toNat_or, UInt8.toNat_inj,
    ← h.seq_response flag, ← h.unit_response flag]
  exact ⟨fun hfilled => ⟨hfilled.seq, hfilled.unit⟩, fun hboth => ⟨hboth.1, hboth.2⟩⟩

theorem InRing.pushResponse_eq {σ : Type} [Transport σ] (h : u.InRing base) (hbase : l2Base ≤ base)
    (s : Session σ) (flag : FlagWord) :
    s.pushResponse u flag = s.poke (responsePlace base u.unit) (u.response flag).bits := by
  have haddr : u.responseAddress = .ok (responsePlace base u.unit) := by
    rw [responseAddress, h.base_eq, if_pos hbase]
    rfl
  rw [Session.pushResponse, haddr]

end UnitRing

section Attached

variable {σ : Type} [Transport σ] {c c' : Context σ} {g : Geometry} {ring : FlagRing}

/-- **What a response says.** Let a ring be used in whatever way, and let a unit of it be answered
with some flag word. Then one word is poked, at the place of the unit. It has the length of the flag
word, and in the places of number and unit the bits of the flag word together with those of the last
number seen and of the unit. So number and unit are filled in exactly if the flag word has no other
bits there. If it is that of the request that was just taken, this is to say that the request names
the unit of the slot, or one whose bits are among those of this unit. -/
theorem response_filled_in_iff (hbase : l2Base ≤ c.hostFlagBase)
    (hring : c.attachRing g = (.ok ring, c')) (events : List RingEvent) (u : UnitRing)
    (hu : u ∈ ((RingActivity.start c' ring).run events).ring.units) (flag : FlagWord) :
    let word := u.response flag
    (∀ s : Session σ,
        s.pushResponse u flag = s.poke (responsePlace c.hostFlagBase u.unit) word.bits) ∧
      word.length = flag.length ∧ word.seq = flag.seq ||| u.lastSeen ∧
      word.unit.toNat = flag.unit.toNat ||| u.unit ∧
      (u.FilledIn word ↔
        BitsAmong flag.seq.toNat u.lastSeen.toNat ∧ BitsAmong flag.unit.toNat u.unit) ∧
      ((u.pop flag).2.FilledIn ((u.pop flag).2.response flag) ↔
        BitsAmong flag.unit.toNat u.unit) := by
  have hin := RingActivity.inRing_run hring events u hu
  have htook := hin.took (.popped flag)
  refine ⟨fun s => hin.pushResponse_eq hbase s flag, u.length_response flag, hin.seq_response flag,
    hin.unit_response flag, hin.filledIn_response_iff flag, ?_⟩
  rw [htook.filledIn_response_iff, u.lastSeen_pop, (Context.hostFlagBase_pop u flag).2]
  exact and_iff_right fun _ hbit => hbit

end Attached

/-- A request for the slot of the unit one that names the unit two. -/
def misnamed : FlagWord := .compose 1 2 2

/-- The accelerator delivers the request, and the host takes it. -/
def misnamedEvents : List RingEvent :=
  [.arrive 16 (Bytes.ofWord64 misnamed.bits), .host 1 .take]

/-- A word with a length alone is filled in, the word of the request is not. -/
theorem response_filled_in_misnamed :
    ∃ c ring c', Context.start countingSession countingImage [] 1 = .ok c ∧
      l2Base ≤ c.hostFlagBase ∧ c.attachRing (smallSlots 4) = (.ok ring, c') ∧
      ∃ u ∈ ((RingActivity.start c' ring).run misnamedEvents).ring.units,
        u.unit = 1 ∧ u.lastSeen = 1 ∧ u.anomalies = 1 ∧
        u.FilledIn (u.response (.ofLength 2)) ∧ ¬ u.FilledIn (u.response misnamed) := by
  obtain ⟨c, ring, c', u, hstart, hbase, hring, hfind, hunit, hseq, hanomalies⟩ :
      ∃ c ring c' u, Context.start countingSession countingImage [] 1 = .ok c ∧
        l2Base ≤ c.hostFlagBase ∧ c.attachRing (smallSlots 4) = (.ok ring, c') ∧
        ((RingActivity.start c' ring).run misnamedEvents).ring.units[1]? = some u ∧
        u.unit = 1 ∧ u.lastSeen = 1 ∧ u.anomalies = 1 :=
    ⟨_, _, _, _, rfl, by decide, rfl, rfl, rfl, rfl, rfl⟩
  have hu := List.mem_of_getElem? hfind
  obtain ⟨-, -, -, -, hplain, -⟩ :=
    response_filled_in_iff hbase hring misnamedEvents u hu (.ofLength 2)
  obtain ⟨-, -, -, -, hnamed, -⟩ :=
    response_filled_in_iff hbase hring misnamedEvents u hu misnamed
  rw [← or_eq_right_iff_bitsAmong, ← or_eq_right_iff_bitsAmong, hunit, hseq] at hplain hnamed
  refine ⟨c, ring, c', hstart, hbase, hring, u, hu, hunit, hseq, hanomalies, ?_, ?_⟩
  · exact hplain.2 (by decide)
  · rw [hnamed]
    decide

/-- The request is answered with its own word, and the response names the unit three. With a number
of its own the host's word changes the number of the response as well. -/
theorem response_names_third_unit :
    ∃ c ring c' u, Context.start countingSession countingImage [] 1 = .ok c ∧
      l2Base ≤ c.hostFlagBase ∧ c.attachRing (smallSlots 4) = (.ok ring, c') ∧
      ((RingActivity.start c' ring).run misnamedEvents).ring.units[1]? = some u ∧
      u.unit = 1 ∧ u.lastSeen = 1 ∧
      ((RingActivity.start c' ring).run
        (misnamedEvents ++ [.host 1 (.respond misnamed)])).context.session.device.pokes =
          #[(responsePlace c.hostFlagBase 1, (FlagWord.compose 1 2 3).bits)] ∧
      (FlagWord.compose 1 2 3).unit = 3 ∧ (u.response (.compose 2 0 0)).seq = 3 :=
  ⟨_, _, _, _, rfl, by decide, rfl, rfl, rfl, rfl, rfl, rfl, rfl⟩

end PacketOffload
