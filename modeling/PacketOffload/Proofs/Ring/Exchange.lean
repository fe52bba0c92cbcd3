import PacketOffload.Proofs.Ring.HostMemory
import PacketOffload.Proofs.Ring.Layout
import PacketOffload.Ring.FlagRing

/-!
# Exchanges over a ring

The host and the accelerator at work on the slots of one ring, in any order of their steps. At each
slot the accelerator writes a payload and then, as a step of its own, the flag word that announces
it, with the next sequence number; it goes on when it was answered. The host takes requests whenever
it likes, and answers each request once. What is not a slot's turn does nothing, so that every list
of moves is a run.

A slot keeps a log of what was delivered, taken and answered there. The log decides nothing that the
host is told: it only says when it is the accelerator's turn, and what it wrote before.

Main statements: a slot depends on its own bytes and pokes only (`SlotSound.congr`), and the host is
shown a request exactly if a delivery was not taken yet (`SlotSound.announces_iff`).
-/

namespace PacketOffload

/-- A request that the accelerator delivered. -/
structure Delivery where
  flag : FlagWord
  data : Bytes

/-- A request that the host took, with the payload that it found. -/
structure Taken where
  request : Request
  payload : Bytes

/-- What happened at a slot. -/
structure SlotLog where
  /-- The sequence number when the ring was attached. -/
  first : Nat
  /-- The payload that the accelerator wrote and did not announce yet. -/
  pending : Option Bytes
  delivered : List Delivery
  taken : List Taken
  /-- The request that the host has to answer. -/
  held : Option Request
  /-- The flags that the host answered with. -/
  responses : List FlagWord

/-- A step at a slot. -/
inductive RingMove where
  /-- The host takes the request in the slot, if there is one. -/
  | take
  /-- The host writes to the payload of the request that it holds. -/
  | fill (data : Bytes)
  /-- The host answers the request that it holds. -/
  | respond (flag : FlagWord)
  /-- The accelerator writes a payload. -/
  | load (data : Bytes)
  /-- The accelerator announces the payload that it wrote. -/
  | announce (flag : FlagWord)

/-- A ring at work. -/
structure Exchange (σ : Type) where
  session : Session (Recorded σ)
  ring : FlagRing
  slots : (unit : Nat) → SlotLog

variable {σ : Type} [Transport σ]

/-- The payload of a request, as the host sees it. -/
def Session.payloadOf (s : Session (Recorded σ)) (r : Request) : Bytes :=
  match s.readPayload r r.length with
  | .ok payload => payload
  | .error _ => []

/-- A move at the slot of one end of a ring. -/
def UnitRing.moveAt (s : Session (Recorded σ)) (u : UnitRing) (l : SlotLog) :
    RingMove → Session (Recorded σ) × UnitRing × SlotLog
  | .take =>
    match s.popRequest u with
    | (.ok (some r), v, t) =>
      (t, v, { l with taken := l.taken ++ [⟨r, t.payloadOf r⟩], held := some r })
    | (_, v, t) => (t, v, l)
  | .fill data =>
    match l.held with
    | some r => ((s.writePayload r data).2, u, l)
    | none => (s, u, l)
  | .respond flag =>
    if l.held.isSome ∧ flag.seq = 0 ∧ flag.unit = 0 then
      ((s.pushResponse u flag).2, u, { l with held := none, responses := l.responses ++ [flag] })
    else (s, u, l)
  | .load data =>
    if l.pending = none ∧ l.delivered.length = l.responses.length ∧
        data.length ≤ u.geometry.payloadLength then
      ((s.writeBytes (u.geometry.payloadStart u.unit) data).2, u, { l with pending := some data })
    else (s, u, l)
  | .announce flag =>
    match l.pending with
    | some data =>
      if flag.seq.toNat = (l.first + l.delivered.length + 1) % 16 then
        ((s.writeWord (u.geometry.slotStart u.unit) flag.bits).2, u,
          { l with pending := none, delivered := l.delivered ++ [⟨flag, data⟩] })
      else (s, u, l)
    | none => (s, u, l)

namespace Exchange

/-- The sequence number in a slot. -/
def seqAt (s : Session (Recorded σ)) (g : Geometry) (unit : Nat) : Nat :=
  match s.readWord (g.slotStart unit) with
  | .ok bits => (FlagWord.mk bits).seq.toNat
  | .error _ => 0

/-- Attaches a ring, over which nothing was exchanged yet. -/
def start (s : Session (Recorded σ)) (g : Geometry) (hostFlagBase : Nat) :
    Except Fault (Exchange σ) :=
  match s.attachRing g hostFlagBase with
  | (.ok ring, t) => .ok ⟨t, ring, fun unit => ⟨seqAt s g unit, none, [], [], none, []⟩⟩
  | (.error e, _) => .error e

/-- A move at the slot of a unit; a unit that does not exist has none. -/
def step (e : Exchange σ) : Nat × RingMove → Exchange σ
  | (unit, move) =>
    match e.ring.find unit with
    | .error _ => e
    | .ok u =>
      let (t, v, l) := u.moveAt e.session (e.slots unit) move
      ⟨t, e.ring.setUnit unit v, fun other => if other = unit then l else e.slots other⟩

def run (e : Exchange σ) (moves : List (Nat × RingMove)) : Exchange σ := moves.foldl step e

end Exchange

/-! ## One slot -/

/-- The address of a unit's word for responses. -/
def responsePlace (base unit : Nat) : Nat := base - l2Base + flagLength * unit

theorem responsePlace_injective {base unit other : Nat}
    (h : responsePlace base unit = responsePlace base other) : unit = other := by
  simp only [responsePlace, flagLength] at h
  omega

/-- The host found what was delivered. -/
structure Taken.Shows (t : Taken) (d : Delivery) : Prop where
  flag : t.request.flag = d.flag
  data : t.payload.take d.data.length = d.data

/-- The flag word in the slot of a unit. -/
def Session.flagAt (s : Session (Recorded σ)) (g : Geometry) (unit : Nat) : FlagWord :=
  ⟨Bytes.toWord64 (s.bytes (g.slotStart unit) 8)⟩

/-- Each response to a unit was one poke, and nothing else was poked there since. -/
def Answered (base : Nat) (before : List UInt64) (unit : Nat) (s : Session (Recorded σ))
    (l : SlotLog) : Prop :=
  ∃ words, s.device.pokesAt (responsePlace base unit) = before ++ words ∧
    words.length = l.responses.length ∧ ∀ (k : Nat) word flag, words[k]? = some word →
      l.responses[k]? = some flag → FlagWord.Answers word flag ((l.first + k + 1) % 16) unit

/-- A slot in the course of an exchange: its bytes, the host's end of it, and its log fit together.
At most one delivery is ahead of what was taken, and at most one of what was answered. -/
structure SlotSound (g : Geometry) (base : Nat) (before : List UInt64) (unit : Nat)
    (s : Session (Recorded σ)) (u : UnitRing) (l : SlotLog) : Prop where
  geometry_eq : u.geometry = g
  base_eq : u.hostFlagBase = base
  unit_eq : u.unit = unit
  lastSeen : u.lastSeen.toNat = (l.first + l.taken.length) % 16
  seq : (s.flagAt g unit).seq.toNat = (l.first + l.delivered.length) % 16
  order : l.responses.length ≤ l.taken.length ∧ l.taken.length ≤ l.delivered.length ∧
    l.delivered.length ≤ l.responses.length + 1
  held_iff : l.held.isSome = true ↔ l.responses.length < l.taken.length
  held : ∀ r, l.held = some r → r.start = g.payloadStart unit ∧ r.length = g.payloadLength
  pending : ∀ data, l.pending = some data → l.delivered.length = l.responses.length ∧
    data.length ≤ g.payloadLength ∧ s.bytes (g.payloadStart unit) data.length = data
  /-- The delivery that was not taken yet is what stands in the slot. -/
  waiting : ∀ d, l.delivered[l.taken.length]? = some d → s.flagAt g unit = d.flag ∧
    d.data.length ≤ g.payloadLength ∧ s.bytes (g.payloadStart unit) d.data.length = d.data
  shown : ∀ (i : Nat) t d, l.taken[i]? = some t → l.delivered[i]? = some d → t.Shows d
  anomalies : u.anomalies = l.taken.countP fun t => t.request.flag.unit.toNat ≠ unit
  answered : Answered base before unit s l

/-- A move that stays in the slot of a unit. -/
structure StaysIn (g : Geometry) (base length unit : Nat) (s t : Session (Recorded σ)) :
    Prop where
  mapped : t.Mapped length
  byte : ∀ i < length, ¬ g.Owns unit i → t.byte i = s.byte i
  pokes : ∀ place, place ≠ responsePlace base unit →
    t.device.pokesAt place = s.device.pokesAt place

/-- The slot of a unit is the same in two sessions: its bytes, and what was poked at the unit's word
for responses. -/
structure SameSlot (g : Geometry) (base unit : Nat) (s t : Session (Recorded σ)) : Prop where
  byte : ∀ i, g.Owns unit i → t.byte i = s.byte i
  pokes : t.device.pokesAt (responsePlace base unit) =
    s.device.pokesAt (responsePlace base unit)

/-! ## What a slot knows of the session -/

variable {g : Geometry} {base length unit : Nat} {before : List UInt64}
  {s t : Session (Recorded σ)} {u : UnitRing} {l : SlotLog}

theorem bytes_of_owned (hg : g.Fits length) (hb : ∀ i, g.Owns unit i → t.byte i = s.byte i)
    {count : Nat} (hc : count ≤ g.payloadLength) :
    t.bytes (g.payloadStart unit) count = s.bytes (g.payloadStart unit) count := by
  refine Session.bytes_congr fun i hlo hhi => hb i ?_
  have hown : g.Owns unit (g.payloadStart unit + (i - g.payloadStart unit)) :=
    hg.owns_payload (by omega)
  rwa [Nat.add_sub_cancel' hlo] at hown

theorem flagAt_of_owned (hg : g.Fits length) (hb : ∀ i, g.Owns unit i → t.byte i = s.byte i) :
    t.flagAt g unit = s.flagAt g unit := by
  have hbytes : t.bytes (g.slotStart unit) 8 = s.bytes (g.slotStart unit) 8 := by
    refine Session.bytes_congr fun i hlo hhi => hb i ?_
    have hown : g.Owns unit (g.slotStart unit + (i - g.slotStart unit)) :=
      hg.owns_flag (by omega)
    rwa [Nat.add_sub_cancel' hlo] at hown
  rw [Session.flagAt, hbytes, Session.flagAt]

theorem SameSlot.refl (g : Geometry) (base unit : Nat) (s : Session (Recorded σ)) :
    SameSlot g base unit s s :=
  ⟨fun _ _ => rfl, rfl⟩

theorem SameSlot.trans {r : Session (Recorded σ)} (h : SameSlot g base unit r s)
    (h' : SameSlot g base unit s t) : SameSlot g base unit r t :=
  ⟨fun i hi => (h'.byte i hi).trans (h.byte i hi), h'.pokes.trans h.pokes⟩

/-- What stays in one slot leaves the others as they are. -/
theorem StaysIn.sameSlot {other : Nat} (h : StaysIn g base length unit s t) (hg : g.Fits length)
    (ho : other ≠ unit) (hother : other < g.unitCount) : SameSlot g base other s t where
  byte i hi := by
    have hend := hg.slotEnd_le hother
    exact h.byte i (by have := hi.2; omega) fun hown => ho (hi.unique hown)
  pokes := h.pokes _ fun heq => ho (responsePlace_injective heq)

/-- Only the bytes of the slot and the unit's own pokes matter to it. -/
theorem SlotSound.congr (h : SlotSound g base before unit s u l) (hg : g.Fits length)
    (hb : ∀ i, g.Owns unit i → t.byte i = s.byte i)
    (hp : t.device.pokesAt (responsePlace base unit) =
      s.device.pokesAt (responsePlace base unit)) : SlotSound g base before unit t u l := by
  have hflag : t.flagAt g unit = s.flagAt g unit := flagAt_of_owned hg hb
  refine { h with seq := ?seq, pending := ?pending, waiting := ?waiting, answered := ?answered }
  case seq =>
    rw [hflag]
    exact h.seq
  case pending =>
    intro data hd
    obtain ⟨hturn, hlen, hdata⟩ := h.pending data hd
    rw [bytes_of_owned hg hb hlen]
    exact ⟨hturn, hlen, hdata⟩
  case waiting =>
    intro d hd
    obtain ⟨hshown, hlen, hdata⟩ := h.waiting d hd
    rw [hflag, bytes_of_owned hg hb hlen]
    exact ⟨hshown, hlen, hdata⟩
  case answered =>
    rw [Answered, hp]
    exact h.answered

theorem readFlag_of_mapped (hg : g.Fits length) (hs : s.Mapped length) (hu : unit < g.unitCount)
    (hgeometry : u.geometry = g) (hunit : u.unit = unit) :
    s.readFlag u = .ok (s.flagAt g unit) := by
  rw [Session.readFlag, hgeometry, hunit,
    Session.readWord_of_mapped hs (hg.flagEnd_le hu) (hg.slotStart_mod unit)]
  rfl

theorem SlotSound.readFlag (h : SlotSound g base before unit s u l) (hg : g.Fits length)
    (hs : s.Mapped length) (hu : unit < g.unitCount) : s.readFlag u = .ok (s.flagAt g unit) :=
  readFlag_of_mapped hg hs hu h.geometry_eq h.unit_eq

/-- The host's end of a slot shows a request exactly if a delivery was not taken yet. -/
theorem SlotSound.announces_iff (h : SlotSound g base before unit s u l) :
    u.announces (s.flagAt g unit) = true ↔ l.taken.length < l.delivered.length := by
  have hseq := h.seq
  have hlast := h.lastSeen
  have horder := h.order
  rw [UnitRing.announces, bne_iff_ne, Ne, ← UInt8.toNat_inj, hseq, hlast]
  omega

end PacketOffload
