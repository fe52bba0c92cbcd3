import PacketOffload.Proofs.Ring.Attaching
import PacketOffload.Transport.Simulator

/-!
# Parts of a ring's buffer

A ring lends out pieces of its buffer: the flag words to the host's polls and the payloads to its
requests. A geometry is taken exactly if these pieces are sound: each lies in the buffer, each flag
word is aligned, and no two of them share a byte. Then no look at a slot can fail, whatever is
written in the buffer.

Main statements: a geometry that fits lays out its parts soundly (`Geometry.Fits.laidOut`), the ends
of its ring are always served (`served_of_fits`), and which geometries are taken
(`geometry_attached_iff`).
-/

namespace PacketOffload

/-! ## Ranges -/

/-- A range of bytes in a buffer. -/
structure ByteRange where
  start : Nat
  length : Nat
  deriving DecidableEq, Repr

namespace ByteRange

def Covers (r : ByteRange) (i : Nat) : Prop := r.start ≤ i ∧ i < r.start + r.length

/-- The range lies in a buffer of some length. -/
def Within (r : ByteRange) (length : Nat) : Prop := r.start + r.length ≤ length

/-- No byte lies in both ranges. -/
def Apart (r s : ByteRange) : Prop := ∀ i, r.Covers i → ¬ s.Covers i

end ByteRange

namespace Geometry

variable {g : Geometry} {unit i length : Nat}

def flagRange (g : Geometry) (unit : Nat) : ByteRange := ⟨g.slotStart unit, flagLength⟩

def payloadRange (g : Geometry) (unit : Nat) : ByteRange := ⟨g.payloadStart unit, g.payloadLength⟩

/-- The flag words and payloads of all slots. -/
def parts (g : Geometry) : List ByteRange :=
  (List.range g.unitCount).flatMap fun unit => [g.flagRange unit, g.payloadRange unit]

/-- The parts of a geometry are sound in a buffer of some length, and a flag word has room for the
number of each unit. -/
structure LaidOut (g : Geometry) (length : Nat) : Prop where
  flag_aligned : ∀ unit < g.unitCount, (g.flagRange unit).start % 8 = 0
  flag_within : ∀ unit < g.unitCount, (g.flagRange unit).Within length
  payload_nonempty : ∀ unit < g.unitCount, 0 < (g.payloadRange unit).length
  payload_within : ∀ unit < g.unitCount, (g.payloadRange unit).Within length
  apart : g.parts.Pairwise ByteRange.Apart
  unit_named : ∀ unit < g.unitCount, ∀ seq size,
    (FlagWord.compose seq size (UInt8.ofNat unit)).unit.toNat = unit

/-! ## Geometries that fit -/

theorem fits_iff :
    g.Fits length ↔
      (1 ≤ g.unitCount ∧ g.unitCount ≤ 256) ∧ g.slotSize % 8 = 0 ∧
        (8 ≤ g.payloadOffset ∧ g.payloadOffset < g.slotSize) ∧
          g.unitCount * g.slotSize ≤ length := by
  constructor
  · intro h
    exact ⟨h.units, h.aligned, ⟨h.flag, h.payload⟩, h.room⟩
  · rintro ⟨hunits, haligned, ⟨hflag, hpayload⟩, hroom⟩
    exact ⟨hunits, haligned, hflag, hpayload, hroom⟩

theorem Fits.owns_of_covers (h : g.Fits length) {r : ByteRange}
    (hr : r ∈ [g.flagRange unit, g.payloadRange unit]) (hi : r.Covers i) : g.Owns unit i := by
  obtain ⟨hlo, hhi⟩ := hi
  have hflag := h.flag
  have hpayload := h.payload
  simp only [List.mem_cons, List.not_mem_nil, or_false] at hr
  rcases hr with rfl | rfl
  · simp only [flagRange] at hlo hhi
    exact ⟨hlo, by omega⟩
  · simp only [payloadRange, payloadStart, payloadLength] at hlo hhi
    exact ⟨by omega, by omega⟩

theorem Fits.flag_apart_payload (h : g.Fits length) (unit : Nat) :
    (g.flagRange unit).Apart (g.payloadRange unit) := by
  intro i hflag hpayload
  have hoffset := h.flag
  have hend := hflag.2
  have hstart := hpayload.1
  simp only [flagRange, payloadRange, payloadStart] at hend hstart
  omega

/-- Parts of one slot are apart by their offsets, and those of two slots by their slots. -/
theorem Fits.pairwise_apart (h : g.Fits length) : g.parts.Pairwise ByteRange.Apart := by
  rw [parts, List.pairwise_flatMap]
  constructor
  · intro unit _
    simpa using h.flag_apart_payload unit
  · refine List.pairwise_lt_range.imp ?_
    intro unit other hlt r hr s hs i hri hsi
    have hsame := (h.owns_of_covers hr hri).unique (h.owns_of_covers hs hsi)
    omega

theorem Fits.laidOut (h : g.Fits length) : g.LaidOut length where
  flag_aligned unit _ := h.slotStart_mod unit
  flag_within _ hu := h.flagEnd_le hu
  payload_nonempty _ _ := Nat.sub_pos_of_lt h.payload
  payload_within _ hu := h.payloadEnd_le hu
  apart := h.pairwise_apart
  unit_named unit hu seq size := by
    have hlt : unit < 256 := Nat.lt_of_lt_of_le hu h.units.2
    rw [FlagWord.unit_compose]
    exact UInt8.toNat_ofNat_of_lt' hlt

end Geometry

/-! ## Looks at a slot -/

/-- Whatever the buffer of a session holds, if only it has this length, an end of a ring is told
whether a request waits and given the request, with the payload of its slot. -/
def UnitRing.Served (σ : Type) [Transport σ] (u : UnitRing) (length : Nat) : Prop :=
  ∀ (s : Session σ) (b : DmaBuffer), s.buffer = some b → b.length = length →
    (∃ waits, s.hasRequest u = .ok waits) ∧
      ∃ request, (s.popRequest u).1 = .ok request ∧
        ∀ r, request = some r → ⟨r.start, r.length⟩ = u.geometry.payloadRange u.unit

theorem UnitRing.range_of_pop {u : UnitRing} {flag : FlagWord} {r : Request}
    (h : (u.pop flag).1 = some r) : ⟨r.start, r.length⟩ = u.geometry.payloadRange u.unit := by
  unfold UnitRing.pop at h
  split at h
  · obtain rfl := Option.some.inj h
    rfl
  · cases h

theorem served_of_fits {σ : Type} [Transport σ] {u : UnitRing} {length : Nat}
    (hg : u.geometry.Fits length) (hu : u.unit < u.geometry.unitCount) : u.Served σ length := by
  rintro s b hb rfl
  obtain ⟨word, hword⟩ := Session.exists_readWord hb hg hu
  have hread : s.readFlag u = .ok ⟨word⟩ := by
    rw [Session.readFlag, hword]
    rfl
  refine ⟨⟨u.announces ⟨word⟩, by rw [Session.hasRequest, hread]; rfl⟩, (u.pop ⟨word⟩).1, ?_, ?_⟩
  · simp only [Session.popRequest, hread]
    exact Session.lend_pop hb hg hu ⟨word⟩
  · intro r hr
    exact UnitRing.range_of_pop hr

/-- **Which geometries are taken.** A ring is attached to a mapped buffer with none on it exactly if
it has at least one unit and not more than a flag word can name, its slots begin at multiples of
eight, the payload leaves room for the flag word and has room itself, and all slots together fit
into the buffer. Its parts are laid out soundly then, there is one end for each unit, and at every
later time, whatever is in the buffer, each end can be asked for a request and can take it. -/
theorem geometry_attached_iff {σ : Type} [Transport σ] {s : Session σ} {b : DmaBuffer}
    (hb : s.buffer = some b) (hfree : s.ringAttached = false) (g : Geometry) (base : Nat) :
    ((∃ ring t, s.attachRing g base = (.ok ring, t)) ↔
      (1 ≤ g.unitCount ∧ g.unitCount ≤ 256) ∧ g.slotSize % 8 = 0 ∧
        (8 ≤ g.payloadOffset ∧ g.payloadOffset < g.slotSize) ∧
          g.unitCount * g.slotSize ≤ b.length) ∧
      ∀ ring t, s.attachRing g base = (.ok ring, t) →
        g.LaidOut b.length ∧ ring.units.length = g.unitCount ∧
          ∀ (unit : Nat) u, ring.units[unit]? = some u → u.unit = unit ∧ u.geometry = g ∧
            ∀ v : UnitRing, v.unit = unit → v.geometry = g → v.Served σ b.length := by
  rw [← Geometry.fits_iff]
  constructor
  · constructor
    · rintro ⟨ring, t, hok⟩
      obtain ⟨b', hb', hfits⟩ := (Session.attached_of_eq_ok hok).1.buffer
      obtain rfl := Option.some.inj (hb.symm.trans hb')
      exact hfits
    · intro hfits
      exact (Session.attachRing_eq_ok_iff base hb hfits).2 hfree
  · intro ring t hok
    obtain ⟨hring, -⟩ := Session.attached_of_eq_ok hok
    obtain ⟨b', hb', hfits⟩ := hring.buffer
    obtain rfl := Option.some.inj (hb.symm.trans hb')
    refine ⟨hfits.laidOut, hring.count, ?_⟩
    intro unit u hu
    obtain ⟨hgeometry, -, hunit⟩ := Session.newUnit_eq_ok (hring.unit unit u hu)
    refine ⟨hunit, hgeometry, ?_⟩
    rintro v rfl rfl
    have hlt := (List.getElem?_eq_some_iff.1 hu).1
    exact served_of_fits hfits (hring.count ▸ hlt)

/-- As many units as a flag word can name, with slots of a flag word and eight bytes, just fit into
a page. With the payload at the end of the slot nothing is left of it. -/
theorem geometry_attached_to_one_page :
    let s : Session Simulator :=
      ⟨.powerOn, 0, none, some ⟨4096, .own .empty⟩, ⟨true, false, false⟩, false, []⟩
    (∃ ring t, s.attachRing ⟨256, 16, 8⟩ 0 = (.ok ring, t) ∧ ring.units.length = 256 ∧
      Geometry.LaidOut ⟨256, 16, 8⟩ 4096) ∧
      ¬ ∃ ring t, s.attachRing ⟨256, 16, 16⟩ 0 = (.ok ring, t) := by
  intro s
  have hbuffer : s.buffer = some ⟨4096, .own .empty⟩ := rfl
  obtain ⟨htaken, hsound⟩ := geometry_attached_iff hbuffer rfl ⟨256, 16, 8⟩ 0
  obtain ⟨hfull, -⟩ := geometry_attached_iff hbuffer rfl ⟨256, 16, 16⟩ 0
  constructor
  · obtain ⟨ring, t, hok⟩ := htaken.2 (by decide)
    obtain ⟨hlaid, hcount, -⟩ := hsound ring t hok
    exact ⟨ring, t, hok, hcount, hlaid⟩
  · rw [hfull]
    decide

end PacketOffload
