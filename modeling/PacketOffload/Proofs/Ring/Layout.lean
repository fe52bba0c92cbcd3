import PacketOffload.Ring.UnitRing

/-!
# Slots and flag words

The slots of a ring do not overlap, and inside a slot the flag word and the payload do not. In a
flag word the sequence number and the unit can be filled in without touching the other bits.

Main statements: a byte belongs to one slot (`Geometry.Owns.unique`), and a response has the number
and the unit that were filled in, and all other bits of the flag that was given
(`FlagWord.answers_union`).
-/

namespace PacketOffload

/-! ## Slots -/

namespace Geometry

variable {g : Geometry} {unit other i length : Nat}

/-- A byte of a buffer lies in the slot of a unit. -/
def Owns (g : Geometry) (unit i : Nat) : Prop :=
  g.slotStart unit ≤ i ∧ i < g.slotStart unit + g.slotSize

theorem Owns.unique (h : g.Owns unit i) (h' : g.Owns other i) : unit = other := by
  obtain ⟨hlo, hhi⟩ := h
  obtain ⟨hlo', hhi'⟩ := h'
  rw [slotStart, ← Nat.succ_mul] at hhi hhi'
  rw [slotStart] at hlo hlo'
  have hle : ∀ {a b : Nat}, a * g.slotSize ≤ i → i < b.succ * g.slotSize → a ≤ b := by
    intro a b ha hb
    exact Nat.lt_succ_iff.1 (Nat.lt_of_mul_lt_mul_right (Nat.lt_of_le_of_lt ha hb))
  exact Nat.le_antisymm (hle hlo hhi') (hle hlo' hhi)

/-- A geometry that was accepted for a buffer of some length. -/
structure Fits (g : Geometry) (length : Nat) : Prop where
  units : 1 ≤ g.unitCount ∧ g.unitCount ≤ maxUnits
  aligned : g.slotSize % 8 = 0
  flag : flagLength ≤ g.payloadOffset
  payload : g.payloadOffset < g.slotSize
  room : g.requiredLength ≤ length

theorem fits_of_check (h : g.check length = .ok ()) : g.Fits length := by
  obtain ⟨hunits, ⟨haligned, hflag, hpayload⟩, hroom⟩ := check_eq_ok_iff.1 h
  exact ⟨hunits, haligned, hflag, hpayload, hroom⟩

theorem Fits.check (h : g.Fits length) : g.check length = .ok () :=
  check_eq_ok_iff.2 ⟨h.units, ⟨h.aligned, h.flag, h.payload⟩, h.room⟩

theorem Fits.slotEnd_le (h : g.Fits length) (hu : unit < g.unitCount) :
    g.slotStart unit + g.slotSize ≤ length := by
  have hmul : (unit + 1) * g.slotSize ≤ g.unitCount * g.slotSize :=
    Nat.mul_le_mul_right g.slotSize hu
  have hroom := h.room
  rw [requiredLength] at hroom
  rw [slotStart, ← Nat.succ_mul]
  exact Nat.le_trans hmul hroom

theorem Fits.slotStart_mod (h : g.Fits length) (unit : Nat) : g.slotStart unit % 8 = 0 := by
  rw [slotStart, Nat.mul_mod, h.aligned, Nat.mul_zero, Nat.zero_mod]

theorem Fits.flagEnd_le (h : g.Fits length) (hu : unit < g.unitCount) :
    g.slotStart unit + 8 ≤ length := by
  have hslot := h.slotEnd_le hu
  have hflag := h.flag
  have hpayload := h.payload
  simp only [flagLength] at hflag
  omega

theorem Fits.payloadEnd_le (h : g.Fits length) (hu : unit < g.unitCount) :
    g.payloadStart unit + g.payloadLength ≤ length := by
  have hslot := h.slotEnd_le hu
  have hpayload := h.payload
  simp only [payloadStart, payloadLength]
  omega

theorem Fits.owns_flag (h : g.Fits length) {k : Nat} (hk : k < 8) :
    g.Owns unit (g.slotStart unit + k) := by
  have hflag := h.flag
  have hpayload := h.payload
  simp only [flagLength] at hflag
  exact ⟨by omega, by omega⟩

theorem Fits.owns_payload (h : g.Fits length) {k : Nat} (hk : k < g.payloadLength) :
    g.Owns unit (g.payloadStart unit + k) := by
  have hpayload := h.payload
  simp only [payloadLength] at hk
  simp only [Owns, payloadStart]
  omega

end Geometry

/-! ## Responses -/

namespace FlagWord

/-- The bits of the sequence number and of the unit. -/
def filledIn : UInt64 := 0xff00000f

theorem seq_lt (flag : FlagWord) : flag.seq.toNat < 16 := by
  have hle : (flag.bits &&& 0xf).toNat ≤ 15 := by
    rw [UInt64.toNat_and]
    exact Nat.and_le_right
  have hmod : flag.seq.toNat = (flag.bits &&& 0xf).toNat % 256 := UInt64.toNat_toUInt8 _
  omega

theorem seq_union (a b : FlagWord) : (a.union b).seq = a.seq ||| b.seq := by
  apply UInt8.toBitVec_inj.1
  ext i hi
  simp [seq, union, Bool.and_or_distrib_right]

theorem unit_union (a b : FlagWord) : (a.union b).unit = a.unit ||| b.unit := by
  apply UInt8.toBitVec_inj.1
  ext i hi
  simp [unit, union]

/-- A number that a flag word can have is put into a word as it is. -/
theorem seq_compose_of_lt {seq : UInt8} (h : seq.toNat < 16) (length unit : UInt8) :
    (compose seq length unit).seq = seq := by
  rw [seq_compose]
  apply UInt8.toNat_inj.1
  rw [UInt8.toNat_and]
  exact Nat.and_two_pow_sub_one_of_lt_two_pow (n := 4) h

/-- A word without a length has no bits but those that are filled in. -/
theorem compose_other_bits (seq unit : UInt8) :
    (compose seq 0 unit).bits &&& ~~~filledIn = 0 := by
  have hmask : ∀ i < 64, filledIn.toBitVec.getLsbD i = decide (i < 4 ∨ 24 ≤ i ∧ i < 32) := by
    decide
  have hlow : ∀ i < 64, (0xf : UInt64).toBitVec.getLsbD i = decide (i < 4) := by decide
  apply UInt64.toBitVec_inj.1
  apply BitVec.eq_of_getLsbD_eq
  intro i hi
  simp only [compose, UInt64.toBitVec_and, UInt64.toBitVec_or, UInt64.toBitVec_not,
    UInt64.toBitVec_shiftLeft, UInt8.toBitVec_toUInt64, BitVec.getLsbD_and, BitVec.getLsbD_or,
    BitVec.getLsbD_not, hmask i hi, hlow i hi]
  by_cases h4 : i < 4
  · simp [h4]
  by_cases h24 : 24 ≤ i ∧ i < 32
  · simp [h24]
  -- What is left of the unit here would lie below or above its eight bits.
  have hbyte : i < 24 ∨ unit.toBitVec.getLsbD (i - 24) = false := by
    by_cases hlt : i < 24
    · exact Or.inl hlt
    · exact Or.inr (BitVec.getLsbD_of_ge _ _ (by omega))
  rcases hbyte with hlt | hzero
  · simp [h4, hlt]
  · simp [h4, hzero]

/-- A word is the response to a request: it has the number of the request and the unit, and all
other bits of a flag. -/
structure Answers (word : UInt64) (flag : FlagWord) (seq unit : Nat) : Prop where
  seq_eq : (FlagWord.mk word).seq.toNat = seq
  unit_eq : (FlagWord.mk word).unit.toNat = unit
  other_bits : word &&& ~~~filledIn = flag.bits &&& ~~~filledIn

theorem answers_union {flag : FlagWord} {seq unit : UInt8} (hs : flag.seq = 0) (hu : flag.unit = 0)
    (hlt : seq.toNat < 16) :
    Answers (flag.union (compose seq 0 unit)).bits flag seq.toNat unit.toNat := by
  refine ⟨?_, ?_, ?_⟩
  · change (flag.union (compose seq 0 unit)).seq.toNat = seq.toNat
    rw [seq_union, hs, seq_compose_of_lt hlt, UInt8.zero_or]
  · change (flag.union (compose seq 0 unit)).unit.toNat = unit.toNat
    rw [unit_union, hu, unit_compose, UInt8.zero_or]
  · have hsplit : ∀ a b m : UInt64, (a ||| b) &&& m = a &&& m ||| b &&& m :=
      fun a b m => UInt64.toBitVec_inj.1 BitVec.and_or_distrib_right
    rw [union, hsplit, compose_other_bits, UInt64.or_zero]

end FlagWord

end PacketOffload
