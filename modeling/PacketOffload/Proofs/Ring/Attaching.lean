import PacketOffload.Proofs.Ring.Layout
import PacketOffload.Ring.FlagRing

/-!
# Attaching a ring

A ring is attached all at once or not at all. What can keep it from being attached is a buffer that
is missing or too small, a geometry that is none, or a ring that is attached already; the slots can
always be read then.

Main statements: what an attempt comes to (`attachRing_cases`), and when it succeeds
(`attachRing_eq_ok_iff`).
-/

namespace PacketOffload

/-! ## Lists of results -/

section

variable {α β : Type} {f : α → Except Fault β} {xs : List α} {ys : List β}

theorem getElem?_of_mapM_eq_ok (h : xs.mapM f = .ok ys) :
    ys.length = xs.length ∧
      ∀ (i : Nat) y, ys[i]? = some y → ∃ x, xs[i]? = some x ∧ f x = .ok y := by
  induction xs generalizing ys with
  | nil =>
    obtain rfl := Except.ok.inj h
    exact ⟨rfl, nofun⟩
  | cons x xs ih =>
    rw [List.mapM_cons] at h
    cases hx : f x with
    | error e => simp [hx, bind, Except.bind] at h
    | ok first =>
      cases hrest : xs.mapM f with
      | error e => simp [hx, hrest, bind, Except.bind] at h
      | ok rest =>
        simp only [hx, hrest, bind, Except.bind, pure, Except.pure, Except.ok.injEq] at h
        subst h
        obtain ⟨hlength, hget⟩ := ih hrest
        refine ⟨congrArg Nat.succ hlength, fun i y hy => ?_⟩
        cases i with
        | zero => exact ⟨x, rfl, hx.trans (congrArg Except.ok (Option.some.inj hy))⟩
        | succ i => exact hget i y hy

theorem exists_mapM_eq_ok (h : ∀ x ∈ xs, ∃ y, f x = .ok y) : ∃ ys, xs.mapM f = .ok ys := by
  induction xs with
  | nil => exact ⟨[], rfl⟩
  | cons x xs ih =>
    obtain ⟨y, hy⟩ := h x List.mem_cons_self
    obtain ⟨ys, hys⟩ := ih fun z hz => h z (List.mem_cons_of_mem x hz)
    refine ⟨y :: ys, ?_⟩
    rw [List.mapM_cons, hy, hys]
    rfl

end

/-! ## Units -/

namespace Session

variable {σ : Type} [Transport σ] {s : Session σ} {g : Geometry} {base unit : Nat} {u : UnitRing}
  {b : DmaBuffer}

theorem newUnit_eq_ok (h : s.newUnit g base unit = .ok u) :
    u.geometry = g ∧ u.hostFlagBase = base ∧ u.unit = unit := by
  unfold newUnit at h
  cases hw : s.readWord (g.slotStart unit) with
  | error e => simp [hw, bind, Except.bind] at h
  | ok bits =>
    simp only [hw, bind, Except.bind, pure, Except.pure, Except.ok.injEq] at h
    subst h
    exact ⟨rfl, rfl, rfl⟩

/-- The flag word of a slot in the buffer can be read, whatever stands there. -/
theorem exists_readWord (hb : s.buffer = some b) (hg : g.Fits b.length)
    (hu : unit < g.unitCount) : ∃ word, s.readWord (g.slotStart unit) = .ok word := by
  simp only [readWord, getBuffer, hb, bind, Except.bind]
  exact ⟨_, DmaBuffer.readWord_eq_ok_iff.2 ⟨⟨hg.flagEnd_le hu, hg.slotStart_mod unit⟩, rfl⟩⟩

theorem exists_newUnit (base : Nat) (hb : s.buffer = some b) (hg : g.Fits b.length)
    (hu : unit < g.unitCount) : ∃ u, s.newUnit g base unit = .ok u := by
  obtain ⟨word, hread⟩ := exists_readWord hb hg hu
  rw [newUnit, hread]
  exact ⟨_, rfl⟩

omit [Transport σ] in
/-- The payload of a request taken from a slot in the buffer can be lent. -/
theorem lend_pop (hb : s.buffer = some b) (hg : u.geometry.Fits b.length)
    (hu : u.unit < u.geometry.unitCount) (flag : FlagWord) :
    s.lend (u.pop flag).1 = .ok (u.pop flag).1 := by
  unfold UnitRing.pop
  split
  · have hrange : b.checkRange (u.request flag).start (u.request flag).length = .ok () :=
      DmaBuffer.checkRange_eq_ok_iff.2 (hg.payloadEnd_le hu)
    simp only [lend, getBuffer, hb, hrange, bind, Except.bind, pure, Except.pure]
  · rfl

/-- A ring is attached: its units are those of the slots, in their order. -/
structure Attached (s : Session σ) (g : Geometry) (base : Nat) (ring : FlagRing) : Prop where
  buffer : ∃ b, s.buffer = some b ∧ g.Fits b.length
  free : s.ringAttached = false
  count : ring.units.length = g.unitCount
  unit : ∀ (i : Nat) u, ring.units[i]? = some u → s.newUnit g base i = .ok u

/-- An attempt attaches a ring, or it changes nothing. -/
theorem attachRing_cases (s : Session σ) (g : Geometry) (base : Nat) :
    (∃ e, s.attachRing g base = (.error e, s)) ∨
      ∃ ring, s.attachRing g base = (.ok ring, { s with ringAttached := true }) ∧
        s.Attached g base ring := by
  unfold attachRing
  cases hb : s.buffer with
  | none => exact .inl ⟨_, rfl⟩
  | some b =>
    simp only
    cases hcheck : g.check b.length with
    | error e => exact .inl ⟨e, rfl⟩
    | ok =>
      simp only
      cases hfree : s.ringAttached with
      | true => exact .inl ⟨_, rfl⟩
      | false =>
        simp only [Bool.false_eq_true, if_false]
        cases hunits : (List.range g.unitCount).mapM (s.newUnit g base) with
        | error e => exact .inl ⟨e, rfl⟩
        | ok units =>
          obtain ⟨hlength, hget⟩ := getElem?_of_mapM_eq_ok hunits
          rw [List.length_range] at hlength
          refine .inr ⟨⟨units⟩, rfl, ⟨b, hb, Geometry.fits_of_check hcheck⟩, hfree, hlength,
            fun i u hu => ?_⟩
          obtain ⟨j, hj, hnew⟩ := hget i u hu
          obtain ⟨hlt, rfl⟩ := List.getElem?_eq_some_iff.1 hj
          rwa [List.getElem_range] at hnew

theorem attached_of_eq_ok {ring : FlagRing} {t : Session σ}
    (h : s.attachRing g base = (.ok ring, t)) :
    s.Attached g base ring ∧ t = { s with ringAttached := true } := by
  rcases s.attachRing_cases g base with ⟨e, herr⟩ | ⟨attached, hok, hattached⟩
  · rw [herr] at h
    cases h
  · rw [hok] at h
    cases h
    exact ⟨hattached, rfl⟩

/-- A ring that fits the buffer can be attached exactly if none is. -/
theorem attachRing_eq_ok_iff (base : Nat) (hb : s.buffer = some b) (hg : g.Fits b.length) :
    (∃ ring t, s.attachRing g base = (.ok ring, t)) ↔ s.ringAttached = false := by
  constructor
  · rintro ⟨ring, t, hok⟩
    exact (attached_of_eq_ok hok).1.free
  · intro hfree
    obtain ⟨units, hunits⟩ := exists_mapM_eq_ok fun unit hu =>
      exists_newUnit base hb hg (List.mem_range.1 hu)
    refine ⟨⟨units⟩, { s with ringAttached := true }, ?_⟩
    simp only [attachRing, hb, hg.check, hfree, hunits]
    rfl

end Session

end PacketOffload
