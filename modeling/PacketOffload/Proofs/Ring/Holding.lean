import PacketOffload.Proofs.Ring.Attaching
import PacketOffload.Transport.Simulator

/-!
# Who holds a ring

The claim to a session's ring is shared. The attempt that attaches the ring has a share until it
ends, and each unit has one until it is dropped; the last share that is given up sets the session
free for another ring. A ring can be taken apart, and then its units are dropped one by one in any
order.

The session itself counts no shares: attaching is all or nothing there, and what is left of a ring
tells whether it is detached. Here the shares are counted, one at a time.

Main statements: counting comes to the same (`attachShared_eq`, `dropOne_eq`, `dropAll_eq`), and in
every run the claim is held as long as a unit is alive (`claim_held_by_units`).
-/

namespace PacketOffload

/-- A ring that was attached, with what is left of it. -/
structure SharedRing where
  ring : FlagRing
  /-- Shares of the claim that were not given up yet. -/
  shares : Nat
  /-- The units were taken out of the ring, so that each can be dropped alone. -/
  apart : Bool
  deriving DecidableEq

variable {σ : Type} [Transport σ]

namespace Session

/-- Takes the claim, unless it is taken. -/
def claimRing (s : Session σ) : Except Fault Unit × Session σ :=
  if s.ringAttached then (.error (.invalidArgument (.ringAttached s.contextId)), s)
  else (.ok (), { s with ringAttached := true })

/-- One share is given up, the last one with the claim. -/
def dropShare (s : Session σ) (shares : Nat) : Nat × Session σ :=
  (shares - 1, if shares = 1 then { s with ringAttached := false } else s)

/-- So many shares are given up, one after the other. -/
def dropShares (s : Session σ) (shares : Nat) : (count : Nat) → Nat × Session σ
  | 0 => (shares, s)
  | count + 1 => (s.dropShare shares).2.dropShares (s.dropShare shares).1 count

/-- The units of a new ring, each with a share of its own, and how many shares there are then. -/
def shareUnits (s : Session σ) (g : Geometry) (hostFlagBase : Nat) :
    List Nat → (shares : Nat) → Except Fault (List UnitRing) × Nat
  | [], shares => (.ok [], shares)
  | unit :: rest, shares =>
    match s.newUnit g hostFlagBase unit with
    | .error e => (.error e, shares)
    | .ok u =>
      match s.shareUnits g hostFlagBase rest (shares + 1) with
      | (.ok units, shares) => (.ok (u :: units), shares)
      | (.error e, shares) => (.error e, shares)

/-- Attaches a ring. The attempt takes the claim before the slots are read, and gives up its share
at the end; if a slot cannot be read, the units made before give up theirs, too. -/
def attachShared (s : Session σ) (g : Geometry) (hostFlagBase : Nat) :
    Except Fault SharedRing × Session σ :=
  match s.buffer with
  | none => (.error .noBuffer, s)
  | some buffer =>
    match g.check buffer.length with
    | .error e => (.error e, s)
    | .ok () =>
      match s.claimRing with
      | (.error e, t) => (.error e, t)
      | (.ok (), t) =>
        match t.shareUnits g hostFlagBase (List.range g.unitCount) 1 with
        | (.ok units, shares) =>
          (.ok ⟨⟨units⟩, (t.dropShare shares).1, false⟩, (t.dropShare shares).2)
        | (.error e, shares) => (.error e, (t.dropShares shares shares).2)

/-- Drops one unit of a ring. -/
def dropOne (s : Session σ) (r : SharedRing) (position : Nat) : SharedRing × Session σ :=
  if position < r.ring.units.length then
    ({ r with
        ring := ⟨r.ring.units.eraseIdx position⟩
        shares := (s.dropShare r.shares).1 }, (s.dropShare r.shares).2)
  else (r, s)

/-- Drops all that is left of a ring. -/
def dropAll (s : Session σ) (r : SharedRing) : SharedRing × Session σ :=
  ({ r with
      ring := ⟨[]⟩
      shares := (s.dropShares r.shares r.ring.units.length).1 },
    (s.dropShares r.shares r.ring.units.length).2)

/-! ## Counting -/

variable {s : Session σ} {g : Geometry} {base : Nat} {r : SharedRing}

omit [Transport σ] in
theorem dropShares_self {shares : Nat} (h : 0 < shares) :
    s.dropShares shares shares = (0, { s with ringAttached := false }) := by
  suffices hlast : ∀ count shares, shares = count + 1 →
      s.dropShares shares (count + 1) = (0, { s with ringAttached := false }) by
    obtain ⟨count, rfl⟩ := Nat.exists_eq_succ_of_ne_zero (Nat.ne_of_gt h)
    exact hlast count _ rfl
  intro count
  induction count with
  | zero =>
    rintro _ rfl
    rfl
  | succ count ih =>
    rintro _ rfl
    rw [dropShares, dropShare, if_neg (by omega)]
    exact ih _ rfl

/-- The shares are the units that were made, on top of those before. -/
theorem shareUnits_eq (s : Session σ) (g : Geometry) (base : Nat) (units : List Nat)
    (shares : Nat) :
    (s.shareUnits g base units shares).1 = units.mapM (s.newUnit g base) ∧
      shares ≤ (s.shareUnits g base units shares).2 ∧
      ∀ made, (s.shareUnits g base units shares).1 = .ok made →
        (s.shareUnits g base units shares).2 = shares + made.length := by
  induction units generalizing shares with
  | nil =>
    refine ⟨rfl, Nat.le_refl shares, fun made h => ?_⟩
    obtain rfl := Except.ok.inj h
    rfl
  | cons unit rest ih =>
    obtain ⟨hrest, hle, hcount⟩ := ih (shares + 1)
    rw [List.mapM_cons, ← hrest, shareUnits]
    cases s.newUnit g base unit with
    | error e => exact ⟨rfl, Nat.le_refl shares, nofun⟩
    | ok u =>
      simp only
      rcases hshared : s.shareUnits g base rest (shares + 1) with ⟨result, left⟩
      rw [hshared] at hle hcount
      cases result with
      | error e => exact ⟨rfl, Nat.le_of_succ_le hle, nofun⟩
      | ok units =>
        refine ⟨rfl, Nat.le_of_succ_le hle, fun made h => ?_⟩
        obtain rfl := Except.ok.inj h
        rw [hcount units rfl, List.length_cons]
        omega

/-- **Attaching with the shares counted** is attaching. That a ring has a unit keeps the claim from
going with the share of the attempt. -/
theorem attachShared_eq (s : Session σ) (g : Geometry) (base : Nat) :
    s.attachShared g base =
      ((s.attachRing g base).1.map fun ring => ⟨ring, ring.units.length, false⟩,
        (s.attachRing g base).2) := by
  unfold attachShared attachRing
  cases hb : s.buffer with
  | none => rfl
  | some b =>
    simp only
    cases hcheck : g.check b.length with
    | error e => rfl
    | ok =>
      simp only [claimRing]
      cases hfree : s.ringAttached with
      | true => rfl
      | false =>
        simp only [Bool.false_eq_true, if_false]
        obtain ⟨hmapM, hle, hcount⟩ :=
          shareUnits_eq { s with ringAttached := true } g base (List.range g.unitCount) 1
        have hunits : (List.range g.unitCount).mapM
            (newUnit { s with ringAttached := true } g base) =
              (List.range g.unitCount).mapM (s.newUnit g base) := rfl
        rcases hshared : shareUnits { s with ringAttached := true } g base
          (List.range g.unitCount) 1 with ⟨result, shares⟩
        rw [hshared, hunits] at hmapM
        rw [hshared] at hle hcount
        rw [← hmapM]
        cases result with
        | error e =>
          simp only [dropShares_self hle, Except.map, ← hfree]
        | ok units =>
          have hlength := (getElem?_of_mapM_eq_ok hmapM.symm).1
          have hunit := (Geometry.fits_of_check hcheck).units.1
          rw [List.length_range] at hlength
          have hshares : shares = 1 + units.length := hcount units rfl
          have hmore : shares ≠ 1 := by omega
          have hleft : shares - 1 = units.length := by omega
          simp only [dropShare, hmore, if_false, Except.map, hleft, hb]

omit [Transport σ] in
theorem dropOne_eq (h : r.shares = r.ring.units.length) (position : Nat) :
    s.dropOne r position =
      ({ r with
          ring := (s.dropUnit r.ring position).1
          shares := (s.dropUnit r.ring position).1.units.length },
        (s.dropUnit r.ring position).2) := by
  obtain ⟨⟨units⟩, shares, apart⟩ := r
  simp only at h
  subst h
  simp only [dropOne, dropUnit, dropTo]
  by_cases hp : position < units.length
  · have hlength := List.length_eraseIdx_of_lt hp
    have hlast : ((units.eraseIdx position).isEmpty && !units.isEmpty) =
        decide (units.length = 1) := by
      rw [Bool.eq_iff_iff, Bool.and_eq_true, Bool.not_eq_true', List.isEmpty_iff_length_eq_zero,
        hlength, List.isEmpty_eq_false_iff, ← List.length_pos_iff, decide_eq_true_iff]
      omega
    simp only [hp, if_true, dropShare, hlength, hlast, decide_eq_true_eq]
  · rw [List.eraseIdx_of_length_le (Nat.le_of_not_lt hp)]
    simp [hp]

omit [Transport σ] in
theorem dropAll_eq (h : r.shares = r.ring.units.length) :
    s.dropAll r = ({ r with ring := ⟨[]⟩, shares := 0 }, s.detachRing r.ring) := by
  obtain ⟨⟨units⟩, shares, apart⟩ := r
  simp only at h
  subst h
  cases units with
  | nil => rfl
  | cons u units =>
    have hpos : 0 < (u :: units).length := Nat.succ_pos units.length
    have hring : (FlagRing.mk (u :: units)).units ≠ [] := nofun
    simp only [dropAll, dropShares_self hpos, detachRing_eq s hring]

end Session

/-! ## Runs -/

/-- A session and the rings that were attached to it, oldest first, with what is left of each. -/
structure RingHold (σ : Type) where
  session : Session σ
  rings : List SharedRing

/-- What is done about the rings of a session. -/
inductive HoldMove (σ : Type) where
  /-- An attempt to attach a ring. -/
  | attach (g : Geometry) (hostFlagBase : Nat)
  /-- The units of a ring are taken out of it. -/
  | split (ring : Nat)
  /-- What is left of a ring is dropped. -/
  | dropRing (ring : Nat)
  /-- One unit of a ring that was taken apart is dropped. -/
  | dropUnit (ring position : Nat)
  /-- Anything else is done with the session. Nothing else has to do with the claim. -/
  | other (t : Session σ)

namespace RingHold

/-- Something is done to a ring; a ring that was never attached has nothing done to it. -/
def update (e : RingHold σ) (ring : Nat) (f : SharedRing → SharedRing × Session σ) : RingHold σ :=
  match e.rings[ring]? with
  | some r => ⟨(f r).2, e.rings.set ring (f r).1⟩
  | none => e

def step (e : RingHold σ) : HoldMove σ → RingHold σ
  | .attach g hostFlagBase =>
    match e.session.attachShared g hostFlagBase with
    | (.ok r, t) => ⟨t, e.rings ++ [r]⟩
    | (.error _, t) => { e with session := t }
  | .split ring => e.update ring fun r => ({ r with apart := true }, e.session)
  | .dropRing ring => e.update ring e.session.dropAll
  | .dropUnit ring position =>
    e.update ring fun r => if r.apart then e.session.dropOne r position else (r, e.session)
  | .other t => { e with session := { t with ringAttached := e.session.ringAttached } }

def run (e : RingHold σ) (moves : List (HoldMove σ)) : RingHold σ := moves.foldl step e

/-- The unit at a position of what is left of a ring. -/
def unitAt (e : RingHold σ) (ring position : Nat) : Option UnitRing :=
  (e.rings[ring]?).bind fun r => r.ring.units[position]?

/-- A ring with a unit that is alive. -/
def LivesAt (e : RingHold σ) (ring : Nat) : Prop :=
  ∃ r, e.rings[ring]? = some r ∧ r.ring.units ≠ []

/-- The claim is held by the units of at most one ring. -/
structure Sound (e : RingHold σ) : Prop where
  shares : ∀ r ∈ e.rings, r.shares = r.ring.units.length
  distinct : ∀ r ∈ e.rings, (r.ring.units.map UnitRing.unit).Nodup
  one : ∀ i j, e.LivesAt i → e.LivesAt j → i = j
  claim : e.session.ringAttached = true ↔ ∃ i, e.LivesAt i

/-- What is left of a ring after some of its units went, each with its share: the claim went if and
only if the last one did. -/
structure GaveUp (s : Session σ) (r : SharedRing) (left : SharedRing × Session σ) : Prop where
  less : left.1.ring.units.Sublist r.ring.units
  shares : left.1.shares = left.1.ring.units.length
  claim : left.2.ringAttached =
    if left.1.ring.units = [] ∧ r.ring.units ≠ [] then false else s.ringAttached

variable {e : RingHold σ} {s t : Session σ} {r r' : SharedRing} {g : Geometry} {base i : Nat}

section

omit [Transport σ]

/-! ### What is left of a ring -/

/-- Nothing went. -/
theorem GaveUp.nothing (hunits : r'.ring = r.ring) (hshares : r'.shares = r.ring.units.length) :
    GaveUp s r (r', s) where
  less := hunits ▸ List.Sublist.refl r'.ring.units
  shares := by rw [hshares, hunits]
  claim := by simp [hunits]

theorem ringAttached_dropTo (s : Session σ) (ring : FlagRing) (kept : List UnitRing) :
    (s.dropTo ring kept).2.ringAttached =
      if kept = [] ∧ ring.units ≠ [] then false else s.ringAttached := by
  simp only [Session.dropTo, Bool.and_eq_true, Bool.not_eq_true', List.isEmpty_iff,
    List.isEmpty_eq_false_iff]
  split <;> rfl

theorem GaveUp.dropOne (h : r.shares = r.ring.units.length) (position : Nat) :
    GaveUp s r (s.dropOne r position) := by
  rw [Session.dropOne_eq h]
  exact ⟨List.eraseIdx_sublist r.ring.units position, rfl, ringAttached_dropTo s r.ring _⟩

theorem GaveUp.dropAll (h : r.shares = r.ring.units.length) : GaveUp s r (s.dropAll r) := by
  rw [Session.dropAll_eq h]
  exact ⟨List.nil_sublist r.ring.units, rfl, ringAttached_dropTo s r.ring _⟩

/-! ### What a move keeps -/

theorem livesAt_iff : e.LivesAt i ↔ ∃ position u, e.unitAt i position = some u := by
  simp only [LivesAt, unitAt, Option.bind_eq_some_iff]
  constructor
  · rintro ⟨r, hr, hne⟩
    obtain ⟨u, hu⟩ := List.exists_mem_of_ne_nil r.ring.units hne
    obtain ⟨position, hposition⟩ := List.getElem?_of_mem hu
    exact ⟨position, u, r, hr, hposition⟩
  · rintro ⟨position, u, r, hr, hposition⟩
    exact ⟨r, hr, List.ne_nil_of_mem (List.mem_of_getElem? hposition)⟩

theorem livesAt_set_self (h : i < e.rings.length) :
    LivesAt ⟨t, e.rings.set i r'⟩ i ↔ r'.ring.units ≠ [] := by
  simp only [LivesAt, List.getElem?_set_self h, Option.some.injEq, exists_eq_left']

theorem livesAt_set_of_ne {j : Nat} (h : j ≠ i) :
    LivesAt ⟨t, e.rings.set i r'⟩ j ↔ e.LivesAt j := by
  simp only [LivesAt, List.getElem?_set_ne (Ne.symm h)]

/-- Where no unit was alive, those of the last ring are the only ones. -/
theorem livesAt_append (h : ∀ j, ¬ e.LivesAt j) (hr : r.ring.units ≠ []) {j : Nat} :
    LivesAt ⟨t, e.rings ++ [r]⟩ j ↔ j = e.rings.length := by
  constructor
  · rintro ⟨q, hq, hne⟩
    rcases Nat.lt_trichotomy j e.rings.length with hlt | heq | hgt
    · rw [List.getElem?_append_left hlt] at hq
      exact absurd ⟨q, hq, hne⟩ (h j)
    · exact heq
    · rw [List.getElem?_eq_none (by simpa [Nat.succ_le_iff] using hgt)] at hq
      cases hq
  · rintro rfl
    exact ⟨r, List.getElem?_concat_length, hr⟩

theorem sound_start (hfree : s.ringAttached = false) : Sound ⟨s, []⟩ where
  shares := nofun
  distinct := nofun
  one := by
    rintro i j ⟨r, hr, -⟩
    cases hr
  claim := by
    constructor
    · exact fun htaken => nomatch hfree.symm.trans htaken
    · rintro ⟨i, r, hr, -⟩
      cases hr

theorem Sound.set (h : e.Sound) (hr : e.rings[i]? = some r) (hgave : GaveUp e.session r (r', t)) :
    Sound ⟨t, e.rings.set i r'⟩ := by
  obtain ⟨hless, hshares, hclaim⟩ := hgave
  simp only at hless hshares hclaim
  have hself : LivesAt ⟨t, e.rings.set i r'⟩ i ↔ r'.ring.units ≠ [] :=
    livesAt_set_self (List.getElem?_eq_some_iff.1 hr).1
  have hbefore : r'.ring.units ≠ [] → r.ring.units ≠ [] := fun hne hnil =>
    hne (List.sublist_nil.1 (hnil ▸ hless))
  have hlived : ∀ j, LivesAt ⟨t, e.rings.set i r'⟩ j → e.LivesAt j := by
    intro j hj
    by_cases hji : j = i
    · subst hji
      exact ⟨r, hr, hbefore (hself.1 hj)⟩
    · exact (livesAt_set_of_ne hji).1 hj
  constructor
  case shares =>
    intro q hq
    rcases List.mem_or_eq_of_mem_set hq with hq | rfl
    · exact h.shares q hq
    · exact hshares
  case distinct =>
    intro q hq
    rcases List.mem_or_eq_of_mem_set hq with hq | rfl
    · exact h.distinct q hq
    · exact (h.distinct r (List.mem_of_getElem? hr)).sublist (hless.map UnitRing.unit)
  case one => exact fun j k hj hk => h.one j k (hlived j hj) (hlived k hk)
  case claim =>
    simp only [hclaim]
    by_cases hleft : r'.ring.units = []
    · by_cases hwas : r.ring.units = []
      · simp only [hwas, ne_eq, not_true_eq_false, and_false, if_false, h.claim]
        refine exists_congr fun j => ⟨fun hj => ?_, hlived j⟩
        have hji : j ≠ i := by
          rintro rfl
          obtain ⟨q, hq, hne⟩ := hj
          obtain rfl := Option.some.inj (hr.symm.trans hq)
          exact hne hwas
        exact (livesAt_set_of_ne hji).2 hj
      · simp only [hleft, hwas, ne_eq, not_false_eq_true, and_self, if_true, Bool.false_eq_true,
          false_iff, not_exists]
        intro j hj
        -- The ring at `i` was the only one with a unit.
        obtain rfl := h.one j i (hlived j hj) ⟨r, hr, hwas⟩
        exact hself.1 hj hleft
    · simp only [hleft, false_and, if_false, h.claim]
      exact ⟨fun _ => ⟨i, hself.2 hleft⟩, fun _ => ⟨i, r, hr, hbefore hleft⟩⟩

theorem Sound.update (h : e.Sound) (ring : Nat) {f : SharedRing → SharedRing × Session σ}
    (hf : ∀ r, r.shares = r.ring.units.length → GaveUp e.session r (f r)) :
    (e.update ring f).Sound := by
  unfold RingHold.update
  cases hr : e.rings[ring]? with
  | none => exact h
  | some r => exact h.set hr (hf r (h.shares r (List.mem_of_getElem? hr)))

end

/-- A ring is attached where no unit is alive. -/
theorem Sound.append {ring : FlagRing} (h : e.Sound) (ha : e.session.Attached g base ring) :
    Sound ⟨{ e.session with ringAttached := true },
      e.rings ++ [⟨ring, ring.units.length, false⟩]⟩ := by
  obtain ⟨b, -, hfits⟩ := ha.buffer
  have hnone : ∀ j, ¬ e.LivesAt j := by
    intro j hj
    have htaken := h.claim.2 ⟨j, hj⟩
    rw [ha.free] at htaken
    cases htaken
  have hunits : ring.units ≠ [] := by
    rw [← List.length_pos_iff, ha.count]
    exact hfits.units.1
  have hnumbers : ring.units.map UnitRing.unit = List.range g.unitCount := by
    refine List.ext_getElem (by simp [ha.count]) fun j hj _ => ?_
    rw [List.length_map] at hj
    obtain ⟨-, -, hunit⟩ := Session.newUnit_eq_ok (ha.unit j _ (List.getElem?_eq_getElem hj))
    rw [List.getElem_map, hunit, List.getElem_range]
  constructor
  case shares =>
    intro r hr
    rcases List.mem_append.1 hr with hr | hr
    · exact h.shares r hr
    · obtain rfl := List.mem_singleton.1 hr
      rfl
  case distinct =>
    intro r hr
    rcases List.mem_append.1 hr with hr | hr
    · exact h.distinct r hr
    · obtain rfl := List.mem_singleton.1 hr
      simp only [hnumbers]
      exact List.nodup_range
  case one =>
    intro j k hj hk
    exact ((livesAt_append hnone hunits).1 hj).trans ((livesAt_append hnone hunits).1 hk).symm
  case claim => exact ⟨fun _ => ⟨_, (livesAt_append hnone hunits).2 rfl⟩, fun _ => rfl⟩

/-- An attempt that fails changes nothing. -/
theorem step_attach_of_error {fault : Fault}
    (h : (e.session.attachRing g base).1 = .error fault) : e.step (.attach g base) = e := by
  rcases e.session.attachRing_cases g base with ⟨_, herr⟩ | ⟨ring, hok, -⟩
  · simp only [step, Session.attachShared_eq, herr, Except.map]
  · rw [hok] at h
    cases h

theorem Sound.step (h : e.Sound) (move : HoldMove σ) : (e.step move).Sound := by
  cases move with
  | attach g base =>
    rcases e.session.attachRing_cases g base with ⟨fault, herr⟩ | ⟨ring, hok, hattached⟩
    · rw [step_attach_of_error (congrArg Prod.fst herr)]
      exact h
    · simp only [RingHold.step, Session.attachShared_eq, hok, Except.map]
      exact h.append hattached
  | split ring => exact h.update ring fun r hshares => .nothing rfl hshares
  | dropRing ring => exact h.update ring fun r hshares => .dropAll hshares
  | dropUnit ring position =>
    refine h.update ring fun r hshares => ?_
    by_cases hapart : r.apart = true
    · simp only [hapart, if_true]
      exact .dropOne hshares position
    · simp only [hapart]
      exact .nothing rfl hshares
  | other t => exact ⟨h.shares, h.distinct, h.one, h.claim⟩

theorem Sound.run (h : e.Sound) (moves : List (HoldMove σ)) : (e.run moves).Sound := by
  induction moves generalizing e with
  | nil => exact h
  | cons move rest ih => exact ih (h.step move)

end RingHold

/-! ## Holding -/

/-- **The claim is held as long as a unit is alive.** Whatever rings were attached and dropped, as
a whole or unit by unit in any order, the session counts as having a ring if and only if a unit of
one is alive. All units that are alive belong to one ring, where no two have the same slot. A ring
that fits the buffer can be attached if and only if no unit is alive, and an attempt that fails
leaves the claim, and all else, as it is. -/
theorem claim_held_by_units {s : Session σ} (hfree : s.ringAttached = false)
    (moves : List (HoldMove σ)) :
    let e := RingHold.run ⟨s, []⟩ moves
    (e.session.ringAttached = true ↔ ∃ ring position u, e.unitAt ring position = some u) ∧
      (∀ i p j q u v, e.unitAt i p = some u → e.unitAt j q = some v →
        i = j ∧ (u.unit = v.unit → p = q)) ∧
      (∀ b g base, e.session.buffer = some b → g.check b.length = .ok () →
        ((∃ ring t, e.session.attachRing g base = (.ok ring, t)) ↔
          ∀ ring position, e.unitAt ring position = none)) ∧
      ∀ g base fault, (e.session.attachRing g base).1 = .error fault →
        (e.session.attachRing g base).2 = e.session ∧ e.step (.attach g base) = e := by
  intro e
  have hsound : e.Sound := (RingHold.sound_start hfree).run moves
  have hclaim : e.session.ringAttached = true ↔
      ∃ ring position u, e.unitAt ring position = some u := by
    rw [hsound.claim]
    exact exists_congr fun ring => RingHold.livesAt_iff
  refine ⟨hclaim, fun i p j q u v hu hv => ?_, fun b g base hb hcheck => ?_,
    fun g base fault hfail => ⟨?_, RingHold.step_attach_of_error hfail⟩⟩
  · obtain rfl := hsound.one i j (RingHold.livesAt_iff.2 ⟨p, u, hu⟩)
      (RingHold.livesAt_iff.2 ⟨q, v, hv⟩)
    refine ⟨rfl, fun hunit => ?_⟩
    obtain ⟨r, hr, hu⟩ := Option.bind_eq_some_iff.1 hu
    obtain ⟨r', hr', hv⟩ := Option.bind_eq_some_iff.1 hv
    obtain rfl := Option.some.inj (hr.symm.trans hr')
    have hlt := (List.getElem?_eq_some_iff.1 hu).1
    have hdistinct := hsound.distinct r (List.mem_of_getElem? hr)
    refine (List.getElem?_inj (by rwa [List.length_map]) hdistinct).1 ?_
    rw [List.getElem?_map, List.getElem?_map, hu, hv, Option.map_some, Option.map_some, hunit]
  · rw [Session.attachRing_eq_ok_iff base hb (Geometry.fits_of_check hcheck), ← Bool.not_eq_true,
      hclaim]
    simp only [not_exists, Option.eq_none_iff_forall_ne_some, ne_eq]
  · rcases e.session.attachRing_cases g base with ⟨_, herr⟩ | ⟨ring, hok, -⟩
    · rw [herr]
    · rw [hok] at hfail
      cases hfail

/-- A ring that was taken apart keeps the claim until its second unit is dropped, too; then another
ring can be attached. -/
theorem claim_held_by_units_taken_apart :
    let s : Session Simulator :=
      ⟨Simulator.powerOn, 0, none, some ⟨8192, .own .empty⟩, ⟨true, false, false⟩, false, []⟩
    let moves : List (HoldMove Simulator) :=
      [.attach ⟨2, 4096, 64⟩ l2Base, .split 0, .dropUnit 0 0, .attach ⟨1, 4096, 64⟩ l2Base]
    let e := RingHold.run ⟨s, []⟩ moves
    let f := RingHold.run ⟨s, []⟩ (moves ++ [.dropUnit 0 0])
    e.session.ringAttached = true ∧
      (¬ ∃ ring t, e.session.attachRing ⟨1, 4096, 64⟩ l2Base = (.ok ring, t)) ∧
      f.session.ringAttached = false ∧
      ∃ ring t, f.session.attachRing ⟨1, 4096, 64⟩ l2Base = (.ok ring, t) := by
  intro s moves e f
  have hfree : s.ringAttached = false := rfl
  obtain ⟨hclaim, -, hattach, -⟩ := claim_held_by_units hfree moves
  obtain ⟨hclaim', -, hattach', -⟩ := claim_held_by_units hfree (moves ++ [.dropUnit 0 0])
  have halive : e.unitAt 0 0 = some ⟨⟨2, 4096, 64⟩, l2Base, 1, 0, 0⟩ := by decide +kernel
  have hroom : Geometry.check ⟨1, 4096, 64⟩ 8192 = .ok () := rfl
  refine ⟨hclaim.2 ⟨0, 0, _, halive⟩, fun hok => ?_, ?_, ?_⟩
  · exact nomatch halive.symm.trans ((hattach _ _ l2Base rfl hroom).1 hok 0 0)
  · rfl
  · refine (hattach' ⟨8192, .own .empty⟩ ⟨1, 4096, 64⟩ l2Base rfl hroom).2 fun ring position => ?_
    rcases ring with _ | ring
    · rfl
    · rfl

end PacketOffload
