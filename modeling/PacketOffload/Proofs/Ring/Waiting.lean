import PacketOffload.Ring.FlagRing
import PacketOffload.Transport.Simulator

/-!
# What a wait comes to

A wait reads the flag word of a slot a given number of times at most. The first read that finds a
request ends it, and the request is taken by one more read, whatever stands in the slot by then.
After every read that finds nothing there is a pause, but none after the last one: there the wait is
given up. A wait that is resumed after every pause does the same.

Main statements: what comes after reads that found nothing (`UnitRing.waitFrom_skip`), that the two
forms of a wait agree (`PendingWait.run_eq_waitFrom`), and all that a wait can come to
(`wait_exact`).
-/

namespace PacketOffload

/-! ## Reads that find nothing -/

/-- Reads that find nothing, each with a pause after it. -/
def emptyReads : (count : Nat) → List WaitEvent
  | 0 => []
  | count + 1 => .read :: .pause :: emptyReads count

/-- The outcome after more things were done before. -/
def WaitOutcome.afterAll (events : List WaitEvent) (o : WaitOutcome) : WaitOutcome :=
  { o with events := events ++ o.events }

theorem WaitOutcome.afterAll_after (o : WaitOutcome) (event : WaitEvent)
    (events : List WaitEvent) :
    (o.after event).afterAll events = o.afterAll (events ++ [event]) := by
  simp [after, afterAll]

namespace UnitRing

variable {u : UnitRing} {slot : Nat → Except Fault FlagWord} {more i count : Nat}

/-- A read shows the last request seen. -/
def FindsNothing (u : UnitRing) (read : Except Fault FlagWord) : Prop :=
  ∃ flag, read = .ok flag ∧ flag.seq = u.lastSeen

/-- A read shows a request that was not seen yet. -/
def FindsRequest (u : UnitRing) (read : Except Fault FlagWord) : Prop :=
  ∃ flag, read = .ok flag ∧ flag.seq ≠ u.lastSeen

/-! ### One read -/

theorem waitFrom_of_error {e : Fault} (h : slot i = .error e) :
    u.waitFrom slot more i = ⟨.error e, u, [.read]⟩ := by
  unfold waitFrom
  simp [h]

theorem waitFrom_of_request (h : u.FindsRequest (slot i)) :
    u.waitFrom slot more i = (u.popAt slot (i + 1)).after .read := by
  obtain ⟨flag, hslot, hseq⟩ := h
  unfold waitFrom
  simp [hslot, announces, hseq]

theorem waitFrom_zero (h : u.FindsNothing (slot i)) :
    u.waitFrom slot 0 i = ⟨.ok none, u, [.read]⟩ := by
  obtain ⟨flag, hslot, hseq⟩ := h
  unfold waitFrom
  simp [hslot, announces, hseq]

theorem waitFrom_succ (h : u.FindsNothing (slot i)) :
    u.waitFrom slot (more + 1) i = ((u.waitFrom slot more (i + 1)).after .pause).after .read := by
  obtain ⟨flag, hslot, hseq⟩ := h
  rw [waitFrom]
  simp [hslot, announces, hseq]

/-! ### All reads -/

/-- Reads that find nothing change nothing but how many are left. -/
theorem waitFrom_skip (hcount : count ≤ more)
    (hempty : ∀ j < count, u.FindsNothing (slot (i + j))) :
    u.waitFrom slot more i =
      (u.waitFrom slot (more - count) (i + count)).afterAll (emptyReads count) := by
  induction count generalizing more i with
  | zero => rfl
  | succ count ih =>
    obtain ⟨more, rfl⟩ : ∃ rest, more = rest + 1 := ⟨more - 1, by omega⟩
    have hfirst : u.FindsNothing (slot i) := hempty 0 (Nat.succ_pos count)
    have hrest : ∀ j < count, u.FindsNothing (slot (i + 1 + j)) := by
      intro j hj
      have hnext := hempty (j + 1) (by omega)
      rwa [show i + (j + 1) = i + 1 + j by omega] at hnext
    rw [waitFrom_succ hfirst, ih (by omega) hrest, Nat.add_sub_add_right,
      show i + 1 + count = i + (count + 1) by omega]
    rfl

theorem wait_skip {maxPolls : Nat} (hi : i < max 1 maxPolls)
    (hempty : ∀ j < i, u.FindsNothing (slot j)) :
    u.wait slot maxPolls =
      (u.waitFrom slot (maxPolls - 1 - i) i).afterAll (emptyReads i) := by
  have hskip : u.waitFrom slot (maxPolls - 1) 0 =
      (u.waitFrom slot (maxPolls - 1 - i) (0 + i)).afterAll (emptyReads i) :=
    waitFrom_skip (by omega) (by simpa using hempty)
  rwa [Nat.zero_add] at hskip

theorem waitFrom_of_empty (hempty : ∀ j ≤ more, u.FindsNothing (slot (i + j))) :
    u.waitFrom slot more i = ⟨.ok none, u, emptyReads more ++ [.read]⟩ := by
  rw [waitFrom_skip (Nat.le_refl more) fun j hj => hempty j (Nat.le_of_lt hj), Nat.sub_self,
    waitFrom_zero (hempty more (Nat.le_refl more))]
  rfl

end UnitRing

/-! ## Waits that are resumed -/

namespace PendingWait

variable {w next : PendingWait} {read : Except Fault FlagWord}

theorem resume_eq_failed_iff {e : Fault} : w.resume read = .failed e ↔ read = .error e := by
  cases read with
  | error e => simp [resume]
  | ok flag => grind [resume]

theorem resume_eq_found_iff : w.resume read = .found ↔ w.unit.FindsRequest read := by
  cases read with
  | error e => simp [resume, UnitRing.FindsRequest]
  | ok flag => grind [resume, UnitRing.FindsRequest, UnitRing.announces]

theorem resume_eq_gaveUp_iff :
    w.resume read = .gaveUp ↔ w.unit.FindsNothing read ∧ w.maxPolls ≤ w.polls + 1 := by
  cases read with
  | error e => simp [resume, UnitRing.FindsNothing]
  | ok flag => grind [resume, UnitRing.FindsNothing, UnitRing.announces]

theorem resume_eq_pending_iff :
    w.resume read = .pending next ↔
      w.unit.FindsNothing read ∧ w.polls + 1 < w.maxPolls ∧
        next = { w with polls := w.polls + 1 } := by
  cases read with
  | error e => simp [resume, UnitRing.FindsNothing]
  | ok flag => grind [resume, UnitRing.FindsNothing, UnitRing.announces]

/-- The polls that are left of a wait are the reads that the loop may make after the next one. -/
theorem run_eq_waitFrom (w : PendingWait) (slot : Nat → Except Fault FlagWord) (i : Nat) :
    w.run slot i = w.unit.waitFrom slot (w.maxPolls - w.polls - 1) i := by
  fun_induction PendingWait.run w slot i with
  | case1 w i e h => rw [UnitRing.waitFrom_of_error (resume_eq_failed_iff.1 h)]
  | case2 w i h => rw [UnitRing.waitFrom_of_request (resume_eq_found_iff.1 h)]
  | case3 w i h =>
    obtain ⟨hnothing, hlast⟩ := resume_eq_gaveUp_iff.1 h
    rw [show w.maxPolls - w.polls - 1 = 0 by omega, UnitRing.waitFrom_zero hnothing]
  | case4 w i next h ih =>
    obtain ⟨hnothing, hmore, rfl⟩ := resume_eq_pending_iff.1 h
    rw [show w.maxPolls - w.polls - 1 = w.maxPolls - (w.polls + 1) - 1 + 1 by omega,
      UnitRing.waitFrom_succ hnothing, ih]

end PendingWait

theorem UnitRing.waitResumed_eq_wait (u : UnitRing) (slot : Nat → Except Fault FlagWord)
    (maxPolls : Nat) : u.waitResumed slot maxPolls = u.wait slot maxPolls :=
  PendingWait.run_eq_waitFrom ⟨u, 0, maxPolls⟩ slot 0

/-! ## Waits in a session -/

namespace Session

variable {σ : Type} [Transport σ] {s : Session σ} {u : UnitRing}

/-- What was done before the request was taken does not show in a session. -/
theorem finishWait_popAt (slot : Nat → Except Fault FlagWord) (i : Nat)
    (h : s.readFlag u = slot i) (events : List WaitEvent) :
    s.finishWait ((u.popAt slot i).afterAll events) = s.popRequest u := by
  unfold popRequest
  rw [h, UnitRing.popAt]
  cases slot i with
  | error e => rfl
  | ok flag => rfl

/-- In a slot that does not change there is a request at once or never. -/
theorem waitRequest_eq (s : Session σ) (u : UnitRing) (maxPolls : Nat) :
    s.waitRequest u maxPolls = s.popRequest u := by
  rw [waitRequest, UnitRing.wait]
  cases hread : s.readFlag u with
  | error e =>
    rw [UnitRing.waitFrom_of_error rfl, popRequest, hread]
    rfl
  | ok flag =>
    by_cases hseq : flag.seq = u.lastSeen
    · rw [UnitRing.waitFrom_of_empty fun j _ => ⟨flag, rfl, hseq⟩, popRequest, hread]
      simp [finishWait, UnitRing.pop, UnitRing.announces, hseq]
    · rw [UnitRing.waitFrom_of_request ⟨flag, rfl, hseq⟩]
      exact finishWait_popAt (fun _ => .ok flag) 1 hread [.read]

end Session

/-- **All that a wait can come to.** Reads are counted from zero, and there are `n` of them at most,
but at least one. If read `i` is the first that finds a request, it ends the wait, and the request
is taken by the next read, as the host would take it in any session in which that read is made. If
no read finds one, the wait is given up after `n` reads, with the unit as it was. There is one pause
after each read that finds nothing, except read `n - 1`. A read that fails ends the wait as well.
Resumed after every pause, the wait does the same. While a slot does not change, to wait is to take
a request. -/
theorem wait_exact {σ : Type} [Transport σ] (u : UnitRing) (slot : Nat → Except Fault FlagWord)
    (maxPolls : Nat) :
    let n := max 1 maxPolls
    (∀ i < n, (∀ j < i, u.FindsNothing (slot j)) → u.FindsRequest (slot i) →
      u.wait slot maxPolls = (u.popAt slot (i + 1)).afterAll (emptyReads i ++ [.read]) ∧
        ∀ s : Session σ, s.readFlag u = slot (i + 1) →
          s.finishWait (u.wait slot maxPolls) = s.popRequest u) ∧
      ((∀ i < n, u.FindsNothing (slot i)) →
        u.wait slot maxPolls = ⟨.ok none, u, emptyReads (n - 1) ++ [.read]⟩) ∧
      (∀ i < n, (∀ j < i, u.FindsNothing (slot j)) → ∀ e, slot i = .error e →
        u.wait slot maxPolls = ⟨.error e, u, emptyReads i ++ [.read]⟩) ∧
      u.waitResumed slot maxPolls = u.wait slot maxPolls ∧
      ∀ s : Session σ, s.waitRequest u maxPolls = s.popRequest u := by
  intro n
  have hmore : maxPolls - 1 = n - 1 := by omega
  refine ⟨?found, ?empty, ?failed, u.waitResumed_eq_wait slot maxPolls,
    fun s => s.waitRequest_eq u maxPolls⟩
  case found =>
    intro i hi hbefore hfound
    have hwait : u.wait slot maxPolls =
        (u.popAt slot (i + 1)).afterAll (emptyReads i ++ [.read]) := by
      rw [UnitRing.wait_skip hi hbefore, UnitRing.waitFrom_of_request hfound,
        WaitOutcome.afterAll_after]
    refine ⟨hwait, ?_⟩
    intro s hs
    rw [hwait]
    exact Session.finishWait_popAt slot (i + 1) hs _
  case empty =>
    intro hempty
    rw [UnitRing.wait, hmore]
    exact UnitRing.waitFrom_of_empty fun j hj => by simpa using hempty j (by omega)
  case failed =>
    intro i hi hbefore e herror
    rw [UnitRing.wait_skip hi hbefore, UnitRing.waitFrom_of_error herror]
    rfl

/-- The slot shows the last request twice, then the next one, and by the next read the one after.
-/
def changingSlot (i : Nat) : Except Fault FlagWord :=
  .ok (.compose (if i < 2 then 3 else UInt8.ofNat (i + 2)) 0 0)

/-- With five polls the third read ends the wait, and the fourth takes a request, though not the one
that ended it; with two polls, or none, it is given up. -/
theorem wait_exact_slot_that_changes :
    let u : UnitRing := ⟨.standard, l2Base, 2, 3, 0⟩
    (u.wait changingSlot 5).events = [.read, .pause, .read, .pause, .read, .read] ∧
      (u.wait changingSlot 5).unit.lastSeen = 5 ∧ (u.wait changingSlot 5).unit.anomalies = 1 ∧
      u.wait changingSlot 2 = ⟨.ok none, u, [.read, .pause, .read]⟩ ∧
      u.wait changingSlot 0 = ⟨.ok none, u, [.read]⟩ ∧
      u.waitResumed changingSlot 5 = u.wait changingSlot 5 := by
  intro u
  have hnothing : ∀ i < 2, u.FindsNothing (changingSlot i) := by
    intro i hi
    refine ⟨.compose 3 0 0, ?_, by decide⟩
    simp [changingSlot, hi]
  have hrequest : u.FindsRequest (changingSlot 2) := ⟨.compose 4 0 0, rfl, by decide⟩
  obtain ⟨hfound, -, -, hresumed, -⟩ := wait_exact (σ := Simulator) u changingSlot 5
  obtain ⟨-, htwo, -⟩ := wait_exact (σ := Simulator) u changingSlot 2
  obtain ⟨-, hzero, -⟩ := wait_exact (σ := Simulator) u changingSlot 0
  obtain ⟨hwait, -⟩ := hfound 2 (by decide) hnothing hrequest
  refine ⟨by rw [hwait]; rfl, by rw [hwait]; decide, by rw [hwait]; decide, htwo hnothing, ?_,
    hresumed⟩
  exact hzero fun i hi => hnothing i (by omega)

end PacketOffload
