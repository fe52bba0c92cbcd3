import PacketOffload.Proofs.Device.Host
import PacketOffload.Proofs.Device.Legality

/-!
# What reaches a device

A recording transport keeps, of every access that reaches it and may change the device, the access
and the device as it was at that moment, whether the access then succeeds or not.

Main statement: whatever a host does and whatever fails, the gates of its session show the registers
of the device, only legal accesses reach the device, and an access that the device would not take is
refused without a trace (`run_guarded`).
-/

namespace PacketOffload

/-- An access that reached a device, and the device at that moment. -/
structure Attempt (σ : Type) where
  device : σ
  access : Access

/-- A transport that keeps a record. -/
structure Recorded (σ : Type) where
  device : σ
  /-- What reached the device, oldest first. -/
  attempts : List (Attempt σ)

namespace Recorded

variable {σ : Type}

/-- A transport to a device that nothing reached yet. -/
def of (device : σ) : Recorded σ := ⟨device, []⟩

/-- The record after one more access. -/
def note (r : Recorded σ) (access : Access) : List (Attempt σ) :=
  r.attempts ++ [⟨r.device, access⟩]

/-- The words that were poked at an address, oldest first. -/
def pokesAt (r : Recorded σ) (addr : Nat) : List UInt64 :=
  r.attempts.filterMap fun a =>
    match a.access with
    | .poke place word => if place = addr then some word else none
    | _ => none

variable [Transport σ]

instance : Transport (Recorded σ) where
  file r := DmaSource.file r.device
  setFile r contents := { r with device := DmaSource.setFile r.device contents }
  host r := DmaSource.host r.device
  readRegister r := Transport.readRegister r.device
  writeRegister r g index value :=
    let (result, device) := Transport.writeRegister r.device g index value
    (result, ⟨device, r.note (.write g index value)⟩)
  readWord r := Transport.readWord r.device
  writeWord r offset word :=
    let (result, device) := Transport.writeWord r.device offset word
    (result, ⟨device, r.note (.store offset word)⟩)
  region r := Transport.region r.device
  peek r := Transport.peek r.device
  poke r addr word :=
    let (result, device) := Transport.poke r.device addr word
    (result, ⟨device, r.note (.poke addr word)⟩)

instance [RegisterView σ] : RegisterView (Recorded σ) where
  registers r := registers r.device
  registers_of_read h := RegisterView.registers_of_read h
  registers_of_write h := RegisterView.registers_of_write h
  registers_of_failed h := RegisterView.registers_of_failed h
  registers_of_store r offset word := RegisterView.registers_of_store r.device offset word

end Recorded

variable {σ : Type} [Transport σ] [RegisterView σ]

/-- The gates show the device, and only legal accesses reached it. -/
def Session.Sound (s : Session (Recorded σ)) : Prop :=
  s.gates.Mirrors s.registers ∧
    ∀ a ∈ s.device.attempts, a.access.Legal (RegisterView.registers a.device)

/-- The host with another device behind its session. -/
def Host.onDevice {τ : Type} (h : Host τ) (device : τ) : Host τ :=
  { h with session := { h.session with device } }

/-- A host whose session knows its device, and stands between it and what it would not take. -/
structure Host.Guarded (h : Host (Recorded σ)) : Prop where
  mirrors : h.session.gates.Mirrors h.session.registers
  /-- What reached the device was legal at that moment. -/
  legal : ∀ a ∈ h.session.device.attempts, a.access.Legal (RegisterView.registers a.device)
  /-- A legal write reaches the device. -/
  write_passed : ∀ g index value, (Access.write g index value).Legal h.session.registers →
    (h.act (.writeRegister g.name index value)).2.session.device.attempts =
      h.session.device.attempts ++ [⟨h.session.device.device, .write g index value⟩]
  /-- Any other write is refused, and nothing changes. -/
  write_refused : ∀ name index value,
    (∀ g : RegisterGroup, g.name = name →
      ¬ (Access.write g index value).Legal h.session.registers) →
    ∃ e, h.act (.writeRegister name index value) = (.error e, h)
  store_passed : ∀ offset word, WindowOpen h.session.registers offset →
    (h.act (.writeWord offset word)).2.session.device.attempts =
      h.session.device.attempts ++ [⟨h.session.device.device, .store offset word⟩]
  store_refused : ∀ offset word, ¬ WindowOpen h.session.registers offset →
    ∃ e, h.act (.writeWord offset word) = (.error e, h)
  load_passed : ∀ offset, WindowOpen h.session.registers offset →
    (h.act (.readWord offset)).1 = (Transport.readWord h.session.device offset).map .value
  /-- A read that is not legal never asks the device, whatever it might answer. -/
  load_refused : ∀ offset, ¬ WindowOpen h.session.registers offset →
    ∃ e, ∀ device, (h.onDevice device).act (.readWord offset) = (.error e, h.onDevice device)

/-! ## Steps -/

namespace Session

theorem sound_start {d : σ} {ctx : Nat} {s : Session (Recorded σ)}
    (h : start (Recorded.of d) ctx = .ok s) : s.Sound := by
  obtain ⟨hd, hm⟩ := mirrors_start h
  refine ⟨hm, ?_⟩
  intro a ha
  rw [hd] at ha
  cases ha

theorem Sound.write {s : Session (Recorded σ)} (h : s.Sound) (g : RegisterGroup) (index : Nat)
    (value : UInt32) : (s.write g index value).2.Sound := by
  obtain ⟨hm, hl⟩ := h
  cases hc : g.checkWrite index value s.gates with
  | error e => rw [write_of_refused hc]; exact ⟨hm, hl⟩
  | ok =>
    have hlegal := (checkWrite_eq_ok_iff_legal hm).1 hc
    refine ⟨?_, ?_⟩
    · have hreg := s.registers_write g index value
      rw [write_of_checked hc] at hreg ⊢
      cases hw : (Transport.writeRegister s.device g index value).1 with
      | error e => simp only [hw] at hreg ⊢; rw [hreg]; exact hm
      | ok => simp only [hw] at hreg ⊢; rw [hreg]; exact hm.apply hlegal.2.1 value
    · intro a ha
      rw [write_of_checked hc] at ha
      rcases List.mem_append.1 ha with ha | ha
      · exact hl a ha
      · obtain rfl := List.mem_singleton.1 ha
        exact hlegal

theorem Sound.writeMemory {s : Session (Recorded σ)} (h : s.Sound) (offset : Nat) (word : UInt32) :
    (s.writeMemory offset word).2.Sound := by
  obtain ⟨hm, hl⟩ := h
  cases hc : s.checkMemory offset with
  | error e => rw [writeMemory_of_refused hc]; exact ⟨hm, hl⟩
  | ok =>
    have hopen := (checkMemory_eq_ok_iff_open hm).1 hc
    have hreg := s.registers_writeMemory offset word
    rw [writeMemory_of_checked hc] at hreg ⊢
    refine ⟨?_, ?_⟩
    · rw [hreg]; exact hm
    · intro a ha
      rcases List.mem_append.1 ha with ha | ha
      · exact hl a ha
      · obtain rfl := List.mem_singleton.1 ha
        exact hopen

end Session

/-! ## Runs -/

/-- A session that is sound passes on what is legal and refuses the rest. -/
theorem Host.guarded_of_sound {h : Host (Recorded σ)} (hs : h.session.Sound) : h.Guarded where
  mirrors := hs.1
  legal := hs.2
  write_passed g index value hl := by
    have hc := (checkWrite_eq_ok_iff_legal hs.1).2 hl
    simp only [act, Session.writeNamed, RegisterGroup.find, RegisterGroup.ofName?_name]
    rw [Session.write_of_checked hc]
    rfl
  write_refused name index value hill := by
    simp only [act, Session.writeNamed, RegisterGroup.find]
    cases hn : RegisterGroup.ofName? name with
    | none => exact ⟨_, rfl⟩
    | some g =>
      cases hc : g.checkWrite index value h.session.gates with
      | error e => exact ⟨e, by simp only [Session.write_of_refused hc]; rfl⟩
      | ok =>
        have hlegal := (checkWrite_eq_ok_iff_legal hs.1).1 hc
        exact absurd hlegal (hill g (RegisterGroup.name_of_ofName? hn))
  store_passed offset word ho := by
    have hc := (checkMemory_eq_ok_iff_open hs.1).2 ho
    simp only [act]
    rw [Session.writeMemory_of_checked hc]
    rfl
  store_refused offset word ho := by
    cases hc : h.session.checkMemory offset with
    | error e => exact ⟨e, by simp only [act, Session.writeMemory_of_refused hc]; rfl⟩
    | ok => exact absurd ((checkMemory_eq_ok_iff_open hs.1).1 hc) ho
  load_passed offset ho := by
    have hc := (checkMemory_eq_ok_iff_open hs.1).2 ho
    simp [act, Session.readMemory, hc, bind, Except.bind]
  load_refused offset ho := by
    cases hc : h.session.checkMemory offset with
    | error e =>
      refine ⟨e, fun device => ?_⟩
      -- The check looks at the gates alone.
      have hd : (h.onDevice device).session.checkMemory offset = .error e := hc
      simp [act, Session.readMemory, hd, bind, Except.bind, Except.map]
    | ok => exact absurd ((checkMemory_eq_ok_iff_open hs.1).1 hc) ho

/-- **A session guards its device.** Whatever a host does from the start of a session on, and
whichever accesses fail on the way, its gates show the device, what reached the device was legal at
that moment, and what the device would not take is refused and changes nothing. In the middle of a
call of the loader the first two hold as well. -/
theorem run_guarded (d : σ) (ctx : Nat) {s : Session (Recorded σ)}
    (hs : Session.start (Recorded.of d) ctx = .ok s) (operations : List Operation) :
    ((Host.of s).run operations).Guarded ∧
      ∀ (c : LoaderCall) (n : Nat),
        (((Host.of s).run operations).session.perform (c.script.take n)).2.Sound := by
  have hwrite : ∀ (t : Session (Recorded σ)) g index value, t.Sound →
      (t.write g index value).2.Sound := fun t g index value ht => ht.write g index value
  have hstore : ∀ (t : Session (Recorded σ)) offset word, t.Sound →
      (t.writeMemory offset word).2.Sound := fun t offset word ht => ht.writeMemory offset word
  have hrun : ((Host.of s).run operations).session.Sound :=
    Host.run_keeps hwrite hstore (Session.sound_start hs) operations
  refine ⟨Host.guarded_of_sound hrun, ?_⟩
  intro c n
  exact Session.perform_keeps hwrite hstore (c.script.take n) hrun

/-- A device that fails the second register write, which is to end the reset. The store after it is
refused, and goes through once the reset was ended by another write. -/
theorem run_guarded_while_reset_fails :
    ∃ s,
      Session.start (Recorded.of ((Faulty.of Simulator.powerOn).follow (.nthWrite 2))) 0 = .ok s ∧
      ((Host.of s).run
        [.writeRegister "me_valid" 0 1, .writeRegister "me_idx" 0 5,
          .writeRegister "cl_ctrl" 1 0, .writeWord 4 7, .writeRegister "cl_ctrl" 1 0,
          .writeWord 4 9]).Guarded ∧
      ((Host.of s).run
        [.writeRegister "me_valid" 0 1, .writeRegister "me_idx" 0 5,
          .writeRegister "cl_ctrl" 1 0, .writeWord 4 7, .writeRegister "cl_ctrl" 1 0,
          .writeWord 4 9]).session.device.attempts.map (·.access) =
        [.write .matchValid 0 1, .write .clusterControl 1 0, .write .clusterControl 1 0,
          .store 4 9] :=
  ⟨_, rfl, (run_guarded _ 0 rfl _).1, rfl⟩

end PacketOffload
