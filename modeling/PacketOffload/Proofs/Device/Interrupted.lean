import PacketOffload.Proofs.Device.Reliable

/-!
# Devices with one access that fails

A transport through which all accesses go but one: after a number of accesses that may change the
device, the next one fails with a fault and does not reach it. The fault is any fault, and after it
nothing fails any more.

Main statements: while accesses are spared a session does what it does on the device itself
(`Session.perform_spared`), at the access that fails it stops with the fault
(`Session.performStep_struck`), and afterwards nothing shows of it any more
(`Session.perform_uninterrupted`).
-/

namespace PacketOffload

/-- A transport to a device, with an access that fails. -/
structure Interrupted (σ : Type) where
  device : σ
  /-- How many accesses still go through before the one that fails; `none` once it has failed. -/
  spared : Option Nat
  fault : Fault

namespace Interrupted

variable {σ : Type}

/-- Passes an access on to the device, or fails in its place. -/
def pass (f : Interrupted σ) (access : σ → Except Fault Unit × σ) :
    Except Fault Unit × Interrupted σ :=
  match f.spared with
  | none => ((access f.device).1, { f with device := (access f.device).2 })
  | some 0 => (.error f.fault, { f with spared := none })
  | some (n + 1) =>
    ((access f.device).1, { f with device := (access f.device).2, spared := some n })

instance [Transport σ] : Transport (Interrupted σ) where
  file f := DmaSource.file f.device
  setFile f contents := { f with device := DmaSource.setFile f.device contents }
  host f := DmaSource.host f.device
  readRegister f := Transport.readRegister f.device
  writeRegister f g index value := f.pass fun d => Transport.writeRegister d g index value
  readWord f := Transport.readWord f.device
  writeWord f offset word := f.pass fun d => Transport.writeWord d offset word
  region f := Transport.region f.device
  peek f := Transport.peek f.device
  poke f addr word := f.pass fun d => Transport.poke d addr word

end Interrupted

/-! ## Sessions with an access that fails -/

namespace Session

variable {σ : Type}

/-- The session on the same device, with an access that fails. -/
def interrupted (s : Session σ) (spared : Option Nat) (fault : Fault) :
    Session (Interrupted σ) where
  device := ⟨s.device, spared, fault⟩
  contextId := s.contextId
  region := s.region
  buffer := s.buffer
  gates := s.gates
  ringAttached := s.ringAttached
  notices := s.notices

theorem accept_interrupted (s : Session σ) (spared : Option Nat) (fault : Fault) (step : Step) :
    (s.interrupted spared fault).accept step = s.accept step := by
  cases step <;> rfl

variable [Transport σ]

/-- Without an access that fails, a step is what it is on the device. -/
theorem performStep_uninterrupted (s : Session σ) (step : Step) (fault : Fault) :
    (s.interrupted none fault).performStep step =
      ((s.performStep step).1, (s.performStep step).2.interrupted none fault) := by
  have hsame := s.accept_interrupted none fault step
  cases ha : s.accept step with
  | error e => rw [performStep_of_stopped (hsame.trans ha), performStep_of_stopped ha]
  | ok a =>
    rw [performStep_of_accepted (hsame.trans ha), performStep_of_accepted ha]
    cases a <;> rfl

/-- A step that goes through on the device goes through while accesses are spared, and uses up one
of them. -/
theorem performStep_spared {s : Session σ} {step : Step} (h : (s.performStep step).1 = .ok ())
    (n : Nat) (fault : Fault) :
    (s.interrupted (some (n + 1)) fault).performStep step =
      (.ok (), (s.performStep step).2.interrupted (some n) fault) := by
  rw [← h]
  obtain ⟨a, ha⟩ := accept_of_ok h
  have hsame := s.accept_interrupted (some (n + 1)) fault step
  rw [performStep_of_accepted (hsame.trans ha), performStep_of_accepted ha]
  cases a <;> rfl

/-- When no access is spared any more, a step that would go through fails with the fault, and the
session stays as it is. -/
theorem performStep_struck {s : Session σ} {step : Step} (h : (s.performStep step).1 = .ok ())
    (fault : Fault) :
    (s.interrupted (some 0) fault).performStep step = (.error fault, s.interrupted none fault) := by
  obtain ⟨a, ha⟩ := accept_of_ok h
  have hsame := s.accept_interrupted (some 0) fault step
  rw [performStep_of_accepted (hsame.trans ha)]
  cases a <;> rfl

theorem perform_uninterrupted (s : Session σ) (script : Script) (fault : Fault) :
    (s.interrupted none fault).perform script =
      ((s.perform script).1, (s.perform script).2.interrupted none fault) := by
  induction script generalizing s with
  | nil => rfl
  | cons step rest ih =>
    rw [perform, perform, performStep_uninterrupted]
    rcases s.performStep step with ⟨⟨e⟩ | ⟨⟨⟩⟩, t⟩
    · rfl
    · exact ih t

/-- A script that goes through on the device goes through while there are enough accesses that are
spared. -/
theorem perform_spared {s : Session σ} {script : Script} (h : (s.perform script).1 = .ok ())
    (n : Nat) (fault : Fault) :
    (s.interrupted (some (script.length + n)) fault).perform script =
      (.ok (), (s.perform script).2.interrupted (some n) fault) := by
  induction script generalizing s with
  | nil => simp [perform]
  | cons step rest ih =>
    obtain ⟨hs, hrest⟩ := perform_cons_eq_ok_iff.1 h
    have hlength : (step :: rest).length + n = rest.length + n + 1 := by
      rw [List.length_cons]
      omega
    rw [hlength, perform, performStep_spared hs, perform_cons_of_ok hs]
    exact ih hrest

end Session

end PacketOffload
