import PacketOffload.Script
import PacketOffload.Transport.Faulty
import PacketOffload.Transport.Simulator

/-!
# Devices seen through their registers

Whatever a transport does, its device holds a value in every register. `RegisterView` is a transport
on which these values can be seen: a register write takes effect as a whole or, if it fails, not at
all, and a store to the memory window touches no register.

Main statements: a session passes a register write on exactly if its check accepts it
(`write_of_checked`), and of a script a beginning took effect, all of it if the script went through
(`registers_perform`).
-/

namespace PacketOffload

/-- A value in every register. -/
abbrev RegisterFile := RegisterGroup → (index : Nat) → UInt32

namespace RegisterFile

/-- The values after one register was written. -/
def set (r : RegisterFile) (g : RegisterGroup) (index : Nat) (value : UInt32) : RegisterFile :=
  fun h i => if h = g ∧ i = index then value else r h i

@[simp] theorem set_self (r : RegisterFile) (g : RegisterGroup) (i : Nat) (value : UInt32) :
    r.set g i value g i = value := by
  simp [set]

theorem set_of_ne (r : RegisterFile) {g h : RegisterGroup} {i j : Nat} (value : UInt32)
    (hne : ¬ (h = g ∧ j = i)) : r.set g i value h j = r h j := by
  simp only [set, hne, if_false]

@[simp] theorem set_of_group_ne (r : RegisterFile) {g h : RegisterGroup} (i j : Nat)
    (value : UInt32) (hne : h ≠ g) : r.set g i value h j = r h j :=
  r.set_of_ne value fun both => hne both.1

end RegisterFile

/-- A transport on whose device the registers can be seen. -/
class RegisterView (σ : Type) [Transport σ] where
  registers : σ → RegisterFile
  registers_of_read : ∀ {d : σ} {g : RegisterGroup} {index : Nat} {value : UInt32},
    Transport.readRegister d g index = .ok value → registers d g index = value
  registers_of_write : ∀ {d : σ} {g : RegisterGroup} {index : Nat} {value : UInt32},
    (Transport.writeRegister d g index value).1 = .ok () →
      registers (Transport.writeRegister d g index value).2 = (registers d).set g index value
  registers_of_failed : ∀ {d : σ} {g : RegisterGroup} {index : Nat} {value : UInt32} {e : Fault},
    (Transport.writeRegister d g index value).1 = .error e →
      registers (Transport.writeRegister d g index value).2 = registers d
  registers_of_store : ∀ (d : σ) (offset : Nat) (word : UInt32),
    registers (Transport.writeWord d offset word).2 = registers d

export RegisterView (registers)

/-! ## Instances -/

instance : RegisterView Simulator where
  registers := Simulator.register
  registers_of_read h := Except.ok.inj h
  registers_of_write {d g index value} h := by
    have hf : d.failing ≠ some g := by
      intro hf
      simp [Transport.writeRegister, Simulator.writeRegister, hf] at h
    funext k j
    simp [Transport.writeRegister, Simulator.register_writeRegister, hf, RegisterFile.set]
  registers_of_failed {d g index value e} h := by
    by_cases hf : d.failing = some g
    · simp [Transport.writeRegister, Simulator.writeRegister, hf]
    · simp [Transport.writeRegister, Simulator.writeRegister, hf] at h
  registers_of_store d offset word := by
    simp only [Transport.writeWord]
    cases Simulator.checkOffset offset <;> rfl

instance {σ : Type} [Transport σ] [RegisterView σ] : RegisterView (Faulty σ) where
  registers f := registers f.device
  registers_of_read h := RegisterView.registers_of_read h
  registers_of_write {f g index value} h := by
    by_cases hp : f.plan.write f.writes f.stores = true
    · simp [Transport.writeRegister, Faulty.writeRegister_of_chosen hp] at h
    · have hs : f.plan.write f.writes f.stores = false := by simpa using hp
      simp only [Transport.writeRegister, Faulty.writeRegister_of_spared hs] at h ⊢
      exact RegisterView.registers_of_write h
  registers_of_failed {f g index value e} h := by
    by_cases hp : f.plan.write f.writes f.stores = true
    · simp [Transport.writeRegister, Faulty.writeRegister_of_chosen hp]
    · have hs : f.plan.write f.writes f.stores = false := by simpa using hp
      simp only [Transport.writeRegister, Faulty.writeRegister_of_spared hs] at h ⊢
      exact RegisterView.registers_of_failed h
  registers_of_store f offset word := by
    by_cases hp : f.plan.store f.writes f.stores = true
    · simp [Transport.writeWord, Faulty.writeWord, hp]
    · simp only [Transport.writeWord, Faulty.writeWord, hp]
      exact RegisterView.registers_of_store f.device offset word

/-! ## What a session passes on -/

namespace Session

variable {σ : Type} [Transport σ]

/-- A register write that the check accepts is what the transport makes of it; the gates follow it
if it went through. -/
theorem write_of_checked {s : Session σ} {g : RegisterGroup} {index : Nat} {value : UInt32}
    (h : g.checkWrite index value s.gates = .ok ()) :
    s.write g index value =
      ((Transport.writeRegister s.device g index value).1,
        { s with
          device := (Transport.writeRegister s.device g index value).2
          gates := match (Transport.writeRegister s.device g index value).1 with
            | .ok () => s.gates.apply g index value
            | .error _ => s.gates }) := by
  unfold write
  rw [h]
  rcases Transport.writeRegister s.device g index value with ⟨⟨e⟩ | ⟨⟨⟩⟩, device⟩ <;> rfl

theorem writeMemory_of_refused {s : Session σ} {offset : Nat} {e : Fault}
    (h : s.checkMemory offset = .error e) (word : UInt32) :
    s.writeMemory offset word = (.error e, s) := by
  simp [writeMemory, h]

theorem writeMemory_of_checked {s : Session σ} {offset : Nat} (h : s.checkMemory offset = .ok ())
    (word : UInt32) :
    s.writeMemory offset word =
      ((Transport.writeWord s.device offset word).1,
        { s with device := (Transport.writeWord s.device offset word).2 }) := by
  simp [writeMemory, h]

omit [Transport σ] in
theorem checkMemory_eq_ok_iff {s : Session σ} {offset : Nat} :
    s.checkMemory offset = .ok () ↔
      s.gates.inReset = false ∧ offset % 4 = 0 ∧ offset + 4 ≤ windowLength := by
  unfold checkMemory
  by_cases hr : s.gates.inReset = true
  · simp [hr]
  · by_cases ho : offset % 4 ≠ 0 ∨ windowLength < offset + 4
    · have hno : ¬ (offset % 4 = 0 ∧ offset + 4 ≤ windowLength) := by omega
      simp [hr, ho, hno]
    · have hyes : offset % 4 = 0 ∧ offset + 4 ≤ windowLength := by omega
      simp [hr, hyes]

/-- What every write and every store keeps, a script keeps. -/
theorem perform_keeps {P : Session σ → Prop}
    (hwrite : ∀ s g index value, P s → P (s.write g index value).2)
    (hstore : ∀ s offset word, P s → P (s.writeMemory offset word).2)
    (script : Script) {s : Session σ} (h : P s) : P (s.perform script).2 := by
  induction script generalizing s with
  | nil => exact h
  | cons step rest ih =>
    have hstep : P (s.performStep step).2 := by
      cases step with
      | write g index value => exact hwrite s g index value h
      | store offset word => exact hstore s offset word h
      | refuse fault => exact h
    unfold perform
    revert hstep
    rcases s.performStep step with ⟨⟨e⟩ | ⟨⟨⟩⟩, t⟩ <;> intro hstep
    · exact hstep
    · exact ih hstep

end Session

/-! ## What a script leaves in the registers -/

/-- The registers after a step that took effect. -/
def Step.settle (r : RegisterFile) : Step → RegisterFile
  | .write g index value => r.set g index value
  | .store _ _ => r
  | .refuse _ => r

/-- The registers after a script of which every step took effect. -/
def Script.settle (script : Script) (r : RegisterFile) : RegisterFile := script.foldl Step.settle r

namespace Session

variable {σ : Type} [Transport σ] [RegisterView σ]

/-- The registers of a session's device. -/
def registers (s : Session σ) : RegisterFile := PacketOffload.registers s.device

/-- A register write takes effect or leaves all registers as they are. -/
theorem registers_write (s : Session σ) (g : RegisterGroup) (index : Nat) (value : UInt32) :
    (s.write g index value).2.registers =
      match (s.write g index value).1 with
      | .ok () => s.registers.set g index value
      | .error _ => s.registers := by
  cases hc : g.checkWrite index value s.gates with
  | error e => simp [write_of_refused hc]
  | ok =>
    rw [write_of_checked hc]
    cases hw : (Transport.writeRegister s.device g index value).1 with
    | error e => exact RegisterView.registers_of_failed hw
    | ok => exact RegisterView.registers_of_write hw

theorem registers_writeMemory (s : Session σ) (offset : Nat) (word : UInt32) :
    (s.writeMemory offset word).2.registers = s.registers := by
  cases hc : s.checkMemory offset with
  | error e => rw [writeMemory_of_refused hc]
  | ok =>
    rw [writeMemory_of_checked hc]
    exact RegisterView.registers_of_store s.device offset word

theorem registers_performStep (s : Session σ) (step : Step) :
    (s.performStep step).2.registers =
      match (s.performStep step).1 with
      | .ok () => step.settle s.registers
      | .error _ => s.registers := by
  cases step with
  | write g index value => exact s.registers_write g index value
  | store offset word =>
    have := s.registers_writeMemory offset word
    simp only [performStep, Step.settle]
    split <;> exact this
  | refuse fault => rfl

/-- Of a script a beginning took effect, and all of it exactly if the script went through. -/
theorem registers_perform (s : Session σ) (script : Script) :
    ∃ done rest, script = done ++ rest ∧ (s.perform script).2.registers = done.settle s.registers ∧
      ((s.perform script).1 = .ok () ↔ rest = []) := by
  induction script generalizing s with
  | nil => exact ⟨[], [], rfl, rfl, by simp [perform]⟩
  | cons step rest ih =>
    have hreg := s.registers_performStep step
    unfold perform
    revert hreg
    rcases s.performStep step with ⟨⟨e⟩ | ⟨⟨⟩⟩, t⟩ <;> intro hreg
    · exact ⟨[], step :: rest, rfl, hreg, by simp⟩
    · obtain ⟨done, left, hsplit, hset, hok⟩ := ih t
      refine ⟨step :: done, left, by simp [hsplit], ?_, hok⟩
      have ht : t.registers = step.settle s.registers := hreg
      rw [hset, ht]
      rfl

end Session

end PacketOffload
