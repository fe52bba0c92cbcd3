import PacketOffload.Proofs.Device.Reliable

/-!
# What scripts leave

A script that goes through leaves in each place of a device, a register or a word of the memory
window, the last value that it puts there, and what was there before if it puts none. So a place
that a script writes does not depend on what it found.

Main statements: what stands in a register and in the memory window after a script
(`Script.settle_eq_getLastD`, `Session.window_perform`), doing the whole of something after a
beginning of it is doing the whole (`getLastD_again`), and what a session reads of the memory window
is what can be seen there (`Session.readBack_eq`).
-/

namespace PacketOffload

/-- A transport on whose device the words of the memory window can be seen: register writes leave
them alone, and a store that goes through puts its word in place. -/
class WindowView (σ : Type) [Transport σ] where
  window : σ → (offset : Nat) → UInt32
  window_of_write : ∀ (d : σ) (g : RegisterGroup) (index : Nat) (value : UInt32),
    window (Transport.writeRegister d g index value).2 = window d
  window_of_store : ∀ {d : σ} {offset : Nat} {word : UInt32},
    (Transport.writeWord d offset word).1 = .ok () →
      window (Transport.writeWord d offset word).2 =
        fun other => if other = offset then word else window d other

instance : WindowView Simulator where
  window d := d.memory.get
  window_of_write d g index value := by
    by_cases hf : d.failing = some g <;>
      simp [Transport.writeRegister, Simulator.writeRegister, hf, Simulator.setRegister]
  window_of_store {d offset word} h := by
    simp only [Transport.writeWord] at h ⊢
    cases hc : Simulator.checkOffset offset with
    | error e =>
      rw [hc] at h
      cases h
    | ok =>
      funext other
      simp only [Memory.get_set, eq_comm (a := offset)]

/-! ## The last value in each place -/

/-- The value that a step puts into a register. -/
def Step.valueFor (g : RegisterGroup) (index : Nat) : Step → Option UInt32
  | .write h i value => if g = h ∧ index = i then some value else none
  | .store _ _ => none
  | .refuse _ => none

/-- The word that a step puts into the memory window. -/
def Step.wordFor (offset : Nat) : Step → Option UInt32
  | .write _ _ _ => none
  | .store other word => if offset = other then some word else none
  | .refuse _ => none

theorem Script.settle_eq_getLastD (script : Script) (r : RegisterFile) (g : RegisterGroup)
    (index : Nat) :
    script.settle r g index = (script.filterMap (Step.valueFor g index)).getLastD (r g index) := by
  induction script generalizing r with
  | nil => rfl
  | cons step rest ih =>
    have hrest : settle (step :: rest) r g index = settle rest (step.settle r) g index := rfl
    rw [hrest, ih]
    cases step with
    | write h i value =>
      by_cases hp : g = h ∧ index = i
      · have hv : Step.valueFor g index (.write h i value) = some value := if_pos hp
        obtain ⟨rfl, rfl⟩ := hp
        rw [List.filterMap_cons_some hv, List.getLastD_cons, Step.settle, RegisterFile.set_self]
      · have hv : Step.valueFor g index (.write h i value) = none := if_neg hp
        rw [List.filterMap_cons_none hv, Step.settle, RegisterFile.set_of_ne _ _ hp]
    | store offset word => rfl
    | refuse fault => rfl

/-- Doing the whole of something after a beginning of it, and after something that puts values only
where the whole does, is doing the whole. -/
theorem getLastD_again {α : Type} {whole started between : List α} (x : α)
    (hs : whole = [] → started = []) (hb : whole = [] → between = []) :
    whole.getLastD (between.getLastD (started.getLastD x)) = whole.getLastD x := by
  cases whole with
  | nil => simp [hs rfl, hb rfl]
  | cons value rest => simp only [List.getLastD_cons]

namespace Session

variable {σ : Type} [Transport σ]

theorem registers_of_performed [RegisterView σ] {s : Session σ} {script : Script}
    (h : (s.perform script).1 = .ok ()) :
    (s.perform script).2.registers = script.settle s.registers := by
  obtain ⟨done, rest, hsplit, hregisters, hend⟩ := s.registers_perform script
  obtain rfl := hend.1 h
  rw [hregisters, hsplit, List.append_nil]

variable [WindowView σ]

/-- The memory window of a session's device. -/
def window (s : Session σ) : (offset : Nat) → UInt32 := WindowView.window s.device

theorem window_performStep {s : Session σ} {step : Step} (h : (s.performStep step).1 = .ok ())
    (offset : Nat) :
    (s.performStep step).2.window offset = (step.wordFor offset).getD (s.window offset) := by
  obtain ⟨a, ha⟩ := accept_of_ok h
  rw [performStep_of_accepted ha] at h ⊢
  have hstep := access?_of_accept ha
  cases step with
  | write g index value =>
    cases hstep
    exact congrFun (WindowView.window_of_write s.device g index value) offset
  | store other word =>
    cases hstep
    refine (congrFun (WindowView.window_of_store h) offset).trans ?_
    by_cases ho : offset = other <;> simp [Step.wordFor, ho, window]
  | refuse fault => cases hstep

theorem window_perform {s : Session σ} {script : Script} (h : (s.perform script).1 = .ok ())
    (offset : Nat) :
    (s.perform script).2.window offset =
      (script.filterMap (Step.wordFor offset)).getLastD (s.window offset) := by
  induction script generalizing s with
  | nil => rfl
  | cons step rest ih =>
    obtain ⟨hs, hrest⟩ := perform_cons_eq_ok_iff.1 h
    rw [perform_cons_of_ok hs, ih hrest, window_performStep hs]
    cases hw : step.wordFor offset with
    | none => rw [List.filterMap_cons_none hw, Option.getD_none]
    | some word => rw [List.filterMap_cons_some hw, List.getLastD_cons, Option.getD_some]

end Session

/-! ## Reading the memory window -/

/-- A transport that reads what can be seen in the memory window. -/
class ReadableWindow (σ : Type) [Transport σ] [WindowView σ] : Prop where
  readWord : ∀ (d : σ) {offset : Nat}, InWindow offset →
    Transport.readWord d offset = .ok (WindowView.window d offset)

instance : ReadableWindow Simulator where
  readWord d offset h := by
    have hlt : offset < windowLength := by
      have := h.2
      omega
    simp [Transport.readWord, Simulator.checkOffset, hlt, WindowView.window, Except.map]

namespace Session

variable {σ : Type} [Transport σ]

/-- The byte at an offset of the memory window, from the word that it is in. -/
def readMemoryByte (s : Session σ) (offset : Nat) : Except Fault UInt8 :=
  (s.readMemory (offset - offset % 4)).map fun word => (Bytes.ofWord32 word).getD (offset % 4) 0

/-- The bytes of the memory window from an offset on. -/
def readBack (s : Session σ) (base length : Nat) : Except Fault Bytes :=
  (List.range' base length).mapM s.readMemoryByte

variable [WindowView σ]

/-- The byte that can be seen at an offset of the memory window. -/
def windowByte (s : Session σ) (offset : Nat) : UInt8 :=
  (Bytes.ofWord32 (s.window (offset - offset % 4))).getD (offset % 4) 0

variable [ReadableWindow σ] {s : Session σ}

theorem readMemoryByte_eq (hs : s.gates.inReset = false) {offset : Nat} (h : offset < windowLength) :
    s.readMemoryByte offset = .ok (s.windowByte offset) := by
  have hw : InWindow (offset - offset % 4) := by
    simp only [InWindow, windowLength] at h ⊢
    omega
  have hread : s.readMemory (offset - offset % 4) = .ok (s.window (offset - offset % 4)) := by
    simp only [readMemory, checkMemory_eq_ok_iff.2 ⟨hs, hw⟩]
    exact ReadableWindow.readWord s.device hw
  rw [readMemoryByte, hread]
  rfl

theorem readBack_eq (hs : s.gates.inReset = false) {base length : Nat}
    (h : base + length ≤ windowLength) :
    s.readBack base length = .ok ((List.range' base length).map s.windowByte) := by
  unfold readBack
  induction length generalizing base with
  | zero => rfl
  | succ length ih =>
    rw [List.range'_succ, List.mapM_cons, readMemoryByte_eq hs (by omega), ih (by omega)]
    rfl

end Session

end PacketOffload
