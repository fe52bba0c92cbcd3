import PacketOffload.Proofs.Device.Registers

/-!
# Legal accesses

Which accesses a device takes depends on three of its registers: the cluster reset closes the memory
window, and each engine locks its configuration while it is enabled. `Access.Legal` says so of the
registers of the device itself; the gates of a session are only what the host remembers of them.

Main statement: gates that show the registers of the device accept exactly the legal accesses
(`checkWrite_eq_ok_iff_legal`, `checkMemory_eq_ok_iff_open`).
-/

namespace PacketOffload

/-! ## Kinds of register groups -/

namespace RegisterGroup

def isReadOnly : RegisterGroup → Bool
  | .clusterFifo | .clusterStatus | .messageQueue | .datapathStats => true
  | _ => false

/-- Locked while the matching engine is enabled. -/
def isMatchConfig : RegisterGroup → Bool
  | .matchMode | .matchIndex | .matchMask | .matchStart | .matchEnd => true
  | _ => false

/-- Locked while handler execution is enabled. -/
def isHandlerConfig : RegisterGroup → Bool
  | .contextEnabled
  | .handlerMemAddr | .handlerMemSize
  | .hostMemAddrLo | .hostMemAddrHi | .hostMemSize
  | .headAddr | .headSize | .packetAddr | .packetSize | .tailAddr | .tailSize
  | .scratchpad0Addr | .scratchpad0Size | .scratchpad1Addr | .scratchpad1Size
  | .scratchpad2Addr | .scratchpad2Size | .scratchpad3Addr | .scratchpad3Size => true
  | _ => false

/-- There are finitely many groups, and what each of them shows holds of all. -/
instance {P : RegisterGroup → Prop} [DecidablePred P] : Decidable (∀ g, P g) :=
  decidable_of_iff (∀ g ∈ all, P g) ⟨fun h g => h g (mem_all g), fun h g _ => h g⟩

theorem isReadOnly_iff : ∀ g : RegisterGroup,
    g.isReadOnly = true ↔ g.block.writeRule = none := by
  decide +kernel

theorem isMatchConfig_iff : ∀ g : RegisterGroup,
    g.isMatchConfig = true ↔ g.block.writeRule = some .matchConfig := by
  decide +kernel

theorem isHandlerConfig_iff : ∀ g : RegisterGroup,
    g.isHandlerConfig = true ↔ g.block.writeRule = some .handlerConfig := by
  decide +kernel

theorem eq_clusterControl_iff : ∀ g : RegisterGroup,
    g = .clusterControl ↔ g.block.writeRule = some .clusterControl := by
  decide +kernel

theorem eq_valid_iff : ∀ g : RegisterGroup,
    g = .matchValid ∨ g = .handlerValid ↔ g.block.writeRule = some .enableFlag := by
  decide +kernel

end RegisterGroup

/-! ## Legality -/

/-- An access that may change a device. -/
inductive Access where
  | write (group : RegisterGroup) (index : Nat) (value : UInt32)
  | store (offset : Nat) (word : UInt32)
  | poke (addr : Nat) (word : UInt64)
  deriving DecidableEq, Repr

/-- The memory window takes an access at an offset: the clusters are out of reset, and a whole
aligned word lies there. -/
def WindowOpen (r : RegisterFile) (offset : Nat) : Prop :=
  r .clusterControl resetIndex ≠ 1 ∧ offset % 4 = 0 ∧ offset + 4 ≤ windowLength

/-- A device with these registers takes the access. It takes every poke. -/
def Access.Legal (r : RegisterFile) : Access → Prop
  | .write g index value =>
    g.isReadOnly = false ∧ index < g.count ∧
      (g.isMatchConfig = true → r .matchValid 0 ≠ 1) ∧
      (g.isHandlerConfig = true → r .handlerValid 0 ≠ 1) ∧
      (g = .clusterControl → index = fetchIndex → value ≤ 3) ∧
      (g = .clusterControl → index ≠ fetchIndex → value ≤ 1) ∧
      (g = .matchValid ∨ g = .handlerValid → value ≤ 1)
  | .store offset _ => WindowOpen r offset
  | .poke _ _ => True

/-- Gates show the registers of a device. -/
structure Gates.Mirrors (gates : Gates) (r : RegisterFile) : Prop where
  inReset : gates.inReset = true ↔ r .clusterControl resetIndex = 1
  matching : gates.matchEnabled = true ↔ r .matchValid 0 = 1
  handlers : gates.handlersEnabled = true ↔ r .handlerValid 0 = 1

/-- The check of a register write lets pass exactly what the device takes. -/
theorem checkWrite_eq_ok_iff_legal {gates : Gates} {r : RegisterFile} (h : gates.Mirrors r)
    {g : RegisterGroup} {index : Nat} {value : UInt32} :
    g.checkWrite index value gates = .ok () ↔ (Access.write g index value).Legal r := by
  rw [RegisterGroup.checkWrite_eq_ok_iff]
  simp only [Access.Legal, ← Bool.not_eq_true, RegisterGroup.isReadOnly_iff,
    RegisterGroup.isMatchConfig_iff, RegisterGroup.isHandlerConfig_iff,
    RegisterGroup.eq_clusterControl_iff, RegisterGroup.eq_valid_iff]
  -- The kind of the group is its rule from here on.
  cases g.block.writeRule with
  | none => simp
  | some rule =>
    cases rule with
    | clusterControl =>
      by_cases hi : index = fetchIndex
      · simp [WriteRule.refusal?, hi, allClusters, numClusters]
      · simp [WriteRule.refusal?, hi]
    | enableFlag => simp [WriteRule.refusal?]
    | matchConfig => simp [WriteRule.refusal?, ← h.matching]
    | handlerConfig => simp [WriteRule.refusal?, ← h.handlers]

/-- The check of the memory window lets pass exactly what the device takes. -/
theorem checkMemory_eq_ok_iff_open {σ : Type} {s : Session σ} {r : RegisterFile}
    (h : s.gates.Mirrors r) {offset : Nat} :
    s.checkMemory offset = .ok () ↔ WindowOpen r offset := by
  rw [Session.checkMemory_eq_ok_iff, WindowOpen, Ne, ← h.inReset, Bool.not_eq_true]

/-- A session begins with the device it was given, and its gates show it. -/
theorem Session.mirrors_start {σ : Type} [Transport σ] [RegisterView σ] {d : σ} {ctx : Nat}
    {s : Session σ} (h : start d ctx = .ok s) : s.device = d ∧ s.gates.Mirrors s.registers := by
  unfold start at h
  simp only [bind, Except.bind] at h
  split at h
  · simp at h
  next reset hreset =>
  split at h
  · simp at h
  next matching hmatching =>
  split at h
  · simp at h
  next handlers hhandlers =>
  obtain rfl := Except.ok.inj h
  have h1 := RegisterView.registers_of_read hreset
  have h2 := RegisterView.registers_of_read hmatching
  have h3 := RegisterView.registers_of_read hhandlers
  refine ⟨rfl, ?_, ?_, ?_⟩
  · simp [registers, h1]
  · simp [registers, h2]
  · simp [registers, h3]

/-- Gates that follow an accepted write show the registers after it. The enable flags are single
registers, so that the index of an accepted write to one of them is zero. -/
theorem Gates.Mirrors.apply {gates : Gates} {r : RegisterFile} (h : gates.Mirrors r)
    {g : RegisterGroup} {index : Nat} (hi : index < g.count) (value : UInt32) :
    (gates.apply g index value).Mirrors (r.set g index value) := by
  by_cases hc : g = .clusterControl
  · subst hc
    by_cases hr : index = resetIndex
    · subst hr
      exact ⟨by simp [Gates.apply], by simpa [Gates.apply] using h.matching,
        by simpa [Gates.apply] using h.handlers⟩
    · have hreset : r.set .clusterControl index value .clusterControl resetIndex =
          r .clusterControl resetIndex :=
        r.set_of_ne value fun both => hr both.2.symm
      exact ⟨by simpa [Gates.apply, hr, hreset] using h.inReset,
        by simpa [Gates.apply, hr] using h.matching, by simpa [Gates.apply, hr] using h.handlers⟩
  by_cases hm : g = .matchValid
  · subst hm
    obtain rfl : index = 0 := Nat.lt_one_iff.1 hi
    exact ⟨by simpa [Gates.apply] using h.inReset, by simp [Gates.apply],
      by simpa [Gates.apply] using h.handlers⟩
  by_cases hh : g = .handlerValid
  · subst hh
    obtain rfl : index = 0 := Nat.lt_one_iff.1 hi
    exact ⟨by simpa [Gates.apply] using h.inReset, by simpa [Gates.apply] using h.matching,
      by simp [Gates.apply]⟩
  · rw [Gates.apply_of_other gates index value hc hm hh]
    exact ⟨by simpa [Ne.symm hc] using h.inReset, by simpa [Ne.symm hm] using h.matching,
      by simpa [Ne.symm hh] using h.handlers⟩

end PacketOffload
