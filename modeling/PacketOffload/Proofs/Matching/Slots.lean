import PacketOffload.Proofs.Device.Host
import PacketOffload.Proofs.Device.Legality

/-!
# Slots in the registers

A rule set stands in seventeen registers of its slot: the mode, and four words for each of its four
rules. `HoldsSet` reads them back; it is a statement about the registers alone, and says nothing of
the script that wrote them.

Main statements: the scripts of slots put each rule set into its slot (`holdsSet_slotsScript`) and
touch no other slot (`settle_slotsScript_of_inSlot`).
-/

namespace PacketOffload

namespace RegisterFile

/-- A rule stands in the registers of an index. -/
structure HoldsRule (r : RegisterFile) (index : Nat) (rule : MatchRule) : Prop where
  word : r .matchIndex index = rule.word
  mask : r .matchMask index = Bytes.swap32 rule.mask
  low : r .matchStart index = Bytes.swap32 rule.low
  high : r .matchEnd index = Bytes.swap32 rule.high

/-- A rule set stands in the registers of a slot. -/
structure HoldsSet (r : RegisterFile) (slot : Nat) (set : RuleSet) : Prop where
  mode : r .matchMode slot = set.mode.registerValue
  first : r.HoldsRule (slot * rulesPerSet) set.first
  second : r.HoldsRule (slot * rulesPerSet + 1) set.second
  third : r.HoldsRule (slot * rulesPerSet + 2) set.third
  eom : r.HoldsRule (slot * rulesPerSet + 3) set.eom

/-- The registers of the matching engine: its enable flag, and what the flag locks. -/
def SameEngine (r q : RegisterFile) : Prop :=
  ∀ g i, g = .matchValid ∨ g.isMatchConfig = true → q g i = r g i

end RegisterFile

/-- The registers of a slot. -/
def InSlot (slot : Nat) (g : RegisterGroup) (i : Nat) : Prop :=
  (g = .matchMode ∧ i = slot) ∨
    (g ≠ .matchMode ∧ g.isMatchConfig = true ∧ i / rulesPerSet = slot)

namespace InSlot

theorem unique {slot other i : Nat} {g : RegisterGroup} (h : InSlot slot g i)
    (h' : InSlot other g i) : slot = other := by
  rcases h with ⟨hg, rfl⟩ | ⟨hg, -, rfl⟩ <;> rcases h' with ⟨hg', rfl⟩ | ⟨hg', -, rfl⟩
  · rfl
  · exact absurd hg hg'
  · exact absurd hg' hg
  · rfl

theorem isMatchConfig {slot i : Nat} {g : RegisterGroup} (h : InSlot slot g i) :
    g.isMatchConfig = true := by
  rcases h with ⟨rfl, -⟩ | ⟨-, hc, -⟩
  · rfl
  · exact hc

theorem ne_valid {slot i : Nat} {g : RegisterGroup} (h : InSlot slot g i) : g ≠ .matchValid := by
  rintro rfl
  exact absurd h.isMatchConfig (by decide)

theorem of_rule {slot k : Nat} (hk : k < rulesPerSet) {g : RegisterGroup} (hg : g ≠ .matchMode)
    (hc : g.isMatchConfig = true) : InSlot slot g (slot * rulesPerSet + k) := by
  refine Or.inr ⟨hg, hc, ?_⟩
  simp only [rulesPerSet] at hk ⊢
  omega

end InSlot

namespace RegisterFile

variable {r q : RegisterFile}

theorem HoldsRule.congr {slot k : Nat} {rule : MatchRule}
    (h : r.HoldsRule (slot * rulesPerSet + k) rule) (hk : k < rulesPerSet)
    (hs : ∀ g i, InSlot slot g i → q g i = r g i) : q.HoldsRule (slot * rulesPerSet + k) rule := by
  have keep : ∀ g : RegisterGroup, g ≠ .matchMode → g.isMatchConfig = true →
      q g (slot * rulesPerSet + k) = r g (slot * rulesPerSet + k) :=
    fun g hg hc => hs g _ (InSlot.of_rule hk hg hc)
  have hword := keep .matchIndex (by decide) rfl
  have hmask := keep .matchMask (by decide) rfl
  have hlow := keep .matchStart (by decide) rfl
  have hhigh := keep .matchEnd (by decide) rfl
  exact ⟨hword.trans h.word, hmask.trans h.mask, hlow.trans h.low, hhigh.trans h.high⟩

/-- What stands in a slot is known from the registers of the slot. -/
theorem HoldsSet.congr {slot : Nat} {set : RuleSet} (h : r.HoldsSet slot set)
    (hs : ∀ g i, InSlot slot g i → q g i = r g i) : q.HoldsSet slot set := by
  refine ⟨?_, ?_, h.second.congr (by decide) hs, h.third.congr (by decide) hs,
    h.eom.congr (by decide) hs⟩
  · rw [hs .matchMode slot (Or.inl ⟨rfl, rfl⟩)]
    exact h.mode
  · exact HoldsRule.congr (k := 0) h.first (by decide) hs

end RegisterFile

/-! ## Scripts that spare registers -/

namespace Script

theorem settle_append (first second : Script) (r : RegisterFile) :
    (first ++ second).settle r = second.settle (first.settle r) :=
  List.foldl_append

/-- A register that no step of a script writes keeps its value. -/
theorem settle_of_spared {script : Script} {g : RegisterGroup} {i : Nat} (r : RegisterFile)
    (h : ∀ value, Step.write g i value ∉ script) : script.settle r g i = r g i := by
  induction script generalizing r with
  | nil => rfl
  | cons step rest ih =>
    have hrest : ∀ value, Step.write g i value ∉ rest :=
      fun value hm => h value (List.mem_cons_of_mem _ hm)
    have hstep : step.settle r g i = r g i := by
      cases step with
      | write k j value =>
        refine RegisterFile.set_of_ne r value ?_
        rintro ⟨rfl, rfl⟩
        exact h value List.mem_cons_self
      | store offset word => rfl
      | refuse fault => rfl
    exact (ih (step.settle r) hrest).trans hstep

end Script

theorem mem_ruleScript {g : RegisterGroup} {i index : Nat} {value : UInt32} {rule : MatchRule}
    (h : Step.write g i value ∈ ruleScript index rule) :
    i = index ∧ g ≠ .matchMode ∧ g.isMatchConfig = true := by
  simp only [ruleScript, List.mem_cons, Step.write.injEq, List.not_mem_nil, or_false] at h
  rcases h with ⟨rfl, rfl, -⟩ | ⟨rfl, rfl, -⟩ | ⟨rfl, rfl, -⟩ | ⟨rfl, rfl, -⟩ <;>
    exact ⟨rfl, by decide, rfl⟩

/-- The script of a slot writes to the slot. -/
theorem inSlot_of_mem_slotScript {g : RegisterGroup} {i slot : Nat} {value : UInt32}
    {set : RuleSet} (h : Step.write g i value ∈ slotScript slot set) : InSlot slot g i := by
  have of_rule : ∀ {k : Nat} {rule : MatchRule}, k < rulesPerSet →
      Step.write g i value ∈ ruleScript (slot * rulesPerSet + k) rule → InSlot slot g i := by
    intro k rule hk hm
    obtain ⟨rfl, hg, hc⟩ := mem_ruleScript hm
    exact InSlot.of_rule hk hg hc
  simp only [slotScript, List.mem_cons, List.mem_append, Step.write.injEq] at h
  rcases h with ⟨rfl, rfl, -⟩ | ((h | h) | h) | h
  · exact Or.inl ⟨rfl, rfl⟩
  · exact of_rule (k := 0) (by decide) h
  · exact of_rule (by decide) h
  · exact of_rule (by decide) h
  · exact of_rule (by decide) h

/-! ## What the scripts of slots leave -/

theorem holdsRule_ruleScript (r : RegisterFile) (index : Nat) (rule : MatchRule) :
    ((ruleScript index rule).settle r).HoldsRule index rule := by
  constructor <;> simp [ruleScript, Script.settle, Step.settle]

theorem RegisterFile.HoldsRule.ruleScript {r : RegisterFile} {index other : Nat} {rule : MatchRule}
    (h : r.HoldsRule index rule) (hne : index ≠ other) (new : MatchRule) :
    ((PacketOffload.ruleScript other new).settle r).HoldsRule index rule := by
  have keep : ∀ g, (PacketOffload.ruleScript other new).settle r g index = r g index :=
    fun g => Script.settle_of_spared r fun value hm => hne (mem_ruleScript hm).1
  exact ⟨(keep _).trans h.word, (keep _).trans h.mask, (keep _).trans h.low, (keep _).trans h.high⟩

theorem mode_ruleScript (r : RegisterFile) (index slot : Nat) (rule : MatchRule) :
    (ruleScript index rule).settle r .matchMode slot = r .matchMode slot :=
  Script.settle_of_spared r fun _ hm => (mem_ruleScript hm).2.1 rfl

/-- The script of a slot puts the rule set there. -/
theorem holdsSet_slotScript (r : RegisterFile) (slot : Nat) (set : RuleSet) :
    ((slotScript slot set).settle r).HoldsSet slot set := by
  have hcons : (slotScript slot set).settle r =
      (ruleScript (slot * rulesPerSet + 3) set.eom).settle
        ((ruleScript (slot * rulesPerSet + 2) set.third).settle
          ((ruleScript (slot * rulesPerSet + 1) set.second).settle
            ((ruleScript (slot * rulesPerSet) set.first).settle
              (r.set .matchMode slot set.mode.registerValue)))) := by
    simp only [← Script.settle_append, slotScript, List.append_assoc]
    rfl
  rw [hcons]
  refine ⟨?_, ?_, ?_, ?_, holdsRule_ruleScript _ _ _⟩
  · simp only [mode_ruleScript, RegisterFile.set_self]
  · exact (((holdsRule_ruleScript _ _ _).ruleScript (by omega) _).ruleScript (by omega)
      _).ruleScript (by omega) _
  · exact ((holdsRule_ruleScript _ _ _).ruleScript (by omega) _).ruleScript (by omega) _
  · exact (holdsRule_ruleScript _ _ _).ruleScript (by omega) _

/-- Writes the slots of a list, each with its rule set. -/
def slotsScript (slots : List Nat) (sets : Nat → RuleSet) : Script :=
  slots.flatMap fun slot => slotScript slot (sets slot)

theorem inSlot_of_mem_slotsScript {g : RegisterGroup} {i : Nat} {value : UInt32} {slots : List Nat}
    {sets : Nat → RuleSet} (h : Step.write g i value ∈ slotsScript slots sets) :
    ∃ slot ∈ slots, InSlot slot g i := by
  obtain ⟨slot, hs, hm⟩ := List.mem_flatMap.1 h
  exact ⟨slot, hs, inSlot_of_mem_slotScript hm⟩

/-- Slots that are not written keep what they hold. -/
theorem settle_slotsScript_of_inSlot {slot i : Nat} {g : RegisterGroup} (r : RegisterFile)
    {slots : List Nat} (hs : slot ∉ slots) (sets : Nat → RuleSet) (hi : InSlot slot g i) :
    (slotsScript slots sets).settle r g i = r g i := by
  refine Script.settle_of_spared r fun value hm => ?_
  obtain ⟨other, ho, hio⟩ := inSlot_of_mem_slotsScript hm
  exact hs (hi.unique hio ▸ ho)

/-- Each slot of a list without repetition holds its rule set in the end. -/
theorem holdsSet_slotsScript (r : RegisterFile) {slots : List Nat} (hn : slots.Nodup)
    (sets : Nat → RuleSet) {slot : Nat} (hs : slot ∈ slots) :
    ((slotsScript slots sets).settle r).HoldsSet slot (sets slot) := by
  induction slots generalizing r with
  | nil => cases hs
  | cons head rest ih =>
    obtain ⟨hhead, hrest⟩ := List.nodup_cons.1 hn
    rw [slotsScript, List.flatMap_cons, Script.settle_append]
    rcases List.mem_cons.1 hs with rfl | hs
    · refine (holdsSet_slotScript r slot (sets slot)).congr fun g i hi => ?_
      exact settle_slotsScript_of_inSlot _ hhead sets hi
    · exact ih _ hrest hs

end PacketOffload
