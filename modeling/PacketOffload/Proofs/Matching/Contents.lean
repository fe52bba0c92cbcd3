import PacketOffload.Proofs.Device.Window
import PacketOffload.Proofs.Loading.Acceptance
import PacketOffload.Proofs.Matching.Activation

/-!
# What the slots hold

The rule sets of the matching engine are spread over sixty-eight registers, with masks and bounds in
network order. They can be read back, and what the calls of the loader make of them can be said
without the registers: a programming replaces all rule sets, an unload replaces one by the bypass,
and a load leaves all of them.

Main statements: what is read from a slot is what it holds (`setAt?_eq_some_iff`), and after calls
that went through the slots hold the rule sets of the last programming, but for the slots unloaded
since then (`slots_hold_last_programming`).
-/

namespace PacketOffload

/-! ## Reading slots back -/

/-- The mode that the device stores as a value. -/
def MatchMode.ofRegister? (value : UInt32) : Option MatchMode :=
  if value = 0 then some .all else if value = 1 then some .any else none

theorem MatchMode.ofRegister?_eq_some_iff {value : UInt32} {mode : MatchMode} :
    ofRegister? value = some mode ↔ value = mode.registerValue := by
  unfold ofRegister?
  cases mode <;> simp only [registerValue]
  · by_cases h0 : value = 0
    · simp [h0]
    · by_cases h1 : value = 1 <;> simp [h0, h1]
  · by_cases h0 : value = 0
    · subst h0
      decide
    · by_cases h1 : value = 1 <;> simp [h0, h1]

namespace RegisterFile

variable {r q : RegisterFile}

/-- The word that a register holds in network order: the first of its bytes is the highest. -/
def networkWord (stored : UInt32) : UInt32 := UInt32.ofNat (Bytes.beNat (Bytes.ofWord32 stored))

/-- The rule in the registers of an index. -/
def ruleAt (r : RegisterFile) (index : Nat) : MatchRule where
  word := r .matchIndex index
  mask := networkWord (r .matchMask index)
  low := networkWord (r .matchStart index)
  high := networkWord (r .matchEnd index)

theorem networkWord_eq_iff {stored word : UInt32} :
    networkWord stored = word ↔ stored = Bytes.swap32 word := by
  have hswap : networkWord stored = Bytes.swap32 stored := rfl
  rw [hswap]
  constructor
  · rintro rfl
    exact (Bytes.swap32_swap32 stored).symm
  · rintro rfl
    exact Bytes.swap32_swap32 word

/-- The rule set in the registers of a slot, if they hold one: the mode may be no mode. -/
def setAt? (r : RegisterFile) (slot : Nat) : Option RuleSet :=
  (MatchMode.ofRegister? (r .matchMode slot)).map fun mode =>
    { mode
      first := r.ruleAt (slot * rulesPerSet)
      second := r.ruleAt (slot * rulesPerSet + 1)
      third := r.ruleAt (slot * rulesPerSet + 2)
      eom := r.ruleAt (slot * rulesPerSet + 3) }

/-- The rule sets of all slots. -/
def sets? (r : RegisterFile) : Option (List RuleSet) := (List.range numRuleSets).mapM r.setAt?

theorem holdsRule_iff {index : Nat} {rule : MatchRule} :
    r.HoldsRule index rule ↔ r.ruleAt index = rule := by
  constructor
  · intro h
    rw [ruleAt, h.word, networkWord_eq_iff.2 h.mask, networkWord_eq_iff.2 h.low,
      networkWord_eq_iff.2 h.high]
  · rintro rfl
    exact ⟨rfl, networkWord_eq_iff.1 rfl, networkWord_eq_iff.1 rfl, networkWord_eq_iff.1 rfl⟩

theorem setAt?_eq_some_iff {slot : Nat} {set : RuleSet} :
    r.setAt? slot = some set ↔ r.HoldsSet slot set := by
  rw [setAt?, Option.map_eq_some_iff]
  constructor
  · rintro ⟨mode, hmode, rfl⟩
    exact ⟨MatchMode.ofRegister?_eq_some_iff.1 hmode, holdsRule_iff.2 rfl, holdsRule_iff.2 rfl,
      holdsRule_iff.2 rfl, holdsRule_iff.2 rfl⟩
  · intro h
    refine ⟨set.mode, MatchMode.ofRegister?_eq_some_iff.2 h.mode, ?_⟩
    rw [holdsRule_iff.1 h.first, holdsRule_iff.1 h.second, holdsRule_iff.1 h.third,
      holdsRule_iff.1 h.eom]

end RegisterFile

/-- Beside the mode there are four registers for each rule. -/
theorem RegisterGroup.eq_of_rule {g : RegisterGroup} (hg : g ≠ .matchMode)
    (hc : g.isMatchConfig = true) :
    g = .matchIndex ∨ g = .matchMask ∨ g = .matchStart ∨ g = .matchEnd := by
  revert hg hc
  cases g <;> decide

namespace RegisterFile

variable {r q : RegisterFile}

/-- The registers of a slot are known from the rule set that they hold. -/
theorem HoldsSet.unique {slot i : Nat} {set : RuleSet} {g : RegisterGroup} (h : r.HoldsSet slot set)
    (h' : q.HoldsSet slot set) (hi : InSlot slot g i) : q g i = r g i := by
  rcases hi with ⟨rfl, rfl⟩ | ⟨hg, hc, hslot⟩
  · exact h'.mode.trans h.mode.symm
  · have same : ∀ {rule}, r.HoldsRule i rule → q.HoldsRule i rule → q g i = r g i := by
      intro rule hr hq
      rcases RegisterGroup.eq_of_rule hg hc with rfl | rfl | rfl | rfl
      · exact hq.word.trans hr.word.symm
      · exact hq.mask.trans hr.mask.symm
      · exact hq.low.trans hr.low.symm
      · exact hq.high.trans hr.high.symm
    have hcases : i = slot * rulesPerSet ∨ i = slot * rulesPerSet + 1 ∨
        i = slot * rulesPerSet + 2 ∨ i = slot * rulesPerSet + 3 := by
      simp only [rulesPerSet] at hslot ⊢
      omega
    rcases hcases with rfl | rfl | rfl | rfl
    · exact same h.first h'.first
    · exact same h.second h'.second
    · exact same h.third h'.third
    · exact same h.eom h'.eom

/-! ## An engine with rule sets in its slots -/

/-- The engine is enabled, and each slot holds its rule set. -/
structure Programmed (r : RegisterFile) (sets : Nat → RuleSet) : Prop where
  enabled : r .matchValid 0 = 1
  holds : ∀ slot < numRuleSets, r.HoldsSet slot (sets slot)

namespace Programmed

variable {sets : Nat → RuleSet}

theorem sets?_eq (h : r.Programmed sets) : r.sets? = some ((List.range numRuleSets).map sets) := by
  have hall : ∀ slots : List Nat, (∀ slot ∈ slots, slot < numRuleSets) →
      slots.mapM r.setAt? = some (slots.map sets) := by
    intro slots hslots
    induction slots with
    | nil => rfl
    | cons slot rest ih =>
      obtain ⟨hslot, hrest⟩ := List.forall_mem_cons.1 hslots
      simp [setAt?_eq_some_iff.2 (h.holds slot hslot), ih hrest]
  exact hall _ fun slot hm => List.mem_range.1 hm

theorem congr (h : r.Programmed sets) (hs : r.SameEngine q) : q.Programmed sets := by
  refine ⟨(hs .matchValid 0 (Or.inl rfl)).trans h.enabled, fun slot hslot => ?_⟩
  exact (h.holds slot hslot).congr fun g i hi => hs g i (Or.inr hi.isMatchConfig)

end Programmed

end RegisterFile

/-! ## What calls make of the slots -/

/-- The rule sets of slots, with some slots unloaded. -/
def closeSlots (sets : Nat → RuleSet) (unloaded : List Nat) (slot : Nat) : RuleSet :=
  if slot ∈ unloaded then .bypass else sets slot

theorem closeSlots_nil (sets : Nat → RuleSet) : closeSlots sets [] = sets := by
  funext slot
  simp [closeSlots]

theorem closeSlots_cons (sets : Nat → RuleSet) (ctx : Nat) (rest : List Nat) :
    closeSlots sets (ctx :: rest) = closeSlots (closeSlots sets [ctx]) rest := by
  funext slot
  by_cases hr : slot ∈ rest <;> by_cases hc : slot = ctx <;> simp [closeSlots, hr, hc]

/-- The slot that a call unloads. -/
def LoaderCall.unloaded? : LoaderCall → Option Nat
  | .unload ctx => some ctx
  | _ => none

namespace RegisterFile

variable {r : RegisterFile} {sets : Nat → RuleSet}

theorem programmed_ruleSetScript (r : RegisterFile) (given : List RuleSet) :
    ((ruleSetScript given).settle r).Programmed (ruleSetOf given) :=
  ⟨valid_whileDisabled r _, fun _ hslot => holdsSet_ruleSetScript r given hslot⟩

theorem Programmed.unloadScript (h : r.Programmed sets) (ctx : Nat) :
    ((PacketOffload.unloadScript ctx).settle r).Programmed (closeSlots sets [ctx]) := by
  refine ⟨valid_unloadScript r ctx, fun slot hslot => ?_⟩
  by_cases hc : slot = ctx
  · subst hc
    simpa [closeSlots] using holdsSet_unloadScript r slot
  · have hheld := (h.holds slot hslot).congr fun g i hi => settle_unloadScript_of_inSlot r hc hi
    simpa [closeSlots, hc] using hheld

/-- A programming writes the enable flag of the engine and the registers of its slots. -/
theorem mem_ruleSetScript {g : RegisterGroup} {i : Nat} {value : UInt32} {given : List RuleSet}
    (hm : Step.write g i value ∈ PacketOffload.ruleSetScript given) :
    (g = .matchValid ∧ i = 0) ∨ ∃ slot < numRuleSets, InSlot slot g i := by
  have hflag : ∀ {flag}, Step.write g i value = .write .matchValid 0 flag →
      g = .matchValid ∧ i = 0 := fun heq => ⟨(Step.write.inj heq).1, (Step.write.inj heq).2.1⟩
  rcases List.mem_cons.1 hm with heq | hm
  · exact Or.inl (hflag heq)
  · rcases List.mem_append.1 hm with hm | hm
    · obtain ⟨slot, hslot, hi⟩ := inSlot_of_mem_slotsScript hm
      exact Or.inr ⟨slot, List.mem_range.1 hslot, hi⟩
    · exact Or.inl (hflag (List.mem_singleton.1 hm))

/-- To give the slots what they hold already changes no register. -/
theorem Programmed.ruleSetScript (h : r.Programmed sets) {given : List RuleSet}
    (hsame : ∀ slot < numRuleSets, ruleSetOf given slot = sets slot) :
    (PacketOffload.ruleSetScript given).settle r = r := by
  have hafter := programmed_ruleSetScript r given
  funext g i
  by_cases hw : ∃ value, Step.write g i value ∈ PacketOffload.ruleSetScript given
  · obtain ⟨value, hm⟩ := hw
    rcases mem_ruleSetScript hm with ⟨rfl, rfl⟩ | ⟨slot, hslot, hi⟩
    · exact hafter.enabled.trans h.enabled.symm
    · have hheld := hafter.holds slot hslot
      rw [hsame slot hslot] at hheld
      exact (h.holds slot hslot).unique hheld hi
  · exact Script.settle_of_spared r fun value hm => hw ⟨value, hm⟩

/-- A call that is no programming closes the slot that it unloads, if any. -/
theorem Programmed.call (h : r.Programmed sets) {c : LoaderCall}
    (hp : ∀ given, c ≠ .program given) :
    (c.script.settle r).Programmed (closeSlots sets c.unloaded?.toList) := by
  cases c with
  | load image ctx host =>
    have hnone : (LoaderCall.load image ctx host).unloaded?.toList = [] := rfl
    rw [hnone, closeSlots_nil]
    exact h.congr ((sparesEngine_load image ctx host).settle r)
  | unload ctx =>
    by_cases hc : ctx < numContexts
    · rw [LoaderCall.script_unload hc]
      exact h.unloadScript ctx
    · -- There is no such slot, and the call does nothing.
      have hscript : (LoaderCall.unload ctx).script = [] := if_neg hc
      rw [hscript]
      refine ⟨h.enabled, fun slot hslot => ?_⟩
      have hne : slot ≠ ctx := by
        simp only [numRuleSets, numContexts] at hslot hc
        omega
      have hheld : closeSlots sets [ctx] slot = sets slot := by simp [closeSlots, hne]
      rw [LoaderCall.unloaded?, Option.toList_some, hheld]
      exact h.holds slot hslot
  | program given => exact absurd rfl (hp given)

end RegisterFile

/-! ## Runs of calls that go through -/

namespace Host

variable {σ : Type} [Transport σ] {h : Host σ}

/-- Calls that go through, one after the other. -/
def AllDone (h : Host σ) : List LoaderCall → Prop
  | [] => True
  | c :: rest => (∃ answer, (h.call c).1 = .ok answer) ∧ (h.call c).2.AllDone rest

theorem runCalls_cons (h : Host σ) (c : LoaderCall) (rest : List LoaderCall) :
    h.runCalls (c :: rest) = (h.call c).2.runCalls rest := rfl

theorem runCalls_append_cons (h : Host σ) (before : List LoaderCall) (c : LoaderCall)
    (after : List LoaderCall) :
    h.runCalls (before ++ c :: after) = ((h.runCalls before).call c).2.runCalls after := by
  induction before generalizing h with
  | nil => rfl
  | cons first rest ih => exact ih (h.call first).2

theorem AllDone.of_append {before : List LoaderCall} {c : LoaderCall} {after : List LoaderCall}
    (hd : h.AllDone (before ++ c :: after)) : (h.runCalls before).AllDone (c :: after) := by
  induction before generalizing h with
  | nil => exact hd
  | cons first rest ih => exact ih hd.2

/-- Of a call that goes through all steps go through. -/
theorem performed_of_answer {c : LoaderCall} {answer : Answer} (hc : (h.call c).1 = .ok answer) :
    (h.session.perform c.script).1 = .ok () := by
  cases c with
  | load image ctx host =>
    by_cases hctx : ctx < numContexts
    · rw [LoaderCall.script_load image hctx host, ← h.loader.load_eq_ok_iff _ image hctx host]
      cases hload : (h.loader.load h.session image ctx host).1 with
      | ok context => exact ⟨context, rfl⟩
      | error e =>
        simp only [call, hload] at hc
        cases hc
    · simp [LoaderCall.script, hctx, Session.perform]
  | unload ctx =>
    have hdone : (h.call (.unload ctx)).1 = .ok .done := by
      cases hunload : (h.loader.unload h.session ctx).1 with
      | ok => simp [call, hunload, Except.map]
      | error e =>
        simp only [call, hunload] at hc
        cases hc
    obtain ⟨hctx, hok⟩ := (unload_eq_done_iff h ctx).1 hdone
    rw [LoaderCall.script_unload hctx]
    exact hok
  | program sets =>
    by_cases hl : sets.length ≤ numRuleSets
    · rw [LoaderCall.script_program hl]
      simp only [call, Loader.programRuleSets, hl, if_true] at hc
      cases hp : (h.session.perform (ruleSetScript sets)).1 with
      | ok => rfl
      | error e =>
        rw [hp] at hc
        cases hc
    · simp [LoaderCall.script, hl, Session.perform]

theorem fits_of_answer {sets : List RuleSet} {answer : Answer}
    (hc : (h.call (.program sets)).1 = .ok answer) : sets.length ≤ numRuleSets := by
  by_contra hl
  simp only [call, Loader.programRuleSets, hl, if_false] at hc
  cases hc

variable [RegisterView σ]

/-- The registers after a call that went through. -/
theorem registers_call {c : LoaderCall} {answer : Answer} (hc : (h.call c).1 = .ok answer) :
    (h.call c).2.session.registers = c.script.settle h.session.registers := by
  rw [session_call, Session.registers_of_performed (performed_of_answer hc)]

/-- Calls without a programming close the slots that they unload. -/
theorem programmed_runCalls {sets : Nat → RuleSet} {calls : List LoaderCall}
    (hr : h.session.registers.Programmed sets) (hdone : h.AllDone calls)
    (hp : ∀ given, .program given ∉ calls) :
    (h.runCalls calls).session.registers.Programmed
      (closeSlots sets (calls.filterMap LoaderCall.unloaded?)) := by
  induction calls generalizing h sets with
  | nil =>
    rw [List.filterMap_nil, closeSlots_nil]
    exact hr
  | cons c rest ih =>
    obtain ⟨⟨answer, hc⟩, hrest⟩ := hdone
    have hfirst : ∀ given, c ≠ .program given := fun given heq => hp given (by simp [heq])
    have hcall := hr.call hfirst
    rw [← registers_call hc] at hcall
    have hafter := ih hcall hrest fun given hm => hp given (List.mem_cons_of_mem c hm)
    rw [runCalls_cons]
    cases hu : c.unloaded? with
    | none =>
      rw [hu, Option.toList_none, closeSlots_nil] at hafter
      rwa [List.filterMap_cons_none hu]
    | some ctx =>
      rw [hu, Option.toList_some] at hafter
      rwa [List.filterMap_cons_some hu, closeSlots_cons]

end Host

/-! ## Packets -/

/-- What the four slots hold after they were given rule sets and some were unloaded. -/
def heldSets (given : List RuleSet) (unloaded : List Nat) : List RuleSet :=
  (List.range numRuleSets).map (closeSlots (ruleSetOf given) unloaded)

section Packets

variable {given : List RuleSet} {unloaded : List Nat} {packet : Bytes} {slot : Nat} {eom : Bool}

theorem getElem?_heldSets_eq_some_iff {set : RuleSet} :
    (heldSets given unloaded)[slot]? = some set ↔
      slot < numRuleSets ∧ closeSlots (ruleSetOf given) unloaded slot = set := by
  by_cases hs : slot < numRuleSets <;> simp [heldSets, hs]

/-- A slot classifies by the rule set that it was given, unless it is unloaded. -/
theorem classify_closeSlots :
    (closeSlots (ruleSetOf given) unloaded slot).classify packet =
      if slot ∈ unloaded then none else given[slot]?.bind fun set => set.classify packet := by
  by_cases hu : slot ∈ unloaded
  · simp [closeSlots, hu, RuleSet.classify_bypass]
  · cases hg : given[slot]? with
    | none => simp [closeSlots, hu, ruleSetOf, hg, RuleSet.classify_bypass]
    | some set => simp [closeSlots, hu, ruleSetOf, hg]

/-- A packet goes to the first slot that is not unloaded and was given a rule set that takes it. -/
theorem classifyPacket_heldSets_eq_some_iff (hl : given.length ≤ numRuleSets) :
    classifyPacket (heldSets given unloaded) packet = some (slot, eom) ↔
      slot ∉ unloaded ∧ (∃ set, given[slot]? = some set ∧ set.classify packet = some eom) ∧
        ∀ other < slot, other ∉ unloaded →
          ∀ set, given[other]? = some set → set.classify packet = none := by
  have hbound : ∀ {i set}, given[i]? = some set → i < numRuleSets := by
    intro i set hi
    exact Nat.lt_of_lt_of_le (List.getElem?_eq_some_iff.1 hi).1 hl
  simp only [classifyPacket_eq_some_iff, getElem?_heldSets_eq_some_iff]
  constructor
  · rintro ⟨⟨set, ⟨hslot, rfl⟩, hc⟩, hbefore⟩
    rw [classify_closeSlots] at hc
    by_cases hu : slot ∈ unloaded
    · simp [hu] at hc
    · rw [if_neg hu, Option.bind_eq_some_iff] at hc
      refine ⟨hu, hc, fun other hlt hou set hset => ?_⟩
      have hother := hbefore other hlt _ ⟨Nat.lt_trans hlt hslot, rfl⟩
      rwa [classify_closeSlots, if_neg hou, hset] at hother
  · rintro ⟨hu, ⟨set, hset, hc⟩, hbefore⟩
    refine ⟨⟨_, ⟨hbound hset, rfl⟩, ?_⟩, ?_⟩
    · rwa [classify_closeSlots, if_neg hu, hset]
    · rintro other hlt _ ⟨-, rfl⟩
      rw [classify_closeSlots]
      by_cases hou : other ∈ unloaded
      · rw [if_pos hou]
      · rw [if_neg hou, Option.bind_eq_none_iff]
        exact hbefore other hlt hou

end Packets

/-- **What the slots hold.** On any device and after whatever came before: when calls of the loader
went through, the matching engine is enabled and its slots, read back from the registers, hold the
rule sets of the last programming, but for those unloaded since then. So a packet goes to the first
slot that is not unloaded and was given a rule set that takes it, and a programming with what is held
changes no register. -/
theorem slots_hold_last_programming {σ : Type} [Transport σ] [RegisterView σ] (h : Host σ)
    {before after : List LoaderCall} {sets : List RuleSet}
    (hdone : h.AllDone (before ++ .program sets :: after))
    (hlast : ∀ other, .program other ∉ after) :
    let unloaded := after.filterMap LoaderCall.unloaded?
    let host := h.runCalls (before ++ .program sets :: after)
    host.session.registers .matchValid 0 = 1 ∧
      host.session.registers.sets? = some (heldSets sets unloaded) ∧
      (∀ packet, host.session.registers.sets?.map (classifyPacket · packet) =
        some (classifyPacket (heldSets sets unloaded) packet)) ∧
      (∀ packet slot eom, classifyPacket (heldSets sets unloaded) packet = some (slot, eom) ↔
        slot ∉ unloaded ∧ (∃ set, sets[slot]? = some set ∧ set.classify packet = some eom) ∧
          ∀ other < slot, other ∉ unloaded →
            ∀ set, sets[other]? = some set → set.classify packet = none) ∧
      ∀ again answer, heldSets again [] = heldSets sets unloaded →
        (host.call (.program again)).1 = .ok answer →
          (host.call (.program again)).2.session.registers = host.session.registers := by
  intro unloaded host
  obtain ⟨⟨answer, hprogram⟩, hafter⟩ := hdone.of_append
  have hl := Host.fits_of_answer hprogram
  have hgiven : ((h.runCalls before).call (.program sets)).2.session.registers.Programmed
      (ruleSetOf sets) := by
    rw [Host.registers_call hprogram, LoaderCall.script_program hl]
    exact RegisterFile.programmed_ruleSetScript _ sets
  have hheld : host.session.registers.Programmed (closeSlots (ruleSetOf sets) unloaded) := by
    have := Host.programmed_runCalls hgiven hafter hlast
    rwa [← Host.runCalls_append_cons] at this
  have hsets : host.session.registers.sets? = some (heldSets sets unloaded) := hheld.sets?_eq
  refine ⟨hheld.enabled, hsets, fun packet => by rw [hsets]; rfl,
    fun packet slot eom => classifyPacket_heldSets_eq_some_iff hl, ?_⟩
  intro again answer hsame hagain
  rw [Host.registers_call hagain, LoaderCall.script_program (Host.fits_of_answer hagain)]
  refine hheld.ruleSetScript fun slot hslot => ?_
  have hget := congrArg (·[slot]?) hsame
  simpa [heldSets, hslot, closeSlots_nil] using hget

/-- Two programmings and two unloads, from a session with every gate shut. Of the second programming,
which gave two slots rule sets, the second slot is unloaded, so that nothing takes the empty packet
any more. -/
theorem slots_hold_last_programming_of_two :
    let h := Host.of (lockedSession Simulator.powerOn)
    let calls : List LoaderCall :=
      [.program [.slmp], .unload 0] ++ .program [.udp, .matchAll] :: [.unload 1]
    h.AllDone calls ∧ (∀ other, LoaderCall.program other ∉ [LoaderCall.unload 1]) ∧
      (h.runCalls calls).session.registers.sets? = some [.udp, .bypass, .bypass, .bypass] ∧
      (h.runCalls calls).session.registers.sets?.map (classifyPacket · []) = some none := by
  intro h calls
  have hdone : h.AllDone calls :=
    ⟨⟨.done, by decide +kernel⟩, ⟨.done, by decide +kernel⟩, ⟨.done, by decide +kernel⟩,
      ⟨.done, by decide +kernel⟩, trivial⟩
  have hlast : ∀ other, LoaderCall.program other ∉ [LoaderCall.unload 1] := by simp
  obtain ⟨-, hsets, hclassify, -⟩ := slots_hold_last_programming h hdone hlast
  exact ⟨hdone, hlast, hsets, (hclassify []).trans (by decide)⟩

end PacketOffload
