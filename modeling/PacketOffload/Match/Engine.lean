import PacketOffload.Match.RuleSet
import PacketOffload.Script

/-!
# Programming the matching engine

The engine has a mode for each slot and four registers for each rule. They are locked while the
engine is enabled, so that a script for slots begins by disabling it and ends by enabling it; in
between no packet is matched.

| here | operation |
| --- | --- |
| `slotScript`, `ruleScript` | `write_ruleset` |
| `ruleSetScript` | `program_rulesets`, after its check of the number of sets |
-/

namespace PacketOffload

/-- Writes one rule. The engine compares words in network order. -/
def ruleScript (index : Nat) (rule : MatchRule) : Script :=
  [.write .matchIndex index rule.word, .write .matchMask index (Bytes.swap32 rule.mask),
    .write .matchStart index (Bytes.swap32 rule.low),
    .write .matchEnd index (Bytes.swap32 rule.high)]

def slotScript (slot : Nat) (rules : RuleSet) : Script :=
  .write .matchMode slot rules.mode.registerValue ::
    (ruleScript (slot * rulesPerSet) rules.first ++
      ruleScript (slot * rulesPerSet + 1) rules.second ++
      ruleScript (slot * rulesPerSet + 2) rules.third ++
      ruleScript (slot * rulesPerSet + 3) rules.eom)

/-- Does something to the slots with the engine disabled. -/
def whileDisabled (slots : Script) : Script :=
  .write .matchValid 0 0 :: (slots ++ [.write .matchValid 0 1])

/-- The rule set for a slot: what is left over bypasses the accelerator. -/
def ruleSetOf (sets : List RuleSet) (slot : Nat) : RuleSet := sets.getD slot .bypass

def ruleSetScript (sets : List RuleSet) : Script :=
  whileDisabled ((List.range numRuleSets).flatMap fun slot => slotScript slot (ruleSetOf sets slot))

end PacketOffload
