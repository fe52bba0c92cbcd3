import PacketOffload.Match.Rule

/-!
# Rule sets

A slot of the matching engine holds four rules. The first three, joined by "and" or by "or", decide
whether a packet goes to the accelerator; the fourth marks the last packet of a message. The slots
are tried in order, and the first one that takes a packet decides.

| here | operation |
| --- | --- |
| `bypass`, `matchAll`, `udp`, `slmp` | the presets of these names |
| `RuleSet.classify` | `classify` |
| `classifyPacket` | `classify_packet` |

Main statement: a packet is classified by the first slot that takes it
(`classifyPacket_eq_some_iff`).
-/

namespace PacketOffload

/-- How the first three rules are joined. -/
inductive MatchMode where
  | all
  | any
  deriving DecidableEq, Repr

/-- The mode as the device stores it. -/
def MatchMode.registerValue : MatchMode → UInt32
  | .all => 0
  | .any => 1

/-- The contents of one slot. -/
structure RuleSet where
  first : MatchRule
  second : MatchRule
  third : MatchRule
  /-- The rule that marks the end of a message. -/
  eom : MatchRule
  mode : MatchMode
  deriving DecidableEq, Repr

namespace RuleSet

/-- The rules that decide whether a packet is taken. -/
def selectors (s : RuleSet) : List MatchRule := [s.first, s.second, s.third]

/-- All four rules, in the order of the device. -/
def rules (s : RuleSet) : List MatchRule := s.selectors ++ [s.eom]

/-- Takes no packet: all traffic bypasses the accelerator. -/
def bypass : RuleSet := ⟨.never, .never, .never, .never, .all⟩

/-- Takes every packet, each one a whole message. -/
def matchAll : RuleSet := ⟨.always, .always, .always, .always, .all⟩

/-- Takes UDP over IPv4, and never ends a message. -/
def udp : RuleSet := ⟨.ipv4, .ipProtocol 17, .always, .never, .all⟩

/-- Takes SLMP, and ends messages as its header says. -/
def slmp : RuleSet := ⟨.ipv4, .ipProtocol 17, .udpPort Slmp.port, .slmpEom, .all⟩

def selects (s : RuleSet) (packet : Bytes) : Bool :=
  match s.mode with
  | .all => s.selectors.all (·.matchesPacket packet)
  | .any => s.selectors.any (·.matchesPacket packet)

/-- What the slot makes of a packet: `none` if it does not take it, else whether the packet ends a
message. -/
def classify (s : RuleSet) (packet : Bytes) : Option Bool :=
  if s.selects packet then some (s.eom.matchesPacket packet) else none

theorem classify_bypass (packet : Bytes) : bypass.classify packet = none := by
  simp [classify, selects, bypass, selectors, MatchRule.matchesPacket]

end RuleSet

/-- The first slot, counted from `slot` on, that takes a packet, and whether the packet ends a
message there. -/
def classifyFrom (slot : Nat) : List RuleSet → Bytes → Option (Nat × Bool)
  | [], _ => none
  | s :: rest, packet =>
    match s.classify packet with
    | some eom => some (slot, eom)
    | none => classifyFrom (slot + 1) rest packet

/-- The first slot that takes a packet, and whether the packet ends a message there. -/
def classifyPacket (slots : List RuleSet) (packet : Bytes) : Option (Nat × Bool) :=
  classifyFrom 0 slots packet

theorem classifyFrom_eq_some_iff {slots : List RuleSet} {packet : Bytes} {start slot : Nat}
    {eom : Bool} :
    classifyFrom start slots packet = some (slot, eom) ↔
      ∃ i, slot = start + i ∧ (∃ set, slots[i]? = some set ∧ set.classify packet = some eom) ∧
        ∀ j < i, ∀ set, slots[j]? = some set → set.classify packet = none := by
  induction slots generalizing start with
  | nil => simp [classifyFrom]
  | cons head rest ih =>
    rw [classifyFrom]
    cases hc : head.classify packet with
    | some e =>
      constructor
      · intro h
        obtain ⟨rfl, rfl⟩ := Prod.mk.inj (Option.some.inj h)
        exact ⟨0, rfl, ⟨head, rfl, hc⟩, nofun⟩
      · rintro ⟨i, rfl, ⟨set, hset, hs⟩, hbefore⟩
        cases i with
        | zero =>
          obtain rfl := Option.some.inj hset
          rw [hc] at hs
          simp [Option.some.inj hs]
        | succ i =>
          have := hbefore 0 (Nat.succ_pos i) head rfl
          rw [hc] at this
          cases this
    | none =>
      rw [ih]
      constructor
      · rintro ⟨i, rfl, hset, hbefore⟩
        refine ⟨i + 1, by omega, hset, fun j hj set hs => ?_⟩
        cases j with
        | zero =>
          obtain rfl := Option.some.inj hs
          exact hc
        | succ j => exact hbefore j (Nat.lt_of_succ_lt_succ hj) set hs
      · rintro ⟨i, rfl, ⟨set, hset, hs⟩, hbefore⟩
        cases i with
        | zero =>
          obtain rfl := Option.some.inj hset
          rw [hc] at hs
          cases hs
        | succ i =>
          exact ⟨i, by omega, ⟨set, hset, hs⟩, fun j hj => hbefore (j + 1) (Nat.succ_lt_succ hj)⟩

theorem classifyPacket_eq_some_iff {slots : List RuleSet} {packet : Bytes} {slot : Nat}
    {eom : Bool} :
    classifyPacket slots packet = some (slot, eom) ↔
      (∃ set, slots[slot]? = some set ∧ set.classify packet = some eom) ∧
        ∀ other < slot, ∀ set, slots[other]? = some set → set.classify packet = none := by
  simp [classifyPacket, classifyFrom_eq_some_iff]

end PacketOffload
