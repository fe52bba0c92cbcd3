import PacketOffload.Match.RuleSet

/-!
# What classification reads of a packet

A packet goes on with zeros for as long as there are words to read, also in the middle of a word. A
rule reads one word of it, and a rule set the words of its four rules; whatever else is in the
packet, and where it ends, makes no difference. Nothing less than these words would do: packets that
differ in one are told apart by a rule for it.

Main statements: the words that are read are those of the packet with zeros after it
(`packetWord_eq_beNat`, `word_zeroExtend`), packets that agree on the words of rule sets are
classified alike, and packets with zeros after them like those without (`classified_by_words`), and
packets agree on a word exactly if no rule set for it tells them apart (`agreeOn_iff`).
-/

namespace PacketOffload

/-! ## Packets with zeros after them -/

namespace Bytes

variable {bytes : Bytes} {length index : Nat}

/-- A byte string with zeros after it, if it is shorter than `length`. -/
def zeroExtend (bytes : Bytes) (length : Nat) : Bytes :=
  bytes ++ List.replicate (length - bytes.length) 0

/-- What is there of the four bytes of a word. -/
def wordBytes (bytes : Bytes) (index : Nat) : Bytes := (bytes.drop (4 * index)).take 4

/-- The big-endian 32-bit word at an index, of a byte string that reaches that far. -/
def word (bytes : Bytes) (index : Nat) : Nat := beNat (bytes.wordBytes index)

theorem length_zeroExtend (bytes : Bytes) (length : Nat) :
    (bytes.zeroExtend length).length = max length bytes.length := by
  simp [zeroExtend]
  omega

theorem zeroExtend_of_le (h : length ≤ bytes.length) : bytes.zeroExtend length = bytes := by
  simp [zeroExtend, h]

/-- Zeros after a byte string show no byte that is not read anyway. -/
theorem getElem?_zeroExtend (bytes : Bytes) (length i : Nat) :
    (bytes.zeroExtend length)[i]? =
      if i < max length bytes.length then some (packetByte bytes i) else none := by
  rw [zeroExtend, List.getElem?_append]
  by_cases hi : i < bytes.length
  · have hmax : i < max length bytes.length := by omega
    simp [hi, hmax, packetByte]
  · have hfill : i - bytes.length < length - bytes.length ↔ i < max length bytes.length := by omega
    simp only [hi, if_false, List.getElem?_replicate, hfill]
    simp [packetByte, List.getElem?_eq_none (Nat.le_of_not_lt hi)]

theorem packetByte_wordBytes (packet : Bytes) (index : Nat) {k : Nat} (hk : k < 4) :
    packetByte (packet.wordBytes index) k = packetByte packet (4 * index + k) := by
  simp [packetByte, wordBytes, List.getD_eq_getElem?_getD, hk]

/-- Filled up with zeros, they are the bytes of the packet there, which are zero past its end. -/
theorem zeroExtend_wordBytes (packet : Bytes) (index : Nat) :
    (packet.wordBytes index).zeroExtend 4 =
      (List.range 4).map fun k => packetByte packet (4 * index + k) := by
  have hmax : max 4 (packet.wordBytes index).length = 4 :=
    Nat.max_eq_left (List.length_take_le 4 _)
  ext1 k
  rw [getElem?_zeroExtend, hmax, List.getElem?_map]
  by_cases hk : k < 4
  · simp [hk, packetByte_wordBytes]
  · simp [hk]

end Bytes

/-- A word of a packet is read from what is there of it, filled up with zeros. -/
theorem packetWord_eq_beNat (packet : Bytes) (index : Nat) :
    (packetWord packet index).toNat = Bytes.beNat ((packet.wordBytes index).zeroExtend 4) := by
  have hlength : ((packet.wordBytes index).zeroExtend 4).reverse.length = 4 := by
    rw [List.length_reverse, Bytes.length_zeroExtend]
    exact Nat.max_eq_left (List.length_take_le 4 _)
  have hlt := Bytes.leNat_lt ((packet.wordBytes index).zeroExtend 4).reverse
  rw [hlength, Bytes.span_four] at hlt
  rw [packetWord, ← Bytes.zeroExtend_wordBytes, UInt32.toNat_ofNat']
  exact Nat.mod_eq_of_lt hlt

/-- What is read as a word of a packet is that word once the packet is extended with zeros. -/
theorem word_zeroExtend (packet : Bytes) {length index : Nat} (h : 4 * index + 4 ≤ length) :
    (packet.zeroExtend length).word index = (packetWord packet index).toNat := by
  have hlength := packet.length_zeroExtend length
  have hfull : 4 ≤ ((packet.zeroExtend length).wordBytes index).length := by
    rw [Bytes.wordBytes, List.length_take, List.length_drop]
    omega
  calc (packet.zeroExtend length).word index
      = (packetWord (packet.zeroExtend length) index).toNat := by
        rw [packetWord_eq_beNat, Bytes.zeroExtend_of_le hfull, Bytes.word]
    _ = (packetWord packet index).toNat := by rw [Bytes.zeroExtend, packetWord_append_zeros]

/-- Two packets have the same word at an index, extended with zeros until they have one there. -/
def AgreeOn (p q : Bytes) (index : Nat) : Prop :=
  (p.zeroExtend (4 * index + 4)).word index = (q.zeroExtend (4 * index + 4)).word index

instance (p q : Bytes) (index : Nat) : Decidable (AgreeOn p q index) :=
  inferInstanceAs (Decidable (_ = _))

variable {p q : Bytes}

theorem agreeOn_iff_packetWord {index : Nat} :
    AgreeOn p q index ↔ packetWord p index = packetWord q index := by
  rw [AgreeOn, word_zeroExtend p (Nat.le_refl _), word_zeroExtend q (Nat.le_refl _),
    UInt32.toNat_inj]

/-- Zeros after a packet change none of its words. -/
theorem agreeOn_append_zeros (packet : Bytes) (n index : Nat) :
    AgreeOn (packet ++ List.replicate n 0) packet index :=
  agreeOn_iff_packetWord.2 (packetWord_append_zeros packet n index)

/-! ## Rule sets -/

namespace RuleSet

variable {set : RuleSet}

theorem selects_congr (h : ∀ rule ∈ set.selectors, AgreeOn p q rule.word.toNat) :
    set.selects p = set.selects q := by
  have hresults : set.selectors.map (·.matchesPacket p) = set.selectors.map (·.matchesPacket q) :=
    List.map_congr_left fun rule hmem =>
      MatchRule.matchesPacket_congr (agreeOn_iff_packetWord.1 (h rule hmem))
  unfold selects
  cases set.mode with
  | all => simpa [List.all_map] using congrArg (List.all · id) hresults
  | any => simpa [List.any_map] using congrArg (List.any · id) hresults

/-- A rule set reads no more of a packet than the words of its rules. -/
theorem classify_congr (h : ∀ rule ∈ set.rules, AgreeOn p q rule.word.toNat) :
    set.classify p = set.classify q := by
  have hselects : set.selects p = set.selects q :=
    selects_congr fun rule hmem => h rule (List.mem_append_left _ hmem)
  have heom : set.eom.matchesPacket p = set.eom.matchesPacket q :=
    MatchRule.matchesPacket_congr
      (agreeOn_iff_packetWord.1 (h set.eom (List.mem_append_right _ List.mem_cons_self)))
  rw [classify, classify, hselects, heom]

end RuleSet

/-- Packets that no rule set tells apart come to the same slot. -/
theorem classifyFrom_congr {sets : List RuleSet} (start : Nat)
    (h : ∀ set ∈ sets, set.classify p = set.classify q) :
    classifyFrom start sets p = classifyFrom start sets q := by
  induction sets generalizing start with
  | nil => rfl
  | cons set rest ih =>
    rw [classifyFrom, classifyFrom, h set List.mem_cons_self,
      ih (start + 1) fun other hmem => h other (List.mem_cons_of_mem set hmem)]

/-! ## What tells packets apart -/

/-- Takes the packets with one value in a word. -/
def RuleSet.exactly (index value : UInt32) : RuleSet :=
  let rule := MatchRule.equals index 0xffffffff value
  ⟨rule, rule, rule, rule, .all⟩

theorem RuleSet.classify_exactly (index value : UInt32) (packet : Bytes) :
    (exactly index value).classify packet =
      if packetWord packet index.toNat = value then some true else none := by
  have hrule : (MatchRule.equals index 0xffffffff value).matchesPacket packet =
      decide (packetWord packet index.toNat = value) := by
    have hmask : packetWord packet index.toNat &&& 0xffffffff = packetWord packet index.toNat :=
      UInt32.and_neg_one
    have hword : (MatchRule.equals index 0xffffffff value).word = index := rfl
    rw [Bool.eq_iff_iff, decide_eq_true_iff, MatchRule.matchesPacket, hword,
      MatchRule.matchesWord_equals, hmask]
  simp only [classify, selects, selectors, exactly, List.all_cons, List.all_nil, hrule]
  split <;> simp_all

/-- Packets agree on a word exactly if they are classified alike by all rule sets for that word. -/
theorem agreeOn_iff {index : UInt32} :
    AgreeOn p q index.toNat ↔
      ∀ set : RuleSet, (∀ rule ∈ set.rules, rule.word = index) →
        set.classify p = set.classify q := by
  constructor
  · intro h set hset
    exact RuleSet.classify_congr fun rule hmem => hset rule hmem ▸ h
  · intro h
    have hwords : ∀ rule ∈ (RuleSet.exactly index (packetWord p index.toNat)).rules,
        rule.word = index := by
      simp [RuleSet.exactly, RuleSet.rules, RuleSet.selectors, MatchRule.equals]
    have halike := h _ hwords
    rw [RuleSet.classify_exactly, RuleSet.classify_exactly, if_pos rfl] at halike
    by_cases heq : packetWord q index.toNat = packetWord p index.toNat
    · exact agreeOn_iff_packetWord.2 heq.symm
    · simp [heq] at halike

/-! ## Classification -/

/-- **What classification depends on.** Zeros after a packet make no difference to a rule set or to
the slots, and neither does anything else but the words that the rules name: packets that agree on
these, extended with zeros, are taken by the same first slot and end a message there or not alike.
Of a word that a rule names, though, no bit is left out: packets that are classified alike by all
rule sets for it agree on it. -/
theorem classified_by_words (sets : List RuleSet) (p : Bytes) :
    (∀ n, (∀ set : RuleSet, set.classify (p ++ List.replicate n 0) = set.classify p) ∧
        classifyPacket sets (p ++ List.replicate n 0) = classifyPacket sets p) ∧
      (∀ q, (∀ set ∈ sets, ∀ rule ∈ set.rules, AgreeOn p q rule.word.toNat) →
        (∀ set ∈ sets, set.classify p = set.classify q) ∧
          classifyPacket sets p = classifyPacket sets q) ∧
      ∀ (q : Bytes) (index : UInt32),
        (∀ set : RuleSet, (∀ rule ∈ set.rules, rule.word = index) →
          set.classify p = set.classify q) → AgreeOn p q index.toNat := by
  refine ⟨?zeros, ?alike, fun q index => agreeOn_iff.2⟩
  case zeros =>
    intro n
    have hset : ∀ set : RuleSet, set.classify (p ++ List.replicate n 0) = set.classify p :=
      fun set => RuleSet.classify_congr fun rule _ => agreeOn_append_zeros p n rule.word.toNat
    exact ⟨hset, classifyFrom_congr 0 fun set _ => hset set⟩
  case alike =>
    intro q h
    have hset : ∀ set ∈ sets, set.classify p = set.classify q :=
      fun set hmem => RuleSet.classify_congr (h set hmem)
    exact ⟨hset, classifyFrom_congr 0 hset⟩

/-- A frame with SLMP whose last word is cut short, and one that differs in the words that are not
read. -/
theorem classified_by_words_cut_short :
    let headers : Bytes := [8, 0] ++ List.replicate 9 69 ++ [17] ++ List.replicate 12 10 ++
      Bytes.beBytes 2 Slmp.port.toNat ++ [0, 20, 0, 0]
    let p : Bytes := List.replicate 12 1 ++ headers ++ [0x80]
    let q : Bytes := List.replicate 12 2 ++ headers ++ [0x80, 0, 7, 7, 7]
    let sets : List RuleSet := [⟨.udpPort 80, .ipv4, .ipv4, .slmpEom, .all⟩, .slmp]
    p.length = 43 ∧ (∀ set ∈ sets, ∀ rule ∈ set.rules, AgreeOn p q rule.word.toNat) ∧
      classifyPacket sets p = some (1, true) ∧ classifyPacket sets q = some (1, true) := by
  intro headers p q sets
  have hagree : ∀ set ∈ sets, ∀ rule ∈ set.rules, AgreeOn p q rule.word.toNat := by decide
  have hp : classifyPacket sets p = some (1, true) := by decide
  exact ⟨rfl, hagree, hp, ((classified_by_words sets p).2.1 q hagree).2 ▸ hp⟩

end PacketOffload
