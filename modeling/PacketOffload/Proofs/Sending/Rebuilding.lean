import Mathlib.Order.Bounds.Defs
import PacketOffload.Memory
import PacketOffload.Proofs.Sending.Shares
import PacketOffload.Slmp.Channel

/-!
# Messages put together again

A receiver needs nothing but the datagrams: it copies the data of each one to the offset that its
header names. Since the fragments of a plan lie side by side, from the first byte of the message to
the last, it does not matter in which order they arrive, nor whether some arrive twice.

Main statements: which fragment a byte is in (`covers_planned_iff`), and that a message of any
length is cut into datagrams that put it together again (`message_rebuilt`).
-/

namespace PacketOffload.Slmp

/-! ## The receiving end -/

/-- The buffer of a receiver after one more datagram; one without a header is passed over. -/
def place (buffer : Memory UInt8) (datagram : Bytes) : Memory UInt8 :=
  match Header.decode datagram with
  | .ok header => buffer.setRange header.offset.toNat (datagram.drop slmpHeaderLength)
  | .error _ => buffer

/-- The buffer of a receiver after datagrams arrived, in this order. -/
def rebuild (buffer : Memory UInt8) (datagrams : List Bytes) : Memory UInt8 :=
  datagrams.foldl place buffer

/-- A byte of the message is in the fragment. -/
def Fragment.Covers (f : Fragment) (i : Nat) : Prop :=
  f.offset.toNat ≤ i ∧ i < f.offset.toNat + f.length

instance (f : Fragment) (i : Nat) : Decidable (f.Covers i) :=
  inferInstanceAs (Decidable (f.offset.toNat ≤ i ∧ i < f.offset.toNat + f.length))

/-- A message of some length cut into fragments, none of which is larger than `size`. -/
structure CutInto (length size : Nat) (alwaysAck : Bool) (fragments : List Fragment) : Prop where
  /-- The 32 bits of an offset are enough. -/
  offset : ∀ (i : Nat) f, fragments[i]? = some f → f.offset.toNat = i * size
  increasing : (fragments.map Fragment.offset).Pairwise (· < ·)
  /-- All fragments but the last are as large as they can be. -/
  full : ∀ (i : Nat) f, fragments[i]? = some f → i + 1 < fragments.length → f.length = size
  last : ∃ f, fragments.getLast? = some f ∧ 1 ≤ f.length ∧ f.length ≤ size
  /-- Every byte is in one fragment, and there are no others. -/
  covered : ∀ i < length, ∃! k : Nat, ∃ f, fragments[k]? = some f ∧ f.Covers i
  inside : ∀ f ∈ fragments, ∀ i, f.Covers i → i < length
  eom : ∀ (i : Nat) f, fragments[i]? = some f →
    (f.flags.contains .eom = true ↔ i + 1 = fragments.length)
  syn : ∀ (i : Nat) f, fragments[i]? = some f →
    (f.flags.contains .syn = true ↔ i = 0 ∨ i + 1 = fragments.length ∨ alwaysAck = true)

/-- The datagrams of these fragments tell a receiver all of a message. -/
structure Sender.Legible (s : Sender) (fragments : List Fragment) : Prop where
  decode : ∀ f ∈ fragments, Header.decode (s.datagram f) = .ok ⟨f.flags, s.msgId, f.offset⟩
  encode : ∀ f ∈ fragments, ∀ h, Header.decode (s.datagram f) = .ok h →
    h.encode = (s.datagram f).take slmpHeaderLength
  /-- Whatever was in the buffer before, and in whatever order the datagrams arrive. -/
  rebuilt : ∀ (buffer : Memory UInt8) (arrived : List Fragment),
    (∀ f, f ∈ arrived ↔ f ∈ fragments) →
      (rebuild buffer (arrived.map s.datagram)).getRange 0 s.payload.length = s.payload.bytes

/-! ## Datagrams -/

variable {s : Sender} {f : Fragment}

theorem decode_datagram (s : Sender) (f : Fragment) :
    Header.decode (s.datagram f) = .ok ⟨f.flags, s.msgId, f.offset⟩ :=
  Header.decode_encode_append (f.header s.msgId) _

theorem drop_datagram (s : Sender) (f : Fragment) :
    (s.datagram f).drop slmpHeaderLength = s.payload.cut f.offset.toNat f.length :=
  List.drop_left' (f.header s.msgId).length_encode

theorem exists_decode {datagram : Bytes} (h : slmpHeaderLength ≤ datagram.length) :
    ∃ header, Header.decode datagram = .ok header := by
  rw [Header.decode, if_neg (Nat.not_lt.2 h)]
  exact ⟨_, rfl⟩

theorem Payload.getElem?_cut (p : Payload) (start count i : Nat) :
    (p.cut start count)[i]? = if i < count then some (p.byte (start + i)) else none := by
  simp only [cut, List.getElem?_map]
  by_cases hi : i < count
  · simp [hi]
  · simp [hi]

theorem get_place (buffer : Memory UInt8) (s : Sender) (f : Fragment) (i : Nat) :
    (place buffer (s.datagram f)).get i =
      if f.Covers i then s.payload.byte i else buffer.get i := by
  simp only [place, decode_datagram, drop_datagram, Memory.get_setRange, Payload.getElem?_cut,
    Fragment.Covers]
  by_cases hlo : f.offset.toNat ≤ i
  · have hback : f.offset.toNat + (i - f.offset.toNat) = i := by omega
    by_cases hhi : i < f.offset.toNat + f.length
    · have hin : i - f.offset.toNat < f.length := by omega
      simp only [hlo, hhi, hin, hback, and_self, if_true, Option.getD_some]
    · have hout : ¬ i - f.offset.toNat < f.length := by omega
      simp only [hlo, hhi, hout, and_false, if_true, if_false, Option.getD_none]
  · simp only [hlo, false_and, if_false]

/-- A receiver has the bytes of the fragments that arrived, and its own old ones elsewhere. -/
theorem get_rebuild (buffer : Memory UInt8) (s : Sender) (arrived : List Fragment) (i : Nat) :
    (rebuild buffer (arrived.map s.datagram)).get i =
      if ∃ f ∈ arrived, f.Covers i then s.payload.byte i else buffer.get i := by
  induction arrived generalizing buffer with
  | nil => simp [rebuild]
  | cons f rest ih =>
    rw [List.map_cons, rebuild, List.foldl_cons, ← rebuild, ih, get_place]
    by_cases hrest : ∃ f ∈ rest, f.Covers i
    · have hany : ∃ g ∈ f :: rest, g.Covers i := by
        obtain ⟨g, hg, hc⟩ := hrest
        exact ⟨g, List.mem_cons_of_mem f hg, hc⟩
      rw [if_pos hrest, if_pos hany]
    · rw [if_neg hrest]
      refine if_congr ?_ rfl rfl
      simp only [List.mem_cons, exists_eq_or_imp, hrest, or_false]

/-! ## Plans -/

variable {length size : Nat} {alwaysAck : Bool}

theorem lt_fragmentCount_iff (hs : 0 < size) {k : Nat} :
    k < fragmentCount length size ↔ k * size < length := by
  refine ⟨mul_lt_of_lt_fragmentCount, fun h => ?_⟩
  rw [fragmentCount, Nat.lt_iff_add_one_le, Nat.le_div_iff_mul_le hs, Nat.succ_mul]
  omega

/-- The fragment of a byte is told by its position. -/
theorem covers_planned_iff (hl : length < UInt32.size) (hs : 0 < size) {k : Nat}
    (hk : k < fragmentCount length size) (i : Nat) :
    (planned length size alwaysAck k).Covers i ↔ i < length ∧ i / size = k := by
  have hlt := mul_lt_of_lt_fragmentCount hk
  rw [Fragment.Covers, offset_planned hl hk, Nat.div_eq_iff hs]
  simp only [planned]
  omega

theorem cutInto_plan (h : 0 < length) (hl : length < UInt32.size) (hs : 0 < size)
    (alwaysAck : Bool) : CutInto length size alwaysAck (plan length size alwaysAck) := by
  have hcount : (plan length size alwaysAck).length = fragmentCount length size :=
    length_plan (Nat.ne_of_gt hs) alwaysAck
  constructor
  case offset =>
    intro i f hf
    obtain ⟨hi, rfl⟩ := getElem?_plan_eq_some_iff.1 hf
    exact offset_planned hl hi
  case increasing =>
    rw [List.pairwise_iff_getElem]
    intro i j hi hj hij
    rw [List.length_map, hcount] at hi hj
    simp only [plan, Nat.ne_of_gt hs, if_false, List.getElem_map, List.getElem_range]
    rw [UInt32.lt_iff_toNat_lt, offset_planned hl hi, offset_planned hl hj]
    exact Nat.mul_lt_mul_of_pos_right hij hs
  case full =>
    intro i f hf hi
    obtain ⟨-, rfl⟩ := getElem?_plan_eq_some_iff.1 hf
    rw [hcount, lt_fragmentCount_iff hs, Nat.succ_mul] at hi
    simp only [planned]
    omega
  case last =>
    have hone : 0 < fragmentCount length size := (lt_fragmentCount_iff hs).2 (by omega)
    have hlast : fragmentCount length size - 1 < fragmentCount length size := by omega
    refine ⟨planned length size alwaysAck (fragmentCount length size - 1), ?_, ?_⟩
    · rw [List.getLast?_eq_getElem?, hcount, getElem?_plan_eq_some_iff]
      exact ⟨hlast, rfl⟩
    · have hbefore := (lt_fragmentCount_iff hs).1 hlast
      simp only [planned]
      omega
  case covered =>
    intro i hi
    have hin : i / size < fragmentCount length size :=
      (lt_fragmentCount_iff hs).2 (Nat.lt_of_le_of_lt (Nat.div_mul_le_self i size) hi)
    refine ⟨i / size, ⟨_, getElem?_plan_eq_some_iff.2 ⟨hin, rfl⟩, ?_⟩, ?_⟩
    · exact (covers_planned_iff hl hs hin i).2 ⟨hi, rfl⟩
    · rintro k ⟨f, hf, hc⟩
      obtain ⟨hk, rfl⟩ := getElem?_plan_eq_some_iff.1 hf
      exact ((covers_planned_iff hl hs hk i).1 hc).2.symm
  case inside =>
    intro f hf i hc
    obtain ⟨k, hf⟩ := List.mem_iff_getElem?.1 hf
    obtain ⟨hk, rfl⟩ := getElem?_plan_eq_some_iff.1 hf
    exact ((covers_planned_iff hl hs hk i).1 hc).1
  case eom => exact fun i f hf => contains_eom_iff_of_plan hf
  case syn => exact fun i f hf => contains_syn_iff_of_plan hf

/-- Fragments that cover a message let a receiver rebuild it. -/
theorem CutInto.legible {fragments : List Fragment}
    (h : CutInto s.payload.length size alwaysAck fragments) : s.Legible fragments where
  decode f _ := decode_datagram s f
  encode _ _ _ hd := Header.encode_of_decode hd
  rebuilt buffer arrived hsame := by
    refine List.map_congr_left fun i hi => ?_
    obtain ⟨k, ⟨f, hf, hc⟩, -⟩ := h.covered i (List.mem_range.1 hi)
    have harrived : f ∈ arrived := (hsame f).2 (List.mem_of_getElem? hf)
    rw [Nat.zero_add, get_rebuild, if_pos ⟨f, harrived, hc⟩]

/-- A fragment is the largest multiple of the alignment that fits a datagram. -/
theorem isGreatest_fragmentSize {c : Config} {size : Nat} (h : c.fragmentSize = .ok size) :
    IsGreatest {m | c.alignment ∣ m ∧ m ≤ maxFragment} size := by
  obtain ⟨⟨hpos, -⟩, rfl⟩ := Config.fragmentSize_eq_ok_iff.1 h
  refine ⟨⟨Nat.dvd_mul_left c.alignment _, Nat.div_mul_le_self maxFragment c.alignment⟩, ?_⟩
  rintro m ⟨⟨k, rfl⟩, hm⟩
  rw [Nat.mul_comm c.alignment k] at hm ⊢
  exact Nat.mul_le_mul_right c.alignment ((Nat.le_div_iff_mul_le hpos).2 hm)

/-! ## Messages -/

/-- **A message is put together again.** With every alignment that leaves room for data, a message
that is not empty is cut into fragments side by side, marked at its ends, and a receiver rebuilds it
from their datagrams, in whatever order they arrive. No bit of a header is lost on the way, whatever
it means. -/
theorem message_rebuilt (c : Config) (s : Sender)
    (ha : 1 ≤ c.alignment ∧ c.alignment ≤ maxFragment)
    (hl : 1 ≤ s.payload.length ∧ s.payload.length ≤ Channel.maxMessage) :
    (∃ size, c.fragmentSize = .ok size ∧
      IsGreatest {m | c.alignment ∣ m ∧ m ≤ maxFragment} size ∧
      CutInto s.payload.length size c.alwaysAck (plan s.payload.length size c.alwaysAck) ∧
      s.Legible (plan s.payload.length size c.alwaysAck)) ∧
    ∀ datagram : Bytes, slmpHeaderLength ≤ datagram.length →
      ∃ h, Header.decode datagram = .ok h ∧ h.encode = datagram.take slmpHeaderLength := by
  obtain ⟨hpos, hmax⟩ := hl
  refine ⟨?_, fun datagram hlen => ?_⟩
  · have hsize : c.fragmentSize = .ok (maxFragment / c.alignment * c.alignment) :=
      Config.fragmentSize_eq_ok_iff.2 ⟨ha, rfl⟩
    have hroom : 0 < maxFragment / c.alignment * c.alignment :=
      Nat.mul_pos (Nat.div_pos ha.2 ha.1) ha.1
    have hcut := cutInto_plan hpos (Nat.lt_of_le_pred (by decide) hmax) hroom c.alwaysAck
    exact ⟨_, hsize, isGreatest_fragmentSize hsize, hcut, hcut.legible⟩
  · obtain ⟨h, hd⟩ := exists_decode hlen
    exact ⟨h, hd, Header.encode_of_decode hd⟩

/-- Three fragments of 1400 bytes and less arrive last first, and the second one twice. -/
theorem message_rebuilt_backwards :
    let c : Config := { Config.standard with alignment := 200, alwaysAck := true }
    let s : Sender := ⟨.answering fun _ => [], ⟨.v4 0x7f000001, 4000⟩, ⟨.v4 0x7f000001, port⟩, 7,
      ⟨3000, fun i => UInt8.ofNat (i * i)⟩⟩
    let fragments := plan 3000 1400 true
    c.fragmentSize = .ok 1400 ∧ CutInto 3000 1400 true fragments ∧
      fragments.map (fun f => (f.offset, f.length)) = [(0, 1400), (1400, 1400), (2800, 200)] ∧
      ∃ first second third, fragments = [first, second, third] ∧
        (rebuild .empty ([third, second, first, second].map s.datagram)).getRange 0 3000 =
          s.payload.bytes := by
  intro c s fragments
  obtain ⟨⟨size, hsize, -, hcut, hlegible⟩, -⟩ :=
    message_rebuilt c s (by decide) (by decide)
  have hfits : c.fragmentSize = .ok 1400 := by decide
  obtain rfl : 1400 = size := Except.ok.inj (hfits.symm.trans hsize)
  have hplan : fragments = [planned 3000 1400 true 0, planned 3000 1400 true 1,
    planned 3000 1400 true 2] := rfl
  refine ⟨hsize, hcut, by decide, _, _, _, hplan, hlegible.rebuilt .empty _ fun f => ?_⟩
  change _ ↔ f ∈ fragments
  rw [hplan]
  simp only [List.mem_cons, List.not_mem_nil, or_false]
  tauto

end PacketOffload.Slmp
