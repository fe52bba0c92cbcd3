import Mathlib.Data.List.TakeWhile
import PacketOffload.Text.Utf8

/-!
# Encoded text reads back

The bytes of a character are one piece, and the piece is that character, whatever bytes follow.

Main statements: an encoded text is cut into its characters (`pieces_encode`), so that both ways of
reading give it back (`decode?_encode`, `decodeLenient_encode`), and only the zero character has a
zero byte (`zero_notMem_encode`).
-/

namespace PacketOffload.Utf8

/-! ## First bytes -/

theorem lead?_of_two {b : UInt8} (hlow : 0xC2 ≤ b.toNat) (hhigh : b.toNat ≤ 0xDF) :
    lead? b = some ⟨0x80, 0xBF, 0, b.toNat - 0xC0⟩ :=
  if_pos ⟨UInt8.le_iff_toNat_le.2 hlow, UInt8.le_iff_toNat_le.2 hhigh⟩

/-- The first byte of three leaves to the second what is neither overlong nor a surrogate. -/
theorem lead?_of_three {b x : UInt8} (hlow : 0xE0 ≤ b.toNat) (hhigh : b.toNat ≤ 0xEF)
    (hsecond : 0x80 ≤ x.toNat ∧ x.toNat ≤ 0xBF)
    (hoverlong : b.toNat = 0xE0 → 0xA0 ≤ x.toNat)
    (hsurrogate : b.toNat = 0xED → x.toNat ≤ 0x9F) :
    ∃ lead, lead? b = some lead ∧ lead.low ≤ x ∧ x ≤ lead.high ∧ lead.more = 1 ∧
      lead.bits = b.toNat - 0xE0 := by
  by_cases h0 : b = 0xE0
  · subst h0
    exact ⟨_, rfl, UInt8.le_iff_toNat_le.2 (hoverlong rfl), UInt8.le_iff_toNat_le.2 hsecond.2, rfl,
      rfl⟩
  · by_cases hD : b = 0xED
    · subst hD
      exact ⟨_, rfl, UInt8.le_iff_toNat_le.2 hsecond.1,
        UInt8.le_iff_toNat_le.2 (hsurrogate rfl), rfl, rfl⟩
    · have hnot : ¬ (0xC2 ≤ b ∧ b ≤ 0xDF) := by
        rw [UInt8.le_iff_toNat_le, UInt8.le_iff_toNat_le]
        simp only [UInt8.reduceToNat]
        omega
      have hne : b.toNat ≠ 0xE0 := fun h => h0 (UInt8.toNat_inj.1 h)
      have hin : 0xE1 ≤ b ∧ b ≤ 0xEF := by
        rw [UInt8.le_iff_toNat_le, UInt8.le_iff_toNat_le]
        simp only [UInt8.reduceToNat]
        omega
      refine ⟨⟨0x80, 0xBF, 1, b.toNat - 0xE0⟩, ?_, UInt8.le_iff_toNat_le.2 hsecond.1,
        UInt8.le_iff_toNat_le.2 hsecond.2, rfl, rfl⟩
      rw [lead?, if_neg hnot, if_neg h0, if_neg hD, if_pos hin]

/-- The first byte of four leaves to the second what is neither overlong nor past the last code
point. -/
theorem lead?_of_four {b x : UInt8} (hlow : 0xF0 ≤ b.toNat) (hhigh : b.toNat ≤ 0xF4)
    (hsecond : 0x80 ≤ x.toNat ∧ x.toNat ≤ 0xBF)
    (hoverlong : b.toNat = 0xF0 → 0x90 ≤ x.toNat)
    (hlast : b.toNat = 0xF4 → x.toNat ≤ 0x8F) :
    ∃ lead, lead? b = some lead ∧ lead.low ≤ x ∧ x ≤ lead.high ∧ lead.more = 2 ∧
      lead.bits = b.toNat - 0xF0 := by
  have hleast : (0x80 : UInt8) ≤ x := UInt8.le_iff_toNat_le.2 hsecond.1
  have hgreatest : x ≤ (0xBF : UInt8) := UInt8.le_iff_toNat_le.2 hsecond.2
  have hcases : b = 0xF0 ∨ b = 0xF1 ∨ b = 0xF2 ∨ b = 0xF3 ∨ b = 0xF4 := by
    simp only [← UInt8.toNat_inj, UInt8.reduceToNat]
    omega
  rcases hcases with rfl | rfl | rfl | rfl | rfl
  · exact ⟨_, rfl, UInt8.le_iff_toNat_le.2 (hoverlong rfl), hgreatest, rfl, rfl⟩
  · exact ⟨_, rfl, hleast, hgreatest, rfl, rfl⟩
  · exact ⟨_, rfl, hleast, hgreatest, rfl, rfl⟩
  · exact ⟨_, rfl, hleast, hgreatest, rfl, rfl⟩
  · exact ⟨_, rfl, hleast, UInt8.le_iff_toNat_le.2 (hlast rfl), rfl, rfl⟩

/-! ## Characters -/

theorem toNat_ofNat_of_lt {n : Nat} (h : n < 256) : (UInt8.ofNat n).toNat = n := by
  rw [UInt8.toNat_ofNat']
  omega

/-- A first byte, and the bytes that it asks for. -/
theorem piece_of_lead {b x : UInt8} (tail : Bytes) {lead : Lead} (hb : 0x80 ≤ b.toNat)
    (hlead : lead? b = some lead) (hlow : lead.low ≤ x) (hhigh : x ≤ lead.high)
    (htail : tail.length = lead.more) (hcont : ∀ y ∈ tail, isContinuation y = true) (rest : Bytes) :
    piece b (x :: tail ++ rest) =
      (some (Char.ofNat (codePoint lead.bits (x :: tail))), lead.more + 1) := by
  have hnot : ¬ b < 0x80 := by
    rw [UInt8.lt_iff_toNat_lt]
    simp only [UInt8.reduceToNat]
    omega
  have htake : ((tail ++ rest).take lead.more).takeWhile isContinuation = tail := by
    rw [← htail, List.take_left]
    exact List.takeWhile_eq_self_iff.2 hcont
  simp only [piece, hnot, if_false, hlead, List.cons_append, hlow, hhigh, and_self, if_true, htake,
    htail]

/-- The continuation byte with the last six bits of a number. -/
theorem continuation_spec (n : Nat) : isContinuation (UInt8.ofNat (n % 64 + 0x80)) = true ∧
    (UInt8.ofNat (n % 64 + 0x80)).toNat = n % 64 + 0x80 := by
  have hvalue := toNat_ofNat_of_lt (n := n % 64 + 0x80) (by omega)
  refine ⟨?_, hvalue⟩
  simp only [isContinuation, Bool.and_eq_true, decide_eq_true_eq, UInt8.le_iff_toNat_le, hvalue,
    UInt8.reduceToNat]
  omega

theorem piece_one {v : Nat} (h : v ≤ 0x7F) (rest : Bytes) :
    piece (UInt8.ofNat v) rest = (some (Char.ofNat v), 0) := by
  have hvalue := toNat_ofNat_of_lt (n := v) (by omega)
  have hlt : UInt8.ofNat v < 0x80 := by
    rw [UInt8.lt_iff_toNat_lt, hvalue]
    exact Nat.lt_succ_of_le h
  simp only [piece, hlt, if_true, hvalue]

theorem piece_two {v : Nat} (hlow : 0x7F < v) (hhigh : v ≤ 0x7FF) (rest : Bytes) :
    piece (UInt8.ofNat (v / 64 % 0x20 + 0xC0)) ([UInt8.ofNat (v % 0x40 + 0x80)] ++ rest) =
      (some (Char.ofNat v), 1) := by
  have hfirst := toNat_ofNat_of_lt (n := v / 64 % 0x20 + 0xC0) (by omega)
  obtain ⟨-, hsecond⟩ := continuation_spec v
  have hlead := lead?_of_two (b := UInt8.ofNat (v / 64 % 0x20 + 0xC0)) (by omega) (by omega)
  have hleast : (0x80 : UInt8) ≤ UInt8.ofNat (v % 0x40 + 0x80) := by
    rw [UInt8.le_iff_toNat_le, hsecond]
    exact Nat.le_add_left _ _
  have hgreatest : UInt8.ofNat (v % 0x40 + 0x80) ≤ (0xBF : UInt8) := by
    rw [UInt8.le_iff_toNat_le, hsecond]
    simp only [UInt8.reduceToNat]
    omega
  rw [piece_of_lead [] (by omega) hlead hleast hgreatest rfl (by simp)]
  have hpoint : codePoint ((UInt8.ofNat (v / 64 % 0x20 + 0xC0)).toNat - 0xC0)
      [UInt8.ofNat (v % 0x40 + 0x80)] = v := by
    simp only [codePoint, List.foldl_cons, List.foldl_nil, hfirst, hsecond]
    omega
  rw [hpoint]

theorem piece_three {v : Nat} (hlow : 0x7FF < v) (hhigh : v ≤ 0xFFFF)
    (hvalid : v < 0xD800 ∨ 0xDFFF < v) (rest : Bytes) :
    piece (UInt8.ofNat (v / 4096 % 0x10 + 0xE0))
        ([UInt8.ofNat (v / 64 % 0x40 + 0x80), UInt8.ofNat (v % 0x40 + 0x80)] ++ rest) =
      (some (Char.ofNat v), 2) := by
  have hfirst := toNat_ofNat_of_lt (n := v / 4096 % 0x10 + 0xE0) (by omega)
  obtain ⟨-, hsecond⟩ := continuation_spec (v / 64)
  obtain ⟨hcont, hthird⟩ := continuation_spec v
  obtain ⟨lead, hlead, hleast, hgreatest, hmore, hbits⟩ :=
    lead?_of_three (b := UInt8.ofNat (v / 4096 % 0x10 + 0xE0))
      (x := UInt8.ofNat (v / 64 % 0x40 + 0x80)) (by omega) (by omega) (by omega) (by omega)
      (by omega)
  rw [piece_of_lead [_] (by omega) hlead hleast hgreatest hmore.symm
    (List.forall_mem_singleton.2 hcont), hmore]
  have hpoint : codePoint lead.bits
      [UInt8.ofNat (v / 64 % 0x40 + 0x80), UInt8.ofNat (v % 0x40 + 0x80)] = v := by
    simp only [codePoint, List.foldl_cons, List.foldl_nil, hbits, hfirst, hsecond, hthird]
    omega
  rw [hpoint]

theorem piece_four {v : Nat} (hlow : 0xFFFF < v) (hhigh : v < 0x110000) (rest : Bytes) :
    piece (UInt8.ofNat (v / 262144 % 0x08 + 0xF0))
        ([UInt8.ofNat (v / 4096 % 0x40 + 0x80), UInt8.ofNat (v / 64 % 0x40 + 0x80),
          UInt8.ofNat (v % 0x40 + 0x80)] ++ rest) =
      (some (Char.ofNat v), 3) := by
  have hfirst := toNat_ofNat_of_lt (n := v / 262144 % 0x08 + 0xF0) (by omega)
  obtain ⟨-, hsecond⟩ := continuation_spec (v / 4096)
  obtain ⟨hcont, hthird⟩ := continuation_spec (v / 64)
  obtain ⟨hcont', hfourth⟩ := continuation_spec v
  obtain ⟨lead, hlead, hleast, hgreatest, hmore, hbits⟩ :=
    lead?_of_four (b := UInt8.ofNat (v / 262144 % 0x08 + 0xF0))
      (x := UInt8.ofNat (v / 4096 % 0x40 + 0x80)) (by omega) (by omega) (by omega) (by omega)
      (by omega)
  rw [piece_of_lead [_, _] (by omega) hlead hleast hgreatest hmore.symm
    (List.forall_mem_cons.2 ⟨hcont, List.forall_mem_singleton.2 hcont'⟩), hmore]
  have hpoint : codePoint lead.bits [UInt8.ofNat (v / 4096 % 0x40 + 0x80),
      UInt8.ofNat (v / 64 % 0x40 + 0x80), UInt8.ofNat (v % 0x40 + 0x80)] = v := by
    simp only [codePoint, List.foldl_cons, List.foldl_nil, hbits, hfirst, hsecond, hthird, hfourth]
    omega
  rw [hpoint]

/-- The bytes of a character are one piece, which is the character. -/
theorem exists_piece (c : Char) : ∃ b tail, String.utf8EncodeChar c = b :: tail ∧
    ∀ rest, piece b (tail ++ rest) = (some c, tail.length) := by
  have hchar : Char.ofNat c.val.toNat = c := Char.ofNat_toNat c
  have hvalid : c.val.toNat < 0xD800 ∨ 0xDFFF < c.val.toNat ∧ c.val.toNat < 0x110000 := c.valid
  fun_cases String.utf8EncodeChar with
  | case1 v h1 =>
    refine ⟨_, [], rfl, fun rest => ?_⟩
    rw [piece_one h1, hchar]
    rfl
  | case2 v h1 h2 => exact ⟨_, _, rfl, fun rest => hchar ▸ piece_two (by omega) h2 rest⟩
  | case3 v h1 h2 h3 =>
    exact ⟨_, _, rfl, fun rest => hchar ▸ piece_three (by omega) h3 (by omega) rest⟩
  | case4 v h1 h2 h3 =>
    exact ⟨_, _, rfl, fun rest => hchar ▸ piece_four (by omega) (by omega) rest⟩

/-! ## Texts -/

theorem piecesFrom_append (skipped rest : Bytes) :
    piecesFrom skipped.length (skipped ++ rest) = piecesFrom 0 rest := by
  induction skipped with
  | nil => rfl
  | cons b skipped ih => exact ih

/-- An encoded text is cut into its characters. -/
theorem pieces_encode (text : String) : pieces (encode text) = text.toList.map some := by
  unfold pieces encode
  induction text.toList with
  | nil => rfl
  | cons c cs ih =>
    obtain ⟨b, tail, hencoded, hpiece⟩ := exists_piece c
    rw [List.flatMap_cons, hencoded, List.cons_append, piecesFrom, hpiece, piecesFrom_append, ih]
    rfl

theorem decode?_encode (text : String) : decode? (encode text) = some text := by
  have hall : ∀ cs : List Char, (cs.map some).mapM id = some cs := by
    intro cs
    induction cs with
    | nil => rfl
    | cons c cs ih => simp [ih]
  rw [decode?, pieces_encode, hall, Option.map_some, String.ofList_toList]

theorem decodeLenient_encode (text : String) : decodeLenient (encode text) = text := by
  rw [decodeLenient, pieces_encode, List.map_map]
  exact (congrArg String.ofList (List.map_id _)).trans String.ofList_toList

/-- Only the zero character has a zero byte. -/
theorem zero_notMem_encode {text : String} (h : Char.ofNat 0 ∉ text.toList) : 0 ∉ encode text := by
  intro hzero
  obtain ⟨c, hc, hmem⟩ := List.mem_flatMap.1 hzero
  have hbytes : ∀ n, n % 256 ≠ 0 → (0 : UInt8) ≠ UInt8.ofNat n := by
    intro n hn heq
    have hvalue := congrArg UInt8.toNat heq
    rw [UInt8.toNat_ofNat'] at hvalue
    exact hn hvalue.symm
  revert hmem
  fun_cases String.utf8EncodeChar with
  | case1 v h1 =>
    intro hmem
    refine hbytes v (fun hv => h ?_) (List.mem_singleton.1 hmem)
    have hzero : c.val.toNat = 0 := by omega
    rw [← hzero, show Char.ofNat c.val.toNat = c from Char.ofNat_toNat c]
    exact hc
  | case2 v h1 h2 =>
    simp only [List.mem_cons, List.not_mem_nil, or_false, hbytes (v / 64 % 0x20 + 0xC0) (by omega),
      hbytes (v % 0x40 + 0x80) (by omega), imp_self]
  | case3 v h1 h2 h3 =>
    simp only [List.mem_cons, List.not_mem_nil, or_false,
      hbytes (v / 4096 % 0x10 + 0xE0) (by omega), hbytes (v / 64 % 0x40 + 0x80) (by omega),
      hbytes (v % 0x40 + 0x80) (by omega), imp_self]
  | case4 v h1 h2 h3 =>
    simp only [List.mem_cons, List.not_mem_nil, or_false,
      hbytes (v / 262144 % 0x08 + 0xF0) (by omega), hbytes (v / 4096 % 0x40 + 0x80) (by omega),
      hbytes (v / 64 % 0x40 + 0x80) (by omega), hbytes (v % 0x40 + 0x80) (by omega), imp_self]

/-- ASCII characters are one byte each. -/
theorem encode_ascii {text : String} (h : ∀ c ∈ text.toList, c.toNat < 0x80) :
    encode text = text.toList.map fun c => UInt8.ofNat c.toNat := by
  unfold encode
  generalize text.toList = cs at h
  induction cs with
  | nil => rfl
  | cons c cs ih =>
    have hc : String.utf8EncodeChar c = [UInt8.ofNat c.toNat] :=
      if_pos (Nat.le_of_lt_succ (h c List.mem_cons_self))
    rw [List.flatMap_cons, hc, ih fun d hd => h d (List.mem_cons_of_mem c hd)]
    rfl

end PacketOffload.Utf8
