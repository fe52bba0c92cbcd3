import Mathlib.Data.List.Basic
import PacketOffload.Text.Numeral

/-!
# Register values as text

A register value is shown in decimal, or after `0x` in eight hexadecimal digits, and blanks around
it do not count. Either way it reads back.

Main statements: the digits of a number stand for it (`digitsValue?_toDigits`), and whatever shows a
register value reads as that value (`ShowsValue.registerValue?`).
-/

namespace PacketOffload.Text

/-! ## Digits -/

theorem digitValue?_digitChar : ∀ d < 16, digitValue? (Nat.digitChar d) = some d := by
  decide

/-- The digits of a number are digits of the base. -/
theorem exists_digit_of_mem_toDigits {base n : Nat} (hbase : 1 < base) {c : Char}
    (h : c ∈ Nat.toDigits base n) : ∃ d < base, c = Nat.digitChar d := by
  induction n using Nat.strongRecOn with
  | ind n ih =>
    rw [Nat.toDigits_eq_if hbase] at h
    split at h
    next hn =>
      exact ⟨n, hn, List.mem_singleton.1 h⟩
    next hn =>
      rcases List.mem_append.1 h with h | h
      · exact ih (n / base) (Nat.div_lt_self (by omega) hbase) h
      · exact ⟨n % base, Nat.mod_lt n (by omega), List.mem_singleton.1 h⟩

theorem digitsValue?_append (base : Nat) (first second : List Char) (before : Nat) :
    digitsValue? base before (first ++ second) =
      (digitsValue? base before first).bind fun value => digitsValue? base value second := by
  induction first generalizing before with
  | nil => rfl
  | cons c first ih =>
    rw [List.cons_append, digitsValue?, digitsValue?]
    cases digitValue? c with
    | none => rfl
    | some d =>
      by_cases hd : d < base
      · simp only [hd, if_true, ih]
      · simp only [hd, if_false, Option.bind_none]

/-- One more digit. -/
theorem digitsValue?_digit {base d : Nat} (hbase : base ≤ 16) (hd : d < base) (before : Nat) :
    digitsValue? base before [Nat.digitChar d] = some (before * base + d) := by
  rw [digitsValue?, digitValue?_digitChar d (Nat.lt_of_lt_of_le hd hbase)]
  simp only [hd, if_true, digitsValue?]

theorem digitsValue?_toDigits {base : Nat} (hlow : 1 < base) (hhigh : base ≤ 16) (n : Nat) :
    digitsValue? base 0 (Nat.toDigits base n) = some n := by
  induction n using Nat.strongRecOn with
  | ind n ih =>
    rw [Nat.toDigits_eq_if hlow]
    split
    next hn => rw [digitsValue?_digit hhigh hn, Nat.zero_mul, Nat.zero_add]
    next hn =>
      rw [digitsValue?_append, ih (n / base) (Nat.div_lt_self (by omega) hlow), Option.bind_some,
        digitsValue?_digit hhigh (Nat.mod_lt n (by omega)), Nat.div_add_mod']

/-- Different numbers are shown by different texts. -/
theorem toString_injective {m n : Nat} (h : toString m = toString n) : m = n := by
  have htext : Nat.toDigits 10 m = Nat.toDigits 10 n := by
    rw [← Nat.toList_repr, ← Nat.toList_repr]
    exact congrArg String.toList h
  have hvalue := digitsValue?_toDigits (show 1 < 10 by decide) (by decide) m
  rw [htext, digitsValue?_toDigits (by decide) (by decide)] at hvalue
  exact (Option.some.inj hvalue).symm

/-- Zeros before a numeral do not count. -/
theorem digitsValue?_zeros {base : Nat} (hlow : 0 < base) (hhigh : base ≤ 16) (count : Nat)
    (cs : List Char) :
    digitsValue? base 0 (List.replicate count '0' ++ cs) = digitsValue? base 0 cs := by
  induction count with
  | zero => rfl
  | succ count ih =>
    have hzero : digitsValue? base 0 ['0'] = some (0 * base + 0) :=
      digitsValue?_digit hhigh hlow 0
    rw [List.replicate_succ, List.cons_append, ← List.singleton_append, digitsValue?_append, hzero,
      Option.bind_some, Nat.zero_mul, ih]

/-! ## Numerals -/

/-- Digits are neither blanks nor signs, and no letter that announces another base. -/
theorem plain_digitChar : ∀ d < 16, isBlank (Nat.digitChar d) = false ∧ Nat.digitChar d ≠ '+' ∧
    Nat.digitChar d ≠ 'x' ∧ Nat.digitChar d ≠ 'X' := by
  decide

theorem plain_of_mem_toDigits {base n : Nat} (hlow : 1 < base) (hhigh : base ≤ 16) {c : Char}
    (h : c ∈ Nat.toDigits base n) : isBlank c = false ∧ c ≠ '+' ∧ c ≠ 'x' ∧ c ≠ 'X' := by
  obtain ⟨d, hd, rfl⟩ := exists_digit_of_mem_toDigits hlow h
  exact plain_digitChar d (Nat.lt_of_lt_of_le hd hhigh)

/-- Digits without a sign are a numeral. -/
theorem numeral?_of_digits {base bound n : Nat} {cs : List Char} (hcs : cs ≠ [])
    (hsign : '+' ∉ cs) (h : digitsValue? base 0 cs = some n) (hn : n < bound) :
    numeral? base bound cs = some n := by
  unfold numeral?
  split
  · simp at hsign
  · simp [hcs, h, hn]

/-- A decimal numeral reads as its value. -/
theorem registerValue?_decimal (value : UInt32) :
    registerValue? (toString value.toNat) = some value := by
  have hplain : ∀ c ∈ Nat.toDigits 10 value.toNat, c ≠ '+' ∧ c ≠ 'x' ∧ c ≠ 'X' :=
    fun c hc => (plain_of_mem_toDigits (by decide) (by decide) hc).2
  have hnumeral : numeral? 10 UInt32.size (Nat.toDigits 10 value.toNat) = some value.toNat :=
    numeral?_of_digits Nat.toDigits_ne_nil (fun h => (hplain _ h).1 rfl)
      (digitsValue?_toDigits (by decide) (by decide) _) value.toNat_lt
  have htext : (toString value.toNat).toList = Nat.toDigits 10 value.toNat := Nat.toList_repr
  unfold registerValue?
  rw [htext]
  split
  next rest hdigits => exact absurd rfl (hplain 'x' (by simp [hdigits])).2.1
  next rest hdigits => exact absurd rfl (hplain 'X' (by simp [hdigits])).2.2
  next => simp [hnumeral]

theorem toList_hexDigits (width n : Nat) : (hexDigits width n).toList =
    List.replicate (width - (Nat.toDigits 16 n).length) '0' ++ Nat.toDigits 16 n :=
  String.toList_ofList

/-- A hexadecimal numeral with leading zeros reads as its value. -/
theorem registerValue?_hexadecimal (width : Nat) (value : UInt32) :
    registerValue? ("0x" ++ hexDigits width value.toNat) = some value := by
  have hnumeral : numeral? 16 UInt32.size (hexDigits width value.toNat).toList =
      some value.toNat := by
    rw [toList_hexDigits]
    refine numeral?_of_digits (by simp) ?_ ?_ value.toNat_lt
    · intro h
      rcases List.mem_append.1 h with h | h
      · exact absurd (List.eq_of_mem_replicate h) (by decide)
      · exact (plain_of_mem_toDigits (by decide) (by decide) h).2.1 rfl
    · rw [digitsValue?_zeros (by decide) (by decide)]
      exact digitsValue?_toDigits (by decide) (by decide) _
  have htext : ("0x" ++ hexDigits width value.toNat).toList =
      '0' :: 'x' :: (hexDigits width value.toNat).toList := by
    rw [String.toList_append]
    rfl
  unfold registerValue?
  rw [htext]
  simp [hnumeral]

/-! ## Blanks -/

theorem dropWhile_blanks {blanks cs : List Char} (hblanks : ∀ c ∈ blanks, isBlank c = true)
    (hcs : ∀ c ∈ cs, isBlank c = false) (hne : cs ≠ []) (rest : List Char) :
    (blanks ++ (cs ++ rest)).dropWhile isBlank = cs ++ rest := by
  obtain ⟨c, cs, rfl⟩ := List.exists_cons_of_ne_nil hne
  rw [List.dropWhile_append_of_pos hblanks]
  exact List.dropWhile_cons_of_neg (by simp [hcs c List.mem_cons_self])

/-- Blanks around something without blanks are cut off. -/
theorem trimChars_padded {before cs after : List Char} (hbefore : ∀ c ∈ before, isBlank c = true)
    (hcs : ∀ c ∈ cs, isBlank c = false) (hafter : ∀ c ∈ after, isBlank c = true) (hne : cs ≠ []) :
    trimChars (before ++ (cs ++ after)) = cs := by
  have hback : (cs ++ after).reverse = after.reverse ++ (cs.reverse ++ []) := by simp
  have hdropped : (after.reverse ++ (cs.reverse ++ [])).dropWhile isBlank = cs.reverse ++ [] :=
    dropWhile_blanks (by simpa using hafter) (by simpa using hcs) (by simpa using hne) []
  rw [trimChars, dropWhile_blanks hbefore hcs hne, hback, hdropped, List.append_nil,
    List.reverse_reverse]

/-- The texts that show a register value: in decimal, or in hexadecimal with eight digits, with
blanks around it. -/
def ShowsValue (text : String) (value : UInt32) : Prop :=
  ∃ before numeral after : String, text = before ++ (numeral ++ after) ∧
    (∀ c ∈ before.toList, isBlank c = true) ∧ (∀ c ∈ after.toList, isBlank c = true) ∧
    (numeral = toString value.toNat ∨ numeral = "0x" ++ hexDigits 8 value.toNat)

theorem isBlank_toString (n : Nat) : ∀ c ∈ (toString n).toList, isBlank c = false := by
  intro c hc
  have hdigit : c ∈ Nat.toDigits 10 n := Nat.toList_repr ▸ hc
  exact (plain_of_mem_toDigits (by decide) (by decide) hdigit).1

theorem isBlank_hexDigits (width n : Nat) :
    ∀ c ∈ ("0x" ++ hexDigits width n).toList, isBlank c = false := by
  intro c hc
  rw [String.toList_append, toList_hexDigits] at hc
  rcases List.mem_append.1 hc with hc | hc
  · have hall : ("0x".toList.all fun c => !isBlank c) = true := rfl
    simpa using List.all_eq_true.1 hall c hc
  · rcases List.mem_append.1 hc with hc | hc
    · rw [List.eq_of_mem_replicate hc]
      decide
    · exact (plain_of_mem_toDigits (by decide) (by decide) hc).1

/-- What shows a value reads as the value. -/
theorem ShowsValue.registerValue? {text : String} {value : UInt32} (h : ShowsValue text value) :
    registerValue? (trim text) = some value := by
  obtain ⟨before, numeral, after, rfl, hbefore, hafter, hnumeral⟩ := h
  have htrim : numeral.toList ≠ [] → (∀ c ∈ numeral.toList, isBlank c = false) →
      trim (before ++ (numeral ++ after)) = numeral := by
    intro hne hcs
    rw [trim, String.toList_append, String.toList_append,
      trimChars_padded hbefore hcs hafter hne, String.ofList_toList]
  rcases hnumeral with rfl | rfl
  · rw [htrim (Nat.toList_repr ▸ Nat.toDigits_ne_nil) (isBlank_toString _)]
    exact registerValue?_decimal value
  · rw [htrim (by simp) (isBlank_hexDigits 8 _)]
    exact registerValue?_hexadecimal 8 value

end PacketOffload.Text
