import Mathlib.Data.List.Nodup
import PacketOffload.Slmp.Workers

/-!
# Shares of a plan

The fragments between the first and the last one are dealt out to the workers: each takes every
`n`-th of them, from its own place on. Together the shares are the fragments, and since no two
fragments of a plan begin at one offset, a fragment is in one share only.

Main statements: the shares are the fragments in another order (`perm_shares`), the offsets of a
plan differ (`nodup_offset_plan`), and only its ends are marked (`ends_of_plan`).
-/

namespace PacketOffload.Slmp

/-! ## Every `n`-th element -/

theorem everyNth_cons {α : Type} {n : Nat} (hn : 0 < n) (x : α) (xs : List α) :
    everyNth n (x :: xs) = x :: everyNth n (xs.drop (n - 1)) := by
  have hrest : (List.range xs.length).filterMap
      (fun i => if (i + 1) % n = 0 then xs[i]? else none) = everyNth n (xs.drop (n - 1)) := by
    -- The next `n - 1` elements are passed over.
    have hpassed : ∀ k ≤ n - 1, (List.range k).filterMap
        (fun i => if (i + 1) % n = 0 then xs[i]? else none) = [] := by
      intro k hk
      refine List.filterMap_eq_nil_iff.2 fun i hi => ?_
      have hlt := List.mem_range.1 hi
      have hmod : (i + 1) % n ≠ 0 := by
        rw [Nat.mod_eq_of_lt (by omega)]
        omega
      rw [if_neg hmod]
    rcases Nat.le_total xs.length (n - 1) with hle | hle
    · rw [hpassed _ hle, List.drop_eq_nil_of_le hle]
      rfl
    · have hsplit : xs.length = (n - 1) + (xs.length - (n - 1)) := by omega
      rw [hsplit, List.range_add, List.filterMap_append, hpassed _ (Nat.le_refl _),
        List.nil_append, List.filterMap_map, everyNth, List.length_drop]
      refine List.filterMap_congr fun i _ => ?_
      have hmod : (n - 1 + i + 1) % n = i % n := by
        have hsum : n - 1 + i + 1 = i + n := by omega
        rw [hsum, Nat.add_mod_right]
      simp only [Function.comp_apply, hmod, List.getElem?_drop]
  rw [← hrest, everyNth, List.length_cons, List.range_succ_eq_map, List.filterMap_cons]
  simp only [Nat.zero_mod, if_true, List.getElem?_cons_zero, List.filterMap_map]
  rfl

/-- The share of worker `w` of `n`. -/
def share {α : Type} (n : Nat) (xs : List α) (w : Nat) : List α := everyNth n (xs.drop w)

/-- The shares are all there is, in another order. -/
theorem perm_shares {α : Type} {n : Nat} (hn : 0 < n) (xs : List α) :
    ((List.range n).flatMap (share n xs)).Perm xs := by
  obtain ⟨m, rfl⟩ : ∃ m, n = m + 1 := ⟨n - 1, by omega⟩
  induction xs with
  | nil =>
    have hnil : ∀ w, share (m + 1) ([] : List α) w = [] := by
      intro w
      rw [share, List.drop_nil]
      rfl
    simp [hnil]
  | cons x xs ih =>
    -- Share 0 goes on behind `x` as the last share of the rest; the others move up by one.
    have hzero : share (m + 1) (x :: xs) 0 = x :: share (m + 1) xs m := everyNth_cons hn x xs
    have hsucc : ∀ w, share (m + 1) (x :: xs) (w + 1) = share (m + 1) xs w := fun _ => rfl
    rw [List.range_succ, List.flatMap_append, List.flatMap_singleton] at ih
    rw [List.range_succ_eq_map, List.flatMap_cons, hzero, List.flatMap_map, List.cons_append]
    simp only [hsucc]
    exact (List.perm_append_comm.trans ih).cons x

theorem mem_share_iff {α : Type} {n : Nat} (hn : 0 < n) {xs : List α} {x : α} :
    (∃ w < n, x ∈ share n xs w) ↔ x ∈ xs := by
  rw [← (perm_shares hn xs).mem_iff, List.mem_flatMap]
  simp only [List.mem_range]

theorem mem_of_mem_share {α : Type} {n w : Nat} {xs : List α} {x : α} (h : x ∈ share n xs w) :
    x ∈ xs := by
  obtain ⟨i, -, hi⟩ := List.mem_filterMap.1 h
  split at hi
  · exact List.mem_of_mem_drop (List.mem_of_getElem? hi)
  · cases hi

/-- Two workers have nothing in common, and none has anything twice. -/
theorem nodup_shares {α : Type} {n : Nat} {xs : List α} (hxs : xs.Nodup) :
    (∀ w < n, (share n xs w).Nodup) ∧
      ∀ w < n, ∀ v < n, ∀ x, x ∈ share n xs w → x ∈ share n xs v → w = v := by
  rcases Nat.eq_zero_or_pos n with rfl | hn
  · exact ⟨fun w hw => absurd hw (Nat.not_lt_zero w), fun w hw => absurd hw (Nat.not_lt_zero w)⟩
  obtain ⟨heach, hapart⟩ := List.nodup_flatMap.1 ((perm_shares hn xs).nodup_iff.2 hxs)
  have hlt : ∀ w v, w < v → v < n → ∀ x, x ∈ share n xs w → x ∉ share n xs v := by
    intro w v hwv hv x hxw hxv
    have hw : w < (List.range n).length := by rw [List.length_range]; omega
    have hv' : v < (List.range n).length := by rw [List.length_range]; omega
    have hdisjoint := List.pairwise_iff_getElem.1 hapart w v hw hv' hwv
    rw [List.getElem_range, List.getElem_range] at hdisjoint
    exact hdisjoint hxw hxv
  refine ⟨fun w hw => heach w (List.mem_range.2 hw), ?_⟩
  intro w hw v hv x hxw hxv
  rcases Nat.lt_trichotomy w v with h | h | h
  · exact absurd hxv (hlt w v h hv x hxw)
  · exact h
  · exact absurd hxw (hlt v w h hw x hxv)

/-! ## The fragments of a plan -/

variable {length size : Nat} {alwaysAck : Bool}

theorem mul_lt_of_lt_fragmentCount {i : Nat} (hi : i < fragmentCount length size) :
    i * size < length := by
  unfold fragmentCount at hi
  rcases Nat.eq_zero_or_pos size with rfl | hs
  · simp at hi
  have hmul : (i + 1) * size ≤ length + size - 1 :=
    Nat.le_trans (Nat.mul_le_mul_right size hi) (Nat.div_mul_le_self _ _)
  rw [Nat.succ_mul] at hmul
  omega

theorem offset_planned (hl : length < UInt32.size) {i : Nat}
    (hi : i < fragmentCount length size) :
    (planned length size alwaysAck i).offset.toNat = i * size := by
  have hlt := mul_lt_of_lt_fragmentCount hi
  exact UInt32.toNat_ofNat_of_lt' (Nat.lt_trans hlt hl)

theorem size_ne_zero_of_plan {f : Fragment} {rest : List Fragment}
    (h : plan length size alwaysAck = f :: rest) : size ≠ 0 := by
  rintro rfl
  cases h

theorem getElem?_plan (hs : size ≠ 0) (i : Nat) :
    (plan length size alwaysAck)[i]? =
      if i < fragmentCount length size then some (planned length size alwaysAck i) else none := by
  rw [plan, if_neg hs, List.getElem?_map]
  by_cases hi : i < fragmentCount length size
  · rw [List.getElem?_range hi, if_pos hi]
    rfl
  · rw [if_neg hi, List.getElem?_eq_none (by simpa using hi)]
    rfl

/-- A plan has a fragment at each place before its end, and the place says which. -/
theorem getElem?_plan_eq_some_iff {i : Nat} {f : Fragment} :
    (plan length size alwaysAck)[i]? = some f ↔
      i < fragmentCount length size ∧ planned length size alwaysAck i = f := by
  by_cases hs : size = 0
  · simp [plan, fragmentCount, hs]
  · simp [getElem?_plan hs]

theorem length_plan_of_getElem? {i : Nat} {f : Fragment}
    (hf : (plan length size alwaysAck)[i]? = some f) :
    (plan length size alwaysAck).length = fragmentCount length size := by
  refine length_plan ?_ alwaysAck
  rintro rfl
  simp [plan] at hf

/-- The last fragment of a plan ends the message, and no other does. -/
theorem contains_eom_iff_of_plan {i : Nat} {f : Fragment}
    (hf : (plan length size alwaysAck)[i]? = some f) :
    f.flags.contains .eom = true ↔ i + 1 = (plan length size alwaysAck).length := by
  obtain ⟨-, rfl⟩ := getElem?_plan_eq_some_iff.1 hf
  rw [length_plan_of_getElem? hf, planned, contains_eom_plannedFlags, decide_eq_true_iff]

theorem contains_syn_iff_of_plan {i : Nat} {f : Fragment}
    (hf : (plan length size alwaysAck)[i]? = some f) :
    f.flags.contains .syn = true ↔
      i = 0 ∨ i + 1 = (plan length size alwaysAck).length ∨ alwaysAck = true := by
  obtain ⟨-, rfl⟩ := getElem?_plan_eq_some_iff.1 hf
  rw [length_plan_of_getElem? hf, planned, contains_syn_plannedFlags]
  simp only [Bool.or_eq_true, decide_eq_true_iff]
  rw [or_assoc, or_comm]
  exact or_assoc

/-- No two fragments of a plan begin at one offset. -/
theorem nodup_offset_plan (hl : length < UInt32.size) (size : Nat) (alwaysAck : Bool) :
    ((plan length size alwaysAck).map Fragment.offset).Nodup := by
  by_cases hs : size = 0
  · simp [plan, hs]
  rw [plan, if_neg hs, List.map_map]
  refine List.Nodup.map_on ?_ List.nodup_range
  intro i hi j hj heq
  have hoffset := congrArg UInt32.toNat heq
  rw [Function.comp_apply, Function.comp_apply, offset_planned hl (List.mem_range.1 hi),
    offset_planned hl (List.mem_range.1 hj)] at hoffset
  exact Nat.eq_of_mul_eq_mul_right (Nat.pos_of_ne_zero hs) hoffset

theorem nodup_plan (hl : length < UInt32.size) (size : Nat) (alwaysAck : Bool) :
    (plan length size alwaysAck).Nodup :=
  (nodup_offset_plan hl size alwaysAck).of_map Fragment.offset

/-- Of a plan the first fragment has offset 0, the last one ends the message, and those between do
neither. -/
theorem ends_of_plan (hl : length < UInt32.size) {first last : Fragment} {interior : List Fragment}
    (h : plan length size alwaysAck = first :: (interior ++ [last])) :
    first.offset = 0 ∧ last.flags.contains .eom = true ∧
      ∀ f ∈ interior, f.offset ≠ 0 ∧ f.flags.contains .eom = false := by
  have hs := size_ne_zero_of_plan h
  have hcount : fragmentCount length size = interior.length + 2 := by
    rw [← length_plan hs alwaysAck, h]
    simp
  have hget : ∀ i < interior.length + 2,
      (first :: (interior ++ [last]))[i]? = some (planned length size alwaysAck i) := by
    intro i hi
    rw [← h, getElem?_plan hs, if_pos (hcount ▸ hi)]
  refine ⟨?_, ?_, ?_⟩
  · obtain rfl := Option.some.inj (hget 0 (by omega))
    refine UInt32.toNat_inj.1 ?_
    rw [offset_planned hl (by omega), Nat.zero_mul]
    rfl
  · have hlast := hget (interior.length + 1) (by omega)
    rw [List.getElem?_cons_succ, List.getElem?_append_right (Nat.le_refl _), Nat.sub_self] at hlast
    obtain rfl := Option.some.inj hlast
    rw [planned, contains_eom_plannedFlags, hcount]
    exact decide_eq_true rfl
  · intro f hf
    obtain ⟨i, hi, rfl⟩ := List.mem_iff_getElem.1 hf
    have hnext := hget (i + 1) (by omega)
    rw [List.getElem?_cons_succ, List.getElem?_append_left hi, List.getElem?_eq_getElem hi] at hnext
    rw [Option.some.inj hnext]
    constructor
    · intro hzero
      have hoffset := congrArg UInt32.toNat hzero
      rw [offset_planned hl (by omega), UInt32.toNat_zero] at hoffset
      rcases Nat.mul_eq_zero.1 hoffset with h0 | h0
      · omega
      · exact hs h0
    · rw [planned, contains_eom_plannedFlags, hcount]
      exact decide_eq_false (by omega)

theorem nodup_interior_of_plan (hl : length < UInt32.size) {first last : Fragment}
    {interior : List Fragment} (h : plan length size alwaysAck = first :: (interior ++ [last])) :
    interior.Nodup ∧ first ∉ interior := by
  have hn := nodup_plan hl size alwaysAck
  rw [h] at hn
  obtain ⟨hfirst, hrest⟩ := List.nodup_cons.1 hn
  exact ⟨(List.nodup_append.1 hrest).1, fun hm => hfirst (List.mem_append_left [last] hm)⟩

/-- Only the last fragment of a plan ends the message. -/
theorem eom_eq_false_of_plan {begun : List Fragment} {last : Fragment}
    (h : plan length size alwaysAck = begun ++ [last]) :
    ∀ f ∈ begun, f.flags.contains .eom = false := by
  have hs : size ≠ 0 := by
    rintro rfl
    simp [plan] at h
  have hcount : fragmentCount length size = begun.length + 1 := by
    rw [← length_plan hs alwaysAck, h]
    simp
  intro f hf
  obtain ⟨i, hi, rfl⟩ := List.mem_iff_getElem.1 hf
  have hget : (plan length size alwaysAck)[i]? = some begun[i] := by
    rw [h, List.getElem?_append_left hi, List.getElem?_eq_getElem hi]
  rw [getElem?_plan hs, if_pos (by omega)] at hget
  rw [← Option.some.inj hget, planned, contains_eom_plannedFlags, hcount]
  exact decide_eq_false (by omega)

end PacketOffload.Slmp
