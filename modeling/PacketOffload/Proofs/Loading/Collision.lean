import PacketOffload.Proofs.Loading.Overlay

/-!
# Addresses that share the memory window

The level-2 memory and the program memory are seen through one window, each from an offset of its
own, and of an address of the level-2 memory only its beginning is checked. So an address past the
first four megabytes of the level-2 memory has the same offset as one of the program memory, its
mirror. Sections whose addresses are disjoint may then lie over one another in the window, and the
later one shows.

Main statements: which addresses share an offset (`windowOffset_shared_iff`), and when the sections
of a load are all read back (`disjoint_sections_intact_iff`).
-/

namespace PacketOffload

/-! ## Addresses -/

/-- An address of the level-2 memory and one of the program memory with the same offset in the
window. -/
structure Mirrored (a b : Nat) : Prop where
  low : l2Base + programOffset ≤ a
  below : a < programBase
  distance : b = a + (programBase - l2Base - programOffset)

theorem windowOffset_eq_ok_iff {addr : UInt32} {offset : Nat} :
    windowOffset addr = .ok offset ↔
      (programBase ≤ addr.toNat ∧ offset + programBase = addr.toNat + programOffset) ∨
        (l2Base ≤ addr.toNat ∧ addr.toNat < programBase ∧ offset + l2Base = addr.toNat) := by
  unfold windowOffset
  by_cases hp : programBase ≤ addr.toNat
  · rw [if_pos hp, Except.ok.injEq]
    omega
  · rw [if_neg hp]
    by_cases hl : l2Base ≤ addr.toNat
    · rw [if_pos hl, Except.ok.injEq]
      omega
    · rw [if_neg hl]
      simp only [reduceCtorEq, false_iff]
      omega

/-- Two addresses share an offset exactly if they are the same or mirrored. -/
theorem windowOffset_shared_iff {a b : UInt32} {offset : Nat} (ha : windowOffset a = .ok offset) :
    windowOffset b = .ok offset ↔
      b = a ∨ Mirrored a.toNat b.toNat ∨ Mirrored b.toNat a.toNat := by
  have hbases : l2Base = 0x1c000000 ∧ programBase = 0x1d000000 ∧ programOffset = 0x400000 :=
    ⟨rfl, rfl, rfl⟩
  rw [windowOffset_eq_ok_iff] at ha ⊢
  constructor
  · intro hb
    rcases ha with ha | ha <;> rcases hb with hb | hb
    · exact Or.inl (UInt32.toNat_inj.1 (by omega))
    · exact Or.inr (Or.inr ⟨by omega, by omega, by omega⟩)
    · exact Or.inr (Or.inl ⟨by omega, by omega, by omega⟩)
    · exact Or.inl (UInt32.toNat_inj.1 (by omega))
  · rintro (rfl | ⟨hlow, hbelow, hdistance⟩ | ⟨hlow, hbelow, hdistance⟩)
    · exact ha
    · omega
    · omega

/-! ## Sections that meet in the window -/

namespace Placement

/-- The section takes up an address of the accelerator. -/
def Occupies (p : Placement) (a : Nat) : Prop :=
  p.addr.toNat ≤ a ∧ a < p.addr.toNat + p.bytes.length

/-- The sections have no address in common. -/
def Apart (p q : Placement) : Prop := ∀ a, ¬ (p.Occupies a ∧ q.Occupies a)

instance : Std.Symm Apart where
  symm _ _ h a hboth := h a hboth.symm

theorem apart_of_le {p q : Placement}
    (h : p.addr.toNat + p.bytes.length ≤ q.addr.toNat ∨
      q.addr.toNat + q.bytes.length ≤ p.addr.toNat) : p.Apart q := by
  intro a hboth
  simp only [Occupies] at hboth
  omega

/-- A later section puts another byte where this one has its own. -/
def Clashes (p later : Placement) : Prop :=
  ∃ offset, p.Holds offset ∧ later.Covers offset ∧ later.byteAt offset ≠ p.byteAt offset

/-- The section lies in the program memory. -/
def InProgram (p : Placement) : Prop := programBase ≤ p.addr.toNat

instance (p : Placement) : Decidable p.InProgram := inferInstanceAs (Decidable (_ ≤ _))

variable {p q : Placement} {offset : Nat}

/-- The address at which a section has a byte of the window. -/
theorem Fits.occupies (h : p.Fits) (hholds : p.Holds offset) :
    (p.InProgram ∧ programOffset ≤ offset ∧ p.Occupies (offset - programOffset + programBase)) ∨
      (¬ p.InProgram ∧ offset + l2Base < programBase ∧ p.Occupies (offset + l2Base)) := by
  obtain ⟨hlow, hhigh⟩ := hholds
  have hbases : l2Base = 0x1c000000 ∧ programBase = 0x1d000000 ∧ programOffset = 0x400000 ∧
      windowLength = 0x800000 := ⟨rfl, rfl, rfl, rfl⟩
  have hinside := h.inside (List.ne_nil_of_length_pos (by omega))
  simp only [extent] at hinside
  simp only [InProgram, Occupies]
  rcases windowOffset_eq_ok_iff.1 h.base with hbase | hbase
  · exact Or.inl (by omega)
  · exact Or.inr (by omega)

/-- Sections that are apart meet in the window only if they are in different memories. -/
theorem Apart.memories_differ (hapart : p.Apart q) (hp : p.Fits) (hq : q.Fits)
    (hpc : p.Covers offset) (hqc : q.Covers offset) : ¬ (p.InProgram ↔ q.InProgram) := by
  intro hsame
  rcases hp.occupies (hp.holds_word hpc) with ⟨hprogram, -, ha⟩ | ⟨hprogram, -, ha⟩
  · rcases hq.occupies (hq.holds_word hqc) with ⟨-, -, hb⟩ | ⟨hother, -, -⟩
    · exact hapart _ ⟨ha, hb⟩
    · exact hother (hsame.1 hprogram)
  · rcases hq.occupies (hq.holds_word hqc) with ⟨hother, -, -⟩ | ⟨-, -, hb⟩
    · exact hprogram (hsame.2 hother)
    · exact hapart _ ⟨ha, hb⟩

/-- Sections that are apart clash only where they take up mirrored addresses. -/
theorem Clashes.exists_mirrored (h : p.Clashes q) (hapart : p.Apart q) (hp : p.Fits) (hq : q.Fits) :
    ∃ a b, p.Occupies a ∧ q.Occupies b ∧ (Mirrored a b ∨ Mirrored b a) := by
  obtain ⟨offset, hholds, hcovers, -⟩ := h
  have hdiffer := hapart.memories_differ hp hq hholds.covers hcovers
  have hbases : l2Base = 0x1c000000 ∧ programBase = 0x1d000000 ∧ programOffset = 0x400000 :=
    ⟨rfl, rfl, rfl⟩
  rcases hp.occupies (hp.holds_word hholds.covers) with ⟨hprogram, hlow, ha⟩ | ⟨hprogram, hlow, ha⟩
  · rcases hq.occupies (hq.holds_word hcovers) with ⟨hother, -, -⟩ | ⟨-, hbelow, hb⟩
    · exact absurd (iff_of_true hprogram hother) hdiffer
    · exact ⟨_, _, ha, hb, Or.inr ⟨by omega, hbelow, by omega⟩⟩
  · rcases hq.occupies (hq.holds_word hcovers) with ⟨-, hfar, hb⟩ | ⟨hother, -, -⟩
    · exact ⟨_, _, ha, hb, Or.inl ⟨by omega, hlow, by omega⟩⟩
    · exact absurd (iff_of_false hprogram hother) hdiffer

end Placement

/-! ## Loads of sections that are apart -/

/-- There are two memories, so at most two sections that are apart meet at an offset. -/
theorem length_covering_le {ps : List Placement} (hfits : ∀ p ∈ ps, p.Fits)
    (hapart : ps.Pairwise Placement.Apart) (offset : Nat) : (covering ps offset).length ≤ 2 := by
  have hsub : (covering ps offset).Pairwise Placement.Apart := hapart.sublist List.filter_sublist
  have hmem : ∀ p ∈ covering ps offset, p.Fits ∧ p.Covers offset := by
    intro p hp
    obtain ⟨hp, hcovers⟩ := List.mem_filter.1 hp
    exact ⟨hfits p hp, of_decide_eq_true hcovers⟩
  revert hsub hmem
  match covering ps offset with
  | [] => simp
  | [_] => simp
  | [_, _] => simp
  | p :: q :: r :: rest =>
    intro hsub hmem
    simp only [List.forall_mem_cons] at hmem
    simp only [List.pairwise_cons, List.forall_mem_cons] at hsub
    obtain ⟨⟨hp, hpc⟩, ⟨hq, hqc⟩, ⟨hr, hrc⟩, -⟩ := hmem
    obtain ⟨⟨hpq, hpr, -⟩, ⟨hqr, -⟩, -⟩ := hsub
    have h₁ := hpq.memories_differ hp hq hpc hqc
    have h₂ := hpr.memories_differ hp hr hpc hrc
    have h₃ := hqr.memories_differ hq hr hqc hrc
    grind

namespace Laid

variable {σ : Type} [Transport σ] [WindowView σ] [ReadableWindow σ] {ps : List Placement}
  {s t : Session σ}

/-- Sections that are apart are all read back exactly if none clashes with a later one. -/
theorem readBack_all_iff (h : Laid ps s t) (hapart : ps.Pairwise Placement.Apart) :
    (∀ p ∈ ps, t.readBack p.base p.bytes.length = .ok p.bytes) ↔
      ps.Pairwise fun p later => ¬ p.Clashes later := by
  constructor
  · intro hread
    refine List.pairwise_iff_forall_sublist.2 fun {p q} hsub => ?_
    rintro ⟨offset, hholds, hcovers, hne⟩
    -- No third section is there, so the later one of the two is the last one.
    have hpair : [p, q].Sublist (covering ps offset) := by
      have hfilter : [p, q].filter (·.Covers offset) = [p, q] := by
        simp [hholds.covers, hcovers]
      rw [← hfilter]
      exact hsub.filter _
    have hcovering := hpair.eq_of_length_le (length_covering_le h.fits hapart offset)
    have hp : p ∈ ps := hsub.subset List.mem_cons_self
    exact hne ((h.readBack_iff hp).1 (hread p hp) offset hholds q (by rw [← hcovering]; rfl))
  · intro hclear p hp
    refine (h.readBack_iff hp).2 fun offset hholds q hlast => ?_
    obtain ⟨earlier, hcovering⟩ := List.getLast?_eq_some_iff.1 hlast
    have hmem : p ∈ covering ps offset := List.mem_filter.2 ⟨hp, decide_eq_true hholds.covers⟩
    rw [hcovering, List.mem_append, List.mem_singleton] at hmem
    rcases hmem with hmem | rfl
    · have hpair : [p, q].Sublist (covering ps offset) := by
        rw [hcovering]
        exact (List.singleton_sublist.2 hmem).append (List.Sublist.refl [q])
      have hclear := List.pairwise_iff_forall_sublist.1 hclear (hpair.trans List.filter_sublist)
      by_contra hne
      exact hclear ⟨offset, hholds, (mem_of_getLast? hlast).2, hne⟩
    · rfl

/-- Sections that are apart are all read back if those of the level-2 memory end before its
addresses are mirrored. -/
theorem readBack_of_low (h : Laid ps s t) (hapart : ps.Pairwise Placement.Apart)
    (hlow : ∀ p ∈ ps, ¬ p.InProgram → p.addr.toNat + p.bytes.length ≤ l2Base + programOffset) :
    ∀ p ∈ ps, t.readBack p.base p.bytes.length = .ok p.bytes := by
  -- No section takes up an address that has a mirror.
  have hnone : ∀ p ∈ ps, ∀ a b, p.Occupies a → ¬ Mirrored a b := by
    intro p hp a b hocc hm
    have hout : ¬ p.InProgram := by
      have := hm.below
      simp only [Placement.Occupies, Placement.InProgram] at hocc ⊢
      omega
    have hend := hlow p hp hout
    have := hm.low
    simp only [Placement.Occupies] at hocc
    omega
  refine (h.readBack_all_iff hapart).2 (hapart.imp_of_mem fun hp hq hpq hclash => ?_)
  obtain ⟨a, b, ha, hb, hm | hm⟩ := hclash.exists_mirrored hpq (h.fits _ hp) (h.fits _ hq)
  · exact hnone _ hp a b ha hm
  · exact hnone _ hq b a hb hm

end Laid

/-- **When disjoint sections survive a load.** Where a load goes through, sections at disjoint
addresses are all read back exactly if no later one puts another byte into a word in which an earlier
one has its own. Sections come together like this only at mirrored addresses, which are all that
share an offset of the window, so that they are read back if no section of the level-2 memory reaches
past its first four megabytes. -/
theorem disjoint_sections_intact_iff {σ : Type} [Transport σ] [WindowView σ] [ReadableWindow σ]
    (l : Loader) (s : Session σ) (image : FirmwareImage) {ctx : Nat} (hc : ctx < numContexts)
    (host : HostAperture) {context : HandlerContext}
    (h : (l.load s image ctx host).1 = .ok context) {ps : List Placement}
    (hlayout : image.layout = .ok ps) (hapart : ps.Pairwise Placement.Apart) :
    let after := (l.load s image ctx host).2.2
    ((∀ p ∈ ps, after.readBack p.base p.bytes.length = .ok p.bytes) ↔
        ps.Pairwise fun p later => ¬ p.Clashes later) ∧
      (∀ p ∈ ps, ∀ q ∈ ps, p.Clashes q →
        ∃ a b, p.Occupies a ∧ q.Occupies b ∧ (Mirrored a b ∨ Mirrored b a)) ∧
      (∀ (a b : UInt32) (offset : Nat), windowOffset a = .ok offset →
        (windowOffset b = .ok offset ↔
          b = a ∨ Mirrored a.toNat b.toNat ∨ Mirrored b.toNat a.toNat)) ∧
      ((∀ p ∈ ps, ¬ p.InProgram → p.addr.toNat + p.bytes.length ≤ l2Base + programOffset) →
        ∀ p ∈ ps, after.readBack p.base p.bytes.length = .ok p.bytes) := by
  obtain ⟨qs, hqs, hlaid⟩ := l.laid_of_load s image hc host h
  obtain rfl := Except.ok.inj (hlayout.symm.trans hqs)
  refine ⟨hlaid.readBack_all_iff hapart, ?_, fun a b offset => windowOffset_shared_iff,
    hlaid.readBack_of_low hapart⟩
  intro p hp q hq hclash
  by_cases heq : p = q
  · obtain ⟨offset, -, -, hne⟩ := hclash
    rw [heq] at hne
    exact absurd rfl hne
  · exact hclash.exists_mirrored (hapart.forall hp hq heq) (hlaid.fits p hp) (hlaid.fits q hq)

/-- The sections of the small image, one of which is empty, are read back. -/
theorem disjoint_sections_intact_small :
    ∃ ps, smallImage.layout = .ok ps ∧ ps.Pairwise Placement.Apart ∧ 1 < numContexts ∧
      let after := Loader.fresh.load (lockedSession Simulator.powerOn) smallImage 1
        ⟨0x123456000, 65536⟩
      (∃ context, after.1 = .ok context) ∧
        ∀ p ∈ ps, after.2.2.readBack p.base p.bytes.length = .ok p.bytes := by
  have hd : Reliable (lockedSession Simulator.powerOn).device := Simulator.reliable rfl
  obtain ⟨context, hload⟩ := (Loader.fresh.load_eq_ok_iff_loadable hd smallImage
    (show 1 < numContexts by decide) ⟨0x123456000, 65536⟩).2 loadable_smallImage
  obtain ⟨ps, hlayout, hapart, hends⟩ : ∃ ps, smallImage.layout = .ok ps ∧
      ps.Pairwise Placement.Apart ∧ ∀ p ∈ ps, ¬ p.InProgram →
        p.addr.toNat + p.bytes.length ≤ l2Base + programOffset :=
    ⟨[⟨0x1c000000, 0, [1, 2, 3, 4, 5]⟩, ⟨0x1c0c0001, 0xc0001, []⟩,
      ⟨0x1d000000, 0x400000, [0x6f, 0, 0, 0]⟩, ⟨0x1d000100, 0x400100, [1, 2, 3, 4, 5, 6, 7, 8]⟩],
      rfl, List.Pairwise.imp Placement.apart_of_le (by decide), by decide⟩
  obtain ⟨-, -, -, hlow⟩ := disjoint_sections_intact_iff Loader.fresh
    (lockedSession Simulator.powerOn) smallImage (show 1 < numContexts by decide)
    ⟨0x123456000, 65536⟩ hload hlayout hapart
  exact ⟨ps, hlayout, hapart, by decide, ⟨context, hload⟩, hlow hends⟩

/-- An image whose read-only data begin at the mirror of the program memory. -/
def mirroredImage : FirmwareImage :=
  ((((AssembledImage.empty.addSection ".rodata" 0x1c400000 [1, 2, 3, 4, 5, 6, 7, 8]).addSection
    handlerDataSection 0x1c0c0000 [0xaa, 0xaa, 0xaa, 0xaa]).addSection ".vectors" 0x1d000000
      [0x6f, 0, 0, 0]).addSection ".text" 0x1d000100 [0x13, 0, 0, 0]).image

/-- The sections of this image are at disjoint addresses and it is loaded, but of its read-only data
the first word is that of the vectors. -/
theorem disjoint_section_overwritten :
    (∃ ps, mirroredImage.layout = .ok ps ∧ ps.Pairwise Placement.Apart ∧
      ps.head? = some ⟨0x1c400000, 0x400000, [1, 2, 3, 4, 5, 6, 7, 8]⟩) ∧
      windowOffset 0x1c400000 = windowOffset 0x1d000000 ∧
      let after := Loader.fresh.load (lockedSession Simulator.powerOn) mirroredImage 0 ⟨0, 4096⟩
      (∃ context, after.1 = .ok context) ∧
        after.2.2.readBack 0x400000 8 = .ok [0x6f, 0, 0, 0, 5, 6, 7, 8] := by
  refine ⟨⟨[⟨0x1c400000, 0x400000, [1, 2, 3, 4, 5, 6, 7, 8]⟩,
      ⟨0x1c0c0000, 0xc0000, [0xaa, 0xaa, 0xaa, 0xaa]⟩, ⟨0x1d000000, 0x400000, [0x6f, 0, 0, 0]⟩,
      ⟨0x1d000100, 0x400100, [0x13, 0, 0, 0]⟩], rfl, ?_, rfl⟩, rfl, ⟨_, rfl⟩, rfl⟩
  exact List.Pairwise.imp Placement.apart_of_le (by decide)

end PacketOffload
