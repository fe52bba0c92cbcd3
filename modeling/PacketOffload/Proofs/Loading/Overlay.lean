import Mathlib.Data.List.Pairwise
import PacketOffload.Proofs.Device.Window
import PacketOffload.Proofs.Loading.Acceptance

/-!
# Sections in the memory window

A load writes its sections one after the other, each as whole words of which the last one is filled
up with zeros. All else that it does are register writes. So what lies in the memory window
afterwards is what was there before, overlaid by the sections: at each offset the last one that
reaches it shows. Sections begin at whole words, so that the zeros behind a section are in a word of
which it has the first byte itself.

Main statements: what sections that were laid over one another leave of each
(`Laid.readBack_iff`), and what a load that goes through leaves in the memory window
(`load_overlays`).
-/

namespace PacketOffload

/-! ## Sections in the memory window -/

/-- A section where a load puts it. -/
structure Placement where
  addr : UInt32
  /-- Offset in the memory window. -/
  base : Nat
  bytes : Bytes
  deriving DecidableEq, Repr

namespace Placement

variable (p : Placement)

/-- Length of the words that the section is written as; zeros fill up the last one. -/
def extent : Nat := 4 * ((p.bytes.length + 3) / 4)

/-- The section has a byte of its own at an offset of the window. -/
def Holds (offset : Nat) : Prop := p.base ≤ offset ∧ offset < p.base + p.bytes.length

/-- An offset of the window is in one of the words that the section is written as. -/
def Covers (offset : Nat) : Prop := p.base ≤ offset ∧ offset < p.base + p.extent

instance (offset : Nat) : Decidable (p.Covers offset) := inferInstanceAs (Decidable (_ ∧ _))

/-- The word that the section puts at an offset. -/
def wordAt (offset : Nat) : UInt32 := p.bytes.wordFrom (offset - p.base)

/-- The byte that the section puts at an offset. -/
def byteAt (offset : Nat) : UInt8 := p.bytes.getD (offset - p.base) 0

/-- The stores that write the section. -/
def script : Script := storeScript p.base (Bytes.words p.bytes)

/-- A section that can be written: its address is one of the device's, and unless it is empty it
lies in the window as whole words. -/
structure Fits : Prop where
  base : windowOffset p.addr = .ok p.base
  aligned : p.bytes ≠ [] → p.base % 4 = 0
  inside : p.bytes ≠ [] → p.base + p.extent ≤ windowLength

end Placement

namespace FirmwareImage

variable {image : FirmwareImage}

def placement (image : FirmwareImage) (name : String) : Except Fault Placement := do
  let info ← image.sectionInfo name
  let bytes ← image.sectionBytes name
  let base ← windowOffset info.addr
  return ⟨info.addr, base, bytes⟩

/-- The sections that a load writes, in their order. -/
def layout (image : FirmwareImage) : Except Fault (List Placement) :=
  firmwareSections.mapM image.placement

theorem sectionScript_of_placement {name : String} {p : Placement}
    (h : image.placement name = .ok p) : sectionScript image name = p.script := by
  unfold placement at h
  unfold sectionScript
  cases hi : image.sectionInfo name with
  | error e =>
    rw [hi] at h
    cases h
  | ok info =>
    cases hb : image.sectionBytes name with
    | error e =>
      rw [hi, hb] at h
      cases h
    | ok bytes =>
      cases hw : windowOffset info.addr with
      | error e =>
        simp only [hi, hb, bind, Except.bind, hw] at h
        cases h
      | ok base =>
        simp only [hi, hb, bind, Except.bind, hw] at h
        cases h
        simp only [hw, Placement.script]

theorem SectionFits.exists_placement {name : String} (h : image.SectionFits name) :
    ∃ p, image.placement name = .ok p ∧ p.Fits := by
  obtain ⟨info, bytes, hi, hb, hl, hwindow⟩ := h
  obtain ⟨base, hbase⟩ := exists_windowOffset_iff.2 hl
  refine ⟨⟨info.addr, base, bytes⟩, ?_, hbase, ?_, ?_⟩
  · simp only [placement, hi, hb, hbase, bind, Except.bind]
    rfl
  · intro hne
    obtain ⟨offset, ho, haligned, -⟩ := hwindow hne
    obtain rfl := Except.ok.inj (hbase.symm.trans ho)
    exact haligned
  · intro hne
    obtain ⟨offset, ho, -, hinside⟩ := hwindow hne
    obtain rfl := Except.ok.inj (hbase.symm.trans ho)
    exact hinside

/-- The scripts of sections, one after the other. -/
theorem flatMap_sectionScript {names : List String}
    (h : ∀ name ∈ names, image.SectionFits name) :
    ∃ ps, names.mapM image.placement = .ok ps ∧ (∀ p ∈ ps, p.Fits) ∧
      names.flatMap (sectionScript image) = ps.flatMap Placement.script := by
  induction names with
  | nil => exact ⟨[], rfl, nofun, rfl⟩
  | cons name rest ih =>
    obtain ⟨hname, hrest⟩ := List.forall_mem_cons.1 h
    obtain ⟨p, hp, hfits⟩ := hname.exists_placement
    obtain ⟨ps, hps, hall, hscript⟩ := ih hrest
    refine ⟨p :: ps, ?_, List.forall_mem_cons.2 ⟨hfits, hall⟩, ?_⟩
    · rw [List.mapM_cons, hp, hps]
      rfl
    · rw [List.flatMap_cons, List.flatMap_cons, sectionScript_of_placement hp, hscript]

end FirmwareImage

/-! ## The words that a load stores -/

/-- Stores of consecutive words put one word at each offset that they reach. -/
theorem filterMap_storeScript (base offset : Nat) (words : List UInt32) :
    (storeScript base words).filterMap (Step.wordFor offset) =
      if base ≤ offset ∧ (offset - base) % 4 = 0 then (words[(offset - base) / 4]?).toList
      else [] := by
  induction words generalizing base with
  | nil => simp [storeScript]
  | cons word rest ih =>
    rw [storeScript]
    by_cases heq : offset = base
    · have hw : Step.wordFor offset (.store base word) = some word := if_pos heq
      rw [List.filterMap_cons_some hw, ih, if_neg (by omega), if_pos (by omega)]
      simp [heq]
    · have hw : Step.wordFor offset (.store base word) = none := if_neg heq
      rw [List.filterMap_cons_none hw, ih]
      by_cases hat : base ≤ offset ∧ (offset - base) % 4 = 0
      · rw [if_pos hat, if_pos (by omega), show (offset - base) / 4 = (offset - (base + 4)) / 4 + 1
          by omega, List.getElem?_cons_succ]
      · rw [if_neg hat, if_neg (by omega)]

/-- A section puts its word at each aligned offset that it covers. -/
theorem Placement.Fits.filterMap_script {p : Placement} (h : p.Fits) {offset : Nat}
    (hoffset : offset % 4 = 0) :
    p.script.filterMap (Step.wordFor offset) =
      if p.Covers offset then [p.wordAt offset] else [] := by
  rw [script, filterMap_storeScript]
  by_cases hcovers : p.Covers offset
  · have hlow := hcovers.1
    have hhigh := hcovers.2
    simp only [extent] at hhigh
    have hne : p.bytes ≠ [] := by
      intro hnil
      simp only [hnil, List.length_nil] at hhigh
      omega
    have haligned := h.aligned hne
    have hat : 4 * ((offset - p.base) / 4) = offset - p.base := by omega
    rw [if_pos ⟨hlow, by omega⟩, if_pos hcovers, Bytes.getElem?_words, hat, if_pos (by omega)]
    rfl
  · rw [if_neg hcovers]
    by_cases hat : p.base ≤ offset ∧ (offset - p.base) % 4 = 0
    · have hhigh : ¬ 4 * ((offset - p.base) / 4) < p.bytes.length := by
        simp only [Covers, extent] at hcovers
        omega
      rw [if_pos hat, Bytes.getElem?_words, if_neg hhigh]
      rfl
    · rw [if_neg hat]

/-- The sections that put a word at an offset, the last one at the end. -/
def covering (ps : List Placement) (offset : Nat) : List Placement :=
  ps.filter (·.Covers offset)

theorem filterMap_scripts {ps : List Placement} (h : ∀ p ∈ ps, p.Fits) {offset : Nat}
    (hoffset : offset % 4 = 0) :
    (ps.flatMap Placement.script).filterMap (Step.wordFor offset) =
      (covering ps offset).map (·.wordAt offset) := by
  induction ps with
  | nil => rfl
  | cons p rest ih =>
    obtain ⟨hp, hrest⟩ := List.forall_mem_cons.1 h
    rw [List.flatMap_cons, List.filterMap_append, hp.filterMap_script hoffset, ih hrest]
    by_cases hcovers : p.Covers offset <;> simp [covering, hcovers]

/-- Of all that a load does only its sections put words into the memory window. -/
theorem filterMap_loadScript (image : FirmwareImage) (ctx : Nat) (host : HostAperture)
    (offset : Nat) :
    (loadScript image ctx host).filterMap (Step.wordFor offset) =
      (firmwareSections.flatMap (sectionScript image)).filterMap (Step.wordFor offset) := by
  have hmemory : (memoryScript image ctx host).filterMap (Step.wordFor offset) = [] := by
    unfold memoryScript
    cases handlerAperture image <;> rfl
  have hhandlers : (handlerScript image ctx).filterMap (Step.wordFor offset) = [] := by
    refine List.filterMap_eq_nil_iff.2 fun step hm => ?_
    rcases eq_of_mem_handlerScript hm with ⟨e, rfl⟩ | ⟨stage, -, value, rfl | rfl⟩ <;> rfl
  have hreset : resetScript.filterMap (Step.wordFor offset) = [] := rfl
  have hregisters : ∀ g index value, Step.wordFor offset (.write g index value) = none :=
    fun _ _ _ => rfl
  simp only [loadScript, loadPlan, List.flatMap_cons, List.flatMap_nil, List.filterMap_append,
    List.filterMap_cons_none (hregisters _ _ _), List.filterMap_nil, hmemory, hhandlers, hreset,
    List.nil_append, List.append_nil]

/-! ## What lies in the window -/

/-- The words of the memory window with sections laid over them, later ones over earlier ones. -/
def overlay (ps : List Placement) (window : Nat → UInt32) (offset : Nat) : UInt32 :=
  match (covering ps offset).getLast? with
  | some p => p.wordAt offset
  | none => window offset

/-- Sections were laid over what a session found in the memory window. -/
structure Laid {σ : Type} [Transport σ] [WindowView σ] (ps : List Placement) (s t : Session σ) :
    Prop where
  fits : ∀ p ∈ ps, p.Fits
  window : ∀ offset, offset % 4 = 0 → t.window offset = overlay ps s.window offset
  outOfReset : t.gates.inReset = false

theorem Loader.laid_of_load {σ : Type} [Transport σ] [WindowView σ] (l : Loader) (s : Session σ)
    (image : FirmwareImage) {ctx : Nat} (hc : ctx < numContexts) (host : HostAperture)
    {context : HandlerContext} (h : (l.load s image ctx host).1 = .ok context) :
    ∃ ps, image.layout = .ok ps ∧ Laid ps s (l.load s image ctx host).2.2 := by
  obtain ⟨ps, hlayout, hfits, hscript⟩ :=
    FirmwareImage.flatMap_sectionScript (l.loadable_of_load hc h).fits
  obtain ⟨hperform, hsession, -⟩ := performed_of_load h
  refine ⟨ps, hlayout, hfits, ?_, ?_⟩
  · intro offset hoffset
    rw [hsession, Session.window_perform hperform, filterMap_loadScript, hscript,
      filterMap_scripts hfits hoffset, overlay]
    cases hlast : (covering ps offset).getLast? with
    | none => simp [List.getLast?_eq_none_iff.1 hlast]
    | some p => simp [List.getLastD_eq_getLast?, hlast]
  · rw [hsession, Session.gates_perform hperform]
    exact congrArg Gates.inReset (follow_loadPlan image hc host s.gates)

/-! ## Reading back -/

/-- A section is read back exactly if the window shows its bytes. -/
theorem Session.readBack_section_iff {σ : Type} [Transport σ] [WindowView σ] [ReadableWindow σ]
    {s : Session σ} (hs : s.gates.inReset = false) {p : Placement} (hp : p.Fits) :
    s.readBack p.base p.bytes.length = .ok p.bytes ↔
      ∀ offset, p.Holds offset → s.windowByte offset = p.byteAt offset := by
  by_cases hnil : p.bytes = []
  · have hnone : ∀ offset, ¬ p.Holds offset := by
      intro offset hholds
      have hlow := hholds.1
      have hhigh := hholds.2
      rw [hnil, List.length_nil] at hhigh
      omega
    simp [hnil, readBack, hnone, pure, Except.pure]
  · have hinside : p.base + p.bytes.length ≤ windowLength := by
      have := hp.inside hnil
      simp only [Placement.extent] at this
      omega
    rw [readBack_eq hs hinside, Except.ok.injEq]
    constructor
    · intro h offset hholds
      obtain ⟨hlow, hhigh⟩ := hholds
      have hi : offset - p.base < p.bytes.length := by omega
      have hget := congrArg (·[offset - p.base]?) h
      simp only [List.getElem?_map, List.getElem?_range' hi] at hget
      simp [Placement.byteAt, ← hget, Nat.add_sub_cancel' hlow]
    · intro h
      refine List.ext_getElem (by simp) fun i hi hi' => ?_
      have hbyte := h (p.base + i) ⟨by omega, by omega⟩
      simp [hbyte, Placement.byteAt, hi']

namespace Placement

/-- The sections have no byte of the window in common. -/
def ApartInWindow (p q : Placement) : Prop := ∀ offset, ¬ (p.Holds offset ∧ q.Holds offset)

variable {p q : Placement} {offset : Nat}

instance : Std.Symm ApartInWindow where
  symm _ _ h offset hboth := h offset hboth.symm

theorem Holds.covers (h : p.Holds offset) : p.Covers offset := by
  simp only [Holds, Covers, extent] at h ⊢
  omega

namespace Fits

variable (h : p.Fits)

include h

/-- A section that puts a byte at an offset has the first byte of the word there. -/
theorem holds_word (hcovers : p.Covers offset) : p.Holds (offset - offset % 4) := by
  simp only [Covers, extent] at hcovers
  have haligned := h.aligned (List.ne_nil_of_length_pos (by omega))
  simp only [Holds]
  omega

/-- A word is covered as a whole or not at all. -/
theorem covers_word_iff : p.Covers (offset - offset % 4) ↔ p.Covers offset := by
  constructor
  · intro hcovers
    simp only [Covers, extent] at hcovers ⊢
    have haligned := h.aligned (List.ne_nil_of_length_pos (by omega))
    omega
  · exact fun hcovers => (h.holds_word hcovers).covers

theorem byte_wordAt (hcovers : p.Covers offset) :
    (Bytes.ofWord32 (p.wordAt (offset - offset % 4))).getD (offset % 4) 0 = p.byteAt offset := by
  have hlow : p.base ≤ offset - offset % 4 := (h.holds_word hcovers).1
  have hsum : offset - offset % 4 - p.base + offset % 4 = offset - p.base := by omega
  rw [wordAt, Bytes.getD_ofWord32_wordFrom _ _ (Nat.mod_lt _ (by omega)), hsum]
  rfl

end Fits

end Placement

namespace Laid

variable {σ : Type} [Transport σ] [WindowView σ] {ps : List Placement} {s t : Session σ}
  {p q : Placement} {offset : Nat}

theorem covering_word (h : Laid ps s t) :
    covering ps (offset - offset % 4) = covering ps offset := by
  refine List.filter_congr fun p hp => ?_
  simp only [(h.fits p hp).covers_word_iff]

theorem mem_of_getLast? (hlast : (covering ps offset).getLast? = some q) :
    q ∈ ps ∧ q.Covers offset := by
  have hq := List.mem_of_getLast? hlast
  simpa [covering] using hq

/-- Where sections were laid over one another, the byte of the last one shows. -/
theorem windowByte_eq (h : Laid ps s t) (hlast : (covering ps offset).getLast? = some q) :
    t.windowByte offset = q.byteAt offset := by
  obtain ⟨hq, hcovers⟩ := mem_of_getLast? hlast
  rw [Session.windowByte, h.window _ (by omega), overlay, h.covering_word, hlast]
  exact (h.fits q hq).byte_wordAt hcovers

variable [ReadableWindow σ]

/-- A section is read back exactly if, wherever it has a byte, the last section there has the same
one. -/
theorem readBack_iff (h : Laid ps s t) (hp : p ∈ ps) :
    t.readBack p.base p.bytes.length = .ok p.bytes ↔
      ∀ offset, p.Holds offset → ∀ q, (covering ps offset).getLast? = some q →
        q.byteAt offset = p.byteAt offset := by
  rw [Session.readBack_section_iff h.outOfReset (h.fits p hp)]
  constructor
  · intro hread offset hholds q hlast
    rw [← h.windowByte_eq hlast, hread offset hholds]
  · intro hsame offset hholds
    have hmem : p ∈ covering ps offset := by simpa [covering, hp] using hholds.covers
    obtain ⟨q, hlast⟩ := Option.isSome_iff_exists.1
      (List.getLast?_isSome.2 (List.ne_nil_of_mem hmem))
    rw [h.windowByte_eq hlast, hsame offset hholds q hlast]

/-- Sections without a common byte are all read back. -/
theorem readBack_of_apart (h : Laid ps s t) (hapart : ps.Pairwise Placement.ApartInWindow)
    (hp : p ∈ ps) : t.readBack p.base p.bytes.length = .ok p.bytes := by
  refine (h.readBack_iff hp).2 fun offset hholds q hlast => ?_
  obtain ⟨hq, hcovers⟩ := mem_of_getLast? hlast
  by_cases heq : q = p
  · rw [heq]
  -- The zeros of a section are in words of which it has the first byte itself.
  · have hboth := hapart.forall hq hp heq
    exact absurd ⟨(h.fits q hq).holds_word hcovers, (h.fits p hp).holds_word hholds.covers⟩
      (hboth _)

end Laid

/-- **What a load writes.** A load that goes through leaves the memory window as it was, overlaid by
the sections in their order: at each aligned offset the word is that of the last section that covers
it, in which bytes past the end are zero. Sections that have no byte in common are all read back. -/
theorem load_overlays {σ : Type} [Transport σ] [WindowView σ] [ReadableWindow σ] (l : Loader)
    (s : Session σ) (image : FirmwareImage) {ctx : Nat} (hc : ctx < numContexts)
    (host : HostAperture) {context : HandlerContext}
    (h : (l.load s image ctx host).1 = .ok context) :
    ∃ ps, image.layout = .ok ps ∧
      (∀ offset, offset % 4 = 0 →
        (l.load s image ctx host).2.2.window offset = overlay ps s.window offset) ∧
      (ps.Pairwise Placement.ApartInWindow → ∀ p ∈ ps,
        (l.load s image ctx host).2.2.readBack p.base p.bytes.length = .ok p.bytes) := by
  obtain ⟨ps, hlayout, hlaid⟩ := l.laid_of_load s image hc host h
  exact ⟨ps, hlayout, hlaid.window, fun hapart p hp => hlaid.readBack_of_apart hapart hp⟩

/-- An image whose handler data, of three bytes, lie in the middle of its read-only data. -/
def overlappingImage : FirmwareImage :=
  ((((AssembledImage.empty.addSection ".rodata" 0x1c000000 [1, 2, 3, 4, 5, 6, 7, 8, 9]).addSection
    handlerDataSection 0x1c000004 [0xaa, 0xbb, 0xcc]).addSection ".vectors" 0x1d000000
      [0x6f, 0, 0, 0]).addSection ".text" 0x1d000100 [1, 2, 3, 4, 5]).image

theorem loadable_overlappingImage : overlappingImage.Loadable := by
  refine ⟨?_, fun _ _ => ⟨_, rfl⟩, ⟨_, rfl, by decide⟩⟩
  intro name hn
  simp only [firmwareSections, List.mem_cons, List.not_mem_nil, or_false] at hn
  rcases hn with rfl | rfl | rfl | rfl
  all_goals exact ⟨_, _, rfl, rfl, by decide, fun _ => ⟨_, rfl, by decide, by decide⟩⟩

/-- The word in the middle of the read-only data is that of the handler data, filled up with a zero
byte, and those around it are as they were. -/
theorem load_overlays_overlapping :
    1 < numContexts ∧
      let after := Loader.fresh.load (lockedSession Simulator.powerOn) overlappingImage 1
        ⟨0x123456000, 65536⟩
      (∃ context, after.1 = .ok context) ∧ after.2.2.window 0 = 0x04030201 ∧
        after.2.2.window 4 = 0x00ccbbaa ∧ after.2.2.window 8 = 0x00000009 ∧
        after.2.2.window 12 = 0 ∧ after.2.2.window 0x400104 = 5 := by
  have hd : Reliable (lockedSession Simulator.powerOn).device := Simulator.reliable rfl
  obtain ⟨context, hload⟩ := (Loader.fresh.load_eq_ok_iff_loadable hd overlappingImage
    (show 1 < numContexts by decide) ⟨0x123456000, 65536⟩).2 loadable_overlappingImage
  obtain ⟨ps, hlayout, hwindow, -⟩ := load_overlays Loader.fresh (lockedSession Simulator.powerOn)
    overlappingImage (show 1 < numContexts by decide) ⟨0x123456000, 65536⟩ hload
  obtain rfl : [⟨0x1c000000, 0, [1, 2, 3, 4, 5, 6, 7, 8, 9]⟩, ⟨0x1c000004, 4, [0xaa, 0xbb, 0xcc]⟩,
      ⟨0x1d000000, 0x400000, [0x6f, 0, 0, 0]⟩, ⟨0x1d000100, 0x400100, [1, 2, 3, 4, 5]⟩] = ps :=
    Except.ok.inj hlayout
  refine ⟨by decide, ⟨context, hload⟩, ?_, ?_, ?_, ?_, ?_⟩ <;>
    exact (hwindow _ (by decide)).trans (by decide +kernel)

end PacketOffload
