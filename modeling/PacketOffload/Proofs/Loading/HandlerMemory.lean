import PacketOffload.Proofs.Loading.Footprint

/-!
# The memory behind the handlers' data

A load gives the handlers of a context an aperture on the level-2 memory. It begins where the
section of their data ends, and it is as large as what the level-2 memory holds from the beginning
of that section on. The two count from different ends of the section, so the aperture ends past the
level-2 memory by as much as the section is large, and with the memory for handlers without data.

Main statement: where the aperture begins, how large it is, and where it ends
(`handler_memory_in_l2_iff`).
-/

namespace PacketOffload

namespace Aperture

def start (a : Aperture) : Nat := a.addr.toNat

/-- The first address behind an aperture. -/
def stop (a : Aperture) : Nat := a.addr.toNat + a.size.toNat

/-- An address that may be used through the aperture. -/
def Covers (a : Aperture) (addr : Nat) : Prop := a.start ≤ addr ∧ addr < a.stop

end Aperture

/-- A section that ends in the level-2 memory, or with it. -/
def SectionInfo.EndsInL2 (info : SectionInfo) : Prop := info.addr.toNat + info.size.toNat ≤ l2End

instance (info : SectionInfo) : Decidable info.EndsInL2 := inferInstanceAs (Decidable (_ ≤ _))

section Apertures

variable {info : SectionInfo} {a : Aperture}

theorem start_dataAperture (h : dataAperture info = .ok a) (hend : info.EndsInL2) :
    a.start = info.addr.toNat + info.size.toNat := by
  obtain ⟨-, haddr, -⟩ := dataAperture_eq_ok h
  have hsmall : l2End < UInt32.size := by decide
  rw [Aperture.start, haddr, Nat.mod_eq_of_lt (Nat.lt_of_le_of_lt hend hsmall)]

/-- The aperture is larger than the memory behind the section, by the size of the section. -/
theorem stop_dataAperture (h : dataAperture info = .ok a) (hend : info.EndsInL2) :
    a.stop = l2End + info.size.toNat := by
  have hstart := start_dataAperture h hend
  obtain ⟨hlow, -, hsize⟩ := dataAperture_eq_ok h
  unfold Aperture.start at hstart
  unfold Aperture.stop
  omega

/-- The aperture stays in the level-2 memory exactly if the section is empty. -/
theorem dataAperture_in_l2_iff (h : dataAperture info = .ok a) (hend : info.EndsInL2) :
    (∀ addr, a.Covers addr → addr < l2End) ↔ info.size = 0 := by
  have hstart := start_dataAperture h hend
  have hstop := stop_dataAperture h hend
  rw [← UInt32.toNat_inj, UInt32.toNat_zero]
  constructor
  · intro hinside
    by_contra hsize
    have hpast : a.Covers l2End := by
      refine ⟨?_, ?_⟩
      · rw [hstart]
        exact hend
      · omega
    exact Nat.lt_irrefl l2End (hinside l2End hpast)
  · rintro hsize addr ⟨-, hlast⟩
    omega

end Apertures

section Loads

variable {σ : Type} [Transport σ] {l : Loader} {s : Session σ} {image : FirmwareImage} {ctx : Nat}
  {host : HostAperture} {context : HandlerContext}

/-- The aperture that a load tells of follows from the section of the handlers' data. -/
theorem dataAperture_of_load (h : (l.load s image ctx host).1 = .ok context) {info : SectionInfo}
    (hinfo : image.sectionInfo handlerDataSection = .ok info) :
    dataAperture info = .ok context.handlerMem := by
  obtain ⟨-, -, hcontext⟩ := Loader.performed_of_load h
  obtain ⟨-, -, -, hmem, -⟩ := Loader.loadedContext_eq_ok_iff.1 hcontext
  obtain ⟨other, hother, hdata⟩ := handlerAperture_eq_ok hmem
  obtain rfl : info = other := Except.ok.inj (hinfo.symm.trans hother)
  exact hdata

/-- The aperture that a load tells of is in the registers. -/
theorem registers_handlerMem [RegisterView σ] (h : (l.load s image ctx host).1 = .ok context) :
    (l.load s image ctx host).2.2.registers.aperture .handlerMemAddr .handlerMemSize ctx =
      context.handlerMem := by
  have hshown := (s.registers.shows_loaded context).handlerMem
  obtain ⟨-, -, hcontext⟩ := Loader.performed_of_load h
  rwa [← registers_load h, (describes_of_loadedContext hcontext).ctx] at hshown

/-- **The aperture behind the handlers' data.** Where a load goes through of an image whose
handlers' data end in the level-2 memory, the aperture in the registers begins at the end of the
section, and its size is what the memory holds from the beginning of the section on: it ends past
the end of the memory by the size of the section. So it ends with the memory, and covers nothing
past it, exactly if the section is empty. -/
theorem handler_memory_in_l2_iff [RegisterView σ] (l : Loader) (s : Session σ)
    (image : FirmwareImage) (ctx : Nat) (host : HostAperture) (context : HandlerContext)
    (info : SectionInfo) (h : (l.load s image ctx host).1 = .ok context)
    (hinfo : image.sectionInfo handlerDataSection = .ok info) (hend : info.EndsInL2) :
    let aperture :=
      (l.load s image ctx host).2.2.registers.aperture .handlerMemAddr .handlerMemSize ctx
    aperture = context.handlerMem ∧ aperture.start = info.addr.toNat + info.size.toNat ∧
      aperture.size.toNat = l2End - info.addr.toNat ∧
      aperture.stop = l2End + info.size.toNat ∧ (aperture.stop = l2End ↔ info.size = 0) ∧
      ((∀ addr, aperture.Covers addr → addr < l2End) ↔ info.size = 0) := by
  intro aperture
  have haperture : aperture = context.handlerMem := registers_handlerMem h
  have hdata := dataAperture_of_load h hinfo
  obtain ⟨-, -, hsize⟩ := dataAperture_eq_ok hdata
  have hstop := stop_dataAperture hdata hend
  rw [haperture]
  refine ⟨rfl, start_dataAperture hdata hend, hsize, hstop, ?_, dataAperture_in_l2_iff hdata hend⟩
  rw [hstop, ← UInt32.toNat_inj, UInt32.toNat_zero]
  exact Nat.add_eq_left

end Loads

/-- The small image, with its handlers' data somewhere else. -/
def smallImageAt (info : SectionInfo) : FirmwareImage :=
  { smallImage with
    sectionInfo := fun name =>
      if name = handlerDataSection then .ok info else smallImage.sectionInfo name }

theorem sectionInfo_smallImageAt (info : SectionInfo) :
    (smallImageAt info).sectionInfo handlerDataSection = .ok info := by
  simp [smallImageAt]

theorem loadable_smallImageAt {info : SectionInfo} (hlow : l2Base ≤ info.addr.toNat)
    (hhigh : info.addr.toNat ≤ l2End) : (smallImageAt info).Loadable := by
  refine ⟨fun name hname => ?_, loadable_smallImage.lookups, info, sectionInfo_smallImageAt info,
    hhigh⟩
  by_cases hdata : name = handlerDataSection
  · rw [hdata]
    exact ⟨info, [], sectionInfo_smallImageAt info, rfl, hlow, fun h => absurd rfl h⟩
  · obtain ⟨other, bytes, hinfo, hrest⟩ := loadable_smallImage.fits name hname
    exact ⟨other, bytes, (if_neg hdata).trans hinfo, hrest⟩

theorem exists_load_smallImageAt {info : SectionInfo} (hlow : l2Base ≤ info.addr.toNat)
    (hhigh : info.addr.toNat ≤ l2End) :
    ∃ context, (Loader.fresh.load (lockedSession Simulator.powerOn) (smallImageAt info) 1
      ⟨0x123456000, 65536⟩).1 = .ok context := by
  have hd : Reliable (lockedSession Simulator.powerOn).device := Simulator.reliable rfl
  have hctx : 1 < numContexts := by decide
  exact (Loader.fresh.load_eq_ok_iff_loadable hd _ hctx _).2 (loadable_smallImageAt hlow hhigh)

/-- Without data the aperture ends with the level-2 memory. -/
theorem handler_memory_in_l2_of_empty :
    let image := smallImageAt ⟨0x1c0c0000, 0⟩
    let loaded := Loader.fresh.load (lockedSession Simulator.powerOn) image 1 ⟨0x123456000, 65536⟩
    (∃ context, loaded.1 = .ok context) ∧
      image.sectionInfo handlerDataSection = .ok ⟨0x1c0c0000, 0⟩ ∧
      SectionInfo.EndsInL2 ⟨0x1c0c0000, 0⟩ ∧
      (loaded.2.2.registers.aperture .handlerMemAddr .handlerMemSize 1).start = 0x1c0c0000 ∧
      (loaded.2.2.registers.aperture .handlerMemAddr .handlerMemSize 1).stop = l2End := by
  intro image loaded
  obtain ⟨context, hload⟩ : ∃ context, loaded.1 = .ok context :=
    exists_load_smallImageAt (by decide) (by decide)
  have hinfo : image.sectionInfo handlerDataSection = .ok ⟨0x1c0c0000, 0⟩ :=
    sectionInfo_smallImageAt _
  have hend : SectionInfo.EndsInL2 ⟨0x1c0c0000, 0⟩ := by decide
  obtain ⟨-, hstart, -, -, hstop, -⟩ :=
    handler_memory_in_l2_iff _ _ image 1 _ context _ hload hinfo hend
  exact ⟨⟨context, hload⟩, hinfo, hend, hstart, hstop.2 rfl⟩

/-- The aperture behind 256 bytes of data inside the level-2 memory covers the 256 addresses past
the memory. -/
theorem handler_memory_past_l2 :
    let image := smallImageAt ⟨0x1c0c0000, 256⟩
    let loaded := Loader.fresh.load (lockedSession Simulator.powerOn) image 1 ⟨0x123456000, 65536⟩
    let aperture := loaded.2.2.registers.aperture .handlerMemAddr .handlerMemSize 1
    (∃ context, loaded.1 = .ok context) ∧
      image.sectionInfo handlerDataSection = .ok ⟨0x1c0c0000, 256⟩ ∧
      l2Base ≤ 0x1c0c0000 ∧ SectionInfo.EndsInL2 ⟨0x1c0c0000, 256⟩ ∧
      aperture = ⟨0x1c0c0100, 0x40000⟩ ∧ aperture.stop ≠ l2End ∧
      ∀ addr, l2End ≤ addr → addr < l2End + 256 → aperture.Covers addr := by
  intro image loaded aperture
  obtain ⟨context, hload⟩ : ∃ context, loaded.1 = .ok context :=
    exists_load_smallImageAt (by decide) (by decide)
  have hinfo : image.sectionInfo handlerDataSection = .ok ⟨0x1c0c0000, 256⟩ :=
    sectionInfo_smallImageAt _
  have hdata := dataAperture_of_load hload hinfo
  have haperture : aperture = ⟨0x1c0c0100, 0x40000⟩ :=
    (registers_handlerMem hload).trans (Except.ok.inj hdata).symm
  refine ⟨⟨context, hload⟩, hinfo, by decide, by decide, haperture, ?_, ?_⟩
  · rw [haperture]
    decide
  · rw [haperture]
    intro addr hlow hhigh
    exact ⟨Nat.le_trans (by decide) hlow, hhigh⟩

end PacketOffload
