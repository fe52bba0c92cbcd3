import PacketOffload.Firmware.Loader

/-!
# What a load asks of an image

A load asks an image for the sections that it writes and for the handlers of its three stages, and
for nothing else. Two images that give the same answers are loaded alike, from any device and in any
state of the loader: the stages of the load are the same, and so is what comes of them.

Main statements: two such images have the same load plan (`FirmwareImage.LoadsAs.loadPlan_eq`) and
the same loads (`FirmwareImage.LoadsAs.load_eq`).
-/

namespace PacketOffload

/-- Two images that answer alike whatever a load asks. -/
structure FirmwareImage.LoadsAs (a b : FirmwareImage) : Prop where
  info : ∀ name ∈ firmwareSections, a.sectionInfo name = b.sectionInfo name
  bytes : ∀ name ∈ firmwareSections, a.sectionBytes name = b.sectionBytes name
  symbols : ∀ name ∈ handlerSymbols, a.symbolAddress name = b.symbolAddress name

namespace FirmwareImage.LoadsAs

variable {a b : FirmwareImage}

theorem sectionScript_eq (h : a.LoadsAs b) {name : String} (hname : name ∈ firmwareSections) :
    sectionScript a name = sectionScript b name := by
  unfold sectionScript
  rw [h.info name hname, h.bytes name hname]

theorem aperture_eq (h : a.LoadsAs b) {stage : HandlerStage} (hstage : stage ∈ HandlerStage.all) :
    stage.aperture a = stage.aperture b := by
  unfold HandlerStage.aperture
  rw [h.symbols stage.symbol (List.mem_map_of_mem hstage)]

theorem script_eq (h : a.LoadsAs b) {stage : HandlerStage} (hstage : stage ∈ HandlerStage.all)
    (ctx : Nat) : stage.script a ctx = stage.script b ctx := by
  unfold HandlerStage.script
  rw [h.aperture_eq hstage]

theorem handlerAperture_eq (h : a.LoadsAs b) : handlerAperture a = handlerAperture b := by
  unfold handlerAperture
  rw [h.info handlerDataSection (by decide)]

theorem loadedContext_eq (h : a.LoadsAs b) (ctx : Nat) (host : HostAperture) :
    loadedContext a ctx host = loadedContext b ctx host := by
  have hstage : ∀ stage ∈ HandlerStage.all, stage.aperture a = stage.aperture b :=
    fun stage hstage => h.aperture_eq hstage
  unfold loadedContext
  rw [hstage .head (by decide), hstage .packet (by decide), hstage .tail (by decide),
    h.handlerAperture_eq]

/-! ## Loads -/

theorem loadPlan_eq (h : a.LoadsAs b) (ctx : Nat) (host : HostAperture) :
    loadPlan a ctx host = loadPlan b ctx host := by
  have hsections : firmwareSections.flatMap (sectionScript a) =
      firmwareSections.flatMap (sectionScript b) := by
    rw [List.flatMap_def, List.map_congr_left fun name hname => h.sectionScript_eq hname,
      ← List.flatMap_def]
  have hhandlers : handlerScript a ctx = handlerScript b ctx := by
    unfold handlerScript
    rw [List.flatMap_def, List.map_congr_left fun stage hstage => h.script_eq hstage ctx,
      ← List.flatMap_def]
  have hmemory : memoryScript a ctx host = memoryScript b ctx host := by
    rw [memoryScript, h.handlerAperture_eq, ← memoryScript]
  rw [loadPlan, hsections, hhandlers, hmemory, ← loadPlan]

theorem load_eq (h : a.LoadsAs b) {σ : Type} [Transport σ] (l : Loader) (s : Session σ) (ctx : Nat)
    (host : HostAperture) : l.load s a ctx host = l.load s b ctx host := by
  unfold Loader.load
  rw [h.loadPlan_eq, h.loadedContext_eq]

end FirmwareImage.LoadsAs

end PacketOffload
