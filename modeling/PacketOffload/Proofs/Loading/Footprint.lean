import Mathlib.Data.List.Nodup
import PacketOffload.Proofs.Device.Window
import PacketOffload.Proofs.Loading.Acceptance
import PacketOffload.Proofs.Matching.Contents

/-!
# The footprint of a load

A load that goes through puts a value into each register of a fixed list: the cluster control, the
enable of handler execution, and those registers of its context that describe the handlers and their
memories. The value depends on what was asked for alone, so that nothing of an earlier load is left
in these registers. All other registers are left alone, and loads of different contexts can be made
in any order.

Main statements: the registers after a load (`registers_load`), loads of different contexts in any
order (`registers_runLoads_perm`), and what a load does to the registers (`load_footprint`).
-/

namespace PacketOffload

/-! ## What a load puts into registers -/

/-- The groups whose registers a load writes for its context, in its order. -/
def contextGroups : List RegisterGroup :=
  [.headAddr, .headSize, .packetAddr, .packetSize, .tailAddr, .tailSize,
    .handlerMemAddr, .handlerMemSize, .hostMemAddrHi, .hostMemAddrLo, .hostMemSize,
    .scratchpad0Size, .scratchpad1Size, .contextEnabled]

/-- The registers that a load of a context writes. -/
def LoadWrites (ctx : Nat) (g : RegisterGroup) (index : Nat) : Prop :=
  g = .clusterControl ∧ (index = fetchIndex ∨ index = resetIndex) ∨
    g = .handlerValid ∧ index = 0 ∨ g ∈ contextGroups ∧ index = ctx

instance (ctx : Nat) (g : RegisterGroup) (index : Nat) : Decidable (LoadWrites ctx g index) :=
  inferInstanceAs (Decidable (_ ∨ _ ∨ _))

/-- What a load leaves in the registers that it writes. -/
def HandlerContext.value (c : HandlerContext) : RegisterGroup → (index : Nat) → UInt32
  | .clusterControl, index => if index = fetchIndex then allClusters else 0
  | .handlerValid, _ => 1
  | .contextEnabled, _ => if c.enabled then 1 else 0
  | .headAddr, _ => c.headHandler.addr
  | .headSize, _ => c.headHandler.size
  | .packetAddr, _ => c.packetHandler.addr
  | .packetSize, _ => c.packetHandler.size
  | .tailAddr, _ => c.tailHandler.addr
  | .tailSize, _ => c.tailHandler.size
  | .handlerMemAddr, _ => c.handlerMem.addr
  | .handlerMemSize, _ => c.handlerMem.size
  | .hostMemAddrHi, _ => (c.hostMem.addr >>> 32).toUInt32
  | .hostMemAddrLo, _ => c.hostMem.addr.toUInt32
  | .hostMemSize, _ => c.hostMem.size
  | .scratchpad0Size, _ => c.scratchpadSize
  | .scratchpad1Size, _ => c.scratchpadSize
  | _, _ => 0

/-- The registers after a load that brought a context up. -/
def RegisterFile.loaded (r : RegisterFile) (c : HandlerContext) : RegisterFile :=
  fun g index => if LoadWrites c.ctx g index then c.value g index else r g index

/-- What one load puts into a register that another one writes as well, both put there. -/
theorem HandlerContext.value_eq_of_writes {c d : HandlerContext} (hctx : c.ctx ≠ d.ctx)
    {g : RegisterGroup} {index : Nat} (hc : LoadWrites c.ctx g index)
    (hd : LoadWrites d.ctx g index) : c.value g index = d.value g index := by
  rcases hc with ⟨rfl, -⟩ | ⟨rfl, -⟩ | ⟨hg, rfl⟩
  · rfl
  · rfl
  · rcases hd with ⟨rfl, -⟩ | ⟨rfl, -⟩ | ⟨-, hindex⟩
    · rfl
    · rfl
    · exact absurd hindex hctx

/-- Loads of different contexts can be exchanged. -/
theorem RegisterFile.loaded_comm (r : RegisterFile) {c d : HandlerContext} (hctx : c.ctx ≠ d.ctx) :
    (r.loaded c).loaded d = (r.loaded d).loaded c := by
  funext g index
  unfold loaded
  by_cases hc : LoadWrites c.ctx g index <;> by_cases hd : LoadWrites d.ctx g index
  · rw [if_pos hd, if_pos hc]
    exact (HandlerContext.value_eq_of_writes hctx hc hd).symm
  · rw [if_neg hd, if_pos hc, if_pos hc]
  · rw [if_pos hd, if_neg hc, if_pos hd]
  · rw [if_neg hd, if_neg hc, if_neg hc, if_neg hd]

/-! ## The script of a load -/

/-- Writes the registers that describe a context. -/
def contextScript (c : HandlerContext) : Script :=
  contextGroups.map fun g => .write g c.ctx (c.value g c.ctx)

theorem Script.settle_writes (groups : List RegisterGroup) (index : Nat)
    (value : RegisterGroup → UInt32) (r : RegisterFile) (g : RegisterGroup) (i : Nat) :
    Script.settle (groups.map fun k => .write k index (value k)) r g i =
      if g ∈ groups ∧ i = index then value g else r g i := by
  induction groups generalizing r with
  | nil => simp [settle]
  | cons k rest ih =>
    have hstep : Script.settle ((k :: rest).map fun k => .write k index (value k)) r g i =
        Script.settle (rest.map fun k => .write k index (value k)) (r.set k index (value k)) g i :=
      rfl
    rw [hstep, ih]
    by_cases hg : g = k <;> by_cases hi : i = index <;> simp [RegisterFile.set, hg, hi]

variable {image : FirmwareImage} {ctx : Nat} {host : HostAperture}

/-- The sections go to the memory window, past the registers. -/
theorem settle_sections (names : List String) (r : RegisterFile) :
    Script.settle (names.flatMap (sectionScript image)) r = r := by
  funext g index
  refine Script.settle_of_spared r fun value hm => ?_
  obtain ⟨name, -, hm⟩ := List.mem_flatMap.1 hm
  rcases sectionScript_cases image name with
    ⟨e, -, hs⟩ | ⟨info, -, ⟨e, -, hs⟩ | ⟨bytes, -, ⟨e, -, hs⟩ | ⟨base, -, hs⟩⟩⟩ <;> rw [hs] at hm
  · simp at hm
  · simp at hm
  · simp at hm
  · obtain ⟨place, word, h⟩ := eq_store_of_mem_storeScript hm
    cases h

/-- The steps of a load: a reset, the sections, the description of the context while handler
execution is disabled, and the enable. -/
theorem loadScript_eq {c : HandlerContext} (h : loadedContext image ctx host = .ok c) :
    loadScript image ctx host =
      resetScript ++ (firmwareSections.flatMap (sectionScript image) ++
        ([.write .clusterControl fetchIndex allClusters, .write .handlerValid 0 0] ++
          (contextScript c ++ [.write .handlerValid 0 1]))) := by
  obtain ⟨hhead, hpacket, htail, hmem, hctx, hhost, hpad, hon⟩ := Loader.loadedContext_eq_ok_iff.1 h
  obtain ⟨_, head, packet, tail, mem, _, _, _⟩ := c
  subst hctx hhost hpad hon
  simp only [loadScript, loadPlan, handlerScript, HandlerStage.all, HandlerStage.script,
    memoryScript, hhead, hpacket, htail, hmem, List.flatMap_cons, List.flatMap_nil]
  rfl

theorem settle_contextScript (c : HandlerContext) (r : RegisterFile) (g : RegisterGroup)
    (index : Nat) :
    (contextScript c).settle r g index =
      if g ∈ contextGroups ∧ index = c.ctx then c.value g index else r g index := by
  rw [contextScript, Script.settle_writes]
  by_cases hin : g ∈ contextGroups ∧ index = c.ctx
  · rw [if_pos hin, if_pos hin, hin.2]
  · rw [if_neg hin, if_neg hin]

theorem settle_loadScript {c : HandlerContext} (h : loadedContext image ctx host = .ok c)
    (r : RegisterFile) : (loadScript image ctx host).settle r = r.loaded c := by
  rw [loadScript_eq h]
  simp only [Script.settle_append, settle_sections]
  funext g index
  simp only [resetScript, Script.settle, List.foldl_cons, List.foldl_nil, Step.settle]
  rw [← Script.settle, RegisterFile.set, settle_contextScript]
  unfold RegisterFile.loaded LoadWrites
  -- The control registers are written on the way as well, and not by the context's script.
  by_cases hcontrol : g = .clusterControl
  · subst hcontrol
    by_cases hfetch : index = fetchIndex <;> by_cases hreset : index = resetIndex <;>
      simp [contextGroups, RegisterFile.set, HandlerContext.value, hfetch, hreset]
  · by_cases hvalid : g = .handlerValid
    · subst hvalid
      by_cases hzero : index = 0 <;>
        simp [contextGroups, RegisterFile.set, HandlerContext.value, hzero]
    · simp [hcontrol, hvalid, RegisterFile.set]

/-! ## The registers after a load -/

section Loads

variable {σ : Type} [Transport σ] [RegisterView σ] {l : Loader} {s : Session σ}
  {context : HandlerContext}

/-- A load that goes through leaves what it tells in the registers that it writes. -/
theorem registers_load (h : (l.load s image ctx host).1 = .ok context) :
    (l.load s image ctx host).2.2.registers = s.registers.loaded context := by
  obtain ⟨hperformed, hsession, hcontext⟩ := Loader.performed_of_load h
  rw [hsession, Session.registers_of_performed hperformed, settle_loadScript hcontext]

end Loads

/-! ## Loads in any order -/

/-- What a load is asked for. -/
structure LoadRequest where
  image : FirmwareImage
  ctx : Nat
  host : HostAperture

def LoadRequest.call (q : LoadRequest) : LoaderCall := .load q.image q.ctx q.host

namespace Host

variable {σ : Type} [Transport σ] {h : Host σ}

theorem AllDone.exists_call {calls : List LoaderCall} (hd : h.AllDone calls) {c : LoaderCall}
    (hc : c ∈ calls) : ∃ (k : Host σ) (answer : Answer), (k.call c).1 = .ok answer := by
  induction calls generalizing h with
  | nil => cases hc
  | cons first rest ih =>
    obtain ⟨⟨answer, hfirst⟩, hrest⟩ := hd
    rcases List.mem_cons.1 hc with rfl | hc
    · exact ⟨h, answer, hfirst⟩
    · exact ih hrest hc

theorem exists_context_of_answer {q : LoadRequest} {answer : Answer}
    (hc : (h.call q.call).1 = .ok answer) :
    ∃ context, (h.loader.load h.session q.image q.ctx q.host).1 = .ok context := by
  cases hload : (h.loader.load h.session q.image q.ctx q.host).1 with
  | ok context => exact ⟨context, rfl⟩
  | error e =>
    simp only [LoadRequest.call, call, hload] at hc
    cases hc

/-- The script of a load that went through anywhere puts the same values everywhere. -/
theorem exists_loaded_of_answer {q : LoadRequest} {answer : Answer}
    (hc : (h.call q.call).1 = .ok answer) :
    ∃ context : HandlerContext, context.ctx = q.ctx ∧
      ∀ r : RegisterFile, q.call.script.settle r = r.loaded context := by
  obtain ⟨context, hload⟩ := exists_context_of_answer hc
  obtain ⟨-, -, hcontext⟩ := Loader.performed_of_load hload
  obtain ⟨-, -, -, -, hctx, -⟩ := Loader.loadedContext_eq_ok_iff.1 hcontext
  refine ⟨context, hctx, fun r => ?_⟩
  rw [LoadRequest.call, LoaderCall.script_load q.image (Loader.ctx_lt_of_load hload) q.host,
    settle_loadScript hcontext]

theorem registers_runCalls [RegisterView σ] {calls : List LoaderCall} (hd : h.AllDone calls) :
    (h.runCalls calls).session.registers =
      calls.foldl (fun r c => c.script.settle r) h.session.registers := by
  induction calls generalizing h with
  | nil => rfl
  | cons c rest ih =>
    obtain ⟨⟨answer, hc⟩, hrest⟩ := hd
    rw [runCalls_cons, List.foldl_cons, ih hrest, registers_call hc]

/-- Loads of different contexts leave the same registers in whatever order they are made. -/
theorem registers_runLoads_perm [RegisterView σ] {requests others : List LoadRequest}
    (hperm : requests.Perm others) (hctx : (requests.map LoadRequest.ctx).Nodup)
    (hd : h.AllDone (requests.map LoadRequest.call))
    (hothers : h.AllDone (others.map LoadRequest.call)) :
    (h.runCalls (requests.map LoadRequest.call)).session.registers =
      (h.runCalls (others.map LoadRequest.call)).session.registers := by
  rw [registers_runCalls hd, registers_runCalls hothers, List.foldl_map, List.foldl_map]
  refine hperm.foldl_eq' (fun p hp q hq r => ?_) _
  by_cases hsame : p.ctx = q.ctx
  · rw [List.inj_on_of_nodup_map hctx hp hq hsame]
  · obtain ⟨k, answer, hk⟩ := hd.exists_call (List.mem_map_of_mem hp)
    obtain ⟨m, reply, hm⟩ := hd.exists_call (List.mem_map_of_mem hq)
    obtain ⟨c, hcp, hcset⟩ := exists_loaded_of_answer hk
    obtain ⟨d, hdq, hdset⟩ := exists_loaded_of_answer hm
    have hne : c.ctx ≠ d.ctx := by
      rw [hcp, hdq]
      exact hsame
    rw [hcset, hdset, hdset, hcset]
    exact r.loaded_comm hne

theorem reliable_call (hd : Reliable h.session.device) (c : LoaderCall) :
    Reliable (h.call c).2.session.device := by
  rw [session_call]
  exact (Session.perform_of_admitted hd (c.admitted_script h.session.gates)).2

/-- On a reliable device loads go through exactly if each of them can. -/
theorem allDone_loads_iff (hd : Reliable h.session.device) {requests : List LoadRequest} :
    h.AllDone (requests.map LoadRequest.call) ↔
      ∀ q ∈ requests, q.ctx < numContexts ∧ q.image.Loadable := by
  induction requests generalizing h with
  | nil => simp [AllDone]
  | cons q rest ih =>
    rw [List.map_cons, AllDone, ih (reliable_call hd q.call), List.forall_mem_cons]
    refine and_congr_left' ⟨?_, ?_⟩
    · rintro ⟨answer, hc⟩
      obtain ⟨context, hload⟩ := exists_context_of_answer hc
      have hctx := Loader.ctx_lt_of_load hload
      exact ⟨hctx, h.loader.loadable_of_load hctx hload⟩
    · rintro ⟨hctx, hloadable⟩
      obtain ⟨context, hload⟩ :=
        (h.loader.load_eq_ok_iff_loadable hd q.image hctx q.host).2 hloadable
      exact ⟨.loaded context, by simp [LoadRequest.call, call, hload, Except.map]⟩

end Host

/-! ## What a load does to the registers -/

namespace RegisterFile

theorem loaded_of_writes (r : RegisterFile) {c : HandlerContext} {g : RegisterGroup} {index : Nat}
    (h : LoadWrites c.ctx g index) : r.loaded c g index = c.value g index := if_pos h

theorem loaded_of_not_writes (r : RegisterFile) {c : HandlerContext} {g : RegisterGroup}
    {index : Nat} (h : ¬ LoadWrites c.ctx g index) : r.loaded c g index = r g index := if_neg h

/-- The aperture that two groups of registers hold for a context. -/
def aperture (r : RegisterFile) (addr size : RegisterGroup) (ctx : Nat) : Aperture :=
  ⟨r addr ctx, r size ctx⟩

/-- The registers show that a context was brought up. -/
structure Shows (r : RegisterFile) (c : HandlerContext) : Prop where
  fetch : r .clusterControl fetchIndex = 3
  outOfReset : r .clusterControl resetIndex = 0
  valid : r .handlerValid 0 = 1
  enabled : r .contextEnabled c.ctx = if c.enabled then 1 else 0
  head : r.aperture .headAddr .headSize c.ctx = c.headHandler
  packet : r.aperture .packetAddr .packetSize c.ctx = c.packetHandler
  tail : r.aperture .tailAddr .tailSize c.ctx = c.tailHandler
  handlerMem : r.aperture .handlerMemAddr .handlerMemSize c.ctx = c.handlerMem
  /-- The address of the host memory is in two registers. -/
  hostAddr : (r .hostMemAddrHi c.ctx).toNat * UInt32.size + (r .hostMemAddrLo c.ctx).toNat =
    c.hostMem.addr.toNat
  hostSize : r .hostMemSize c.ctx = c.hostMem.size
  firstScratchpad : r .scratchpad0Size c.ctx = c.scratchpadSize
  secondScratchpad : r .scratchpad1Size c.ctx = c.scratchpadSize

theorem shows_loaded (r : RegisterFile) (c : HandlerContext) : (r.loaded c).Shows c := by
  have hcontext : ∀ g ∈ contextGroups, r.loaded c g c.ctx = c.value g c.ctx := by
    intro g hg
    exact r.loaded_of_writes (Or.inr (Or.inr ⟨hg, rfl⟩))
  have haperture : ∀ addr ∈ contextGroups, ∀ size ∈ contextGroups,
      (r.loaded c).aperture addr size c.ctx = ⟨c.value addr c.ctx, c.value size c.ctx⟩ := by
    intro addr haddr size hsize
    rw [aperture, hcontext addr haddr, hcontext size hsize]
  constructor
  · exact r.loaded_of_writes (Or.inl ⟨rfl, Or.inl rfl⟩)
  · exact r.loaded_of_writes (Or.inl ⟨rfl, Or.inr rfl⟩)
  · exact r.loaded_of_writes (Or.inr (Or.inl ⟨rfl, rfl⟩))
  · exact hcontext .contextEnabled (by decide)
  · exact haperture .headAddr (by decide) .headSize (by decide)
  · exact haperture .packetAddr (by decide) .packetSize (by decide)
  · exact haperture .tailAddr (by decide) .tailSize (by decide)
  · exact haperture .handlerMemAddr (by decide) .handlerMemSize (by decide)
  · rw [hcontext .hostMemAddrHi (by decide), hcontext .hostMemAddrLo (by decide)]
    have haddr := c.hostMem.addr.toNat_lt
    have hshift : (32 : UInt64).toNat % 64 = 32 := rfl
    simp only [HandlerContext.value, UInt64.toNat_toUInt32, UInt64.toNat_shiftRight, hshift,
      Nat.shiftRight_eq_div_pow, UInt32.size]
    omega
  · exact hcontext .hostMemSize (by decide)
  · exact hcontext .scratchpad0Size (by decide)
  · exact hcontext .scratchpad1Size (by decide)

end RegisterFile

/-- The aperture of a stage: 4096 bytes from the handler on, and nothing without a handler. -/
structure FirmwareImage.Stage (image : FirmwareImage) (symbol : String) (a : Aperture) : Prop where
  found : ∃ found, image.symbolAddress symbol = .ok found
  defined : ∀ addr, image.symbolAddress symbol = .ok (some addr) → a = ⟨addr, 4096⟩
  missing : image.symbolAddress symbol = .ok none → a = ⟨0, 0⟩

theorem HandlerStage.stage_of_aperture {stage : HandlerStage} {image : FirmwareImage} {a : Aperture}
    (h : stage.aperture image = .ok a) : image.Stage stage.symbol a := by
  refine ⟨aperture_eq_ok_iff.1 ⟨a, h⟩, ?_, ?_⟩
  · intro addr hsymbol
    rw [aperture, hsymbol] at h
    exact (Except.ok.inj h).symm
  · intro hsymbol
    rw [aperture, hsymbol] at h
    exact (Except.ok.inj h).symm

/-- A context is what a load was asked for. -/
structure HandlerContext.Describes (c : HandlerContext) (image : FirmwareImage) (ctx : Nat)
    (host : HostAperture) : Prop where
  ctx : c.ctx = ctx
  enabled : c.enabled = true
  head : image.Stage "_hh" c.headHandler
  packet : image.Stage "_ph" c.packetHandler
  tail : image.Stage "_th" c.tailHandler
  handlerMem : ∃ info, image.sectionInfo ".l2_handler_data" = .ok info ∧
    info.addr.toNat ≤ l2End ∧
    c.handlerMem.addr.toNat = (info.addr.toNat + info.size.toNat) % UInt32.size ∧
    c.handlerMem.size.toNat = l2End - info.addr.toNat
  hostMem : c.hostMem = host
  scratchpads : c.scratchpadSize = 4096

theorem dataAperture_eq_ok {info : SectionInfo} {a : Aperture} (h : dataAperture info = .ok a) :
    info.addr.toNat ≤ l2End ∧ a.addr.toNat = (info.addr.toNat + info.size.toNat) % UInt32.size ∧
      a.size.toNat = l2End - info.addr.toNat := by
  unfold dataAperture at h
  by_cases hend : info.addr.toNat ≤ l2End
  · rw [if_pos hend] at h
    obtain rfl := Except.ok.inj h
    refine ⟨hend, UInt32.toNat_add _ _, ?_⟩
    have hsmall : l2End < UInt32.size := by decide
    rw [UInt32.toNat_ofNat', Nat.mod_eq_of_lt]
    exact Nat.lt_of_le_of_lt (Nat.sub_le _ _) hsmall
  · rw [if_neg hend] at h
    cases h

theorem handlerAperture_eq_ok {image : FirmwareImage} {a : Aperture}
    (h : handlerAperture image = .ok a) :
    ∃ info, image.sectionInfo handlerDataSection = .ok info ∧ dataAperture info = .ok a := by
  unfold handlerAperture at h
  cases hinfo : image.sectionInfo handlerDataSection with
  | error e =>
    rw [hinfo] at h
    cases h
  | ok info =>
    rw [hinfo] at h
    exact ⟨info, rfl, h⟩

theorem describes_of_loadedContext {image : FirmwareImage} {ctx : Nat} {host : HostAperture}
    {c : HandlerContext} (h : loadedContext image ctx host = .ok c) :
    c.Describes image ctx host := by
  obtain ⟨hhead, hpacket, htail, hmem, hctx, hhost, hpad, hon⟩ := Loader.loadedContext_eq_ok_iff.1 h
  obtain ⟨info, hinfo, hdata⟩ := handlerAperture_eq_ok hmem
  exact ⟨hctx, hon, HandlerStage.stage_of_aperture hhead, HandlerStage.stage_of_aperture hpacket,
    HandlerStage.stage_of_aperture htail, ⟨info, hinfo, dataAperture_eq_ok hdata⟩, hhost, hpad⟩

theorem RegisterGroup.not_loadWrites_of_matching {g : RegisterGroup}
    (hg : g = .matchValid ∨ g.isMatchConfig = true) (ctx index : Nat) :
    ¬ LoadWrites ctx g index := by
  have hother : ∀ g : RegisterGroup, g = .matchValid ∨ g.isMatchConfig = true →
      g ≠ .clusterControl ∧ g ≠ .handlerValid ∧ g ∉ contextGroups := by decide
  obtain ⟨hcontrol, hvalid, hcontext⟩ := hother g hg
  rintro (⟨h, -⟩ | ⟨h, -⟩ | ⟨h, -⟩)
  · exact hcontrol h
  · exact hvalid h
  · exact hcontext h

theorem RegisterGroup.not_loadWrites_of_ne {g : RegisterGroup} (hg : g.isHandlerConfig = true)
    {ctx other : Nat} (hne : other ≠ ctx) : ¬ LoadWrites ctx g other := by
  rintro (⟨rfl, -⟩ | ⟨rfl, -⟩ | ⟨-, h⟩)
  · cases hg
  · cases hg
  · exact hne h

section Footprint

variable {σ : Type} [Transport σ] [RegisterView σ]

/-- **What a load does to the registers.** On any device, in whatever state it is: a load that goes
through tells of the context what was asked for, and the registers show this context. Each stage has
its handler, or none if the image defines none, whatever an earlier load left there. No register is
touched but those that `LoadWrites` names, so none of the matching engine and none that describes
another context. Of two loads of different contexts that go through in both orders the registers do
not tell which came first, and on a reliable device they go through in both orders or in none. -/
theorem load_footprint (l : Loader) (s : Session σ) (image : FirmwareImage) (ctx : Nat)
    (host : HostAperture) (context : HandlerContext)
    (h : (l.load s image ctx host).1 = .ok context) :
    let after := (l.load s image ctx host).2.2.registers
    context.Describes image ctx host ∧ after.Shows context ∧
      (∀ g index, ¬ LoadWrites ctx g index → after g index = s.registers g index) ∧
      (∀ g index, g = .matchValid ∨ g.isMatchConfig = true →
        after g index = s.registers g index) ∧
      (∀ g other, g.isHandlerConfig = true → other ≠ ctx →
        after g other = s.registers g other) ∧
      ∀ other : LoadRequest, other.ctx ≠ ctx →
        let both : Host σ := ⟨s, l⟩
        let load := LoaderCall.load image ctx host
        both.AllDone [load, other.call] →
          (both.AllDone [other.call, load] →
            (both.runCalls [load, other.call]).session.registers =
              (both.runCalls [other.call, load]).session.registers) ∧
          (Reliable s.device → both.AllDone [other.call, load]) := by
  intro after
  have hafter : after = s.registers.loaded context := registers_load h
  obtain ⟨-, -, hcontext⟩ := Loader.performed_of_load h
  have hdescribes : context.Describes image ctx host := describes_of_loadedContext hcontext
  have hframe : ∀ g index, ¬ LoadWrites ctx g index → after g index = s.registers g index := by
    intro g index hspared
    rw [← hdescribes.ctx] at hspared
    rw [hafter, s.registers.loaded_of_not_writes hspared]
  refine ⟨hdescribes, ?_, hframe, ?_, ?_, ?_⟩
  · rw [hafter]
    exact s.registers.shows_loaded context
  · intro g index hg
    exact hframe g index (RegisterGroup.not_loadWrites_of_matching hg ctx index)
  · intro g other hg hne
    exact hframe g other (RegisterGroup.not_loadWrites_of_ne hg hne)
  · intro other hne both load hboth
    let first : LoadRequest := ⟨image, ctx, host⟩
    have hswap : [first, other].Perm [other, first] := List.Perm.swap other first []
    have hloads : both.AllDone ([first, other].map LoadRequest.call) := hboth
    refine ⟨fun hreversed => ?_, fun hd => ?_⟩
    · exact Host.registers_runLoads_perm hswap (by simpa [first] using Ne.symm hne) hloads hreversed
    · have hall := (Host.allDone_loads_iff hd).1 hloads
      have hreversed : both.AllDone ([other, first].map LoadRequest.call) := by
        refine (Host.allDone_loads_iff hd).2 fun q hq => ?_
        exact hall q (hswap.mem_iff.2 hq)
      exact hreversed

end Footprint

/-- The small image with handlers for all stages. -/
def stagedImage : FirmwareImage :=
  { smallImage with
    symbolAddress := fun name => .ok ([("_hh", 0x1d000100), ("_ph", 0x1d000104),
      ("_th", 0x1d000108)].lookup name) }

theorem loadable_stagedImage : stagedImage.Loadable :=
  ⟨loadable_smallImage.fits, fun _ _ => ⟨_, rfl⟩, loadable_smallImage.dataInL2⟩

/-- A second load without handlers clears the stages of the first, and leaves the other contexts. -/
theorem load_footprint_again :
    let host : HostAperture := ⟨0x123456000, 65536⟩
    ∃ (c d : HandlerContext) (l : Loader) (t : Session Simulator),
      Loader.fresh.load (lockedSession Simulator.powerOn) stagedImage 1 host = (.ok c, l, t) ∧
      (l.load t smallImage 1 host).1 = .ok d ∧
      t.registers.aperture .packetAddr .packetSize 1 = ⟨0x1d000104, 4096⟩ ∧
      (l.load t smallImage 1 host).2.2.registers.aperture .packetAddr .packetSize 1 = ⟨0, 0⟩ ∧
      (l.load t smallImage 1 host).2.2.registers .hostMemSize 1 = 65536 ∧
      (l.load t smallImage 1 host).2.2.registers .hostMemSize 3 = 0 := by
  intro host
  have hctx : 1 < numContexts := by decide
  have hd : Reliable (lockedSession Simulator.powerOn).device := Simulator.reliable rfl
  have ht : Reliable (Loader.fresh.load (lockedSession Simulator.powerOn) stagedImage 1
      host).2.2.device :=
    Host.reliable_call (h := Host.of (lockedSession Simulator.powerOn)) hd
      (.load stagedImage 1 host)
  obtain ⟨c, hc⟩ := (Loader.fresh.load_eq_ok_iff_loadable hd stagedImage hctx host).2
    loadable_stagedImage
  obtain ⟨hstaged, hshown, hspared, -⟩ := load_footprint _ _ stagedImage 1 host c hc
  have hpacket := hshown.packet
  have hother : ¬ LoadWrites 1 .hostMemSize 3 := by decide
  have hfirst := hspared .hostMemSize 3 hother
  rw [hstaged.ctx, hstaged.packet.defined 0x1d000104 (by decide)] at hpacket
  revert ht hc hpacket hfirst
  rcases Loader.fresh.load (lockedSession Simulator.powerOn) stagedImage 1 host with ⟨r, l, t⟩
  rintro ht rfl hpacket hfirst
  obtain ⟨d, hload⟩ := (l.load_eq_ok_iff_loadable ht smallImage hctx host).2 loadable_smallImage
  obtain ⟨hsmall, hagain, hkept, -⟩ := load_footprint l t smallImage 1 host d hload
  have hcleared := hagain.packet
  have hsize := hagain.hostSize
  rw [hsmall.ctx, hsmall.packet.missing rfl] at hcleared
  rw [hsmall.ctx, hsmall.hostMem] at hsize
  exact ⟨c, d, l, t, rfl, hload, hpacket, hcleared, hsize,
    (hkept .hostMemSize 3 hother).trans hfirst⟩

end PacketOffload
