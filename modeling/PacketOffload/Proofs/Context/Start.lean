import PacketOffload.Context
import PacketOffload.Proofs.Device.Moments
import PacketOffload.Proofs.Loading.Recovery
import PacketOffload.Proofs.Ring.Attaching

/-!
# Starts that fail

The start of a context goes through the region, the buffer, the load, the slots of the matching
engine and the words for responses, and can stop at each of them. What stops it before the load
leaves the device as it is. What stops it later is answered by an unload, whose own failure is
reported and does not hide the fault that came first.

Main statements: an unload after a failed start goes through as far as its writes do
(`Context.cleanUp_eq`), and the fault, the device and the notices that every start ends with
(`start_accounts_for_faults`).
-/

namespace PacketOffload

/-! ## What scripts leave alone -/

namespace Session

variable {σ : Type} [Transport σ]

/-- Two sessions of the same context that reported the same. -/
def SameContext (s t : Session σ) : Prop := t.contextId = s.contextId ∧ t.notices = s.notices

omit [Transport σ] in
theorem SameContext.trans {s t u : Session σ} (h : s.SameContext t) (h' : t.SameContext u) :
    s.SameContext u := ⟨h'.1.trans h.1, h'.2.trans h.2⟩

theorem sameContext_perform (s : Session σ) (script : Script) :
    s.SameContext (s.perform script).2 := by
  refine perform_keeps (P := s.SameContext) ?_ ?_ script ⟨rfl, rfl⟩
  · intro t g index value ht
    unfold write
    split
    · exact ht
    · split <;> exact ht
  · intro t offset word ht
    unfold writeMemory
    split <;> exact ht

theorem sameContext_of_load {l l' : Loader} {s t : Session σ} {image : FirmwareImage} {ctx : Nat}
    {host : HostAperture} {r : Except Fault HandlerContext}
    (h : l.load s image ctx host = (r, l', t)) : s.SameContext t := by
  have hcall : (l.load s image ctx host).2.2 =
      (s.perform (LoaderCall.load image ctx host).script).2 :=
    Host.session_call ⟨s, l⟩ (.load image ctx host)
  rw [h] at hcall
  obtain rfl : t = _ := hcall
  exact sameContext_perform s _

theorem sameContext_of_programRuleSets {s t : Session σ} {sets : List RuleSet}
    {r : Except Fault Unit} (h : Loader.programRuleSets s sets = (r, t)) : s.SameContext t := by
  have hcall : (Loader.programRuleSets s sets).2 =
      (s.perform (LoaderCall.program sets).script).2 :=
    Host.session_call ⟨s, .fresh⟩ (.program sets)
  rw [h] at hcall
  obtain rfl : t = _ := hcall
  exact sameContext_perform s _

end Session

namespace Context

/-! ## Where a start stops -/

section Steps

variable {σ : Type} [Transport σ] {s t u : Session σ} {image : FirmwareImage}
  {sets : List RuleSet} {pages : Nat} {region : DmaRegion} {l : Loader} {e : Fault}

/-- Why a start stops before anything is done to the device. -/
inductive Refused (s : Session σ) (pages : Nat) : Fault → Prop
  | query {e : Fault} (hr : Transport.region s.device s.contextId = .error e) : Refused s pages e
  | disabled {region : DmaRegion} (hr : Transport.region s.device s.contextId = .ok region)
      (hoff : region.enabled = false) : Refused s pages (.regionDisabled s.contextId)
  | mapping {region : DmaRegion} {e : Fault}
      (hr : Transport.region s.device s.contextId = .ok region) (hon : region.enabled = true)
      (hm : (s.mapBuffer pages).1 = .error e) : Refused s pages e

/-- The region of the context is known and its buffer is mapped. -/
structure Prepared (s : Session σ) (pages : Nat) (region : DmaRegion) (t : Session σ) : Prop where
  query : Transport.region s.device s.contextId = .ok region
  enabled : region.enabled = true
  mapped : ∃ buffer, (s.mapBuffer pages).1 = .ok buffer ∧
    t = { s with region := some region, buffer := some buffer }

/-- Where a start stops that is prepared, and the loader and the session at that moment. -/
inductive Stopped (t : Session σ) (image : FirmwareImage) (sets : List RuleSet)
    (region : DmaRegion) : Fault → Loader → Session σ → Prop
  | oversized (hsize : UInt32.size ≤ region.size.toNat) :
      Stopped t image sets region (.invalidArgument (.regionSize region.size)) .fresh t
  | load {host : HostAperture} {e : Fault} {l : Loader} {u : Session σ}
      (hhost : HostAperture.ofRegion region = .ok host)
      (hload : Loader.fresh.load t image t.contextId host = (.error e, l, u)) :
      Stopped t image sets region e l u
  | ruleSets {host : HostAperture} {handlers : HandlerContext} {e : Fault} {l : Loader}
      {u v : Session σ} (hhost : HostAperture.ofRegion region = .ok host)
      (hload : Loader.fresh.load t image t.contextId host = (.ok handlers, l, u))
      (hsets : Loader.programRuleSets u sets = (.error e, v)) :
      Stopped t image sets region e l v
  | symbol {host : HostAperture} {handlers : HandlerContext} {e : Fault} {l : Loader}
      {u v : Session σ} (hhost : HostAperture.ofRegion region = .ok host)
      (hload : Loader.fresh.load t image t.contextId host = (.ok handlers, l, u))
      (hsets : Loader.programRuleSets u sets = (.ok (), v))
      (hflags : image.symbolAddress hostDataSymbol = .error e) :
      Stopped t image sets region e l v
  | noHostFlags {host : HostAperture} {handlers : HandlerContext} {l : Loader} {u v : Session σ}
      (hhost : HostAperture.ofRegion region = .ok host)
      (hload : Loader.fresh.load t image t.contextId host = (.ok handlers, l, u))
      (hsets : Loader.programRuleSets u sets = (.ok (), v))
      (hflags : image.symbolAddress hostDataSymbol = .ok none) :
      Stopped t image sets region (.missingSymbol hostDataSymbol) l v
  | lowHostFlags {host : HostAperture} {handlers : HandlerContext} {addr : UInt32} {l : Loader}
      {u v : Session σ} (hhost : HostAperture.ofRegion region = .ok host)
      (hload : Loader.fresh.load t image t.contextId host = (.ok handlers, l, u))
      (hsets : Loader.programRuleSets u sets = (.ok (), v))
      (hflags : image.symbolAddress hostDataSymbol = .ok (some addr)) (hlow : addr.toNat < l2Base) :
      Stopped t image sets region (.invalidImage (.flagsBelowL2 addr)) l v

theorem Stopped.sameContext (h : Stopped t image sets region e l u) : t.SameContext u := by
  cases h with
  | oversized hsize => exact ⟨rfl, rfl⟩
  | load hhost hload => exact Session.sameContext_of_load hload
  | ruleSets hhost hload hsets | symbol hhost hload hsets _ | noHostFlags hhost hload hsets _
  | lowHostFlags hhost hload hsets _ _ =>
    exact (Session.sameContext_of_load hload).trans (Session.sameContext_of_programRuleSets hsets)

theorem findHostFlags_eq_error_iff :
    findHostFlags image = .error e ↔
      image.symbolAddress hostDataSymbol = .error e ∨
        (image.symbolAddress hostDataSymbol = .ok none ∧ e = .missingSymbol hostDataSymbol) ∨
        ∃ addr, image.symbolAddress hostDataSymbol = .ok (some addr) ∧ addr.toNat < l2Base ∧
          e = .invalidImage (.flagsBelowL2 addr) := by
  unfold findHostFlags
  rcases image.symbolAddress hostDataSymbol with f | ⟨⟩ | addr
  · simp
  · simp [eq_comm]
  · by_cases hle : l2Base ≤ addr.toNat
    · simp [hle, Nat.not_lt.2 hle]
    · simp [hle, Nat.lt_of_not_le hle, eq_comm]

theorem ofRegion_eq_error_iff :
    HostAperture.ofRegion region = .error e ↔
      UInt32.size ≤ region.size.toNat ∧ e = .invalidArgument (.regionSize region.size) := by
  unfold HostAperture.ofRegion
  by_cases hlt : region.size.toNat < UInt32.size
  · simp [hlt, Nat.not_le.2 hlt]
  · simp [hlt, Nat.le_of_not_lt hlt, eq_comm]

/-- A start that is prepared fails where it stops, and only there. -/
theorem bringUp_eq_error_iff :
    bringUp t image sets region = (.error e, l, u) ↔ Stopped t image sets region e l u := by
  constructor
  · intro h
    unfold bringUp at h
    cases hhost : HostAperture.ofRegion region with
    | error f =>
      simp only [hhost, Prod.mk.injEq, Except.error.injEq] at h
      obtain ⟨rfl, rfl, rfl⟩ := h
      obtain ⟨hsize, rfl⟩ := ofRegion_eq_error_iff.1 hhost
      exact .oversized hsize
    | ok host =>
      simp only [hhost] at h
      rcases hload : Loader.fresh.load t image t.contextId host with ⟨⟨f⟩ | ⟨handlers⟩, l', u'⟩
      · simp only [hload, Prod.mk.injEq, Except.error.injEq] at h
        obtain ⟨rfl, rfl, rfl⟩ := h
        exact .load hhost hload
      · simp only [hload] at h
        rcases hsets : Loader.programRuleSets u' sets with ⟨⟨f⟩ | ⟨⟨⟩⟩, v⟩
        · simp only [hsets, Prod.mk.injEq, Except.error.injEq] at h
          obtain ⟨rfl, rfl, rfl⟩ := h
          exact .ruleSets hhost hload hsets
        · simp only [hsets, Prod.mk.injEq] at h
          obtain ⟨hflags, rfl, rfl⟩ := h
          cases hf : findHostFlags image with
          | ok base =>
            rw [hf] at hflags
            cases hflags
          | error f =>
            rw [hf] at hflags
            obtain rfl := Except.error.inj hflags
            rcases findHostFlags_eq_error_iff.1 hf with hsymbol | ⟨hnone, rfl⟩ |
              ⟨addr, haddr, hlow, rfl⟩
            · exact .symbol hhost hload hsets hsymbol
            · exact .noHostFlags hhost hload hsets hnone
            · exact .lowHostFlags hhost hload hsets haddr hlow
  · rintro (hsize | ⟨hhost, hload⟩ | ⟨hhost, hload, hsets⟩ | ⟨hhost, hload, hsets, hflags⟩ |
      ⟨hhost, hload, hsets, hflags⟩ | ⟨hhost, hload, hsets, hflags, hlow⟩)
    · simp only [bringUp, ofRegion_eq_error_iff.2 ⟨hsize, rfl⟩]
    · simp only [bringUp, hhost, hload]
    · simp only [bringUp, hhost, hload, hsets]
    · have hf := findHostFlags_eq_error_iff.2 (Or.inl hflags)
      simp only [bringUp, hhost, hload, hsets, hf]
      rfl
    · have hf := findHostFlags_eq_error_iff.2 (Or.inr (Or.inl ⟨hflags, rfl⟩))
      simp only [bringUp, hhost, hload, hsets, hf]
      rfl
    · have hf := findHostFlags_eq_error_iff.2 (Or.inr (Or.inr ⟨_, hflags, hlow, rfl⟩))
      simp only [bringUp, hhost, hload, hsets, hf]
      rfl

/-- What a start that is prepared and does not stop goes through. -/
theorem steps_of_bringUp {handlers : HandlerContext} {base : Nat}
    (h : bringUp t image sets region = (.ok (handlers, base), l, u)) :
    ∃ host v, Loader.fresh.load t image t.contextId host = (.ok handlers, l, v) ∧
      Loader.programRuleSets v sets = (.ok (), u) ∧ findHostFlags image = .ok base := by
  unfold bringUp at h
  cases hhost : HostAperture.ofRegion region with
  | error f => simp [hhost] at h
  | ok host =>
    simp only [hhost] at h
    rcases hload : Loader.fresh.load t image t.contextId host with ⟨⟨f⟩ | ⟨loaded⟩, l', u'⟩
    · simp [hload] at h
    · simp only [hload] at h
      rcases hsets : Loader.programRuleSets u' sets with ⟨⟨f⟩ | ⟨⟨⟩⟩, v⟩
      · simp [hsets] at h
      · simp only [hsets, Prod.mk.injEq] at h
        obtain ⟨hflags, rfl, rfl⟩ := h
        cases hf : findHostFlags image with
        | error f => simp [hf, Except.map] at hflags
        | ok found =>
          simp only [hf, Except.map, Except.ok.injEq, Prod.mk.injEq] at hflags
          obtain ⟨rfl, rfl⟩ := hflags
          exact ⟨host, u', hload, hsets, rfl⟩

/-! ## The whole of a start -/

theorem mapBuffer_of_ok {buffer : DmaBuffer} (h : (s.mapBuffer pages).1 = .ok buffer)
    (region : Option DmaRegion) :
    { s with region }.mapBuffer pages = (.ok buffer, { s with region, buffer := some buffer }) := by
  unfold Session.mapBuffer at h ⊢
  cases hp : Session.bufferPlace s.contextId pages with
  | error f => simp [hp] at h
  | ok place =>
    cases hm : DmaBuffer.map s.device place.1 place.2 with
    | error f => simp [hp, hm] at h
    | ok mapped =>
      simp only [hp, hm, Except.ok.injEq] at h
      simp [hm, h]

/-- A buffer that cannot be mapped leaves the device, the context and the notices as they are. -/
theorem mapBuffer_of_error (h : (s.mapBuffer pages).1 = .error e) (region : Option DmaRegion) :
    ∃ t, { s with region }.mapBuffer pages = (.error e, t) ∧ t.device = s.device ∧
      s.SameContext t := by
  unfold Session.mapBuffer at h ⊢
  cases hp : Session.bufferPlace s.contextId pages with
  | error f =>
    simp only [hp, Except.error.injEq] at h
    exact ⟨{ s with region }, by simp [h], rfl, rfl, rfl⟩
  | ok place =>
    cases hm : DmaBuffer.map s.device place.1 place.2 with
    | error f =>
      simp only [hp, hm, Except.error.injEq] at h
      exact ⟨{ s with region, buffer := none }, by simp [hm, h], rfl, rfl, rfl⟩
    | ok mapped => simp [hp, hm] at h

theorem queryRegion_of_enabled (h : Transport.region s.device s.contextId = .ok region)
    (hon : region.enabled = true) :
    s.queryRegion s.contextId = (.ok region, { s with region := some region }) := by
  simp [Session.queryRegion, h, hon]

theorem start_of_refused (h : Refused s pages e) (image : FirmwareImage) (sets : List RuleSet) :
    ∃ t, start s image sets pages = .error (e, t) ∧ t.device = s.device ∧ s.SameContext t := by
  cases h with
  | query hr => exact ⟨s, by simp [start, Session.queryRegion, hr], rfl, rfl, rfl⟩
  | disabled hr hoff => exact ⟨s, by simp [start, Session.queryRegion, hr, hoff], rfl, rfl, rfl⟩
  | @mapping region f hr hon hm =>
    obtain ⟨t, ht, hdevice, hsame⟩ := mapBuffer_of_error hm (some region)
    exact ⟨t, by simp only [start, queryRegion_of_enabled hr hon, ht], hdevice, hsame⟩

theorem start_of_prepared (h : Prepared s pages region t) (image : FirmwareImage)
    (sets : List RuleSet) :
    start s image sets pages =
      match bringUp t image sets region with
      | (.ok (handlers, hostFlagBase), loader, session) =>
        .ok { session, loader, handlers, hostFlagBase }
      | (.error e, loader, s) => .error (e, cleanUp loader s) := by
  obtain ⟨buffer, hm, rfl⟩ := h.mapped
  rcases hup : bringUp { s with region := some region, buffer := some buffer } image sets region with
    ⟨⟨f⟩ | ⟨handlers, base⟩, l, u⟩ <;>
  simp only [start, queryRegion_of_enabled h.query h.enabled, mapBuffer_of_ok hm, hup]

theorem refused_or_prepared (s : Session σ) (pages : Nat) :
    (∃ e, Refused s pages e) ∨ ∃ region t, Prepared s pages region t := by
  cases hr : Transport.region s.device s.contextId with
  | error e => exact Or.inl ⟨e, .query hr⟩
  | ok region =>
    cases hon : region.enabled with
    | false => exact Or.inl ⟨_, .disabled hr hon⟩
    | true =>
      cases hm : (s.mapBuffer pages).1 with
      | error e => exact Or.inl ⟨e, .mapping hr hon hm⟩
      | ok buffer => exact Or.inr ⟨region, _, hr, hon, buffer, hm, rfl⟩

theorem Prepared.sameContext (h : Prepared s pages region t) : s.SameContext t := by
  obtain ⟨buffer, -, rfl⟩ := h.mapped
  exact ⟨rfl, rfl⟩

/-- A start that succeeds is prepared and does not stop. -/
theorem bringUp_of_started {c : Context σ} (h : start s image sets pages = .ok c) :
    ∃ region t, Prepared s pages region t ∧
      bringUp t image sets region = (.ok (c.handlers, c.hostFlagBase), c.loader, c.session) := by
  rcases refused_or_prepared s pages with ⟨f, hf⟩ | ⟨region, t, ht⟩
  · obtain ⟨u, hstart, -, -⟩ := start_of_refused hf image sets
    cases hstart.symm.trans h
  · rw [start_of_prepared ht] at h
    rcases hup : bringUp t image sets region with ⟨⟨f⟩ | ⟨handlers, base⟩, l, u⟩
    · rw [hup] at h
      cases h
    · rw [hup] at h
      obtain rfl := Except.ok.inj h
      exact ⟨region, t, ht, hup⟩

theorem l2Base_le_of_started {c : Context σ} (h : start s image sets pages = .ok c) :
    l2Base ≤ c.hostFlagBase := by
  obtain ⟨region, t, -, hup⟩ := bringUp_of_started h
  obtain ⟨host, v, -, -, hflags⟩ := steps_of_bringUp hup
  exact l2Base_le_of_findHostFlags hflags

theorem enabled_of_started (hc : s.contextId < numContexts) {c : Context σ}
    (h : start s image sets pages = .ok c) : c.state = .enabled := by
  obtain ⟨region, t, ht, hup⟩ := bringUp_of_started h
  obtain ⟨host, v, hload, hsets, -⟩ := steps_of_bringUp hup
  have hsame := (Session.sameContext_of_load hload).trans
    (Session.sameContext_of_programRuleSets hsets)
  have hstate := (Loader.fresh.state_load_eq_enabled_iff t image (ht.sameContext.1 ▸ hc) host).2
    ⟨c.handlers, congrArg Prod.fst hload⟩
  rw [hload] at hstate
  rw [state, hsame.1]
  exact hstate

end Steps

/-! ## The clean-up -/

section CleanUp

variable {σ : Type} [Transport σ] [RegisterView σ]

/-- The unload after a failed start. Of its accesses to the device, if all succeed then the clusters
and the slot of the context are closed, and nothing is reported; if one fails then its fault is
reported, and nothing else. -/
theorem cleanUp_eq (l : Loader) {u : Session (Recorded σ)} (hc : u.contextId < numContexts) :
    ∃ made : List (Attempt σ),
      (cleanUp l u).device.attempts = u.device.attempts ++ made ∧
      ((∀ a ∈ made, a.result = .ok ()) →
        (cleanUp l u).notices = u.notices ∧ (cleanUp l u).registers.Detached u.contextId) ∧
      ∀ a ∈ made, ∀ f, a.result = .error f →
        (cleanUp l u).notices = u.notices ++ [.unloadFailed u.contextId f] := by
  obtain ⟨done, made, ht⟩ := u.exists_trace (unloadScript u.contextId)
  have hsame := u.sameContext_perform (unloadScript u.contextId)
  have hunload : l.unload u u.contextId = match u.perform (unloadScript u.contextId) with
      | (.ok (), s) => (.ok (), l.setState u.contextId .unloaded, s)
      | (.error e, s) => (.error e, l, s) := by
    rw [Loader.unload, Loader.checkContext, if_pos hc]
    rcases u.perform (unloadScript u.contextId) with ⟨⟨f⟩ | ⟨⟨⟩⟩, t⟩ <;> rfl
  refine ⟨made, ?_⟩
  cases hp : (u.perform (unloadScript u.contextId)).1 with
  | ok =>
    have hall : cleanUp l u = (u.perform (unloadScript u.contextId)).2 := by
      rw [cleanUp, hunload, show u.perform (unloadScript u.contextId) = (.ok (), _) from
        Prod.ext hp rfl]
    refine ⟨by rw [hall]; exact ht.attempts, fun _ => ?_, fun a ha f hf => ?_⟩
    · rw [hall]
      refine ⟨hsame.2, ?_⟩
      rw [ht.registers, ht.result.1 hp]
      exact detached_unloadScript u.registers u.contextId
    · cases hp.symm.trans (ht.failed a ha f hf)
  | error e =>
    have hall : cleanUp l u =
        (u.perform (unloadScript u.contextId)).2.report (.unloadFailed u.contextId e) := by
      rw [cleanUp, hunload, show u.perform (unloadScript u.contextId) = (.error e, _) from
        Prod.ext hp rfl]
      simp only [hsame.1]
    refine ⟨by rw [hall]; exact ht.attempts, fun hok => ?_, fun a ha f hf => ?_⟩
    · obtain ⟨a, ha, hfailed⟩ :=
        ht.exists_failed (admitted_unloadScript hc u.gates) (verdict_unloadScript _) hp
      cases (hok a ha).symm.trans hfailed
    · obtain rfl := Except.error.inj (hp.symm.trans (ht.failed a ha f hf))
      rw [hall, Session.report, hsame.2]

end CleanUp

/-! ## Rings of a started context -/

section Rings

variable {σ : Type} [Transport σ]

theorem hostFlagBase_attachRing {s : Session σ} {g : Geometry} {base : Nat} {ring : FlagRing}
    (h : (s.attachRing g base).1 = .ok ring) {u : UnitRing} (hu : u ∈ ring.units) :
    u.hostFlagBase = base := by
  obtain ⟨hattached, -⟩ := Session.attached_of_eq_ok (Prod.ext h rfl)
  obtain ⟨i, hi⟩ := List.mem_iff_getElem?.1 hu
  exact (Session.newUnit_eq_ok (hattached.unit i u hi)).2.1

theorem hostFlagBase_pop (u : UnitRing) (flag : FlagWord) :
    (u.pop flag).2.hostFlagBase = u.hostFlagBase ∧ (u.pop flag).2.unit = u.unit := by
  unfold UnitRing.pop
  split <;> exact ⟨rfl, rfl⟩

/-- Requests that are taken leave the address of the responses as it is. -/
theorem responseAddress_pops (u : UnitRing) (flags : List FlagWord) :
    (flags.foldl (fun u flag => (u.pop flag).2) u).responseAddress = u.responseAddress := by
  induction flags generalizing u with
  | nil => rfl
  | cons flag flags ih =>
    obtain ⟨hbase, hunit⟩ := hostFlagBase_pop u flag
    rw [List.foldl_cons, ih, UnitRing.responseAddress, hbase, hunit, UnitRing.responseAddress]

end Rings

end Context

open Context in
/-- **A start accounts for its faults.** Whatever the image, the rule sets, the number of pages and
the writes that fail: what stops a start before the buffer is mapped is its fault, and the device was
not touched. What stops it later is its fault, too, and an unload follows. If the accesses of the
unload succeed then nothing is reported and the clusters and the slot of the context are closed; if
one fails then that is reported, and nothing else. A context that was started is enabled, and its
words for responses are in the level-2 memory or after it, so that no address is taken below it. -/
theorem start_accounts_for_faults {σ : Type} [Transport σ] [RegisterView σ]
    (s : Session (Recorded σ)) (hc : s.contextId < numContexts) (image : FirmwareImage)
    (sets : List RuleSet) (pages : Nat) :
    (∀ e, Refused s pages e → ∃ t, start s image sets pages = .error (e, t) ∧
      t.device = s.device ∧ t.notices = s.notices) ∧
    (∀ region t, Prepared s pages region t → t.device = s.device ∧
      ∀ e l u, Stopped t image sets region e l u →
        let final := cleanUp l u
        start s image sets pages = .error (e, final) ∧
          ∃ made : List (Attempt σ), final.device.attempts = u.device.attempts ++ made ∧
            ((∀ a ∈ made, a.result = .ok ()) →
              final.notices = s.notices ∧ final.registers.Detached s.contextId) ∧
            ∀ a ∈ made, ∀ f, a.result = .error f →
              final.notices = s.notices ++ [.unloadFailed s.contextId f]) ∧
    (∀ e final, start s image sets pages = .error (e, final) → Refused s pages e ∨
      ∃ region t l u, Prepared s pages region t ∧ Stopped t image sets region e l u) ∧
    ∀ c, start s image sets pages = .ok c →
      c.state = .enabled ∧ l2Base ≤ c.hostFlagBase ∧
        c.cyclesAddress + l2Base = c.hostFlagBase + flagLength * numUnits ∧
        ∀ g ring, (c.attachRing g).1 = .ok ring → ∀ u ∈ ring.units, ∀ flags : List FlagWord,
          let later := flags.foldl (fun u flag => (u.pop flag).2) u
          ∃ addr, later.responseAddress = .ok addr ∧
            addr + l2Base = c.hostFlagBase + flagLength * u.unit := by
  refine ⟨fun e he => ?_, fun region t ht => ⟨?_, fun e l u hstop => ?_⟩,
    fun e final herr => ?_, fun c hok => ?_⟩
  · obtain ⟨t, hstart, hdevice, hsame⟩ := start_of_refused he image sets
    exact ⟨t, hstart, hdevice, hsame.2⟩
  · obtain ⟨buffer, -, rfl⟩ := ht.mapped
    rfl
  · have hsame := ht.sameContext.trans hstop.sameContext
    refine ⟨?_, ?_⟩
    · rw [start_of_prepared ht, bringUp_eq_error_iff.2 hstop]
    · rw [← hsame.1, ← hsame.2]
      exact cleanUp_eq l (hsame.1 ▸ hc)
  · rcases refused_or_prepared s pages with ⟨f, hf⟩ | ⟨region, t, ht⟩
    · obtain ⟨t, hstart, -, -⟩ := start_of_refused hf image sets
      rw [hstart] at herr
      obtain rfl := congrArg Prod.fst (Except.error.inj herr)
      exact Or.inl hf
    · rw [start_of_prepared ht] at herr
      rcases hup : bringUp t image sets region with ⟨⟨f⟩ | ⟨handlers, base⟩, l, u⟩
      · rw [hup] at herr
        obtain rfl := congrArg Prod.fst (Except.error.inj herr)
        exact Or.inr ⟨region, t, l, u, ht, bringUp_eq_error_iff.1 hup⟩
      · rw [hup] at herr
        cases herr
  · have hbase := l2Base_le_of_started hok
    refine ⟨enabled_of_started hc hok, hbase, ?_, fun g ring hring u hu flags => ?_⟩
    · rw [cyclesAddress]
      omega
    · have hflags : u.hostFlagBase = c.hostFlagBase :=
        hostFlagBase_attachRing (by simpa [Context.attachRing] using hring) hu
      refine ⟨c.hostFlagBase - l2Base + flagLength * u.unit, ?_, by omega⟩
      rw [responseAddress_pops, UnitRing.responseAddress, hflags, if_pos hbase]

/-- A session whose context has a DMA region, with register writes that fail as planned. -/
def plannedSession (plan : FaultPlan) : Session (Recorded (Faulty Simulator)) :=
  lockedSession (Recorded.of
    ((Faulty.of (Simulator.powerOn.enableRegion 0 0x80000000 65536)).follow plan))

/-- The planned session with its region and buffer. -/
def preparedSession (plan : FaultPlan) : Session (Recorded (Faulty Simulator)) :=
  { plannedSession plan with
    region := some ⟨0x80000000, 65536, true⟩
    buffer := some ⟨4096, .own .empty⟩ }

theorem prepared_plannedSession (plan : FaultPlan) :
    Context.Prepared (plannedSession plan) 1 ⟨0x80000000, 65536, true⟩ (preparedSession plan) := by
  have hplace : Session.bufferPlace (plannedSession plan).contextId 1 = .ok (4096, 0) :=
    show Session.bufferPlace 0 1 = .ok (4096, 0) from rfl
  have hmap : DmaBuffer.map (plannedSession plan).device 4096 0 = .ok ⟨4096, .own .empty⟩ := rfl
  refine ⟨rfl, rfl, ⟨4096, .own .empty⟩, ?_, rfl⟩
  simp only [Session.mapBuffer, hplace, hmap]

/-- Loads that fail at their first write. The unload goes through if no other write fails, and is
reported beside the first fault if all fail. -/
theorem start_accounts_for_faults_at_first_write :
    let fault := Fault.loadFailed 0 .reset (.transfer .chosenWrite)
    (∃ final, Context.start (plannedSession (.nthWrite 1)) smallImage [] 1 =
        .error (fault, final) ∧
      final.notices = [] ∧ final.registers.Detached 0) ∧
    ∃ final, Context.start (plannedSession (.someWrites fun _ => true)) smallImage [] 1 =
        .error (fault, final) ∧
      final.notices = [.unloadFailed 0 (.transfer .chosenWrite)] := by
  intro fault
  constructor
  · obtain ⟨-, hlater, -, -⟩ := start_accounts_for_faults (plannedSession (.nthWrite 1))
      (show 0 < numContexts by decide) smallImage [] 1
    obtain ⟨hstart, made, hmade, hclean, -⟩ :=
      (hlater _ _ (prepared_plannedSession _)).2 fault _ _ (.load rfl rfl)
    have hresults : made.map Attempt.result = List.replicate 22 (.ok ()) := by
      rw [List.append_cancel_left (hmade.symm.trans rfl)]
      rfl
    refine ⟨_, hstart, hclean fun a ha => ?_⟩
    have hmem : a.result ∈ made.map Attempt.result := List.mem_map_of_mem ha
    rw [hresults] at hmem
    exact List.eq_of_mem_replicate hmem
  · obtain ⟨-, hlater, -, -⟩ :=
      start_accounts_for_faults (plannedSession (.someWrites fun _ => true))
        (show 0 < numContexts by decide) smallImage [] 1
    obtain ⟨hstart, made, hmade, -, hfault⟩ :=
      (hlater _ _ (prepared_plannedSession _)).2 fault _ _ (.load rfl rfl)
    have hfirst := List.append_cancel_left (hmade.symm.trans rfl)
    exact ⟨_, hstart, hfault _ (hfirst ▸ List.mem_singleton_self _) _ rfl⟩

end PacketOffload
