import PacketOffload.Proofs.Context.Start
import PacketOffload.Proofs.Ring.Moves
import PacketOffload.Transport.RegisterFiles

/-!
# The cycle count beside the words for responses

The handlers count their cycles in a word of the level-2 memory that stands right after the words
for the responses of sixteen units. A ring may have more units than that, up to the number that a
flag word can name, and then the response of the seventeenth unit goes to this word.

Main statements: a response changes the word of its own unit and no other
(`RingActivity.Sound.step`), and what becomes of the cycle count while a ring is in use
(`cycles_undisturbed_iff`).
-/

namespace PacketOffload

/-- A transport whose direct accesses are those of a memory: a poke that goes through is peeked
afterwards, it leaves all words alone that lie beside its own, and one that fails leaves all words
alone. The file behind the host memory is something else. -/
class DirectMemory (σ : Type) [Transport σ] : Prop where
  peek_poke_self : ∀ {d : σ} {addr : Nat} {word : UInt64},
    (Transport.poke d addr word).1 = .ok () →
      Transport.peek (Transport.poke d addr word).2 addr = .ok word
  peek_poke_of_apart : ∀ (d : σ) {addr other : Nat} (word : UInt64),
    addr + flagLength ≤ other ∨ other + flagLength ≤ addr →
      Transport.peek (Transport.poke d addr word).2 other = Transport.peek d other
  peek_poke_of_failed : ∀ {d : σ} {addr : Nat} {word : UInt64} {e : Fault},
    (Transport.poke d addr word).1 = .error e →
      ∀ other, Transport.peek (Transport.poke d addr word).2 other = Transport.peek d other
  peek_setFile : ∀ (d : σ) (contents : FileContents) (addr : Nat),
    Transport.peek (DmaSource.setFile d contents) addr = Transport.peek d addr

/-! ## Instances -/

instance : DirectMemory Simulator where
  peek_poke_self _ := by simp [Transport.peek, Transport.poke, Simulator.setRaw, Memory.get_set]
  peek_poke_of_apart d addr other word h := by
    have hne : addr ≠ other := by
      simp only [flagLength] at h
      omega
    simp [Transport.peek, Transport.poke, Simulator.setRaw, Memory.get_set, hne]
  peek_poke_of_failed h := by cases h
  peek_setFile _ _ _ := rfl

instance {σ : Type} [Transport σ] [DirectMemory σ] : DirectMemory (Faulty σ) where
  peek_poke_self {f _ _} h := DirectMemory.peek_poke_self (d := f.device) h
  peek_poke_of_apart f _ _ word h := DirectMemory.peek_poke_of_apart f.device word h
  peek_poke_of_failed {f _ _ _} h := DirectMemory.peek_poke_of_failed (d := f.device) h
  peek_setFile f contents addr := DirectMemory.peek_setFile f.device contents addr

instance {σ : Type} [Transport σ] [DirectMemory σ] : DirectMemory (Recorded σ) where
  peek_poke_self {r _ _} h := DirectMemory.peek_poke_self (d := r.device) h
  peek_poke_of_apart r _ _ word h := DirectMemory.peek_poke_of_apart r.device word h
  peek_poke_of_failed {r _ _ _} h := DirectMemory.peek_poke_of_failed (d := r.device) h
  peek_setFile r contents addr := DirectMemory.peek_setFile r.device contents addr

instance : DirectMemory RegisterFiles where
  peek_poke_self h := by cases h
  peek_poke_of_apart _ _ _ _ _ := rfl
  peek_poke_of_failed _ _ := rfl
  peek_setFile _ _ _ := rfl

/-! ## Units through waits -/

namespace UnitRing

/-- One end of a ring after at most one request was taken. -/
inductive Took (u : UnitRing) : (v : UnitRing) → Prop
  | nothing : Took u u
  | popped (flag : FlagWord) : Took u (u.pop flag).2

theorem Took.place {u v : UnitRing} (h : u.Took v) :
    v.hostFlagBase = u.hostFlagBase ∧ v.unit = u.unit := by
  cases h with
  | nothing => exact ⟨rfl, rfl⟩
  | popped flag => exact Context.hostFlagBase_pop u flag

theorem took_popAt (u : UnitRing) (slot : Nat → Except Fault FlagWord) (i : Nat) :
    u.Took (u.popAt slot i).unit := by
  unfold popAt
  cases slot i with
  | error e => exact .nothing
  | ok flag => exact .popped flag

theorem took_waitFrom (u : UnitRing) (slot : Nat → Except Fault FlagWord) (more i : Nat) :
    u.Took (u.waitFrom slot more i).unit := by
  induction more generalizing i with
  | zero =>
    unfold waitFrom
    cases slot i with
    | error e => exact .nothing
    | ok flag =>
      simp only
      split
      · exact u.took_popAt slot (i + 1)
      · exact .nothing
  | succ more ih =>
    unfold waitFrom
    cases slot i with
    | error e => exact .nothing
    | ok flag =>
      simp only
      split
      · exact u.took_popAt slot (i + 1)
      · exact ih (i + 1)

end UnitRing

theorem PendingWait.took_run (w : PendingWait) (slot : Nat → Except Fault FlagWord) (i : Nat) :
    w.unit.Took (w.run slot i).unit := by
  fun_induction PendingWait.run w slot i with
  | case1 w i e h => exact .nothing
  | case2 w i h => exact w.unit.took_popAt slot (i + 1)
  | case3 w i h => exact .nothing
  | case4 w i next h ih =>
    obtain ⟨rfl, -⟩ := pending_of_resume h
    exact ih

/-! ## What the ring leaves alone -/

namespace Session

variable {σ : Type} [Transport σ]

/-- The words for direct accesses are the same in two sessions. -/
def SameDirect (s t : Session σ) : Prop := ∀ addr, t.peek addr = s.peek addr

theorem sameDirect_of_device {s t : Session σ} (h : t.device = s.device) : s.SameDirect t := by
  intro addr
  rw [peek, peek, h]

theorem device_popRequest (s : Session σ) (u : UnitRing) :
    (s.popRequest u).2.2.device = s.device ∧ u.Took (s.popRequest u).2.1 := by
  unfold popRequest
  cases s.readFlag u with
  | error e => exact ⟨rfl, .nothing⟩
  | ok flag => exact ⟨s.device_report _, .popped flag⟩

omit [Transport σ] in
theorem device_finishWait (s : Session σ) {u : UnitRing} {o : WaitOutcome} (h : u.Took o.unit) :
    (s.finishWait o).2.2.device = s.device ∧ u.Took (s.finishWait o).2.1 := by
  unfold finishWait
  cases o.result with
  | error e => exact ⟨rfl, h⟩
  | ok request => exact ⟨s.device_report _, h⟩

omit [Transport σ] in
theorem device_dropTo (s : Session σ) (ring : FlagRing) (kept : List UnitRing) :
    (s.dropTo ring kept).2.device = s.device := by
  unfold dropTo
  simp only
  split <;> rfl

theorem sameDirect_writeBytes [DirectMemory σ] (s : Session σ) (offset : Nat) (data : Bytes) :
    s.SameDirect (s.writeBytes offset data).2 := by
  intro addr
  unfold writeBytes
  cases s.buffer with
  | none => rfl
  | some buffer =>
    simp only [peek, DmaBuffer.writeBytes]
    cases buffer.checkRange offset data.length with
    | error e => rfl
    | ok =>
      simp only [DmaBuffer.setBytes]
      cases buffer.backing with
      | own cells => rfl
      | deviceFile start =>
        simp only
        cases DmaSource.file s.device with
        | none => rfl
        | some f => exact DirectMemory.peek_setFile s.device _ addr

/-- A response that goes through changes the word of its own unit and no other; one that fails
changes none. -/
theorem peek_pushResponse [DirectMemory σ] (s : Session σ) {u : UnitRing}
    (hbase : l2Base ≤ u.hostFlagBase) (flag : FlagWord) (unit : Nat) :
    (s.pushResponse u flag).2.peek (u.hostFlagBase - l2Base + flagLength * unit) =
      if (s.pushResponse u flag).1 = .ok () ∧ u.unit = unit then .ok (u.response flag).bits
      else s.peek (u.hostFlagBase - l2Base + flagLength * unit) := by
  have haddr : u.responseAddress = .ok (u.hostFlagBase - l2Base + flagLength * u.unit) := by
    rw [UnitRing.responseAddress, if_pos hbase]
  simp only [pushResponse, haddr, poke, peek]
  cases hp : (Transport.poke s.device (u.hostFlagBase - l2Base + flagLength * u.unit)
      (u.response flag).bits).1 with
  | error e =>
    rw [if_neg (by simp), DirectMemory.peek_poke_of_failed hp]
  | ok =>
    by_cases hunit : u.unit = unit
    · rw [if_pos ⟨rfl, hunit⟩, ← hunit, DirectMemory.peek_poke_self hp]
    · rw [if_neg fun h => hunit h.2]
      refine DirectMemory.peek_poke_of_apart s.device _ ?_
      simp only [flagLength]
      omega

end Session

/-! ## A ring in use -/

/-- What the host does with one end of a ring. -/
inductive UnitAct where
  /-- It asks whether a request waits. -/
  | poll
  /-- It takes the request in the slot, if there is one. -/
  | take
  /-- It waits for a request, while its reads find these flag words, and takes it. -/
  | wait (maxPolls : Nat) (found : Nat → Except Fault FlagWord)
  /-- It waits by being resumed. -/
  | waitResumed (maxPolls : Nat) (found : Nat → Except Fault FlagWord)
  /-- It writes to the payload of a request. -/
  | fill (r : Request) (data : Bytes)
  /-- It answers. -/
  | respond (flag : FlagWord)
  /-- It gives the end up. -/
  | drop

/-- What happens while a ring is in use. -/
inductive RingEvent where
  /-- The host does something with the end at a position. -/
  | host (position : Nat) (act : UnitAct)
  /-- The accelerator writes to host memory. -/
  | arrive (offset : Nat) (data : Bytes)

/-- A context with a ring in use. -/
structure RingActivity (σ : Type) where
  context : Context σ
  ring : FlagRing
  /-- Unit and word of the responses that went through, oldest first. -/
  answers : List (Nat × UInt64)

/-- The last word with which a unit was answered. -/
def lastAnswer (answers : List (Nat × UInt64)) (unit : Nat) : Option UInt64 :=
  (answers.filter (·.1 = unit)).getLast?.map (·.2)

theorem lastAnswer_append (answers : List (Nat × UInt64)) (unit other : Nat) (word : UInt64) :
    lastAnswer (answers ++ [(unit, word)]) other =
      if unit = other then some word else lastAnswer answers other := by
  by_cases h : unit = other <;> simp [lastAnswer, List.filter_append, h]

namespace RingActivity

variable {σ : Type} [Transport σ]

/-- The word of the handlers' cycle count. -/
def cyclesWord (e : RingActivity σ) : Except Fault UInt64 :=
  e.context.session.peek e.context.cyclesAddress

def withSession (e : RingActivity σ) (s : Session σ) : RingActivity σ :=
  { e with context := { e.context with session := s } }

def withUnit (e : RingActivity σ) (position : Nat) (u : UnitRing) : RingActivity σ :=
  { e with ring := e.ring.setUnit position u }

/-- The end at a position and the session are as they come out of a look for a request. -/
def taken (e : RingActivity σ) (position : Nat)
    (outcome : Except Fault (Option Request) × UnitRing × Session σ) : RingActivity σ :=
  (e.withSession outcome.2.2).withUnit position outcome.2.1

def respond (e : RingActivity σ) (u : UnitRing) (flag : FlagWord) : RingActivity σ :=
  let (result, s) := e.context.session.pushResponse u flag
  { e.withSession s with
    answers := e.answers ++ if result = .ok () then [(u.unit, (u.response flag).bits)] else [] }

def drop (e : RingActivity σ) (position : Nat) : RingActivity σ :=
  let (ring, s) := e.context.session.dropUnit e.ring position
  { e.withSession s with ring }

def act (e : RingActivity σ) (position : Nat) (u : UnitRing) : UnitAct → RingActivity σ
  | .poll => e
  | .take => e.taken position (e.context.session.popRequest u)
  | .wait maxPolls found => e.taken position (e.context.session.finishWait (u.wait found maxPolls))
  | .waitResumed maxPolls found =>
    e.taken position (e.context.session.finishWait (u.waitResumed found maxPolls))
  | .fill r data => e.withSession (e.context.session.writePayload r data).2
  | .respond flag => e.respond u flag
  | .drop => e.drop position

/-- An event; at a position without an end nothing happens. -/
def step (e : RingActivity σ) : RingEvent → RingActivity σ
  | .host position move =>
    match e.ring.find position with
    | .ok u => e.act position u move
    | .error _ => e
  | .arrive offset data => e.withSession (e.context.session.writeBytes offset data).2

def run (e : RingActivity σ) (events : List RingEvent) : RingActivity σ := events.foldl step e

/-- The units are those of the ring of a context, and the word of the cycle count is the last answer
of the unit whose word it is, if there was one. -/
structure Sound (c : Context σ) (count : Nat) (e : RingActivity σ) : Prop where
  base : e.context.hostFlagBase = c.hostFlagBase
  unit : ∀ u ∈ e.ring.units, u.hostFlagBase = c.hostFlagBase ∧ u.unit < count
  answered : ∀ a ∈ e.answers, a.1 < count
  cycles : e.cyclesWord = match lastAnswer e.answers numUnits with
    | some word => .ok word
    | none => c.session.peek c.cyclesAddress

variable {c : Context σ} {count position : Nat} {e : RingActivity σ} {u v : UnitRing}
  {s : Session σ}

theorem Sound.withSession (h : e.Sound c count) (hs : e.context.session.SameDirect s) :
    (e.withSession s).Sound c count :=
  ⟨h.base, h.unit, h.answered, (hs _).trans h.cycles⟩

theorem Sound.taken (h : e.Sound c count) (hu : u ∈ e.ring.units)
    {outcome : Except Fault (Option Request) × UnitRing × Session σ}
    (ho : outcome.2.2.device = e.context.session.device ∧ u.Took outcome.2.1) :
    (e.taken position outcome).Sound c count := by
  have hs := h.withSession (Session.sameDirect_of_device ho.1)
  refine ⟨hs.base, fun w hw => ?_, hs.answered, hs.cycles⟩
  rcases List.mem_or_eq_of_mem_set hw with hw | rfl
  · exact h.unit w hw
  · rw [ho.2.place.1, ho.2.place.2]
    exact h.unit u hu

theorem Sound.drop (h : e.Sound c count) (position : Nat) : (e.drop position).Sound c count := by
  have hs := h.withSession (s := (e.context.session.dropUnit e.ring position).2)
    (Session.sameDirect_of_device (Session.device_dropTo _ _ _))
  exact ⟨hs.base, fun w hw => h.unit w (List.mem_of_mem_eraseIdx hw), hs.answered, hs.cycles⟩

variable [DirectMemory σ]

theorem cyclesWord_respond (hbase : l2Base ≤ u.hostFlagBase)
    (hflags : u.hostFlagBase = e.context.hostFlagBase) (flag : FlagWord) :
    (e.respond u flag).cyclesWord =
      if (e.context.session.pushResponse u flag).1 = .ok () ∧ u.unit = numUnits then
        .ok (u.response flag).bits
      else e.cyclesWord := by
  have hpeek := e.context.session.peek_pushResponse hbase flag numUnits
  rw [hflags] at hpeek
  exact hpeek

theorem Sound.respond (hbase : l2Base ≤ c.hostFlagBase) (h : e.Sound c count)
    (hu : u ∈ e.ring.units) (flag : FlagWord) : (e.respond u flag).Sound c count := by
  obtain ⟨hflags, hunit⟩ := h.unit u hu
  have hword := cyclesWord_respond (hflags ▸ hbase) (hflags.trans h.base.symm) flag
  have hanswers : (e.respond u flag).answers = e.answers ++
      if (e.context.session.pushResponse u flag).1 = .ok () then
        [(u.unit, (u.response flag).bits)]
      else [] := rfl
  by_cases hok : (e.context.session.pushResponse u flag).1 = .ok ()
  · rw [if_pos hok] at hanswers
    refine ⟨h.base, h.unit, fun a ha => ?_, ?_⟩
    · rw [hanswers] at ha
      rcases List.mem_append.1 ha with ha | ha
      · exact h.answered a ha
      · rw [List.mem_singleton.1 ha]
        exact hunit
    · rw [hanswers, lastAnswer_append, hword, h.cycles]
      by_cases hown : u.unit = numUnits
      · rw [if_pos ⟨hok, hown⟩, if_pos hown]
      · rw [if_neg fun hboth => hown hboth.2, if_neg hown]
  · rw [if_neg hok, List.append_nil] at hanswers
    refine ⟨h.base, h.unit, hanswers ▸ h.answered, ?_⟩
    rw [hanswers, hword, if_neg fun hboth => hok hboth.1, h.cycles]

theorem Sound.act (hbase : l2Base ≤ c.hostFlagBase) (h : e.Sound c count)
    (hu : u ∈ e.ring.units) (move : UnitAct) : (e.act position u move).Sound c count := by
  cases move with
  | poll => exact h
  | take => exact h.taken hu (Session.device_popRequest _ u)
  | wait maxPolls found =>
    exact h.taken hu (Session.device_finishWait _ (u.took_waitFrom found _ _))
  | waitResumed maxPolls found =>
    exact h.taken hu (Session.device_finishWait _ (PendingWait.took_run ⟨u, 0, maxPolls⟩ found _))
  | fill r data => exact h.withSession (Session.sameDirect_writeBytes _ _ _)
  | respond flag => exact h.respond hbase hu flag
  | drop => exact h.drop position

/-- Whatever happens, the word of the cycle count changes by the response of its unit only. -/
theorem Sound.step (hbase : l2Base ≤ c.hostFlagBase) (h : e.Sound c count) (event : RingEvent) :
    (e.step event).Sound c count := by
  cases event with
  | arrive offset data => exact h.withSession (Session.sameDirect_writeBytes _ offset data)
  | host position move =>
    cases hu : e.ring.units[position]? with
    | none =>
      have hstep : e.step (.host position move) = e := by
        simp only [RingActivity.step, FlagRing.find, hu]
      rw [hstep]
      exact h
    | some u =>
      have hstep : e.step (.host position move) = e.act position u move := by
        simp only [RingActivity.step, FlagRing.find, hu]
      rw [hstep]
      exact h.act hbase (List.mem_of_getElem? hu) move

theorem Sound.run (hbase : l2Base ≤ c.hostFlagBase) (h : e.Sound c count)
    (events : List RingEvent) : (e.run events).Sound c count := by
  induction events generalizing e with
  | nil => exact h
  | cons event rest ih => exact ih (h.step hbase event)

/-- A ring of a context that nothing was done with yet. -/
def start (c : Context σ) (ring : FlagRing) : RingActivity σ := ⟨c, ring, []⟩

omit [DirectMemory σ] in
theorem attached_of_attachRing {c c' : Context σ} {g : Geometry} {ring : FlagRing}
    (h : c.attachRing g = (.ok ring, c')) :
    c.session.Attached g c.hostFlagBase ring ∧
      c' = { c with session := { c.session with ringAttached := true } } := by
  rw [Context.attachRing] at h
  rcases hattach : c.session.attachRing g c.hostFlagBase with ⟨result, session⟩
  rw [hattach] at h
  cases h
  obtain ⟨hattached, rfl⟩ := Session.attached_of_eq_ok hattach
  exact ⟨hattached, rfl⟩

omit [DirectMemory σ] in
theorem start_of_attached {c c' : Context σ} {g : Geometry} {ring : FlagRing}
    (h : c.attachRing g = (.ok ring, c')) :
    (start c' ring).Sound c g.unitCount ∧ ring.units.length = g.unitCount ∧
      ∀ (i : Nat) u, ring.units[i]? = some u → u.hostFlagBase = c.hostFlagBase ∧ u.unit = i := by
  obtain ⟨hattached, rfl⟩ := attached_of_attachRing h
  have hunit : ∀ (i : Nat) u, ring.units[i]? = some u →
      u.hostFlagBase = c.hostFlagBase ∧ u.unit = i :=
    fun i u hu => (Session.newUnit_eq_ok (hattached.unit i u hu)).2
  refine ⟨⟨rfl, fun u hu => ?_, fun a ha => absurd ha List.not_mem_nil, rfl⟩,
    hattached.count, hunit⟩
  obtain ⟨i, hi⟩ := List.mem_iff_getElem?.1 hu
  have hlt := (List.getElem?_eq_some_iff.1 hi).1
  obtain ⟨hflags, rfl⟩ := hunit i u hi
  exact ⟨hflags, hattached.count ▸ hlt⟩

end RingActivity

/-! ## The mean -/

/-- The mean that a cycle count stands for. -/
def meanCycles (word : UInt64) : UInt32 :=
  let count := word.toUInt32
  let sum := (word >>> 32).toUInt32
  if count = 0 then 0 else sum / count

theorem RingActivity.averageCycles_eq {σ : Type} [Transport σ] (e : RingActivity σ) :
    e.context.averageCycles = e.cyclesWord.map meanCycles := rfl

/-- As a cycle count the responses of a unit have the mean that the host chooses, zero or not. -/
theorem meanCycles_response (seq : UInt8) :
    meanCycles ((FlagWord.mk 0).union (.compose seq 0 16)).bits = 0 ∧
      meanCycles ((FlagWord.mk 0xffffffff00000000).union (.compose seq 0 16)).bits ≠ 0 := by
  obtain ⟨bits⟩ := seq
  revert bits
  decide +kernel

/-! ## The cycle count of a started context -/

section Started

variable {σ : Type} [Transport σ] [DirectMemory σ] {c c' : Context σ} {g : Geometry}
  {ring : FlagRing}

namespace RingActivity

omit [DirectMemory σ] in
/-- Without a unit whose word it is, the word of the cycle count stays as it is. -/
theorem Sound.cyclesWord_of_few {e : RingActivity σ} {count : Nat} (h : e.Sound c count)
    (hcount : count ≤ numUnits) : e.cyclesWord = c.session.peek c.cyclesAddress := by
  have hnone : lastAnswer e.answers numUnits = none := by
    have hfilter : e.answers.filter (·.1 = numUnits) = [] := by
      refine List.filter_eq_nil_iff.2 fun a ha => ?_
      have := h.answered a ha
      simp only [decide_eq_true_eq]
      omega
    rw [lastAnswer, hfilter]
    rfl
  rw [h.cycles, hnone]

/-- With such a unit the host can make the mean another one. -/
theorem exists_averageCycles_ne (hbase : l2Base ≤ c.hostFlagBase)
    (hring : c.attachRing g = (.ok ring, c')) (hcount : numUnits < g.unitCount)
    (hpoke : ∀ word, (c'.session.poke c'.cyclesAddress word).1 = .ok ()) :
    ∃ flag, ((start c' ring).run [.host numUnits (.respond flag)]).context.averageCycles ≠
      c.averageCycles := by
  obtain ⟨hsound, hlength, hunit⟩ := start_of_attached hring
  have hlt : numUnits < ring.units.length := hlength ▸ hcount
  obtain ⟨hflags, hnumber⟩ := hunit numUnits _ (List.getElem?_eq_getElem hlt)
  -- The response of this unit is from then on the word of the cycle count.
  have hword : ∀ flag, ((start c' ring).run [.host numUnits (.respond flag)]).cyclesWord =
      .ok (ring.units[numUnits].response flag).bits := by
    intro flag
    have hu : ring.units[numUnits]? = some ring.units[numUnits] := List.getElem?_eq_getElem hlt
    have hstep : (start c' ring).run [.host numUnits (.respond flag)] =
        (start c' ring).respond ring.units[numUnits] flag := by
      simp only [run, List.foldl_cons, List.foldl_nil, step, start, FlagRing.find, hu, act]
    have hpush : (c'.session.pushResponse ring.units[numUnits] flag).1 = .ok () := by
      have haddr : ring.units[numUnits].responseAddress = .ok c'.cyclesAddress := by
        rw [UnitRing.responseAddress, hflags, if_pos hbase, hnumber, ← hsound.base]
        rfl
      simp only [Session.pushResponse, haddr]
      exact hpoke _
    rw [hstep, cyclesWord_respond (hflags ▸ hbase) (hflags.trans hsound.base.symm),
      if_pos ⟨hpush, hnumber⟩]
  have hmean : ∀ flag,
      ((start c' ring).run [.host numUnits (.respond flag)]).context.averageCycles =
        .ok (meanCycles (flag.union (.compose ring.units[numUnits].lastSeen 0 16)).bits) := by
    intro flag
    rw [averageCycles_eq, hword, UnitRing.response, hnumber]
    rfl
  obtain ⟨hzero, hne⟩ := meanCycles_response ring.units[numUnits].lastSeen
  by_cases hold : c.averageCycles = .ok 0
  · refine ⟨⟨0xffffffff00000000⟩, ?_⟩
    rw [hmean, hold]
    exact fun h => hne (Except.ok.inj h)
  · refine ⟨⟨0⟩, ?_⟩
    rw [hmean, hzero]
    exact fun h => hold h.symm

end RingActivity

/-- **The cycle count while a ring is in use.** Whatever the host does with the units of a ring of a
started context, and whatever the accelerator writes to host memory: the word of the cycle count is
that of the last response of the seventeenth unit, or as it was if this unit was never answered. So
it stays as it was, and the mean with it, if the ring has at most sixteen units. If pokes go through
then the mean stays the same in all uses of the ring only if it has no more. -/
theorem cycles_undisturbed_iff {s : Session σ} {image : FirmwareImage} {sets : List RuleSet}
    {pages : Nat} (hstart : Context.start s image sets pages = .ok c)
    (hring : c.attachRing g = (.ok ring, c')) :
    (∀ events, let e := (RingActivity.start c' ring).run events
      e.cyclesWord = match lastAnswer e.answers numUnits with
        | some word => .ok word
        | none => c.session.peek c.cyclesAddress) ∧
      (g.unitCount ≤ numUnits → ∀ events, let e := (RingActivity.start c' ring).run events
        e.cyclesWord = c.session.peek c.cyclesAddress ∧
          e.context.averageCycles = c.averageCycles) ∧
      ((∀ word, (c'.session.poke c'.cyclesAddress word).1 = .ok ()) →
        ((∀ events, ((RingActivity.start c' ring).run events).context.averageCycles =
          c.averageCycles) ↔ g.unitCount ≤ numUnits)) := by
  have hbase := Context.l2Base_le_of_started hstart
  have hrun : ∀ events, ((RingActivity.start c' ring).run events).Sound c g.unitCount :=
    fun events => (RingActivity.start_of_attached hring).1.run hbase events
  have hfew : g.unitCount ≤ numUnits → ∀ events,
      ((RingActivity.start c' ring).run events).cyclesWord = c.session.peek c.cyclesAddress ∧
        ((RingActivity.start c' ring).run events).context.averageCycles = c.averageCycles := by
    intro hcount events
    have hword := (hrun events).cyclesWord_of_few hcount
    exact ⟨hword, congrArg (Except.map meanCycles) hword⟩
  refine ⟨fun events => (hrun events).cycles, hfew, fun hpoke => ?_⟩
  constructor
  · intro hsame
    by_contra hcount
    obtain ⟨flag, hne⟩ :=
      RingActivity.exists_averageCycles_ne hbase hring (Nat.lt_of_not_le hcount) hpoke
    exact hne (hsame _)
  · exact fun hcount events => (hfew hcount events).2

end Started

/-- An image with the words for responses in the last page of the level-2 memory. -/
def countingImage : FirmwareImage :=
  (((((AssembledImage.empty.addSection ".rodata" 0x1c000000 [1, 2, 3, 4]).addSized
    handlerDataSection ⟨0x1c0c0000, 256⟩ []).addSection ".vectors" 0x1d000000
      [0x6f, 0, 0, 0]).addSection ".text" 0x1d000100 [0x13, 0, 0, 0]).addSymbol hostDataSymbol
        0x1c0ff000).image

/-- A session whose device shows four samples of a thousand cycles together. -/
def countingSession : Session Simulator :=
  lockedSession ((Simulator.powerOn.enableRegion 0 0x80000000 4096).setRaw 0xff080 0x3e800000004)

/-- Slots of sixteen bytes. -/
def smallSlots (unitCount : Nat) : Geometry := ⟨unitCount, 16, 8⟩

/-- With sixteen units the mean stays 250 in all uses of the ring, with seventeen it does not. -/
theorem cycles_undisturbed_up_to_sixteen :
    ∃ c, Context.start countingSession countingImage [] 1 = .ok c ∧ c.averageCycles = .ok 250 ∧
      (∃ ring c', c.attachRing (smallSlots 16) = (.ok ring, c') ∧ ∀ events,
        ((RingActivity.start c' ring).run events).context.averageCycles = .ok 250) ∧
      ∃ ring c', c.attachRing (smallSlots 17) = (.ok ring, c') ∧
        (∀ word, (c'.session.poke c'.cyclesAddress word).1 = .ok ()) ∧ ¬ ∀ events,
        ((RingActivity.start c' ring).run events).context.averageCycles = .ok 250 := by
  obtain ⟨c, hstart, hmean, ⟨ring, c', hring, hpoke⟩, ring', d', hring', hpoke'⟩ :
      ∃ c, Context.start countingSession countingImage [] 1 = .ok c ∧ c.averageCycles = .ok 250 ∧
        (∃ ring c', c.attachRing (smallSlots 16) = (.ok ring, c') ∧
          ∀ word, (c'.session.poke c'.cyclesAddress word).1 = .ok ()) ∧
        ∃ ring c', c.attachRing (smallSlots 17) = (.ok ring, c') ∧
          ∀ word, (c'.session.poke c'.cyclesAddress word).1 = .ok () :=
    ⟨_, rfl, rfl, ⟨_, _, rfl, fun _ => rfl⟩, _, _, rfl, fun _ => rfl⟩
  refine ⟨c, hstart, hmean, ⟨ring, c', hring, ?_⟩, ring', d', hring', hpoke', ?_⟩
  · rw [← hmean]
    exact ((cycles_undisturbed_iff hstart hring).2.2 hpoke).2 (by decide)
  · rw [← hmean, ((cycles_undisturbed_iff hstart hring').2.2 hpoke')]
    decide

/-- The seventeenth unit is answered, and the mean is gone. -/
theorem cycles_disturbed_by_seventeenth :
    ∃ c ring c', Context.start countingSession countingImage [] 1 = .ok c ∧
      c.averageCycles = .ok 250 ∧ c.attachRing (smallSlots 17) = (.ok ring, c') ∧
      ((RingActivity.start c' ring).run
        [.host 16 (.respond (.ofLength 2))]).context.averageCycles = .ok 0 :=
  ⟨_, _, _, rfl, rfl, rfl, rfl⟩

end PacketOffload
