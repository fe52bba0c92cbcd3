import PacketOffload.Proofs.Sending.Shares
import PacketOffload.Proofs.Sending.Worker

/-!
# A crew at work

Workers with disjoint shares run side by side. The flag is set by a worker that failed, and that
worker leaves a fragment of its share unsettled for good: nobody else has the fragment. As long as
the flag is not set, every worker stands where it should in its share.

Main statement: whatever the schedule, a crew that ran to its end has no fault exactly if every
fragment was settled, and then it sent each fragment once (`run_crew`).
-/

namespace PacketOffload.Slmp

namespace Crew

/-- What happened so far, whoever did it. -/
def events (crew : Crew) : List Event := crew.log.map (·.2)

/-- The shares of workers have no fragment in common, and none twice. -/
structure Apart (shares : Nat → List Fragment) (count : Nat) : Prop where
  nodup : ∀ i < count, (shares i).Nodup
  unique : ∀ i < count, ∀ j < count, ∀ f, f ∈ shares i → f ∈ shares j → i = j

/-- A crew on its way. -/
structure Sound (msgId : UInt32) (shares : Nat → List Fragment) (crew : Crew) : Prop where
  hand : ∀ (i : Nat) (w : Worker), crew.workers[i]? = some w → ∀ f ∈ w.hand, f ∈ shares i
  shared : ∀ e ∈ crew.events, ∃ i < crew.workers.length, e.fragment ∈ shares i
  progress : crew.cancelled = false → ∀ (i : Nat) (w : Worker), crew.workers[i]? = some w →
    w.Progress msgId crew.events (shares i)
  once : crew.cancelled = false → (sentFragments crew.events).Nodup
  faulty : ∀ (i : Nat) (w : Worker) (e : Fault), crew.workers[i]? = some w →
    w.phase = .done (some e) → crew.cancelled = true
  /-- Some worker has set the flag, and left a fragment unsettled. -/
  cause : crew.cancelled = true → ∃ (i : Nat) (w : Worker) (e : Fault),
    crew.workers[i]? = some w ∧ w.phase = .done (some e) ∧
      ∃ f ∈ shares i, ¬ Settled msgId crew.events f

variable {s : Sender} {policy : FailurePolicy} {shares : Nat → List Fragment} {crew : Crew}

/-- A crew after worker `i` moved from `w` to `v`. -/
structure Stepped (s : Sender) (i : Nat) (w v : Worker) (new : List Event) (crew next : Crew) :
    Prop where
  before : crew.workers[i]? = some w
  moves : Moves s crew.cancelled w v next.cancelled new
  workers : next.workers = crew.workers.set i v
  events : next.events = crew.events ++ new

theorem step_of_some {i : Nat} {w : Worker} (hw : crew.workers[i]? = some w) :
    crew.step s policy i =
      ⟨crew.workers.set i (move s policy crew.cancelled w).1, (move s policy crew.cancelled w).2.1,
        crew.log ++ (move s policy crew.cancelled w).2.2.map fun event => (i, event)⟩ := by
  simp only [step, hw]

theorem stepped_step (s : Sender) (policy : FailurePolicy) {i : Nat} {w : Worker}
    (hw : crew.workers[i]? = some w) :
    ∃ v new, Stepped s i w v new crew (crew.step s policy i) := by
  rw [step_of_some hw]
  refine ⟨_, _, hw, moves_move s policy crew.cancelled w, rfl, ?_⟩
  simp only [Crew.events, List.map_append, List.map_map, Function.comp_def, List.map_id']

theorem step_of_none {i : Nat} (hw : crew.workers[i]? = none) : crew.step s policy i = crew := by
  simp only [step, hw]

theorem length_step (crew : Crew) (i : Nat) :
    (crew.step s policy i).workers.length = crew.workers.length := by
  cases hw : crew.workers[i]? with
  | none => rw [step_of_none hw]
  | some w =>
    obtain ⟨v, new, hstep⟩ := stepped_step s policy hw
    rw [hstep.workers, List.length_set]

theorem lt_of_worker {i : Nat} {w : Worker} (hw : crew.workers[i]? = some w) :
    i < crew.workers.length :=
  (List.getElem?_eq_some_iff.1 hw).1

namespace Stepped

variable {i j : Nat} {w v u : Worker} {new : List Event} {next : Crew}

theorem self (h : Stepped s i w v new crew next) : next.workers[i]? = some v := by
  rw [h.workers]
  exact List.getElem?_set_self (lt_of_worker h.before)

theorem other (h : Stepped s i w v new crew next) (hne : j ≠ i) :
    next.workers[j]? = crew.workers[j]? := by
  rw [h.workers]
  exact List.getElem?_set_ne (Ne.symm hne)

/-- Who stands where after a worker moved. -/
theorem cases_of_worker (h : Stepped s i w v new crew next) (hu : next.workers[j]? = some u) :
    j = i ∧ u = v ∨ j ≠ i ∧ crew.workers[j]? = some u := by
  by_cases hji : j = i
  · subst hji
    rw [h.self] at hu
    exact Or.inl ⟨rfl, (Option.some.inj hu).symm⟩
  · rw [h.other hji] at hu
    exact Or.inr ⟨hji, hu⟩

/-- The flag was not set before a step if it is not set after it. -/
theorem not_cancelled (h : Stepped s i w v new crew next) (hc : next.cancelled = false) :
    crew.cancelled = false := by
  cases hb : crew.cancelled with
  | false => rfl
  | true =>
    rw [h.moves.flag_kept hb] at hc
    cases hc

/-- What a worker does touches no fragment of another share. -/
theorem untouched (h : Stepped s i w v new crew next) (hs : crew.Sound s.msgId shares)
    (hapart : Apart shares crew.workers.length) (hj : j < crew.workers.length) (hne : j ≠ i) :
    ∀ f ∈ shares j, Untouched new f := by
  rintro f hf e he rfl
  have hi := hs.hand i w h.before _ (h.moves.fragment_mem_hand e he)
  exact hne (hapart.unique j hj i (lt_of_worker h.before) _ hf hi)

/-- As long as the flag is not set, every worker stands where it should. -/
theorem progress (h : Stepped s i w v new crew next) (hs : crew.Sound s.msgId shares)
    (hapart : Apart shares crew.workers.length) (hc : next.cancelled = false)
    (hu : next.workers[j]? = some u) : u.Progress s.msgId next.events (shares j) := by
  have hb := h.not_cancelled hc
  rw [h.events]
  rcases h.cases_of_worker hu with ⟨rfl, rfl⟩ | ⟨hne, hu⟩
  · have hmoves := h.moves
    rw [hb] at hmoves
    exact Worker.Progress.move (hapart.nodup j (lt_of_worker h.before)) hmoves
      (hs.progress hb j w h.before)
  · exact (hs.progress hb j u hu).append (h.untouched hs hapart (lt_of_worker hu) hne)

/-- The worker that set the flag has left a fragment unsettled, and nobody settles it later. -/
theorem cause (h : Stepped s i w v new crew next) (hs : crew.Sound s.msgId shares)
    (hapart : Apart shares crew.workers.length) (hc : next.cancelled = true) :
    ∃ (j : Nat) (u : Worker) (e : Fault), next.workers[j]? = some u ∧ u.phase = .done (some e) ∧
      ∃ f ∈ shares j, ¬ Settled s.msgId next.events f := by
  rw [h.events]
  cases hb : crew.cancelled with
  | true =>
    obtain ⟨j, u, e, hu, hdone, f, hf, hns⟩ := hs.cause hb
    by_cases hji : j = i
    · subst hji
      obtain rfl : w = u := Option.some.inj (h.before.symm.trans hu)
      obtain ⟨rfl, -, rfl⟩ := h.moves.of_rest hdone
      rw [List.append_nil]
      exact ⟨j, v, e, h.self, hdone, f, hf, hns⟩
    · have hapart' := h.untouched hs hapart (lt_of_worker hu) hji f hf
      refine ⟨j, u, e, (h.other hji).trans hu, hdone, f, hf, fun hset => hns ?_⟩
      exact (settled_append_left hapart').1 hset
  | false =>
    obtain ⟨e, hphase, hdone, rfl⟩ := h.moves.flag_set hb hc
    have hprogress := hs.progress hb i w h.before
    rw [Worker.Progress, hphase] at hprogress
    rw [List.append_nil]
    exact ⟨i, v, e, h.self, hdone, hprogress⟩

end Stepped

/-- Every step of every worker keeps a crew sound. -/
theorem Sound.step (hapart : Apart shares crew.workers.length) (hs : crew.Sound s.msgId shares)
    (i : Nat) : (crew.step s policy i).Sound s.msgId shares := by
  cases hw : crew.workers[i]? with
  | none =>
    rw [step_of_none hw]
    exact hs
  | some w =>
    obtain ⟨v, new, h⟩ := stepped_step s policy hw
    constructor
    case hand =>
      intro j u hu f hf
      rcases h.cases_of_worker hu with ⟨rfl, rfl⟩ | ⟨-, hu⟩
      · exact hs.hand j w hw f (h.moves.hand_subset f hf)
      · exact hs.hand j u hu f hf
    case shared =>
      intro e he
      rw [length_step]
      rw [h.events] at he
      rcases List.mem_append.1 he with he | he
      · exact hs.shared e he
      · exact ⟨i, lt_of_worker hw, hs.hand i w hw _ (h.moves.fragment_mem_hand e he)⟩
    case progress =>
      intro hc j u hu
      exact h.progress hs hapart hc hu
    case once =>
      intro hc
      have hb := h.not_cancelled hc
      have hmoves := h.moves
      rw [hb] at hmoves
      rw [h.events]
      exact Worker.Progress.nodup_move hmoves (hs.progress hb i w hw) (hs.once hb)
    case faulty =>
      intro j u e hu hdone
      rcases h.cases_of_worker hu with ⟨rfl, rfl⟩ | ⟨-, hu⟩
      · rcases h.moves.of_done hdone with hc | ⟨rfl, hc⟩
        · exact hc
        · rw [hc]
          exact hs.faulty j _ e hw hdone
      · exact h.moves.flag_kept (hs.faulty j u e hu hdone)
    case cause =>
      intro hc
      exact h.cause hs hapart hc

/-! ## Runs -/

/-- Whose turn it is at each step of a run: as the schedule says, and then until all are done. -/
def turns (s : Sender) (policy : FailurePolicy) (crew : Crew) (schedule : List Nat) : List Nat :=
  schedule ++ (crew.follow s policy schedule).finishing

theorem follow_cons (crew : Crew) (i : Nat) (rest : List Nat) :
    crew.follow s policy (i :: rest) = (crew.step s policy i).follow s policy rest := rfl

theorem follow_append (crew : Crew) (before after : List Nat) :
    crew.follow s policy (before ++ after) =
      (crew.follow s policy before).follow s policy after :=
  List.foldl_append

theorem run_eq_follow (crew : Crew) (schedule : List Nat) :
    crew.run s policy schedule = crew.follow s policy (crew.turns s policy schedule) :=
  (follow_append crew schedule _).symm

theorem length_follow (crew : Crew) (schedule : List Nat) :
    (crew.follow s policy schedule).workers.length = crew.workers.length := by
  induction schedule generalizing crew with
  | nil => rfl
  | cons i rest ih => exact (ih (crew.step s policy i)).trans (length_step crew i)

theorem Sound.follow (hapart : Apart shares crew.workers.length) (hs : crew.Sound s.msgId shares)
    (schedule : List Nat) : (crew.follow s policy schedule).Sound s.msgId shares := by
  induction schedule generalizing crew with
  | nil => exact hs
  | cons i rest ih =>
    refine ih ?_ (hs.step hapart i)
    rw [length_step]
    exact hapart

theorem getElem?_ofFragments {count i : Nat} {fragments : List Fragment} {w : Worker}
    (hw : (ofFragments count fragments).workers[i]? = some w) :
    i < count ∧ w = .of (share count fragments i) := by
  rw [ofFragments, List.getElem?_map] at hw
  obtain ⟨j, hj, rfl⟩ := Option.map_eq_some_iff.1 hw
  obtain ⟨hi, hji⟩ := List.getElem?_eq_some_iff.1 hj
  rw [List.getElem_range] at hji
  subst hji
  rw [List.length_range] at hi
  exact ⟨hi, rfl⟩

/-- Who stands in a crew after a run began with a share. -/
theorem start_of_follow {count i : Nat} {fragments : List Fragment} {turns : List Nat} {w : Worker}
    (hw : ((ofFragments count fragments).follow s policy turns).workers[i]? = some w) :
    (ofFragments count fragments).workers[i]? = some (.of (share count fragments i)) := by
  have hlt := lt_of_worker hw
  rw [length_follow] at hlt
  have hstart := List.getElem?_eq_getElem hlt
  obtain ⟨-, hof⟩ := getElem?_ofFragments hstart
  rw [hstart, hof]

theorem sound_ofFragments (msgId : UInt32) (count : Nat) (fragments : List Fragment) :
    (ofFragments count fragments).Sound msgId (share count fragments) where
  hand i w hw f hf := by
    obtain ⟨-, rfl⟩ := getElem?_ofFragments hw
    exact hf
  shared e he := absurd he List.not_mem_nil
  progress _ i w hw := by
    obtain ⟨-, rfl⟩ := getElem?_ofFragments hw
    exact ⟨[], rfl, fun g hg => absurd hg List.not_mem_nil, fun g _ => untouched_nil g⟩
  once _ := List.nodup_nil
  faulty i w e hw hdone := by
    obtain ⟨-, rfl⟩ := getElem?_ofFragments hw
    cases hdone
  cause hc := by cases hc

theorem length_ofFragments (count : Nat) (fragments : List Fragment) :
    (ofFragments count fragments).workers.length = count := by
  simp [ofFragments]

theorem apart_shares (count : Nat) {fragments : List Fragment} (hn : fragments.Nodup) :
    Apart (share count fragments) count := by
  obtain ⟨hnodup, hunique⟩ := nodup_shares (n := count) hn
  exact ⟨hnodup, hunique⟩

/-- Whoever moves, a crew stays sound. -/
theorem sound_follow (s : Sender) (policy : FailurePolicy) (count : Nat) {fragments : List Fragment}
    (hn : fragments.Nodup) (turns : List Nat) :
    ((ofFragments count fragments).follow s policy turns).Sound s.msgId
      (share count fragments) := by
  refine (sound_ofFragments s.msgId count fragments).follow ?_ turns
  rw [length_ofFragments]
  exact apart_shares count hn

/-! ## The end of a run -/

theorem done_of_remaining {w : Worker} (h : remaining w = 0) : ∃ fault, w.phase = .done fault := by
  obtain ⟨todo, phase, inbox⟩ := w
  cases phase with
  | done fault => exact ⟨fault, rfl⟩
  | ready | sending | sent | waiting | failing => simp [remaining] at h

/-- The steps of a worker in a schedule bring it as many steps closer to its end. -/
theorem remaining_follow (s : Sender) (policy : FailurePolicy) (schedule : List Nat) {i : Nat}
    {w : Worker} (hw : crew.workers[i]? = some w) :
    ∃ v, (crew.follow s policy schedule).workers[i]? = some v ∧
      remaining v ≤ remaining w - schedule.count i := by
  induction schedule generalizing crew w with
  | nil => exact ⟨w, hw, Nat.le_refl _⟩
  | cons j rest ih =>
    have hstep : ∃ v, (crew.step s policy j).workers[i]? = some v ∧
        remaining v ≤ remaining w - [j].count i := by
      by_cases hji : j = i
      · subst hji
        have hset : (crew.step s policy j).workers[j]? =
            some (move s policy crew.cancelled w).1 := by
          rw [step_of_some hw]
          exact List.getElem?_set_self (lt_of_worker hw)
        refine ⟨_, hset, ?_⟩
        rw [List.count_singleton_self]
        by_cases hr : remaining w = 0
        · obtain ⟨fault, hdone⟩ := done_of_remaining hr
          simp only [move, hdone]
          omega
        · have hlt := remaining_move_lt s policy crew.cancelled w hr
          omega
      · have hzero : [j].count i = 0 := by
          rw [List.count_singleton]
          simp [hji]
        refine ⟨w, ?_, by omega⟩
        cases hu : crew.workers[j]? with
        | none =>
          rw [step_of_none hu]
          exact hw
        | some u =>
          rw [step_of_some hu, List.getElem?_set_ne hji]
          exact hw
    obtain ⟨v, hv, hle⟩ := hstep
    obtain ⟨u, hu, hle'⟩ := ih hv
    refine ⟨u, hu, ?_⟩
    have hcount : (j :: rest).count i = [j].count i + rest.count i := by
      rw [← List.count_append]
      rfl
    omega

theorem remaining_le_count_finishing {i : Nat} {w : Worker} (hw : crew.workers[i]? = some w) :
    remaining w ≤ crew.finishing.count i := by
  have hmem : (w, i) ∈ crew.workers.zipIdx := List.mem_zipIdx_iff_getElem?.2 hw
  have hsub : (List.replicate (remaining w) i).Sublist crew.finishing := by
    rw [finishing, List.flatMap_def]
    exact List.sublist_flatten_of_mem (List.mem_map.2 ⟨(w, i), hmem, rfl⟩)
  have hcount := hsub.count_le i
  rw [List.count_replicate_self] at hcount
  exact hcount

/-- At the end of a run all workers are done. -/
theorem done_run (crew : Crew) (schedule : List Nat) {i : Nat} {v : Worker}
    (hv : (crew.run s policy schedule).workers[i]? = some v) : ∃ fault, v.phase = .done fault := by
  have hi := lt_of_worker hv
  rw [run, length_follow] at hi
  have hw := List.getElem?_eq_getElem hi
  obtain ⟨u, hu, hle⟩ := remaining_follow s policy
    (crew.follow s policy schedule).finishing hw
  obtain rfl : u = v := Option.some.inj (hu.symm.trans hv)
  have hfinish := remaining_le_count_finishing hw
  exact done_of_remaining (by omega)

theorem fault?_eq_none {w : Worker} (h : ∀ e, w.phase ≠ .done (some e)) : fault? w = none := by
  unfold fault?
  split
  next fault hdone =>
    cases fault with
    | none => rfl
    | some e => exact absurd hdone (h e)
  · rfl

/-- The flag tells the result. -/
theorem Sound.result_eq_ok_iff {msgId : UInt32} (hs : crew.Sound msgId shares) :
    crew.result = .ok () ↔ crew.cancelled = false := by
  have hresult : crew.result = .ok () ↔ crew.workers.findSome? fault? = none := by
    rw [result]
    split
    next e he => simp [he]
    next he => simp [he]
  rw [hresult, List.findSome?_eq_none_iff]
  constructor
  · intro hnone
    cases hc : crew.cancelled with
    | false => rfl
    | true =>
      obtain ⟨i, w, e, hw, hdone, -⟩ := hs.cause hc
      have hfault := hnone w (List.mem_of_getElem? hw)
      rw [fault?, hdone] at hfault
      cases hfault
  · intro hc w hm
    obtain ⟨i, hw⟩ := List.mem_iff_getElem?.1 hm
    refine fault?_eq_none fun e hdone => ?_
    rw [hs.faulty i w e hw hdone] at hc
    cases hc

/-- **A crew that ran to its end.** Whatever the schedule, there is no fault exactly if every
fragment was settled, and then each one was sent once; in no case anything happened to a fragment
of others. -/
theorem run_crew (s : Sender) (policy : FailurePolicy) {count : Nat} (hcount : 0 < count)
    {fragments : List Fragment} (hn : fragments.Nodup) (schedule : List Nat) {crew : Crew}
    (hcrew : crew = (ofFragments count fragments).run s policy schedule) :
    (crew.result = .ok () ↔ ∀ f ∈ fragments, Settled s.msgId crew.events f) ∧
      (crew.result = .ok () → (sentFragments crew.events).Perm fragments) ∧
      ∀ e ∈ crew.events, e.fragment ∈ fragments := by
  have hs : crew.Sound s.msgId (share count fragments) := by
    rw [hcrew, run_eq_follow]
    exact sound_follow s policy count hn _
  have hlen : crew.workers.length = count := by
    rw [hcrew, run_eq_follow, length_follow, length_ofFragments]
  have hmine : ∀ e ∈ crew.events, e.fragment ∈ fragments := by
    intro e he
    obtain ⟨i, hi, hf⟩ := hs.shared e he
    exact (mem_share_iff hcount).1 ⟨i, hlen ▸ hi, hf⟩
  have hsettled : crew.cancelled = false → ∀ f ∈ fragments, Settled s.msgId crew.events f := by
    intro hc f hf
    obtain ⟨i, hi, hfi⟩ := (mem_share_iff hcount).2 hf
    rw [← hlen] at hi
    have hw := List.getElem?_eq_getElem hi
    obtain ⟨fault, hdone⟩ : ∃ fault, crew.workers[i].phase = .done fault := by
      subst hcrew
      exact done_run _ schedule hw
    have hprogress := hs.progress hc i _ hw
    cases fault with
    | none =>
      rw [Worker.Progress, hdone] at hprogress
      exact hprogress f hfi
    | some e =>
      rw [hs.faulty i _ e hw hdone] at hc
      cases hc
  rw [hs.result_eq_ok_iff]
  refine ⟨⟨hsettled, fun hall => ?_⟩, fun hc => ?_, hmine⟩
  · cases hc : crew.cancelled with
    | false => rfl
    | true =>
      obtain ⟨i, w, e, hw, -, f, hf, hns⟩ := hs.cause hc
      have hi : i < count := hlen ▸ lt_of_worker hw
      exact absurd (hall f ((mem_share_iff hcount).1 ⟨i, hi, hf⟩)) hns
  · refine (List.perm_ext_iff_of_nodup (hs.once hc) hn).2 fun f => ⟨fun hf => ?_, fun hf => ?_⟩
    · exact hmine _ (mem_sentFragments.1 hf)
    · exact mem_sentFragments.2 (hsettled hc f hf).1

end Crew

end PacketOffload.Slmp
