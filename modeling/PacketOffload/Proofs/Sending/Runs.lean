import PacketOffload.Proofs.Sending.Crew

/-!
# One worker in a run

The workers of a crew have nothing in common but the flag. What a worker keeps at each of its own
steps, given what is known of the flag, it keeps over a run, whoever else moves meanwhile.

Main statement: a property of a worker and of what it did so far, which each of its steps keeps,
holds after a run (`follow_keeps`).
-/

namespace PacketOffload.Slmp

namespace Crew

/-- What one worker did, in its order. -/
def doneBy (i : Nat) (log : List (Nat × Event)) : List Event :=
  log.filterMap fun entry => if entry.1 = i then some entry.2 else none

/-- The fragments that one worker sent, in their order. -/
def sentBy (crew : Crew) (i : Nat) : List Fragment := sentFragments (doneBy i crew.log)

variable {s : Sender} {policy : FailurePolicy} {crew : Crew}

theorem doneBy_append (i : Nat) (log more : List (Nat × Event)) :
    doneBy i (log ++ more) = doneBy i log ++ doneBy i more :=
  List.filterMap_append

theorem doneBy_self (i : Nat) (events : List Event) :
    doneBy i (events.map fun event => (i, event)) = events := by
  simp [doneBy]

theorem doneBy_other {i j : Nat} (hne : j ≠ i) (events : List Event) :
    doneBy i (events.map fun event => (j, event)) = [] := by
  simp [doneBy, hne]

/-- Everything that was sent, some worker sent. -/
theorem mem_sentFragments_log {log : List (Nat × Event)} {f : Fragment} :
    f ∈ sentFragments (log.map (·.2)) ↔ ∃ i, f ∈ sentFragments (doneBy i log) := by
  simp only [mem_sentFragments, doneBy, List.mem_map, List.mem_filterMap]
  constructor
  · rintro ⟨⟨i, event⟩, hm, rfl⟩
    exact ⟨i, (i, .sent f), hm, if_pos rfl⟩
  · rintro ⟨i, ⟨j, event⟩, hm, hsome⟩
    split at hsome
    · exact ⟨(j, event), hm, Option.some.inj hsome⟩
    · cases hsome

/-- Nothing was sent twice if no worker sent anything twice, and no two the same. -/
theorem nodup_of_doneBy {log : List (Nat × Event)}
    (heach : ∀ i, (sentFragments (doneBy i log)).Nodup)
    (hapart : ∀ i j f, f ∈ sentFragments (doneBy i log) → f ∈ sentFragments (doneBy j log) →
      i = j) :
    (sentFragments (log.map (·.2))).Nodup := by
  induction log with
  | nil => exact List.nodup_nil
  | cons entry rest ih =>
    obtain ⟨k, event⟩ := entry
    have hcons : ∀ i, sentFragments (doneBy i ((k, event) :: rest)) =
        sentFragments (doneBy i [(k, event)]) ++ sentFragments (doneBy i rest) := fun i => by
      rw [← sentFragments_append, ← doneBy_append, List.singleton_append]
    have hmem : ∀ {i f}, f ∈ sentFragments (doneBy i rest) →
        f ∈ sentFragments (doneBy i ((k, event) :: rest)) := fun {i f} hf => by
      rw [hcons]
      exact List.mem_append_right _ hf
    have hrest := ih (fun i => by
        have hi := heach i
        rw [hcons] at hi
        exact (List.nodup_append.1 hi).2.1)
      fun i j f hi hj => hapart i j f (hmem hi) (hmem hj)
    cases event with
    | replied | timedOut | unread => exact hrest
    | sent f =>
      refine List.nodup_cons.2 ⟨fun hf => ?_, hrest⟩
      -- Whoever sent `f` later is worker `k` again, who then sent it twice.
      obtain ⟨j, hj⟩ := mem_sentFragments_log.1 hf
      have hown : sentFragments (doneBy k [(k, .sent f)]) = [f] := by simp [doneBy, sentFragments]
      have hk := heach k
      have hfk : f ∈ sentFragments (doneBy k ((k, .sent f) :: rest)) := by
        rw [hcons, hown]
        exact List.mem_cons_self
      obtain rfl := hapart j k f (hmem hj) hfk
      rw [hcons, hown] at hk
      exact (List.nodup_cons.1 hk).1 hj

/-! ## Steps -/

/-- A step of another worker changes nothing for a worker but the flag. -/
theorem step_other (s : Sender) (policy : FailurePolicy) {i j : Nat} (hne : j ≠ i) (crew : Crew) :
    (crew.step s policy j).workers[i]? = crew.workers[i]? ∧
      doneBy i (crew.step s policy j).log = doneBy i crew.log := by
  cases hu : crew.workers[j]? with
  | none =>
    rw [step_of_none hu]
    exact ⟨rfl, rfl⟩
  | some u =>
    rw [step_of_some hu, List.getElem?_set_ne hne, doneBy_append, doneBy_other hne,
      List.append_nil]
    exact ⟨rfl, rfl⟩

theorem step_self (s : Sender) (policy : FailurePolicy) {i : Nat} {w : Worker}
    (hw : crew.workers[i]? = some w) :
    (crew.step s policy i).workers[i]? = some (move s policy crew.cancelled w).1 ∧
      doneBy i (crew.step s policy i).log =
        doneBy i crew.log ++ (move s policy crew.cancelled w).2.2 := by
  rw [step_of_some hw, doneBy_append, doneBy_self]
  exact ⟨List.getElem?_set_self (lt_of_worker hw), rfl⟩

/-- What is known of the flag stays true if no step of any worker ends it. -/
theorem flag_step {flag : Bool → Prop}
    (hflag : ∀ c w, flag c → flag (move s policy c w).2.1) (hc : flag crew.cancelled) (j : Nat) :
    flag (crew.step s policy j).cancelled := by
  cases hu : crew.workers[j]? with
  | none =>
    rw [step_of_none hu]
    exact hc
  | some u =>
    rw [step_of_some hu]
    exact hflag crew.cancelled u hc

/-! ## Runs -/

/-- **What a worker keeps.** What each step of a worker keeps, a run keeps. -/
theorem follow_keeps (s : Sender) (policy : FailurePolicy) (flag : Bool → Prop)
    {P : Worker → List Event → Prop}
    (hflag : ∀ c w, flag c → flag (move s policy c w).2.1)
    (hstep : ∀ c w log, flag c → P w log →
      P (move s policy c w).1 (log ++ (move s policy c w).2.2))
    {i : Nat} {w : Worker} (hc : flag crew.cancelled) (hw : crew.workers[i]? = some w)
    (hP : P w (doneBy i crew.log)) (turns : List Nat) :
    ∃ v, (crew.follow s policy turns).workers[i]? = some v ∧
      P v (doneBy i (crew.follow s policy turns).log) := by
  induction turns generalizing crew w with
  | nil => exact ⟨w, hw, hP⟩
  | cons j rest ih =>
    by_cases hji : j = i
    · subst hji
      obtain ⟨hv, hlog⟩ := step_self s policy hw
      refine ih (flag_step hflag hc j) hv ?_
      rw [hlog]
      exact hstep _ w _ hc hP
    · obtain ⟨hv, hlog⟩ := step_other s policy hji crew
      refine ih (flag_step hflag hc j) (hv.trans hw) ?_
      rw [hlog]
      exact hP

/-- The same, whatever the flag is. -/
theorem follow_keeps_always (s : Sender) (policy : FailurePolicy) {P : Worker → List Event → Prop}
    (hstep : ∀ c w log, P w log → P (move s policy c w).1 (log ++ (move s policy c w).2.2))
    {i : Nat} {w : Worker} (hw : crew.workers[i]? = some w) (hP : P w (doneBy i crew.log))
    (turns : List Nat) :
    ∃ v, (crew.follow s policy turns).workers[i]? = some v ∧
      P v (doneBy i (crew.follow s policy turns).log) :=
  follow_keeps s policy (fun _ => True) (fun _ _ h => h) (fun c w log _ => hstep c w log) trivial hw
    hP turns

/-- Who is no worker does nothing. -/
theorem doneBy_of_none {i : Nat} (hw : crew.workers[i]? = none) (turns : List Nat) :
    doneBy i (crew.follow s policy turns).log = doneBy i crew.log := by
  induction turns generalizing crew with
  | nil => rfl
  | cons j rest ih =>
    by_cases hji : j = i
    · subst hji
      rw [follow_cons, step_of_none hw]
      exact ih hw
    · obtain ⟨hv, hlog⟩ := step_other s policy hji crew
      exact (ih (hv.trans hw)).trans hlog

end Crew

end PacketOffload.Slmp
