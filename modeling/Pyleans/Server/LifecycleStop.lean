import Pyleans.Server.Lifecycle

namespace Pyleans

open Library

/-- How an `on_stop` ends; none of it reaches `stop()`. -/
inductive StopOutcome
  | returned
  | raised
  | cancelled
deriving DecidableEq

/-- `cancelled` has been cancelled at the end of its stage's time and goes on;
`hanging` has taken no notice of that and goes on for ever. -/
inductive OnStop
  | notCalled
  | running
  | cancelled
  | hanging
  | ended (outcome : StopOutcome)
deriving DecidableEq

/-- `entering` has set the time of a stage and made the tasks of its `on_stop`s,
and none of them has run. -/
inductive LifecycleStopPhase
  | notStopped
  | entering (stage : ℤ) (rest : List ℤ)
  | stopping (stage : ℤ) (rest : List ℤ) (timedOut : Bool)
  | stopped
deriving DecidableEq

/-- A lifecycle that has started and is stopped; `onStops` are the participants
whose `on_stop` was called, in the order of the calls. -/
structure LifecycleStop where
  onStop : ℕ → OnStop
  onStops : List ℕ
  completed : List ℤ
  phase : LifecycleStopPhase

/-- A stage is `overdue` when its time was up as soon as it was set: the tasks of
its `on_stop`s are then cancelled before they run. -/
inductive LifecycleStopEvent
  | stop
  | call
  | overdue
  | finish (participant : ℕ) (outcome : StopOutcome)
  | timeout
  | hang (participant : ℕ)
  | stageDone
deriving DecidableEq

namespace SiloLifecycle

/-- Where a start is: the completed stages and the one in progress are the first ones,
and no other participant has been called. -/
structure Climbing (subs : Subscriptions) (s : SiloLifecycle) (current : Option ℤ) : Prop where
  first : s.completed ++ current.toList <+: subs.stages
  succeeded : ∀ stage ∈ s.completed, s.Succeeded subs stage
  called i : s.onStart i ≠ .notCalled → ∃ stage ∈ s.completed ++ current.toList,
    i ∈ subs.participants stage
  starting : ∀ {stage rest timedOut raised}, s.phase = .starting stage rest timedOut raised →
    current = some stage ∧ s.completed ++ stage :: rest = subs.stages ∧ s.onStops = []
  started : s.phase = .started → s.completed = subs.stages ∧ s.onStops = []
  created : s.phase = .created → s.completed = [] ∧ current = none ∧ s.onStops = []

variable {subs : Subscriptions} {s s' : SiloLifecycle} {e : LifecycleEvent} {current : Option ℤ}

theorem climbing_created : Climbing subs created none where
  first := List.nil_prefix
  succeeded _ h := absurd h List.not_mem_nil
  called _ h := absurd rfl h
  starting := LifecyclePhase.noConfusion
  started := LifecyclePhase.noConfusion
  created _ := ⟨rfl, rfl, rfl⟩

theorem Climbing.enterStage {completed rest : List ℤ} (hall : completed ++ rest = subs.stages)
    (hstops : s.onStops = []) (hsucceeded : ∀ stage ∈ completed, s.Succeeded subs stage)
    (hcalled : ∀ i, s.onStart i ≠ .notCalled → ∃ stage ∈ completed, i ∈ subs.participants stage) :
    Climbing subs ({ s with completed := completed }.enterStage subs rest) rest.head? := by
  cases rest with
  | nil =>
    rw [List.append_nil] at hall
    exact {
      first := ⟨[], by rw [List.append_nil]; exact (List.append_nil _).trans hall⟩
      succeeded := hsucceeded
      called := fun i hi ↦ by
        obtain ⟨stage, hstage, hmem⟩ := hcalled i hi
        exact ⟨stage, List.mem_append_left _ hstage, hmem⟩
      starting := LifecyclePhase.noConfusion
      started := fun _ ↦ ⟨hall, hstops⟩
      created := LifecyclePhase.noConfusion }
  | cons stage rest =>
    have hnodup : (completed ++ stage :: rest).Nodup :=
      hall ▸ subs.stages_pairwise.imp fun h ↦ ne_of_lt h
    exact {
      first := ⟨rest, by rw [List.append_assoc]; exact hall⟩
      succeeded := fun stage' hstage i hi ↦ by
        have hne : stage' ≠ stage := fun h ↦
          (List.nodup_append.mp hnodup).2.2 stage' hstage stage List.mem_cons_self h
        have hnot : i ∉ subs.participants stage := fun h ↦ hne (Option.some.inj
          ((Subscriptions.mem_participants.mp hi).symm.trans (Subscriptions.mem_participants.mp h)))
        simp only [SiloLifecycle.enterStage, if_neg hnot]
        exact hsucceeded stage' hstage i hi
      called := fun i hi ↦ by
        simp only [SiloLifecycle.enterStage] at hi
        split_ifs at hi with hmem
        · exact ⟨stage, List.mem_append_right _ (List.mem_singleton.mpr rfl), hmem⟩
        · obtain ⟨stage', hstage, hmem⟩ := hcalled i hi
          exact ⟨stage', List.mem_append_left _ hstage, hmem⟩
      starting := fun h ↦ by
        obtain ⟨rfl, rfl, -, -⟩ := LifecyclePhase.starting.inj h
        exact ⟨rfl, hall, hstops⟩
      started := LifecyclePhase.noConfusion
      created := LifecyclePhase.noConfusion }

theorem Climbing.keep (h : Climbing subs s current) (hcompleted : s'.completed = s.completed)
    (hended : ∀ i, s'.onStart i = s.onStart i ∨ s.onStart i = .running)
    (hstarting : ∀ {stage rest timedOut raised}, s'.phase = .starting stage rest timedOut raised →
      current = some stage ∧ s.completed ++ stage :: rest = subs.stages ∧ s'.onStops = [])
    (hstarted : s'.phase = .started → s.completed = subs.stages ∧ s'.onStops = [])
    (hcreated : s'.phase = .created → s.completed = [] ∧ current = none ∧ s'.onStops = []) :
    Climbing subs s' current where
  first := hcompleted ▸ h.first
  succeeded stage hstage i hi := by
    have hsuccess := h.succeeded stage (hcompleted ▸ hstage) i hi
    rcases hended i with hsame | hrunning
    · exact hsame.trans hsuccess
    · rw [hrunning] at hsuccess
      cases hsuccess
  called i hi := by
    rw [hcompleted]
    refine h.called i fun hnot ↦ ?_
    rcases hended i with hsame | hrunning
    · exact hi (hsame.trans hnot)
    · rw [hrunning] at hnot
      cases hnot
  starting := hcompleted.symm ▸ hstarting
  started := hcompleted.symm ▸ hstarted
  created := hcompleted.symm ▸ hcreated

theorem Climbing.step (h : Climbing subs s current) (hs : step subs s e = some s') :
    ∃ current', Climbing subs s' current' := by
  cases moves_of_step hs with
  | start hphase =>
    obtain ⟨hcompleted, hnone, hstops⟩ := h.created hphase
    have hentered : Climbing subs
      (({ s with completed := s.completed } : SiloLifecycle).enterStage subs subs.stages)
        subs.stages.head? := by
      refine Climbing.enterStage ?_ hstops h.succeeded fun i hi ↦ ?_
      · rw [hcompleted, List.nil_append]
      · obtain ⟨stage, hstage, hmem⟩ := h.called i hi
        rw [hnone, Option.toList_none, List.append_nil] at hstage
        exact ⟨stage, hstage, hmem⟩
    exact ⟨_, hentered⟩
  | finish i outcome hi =>
    refine ⟨current, h.keep rfl (fun j ↦ ?_) ?_ ?_ ?_⟩
    · by_cases hj : j = i
      · exact .inr (hj ▸ hi)
      · exact .inl (Function.update_of_ne hj _ _)
    · intro stage rest timedOut raised hphase
      rcases note_cases subs s i outcome with hnote
        | ⟨stage', rest', timedOut', raised', hold, hnote⟩
      · exact h.starting (hnote.symm.trans hphase)
      · obtain ⟨rfl, rfl, -, -⟩ := LifecyclePhase.starting.inj (hnote.symm.trans hphase)
        exact h.starting hold
    · intro hphase
      rcases note_cases subs s i outcome with hnote | ⟨_, _, _, _, -, hnote⟩
      · exact h.started (hnote.symm.trans hphase)
      · exact LifecyclePhase.noConfusion (hnote.symm.trans hphase)
    · intro hphase
      rcases note_cases subs s i outcome with hnote | ⟨_, _, _, _, -, hnote⟩
      · exact h.created (hnote.symm.trans hphase)
      · exact LifecyclePhase.noConfusion (hnote.symm.trans hphase)
  | timeout hphase =>
    refine ⟨current, h.keep rfl (fun _ ↦ .inl rfl) ?_ LifecyclePhase.noConfusion
      LifecyclePhase.noConfusion⟩
    intro stage rest timedOut raised hnew
    obtain ⟨rfl, rfl, -, -⟩ := LifecyclePhase.starting.inj hnew
    exact h.starting hphase
  | @stageDone stage rest hphase hsucceeded =>
    obtain ⟨hcurrent, hall, hstops⟩ := h.starting hphase
    refine ⟨_, Climbing.enterStage ?_ hstops ?_ ?_⟩
    · rw [List.append_assoc]
      exact hall
    · intro stage' hstage'
      rcases List.mem_append.mp hstage' with hbefore | hnow
      · exact h.succeeded stage' hbefore
      · exact List.mem_singleton.mp hnow ▸ hsucceeded
    · intro i hi
      have hcalled := h.called i hi
      rwa [hcurrent] at hcalled
  | _ =>
    exact ⟨current, h.keep rfl (fun _ ↦ .inl rfl) LifecyclePhase.noConfusion
      LifecyclePhase.noConfusion
      LifecyclePhase.noConfusion⟩

theorem climbing_of_exec {events : List LifecycleEvent}
    (h : exec (SiloLifecycle.step subs) created events = some s) :
    ∃ current, Climbing subs s current :=
  (reachable_of_exec h).invariant (I := fun s ↦ ∃ current, Climbing subs s current)
    ⟨none, climbing_created⟩
    fun _ _ _ hi _ hs ↦ hi.elim fun _ hc ↦ hc.step hs

theorem Climbing.ascending (h : Climbing subs s current) {i j : ℕ} {stage stage' : ℤ}
    (hi : subs[i]? = some stage) (hj : subs[j]? = some stage') (hlt : stage' < stage)
    (hcalled : s.onStart i ≠ .notCalled) :
    s.onStart j = .ended .success := by
  obtain ⟨own, hmem, hown⟩ := h.called i hcalled
  obtain rfl : own = stage :=
    Option.some.inj ((Subscriptions.mem_participants.mp hown).symm.trans hi)
  suffices hbefore : stage' ∈ s.completed from h.succeeded stage' hbefore j
    (Subscriptions.mem_participants.mpr hj)
  obtain ⟨later, hall⟩ := h.first
  have hsorted := hall ▸ subs.stages_pairwise
  have hstage' : stage' ∈ s.completed ++ current.toList ++ later :=
    hall ▸ Subscriptions.mem_stages.mpr (List.mem_of_getElem? hj)
  obtain ⟨hfirst, -, hlater⟩ := List.pairwise_append.mp hsorted
  obtain ⟨-, -, hcurrent⟩ := List.pairwise_append.mp hfirst
  rcases List.mem_append.mp hstage' with hstage' | hstage'
  · rcases List.mem_append.mp hstage' with hbefore | hnow
    · exact hbefore
    · rcases List.mem_append.mp hmem with hmem | hmem
      · have := hcurrent own hmem stage' hnow
        omega
      · have hsame := (Option.mem_toList.mp hmem).symm.trans (Option.mem_toList.mp hnow)
        have := Option.some.inj hsame
        omega
  · have := hlater own hmem stage' hstage'
    omega

end SiloLifecycle

namespace LifecycleStop

def of (s : SiloLifecycle) : LifecycleStop :=
  ⟨fun _ ↦ .notCalled, s.onStops, s.completed, .notStopped⟩

def nextStage (s : LifecycleStop) : List ℤ → LifecycleStop
  | [] => { s with completed := [], phase := .stopped }
  | stage :: rest => { s with phase := .entering stage rest }

section

variable (subs : Subscriptions)

def Ended (s : LifecycleStop) (stage : ℤ) : Prop :=
  ∀ i ∈ subs.participants stage, ∃ outcome, s.onStop i = .ended outcome

instance (s : LifecycleStop) (stage : ℤ) : Decidable (s.Ended subs stage) :=
  decidable_of_iff (∀ i ∈ subs.participants stage, s.onStop i matches .ended _) <| by
    refine forall₂_congr fun i _ ↦ ?_
    cases s.onStop i <;> simp

def step (s : LifecycleStop) : LifecycleStopEvent → Option LifecycleStop
  | .stop =>
    match s.phase with
    | .notStopped => some (s.nextStage s.completed.reverse)
    | _ => some s
  | .call =>
    match s.phase with
    | .entering stage rest =>
      some { s with
        onStop := fun i ↦ if i ∈ subs.participants stage then .running else s.onStop i
        onStops := s.onStops ++ subs.participants stage
        phase := .stopping stage rest false }
    | _ => none
  | .overdue =>
    match s.phase with
    | .entering _ rest => some (s.nextStage rest)
    | _ => none
  | .finish i outcome =>
    if s.onStop i = .running ∨ s.onStop i = .cancelled then
      some { s with onStop := Function.update s.onStop i (.ended outcome) }
    else none
  | .timeout =>
    match s.phase with
    | .stopping stage rest false =>
      if s.Ended subs stage then none
      else
        some { s with
          onStop := fun i ↦ if s.onStop i = .running then .cancelled else s.onStop i
          phase := .stopping stage rest true }
    | _ => none
  | .hang i =>
    if s.onStop i = .cancelled then
      some { s with onStop := Function.update s.onStop i .hanging } else none
  | .stageDone =>
    match s.phase with
    | .stopping stage rest _ => if s.Ended subs stage then some (s.nextStage rest) else none
    | _ => none

/-- What each event finds, and what is left after it. -/
inductive Moves (s : LifecycleStop) : LifecycleStopEvent → LifecycleStop → Prop
  | stop (hphase : s.phase = .notStopped) : Moves s .stop (s.nextStage s.completed.reverse)
  | again (hphase : s.phase ≠ .notStopped) : Moves s .stop s
  | call {stage : ℤ} {rest : List ℤ} (hphase : s.phase = .entering stage rest) :
      Moves s .call { s with
        onStop := fun i ↦ if i ∈ subs.participants stage then .running else s.onStop i
        onStops := s.onStops ++ subs.participants stage
        phase := .stopping stage rest false }
  | overdue {stage : ℤ} {rest : List ℤ} (hphase : s.phase = .entering stage rest) :
      Moves s .overdue (s.nextStage rest)
  | finish (i : ℕ) (outcome : StopOutcome) (hi : s.onStop i = .running ∨ s.onStop i = .cancelled) :
      Moves s (.finish i outcome) { s with onStop := Function.update s.onStop i (.ended outcome) }
  | timeout {stage : ℤ} {rest : List ℤ} (hphase : s.phase = .stopping stage rest false)
      (hstage : ¬ s.Ended subs stage) :
      Moves s .timeout { s with
        onStop := fun i ↦ if s.onStop i = .running then .cancelled else s.onStop i
        phase := .stopping stage rest true }
  | hang (i : ℕ) (hi : s.onStop i = .cancelled) :
      Moves s (.hang i) { s with onStop := Function.update s.onStop i .hanging }
  | stageDone {stage : ℤ} {rest : List ℤ} {timedOut : Bool}
      (hphase : s.phase = .stopping stage rest timedOut)
      (hstage : s.Ended subs stage) : Moves s .stageDone (s.nextStage rest)

theorem moves_of_step {subs : Subscriptions} {s s' : LifecycleStop} {e : LifecycleStopEvent}
    (hs : step subs s e = some s') : Moves subs s e s' := by
  cases e with
  | stop =>
    simp only [step] at hs
    split at hs
    · next hphase =>
      obtain rfl := Option.some.inj hs
      exact .stop hphase
    · next hphase =>
      obtain rfl := Option.some.inj hs
      exact .again hphase
  | call =>
    simp only [step] at hs
    split at hs
    · next hphase =>
      obtain rfl := Option.some.inj hs
      exact .call hphase
    · cases hs
  | overdue =>
    simp only [step] at hs
    split at hs
    · next hphase =>
      obtain rfl := Option.some.inj hs
      exact .overdue hphase
    · cases hs
  | finish i outcome =>
    simp only [step] at hs
    split_ifs at hs with hi
    obtain rfl := Option.some.inj hs
    exact .finish i outcome hi
  | timeout =>
    simp only [step] at hs
    split at hs
    · next hphase =>
      split_ifs at hs with hstage
      obtain rfl := Option.some.inj hs
      exact .timeout hphase hstage
    · cases hs
  | hang i =>
    simp only [step] at hs
    split_ifs at hs with hi
    obtain rfl := Option.some.inj hs
    exact .hang i hi
  | stageDone =>
    simp only [step] at hs
    split at hs
    · next hphase =>
      split_ifs at hs with hstage
      obtain rfl := Option.some.inj hs
      exact .stageDone hphase hstage
    · cases hs

/-- No `on_stop` is in progress but those that go on for ever. -/
def Quiet (s : LifecycleStop) : Prop :=
  ∀ i < subs.length, s.onStop i ≠ .running ∧ s.onStop i ≠ .cancelled

instance (s : LifecycleStop) : Decidable (s.Quiet subs) := by unfold Quiet; infer_instance

/-- `stop()` has returned, or waits for what goes on for ever. -/
def AtRest (s : LifecycleStop) : Prop := ∀ e, e ≠ .stop → step subs s e = none

/-- Nobody is started before all of the lower stages have succeeded. -/
def StartsInOrder (events : List LifecycleEvent) : Prop :=
  ∀ before s, before <+: events →
    exec (SiloLifecycle.step subs) SiloLifecycle.created before = some s →
    ∀ i j stage stage', subs[i]? = some stage → subs[j]? = some stage' → stage' < stage →
      s.onStart i ≠ .notCalled → s.onStart j = .ended .success

/-- Everybody is stopped once, later stages first, and `stop()` once called does nothing more. -/
structure StopsInOrder (start : LifecycleStop) (events : List LifecycleStopEvent)
    (s : LifecycleStop) : Prop where
  once : s.onStops.Perm (List.range subs.length)
  descending : s.onStops.Pairwise fun i j ↦ ∀ k l, subs[i]? = some k → subs[j]? = some l → l ≤ k
  again before t t' : before ++ [.stop] <+: events → .stop ∈ before →
    exec (step subs) start before = some t →
    step subs t .stop = some t' → t' = t

/-- The time of a stage is not up before its `on_stop`s are called, and none of them goes on for
ever once cancelled, save at the lowest stage. -/
structure Obliging (events : List LifecycleStopEvent) : Prop where
  called : .overdue ∉ events
  ends (i j : ℕ) (stage stage' : ℤ) :
    .hang i ∈ events → subs[i]? = some stage → subs[j]? = some stage' → stage ≤ stage'

instance (events : List LifecycleStopEvent) : Decidable (Obliging subs events) :=
  decidable_of_iff (.overdue ∉ events ∧ ∀ e ∈ events, ∀ i < subs.length, e = .hang i →
      ∀ stage ∈ subs[i]?, ∀ stage' ∈ subs, stage ≤ stage') <| by
    constructor
    · rintro ⟨hcalled, hends⟩
      refine ⟨hcalled, fun i j stage stage' hi hstage hstage' ↦ ?_⟩
      exact hends _ hi i (List.getElem?_eq_some_iff.mp hstage).1 rfl stage hstage stage'
        (List.mem_of_getElem? hstage')
    · rintro ⟨hcalled, hends⟩
      refine ⟨hcalled, ?_⟩
      rintro e he i - rfl stage hstage stage' hstage'
      obtain ⟨j, hj⟩ := List.mem_iff_getElem?.mp hstage'
      exact hends i j stage stage' he hstage hj

def Over (o : OnStop) : Prop := o = .notCalled ∨ ∃ outcome, o = .ended outcome

def Phased (s : LifecycleStop) (done called : List ℤ) : Prop :=
  match s.phase with
  | .notStopped => done = [] ∧ s.completed = subs.stages ∧ ∀ i, s.onStop i = .notCalled
  | .entering stage rest => done ++ stage :: rest = subs.stages.reverse ∧ ∀ i, Over (s.onStop i)
  | .stopping stage rest _ =>
    done ++ rest = subs.stages.reverse ∧ (∃ before, called = before ++ [stage]) ∧
      (∀ i ∈ subs.participants stage, s.onStop i ≠ .notCalled) ∧
      ∀ i, i ∉ subs.participants stage → Over (s.onStop i)
  | .stopped => done = subs.stages.reverse ∧ ∀ i, Over (s.onStop i)

/-- Where a stop is: the stages that are done with or in progress, and those of them whose
`on_stop`s were called. -/
structure Falling (events : List LifecycleStopEvent) (s : LifecycleStop) (done called : List ℤ) :
    Prop where
  sublist : called.Sublist done
  all : called = done ↔ .overdue ∉ events
  onStops : s.onStops = called.flatMap subs.participants
  hang i : .hang i ∈ events ↔ s.onStop i = .hanging
  phased : s.Phased subs done called

variable {subs} {s s' : LifecycleStop} {e : LifecycleStopEvent} {events : List LifecycleStopEvent}
  {done called : List ℤ}

theorem mem_snoc {e e' : LifecycleStopEvent} (h : e' ≠ e) : e' ∈ events ++ [e] ↔ e' ∈ events := by
  rw [List.mem_append, List.mem_singleton, or_iff_left h]

theorem not_over {o : OnStop} (h : o = .running ∨ o = .cancelled ∨ o = .hanging) : ¬ Over o := by
  rintro (rfl | ⟨outcome, rfl⟩) <;> simp at h

theorem phased_nextStage {rest : List ℤ} (hover : ∀ i, Over (s.onStop i))
    (hrest : done ++ rest = subs.stages.reverse) : (s.nextStage rest).Phased subs done called := by
  cases rest with
  | nil => exact ⟨(List.append_nil done).symm.trans hrest, hover⟩
  | cons stage rest => exact ⟨hrest, hover⟩

@[simp] theorem nextStage_onStop (rest : List ℤ) : (s.nextStage rest).onStop = s.onStop := by
  cases rest <;> rfl

@[simp] theorem nextStage_onStops (rest : List ℤ) : (s.nextStage rest).onStops = s.onStops := by
  cases rest <;> rfl

theorem Falling.nextStage (h : Falling subs events s done called) (he : ∀ i, e ≠ .hang i)
    (hoverdue : e ≠ .overdue) {rest : List ℤ} (hover : ∀ i, Over (s.onStop i))
    (hrest : done ++ rest = subs.stages.reverse) :
    Falling subs (events ++ [e]) (s.nextStage rest) done called where
  sublist := h.sublist
  all := by rw [mem_snoc hoverdue.symm, h.all]
  onStops := by rw [nextStage_onStops, h.onStops]
  hang i := by rw [mem_snoc (he i).symm, nextStage_onStop, h.hang]
  phased := phased_nextStage hover hrest

/-- An `on_stop` in progress belongs to the stage in progress. -/
theorem Falling.phase_of_running (h : Falling subs events s done called) {i : ℕ}
    (hi : s.onStop i = .running ∨ s.onStop i = .cancelled ∨ s.onStop i = .hanging) :
    ∃ stage rest timedOut, s.phase = .stopping stage rest timedOut ∧
      i ∈ subs.participants stage := by
  have hphased := h.phased
  rw [Phased] at hphased
  cases hphase : s.phase with
  | notStopped =>
    rw [hphase] at hphased
    exact absurd (.inl (hphased.2.2 i)) (not_over hi)
  | entering stage rest =>
    rw [hphase] at hphased
    exact absurd (hphased.2 i) (not_over hi)
  | stopping stage rest timedOut =>
    rw [hphase] at hphased
    refine ⟨stage, rest, timedOut, rfl, ?_⟩
    by_contra hnot
    exact not_over hi (hphased.2.2.2 i hnot)
  | stopped =>
    rw [hphase] at hphased
    exact absurd (hphased.2 i) (not_over hi)

theorem Falling.goOn (h : Falling subs events s done called) (hoverdue : e ≠ .overdue) {stage : ℤ}
    {rest : List ℤ} {timedOut timedOut' : Bool} (hphase : s.phase = .stopping stage rest timedOut)
    (hphase' : s'.phase = .stopping stage rest timedOut') (hstops : s'.onStops = s.onStops)
    (hhang : ∀ i, .hang i ∈ events ++ [e] ↔ s'.onStop i = .hanging)
    (hreached : ∀ i, s.onStop i ≠ .notCalled → s'.onStop i ≠ .notCalled)
    (hothers : ∀ i, i ∉ subs.participants stage → s'.onStop i = s.onStop i) :
    Falling subs (events ++ [e]) s' done called where
  sublist := h.sublist
  all := by rw [mem_snoc hoverdue.symm, h.all]
  onStops := hstops.trans h.onStops
  hang := hhang
  phased := by
    have hphased := h.phased
    rw [Phased, hphase] at hphased
    obtain ⟨hrest, hmem, hcalled, hover⟩ := hphased
    rw [Phased, hphase']
    refine ⟨hrest, hmem, fun i hi ↦ hreached i (hcalled i hi), fun i hi ↦ ?_⟩
    rw [hothers i hi]
    exact hover i hi

theorem Falling.call (h : Falling subs events s done called) {stage : ℤ} {rest : List ℤ}
    (hphase : s.phase = .entering stage rest) :
    Falling subs (events ++ [.call])
      { s with
        onStop := fun i ↦ if i ∈ subs.participants stage then .running else s.onStop i
        onStops := s.onStops ++ subs.participants stage
        phase := .stopping stage rest false } (done ++ [stage]) (called ++ [stage]) := by
  have hphased := h.phased
  rw [Phased, hphase] at hphased
  obtain ⟨hrest, hover⟩ := hphased
  constructor
  · exact h.sublist.append_right _
  · rw [mem_snoc (by exact LifecycleStopEvent.noConfusion), List.append_left_inj, h.all]
  · rw [h.onStops, List.flatMap_append, List.flatMap_singleton]
  · intro i
    rw [mem_snoc (by exact LifecycleStopEvent.noConfusion), h.hang]
    dsimp only
    split_ifs
    · exact iff_of_false (fun hi ↦ not_over (.inr (.inr hi)) (hover i)) not_false
    · rfl
  · refine ⟨by rw [List.append_assoc]; exact hrest, ⟨called, rfl⟩, ?_, ?_⟩
    · intro i hi
      dsimp only
      rw [if_pos hi]
      exact OnStop.noConfusion
    · intro i hi
      dsimp only
      rw [if_neg hi]
      exact hover i

theorem Falling.overdue (h : Falling subs events s done called) {stage : ℤ} {rest : List ℤ}
    (hphase : s.phase = .entering stage rest) :
    Falling subs (events ++ [.overdue]) (s.nextStage rest) (done ++ [stage]) called := by
  have hphased := h.phased
  rw [Phased, hphase] at hphased
  obtain ⟨hrest, hover⟩ := hphased
  constructor
  · exact h.sublist.trans (List.sublist_append_left _ _)
  · refine iff_of_false (fun hsame ↦ ?_)
      (fun hnot ↦ hnot (List.mem_append_right _ (List.mem_singleton.mpr rfl)))
    have hle := h.sublist.length_le
    rw [hsame, List.length_append, List.length_singleton] at hle
    omega
  · rw [nextStage_onStops, h.onStops]
  · intro i
    rw [mem_snoc (by exact LifecycleStopEvent.noConfusion), nextStage_onStop, h.hang]
  · exact phased_nextStage hover (by rw [List.append_assoc]; exact hrest)

theorem Falling.step (h : Falling subs events s done called) (hs : step subs s e = some s') :
    ∃ done' called', Falling subs (events ++ [e]) s' done' called' := by
  cases moves_of_step hs with
  | stop hphase =>
    have hphased := h.phased
    rw [Phased, hphase] at hphased
    obtain ⟨hdone, hcompleted, hnot⟩ := hphased
    refine ⟨done, called, h.nextStage (fun _ ↦ LifecycleStopEvent.noConfusion)
      LifecycleStopEvent.noConfusion
      (fun i ↦ .inl (hnot i)) ?_⟩
    rw [hdone, hcompleted, List.nil_append]
  | again hphase =>
    refine ⟨done, called, h.sublist, ?_, h.onStops, fun i ↦ ?_, h.phased⟩
    · rw [mem_snoc (by exact LifecycleStopEvent.noConfusion), h.all]
    · rw [mem_snoc (by exact LifecycleStopEvent.noConfusion), h.hang]
  | call hphase => exact ⟨_, _, h.call hphase⟩
  | overdue hphase => exact ⟨_, _, h.overdue hphase⟩
  | finish i outcome hi =>
    obtain ⟨stage, rest, timedOut, hphase, hmem⟩ := h.phase_of_running (hi.imp_right .inl)
    refine ⟨done, called, h.goOn LifecycleStopEvent.noConfusion hphase hphase rfl
      (fun j ↦ ?_) (fun j hj ↦ ?_)
      (fun j hj ↦ ?_)⟩
    · rw [mem_snoc (by exact LifecycleStopEvent.noConfusion), h.hang]
      dsimp only
      by_cases hji : j = i
      · rw [hji, Function.update_self]
        exact iff_of_false (fun hh ↦ by rw [hh] at hi; simp at hi) OnStop.noConfusion
      · rw [Function.update_of_ne hji]
    · dsimp only
      by_cases hji : j = i
      · rw [hji, Function.update_self]
        exact OnStop.noConfusion
      · rwa [Function.update_of_ne hji]
    · exact Function.update_of_ne (fun hji : j = i ↦ hj (hji ▸ hmem)) _ _
  | @timeout stage rest hphase hstage =>
    have hphased := h.phased
    rw [Phased, hphase] at hphased
    refine ⟨done, called, h.goOn LifecycleStopEvent.noConfusion hphase rfl rfl
      (fun j ↦ ?_) (fun j hj ↦ ?_)
      (fun j hj ↦ ?_)⟩
    · rw [mem_snoc (by exact LifecycleStopEvent.noConfusion), h.hang]
      dsimp only
      split_ifs with hrunning
      · rw [hrunning]
        exact iff_of_false OnStop.noConfusion not_false
      · rfl
    · dsimp only
      split_ifs
      · exact OnStop.noConfusion
      · exact hj
    · exact if_neg fun hrunning ↦ not_over (.inl hrunning) (hphased.2.2.2 j hj)
  | hang i hi =>
    obtain ⟨stage, rest, timedOut, hphase, hmem⟩ := h.phase_of_running (.inr (.inl hi))
    refine ⟨done, called, h.goOn LifecycleStopEvent.noConfusion hphase hphase rfl
      (fun j ↦ ?_) (fun j hj ↦ ?_)
      (fun j hj ↦ ?_)⟩
    · dsimp only
      by_cases hji : j = i
      · rw [hji, Function.update_self]
        exact iff_of_true (List.mem_append_right _ (List.mem_singleton.mpr rfl)) rfl
      · rw [Function.update_of_ne hji, mem_snoc (fun hh ↦ hji (LifecycleStopEvent.hang.inj hh)),
          h.hang]
    · dsimp only
      by_cases hji : j = i
      · rw [hji, Function.update_self]
        exact OnStop.noConfusion
      · rwa [Function.update_of_ne hji]
    · exact Function.update_of_ne (fun hji : j = i ↦ hj (hji ▸ hmem)) _ _
  | @stageDone stage rest timedOut hphase hstage =>
    have hphased := h.phased
    rw [Phased, hphase] at hphased
    obtain ⟨hrest, -, -, hothers⟩ := hphased
    refine ⟨done, called, h.nextStage (fun _ ↦ LifecycleStopEvent.noConfusion)
      LifecycleStopEvent.noConfusion
      (fun i ↦ ?_) hrest⟩
    by_cases hi : i ∈ subs.participants stage
    · exact .inr (hstage i hi)
    · exact hothers i hi

theorem falling_of (subs : Subscriptions) {start : SiloLifecycle}
    (hcompleted : start.completed = subs.stages) (hstops : start.onStops = []) :
    Falling subs [] (of start) [] [] where
  sublist := .slnil
  all := iff_of_true rfl List.not_mem_nil
  onStops := hstops
  hang _ := iff_of_false List.not_mem_nil OnStop.noConfusion
  phased := ⟨rfl, hcompleted, fun _ ↦ rfl⟩

theorem falling_of_exec {start : LifecycleStop} (h₀ : Falling subs [] start [] [])
    (h : exec (LifecycleStop.step subs) start events = some s) :
    ∃ done called, Falling subs events s done called := by
  induction events using List.reverseRecOn generalizing s with
  | nil =>
    obtain rfl := Option.some.inj h
    exact ⟨[], [], h₀⟩
  | append_singleton events e ih =>
    obtain ⟨t, ht, hs⟩ := exec_append.mp h
    obtain ⟨s', hs', hend⟩ := exec_cons.mp hs
    obtain rfl := Option.some.inj hend
    obtain ⟨done, called, hf⟩ := ih ht
    exact hf.step hs'

theorem phase_of_stop (hs : step subs s e = some s') (h : s.phase ≠ .notStopped ∨ e = .stop) :
    s'.phase ≠ .notStopped := by
  have hnext : ∀ (t : LifecycleStop) rest, (t.nextStage rest).phase ≠ .notStopped := fun t rest ↦ by
    cases rest <;> exact LifecycleStopPhase.noConfusion
  cases moves_of_step hs with
  | stop hphase => exact hnext _ _
  | again hphase => exact hphase
  | call hphase => exact LifecycleStopPhase.noConfusion
  | overdue hphase => exact hnext _ _
  | timeout hphase hstage => exact LifecycleStopPhase.noConfusion
  | stageDone hphase hstage => exact hnext _ _
  | _ => exact h.resolve_right LifecycleStopEvent.noConfusion

theorem phase_of_mem {start : LifecycleStop} (h : exec (step subs) start events = some s)
    (hmem : .stop ∈ events ∨ start.phase ≠ .notStopped) : s.phase ≠ .notStopped := by
  induction events generalizing start with
  | nil =>
    obtain rfl := Option.some.inj h
    exact hmem.resolve_left List.not_mem_nil
  | cons e events ih =>
    obtain ⟨t, ht, h⟩ := exec_cons.mp h
    rcases hmem with hmem | hphase
    · rcases List.mem_cons.mp hmem with he | hmem
      · exact ih h (.inr (phase_of_stop ht (.inr he.symm)))
      · exact ih h (.inl hmem)
    · exact ih h (.inr (phase_of_stop ht (.inl hphase)))

theorem stop_again {start t t' : LifecycleStop} {before : List LifecycleStopEvent}
    (hmem : .stop ∈ before) (h : exec (step subs) start before = some t)
    (hs : step subs t .stop = some t') : t' = t := by
  have hphase := phase_of_mem h (.inl hmem)
  cases moves_of_step hs with
  | stop hnot => exact absurd hnot hphase
  | again _ => rfl

/-- A stop that comes to rest has ended, or waits at a stage for `on_stop`s that never end. -/
theorem Falling.atRest (h : Falling subs events s done called) (hphase : s.phase ≠ .notStopped)
    (hrest : s.AtRest subs) :
    (done = subs.stages.reverse ∧ ∀ i, .hang i ∉ events) ∨
      ∃ before stage rest i, done ++ rest = subs.stages.reverse ∧ called = before ++ [stage] ∧
        i ∈ subs.participants stage ∧ .hang i ∈ events ∧ ∀ j, .hang j ∈ events →
          j ∈ subs.participants stage := by
  have hphased := h.phased
  rw [Phased] at hphased
  cases hp : s.phase with
  | notStopped => exact absurd hp hphase
  | entering stage rest =>
    have hcall := hrest .call LifecycleStopEvent.noConfusion
    simp only [LifecycleStop.step, hp] at hcall
    cases hcall
  | stopped =>
    rw [hp] at hphased
    exact .inl ⟨hphased.1, fun i hi ↦ not_over (.inr (.inr ((h.hang i).mp hi))) (hphased.2 i)⟩
  | stopping stage rest timedOut =>
    rw [hp] at hphased
    obtain ⟨hall, ⟨before, hbefore⟩, hcalled, hothers⟩ := hphased
    have hstuck : ¬ s.Ended subs stage := fun hended ↦ by
      have hdone := hrest .stageDone LifecycleStopEvent.noConfusion
      simp only [LifecycleStop.step, hp, if_pos hended] at hdone
      cases hdone
    obtain ⟨i, hi, hnot⟩ :
        ∃ i ∈ subs.participants stage, ∀ outcome, s.onStop i ≠ .ended outcome := by
      simpa only [Ended, not_forall, not_exists, exists_prop] using hstuck
    have hhanging : s.onStop i = .hanging := by
      have hfinish := hrest (.finish i .returned) LifecycleStopEvent.noConfusion
      simp only [LifecycleStop.step, ite_eq_right_iff, reduceCtorEq, imp_false, not_or] at hfinish
      cases ho : s.onStop i with
      | notCalled => exact absurd ho (hcalled i hi)
      | running => exact absurd ho hfinish.1
      | cancelled => exact absurd ho hfinish.2
      | hanging => rfl
      | ended outcome => exact absurd ho (hnot outcome)
    refine .inr ⟨before, stage, rest, i, hall, hbefore, hi, (h.hang i).mpr hhanging, fun j hj ↦ ?_⟩
    by_contra hother
    exact not_over (.inr (.inr ((h.hang j).mp hj))) (hothers j hother)

/-- Everybody is stopped when the `on_stop`s of all stages were called, and only then. -/
theorem perm_range_iff (hsub : called.Sublist subs.stages.reverse) :
    (called.flatMap subs.participants).Perm (List.range subs.length) ↔
      called = subs.stages.reverse := by
  constructor
  · intro hperm
    have hnodup : subs.stages.reverse.Nodup :=
      List.nodup_reverse.mpr (subs.stages_pairwise.imp fun h ↦ ne_of_lt h)
    refine hsub.eq_of_length_le (hnodup.subperm fun stage hstage ↦ ?_).length_le
    obtain ⟨i, hi⟩ := Subscriptions.exists_participant (List.mem_reverse.mp hstage)
    have hlt := (List.getElem?_eq_some_iff.mp (Subscriptions.mem_participants.mp hi)).1
    obtain ⟨stage', hstage', hi'⟩ :=
      List.mem_flatMap.mp (hperm.mem_iff.mpr (List.mem_range.mpr hlt))
    have hsame := (Subscriptions.mem_participants.mp hi).symm.trans
      (Subscriptions.mem_participants.mp hi')
    exact Option.some.inj hsame ▸ hstage'
  · rintro rfl
    refine (List.perm_ext_iff_of_nodup (subs.reverse_nodup subs.stages_pairwise)
      List.nodup_range).mpr fun i ↦ ?_
    rw [List.mem_range, List.mem_flatMap]
    constructor
    · rintro ⟨stage, -, hi⟩
      exact (List.getElem?_eq_some_iff.mp (Subscriptions.mem_participants.mp hi)).1
    · intro hi
      have hget := List.getElem?_eq_getElem hi
      refine ⟨subs[i], List.mem_reverse.mpr
        (Subscriptions.mem_stages.mpr (List.mem_of_getElem? hget)), ?_⟩
      exact Subscriptions.mem_participants.mpr hget

theorem lt_of_last {before rest : List ℤ} {stage : ℤ}
    (hall : before ++ [stage] ++ rest = subs.stages.reverse) : ∀ stage' ∈ rest, stage' < stage := by
  have hsorted : (before ++ [stage] ++ rest).Pairwise (· > ·) :=
    hall ▸ List.pairwise_reverse.mpr subs.stages_pairwise
  exact (List.pairwise_append.mp hsorted).2.2 stage
    (List.mem_append_right _ (List.mem_singleton.mpr rfl))

theorem obliging_iff (h : Falling subs events s done called) (hphase : s.phase ≠ .notStopped)
    (hrest : s.AtRest subs) : Obliging subs events ↔ called = subs.stages.reverse := by
  rcases h.atRest hphase hrest with ⟨hdone, hnone⟩
    | ⟨before, stage, rest, i, hall, hcalled, hi, hhang, hothers⟩
  · rw [← hdone, h.all]
    exact ⟨Obliging.called, fun hnot ↦ ⟨hnot, fun i _ _ _ hi ↦ absurd hi (hnone i)⟩⟩
  · have hsorted : subs.stages.reverse.Pairwise (· > ·) :=
      List.pairwise_reverse.mpr subs.stages_pairwise
    constructor
    · -- no stage is left behind the one that hangs, for that would be a lower one
      intro hob
      have hdone := h.all.mpr hob.called
      cases rest with
      | nil => rw [hdone, ← hall, List.append_nil]
      | cons stage' rest =>
        have hmem : stage' ∈ subs.stages.reverse :=
          hall ▸ List.mem_append_right _ List.mem_cons_self
        obtain ⟨j, hj⟩ :=
          List.mem_iff_getElem?.mp (Subscriptions.mem_stages.mp (List.mem_reverse.mp hmem))
        have hle := hob.ends i j stage stage' hhang (Subscriptions.mem_participants.mp hi) hj
        have hlt := lt_of_last (by rw [← hcalled, hdone]; exact hall) stage' List.mem_cons_self
        omega
    · intro hcomplete
      have hlen := h.sublist.length_le
      have hlen' := congrArg List.length hall
      rw [List.length_append] at hlen'
      rw [hcomplete] at hlen
      have hdone : called = done := h.sublist.eq_of_length_le (by rw [hcomplete]; omega)
      refine ⟨h.all.mp hdone, fun j k stage₁ stage₂ hj hstage₁ hstage₂ ↦ ?_⟩
      obtain rfl : stage = stage₁ := Option.some.inj
        ((Subscriptions.mem_participants.mp (hothers j hj)).symm.trans hstage₁)
      have hmem : stage₂ ∈ before ++ [stage] :=
        hcalled ▸ hcomplete ▸ List.mem_reverse.mpr
          (Subscriptions.mem_stages.mpr (List.mem_of_getElem? hstage₂))
      rw [← hcomplete, hcalled] at hsorted
      rcases List.mem_append.mp hmem with hbefore | hlast
      · exact le_of_lt ((List.pairwise_append.mp hsorted).2.2 stage₂ hbefore stage
          (List.mem_singleton.mpr rfl))
      · exact (List.mem_singleton.mp hlast).ge

theorem Falling.settle (h : Falling subs events s done called)
    (hphase : s.phase = .stopped ∨ ∃ stage rest, s.phase = .stopping stage rest true ∧
      ¬ s.Ended subs stage)
    (hquiet : s.Quiet subs) : s.AtRest subs := by
  have hall : ∀ i, ¬ (s.onStop i = .running ∨ s.onStop i = .cancelled) := by
    intro i hi
    obtain ⟨stage, rest, timedOut, -, hmem⟩ := h.phase_of_running (hi.imp_right .inl)
    have hlt := (List.getElem?_eq_some_iff.mp (Subscriptions.mem_participants.mp hmem)).1
    exact hi.elim (hquiet i hlt).1 (hquiet i hlt).2
  intro e he
  cases e with
  | stop => exact absurd rfl he
  | finish i outcome => exact if_neg (hall i)
  | hang i => exact if_neg fun hi ↦ hall i (.inr hi)
  | _ =>
    rcases hphase with hphase | ⟨stage, rest, hphase, hended⟩
    · simp only [LifecycleStop.step, hphase]
    · simp only [LifecycleStop.step, hphase, if_neg hended]

theorem falling_of_started {startEvents : List LifecycleEvent} {start : SiloLifecycle}
    (hstart : exec (SiloLifecycle.step subs) .created startEvents = some start)
    (hstarted : start.phase = .started)
    (h : exec (LifecycleStop.step subs) (of start) events = some s) :
    ∃ done called, Falling subs events s done called := by
  obtain ⟨current, hclimbing⟩ := SiloLifecycle.climbing_of_exec hstart
  obtain ⟨hcompleted, hstops⟩ := hclimbing.started hstarted
  exact falling_of_exec (falling_of subs hcompleted hstops) h

/-- The stages of a lifecycle that has started are stopped in order exactly when nothing cuts a
stage off before it was reached. -/
theorem lifecycle_in_order_iff (events : List LifecycleEvent) (start : SiloLifecycle)
    (stops : List LifecycleStopEvent) (s : LifecycleStop)
    (hstart : exec (SiloLifecycle.step subs) SiloLifecycle.created events = some start)
    (hstarted : start.phase = .started) (hstop : exec (step subs) (of start) stops = some s)
    (hmem : .stop ∈ stops) (hrest : s.AtRest subs) :
    (StartsInOrder subs events ∧ StopsInOrder subs (of start) stops s) ↔ Obliging subs stops := by
  obtain ⟨done, called, hfalling⟩ := falling_of_started hstart hstarted hstop
  have hphase := phase_of_mem hstop (.inl hmem)
  have hsub : called.Sublist subs.stages.reverse := by
    rcases hfalling.atRest hphase hrest with ⟨hdone, -⟩ | ⟨_, _, _, _, hall, -⟩
    · exact hdone ▸ hfalling.sublist
    · exact hfalling.sublist.trans (hall ▸ List.sublist_append_left _ _)
  rw [obliging_iff hfalling hphase hrest]
  constructor
  · rintro ⟨-, hstopped⟩
    exact (perm_range_iff hsub).mp (hfalling.onStops ▸ hstopped.once)
  · intro hcalled
    refine ⟨fun before t _ ht i j stage stage' hi hj hlt hnot ↦ ?_, ?_, ?_, ?_⟩
    · obtain ⟨current, hclimbing⟩ := SiloLifecycle.climbing_of_exec ht
      exact hclimbing.ascending hi hj hlt hnot
    · rw [hfalling.onStops]
      exact (perm_range_iff hsub).mpr hcalled
    · rw [hfalling.onStops, hcalled]
      exact subs.reverse_descending subs.stages_pairwise
    · exact fun before t t' _ hmem ht hs ↦ stop_again hmem ht hs

end

def startAll : List LifecycleEvent :=
  [.start, .finish 0 .success, .finish 1 .success, .stageDone, .finish 2 .success, .stageDone]

/-- A participant raises, another one is cancelled when its stage's time is up, and `stop()` is
called twice. -/
def stopTwice : List LifecycleStopEvent :=
  [.stop, .call, .finish 2 .raised, .stageDone, .call, .finish 0 .returned, .timeout, .stop,
    .finish 1 .cancelled, .stageDone]

theorem stopTwice_in_order :
    ∃ start s, exec (SiloLifecycle.step [10, 10, 20]) .created startAll = some start ∧
    exec (step [10, 10, 20]) (of start) stopTwice = some s ∧
    StartsInOrder [10, 10, 20] startAll ∧ StopsInOrder [10, 10, 20] (of start) stopTwice s := by
  have hruns : ((exec (SiloLifecycle.step [10, 10, 20]) .created startAll).bind fun start ↦
      (exec (step [10, 10, 20]) (of start) stopTwice).map fun s ↦
        (start.phase, s.phase, decide (s.Quiet [10, 10, 20]))) =
      some (.started, .stopped, true) := by decide +kernel
  obtain ⟨start, hstart, hruns⟩ := Option.bind_eq_some_iff.mp hruns
  obtain ⟨s, hs, hend⟩ := Option.map_eq_some_iff.mp hruns
  obtain ⟨hstarted, hend⟩ := Prod.mk.inj hend
  obtain ⟨hstopped, hquiet⟩ := Prod.mk.inj hend
  obtain ⟨done, called, hfalling⟩ := falling_of_started hstart hstarted hs
  have hrest := hfalling.settle (.inl hstopped) (of_decide_eq_true hquiet)
  exact ⟨start, s, hstart, hs,
    (lifecycle_in_order_iff startAll start stopTwice s hstart hstarted hs (by decide) hrest).mpr
      (by decide)⟩

/-- The `on_stop` of the higher stage catches its cancellation and goes on for ever. -/
def stopHanging : List LifecycleStopEvent := [.stop, .call, .timeout, .hang 1]

theorem stop_hangs_before_lower_stages : ¬ ∀ subs events start stops s,
    exec (SiloLifecycle.step subs) .created events = some start → start.phase = .started →
      exec (step subs) (of start) stops = some s → .stop ∈ stops → s.AtRest subs →
        StartsInOrder subs events ∧ StopsInOrder subs (of start) stops s := by
  intro h
  have hruns : ((exec (SiloLifecycle.step [10, 20]) .created
        [.start, .finish 0 .success, .stageDone, .finish 1 .success, .stageDone]).bind fun start ↦
      (exec (step [10, 20]) (of start) stopHanging).map fun s ↦
        ((start.phase, s.phase, decide (s.Ended [10, 20] 20)), s.onStops,
          decide (s.Quiet [10, 20]))) =
      some ((.started, .stopping 20 [10] true, false), [1], true) := by decide +kernel
  obtain ⟨start, hstart, hruns⟩ := Option.bind_eq_some_iff.mp hruns
  obtain ⟨s, hs, hend⟩ := Option.map_eq_some_iff.mp hruns
  obtain ⟨hphases, hend⟩ := Prod.mk.inj hend
  obtain ⟨hstarted, hphases⟩ := Prod.mk.inj hphases
  obtain ⟨hphase, hended⟩ := Prod.mk.inj hphases
  obtain ⟨hstops, hquiet⟩ := Prod.mk.inj hend
  obtain ⟨done, called, hfalling⟩ := falling_of_started hstart hstarted hs
  have hrest := hfalling.settle (.inr ⟨20, [10], hphase, of_decide_eq_false hended⟩)
    (of_decide_eq_true hquiet)
  have honce := (h _ _ start _ s hstart hstarted hs (by decide) hrest).2.once.length_eq
  rw [hstops] at honce
  exact absurd honce (by decide)

end LifecycleStop

end Pyleans
