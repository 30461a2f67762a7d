import Mathlib
import Pyleans.Library.Sorted
import Pyleans.Library.Transition

namespace Pyleans

open Library

namespace LifecycleStage

def RUNTIME_INITIALIZE : ℤ := 2000

def RUNTIME_CLUSTER : ℤ := 7000

def RUNTIME_GRAIN_SERVICES : ℤ := 8000

def BECOME_ACTIVE : ℤ := 19999

def ACTIVE : ℤ := 20000

end LifecycleStage

/-- The stage of every participant, in the order in which they subscribed. -/
abbrev Subscriptions := List ℤ

namespace Subscriptions

def stages (subs : Subscriptions) : List ℤ := sortedBy id (List.eraseDups subs)

def participants (subs : Subscriptions) (stage : ℤ) : List ℕ :=
  (List.range subs.length).filter fun i ↦ subs[i]? = some stage

theorem mem_stages {subs : Subscriptions} {stage : ℤ} : stage ∈ subs.stages ↔ stage ∈ subs := by
  rw [stages, mem_sortedBy, List.mem_eraseDups]

theorem stages_pairwise (subs : Subscriptions) : subs.stages.Pairwise (· < ·) := by
  have hle := sortedBy_pairwise id (List.eraseDups subs)
  have hne := sortedBy_nodup id (nodup_eraseDups subs)
  exact (hle.and hne).imp fun h ↦ lt_of_le_of_ne h.1 h.2

theorem mem_participants {subs : Subscriptions} {stage : ℤ} {i : ℕ} :
    i ∈ subs.participants stage ↔ subs[i]? = some stage := by
  rw [participants, List.mem_filter, List.mem_range, decide_eq_true_eq]
  exact ⟨And.right, fun h ↦ ⟨(List.getElem?_eq_some_iff.mp h).1, h⟩⟩

theorem participants_nodup (subs : Subscriptions) (stage : ℤ) : (subs.participants stage).Nodup :=
  List.nodup_range.filter _

theorem exists_participant {subs : Subscriptions} {stage : ℤ} (h : stage ∈ subs.stages) :
    ∃ i, i ∈ subs.participants stage := by
  obtain ⟨i, hi⟩ := List.mem_iff_getElem?.mp (mem_stages.mp h)
  exact ⟨i, mem_participants.mpr hi⟩

theorem reverse_nodup (subs : Subscriptions) {stages : List ℤ} (h : stages.Pairwise (· < ·)) :
    (stages.reverse.flatMap subs.participants).Nodup := by
  rw [List.nodup_flatMap]
  refine ⟨fun stage _ ↦ subs.participants_nodup stage, ?_⟩
  apply (List.pairwise_reverse.mpr h).imp
  intro k l hkl i hk hl
  have hsame := (mem_participants.mp hk).symm.trans (mem_participants.mp hl)
  exact hkl.ne' (Option.some.inj hsame)

theorem reverse_descending (subs : Subscriptions) {stages : List ℤ} (h : stages.Pairwise (· < ·)) :
    (stages.reverse.flatMap subs.participants).Pairwise
      fun i j ↦ ∀ k l, subs[i]? = some k → subs[j]? = some l → l ≤ k := by
  rw [List.pairwise_flatMap]
  constructor
  · intro stage _
    apply (subs.participants_nodup stage).imp_of_mem
    intro i j hi hj _ k l hk hl
    rw [mem_participants] at hi hj
    rw [hi] at hk
    rw [hj] at hl
    rw [← Option.some.inj hk, ← Option.some.inj hl]
  · apply (List.pairwise_reverse.mpr h).imp
    intro stage stage' hlt i hi j hj k l hk hl
    rw [mem_participants] at hi hj
    rw [hi] at hk
    rw [hj] at hl
    rw [← Option.some.inj hk, ← Option.some.inj hl]
    exact hlt.le

end Subscriptions

/-- How an `on_start` ends. `cancelled` is a `CancelledError`, which is no `Exception`. -/
inductive StartOutcome
  | success
  | error
  | cancelled
deriving DecidableEq

inductive OnStart
  | notCalled
  | running
  | ended (outcome : StartOutcome)
deriving DecidableEq

/-- `starting` holds the stage in progress and those to come, whether its time
is up, and what the participants that are awaited together have raised first;
`rollingBack` the stages to stop and the `on_stop`s in progress. -/
inductive LifecyclePhase
  | created
  | starting (stage : ℤ) (rest : List ℤ) (timedOut : Bool) (raised : Option StartOutcome)
  | rollingBack (rest : List ℤ) (stopping : List ℕ)
  | started
  | aborted
deriving DecidableEq

/-- Participants are named by their place in the subscriptions; `onStops` are
those whose `on_stop` was called, in the order of the calls, `completed` the
stages that were completed before `start()` returned or raised, and `cutOff`
those whose time to stop was up as soon as it was set. No step reads `cutOff`. -/
structure SiloLifecycle where
  onStart : ℕ → OnStart
  onStops : List ℕ
  completed : List ℤ
  cutOff : List ℤ
  phase : LifecyclePhase

/-- An `on_stop` that raises or is cancelled at the end of its stage's time has
stopped as any other. Those of an `overdue` stage are cancelled before they run. -/
inductive LifecycleEvent
  | start
  | finish (participant : ℕ) (outcome : StartOutcome)
  | timeout
  | stageDone
  | stageFailed
  | rollback
  | overdue
  | stopped (participant : ℕ)

namespace SiloLifecycle

def created : SiloLifecycle := ⟨fun _ ↦ .notCalled, [], [], [], .created⟩

section

variable (subs : Subscriptions)

def enterStage (s : SiloLifecycle) : List ℤ → SiloLifecycle
  | [] => { s with phase := .started }
  | stage :: rest =>
    { s with
      onStart := fun i ↦ if i ∈ subs.participants stage then .running else s.onStart i
      phase := .starting stage rest false none }

/-- The first participant of the stage that does not succeed decides what is raised. -/
def note (s : SiloLifecycle) (i : ℕ) (outcome : StartOutcome) : LifecyclePhase :=
  match s.phase with
  | .starting stage rest timedOut none =>
    if i ∈ subs.participants stage ∧ outcome ≠ .success then
      .starting stage rest timedOut
        (some (if timedOut ∧ outcome = .cancelled then .error else outcome))
    else s.phase
  | _ => s.phase

def Succeeded (s : SiloLifecycle) (stage : ℤ) : Prop :=
  ∀ i ∈ subs.participants stage, s.onStart i = .ended .success

instance (s : SiloLifecycle) (stage : ℤ) : Decidable (s.Succeeded subs stage) := by
  unfold Succeeded; infer_instance

def step (s : SiloLifecycle) : LifecycleEvent → Option SiloLifecycle
  | .start => if s.phase = .created then some (s.enterStage subs subs.stages) else none
  | .finish i outcome =>
    if s.onStart i = .running then
      some { s with
        onStart := Function.update s.onStart i (.ended outcome)
        phase := s.note subs i outcome }
    else none
  | .timeout =>
    match s.phase with
    | .starting stage rest false none => some { s with phase := .starting stage rest true none }
    | _ => none
  | .stageDone =>
    match s.phase with
    | .starting stage rest false none =>
      if s.Succeeded subs stage then
        some ({ s with completed := s.completed ++ [stage] }.enterStage subs rest) else none
    | _ => none
  | .stageFailed =>
    match s.phase with
    | .starting _ _ _ (some .cancelled) => some { s with phase := .aborted }
    | .starting _ _ _ (some _) => some { s with phase := .rollingBack s.completed.reverse [] }
    | .starting stage _ true none =>
      if s.Succeeded subs stage then
        some { s with phase := .rollingBack s.completed.reverse [] } else none
    | _ => none
  | .rollback =>
    match s.phase with
    | .rollingBack [] [] => some { s with phase := .aborted }
    | .rollingBack (stage :: rest) [] =>
      some { s with
        onStops := s.onStops ++ subs.participants stage
        phase := .rollingBack rest (subs.participants stage) }
    | _ => none
  | .overdue =>
    match s.phase with
    | .rollingBack (stage :: rest) [] =>
      some { s with cutOff := s.cutOff ++ [stage], phase := .rollingBack rest [] }
    | _ => none
  | .stopped i =>
    match s.phase with
    | .rollingBack rest stopping =>
      if i ∈ stopping then some { s with phase := .rollingBack rest (stopping.erase i) } else none
    | _ => none

/-- What each event finds, and what the lifecycle is after it. -/
inductive Moves (s : SiloLifecycle) : LifecycleEvent → SiloLifecycle → Prop
  | start (hphase : s.phase = .created) : Moves s .start (s.enterStage subs subs.stages)
  | finish (i : ℕ) (outcome : StartOutcome) (hi : s.onStart i = .running) :
      Moves s (.finish i outcome) { s with
        onStart := Function.update s.onStart i (.ended outcome)
        phase := s.note subs i outcome }
  | timeout {stage : ℤ} {rest : List ℤ} (hphase : s.phase = .starting stage rest false none) :
      Moves s .timeout { s with phase := .starting stage rest true none }
  | stageDone {stage : ℤ} {rest : List ℤ} (hphase : s.phase = .starting stage rest false none)
      (hsucceeded : s.Succeeded subs stage) :
      Moves s .stageDone ({ s with completed := s.completed ++ [stage] }.enterStage subs rest)
  | cancelled {stage : ℤ} {rest : List ℤ} {timedOut : Bool}
      (hphase : s.phase = .starting stage rest timedOut (some .cancelled)) :
      Moves s .stageFailed { s with phase := .aborted }
  | failed {stage : ℤ} {rest : List ℤ} {timedOut : Bool} {outcome : StartOutcome}
      (hphase : s.phase = .starting stage rest timedOut (some outcome))
      (hcancelled : outcome ≠ .cancelled) :
      Moves s .stageFailed { s with phase := .rollingBack s.completed.reverse [] }
  | timedOut {stage : ℤ} {rest : List ℤ} (hphase : s.phase = .starting stage rest true none)
      (hsucceeded : s.Succeeded subs stage) :
      Moves s .stageFailed { s with phase := .rollingBack s.completed.reverse [] }
  | rolledBack (hphase : s.phase = .rollingBack [] []) :
      Moves s .rollback { s with phase := .aborted }
  | rollback {stage : ℤ} {rest : List ℤ} (hphase : s.phase = .rollingBack (stage :: rest) []) :
      Moves s .rollback { s with
        onStops := s.onStops ++ subs.participants stage
        phase := .rollingBack rest (subs.participants stage) }
  | overdue {stage : ℤ} {rest : List ℤ} (hphase : s.phase = .rollingBack (stage :: rest) []) :
      Moves s .overdue { s with cutOff := s.cutOff ++ [stage], phase := .rollingBack rest [] }
  | stopped {rest : List ℤ} {stopping : List ℕ} (i : ℕ)
      (hphase : s.phase = .rollingBack rest stopping) (hi : i ∈ stopping) :
      Moves s (.stopped i) { s with phase := .rollingBack rest (stopping.erase i) }

theorem moves_of_step {subs : Subscriptions} {s s' : SiloLifecycle} {e : LifecycleEvent}
    (hs : step subs s e = some s') : Moves subs s e s' := by
  cases e with
  | start =>
    simp only [step] at hs
    split_ifs at hs with hphase
    obtain rfl := Option.some.inj hs
    exact .start hphase
  | finish i outcome =>
    simp only [step] at hs
    split_ifs at hs with hi
    obtain rfl := Option.some.inj hs
    exact .finish i outcome hi
  | timeout =>
    simp only [step] at hs
    split at hs
    · next hphase =>
      obtain rfl := Option.some.inj hs
      exact .timeout hphase
    · cases hs
  | stageDone =>
    simp only [step] at hs
    split at hs
    · next hphase =>
      split_ifs at hs with hsucceeded
      obtain rfl := Option.some.inj hs
      exact .stageDone hphase hsucceeded
    · cases hs
  | stageFailed =>
    simp only [step] at hs
    split at hs
    · next hphase =>
      obtain rfl := Option.some.inj hs
      exact .cancelled hphase
    · next hcancelled hphase =>
      obtain rfl := Option.some.inj hs
      exact .failed hphase hcancelled
    · next hphase =>
      split_ifs at hs with hsucceeded
      obtain rfl := Option.some.inj hs
      exact .timedOut hphase hsucceeded
    · cases hs
  | rollback =>
    simp only [step] at hs
    split at hs
    · next hphase =>
      obtain rfl := Option.some.inj hs
      exact .rolledBack hphase
    · next hphase =>
      obtain rfl := Option.some.inj hs
      exact .rollback hphase
    · cases hs
  | overdue =>
    simp only [step] at hs
    split at hs
    · next hphase =>
      obtain rfl := Option.some.inj hs
      exact .overdue hphase
    · cases hs
  | stopped i =>
    simp only [step] at hs
    split at hs
    · next hphase =>
      split_ifs at hs with hi
      obtain rfl := Option.some.inj hs
      exact .stopped i hphase hi
    · cases hs

def Idle (s : SiloLifecycle) : Prop := ∀ i < subs.length, s.onStart i ≠ .running

instance (s : SiloLifecycle) : Decidable (s.Idle subs) := by unfold Idle; infer_instance

/-- The participants of the completed stages, and no others, are stopped once
each, later stages first, and no `on_start` goes on. -/
structure RolledBack (s : SiloLifecycle) : Prop where
  idle : s.Idle subs
  once : s.onStops.Nodup
  all i : i ∈ s.onStops ↔ ∃ stage ∈ s.completed, i ∈ subs.participants stage
  descending : s.onStops.Pairwise fun i j ↦ ∀ k l, subs[i]? = some k → subs[j]? = some l → l ≤ k

def raised (s : SiloLifecycle) : Option StartOutcome :=
  match s.phase with
  | .starting _ _ _ raised => raised
  | _ => none

/-- When `start()` raises no participant of the failed stage still runs, no stage
was cut off, and a `CancelledError` leaves nothing behind that was to be stopped. -/
def Settled (s : SiloLifecycle) : LifecycleEvent → Prop
  | .rollback => s.phase = .rollingBack [] [] → s.Idle subs ∧ s.cutOff = []
  | .stageFailed => s.raised = some .cancelled → s.Idle subs ∧ s.completed = []
  | _ => True

instance (s : SiloLifecycle) (e : LifecycleEvent) : Decidable (s.Settled subs e) := by
  unfold Settled
  split <;> infer_instance

/-- Where a start is: the stages that are completed come before the others, and
those rolled back are the last ones, each stopped unless it was cut off. -/
def Staged (s : SiloLifecycle) : Prop :=
  match s.phase with
  | .created => s.completed = [] ∧ s.onStops = [] ∧ s.cutOff = []
  | .starting stage rest _ _ =>
    s.completed ++ stage :: rest = subs.stages ∧ s.onStops = [] ∧ s.cutOff = []
  | .rollingBack rest _ =>
    s.completed <+: subs.stages ∧ ∃ done, s.completed.reverse = done ++ rest ∧
      (∀ stage ∈ s.cutOff, stage ∈ done) ∧
      s.onStops = (done.filter (· ∉ s.cutOff)).flatMap subs.participants
  | .started => True
  | .aborted => s.completed <+: subs.stages

variable {subs} {s s' : SiloLifecycle} {e : LifecycleEvent}

theorem rolledBack_of_reverse (hcompleted : s.completed <+: subs.stages)
    (hstops : s.onStops = s.completed.reverse.flatMap subs.participants) (hidle : s.Idle subs) :
      s.RolledBack subs := by
  have hascending : s.completed.Pairwise (· < ·) := subs.stages_pairwise.sublist hcompleted.sublist
  refine ⟨hidle, ?_, fun i ↦ ?_, ?_⟩
  · rw [hstops]
    exact subs.reverse_nodup hascending
  · simp only [hstops, List.mem_flatMap, List.mem_reverse]
  · rw [hstops]
    exact subs.reverse_descending hascending

theorem note_cases (subs : Subscriptions) (s : SiloLifecycle) (i : ℕ) (outcome : StartOutcome) :
    s.note subs i outcome = s.phase ∨ ∃ stage rest timedOut raised,
      s.phase = .starting stage rest timedOut none ∧
      s.note subs i outcome = .starting stage rest timedOut (some raised) := by
  unfold note
  split
  · next stage rest timedOut hphase =>
    by_cases hfirst : i ∈ subs.participants stage ∧ outcome ≠ .success
    · rw [if_pos hfirst]
      exact .inr ⟨stage, rest, timedOut, _, hphase, rfl⟩
    · rw [if_neg hfirst]
      exact .inl rfl
  · exact .inl rfl

theorem staged_of_phase (h : s.Staged subs) (hphase : s'.phase = s.phase)
    (hcompleted : s'.completed = s.completed) (hstops : s'.onStops = s.onStops)
    (hcutOff : s'.cutOff = s.cutOff) : s'.Staged subs := by
  unfold Staged at h ⊢
  rwa [hphase, hcompleted, hstops, hcutOff]

theorem staged_enterStage {rest : List ℤ} (hrest : s.completed ++ rest = subs.stages)
    (hstops : s.onStops = [] ∧ s.cutOff = []) :
    (s.enterStage subs rest).Staged subs := by
  cases rest with
  | nil => trivial
  | cons stage rest => exact ⟨hrest, hstops⟩

theorem staged_rollingBack {rest : List ℤ} (h : s.completed ++ rest = subs.stages)
    (hstops : s.onStops = [] ∧ s.cutOff = []) :
    ({ s with phase := .rollingBack s.completed.reverse [] } : SiloLifecycle).Staged subs := by
  refine ⟨⟨rest, h⟩, [], rfl, fun stage hstage ↦ ?_, hstops.1⟩
  dsimp only at hstage
  rw [hstops.2] at hstage
  exact absurd hstage List.not_mem_nil

theorem not_mem_done {done rest : List ℤ} {stage : ℤ} (hcompleted : s.completed <+: subs.stages)
    (hdone : s.completed.reverse = done ++ stage :: rest) : stage ∉ done := by
  have hnodup : s.completed.reverse.Nodup :=
    List.nodup_reverse.mpr ((subs.stages_pairwise.sublist hcompleted.sublist).imp ne_of_lt)
  rw [hdone] at hnodup
  exact fun hmem ↦ (List.nodup_append.mp hnodup).2.2 stage hmem stage List.mem_cons_self rfl

/-- All stages were stopped exactly when none of them was cut off. -/
theorem rolledBack_iff (hcompleted : s.completed <+: subs.stages)
    (hcut : ∀ stage ∈ s.cutOff, stage ∈ s.completed.reverse)
    (hstops : s.onStops = (s.completed.reverse.filter (· ∉ s.cutOff)).flatMap subs.participants) :
    s.RolledBack subs ↔ s.Idle subs ∧ s.cutOff = [] := by
  constructor
  · refine fun hrolled ↦ ⟨hrolled.idle, List.eq_nil_iff_forall_not_mem.mpr fun stage hstage ↦ ?_⟩
    have hmem : stage ∈ s.completed := List.mem_reverse.mp (hcut stage hstage)
    obtain ⟨i, hi⟩ := Subscriptions.exists_participant (hcompleted.subset hmem)
    have hstopped := (hrolled.all i).mpr ⟨stage, hmem, hi⟩
    rw [hstops] at hstopped
    obtain ⟨stage', hstage', hi'⟩ := List.mem_flatMap.mp hstopped
    have hsame := (Subscriptions.mem_participants.mp hi).symm.trans
      (Subscriptions.mem_participants.mp hi')
    obtain rfl := Option.some.inj hsame
    exact of_decide_eq_true (List.mem_filter.mp hstage').2 hstage
  · rintro ⟨hidle, hnone⟩
    refine rolledBack_of_reverse hcompleted ?_ hidle
    rw [hstops, hnone]
    exact congrArg (List.flatMap _)
      (List.filter_eq_self.mpr fun _ _ ↦ decide_eq_true List.not_mem_nil)

theorem Staged.step (h : s.Staged subs) (hs : step subs s e = some s') : s'.Staged subs := by
  cases moves_of_step hs with
  | start hphase =>
    simp only [Staged, hphase] at h
    exact staged_enterStage (by rw [h.1, List.nil_append]) h.2
  | finish i outcome hi =>
    rcases note_cases subs s i outcome with hnote | ⟨stage, rest, timedOut, raised, hphase, hnote⟩
    · exact staged_of_phase h hnote rfl rfl rfl
    · simp only [Staged, hphase] at h
      simpa only [Staged, hnote] using h
  | timeout hphase =>
    simp only [Staged, hphase] at h
    exact h
  | stageDone hphase hsucceeded =>
    simp only [Staged, hphase] at h
    refine staged_enterStage ?_ h.2
    rw [List.append_assoc]
    exact h.1
  | cancelled hphase =>
    simp only [Staged, hphase] at h
    exact ⟨_, h.1⟩
  | failed hphase hcancelled =>
    simp only [Staged, hphase] at h
    exact staged_rollingBack h.1 h.2
  | timedOut hphase hsucceeded =>
    simp only [Staged, hphase] at h
    exact staged_rollingBack h.1 h.2
  | rolledBack hphase =>
    simp only [Staged, hphase] at h
    exact h.1
  | @rollback stage rest hphase =>
    simp only [Staged, hphase] at h
    obtain ⟨hcompleted, done, hdone, hcut, hstops⟩ := h
    have hnot : stage ∉ s.cutOff := fun hmem ↦ not_mem_done hcompleted hdone (hcut stage hmem)
    refine ⟨hcompleted, done ++ [stage], ?_, fun stage' h ↦
      List.mem_append_left _ (hcut stage' h), ?_⟩
    · rw [List.append_assoc]
      exact hdone
    · have hkept : [stage].filter (· ∉ s.cutOff) = [stage] := by simp [hnot]
      dsimp only
      rw [List.filter_append, hkept, List.flatMap_append, ← hstops, List.flatMap_singleton]
  | @overdue stage rest hphase =>
    simp only [Staged, hphase] at h
    obtain ⟨hcompleted, done, hdone, hcut, hstops⟩ := h
    refine ⟨hcompleted, done ++ [stage], ?_, fun stage' hmem ↦ ?_, ?_⟩
    · rw [List.append_assoc]
      exact hdone
    · exact List.mem_append.mpr ((List.mem_append.mp hmem).imp_left (hcut stage'))
    · have hdropped : [stage].filter (· ∉ s.cutOff ++ [stage]) = [] := by simp
      have hsame : done.filter (· ∉ s.cutOff ++ [stage]) = done.filter (· ∉ s.cutOff) := by
        refine List.filter_congr fun stage' hmem ↦ ?_
        have hne : stage' ≠ stage := fun he ↦ not_mem_done hcompleted hdone (he ▸ hmem)
        simp [hne]
      dsimp only
      rw [List.filter_append, hdropped, List.append_nil, hsame, hstops]
  | stopped i hphase hi =>
    simp only [Staged, hphase] at h
    exact h

/-- A step ends an `on_start`, or goes on to another stage, or leaves all
`on_start`s and the completed stages as they are. -/
theorem step_cases (hs : step subs s e = some s') :
    (∃ i outcome, e = .finish i outcome ∧
      s'.onStart = Function.update s.onStart i (.ended outcome) ∧
      s'.completed = s.completed) ∨
    (∃ completed rest, s' =
      ({ s with completed := completed } : SiloLifecycle).enterStage subs rest ∧
      ∀ stage ∈ completed, stage ∈ s.completed ∨ s.Succeeded subs stage) ∨
    (s'.onStart = s.onStart ∧ s'.completed = s.completed) := by
  cases moves_of_step hs with
  | start hphase => exact .inr (.inl ⟨s.completed, _, rfl, fun _ ↦ .inl⟩)
  | finish i outcome hi => exact .inl ⟨i, outcome, rfl, rfl, rfl⟩
  | @stageDone current rest hphase hsucceeded =>
    refine .inr (.inl ⟨_, rest, rfl, fun stage h ↦ ?_⟩)
    rcases List.mem_append.mp h with h | h
    · exact .inl h
    · exact .inr (List.mem_singleton.mp h ▸ hsucceeded)
  | _ => exact .inr (.inr ⟨rfl, rfl⟩)

theorem ended_of_step (hs : step subs s e = some s') {i : ℕ} {outcome : StartOutcome}
    (hi : s'.onStart i = .ended outcome) :
    s.onStart i = .ended outcome ∨ e = .finish i outcome := by
  rcases step_cases hs with ⟨j, o, rfl, honStart, -⟩ | ⟨completed, rest, rfl, -⟩ | ⟨honStart, -⟩
  · rw [honStart] at hi
    by_cases hij : i = j
    · rw [hij, Function.update_self] at hi
      rw [hij, OnStart.ended.inj hi]
      exact .inr rfl
    · rw [Function.update_of_ne hij] at hi
      exact .inl hi
  · cases rest with
    | nil => exact .inl hi
    | cons stage rest =>
      simp only [enterStage] at hi
      split_ifs at hi
      exact .inl hi
  · exact .inl (honStart ▸ hi)

/-- A stage is completed once all its participants have succeeded. -/
theorem completed_of_step (hs : step subs s e = some s') {stage : ℤ} (h : stage ∈ s'.completed) :
    stage ∈ s.completed ∨ s.Succeeded subs stage := by
  rcases step_cases hs with ⟨i, outcome, -, -, hcompleted⟩ | ⟨completed, rest, rfl, hcompleted⟩
    | ⟨-, hcompleted⟩
  · exact .inl (hcompleted ▸ h)
  · cases rest with
    | nil => exact hcompleted stage h
    | cons current rest => exact hcompleted stage h
  · exact .inl (hcompleted ▸ h)

theorem started_of_step (hs : step subs s e = some s') (h : s.phase = .started) :
    s'.phase = .started := by
  cases e with
  | finish i outcome =>
    simp only [step] at hs
    split_ifs at hs
    obtain rfl := Option.some.inj hs
    rcases note_cases subs s i outcome with hnote | ⟨stage, rest, timedOut, raised, hphase, -⟩
    · exact hnote.trans h
    · rw [h] at hphase
      cases hphase
  | _ =>
    simp only [step, h] at hs
    cases hs

def AbortedClean (subs : Subscriptions) (s : SiloLifecycle) : Prop :=
  s.phase = .aborted → s.RolledBack subs

theorem abortedClean_of_phase (h : s'.phase ≠ .aborted) : AbortedClean subs s' :=
  fun hphase ↦ absurd hphase h

theorem phase_enterStage (s : SiloLifecycle) (rest : List ℤ) :
    (s.enterStage subs rest).phase ≠ .aborted := by
  cases rest <;> exact LifecyclePhase.noConfusion

/-- The steps that make `start()` raise leave all as it should exactly when they are settled. -/
theorem settled_iff (h : s.Staged subs) (hclean : AbortedClean subs s)
    (hs : step subs s e = some s') :
    s.Settled subs e ↔ AbortedClean subs s' := by
  cases moves_of_step hs with
  | start hphase => exact iff_of_true trivial (abortedClean_of_phase (phase_enterStage _ _))
  | finish i outcome hi =>
    refine iff_of_true trivial ?_
    rcases note_cases subs s i outcome with hnote | ⟨stage, rest, timedOut, raised, -, hnote⟩
    · intro hphase
      have hrolled := hclean (hnote.symm.trans hphase)
      refine ⟨fun j hj ↦ ?_, hrolled.once, hrolled.all, hrolled.descending⟩
      dsimp only
      by_cases hji : j = i
      · rw [hji, Function.update_self]
        exact OnStart.noConfusion
      · rw [Function.update_of_ne hji]
        exact hrolled.idle j hj
    · apply abortedClean_of_phase
      rw [hnote]
      exact LifecyclePhase.noConfusion
  | timeout hphase => exact iff_of_true trivial (abortedClean_of_phase LifecyclePhase.noConfusion)
  | stageDone hphase hsucceeded =>
    exact iff_of_true trivial (abortedClean_of_phase (phase_enterStage _ _))
  | cancelled hphase =>
    simp only [Staged, hphase] at h
    constructor
    · intro hsettled _
      obtain ⟨hidle, hnone⟩ := hsettled (by rw [raised, hphase])
      refine rolledBack_of_reverse ⟨_, h.1⟩ ?_ hidle
      dsimp only
      rw [h.2.1, hnone]
      rfl
    · intro hrolled
      have hrolled := hrolled rfl
      refine fun _ ↦ ⟨hrolled.idle, List.eq_nil_iff_forall_not_mem.mpr fun stage hstage ↦ ?_⟩
      have hmem : stage ∈ subs.stages := h.1 ▸ List.mem_append_left _ hstage
      obtain ⟨i, hi⟩ := Subscriptions.exists_participant hmem
      have hstop := (hrolled.all i).mpr ⟨stage, hstage, hi⟩
      dsimp only at hstop
      rw [h.2.1] at hstop
      cases hstop
  | failed hphase hcancelled =>
    refine iff_of_true (fun hraised ↦ ?_) (abortedClean_of_phase LifecyclePhase.noConfusion)
    rw [raised, hphase] at hraised
    exact absurd (Option.some.inj hraised) hcancelled
  | timedOut hphase hsucceeded =>
    refine iff_of_true (fun hraised ↦ ?_) (abortedClean_of_phase LifecyclePhase.noConfusion)
    rw [raised, hphase] at hraised
    cases hraised
  | rolledBack hphase =>
    simp only [Staged, hphase] at h
    obtain ⟨hcompleted, done, hdone, hcut, hstops⟩ := h
    rw [List.append_nil] at hdone
    have hiff := rolledBack_iff hcompleted (hdone ▸ hcut) (hdone ▸ hstops)
    constructor
    · intro hsettled _
      obtain ⟨hidle, honce, hall, hdescending⟩ := hiff.mpr (hsettled hphase)
      exact ⟨hidle, honce, hall, hdescending⟩
    · intro hrolled _
      obtain ⟨hidle, honce, hall, hdescending⟩ := hrolled rfl
      exact hiff.mp ⟨hidle, honce, hall, hdescending⟩
  | rollback hphase =>
    refine iff_of_true (fun hend ↦ ?_) (abortedClean_of_phase LifecyclePhase.noConfusion)
    rw [hphase] at hend
    cases hend
  | overdue hphase => exact iff_of_true trivial (abortedClean_of_phase LifecyclePhase.noConfusion)
  | stopped i hphase hi =>
    exact iff_of_true trivial (abortedClean_of_phase LifecyclePhase.noConfusion)

/-- All along a run of `start()` it is true that once it has raised all is as it
should, exactly when it raises only where the failed stage has come to rest and
every stage rolled back had time to stop. -/
theorem rollback_complete_iff (subs : Subscriptions) (events : List LifecycleEvent)
    (s : SiloLifecycle) (h : exec (step subs) created events = some s) :
    Meets (step subs) (Settled subs) created events ↔
      ∀ before t, before <+: events → exec (step subs) created before = some t →
        t.phase = .aborted →
        t.RolledBack subs := by
  have hboth := meets_iff_always (I := fun s ↦ s.Staged subs ∧ AbortedClean subs s) h
    ⟨⟨rfl, rfl, rfl⟩, abortedClean_of_phase LifecyclePhase.noConfusion⟩
    (fun s e s' hi hs ↦ (settled_iff hi.1 hi.2 hs).trans ⟨fun hc ↦ ⟨hi.1.step hs, hc⟩, And.right⟩)
  rw [hboth]
  refine forall₄_congr fun before t _ ht ↦ ?_
  have hstaged : t.Staged subs :=
    (reachable_of_exec ht).invariant (I := Staged subs) ⟨rfl, rfl, rfl⟩ fun s e s' hi _ hs ↦
      hi.step hs
  exact and_iff_right hstaged

end

def failLast : List LifecycleEvent :=
  [.start, .finish 0 .success, .stageDone, .finish 1 .success, .finish 2 .error, .stageFailed,
    .rollback, .stopped 0, .rollback]

/-- A participant fails while another one of its stage is still on its way up. -/
def failFirst : List LifecycleEvent := [.start, .finish 0 .error, .stageFailed, .rollback]

theorem rollback_complete_failLast : ∃ s, exec (step [2000, 4000, 4000]) created failLast = some s ∧
    ∀ before t, before <+: failLast → exec (step [2000, 4000, 4000]) created before = some t →
      t.phase = .aborted →
      t.RolledBack [2000, 4000, 4000] := by
  have hruns : (exec (step [2000, 4000, 4000]) created failLast).isSome := by decide +kernel
  obtain ⟨s, hs⟩ := Option.isSome_iff_exists.mp hruns
  exact ⟨s, hs, (rollback_complete_iff [2000, 4000, 4000] failLast s hs).mp (by decide +kernel)⟩

theorem start_outlives_its_failure : ¬ ∀ subs events s, exec (step subs) created events = some s →
    s.phase = .aborted → s.RolledBack subs := by
  intro h
  have hruns : (exec (step [2000, 2000]) created failFirst).map (fun s ↦ (s.phase, s.onStart 1)) =
      some (.aborted, .running) := by decide +kernel
  obtain ⟨s, hs, hend⟩ := Option.map_eq_some_iff.mp hruns
  obtain ⟨hphase, hrunning⟩ := Prod.mk.inj hend
  exact (h [2000, 2000] failFirst s hs hphase).idle 1 (by decide) hrunning

end SiloLifecycle

end Pyleans
