import Mathlib.Data.List.Dedup
import Pyleans.Server.Deeds
import Pyleans.Server.LocalActivation

namespace Pyleans

open Library

/-- How far `GrainRuntime.stop` has come. From `stopping` on it works through
its list of grains, in the task of this number. -/
inductive StopPhase
  | running
  | stopping (task : ℕ)
  | stopped
  | failed
deriving DecidableEq

/-- A runtime with how far `stop` has come and with the activations whose
`on_deactivate` was called, whose worker was told to end, and whose `unregister`
was called. -/
structure Draining where
  runtime : LocalRuntime
  phase : StopPhase
  hooked : List ℕ
  told : List ℕ
  unregistered : List ℕ

inductive DrainingEvent
  | runtime (e : LocalEvent)
  | stop (grains : List GrainId)

/-- The grains that a `deactivate_grain`, or the list it is part of, is still to
remove: that which it has in hand and all behind it. -/
def LocalTask.remaining : LocalTask → Option (List GrainId)
  | .deactivating rest | .unregistering rest => some rest
  | .onDeactivate _ g rest | .puttingSentinel _ g rest | .stopping _ g rest => some (g :: rest)
  | _ => none

def StopPhase.after (s : LocalRuntime) (e : LocalEvent) : StopPhase → StopPhase
  | .stopping task =>
    match e with
    | .drop i => if i = task then .failed else .stopping task
    | .next i =>
      if i = task ∧ s.tasks[task]? = some (.deactivating []) then .stopped else .stopping task
    | _ => .stopping task
  | phase => phase

namespace Draining

def start : Draining := ⟨.empty, .running, [], [], []⟩

def active (s : Draining) : List GrainId :=
  s.runtime.grains.dedup.filter fun g ↦ (s.runtime.activations g).isSome

variable (classes : String → Option GrainTraits)

def after (s : Draining) (runtime : LocalRuntime) (phase : StopPhase) (d : Deed) : Draining where
  runtime := runtime
  phase := phase
  hooked := s.hooked ++ (d.hooks classes).toList
  told := s.told ++ d.told.toList.map Prod.fst
  unregistered := s.unregistered ++ d.pops.toList.map Prod.fst

/-- `stop` takes its list, in whatever order the keys are. -/
def step (s : Draining) : DrainingEvent → Option Draining
  | .runtime e =>
    (LocalRuntime.step classes s.runtime e).map fun runtime ↦
      s.after classes runtime (s.phase.after s.runtime e) (s.runtime.deed classes e)
  | .stop grains =>
    if s.phase = .running ∧ grains.Perm s.active then
      some { s with
        runtime := s.runtime.spawn (.deactivating grains)
        phase := .stopping s.runtime.tasks.length }
    else none

/-- An activation of the grain is still removed by `stop`, if that has begun. -/
def Admits (s : Draining) (g : GrainId) : Prop :=
  match s.phase with
  | .stopping task => ∃ rest ∈ (s.runtime.tasks[task]?).bind LocalTask.remaining, g ∈ rest
  | .stopped => False
  | _ => True

instance (s : Draining) (g : GrainId) : Decidable (s.Admits g) := by
  unfold Admits
  split <;> infer_instance

/-- An activation gets into the table only when the table has none for the
grain, no deactivation of the grain is under way, and `stop` has the grain still
before it. -/
def InOrder (s : Draining) : DrainingEvent → Prop
  | .runtime e => ∀ g ∈ (s.runtime.deed classes e).inserts,
      s.runtime.activations g = none ∧ s.runtime.Undisturbed g ∧ s.Admits g
  | .stop _ => True

instance (s : Draining) : ∀ event, Decidable (s.InOrder classes event)
  | .runtime e => inferInstanceAs (Decidable (∀ g ∈ (s.runtime.deed classes e).inserts,
      s.runtime.activations g = none ∧ s.runtime.Undisturbed g ∧ s.Admits g))
  | .stop _ => .isTrue trivial

/-- `stop` has returned only when the table is empty, and every activation there
ever was has been deactivated. -/
def Drained (s : Draining) : Prop :=
  s.phase = .stopped → (∀ g, s.runtime.activations g = none) ∧
    ∀ n g, s.runtime.grains[n]? = some g →
      (hasHook classes g = true → n ∈ s.hooked) ∧ n ∈ s.told ∧ n ∈ s.unregistered

end Draining

namespace LocalRuntime

variable {classes : String → Option GrainTraits} {s s' : LocalRuntime} {i : ℕ} {t : LocalTask}
  {rest : List GrainId}
  {g : GrainId}

def StillAhead (s : LocalRuntime) (i : ℕ) (g : GrainId) : Prop :=
  s.activations g = none ∨ ∃ rest ∈ (s.tasks[i]?).bind LocalTask.remaining, g ∈ rest

theorem stillAhead_of_set (ht : s.tasks[i]? = some t) (hrest : t.remaining = some rest)
    (hg : g ∈ rest) {j : ℕ} {u u' : LocalTask} (hu : s.tasks[j]? = some u)
    (htasks : s'.tasks = s.tasks.set j u')
    (hgoes : u = t → s'.activations g = none ∨ ∃ rest', u'.remaining = some rest' ∧ g ∈ rest') :
      s'.StillAhead i g := by
  by_cases hj : j = i
  · subst hj
    rcases hgoes (Option.some.inj (hu.symm.trans ht)) with hnone | ⟨rest', hrest', hg'⟩
    · exact .inl hnone
    · refine .inr ⟨rest', ?_, hg'⟩
      rw [htasks, List.getElem?_set_self (List.getElem?_eq_some_iff.mp ht).1]
      exact hrest'
  · refine .inr ⟨rest, ?_, hg⟩
    rw [htasks, List.getElem?_set_ne hj, ht]
    exact hrest

theorem stillAhead_of_same (ht : s.tasks[i]? = some t) (hrest : t.remaining = some rest)
    (hg : g ∈ rest) (htasks : s'.tasks[i]? = s.tasks[i]?) : s'.StillAhead i g := by
  refine .inr ⟨rest, ?_, hg⟩
  rw [htasks, ht]
  exact hrest

theorem stillAhead_of_step {e : LocalEvent} (hs : step classes s e = some s')
    (ht : s.tasks[i]? = some t) (hrest : t.remaining = some rest) (hg : g ∈ rest)
    (hdrop : e ≠ .drop i) : s'.StillAhead i g := by
  have hlt := (List.getElem?_eq_some_iff.mp ht).1
  cases moves_of_step hs with
  | invoke k method | deactivate grains =>
    exact stillAhead_of_same ht hrest hg (List.getElem?_append_left hlt)
  | inbound k method | activate k =>
    refine stillAhead_of_same ht hrest hg ?_
    obtain ⟨u, hu⟩ := activateGrain_tasks classes (s.spawn .finished) s.tasks.length k _
    rw [hu, List.getElem?_set_ne hlt.ne']
    exact List.getElem?_append_left hlt
  | @resolvedHere k method retry task hu =>
    obtain ⟨u, htasks⟩ := activateGrain_tasks classes s task k (some method)
    exact stillAhead_of_set ht hrest hg hu htasks fun h ↦ by subst h; cases hrest
  | resolvedAway task hu | connectionLost task hu | loaded task hu | loadFailed task hu
    | put task hu =>
    exact stillAhead_of_set ht hrest hg hu rfl fun h ↦ by subst h; cases hrest
  | activated n ok ha hu =>
    exact stillAhead_of_set ht hrest hg hu rfl fun h ↦ by subst h; cases hrest
  | takeTurn n ha | takeSentinel n ha | finish n ok ha => exact stillAhead_of_same ht hrest hg rfl
  | shutdownTimeout task hu ha => exact stillAhead_of_same ht hrest hg rfl
  | putSentinel task hu | deactivated task hu | unregistered task hu =>
    refine stillAhead_of_set ht hrest hg hu rfl fun h ↦ .inr ⟨rest, ?_, hg⟩
    subst h
    exact hrest
  | nextHook task hu | nextPlain task hu =>
    refine stillAhead_of_set ht hrest hg hu rfl fun h ↦ .inr ⟨rest, ?_, hg⟩
    subst h
    exact hrest
  | noneLeft task hu =>
    refine stillAhead_of_set ht hrest hg hu rfl fun h ↦ ?_
    subst h
    cases hrest
    cases hg
  | nextAbsent task hu hn =>
    refine stillAhead_of_set ht hrest hg hu rfl fun h ↦ ?_
    subst h
    cases hrest
    rcases List.mem_cons.mp hg with rfl | hg
    · exact .inl hn
    · exact .inr ⟨_, rfl, hg⟩
  | pop task hu =>
    refine stillAhead_of_set ht hrest hg hu rfl fun h ↦ ?_
    subst h
    cases hrest
    rcases List.mem_cons.mp hg with rfl | hg
    · exact .inl (Function.update_self _ _ _)
    · exact .inr ⟨_, rfl, hg⟩
  | @drop u task hu =>
    have hne : task ≠ i := fun h ↦ hdrop (congrArg LocalEvent.drop h)
    exact stillAhead_of_same ht hrest hg (List.getElem?_set_ne hne)

end LocalRuntime

namespace Draining

variable {classes : String → Option GrainTraits} {s s' : Draining} {g : GrainId}

theorem StopPhase.after_stopping {r : LocalRuntime} {e : LocalEvent} {task : ℕ}
    (hdrop : e ≠ .drop task) (hnext : r.tasks[task]? ≠ some (.deactivating [])) :
    (StopPhase.stopping task).after r e = .stopping task := by
  cases e with
  | drop i => exact if_neg fun hi ↦ hdrop (congrArg LocalEvent.drop hi)
  | next i => exact if_neg fun hi ↦ hnext hi.2
  | _ => rfl

/-- What `stop` has before it stays so until the grain is active no more. -/
theorem admits_of_step {e : LocalEvent} (h : s.Admits g)
    (hs : step classes s (.runtime e) = some s') (hactive : s'.runtime.activations g ≠ none) :
    s'.Admits g := by
  obtain ⟨r, hr, rfl⟩ := Option.map_eq_some_iff.mp hs
  unfold Admits at h ⊢
  cases hphase : s.phase with
  | stopping task =>
    simp only [hphase] at h ⊢
    obtain ⟨rest, hrest, hg⟩ := h
    obtain ⟨t, ht, hrest⟩ := Option.bind_eq_some_iff.mp hrest
    by_cases hdrop : e = .drop task
    · subst hdrop
      simp only [after, StopPhase.after, if_true]
    · have hnext : s.runtime.tasks[task]? ≠ some (.deactivating []) := by
        intro hlast
        obtain rfl := Option.some.inj (hlast.symm.trans ht)
        cases hrest
        cases hg
      simp only [after, StopPhase.after_stopping hdrop hnext]
      exact (LocalRuntime.stillAhead_of_step hr ht hrest hg hdrop).resolve_left hactive
  | stopped =>
    simp only [hphase] at h
  | running | failed => simp only [after, StopPhase.after]

/-- The runtime as `stop` leaves it, or finds it. -/
structure Sound (classes : String → Option GrainTraits) (s : Draining) : Prop where
  labelled : s.runtime.Labelled
  own : s.runtime.OwnOnly
  covered : ∀ n g, s.runtime.grains[n]? = some g → s.runtime.activations g = some n ∨
    n ∈ s.unregistered
  hooked : ∀ n g, s.runtime.Deactivating n g → hasHook classes g = true → n ∈ s.hooked
  told : ∀ n g, s.runtime.WaitingFor n g → n ∈ s.told
  done : ∀ n ∈ s.unregistered, n ∈ s.told ∧
    ∃ g, s.runtime.grains[n]? = some g ∧ (hasHook classes g = true → n ∈ s.hooked)
  admits : ∀ g, s.runtime.activations g ≠ none → s.Admits g

theorem Sound.drained (h : s.Sound classes) : s.Drained classes := by
  intro hphase
  have hempty : ∀ g, s.runtime.activations g = none := by
    intro g
    by_contra hactive
    have hadmits := h.admits g hactive
    simp only [Admits, hphase] at hadmits
  refine ⟨hempty, fun n g hn ↦ ?_⟩
  have hdone := (h.covered n g hn).resolve_left fun hactive ↦
    Option.some_ne_none n (hactive.symm.trans (hempty g))
  obtain ⟨htold, k, hk, hhook⟩ := h.done n hdone
  obtain rfl := Option.some.inj (hn.symm.trans hk)
  exact ⟨hhook, htold, hdone⟩

section

variable {r : LocalRuntime} {d : Deed} (h : s.Sound classes) (hdoes : s.runtime.Does r d)
  (phase : StopPhase)

include h hdoes

/-- An activation leaves the table only through its own deactivation. -/
theorem Sound.covered_after (hfree : ∀ g, d.inserts = some g → s.runtime.activations g = none)
    (n : ℕ) (g : GrainId) (hn : r.grains[n]? = some g) : r.activations g = some n ∨
      n ∈ (s.after classes r phase d).unregistered := by
  rw [hdoes.activations]
  rcases hdoes.grain_cases hn with hn | ⟨rfl, hinserts⟩
  · rcases h.covered n g hn with hactive | hdone
    · by_cases hpops : ∃ m, d.pops = some (m, g)
      · obtain ⟨m, hm⟩ := hpops
        have hin := LocalRuntime.deactivating_of_waitingFor (hdoes.finds.pops hm)
        obtain rfl := h.own m g hin n hactive
        refine .inr (List.mem_append_right _ ?_)
        rw [hm]
        exact List.mem_singleton_self n
      · have hinserts : d.inserts ≠ some g :=
          fun hg ↦ Option.some_ne_none n (hactive.symm.trans (hfree g hg))
        exact .inl ((Deed.table_of_ne hinserts (not_exists.mp hpops)).trans hactive)
    · exact .inr (List.mem_append_left _ hdone)
  · exact .inl (Deed.table_inserts hinserts)

theorem Sound.hooked_after (n : ℕ) (g : GrainId) (hn : r.Deactivating n g)
    (hhook : hasHook classes g = true) :
    n ∈ (s.after classes r phase d).hooked := by
  rcases hdoes.up n g hn with hn | hup
  · exact List.mem_append_left _ (h.hooked n g hn hhook)
  · exact List.mem_append_right _ (Option.mem_toList.mpr (Deed.hooks_of_up hup hhook))

theorem Sound.told_after (n : ℕ) (g : GrainId) (hn : r.WaitingFor n g) :
    n ∈ (s.after classes r phase d).told := by
  rcases hdoes.told n g hn with hn | htold
  · exact List.mem_append_left _ (h.told n g hn)
  · exact List.mem_append_right _ (List.mem_map.mpr ⟨(n, g), Option.mem_toList.mpr htold, rfl⟩)

theorem Sound.done_after (n : ℕ) (hn : n ∈ (s.after classes r phase d).unregistered) :
    n ∈ (s.after classes r phase d).told ∧
      ∃ g, r.grains[n]? = some g ∧
        (hasHook classes g = true → n ∈ (s.after classes r phase d).hooked) := by
  rcases List.mem_append.mp hn with hn | hn
  · obtain ⟨htold, g, hg, hhook⟩ := h.done n hn
    exact ⟨List.mem_append_left _ htold, g, hdoes.grain hg, fun hg ↦
      List.mem_append_left _ (hhook hg)⟩
  · obtain ⟨⟨m, g⟩, hm, rfl⟩ := List.mem_map.mp hn
    have hwaiting := hdoes.finds.pops (Option.mem_toList.mp hm)
    have hin := LocalRuntime.deactivating_of_waitingFor hwaiting
    refine ⟨List.mem_append_left _ (h.told m g hwaiting), g,
      hdoes.grain (h.labelled.inHand m g hin), fun hg ↦ ?_⟩
    exact List.mem_append_left _ (h.hooked m g hin hg)

end

theorem Sound.step_runtime {e : LocalEvent} (h : s.Sound classes)
    (hok : s.InOrder classes (.runtime e)) (hs : step classes s (.runtime e) = some s') :
    s'.Sound classes := by
  have hadmits (g : GrainId) (hg : s.Admits g) := admits_of_step hg hs
  obtain ⟨r, hr, rfl⟩ := Option.map_eq_some_iff.mp hs
  have hdoes := LocalRuntime.does_of_step hr
  refine ⟨hdoes.labelled h.labelled, ?_,
    ?_, h.hooked_after hdoes _, h.told_after hdoes _, h.done_after hdoes _, ?_⟩
  · exact hdoes.own h.own fun g hg ↦ LocalRuntime.undisturbed_iff.mp (hok g hg).2.1
  · exact h.covered_after hdoes _ fun g hg ↦ (hok g hg).1
  · intro g hactive
    refine hadmits g ?_ hactive
    obtain ⟨n, hn⟩ := Option.ne_none_iff_exists'.mp hactive
    rcases Deed.table_eq_some (hdoes.activations ▸ hn) with ⟨hinserts, -⟩ | ⟨hold, -⟩
    · exact (hok g hinserts).2.2
    · exact h.admits g (Option.ne_none_iff_exists'.mpr ⟨n, hold⟩)

theorem mem_active (h : s.runtime.Labelled) (hactive : s.runtime.activations g ≠ none) :
    g ∈ s.active := by
  obtain ⟨n, hn⟩ := Option.ne_none_iff_exists'.mp hactive
  refine List.mem_filter.mpr ⟨List.mem_dedup.mpr (List.mem_of_getElem? (h.active g n hn)), ?_⟩
  rw [hn, Option.isSome_some]

theorem Sound.step_stop {grains : List GrainId} (h : s.Sound classes)
    (hs : step classes s (.stop grains) = some s') :
    s'.Sound classes := by
  simp only [step] at hs
  split_ifs at hs with hstop
  obtain rfl := Option.some.inj hs
  have hdoes := LocalRuntime.Does.spawn s.runtime (t := .deactivating grains) rfl rfl rfl
  have hin (n : ℕ) (g : GrainId) (hn : (s.runtime.spawn (.deactivating grains)).Deactivating n g) :=
    (hdoes.up n g hn).resolve_right nofun
  refine ⟨hdoes.labelled h.labelled, hdoes.own h.own nofun, h.covered, ?_, ?_, h.done, ?_⟩
  · exact fun n g hn ↦ h.hooked n g (hin n g hn)
  · exact fun n g hn ↦ h.told n g ((hdoes.told n g hn).resolve_right nofun)
  · intro g hactive
    refine ⟨grains, ?_, hstop.2.mem_iff.mpr (mem_active h.labelled hactive)⟩
    rw [LocalRuntime.spawn, List.getElem?_concat_length]
    rfl

theorem sound_start (classes : String → Option GrainTraits) : start.Sound classes where
  labelled := LocalRuntime.labelled_empty
  own n g h := absurd h (LocalRuntime.not_deactivating_empty n g)
  covered := nofun
  hooked n g h := absurd h (LocalRuntime.not_deactivating_empty n g)
  told n g h := absurd (LocalRuntime.deactivating_of_waitingFor h)
    (LocalRuntime.not_deactivating_empty n g)
  done := nofun
  admits _ h := absurd rfl h

/-- However calls interleave with `stop`, once it has returned the runtime is
empty and stays so, and every activation has been deactivated, as long as an
activation gets into the table only where `stop` still removes it. -/
theorem shutdown_drains (classes : String → Option GrainTraits) (events : List DrainingEvent)
    (s : Draining) (h : exec (step classes) start events = some s)
    (hmeets : Meets (step classes) (InOrder classes) start events) :
    s.Drained classes := by
  have hsound := (guarded_of_exec h hmeets).invariant (I := Sound classes) (sound_start classes) ?_
  · exact hsound.drained
  · intro s event s' hi hok hs
    cases event with
    | runtime e => exact hi.step_runtime hok hs
    | stop grains => exact hi.step_stop hs

def callWhileStopping : List DrainingEvent :=
  [.runtime (.inbound counter1 "get"), .runtime (.loaded 0 true), .runtime (.take 0),
    .runtime (.finish 0 true), .runtime (.put 0), .runtime (.take 0), .runtime (.finish 0 true),
    .stop [counter1], .runtime (.next 1), .runtime (.inbound counter1 "get"), .runtime (.put 2),
    .runtime (.take 0), .runtime (.finish 0 true), .runtime (.deactivated 1), .runtime (.put 1),
    .runtime (.take 0), .runtime (.pop 1), .runtime (.unregistered 1), .runtime (.next 1)]

def otherCallWhileStopping : List DrainingEvent :=
  [.runtime (.inbound counter1 "get"), .runtime (.loaded 0 true), .runtime (.take 0),
    .runtime (.finish 0 true), .runtime (.put 0), .runtime (.take 0), .runtime (.finish 0 true),
    .stop [counter1], .runtime (.next 1), .runtime (.inbound counter4 "get"),
    .runtime (.loaded 2 true), .runtime (.take 1), .runtime (.finish 1 true), .runtime (.put 2),
    .runtime (.deactivated 1), .runtime (.put 1), .runtime (.take 0), .runtime (.pop 1),
    .runtime (.unregistered 1), .runtime (.next 1)]

theorem shutdown_drains_callWhileStopping :
    ∃ s, exec (step LocalRuntime.counterClass) start callWhileStopping = some s ∧
      s.Drained LocalRuntime.counterClass := by
  have hruns : (exec (step LocalRuntime.counterClass) start callWhileStopping).isSome := by decide
  obtain ⟨s, hs⟩ := Option.isSome_iff_exists.mp hruns
  exact ⟨s, hs, shutdown_drains LocalRuntime.counterClass callWhileStopping s hs (by decide)⟩

theorem call_during_stop_leaves_activation : ¬ ∀ classes events s,
    exec (step classes) start events = some s → s.Drained classes := by
  intro h
  have hruns : (exec (step LocalRuntime.counterClass) start otherCallWhileStopping).map
      (fun s ↦ (s.phase, s.runtime.activations counter4)) = some (.stopped, some 1) := by decide
  obtain ⟨s, hs, hend⟩ := Option.map_eq_some_iff.mp hruns
  simp only [Prod.mk.injEq] at hend
  have hempty := (h LocalRuntime.counterClass otherCallWhileStopping s hs hend.1).1 counter4
  rw [hend.2] at hempty
  cases hempty

end Draining

end Pyleans
