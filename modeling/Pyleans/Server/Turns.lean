import Pyleans.Server.LocalActivation

namespace Pyleans

open Library

/-- Grain code in progress: a turn of the worker, or the `on_deactivate` that a
task awaits. -/
inductive Body
  | turn (t : Turn)
  | onDeactivate (task : ℕ)
deriving DecidableEq

def LocalTask.hookOf : LocalTask → Option ℕ
  | .onDeactivate n _ _ => some n
  | _ => none

namespace LocalRuntime

def InProgress (s : LocalRuntime) (n : ℕ) : Body → Prop
  | .turn t => ∃ a, s.instances[n]? = some a ∧ a.turn = some t
  | .onDeactivate task => ∃ t, s.tasks[task]? = some t ∧ t.hookOf = some n

/-- Of each activation at most one body of grain code is in progress. -/
def Exclusive (s : LocalRuntime) : Prop := ∀ n b b', s.InProgress n b → s.InProgress n b' → b = b'

def BetweenTurns (s : LocalRuntime) (n : ℕ) : Prop := ∀ a ∈ s.instances[n]?, a.turn = none

def NoHook (s : LocalRuntime) (n : ℕ) : Prop := ∀ t ∈ s.tasks, t.hookOf ≠ some n

def Free (s : LocalRuntime) (n : ℕ) : Prop := s.BetweenTurns n ∧ s.NoHook n

instance (s : LocalRuntime) (n : ℕ) : Decidable (s.BetweenTurns n) := by
  unfold BetweenTurns; infer_instance

instance (s : LocalRuntime) (n : ℕ) : Decidable (s.NoHook n) := by unfold NoHook; infer_instance

/-- The activation whose worker takes a call from its inbox. -/
def turnBegun (s : LocalRuntime) : LocalEvent → Option ℕ
  | .take n =>
    match s.instances[n]? with
    | some ⟨_, .turn _ :: _, none, false⟩ => some n
    | _ => none
  | _ => none

/-- The activation whose `on_deactivate` a `deactivate_grain` calls. -/
def hookBegun (classes : String → Option GrainTraits) (s : LocalRuntime) : LocalEvent → Option ℕ
  | .next task =>
    match s.tasks[task]? with
    | some (.deactivating (g :: _)) =>
      if (classes g.grainType).any GrainTraits.hasOnDeactivate then s.activations g else none
    | _ => none
  | _ => none

/-- A worker takes a call only while no task is in `on_deactivate` of its activation, and
`deactivate_grain` calls that hook only between two turns and while no other task is in it. -/
def Separate (classes : String → Option GrainTraits) (s : LocalRuntime) (e : LocalEvent) : Prop :=
  (∀ n ∈ s.turnBegun e, s.NoHook n) ∧ ∀ n ∈ s.hookBegun classes e, s.BetweenTurns n ∧ s.NoHook n

instance decidableSeparate (classes : String → Option GrainTraits) (s : LocalRuntime)
    (e : LocalEvent) :
    Decidable (s.Separate classes e) := by
  unfold Separate; infer_instance

theorem free_iff {s : LocalRuntime} {n : ℕ} : s.Free n ↔ ∀ b, ¬ s.InProgress n b := by
  constructor
  · rintro ⟨hturn, hhook⟩ b hb
    cases b with
    | turn t =>
      obtain ⟨a, ha, ht⟩ := hb
      rw [hturn a ha] at ht
      cases ht
    | onDeactivate task =>
      obtain ⟨t, ht, hn⟩ := hb
      exact hhook t (List.mem_of_getElem? ht) hn
  · intro h
    constructor
    · intro a ha
      by_contra hne
      obtain ⟨t, ht⟩ := Option.ne_none_iff_exists'.mp hne
      exact h (.turn t) ⟨a, ha, ht⟩
    · intro t ht hn
      obtain ⟨task, htask⟩ := List.mem_iff_getElem?.mp ht
      exact h (.onDeactivate task) ⟨t, htask, hn⟩

def Shrinks (s s' : LocalRuntime) : Prop := ∀ n b, s'.InProgress n b → s.InProgress n b

def Grows (s s' : LocalRuntime) (n : ℕ) (b : Body) : Prop :=
  ¬ s.InProgress n b ∧ ∀ m b', s'.InProgress m b' ↔ s.InProgress m b' ∨ (m = n ∧ b' = b)

section

variable {classes : String → Option GrainTraits} {s s' s'' : LocalRuntime} {n task : ℕ}

theorem Shrinks.trans (h : s.Shrinks s') (h' : s'.Shrinks s'') : s.Shrinks s'' :=
  fun m b hb ↦ h m b (h' m b hb)

theorem shrinks_setTask (s : LocalRuntime) (task : ℕ) {t : LocalTask} (ht : t.hookOf = none) :
    s.Shrinks (s.setTask task t) := by
  intro m b hb
  cases b with
  | turn turn => exact hb
  | onDeactivate task' =>
    obtain ⟨t', ht', hm⟩ := hb
    simp only [setTask, List.getElem?_set] at ht'
    split_ifs at ht' with htask hlt
    · obtain rfl := Option.some.inj ht'
      rw [ht] at hm
      cases hm
    · exact ⟨t', ht', hm⟩

theorem shrinks_setInstance {a a' : LocalActivation} (h : s.instances[n]? = some a)
    (hturn : ∀ t, a'.turn = some t → a.turn = some t) : s.Shrinks (s.setInstance n a') := by
  intro m b hb
  cases b with
  | turn t =>
    obtain ⟨c, hc, ht⟩ := hb
    rcases (getElem?_replaced h).mp hc with ⟨rfl, rfl⟩ | ⟨-, hc⟩
    · exact ⟨a, h, hturn t ht⟩
    · exact ⟨c, hc, ht⟩
  | onDeactivate task => exact hb

theorem shrinks_spawn (s : LocalRuntime) {t : LocalTask} (ht : t.hookOf = none) :
    s.Shrinks (s.spawn t) := by
  intro m b hb
  cases b with
  | turn turn => exact hb
  | onDeactivate task =>
    obtain ⟨t', ht', hm⟩ := hb
    rcases getElem?_grown.mp ht' with ht' | ⟨-, rfl⟩
    · exact ⟨t', ht', hm⟩
    · rw [ht] at hm
      cases hm

theorem hookOf_afterActivate (n : ℕ) (g : GrainId) (method : Option String) :
    (afterActivate classes n g method).hookOf = none := by
  unfold afterActivate
  split
  · rfl
  · split_ifs <;> rfl

theorem shrinks_insertActivation (s : LocalRuntime) (task : ℕ) (c : GrainTraits) (g : GrainId)
    (method : Option String) : s.Shrinks (s.insertActivation classes task c g method) := by
  have htask : (if c.hasOnActivate then LocalTask.activating s.instances.length g method
      else afterActivate classes s.instances.length g method).hookOf = none := by
    split_ifs
    · rfl
    · exact hookOf_afterActivate _ g method
  intro m b hb
  cases b with
  | turn t =>
    obtain ⟨a, ha, ht⟩ := hb
    rcases getElem?_grown.mp ha with ha | ⟨-, rfl⟩
    · exact ⟨a, ha, ht⟩
    · cases ht
  | onDeactivate task' => exact shrinks_setTask s task htask m (.onDeactivate task') hb

theorem shrinks_activateGrain (s : LocalRuntime) (task : ℕ) (g : GrainId) (method : Option String) :
    s.Shrinks (s.activateGrain classes task g method) := by
  simp only [activateGrain]
  split
  · exact shrinks_setTask s task (hookOf_afterActivate _ g method)
  · split
    · exact shrinks_setTask s task rfl
    · split_ifs
      · exact shrinks_setTask s task rfl
      · exact shrinks_insertActivation s task _ g method

theorem grows_turn {g : GrainId} {t : Turn} {inbox inbox' : List WorkItem}
    (h : s.instances[n]? = some ⟨g, inbox, none, false⟩) :
    s.Grows (s.setInstance n ⟨g, inbox', some t, false⟩) n (.turn t) := by
  constructor
  · rintro ⟨a, ha, ht⟩
    obtain rfl := Option.some.inj (h.symm.trans ha)
    cases ht
  · intro m b
    cases b with
    | onDeactivate task => simp [InProgress, setInstance]
    | turn t' =>
      constructor
      · rintro ⟨a, ha, ht⟩
        rcases (getElem?_replaced h).mp ha with ⟨rfl, rfl⟩ | ⟨-, ha⟩
        · exact .inr ⟨rfl, congrArg Body.turn (Option.some.inj ht).symm⟩
        · exact .inl ⟨a, ha, ht⟩
      · rintro (⟨a, ha, ht⟩ | ⟨rfl, ht⟩)
        · have hm : m ≠ n := by
            rintro rfl
            obtain rfl := Option.some.inj (h.symm.trans ha)
            cases ht
          exact ⟨a, (getElem?_replaced h).mpr (.inr ⟨hm, ha⟩), ht⟩
        · obtain rfl := Body.turn.inj ht
          exact ⟨_, (getElem?_replaced h).mpr (.inl ⟨rfl, rfl⟩), rfl⟩

theorem grows_hook {t : LocalTask} {g : GrainId} {rest : List GrainId} (h : s.tasks[task]? = some t)
    (ht : t.hookOf = none) : s.Grows (s.setTask task (.onDeactivate n g rest)) n
      (.onDeactivate task) := by
  constructor
  · rintro ⟨t', ht', hn⟩
    obtain rfl := Option.some.inj (h.symm.trans ht')
    rw [ht] at hn
    cases hn
  · intro m b
    cases b with
    | turn t' => simp [InProgress, setTask]
    | onDeactivate task' =>
      constructor
      · rintro ⟨t', ht', hm⟩
        rcases (getElem?_replaced h).mp ht' with ⟨rfl, rfl⟩ | ⟨-, ht'⟩
        · exact .inr ⟨(Option.some.inj hm).symm, rfl⟩
        · exact .inl ⟨t', ht', hm⟩
      · rintro (⟨t', ht', hm⟩ | ⟨rfl, htask⟩)
        · have hne : task' ≠ task := by
            rintro rfl
            obtain rfl := Option.some.inj (h.symm.trans ht')
            rw [ht] at hm
            cases hm
          exact ⟨t', (getElem?_replaced h).mpr (.inr ⟨hne, ht'⟩), hm⟩
        · obtain rfl := Body.onDeactivate.inj htask
          exact ⟨_, (getElem?_replaced h).mpr (.inl ⟨rfl, rfl⟩), rfl⟩

theorem step_bodies {e : LocalEvent} (h : step classes s e = some s') :
    (s.turnBegun e = none ∧ s.hookBegun classes e = none ∧ s.Shrinks s') ∨
    (∃ n t, s.turnBegun e = some n ∧ s.hookBegun classes e = none ∧ s.BetweenTurns n ∧
      s.Grows s' n (.turn t)) ∨
    ∃ n task, s.turnBegun e = none ∧ s.hookBegun classes e = some n ∧
      s.Grows s' n (.onDeactivate task) := by
  cases moves_of_step h with
  | invoke g method | deactivate grains => exact .inl ⟨rfl, rfl, shrinks_spawn s rfl⟩
  | inbound g method | activate g =>
    exact .inl ⟨rfl, rfl, (shrinks_spawn s rfl).trans (shrinks_activateGrain _ _ g _)⟩
  | @resolvedHere g method retry task ht => exact .inl ⟨rfl, rfl, shrinks_activateGrain s task g _⟩
  | connectionLost task ht => split_ifs <;> exact .inl ⟨rfl, rfl, shrinks_setTask s task rfl⟩
  | @loaded g method c task ht hc =>
    exact .inl ⟨rfl, rfl, shrinks_insertActivation s task c g method⟩
  | put task ht ha hsize | putSentinel task ht ha hsize =>
    refine .inl ⟨rfl, rfl, .trans (shrinks_setInstance ha ?_) (shrinks_setTask _ task rfl)⟩
    exact fun t ht ↦ ht
  | @takeTurn g t inbox n ha =>
    refine .inr (.inl ⟨n, t, by simp only [turnBegun, ha], rfl, ?_, grows_turn ha⟩)
    intro a h
    obtain rfl := Option.some.inj (ha.symm.trans h)
    rfl
  | takeSentinel n ha =>
    exact .inl ⟨by simp only [turnBegun, ha], rfl, shrinks_setInstance ha fun t ht ↦ ht⟩
  | finish n ok ha => exact .inl ⟨rfl, rfl, shrinks_setInstance ha fun t ht ↦ by cases ht⟩
  | @activated g _ inbox _ task method n ok ha ht =>
    have hend : s.Shrinks (s.setInstance n ⟨g, inbox, none, false⟩) :=
      shrinks_setInstance ha fun t ht ↦ by cases ht
    refine .inl ⟨rfl, rfl, hend.trans (shrinks_setTask _ task ?_)⟩
    split_ifs
    · exact hookOf_afterActivate n g method
    · rfl
  | noneLeft task ht => exact .inl ⟨rfl, by simp only [hookBegun, ht], shrinks_setTask s task rfl⟩
  | nextAbsent task ht hn =>
    exact .inl ⟨rfl, by simp only [hookBegun, ht, hn, ite_self], shrinks_setTask s task rfl⟩
  | @nextHook n g rest task ht hn hhook =>
    exact .inr
      (.inr ⟨n, task, rfl, by simp only [hookBegun, ht, hn, if_pos hhook], grows_hook ht rfl⟩)
  | nextPlain task ht hn hhook =>
    exact .inl ⟨rfl, by simp only [hookBegun, ht, if_neg hhook], shrinks_setTask s task rfl⟩
  | shutdownTimeout task ht ha =>
    exact .inl ⟨rfl, rfl, shrinks_setInstance ha fun t ht ↦ by cases ht⟩
  | pop task ht hstopped => exact .inl ⟨rfl, rfl, shrinks_setTask s task rfl⟩
  | _ => exact .inl ⟨rfl, rfl, shrinks_setTask s _ rfl⟩

theorem Exclusive.shrinks (h : s.Exclusive) (hs : s.Shrinks s') : s'.Exclusive :=
  fun n b b' hb hb' ↦ h n b b' (hs n b hb) (hs n b' hb')

theorem exclusive_iff_of_grows {b : Body} (h : s.Exclusive) (hs : s.Grows s' n b) :
    s'.Exclusive ↔ s.Free n := by
  rw [free_iff]
  constructor
  · intro hexclusive b' hb'
    obtain rfl := hexclusive n b b' ((hs.2 n b).mpr (.inr ⟨rfl, rfl⟩)) ((hs.2 n b').mpr (.inl hb'))
    exact hs.1 hb'
  · intro hfree m c c' hc hc'
    rcases (hs.2 m c).mp hc with hc | ⟨rfl, rfl⟩ <;> rcases (hs.2 m c').mp hc' with hc' | ⟨hm, hc'⟩
    · exact h m c c' hc hc'
    · exact absurd (hm ▸ hc) (hfree c)
    · exact absurd hc' (hfree c')
    · exact hc'.symm

theorem separate_iff {e : LocalEvent} (h : s.Exclusive) (hs : step classes s e = some s') :
    s.Separate classes e ↔ s'.Exclusive := by
  unfold Separate
  rcases step_bodies hs with ⟨hturn, hhook, hshrinks⟩ | ⟨n, t, hturn, hhook, hbetween, hgrows⟩ |
    ⟨n, task, hturn, hhook, hgrows⟩
  · rw [hturn, hhook]
    exact iff_of_true (by simp) (h.shrinks hshrinks)
  · rw [hturn, hhook, exclusive_iff_of_grows h hgrows]
    simp [Free, hbetween]
  · rw [hturn, hhook, exclusive_iff_of_grows h hgrows]
    simp [Free]

/-- The turns of an activation and its hooks exclude each other all along a
run exactly when none of them begins where another is in progress. -/
theorem turns_exclusive_iff (classes : String → Option GrainTraits) (events : List LocalEvent)
    (s : LocalRuntime) (h : exec (step classes) empty events = some s) :
    Meets (step classes) (Separate classes) empty events ↔
      ∀ before t, before <+: events → exec (step classes) empty before = some t → t.Exclusive := by
  apply meets_iff_always h
  · rintro n (t | task) b' ⟨x, hx, -⟩ -
    · cases hx
    · cases hx
  · exact fun s e s' hi hs ↦ separate_iff hi hs

end

def callThenDeactivate : List LocalEvent :=
  [.inbound counter1 "get", .loaded 0 true, .take 0, .finish 0 true, .put 0, .take 0,
    .finish 0 true, .deactivate [counter1], .next 1, .deactivated 1, .put 1, .take 0, .pop 1,
    .unregistered 1, .next 1]

def deactivateInCall : List LocalEvent :=
  [.inbound counter1 "get", .loaded 0 true, .take 0, .finish 0 true, .put 0, .take 0,
    .deactivate [counter1], .next 1]

theorem turns_exclusive_callThenDeactivate :
    ∃ s, exec (step counterClass) empty callThenDeactivate = some s ∧
    ∀ before t, before <+: callThenDeactivate → exec (step counterClass) empty before = some t →
      t.Exclusive := by
  have hruns : (exec (step counterClass) empty callThenDeactivate).isSome := by decide
  obtain ⟨s, hs⟩ := Option.isSome_iff_exists.mp hruns
  exact ⟨s, hs, (turns_exclusive_iff counterClass callThenDeactivate s hs).mp (by decide)⟩

theorem hook_runs_beside_method : ¬ ∀ classes events s, exec (step classes) empty events = some s →
    s.Exclusive := by
  intro h
  have hruns : (exec (step counterClass) empty deactivateInCall).map (fun s ↦
      (s.instances.map LocalActivation.turn, s.tasks.map LocalTask.hookOf)) =
      some ([some (.method "get")], [none, some 0]) := by decide
  obtain ⟨s, hs, hend⟩ := Option.map_eq_some_iff.mp hruns
  obtain ⟨hturns, hhooks⟩ := Prod.mk.inj hend
  obtain ⟨a, rest, ha, hturn, -⟩ := List.map_eq_cons_iff.mp hturns
  obtain ⟨t, rest', ht, -, hrest⟩ := List.map_eq_cons_iff.mp hhooks
  obtain ⟨t', rest'', ht', hhook, -⟩ := List.map_eq_cons_iff.mp hrest
  have hmethod : s.InProgress 0 (.turn (.method "get")) := ⟨a, by rw [ha]; rfl, hturn⟩
  have hdeactivate : s.InProgress 0 (.onDeactivate 1) := ⟨t', by rw [ht, ht']; rfl, hhook⟩
  cases h counterClass deactivateInCall s hs 0 _ _ hmethod hdeactivate

end LocalRuntime

end Pyleans
