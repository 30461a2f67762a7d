import Pyleans.Library.Table
import Pyleans.Server.LocalActivation

namespace Pyleans

open Library

/-- Where the loop of a timer is: between two ticks, or in the `invoke` of one,
which is a task of the runtime. -/
inductive TimerTask
  | asleep
  | ticking (invoke : ℕ)
deriving DecidableEq

/-- A loop is cancelled together with the call that it waits for. -/
def TimerTask.cancel (runtime : LocalRuntime) : TimerTask → LocalRuntime
  | .asleep => runtime
  | .ticking i => runtime.setTask i .finished

/-- `owner` is the activation that has registered the timer, if one has. -/
structure GrainTimer where
  id : ℕ
  grainId : GrainId
  callbackName : String
  task : TimerTask
  owner : Option ℕ
deriving DecidableEq

structure TimerRegistry where
  timers : Table GrainTimer.id
  grainTimers : Table (Prod.fst : GrainId × List ℕ → GrainId)
  nextId : ℕ

namespace TimerRegistry

def empty : TimerRegistry := ⟨Table.empty, Table.empty, 0⟩

variable (r : TimerRegistry)

def idsOf (g : GrainId) : List ℕ := ((r.grainTimers.get g).map Prod.snd).getD []

def registerTimer (owner : Option ℕ) (g : GrainId) (callbackName : String) : TimerRegistry where
  timers := r.timers.put ⟨r.nextId, g, callbackName, .asleep, owner⟩
  grainTimers := r.grainTimers.put (g, r.idsOf g ++ [r.nextId])
  nextId := r.nextId + 1

def unregisterTimer (id : ℕ) : TimerRegistry :=
  match r.timers.get id with
  | none => r
  | some timer =>
    { r with
      timers := r.timers.pop id
      grainTimers :=
        if id ∈ r.idsOf timer.grainId then
          r.grainTimers.put (timer.grainId, (r.idsOf timer.grainId).erase id)
        else r.grainTimers }

def unregisterAll (g : GrainId) : TimerRegistry :=
  { r with timers := (r.idsOf g).foldl Table.pop r.timers, grainTimers := r.grainTimers.pop g }

def goOn (timer : GrainTimer) (task : TimerTask) : TimerRegistry :=
  { r with timers := r.timers.put { timer with task := task } }

end TimerRegistry

/-- A runtime with its timers. `leaving` is the activation that the `deactivate_grain` of a
task has removed from the table, `gone` are those whose `deactivate_grain` has completed, and
`launched` is the owner of the timer whose tick is a task. -/
structure TimedRuntime where
  runtime : LocalRuntime
  registry : TimerRegistry
  leaving : ℕ → Option ℕ
  gone : List ℕ
  launched : ℕ → Option ℕ

/-- Timers are registered, and unregistered, by whoever holds the registry. -/
inductive TimedEvent
  | runtime (e : LocalEvent)
  | register (owner : Option ℕ) (g : GrainId) (callbackName : String)
  | unregisterTimer (id : ℕ)
  | unregisterAll (g : GrainId)
  | tick (id : ℕ)
  | ticked (id : ℕ)

namespace TimedRuntime

def start : TimedRuntime := ⟨.empty, .empty, fun _ ↦ none, [], fun _ ↦ none⟩

def leavingAfter (s : TimedRuntime) : LocalEvent → ℕ → Option ℕ
  | .pop task =>
    match s.runtime.tasks[task]? with
    | some (.stopping n _ _) => Function.update s.leaving task (some n)
    | _ => s.leaving
  | _ => s.leaving

def completes (s : TimedRuntime) : LocalEvent → Option ℕ
  | .unregistered task => s.leaving task
  | _ => none

def cancelAll (runtime : LocalRuntime) (timers : List GrainTimer) : LocalRuntime :=
  timers.foldl (fun runtime timer ↦ timer.task.cancel runtime) runtime

section

variable (classes : String → Option GrainTraits)

def step (s : TimedRuntime) : TimedEvent → Option TimedRuntime
  | .runtime e =>
    (LocalRuntime.step classes s.runtime e).map fun runtime ↦
      { s with
        runtime := runtime
        leaving := s.leavingAfter e
        gone := s.gone ++ (s.completes e).toList }
  | .register owner g callbackName =>
    if ∀ n ∈ owner, n < s.runtime.instances.length then
      some { s with registry := s.registry.registerTimer owner g callbackName }
    else none
  | .unregisterTimer id =>
    some { s with
      runtime := cancelAll s.runtime (s.registry.timers.get id).toList
      registry := s.registry.unregisterTimer id }
  | .unregisterAll g =>
    some { s with
      runtime := cancelAll s.runtime ((s.registry.idsOf g).filterMap s.registry.timers.get)
      registry := s.registry.unregisterAll g }
  | .tick id =>
    match s.registry.timers.get id with
    | some timer =>
      if timer.task = .asleep then
        (LocalRuntime.step classes s.runtime (.invoke timer.grainId timer.callbackName)).map
          fun runtime ↦
          { s with
            runtime := runtime
            registry := s.registry.goOn timer (.ticking s.runtime.tasks.length)
            launched := Function.update s.launched s.runtime.tasks.length timer.owner }
      else none
    | none => none
  | .ticked id =>
    match s.registry.timers.get id with
    | some timer =>
      match timer.task with
      | .asleep => none
      | .ticking i =>
        if s.runtime.tasks[i]? = some .finished then
          some { s with registry := s.registry.goOn timer .asleep }
        else none
    | none => none

/-- When `deactivate_grain` completes no timer of the activation is left, and an activation that
is gone registers none. -/
def Orderly (s : TimedRuntime) : TimedEvent → Prop
  | .runtime e => ∀ n ∈ s.completes e, ∀ timer ∈ s.registry.timers.items, timer.owner ≠ some n
  | .register owner _ _ => ∀ n ∈ owner, n ∉ s.gone
  | _ => True

instance (s : TimedRuntime) : ∀ event, Decidable (s.Orderly event)
  | .runtime e =>
    inferInstanceAs (Decidable
      (∀ n ∈ s.completes e, ∀ timer ∈ s.registry.timers.items, timer.owner ≠ some n))
  | .register owner _ _ => inferInstanceAs (Decidable (∀ n ∈ owner, n ∉ s.gone))
  | .unregisterTimer _ => .isTrue trivial
  | .unregisterAll _ => .isTrue trivial
  | .tick _ => .isTrue trivial
  | .ticked _ => .isTrue trivial

/-- No timer of an activation that is gone is registered, none ticks, and no tick of one goes on
to call the grain. -/
structure TimersDead (s : TimedRuntime) : Prop where
  registered : ∀ n ∈ s.gone, ∀ timer ∈ s.registry.timers.items, timer.owner ≠ some n
  ticks : ∀ n ∈ s.gone, ∀ id timer, s.registry.timers.get id = some timer → timer.owner = some n →
    step classes s (.tick id) = none
  activates : ∀ n ∈ s.gone, ∀ i, s.launched i = some n → s.runtime.tasks[i]? = some .finished

end

end TimedRuntime

namespace TimerRegistry

variable {r : TimerRegistry} {g k : GrainId}

theorem mem_pop {timers : Table GrainTimer.id} {id : ℕ} {timer : GrainTimer} :
    timer ∈ (timers.pop id).items ↔ timer ∈ timers.items ∧ timer.id ≠ id := by
  simp [Table.pop, Table.filter]

theorem mem_unregisterTimer {id : ℕ} {timer : GrainTimer} :
    timer ∈ (r.unregisterTimer id).timers.items ↔ timer ∈ r.timers.items ∧ timer.id ≠ id := by
  rw [unregisterTimer]
  split
  · next hnone =>
      exact (and_iff_left_of_imp fun htimer ↦ Table.get_eq_none_iff.mp hnone timer htimer).symm
  · exact mem_pop

theorem mem_unregisterAll {g : GrainId} {timer : GrainTimer} :
    timer ∈ (r.unregisterAll g).timers.items ↔ timer ∈ r.timers.items ∧ timer.id ∉ r.idsOf g := by
  rw [unregisterAll, Table.mem_iff_get, Table.get_foldl_pop, Table.mem_iff_get]
  split_ifs with hid
  · exact iff_of_false not_false fun h ↦ h.2 hid
  · exact (and_iff_left hid).symm

theorem idsOf_put (timers : Table GrainTimer.id) (ids : List ℕ) (next : ℕ) :
    (⟨timers, r.grainTimers.put (g, ids), next⟩ : TimerRegistry).idsOf k =
      if k = g then ids else r.idsOf k := by
  simp only [idsOf, Table.get_put]
  split_ifs <;> rfl

theorem idsOf_unregisterAll (hne : k ≠ g) : (r.unregisterAll g).idsOf k = r.idsOf k := by
  simp only [idsOf, unregisterAll, Table.get_pop, if_neg hne]

/-- Ids are used once, and each timer is on the list of its grain. -/
structure Filed (r : TimerRegistry) : Prop where
  below : ∀ timer ∈ r.timers.items, timer.id < r.nextId
  listed : ∀ timer ∈ r.timers.items, timer.id ∈ r.idsOf timer.grainId

theorem Filed.registerTimer (h : r.Filed) (owner : Option ℕ) (g : GrainId) (callbackName : String) :
    (r.registerTimer owner g callbackName).Filed where
  below timer htimer := by
    rcases Table.mem_put.mp htimer with rfl | ⟨htimer, -⟩
    · exact Nat.lt_succ_self _
    · exact Nat.lt_succ_of_lt (h.below timer htimer)
  listed timer htimer := by
    rw [TimerRegistry.registerTimer, idsOf_put]
    rcases Table.mem_put.mp htimer with rfl | ⟨htimer, -⟩
    · rw [if_pos rfl]
      exact List.mem_append_right _ (List.mem_singleton.mpr rfl)
    · have hlisted := h.listed timer htimer
      split_ifs with hg
      · exact List.mem_append_left _ (hg ▸ hlisted)
      · exact hlisted

theorem Filed.unregisterTimer (h : r.Filed) (id : ℕ) : (r.unregisterTimer id).Filed := by
  rw [TimerRegistry.unregisterTimer]
  split
  · exact h
  · next removed _ =>
    constructor
    · exact fun timer htimer ↦ h.below timer (mem_pop.mp htimer).1
    · intro timer htimer
      obtain ⟨htimer, hne⟩ := mem_pop.mp htimer
      have hlisted := h.listed timer htimer
      split_ifs
      · rw [idsOf_put]
        split_ifs with hg
        · exact (List.mem_erase_of_ne hne).mpr (hg ▸ hlisted)
        · exact hlisted
      · exact hlisted

theorem Filed.unregisterAll_clears (h : r.Filed) {timer : GrainTimer}
    (htimer : timer ∈ (r.unregisterAll g).timers.items) : timer.grainId ≠ g := by
  obtain ⟨htimer, hnot⟩ := mem_unregisterAll.mp htimer
  exact fun hg ↦ hnot (hg ▸ h.listed timer htimer)

theorem Filed.unregisterAll (h : r.Filed) (g : GrainId) : (r.unregisterAll g).Filed where
  below timer htimer := h.below timer (mem_unregisterAll.mp htimer).1
  listed timer htimer := by
    rw [idsOf_unregisterAll (h.unregisterAll_clears htimer)]
    exact h.listed timer (mem_unregisterAll.mp htimer).1

theorem Filed.goOn (h : r.Filed) {timer : GrainTimer} (htimer : timer ∈ r.timers.items)
    (task : TimerTask) :
    (r.goOn timer task).Filed where
  below other hother := by
    rcases Table.mem_put.mp hother with rfl | ⟨hother, -⟩
    · exact h.below timer htimer
    · exact h.below other hother
  listed other hother := by
    rcases Table.mem_put.mp hother with rfl | ⟨hother, -⟩
    · exact h.listed timer htimer
    · exact h.listed other hother

end TimerRegistry

namespace LocalRuntime

variable {classes : String → Option GrainTraits} {s s' : LocalRuntime} {i : ℕ}

theorem finished_of_set (h : s.tasks[i]? = some .finished) {j : ℕ} {t t' : LocalTask}
    (ht : s.tasks[j]? = some t) (htasks : s'.tasks = s.tasks.set j t')
    (hgoes : t ≠ .finished ∨ t' = .finished) :
    s'.tasks[i]? = some .finished := by
  by_cases hj : j = i
  · subst hj
    have hsame := Option.some.inj (ht.symm.trans h)
    rw [htasks, List.getElem?_set_self (List.getElem?_eq_some_iff.mp ht).1,
      hgoes.resolve_left (fun hne ↦ hne hsame)]
  · rw [htasks, List.getElem?_set_ne hj, h]

theorem finished_of_step {e : LocalEvent} (hs : step classes s e = some s')
    (h : s.tasks[i]? = some .finished) :
    s'.tasks[i]? = some .finished := by
  have hlt := (List.getElem?_eq_some_iff.mp h).1
  have hgrown : ∀ t, (s.spawn t).tasks[i]? = some .finished :=
    fun t ↦ (List.getElem?_append_left hlt).trans h
  cases moves_of_step hs with
  | invoke g method | deactivate grains => exact hgrown _
  | inbound g method | activate g =>
    obtain ⟨u, hu⟩ := activateGrain_tasks classes (s.spawn .finished) s.tasks.length g _
    rw [hu, List.getElem?_set_ne hlt.ne']
    exact hgrown _
  | @resolvedHere g method retry task ht =>
    obtain ⟨u, hu⟩ := activateGrain_tasks classes s task g (some method)
    exact finished_of_set h ht hu (.inl LocalTask.noConfusion)
  | takeTurn n ha | takeSentinel n ha | finish n ok ha | shutdownTimeout task ht ha => exact h
  | drop task ht hstopping => exact finished_of_set h ht rfl (.inr rfl)
  | activated n ok ha ht | loaded task ht hc | put task ht ha hsize
    | putSentinel task ht ha hsize =>
    exact finished_of_set h ht rfl (.inl LocalTask.noConfusion)
  | resolvedAway task ht | connectionLost task ht | loadFailed task ht | noneLeft task ht
    | nextAbsent task ht hn =>
    exact finished_of_set h ht rfl (.inl LocalTask.noConfusion)
  | nextHook task ht hn hhook | nextPlain task ht hn hhook | deactivated task ht
    | unregistered task ht
  | pop task ht hstopped =>
    exact finished_of_set h ht rfl (.inl LocalTask.noConfusion)

theorem length_of_step {e : LocalEvent} (hs : step classes s e = some s') :
    s.tasks.length ≤ s'.tasks.length := by
  have hset : ∀ (l : List LocalTask) j t, l.length ≤ (l.set j t).length :=
    fun l j t ↦ by rw [List.length_set]
  have hspawn : ∀ t, s.tasks.length ≤ (s.spawn t).tasks.length :=
    fun t ↦ List.length_append ▸ Nat.le_add_right _ _
  cases moves_of_step hs with
  | invoke g method | deactivate grains => exact hspawn _
  | inbound g method | activate g =>
    obtain ⟨u, hu⟩ := activateGrain_tasks classes (s.spawn .finished) s.tasks.length g _
    exact hu ▸ (hspawn .finished).trans (hset _ _ u)
  | @resolvedHere g method retry task ht =>
    obtain ⟨u, hu⟩ := activateGrain_tasks classes s task g (some method)
    exact hu ▸ hset _ _ u
  | takeTurn n ha | takeSentinel n ha | finish n ok ha | shutdownTimeout task ht ha => exact le_rfl
  | _ => exact hset _ _ _

end LocalRuntime

namespace TimedRuntime

variable {classes : String → Option GrainTraits} {s s' : TimedRuntime}
  {event : TimedEvent} {i n : ℕ}

theorem finished_cancel {runtime : LocalRuntime} (task : TimerTask)
    (h : runtime.tasks[i]? = some .finished) :
    (task.cancel runtime).tasks[i]? = some .finished := by
  cases task with
  | asleep => exact h
  | ticking j =>
    by_cases hj : j = i
    · subst hj
      exact List.getElem?_set_self (List.getElem?_eq_some_iff.mp h).1
    · exact (List.getElem?_set_ne hj).trans h

theorem length_cancel (runtime : LocalRuntime) (task : TimerTask) :
    (task.cancel runtime).tasks.length = runtime.tasks.length := by
  cases task with
  | asleep => rfl
  | ticking j => exact List.length_set

theorem finished_cancelAll {runtime : LocalRuntime} (timers : List GrainTimer)
    (h : runtime.tasks[i]? = some .finished) : (cancelAll runtime timers).tasks[i]? =
      some .finished := by
  induction timers generalizing runtime with
  | nil => exact h
  | cons timer timers ih => exact ih (finished_cancel timer.task h)

theorem length_cancelAll (runtime : LocalRuntime) (timers : List GrainTimer) :
    (cancelAll runtime timers).tasks.length = runtime.tasks.length := by
  induction timers generalizing runtime with
  | nil => rfl
  | cons timer timers ih => exact (ih _).trans (length_cancel runtime timer.task)

theorem cancelAll_finishes {runtime : LocalRuntime} {timers : List GrainTimer} {timer : GrainTimer}
    (htimer : timer ∈ timers) (htask : timer.task = .ticking i) (hi : i < runtime.tasks.length) :
    (cancelAll runtime timers).tasks[i]? = some .finished := by
  induction timers generalizing runtime with
  | nil => cases htimer
  | cons other timers ih =>
    rcases List.mem_cons.mp htimer with rfl | htimer
    · refine finished_cancelAll timers ?_
      dsimp only
      rw [htask]
      exact List.getElem?_set_self hi
    · exact ih htimer (hi.trans_eq (length_cancel runtime other.task).symm)

/-- A tick under way is that of a registered timer, which waits for it. -/
structure Sound (s : TimedRuntime) : Prop where
  filed : s.registry.Filed
  launched : ∀ i n, s.launched i = some n → i < s.runtime.tasks.length
  underWay : ∀ i n, s.launched i = some n → s.runtime.tasks[i]? = some .finished ∨
    ∃ timer ∈ s.registry.timers.items, timer.task = .ticking i ∧ timer.owner = some n

/-- Timers that are taken out of the registry are cancelled with their ticks. -/
theorem Sound.remove (h : s.Sound) {registry : TimerRegistry} {removed : List GrainTimer}
    (hfiled : registry.Filed)
    (hremoved : ∀ timer ∈ s.registry.timers.items, timer ∈ removed ∨
      timer ∈ registry.timers.items) :
    ({ s with runtime := cancelAll s.runtime removed, registry := registry } : TimedRuntime).Sound
      where
  filed := hfiled
  launched i n hi := (h.launched i n hi).trans_eq (length_cancelAll _ _).symm
  underWay i n hi := by
    rcases h.underWay i n hi with hdone | ⟨timer, htimer, htask, howner⟩
    · exact .inl (finished_cancelAll removed hdone)
    · rcases hremoved timer htimer with hout | hin
      · exact .inl (cancelAll_finishes hout htask (h.launched i n hi))
      · exact .inr ⟨timer, hin, htask, howner⟩

theorem Sound.goOn (h : s.Sound) {timer : GrainTimer}
    (htimer : s.registry.timers.get timer.id = some timer)
    {task : TimerTask} {runtime : LocalRuntime} {launched : ℕ → Option ℕ}
    (hlaunched : ∀ i n, launched i = some n → i < runtime.tasks.length)
    (hunderWay : ∀ i n, launched i = some n → runtime.tasks[i]? = some .finished ∨
      (task = .ticking i ∧ timer.owner = some n) ∨
      ∃ other ∈ s.registry.timers.items, other.id ≠ timer.id ∧ other.task = .ticking i ∧
        other.owner = some n) :
    ({ s with runtime := runtime, registry := s.registry.goOn timer task, launched := launched } :
      TimedRuntime).Sound where
  filed := h.filed.goOn (Table.mem_of_get htimer) task
  launched := hlaunched
  underWay i n hi := by
    rcases hunderWay i n hi with hdone | ⟨htask, howner⟩ | ⟨other, hother, hne, htask, howner⟩
    · exact .inl hdone
    · exact .inr ⟨{ timer with task := task }, Table.mem_put.mpr (.inl rfl), htask, howner⟩
    · exact .inr ⟨other, Table.mem_put.mpr (.inr ⟨hother, hne⟩), htask, howner⟩

theorem Sound.step (h : s.Sound) (hs : step classes s event = some s') : s'.Sound := by
  cases event with
  | runtime e =>
    obtain ⟨runtime, hruntime, rfl⟩ := Option.map_eq_some_iff.mp hs
    exact {
      filed := h.filed
      launched := fun i n hi ↦ (h.launched i n hi).trans_le (LocalRuntime.length_of_step hruntime)
      underWay :=
        fun i n hi ↦ (h.underWay i n hi).imp_left (LocalRuntime.finished_of_step hruntime) }
  | register owner g callbackName =>
    simp only [TimedRuntime.step] at hs
    split_ifs at hs
    obtain rfl := Option.some.inj hs
    exact {
      filed := h.filed.registerTimer owner g callbackName
      launched := h.launched
      underWay := fun i n hi ↦ (h.underWay i n hi).imp_right
        fun hticks ↦ hticks.imp fun timer htimer ↦
        ⟨Table.mem_put.mpr (.inr ⟨htimer.1, (h.filed.below timer htimer.1).ne⟩), htimer.2⟩ }
  | unregisterTimer id =>
    obtain rfl := Option.some.inj hs
    refine h.remove (h.filed.unregisterTimer id) fun timer htimer ↦ ?_
    by_cases hid : timer.id = id
    · exact .inl (Option.mem_toList.mpr (hid ▸ Table.get_of_mem htimer))
    · exact .inr (TimerRegistry.mem_unregisterTimer.mpr ⟨htimer, hid⟩)
  | unregisterAll g =>
    obtain rfl := Option.some.inj hs
    refine h.remove (h.filed.unregisterAll g) fun timer htimer ↦ ?_
    by_cases hid : timer.id ∈ s.registry.idsOf g
    · exact .inl (List.mem_filterMap.mpr ⟨timer.id, hid, Table.get_of_mem htimer⟩)
    · exact .inr (TimerRegistry.mem_unregisterAll.mpr ⟨htimer, hid⟩)
  | tick id =>
    simp only [TimedRuntime.step] at hs
    split at hs
    · next timer htimer =>
      split_ifs at hs with hasleep
      obtain ⟨runtime, hruntime, rfl⟩ := Option.map_eq_some_iff.mp hs
      obtain rfl := Option.some.inj hruntime
      obtain rfl := Table.key_of_get htimer
      have hlength : (s.runtime.spawn
        (.resolving timer.grainId timer.callbackName false)).tasks.length =
          s.runtime.tasks.length + 1 := List.length_append
      refine h.goOn htimer (fun i n hi ↦ ?_) fun i n hi ↦ ?_
      · rw [hlength]
        by_cases hnew : i = s.runtime.tasks.length
        · omega
        · rw [Function.update_of_ne hnew] at hi
          exact Nat.lt_succ_of_lt (h.launched i n hi)
      · by_cases hnew : i = s.runtime.tasks.length
        · rw [hnew, Function.update_self] at hi
          exact .inr (.inl ⟨congrArg TimerTask.ticking hnew.symm, hi⟩)
        · rw [Function.update_of_ne hnew] at hi
          rcases h.underWay i n hi with hdone | ⟨other, hother, hticking, howner⟩
          · exact .inl ((List.getElem?_append_left (h.launched i n hi)).trans hdone)
          · refine .inr (.inr ⟨other, hother, fun hid ↦ ?_, hticking, howner⟩)
            obtain rfl : other = timer := Option.some.inj
              ((hid ▸ Table.get_of_mem hother).symm.trans htimer)
            rw [hasleep] at hticking
            cases hticking
    · cases hs
  | ticked id =>
    simp only [TimedRuntime.step] at hs
    split at hs
    · next timer htimer =>
      split at hs
      · cases hs
      · next j hticking =>
        split_ifs at hs with hdone
        obtain rfl := Option.some.inj hs
        obtain rfl := Table.key_of_get htimer
        refine h.goOn htimer h.launched fun i n hi ↦ ?_
        rcases h.underWay i n hi with hover | ⟨other, hother, hown, howner⟩
        · exact .inl hover
        · by_cases hid : other.id = timer.id
          · obtain rfl : other = timer :=
              Option.some.inj ((hid ▸ Table.get_of_mem hother).symm.trans htimer)
            rw [hticking] at hown
            obtain rfl := TimerTask.ticking.inj hown
            exact .inl hdone
          · exact .inr (.inr ⟨other, hother, hid, hown, howner⟩)
    · cases hs

/-- Of an activation that is gone, no timer is registered exactly when nothing of it goes on. -/
theorem Sound.timersDead_iff (h : s.Sound) : s.TimersDead classes ↔
    ∀ n ∈ s.gone, ∀ timer ∈ s.registry.timers.items, timer.owner ≠ some n := by
  refine ⟨TimersDead.registered, fun hregistered ↦ ⟨hregistered, ?_, fun n hn i hi ↦ ?_⟩⟩
  · intro n hn id timer htimer howner
    exact absurd howner (hregistered n hn timer (Table.mem_of_get htimer))
  · rcases h.underWay i n hi with hdone | ⟨timer, htimer, -, howner⟩
    · exact hdone
    · exact absurd howner (hregistered n hn timer htimer)

theorem registered_goOn {timer : GrainTimer} {task : TimerTask} (hdead : s.TimersDead classes)
    (htimer : s.registry.timers.get timer.id = some timer) :
    ∀ n ∈ s.gone, ∀ other ∈ (s.registry.goOn timer task).timers.items, other.owner ≠ some n := by
  intro n hn other hother
  rcases Table.mem_put.mp hother with rfl | ⟨hother, -⟩
  · exact hdead.registered n hn timer (Table.mem_of_get htimer)
  · exact hdead.registered n hn other hother

theorem orderly_iff (h : s.Sound) (hdead : s.TimersDead classes)
    (hs : step classes s event = some s') :
    s.Orderly event ↔ s'.TimersDead classes := by
  rw [(h.step hs).timersDead_iff]
  cases event with
  | runtime e =>
    obtain ⟨runtime, -, rfl⟩ := Option.map_eq_some_iff.mp hs
    constructor
    · intro hok n hn
      rcases List.mem_append.mp hn with hn | hn
      · exact hdead.registered n hn
      · exact hok n (Option.mem_toList.mp hn)
    · exact fun hall n hn ↦ hall n (List.mem_append_right _ (Option.mem_toList.mpr hn))
  | register owner g callbackName =>
    simp only [TimedRuntime.step] at hs
    split_ifs at hs
    obtain rfl := Option.some.inj hs
    constructor
    · intro hok n hn timer htimer howner
      rcases Table.mem_put.mp htimer with rfl | ⟨htimer, -⟩
      · exact hok n howner hn
      · exact hdead.registered n hn timer htimer howner
    · exact fun hall n howner hn ↦ hall n hn _ (Table.mem_put.mpr (.inl rfl)) howner
  | unregisterTimer id =>
    obtain rfl := Option.some.inj hs
    exact iff_of_true trivial fun n hn timer htimer ↦
      hdead.registered n hn timer (TimerRegistry.mem_unregisterTimer.mp htimer).1
  | unregisterAll g =>
    obtain rfl := Option.some.inj hs
    exact iff_of_true trivial fun n hn timer htimer ↦
      hdead.registered n hn timer (TimerRegistry.mem_unregisterAll.mp htimer).1
  | tick id =>
    simp only [TimedRuntime.step] at hs
    split at hs
    · next timer htimer =>
      split_ifs at hs
      obtain ⟨runtime, -, rfl⟩ := Option.map_eq_some_iff.mp hs
      obtain rfl := Table.key_of_get htimer
      exact iff_of_true trivial (registered_goOn hdead htimer)
    · cases hs
  | ticked id =>
    simp only [TimedRuntime.step] at hs
    split at hs
    · next timer htimer =>
      split at hs
      · cases hs
      · split_ifs at hs
        obtain rfl := Option.some.inj hs
        obtain rfl := Table.key_of_get htimer
        exact iff_of_true trivial (registered_goOn hdead htimer)
    · cases hs

theorem sound_start : start.Sound where
  filed := ⟨fun _ h ↦ absurd h List.not_mem_nil, fun _ h ↦ absurd h List.not_mem_nil⟩
  launched i n hi := by cases hi
  underWay i n hi := by cases hi

/-- All along a run the timers of an activation are dead once its `deactivate_grain` has completed,
exactly when somebody else has seen to that. -/
theorem timers_die_iff (classes : String → Option GrainTraits) (events : List TimedEvent)
    (s : TimedRuntime) (h : exec (step classes) start events = some s) :
    Meets (step classes) Orderly start events ↔
      ∀ before t, before <+: events → exec (step classes) start before = some t →
        t.TimersDead classes := by
  have hdead : start.TimersDead classes :=
    sound_start.timersDead_iff.mpr fun n hn ↦ absurd hn List.not_mem_nil
  have hboth := meets_iff_always (I := fun s ↦ s.Sound ∧ s.TimersDead classes) h
    ⟨sound_start, hdead⟩
    fun s e s' hi hs ↦ (orderly_iff hi.1 hi.2 hs).trans (and_iff_right (hi.1.step hs)).symm
  rw [hboth]
  refine forall₄_congr fun before t _ ht ↦ ?_
  have hsound : t.Sound :=
    (reachable_of_exec ht).invariant (I := Sound) sound_start fun s e s' hi _ hs ↦ hi.step hs
  exact and_iff_right hsound

def heartbeatClass (hook : Bool) (grainType : String) : Option GrainTraits :=
  if grainType = "Heartbeat" then
    some {
      methods := ["beat"], hasOnActivate := false, hasOnDeactivate := hook, readsStorage := false }
  else none

def heartbeat : GrainId := ⟨"Heartbeat", "1"⟩

/-- The timer ticks, and `on_deactivate` unregisters it. -/
def unregisterOnDeactivate : List TimedEvent :=
  [.runtime (.activate heartbeat), .register (some 0) heartbeat "beat", .tick 0,
    .runtime (.resolved 1 true), .runtime (.put 1), .runtime (.take 0), .runtime (.finish 0 true),
    .ticked 0, .runtime (.deactivate [heartbeat]), .runtime (.next 2), .unregisterAll heartbeat,
    .runtime (.deactivated 2), .runtime (.put 2), .runtime (.take 0), .runtime (.pop 2),
    .runtime (.unregistered 2)]

/-- The grain is idle and collected, and the timer ticks. -/
def tickAfterDeactivation : List TimedEvent :=
  [.runtime (.activate heartbeat), .register (some 0) heartbeat "beat",
    .runtime (.deactivate [heartbeat]), .runtime (.next 1), .runtime (.put 1), .runtime (.take 0),
    .runtime (.pop 1), .runtime (.unregistered 1), .tick 0, .runtime (.resolved 2 true)]

theorem timers_die_iff_unregisterOnDeactivate : ∃ s,
    exec (step (heartbeatClass true)) start unregisterOnDeactivate = some s ∧
      ∀ before t, before <+: unregisterOnDeactivate →
        exec (step (heartbeatClass true)) start before = some t →
          t.TimersDead (heartbeatClass true) := by
  have hruns : (exec (step (heartbeatClass true)) start unregisterOnDeactivate).isSome := by
    decide +kernel
  obtain ⟨s, hs⟩ := Option.isSome_iff_exists.mp hruns
  exact ⟨s, hs, (timers_die_iff (heartbeatClass true) unregisterOnDeactivate s hs).mp (by
    decide +kernel)⟩

/-- The grain is active again, by the tick of a timer that the first activation has left. -/
theorem timer_outlives_its_activation :
    ¬ ∀ classes events s, exec (step classes) start events = some s →
    s.TimersDead classes := by
  intro h
  have hruns : (exec (step (heartbeatClass false)) start tickAfterDeactivation).map
      (fun s ↦ (s.gone, s.launched 2, s.runtime.activations heartbeat,
        (s.registry.timers.get 0).map GrainTimer.owner)) = some ([0], some 0,
          some 1, some (some 0)) := by decide +kernel
  obtain ⟨s, hs, hend⟩ := Option.map_eq_some_iff.mp hruns
  obtain ⟨hgone, hend⟩ := Prod.mk.inj hend
  obtain ⟨-, hend⟩ := Prod.mk.inj hend
  obtain ⟨timer, htimer, howner⟩ := Option.map_eq_some_iff.mp (Prod.mk.inj hend).2
  have hmem : 0 ∈ s.gone := hgone ▸ List.mem_singleton.mpr rfl
  exact (h _ _ s hs).registered 0 hmem timer (Table.mem_of_get htimer) howner

end TimedRuntime

end Pyleans
