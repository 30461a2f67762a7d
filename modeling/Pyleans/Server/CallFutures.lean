import Pyleans.Server.Turns

namespace Pyleans

open Library

/-- What a worker has before it: the calls in its inbox, whether it is in one,
and whether it has ended. -/
structure WorkerView where
  waiting : ℕ
  busy : Bool
  ended : Bool

def WorkItem.isTurn : WorkItem → Bool
  | .turn _ => true
  | .sentinel => false

def LocalActivation.view (a : LocalActivation) : WorkerView :=
  ⟨a.inbox.countP WorkItem.isTurn, a.turn.isSome, a.stopped⟩

/-- What an event does to the calls of one activation. -/
inductive InboxEffect
  | none
  | put (n : ℕ)
  | take (n : ℕ)
  | finish (n : ℕ) (ok : Bool)
  | stop (n : ℕ)

def InboxEffect.apply : InboxEffect → (ℕ → WorkerView) → ℕ → WorkerView
  | .none, v => v
  | .put n, v => Function.update v n { v n with waiting := (v n).waiting + 1 }
  | .take n, v => Function.update v n { v n with waiting := (v n).waiting - 1, busy := true }
  | .finish n _, v => Function.update v n { v n with busy := false }
  | .stop n, v => Function.update v n { v n with busy := false, ended := true }

namespace LocalRuntime

def view (s : LocalRuntime) (n : ℕ) : WorkerView :=
  (s.instances[n]?).elim ⟨0, false, false⟩ LocalActivation.view

def puts (s : LocalRuntime) : LocalEvent → Option ℕ
  | .put task =>
    match s.tasks[task]? with
    | some (.putting n _) => some n
    | _ => none
  | _ => none

def ends (s : LocalRuntime) : LocalEvent → Option ℕ
  | .take n =>
    match s.instances[n]? with
    | some ⟨_, .sentinel :: _, _, _⟩ => some n
    | _ => none
  | .shutdownTimeout task =>
    match s.tasks[task]? with
    | some (.stopping n _ _) => some n
    | _ => none
  | _ => none

/-- An activation made by the event has its `on_activate` in the inbox. -/
def effect (s s' : LocalRuntime) (e : LocalEvent) : InboxEffect :=
  match s.ends e with
  | some n => .stop n
  | none =>
    match e with
    | .put _ => (s.puts e).elim .none .put
    | .take n => .take n
    | .finish n ok => .finish n ok
    | _ => if (s'.view s.instances.length).waiting = 0 then .none else .put s.instances.length

section

variable {classes : String → Option GrainTraits} {s s' : LocalRuntime} {n : ℕ} {a : LocalActivation}

theorem view_of_get (h : s.instances[n]? = some a) : s.view n = a.view := by rw [view, h]; rfl

theorem view_fresh (s : LocalRuntime) : s.view s.instances.length = ⟨0, false, false⟩ := by
  rw [view, List.getElem?_eq_none le_rfl]
  rfl

theorem view_setInstance (h : s.instances[n]? = some a) (a' : LocalActivation) :
    (s.setInstance n a').view = Function.update s.view n a'.view := by
  have hn : n < s.instances.length := (List.getElem?_eq_some_iff.mp h).1
  funext m
  by_cases hm : m = n
  · subst hm
    rw [Function.update_self]
    exact view_of_get (List.getElem?_set_self hn)
  · rw [Function.update_of_ne hm, view, view, setInstance, List.getElem?_set_ne (Ne.symm hm)]

def Grown (s s' : LocalRuntime) : Prop :=
  s'.instances = s.instances ∨
    ∃ g inbox, s'.instances = s.instances ++ [⟨g, inbox, none, false⟩] ∧
      inbox.countP WorkItem.isTurn ≤ 1

theorem grown_activateGrain (s : LocalRuntime) (task : ℕ) (g : GrainId) (method : Option String) :
    s.Grown (s.activateGrain classes task g method) := by
  simp only [activateGrain]
  split
  · exact .inl rfl
  · split
    · exact .inl rfl
    · split_ifs
      · exact .inl rfl
      · refine .inr ⟨g, _, rfl, ?_⟩
        split_ifs <;> simp [WorkItem.isTurn]

theorem Grown.view (h : s.Grown s') :
    s'.view = InboxEffect.apply (if (s'.view s.instances.length).waiting = 0 then .none
      else .put s.instances.length) s.view := by
  rcases h with h | ⟨g, inbox, h, hcount⟩
  · have hview : s'.view = s.view := by
      funext n
      rw [LocalRuntime.view, LocalRuntime.view, h]
    rw [hview, view_fresh, if_pos rfl]
    rfl
  · have hnew : s'.view s.instances.length = ⟨inbox.countP WorkItem.isTurn, false, false⟩ := by
      rw [LocalRuntime.view, h, List.getElem?_append_right le_rfl, Nat.sub_self]
      rfl
    have hold : ∀ n, n ≠ s.instances.length → s'.view n = s.view n := by
      intro n hn
      rw [LocalRuntime.view, LocalRuntime.view, h]
      rcases Nat.lt_or_ge n s.instances.length with hlt | hge
      · rw [List.getElem?_append_left hlt]
      · rw [List.getElem?_eq_none hge, List.getElem?_eq_none (by simp; omega)]
    funext n
    by_cases hn : n = s.instances.length
    · subst hn
      split_ifs with hzero
      · rw [hnew] at hzero ⊢
        simp only at hzero
        rw [hzero]
        exact (view_fresh s).symm
      · rw [hnew] at hzero
        have hone : inbox.countP WorkItem.isTurn = 1 := by simp only at hzero; omega
        rw [InboxEffect.apply, Function.update_self, view_fresh, hnew, hone]
    · rw [hold n hn]
      split_ifs
      · rfl
      · rw [InboxEffect.apply, Function.update_of_ne hn]

theorem view_eq_of_set {a' : LocalActivation} {v : WorkerView} (h : s.instances[n]? = some a)
    (hs : s'.instances = s.instances.set n a') (hv : a'.view = v) : s'.view =
      Function.update s.view n v := by
  have hview : s'.view = (s.setInstance n a').view := by
    funext m
    rw [view, view, hs]
    rfl
  rw [hview, view_setInstance h, hv]

/-- What a step does to the inboxes and the workers is the effect of its event. -/
theorem step_effect {e : LocalEvent} (h : step classes s e = some s') :
    s'.view = (s.effect s' e).apply s.view := by
  cases moves_of_step h with
  | inbound g method | activate g =>
    exact Grown.view (grown_activateGrain (s.spawn .finished) s.tasks.length g _)
  | @resolvedHere g method retry task ht => exact Grown.view (grown_activateGrain s task g _)
  | @loaded g method c task ht hc =>
    refine Grown.view (.inr ⟨g, _, rfl, ?_⟩)
    split_ifs <;> simp [WorkItem.isTurn]
  | @put k method a task ht ha hsize =>
    have he : ∀ t, s.effect t (.put task) = .put k :=
      fun t ↦ by simp only [effect, ends, puts, ht, Option.elim]
    rw [he]
    apply view_eq_of_set ha rfl
    rw [view_of_get ha]
    simp [LocalActivation.view, WorkItem.isTurn]
  | @putSentinel k g rest a task ht ha hsize =>
    have he : ∀ t, s.effect t (.put task) = .none :=
      fun t ↦ by simp only [effect, ends, puts, ht, Option.elim]
    rw [he]
    refine (view_eq_of_set ha rfl ?_).trans (Function.update_eq_self k s.view)
    rw [view_of_get ha]
    simp [LocalActivation.view, WorkItem.isTurn]
  | takeTurn k ha =>
    have he : ∀ t, s.effect t (.take k) = .take k := fun t ↦ by simp only [effect, ends, ha]
    rw [he]
    apply view_eq_of_set ha rfl
    rw [view_of_get ha]
    simp [LocalActivation.view, List.countP_cons, WorkItem.isTurn]
  | takeSentinel k ha =>
    have he : ∀ t, s.effect t (.take k) = .stop k := fun t ↦ by simp only [effect, ends, ha]
    rw [he]
    apply view_eq_of_set ha rfl
    rw [view_of_get ha]
    simp [LocalActivation.view, WorkItem.isTurn]
  | finish k ok ha | activated k ok ha ht =>
    apply view_eq_of_set ha rfl
    rw [view_of_get ha]
    rfl
  | @shutdownTimeout k g rest a task ht ha =>
    have he : ∀ t, s.effect t (.shutdownTimeout task) = .stop k :=
      fun t ↦ by simp only [effect, ends, ht]
    rw [he]
    apply view_eq_of_set ha rfl
    rw [view_of_get ha]
    rfl
  | _ => exact Grown.view (.inl rfl)

theorem effect_take {e : LocalEvent} (h : step classes s e = some s')
    (he : s.effect s' e = .take n) :
    (s.view n).busy = false ∧ 0 < (s.view n).waiting := by
  have hends : s.ends e = none := by
    cases hends : s.ends e with
    | none => rfl
    | some k => simp only [effect, hends, reduceCtorEq] at he
  cases e with
  | take k =>
    simp only [effect, hends, InboxEffect.take.injEq] at he
    subst he
    cases moves_of_step h with
    | takeTurn _ ha =>
      rw [view_of_get ha]
      simp [LocalActivation.view, WorkItem.isTurn]
    | takeSentinel _ ha => simp only [ends, ha, reduceCtorEq] at hends
  | put task =>
    simp only [effect, hends] at he
    cases hputs : s.puts (.put task) <;> simp only [hputs, Option.elim, reduceCtorEq] at he
  | finish k ok => simp only [effect, hends, reduceCtorEq] at he
  | _ =>
    simp only [effect, hends] at he
    split_ifs at he

end

end LocalRuntime

inductive CallFuture
  | pending
  | result
  | exception
  | cancelled
deriving DecidableEq

/-- A call that was put into the inbox of the activation `worker`. -/
structure MethodCall where
  worker : ℕ
  future : CallFuture
deriving DecidableEq

/-- Every call that was ever put into an inbox, the calls that are still in the
inbox of an activation, and the one its worker is in. -/
structure CallLedger where
  calls : List MethodCall
  queued : ℕ → List ℕ
  current : ℕ → Option ℕ

namespace CallLedger

def empty : CallLedger := ⟨[], fun _ ↦ [], fun _ ↦ none⟩

/-- A future that is done stays as it is. -/
def settle (l : CallLedger) (i : ℕ) (future : CallFuture) : CallLedger :=
  { l with calls := l.calls.modify i fun c ↦
    if c.future = .pending then { c with future := future } else c }

/-- The worker's side of a turn that returns or raises. -/
def complete (l : CallLedger) (n : ℕ) (ok : Bool) : CallLedger :=
  match l.current n with
  | some i => l.settle i (if ok then .result else .exception)
  | none => l

def apply (l : CallLedger) : InboxEffect → CallLedger
  | .none => l
  | .put n =>
    { l with
      calls := l.calls ++ [⟨n, .pending⟩]
      queued := Function.update l.queued n (l.queued n ++ [l.calls.length]) }
  | .take n =>
    { l with
      queued := Function.update l.queued n (l.queued n).tail
      current := Function.update l.current n (l.queued n).head? }
  | .finish n ok => { l.complete n ok with current := Function.update l.current n none }
  | .stop n => { l with current := Function.update l.current n none }

def unserved (l : CallLedger) (n : ℕ) : List ℕ := (l.current n).toList ++ l.queued n

def Quiet (l : CallLedger) (n : ℕ) : Prop :=
  ∀ i ∈ l.unserved n, ∀ c ∈ l.calls[i]?, c.future ≠ .pending

instance (l : CallLedger) (n : ℕ) : Decidable (l.Quiet n) := by unfold Quiet; infer_instance

end CallLedger

/-- A runtime with the futures of its calls. -/
structure CallRuntime where
  runtime : LocalRuntime
  ledger : CallLedger

/-- `cancelled` is a method that raises `CancelledError`, which the worker does
not catch, and `giveUp` a caller that is cancelled itself. -/
inductive CallEvent
  | runtime (e : LocalEvent)
  | cancelled (n : ℕ)
  | giveUp (call : ℕ)

namespace CallRuntime

def empty : CallRuntime := ⟨.empty, .empty⟩

def step (classes : String → Option GrainTraits) (s : CallRuntime) : CallEvent → Option CallRuntime
  | .runtime e =>
    (s.runtime.step classes e).map fun r ↦ ⟨r, s.ledger.apply (s.runtime.effect r e)⟩
  | .cancelled n =>
    match s.runtime.instances[n]? with
    | some ⟨g, inbox, some _, false⟩ =>
      some ⟨s.runtime.setInstance n ⟨g, inbox, none, true⟩, s.ledger.apply (.stop n)⟩
    | _ => none
  | .giveUp call => some { s with ledger := s.ledger.settle call .cancelled }

/-- Of every activation whose worker has ended, no call is left without an answer. -/
def Answered (s : CallRuntime) : Prop :=
  ∀ c ∈ s.ledger.calls, (s.runtime.view c.worker).ended = true → c.future ≠ .pending

def puts (s : CallRuntime) : CallEvent → Option ℕ
  | .runtime e => s.runtime.puts e
  | _ => none

def ends (s : CallRuntime) : CallEvent → Option ℕ
  | .runtime e => s.runtime.ends e
  | .cancelled n => some n
  | .giveUp _ => none

/-- Calls go to a running worker, and a worker ends when nobody waits for it. -/
def Attended (s : CallRuntime) (e : CallEvent) : Prop :=
  (∀ n ∈ s.puts e, (s.runtime.view n).ended = false) ∧ ∀ n ∈ s.ends e, s.ledger.Quiet n

instance (s : CallRuntime) (e : CallEvent) : Decidable (s.Attended e) := by
  unfold Attended; infer_instance

end CallRuntime

/-- The ledger goes along with the inboxes, and a call whose caller still waits
is before its worker as long as there is one. -/
structure Tracked (v : ℕ → WorkerView) (l : CallLedger) : Prop where
  queued n : (l.queued n).length = (v n).waiting
  current n : (l.current n).isSome = (v n).busy
  worker n : ∀ i ∈ l.unserved n, ∃ c, l.calls[i]? = some c ∧ c.worker = n
  pending i c : l.calls[i]? = some c → c.future = .pending → (v c.worker).ended = false →
    i ∈ l.unserved c.worker

def AnsweredBy (v : ℕ → WorkerView) (l : CallLedger) : Prop :=
  ∀ c ∈ l.calls, (v c.worker).ended = true → c.future ≠ .pending

def InboxEffect.Attended (v : ℕ → WorkerView) (l : CallLedger) : InboxEffect → Prop
  | .put n => (v n).ended = false
  | .stop n => l.Quiet n
  | _ => True

section

variable {v : ℕ → WorkerView} {l : CallLedger} {n i : ℕ} {c : MethodCall}

namespace CallLedger

theorem settle_calls (l : CallLedger) (j : ℕ) (future : CallFuture) (i : ℕ) :
    (l.settle j future).calls[i]? =
    (l.calls[i]?).map fun c ↦
      if j = i ∧ c.future = .pending then { c with future := future } else c := by
  rw [settle, List.getElem?_modify, Option.map_eq_map]
  congr 1
  funext c
  by_cases hj : j = i <;> simp [hj]

theorem settle_get {j : ℕ} {future : CallFuture} (hf : future ≠ .pending)
    (h : (l.settle j future).calls[i]? = some c) :
    ∃ d, l.calls[i]? = some d ∧ d.worker = c.worker ∧
      (c.future = .pending → d.future = .pending ∧ i ≠ j) := by
  rw [settle_calls] at h
  obtain ⟨d, hd, rfl⟩ := Option.map_eq_some_iff.mp h
  refine ⟨d, hd, ?_, ?_⟩
  · split_ifs <;> rfl
  · intro hc
    split_ifs at hc with hj
    · exact absurd hc hf
    · exact ⟨hc, fun h ↦ hj ⟨h.symm, hc⟩⟩

theorem get_settle (l : CallLedger) (j : ℕ) (future : CallFuture) (h : l.calls[i]? = some c) :
    ∃ d, (l.settle j future).calls[i]? = some d ∧ d.worker = c.worker := by
  rw [settle_calls, h]
  refine ⟨_, rfl, ?_⟩
  dsimp only
  split_ifs <;> rfl

end CallLedger

theorem mem_of_settle {j : ℕ} {future : CallFuture} (hf : future ≠ .pending)
    (h : c ∈ (l.settle j future).calls) :
    ∃ d ∈ l.calls, d.worker = c.worker ∧ (c.future = .pending → d.future = .pending) := by
  obtain ⟨i, hi⟩ := List.mem_iff_getElem?.mp h
  obtain ⟨d, hd, hw, hp⟩ := CallLedger.settle_get hf hi
  exact ⟨d, List.mem_of_getElem? hd, hw, fun hc ↦ (hp hc).1⟩

theorem Tracked.settle {j : ℕ} {future : CallFuture} (h : Tracked v l) (hf : future ≠ .pending) :
    Tracked v (l.settle j future) where
  queued := h.queued
  current := h.current
  worker n i hi := by
    obtain ⟨c, hc, rfl⟩ := h.worker n i hi
    exact CallLedger.get_settle l j future hc
  pending i c hc hp hv := by
    obtain ⟨d, hd, hw, hdp⟩ := CallLedger.settle_get hf hc
    rw [← hw] at hv ⊢
    exact h.pending i d hd (hdp hp).1 hv

theorem AnsweredBy.settle {j : ℕ} {future : CallFuture} (h : AnsweredBy v l)
    (hf : future ≠ .pending) :
    AnsweredBy v (l.settle j future) := by
  intro c hc hv hp
  obtain ⟨d, hd, hw, hdp⟩ := mem_of_settle hf hc
  exact h d hd (hw ▸ hv) (hdp hp)

theorem update_related {α β γ : Type} {p : α → γ} {q : β → γ} {f : ℕ → α} {g : ℕ → β} {a : α}
    {b : β} (h : ∀ m, p (f m) = q (g m)) (hn : p a = q b) (m : ℕ) :
    p (Function.update f n a m) = q (Function.update g n b m) := by
  by_cases hm : m = n
  · subst hm
    rwa [Function.update_self, Function.update_self]
  · rw [Function.update_of_ne hm, Function.update_of_ne hm]
    exact h m

theorem queued_related (h : Tracked v l) {ids : List ℕ} {w : WorkerView}
    (hn : ids.length = w.waiting) (m : ℕ) :
    (Function.update l.queued n ids m).length = (Function.update v n w m).waiting :=
  update_related (p := List.length) (q := WorkerView.waiting) h.queued hn m

theorem current_related (h : Tracked v l) {call : Option ℕ} {w : WorkerView}
    (hn : call.isSome = w.busy) (m : ℕ) :
    (Function.update l.current n call m).isSome = (Function.update v n w m).busy :=
  update_related (p := Option.isSome) (q := WorkerView.busy) h.current hn m

theorem ended_apply (e : InboxEffect) (he : ∀ n, e ≠ .stop n) (m : ℕ) :
    (e.apply v m).ended = (v m).ended := by
  cases e with
  | none => rfl
  | stop n => exact absurd rfl (he n)
  | put n | take n | finish n ok =>
    by_cases hm : m = n
    · subst hm
      rw [InboxEffect.apply, Function.update_self]
    · rw [InboxEffect.apply, Function.update_of_ne hm]

theorem mem_unserved : i ∈ l.unserved n ↔ l.current n = some i ∨ i ∈ l.queued n := by
  rw [CallLedger.unserved, List.mem_append, Option.mem_toList]

theorem Tracked.apply_put (h : Tracked v l) : Tracked ((InboxEffect.put n).apply v)
    (l.apply (.put n)) := by
  have hunserved : ∀ m i, i ∈ (l.apply (.put n)).unserved m ↔ i ∈ l.unserved m ∨
    (m = n ∧ i = l.calls.length) := by
    intro m i
    simp only [mem_unserved, CallLedger.apply, Function.update_apply]
    split_ifs with hm
    · rw [List.mem_append, List.mem_singleton, hm]
      tauto
    · tauto
  refine ⟨queued_related h ?_, fun m ↦ ?_, fun m i hi ↦ ?_,
    fun i c hc hp hv ↦ ?_⟩
  · rw [List.length_append, h.queued n]
    rfl
  · have hm := current_related (n := n) (w := { v n with waiting := (v n).waiting + 1 })
      h (h.current n) m
    rwa [Function.update_eq_self] at hm
  · rcases (hunserved m i).mp hi with hi | ⟨rfl, rfl⟩
    · obtain ⟨c, hc, hw⟩ := h.worker m i hi
      exact ⟨c, getElem?_grown.mpr (.inl hc), hw⟩
    · exact ⟨_, getElem?_grown.mpr (.inr ⟨rfl, rfl⟩), rfl⟩
  · rw [hunserved]
    rcases getElem?_grown.mp hc with hc | ⟨rfl, rfl⟩
    · exact .inl (h.pending i c hc hp
        ((ended_apply (.put n) (fun _ he ↦ by cases he) c.worker).symm.trans hv))
    · exact .inr ⟨rfl, rfl⟩

theorem Tracked.apply_take (h : Tracked v l) (hbusy : (v n).busy = false)
    (hwaiting : 0 < (v n).waiting) :
    Tracked ((InboxEffect.take n).apply v) (l.apply (.take n)) := by
  have hcurrent : l.current n = none := by
    have hn := h.current n
    rwa [hbusy, Option.isSome_eq_false_iff, Option.isNone_iff_eq_none] at hn
  obtain ⟨j, rest, hqueued⟩ : ∃ j rest, l.queued n = j :: rest := by
    apply List.exists_cons_of_length_pos
    rwa [h.queued n]
  have hunserved : ∀ m i, i ∈ (l.apply (.take n)).unserved m ↔ i ∈ l.unserved m := by
    intro m i
    simp only [mem_unserved, CallLedger.apply, Function.update_apply]
    split_ifs with hm
    · rw [hm, hcurrent, hqueued]
      simp [eq_comm]
    · rfl
  refine ⟨queued_related h ?_, current_related h ?_, fun m i hi ↦ ?_, fun i c hc hp hv ↦ ?_⟩
  · rw [List.length_tail, h.queued n]
  · rw [hqueued]
    rfl
  · exact h.worker m i ((hunserved m i).mp hi)
  · rw [hunserved]
    exact h.pending i c hc hp
      ((ended_apply (.take n) (fun _ he ↦ by cases he) c.worker).symm.trans hv)

theorem Tracked.apply_stop (h : Tracked v l) : Tracked ((InboxEffect.stop n).apply v)
    (l.apply (.stop n)) := by
  refine ⟨fun m ↦ ?_, current_related h rfl, fun m i hi ↦ ?_,
    fun i c hc hp hv ↦ ?_⟩
  · have hm := queued_related (n := n) (w := { v n with busy := false, ended := true })
      h (h.queued n) m
    rwa [Function.update_eq_self] at hm
  · apply h.worker m i
    rw [mem_unserved] at hi ⊢
    simp only [CallLedger.apply, Function.update_apply] at hi
    split_ifs at hi with hm
    · exact .inr (hi.resolve_left not_false)
    · exact hi
  · simp only [InboxEffect.apply, Function.update_apply] at hv
    split_ifs at hv with hcn
    have hi := h.pending i c hc hp hv
    rw [mem_unserved] at hi ⊢
    simpa only [CallLedger.apply, Function.update_of_ne hcn] using hi

/-- The call that a finished turn was for is settled, and is none of the worker's any more. -/
theorem Tracked.apply_finish {ok : Bool} (h : Tracked v l) :
    Tracked ((InboxEffect.finish n ok).apply v) (l.apply (.finish n ok)) := by
  have hcomplete : Tracked v (l.complete n ok) ∧ (l.complete n ok).current = l.current ∧
      ∀ i c, (l.complete n ok).calls[i]? = some c → c.future = .pending → l.current n ≠ some i := by
    cases hcurrent : l.current n with
    | none =>
      have hsame : l.complete n ok = l := by simp only [CallLedger.complete, hcurrent]
      rw [hsame]
      exact ⟨h, rfl, fun i c _ _ hi ↦ by cases hi⟩
    | some j =>
      have hsettle : l.complete n ok = l.settle j (if ok then .result else .exception) := by
        simp only [CallLedger.complete, hcurrent]
      have hdone : (if ok then CallFuture.result else .exception) ≠ .pending := by
        split_ifs <;> decide
      rw [hsettle]
      refine ⟨h.settle hdone, rfl, fun i c hc hp hi ↦ ?_⟩
      obtain ⟨d, -, -, hd⟩ := CallLedger.settle_get hdone hc
      exact (hd hp).2 (Option.some.inj hi).symm
  obtain ⟨h, hcurrent, hsettled⟩ := hcomplete
  refine ⟨fun m ↦ ?_, fun m ↦ ?_, fun m i hi ↦ ?_,
    fun i c hc hp hv ↦ ?_⟩
  · have hm := queued_related (n := n) (w := { v n with busy := false }) h (h.queued n) m
    rwa [Function.update_eq_self] at hm
  · have hidle : (none : Option ℕ).isSome = ({ v n with busy := false } : WorkerView).busy := rfl
    have hm := current_related (n := n) h hidle m
    rwa [hcurrent] at hm
  · apply h.worker m i
    rw [mem_unserved] at hi ⊢
    simp only [CallLedger.apply, Function.update_apply] at hi
    split_ifs at hi with hm
    · exact .inr (hi.resolve_left not_false)
    · exact hcurrent ▸ hi
  · have hi :=
      h.pending i c hc hp
        ((ended_apply (.finish n ok) (fun _ he ↦ by cases he) c.worker).symm.trans hv)
    rw [mem_unserved, hcurrent] at hi
    rw [mem_unserved]
    simp only [CallLedger.apply, Function.update_apply]
    split_ifs with hcn
    · exact .inr (hi.resolve_left (hcn ▸ hsettled i c hc hp))
    · exact hi

theorem Tracked.apply {e : InboxEffect} (h : Tracked v l)
    (htake : ∀ n, e = .take n → (v n).busy = false ∧ 0 < (v n).waiting) : Tracked (e.apply v)
      (l.apply e) := by
  cases e with
  | none => exact h
  | put n => exact h.apply_put
  | take n => exact h.apply_take (htake n rfl).1 (htake n rfl).2
  | finish n ok => exact h.apply_finish
  | stop n => exact h.apply_stop

theorem AnsweredBy.apply_finish {ok : Bool} (h : AnsweredBy v l) :
    AnsweredBy ((InboxEffect.finish n ok).apply v) (l.apply (.finish n ok)) := by
  have hcomplete : AnsweredBy v (l.complete n ok) := by
    unfold CallLedger.complete
    split
    · exact h.settle (by split_ifs <;> decide)
    · exact h
  intro c hc hv
  rw [ended_apply (.finish n ok) (fun _ he ↦ by cases he)] at hv
  exact hcomplete c hc hv

/-- A call put to an ended worker has no answer, and a worker that ends leaves
without one whatever it has before it. -/
theorem answered_apply_iff {e : InboxEffect} (h : AnsweredBy v l) (ht : Tracked v l) :
    e.Attended v l ↔ AnsweredBy (e.apply v) (l.apply e) := by
  cases e with
  | none => exact iff_of_true trivial h
  | take n =>
    refine iff_of_true trivial fun c hc hv ↦ ?_
    rw [ended_apply (.take n) (fun _ he ↦ by cases he)] at hv
    exact h c hc hv
  | finish n ok => exact iff_of_true trivial h.apply_finish
  | put n =>
    have hended := ended_apply (v := v) (.put n) (fun _ he ↦ by cases he)
    constructor
    · intro hrunning c hc hv
      rw [hended] at hv
      rcases List.mem_append.mp hc with hc | hc
      · exact h c hc hv
      · obtain rfl := List.mem_singleton.mp hc
        rw [hrunning] at hv
        cases hv
    · intro hanswered
      have hnew := hanswered ⟨n, .pending⟩ (List.mem_append_right _ List.mem_cons_self)
      rw [hended] at hnew
      by_contra hv
      exact hnew (Bool.not_eq_false _ ▸ hv) rfl
  | stop n =>
    constructor
    · intro hquiet c hc hv hp
      obtain ⟨i, hi⟩ := List.mem_iff_getElem?.mp hc
      cases hc' : (v c.worker).ended with
      | true => exact h c hc hc' hp
      | false =>
        have hcn : c.worker = n := by
          by_contra hcn
          rw [InboxEffect.apply, Function.update_of_ne hcn, hc'] at hv
          cases hv
        exact hquiet i (hcn ▸ ht.pending i c hi hp hc') c hi hp
    · intro hanswered i hi c hc
      obtain ⟨d, hd, rfl⟩ := ht.worker n i hi
      obtain rfl := Option.some.inj (hd.symm.trans hc)
      apply hanswered d (List.mem_of_getElem? hd)
      rw [InboxEffect.apply, Function.update_self]

end

theorem LocalRuntime.attended_effect (s s' : LocalRuntime) (e : LocalEvent) (l : CallLedger) :
    ((∀ n ∈ s.puts e, (s.view n).ended = false) ∧ ∀ n ∈ s.ends e, l.Quiet n) ↔
      (s.effect s' e).Attended s.view l := by
  cases hends : s.ends e with
  | some n =>
    have hputs : s.puts e = none := by
      cases e with
      | put task => simp only [ends, reduceCtorEq] at hends
      | _ => rfl
    have heffect : s.effect s' e = .stop n := by simp only [effect, hends]
    rw [hputs, heffect]
    simp [InboxEffect.Attended]
  | none =>
    cases e with
    | put task =>
      simp only [effect, hends]
      cases hputs : s.puts (.put task) <;> simp [InboxEffect.Attended]
    | take n | finish n ok =>
      simp only [effect, hends]
      simp [puts, InboxEffect.Attended]
    | _ =>
      simp only [effect, hends]
      split_ifs <;> simp [puts, InboxEffect.Attended, view_fresh]

namespace CallRuntime

variable {classes : String → Option GrainTraits} {s s' : CallRuntime}

/-- Every event but a caller's own cancellation has one effect on the inboxes. -/
theorem step_cases {e : CallEvent} (h : step classes s e = some s') :
    (∃ call, e = .giveUp call ∧ s'.runtime = s.runtime ∧
      s'.ledger = s.ledger.settle call .cancelled) ∨
    ∃ f : InboxEffect, s'.runtime.view = f.apply s.runtime.view ∧ s'.ledger = s.ledger.apply f ∧
      (∀ n, f = .take n → (s.runtime.view n).busy = false ∧ 0 < (s.runtime.view n).waiting) ∧
      (s.Attended e ↔ f.Attended s.runtime.view s.ledger) := by
  cases e with
  | giveUp call =>
    obtain rfl := Option.some.inj h
    exact .inl ⟨call, rfl, rfl, rfl⟩
  | cancelled n =>
    simp only [step] at h
    split at h
    · next g inbox t ha =>
      obtain rfl := Option.some.inj h
      refine .inr ⟨.stop n, ?_, rfl, ?_, ?_⟩
      · apply LocalRuntime.view_eq_of_set ha rfl
        rw [LocalRuntime.view_of_get ha]
        rfl
      · intro k he
        cases he
      · simp [Attended, puts, ends, InboxEffect.Attended]
    · cases h
  | runtime e =>
    obtain ⟨r, hr, rfl⟩ := Option.map_eq_some_iff.mp h
    refine .inr ⟨_, LocalRuntime.step_effect hr, rfl, fun n he ↦ LocalRuntime.effect_take hr he, ?_⟩
    exact s.runtime.attended_effect r e s.ledger

theorem tracked_step {e : CallEvent} (h : Tracked s.runtime.view s.ledger)
    (hs : step classes s e = some s') :
    Tracked s'.runtime.view s'.ledger := by
  rcases step_cases hs with ⟨call, rfl, hruntime, hledger⟩ | ⟨f, hview, hledger, htake, -⟩
  · rw [hruntime, hledger]
    exact h.settle (by decide)
  · rw [hview, hledger]
    exact h.apply htake

theorem attended_iff {e : CallEvent} (ht : Tracked s.runtime.view s.ledger) (h : s.Answered)
    (hs : step classes s e = some s') : s.Attended e ↔ s'.Answered := by
  rcases step_cases hs with ⟨call, rfl, hruntime, hledger⟩ | ⟨f, hview, hledger, -, hattended⟩
  · refine iff_of_true (by simp [Attended, puts, ends]) ?_
    rw [Answered, hruntime, hledger]
    exact AnsweredBy.settle h (by decide)
  · rw [hattended, Answered, hview, hledger]
    exact answered_apply_iff h ht

theorem tracked_empty : Tracked empty.runtime.view empty.ledger where
  queued _ := rfl
  current _ := rfl
  worker n i hi := by cases hi
  pending i c hc := by cases hc

/-- However calls, deactivations and cancellations interleave, every call put
into an inbox has an answer once the worker has ended, all along a run, exactly
when calls go to running workers and a worker ends when nobody waits for it. -/
theorem calls_answered_iff (classes : String → Option GrainTraits) (events : List CallEvent)
    (s : CallRuntime) (h : exec (step classes) empty events = some s) :
    Meets (step classes) Attended empty events ↔
      ∀ before t, before <+: events → exec (step classes) empty before = some t → t.Answered := by
  have hboth := meets_iff_always (I := fun s ↦ Tracked s.runtime.view s.ledger ∧ s.Answered) h
    ⟨tracked_empty, fun c hc ↦ by cases hc⟩
    (fun s e s' hi hs ↦ (attended_iff hi.1 hi.2 hs).trans
      ⟨fun ha ↦ ⟨tracked_step hi.1 hs, ha⟩, And.right⟩)
  rw [hboth]
  refine forall₄_congr fun before t _ ht ↦ ?_
  have htracked : Tracked t.runtime.view t.ledger :=
    (reachable_of_exec ht).invariant (I := fun s ↦ Tracked s.runtime.view s.ledger) tracked_empty
      fun s e s' hi _ hs ↦ tracked_step hi hs
  exact and_iff_right htracked

def serveThenDeactivate : List CallEvent := LocalRuntime.callThenDeactivate.map .runtime

/-- While a call runs, a deactivation leaves its sentinel and another call comes behind it. -/
def callBehindSentinel : List CallEvent :=
  ([.inbound counter1 "get", .loaded 0 true, .take 0, .finish 0 true, .put 0, .take 0,
    .deactivate [counter1], .next 1, .deactivated 1, .put 1, .inbound counter1 "get", .put 2,
    .finish 0 true, .take 0] : List LocalEvent).map .runtime

theorem calls_answered_serveThenDeactivate : ∃ s,
    exec (step LocalRuntime.counterClass) empty serveThenDeactivate = some s ∧
      ∀ before t, before <+: serveThenDeactivate →
        exec (step LocalRuntime.counterClass) empty before = some t → t.Answered := by
  have hruns : (exec (step LocalRuntime.counterClass) empty serveThenDeactivate).isSome := by decide
  obtain ⟨s, hs⟩ := Option.isSome_iff_exists.mp hruns
  exact ⟨s, hs, (calls_answered_iff LocalRuntime.counterClass serveThenDeactivate s hs).mp
    (by decide)⟩

theorem call_left_without_answer : ¬ ∀ classes events s, exec (step classes) empty events = some s →
    s.Answered := by
  intro h
  have hruns : (exec (step LocalRuntime.counterClass) empty callBehindSentinel).map
      (fun s ↦ (s.ledger.calls, (s.runtime.view 0).ended)) =
      some ([⟨0, .result⟩, ⟨0, .result⟩, ⟨0, .pending⟩], true) := by decide
  obtain ⟨s, hs, hend⟩ := Option.map_eq_some_iff.mp hruns
  obtain ⟨hcalls, hended⟩ := Prod.mk.inj hend
  have hlast : (⟨0, .pending⟩ : MethodCall) ∈ s.ledger.calls := by
    rw [hcalls]
    simp
  exact h LocalRuntime.counterClass callBehindSentinel s hs _ hlast hended rfl

end CallRuntime

end Pyleans
