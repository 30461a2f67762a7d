import Pyleans.Server.Serving

namespace Pyleans.ServingRuntime

open Library

variable {Value : Type}

def HasRun : ServedPhase Value → Prop
  | .awaiting (some _) | .replied ⟨_, .success _⟩ => True
  | _ => False

def turnOf (s : ServingRuntime Value) (n : ℕ) : Option ServedTurn :=
  (s.instances[n]?).bind ServedActivation.turn

def Holds (a : ServedActivation) (t : ServedTurn) : Prop := .turn t ∈ a.inbox ∨ a.turn = some t

/-- What holds all along: turns belong to calls, and activations are among those made. -/
structure WellFormed (s : ServingRuntime Value) : Prop where
  held : ∀ (n : ℕ) a t, s.instances[n]? = some a → Holds a t → t.call < s.calls.length
  made : ∀ (task : ℕ) call n, s.calls[task]? = some call → call.activation = some n →
    n < s.instances.length
  live : ∀ g n, s.activations g = some n → n < s.instances.length

/-- No turn begins, and only turns of the one call are added. -/
structure Queues (s s' : ServingRuntime Value) (task : Option ℕ) : Prop where
  turns : ∀ n t, turnOf s' n = some t → turnOf s n = some t
  held : ∀ (n : ℕ) a t, s'.instances[n]? = some a → Holds a t →
    (∃ a, s.instances[n]? = some a ∧ Holds a t) ∨ some t.call = task

/-- Calls are as they were, and nothing begins. -/
structure Still (s s' : ServingRuntime Value) : Prop where
  calls : s'.calls = s.calls
  queues : Queues s s' none
  size : s'.instances.length = s.instances.length
  activations : ∀ g n, s'.activations g = some n → s.activations g = some n

/-- The calls of the silo, with one of them: it was there before or has just arrived. -/
inductive Enters (s : ServingRuntime Value) : List (ServedCall Value) → ℕ → ServedCall Value → Prop
  | known {task : ℕ} {call : ServedCall Value} : s.calls[task]? = some call →
      Enters s s.calls task call
  | arrived {call : ServedCall Value} : (∀ n ∈ call.activation, n < s.instances.length) →
      ¬ HasRun call.phase →
      Enters s (s.calls ++ [call]) s.calls.length call

section

variable (classes : String → Option GrainTraits)

def dueAtOnce (s : ServingRuntime Value) (call : ServedCall Value) (created : Except String Unit) :
    Option GrainId :=
  match classes call.grainId.grainType, s.activations call.grainId, created with
  | some c, none, .ok () => if c.readsStorage then none else call.inboundFor
  | _, _, _ => none

def dueTurn (s : ServingRuntime Value) : ServedTurn → Option GrainId
  | .method task => (s.calls[task]?).bind ServedCall.inboundFor
  | .onActivate _ => none

variable (codec : CallCodec Value)

def dueOnDelivery (s : ServingRuntime Value) (now : ℚ) (msg : TransportMessage)
    (created : Except String Unit) :
    Option GrainId :=
  if msg.header ≠ GRAIN_CALL_HEADER ∨ msg.messageType ≠ .request then none
  else
    match codec.decodeRequest msg.body with
    | .error _ => none
    | .ok req =>
      if ∃ deadline ∈ req.deadline, now ≥ deadline then none
      else dueAtOnce classes s
        ⟨some msg.correlationId, req.grainId, req.method, none, .loading⟩ created

/-- The grain that the event is about to activate or to run for a peer's call: the call
passes the checks of the handler, finds no activation and need not wait for a state; the
state that it waits for is there; the worker comes to it. -/
def due (s : ServingRuntime Value) : ServingEvent Value → Option GrainId
  | .deliver now msg created => dueOnDelivery classes codec s now msg created
  | .loaded task (.ok ()) => (s.calls[task]?).bind ServedCall.inboundFor
  | .take n =>
    match s.instances[n]? with
    | some ⟨_, .turn t :: _, _, _⟩ => dueTurn s t
    | _ => none
  | _ => none

end

/-- What a step does to the calls and to the workers, and the grain that it is due to serve. -/
inductive Effect (s s' : ServingRuntime Value) : Option GrainId → Prop
  | still : Still s s' → Effect s s' none
  | goes {base : List (ServedCall Value)} {task : ℕ} {call : ServedCall Value}
      {phase : ServedPhase Value} :
      Enters s base task call → s'.calls = base.set task { call with phase := phase } →
      (HasRun phase → HasRun call.phase) → Queues s s' (some task) →
      s'.instances.length = s.instances.length → s'.activations = s.activations → Effect s s' none
  | inserts {base : List (ServedCall Value)} {task : ℕ} {call : ServedCall Value}
      {phase : ServedPhase Value} :
      Enters s base task call →
      s'.calls = base.set task { call with activation := some s.instances.length, phase := phase } →
      ¬ HasRun phase → Queues s s' (some task) → s'.instances.length = s.instances.length + 1 →
      s'.activations = Function.update s.activations call.grainId (some s.instances.length) →
      Effect s s' call.inboundFor
  | takes {n : ℕ} {g : GrainId} {t : ServedTurn} {inbox : List ServedItem} :
      s.instances[n]? = some ⟨g, .turn t :: inbox, none, false⟩ →
      s' = s.setInstance n ⟨g, inbox, some t, false⟩ → Effect s s' (dueTurn s t)
  | finishes {n : ℕ} {g : GrainId} {t : ServedTurn} {inbox : List ServedItem}
      {call : ServedCall Value}
      {result : Except Raised Value} :
      s.instances[n]? = some ⟨g, inbox, some t, false⟩ → s.calls[t.call]? = some call →
      s' = (s.setInstance n ⟨g, inbox, none, false⟩).setCall t.call (call.settle t result) →
        Effect s s' none

variable {codec : CallCodec Value} {classes : String → Option GrainTraits}
  {s s' : ServingRuntime Value}
  {call : ServedCall Value} {task n : ℕ} {base : List (ServedCall Value)}

theorem not_hasRun_conclude (call : ServedCall Value) (e : RuntimeError) :
    ¬ HasRun (call.conclude codec (.error e)).phase := by
  cases h : call.correlationId <;>
    simp [ServedCall.conclude, h, HasRun, servedReply, failureReply, encodeFailure]

theorem Queues.of_eq {task : Option ℕ} (h : s'.instances = s.instances) : Queues s s' task where
  turns n t ht := by rwa [turnOf, h] at ht
  held n a t ha ht := .inl ⟨a, h ▸ ha, ht⟩

theorem Queues.of_modify {task : Option ℕ} {f : ServedActivation → ServedActivation}
    (h : s'.instances = s.instances.modify n f)
    (hturn : ∀ a t, s.instances[n]? = some a → (f a).turn = some t → a.turn = some t)
    (hheld : ∀ a t, s.instances[n]? = some a → Holds (f a) t → Holds a t ∨ some t.call = task) :
    Queues s s' task where
  turns m t ht := by
    simp only [turnOf, h, List.getElem?_modify, Option.bind_eq_some_iff, Option.map_eq_map,
      Option.map_eq_some_iff] at ht ⊢
    obtain ⟨b, ⟨a, ha, rfl⟩, ht⟩ := ht
    refine ⟨a, ha, ?_⟩
    split_ifs at ht with hm
    · subst hm
      exact hturn a t ha ht
    · exact ht
  held m b t hb ht := by
    simp only [h, List.getElem?_modify, Option.map_eq_map, Option.map_eq_some_iff] at hb
    obtain ⟨a, ha, rfl⟩ := hb
    split_ifs at ht with hm
    · subst hm
      exact (hheld a t ha ht).imp_left fun hh ↦ ⟨a, ha, hh⟩
    · exact .inl ⟨a, ha, ht⟩

theorem Queues.of_enqueue {item : ServedItem} {task : Option ℕ}
    (h : s'.instances = (s.enqueue n item).instances)
    (hitem : ∀ t, item = .turn t → some t.call = task) : Queues s s' task := by
  refine .of_modify h (fun a t _ ht ↦ ht) fun a t _ ht ↦ ?_
  rcases ht with ht | ht
  · rcases List.mem_append.mp ht with ht | ht
    · exact .inl (.inl ht)
    · exact .inr (hitem t (List.mem_singleton.mp ht).symm)
  · exact .inl (.inr ht)

theorem Queues.of_append {a : ServedActivation} {task : Option ℕ}
    (h : s'.instances = s.instances ++ [a]) (hturn : a.turn = none)
    (hheld : ∀ t, Holds a t → some t.call = task) : Queues s s' task where
  turns m t ht := by
    simp only [turnOf, h, Option.bind_eq_some_iff, getElem?_grown] at ht ⊢
    obtain ⟨b, hb | ⟨-, rfl⟩, ht⟩ := ht
    · exact ⟨b, hb, ht⟩
    · rw [hturn] at ht
      cases ht
  held m b t hb ht := by
    rw [h, getElem?_grown] at hb
    rcases hb with hb | ⟨-, rfl⟩
    · exact .inl ⟨b, hb, ht⟩
    · exact .inr (hheld t ht)

theorem Queues.trans {m : ServingRuntime Value} {task : Option ℕ} (h : Queues s m task)
    (h' : Queues m s' task) :
    Queues s s' task where
  turns n t ht := h.turns n t (h'.turns n t ht)
  held n a t ha ht := by
    rcases h'.held n a t ha ht with ⟨b, hb, ht⟩ | htask
    · exact h.held n b t hb ht
    · exact .inr htask

/-- What the silo does for a call before it is suspended, short of an activation. -/
structure Settles (s s' : ServingRuntime Value) (task : ℕ) (call : ServedCall Value) : Prop where
  calls : ∃ phase, s'.calls = s.calls.set task { call with phase := phase } ∧ ¬ HasRun phase
  queues : Queues s s' (some task)
  size : s'.instances.length = s.instances.length
  activations : s'.activations = s.activations

theorem settles_setCall (s : ServingRuntime Value) (task : ℕ) (call : ServedCall Value)
    {phase : ServedPhase Value} (h : ¬ HasRun phase) :
    Settles s (s.setCall task { call with phase := phase }) task call where
  calls := ⟨phase, rfl, h⟩
  queues := .of_eq rfl
  size := rfl
  activations := rfl

theorem settles_conclude (s : ServingRuntime Value) (task : ℕ) (call : ServedCall Value)
    (e : RuntimeError) :
    Settles s (s.setCall task (call.conclude codec (.error e))) task call :=
  settles_setCall s task call (not_hasRun_conclude call e)

theorem settles_putCall (s : ServingRuntime Value) (task : ℕ) (call : ServedCall Value) (n : ℕ) :
    Settles s (s.putCall task call n) task call := by
  unfold putCall
  split_ifs
  · refine ⟨⟨_, rfl, id⟩, ?_, List.length_modify .., rfl⟩
    refine .of_enqueue rfl fun t ht ↦ ?_
    obtain rfl := ServedItem.turn.inj ht
    rfl
  · exact settles_setCall s task call id

theorem settles_afterActivate (s : ServingRuntime Value) (task : ℕ) (call : ServedCall Value)
    (n : ℕ) :
    Settles s (s.afterActivate codec classes task call n) task call := by
  unfold afterActivate
  split
  · exact settles_conclude s task call _
  · split_ifs
    · exact settles_putCall s task call n
    · exact settles_conclude s task call _

theorem Enters.get (h : Enters s base task call) : base[task]? = some call := by
  cases h with
  | known h => exact h
  | arrived => rw [List.getElem?_append_right le_rfl, Nat.sub_self]; rfl

theorem Settles.goes (h : Enters s base task call)
    (hs : Settles { s with calls := base } s' task call) :
    Effect s s' none := by
  obtain ⟨phase, hcalls, hrun⟩ := hs.calls
  exact .goes h hcalls (fun hp ↦ absurd hp hrun)
    ⟨hs.queues.turns, hs.queues.held⟩ hs.size hs.activations

theorem inserts_insertActivation (h : Enters s base task call) (c : GrainTraits) :
    Effect s (insertActivation codec classes { s with calls := base } task call c)
      call.inboundFor := by
  simp only [insertActivation]
  cases c.hasOnActivate with
  | true =>
    refine .inserts h rfl id (.of_append rfl rfl fun t ht ↦ ?_) (List.length_append ..) rfl
    rcases ht with ht | ht
    · obtain rfl := ServedItem.turn.inj (List.mem_singleton.mp ht)
      rfl
    · cases ht
  | false =>
    let fresh : ServedActivation := ⟨call.grainId, [], none, false⟩
    let m : ServingRuntime Value :=
      { s with
        activations := Function.update s.activations call.grainId (some s.instances.length)
        instances := s.instances ++ [fresh]
        calls := base }
    have hfresh : Queues s m (some task) := by
      refine .of_append rfl rfl fun t ht ↦ ?_
      rcases ht with ht | ht <;> cases ht
    let made : ServedCall Value := { call with activation := some s.instances.length }
    have hs : Settles m (m.afterActivate codec classes task made s.instances.length) task made :=
      settles_afterActivate m task made s.instances.length
    obtain ⟨phase, hcalls, hrun⟩ := hs.calls
    exact .inserts h hcalls hrun (hfresh.trans hs.queues)
      (hs.size.trans (List.length_append ..)) hs.activations

theorem Enters.made (hw : WellFormed s) (h : Enters s base task call)
    (hn : call.activation = some n) :
    n < s.instances.length := by
  cases h with
  | known h => exact hw.made _ _ _ h hn
  | arrived h => exact h n hn

end Pyleans.ServingRuntime
