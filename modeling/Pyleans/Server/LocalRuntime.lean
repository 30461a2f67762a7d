import Pyleans.Library.Pool
import Pyleans.Library.Transition
import Pyleans.Server.Runtime

namespace Pyleans

open Library

/-- What `activate_grain` and `deactivate_grain` read off a grain class.
`readsStorage` says that it has a state and the runtime a storage for it. -/
structure GrainTraits extends GrainClass where
  hasOnDeactivate : Bool
  readsStorage : Bool

/-- What the worker of an activation runs; an `on_activate` is awaited by the
task that made the activation. -/
inductive Turn
  | onActivate (task : ℕ)
  | method (name : String)
deriving DecidableEq

inductive WorkItem
  | turn (t : Turn)
  | sentinel
deriving DecidableEq

/-- A grain instance with its inbox and its worker. -/
structure LocalActivation where
  grainId : GrainId
  inbox : List WorkItem
  turn : Option Turn
  stopped : Bool
deriving DecidableEq

/-- Where a coroutine is suspended. Activations are named by their place among
all that were ever made; `method` is what is called once the grain is active,
and `rest` the grains to deactivate next. -/
inductive LocalTask
  | resolving (g : GrainId) (method : String) (retry : Bool)
  | calling (g : GrainId) (method : String) (retry : Bool)
  | loading (g : GrainId) (method : Option String)
  | activating (n : ℕ) (g : GrainId) (method : Option String)
  | putting (n : ℕ) (method : String)
  | deactivating (rest : List GrainId)
  | onDeactivate (n : ℕ) (g : GrainId) (rest : List GrainId)
  | puttingSentinel (n : ℕ) (g : GrainId) (rest : List GrainId)
  | stopping (n : ℕ) (g : GrainId) (rest : List GrainId)
  | unregistering (rest : List GrainId)
  | finished
deriving DecidableEq

/-- One runtime under its event loop. -/
structure LocalRuntime where
  activations : GrainId → Option ℕ
  instances : List LocalActivation
  tasks : List LocalTask

inductive LocalEvent
  | invoke (g : GrainId) (method : String)
  | resolved (task : ℕ) (here : Bool)
  | connectionLost (task : ℕ)
  | inbound (g : GrainId) (method : String)
  | activate (g : GrainId)
  | loaded (task : ℕ) (ok : Bool)
  | put (task : ℕ)
  | take (n : ℕ)
  | finish (n : ℕ) (ok : Bool)
  | deactivate (grains : List GrainId)
  | next (task : ℕ)
  | deactivated (task : ℕ)
  | shutdownTimeout (task : ℕ)
  | pop (task : ℕ)
  | unregistered (task : ℕ)
  | drop (task : ℕ)

def INBOX_MAX_SIZE : ℕ := 1000

namespace LocalRuntime

def empty : LocalRuntime := ⟨fun _ ↦ none, [], []⟩

def setTask (s : LocalRuntime) (task : ℕ) (t : LocalTask) : LocalRuntime :=
  { s with tasks := s.tasks.set task t }

def setInstance (s : LocalRuntime) (n : ℕ) (a : LocalActivation) : LocalRuntime :=
  { s with instances := s.instances.set n a }

section

variable (classes : String → Option GrainTraits)

/-- The rest of `_invoke_local` once the grain is active; nothing is left to do
for a plain `activate_grain` or an unknown method. -/
def afterActivate (n : ℕ) (g : GrainId) : Option String → LocalTask
  | none => .finished
  | some method =>
    if (classes g.grainType).any fun c ↦ method ∈ c.methods then .putting n method else .finished

/-- The instance is there with its state: the worker starts and the runtime
takes it up, whatever it had for the grain before. -/
def insertActivation (s : LocalRuntime) (task : ℕ) (c : GrainTraits) (g : GrainId)
    (method : Option String) :
    LocalRuntime :=
  let n := s.instances.length
  { activations := Function.update s.activations g (some n)
    instances :=
      s.instances ++ [⟨g, if c.hasOnActivate then [.turn (.onActivate task)] else [], none, false⟩]
    tasks := s.tasks.set task
      (if c.hasOnActivate then .activating n g method else afterActivate classes n g method) }

/-- `_invoke_local` or `activate_grain` up to the first pause. -/
def activateGrain (s : LocalRuntime) (task : ℕ) (g : GrainId) (method : Option String) :
    LocalRuntime :=
  match s.activations g with
  | some n => s.setTask task (afterActivate classes n g method)
  | none =>
    match classes g.grainType with
    | none => s.setTask task .finished
    | some c =>
      if c.readsStorage then s.setTask task (.loading g method)
      else s.insertActivation classes task c g method

def spawn (s : LocalRuntime) (t : LocalTask) : LocalRuntime := { s with tasks := s.tasks ++ [t] }

def step (s : LocalRuntime) : LocalEvent → Option LocalRuntime
  | .invoke g method => some (s.spawn (.resolving g method false))
  | .inbound g method =>
    some ((s.spawn .finished).activateGrain classes s.tasks.length g (some method))
  | .activate g => some ((s.spawn .finished).activateGrain classes s.tasks.length g none)
  | .deactivate grains => some (s.spawn (.deactivating grains))
  | .resolved task here =>
    match s.tasks[task]? with
    | some (.resolving g method retry) =>
      some (if here then s.activateGrain classes task g (some method)
        else s.setTask task (.calling g method retry))
    | _ => none
  | .connectionLost task =>
    match s.tasks[task]? with
    | some (.calling g method retry) =>
      some (s.setTask task (if retry then .finished else .resolving g method true))
    | _ => none
  | .loaded task ok =>
    match s.tasks[task]? with
    | some (.loading g method) =>
      match classes g.grainType with
      | some c =>
        some (if ok then s.insertActivation classes task c g method else s.setTask task .finished)
      | none => none
    | _ => none
  | .put task =>
    match s.tasks[task]? with
    | some (.putting n method) =>
      match s.instances[n]? with
      | some a =>
        if a.inbox.length < INBOX_MAX_SIZE then
          some ((s.setInstance n { a with inbox := a.inbox ++ [.turn (.method method)] }).setTask
            task .finished)
        else none
      | none => none
    | some (.puttingSentinel n g rest) =>
      match s.instances[n]? with
      | some a =>
        if a.inbox.length < INBOX_MAX_SIZE then
          some ((s.setInstance n { a with inbox := a.inbox ++ [.sentinel] }).setTask task
            (.stopping n g rest))
        else none
      | none => none
    | _ => none
  | .take n =>
    match s.instances[n]? with
    | some ⟨g, .turn t :: inbox, none, false⟩ => some (s.setInstance n ⟨g, inbox, some t, false⟩)
    | some ⟨g, .sentinel :: inbox, none, false⟩ => some (s.setInstance n ⟨g, inbox, none, true⟩)
    | _ => none
  | .finish n ok =>
    match s.instances[n]? with
    | some ⟨g, inbox, some t, false⟩ =>
      let s' := s.setInstance n ⟨g, inbox, none, false⟩
      match t with
      | .method _ => some s'
      | .onActivate task =>
        match s.tasks[task]? with
        | some (.activating _ _ method) =>
          some (s'.setTask task (if ok then afterActivate classes n g method else .finished))
        | _ => some s'
    | _ => none
  | .next task =>
    match s.tasks[task]? with
    | some (.deactivating []) => some (s.setTask task .finished)
    | some (.deactivating (g :: rest)) =>
      match s.activations g with
      | none => some (s.setTask task (.deactivating rest))
      | some n =>
        if (classes g.grainType).any GrainTraits.hasOnDeactivate then
          some (s.setTask task (.onDeactivate n g rest))
        else some (s.setTask task (.puttingSentinel n g rest))
    | _ => none
  | .deactivated task =>
    match s.tasks[task]? with
    | some (.onDeactivate n g rest) => some (s.setTask task (.puttingSentinel n g rest))
    | _ => none
  | .shutdownTimeout task =>
    match s.tasks[task]? with
    | some (.stopping n _ _) =>
      (s.instances[n]?).map fun a ↦ s.setInstance n { a with turn := none, stopped := true }
    | _ => none
  | .pop task =>
    match s.tasks[task]? with
    | some (.stopping n g rest) =>
      if (s.instances[n]?).any LocalActivation.stopped then
        some { (s.setTask task (.unregistering rest))
          with activations := Function.update s.activations g none }
      else none
    | _ => none
  | .unregistered task =>
    match s.tasks[task]? with
    | some (.unregistering rest) => some (s.setTask task (.deactivating rest))
    | _ => none
  | .drop task =>
    match s.tasks[task]? with
    | some (.stopping _ _ _) => none
    | some _ => some (s.setTask task .finished)
    | none => none

/-- What each event finds, and what the runtime is after it. -/
inductive Moves (s : LocalRuntime) : LocalEvent → LocalRuntime → Prop
  | invoke (g : GrainId) (method : String) : Moves s (.invoke g method)
      (s.spawn (.resolving g method false))
  | inbound (g : GrainId) (method : String) :
      Moves s (.inbound g method)
        ((s.spawn .finished).activateGrain classes s.tasks.length g (some method))
  | activate (g : GrainId) :
      Moves s (.activate g) ((s.spawn .finished).activateGrain classes s.tasks.length g none)
  | deactivate (grains : List GrainId) : Moves s (.deactivate grains)
      (s.spawn (.deactivating grains))
  | resolvedHere {g : GrainId} {method : String} {retry : Bool} (task : ℕ)
      (ht : s.tasks[task]? = some (.resolving g method retry)) :
      Moves s (.resolved task true) (s.activateGrain classes task g (some method))
  | resolvedAway {g : GrainId} {method : String} {retry : Bool} (task : ℕ)
      (ht : s.tasks[task]? = some (.resolving g method retry)) :
      Moves s (.resolved task false) (s.setTask task (.calling g method retry))
  | connectionLost {g : GrainId} {method : String} {retry : Bool} (task : ℕ)
      (ht : s.tasks[task]? = some (.calling g method retry)) :
      Moves s (.connectionLost task)
        (s.setTask task (if retry then .finished else .resolving g method true))
  | loaded {g : GrainId} {method : Option String} {c : GrainTraits} (task : ℕ)
      (ht : s.tasks[task]? = some (.loading g method)) (hc : classes g.grainType = some c) :
      Moves s (.loaded task true) (s.insertActivation classes task c g method)
  | loadFailed {g : GrainId} {method : Option String} {c : GrainTraits} (task : ℕ)
      (ht : s.tasks[task]? = some (.loading g method)) (hc : classes g.grainType = some c) :
      Moves s (.loaded task false) (s.setTask task .finished)
  | put {n : ℕ} {method : String} {a : LocalActivation} (task : ℕ)
      (ht : s.tasks[task]? = some (.putting n method))
      (ha : s.instances[n]? = some a) (hsize : a.inbox.length < INBOX_MAX_SIZE) :
      Moves s (.put task)
        ((s.setInstance n { a with inbox := a.inbox ++ [.turn (.method method)] }).setTask task
          .finished)
  | putSentinel {n : ℕ} {g : GrainId} {rest : List GrainId} {a : LocalActivation} (task : ℕ)
      (ht : s.tasks[task]? = some (.puttingSentinel n g rest)) (ha : s.instances[n]? = some a)
      (hsize : a.inbox.length < INBOX_MAX_SIZE) :
      Moves s (.put task)
        ((s.setInstance n { a with inbox := a.inbox ++ [.sentinel] }).setTask task
          (.stopping n g rest))
  | takeTurn {g : GrainId} {t : Turn} {inbox : List WorkItem} (n : ℕ)
      (ha : s.instances[n]? = some ⟨g, .turn t :: inbox, none, false⟩) :
      Moves s (.take n) (s.setInstance n ⟨g, inbox, some t, false⟩)
  | takeSentinel {g : GrainId} {inbox : List WorkItem} (n : ℕ)
      (ha : s.instances[n]? = some ⟨g, .sentinel :: inbox, none, false⟩) :
      Moves s (.take n) (s.setInstance n ⟨g, inbox, none, true⟩)
  | finish {g : GrainId} {inbox : List WorkItem} {t : Turn} (n : ℕ) (ok : Bool)
      (ha : s.instances[n]? = some ⟨g, inbox, some t, false⟩) :
      Moves s (.finish n ok) (s.setInstance n ⟨g, inbox, none, false⟩)
  | activated {g k : GrainId} {inbox : List WorkItem} {m task : ℕ} {method : Option String}
      (n : ℕ) (ok : Bool)
      (ha : s.instances[n]? = some ⟨g, inbox, some (.onActivate task), false⟩)
      (ht : s.tasks[task]? = some (.activating m k method)) :
      Moves s (.finish n ok) ((s.setInstance n ⟨g, inbox, none, false⟩).setTask task
        (if ok then afterActivate classes n g method else .finished))
  | noneLeft (task : ℕ) (ht : s.tasks[task]? = some (.deactivating [])) :
      Moves s (.next task) (s.setTask task .finished)
  | nextAbsent {g : GrainId} {rest : List GrainId} (task : ℕ)
      (ht : s.tasks[task]? = some (.deactivating (g :: rest)))
      (hn : s.activations g = none) : Moves s (.next task) (s.setTask task (.deactivating rest))
  | nextHook {n : ℕ} {g : GrainId} {rest : List GrainId} (task : ℕ)
      (ht : s.tasks[task]? = some (.deactivating (g :: rest))) (hn : s.activations g = some n)
      (hhook : (classes g.grainType).any GrainTraits.hasOnDeactivate) :
      Moves s (.next task) (s.setTask task (.onDeactivate n g rest))
  | nextPlain {n : ℕ} {g : GrainId} {rest : List GrainId} (task : ℕ)
      (ht : s.tasks[task]? = some (.deactivating (g :: rest))) (hn : s.activations g = some n)
      (hhook : ¬ (classes g.grainType).any GrainTraits.hasOnDeactivate) :
      Moves s (.next task) (s.setTask task (.puttingSentinel n g rest))
  | deactivated {n : ℕ} {g : GrainId} {rest : List GrainId} (task : ℕ)
      (ht : s.tasks[task]? = some (.onDeactivate n g rest)) :
      Moves s (.deactivated task) (s.setTask task (.puttingSentinel n g rest))
  | shutdownTimeout {n : ℕ} {g : GrainId} {rest : List GrainId} {a : LocalActivation} (task : ℕ)
      (ht : s.tasks[task]? = some (.stopping n g rest)) (ha : s.instances[n]? = some a) :
      Moves s (.shutdownTimeout task) (s.setInstance n { a with turn := none, stopped := true })
  | pop {n : ℕ} {g : GrainId} {rest : List GrainId} (task : ℕ)
      (ht : s.tasks[task]? = some (.stopping n g rest))
      (hstopped : (s.instances[n]?).any LocalActivation.stopped) :
      Moves s (.pop task)
        { (s.setTask task (.unregistering rest))
          with activations := Function.update s.activations g none }
  | unregistered {rest : List GrainId} (task : ℕ)
      (ht : s.tasks[task]? = some (.unregistering rest)) :
      Moves s (.unregistered task) (s.setTask task (.deactivating rest))
  | drop {t : LocalTask} (task : ℕ) (ht : s.tasks[task]? = some t)
      (hstopping : ∀ n g rest, t ≠ .stopping n g rest) :
      Moves s (.drop task) (s.setTask task .finished)

variable {classes} {s s' : LocalRuntime}

theorem moves_of_step {e : LocalEvent} (h : step classes s e = some s') : Moves classes s e s' := by
  cases e with
  | invoke g method =>
    obtain rfl := Option.some.inj h
    exact .invoke g method
  | inbound g method =>
    obtain rfl := Option.some.inj h
    exact .inbound g method
  | activate g =>
    obtain rfl := Option.some.inj h
    exact .activate g
  | deactivate grains =>
    obtain rfl := Option.some.inj h
    exact .deactivate grains
  | resolved task here =>
    simp only [step] at h
    split at h
    · next g method retry ht =>
      obtain rfl := Option.some.inj h
      cases here with
      | true => exact .resolvedHere task ht
      | false => exact .resolvedAway task ht
    · cases h
  | connectionLost task =>
    simp only [step] at h
    split at h
    · next ht =>
      obtain rfl := Option.some.inj h
      exact .connectionLost task ht
    · cases h
  | loaded task ok =>
    simp only [step] at h
    split at h
    · next ht =>
      split at h
      · next hc =>
        obtain rfl := Option.some.inj h
        cases ok with
        | true => exact .loaded task ht hc
        | false => exact .loadFailed task ht hc
      · cases h
    · cases h
  | put task =>
    simp only [step] at h
    split at h
    · next ht =>
      split at h
      · next ha =>
        split_ifs at h with hsize
        obtain rfl := Option.some.inj h
        exact .put task ht ha hsize
      · cases h
    · next ht =>
      split at h
      · next ha =>
        split_ifs at h with hsize
        obtain rfl := Option.some.inj h
        exact .putSentinel task ht ha hsize
      · cases h
    · cases h
  | take n =>
    simp only [step] at h
    split at h
    · next ha =>
      obtain rfl := Option.some.inj h
      exact .takeTurn n ha
    · next ha =>
      obtain rfl := Option.some.inj h
      exact .takeSentinel n ha
    · cases h
  | finish n ok =>
    simp only [step] at h
    split at h
    · next ha =>
      split at h
      · obtain rfl := Option.some.inj h
        exact .finish n ok ha
      · split at h
        · next ht =>
          obtain rfl := Option.some.inj h
          exact .activated n ok ha ht
        · obtain rfl := Option.some.inj h
          exact .finish n ok ha
    · cases h
  | next task =>
    simp only [step] at h
    split at h
    · next ht =>
      obtain rfl := Option.some.inj h
      exact .noneLeft task ht
    · next ht =>
      split at h
      · next hn =>
        obtain rfl := Option.some.inj h
        exact .nextAbsent task ht hn
      · next hn =>
        split_ifs at h with hhook
        · obtain rfl := Option.some.inj h
          exact .nextHook task ht hn hhook
        · obtain rfl := Option.some.inj h
          exact .nextPlain task ht hn hhook
    · cases h
  | deactivated task =>
    simp only [step] at h
    split at h
    · next ht =>
      obtain rfl := Option.some.inj h
      exact .deactivated task ht
    · cases h
  | shutdownTimeout task =>
    simp only [step] at h
    split at h
    · next ht =>
      obtain ⟨a, ha, rfl⟩ := Option.map_eq_some_iff.mp h
      exact .shutdownTimeout task ht ha
    · cases h
  | pop task =>
    simp only [step] at h
    split at h
    · next ht =>
      split_ifs at h with hstopped
      obtain rfl := Option.some.inj h
      exact .pop task ht hstopped
    · cases h
  | unregistered task =>
    simp only [step] at h
    split at h
    · next ht =>
      obtain rfl := Option.some.inj h
      exact .unregistered task ht
    · cases h
  | drop task =>
    simp only [step] at h
    split at h
    · cases h
    · next t hstopping ht =>
      obtain rfl := Option.some.inj h
      exact .drop task ht fun n g rest he ↦ hstopping n g rest he
    · cases h

end

end LocalRuntime

end Pyleans
