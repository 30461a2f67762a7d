import Pyleans.Cluster.DistributedDirectory
import Pyleans.Library.Pool
import Pyleans.Library.Transition
import Pyleans.Server.LocalRuntime

namespace Pyleans

open Library

/-- Where `_invoke_local` is suspended for a call: in the storage, for the
future of `on_activate`, for room in the inbox or for the future of the call
itself. The last three are how its coroutine ends. -/
inductive ServedPhase (Value : Type)
  | loading
  | activating (outcome : Option (Except RuntimeError Unit))
  | putting
  | awaiting (outcome : Option (Except RuntimeError Value))
  | replied (reply : GrainCallReply Value)
  | returned (result : Except RuntimeError Value)
  | cancelled

/-- A call that a silo serves: for a peer under its correlation id, or for a
task of its own. -/
structure ServedCall (Value : Type) where
  correlationId : Option ℕ
  grainId : GrainId
  method : String
  activation : Option ℕ
  phase : ServedPhase Value

inductive ServedTurn
  | onActivate (call : ℕ)
  | method (call : ℕ)
deriving DecidableEq

inductive ServedItem
  | turn (t : ServedTurn)
  | sentinel
deriving DecidableEq

structure ServedActivation where
  grainId : GrainId
  inbox : List ServedItem
  turn : Option ServedTurn
  stopped : Bool
deriving DecidableEq

/-- Where `deactivate_grain` is suspended. -/
inductive ServedDeactivation
  | onDeactivate (n : ℕ) (g : GrainId)
  | puttingSentinel (n : ℕ) (g : GrainId)
  | stopping (n : ℕ) (g : GrainId)
  | leaving (g : GrainId)
  | cancelled
deriving DecidableEq

/-- One silo that serves grain calls, with the directories of all silos, and
what it replied to bodies that are no requests. -/
structure ServingRuntime (Value : Type) where
  localSilo : SiloAddress
  directories : SiloAddress → DistributedGrainDirectory
  activations : GrainId → Option ℕ
  instances : List ServedActivation
  calls : List (ServedCall Value)
  deactivations : List ServedDeactivation
  malformed : List (GrainCallReply Value)

/-- What happens at or around the silo. `created`, `loaded` and `result` are how
the factory, the storage and the grain author's method turn out. -/
inductive ServingEvent (Value : Type)
  | directories (d : SiloAddress → DistributedGrainDirectory)
  | deliver (now : ℚ) (msg : TransportMessage) (created : Except String Unit)
  | invoke (g : GrainId) (method : String) (created : Except String Unit)
  | loaded (task : ℕ) (loaded : Except String Unit)
  | put (task : ℕ)
  | take (n : ℕ)
  | finish (n : ℕ) (result : Except Raised Value)
  | resume (task : ℕ)
  | cancel (task : ℕ)
  | deactivate (g : GrainId)
  | deactivated (d : ℕ)
  | putSentinel (d : ℕ)
  | shutdownTimeout (d : ℕ)
  | pop (d : ℕ)
  | cancelDeactivation (d : ℕ)

def ServedTurn.call : ServedTurn → ℕ
  | .onActivate call => call
  | .method call => call

namespace ServedCall

variable {Value : Type}

def inboundFor (call : ServedCall Value) : Option GrainId :=
  call.correlationId.map fun _ ↦ call.grainId

def conclude (codec : CallCodec Value) (call : ServedCall Value)
    (result : Except RuntimeError Value) :
    ServedCall Value :=
  { call with
    phase :=
      match call.correlationId with
      | some correlationId => .replied (servedReply codec correlationId result)
      | none => .returned result }

/-- The worker sets the future that the call waits for, unless it was cancelled. -/
def settle (call : ServedCall Value) (t : ServedTurn) (result : Except Raised Value) :
    ServedCall Value :=
  match t, call.phase with
  | .onActivate _, .activating none =>
    { call with phase :=
      .activating (some ((turnResult call.grainId "on_activate" result).map fun _ ↦ ())) }
  | .method _, .awaiting none =>
    { call with phase := .awaiting (some (turnResult call.grainId call.method result)) }
  | _, _ => call

end ServedCall

namespace ServingRuntime

variable {Value : Type}

def init (localSilo : SiloAddress) (directories : SiloAddress → DistributedGrainDirectory) :
    ServingRuntime Value :=
  ⟨localSilo, directories, fun _ ↦ none, [], [], [], []⟩

def setCall (s : ServingRuntime Value) (task : ℕ) (call : ServedCall Value) :
    ServingRuntime Value :=
  { s with calls := s.calls.set task call }

def setInstance (s : ServingRuntime Value) (n : ℕ) (a : ServedActivation) : ServingRuntime Value :=
  { s with instances := s.instances.set n a }

def setDeactivation (s : ServingRuntime Value) (d : ℕ) (phase : ServedDeactivation) :
    ServingRuntime Value :=
  { s with deactivations := s.deactivations.set d phase }

def spawn (s : ServingRuntime Value) (call : ServedCall Value) : ServingRuntime Value :=
  { s with calls := s.calls ++ [call] }

def hasRoom (s : ServingRuntime Value) (n : ℕ) : Bool :=
  (s.instances[n]?).any fun a ↦ a.inbox.length < INBOX_MAX_SIZE

def enqueue (s : ServingRuntime Value) (n : ℕ) (item : ServedItem) : ServingRuntime Value :=
  { s with instances := s.instances.modify n fun a ↦ { a with inbox := a.inbox ++ [item] } }

/-- `inbox.put` waits only when the inbox is full. -/
def putCall (s : ServingRuntime Value) (task : ℕ) (call : ServedCall Value) (n : ℕ) :
    ServingRuntime Value :=
  if s.hasRoom n then
    (s.enqueue n (.turn (.method task))).setCall task { call with phase := .awaiting none }
  else s.setCall task { call with phase := .putting }

def putSentinel (s : ServingRuntime Value) (d n : ℕ) (g : GrainId) : ServingRuntime Value :=
  if s.hasRoom n then (s.enqueue n .sentinel).setDeactivation d (.stopping n g)
  else s.setDeactivation d (.puttingSentinel n g)

section

variable (codec : CallCodec Value) (classes : String → Option GrainTraits)

def afterActivate (s : ServingRuntime Value) (task : ℕ) (call : ServedCall Value) (n : ℕ) :
    ServingRuntime Value :=
  match getGrainClass classes call.grainId.grainType with
  | .error e => s.setCall task (call.conclude codec (.error e))
  | .ok c =>
    if call.method ∉ c.methods then
      s.setCall task (call.conclude codec (.error (methodNotFound call.grainId call.method)))
    else s.putCall task call n

/-- The instance is there with its state: its worker starts and the runtime
takes it up, whatever it had for the grain before. -/
def insertActivation (s : ServingRuntime Value) (task : ℕ) (call : ServedCall Value)
    (c : GrainTraits) :
    ServingRuntime Value :=
  let n := s.instances.length
  let call := { call with activation := some n }
  let inbox : List ServedItem := if c.hasOnActivate then [.turn (.onActivate task)] else []
  let a : ServedActivation := ⟨call.grainId, inbox, none, false⟩
  let s := { s with
    activations := Function.update s.activations call.grainId (some n)
    instances := s.instances ++ [a] }
  if c.hasOnActivate then s.setCall task { call with phase := .activating none }
  else s.afterActivate codec classes task call n

def activateGrain (s : ServingRuntime Value) (task : ℕ) (call : ServedCall Value)
    (created : Except String Unit) : ServingRuntime Value :=
  match getGrainClass classes call.grainId.grainType with
  | .error e => s.setCall task (call.conclude codec (.error e))
  | .ok c =>
    match created with
    | .error e => s.setCall task (call.conclude codec (.error (createFailed call.grainId e)))
    | .ok () =>
      if c.readsStorage then s.setCall task { call with phase := .loading }
      else s.insertActivation codec classes task call c

def invokeLocal (s : ServingRuntime Value) (call : ServedCall Value)
    (created : Except String Unit) :
    ServingRuntime Value :=
  match s.activations call.grainId with
  | some n =>
    let call := { call with activation := some n }
    (s.spawn call).afterActivate codec classes s.calls.length call n
  | none => (s.spawn call).activateGrain codec classes s.calls.length call created

def handleGrainCall (s : ServingRuntime Value) (now : ℚ) (msg : TransportMessage)
    (created : Except String Unit) : ServingRuntime Value :=
  if msg.header ≠ GRAIN_CALL_HEADER ∨ msg.messageType ≠ .request then s
  else
    match codec.decodeRequest msg.body with
    | .error e => { s with malformed := s.malformed ++ [malformedReply msg.correlationId e] }
    | .ok req =>
      let call : ServedCall Value :=
        ⟨some msg.correlationId, req.grainId, req.method, none, .loading⟩
      if ∃ deadline ∈ req.deadline, now ≥ deadline then
        s.spawn { call with phase := .replied (lateReply msg.correlationId) }
      else
        match getGrainClass classes req.grainId.grainType with
        | .error e => s.spawn (call.conclude codec (.error e))
        | .ok _ => s.invokeLocal codec classes call created

def stepLoaded (s : ServingRuntime Value) (task : ℕ) (loaded : Except String Unit) :
    Option (ServingRuntime Value) :=
  match s.calls[task]? with
  | some call =>
    match call.phase, classes call.grainId.grainType with
    | .loading, some c =>
      match loaded with
      | .error e => some (s.setCall task (call.conclude codec (.error (loadFailed call.grainId e))))
      | .ok () => some (s.insertActivation codec classes task call c)
    | _, _ => none
  | none => none

def stepPut (s : ServingRuntime Value) (task : ℕ) : Option (ServingRuntime Value) :=
  match s.calls[task]? with
  | some call =>
    match call.phase, call.activation with
    | .putting, some n => if s.hasRoom n then some (s.putCall task call n) else none
    | _, _ => none
  | none => none

def stepTake (s : ServingRuntime Value) (n : ℕ) : Option (ServingRuntime Value) :=
  match s.instances[n]? with
  | some ⟨g, .turn t :: inbox, none, false⟩ => some (s.setInstance n ⟨g, inbox, some t, false⟩)
  | some ⟨g, .sentinel :: inbox, none, false⟩ => some (s.setInstance n ⟨g, inbox, none, true⟩)
  | _ => none

def stepFinish (s : ServingRuntime Value) (n : ℕ) (result : Except Raised Value) :
    Option (ServingRuntime Value) :=
  match s.instances[n]? with
  | some ⟨g, inbox, some t, false⟩ =>
    match s.calls[t.call]? with
    | some call =>
      some ((s.setInstance n ⟨g, inbox, none, false⟩).setCall t.call (call.settle t result))
    | none => none
  | _ => none

def stepResume (s : ServingRuntime Value) (task : ℕ) : Option (ServingRuntime Value) :=
  match s.calls[task]? with
  | some call =>
    match call.phase with
    | .activating (some (.ok ())) => call.activation.map (s.afterActivate codec classes task call)
    | .activating (some (.error e)) => some (s.setCall task (call.conclude codec (.error e)))
    | .awaiting (some result) => some (s.setCall task (call.conclude codec result))
    | _ => none
  | none => none

/-- The connection of the caller is closed, or the task that calls is cancelled. -/
def stepCancel (s : ServingRuntime Value) (task : ℕ) : Option (ServingRuntime Value) :=
  match s.calls[task]? with
  | some call =>
    match call.phase with
    | .replied _ | .returned _ | .cancelled => none
    | _ => some (s.setCall task { call with phase := .cancelled })
  | none => none

def stepDeactivate (s : ServingRuntime Value) (g : GrainId) : ServingRuntime Value :=
  match s.activations g with
  | none => s
  | some n =>
    let d := s.deactivations.length
    let s := { s with deactivations := s.deactivations ++ [.onDeactivate n g] }
    if (classes g.grainType).any GrainTraits.hasOnDeactivate then s else s.putSentinel d n g

/-- The directories change as they like; whatever the silo does for a call is
done between two pauses of its coroutines. -/
def step (s : ServingRuntime Value) : ServingEvent Value → Option (ServingRuntime Value)
  | .directories d => some { s with directories := d }
  | .deliver now msg created => some (s.handleGrainCall codec classes now msg created)
  | .invoke g method created =>
    some (s.invokeLocal codec classes ⟨none, g, method, none, .loading⟩ created)
  | .loaded task loaded => s.stepLoaded codec classes task loaded
  | .put task => s.stepPut task
  | .take n => s.stepTake n
  | .finish n result => s.stepFinish n result
  | .resume task => s.stepResume codec classes task
  | .cancel task => s.stepCancel task
  | .deactivate g => some (s.stepDeactivate classes g)
  | .deactivated d =>
    match s.deactivations[d]? with
    | some (.onDeactivate n g) => some (s.putSentinel d n g)
    | _ => none
  | .putSentinel d =>
    match s.deactivations[d]? with
    | some (.puttingSentinel n g) => if s.hasRoom n then some (s.putSentinel d n g) else none
    | _ => none
  | .shutdownTimeout d =>
    match s.deactivations[d]? with
    | some (.stopping n _) =>
      (s.instances[n]?).map fun a ↦ s.setInstance n { a with turn := none, stopped := true }
    | _ => none
  | .pop d =>
    match s.deactivations[d]? with
    | some (.stopping n g) =>
      if (s.instances[n]?).any ServedActivation.stopped then
        some { (s.setDeactivation d (.leaving g))
          with activations := Function.update s.activations g none }
      else none
    | _ => none
  | .cancelDeactivation d =>
    match s.deactivations[d]? with
    | some (.onDeactivate _ _) | some (.puttingSentinel _ _) =>
      some (s.setDeactivation d .cancelled)
    | _ => none

end

end ServingRuntime

end Pyleans
