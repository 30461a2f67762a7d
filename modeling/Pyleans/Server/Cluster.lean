import Pyleans.Cluster.DirectoryEvents
import Pyleans.Server.Runtime

namespace Pyleans

open Library

/-- One `invoke` of a method of a grain. The number tells the calls apart. -/
structure Call where
  number : ℕ
  caller : SiloAddress
  grainId : GrainId
deriving DecidableEq, Repr

/-- Where a coroutine is suspended, or what is on the wire. `retry` says that
the first attempt of the call has failed. -/
inductive Task
  | routing (c : Call) (retry : Bool)
  | resolving (c : Call) (retry : Bool) (owner : SiloAddress) (placementClass : String)
  | resolved (c : Call) (retry : Bool) (entry : DirectoryEntry)
  | calling (c : Call) (host : SiloAddress)
  | awaiting (c : Call) (retry : Bool)
  | activating (c : Call) (host : SiloAddress)
  | activated (c : Call) (host : SiloAddress) (number : ℕ)
  | deactivating (host : SiloAddress) (g : GrainId) (number : ℕ)
  | stopping (host : SiloAddress) (g : GrainId) (number : ℕ)
  | leaving (host : SiloAddress) (g : GrainId)
  | unregistering (owner : SiloAddress) (g : GrainId) (silo : SiloAddress)
deriving DecidableEq

inductive InboxItem
  | call (c : Call)
  | sentinel
deriving DecidableEq, Repr

structure Queued where
  host : SiloAddress
  number : ℕ
  item : InboxItem
deriving DecidableEq, Repr

/-- All silos together. `inboxes` lists the items of every inbox in the order
of their arrival, `stopped` the activations whose worker has ended, and
`executions` counts how often a method body was run for a call. -/
structure Cluster where
  directories : SiloAddress → DistributedGrainDirectory
  runtimes : SiloAddress → GrainRuntime
  tasks : List Task
  inboxes : List Queued
  stopped : List (SiloAddress × ℕ)
  executions : ℕ → ℕ
  nextCall : ℕ

inductive ClusterAction
  | invoke (caller : SiloAddress) (g : GrainId)
  | deactivate (host : SiloAddress) (g : GrainId)
  | advance (t : Task)
  | finish (t : Task)
  | cacheHit (c : Call) (retry : Bool) (entry : DirectoryEntry)
  | connectionLost (c : Call) (retry : Bool)
  | turn (q : Queued)

namespace Cluster

def start (directories : SiloAddress → DistributedGrainDirectory)
    (runtimes : SiloAddress → GrainRuntime) :
    Cluster :=
  ⟨directories, runtimes, [], [], [], fun _ ↦ 0, 0⟩

def spawn (s : Cluster) (t : Task) : Cluster := { s with tasks := s.tasks ++ [t] }

def take (s : Cluster) (t : Task) : Cluster := { s with tasks := s.tasks.erase t }

def setDirectory (s : Cluster) (t : SiloAddress) (d : DistributedGrainDirectory) : Cluster :=
  { s with directories := Function.update s.directories t d }

def setRuntime (s : Cluster) (t : SiloAddress) (r : GrainRuntime) : Cluster :=
  { s with runtimes := Function.update s.runtimes t r }

def enqueue (s : Cluster) (host : SiloAddress) (number : ℕ) (item : InboxItem) : Cluster :=
  { s with inboxes := s.inboxes ++ [⟨host, number, item⟩] }

def stopWorker (s : Cluster) (host : SiloAddress) (number : ℕ) : Cluster :=
  { s with stopped := (host, number) :: s.stopped }

section

variable [StableHash]

def resolveOrActivate (placement : SiloAddress → PlacementStrategy) (s : Cluster) (c : Call)
    (retry : Bool) :
    Cluster :=
  match (s.directories c.caller).resolveOrActivate c.grainId (placement c.caller)
    (some c.caller) with
  | .error _ => s
  | .ok (.answered entry d) => (s.setDirectory c.caller d).spawn (.resolved c retry entry)
  | .ok (.forwarded owner) => s.spawn (.resolving c retry owner (placement c.caller).className)

def handleResolve [SeededRandom] (s : Cluster) (c : Call) (retry : Bool) (owner : SiloAddress)
    (placementClass : String) : Cluster :=
  match DistributedGrainDirectory.placementOfClass placementClass with
  | none => s
  | some placement =>
    match (s.directories owner).resolveOrActivateLocal c.grainId placement (some c.caller) with
    | .error _ => s
    | .ok (entry, d) => (s.setDirectory owner d).spawn (.resolved c retry entry)

end

/-- `_invoke_local` up to the point where it waits: for its turn in the inbox
of the activation, or for the state of a new one. -/
def invokeLocal (s : Cluster) (c : Call) (host : SiloAddress) : Cluster :=
  match (s.runtimes host).activations.get c.grainId with
  | some activation => s.enqueue host activation.number (.call c)
  | none => s.spawn (.activating c host)

def afterResolve (s : Cluster) (c : Call) (retry : Bool) (entry : DirectoryEntry) : Cluster :=
  if entry.silo = c.caller then s.invokeLocal c c.caller
  else (s.spawn (.calling c entry.silo)).spawn (.awaiting c retry)

def finishActivation (s : Cluster) (c : Call) (host : SiloAddress) : Cluster :=
  (s.setRuntime host ((s.runtimes host).insertActivation c.grainId)).spawn
    (.activated c host (s.runtimes host).nextActivation)

/-- The worker has ended, or its time is up and it is cancelled. -/
def removeActivation (s : Cluster) (host : SiloAddress) (g : GrainId) (number : ℕ) : Cluster :=
  ((s.setRuntime host ((s.runtimes host).popActivation g)).stopWorker host number).spawn
    (.leaving host g)

def unregister [StableHash] (s : Cluster) (host : SiloAddress) (g : GrainId) : Cluster :=
  match (s.directories host).unregister g host with
  | .error _ => s
  | .ok (.answered _ d) => s.setDirectory host d
  | .ok (.forwarded owner) => s.spawn (.unregistering owner g host)

def advance [StableHash] [SeededRandom] (placement : SiloAddress → PlacementStrategy)
    (s : Cluster) :
    Task → Cluster
  | .routing c retry => s.resolveOrActivate placement c retry
  | .resolving c retry owner placementClass => s.handleResolve c retry owner placementClass
  | .resolved c retry entry => s.afterResolve c retry entry
  | .calling c host => s.invokeLocal c host
  | .awaiting _ _ => s
  | .activating c host => s.finishActivation c host
  | .activated c host number => s.enqueue host number (.call c)
  | .deactivating host g number => (s.enqueue host number .sentinel).spawn (.stopping host g number)
  | .stopping host g number => s.removeActivation host g number
  | .leaving host g => s.unregister host g
  | .unregistering owner g silo =>
    s.setDirectory owner ((s.directories owner).unregisterLocal g silo)

def turn (s : Cluster) (q : Queued) : Option Cluster :=
  if (q.host, q.number) ∉ s.stopped ∧
      s.inboxes.find? (fun p ↦ p.host = q.host ∧ p.number = q.number) = some q then
    match q.item with
    | .call c => some { s with
        inboxes := s.inboxes.erase q
        executions := Function.update s.executions c.number (s.executions c.number + 1) }
    | .sentinel => some ({ s with inboxes := s.inboxes.erase q }.stopWorker q.host q.number)
  else none

/-- A task goes on when what it waits for is there. It may also end: with the
response, with an error raised here or there, with a timeout, or because its
message is lost. A `DirectoryCache` may answer instead of the directory. -/
def step [StableHash] [SeededRandom] (placement : SiloAddress → PlacementStrategy) (s : Cluster) :
    ClusterAction → Option Cluster
  | .invoke caller g =>
    some ({ s with nextCall := s.nextCall + 1 }.spawn (.routing ⟨s.nextCall, caller, g⟩ false))
  | .deactivate host g => some <|
    match (s.runtimes host).activations.get g with
    | none => s
    | some activation => s.spawn (.deactivating host g activation.number)
  | .advance t => if t ∈ s.tasks then some ((s.take t).advance placement t) else none
  | .finish t => if t ∈ s.tasks then some (s.take t) else none
  | .cacheHit c retry entry =>
    if .routing c retry ∈ s.tasks then
      some ((s.take (.routing c retry)).spawn (.resolved c retry entry))
    else none
  | .connectionLost c retry =>
    if .awaiting c retry ∈ s.tasks then
      some (if retry then s.take (.awaiting c retry)
        else (s.take (.awaiting c retry)).spawn (.routing c true))
    else none
  | .turn q => s.turn q

variable {s s' : Cluster}

/-- What a step does to the directories and to the tables of activations. -/
inductive Effect (s s' : Cluster) : ClusterAction → Prop
  | quiet {a : ClusterAction} :
      s'.directories = s.directories → s'.runtimes = s.runtimes → Effect s s' a
  | resolve {a : ClusterAction} {o : SiloAddress} {g : GrainId} {placement : PlacementStrategy}
      {caller : Option SiloAddress} {e : DirectoryEntry} {d : DistributedGrainDirectory} :
      (s.directories o).resolveOrActivateLocal g placement caller = .ok (e, d) →
      s'.directories = Function.update s.directories o d → s'.runtimes = s.runtimes → Effect s s' a
  | leave {host : SiloAddress} {g : GrainId} :
      s'.directories = Function.update s.directories host
        ((s.directories host).unregisterLocal g host) →
      s'.runtimes = s.runtimes → Effect s s' (.advance (.leaving host g))
  | unregister {owner : SiloAddress} {g : GrainId} {silo : SiloAddress} :
      s'.directories = Function.update s.directories owner
        ((s.directories owner).unregisterLocal g silo) →
      s'.runtimes = s.runtimes → Effect s s' (.advance (.unregistering owner g silo))
  | insert {c : Call} {host : SiloAddress} :
      s'.directories = s.directories →
      s'.runtimes = Function.update s.runtimes host ((s.runtimes host).insertActivation c.grainId) →
      Effect s s' (.advance (.activating c host))
  | pop {host : SiloAddress} {g : GrainId} {number : ℕ} :
      s'.directories = s.directories →
      s'.runtimes = Function.update s.runtimes host ((s.runtimes host).popActivation g) →
      Effect s s' (.advance (.stopping host g number))

theorem invokeLocal_effect (s : Cluster) (c : Call) (host : SiloAddress) (a : ClusterAction) :
    Effect s (s.invokeLocal c host) a := by
  unfold invokeLocal
  split <;> exact .quiet rfl rfl

theorem turn_effect {q : Queued} (h : s.turn q = some s') (a : ClusterAction) : Effect s s' a := by
  unfold turn at h
  split_ifs at h
  split at h <;>
    · obtain rfl := Option.some.inj h
      exact .quiet rfl rfl

theorem Effect.of_take {t : Task} {a : ClusterAction} (h : Effect (s.take t) s' a) :
    Effect s s' a := by
  cases h with
  | quiet hd hr => exact .quiet hd hr
  | resolve he hd hr => exact .resolve he hd hr
  | leave hd hr => exact .leave hd hr
  | unregister hd hr => exact .unregister hd hr
  | insert hd hr => exact .insert hd hr
  | pop hd hr => exact .pop hd hr

variable [StableHash]

theorem resolveOrActivate_effect (placement : SiloAddress → PlacementStrategy) (s : Cluster)
    (c : Call) (retry : Bool) (a : ClusterAction) :
    Effect s (s.resolveOrActivate placement c retry) a := by
  unfold resolveOrActivate
  split
  · exact .quiet rfl rfl
  · next h => exact .resolve (DistributedGrainDirectory.resolveOrActivate_answered h) rfl rfl
  · exact .quiet rfl rfl

theorem handleResolve_effect [SeededRandom] (s : Cluster) (c : Call) (retry : Bool)
    (owner : SiloAddress) (placementClass : String) (a : ClusterAction) :
    Effect s (s.handleResolve c retry owner placementClass) a := by
  unfold handleResolve
  split
  · exact .quiet rfl rfl
  · split
    · exact .quiet rfl rfl
    · next h => exact .resolve h rfl rfl

theorem unregister_effect (s : Cluster) (host : SiloAddress) (g : GrainId) :
    Effect s (s.unregister host g) (.advance (.leaving host g)) := by
  unfold unregister
  split
  · exact .quiet rfl rfl
  · next d h =>
    obtain rfl := DistributedGrainDirectory.unregister_answered h
    exact .leave rfl rfl
  · exact .quiet rfl rfl

theorem advance_effect [SeededRandom] (placement : SiloAddress → PlacementStrategy) (s : Cluster)
    (t : Task) :
    Effect s (s.advance placement t) (.advance t) := by
  cases t with
  | routing c retry => exact resolveOrActivate_effect placement s c retry _
  | resolving c retry owner placementClass =>
    exact handleResolve_effect s c retry owner placementClass _
  | resolved c retry entry =>
    simp only [advance, afterResolve]
    split
    · exact invokeLocal_effect s c c.caller _
    · exact .quiet rfl rfl
  | calling c host => exact invokeLocal_effect s c host _
  | awaiting c retry => exact .quiet rfl rfl
  | activating c host => exact .insert rfl rfl
  | activated c host number => exact .quiet rfl rfl
  | deactivating host g number => exact .quiet rfl rfl
  | stopping host g number => exact .pop rfl rfl
  | leaving host g => exact unregister_effect s host g
  | unregistering owner g silo => exact .unregister rfl rfl

section

variable [SeededRandom] {placement : SiloAddress → PlacementStrategy} {t : Task}
  {c : Call} {retry : Bool}
  {entry : DirectoryEntry}

theorem step_advance : s.step placement (.advance t) = some s' ↔
    t ∈ s.tasks ∧ (s.take t).advance placement t = s' := by
  simp only [step, Option.ite_none_right_eq_some, Option.some.injEq]

theorem step_finish : s.step placement (.finish t) = some s' ↔ t ∈ s.tasks ∧ s.take t = s' := by
  simp only [step, Option.ite_none_right_eq_some, Option.some.injEq]

theorem step_cacheHit : s.step placement (.cacheHit c retry entry) = some s' ↔
    .routing c retry ∈ s.tasks ∧ (s.take (.routing c retry)).spawn
      (.resolved c retry entry) = s' := by
  simp only [step, Option.ite_none_right_eq_some, Option.some.injEq]

theorem step_connectionLost : s.step placement (.connectionLost c retry) = some s' ↔
    .awaiting c retry ∈ s.tasks ∧
      (if retry then s.take (.awaiting c retry)
        else (s.take (.awaiting c retry)).spawn (.routing c true)) = s' := by
  simp only [step, Option.ite_none_right_eq_some, Option.some.injEq]

end

theorem step_effect [SeededRandom] {placement : SiloAddress → PlacementStrategy} {a : ClusterAction}
    (h : s.step placement a = some s') : Effect s s' a := by
  cases a with
  | invoke caller g =>
    obtain rfl := Option.some.inj h
    exact .quiet rfl rfl
  | deactivate host g =>
    obtain rfl := Option.some.inj h
    split <;> exact .quiet rfl rfl
  | advance t =>
    obtain ⟨-, rfl⟩ := step_advance.mp h
    exact (advance_effect placement _ t).of_take
  | finish t =>
    obtain ⟨-, rfl⟩ := step_finish.mp h
    exact .quiet rfl rfl
  | cacheHit c retry entry =>
    obtain ⟨-, rfl⟩ := step_cacheHit.mp h
    exact .quiet rfl rfl
  | connectionLost c retry =>
    obtain ⟨-, rfl⟩ := step_connectionLost.mp h
    split_ifs <;> exact .quiet rfl rfl
  | turn q => exact turn_effect h _

/-- The handler of inbound grain calls, run without a pause, is a run of the cluster. -/
theorem exec_handleGrainCall [SeededRandom] (placement : SiloAddress → PlacementStrategy)
    {Value : Type} (code : GrainCode Value) (now : ℚ) (msg : TransportMessage) {c : Call}
    {host : SiloAddress}
    (hc : ∀ req, code.decodeRequest msg.body = .ok req → req.grainId = c.grainId)
    (hs : .calling c host ∈ s.tasks) :
    ∃ as s', exec (Cluster.step placement) s as = some s' ∧ s'.directories = s.directories ∧
      s'.runtimes = Function.update s.runtimes host
        (handleGrainCall code (s.runtimes host) now msg).runtime := by
  rcases handleGrainCall_runtime code (s.runtimes host) now msg with h | ⟨req, hd, hf, h⟩
  · refine ⟨[.finish (.calling c host)], s.take (.calling c host), ?_, rfl, ?_⟩
    · rw [exec_cons]
      exact ⟨_, step_finish.mpr ⟨hs, rfl⟩, rfl⟩
    · rw [h, Function.update_eq_self]
      rfl
  · rw [hc req hd] at hf h
    have hnone : (s.runtimes host).activations.get c.grainId = none := by
      simpa [GrainRuntime.hosts] using hf
    have hcall : (s.take (.calling c host)).advance placement (.calling c host) =
        (s.take (.calling c host)).spawn (.activating c host) := by
      have htake : (s.take (.calling c host)).runtimes = s.runtimes := rfl
      simp only [advance, Cluster.invokeLocal, htake, hnone]
    have hmem : .activating c host ∈
      ((s.take (.calling c host)).spawn (.activating c host)).tasks :=
      List.mem_append_right _ (List.mem_singleton_self _)
    refine ⟨[.advance (.calling c host), .advance (.activating c host)],
      (((s.take (.calling c host)).spawn (.activating c host)).take
        (.activating c host)).finishActivation
        c host, ?_, rfl, ?_⟩
    · rw [exec_cons]
      refine ⟨_, step_advance.mpr ⟨hs, hcall⟩, ?_⟩
      rw [exec_cons]
      exact ⟨_, step_advance.mpr ⟨hmem, rfl⟩, rfl⟩
    · rw [h]
      rfl

end Cluster

/-- `siloA` and `siloB` on one ring, on which `siloA` owns `counter1`. -/
def pair : SiloAddress → DistributedGrainDirectory := fun t ↦
  { localSilo := t
    ring := .ofSilos [siloA, siloB] 1 Nat.one_pos
    activeSilos := [siloA, siloB]
    owned := .empty
    epoch := 0
    rebuild := none }

def sampleCall (number : ℕ) (caller : SiloAddress) : Call := ⟨number, caller, counter1⟩

end Pyleans
