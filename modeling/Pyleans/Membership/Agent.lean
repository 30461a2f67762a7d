import Pyleans.Cluster.DirectoryEvents
import Pyleans.Cluster.Reconciliation
import Pyleans.Membership.ProbeTargets
import Pyleans.Membership.Writers

namespace Pyleans

open Library

/-- The three tasks that the membership agent of a silo starts. -/
inductive AgentLoop
  | probe
  | tablePoll
  | iAmAlive
deriving DecidableEq

instance : Fintype AgentLoop where
  elems := {.probe, .tablePoll, .iAmAlive}
  complete loop := by cases loop <;> decide

inductive ReadPurpose
  | probeCycle
  | tablePoll
  | broadcast
deriving DecidableEq

/-- Where a loop stands. A read is answered at one moment and the loop gets on
with the answer at a later one. -/
inductive LoopPhase
  | asleep
  | reading (purpose : ReadPurpose)
  | answered (purpose : ReadPurpose) (snapshot : MembershipSnapshot)
  | probing (targets : List SiloAddress)
  | writingIAmAlive
  | broadcasting (snapshot : MembershipSnapshot)

def LoopPhase.isAsleep : LoopPhase → Bool
  | .asleep => true
  | _ => false

/-- The answer to a read that the loop has not got on with yet. -/
def LoopPhase.answer : LoopPhase → Option MembershipSnapshot
  | .answered _ snapshot => some snapshot
  | _ => none

/-- The start of a silo from the moment its transport is up. -/
inductive StartPhase
  | reading
  | answered (snapshot : MembershipSnapshot)
  | changing (change : Except DirectoryError DistributedGrainDirectory.MembershipChange)
  | agentStarted

def StartPhase.isDone : StartPhase → Bool
  | .agentStarted => true
  | _ => false

def StartPhase.answer : StartPhase → Option MembershipSnapshot
  | .answered snapshot => some snapshot
  | _ => none

/-- An inbound snapshot that was accepted, after the locked section of the
directory's `on_membership_changed`. -/
structure SnapshotHandler where
  snapshot : MembershipSnapshot
  change : Except DirectoryError DistributedGrainDirectory.MembershipChange

/-- One silo with its agent and directory, beside the membership table with
everything that writes to it and the snapshots that peers have broadcast. -/
structure Silo where
  siloAddress : SiloAddress
  options : FailureDetectorOptions
  start : StartPhase
  running : Bool
  lastSnapshot : Option MembershipSnapshot
  loops : AgentLoop → LoopPhase
  handlers : List SnapshotHandler
  directory : DistributedGrainDirectory
  membership : Membership
  wire : List MembershipSnapshot

inductive SiloEvent
  | startRead
  | startChange
  | startAgent
  | wake (loop : AgentLoop)
  | answer (loop : AgentLoop)
  | readFailed (loop : AgentLoop)
  | install (loop : AgentLoop)
  | probed (declared : Bool)
  | wroteIAmAlive (ok : Bool)
  | sent (loop : AgentLoop)
  | peerBroadcast
  | receive (i : ℕ)
  | handled (i : ℕ)
  | stopAgent
  | membership (event : MembershipEvent)
  | directory (op : DirectoryOp)
  | rebuilt (responses : SiloAddress → Option (List DirectoryEntry))

namespace Silo

def ownRowIsDead (s : Silo) (snapshot : MembershipSnapshot) : Bool :=
  snapshot.silos.any fun row ↦ row.address = s.siloAddress ∧ row.status = .dead

def activeSilos (s : Silo) (snapshot : MembershipSnapshot) : List SiloAddress :=
  let active := (snapshot.silos.filter fun row ↦
    row.status = .joining ∨ row.status = .active).map SiloInfo.address
  if s.siloAddress ∈ active then active else active ++ [s.siloAddress]

def setLoop (s : Silo) (loop : AgentLoop) (phase : LoopPhase) : Silo :=
  { s with loops := Function.update s.loops loop phase }

def isStale (s : Silo) (snapshot : MembershipSnapshot) : Bool :=
  match s.lastSnapshot with
  | none => false
  | some last => snapshot.version < last.version

def view (s : Silo) : Option MembershipSnapshot × List SiloAddress :=
  (s.lastSnapshot, s.directory.activeSilos)

variable [StableHash]

def init (siloAddress : SiloAddress) (options : FailureDetectorOptions) (membership : Membership) :
    Silo where
  siloAddress := siloAddress
  options := options
  start := .reading
  running := false
  lastSnapshot := none
  loops _ := .asleep
  handlers := []
  directory := .init siloAddress (.withDefaults [siloAddress]) [siloAddress]
  membership := membership
  wire := []

def afterRead (s : Silo) (snapshot : MembershipSnapshot) : ReadPurpose → LoopPhase
  | .broadcast => .broadcasting snapshot
  | .tablePoll => .asleep
  | .probeCycle =>
    let targets := FailureDetector.probeTargets ⟨s.siloAddress, s.options⟩ snapshot
    if s.ownRowIsDead snapshot ∨ targets = [] then .asleep else .probing targets

/-- The silo's own reads are installed whatever their version, and the
directory is not told. -/
def install (s : Silo) (loop : AgentLoop) (purpose : ReadPurpose) (snapshot : MembershipSnapshot) :
    Silo :=
  { s with
    lastSnapshot := some snapshot
    running := s.running && (purpose = .broadcast || !s.ownRowIsDead snapshot)
    loops := Function.update s.loops loop (s.afterRead snapshot purpose) }

/-- An inbound snapshot, up to the first pause of its handler. -/
def applySnapshot (s : Silo) (snapshot : MembershipSnapshot) : Silo :=
  if s.isStale snapshot then s
  else
    let (directory, change) := s.directory.changeRing (s.activeSilos snapshot)
    { s with
      lastSnapshot := some snapshot
      directory := directory
      handlers := s.handlers ++ [⟨snapshot, change⟩] }

def finishChange (d : DistributedGrainDirectory) :
    Except DirectoryError DistributedGrainDirectory.MembershipChange → DistributedGrainDirectory
  | .error _ => d
  | .ok change => d.scheduleRebuild change

variable [SeededRandom]

def step (s : Silo) : SiloEvent → Option Silo
  | .startRead =>
    match s.start with
    | .reading => some { s with start := .answered s.membership.table.readAll }
    | _ => none
  | .startChange =>
    match s.start with
    | .answered snapshot =>
      let (directory, change) := s.directory.changeRing (s.activeSilos snapshot)
      some { s with directory := directory, start := .changing change }
    | _ => none
  | .startAgent =>
    match s.start with
    | .changing change =>
      some { s with
        directory := finishChange s.directory change
        start := .agentStarted
        running := true }
    | _ => none
  | .wake loop =>
    match s.running, s.loops loop with
    | true, .asleep =>
      some (s.setLoop loop (match loop with
        | .probe => .reading .probeCycle
        | .tablePoll => .reading .tablePoll
        | .iAmAlive => .writingIAmAlive))
    | _, _ => none
  | .answer loop =>
    match s.loops loop with
    | .reading purpose => some (s.setLoop loop (.answered purpose s.membership.table.readAll))
    | _ => none
  | .readFailed loop =>
    match s.loops loop with
    | .reading _ => some (s.setLoop loop .asleep)
    | _ => none
  | .install loop =>
    match s.loops loop with
    | .answered purpose snapshot => some (s.install loop purpose snapshot)
    | _ => none
  | .probed declared =>
    match s.loops .probe with
    | .probing _ => some (s.setLoop .probe (if declared then .reading .broadcast else .asleep))
    | _ => none
  | .wroteIAmAlive ok =>
    match s.loops .iAmAlive with
    | .writingIAmAlive => some (s.setLoop .iAmAlive (if ok then .reading .broadcast else .asleep))
    | _ => none
  | .sent loop =>
    match s.loops loop with
    | .broadcasting _ => some (s.setLoop loop .asleep)
    | _ => none
  | .peerBroadcast => some { s with wire := s.wire ++ [s.membership.table.readAll] }
  | .receive i => s.wire[i]?.map s.applySnapshot
  | .handled i =>
    s.handlers[i]?.map fun handler ↦
      { s with
        handlers := s.handlers.eraseIdx i
        directory := finishChange s.directory handler.change
        running := s.running && !s.ownRowIsDead handler.snapshot }
  | .stopAgent => some { s with running := false, loops := fun _ ↦ .asleep }
  | .membership event =>
    (s.membership.step event).map fun membership ↦ { s with membership := membership }
  | .directory op => some { s with directory := s.directory.handle op }
  | .rebuilt responses => some { s with directory := (s.directory.finishRebuild responses).1 }

section

omit [SeededRandom]

omit [StableHash] in
theorem finishChange_activeSilos (d : DistributedGrainDirectory)
    (change : Except DirectoryError DistributedGrainDirectory.MembershipChange) :
    (finishChange d change).activeSilos = d.activeSilos := by
  cases change with
  | error e => rfl
  | ok change => exact DistributedGrainDirectory.scheduleRebuild_activeSilos d change

theorem applySnapshot_stale {s : Silo} {snapshot : MembershipSnapshot}
    (h : s.isStale snapshot = true) :
    s.applySnapshot snapshot = s := if_pos h

theorem applySnapshot_accepted {s : Silo} {snapshot : MembershipSnapshot}
    (h : s.isStale snapshot = false) :
    (s.applySnapshot snapshot).view = (some snapshot, s.activeSilos snapshot) ∧
      (s.applySnapshot snapshot).siloAddress = s.siloAddress := by
  rw [applySnapshot, if_neg (by simp [h])]
  exact ⟨Prod.ext rfl (DistributedGrainDirectory.changeRing_activeSilos s.directory _), rfl⟩

end

/-- Everything but the start, an install and an accepted broadcast leaves the
view as it is. -/
theorem step_cases {s s' : Silo} {e : SiloEvent} (h : step s e = some s') :
    s'.siloAddress = s.siloAddress ∧
    ((∃ snapshot, e = .startChange ∧ s.start.answer = some snapshot ∧
        s'.view = (s.lastSnapshot, s.activeSilos snapshot)) ∨
      (∃ loop snapshot, e = .install loop ∧ (s.loops loop).answer = some snapshot ∧
        s'.view = (some snapshot, s.directory.activeSilos)) ∨
      (∃ i snapshot, e = .receive i ∧ s.wire[i]? = some snapshot ∧ s.isStale snapshot = false ∧
        s'.view = (some snapshot, s.activeSilos snapshot)) ∨
      (e ≠ .startChange ∧ (∀ loop, e ≠ .install loop) ∧ s'.view = s.view)) := by
  cases e with
  | startChange =>
    simp only [step] at h
    split at h
    · next snapshot hstart =>
      obtain rfl := Option.some.inj h
      refine ⟨rfl, .inl ⟨snapshot, rfl, by rw [hstart, StartPhase.answer], Prod.ext rfl ?_⟩⟩
      exact DistributedGrainDirectory.changeRing_activeSilos s.directory _
    · cases h
  | install loop =>
    simp only [step] at h
    split at h
    · next purpose snapshot hl =>
      obtain rfl := Option.some.inj h
      exact ⟨rfl, .inr (.inl ⟨loop, snapshot, rfl, by rw [hl, LoopPhase.answer], rfl⟩)⟩
    · cases h
  | receive i =>
    obtain ⟨snapshot, hi, rfl⟩ := Option.map_eq_some_iff.mp h
    cases hstale : s.isStale snapshot with
    | true => simp [applySnapshot_stale hstale]
    | false =>
      obtain ⟨hview, haddress⟩ := applySnapshot_accepted hstale
      exact ⟨haddress, .inr (.inr (.inl ⟨i, snapshot, rfl, hi, hstale, hview⟩))⟩
  | handled i =>
    obtain ⟨handler, -, rfl⟩ := Option.map_eq_some_iff.mp h
    refine ⟨rfl, .inr (.inr (.inr ⟨by simp, by simp, Prod.ext rfl ?_⟩))⟩
    exact finishChange_activeSilos s.directory handler.change
  | startAgent =>
    simp only [step] at h
    split at h
    · next change _ =>
      obtain rfl := Option.some.inj h
      refine ⟨rfl, .inr (.inr (.inr ⟨by simp, by simp, Prod.ext rfl ?_⟩))⟩
      exact finishChange_activeSilos s.directory change
    · cases h
  | directory op =>
    obtain rfl := Option.some.inj h
    refine ⟨rfl, .inr (.inr (.inr ⟨by simp, by simp, Prod.ext rfl ?_⟩))⟩
    exact (DistributedGrainDirectory.handle_static s.directory op).2.2.2
  | rebuilt responses =>
    obtain rfl := Option.some.inj h
    refine ⟨rfl, .inr (.inr (.inr ⟨by simp, by simp, Prod.ext rfl ?_⟩))⟩
    exact (Reconciliation.finishRebuild_static s.directory responses).2.2
  | membership event =>
    obtain ⟨m, -, rfl⟩ := Option.map_eq_some_iff.mp h
    exact ⟨rfl, .inr (.inr (.inr ⟨by simp, by simp, rfl⟩))⟩
  | peerBroadcast | stopAgent =>
    obtain rfl := Option.some.inj h
    exact ⟨rfl, .inr (.inr (.inr ⟨by simp, by simp, rfl⟩))⟩
  | startRead | wake loop | answer loop | readFailed loop | probed declared
    | wroteIAmAlive ok | sent loop =>
    simp only [step] at h
    split at h
    · obtain rfl := Option.some.inj h
      exact ⟨rfl, .inr (.inr (.inr ⟨by simp, by simp, rfl⟩))⟩
    · cases h

end Silo

end Pyleans
