import Pyleans.Cluster.DirectoryEvents
import Pyleans.Library.Linearizability

namespace Pyleans.Linearizability

open Library DistributedGrainDirectory

variable [StableHash] [SeededRandom]

inductive StandardPlacement
  | random
  | preferLocal

def StandardPlacement.strategy : StandardPlacement → PlacementStrategy
  | .random => randomPlacement
  | .preferLocal => preferLocalPlacement

inductive DirectoryCall
  | register (g : GrainId) (silo : SiloAddress)
  | lookup (g : GrainId)
  | unregister (g : GrainId) (silo : SiloAddress)
  | resolve (g : GrainId) (placement : StandardPlacement) (caller : Option SiloAddress)

def DirectoryCall.grain : DirectoryCall → GrainId
  | .register g _ => g
  | .lookup g => g
  | .unregister g _ => g
  | .resolve g _ _ => g

inductive DirectoryResult
  | entry (e : DirectoryEntry)
  | found (e : Option DirectoryEntry)
  | done
  | raised (e : DirectoryError)

def mapRouted {α β : Type} (f : α → β) : Routed α → Routed β
  | .answered result d => .answered (f result) d
  | .forwarded owner => .forwarded owner

def issue (d : DistributedGrainDirectory) : DirectoryCall → Except DirectoryError
    (Routed DirectoryResult)
  | .register g silo => (d.register g silo).map (mapRouted .entry)
  | .lookup g => (d.lookup g).map (mapRouted .found)
  | .unregister g silo => (d.unregister g silo).map (mapRouted fun _ ↦ .done)
  | .resolve g placement caller =>
    (d.resolveOrActivate g placement.strategy caller).map (mapRouted .entry)

/-- What the owner answers. Only the class name of a placement travels. -/
def handleRequest (d : DistributedGrainDirectory) :
    DirectoryCall → Option (DirectoryResult × DistributedGrainDirectory)
  | .register g silo => some (.entry (d.registerLocal g silo).1, (d.registerLocal g silo).2)
  | .lookup g => some (.found (d.owned.get g), d)
  | .unregister g silo => some (.done, d.unregisterLocal g silo)
  | .resolve g placement caller =>
    (placementOfClass placement.strategy.className).bind fun strategy ↦
      match d.resolveOrActivateLocal g strategy caller with
      | .error _ => none
      | .ok (e, d') => some (.entry e, d')

inductive CallPhase
  | started
  | requested (owner : SiloAddress)
  | answered (result : DirectoryResult)

structure PendingCall where
  issuer : SiloAddress
  call : DirectoryCall
  phase : CallPhase

/-- The directories of all silos and the calls that have not returned. A call
that is `requested` has its request on the wire, and one that is `answered` may
have its response there, so the wire delivers in any order. -/
structure DirectoryCluster (Id : Type) where
  directories : SiloAddress → DistributedGrainDirectory
  calls : Id → Option PendingCall

inductive ClusterEvent (Id : Type)
  | call (id : Id) (issuer : SiloAddress) (call : DirectoryCall)
  | proceed (id : Id)
  | serve (id : Id)
  | ret (id : Id)

variable {Id : Type} [DecidableEq Id]

namespace DirectoryCluster

def start (ring : ConsistentHashRing) (active : List SiloAddress) (owned : SiloAddress → EntryTable)
    (epoch : SiloAddress → ℤ) : DirectoryCluster Id where
  directories s :=
    { DistributedGrainDirectory.init s ring active with owned := owned s, epoch := epoch s }
  calls _ := none

def setPhase (s : DirectoryCluster Id) (id : Id) (p : PendingCall) (phase : CallPhase) :
    DirectoryCluster Id :=
  { s with calls := Function.update s.calls id (some { p with phase := phase }) }

def setDirectory (s : DirectoryCluster Id) (silo : SiloAddress) (d : DistributedGrainDirectory) :
    DirectoryCluster Id :=
  { s with directories := Function.update s.directories silo d }

end DirectoryCluster

def step (s : DirectoryCluster Id) : ClusterEvent Id → Option (DirectoryCluster Id)
  | .call id issuer call =>
    if s.calls id = none then
      some { s with calls := Function.update s.calls id (some ⟨issuer, call, .started⟩) }
    else none
  | .proceed id =>
    match s.calls id with
    | some ⟨issuer, call, .started⟩ =>
      match issue (s.directories issuer) call with
      | .error e => some (s.setPhase id ⟨issuer, call, .started⟩ (.answered (.raised e)))
      | .ok (.answered result d) =>
        some ((s.setDirectory issuer d).setPhase id ⟨issuer, call, .started⟩ (.answered result))
      | .ok (.forwarded owner) => some (s.setPhase id ⟨issuer, call, .started⟩ (.requested owner))
    | _ => none
  | .serve id =>
    match s.calls id with
    | some ⟨issuer, call, .requested owner⟩ =>
      (handleRequest (s.directories owner) call).map fun r ↦
        (s.setDirectory owner r.2).setPhase id ⟨issuer, call, .requested owner⟩ (.answered r.1)
    | _ => none
  | .ret id =>
    match s.calls id with
    | some ⟨_, _, .answered _⟩ => some { s with calls := Function.update s.calls id none }
    | _ => none

def shown (s : DirectoryCluster Id) :
    ClusterEvent Id → List (Event Id DirectoryCall DirectoryResult)
  | .call id _ call => [.call id call]
  | .ret id =>
    match s.calls id with
    | some ⟨_, _, .answered result⟩ => [.ret id result]
    | _ => []
  | _ => []

abbrev Reference := GrainId → Option DirectoryEntry

/-- The present entry stays; only in its absence is `e` put there, for a silo
that `fresh` allows. -/
def InsertIfAbsent (m : Reference) (g : GrainId) (fresh : SiloAddress → Prop) (e : DirectoryEntry)
    (m' : Reference) : Prop :=
  (m g = some e ∨ (m g = none ∧ e.grainId = g ∧ fresh e.silo)) ∧ m' = Function.update m g (some e)

def offered (ring : ConsistentHashRing) (active : List SiloAddress) : List SiloAddress :=
  if active ≠ [] then active else ring.silos

/-- Calls can only raise on an empty ring. -/
def reference (ring : ConsistentHashRing) (active : List SiloAddress) :
    Spec Reference DirectoryCall DirectoryResult := fun m call result m' ↦
  match call, result with
  | .register g silo, .entry e => InsertIfAbsent m g (fun s ↦ s = silo) e m'
  | .lookup g, .found e => e = m g ∧ m' = m
  | .unregister g silo, .done => m' = Function.update m g ((m g).filter fun e ↦ e.silo ≠ silo)
  | .resolve g placement caller, .entry e =>
    InsertIfAbsent m g (fun s ↦ placement.strategy.pickSilo g caller (offered ring active) = some s)
      e m'
  | _, .raised e => ring.silos = [] ∧ (∃ message, e = .clusterNotReady message) ∧ m' = m
  | _, _ => False

/-- The `_local` form of a call, which the owner runs for itself and for its peers. -/
def localForm (d : DistributedGrainDirectory) :
    DirectoryCall → Except DirectoryError (DirectoryResult × DistributedGrainDirectory)
  | .register g silo => .ok (.entry (d.registerLocal g silo).1, (d.registerLocal g silo).2)
  | .lookup g => .ok (.found (d.owned.get g), d)
  | .unregister g silo => .ok (.done, d.unregisterLocal g silo)
  | .resolve g placement caller =>
    (d.resolveOrActivateLocal g placement.strategy caller).map fun r ↦ (.entry r.1, r.2)

section Functions

omit [SeededRandom] in
theorem ownerOf_error {d : DistributedGrainDirectory} {g : GrainId} {e : DirectoryError}
    (h : d.ownerOf g = .error e) : d.ring.silos = [] ∧ ∃ message, e = .clusterNotReady message := by
  unfold DistributedGrainDirectory.ownerOf ownerOfWithRing at h
  split at h
  · next hn => exact ⟨ConsistentHashRing.ownerOf_eq_none_iff.mp hn, _, (Except.error.inj h).symm⟩
  · cases h

omit [SeededRandom] in
theorem ring_of_owner {d : DistributedGrainDirectory} {g : GrainId} {o : SiloAddress}
    (h : d.ownerOf g = .ok o) : d.ring.silos ≠ [] :=
  List.ne_nil_of_mem (ConsistentHashRing.ownerOf_mem (ownerOfWithRing_ok_iff.mp h))

omit [SeededRandom] in
theorem map_routed {α : Type} (d d' : DistributedGrainDirectory) (g : GrainId) (r : α)
    (f : α → DirectoryResult) :
    Except.map (mapRouted f) (do
      let owner ← d.ownerOf g
      if owner = d.localSilo then return .answered r d' else return .forwarded owner) =
    match d.ownerOf g with
    | .error e => .error e
    | .ok owner =>
      if owner = d.localSilo then .ok (.answered (f r) d') else .ok (.forwarded owner) := by
  cases d.ownerOf g with
  | error e => rfl
  | ok o =>
    by_cases h : o = d.localSilo <;>
      simp [h, bind, Except.bind, pure, Except.pure, Except.map, mapRouted]

theorem issue_eq (d : DistributedGrainDirectory) (call : DirectoryCall) :
    issue d call = match d.ownerOf call.grain with
      | .error e => .error e
      | .ok owner =>
        if owner = d.localSilo then (localForm d call).map fun r ↦ .answered r.1 r.2
        else .ok (.forwarded owner) := by
  cases call with
  | register g silo => exact map_routed d _ g _ .entry
  | lookup g => exact map_routed d _ g _ .found
  | unregister g silo => exact map_routed d _ g _ fun _ ↦ .done
  | resolve g placement caller =>
    have hp : placement.strategy.className ∈ recognisedPlacements := by
      cases placement <;> simp [recognisedPlacements, StandardPlacement.strategy, randomPlacement,
        preferLocalPlacement]
    simp only [issue, DistributedGrainDirectory.resolveOrActivate, DirectoryCall.grain, localForm]
    cases d.ownerOf g with
    | error e => rfl
    | ok o =>
      by_cases h : o = d.localSilo
      · cases d.resolveOrActivateLocal g placement.strategy caller <;>
          simp [h, bind, Except.bind, pure, Except.pure, Except.map, mapRouted]
      · simp [h, hp, bind, Except.bind, pure, Except.pure, Except.map, mapRouted]

theorem handleRequest_eq (d : DistributedGrainDirectory) (call : DirectoryCall) :
    handleRequest d call = (localForm d call).toOption := by
  cases call with
  | resolve g placement caller =>
    have hp : placementOfClass placement.strategy.className = some placement.strategy := by
      cases placement <;> rfl
    rw [handleRequest, hp, Option.bind_some, localForm]
    cases d.resolveOrActivateLocal g placement.strategy caller <;> rfl
  | _ => rfl

theorem exists_localForm {d : DistributedGrainDirectory} (hd : d.ring.silos ≠ [])
    (call : DirectoryCall) :
    ∃ result d', localForm d call = .ok (result, d') := by
  cases call with
  | resolve g placement caller =>
    have hc : d.placementCandidates ≠ [] := by
      unfold placementCandidates
      split_ifs with ha
      · exact ha
      · exact hd
    obtain ⟨e, d', h⟩ := exists_resolveOrActivateLocal hc g placement.strategy caller
    exact ⟨.entry e, d', by rw [localForm, h]; rfl⟩
  | _ => exact ⟨_, _, rfl⟩

omit [StableHash] [SeededRandom] in
theorem registerLocal_cases (d : DistributedGrainDirectory) (g : GrainId) (silo : SiloAddress) :
    d.owned.get g = some (d.registerLocal g silo).1 ∨
      d.owned.get g = none ∧ (d.registerLocal g silo).1.grainId = g ∧
        (d.registerLocal g silo).1.silo = silo := by
  unfold registerLocal
  split
  · next e h => exact .inl h
  · next h => exact .inr ⟨h, rfl, rfl⟩

/-- What the directories share, and each one's place among them. -/
def Placed (d : DistributedGrainDirectory) (silo : SiloAddress) (ring : ConsistentHashRing)
    (active : List SiloAddress) : Prop :=
  d.localSilo = silo ∧ d.ring = ring ∧ d.activeSilos = active

/-- A call acts on its own grain alone, and there as on the one map. -/
theorem localForm_spec {d d' : DistributedGrainDirectory} {silo : SiloAddress}
    {ring : ConsistentHashRing} {active : List SiloAddress} {call : DirectoryCall}
    {result : DirectoryResult} (hd : Placed d silo ring active)
    (h : localForm d call = .ok (result, d')) :
    Placed d' silo ring active ∧ (∀ k ≠ call.grain, d'.owned.get k = d.owned.get k) ∧
    ∀ m : Reference, m call.grain = d.owned.get call.grain →
      reference ring active m call result
        (Function.update m call.grain (d'.owned.get call.grain)) := by
  obtain ⟨rfl, rfl, rfl⟩ := hd
  cases call with
  | register g s =>
    obtain ⟨rfl, rfl⟩ := Prod.mk.inj (Except.ok.inj h)
    obtain ⟨hr, hl, -, ha⟩ := registerLocal_static d g s
    refine ⟨⟨hl, hr, ha⟩, fun k (hk : k ≠ g) ↦ ?_, fun m hm ↦ ⟨?_, ?_⟩⟩
    · rw [registerLocal_get, if_neg hk]
    · exact hm.symm ▸ registerLocal_cases d g s
    · rw [DirectoryCall.grain, registerLocal_get, if_pos rfl]
  | lookup g =>
    obtain ⟨rfl, rfl⟩ := Prod.mk.inj (Except.ok.inj h)
    refine ⟨⟨rfl, rfl, rfl⟩, fun k _ ↦ rfl, fun m hm ↦ ⟨hm.symm, ?_⟩⟩
    rw [← hm, Function.update_eq_self]
  | unregister g s =>
    obtain ⟨rfl, rfl⟩ := Prod.mk.inj (Except.ok.inj h)
    obtain ⟨hr, hl, -, ha⟩ := unregisterLocal_static d g s
    refine ⟨⟨hl, hr, ha⟩, fun k (hk : k ≠ g) ↦ ?_, fun m hm ↦ ?_⟩
    · rw [unregisterLocal_get, if_neg hk]
    · simp only [DirectoryCall.grain] at hm ⊢
      rw [reference, unregisterLocal_get, if_pos rfl, hm]
  | resolve g placement caller =>
    rw [localForm] at h
    cases hr : d.resolveOrActivateLocal g placement.strategy caller with
    | error e => rw [hr] at h; cases h
    | ok r =>
      obtain ⟨e, d''⟩ := r
      rw [hr] at h
      obtain ⟨rfl, rfl⟩ := Prod.mk.inj (Except.ok.inj h)
      have hget := resolveOrActivateLocal_get hr
      refine ⟨?_, fun k (hk : k ≠ g) ↦ ?_, fun m hm ↦ ⟨?_, ?_⟩⟩
      · obtain ⟨hring, hlocal, -, hactive⟩ := resolveOrActivateLocal_static hr
        exact ⟨hlocal, hring, hactive⟩
      · rw [hget, if_neg hk]
      · rcases resolveOrActivateLocal_cases hr with ⟨he, -⟩ | ⟨hn, hg, -, hs, -⟩
        · exact .inl (hm.trans he)
        · exact .inr ⟨hm.trans hn, hg, hs⟩
      · rw [DirectoryCall.grain, hget, if_pos rfl]

end Functions

/-- The map the directories hold together: each grain is looked up at its owner. -/
def together (ring : ConsistentHashRing) (s : DirectoryCluster Id) : Reference :=
  fun g ↦ (ring.ownerOf (hashGrainId g)).bind fun o ↦ (s.directories o).owned.get g

def CallPhase.result : CallPhase → Option DirectoryResult
  | .answered result => some result
  | _ => none

def abs (ring : ConsistentHashRing) (s : DirectoryCluster Id) :
    Atomic Reference Id DirectoryCall DirectoryResult where
  object := together ring s
  pending id := (s.calls id).map fun p ↦ (p.call, p.phase.result)

/-- Every directory keeps its place, and requests go only to the owner. -/
structure WellRouted (ring : ConsistentHashRing) (active : List SiloAddress)
    (s : DirectoryCluster Id) :
    Prop where
  placed : ∀ silo, Placed (s.directories silo) silo ring active
  owner : ∀ id p o, s.calls id = some p → p.phase = .requested o →
    ring.ownerOf (hashGrainId p.call.grain) = some o

section Simulation

variable {ring : ConsistentHashRing} {active : List SiloAddress} {s : DirectoryCluster Id} {id : Id}

omit [SeededRandom] [DecidableEq Id] in
theorem together_setDirectory {o : SiloAddress} {g : GrainId} {d : DistributedGrainDirectory}
    (ho : ring.ownerOf (hashGrainId g) = some o)
    (hk : ∀ k ≠ g, d.owned.get k = (s.directories o).owned.get k) :
    together ring (s.setDirectory o d) = Function.update (together ring s) g (d.owned.get g) := by
  funext k
  by_cases hkg : k = g
  · subst hkg
    simp only [together, ho, DirectoryCluster.setDirectory, Option.bind_some, Function.update_self]
  · rw [Function.update_of_ne hkg, together, together]
    refine Option.bind_congr (fun o' _ ↦ ?_)
    by_cases hoo : o' = o
    · subst hoo
      simp only [DirectoryCluster.setDirectory, Function.update_self, hk k hkg]
    · simp only [DirectoryCluster.setDirectory, Function.update_of_ne hoo]

omit [SeededRandom] in
theorem abs_setPhase (s : DirectoryCluster Id) (id : Id) (p : PendingCall) (phase : CallPhase) :
    abs ring (s.setPhase id p phase) =
      ⟨together ring s, Function.update (abs ring s).pending id (some (p.call, phase.result))⟩ := by
  simp only [abs, DirectoryCluster.setPhase, Atomic.mk.injEq]
  refine ⟨rfl, funext fun id' ↦ ?_⟩
  by_cases h : id' = id
  · subst h
    simp only [Function.update_self, Option.map_some]
  · simp only [Function.update_of_ne h]

omit [SeededRandom] in
theorem WellRouted.setPhase (h : WellRouted ring active s) {p : PendingCall} {phase : CallPhase}
    (hp : ∀ o, phase = .requested o → ring.ownerOf (hashGrainId p.call.grain) = some o) :
    WellRouted ring active (s.setPhase id p phase) where
  placed := h.placed
  owner id' p' o hc hr := by
    simp only [DirectoryCluster.setPhase] at hc
    by_cases hid : id' = id
    · rw [hid, Function.update_self] at hc
      obtain rfl := Option.some.inj hc
      exact hp o hr
    · rw [Function.update_of_ne hid] at hc
      exact h.owner id' p' o hc hr

omit [SeededRandom] [DecidableEq Id] in
theorem WellRouted.setDirectory (h : WellRouted ring active s) {silo : SiloAddress}
    {d : DistributedGrainDirectory} (hd : Placed d silo ring active) :
    WellRouted ring active (s.setDirectory silo d) where
  placed t := by
    by_cases ht : t = silo
    · subst ht
      simpa only [DirectoryCluster.setDirectory, Function.update_self] using hd
    · simpa only [DirectoryCluster.setDirectory, Function.update_of_ne ht] using h.placed t
  owner := h.owner

/-- The owner's answer is the point at which a call takes effect. -/
theorem point_of_localForm (h : WellRouted ring active s) {p : PendingCall} {o : SiloAddress}
    {result : DirectoryResult} {d : DistributedGrainDirectory} (hc : s.calls id = some p)
    (hp : p.phase.result = none) (ho : ring.ownerOf (hashGrainId p.call.grain) = some o)
    (hd : localForm (s.directories o) p.call = .ok (result, d)) :
    WellRouted ring active ((s.setDirectory o d).setPhase id p (.answered result)) ∧
    AtomicStep (reference ring active) (abs ring s) (.point id p.call result)
      (abs ring ((s.setDirectory o d).setPhase id p (.answered result))) := by
  obtain ⟨hplaced, hframe, hspec⟩ := localForm_spec (h.placed o) hd
  refine ⟨(h.setDirectory hplaced).setPhase (fun _ hr ↦ by cases hr), ?_⟩
  rw [abs_setPhase, together_setDirectory ho hframe]
  have hpending : (abs ring s).pending id = some (p.call, none) := by
    simp only [abs, hc, Option.map_some, hp]
  exact .point hpending (hspec _ (by simp only [abs, together, ho, Option.bind_some]))

omit [DecidableEq Id] in
/-- A call that starts ends at once at its own silo or on an empty ring, and
otherwise goes to the owner. -/
theorem proceed_cases (h : WellRouted ring active s) (issuer : SiloAddress) (call : DirectoryCall) :
    (∃ message, issue (s.directories issuer) call = .error (.clusterNotReady message) ∧
      ring.silos = []) ∨
    (∃ result d, issue (s.directories issuer) call = .ok (.answered result d) ∧
      ring.ownerOf (hashGrainId call.grain) = some issuer ∧
      localForm (s.directories issuer) call = .ok (result, d)) ∨
    ∃ o, issue (s.directories issuer) call = .ok (.forwarded o) ∧
      ring.ownerOf (hashGrainId call.grain) = some o := by
  obtain ⟨hl, hr, -⟩ := h.placed issuer
  rw [issue_eq]
  cases ho : (s.directories issuer).ownerOf call.grain with
  | error e =>
    obtain ⟨hn, message, rfl⟩ := ownerOf_error ho
    exact .inl ⟨message, rfl, hr ▸ hn⟩
  | ok o =>
    have howner : ring.ownerOf (hashGrainId call.grain) = some o :=
      hr ▸ ownerOfWithRing_ok_iff.mp ho
    by_cases hol : o = (s.directories issuer).localSilo
    · obtain ⟨result, d, hd⟩ := exists_localForm (ring_of_owner ho) call
      refine .inr (.inl ⟨result, d, ?_, (hol.trans hl) ▸ howner, hd⟩)
      simp only [if_pos hol, hd, Except.map]
    · exact .inr (.inr ⟨o, by simp only [if_neg hol], howner⟩)

theorem simulates_call {s' : DirectoryCluster Id} {id : Id} {issuer : SiloAddress}
    {call : DirectoryCall} (h : WellRouted ring active s)
    (hs : step s (.call id issuer call) = some s') :
    WellRouted ring active s' ∧ ∃ marks, visible marks = shown s (.call id issuer call) ∧
      AtomicRun (reference ring active) (abs ring s) marks (abs ring s') := by
  simp only [step] at hs
  split_ifs at hs with hfree
  obtain rfl := Option.some.inj hs
  have hphase : ∀ o, CallPhase.started = .requested o →
      ring.ownerOf (hashGrainId call.grain) = some o := fun o ho ↦ by cases ho
  refine ⟨h.setPhase (p := ⟨issuer, call, .started⟩) hphase, [.event (.call id call)],
    rfl, .cons ?_ .nil⟩
  have habs : abs ring (s.setPhase id ⟨issuer, call, .started⟩ .started) = _ :=
    abs_setPhase s id ⟨issuer, call, .started⟩ .started
  refine habs ▸ .call ?_
  simp only [abs, hfree, Option.map_none]

theorem simulates_proceed {s' : DirectoryCluster Id} {id : Id} (h : WellRouted ring active s)
    (hs : step s (.proceed id) = some s') :
    WellRouted ring active s' ∧ ∃ marks, visible marks = shown s (.proceed id) ∧
      AtomicRun (reference ring active) (abs ring s) marks (abs ring s') := by
  simp only [step] at hs
  split at hs
  · next issuer call hc =>
    rcases proceed_cases h issuer call with
      ⟨message, hi, hring⟩ | ⟨result, d, hi, ho, hd⟩ | ⟨o, hi, ho⟩
    · rw [hi] at hs
      obtain rfl := Option.some.inj hs
      refine ⟨h.setPhase (fun _ hr ↦ by cases hr),
        [.point id call (.raised (.clusterNotReady message))],
        rfl, .cons ?_ .nil⟩
      rw [abs_setPhase]
      refine .point (by simp only [abs, hc, Option.map_some, CallPhase.result]) ?_
      cases call <;> exact ⟨hring, ⟨message, rfl⟩, rfl⟩
    · rw [hi] at hs
      obtain rfl := Option.some.inj hs
      obtain ⟨hw, hpoint⟩ := point_of_localForm h hc rfl ho hd
      exact ⟨hw, [.point id call result], rfl, .cons hpoint .nil⟩
    · rw [hi] at hs
      obtain rfl := Option.some.inj hs
      refine ⟨h.setPhase (fun o' hr ↦ ?_), [], rfl, ?_⟩
      · obtain rfl := CallPhase.requested.inj hr
        exact ho
      · rw [abs_setPhase]
        have hpending : (abs ring s).pending id = some (call, none) := by
          simp only [abs, hc, Option.map_some, CallPhase.result]
        have hsame := Function.update_eq_self id (abs ring s).pending
        rw [hpending] at hsame
        rw [show CallPhase.result (.requested o) = none from rfl, hsame]
        exact .nil
  · cases hs

theorem simulates_serve {s' : DirectoryCluster Id} {id : Id} (h : WellRouted ring active s)
    (hs : step s (.serve id) = some s') :
    WellRouted ring active s' ∧ ∃ marks, visible marks = shown s (.serve id) ∧
      AtomicRun (reference ring active) (abs ring s) marks (abs ring s') := by
  simp only [step] at hs
  split at hs
  · next issuer call owner hc =>
    obtain ⟨⟨result, d⟩, hr, rfl⟩ := Option.map_eq_some_iff.mp hs
    rw [handleRequest_eq] at hr
    have hd : localForm (s.directories owner) call = .ok (result, d) := by
      cases hl : localForm (s.directories owner) call with
      | error e => rw [hl] at hr; cases hr
      | ok r => rw [hl] at hr; exact congrArg Except.ok (Option.some.inj hr)
    obtain ⟨hw, hpoint⟩ := point_of_localForm h hc rfl (h.owner _ _ _ hc rfl) hd
    exact ⟨hw, [.point id call result], rfl, .cons hpoint .nil⟩
  · cases hs

theorem simulates_ret {s' : DirectoryCluster Id} {id : Id} (h : WellRouted ring active s)
    (hs : step s (.ret id) = some s') :
    WellRouted ring active s' ∧ ∃ marks, visible marks = shown s (.ret id) ∧
      AtomicRun (reference ring active) (abs ring s) marks (abs ring s') := by
  simp only [step] at hs
  split at hs
  · next issuer call result hc =>
    obtain rfl := Option.some.inj hs
    refine ⟨⟨h.placed, fun id' p o hp hr ↦ ?_⟩, [.event (.ret id result)], ?_, .cons ?_ .nil⟩
    · by_cases hid : id' = id
      · simp only [hid, Function.update_self] at hp
        cases hp
      · simp only [Function.update_of_ne hid] at hp
        exact h.owner id' p o hp hr
    · simp only [shown, hc]
      rfl
    · have hret : (abs ring s).pending id = some (call, some result) := by
        simp only [abs, hc, Option.map_some, CallPhase.result]
      have habs : abs ring { s with calls := Function.update s.calls id none } =
          ⟨together ring s, Function.update (abs ring s).pending id none⟩ := by
        simp only [abs, Atomic.mk.injEq]
        refine ⟨rfl, funext fun id' ↦ ?_⟩
        by_cases hid : id' = id
        · rw [hid, Function.update_self, Function.update_self, Option.map_none]
        · rw [Function.update_of_ne hid, Function.update_of_ne hid]
      exact habs ▸ .ret hret
  · cases hs

theorem simulates_step {s' : DirectoryCluster Id} {e : ClusterEvent Id}
    (h : WellRouted ring active s) (hs : step s e = some s') :
    WellRouted ring active s' ∧ ∃ marks, visible marks = shown s e ∧
      AtomicRun (reference ring active) (abs ring s) marks (abs ring s') := by
  cases e with
  | call id issuer call => exact simulates_call h hs
  | proceed id => exact simulates_proceed h hs
  | serve id => exact simulates_serve h hs
  | ret id => exact simulates_ret h hs

end Simulation

def PendingCall.next (p : PendingCall) (id : Id) : ClusterEvent Id :=
  match p.phase with
  | .started => .proceed id
  | .requested _ => .serve id
  | .answered _ => .ret id

theorem next_enabled {ring : ConsistentHashRing} {active : List SiloAddress}
    {s : DirectoryCluster Id} (h : WellRouted ring active s) {id : Id} {p : PendingCall}
    (hp : s.calls id = some p) :
    (step s (p.next id)).isSome := by
  obtain ⟨issuer, call, phase⟩ := p
  cases phase with
  | started =>
    simp only [PendingCall.next, step, hp]
    split <;> rfl
  | requested o =>
    have ho := h.owner _ _ _ hp rfl
    have hring : (s.directories o).ring.silos ≠ [] := by
      rw [(h.placed o).2.1]
      exact List.ne_nil_of_mem (ConsistentHashRing.ownerOf_mem ho)
    obtain ⟨result, d, hd⟩ := exists_localForm hring call
    simp only [PendingCall.next, step, hp, handleRequest_eq, hd]
    rfl
  | answered result =>
    simp only [PendingCall.next, step, hp]
    rfl

omit [SeededRandom] [DecidableEq Id] in
theorem wellRouted_start (ring : ConsistentHashRing) (active : List SiloAddress)
    (owned : SiloAddress → EntryTable) (epoch : SiloAddress → ℤ) :
    WellRouted ring active (DirectoryCluster.start ring active owned epoch : DirectoryCluster Id) :=
  ⟨fun _ ↦ ⟨rfl, rfl, rfl⟩, fun _ _ _ hp _ ↦ by cases hp⟩

def DirectoryCall.Places (g : GrainId) : DirectoryCall → Prop
  | .register g' _ => g' = g
  | .resolve g' _ _ => g' = g
  | _ => False

section Entries

variable {ring : ConsistentHashRing} {active : List SiloAddress} {m m' : Reference} {g : GrainId}
  {call : DirectoryCall} {e e' : DirectoryEntry}

theorem insertIfAbsent_of_places (hc : call.Places g)
    (h : reference ring active m call (.entry e) m') :
    ∃ fresh, InsertIfAbsent m g fresh e m' := by
  cases call with
  | register g' silo =>
    obtain rfl := hc
    exact ⟨fun s ↦ s = silo, h⟩
  | resolve g' placement caller =>
    obtain rfl := hc
    exact ⟨fun s ↦ placement.strategy.pickSilo g' caller (offered ring active) = some s, h⟩
  | _ => exact hc.elim

theorem reference_places (hc : call.Places g) (h : reference ring active m call (.entry e) m') :
    m' g = some e := by
  obtain ⟨fresh, -, rfl⟩ := insertIfAbsent_of_places hc h
  rw [Function.update_self]

theorem reference_present (hc : call.Places g) (h : reference ring active m call (.entry e') m')
    (hm : m g = some e) : e' = e := by
  obtain ⟨fresh, hp | ⟨hn, -⟩, -⟩ := insertIfAbsent_of_places hc h
  · exact Option.some.inj (hp.symm.trans hm)
  · exact absurd (hn.symm.trans hm) (by simp)

omit [StableHash] [SeededRandom] in
theorem InsertIfAbsent.keeps {k : GrainId} {fresh : SiloAddress → Prop}
    (h : InsertIfAbsent m k fresh e' m') (hm : m g = some e) : m' g = some e := by
  obtain ⟨hp, rfl⟩ := h
  by_cases hk : g = k
  · subst hk
    rw [Function.update_self]
    rcases hp with hp | ⟨hn, -⟩
    · exact hp.symm.trans hm
    · exact absurd (hn.symm.trans hm) (by simp)
  · rw [Function.update_of_ne hk, hm]

/-- Only an unregistration by its own silo removes an entry. -/
theorem reference_keeps {result : DirectoryResult} (h : reference ring active m call result m')
    (hm : m g = some e) (hc : call ≠ .unregister g e.silo) : m' g = some e := by
  cases call <;> cases result <;> simp only [reference] at h
  case register.entry => exact h.keeps hm
  case resolve.entry => exact h.keeps hm
  case lookup.found => exact h.2 ▸ hm
  case unregister.done g' silo =>
    obtain rfl := h
    by_cases hg : g = g'
    · subst hg
      have hs : e.silo ≠ silo := fun hs ↦ hc (by rw [hs])
      rw [Function.update_self, hm, Option.filter_some, if_pos (by simpa using hs)]
    · rw [Function.update_of_ne hg, hm]
  all_goals exact h.2.2 ▸ hm

/-- Between two effective unregistrations all callers get one entry. -/
theorem sequential_agrees {before mid after : List (DirectoryCall × DirectoryResult)}
    {call' : DirectoryCall}
    (h : Sequential (reference ring active) m
      (before ++ (call, .entry e) :: (mid ++ (call', .entry e') :: after)) m')
    (hc : call.Places g) (hc' : call'.Places g) (hmid : ∀ x ∈ mid, x.1 ≠ .unregister g e.silo) :
    e' = e := by
  obtain ⟨m₁, -, h⟩ := Sequential.append_iff.mp h
  cases h with
  | cons hplace h =>
    obtain ⟨m₂, hrun, h⟩ := Sequential.append_iff.mp h
    cases h with
    | cons hagain _ =>
      have hkept := hrun.invariant (P := fun m ↦ m g = some e) (reference_places hc hplace)
        (fun m op res m' hx hm hs ↦ reference_keeps hs hm (hmid _ hx))
      exact reference_present hc' hagain hkept

end Entries

/-- The directories of silos that share a ring and an active list act as one
map: every call takes effect on it at one point between its start and its end. -/
theorem directory_linearizable (ring : ConsistentHashRing) (active : List SiloAddress)
    (owned : SiloAddress → EntryTable) (epoch : SiloAddress → ℤ) (events : List (ClusterEvent Id))
    (s : DirectoryCluster Id) (h : exec step (.start ring active owned epoch) events = some s) :
    ∃ marks a, visible marks = history step shown (.start ring active owned epoch) events ∧
      AtomicRun (reference ring active)
        (.idle
          (together ring (DirectoryCluster.start ring active owned epoch : DirectoryCluster Id)))
          marks a ∧
      ∀ g before call e mid call' e' after,
        effects marks = before ++ (call, .entry e) :: (mid ++ (call', .entry e') :: after) →
        call.Places g → call'.Places g → (∀ x ∈ mid, x.1 ≠ .unregister g e.silo) → e' = e := by
  obtain ⟨marks, hvisible, hrun⟩ := exists_atomicRun h (wellRouted_start ring active owned epoch)
    (fun _ _ _ hs hstep ↦ simulates_step hs hstep)
  refine ⟨marks, _, hvisible, hrun, fun g before call e mid call' e' after heff hc hc' hmid ↦ ?_⟩
  have hseq := hrun.sequential
  rw [heff] at hseq
  exact sequential_agrees hseq hc hc' hmid

omit [StableHash] [SeededRandom]

def raceRing : ConsistentHashRing := .ofSilos [siloA, siloB] 1 Nat.one_pos

def raceStart : DirectoryCluster ℕ :=
  .start raceRing [siloA, siloB] (fun _ ↦ .empty) (fun _ ↦ 0)

def race : List (ClusterEvent ℕ) :=
  [.call 0 siloA (.register counter4 siloA), .call 1 siloB (.resolve counter4 .random none),
    .proceed 0, .proceed 1, .serve 0, .ret 0, .ret 1]

theorem race_runs :
    letI := sampleHash
    letI := sampleRandom
    (exec step raceStart race).isSome := by
  decide +kernel

theorem directory_linearizable_race :
    letI := sampleHash
    letI := sampleRandom
    (exec step raceStart race).isSome ∧
    ∃ marks a, visible marks = history step shown raceStart race ∧
      AtomicRun (reference raceRing [siloA, siloB])
      (.idle (together raceRing raceStart)) marks a := by
  let _ := sampleHash
  let _ := sampleRandom
  obtain ⟨s, hs⟩ := Option.isSome_iff_exists.mp race_runs
  obtain ⟨marks, a, hvisible, hrun, -⟩ := directory_linearizable _ _ _ _ race s hs
  exact ⟨race_runs, marks, a, hvisible, hrun⟩

end Pyleans.Linearizability
