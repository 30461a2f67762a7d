import Pyleans.Cluster.DirectoryRebuild
import Pyleans.Cluster.Placement

namespace Pyleans

open Library

inductive DirectoryError
  | clusterNotReady (message : String)
  | noSilosAvailable (message : String)
  | valueError (message : String)
deriving DecidableEq, Repr

/-- The partition of the directory that one silo holds. Every section of the
source under `self._lock` runs without an `await`, so the lock is always free
when it is asked for and each operation below is one atomic step. -/
structure DistributedGrainDirectory where
  localSilo : SiloAddress
  ring : ConsistentHashRing
  activeSilos : List SiloAddress
  owned : EntryTable
  epoch : ℤ
  rebuild : Option RebuildTask

namespace DistributedGrainDirectory

def init (localSilo : SiloAddress) (initialRing : ConsistentHashRing)
    (activeSilos : List SiloAddress) :
    DistributedGrainDirectory where
  localSilo := localSilo
  ring := initialRing
  activeSilos := activeSilos
  owned := .empty
  epoch := 0
  rebuild := none

section Local

def registerLocal (d : DistributedGrainDirectory) (g : GrainId) (silo : SiloAddress) :
    DirectoryEntry × DistributedGrainDirectory :=
  match d.owned.get g with
  | some existing => (existing, d)
  | none =>
    let entry : DirectoryEntry := ⟨g, silo, d.epoch + 1⟩
    (entry, { d with owned := d.owned.put entry, epoch := d.epoch + 1 })

def unregisterLocal (d : DistributedGrainDirectory) (g : GrainId) (silo : SiloAddress) :
    DistributedGrainDirectory :=
  match d.owned.get g with
  | none => d
  | some entry => if entry.silo ≠ silo then d else { d with owned := d.owned.pop g }

def placementCandidates (d : DistributedGrainDirectory) : List SiloAddress :=
  if d.activeSilos ≠ [] then d.activeSilos else d.ring.silos

def resolveOrActivateLocal (d : DistributedGrainDirectory) (g : GrainId)
    (placement : PlacementStrategy) (caller : Option SiloAddress) :
    Except DirectoryError (DirectoryEntry × DistributedGrainDirectory) :=
  match d.owned.get g with
  | some existing => .ok (existing, d)
  | none =>
    if d.placementCandidates = [] then
      .error (.clusterNotReady s!"cannot place {g.toStr}: active silo set is empty")
    else
      match placement.pickSilo g caller d.placementCandidates with
      | none => .error (.noSilosAvailable s!"cannot place grain {g.toStr}: no active silos")
      | some chosen =>
        let entry : DirectoryEntry := ⟨g, chosen, d.epoch + 1⟩
        .ok (entry, { d with owned := d.owned.put entry, epoch := d.epoch + 1 })

def applyRebuildEntries (d : DistributedGrainDirectory) (merged : EntryTable) :
    DistributedGrainDirectory :=
  { d with
    owned := d.owned.putAll merged
    epoch := (merged.items.map DirectoryEntry.activationEpoch).foldl max d.epoch }

def finishRebuild (d : DistributedGrainDirectory)
    (responses : SiloAddress → Option (List DirectoryEntry)) :
    DistributedGrainDirectory × List Loser :=
  match d.rebuild.bind (fun task ↦ task.run responses) with
  | none => ({ d with rebuild := none }, [])
  | some (merged, duplicates) => ({ d.applyRebuildEntries merged with rebuild := none }, duplicates)

/-- What the locked section of `on_membership_changed` leaves to do after it. -/
structure MembershipChange where
  handoffs : List (SiloAddress × DirectoryEntry)
  newArcs : List Arc
  peers : List SiloAddress
  existingSnapshot : EntryTable

/-- A rebuild that is still pending or running is cancelled by the next one. -/
def scheduleRebuild (d : DistributedGrainDirectory) (change : MembershipChange) :
    DistributedGrainDirectory :=
  if change.newArcs ≠ [] ∧ change.peers ≠ [] then
    { d with rebuild := some ⟨change.newArcs, change.peers, change.existingSnapshot⟩ }
  else d

end Local

variable [StableHash]

def ownerOfWithRing (g : GrainId) (ring : ConsistentHashRing) : Except DirectoryError SiloAddress :=
  match ring.ownerOf (hashGrainId g) with
  | none => .error (.clusterNotReady s!"cannot resolve owner for {g.toStr}: ring is empty")
  | some owner => .ok owner

def ownerOf (d : DistributedGrainDirectory) (g : GrainId) : Except DirectoryError SiloAddress :=
  ownerOfWithRing g d.ring

/-- Whether an operation was run here, or has to be sent to the owner. -/
inductive Routed (α : Type)
  | answered (result : α) (directory : DistributedGrainDirectory)
  | forwarded (owner : SiloAddress)

def register (d : DistributedGrainDirectory) (g : GrainId) (silo : SiloAddress) :
    Except DirectoryError (Routed DirectoryEntry) := do
  let owner ← d.ownerOf g
  if owner = d.localSilo then return .answered (d.registerLocal g silo).1 (d.registerLocal g silo).2
  else return .forwarded owner

def lookup (d : DistributedGrainDirectory) (g : GrainId) :
    Except DirectoryError (Routed (Option DirectoryEntry)) := do
  let owner ← d.ownerOf g
  if owner = d.localSilo then return .answered (d.owned.get g) d
  else return .forwarded owner

def unregister (d : DistributedGrainDirectory) (g : GrainId) (silo : SiloAddress) :
    Except DirectoryError (Routed Unit) := do
  let owner ← d.ownerOf g
  if owner = d.localSilo then return .answered () (d.unregisterLocal g silo)
  else return .forwarded owner

def recognisedPlacements : List String := ["RandomPlacement", "PreferLocalPlacement"]

def resolveOrActivate (d : DistributedGrainDirectory) (g : GrainId) (placement : PlacementStrategy)
    (caller : Option SiloAddress) : Except DirectoryError (Routed DirectoryEntry) := do
  let owner ← d.ownerOf g
  if owner = d.localSilo then
    let (entry, d') ← d.resolveOrActivateLocal g placement caller
    return .answered entry d'
  else if placement.className ∉ recognisedPlacements then
    .error (.valueError
      s!"placement strategy '{placement.className}' is not recognised by the directory")
  else return .forwarded owner

def collectHandoffs (localSilo : SiloAddress) (newRing : ConsistentHashRing) :
    List DirectoryEntry → Except DirectoryError (List (SiloAddress × DirectoryEntry))
  | [] => .ok []
  | entry :: entries => do
    let newOwner ← ownerOfWithRing entry.grainId newRing
    let handoffs ← collectHandoffs localSilo newRing entries
    return if newOwner ≠ localSilo then (newOwner, entry) :: handoffs else handoffs

/-- The locked section of `on_membership_changed`. The ring is already replaced
when the loop over the entries raises. -/
def changeRing (d : DistributedGrainDirectory) (active : List SiloAddress) :
    DistributedGrainDirectory × Except DirectoryError MembershipChange :=
  let newRing := if active ≠ [] then ConsistentHashRing.withDefaults active else d.ring
  let d' := { d with activeSilos := active, ring := newRing }
  match collectHandoffs d.localSilo newRing d.owned.items with
  | .error e => (d', .error e)
  | .ok handoffs =>
    let owned := (handoffs.map fun h ↦ h.2.grainId).foldl Table.pop d.owned
    ({ d' with owned := owned }, .ok
      { handoffs := handoffs
        newArcs := computeNewArcs (some d.ring) newRing d.localSilo
        peers := active.filter (fun s ↦ s ≠ d.localSilo)
        existingSnapshot := owned })

/-- `on_membership_changed` run alone, with the handoffs it gets onto the wire.
A send that fails is logged and swallowed. -/
def onMembershipChanged (d : DistributedGrainDirectory) (active : List SiloAddress)
    (reachable : SiloAddress → Bool) :
    DistributedGrainDirectory × Except DirectoryError (List (SiloAddress × DirectoryEntry)) :=
  match d.changeRing active with
  | (d', .error e) => (d', .error e)
  | (d', .ok change) =>
    (d'.scheduleRebuild change, .ok (change.handoffs.filter fun h ↦ reachable h.1))

/-- The receipt of a handoff. The loser of a conflict is told to stand down. -/
def applyHandoff (d : DistributedGrainDirectory) (incoming : DirectoryEntry) :
    Except DirectoryError (DistributedGrainDirectory × List Loser) := do
  let owner ← d.ownerOf incoming.grainId
  if owner ≠ d.localSilo then return (d, [])
  match d.owned.get incoming.grainId with
  | none =>
    return (
      { d with owned := d.owned.put incoming, epoch := max d.epoch incoming.activationEpoch }, [])
  | some existing =>
    if existing.activationEpoch ≤ incoming.activationEpoch then return (d, [loserOf incoming])
    else
      return (
        { d with owned := d.owned.put incoming, epoch := max d.epoch incoming.activationEpoch },
        [loserOf existing])

section

omit [StableHash]

@[simp] theorem scheduleRebuild_owned (d : DistributedGrainDirectory) (change : MembershipChange) :
    (d.scheduleRebuild change).owned = d.owned := by
  unfold scheduleRebuild
  split_ifs <;> rfl

@[simp] theorem scheduleRebuild_ring (d : DistributedGrainDirectory) (change : MembershipChange) :
    (d.scheduleRebuild change).ring = d.ring := by
  unfold scheduleRebuild
  split_ifs <;> rfl

@[simp] theorem scheduleRebuild_activeSilos (d : DistributedGrainDirectory)
    (change : MembershipChange) :
    (d.scheduleRebuild change).activeSilos = d.activeSilos := by
  unfold scheduleRebuild
  split_ifs <;> rfl

@[simp] theorem scheduleRebuild_localSilo (d : DistributedGrainDirectory)
    (change : MembershipChange) :
    (d.scheduleRebuild change).localSilo = d.localSilo := by
  unfold scheduleRebuild
  split_ifs <;> rfl

theorem registerLocal_static (d : DistributedGrainDirectory) (g : GrainId) (silo : SiloAddress) :
    (d.registerLocal g silo).2.ring = d.ring ∧ (d.registerLocal g silo).2.localSilo = d.localSilo ∧
      (d.registerLocal g silo).2.rebuild = d.rebuild ∧
      (d.registerLocal g silo).2.activeSilos = d.activeSilos := by
  unfold registerLocal
  split <;> exact ⟨rfl, rfl, rfl, rfl⟩

theorem unregisterLocal_static (d : DistributedGrainDirectory) (g : GrainId) (silo : SiloAddress) :
    (d.unregisterLocal g silo).ring = d.ring ∧ (d.unregisterLocal g silo).localSilo = d.localSilo ∧
      (d.unregisterLocal g silo).rebuild = d.rebuild ∧
      (d.unregisterLocal g silo).activeSilos = d.activeSilos := by
  unfold unregisterLocal
  split
  · exact ⟨rfl, rfl, rfl, rfl⟩
  · split_ifs <;> exact ⟨rfl, rfl, rfl, rfl⟩

theorem registerLocal_get (d : DistributedGrainDirectory) (g k : GrainId) (silo : SiloAddress) :
    (d.registerLocal g silo).2.owned.get k =
      if k = g then some (d.registerLocal g silo).1 else d.owned.get k := by
  unfold registerLocal
  split
  · next e h =>
    split_ifs with hk
    · rw [hk, h]
    · rfl
  · simp only [Table.get_put]

theorem unregisterLocal_get (d : DistributedGrainDirectory) (g k : GrainId) (silo : SiloAddress) :
    (d.unregisterLocal g silo).owned.get k =
      if k = g then (d.owned.get k).filter (fun e ↦ e.silo ≠ silo) else d.owned.get k := by
  unfold unregisterLocal
  split
  · next h =>
    split_ifs with hk
    · rw [hk, h, Option.filter_none]
    · rfl
  · next e h =>
    by_cases hs : e.silo = silo <;> by_cases hk : k = g <;>
      simp [hs, hk, h, Table.get_pop, Option.filter_some]

theorem resolveOrActivateLocal_cases {d d' : DistributedGrainDirectory} {g : GrainId}
    {placement : PlacementStrategy} {caller : Option SiloAddress} {e : DirectoryEntry}
    (h : d.resolveOrActivateLocal g placement caller = .ok (e, d')) :
    (d.owned.get g = some e ∧ d' = d) ∨
    (d.owned.get g = none ∧ e.grainId = g ∧ e.activationEpoch = d.epoch + 1 ∧
      placement.pickSilo g caller d.placementCandidates = some e.silo ∧
      d' = { d with owned := d.owned.put e, epoch := d.epoch + 1 }) := by
  unfold resolveOrActivateLocal at h
  split at h
  · next e' he =>
    obtain ⟨rfl, rfl⟩ := Prod.mk.inj (Except.ok.inj h)
    exact .inl ⟨he, rfl⟩
  · next he =>
    split_ifs at h
    split at h
    · cases h
    · next s hs =>
      obtain ⟨rfl, rfl⟩ := Prod.mk.inj (Except.ok.inj h)
      exact .inr ⟨he, rfl, rfl, hs, rfl⟩

theorem resolveOrActivateLocal_static {d d' : DistributedGrainDirectory} {g : GrainId}
    {placement : PlacementStrategy} {caller : Option SiloAddress} {e : DirectoryEntry}
    (h : d.resolveOrActivateLocal g placement caller = .ok (e, d')) :
    d'.ring = d.ring ∧ d'.localSilo = d.localSilo ∧ d'.rebuild = d.rebuild ∧
      d'.activeSilos = d.activeSilos := by
  rcases resolveOrActivateLocal_cases h with ⟨-, rfl⟩ | ⟨-, -, -, -, rfl⟩ <;>
    exact ⟨rfl, rfl, rfl, rfl⟩

theorem resolveOrActivateLocal_get {d d' : DistributedGrainDirectory} {g : GrainId}
    {placement : PlacementStrategy} {caller : Option SiloAddress} {e : DirectoryEntry}
    (h : d.resolveOrActivateLocal g placement caller = .ok (e, d')) (k : GrainId) :
    d'.owned.get k = if k = g then some e else d.owned.get k := by
  rcases resolveOrActivateLocal_cases h with ⟨he, rfl⟩ | ⟨-, rfl, -, -, rfl⟩
  · split_ifs with hk
    · rw [hk, he]
    · rfl
  · exact Table.get_put _ _ _

theorem exists_resolveOrActivateLocal {d : DistributedGrainDirectory}
    (hd : d.placementCandidates ≠ []) (g : GrainId) (placement : PlacementStrategy)
    (caller : Option SiloAddress) :
    ∃ e d', d.resolveOrActivateLocal g placement caller = .ok (e, d') := by
  unfold resolveOrActivateLocal
  cases he : d.owned.get g with
  | some e => exact ⟨e, d, rfl⟩
  | none =>
    obtain ⟨s, hs⟩ := Option.isSome_iff_exists.mp (placement.pick_isSome g caller _ hd)
    simp only [if_neg hd, hs]
    exact ⟨_, _, rfl⟩

def NamesSilo (d : DistributedGrainDirectory) (g : GrainId) (silo : SiloAddress) : Prop :=
  ∃ e ∈ d.owned.get g, e.silo = silo

instance (d : DistributedGrainDirectory) (g : GrainId) (silo : SiloAddress) :
    Decidable (d.NamesSilo g silo) :=
  inferInstanceAs (Decidable (∃ e ∈ d.owned.get g, e.silo = silo))

theorem resolveOrActivateLocal_names {d d' : DistributedGrainDirectory} {g : GrainId}
    {placement : PlacementStrategy} {caller : Option SiloAddress} {e : DirectoryEntry}
    (h : d.resolveOrActivateLocal g placement caller = .ok (e, d')) {k : GrainId}
    {silo : SiloAddress} (hk : d.NamesSilo k silo) : d'.NamesSilo k silo := by
  obtain ⟨e', he', hs⟩ := hk
  refine ⟨e', ?_, hs⟩
  rw [Option.mem_def] at he' ⊢
  rw [resolveOrActivateLocal_get h]
  split_ifs with hkg
  · subst hkg
    rcases resolveOrActivateLocal_cases h with ⟨he, -⟩ | ⟨hn, -⟩
    · rw [← he, he']
    · rw [hn] at he'
      cases he'
  · exact he'

theorem unregisterLocal_names {d : DistributedGrainDirectory} {g k : GrainId} {silo t : SiloAddress}
    (hk : d.NamesSilo k t) (hne : k = g → t ≠ silo) : (d.unregisterLocal g silo).NamesSilo k t := by
  obtain ⟨e, he, rfl⟩ := hk
  refine ⟨e, ?_, rfl⟩
  rw [Option.mem_def] at he ⊢
  rw [unregisterLocal_get]
  split_ifs with hkg
  · rw [he, Option.filter_some, if_pos (by simpa using hne hkg)]
  · exact he

theorem applyRebuildEntries_get (d : DistributedGrainDirectory) (merged : EntryTable)
    (k : GrainId) :
    (d.applyRebuildEntries merged).owned.get k = (merged.get k).or (d.owned.get k) :=
  Table.get_putAll _ _ _

end

theorem ownerOfWithRing_ok_iff {g : GrainId} {ring : ConsistentHashRing} {s : SiloAddress} :
    ownerOfWithRing g ring = .ok s ↔ ring.ownerOf (hashGrainId g) = some s := by
  unfold ownerOfWithRing
  split <;> simp_all

theorem applyHandoff_cases {d d' : DistributedGrainDirectory} {incoming : DirectoryEntry}
    {losers : List Loser} (h : d.applyHandoff incoming = .ok (d', losers)) :
    (d.ownerOf incoming.grainId ≠ .ok d.localSilo ∧ d' = d ∧ losers = []) ∨
    (d.ownerOf incoming.grainId = .ok d.localSilo ∧
      ((∃ existing, d.owned.get incoming.grainId = some existing ∧
          existing.activationEpoch ≤ incoming.activationEpoch ∧
            d' = d ∧ losers = [loserOf incoming]) ∨
        ((∀ existing, d.owned.get incoming.grainId = some existing →
            incoming.activationEpoch < existing.activationEpoch) ∧
          d' = { d with
            owned := d.owned.put incoming, epoch := max d.epoch incoming.activationEpoch } ∧
          losers = (d.owned.get incoming.grainId).toList.map loserOf))) := by
  unfold applyHandoff at h
  cases ho : d.ownerOf incoming.grainId with
  | error e => simp [ho, bind, Except.bind] at h
  | ok owner =>
    simp only [ho, bind, Except.bind] at h
    split_ifs at h with hl
    · simp only [pure, Except.pure, Except.ok.injEq, Prod.mk.injEq] at h
      exact .inl ⟨fun he ↦ hl (Except.ok.inj he), h.1.symm, h.2.symm⟩
    · obtain rfl := not_not.mp hl
      cases hg : d.owned.get incoming.grainId with
      | none =>
        simp only [hg, pure, Except.pure, Except.ok.injEq, Prod.mk.injEq] at h
        exact .inr ⟨rfl, .inr ⟨by simp, h.1.symm, h.2.symm⟩⟩
      | some existing =>
        simp only [hg] at h
        split_ifs at h with hle
        · simp only [pure, Except.pure, Except.ok.injEq, Prod.mk.injEq] at h
          exact .inr ⟨rfl, .inl ⟨existing, rfl, hle, h.1.symm, h.2.symm⟩⟩
        · simp only [pure, Except.pure, Except.ok.injEq, Prod.mk.injEq] at h
          exact .inr ⟨rfl, .inr ⟨fun e he ↦ Option.some.inj he ▸ not_le.mp hle, h.1.symm, h.2.symm⟩⟩

theorem exists_applyHandoff {d : DistributedGrainDirectory} {incoming : DirectoryEntry}
    {o : SiloAddress} (ho : d.ownerOf incoming.grainId = .ok o) :
    ∃ d' losers, d.applyHandoff incoming = .ok (d', losers) := by
  simp only [applyHandoff, ho, bind, Except.bind]
  split
  · exact ⟨_, _, rfl⟩
  · split
    · exact ⟨_, _, rfl⟩
    · split <;> exact ⟨_, _, rfl⟩

theorem applyHandoff_static {d d' : DistributedGrainDirectory} {incoming : DirectoryEntry}
    {losers : List Loser} (h : d.applyHandoff incoming = .ok (d', losers)) :
    d'.ring = d.ring ∧ d'.localSilo = d.localSilo ∧ d'.rebuild = d.rebuild ∧
      d'.activeSilos = d.activeSilos := by
  rcases applyHandoff_cases h with ⟨-, rfl, -⟩ | ⟨-, ⟨e, -, -, rfl, -⟩ | ⟨-, rfl, -⟩⟩ <;>
    exact ⟨rfl, rfl, rfl, rfl⟩

theorem applyHandoff_get_of_ne {d d' : DistributedGrainDirectory} {incoming : DirectoryEntry}
    {losers : List Loser} (h : d.applyHandoff incoming = .ok (d', losers)) {k : GrainId}
    (hk : k ≠ incoming.grainId) : d'.owned.get k = d.owned.get k := by
  rcases applyHandoff_cases h with ⟨-, rfl, -⟩ | ⟨-, ⟨e, -, -, rfl, -⟩ | ⟨-, rfl, -⟩⟩
  · rfl
  · rfl
  · simp only [Table.get_put, if_neg hk]

def handoffOf (localSilo : SiloAddress) (newRing : ConsistentHashRing) (entry : DirectoryEntry) :
    Option (SiloAddress × DirectoryEntry) :=
  (newRing.ownerOf (hashGrainId entry.grainId)).bind fun newOwner ↦
    if newOwner ≠ localSilo then some (newOwner, entry) else none

theorem handoffOf_eq_some_iff {localSilo o : SiloAddress} {newRing : ConsistentHashRing}
    {entry e : DirectoryEntry} :
    handoffOf localSilo newRing entry = some (o, e) ↔
      e = entry ∧ newRing.ownerOf (hashGrainId e.grainId) = some o ∧ o ≠ localSilo := by
  unfold handoffOf
  cases h : newRing.ownerOf (hashGrainId entry.grainId) with
  | none => aesop
  | some s => aesop

theorem collectHandoffs_eq (localSilo : SiloAddress) {newRing : ConsistentHashRing}
    (hr : newRing.silos ≠ []) (entries : List DirectoryEntry) :
    collectHandoffs localSilo newRing entries =
      .ok (entries.filterMap (handoffOf localSilo newRing)) := by
  induction entries with
  | nil => rfl
  | cons e es ih =>
    obtain ⟨s, hs⟩ := ConsistentHashRing.exists_ownerOf hr (hashGrainId e.grainId)
    rw [collectHandoffs, ih, ownerOfWithRing_ok_iff.mpr hs]
    by_cases h : s = localSilo <;>
      simp [h, handoffOf, hs, bind, Except.bind, pure, Except.pure]

def handoffsFor (d : DistributedGrainDirectory) (active : List SiloAddress) :
    List (SiloAddress × DirectoryEntry) :=
  d.owned.items.filterMap (handoffOf d.localSilo (.withDefaults active))

theorem mem_handoffsFor {d : DistributedGrainDirectory} {active : List SiloAddress}
    {o : SiloAddress} {e : DirectoryEntry} : (o, e) ∈ d.handoffsFor active ↔ e ∈ d.owned.items ∧
      (ConsistentHashRing.withDefaults active).ownerOf (hashGrainId e.grainId) = some o ∧
      o ≠ d.localSilo := by
  simp only [handoffsFor, List.mem_filterMap, handoffOf_eq_some_iff]
  constructor
  · rintro ⟨e', he, rfl, ho, hn⟩
    exact ⟨he, ho, hn⟩
  · rintro ⟨he, ho, hn⟩
    exact ⟨e, he, rfl, ho, hn⟩

def keptAfter (d : DistributedGrainDirectory) (active : List SiloAddress) : EntryTable :=
  ((d.handoffsFor active).map fun h ↦ h.2.grainId).foldl Table.pop d.owned

theorem keptAfter_get {d : DistributedGrainDirectory} {active : List SiloAddress} (ha : active ≠ [])
    (g : GrainId) : (d.keptAfter active).get g = (d.owned.get g).filter
      (fun _ ↦ (ConsistentHashRing.withDefaults active).ownerOf (hashGrainId g) =
        some d.localSilo) := by
  obtain ⟨o, ho⟩ := ConsistentHashRing.exists_ownerOf
    (ConsistentHashRing.withDefaults_silos_ne_nil ha) (hashGrainId g)
  rw [keptAfter, Table.get_foldl_pop]
  cases hg : d.owned.get g with
  | none => simp
  | some e =>
    obtain rfl := Table.key_of_get hg
    have hm : e.grainId ∈ (d.handoffsFor active).map (fun h ↦ h.2.grainId) ↔ o ≠ d.localSilo := by
      simp only [List.mem_map, Prod.exists, mem_handoffsFor]
      constructor
      · rintro ⟨o', e', ⟨-, ho', hn⟩, he⟩
        rw [he, ho] at ho'
        exact Option.some.inj ho' ▸ hn
      · exact fun hn ↦ ⟨o, e, ⟨Table.mem_of_get hg, ho, hn⟩, rfl⟩
    by_cases h : o = d.localSilo <;> simp [hm, h, ho, Option.filter_some]

theorem changeRing_eq (d : DistributedGrainDirectory) {active : List SiloAddress}
    (ha : active ≠ []) :
    d.changeRing active =
      ({ d with activeSilos := active, ring := .withDefaults active, owned := d.keptAfter active },
        .ok
        { handoffs := d.handoffsFor active
          newArcs := computeNewArcs (some d.ring) (.withDefaults active) d.localSilo
          peers := active.filter (fun s ↦ s ≠ d.localSilo)
          existingSnapshot := d.keptAfter active }) := by
  simp only [changeRing, if_pos ha,
    collectHandoffs_eq _ (ConsistentHashRing.withDefaults_silos_ne_nil ha)]
  rfl

theorem changeRing_activeSilos (d : DistributedGrainDirectory) (active : List SiloAddress) :
    (d.changeRing active).1.activeSilos = active := by
  simp only [changeRing]
  split <;> rfl

theorem onMembershipChanged_ok (d : DistributedGrainDirectory) {active : List SiloAddress}
    (ha : active ≠ []) (reachable : SiloAddress → Bool) :
    ∃ d', d.onMembershipChanged active reachable =
        (d', .ok ((d.handoffsFor active).filter fun h ↦ reachable h.1)) ∧
      d'.owned = d.keptAfter active ∧ d'.ring = .withDefaults active ∧ d'.activeSilos = active ∧
      d'.localSilo = d.localSilo := by
  simp only [onMembershipChanged, changeRing_eq d ha]
  refine ⟨_, rfl, ?_⟩
  simp only [scheduleRebuild_owned, scheduleRebuild_ring, scheduleRebuild_activeSilos,
    scheduleRebuild_localSilo, and_self]

theorem handoffsFor_filter (d : DistributedGrainDirectory) (active : List SiloAddress)
    (g : GrainId) :
    (d.handoffsFor active).filter (fun h ↦ h.2.grainId = g) =
      ((d.owned.get g).bind (handoffOf d.localSilo (.withDefaults active))).toList := by
  have hf : ∀ entries : List DirectoryEntry,
      (entries.filterMap (handoffOf d.localSilo (.withDefaults active))).filter
        (fun h ↦ h.2.grainId = g) =
        (entries.filter (fun e ↦ e.grainId = g)).filterMap
          (handoffOf d.localSilo (.withDefaults active)) := by
    intro entries
    induction entries with
    | nil => rfl
    | cons e es ih =>
      cases hh : handoffOf d.localSilo (.withDefaults active) e with
      | none => by_cases hg : e.grainId = g <;> simp [hh, hg, ih]
      | some h =>
        obtain ⟨rfl, -, -⟩ := handoffOf_eq_some_iff.mp (show _ = some (h.1, h.2) from hh)
        by_cases hg : h.2.grainId = g <;> simp [hh, hg, ih]
  rw [handoffsFor, hf, Table.filter_key]
  cases d.owned.get g with
  | none => rfl
  | some e => cases hh : handoffOf d.localSilo (.withDefaults active) e <;> simp [hh]

end DistributedGrainDirectory

end Pyleans
