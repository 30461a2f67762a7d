import Pyleans.Cluster.DistributedDirectory
import Pyleans.Library.Transition

namespace Pyleans

open Library

/-- What one silo's directory is asked to do: by its own runtime, or (`recv`)
by a message of a peer. -/
inductive DirectoryOp
  | register (g : GrainId) (silo : SiloAddress)
  | lookup (g : GrainId)
  | unregister (g : GrainId) (silo : SiloAddress)
  | resolveOrActivate (g : GrainId) (placement : PlacementStrategy) (caller : Option SiloAddress)
  | recvRegister (g : GrainId) (silo : SiloAddress)
  | recvLookup (g : GrainId)
  | recvUnregister (g : GrainId) (silo : SiloAddress)
  | recvResolve (g : GrainId) (placementClass : String) (caller : Option SiloAddress)
  | recvHandoff (entry : DirectoryEntry)

namespace DistributedGrainDirectory

variable [StableHash] [SeededRandom]

def placementOfClass (name : String) : Option PlacementStrategy :=
  if name = "RandomPlacement" then some randomPlacement
  else if name = "PreferLocalPlacement" then some preferLocalPlacement
  else none

/-- The grain for which an inbound request writes an entry if there is none. -/
def claimed : DirectoryOp → Option GrainId
  | .recvRegister g _ => some g
  | .recvResolve g placementClass _ => (placementOfClass placementClass).map fun _ ↦ g
  | _ => none

def afterRouted {α : Type} (d : DistributedGrainDirectory) (r : Except DirectoryError (Routed α)) :
    DistributedGrainDirectory :=
  match r with
  | .ok (.answered _ d') => d'
  | _ => d

/-- The directory after an operation. One that raises, or that is sent on to
the owner, leaves it as it was. An inbound request is served without a look at
the ring. -/
def handle (d : DistributedGrainDirectory) : DirectoryOp → DistributedGrainDirectory
  | .register g silo => d.afterRouted (d.register g silo)
  | .lookup g => d.afterRouted (d.lookup g)
  | .unregister g silo => d.afterRouted (d.unregister g silo)
  | .resolveOrActivate g placement caller => d.afterRouted (d.resolveOrActivate g placement caller)
  | .recvRegister g silo => (d.registerLocal g silo).2
  | .recvLookup _ => d
  | .recvUnregister g silo => d.unregisterLocal g silo
  | .recvResolve g placementClass caller =>
    match placementOfClass placementClass with
    | none => d
    | some placement =>
      match d.resolveOrActivateLocal g placement caller with
      | .error _ => d
      | .ok (_, d') => d'
  | .recvHandoff entry =>
    match d.applyHandoff entry with
    | .error _ => d
    | .ok (d', _) => d'

omit [SeededRandom] in
theorem afterRouted_register (d : DistributedGrainDirectory) (g : GrainId) (silo : SiloAddress) :
    d.afterRouted (d.register g silo) =
      if d.ownerOf g = .ok d.localSilo then (d.registerLocal g silo).2 else d := by
  unfold register
  cases ho : d.ownerOf g with
  | error e => rfl
  | ok o =>
    by_cases h : o = d.localSilo <;> simp [afterRouted, h, bind, Except.bind, pure, Except.pure]

omit [SeededRandom] in
theorem afterRouted_lookup (d : DistributedGrainDirectory) (g : GrainId) :
    d.afterRouted (d.lookup g) = d := by
  unfold lookup
  cases ho : d.ownerOf g with
  | error e => rfl
  | ok o =>
    by_cases h : o = d.localSilo <;> simp [afterRouted, h, bind, Except.bind, pure, Except.pure]

omit [SeededRandom] in
theorem afterRouted_unregister (d : DistributedGrainDirectory) (g : GrainId) (silo : SiloAddress) :
    d.afterRouted (d.unregister g silo) =
      if d.ownerOf g = .ok d.localSilo then d.unregisterLocal g silo else d := by
  unfold unregister
  cases ho : d.ownerOf g with
  | error e => rfl
  | ok o =>
    by_cases h : o = d.localSilo <;> simp [afterRouted, h, bind, Except.bind, pure, Except.pure]

omit [SeededRandom] in
theorem afterRouted_resolveOrActivate (d : DistributedGrainDirectory) (g : GrainId)
    (placement : PlacementStrategy) (caller : Option SiloAddress) :
    d.afterRouted (d.resolveOrActivate g placement caller) = d ∨
    d.ownerOf g = .ok d.localSilo ∧ ∃ e, d.resolveOrActivateLocal g placement caller =
      .ok (e, d.afterRouted (d.resolveOrActivate g placement caller)) := by
  unfold resolveOrActivate
  cases ho : d.ownerOf g with
  | error e => exact .inl rfl
  | ok o =>
    by_cases h : o = d.localSilo
    · cases hr : d.resolveOrActivateLocal g placement caller with
      | error e => exact .inl (by simp [afterRouted, h, bind, Except.bind])
      | ok r =>
        obtain ⟨e, d'⟩ := r
        exact .inr ⟨by rw [h], e, by simp [afterRouted, h, bind, Except.bind, pure, Except.pure]⟩
    · left
      by_cases hp : placement.className ∈ recognisedPlacements <;>
        simp [afterRouted, h, hp, bind, Except.bind, pure, Except.pure]

omit [SeededRandom] in
theorem resolveOrActivate_answered {d d' : DistributedGrainDirectory} {g : GrainId}
    {placement : PlacementStrategy} {caller : Option SiloAddress} {e : DirectoryEntry}
    (h : d.resolveOrActivate g placement caller = .ok (.answered e d')) :
    d.resolveOrActivateLocal g placement caller = .ok (e, d') := by
  unfold resolveOrActivate at h
  cases ho : d.ownerOf g with
  | error error => simp [ho, bind, Except.bind] at h
  | ok o =>
    cases hr : d.resolveOrActivateLocal g placement caller with
    | error error =>
      simp only [ho, hr, bind, Except.bind] at h
      split_ifs at h
      cases h
    | ok r =>
      simp only [ho, hr, bind, Except.bind, pure, Except.pure] at h
      split_ifs at h
      · obtain ⟨rfl, rfl⟩ := Routed.answered.inj (Except.ok.inj h)
        rfl
      · cases h

omit [SeededRandom] in
theorem unregister_answered {d d' : DistributedGrainDirectory} {g : GrainId} {silo : SiloAddress}
    (h : d.unregister g silo = .ok (.answered () d')) : d' = d.unregisterLocal g silo := by
  unfold unregister at h
  cases ho : d.ownerOf g with
  | error error => simp [ho, bind, Except.bind] at h
  | ok o =>
    simp only [ho, bind, Except.bind, pure, Except.pure] at h
    split_ifs at h
    · exact (Routed.answered.inj (Except.ok.inj h)).2.symm
    · cases h

theorem handle_recvResolve (d : DistributedGrainDirectory) (g : GrainId) (placementClass : String)
    (caller : Option SiloAddress) : d.handle (.recvResolve g placementClass caller) = d ∨
      ∃ placement e, placementOfClass placementClass = some placement ∧
        d.resolveOrActivateLocal g placement caller =
          .ok (e, d.handle (.recvResolve g placementClass caller)) := by
  simp only [handle]
  split
  · exact .inl rfl
  · next placement hplacement =>
    split
    · exact .inl rfl
    · next e d' h => exact .inr ⟨placement, e, hplacement, h⟩

theorem handle_recvHandoff (d : DistributedGrainDirectory) (entry : DirectoryEntry) :
    d.handle (.recvHandoff entry) = d ∨
      ∃ losers, d.applyHandoff entry = .ok (d.handle (.recvHandoff entry), losers) := by
  simp only [handle]
  split
  · exact .inl rfl
  · next d' losers h => exact .inr ⟨losers, h⟩

theorem handle_static (d : DistributedGrainDirectory) (op : DirectoryOp) :
    (d.handle op).ring = d.ring ∧ (d.handle op).localSilo = d.localSilo ∧
      (d.handle op).rebuild = d.rebuild ∧ (d.handle op).activeSilos = d.activeSilos := by
  cases op with
  | register g silo =>
    simp only [handle, afterRouted_register]
    split_ifs
    · exact registerLocal_static d g silo
    · exact ⟨rfl, rfl, rfl, rfl⟩
  | lookup g => simp only [handle, afterRouted_lookup, and_self]
  | unregister g silo =>
    simp only [handle, afterRouted_unregister]
    split_ifs
    · exact unregisterLocal_static d g silo
    · exact ⟨rfl, rfl, rfl, rfl⟩
  | resolveOrActivate g placement caller =>
    rcases afterRouted_resolveOrActivate d g placement caller with h | ⟨-, e, h⟩
    · simp only [handle, h, and_self]
    · exact resolveOrActivateLocal_static h
  | recvRegister g silo => exact registerLocal_static d g silo
  | recvLookup g => exact ⟨rfl, rfl, rfl, rfl⟩
  | recvUnregister g silo => exact unregisterLocal_static d g silo
  | recvResolve g placementClass caller =>
    rcases handle_recvResolve d g placementClass caller with h | ⟨placement, e, -, h⟩
    · simp only [h, and_self]
    · exact resolveOrActivateLocal_static h
  | recvHandoff entry =>
    rcases handle_recvHandoff d entry with h | ⟨losers, h⟩
    · simp only [h, and_self]
    · exact applyHandoff_static h

/-- A grain gets an entry only where the ring places it, or on an inbound
request that nobody checked. -/
theorem handle_new {d : DistributedGrainDirectory} {op : DirectoryOp} {k : GrainId}
    (h : (d.handle op).owned.get k ≠ none) :
    d.owned.get k ≠ none ∨ d.ownerOf k = .ok d.localSilo ∨ claimed op = some k := by
  by_cases hk : d.owned.get k = none
  · right
    cases op with
    | register g silo =>
      simp only [handle, afterRouted_register] at h
      split_ifs at h with ho
      · rw [registerLocal_get] at h
        by_cases hg : k = g
        · exact .inl (hg ▸ ho)
        · exact absurd hk (by simpa only [if_neg hg] using h)
      · exact absurd hk h
    | lookup g => exact absurd hk (by simpa only [handle, afterRouted_lookup] using h)
    | unregister g silo =>
      simp only [handle, afterRouted_unregister] at h
      split_ifs at h with ho
      · rw [unregisterLocal_get, hk, Option.filter_none, ite_self] at h
        exact absurd rfl h
      · exact absurd hk h
    | resolveOrActivate g placement caller =>
      rcases afterRouted_resolveOrActivate d g placement caller with hd | ⟨ho, e, hd⟩
      · exact absurd hk (by simpa only [handle, hd] using h)
      · simp only [handle, resolveOrActivateLocal_get hd] at h
        by_cases hg : k = g
        · exact .inl (hg ▸ ho)
        · exact absurd hk (by simpa only [if_neg hg] using h)
    | recvRegister g silo =>
      simp only [handle, registerLocal_get] at h
      by_cases hg : k = g
      · exact .inr (hg ▸ rfl)
      · exact absurd hk (by simpa only [if_neg hg] using h)
    | recvLookup g => exact absurd hk h
    | recvUnregister g silo =>
      simp only [handle, unregisterLocal_get, hk, Option.filter_none, ite_self] at h
      exact absurd rfl h
    | recvResolve g placementClass caller =>
      rcases handle_recvResolve d g placementClass caller with hd | ⟨placement, e, hplacement, hd⟩
      · exact absurd hk (hd ▸ h)
      · rw [resolveOrActivateLocal_get hd] at h
        by_cases hg : k = g
        · exact .inr (by rw [claimed, hplacement, hg, Option.map_some])
        · exact absurd hk (by simpa only [if_neg hg] using h)
    | recvHandoff entry =>
      rcases handle_recvHandoff d entry with hd | ⟨losers, hd⟩
      · exact absurd hk (hd ▸ h)
      · rcases applyHandoff_cases hd with ⟨-, hd', -⟩ | ⟨ho, ⟨e, -, -, hd', -⟩ | ⟨-, hd', -⟩⟩
        · exact absurd hk (hd' ▸ h)
        · exact absurd hk (hd' ▸ h)
        · rw [hd'] at h
          simp only [Table.get_put] at h
          by_cases hg : k = entry.grainId
          · exact .inl (hg ▸ ho)
          · exact absurd hk (by simpa only [if_neg hg] using h)
  · exact .inl hk

end DistributedGrainDirectory

end Pyleans
