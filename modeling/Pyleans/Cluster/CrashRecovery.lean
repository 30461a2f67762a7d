import Pyleans.Cluster.Reconciliation

namespace Pyleans.CrashRecovery

open Library DistributedGrainDirectory

/-- Every entry names a hosting silo among `active`. -/
def HostsAmong (active : List SiloAddress) (entries : EntryTable) : Prop :=
  ∀ e ∈ entries.items, e.silo ∈ active

theorem hostsAmong_iff {active : List SiloAddress} {entries : EntryTable} :
    HostsAmong active entries ↔ ∀ g e, entries.get g = some e → e.silo ∈ active :=
  ⟨fun h _ _ he ↦ h _ (Table.mem_of_get he), fun h e he ↦ h e.grainId e (Table.get_of_mem he)⟩

theorem HostsAmong.finishRebuild {active : List SiloAddress} {d : DistributedGrainDirectory}
    (h : HostsAmong active d.owned) {responses : SiloAddress → Option (List DirectoryEntry)}
    (hr : ∀ task ∈ d.rebuild, ∀ e ∈ task.existingEntries.items ++
      collectCandidates task.peers responses,
      e.silo ∈ active) : HostsAmong active (d.finishRebuild responses).1.owned := by
  rw [hostsAmong_iff] at h ⊢
  intro g e he
  rcases Reconciliation.finishRebuild_get he with he | ⟨task, htask, he⟩
  · exact h g e he
  · exact hr task htask e he

theorem HostsAmong.resolveOrActivateLocal {active : List SiloAddress}
    {d d' : DistributedGrainDirectory} (h : HostsAmong active d.owned)
    (ha : ∀ s ∈ d.placementCandidates, s ∈ active) {g : GrainId} {placement : PlacementStrategy}
    {caller : Option SiloAddress} {entry : DirectoryEntry}
    (hr : d.resolveOrActivateLocal g placement caller = .ok (entry, d')) : entry.silo ∈ active := by
  rcases resolveOrActivateLocal_cases hr with ⟨he, -⟩ | ⟨-, -, -, hp, -⟩
  · exact hostsAmong_iff.mp h g entry he
  · exact ha _ (placement.pick_mem _ _ _ _ hp)

variable [StableHash]

/-- The entries that stay when the ring becomes that of `active` name no host
outside it. -/
def KeptHostsAmong (active : List SiloAddress) (d : DistributedGrainDirectory) : Prop :=
  ∀ e ∈ d.owned.items, (ConsistentHashRing.withDefaults active).ownerOf (hashGrainId e.grainId) =
    some d.localSilo → e.silo ∈ active

theorem hostsAmong_keptAfter_iff (d : DistributedGrainDirectory) {active : List SiloAddress}
    (ha : active ≠ []) : HostsAmong active (d.keptAfter active) ↔ KeptHostsAmong active d := by
  rw [hostsAmong_iff]
  constructor
  · intro h e he ho
    refine h e.grainId e ?_
    rw [keptAfter_get ha, Table.get_of_mem he, Option.filter_some, if_pos (by simpa using ho)]
  · intro h g e he
    rw [keptAfter_get ha, Option.filter_eq_some_iff] at he
    obtain rfl := Table.key_of_get he.1
    exact h e (Table.mem_of_get he.1) (by simpa using he.2)

/-- After a membership change the directory names live hosts only, and every
resolution on the owner answers with one, exactly when no entry that stays
names a host that is gone. -/
theorem crash_recovery_iff (d : DistributedGrainDirectory) (active : List SiloAddress)
    (ha : active ≠ []) (reachable : SiloAddress → Bool) :
    ((∀ e ∈ (d.onMembershipChanged active reachable).1.owned.items, e.silo ∈ active) ∧
      ∀ (g : GrainId) (placement : PlacementStrategy) (caller : Option SiloAddress),
        (d.onMembershipChanged active reachable).1.ownerOf g =
          .ok (d.onMembershipChanged active reachable).1.localSilo →
        ∃ entry d', (d.onMembershipChanged active reachable).1.resolveOrActivate g
          placement caller =
          .ok (.answered entry d') ∧ entry.silo ∈ active) ↔
    KeptHostsAmong active d := by
  obtain ⟨d', hd', howned, -, hactive, -⟩ := onMembershipChanged_ok d ha reachable
  rw [hd', ← hostsAmong_keptAfter_iff d ha, ← howned]
  constructor
  · exact fun h ↦ h.1
  · intro h
    refine ⟨h, fun g placement caller ho ↦ ?_⟩
    have hp : d'.placementCandidates = active := by rw [placementCandidates, hactive, if_pos ha]
    obtain ⟨entry, d'', hr⟩ := exists_resolveOrActivateLocal (hp ▸ ha) g placement caller
    refine ⟨entry, d'', ?_, h.resolveOrActivateLocal (fun s hs ↦ hp ▸ hs) hr⟩
    simp only [resolveOrActivate, ho, hr, if_true, bind, Except.bind, pure, Except.pure]

def hosting (host : SiloAddress) : DistributedGrainDirectory where
  localSilo := siloA
  ring := .withDefaults [siloA, siloB]
  activeSilos := [siloA, siloB]
  owned := Table.empty.put ⟨counter1, host, 1⟩
  epoch := 1
  rebuild := none

theorem hosting_keptHostsAmong : KeptHostsAmong [siloA] (hosting siloA) := by
  intro e he _
  obtain rfl := List.mem_singleton.mp he
  exact List.mem_singleton_self siloA

theorem hosting_not_keptHostsAmong : ¬ KeptHostsAmong [siloA] (hosting siloB) := by
  intro h
  have hb := h ⟨counter1, siloB, 1⟩ (List.mem_singleton_self _)
    (ConsistentHashRing.ownerOf_singleton _ _)
  exact absurd (List.mem_singleton.mp hb) (by decide)

theorem hosting_onMembershipChanged : ¬ HostsAmong [siloA]
    ((hosting siloB).onMembershipChanged [siloA] fun _ ↦ true).1.owned := by
  obtain ⟨d', hd', howned, -⟩ :=
    onMembershipChanged_ok (hosting siloB) (List.cons_ne_nil siloA []) fun _ ↦ true
  rw [hd', howned, hostsAmong_keptAfter_iff _ (List.cons_ne_nil siloA [])]
  exact hosting_not_keptHostsAmong

omit [StableHash] in
theorem crash_recovery_hosting_siloA :
    letI := sampleHash
    ((∀ e ∈ ((hosting siloA).onMembershipChanged [siloA] fun _ ↦ true).1.owned.items,
      e.silo ∈ [siloA]) ∧
      ∀ (g : GrainId) (placement : PlacementStrategy) (caller : Option SiloAddress),
        ((hosting siloA).onMembershipChanged [siloA] fun _ ↦ true).1.ownerOf g =
          .ok ((hosting siloA).onMembershipChanged [siloA] fun _ ↦ true).1.localSilo →
        ∃ entry d', ((hosting siloA).onMembershipChanged [siloA] fun _ ↦ true).1.resolveOrActivate g
          placement caller = .ok (.answered entry d') ∧ entry.silo ∈ [siloA]) :=
  (@crash_recovery_iff sampleHash (hosting siloA) [siloA] (List.cons_ne_nil _ _) fun _ ↦ true).mpr
    (@hosting_keptHostsAmong sampleHash)

omit [StableHash] in
/-- The owner survives and the host does not: the entry stays. -/
theorem dead_host_stays :
    letI := sampleHash
    ¬ ∀ e ∈ ((hosting siloB).onMembershipChanged [siloA] fun _ ↦ true).1.owned.items,
      e.silo ∈ [siloA] :=
  @hosting_onMembershipChanged sampleHash

end Pyleans.CrashRecovery
