import Mathlib
import Pyleans.Cluster.Successors
import Pyleans.Membership.FailureDetector

namespace Pyleans

open Library ConsistentHashRing

def MembershipSnapshot.activeSilos (snapshot : MembershipSnapshot) : List SiloAddress :=
  (snapshot.silos.filter fun s ↦ s.status = .active).map SiloInfo.address

namespace FailureDetector

def activePeers (d : FailureDetector) (snapshot : MembershipSnapshot) : List SiloAddress :=
  (snapshot.silos.filter fun s ↦ s.status = .active ∧ s.address ≠ d.localSilo).map SiloInfo.address

def probeTargets [StableHash] (d : FailureDetector) (snapshot : MembershipSnapshot) :
    List SiloAddress :=
  let activePeers := d.activePeers snapshot
  if activePeers = [] then []
  else
    let n := d.options.numProbedSilos
    if activePeers.length ≤ n then sortedBy SiloAddress.siloId activePeers
    else (withDefaults (activePeers ++ [d.localSilo])).successors d.localSilo n

section

variable {d : FailureDetector} {snapshot : MembershipSnapshot} {t : SiloAddress}

theorem mem_activePeers : t ∈ d.activePeers snapshot ↔ t ∈ snapshot.activeSilos ∧
    t ≠ d.localSilo := by
  simp only [activePeers, MembershipSnapshot.activeSilos, List.mem_map, List.mem_filter,
    decide_eq_true_eq]
  constructor
  · rintro ⟨row, ⟨hrow, hactive, hlocal⟩, rfl⟩
    exact ⟨⟨row, ⟨hrow, hactive⟩, rfl⟩, hlocal⟩
  · rintro ⟨⟨row, ⟨hrow, hactive⟩, rfl⟩, hlocal⟩
    exact ⟨row, ⟨hrow, hactive, hlocal⟩, rfl⟩

theorem withDefaults_congr {silos silos' : List SiloAddress} (h : ∀ s, s ∈ silos ↔ s ∈ silos') :
    withDefaults silos = withDefaults silos' := ofSilos_congr (by decide) h

variable [StableHash]

/-- Among the active silos, a silo probes those with fewer silos before them
than it has probes. -/
theorem mem_probeTargets (hlocal : d.localSilo ∈ snapshot.activeSilos) :
    t ∈ d.probeTargets snapshot ↔ t ∈ snapshot.activeSilos ∧ t ≠ d.localSilo ∧
      ((withDefaults snapshot.activeSilos).silosBefore d.localSilo t).card <
        d.options.numProbedSilos := by
  have hring : withDefaults (d.activePeers snapshot ++ [d.localSilo]) =
    withDefaults snapshot.activeSilos := by
    apply withDefaults_congr
    intro s
    rw [List.mem_append, List.mem_singleton, mem_activePeers]
    constructor
    · rintro (⟨hs, -⟩ | rfl)
      · exact hs
      · exact hlocal
    · exact fun hs ↦ (em (s = d.localSilo)).elim .inr fun hne ↦ .inl ⟨hs, hne⟩
  have hfew : ∀ t ∈ d.activePeers snapshot,
      ((withDefaults snapshot.activeSilos).silosBefore d.localSilo t).card <
        (d.activePeers snapshot).length := by
    intro t ht
    refine (Finset.card_lt_card ?_).trans_le (List.toFinset_card_le (d.activePeers snapshot))
    rw [Finset.ssubset_iff_of_subset]
    · exact ⟨t, List.mem_toFinset.mpr ht, fun h ↦ (mem_silosBefore.mp h).2.2.1 rfl⟩
    · intro u hu
      obtain ⟨hsilo, hus, -⟩ := mem_silosBefore.mp hu
      exact List.mem_toFinset.mpr (mem_activePeers.mpr ⟨mem_ofSilos.mp hsilo, hus⟩)
  simp only [probeTargets, hring]
  rw [← and_assoc, ← mem_activePeers]
  split_ifs with hnone hall
  · simp [hnone]
  · rw [mem_sortedBy]
    exact ⟨fun ht ↦ ⟨ht, (hfew t ht).trans_le hall⟩, And.left⟩
  · rw [mem_successors, mem_activePeers]
    simp only [withDefaults, mem_ofSilos, Nat.cast_lt, hlocal, true_and, and_assoc]

/-- Every active silo is probed by another one exactly when the ring puts
every active silo close enough after another one. -/
theorem probe_coverage_iff (options : FailureDetectorOptions) (snapshot : MembershipSnapshot) :
    (∀ t ∈ snapshot.activeSilos, ∃ s ∈ snapshot.activeSilos, s ≠ t ∧
      t ∈ probeTargets ⟨s, options⟩ snapshot) ↔
    ∀ t ∈ snapshot.activeSilos, ∃ s ∈ snapshot.activeSilos, s ≠ t ∧
      ((withDefaults snapshot.activeSilos).silosBefore s t).card < options.numProbedSilos := by
  refine forall₂_congr fun t ht ↦
    exists_congr fun s ↦ and_congr_right fun hs ↦ and_congr_right fun hst ↦ ?_
  rw [mem_probeTargets hs]
  exact ⟨fun h ↦ h.2.2, fun h ↦ ⟨ht, hst.symm, h⟩⟩

end

def activeRow (address : SiloAddress) : SiloInfo where
  address := address
  status := .active
  lastHeartbeat := 0
  startTime := 0
  clusterId := none
  gatewayPort := none
  version := 1
  iAmAlive := 0
  suspicions := []
  etag := none

def unwatchedSnapshot : MembershipSnapshot := ⟨3, [siloA, siloB, ⟨"cc", 11111, 1⟩].map activeRow⟩

theorem silo_left_unprobed : ¬ ∀ [StableHash] (options : FailureDetectorOptions)
    (snapshot : MembershipSnapshot),
    2 ≤ snapshot.activeSilos.length → snapshot.activeSilos.Nodup → 1 ≤ options.numProbedSilos →
    ∀ t ∈ snapshot.activeSilos, ∃ s ∈ snapshot.activeSilos, s ≠ t ∧
      t ∈ probeTargets ⟨s, options⟩ snapshot := by
  intro h
  let _ := spreadHash
  have hunprobed : ¬ ∃ s ∈ unwatchedSnapshot.activeSilos, s ≠ ⟨"cc", 11111, 1⟩ ∧
      ⟨"cc", 11111, 1⟩ ∈ probeTargets
        ⟨s, { FailureDetectorOptions.defaults with numProbedSilos := 1 }⟩
        unwatchedSnapshot := by decide +kernel
  exact hunprobed (h _ unwatchedSnapshot (by decide) (by decide) le_rfl _ (by decide))

end FailureDetector

end Pyleans
