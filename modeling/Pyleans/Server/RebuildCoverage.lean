import Pyleans.Cluster.Reconciliation
import Pyleans.Server.Runtime

namespace Pyleans.RebuildCoverage

open Library DistributedGrainDirectory Reconciliation

/-- What a silo reports of its own activations. It does not keep their epochs. -/
def localActivations (silo : SiloAddress) (r : GrainRuntime) : List DirectoryEntry :=
  r.activations.items.map fun activation ↦ ⟨activation.grainId, silo, 0⟩

theorem mem_localActivations {silo : SiloAddress} {r : GrainRuntime} {e : DirectoryEntry} :
    e ∈ localActivations silo r ↔ e.silo = silo ∧ e.activationEpoch = 0 ∧
      r.hosts e.grainId = true := by
  rw [localActivations, List.mem_map, GrainRuntime.hosts, Option.isSome_iff_exists]
  constructor
  · rintro ⟨activation, hm, rfl⟩
    exact ⟨rfl, rfl, activation, Table.get_of_mem hm⟩
  · rintro ⟨hs, he, activation, ha⟩
    refine ⟨activation, Table.mem_of_get ha, ?_⟩
    rw [Table.key_of_get ha, ← hs, ← he]

variable [StableHash]

def answerRebuildQuery (arcs : List Arc) (localEntries : List DirectoryEntry) :
    List DirectoryEntry :=
  localEntries.filter fun entry ↦ InArcs arcs (hashGrainId entry.grainId)

def truthfulAnswers (arcs : List Arc) (runtimes : SiloAddress → GrainRuntime) (peer : SiloAddress) :
    Option (List DirectoryEntry) :=
  some (answerRebuildQuery arcs (localActivations peer (runtimes peer)))

/-- The directory after a rebuild for `arcs` that a change to `active` started
and that nothing disturbed. -/
def rebuilt (d : DistributedGrainDirectory) (active : List SiloAddress) (arcs : List Arc)
    (runtimes : SiloAddress → GrainRuntime) : DistributedGrainDirectory :=
  ({ d with rebuild := some ⟨arcs, active.filter (fun s ↦ s ≠ d.localSilo), d.owned⟩ }.finishRebuild
    (truthfulAnswers arcs runtimes)).1

variable {d : DistributedGrainDirectory} {active : List SiloAddress} {arcs : List Arc}
  {runtimes : SiloAddress → GrainRuntime} {g : GrainId}

theorem mem_truthful_candidates {peers : List SiloAddress} {e : DirectoryEntry} :
    e ∈ collectCandidates peers (truthfulAnswers arcs runtimes) ↔
      e.silo ∈ peers ∧ e.activationEpoch = 0 ∧ (runtimes e.silo).hosts e.grainId = true ∧
        InArcs arcs (hashGrainId e.grainId) := by
  simp only [collectCandidates, truthfulAnswers, Option.getD_some, List.mem_flatMap,
    answerRebuildQuery, List.mem_filter, mem_localActivations, decide_eq_true_eq]
  constructor
  · rintro ⟨peer, hp, ⟨rfl, he, hh⟩, ha⟩
    exact ⟨hp, he, hh, ha⟩
  · rintro ⟨hp, he, hh, ha⟩
    exact ⟨e.silo, hp, ⟨rfl, he, hh⟩, ha⟩

omit [StableHash] in
theorem merge_get_ne_none_iff {candidates : List DirectoryEntry} {existing : EntryTable} :
    (mergeRebuildCandidates candidates existing).1.get g ≠ none ↔
      existing.get g ≠ none ∨ ∃ e ∈ candidates, e.grainId = g := by
  rw [merge_get, ne_eq, List.argmin_eq_none, contenders, List.append_eq_nil_iff, not_and_or,
    Option.toList_eq_nil_iff, List.filter_eq_nil_iff]
  simp

/-- A rebuild gives entries to the grains of its arcs that some peer hosts. -/
theorem rebuilt_get_ne_none_iff (hg : InArcs arcs (hashGrainId g)) :
    (rebuilt d active arcs runtimes).owned.get g ≠ none ↔
      d.owned.get g ≠ none ∨ ∃ s ∈ active, s ≠ d.localSilo ∧ (runtimes s).hosts g = true := by
  have harcs : arcs ≠ [] := by
    obtain ⟨arc, harc, -⟩ := hg
    exact List.ne_nil_of_mem harc
  by_cases hp : active.filter (fun s ↦ s ≠ d.localSilo) = []
  · have hnone : ¬ ∃ s ∈ active, s ≠ d.localSilo ∧ (runtimes s).hosts g = true := by
      rintro ⟨s, hs, hne, -⟩
      exact List.ne_nil_of_mem (List.mem_filter.mpr ⟨hs, by simpa using hne⟩) hp
    have hsame : (rebuilt d active arcs runtimes).owned = d.owned := by
      simp only [rebuilt, finishRebuild, Option.bind_some, RebuildTask.run, hp, List.isEmpty_nil,
        or_true, if_true]
    rw [hsame, or_iff_left hnone]
  · have howned : (rebuilt d active arcs runtimes).owned.get g =
        ((mergeRebuildCandidates (collectCandidates (active.filter fun s ↦ s ≠ d.localSilo)
          (truthfulAnswers arcs runtimes)) d.owned).1.get g).or (d.owned.get g) := by
      simp only [rebuilt, finishRebuild, Option.bind_some, RebuildTask.run, harcs, List.isEmpty_iff,
        hp, or_self, if_false, applyRebuildEntries_get]
    rw [howned, ne_eq, Option.or_eq_none_iff, not_and_or, ← ne_eq, merge_get_ne_none_iff]
    constructor
    · rintro ((h | ⟨e, he, rfl⟩) | h)
      · exact .inl h
      · obtain ⟨hs, -, hh, -⟩ := mem_truthful_candidates.mp he
        obtain ⟨hs, hne⟩ := List.mem_filter.mp hs
        exact .inr ⟨e.silo, hs, by simpa using hne, hh⟩
      · exact .inl h
    · rintro (h | ⟨s, hs, hne, hh⟩)
      · exact .inr h
      · have hpeer : s ∈ active.filter fun s ↦ s ≠ d.localSilo :=
          List.mem_filter.mpr ⟨hs, by simpa using hne⟩
        exact .inl (.inr ⟨⟨g, s, 0⟩, mem_truthful_candidates.mpr ⟨hpeer, rfl, hh, hg⟩, rfl⟩)

/-- A rebuild covers every live grain of its arcs exactly when the local silo
hosts none that is neither in the directory already nor live on a peer: the
local silo is not among those it asks. -/
theorem rebuild_covers_iff (d : DistributedGrainDirectory) (active : List SiloAddress)
    (arcs : List Arc) (runtimes : SiloAddress → GrainRuntime) :
    (∀ g, InArcs arcs (hashGrainId g) → (∃ s ∈ active, (runtimes s).hosts g = true) →
      (rebuilt d active arcs runtimes).owned.get g ≠ none) ↔
    ∀ g, InArcs arcs (hashGrainId g) → d.localSilo ∈ active →
      (runtimes d.localSilo).hosts g = true →
      d.owned.get g ≠ none ∨ ∃ s ∈ active, s ≠ d.localSilo ∧ (runtimes s).hosts g = true := by
  constructor
  · intro h g hg hl hh
    exact (rebuilt_get_ne_none_iff hg).mp (h g hg ⟨d.localSilo, hl, hh⟩)
  · rintro h g hg ⟨s, hs, hh⟩
    apply (rebuilt_get_ne_none_iff hg).mpr
    by_cases hl : s = d.localSilo
    · subst hl
      exact h g hg hs hh
    · exact .inr ⟨s, hs, hl, hh⟩

def emptyPartition : DistributedGrainDirectory :=
  .init siloA (.withDefaults [siloA, siloB]) [siloA, siloB]

def hostedOnA (s : SiloAddress) : GrainRuntime :=
  if s = siloA then (GrainRuntime.init s).insertActivation counter1 else .init s

omit [StableHash]

theorem own_activation_missed :
    letI := sampleHash
    ¬ ∀ g, InArcs [⟨-1, 2 ^ 64 - 1⟩] (hashGrainId g) →
      (∃ s ∈ [siloA, siloB], (hostedOnA s).hosts g = true) →
      (rebuilt emptyPartition [siloA, siloB] [⟨-1, 2 ^ 64 - 1⟩] hostedOnA).owned.get g ≠ none := by
  intro h
  exact h counter1 (by decide +kernel) ⟨siloA, by decide, by decide +kernel⟩ (by decide +kernel)

end Pyleans.RebuildCoverage
