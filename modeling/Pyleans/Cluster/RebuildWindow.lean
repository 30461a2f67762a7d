import Pyleans.Cluster.DirectoryEvents
import Pyleans.Cluster.Reconciliation

namespace Pyleans

open Library DistributedGrainDirectory

/-- A rebuild from the moment of its snapshot to its end, and the operations
that run in between. No operation reads the pending rebuild, so it may stand
in `directory` from the start. -/
structure RebuildWindow where
  directory : DistributedGrainDirectory
  task : RebuildTask
  scheduled : directory.rebuild = some task
  snapshot : task.existingEntries = directory.owned
  arcs_ne : task.arcs ≠ []
  peers_ne : task.peers ≠ []
  ops : List DirectoryOp
  responses : SiloAddress → Option (List DirectoryEntry)

namespace RebuildWindow

def mentioned (w : RebuildWindow) (g : GrainId) : List DirectoryEntry :=
  Reconciliation.contenders g (collectCandidates w.task.peers w.responses) w.directory.owned

variable [StableHash] [SeededRandom]

def runOps (d : DistributedGrainDirectory) (ops : List DirectoryOp) : DistributedGrainDirectory :=
  ops.foldl handle d

def atApply (w : RebuildWindow) : DistributedGrainDirectory := runOps w.directory w.ops

def outcome (w : RebuildWindow) : DistributedGrainDirectory × List Loser :=
  w.atApply.finishRebuild w.responses

def Unregisters (d : DistributedGrainDirectory) (g : GrainId) : DirectoryOp → Prop
  | .unregister g' _ => g' = g ∧ d.ownerOf g = .ok d.localSilo
  | .recvUnregister g' _ => g' = g
  | _ => False

/-- The grain was unregistered in the window and has no entry when it ends. -/
def Unregistered (w : RebuildWindow) (g : GrainId) : Prop :=
  (∃ op ∈ w.ops, Unregisters w.directory g op) ∧ w.atApply.owned.get g = none

/-- Some operation of the window put `e` in place for `g`, where it still is at its end. -/
def Installed (w : RebuildWindow) (g : GrainId) (e : DirectoryEntry) : Prop :=
  (∃ done op todo, w.ops = done ++ op :: todo ∧ (runOps w.directory done).owned.get g ≠ some e ∧
    ((runOps w.directory done).handle op).owned.get g = some e) ∧ w.atApply.owned.get g = some e

theorem runOps_static (d : DistributedGrainDirectory) (ops : List DirectoryOp) :
    (runOps d ops).ring = d.ring ∧ (runOps d ops).localSilo = d.localSilo ∧
      (runOps d ops).rebuild = d.rebuild := by
  induction ops generalizing d with
  | nil => exact ⟨rfl, rfl, rfl⟩
  | cons op ops ih =>
    rw [runOps, List.foldl_cons]
    obtain ⟨hr, hl, hb, -⟩ := handle_static d op
    exact ⟨(ih (d.handle op)).1.trans hr, (ih (d.handle op)).2.1.trans hl,
      (ih (d.handle op)).2.2.trans hb⟩

omit [SeededRandom] in
theorem unregisters_congr {d d' : DistributedGrainDirectory} {g : GrainId} {op : DirectoryOp}
    (hr : d'.ring = d.ring) (hl : d'.localSilo = d.localSilo) (h : Unregisters d' g op) :
    Unregisters d g op := by
  cases op with
  | unregister g' silo =>
    refine ⟨h.1, ?_⟩
    have ho := h.2
    rw [DistributedGrainDirectory.ownerOf, hr, hl] at ho
    exact ho
  | recvUnregister g' silo => exact h
  | _ => exact h.elim

theorem unregisters_of_handle {d : DistributedGrainDirectory} {op : DirectoryOp} {g : GrainId}
    (hd : d.owned.get g ≠ none) (h : (d.handle op).owned.get g = none) : Unregisters d g op := by
  cases op with
  | register g' silo =>
    simp only [handle, afterRouted_register] at h
    split_ifs at h
    · rw [registerLocal_get] at h
      split_ifs at h
      exact absurd h hd
    · exact absurd h hd
  | lookup g' => exact absurd (by simpa only [handle, afterRouted_lookup] using h) hd
  | unregister g' silo =>
    simp only [handle, afterRouted_unregister] at h
    split_ifs at h with ho
    · rw [unregisterLocal_get] at h
      split_ifs at h with hg
      · exact ⟨hg.symm, hg ▸ ho⟩
      · exact absurd h hd
    · exact absurd h hd
  | resolveOrActivate g' placement caller =>
    rcases afterRouted_resolveOrActivate d g' placement caller with hr | ⟨-, e, hr⟩
    · exact absurd (by simpa only [handle, hr] using h) hd
    · simp only [handle, resolveOrActivateLocal_get hr] at h
      split_ifs at h
      exact absurd h hd
  | recvRegister g' silo =>
    simp only [handle, registerLocal_get] at h
    split_ifs at h
    exact absurd h hd
  | recvLookup g' => exact absurd h hd
  | recvUnregister g' silo =>
    simp only [handle, unregisterLocal_get] at h
    split_ifs at h with hg
    · exact hg.symm
    · exact absurd h hd
  | recvResolve g' placementClass caller =>
    rcases handle_recvResolve d g' placementClass caller with hr | ⟨placement, e, -, hr⟩
    · exact absurd (hr ▸ h) hd
    · rw [resolveOrActivateLocal_get hr] at h
      split_ifs at h
      exact absurd h hd
  | recvHandoff entry =>
    rcases handle_recvHandoff d entry with hr | ⟨losers, hr⟩
    · exact absurd (hr ▸ h) hd
    · rcases applyHandoff_cases hr with ⟨-, hr', -⟩ | ⟨-, ⟨e, -, -, hr', -⟩ | ⟨-, hr', -⟩⟩
      · exact absurd (hr' ▸ h) hd
      · exact absurd (hr' ▸ h) hd
      · rw [hr'] at h
        simp only [Table.get_put] at h
        split_ifs at h
        exact absurd h hd

theorem exists_unregisters {d : DistributedGrainDirectory} {ops : List DirectoryOp} {g : GrainId}
    (hd : d.owned.get g ≠ none) (h : (runOps d ops).owned.get g = none) :
    ∃ op ∈ ops, Unregisters d g op := by
  induction ops generalizing d with
  | nil => exact absurd h hd
  | cons op ops ih =>
    by_cases hn : (d.handle op).owned.get g = none
    · exact ⟨op, List.mem_cons_self, unregisters_of_handle hd hn⟩
    · obtain ⟨op', hop, hu⟩ := ih hn h
      obtain ⟨hr, hl, -⟩ := handle_static d op
      exact ⟨op', List.mem_cons_of_mem _ hop, unregisters_congr hr hl hu⟩

theorem unregistered_of_removed (w : RebuildWindow) {done todo : List DirectoryOp} {g : GrainId}
    (hw : w.ops = done ++ todo) (hd : (runOps w.directory done).owned.get g ≠ none)
    (h : w.atApply.owned.get g = none) : w.Unregistered g := by
  rw [atApply, hw, runOps, List.foldl_append] at h
  obtain ⟨op, hop, hu⟩ := exists_unregisters hd h
  obtain ⟨hr, hl, -⟩ := runOps_static w.directory done
  refine ⟨⟨op, hw ▸ List.mem_append_right _ hop, unregisters_congr hr hl hu⟩, ?_⟩
  rw [atApply, hw, runOps, List.foldl_append]
  exact h

theorem outcome_eq (w : RebuildWindow) : w.outcome =
    ({ w.atApply.applyRebuildEntries
        (mergeRebuildCandidates (collectCandidates w.task.peers w.responses) w.directory.owned).1
          with
      rebuild := none },
      (mergeRebuildCandidates (collectCandidates w.task.peers w.responses)
      w.directory.owned).2) := by
  have hr : w.atApply.rebuild = some w.task := (runOps_static _ _).2.2.trans w.scheduled
  have hn : ¬ (w.task.arcs.isEmpty ∨ w.task.peers.isEmpty) := by
    simpa [not_or] using And.intro w.arcs_ne w.peers_ne
  simp only [outcome, finishRebuild, hr, Option.bind_some, RebuildTask.run, if_neg hn, w.snapshot]

theorem outcome_get (w : RebuildWindow) (g : GrainId) : w.outcome.1.owned.get g =
    ((w.mentioned g).argmin DirectoryEntry.rank).or (w.atApply.owned.get g) := by
  rw [outcome_eq]
  simp only [applyRebuildEntries_get, Reconciliation.merge_get]
  rfl

theorem mem_outcome_losers {w : RebuildWindow} {g : GrainId} {e : DirectoryEntry}
    (he : (w.mentioned g).argmin DirectoryEntry.rank = some e) {s : SiloAddress} (hs : s ≠ e.silo) :
    (∃ x ∈ w.outcome.2, x.2.1 = g ∧ x.1 = s) ↔ ∃ c ∈ w.mentioned g, c.silo = s := by
  rw [outcome_eq, Reconciliation.mem_merge_losers ((Reconciliation.merge_get _ _ _).trans he)]
  have hbefore : s ∈ (before e (w.mentioned g)).map DirectoryEntry.silo →
      s ∈ (w.mentioned g).map DirectoryEntry.silo := by
    intro h
    obtain ⟨c, hc, hcs⟩ := List.mem_map.mp h
    exact List.mem_map.mpr ⟨c, mem_of_mem_before hc, hcs⟩
  constructor
  · intro h
    exact List.mem_map.mp (h.elim hbefore And.right)
  · intro h
    exact .inr ⟨hs, List.mem_map.mpr h⟩

theorem outcome_get_eq_none_iff {w : RebuildWindow} {g : GrainId}
    (h : w.atApply.owned.get g = none) :
    w.outcome.1.owned.get g = none ↔ w.mentioned g = [] := by
  rw [outcome_get, h, Option.or_none, List.argmin_eq_none]

theorem replaced_told_iff {w : RebuildWindow} {g : GrainId} {e : DirectoryEntry}
    (h : w.atApply.owned.get g = some e) :
    (∀ e', w.outcome.1.owned.get g = some e' → e'.silo ≠ e.silo →
      ∃ x ∈ w.outcome.2, x.2.1 = g ∧ x.1 = e.silo) ↔
    (w.mentioned g ≠ [] → ∃ c ∈ w.mentioned g, c.silo = e.silo) := by
  rw [outcome_get, h]
  constructor
  · intro htold hne
    obtain ⟨m, hm⟩ := exists_argmin hne DirectoryEntry.rank
    by_cases hs : m.silo = e.silo
    · exact ⟨m, List.argmin_mem hm, hs⟩
    · exact (mem_outcome_losers hm (Ne.symm hs)).mp (htold m (by rw [hm, Option.some_or]) hs)
  · intro hmen e' he' hs
    by_cases hne : w.mentioned g = []
    · rw [hne, List.argmin_nil, Option.none_or] at he'
      exact absurd (congrArg DirectoryEntry.silo (Option.some.inj he').symm) hs
    · obtain ⟨m, hm⟩ := exists_argmin hne DirectoryEntry.rank
      rw [hm, Option.some_or] at he'
      obtain rfl := Option.some.inj he'
      exact (mem_outcome_losers hm (Ne.symm hs)).mpr (hmen hne)

/-- A rebuild undoes nothing that ran in its window exactly when it mentions no
grain unregistered there, and mentions a grain placed there, if at all, also
on the silo where it was placed. -/
theorem rebuild_undoes_nothing_iff (w : RebuildWindow) :
    ((∀ g, w.Unregistered g → w.outcome.1.owned.get g = none) ∧
      ∀ g e, w.Installed g e → ∀ e', w.outcome.1.owned.get g = some e' → e'.silo ≠ e.silo →
        ∃ x ∈ w.outcome.2, x.2.1 = g ∧ x.1 = e.silo) ↔
    (∀ g, w.Unregistered g → w.mentioned g = []) ∧
      ∀ g e, w.Installed g e → w.mentioned g ≠ [] → ∃ c ∈ w.mentioned g, c.silo = e.silo := by
  refine and_congr (forall_congr' fun g ↦ ?_) (forall_congr' fun g ↦ forall_congr' fun e ↦ ?_)
  · exact forall_congr' fun h ↦ outcome_get_eq_none_iff h.2
  · exact forall_congr' fun h ↦ replaced_told_iff h.2

omit [StableHash] [SeededRandom]

def unregisterWindow (host : SiloAddress) : RebuildWindow where
  directory :=
    { localSilo := siloA
      ring := .withDefaults [siloA, siloB]
      activeSilos := [siloA, siloB]
      owned := Table.empty.put ⟨counter1, host, 1⟩
      epoch := 1
      rebuild := some ⟨[⟨0, 1⟩], [siloB], Table.empty.put ⟨counter1, host, 1⟩⟩ }
  task := ⟨[⟨0, 1⟩], [siloB], Table.empty.put ⟨counter1, host, 1⟩⟩
  scheduled := rfl
  snapshot := rfl
  arcs_ne := List.cons_ne_nil _ _
  peers_ne := List.cons_ne_nil _ _
  ops := [.recvUnregister counter1 host]
  responses _ := none

theorem rebuild_restores_unregistered :
    letI := sampleHash
    letI := sampleRandom
    ¬ ∀ g, (unregisterWindow siloB).Unregistered g →
      (unregisterWindow siloB).outcome.1.owned.get g = none := by
  intro h
  refine absurd (h counter1 ⟨⟨_, List.mem_singleton_self _, rfl⟩, by decide⟩) ?_
  decide

end RebuildWindow

end Pyleans
