import Pyleans.Cluster.Ownership

namespace Pyleans.EpochFreshness

open Library DistributedGrainDirectory Ownership

/-- The counter does not go back, and it covers every entry that comes in. -/
structure Advances (d d' : DistributedGrainDirectory) : Prop where
  epoch_le : d.epoch ≤ d'.epoch
  covered : ∀ e ∈ d'.owned.items, e ∈ d.owned.items ∨ e.activationEpoch ≤ d'.epoch

def Mints (d d' : DistributedGrainDirectory) : Prop :=
  ∀ e ∈ d'.owned.items, e ∈ d.owned.items ∨ d.epoch < e.activationEpoch

def Covered (d : DistributedGrainDirectory) : Prop :=
  ∀ e ∈ d.owned.items, e.activationEpoch ≤ d.epoch

section

variable {d d' : DistributedGrainDirectory}

theorem Advances.of_keep (hepoch : d'.epoch = d.epoch)
    (howned : ∀ e ∈ d'.owned.items, e ∈ d.owned.items) :
    Advances d d' := ⟨hepoch.ge, fun e he ↦ .inl (howned e he)⟩

theorem Advances.refl (d : DistributedGrainDirectory) : Advances d d := .of_keep rfl fun _ he ↦ he

theorem Advances.of_put {e : DirectoryEntry} {epoch : ℤ} (hle : d.epoch ≤ epoch)
    (he : e.activationEpoch ≤ epoch) :
    Advances d { d with owned := d.owned.put e, epoch := epoch } := by
  refine ⟨hle, fun e' he' ↦ ?_⟩
  rcases Table.mem_put.mp he' with rfl | ⟨hold, -⟩
  · exact .inr he
  · exact .inl hold

theorem Mints.of_put {e : DirectoryEntry} {epoch : ℤ} (he : d.epoch < e.activationEpoch) :
    Mints d { d with owned := d.owned.put e, epoch := epoch } := by
  intro e' he'
  rcases Table.mem_put.mp he' with rfl | ⟨hold, -⟩
  · exact .inr he
  · exact .inl hold

theorem Covered.advance (h : Covered d) (ha : Advances d d') : Covered d' := by
  intro e he
  rcases ha.covered e he with hold | hle
  · exact (h e hold).trans ha.epoch_le
  · exact hle

theorem registerLocal_advances (d : DistributedGrainDirectory) (g : GrainId) (silo : SiloAddress) :
    Advances d (d.registerLocal g silo).2 ∧ Mints d (d.registerLocal g silo).2 := by
  unfold registerLocal
  split
  · exact ⟨.refl d, fun e he ↦ .inl he⟩
  · exact ⟨.of_put (by omega) (le_refl _), .of_put (lt_add_one d.epoch)⟩

theorem mem_unregisterLocal (d : DistributedGrainDirectory) (g : GrainId) (silo : SiloAddress) :
    (d.unregisterLocal g silo).epoch = d.epoch ∧
      ∀ e ∈ (d.unregisterLocal g silo).owned.items, e ∈ d.owned.items := by
  unfold unregisterLocal
  split
  · exact ⟨rfl, fun e he ↦ he⟩
  · split_ifs
    · exact ⟨rfl, fun e he ↦ he⟩
    · exact ⟨rfl, fun e he ↦ List.mem_of_mem_filter he⟩

theorem resolveOrActivateLocal_advances {g : GrainId} {placement : PlacementStrategy}
    {caller : Option SiloAddress} {e : DirectoryEntry}
    (h : d.resolveOrActivateLocal g placement caller = .ok (e, d')) :
    Advances d d' ∧ Mints d d' := by
  rcases resolveOrActivateLocal_cases h with ⟨-, rfl⟩ | ⟨-, -, hepoch, -, rfl⟩
  · exact ⟨.refl d', fun e he ↦ .inl he⟩
  · exact ⟨.of_put (by omega) hepoch.le, .of_put (by omega)⟩

theorem foldl_max_le (l : List ℤ) (n : ℤ) : n ≤ l.foldl max n ∧ ∀ m ∈ l, m ≤ l.foldl max n := by
  induction l generalizing n with
  | nil => exact ⟨le_refl n, fun m hm ↦ absurd hm List.not_mem_nil⟩
  | cons k l ih =>
    obtain ⟨hstart, hrest⟩ := ih (max n k)
    refine ⟨(le_max_left n k).trans hstart, fun m hm ↦ ?_⟩
    rcases List.mem_cons.mp hm with rfl | hm
    · exact (le_max_right n m).trans hstart
    · exact hrest m hm

theorem applyRebuildEntries_advances (d : DistributedGrainDirectory) (merged : EntryTable) :
    Advances d (d.applyRebuildEntries merged) := by
  obtain ⟨hstart, hmax⟩ := foldl_max_le (merged.items.map DirectoryEntry.activationEpoch) d.epoch
  refine ⟨hstart, fun e he ↦ ?_⟩
  have hget := Table.get_of_mem he
  rw [applyRebuildEntries_get, Option.or_eq_some_iff] at hget
  rcases hget with hget | ⟨-, hget⟩
  · exact .inr (hmax _ (List.mem_map_of_mem (Table.mem_of_get hget)))
  · exact .inl (Table.mem_of_get hget)

theorem finishRebuild_advances (d : DistributedGrainDirectory)
    (responses : SiloAddress → Option (List DirectoryEntry)) : Advances d
      (d.finishRebuild responses).1 := by
  rcases Reconciliation.finishRebuild_cases d responses with h | ⟨task, -, h⟩
  · rw [h]
    exact .of_keep rfl fun e he ↦ he
  · rw [h]
    obtain ⟨hle, hcovered⟩ := applyRebuildEntries_advances d
      (mergeRebuildCandidates (collectCandidates task.peers responses) task.existingEntries).1
    exact ⟨hle, hcovered⟩

end

variable [StableHash] {d d' : DistributedGrainDirectory}

theorem applyHandoff_advances {incoming : DirectoryEntry} {losers : List Loser}
    (h : d.applyHandoff incoming = .ok (d', losers)) : Advances d d' := by
  rcases applyHandoff_cases h with ⟨-, rfl, -⟩ | ⟨-, ⟨e, -, -, rfl, -⟩ | ⟨-, rfl, -⟩⟩
  · exact .refl d'
  · exact .refl d'
  · exact .of_put (le_max_left _ _) (le_max_right _ _)

theorem changeRing_advances (d : DistributedGrainDirectory) (active : List SiloAddress) :
    Advances d (d.changeRing active).1 := by
  simp only [changeRing]
  split
  · exact .of_keep rfl fun e he ↦ he
  · next handoffs _ =>
    refine .of_keep rfl fun e he ↦ Table.mem_of_get (k := e.grainId) ?_
    have hget := Table.get_of_mem he
    rw [Table.get_foldl_pop] at hget
    split_ifs at hget
    exact hget

variable [SeededRandom]

theorem handle_advances (d : DistributedGrainDirectory) (o : DirectoryOp) :
    Advances d (d.handle o) ∧ ((∀ entry, o ≠ .recvHandoff entry) → Mints d (d.handle o)) := by
  have hkeep : Advances d d ∧ ((∀ entry, o ≠ .recvHandoff entry) → Mints d d) :=
    ⟨.refl d, fun _ e he ↦ .inl he⟩
  cases o with
  | register g silo =>
    obtain ⟨ha, hm⟩ := registerLocal_advances d g silo
    simp only [handle, afterRouted_register]
    split_ifs
    · exact ⟨ha, fun _ ↦ hm⟩
    · exact hkeep
  | lookup g =>
    simp only [handle, afterRouted_lookup]
    exact hkeep
  | unregister g silo =>
    obtain ⟨hepoch, hmem⟩ := mem_unregisterLocal d g silo
    simp only [handle, afterRouted_unregister]
    split_ifs
    · exact ⟨.of_keep hepoch hmem, fun _ e he ↦ .inl (hmem e he)⟩
    · exact hkeep
  | resolveOrActivate g placement caller =>
    rcases afterRouted_resolveOrActivate d g placement caller with h | ⟨-, e, h⟩
    · simp only [handle, h]
      exact hkeep
    · obtain ⟨ha, hm⟩ := resolveOrActivateLocal_advances h
      exact ⟨ha, fun _ ↦ hm⟩
  | recvRegister g silo =>
    obtain ⟨ha, hm⟩ := registerLocal_advances d g silo
    exact ⟨ha, fun _ ↦ hm⟩
  | recvLookup g => exact hkeep
  | recvUnregister g silo =>
    obtain ⟨hepoch, hmem⟩ := mem_unregisterLocal d g silo
    exact ⟨.of_keep hepoch hmem, fun _ e he ↦ .inl (hmem e he)⟩
  | recvResolve g placementClass caller =>
    rcases handle_recvResolve d g placementClass caller with h | ⟨placement, e, -, h⟩
    · rw [h]
      exact hkeep
    · obtain ⟨ha, hm⟩ := resolveOrActivateLocal_advances h
      exact ⟨ha, fun _ ↦ hm⟩
  | recvHandoff entry =>
    refine ⟨?_, fun h ↦ absurd rfl (h entry)⟩
    rcases handle_recvHandoff d entry with h | ⟨losers, h⟩
    · rw [h]
      exact .refl d
    · exact applyHandoff_advances h

theorem step_advances {s s' : DirectoryRun} {event : DirectoryEvent} (hs : step s event = some s') :
    Advances s.directory s'.directory := by
  cases event with
  | op o =>
    obtain rfl := Option.some.inj hs
    exact (handle_advances s.directory o).1
  | changeMembership active =>
    have ha := changeRing_advances s.directory active
    simp only [step] at hs
    split at hs <;> next hd =>
      obtain rfl := Option.some.inj hs
      rw [hd] at ha
      exact ha
  | returnFromChange i =>
    obtain ⟨change, -, rfl⟩ := Option.map_eq_some_iff.mp hs
    refine .of_keep ?_ fun e he ↦ ?_
    · simp only [scheduleRebuild]
      split_ifs <;> rfl
    · rwa [scheduleRebuild_owned] at he
  | finishRebuild responses =>
    obtain rfl := Option.some.inj hs
    exact finishRebuild_advances s.directory responses

theorem reachable_advances {s t : DirectoryRun} (h : Reachable step s t)
    (hs : Covered s.directory) :
    Covered t.directory ∧ s.directory.epoch ≤ t.directory.epoch := by
  refine h.invariant (I := fun u ↦ Covered u.directory ∧ s.directory.epoch ≤ u.directory.epoch)
    ⟨hs, le_refl _⟩ fun u event u' hu _ hstep ↦ ?_
  have ha := step_advances hstep
  exact ⟨hu.1.advance ha, hu.2.trans ha.epoch_le⟩

/-- Whatever the directory has ever held stays below its counter, for every run. -/
theorem covered_of_exec {s t u : DirectoryRun} {events before : List DirectoryEvent}
    (hs : Covered s.directory) (hu : exec step s events = some u) (hbefore : before <+: events)
    (ht : exec step s before = some t) :
    ∀ e ∈ t.directory.owned.items, e.activationEpoch ≤ u.directory.epoch := by
  intro e he
  obtain ⟨rest, rfl⟩ := hbefore
  obtain ⟨m, hm, hrest⟩ := exec_append.mp hu
  obtain rfl := Option.some.inj (ht.symm.trans hm)
  have hcovered := (reachable_advances (reachable_of_exec ht) hs).1
  exact (hcovered e he).trans (reachable_advances (reachable_of_exec hrest) hcovered).2

/-- In every run, with whatever epochs come in. The entries that an operation
other than a handoff adds are those it mints. -/
theorem epochs_fresh (localSilo : SiloAddress) (ring : ConsistentHashRing)
    (activeSilos : List SiloAddress) (events : List DirectoryEvent) (s : DirectoryRun)
    (h : exec step ⟨.init localSilo ring activeSilos, []⟩ events = some s) :
    (∀ before t, before <+: events →
      exec step ⟨.init localSilo ring activeSilos, []⟩ before = some t →
      ∀ e ∈ t.directory.owned.items, e.activationEpoch ≤ s.directory.epoch) ∧
    ∀ o, (∀ entry, o ≠ .recvHandoff entry) → ∀ e ∈ (s.directory.handle o).owned.items,
      e ∉ s.directory.owned.items →
      ∀ before t, before <+: events →
        exec step ⟨.init localSilo ring activeSilos, []⟩ before = some t →
        ∀ held ∈ t.directory.owned.items, held.activationEpoch < e.activationEpoch := by
  have hstart : Covered (DistributedGrainDirectory.init localSilo ring activeSilos) :=
    fun _ he ↦ absurd he List.not_mem_nil
  refine ⟨fun before t hbefore ht ↦ covered_of_exec hstart h hbefore ht, ?_⟩
  intro o ho e he hnew before t hbefore ht held hheld
  have hminted := ((handle_advances s.directory o).2 ho e he).resolve_left hnew
  exact (covered_of_exec hstart h hbefore ht held hheld).trans_lt hminted

omit [StableHash] [SeededRandom]

/-- A peer hands an entry over under a high epoch, which goes before the silo
places the grain anew. -/
def foreignEpoch : List DirectoryEvent :=
  [.op (.recvHandoff ⟨counter1, siloB, 7⟩), .op (.recvUnregister counter1 siloB)]

theorem epochs_fresh_foreignEpoch :
    letI := sampleHash
    letI := sampleRandom
    ∃ s, exec step twoSiloStart foreignEpoch = some s ∧
      (s.directory.handle (.recvRegister counter1 siloA)).owned.get counter1 =
        some ⟨counter1, siloA, 8⟩ ∧
      (∀ before t, before <+: foreignEpoch → exec step twoSiloStart before = some t →
        ∀ e ∈ t.directory.owned.items, e.activationEpoch ≤ s.directory.epoch) ∧
      ∀ o, (∀ entry, o ≠ .recvHandoff entry) → ∀ e ∈ (s.directory.handle o).owned.items,
        e ∉ s.directory.owned.items → ∀ before t, before <+: foreignEpoch →
          exec step twoSiloStart before = some t →
          ∀ held ∈ t.directory.owned.items, held.activationEpoch < e.activationEpoch :=
  letI := sampleHash
  letI := sampleRandom
  ⟨_, rfl, by
    decide, epochs_fresh siloA (.ofSilos [siloA, siloB] 1 (by decide))
      [siloA, siloB] foreignEpoch _ rfl⟩

end Pyleans.EpochFreshness
