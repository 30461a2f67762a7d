import Pyleans.Cluster.DirectoryEvents
import Pyleans.Cluster.Reconciliation

namespace Pyleans.Ownership

open Library DistributedGrainDirectory

/-- A directory together with the calls of `on_membership_changed` that have
left their locked section and not returned. -/
structure DirectoryRun where
  directory : DistributedGrainDirectory
  changes : List MembershipChange

inductive DirectoryEvent
  | op (op : DirectoryOp)
  | changeMembership (active : List SiloAddress)
  | returnFromChange (i : ℕ)
  | finishRebuild (responses : SiloAddress → Option (List DirectoryEntry))

variable [StableHash] [SeededRandom]

def step (s : DirectoryRun) : DirectoryEvent → Option DirectoryRun
  | .op o => some { s with directory := s.directory.handle o }
  | .changeMembership active =>
    match s.directory.changeRing active with
    | (d, .error _) => some { s with directory := d }
    | (d, .ok change) => some ⟨d, s.changes ++ [change]⟩
  | .returnFromChange i =>
    s.changes[i]?.map fun change ↦ ⟨s.directory.scheduleRebuild change, s.changes.eraseIdx i⟩
  | .finishRebuild responses => some { s with directory := (s.directory.finishRebuild responses).1 }

def OwnsGrain (d : DistributedGrainDirectory) (g : GrainId) : Prop := d.ownerOf g = .ok d.localSilo

instance (d : DistributedGrainDirectory) (g : GrainId) : Decidable (OwnsGrain d g) :=
  decidable_of_iff (d.ring.ownerOf (hashGrainId g) = some d.localSilo) ownerOfWithRing_ok_iff.symm

def OwnsAll (d : DistributedGrainDirectory) : Prop := ∀ e ∈ d.owned.items, OwnsGrain d e.grainId

/-- An inbound request that places a grain, and a rebuild, concern grains of
the local silo only. Everything else is unrestricted. -/
def StaysInPartition (s : DirectoryRun) : DirectoryEvent → Prop
  | .op o => ∀ g, claimed o = some g → s.directory.owned.get g = none → OwnsGrain s.directory g
  | .finishRebuild responses => ∀ task ∈ s.directory.rebuild,
      ∀ e ∈ task.existingEntries.items ++ collectCandidates task.peers responses,
        OwnsGrain s.directory e.grainId
  | _ => True

section

omit [SeededRandom]

theorem ownsAll_iff {d : DistributedGrainDirectory} :
    OwnsAll d ↔ ∀ g, d.owned.get g ≠ none → OwnsGrain d g := by
  constructor
  · intro h g hg
    obtain ⟨e, he⟩ := Option.ne_none_iff_exists'.mp hg
    exact Table.key_of_get he ▸ h e (Table.mem_of_get he)
  · intro h e he
    exact h e.grainId (by rw [Table.get_of_mem he]; exact Option.some_ne_none e)

theorem OwnsGrain.congr {d d' : DistributedGrainDirectory} {g : GrainId} (h : OwnsGrain d g)
    (hr : d'.ring = d.ring) (hl : d'.localSilo = d.localSilo) : OwnsGrain d' g := by
  rw [OwnsGrain, DistributedGrainDirectory.ownerOf, hr, hl]
  exact h

theorem collectHandoffs_of_owned {localSilo : SiloAddress} {ring : ConsistentHashRing}
    {entries : List DirectoryEntry}
    (h : ∀ e ∈ entries, ownerOfWithRing e.grainId ring = .ok localSilo) :
    collectHandoffs localSilo ring entries = .ok [] := by
  induction entries with
  | nil => rfl
  | cons e es ih =>
    have he := h e List.mem_cons_self
    have hes := ih (fun c hc ↦ h c (List.mem_cons_of_mem e hc))
    simp [collectHandoffs, he, hes, bind, Except.bind, pure, Except.pure]

theorem ownsAll_scheduleRebuild {d : DistributedGrainDirectory} (h : OwnsAll d)
    (change : MembershipChange) :
    OwnsAll (d.scheduleRebuild change) := by
  intro e he
  rw [scheduleRebuild_owned] at he
  exact (h e he).congr (scheduleRebuild_ring d change) (scheduleRebuild_localSilo d change)

theorem ownsAll_changeRing {d : DistributedGrainDirectory} (h : OwnsAll d)
    (active : List SiloAddress) :
    OwnsAll (d.changeRing active).1 := by
  by_cases ha : active = []
  · subst ha
    have hc := collectHandoffs_of_owned h
    simp only [changeRing, ne_eq, not_true_eq_false, if_false, hc, List.map_nil, List.foldl_nil]
    exact fun e he ↦ (h e he).congr rfl rfl
  · rw [changeRing_eq d ha, ownsAll_iff]
    intro g hg
    obtain ⟨e, he⟩ := Option.ne_none_iff_exists'.mp hg
    rw [keptAfter_get ha, Option.filter_eq_some_iff] at he
    exact ownerOfWithRing_ok_iff.mpr (by simpa using he.2)

theorem ownsAll_finishRebuild {d : DistributedGrainDirectory} (h : OwnsAll d)
    (responses : SiloAddress → Option (List DirectoryEntry))
    (hr : ∀ task ∈ d.rebuild, ∀ e ∈ task.existingEntries.items ++
      collectCandidates task.peers responses,
      OwnsGrain d e.grainId) : OwnsAll (d.finishRebuild responses).1 := by
  obtain ⟨hring, hlocal, -⟩ := Reconciliation.finishRebuild_static d responses
  intro e he
  rcases Reconciliation.finishRebuild_get (Table.get_of_mem he) with hm | ⟨task, htask, hm⟩
  · exact (h e (Table.mem_of_get hm)).congr hring hlocal
  · exact (hr task htask e hm).congr hring hlocal

end

theorem ownsAll_handle {d : DistributedGrainDirectory} (h : OwnsAll d) (o : DirectoryOp)
    (ho : ∀ g, claimed o = some g → d.owned.get g = none → OwnsGrain d g) :
    OwnsAll (d.handle o) := by
  obtain ⟨hr, hl, -⟩ := handle_static d o
  rw [ownsAll_iff] at h ⊢
  intro g hg
  by_cases hn : d.owned.get g = none
  · rcases handle_new hg with hd | hd | hd
    · exact absurd hn hd
    · exact OwnsGrain.congr hd hr hl
    · exact (ho g hd hn).congr hr hl
  · exact (h g hn).congr hr hl

theorem ownsAll_step {s s' : DirectoryRun} {e : DirectoryEvent} (h : OwnsAll s.directory)
    (ho : StaysInPartition s e) (hs : step s e = some s') : OwnsAll s'.directory := by
  cases e with
  | op o =>
    obtain rfl := Option.some.inj hs
    exact ownsAll_handle h o ho
  | changeMembership active =>
    have hc := ownsAll_changeRing h active
    simp only [step] at hs
    split at hs <;> next hd =>
      obtain rfl := Option.some.inj hs
      rw [hd] at hc
      exact hc
  | returnFromChange i =>
    obtain ⟨change, -, rfl⟩ := Option.map_eq_some_iff.mp hs
    exact ownsAll_scheduleRebuild h change
  | finishRebuild responses =>
    obtain rfl := Option.some.inj hs
    exact ownsAll_finishRebuild h responses ho

/-- The directory holds grains of its own partition only, in every run in which
inbound requests place, and rebuilds install, nothing else. -/
theorem partition_owned (localSilo : SiloAddress) (ring : ConsistentHashRing)
    (activeSilos : List SiloAddress) (s : DirectoryRun)
    (h : Guarded step StaysInPartition ⟨.init localSilo ring activeSilos, []⟩ s) :
      OwnsAll s.directory :=
  h.invariant (fun _ he ↦ absurd he List.not_mem_nil) (fun _ _ _ hi ho hs ↦ ownsAll_step hi ho hs)

omit [StableHash] [SeededRandom]

def twoSiloStart : DirectoryRun :=
  ⟨.init siloA (.ofSilos [siloA, siloB] 1 (by decide)) [siloA, siloB], []⟩

/-- What a peer registers that shares the ring, and what one on an older ring does. -/
def ownRegister : DirectoryEvent := .op (.recvRegister counter1 siloB)

def strayRegister : DirectoryEvent := .op (.recvRegister counter4 siloB)

theorem ownRegister_stays :
    letI := sampleHash
    letI := sampleRandom
    StaysInPartition twoSiloStart ownRegister := by
  intro g hg _
  obtain rfl := Option.some.inj hg
  decide

theorem partition_owned_register :
    letI := sampleHash
    letI := sampleRandom
    ∃ s, exec step twoSiloStart [ownRegister] = some s ∧
      s.directory.owned.get counter1 ≠ none ∧ OwnsAll s.directory :=
  letI := sampleHash
  letI := sampleRandom
  ⟨_, rfl, by decide, partition_owned siloA _ [siloA, siloB] _
    ((Guarded.refl : Guarded step StaysInPartition twoSiloStart twoSiloStart).next
      ownRegister_stays rfl)⟩

theorem stray_register_stays :
    letI := sampleHash
    letI := sampleRandom
    ¬ ∀ s, Reachable step twoSiloStart s → OwnsAll s.directory := by
  intro h
  have hs := h _ (@reachable_of_exec _ _ _ _ _ [strayRegister] rfl)
  exact absurd (hs ⟨counter4, siloB, 1⟩ (List.mem_singleton_self _)) (by decide)

end Pyleans.Ownership
