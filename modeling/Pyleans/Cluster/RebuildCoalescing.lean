import Pyleans.Cluster.NewArcs
import Pyleans.Cluster.Ownership
import Pyleans.Cluster.RingLaws
import Pyleans.Library.Pool

namespace Pyleans.RebuildCoalescing

open Library ConsistentHashRing DistributedGrainDirectory

inductive RebuildPhase
  | waiting
  | querying
  | notifying

/-- An `asyncio` task of the coordinator that is not done. A cancelled one only
has to end. -/
structure Rebuild where
  number : ℕ
  task : RebuildTask
  phase : RebuildPhase
  cancelled : Bool

/-- A directory with its rebuild coordinator. `changes` are the calls of
`on_membership_changed` past their locked section, `entering` the calls of
`schedule_rebuild` that wait for the end of the task they cancelled. `owed`
collects the arcs computed since a rebuild last ran to completion; no step
reads it. -/
structure Coordinator where
  directory : DistributedGrainDirectory
  changes : List MembershipChange
  entering : List (ℕ × MembershipChange)
  rebuilds : List Rebuild
  activeTask : Option ℕ
  nextNumber : ℕ
  owed : List Arc

inductive CoordinatorEvent
  | op (op : DirectoryOp)
  | changeMembership (active : List SiloAddress)
  | returnFromChange (i : ℕ)
  | resume (i : ℕ)
  | gracePassed (i : ℕ)
  | answered (i : ℕ) (responses : SiloAddress → Option (List DirectoryEntry))
  | duplicatesNotified (i : ℕ)
  | taskEnded (i : ℕ)

def Schedules (change : MembershipChange) : Prop := change.newArcs ≠ [] ∧ change.peers ≠ []

instance (change : MembershipChange) : Decidable (Schedules change) := by
  unfold Schedules; infer_instance

namespace Coordinator

def init (d : DistributedGrainDirectory) : Coordinator := ⟨d, [], [], [], none, 0, []⟩

def start (s : Coordinator) (change : MembershipChange) : Coordinator :=
  { s with
    rebuilds := s.rebuilds ++
      [⟨s.nextNumber, ⟨change.newArcs, change.peers, change.existingSnapshot⟩, .waiting, false⟩]
    activeTask := some s.nextNumber
    nextNumber := s.nextNumber + 1 }

def running (s : Coordinator) : Option ℕ :=
  s.activeTask.filter fun n ↦ s.rebuilds.any fun r ↦ r.number = n

def cancel (s : Coordinator) (n : ℕ) : Coordinator :=
  { s with rebuilds := s.rebuilds.map fun r ↦
    if r.number = n then { r with cancelled := true } else r }

def schedule (s : Coordinator) (change : MembershipChange) : Coordinator :=
  match s.running with
  | none => s.start change
  | some n => { s.cancel n with entering := s.entering ++ [(n, change)] }

def complete (s : Coordinator) (i : ℕ) : Coordinator :=
  { s with rebuilds := s.rebuilds.eraseIdx i, owed := [] }

/-- What the rebuild `r` at `i` does once it has its answers. It pauses again
only to notify duplicates. -/
def takeAnswers (s : Coordinator) (i : ℕ) (r : Rebuild)
    (responses : SiloAddress → Option (List DirectoryEntry)) : Coordinator :=
  let outcome := { s.directory with rebuild := some r.task }.finishRebuild responses
  let s' := { s with directory := outcome.1 }
  if outcome.2 = [] then s'.complete i
  else { s' with rebuilds := s.rebuilds.set i { r with phase := .notifying } }

/-- The rebuild at `i`, if it is in the given phase and has not been cancelled. -/
def at? (s : Coordinator) (i : ℕ) (inPhase : RebuildPhase → Bool) : Option Rebuild :=
  s.rebuilds[i]?.filter fun r ↦ inPhase r.phase && !r.cancelled

end Coordinator

variable [StableHash] [SeededRandom]

def step (s : Coordinator) : CoordinatorEvent → Option Coordinator
  | .op o => some { s with directory := s.directory.handle o }
  | .changeMembership active =>
    match s.directory.changeRing active with
    | (d, .error _) => some { s with directory := d }
    | (d, .ok change) =>
      some { s with
        directory := d, changes := s.changes ++ [change], owed := s.owed ++ change.newArcs }
  | .returnFromChange i =>
    s.changes[i]?.map fun change ↦
      let s' := { s with changes := s.changes.eraseIdx i }
      if Schedules change then s'.schedule change else s'
  | .resume i =>
    (s.entering[i]?.filter fun e ↦ !s.rebuilds.any fun r ↦ r.number = e.1).map fun e ↦
      { s with entering := s.entering.eraseIdx i }.start e.2
  | .gracePassed i =>
    (s.at? i fun p ↦ p matches .waiting).map fun r ↦
      { s with rebuilds := s.rebuilds.set i { r with phase := .querying } }
  | .answered i responses =>
    (s.at? i fun p ↦ p matches .querying).map fun r ↦ s.takeAnswers i r responses
  | .duplicatesNotified i => (s.at? i fun p ↦ p matches .notifying).map fun _ ↦ s.complete i
  | .taskEnded i =>
    (s.rebuilds[i]?.filter Rebuild.cancelled).map fun _ ↦
      { s with rebuilds := s.rebuilds.eraseIdx i }

/-- The arcs of a rebuild that is still going on or certain to start. -/
def Outstanding (s : Coordinator) (arcs : List Arc) : Prop :=
  (∃ change ∈ s.changes, Schedules change ∧ change.newArcs = arcs) ∨
  (∃ e ∈ s.entering, e.2.newArcs = arcs) ∨
  ∃ r ∈ s.rebuilds, r.cancelled = false ∧ r.task.arcs = arcs

def LastRebuild (s : Coordinator) (r : Rebuild) : Prop :=
  (∀ change ∈ s.changes, ¬ Schedules change) ∧ s.entering = [] ∧
    s.rebuilds.filter (fun r ↦ !r.cancelled) = [r]

def Regains (ring : ConsistentHashRing) (owed : List Arc) (l : SiloAddress) (h : ℤ) : Prop :=
  InArcs owed h ∧ ring.ownerOf h = some l

/-- The rebuilds start in the order of their changes. A change that schedules
one finds, at the end of every arc of its ring with an owed hash of the local
silo, another owner before. One that schedules none while a rebuild is
outstanding gains the local silo neither an arc nor an owed hash. -/
def KeepsOwed (s : Coordinator) : CoordinatorEvent → Prop
  | .changeMembership active =>
    match s.directory.changeRing active with
    | (_, .error _) => True
    | (d, .ok change) =>
      if Schedules change then
        ∀ h, Regains d.ring s.owed d.localSilo h →
          NewArcs.TwoHashes d.ring ∧ s.directory.ring.ownerOf (d.ring.arcEnd h) ≠ some d.localSilo
      else
        (∃ arcs, Outstanding s arcs) → change.newArcs = [] ∧
          ∀ h, Regains d.ring s.owed d.localSilo h → s.directory.ring.ownerOf h = some d.localSilo
  | .returnFromChange i =>
    (∃ change ∈ s.changes[i]?, Schedules change) → ∀ change ∈ s.changes.take i, ¬ Schedules change
  | _ => True

section

omit [StableHash] [SeededRandom]

variable {s s' : Coordinator} {arcs latest : List Arc} {i : ℕ}

theorem outstanding_start (s : Coordinator) (change : MembershipChange) :
    Outstanding (s.start change) arcs ↔ change.newArcs = arcs ∨ Outstanding s arcs := by
  simp only [Outstanding, Coordinator.start, List.mem_append, List.mem_singleton, or_and_right,
    exists_or, exists_eq_left, true_and]
  exact iff_of_eq (by ac_rfl)

theorem outstanding_eraseChange {change : MembershipChange} (h : s.changes[i]? = some change) :
    Outstanding s arcs ↔ Schedules change ∧ change.newArcs = arcs ∨
      Outstanding { s with changes := s.changes.eraseIdx i } arcs := by
  simp only [Outstanding, mem_iff_of_getElem? h, or_and_right, exists_or, exists_eq_left]
  exact iff_of_eq (by ac_rfl)

theorem outstanding_eraseEntering {e : ℕ × MembershipChange} (h : s.entering[i]? = some e) :
    Outstanding s arcs ↔ e.2.newArcs = arcs ∨
      Outstanding { s with entering := s.entering.eraseIdx i } arcs := by
  simp only [Outstanding, mem_iff_of_getElem? h, or_and_right, exists_or, exists_eq_left]
  exact iff_of_eq (by ac_rfl)

theorem outstanding_eraseRebuild {r : Rebuild} (h : s.rebuilds[i]? = some r) :
    Outstanding s arcs ↔ r.cancelled = false ∧ r.task.arcs = arcs ∨
      Outstanding { s with rebuilds := s.rebuilds.eraseIdx i } arcs := by
  simp only [Outstanding, mem_iff_of_getElem? h, or_and_right, exists_or, exists_eq_left]
  exact iff_of_eq (by ac_rfl)

theorem outstanding_setRebuild {r : Rebuild} (h : s.rebuilds[i]? = some r) (phase : RebuildPhase) :
    Outstanding { s with rebuilds := s.rebuilds.set i { r with phase := phase } } arcs ↔
      Outstanding s arcs := by
  rw [outstanding_eraseRebuild h]
  simp only [Outstanding, mem_set_iff_of_getElem? h, or_and_right, exists_or, exists_eq_left]
  exact iff_of_eq (by ac_rfl)

theorem LastRebuild.outstanding_iff {r : Rebuild} (h : LastRebuild s r) :
    Outstanding s arcs ↔ r.task.arcs = arcs := by
  have hmem : ∀ x, x ∈ s.rebuilds ∧ x.cancelled = false ↔ x = r := by
    intro x
    have hx : x ∈ s.rebuilds.filter (fun r ↦ !r.cancelled) ↔ x ∈ s.rebuilds ∧
      (!x.cancelled) = true :=
      List.mem_filter
    rw [h.2.2, List.mem_singleton] at hx
    simpa using hx.symm
  constructor
  · rintro (⟨change, hc, hs, -⟩ | ⟨e, he, -⟩ | ⟨x, hx, hn, ha⟩)
    · exact absurd hs (h.1 change hc)
    · exact absurd (h.2.1 ▸ he) List.not_mem_nil
    · rw [← (hmem x).mp ⟨hx, hn⟩]
      exact ha
  · intro ha
    exact .inr (.inr ⟨r, ((hmem r).mpr rfl).1, ((hmem r).mpr rfl).2, ha⟩)

end

/-- `latest` is what the last change to schedule a rebuild found. -/
structure Tracks (s : Coordinator) (latest : List Arc) : Prop where
  covers : (∃ arcs, Outstanding s arcs) →
    ∀ h, Regains s.directory.ring s.owed s.directory.localSilo h → InArcs latest h
  outstanding : (∃ arcs, Outstanding s arcs) → s.owed ≠ [] → Outstanding s latest
  last : ∀ change, (s.changes.filter (Schedules ·)).getLast? = some change → change.newArcs = latest

section

omit [SeededRandom]

variable {s s' : Coordinator} {latest : List Arc} {i : ℕ}

theorem Tracks.congr (h : Tracks s latest) (hr : s'.directory.ring = s.directory.ring)
    (hl : s'.directory.localSilo = s.directory.localSilo) (ho : s'.owed = s.owed)
    (hout : ∀ arcs, Outstanding s' arcs ↔ Outstanding s arcs)
    (hlast : ∀ change, (s'.changes.filter (Schedules ·)).getLast? = some change →
      (s.changes.filter (Schedules ·)).getLast? = some change) : Tracks s' latest where
  covers ha x hx := by
    rw [hr, hl, ho] at hx
    exact h.covers (ha.imp fun arcs ↦ (hout arcs).mp) x hx
  outstanding ha hne := by
    rw [ho] at hne
    exact (hout latest).mpr (h.outstanding (ha.imp fun arcs ↦ (hout arcs).mp) hne)
  last change hc := h.last change (hlast change hc)

theorem Tracks.complete (h : Tracks s latest) (i : ℕ) : Tracks (s.complete i) latest where
  covers _ x hx := by
    obtain ⟨⟨arc, harc, -⟩, -⟩ := hx
    exact absurd harc List.not_mem_nil
  outstanding _ hne := absurd rfl hne
  last := h.last

theorem changeRing_error {d d' : DistributedGrainDirectory} {active : List SiloAddress}
    {e : DirectoryError} (h : d.changeRing active = (d', .error e)) :
    d'.ring = d.ring ∧ d'.localSilo = d.localSilo := by
  by_cases ha : active = []
  · subst ha
    simp only [changeRing, ne_eq, not_true_eq_false, if_false] at h
    split at h
    · rw [← (Prod.mk.inj h).1]
      exact ⟨rfl, rfl⟩
    · exact absurd (Prod.mk.inj h).2 (by simp)
  · rw [changeRing_eq d ha] at h
    exact absurd (Prod.mk.inj h).2 (by simp)

theorem changeRing_ok {d d' : DistributedGrainDirectory} {active : List SiloAddress}
    {change : MembershipChange} (h : d.changeRing active = (d', .ok change)) :
    d'.localSilo = d.localSilo ∧
      change.newArcs = computeNewArcs (some d.ring) d'.ring d.localSilo := by
  simp only [changeRing] at h
  split at h
  · exact absurd (Prod.mk.inj h).2 (by simp)
  · obtain ⟨rfl, hc⟩ := Prod.mk.inj h
    rw [← Except.ok.inj hc]
    exact ⟨rfl, rfl⟩

theorem Tracks.changeMembership (h : Tracks s latest) {active : List SiloAddress}
    {d : DistributedGrainDirectory} {change : MembershipChange}
    (hd : s.directory.changeRing active = (d, .ok change))
    (hok : KeepsOwed s (.changeMembership active)) :
    ∃ latest', Tracks { s with directory := d, changes := s.changes ++ [change],
                               owed := s.owed ++ change.newArcs } latest' := by
  obtain ⟨hl, hnew⟩ := changeRing_ok hd
  simp only [KeepsOwed, hd] at hok
  by_cases hc : Schedules change
  · rw [if_pos hc] at hok
    refine ⟨change.newArcs, ⟨fun _ x hx ↦ ?_, fun _ _ ↦ ?_, fun c hlast ↦ ?_⟩⟩
    · rcases inArcs_append.mp hx.1 with ho | ho
      · obtain ⟨htwo, hold⟩ := hok x ⟨ho, hx.2⟩
        rw [hnew]
        exact (NewArcs.covered_iff htwo _ x).mpr ⟨hl ▸ hx.2, hl ▸ hold⟩
      · exact ho
    · exact .inl ⟨change, List.mem_append_right _ (List.mem_singleton_self _), hc, rfl⟩
    · have hp : [change].filter (Schedules ·) = [change] := by simp [hc]
      rw [List.filter_append, hp, List.getLast?_append, List.getLast?_singleton, Option.some_or]
        at hlast
      rw [Option.some.inj hlast]
  · rw [if_neg hc] at hok
    have hp : (s.changes ++ [change]).filter (Schedules ·) = s.changes.filter (Schedules ·) := by
      simp [hc]
    have hout : ∀ arcs, Outstanding { s with directory := d, changes := s.changes ++ [change],
                                             owed := s.owed ++ change.newArcs } arcs →
                                               Outstanding s arcs := by
      rintro arcs (⟨c, hm, hs, ha⟩ | ho)
      · rcases List.mem_append.mp hm with hm | hm
        · exact .inl ⟨c, hm, hs, ha⟩
        · exact absurd (List.mem_singleton.mp hm ▸ hs) hc
      · exact .inr ho
    refine ⟨latest, ⟨fun ha x hx ↦ ?_, fun ha hne ↦ ?_, fun c hlast ↦ ?_⟩⟩
    · obtain ⟨harcs, hkept⟩ := hok (ha.imp hout)
      have ho : Regains d.ring s.owed d.localSilo x := by simpa [harcs] using hx
      exact h.covers (ha.imp hout) x ⟨ho.1, hl ▸ hkept x ho⟩
    · obtain ⟨harcs, -⟩ := hok (ha.imp hout)
      rcases h.outstanding (ha.imp hout) (by simpa [harcs] using hne) with ⟨c, hm, ho⟩ | ho
      · exact .inl ⟨c, List.mem_append_left _ hm, ho⟩
      · exact .inr ho
    · exact h.last c (hp ▸ hlast)

theorem Tracks.schedule (h : Tracks s latest) {change : MembershipChange}
    (hi : s.changes[i]? = some change) (hc : Schedules change)
    (hfirst : ∀ c ∈ s.changes.take i, ¬ Schedules c) :
    Tracks ({ s with changes := s.changes.eraseIdx i }.schedule change) latest := by
  obtain ⟨before, after, hb, hsplit, herase, -⟩ := exists_split hi
  have hbefore : before.filter (Schedules ·) = [] :=
    List.filter_eq_nil_iff.mpr (fun c hm ↦ by simpa using hfirst c (hb ▸ hm))
  have hpending : s.changes.filter (Schedules ·) = change :: (s.changes.eraseIdx i).filter
    (Schedules ·) := by
    rw [herase, hsplit, List.filter_append, List.filter_append, hbefore, List.nil_append,
      List.nil_append, List.filter_cons_of_pos (by simpa using hc)]
  have hlast : ∀ c, ((s.changes.eraseIdx i).filter (Schedules ·)).getLast? = some c →
      (s.changes.filter (Schedules ·)).getLast? = some c := by
    intro c hl
    rw [hpending, List.getLast?_cons, hl, Option.getD_some]
  have hout : Outstanding s change.newArcs := .inl ⟨change, List.mem_of_getElem? hi, hc, rfl⟩
  unfold Coordinator.schedule
  split
  · refine h.congr rfl rfl rfl (fun arcs ↦ ?_) hlast
    rw [outstanding_start, outstanding_eraseChange hi]
    simp only [hc, true_and]
  · refine ⟨fun _ ↦ h.covers ⟨_, hout⟩, fun _ _ ↦ ?_, fun c hl ↦ h.last c (hlast c hl)⟩
    -- Either a later change still waits, or the one that just entered is the latest.
    rcases hrest : (s.changes.eraseIdx i).filter (Schedules ·) with _ | ⟨c, cs⟩
    · have hl := h.last change (by rw [hpending, hrest, List.getLast?_singleton])
      exact .inr (.inl ⟨_, List.mem_append_right _ (List.mem_singleton_self _), hl⟩)
    · obtain ⟨z, hz⟩ :=
        List.getLast?_isSome.mpr (List.cons_ne_nil c cs) |> Option.isSome_iff_exists.mp
      have hm := List.mem_filter.mp (hrest ▸ List.mem_of_getLast? hz)
      exact .inl ⟨z, hm.1, by simpa using hm.2, h.last z (hlast z (hrest ▸ hz))⟩

theorem Tracks.lastRebuild {r : Rebuild} (h : Tracks s latest) (hr : LastRebuild s r) {x : ℤ}
    (hx : Regains s.directory.ring s.owed s.directory.localSilo x) : InArcs r.task.arcs x := by
  have hout : ∃ arcs, Outstanding s arcs := ⟨_, hr.outstanding_iff.mpr rfl⟩
  have howed : s.owed ≠ [] := by
    obtain ⟨⟨arc, harc, -⟩, -⟩ := hx
    exact List.ne_nil_of_mem harc
  rw [hr.outstanding_iff.mp (h.outstanding hout howed)]
  exact h.covers hout x hx

theorem Tracks.takeAnswers (h : Tracks s latest) {r : Rebuild} (hi : s.rebuilds[i]? = some r)
    (responses : SiloAddress → Option (List DirectoryEntry)) : Tracks
      (s.takeAnswers i r responses) latest := by
  obtain ⟨hr, hl, -⟩ := Reconciliation.finishRebuild_static
    { s.directory with rebuild := some r.task } responses
  have hkeep : Tracks { s with directory :=
    ({ s.directory with rebuild := some r.task }.finishRebuild
      responses).1 } latest := h.congr hr hl rfl (fun _ ↦ Iff.rfl) (fun _ ↦ id)
  simp only [Coordinator.takeAnswers]
  split_ifs with hdup
  · exact hkeep.complete i
  · exact hkeep.congr rfl rfl rfl (fun arcs ↦ outstanding_setRebuild hi _) (fun _ ↦ id)

omit [StableHash] in
theorem at?_eq_some {inPhase : RebuildPhase → Bool} {r : Rebuild} (h : s.at? i inPhase = some r) :
    s.rebuilds[i]? = some r := (Option.filter_eq_some_iff.mp h).1

end

theorem Tracks.step {s s' : Coordinator} {latest : List Arc} {e : CoordinatorEvent}
    (h : Tracks s latest) (hok : KeepsOwed s e) (hs : step s e = some s') :
    ∃ latest', Tracks s' latest' := by
  cases e with
  | op o =>
    obtain rfl := Option.some.inj hs
    obtain ⟨hr, hl, -⟩ := handle_static s.directory o
    exact ⟨latest, h.congr hr hl rfl (fun _ ↦ Iff.rfl) (fun _ ↦ id)⟩
  | changeMembership active =>
    simp only [RebuildCoalescing.step] at hs
    split at hs
    · next d e hd =>
      obtain rfl := Option.some.inj hs
      obtain ⟨hr, hl⟩ := changeRing_error hd
      exact ⟨latest, h.congr hr hl rfl (fun _ ↦ Iff.rfl) (fun _ ↦ id)⟩
    · next d change hd =>
      obtain rfl := Option.some.inj hs
      exact h.changeMembership hd hok
  | returnFromChange i =>
    obtain ⟨change, hi, rfl⟩ := Option.map_eq_some_iff.mp hs
    refine ⟨latest, ?_⟩
    split_ifs with hc
    · exact h.schedule hi hc (hok ⟨change, hi, hc⟩)
    · refine h.congr rfl rfl rfl (fun arcs ↦ ?_) (fun c hlast ↦ ?_)
      · rw [outstanding_eraseChange hi]
        simp only [hc, false_and, false_or]
      · obtain ⟨before, after, -, hsplit, herase, -⟩ := exists_split hi
        rw [hsplit, List.filter_append, List.filter_cons_of_neg (by simpa using hc),
          ← List.filter_append, ← herase]
        exact hlast
  | resume i =>
    obtain ⟨e, he, rfl⟩ := Option.map_eq_some_iff.mp hs
    have hi := (Option.filter_eq_some_iff.mp he).1
    refine ⟨latest, h.congr rfl rfl rfl (fun arcs ↦ ?_) (fun _ ↦ id)⟩
    rw [outstanding_start, outstanding_eraseEntering hi]
  | gracePassed i =>
    obtain ⟨r, hr, rfl⟩ := Option.map_eq_some_iff.mp hs
    exact ⟨latest, h.congr rfl rfl rfl (fun arcs ↦ outstanding_setRebuild (at?_eq_some hr) _)
      (fun _ ↦ id)⟩
  | answered i responses =>
    obtain ⟨r, hr, rfl⟩ := Option.map_eq_some_iff.mp hs
    exact ⟨latest, h.takeAnswers (at?_eq_some hr) responses⟩
  | duplicatesNotified i =>
    obtain ⟨r, -, rfl⟩ := Option.map_eq_some_iff.mp hs
    exact ⟨latest, h.complete i⟩
  | taskEnded i =>
    obtain ⟨r, hr, rfl⟩ := Option.map_eq_some_iff.mp hs
    obtain ⟨hi, hc⟩ := Option.filter_eq_some_iff.mp hr
    refine ⟨latest, h.congr rfl rfl rfl (fun arcs ↦ ?_) (fun _ ↦ id)⟩
    rw [outstanding_eraseRebuild hi, hc]
    simp only [Bool.true_eq_false, false_and, false_or]

/-- No coalescing loses an owed hash: the rebuild that is left to run covers
every hash of the arcs computed since the last completed one that the local
silo still owns. -/
theorem coalescing_loses_nothing (d : DistributedGrainDirectory) (s : Coordinator)
    (h : Guarded step KeepsOwed (.init d) s) (r : Rebuild) (hr : LastRebuild s r) (x : ℤ)
    (hx : InArcs s.owed x) (ho : s.directory.ring.ownerOf x = some s.directory.localSilo) :
    InArcs r.task.arcs x := by
  have hinit : Tracks (.init d) [] :=
    ⟨fun _ x hx ↦ absurd hx.1 (by simp [InArcs, Coordinator.init]), fun _ hne ↦ absurd rfl hne,
      fun _ hl ↦ by simp [Coordinator.init] at hl⟩
  have hstep : ∀ s a s', (∃ latest, Tracks s latest) → KeepsOwed s a → step s a = some s' →
      ∃ latest, Tracks s' latest := by
    intro s a s' hi hok hs
    obtain ⟨latest, ht⟩ := hi
    exact ht.step hok hs
  obtain ⟨latest, ht⟩ := h.invariant ⟨[], hinit⟩ hstep
  exact ht.lastRebuild hr ⟨hx, ho⟩

def joiner : DistributedGrainDirectory := .init siloC (.withDefaults [siloA]) [siloA]

/-- `siloC` joins and is gathering what it took over when `siloB` comes; it is taken off the
ring. -/
def joinAndLeave : List CoordinatorEvent :=
  [.changeMembership [siloA, siloC], .returnFromChange 0, .gracePassed 0,
    .changeMembership [siloA, siloB, siloC], .returnFromChange 0,
    .changeMembership [siloA, siloB], .returnFromChange 0]

/-- It is back on it in place of `siloB`, and the rebuild that still runs is cancelled. -/
def putBack : List CoordinatorEvent :=
  [.changeMembership [siloA, siloC], .returnFromChange 0, .taskEnded 0, .resume 0]

def rejoinRun : List CoordinatorEvent :=
  [.changeMembership [siloA, siloC], .returnFromChange 0, .changeMembership [siloA],
    .returnFromChange 0, .changeMembership [siloA, siloB, siloC], .returnFromChange 0, .taskEnded 0,
    .resume 0, .changeMembership [siloA, siloC], .returnFromChange 0]

def sampleOwed : ℤ := hashSiloVirtualNode siloB 0

def summary (s : Coordinator) : Bool × List (Bool × Bool) × Bool × Bool :=
  (s.changes.isEmpty && s.entering.isEmpty,
    s.rebuilds.map (fun r ↦ (r.cancelled, decide (InArcs r.task.arcs sampleOwed))),
    decide (InArcs s.owed sampleOwed),
    decide (s.directory.ring.ownerOf sampleOwed = some s.directory.localSilo))

/-- A change that schedules a rebuild puts the local silo on a ring that it was not on. One
that schedules none takes it off the ring or only lets others join. -/
def JoinsAnew (old : ConsistentHashRing) :
    DistributedGrainDirectory × Except DirectoryError MembershipChange → Prop
  | (_, .error _) => True
  | (d, .ok change) =>
    if Schedules change then NewArcs.TwoHashes d.ring ∧ d.localSilo ∉ old.silos
    else change.newArcs = [] ∧ (d.localSilo ∉ d.ring.silos ∨
      old.virtualNodesPerSilo = d.ring.virtualNodesPerSilo ∧ d.localSilo ∈ old.silos ∧
        ∀ t ∈ old.silos, t ∈ d.ring.silos)

instance decidableJoinsAnew (old : ConsistentHashRing) : ∀ r, Decidable (JoinsAnew old r)
  | (_, .error _) => inferInstanceAs (Decidable True)
  | (_, .ok _) => by unfold JoinsAnew; infer_instance

def InTurn (s : Coordinator) : CoordinatorEvent → Prop
  | .changeMembership active => JoinsAnew s.directory.ring (s.directory.changeRing active)
  | .returnFromChange i => s.changes.take i = []
  | _ => True

instance decidableInTurn (s : Coordinator) : ∀ e, Decidable (InTurn s e)
  | .changeMembership active =>
    inferInstanceAs (Decidable (JoinsAnew s.directory.ring (s.directory.changeRing active)))
  | .returnFromChange i => inferInstanceAs (Decidable (s.changes.take i = []))
  | .op _ | .resume _ | .gracePassed _ | .answered _ _ | .duplicatesNotified _ | .taskEnded _ =>
    inferInstanceAs (Decidable True)

section

omit [SeededRandom]

theorem keepsOwed_of_inTurn {s : Coordinator} {e : CoordinatorEvent} (h : InTurn s e) :
    KeepsOwed s e := by
  cases e with
  | changeMembership active =>
    simp only [InTurn, JoinsAnew, KeepsOwed] at h ⊢
    split at h
    · trivial
    · split_ifs at h ⊢
      · exact fun _ _ ↦ ⟨h.1, fun howned ↦ h.2 (ownerOf_mem howned)⟩
      · refine fun _ ↦ ⟨h.1, fun x hx ↦ ?_⟩
        rcases h.2 with hoff | ⟨hv, hon, hjoin⟩
        · exact absurd (ownerOf_mem hx.2) hoff
        · exact ownerOf_before_joins hv hon hjoin hx.2
  | returnFromChange i =>
    intro _ c hc
    rw [show s.changes.take i = [] from h] at hc
    exact absurd hc List.not_mem_nil
  | op | resume | gracePassed | answered | duplicatesNotified | taskEnded => trivial

theorem exists_lastRebuild {s : Coordinator} {covered owed kept : Bool}
    (h : summary s = (true, [(false, covered)], owed, kept)) :
    ∃ r, LastRebuild s r ∧ decide (InArcs r.task.arcs sampleOwed) = covered ∧
      decide (InArcs s.owed sampleOwed) = owed ∧
      decide (s.directory.ring.ownerOf sampleOwed = some s.directory.localSilo) = kept := by
  simp only [summary, Prod.mk.injEq, Bool.and_eq_true, List.isEmpty_iff] at h
  obtain ⟨⟨hc, he⟩, hr, howed, hkept⟩ := h
  obtain ⟨r, hr, hf⟩ := List.map_eq_singleton_iff.mp hr
  obtain ⟨hn, hcov⟩ := Prod.mk.inj hf
  refine ⟨r, ⟨by simp [hc], he, ?_⟩, hcov, howed, hkept⟩
  rw [hr, List.filter_cons_of_pos (by rw [hn]; rfl), List.filter_nil]

end

omit [StableHash] [SeededRandom]

theorem joinAndLeave_summary :
    letI := spreadHash
    letI := sampleRandom
    (exec step (.init joiner) joinAndLeave).map summary =
      some (true, [(false, true)], true, false) := by
  decide +kernel

theorem putBack_summary :
    letI := spreadHash
    letI := sampleRandom
    (exec step (.init joiner) (joinAndLeave ++ putBack)).map summary =
      some (true, [(false, true)], true, true) := by
  decide +kernel

theorem putBack_inTurn :
    letI := spreadHash
    letI := sampleRandom
    Meets step InTurn (.init joiner) (joinAndLeave ++ putBack) := by
  decide +kernel

theorem rejoinRun_summary :
    letI := spreadHash
    letI := sampleRandom
    (exec step (.init joiner) rejoinRun).map summary =
      some (true, [(false, false)], true, true) := by
  decide +kernel

theorem coalescing_loses_nothing_putBack :
    letI := spreadHash
    letI := sampleRandom
    ∃ m s r, exec step (.init joiner) joinAndLeave = some m ∧ InArcs m.owed sampleOwed ∧
      exec step m putBack = some s ∧ LastRebuild s r ∧ InArcs s.owed sampleOwed ∧
        InArcs r.task.arcs sampleOwed := by
  let _ := spreadHash
  let _ := sampleRandom
  obtain ⟨s, hs, hsum⟩ := Option.map_eq_some_iff.mp putBack_summary
  obtain ⟨m, hm, hback⟩ := exec_append.mp hs
  obtain ⟨_, -, -, hearly, -⟩ :=
    exists_lastRebuild (Option.map_eq_some_iff.mp joinAndLeave_summary |>.elim fun _ h ↦
    Option.some.inj (hm.symm.trans h.1) ▸ h.2)
  obtain ⟨r, hr, -, howed, hkept⟩ := exists_lastRebuild hsum
  have hmeets : Meets step KeepsOwed (.init joiner) (joinAndLeave ++ putBack) :=
    putBack_inTurn.imp (I := fun _ ↦ True) trivial (fun _ _ _ _ _ _ ↦ trivial) fun _ _ _ ↦
      keepsOwed_of_inTurn
  exact ⟨m, s, r, hm, of_decide_eq_true hearly, hback, hr, of_decide_eq_true howed,
    coalescing_loses_nothing joiner s (guarded_of_exec hs hmeets) r hr _ (of_decide_eq_true howed)
      (of_decide_eq_true hkept)⟩

theorem rejoin_loses_arcs :
    letI := spreadHash
    letI := sampleRandom
    ¬ ∀ s, Reachable step (.init joiner) s → ∀ r, LastRebuild s r → ∀ x, InArcs s.owed x →
      s.directory.ring.ownerOf x = some s.directory.localSilo → InArcs r.task.arcs x := by
  let _ := spreadHash
  let _ := sampleRandom
  intro h
  obtain ⟨s, hs, hsum⟩ := Option.map_eq_some_iff.mp rejoinRun_summary
  obtain ⟨r, hr, hmissed, howed, hkept⟩ := exists_lastRebuild hsum
  exact of_decide_eq_false hmissed (h s (reachable_of_exec hs) r hr _ (of_decide_eq_true howed)
    (of_decide_eq_true hkept))

end Pyleans.RebuildCoalescing
