import Pyleans.Server.Cluster

namespace Pyleans.SingleActivation

open Library Cluster

section

variable [StableHash]

def PlacedOn (ring : ConsistentHashRing) (s : Cluster) (g : GrainId) (silo : SiloAddress) : Prop :=
  ∃ o ∈ ring.ownerOf (hashGrainId g), (s.directories o).NamesSilo g silo

/-- The owner that the silo's own directory would ask names this silo as the host. -/
abbrev Placed (s : Cluster) (g : GrainId) (silo : SiloAddress) : Prop :=
  PlacedOn (s.directories silo).ring s g silo

instance (ring : ConsistentHashRing) (s : Cluster) (g : GrainId) (silo : SiloAddress) :
    Decidable (PlacedOn ring s g silo) :=
  inferInstanceAs (Decidable
    (∃ o ∈ ring.ownerOf (hashGrainId g), (s.directories o).NamesSilo g silo))

/-- An activation is added only where the directory places the grain, and an
unregistration reaches the partition only while its silo has none. -/
def Timely (s : Cluster) : ClusterAction → Prop
  | .advance (.activating c host) => Placed s c.grainId host
  | .advance (.leaving host g) => (s.runtimes host).hosts g = false
  | .advance (.unregistering _ g silo) => (s.runtimes silo).hosts g = false
  | _ => True

instance (s : Cluster) : ∀ a, Decidable (Timely s a)
  | .advance (.activating c host) => inferInstanceAs (Decidable (Placed s c.grainId host))
  | .advance (.leaving host g) => inferInstanceAs (Decidable ((s.runtimes host).hosts g = false))
  | .advance (.unregistering _ g silo) =>
    inferInstanceAs (Decidable ((s.runtimes silo).hosts g = false))
  | .advance (.routing ..) | .advance (.resolving ..) | .advance (.resolved ..)
  | .advance (.calling ..) | .advance (.awaiting ..) | .advance (.activated ..)
  | .advance (.deactivating ..) | .advance (.stopping ..) | .invoke .. | .deactivate ..
  | .finish .. | .cacheHit .. | .connectionLost .. | .turn .. => .isTrue trivial

/-- Every silo runs its own directory, and all of them share the ring. -/
def Steady (ring : ConsistentHashRing) (directories : SiloAddress → DistributedGrainDirectory) :
    Prop :=
  ∀ t, (directories t).localSilo = t ∧ (directories t).ring = ring

/-- Wherever a grain is live, its owner places it there. -/
structure HostsPlaced (ring : ConsistentHashRing) (s : Cluster) : Prop where
  steady : Steady ring s.directories
  placed : ∀ t g, (s.runtimes t).hosts g = true → PlacedOn ring s g t

variable {ring : ConsistentHashRing} {s s' : Cluster} {g : GrainId} {t u : SiloAddress}

theorem PlacedOn.unique (ht : PlacedOn ring s g t) (hu : PlacedOn ring s g u) : t = u := by
  obtain ⟨o, ho, e, he, rfl⟩ := ht
  obtain ⟨o', ho', e', he', rfl⟩ := hu
  obtain rfl := Option.mem_unique ho ho'
  rw [Option.mem_unique he he']

theorem PlacedOn.of_directories (hp : PlacedOn ring s g t) (hd : s'.directories = s.directories) :
    PlacedOn ring s' g t := by
  rwa [PlacedOn, hd]

theorem PlacedOn.of_update {o : SiloAddress} {d : DistributedGrainDirectory}
    (hp : PlacedOn ring s g t) (hd : s'.directories = Function.update s.directories o d)
    (hn : (s.directories o).NamesSilo g t → d.NamesSilo g t) : PlacedOn ring s' g t := by
  obtain ⟨o', ho', hn'⟩ := hp
  refine ⟨o', ho', ?_⟩
  rw [hd]
  by_cases h : o' = o
  · subst h
    rw [Function.update_self]
    exact hn hn'
  · rwa [Function.update_of_ne h]

theorem PlacedOn.of_unregister {o silo : SiloAddress} {k : GrainId} (hp : PlacedOn ring s g t)
    (hd : s'.directories = Function.update s.directories o
      ((s.directories o).unregisterLocal k silo))
    (hk : (s.runtimes silo).hosts k = false) (ht : (s.runtimes t).hosts g = true) :
      PlacedOn ring s' g t := by
  refine hp.of_update hd fun hn ↦ DistributedGrainDirectory.unregisterLocal_names hn ?_
  rintro rfl rfl
  rw [hk] at ht
  cases ht

omit [StableHash] in
theorem Steady.update {directories : SiloAddress → DistributedGrainDirectory} {o : SiloAddress}
    {d : DistributedGrainDirectory} (h : Steady ring directories)
    (hl : d.localSilo = (directories o).localSilo) (hr : d.ring = (directories o).ring) :
    Steady ring (Function.update directories o d) := by
  intro t
  by_cases ht : t = o
  · subst ht
    rw [Function.update_self, hl, hr]
    exact h t
  · rw [Function.update_of_ne ht]
    exact h t

omit [StableHash] in
theorem steady_effect {a : ClusterAction} (h : Steady ring s.directories) (he : Effect s s' a) :
    Steady ring s'.directories := by
  cases he with
  | quiet hd _ | insert hd _ | pop hd _ => rwa [hd]
  | resolve he hd _ =>
    obtain ⟨hr, hl, -⟩ := DistributedGrainDirectory.resolveOrActivateLocal_static he
    rw [hd]
    exact h.update hl hr
  | leave hd _ | unregister hd _ =>
    obtain ⟨hr, hl, -⟩ := DistributedGrainDirectory.unregisterLocal_static ..
    rw [hd]
    exact h.update hl hr

theorem placed_effect {a : ClusterAction} (hi : HostsPlaced ring s) (hok : Timely s a)
    (he : Effect s s' a) (ht : (s'.runtimes t).hosts g = true) : PlacedOn ring s' g t := by
  cases he with
  | quiet hd hr =>
    rw [hr] at ht
    exact (hi.placed t g ht).of_directories hd
  | resolve he hd hr =>
    rw [hr] at ht
    exact (hi.placed t g ht).of_update hd
      (DistributedGrainDirectory.resolveOrActivateLocal_names he)
  | leave hd hr | unregister hd hr =>
    rw [hr] at ht
    exact (hi.placed t g ht).of_unregister hd hok ht
  | @insert c host hd hr =>
    apply PlacedOn.of_directories _ hd
    rw [hr] at ht
    by_cases h : t = host
    · subst h
      rw [Function.update_self, GrainRuntime.insertActivation_hosts, Bool.or_eq_true,
        decide_eq_true_eq] at ht
      rcases ht with rfl | ht
      · rw [← (hi.steady t).2]
        exact hok
      · exact hi.placed t g ht
    · rw [Function.update_of_ne h] at ht
      exact hi.placed t g ht
  | @pop host k number hd hr =>
    apply PlacedOn.of_directories _ hd
    rw [hr] at ht
    by_cases h : t = host
    · subst h
      rw [Function.update_self, GrainRuntime.popActivation_hosts, Bool.and_eq_true] at ht
      exact hi.placed t g ht.2
    · rw [Function.update_of_ne h] at ht
      exact hi.placed t g ht

theorem hostsPlaced_step [SeededRandom] {placement : SiloAddress → PlacementStrategy}
    {a : ClusterAction} (hi : HostsPlaced ring s) (hok : Timely s a)
    (hs : s.step placement a = some s') :
    HostsPlaced ring s' :=
  ⟨steady_effect hi.steady (step_effect hs), fun _ _ ht ↦ placed_effect hi hok (step_effect hs) ht⟩

theorem hostsPlaced_start {directories : SiloAddress → DistributedGrainDirectory}
    (hd : Steady ring directories) : HostsPlaced ring (start directories .init) := by
  refine ⟨hd, fun t g ht ↦ ?_⟩
  cases ht

/-- A grain is live on one silo at most as long as every step is timely. -/
theorem single_activation [SeededRandom] (placement : SiloAddress → PlacementStrategy)
    (ring : ConsistentHashRing) (directories : SiloAddress → DistributedGrainDirectory)
    (hd : Steady ring directories) (s : Cluster)
    (h : Guarded (Cluster.step placement) Timely (start directories .init) s) (g : GrainId)
    (t u : SiloAddress) (ht : (s.runtimes t).hosts g = true) (hu : (s.runtimes u).hosts g = true) :
    t = u := by
  have hi := h.invariant (hostsPlaced_start hd) fun _ _ _ hi hok hs ↦ hostsPlaced_step hi hok hs
  exact (hi.placed t g ht).unique (hi.placed u g hu)

end

def activateOnA : List ClusterAction :=
  [.invoke siloA counter1, .advance (.routing (sampleCall 0 siloA) false),
    .advance (.resolved (sampleCall 0 siloA) false ⟨counter1, siloA, 1⟩),
    .advance (.activating (sampleCall 0 siloA) siloA)]

def callFromB : List ClusterAction :=
  [.invoke siloB counter1, .advance (.routing (sampleCall 1 siloB) false),
    .advance (.resolving (sampleCall 1 siloB) false siloA "PreferLocalPlacement"),
    .advance (.resolved (sampleCall 1 siloB) false ⟨counter1, siloA, 1⟩)]

def deactivateOnA : List ClusterAction :=
  [.deactivate siloA counter1, .advance (.deactivating siloA counter1 0),
    .turn ⟨siloA, 0, .sentinel⟩, .advance (.stopping siloA counter1 0),
    .advance (.leaving siloA counter1)]

def activateOnB : List ClusterAction :=
  [.invoke siloB counter1, .advance (.routing (sampleCall 2 siloB) false),
    .advance (.resolving (sampleCall 2 siloB) false siloA "PreferLocalPlacement"),
    .advance (.resolved (sampleCall 2 siloB) false ⟨counter1, siloB, 2⟩),
    .advance (.activating (sampleCall 2 siloB) siloB)]

def staleCall : List ClusterAction :=
  [.advance (.calling (sampleCall 1 siloB) siloA),
    .advance (.activating (sampleCall 1 siloB) siloA)]

def hosting (s : Cluster) : Bool × Bool :=
  ((s.runtimes siloA).hosts counter1, (s.runtimes siloB).hosts counter1)

theorem pair_steady : Steady (.ofSilos [siloA, siloB] 1 (by decide)) pair := fun _ ↦ ⟨rfl, rfl⟩

def uncached : ClusterAction → Bool
  | .cacheHit .. => false
  | _ => true

def movingRun : List ClusterAction := activateOnA ++ callFromB ++ deactivateOnA ++ activateOnB

theorem movingRun_hosting :
    letI := sampleHash
    letI := sampleRandom
    (exec (Cluster.step fun _ ↦ preferLocalPlacement) (start pair .init) movingRun).map hosting =
      some (false, true) := by
  decide +kernel

theorem movingRun_timely :
    letI := sampleHash
    letI := sampleRandom
    Meets (Cluster.step fun _ ↦ preferLocalPlacement) Timely (start pair .init) movingRun := by
  decide +kernel

theorem staleRun_hosting :
    letI := sampleHash
    letI := sampleRandom
    (exec (Cluster.step fun _ ↦ preferLocalPlacement) (start pair .init)
      (movingRun ++ staleCall)).map
      hosting = some (true, true) := by
  decide +kernel

theorem single_activation_moved :
    letI := sampleHash
    letI := sampleRandom
    ∃ s, exec (Cluster.step fun _ ↦ preferLocalPlacement) (start pair .init) movingRun = some s ∧
      ∀ t, (s.runtimes t).hosts counter1 = true → t = siloB := by
  obtain ⟨s, hs, hh⟩ := Option.map_eq_some_iff.mp movingRun_hosting
  refine ⟨s, hs, fun t ht ↦ ?_⟩
  exact @single_activation sampleHash sampleRandom _ _ pair pair_steady s
    (guarded_of_exec hs movingRun_timely) counter1 t siloB ht (congrArg Prod.snd hh)

/-- The call that was resolved before `siloA` gave the grain up arrives after
`siloB` has activated it. No cache takes part. -/
theorem stale_call_activates_twice :
    letI := sampleHash
    letI := sampleRandom
    ¬ ∀ as s, as.all uncached = true →
      exec (Cluster.step fun _ ↦ preferLocalPlacement) (start pair .init) as = some s →
      ∀ t u, (s.runtimes t).hosts counter1 = true →
      (s.runtimes u).hosts counter1 = true → t = u := by
  intro h
  obtain ⟨s, hs, hh⟩ := Option.map_eq_some_iff.mp staleRun_hosting
  have hab := h _ s (by decide) hs siloA siloB (congrArg Prod.fst hh) (congrArg Prod.snd hh)
  exact absurd hab (by decide)

end Pyleans.SingleActivation
