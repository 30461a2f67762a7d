import Pyleans.Cluster.DistributedDirectory
import Pyleans.Cluster.GrainDirectory
import Pyleans.Server.Runtime

namespace Pyleans

open Library

inductive LocalDirectoryError
  | noSilosAvailable (message : String)
  | runtimeError (message : String)
deriving DecidableEq, Repr

structure LocalGrainDirectory where
  localSilo : SiloAddress
  entries : EntryTable
  epoch : ℤ

namespace LocalGrainDirectory

def init (localSilo : SiloAddress) : LocalGrainDirectory := ⟨localSilo, .empty, 0⟩

def register (d : LocalGrainDirectory) (g : GrainId) (silo : SiloAddress) :
    DirectoryEntry × LocalGrainDirectory :=
  match d.entries.get g with
  | some existing => (existing, d)
  | none =>
    let entry : DirectoryEntry := ⟨g, silo, d.epoch + 1⟩
    (entry, { d with entries := d.entries.put entry, epoch := d.epoch + 1 })

def lookup (d : LocalGrainDirectory) (g : GrainId) : Option DirectoryEntry := d.entries.get g

def unregister (d : LocalGrainDirectory) (g : GrainId) (silo : SiloAddress) : LocalGrainDirectory :=
  match d.entries.get g with
  | none => d
  | some entry => if entry.silo ≠ silo then d else { d with entries := d.entries.pop g }

def resolveOrActivate (d : LocalGrainDirectory) (g : GrainId) (placement : PlacementStrategy)
    (caller : Option SiloAddress) :
    Except LocalDirectoryError DirectoryEntry × LocalGrainDirectory :=
  match d.entries.get g with
  | some existing => (.ok existing, d)
  | none =>
    match placement.pickSilo g caller [d.localSilo] with
    | none => (.error (.noSilosAvailable s!"cannot place grain {g.toStr}: no active silos"), d)
    | some chosen =>
      if chosen ≠ d.localSilo then
        (.error (.runtimeError
          (s!"LocalGrainDirectory picked non-local silo {reprText chosen.siloId}; " ++
          "placement strategy violated single-silo invariant")), d)
      else (.ok (d.register g d.localSilo).1, (d.register g d.localSilo).2)

def port : IGrainDirectory LocalGrainDirectory LocalDirectoryError where
  register d g silo := (.ok (d.register g silo).1, (d.register g silo).2)
  lookup d g := (.ok (d.lookup g), d)
  unregister d g silo := (.ok (), d.unregister g silo)
  resolveOrActivate d g placement caller := d.resolveOrActivate g placement caller

section

variable (d : LocalGrainDirectory) (g k : GrainId) (silo : SiloAddress)

theorem register_get :
    (d.register g silo).2.entries.get k = if k = g then some (d.register g silo).1 else
      d.entries.get k := by
  unfold register
  split
  · next e he =>
    split_ifs with hk
    · rw [hk, he]
    · rfl
  · exact Table.get_put _ _ _

theorem unregister_get_of_ne (hk : k ≠ g) :
    (d.unregister g silo).entries.get k = d.entries.get k := by
  unfold unregister
  split
  · rfl
  · split_ifs
    · rfl
    · exact (Table.get_pop _ _ _).trans (if_neg hk)

theorem pick_local (placement : PlacementStrategy) (caller : Option SiloAddress) :
    placement.pickSilo g caller [d.localSilo] = some d.localSilo := by
  obtain ⟨chosen, hpick⟩ := Option.isSome_iff_exists.mp
    (placement.pick_isSome g caller [d.localSilo] (List.cons_ne_nil _ _))
  rw [hpick, List.mem_singleton.mp (placement.pick_mem g caller _ chosen hpick)]

theorem resolveOrActivate_eq_register (placement : PlacementStrategy)
    (caller : Option SiloAddress) :
    d.resolveOrActivate g placement caller =
      (.ok (d.register g d.localSilo).1, (d.register g d.localSilo).2) := by
  unfold resolveOrActivate
  split
  · next e he => rw [register, he]
  · simp only [pick_local, ne_eq, not_true_eq_false, if_false]

end

theorem port_contract : port.Contract fun d g ↦ d.entries.get g where
  lookup _ _ := rfl
  register d g silo e he := by simp only [port, register, he]
  registered d g silo e h := by
    obtain rfl := Except.ok.inj h
    exact (register_get d g g silo).trans (if_pos rfl)
  register_frame d g silo k hk := (register_get d g k silo).trans (if_neg hk)
  resolve d g placement caller e he := by
    simp only [port, resolveOrActivate_eq_register, register, he]
  resolved d g placement caller e h := by
    simp only [port, resolveOrActivate_eq_register] at h ⊢
    obtain rfl := Except.ok.inj h
    exact (register_get d g g d.localSilo).trans (if_pos rfl)
  resolve_frame d g placement caller k hk := by
    simp only [port, resolveOrActivate_eq_register]
    exact (register_get d g k d.localSilo).trans (if_neg hk)
  unregister_frame d g silo k hk := unregister_get_of_ne d g k silo hk

end LocalGrainDirectory

namespace DistributedGrainDirectory

def Routed.map {α β : Type} (f : α → β) : Routed α → Routed β
  | .answered result directory => .answered (f result) directory
  | .forwarded owner => .forwarded owner

variable [StableHash]

def call (d : DistributedGrainDirectory) : DirectoryCall → Except DirectoryError
    (Routed DirectoryAnswer)
  | .register g silo => (d.register g silo).map (Routed.map .entry)
  | .lookup g => (d.lookup g).map (Routed.map .found)
  | .unregister g silo => (d.unregister g silo).map (Routed.map fun _ ↦ .done)
  | .resolveOrActivate g placement caller =>
    (d.resolveOrActivate g placement caller).map (Routed.map .entry)

/-- The results of calls that are all answered here; `none` when one of them
raises or goes to another silo. -/
def run : DistributedGrainDirectory → List DirectoryCall → Option
    (List DirectoryAnswer × DistributedGrainDirectory)
  | d, [] => some ([], d)
  | d, c :: calls =>
    match d.call c with
    | .ok (.answered result d') => (d'.run calls).map fun r ↦ (result :: r.1, r.2)
    | _ => none

/-- The ring and the active list have the local silo alone. -/
structure Sole (d : DistributedGrainDirectory) : Prop where
  ring : d.ring.silos = [d.localSilo]
  active : ∀ s ∈ d.activeSilos, s = d.localSilo

/-- Both have the same entries and the same counter. -/
structure Twin (d : DistributedGrainDirectory) (l : LocalGrainDirectory) : Prop where
  sole : d.Sole
  localSilo : l.localSilo = d.localSilo
  entries : l.entries = d.owned
  epoch : l.epoch = d.epoch

variable {d : DistributedGrainDirectory} {l : LocalGrainDirectory}

theorem Sole.ownerOf (h : d.Sole) (g : GrainId) : d.ownerOf g = .ok d.localSilo := by
  have hne : d.ring.silos ≠ [] := by simp [h.ring]
  obtain ⟨owner, howner⟩ := ConsistentHashRing.exists_ownerOf hne (hashGrainId g)
  have hmem := ConsistentHashRing.ownerOf_mem howner
  rw [h.ring, List.mem_singleton] at hmem
  exact ownerOfWithRing_ok_iff.mpr (hmem ▸ howner)

omit [StableHash] in
theorem Sole.pick (h : d.Sole) (g : GrainId) (placement : PlacementStrategy)
    (caller : Option SiloAddress) :
    d.placementCandidates ≠ [] ∧ placement.pickSilo g caller d.placementCandidates =
      some d.localSilo := by
  have hall : ∀ s ∈ d.placementCandidates, s = d.localSilo := by
    intro s hs
    unfold placementCandidates at hs
    split_ifs at hs
    · exact h.active s hs
    · rw [h.ring] at hs
      exact List.mem_singleton.mp hs
  have hne : d.placementCandidates ≠ [] := by
    unfold placementCandidates
    split_ifs with hactive
    · exact hactive
    · simp [h.ring]
  obtain ⟨chosen, hpick⟩ := Option.isSome_iff_exists.mp (placement.pick_isSome g caller _ hne)
  exact ⟨hne, by rw [hpick, hall chosen (placement.pick_mem g caller _ chosen hpick)]⟩

omit [StableHash] in
theorem Sole.resolveOrActivateLocal (h : d.Sole) (g : GrainId) (placement : PlacementStrategy)
    (caller : Option SiloAddress) :
    d.resolveOrActivateLocal g placement caller = .ok (d.registerLocal g d.localSilo) := by
  obtain ⟨hne, hpick⟩ := h.pick g placement caller
  unfold DistributedGrainDirectory.resolveOrActivateLocal registerLocal
  split
  · rfl
  · simp only [if_neg hne, hpick]

theorem Sole.register (h : d.Sole) (g : GrainId) (silo : SiloAddress) :
    d.register g silo = .ok (.answered (d.registerLocal g silo).1 (d.registerLocal g silo).2) := by
  rw [DistributedGrainDirectory.register, h.ownerOf]
  exact if_pos rfl

theorem Sole.lookup (h : d.Sole) (g : GrainId) :
    d.lookup g = .ok (.answered (d.owned.get g) d) := by
  rw [DistributedGrainDirectory.lookup, h.ownerOf]
  exact if_pos rfl

theorem Sole.unregister (h : d.Sole) (g : GrainId) (silo : SiloAddress) :
    d.unregister g silo = .ok (.answered () (d.unregisterLocal g silo)) := by
  rw [DistributedGrainDirectory.unregister, h.ownerOf]
  exact if_pos rfl

theorem Sole.resolveOrActivate (h : d.Sole) (g : GrainId) (placement : PlacementStrategy)
    (caller : Option SiloAddress) :
    d.resolveOrActivate g placement caller =
      .ok (.answered (d.registerLocal g d.localSilo).1 (d.registerLocal g d.localSilo).2) := by
  rw [DistributedGrainDirectory.resolveOrActivate, h.ownerOf, h.resolveOrActivateLocal]
  exact if_pos rfl

omit [StableHash] in
theorem Twin.register (h : Twin d l) (g : GrainId) (silo : SiloAddress) :
    (l.register g silo).1 = (d.registerLocal g silo).1 ∧
      Twin (d.registerLocal g silo).2 (l.register g silo).2 := by
  cases hget : d.owned.get g with
  | some e =>
    have hd : d.registerLocal g silo = (e, d) := by rw [registerLocal, hget]
    have hl : l.register g silo = (e, l) := by rw [LocalGrainDirectory.register, h.entries, hget]
    rw [hd, hl]
    exact ⟨rfl, h⟩
  | none =>
    let e : DirectoryEntry := ⟨g, silo, d.epoch + 1⟩
    have hd : d.registerLocal g silo =
      (e, { d with owned := d.owned.put e, epoch := d.epoch + 1 }) := by
      rw [registerLocal, hget]
    have hl : l.register g silo =
        (e, { l with entries := d.owned.put e, epoch := d.epoch + 1 }) := by
      rw [LocalGrainDirectory.register, h.entries, hget, h.epoch]
    rw [hd, hl]
    exact ⟨rfl, ⟨h.sole.ring, h.sole.active⟩, h.localSilo, rfl, rfl⟩

omit [StableHash] in
theorem Twin.unregister (h : Twin d l) (g : GrainId) (silo : SiloAddress) :
    Twin (d.unregisterLocal g silo) (l.unregister g silo) := by
  cases hget : d.owned.get g with
  | none =>
    have hd : d.unregisterLocal g silo = d := by rw [unregisterLocal, hget]
    have hl : l.unregister g silo = l := by rw [LocalGrainDirectory.unregister, h.entries, hget]
    rw [hd, hl]
    exact h
  | some e =>
    by_cases hs : e.silo = silo
    · have hd : d.unregisterLocal g silo = { d with owned := d.owned.pop g } := by
        simp [unregisterLocal, hget, hs]
      have hl : l.unregister g silo = { l with entries := d.owned.pop g } := by
        simp [LocalGrainDirectory.unregister, h.entries, hget, hs]
      rw [hd, hl]
      exact ⟨⟨h.sole.ring, h.sole.active⟩, h.localSilo, rfl, h.epoch⟩
    · have hd : d.unregisterLocal g silo = d := by simp [unregisterLocal, hget, hs]
      have hl : l.unregister g silo = l := by
        simp [LocalGrainDirectory.unregister, h.entries, hget, hs]
      rw [hd, hl]
      exact h

theorem Twin.call (h : Twin d l) (c : DirectoryCall) :
    ∃ result d' l', d.call c = .ok (.answered result d') ∧
      LocalGrainDirectory.port.call l c = (.ok result, l') ∧
      Twin d' l' := by
  cases c with
  | register g silo =>
    obtain ⟨hentry, htwin⟩ := h.register g silo
    refine ⟨.entry (d.registerLocal g silo).1, _, _, ?_, ?_, htwin⟩
    · rw [DistributedGrainDirectory.call, h.sole.register]
      rfl
    · rw [← hentry]
      rfl
  | lookup g =>
    refine ⟨.found (d.owned.get g), d, l, ?_, ?_, h⟩
    · rw [DistributedGrainDirectory.call, h.sole.lookup]
      rfl
    · rw [← h.entries]
      rfl
  | unregister g silo =>
    refine ⟨.done, _, _, ?_, rfl, h.unregister g silo⟩
    rw [DistributedGrainDirectory.call, h.sole.unregister]
    rfl
  | resolveOrActivate g placement caller =>
    obtain ⟨hentry, htwin⟩ := h.register g d.localSilo
    refine ⟨.entry (d.registerLocal g d.localSilo).1, _, _, ?_, ?_, htwin⟩
    · rw [DistributedGrainDirectory.call, h.sole.resolveOrActivate]
      rfl
    · have hresolve := LocalGrainDirectory.resolveOrActivate_eq_register l g placement caller
      rw [h.localSilo] at hresolve
      simp only [IGrainDirectory.call, LocalGrainDirectory.port, hresolve, Prod.map_apply,
        Except.map, id_eq, hentry]

theorem Twin.run (h : Twin d l) (calls : List DirectoryCall) :
    ∃ results d' l', d.run calls = some (results, d') ∧
      LocalGrainDirectory.port.run l calls = (results.map .ok, l') ∧ Twin d' l' := by
  induction calls generalizing d l with
  | nil => exact ⟨[], d, l, rfl, rfl, h⟩
  | cons c calls ih =>
    obtain ⟨result, d', l', hd, hl, htwin⟩ := h.call c
    obtain ⟨results, d'', l'', hds, hls, htwin'⟩ := ih htwin
    refine ⟨result :: results, d'', l'', ?_, ?_, htwin'⟩
    · rw [DistributedGrainDirectory.run, hd]
      simp only [hds, Option.map_some]
    · rw [IGrainDirectory.run, hl]
      simp only [hls, List.map_cons]

/-- For every sequence of calls on a new directory whose ring and active list
have the local silo alone. -/
theorem sole_refines_local (localSilo : SiloAddress) (ring : ConsistentHashRing)
    (active : List SiloAddress) (hring : ring.silos = [localSilo])
    (hactive : ∀ s ∈ active, s = localSilo) (calls : List DirectoryCall) :
    ∃ results d l, (init localSilo ring active).run calls = some (results, d) ∧
      LocalGrainDirectory.port.run (.init localSilo) calls = (results.map .ok, l) ∧
        d.owned = l.entries := by
  have hstart : Twin (init localSilo ring active) (.init localSilo) :=
    ⟨⟨hring, hactive⟩, rfl, rfl, rfl⟩
  obtain ⟨results, d, l, hd, hl, htwin⟩ := hstart.run calls
  exact ⟨results, d, l, hd, hl, htwin.entries.symm⟩

omit [StableHash] in
theorem sole_refines_local_siloA :
    letI := sampleHash
    letI := sampleRandom
    ∃ results d l,
      (init siloA (.ofSilos [siloA] 1 (by decide)) [siloA]).run
        [.register counter1 siloB, .resolveOrActivate counter1 randomPlacement none,
          .unregister counter1 siloB, .resolveOrActivate counter1 preferLocalPlacement (some siloA)]
          = some (results, d) ∧
      LocalGrainDirectory.port.run (.init siloA)
        [.register counter1 siloB, .resolveOrActivate counter1 randomPlacement none,
          .unregister counter1 siloB, .resolveOrActivate counter1 preferLocalPlacement (some siloA)]
          = (results.map .ok, l) ∧
      d.owned = l.entries :=
  letI := sampleHash
  letI := sampleRandom
  sole_refines_local siloA (.ofSilos [siloA] 1 (by decide)) [siloA] (by decide)
    (fun _ hs ↦ List.mem_singleton.mp hs) _

end DistributedGrainDirectory

end Pyleans
