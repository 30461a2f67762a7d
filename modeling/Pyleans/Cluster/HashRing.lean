import Mathlib
import Pyleans.Identity
import Pyleans.Library.CyclicOrder
import Pyleans.Library.Sorted

namespace Pyleans

open Library

structure RingPosition where
  position : ℤ
  silo : SiloAddress
  vnodeIndex : ℕ
deriving DecidableEq, Repr

def RingPosition.sortKey (p : RingPosition) : ℤ ×ₗ (String ×ₗ ℕ) :=
  toLex (p.position, toLex (p.silo.siloId, p.vnodeIndex))

theorem RingPosition.position_le {p q : RingPosition} (h : p.sortKey ≤ q.sortKey) :
    p.position ≤ q.position := (Prod.Lex.monotone_fst p.sortKey q.sortKey h)

/-- A ring keeps its silos without repetition in the order of their ids, so
that equal memberships give equal rings. -/
structure ConsistentHashRing where
  silos : List SiloAddress
  virtualNodesPerSilo : ℕ
  one_le : 1 ≤ virtualNodesPerSilo
  sorted : silos.Pairwise (fun s t ↦ s.siloId ≤ t.siloId)
  nodup : silos.Nodup
deriving DecidableEq

def VIRTUAL_NODES_PER_SILO : ℕ := 30

namespace ConsistentHashRing

/-- The ring over `silos`. The source raises `ValueError` on fewer than one
virtual node, which the proof `h` rules out. -/
def ofSilos (silos : List SiloAddress) (virtualNodesPerSilo : ℕ) (h : 1 ≤ virtualNodesPerSilo) :
    ConsistentHashRing where
  silos := sortedBy SiloAddress.siloId silos.eraseDups
  virtualNodesPerSilo := virtualNodesPerSilo
  one_le := h
  sorted := sortedBy_pairwise _ _
  nodup := sortedBy_nodup _ (nodup_eraseDups silos)

def withDefaults (silos : List SiloAddress) : ConsistentHashRing :=
  ofSilos silos VIRTUAL_NODES_PER_SILO (by decide)

@[simp] theorem mem_ofSilos {silos : List SiloAddress} {n : ℕ} {h : 1 ≤ n} {s : SiloAddress} :
    s ∈ (ofSilos silos n h).silos ↔ s ∈ silos := by
  simp [ofSilos]

theorem withDefaults_silos_ne_nil {silos : List SiloAddress} (h : silos ≠ []) :
    (withDefaults silos).silos ≠ [] := by
  obtain ⟨s, hs⟩ := List.exists_mem_of_ne_nil _ h
  exact List.ne_nil_of_mem (mem_ofSilos.mpr hs)

variable [StableHash]

def buildPositions (ring : ConsistentHashRing) : List RingPosition :=
  sortedBy RingPosition.sortKey (ring.silos.flatMap fun silo ↦
    (List.range ring.virtualNodesPerSilo).map fun vnodeIndex ↦
      ⟨hashSiloVirtualNode silo vnodeIndex, silo, vnodeIndex⟩)

def positions (ring : ConsistentHashRing) : List RingPosition := ring.buildPositions

def sortedHashes (ring : ConsistentHashRing) : List ℤ := ring.positions.map RingPosition.position

/-- The virtual node whose arc contains `keyHash`: the first one at or after
it, wrapping to the lowest. -/
def nodeAt (ring : ConsistentHashRing) (keyHash : ℤ) : Option RingPosition :=
  if ring.positions.isEmpty then none
  else
    let index := bisectLeft ring.sortedHashes keyHash
    ring.positions[if index = ring.positions.length then 0 else index]?

def ownerOf (ring : ConsistentHashRing) (keyHash : ℤ) : Option SiloAddress :=
  (ring.nodeAt keyHash).map RingPosition.silo

def arcEnd (ring : ConsistentHashRing) (keyHash : ℤ) : ℤ :=
  ((ring.nodeAt keyHash).map RingPosition.position).getD keyHash

theorem mem_positions {ring : ConsistentHashRing} {p : RingPosition} :
    p ∈ ring.positions ↔ p.silo ∈ ring.silos ∧ p.vnodeIndex < ring.virtualNodesPerSilo ∧
      p.position = hashSiloVirtualNode p.silo p.vnodeIndex := by
  simp only [positions, buildPositions, mem_sortedBy, List.mem_flatMap,
    List.mem_map, List.mem_range]
  constructor
  · rintro ⟨silo, hs, i, hi, rfl⟩
    exact ⟨hs, hi, rfl⟩
  · rintro ⟨hs, hi, hp⟩
    exact ⟨p.silo, hs, p.vnodeIndex, hi, by cases p; simp_all⟩

theorem exists_position {ring : ConsistentHashRing} {s : SiloAddress} (h : s ∈ ring.silos) :
    ∃ p ∈ ring.positions, p.silo = s :=
  ⟨⟨hashSiloVirtualNode s 0, s, 0⟩, mem_positions.mpr ⟨h, ring.one_le, rfl⟩, rfl⟩

theorem positions_ne_nil {ring : ConsistentHashRing} : ring.positions ≠ [] ↔ ring.silos ≠ [] := by
  constructor
  · intro h hs
    obtain ⟨p, hp⟩ := List.exists_mem_of_ne_nil _ h
    have hm := (mem_positions.mp hp).1
    rw [hs] at hm
    exact List.not_mem_nil hm
  · intro h
    obtain ⟨s, hs⟩ := List.exists_mem_of_ne_nil _ h
    obtain ⟨p, hp, -⟩ := exists_position hs
    exact List.ne_nil_of_mem hp

theorem sortedHashes_pairwise (ring : ConsistentHashRing) : ring.sortedHashes.Pairwise (· ≤ ·) := by
  rw [sortedHashes, List.pairwise_map]
  exact (sortedBy_pairwise RingPosition.sortKey _).imp RingPosition.position_le

theorem length_sortedHashes (ring : ConsistentHashRing) :
    ring.sortedHashes.length = ring.positions.length := List.length_map _

theorem sortedHashes_ne_nil {ring : ConsistentHashRing} (h : ring.positions ≠ []) :
    ring.sortedHashes ≠ [] := by simpa [sortedHashes] using h

theorem ownerIndex_lt {ring : ConsistentHashRing} (h : ring.positions ≠ []) (keyHash : ℤ) :
    cyclicIndex ring.sortedHashes keyHash < ring.positions.length := by
  rw [← length_sortedHashes]
  exact cyclicIndex_lt (sortedHashes_ne_nil h) keyHash

theorem nodeAt_eq {ring : ConsistentHashRing} (h : ring.positions ≠ []) (keyHash : ℤ) :
    ring.nodeAt keyHash =
      some (getElem ring.positions (cyclicIndex ring.sortedHashes keyHash)
        (ownerIndex_lt h keyHash)) := by
  have he : ring.positions.isEmpty = false := by simpa using h
  have hi : (if bisectLeft ring.sortedHashes keyHash = ring.positions.length then 0
      else bisectLeft ring.sortedHashes keyHash) = cyclicIndex ring.sortedHashes keyHash := by
    rw [cyclicIndex, length_sortedHashes]
  simp only [nodeAt, he, Bool.false_eq_true, if_false, hi]
  exact List.getElem?_eq_getElem _

theorem ownerOf_eq {ring : ConsistentHashRing} (h : ring.positions ≠ []) (keyHash : ℤ) :
    ring.ownerOf keyHash =
      some (getElem ring.positions (cyclicIndex ring.sortedHashes keyHash)
        (ownerIndex_lt h keyHash)).silo := by
  rw [ownerOf, nodeAt_eq h, Option.map_some]

theorem arcEnd_eq {ring : ConsistentHashRing} (h : ring.positions ≠ []) (keyHash : ℤ) :
    ring.arcEnd keyHash =
      getElem ring.sortedHashes (cyclicIndex ring.sortedHashes keyHash) (by
        rw [length_sortedHashes]; exact ownerIndex_lt h keyHash) := by
  simp only [arcEnd, nodeAt_eq h, Option.map_some, Option.getD_some, sortedHashes, List.getElem_map]

theorem ownerOf_congr {ring : ConsistentHashRing} (h : ring.positions ≠ []) {a b : ℤ}
    (hab : cyclicIndex ring.sortedHashes a = cyclicIndex ring.sortedHashes b) :
    ring.ownerOf a = ring.ownerOf b := by
  rw [ownerOf_eq h, ownerOf_eq h]
  simp only [hab]

theorem ownerOf_position {ring : ConsistentHashRing} (hd : ring.sortedHashes.Nodup)
    {p : RingPosition} (hp : p ∈ ring.positions) : ring.ownerOf p.position = some p.silo := by
  have hne : ring.positions ≠ [] := List.ne_nil_of_mem hp
  obtain ⟨i, hi, rfl⟩ := List.mem_iff_getElem.mp hp
  have hlt : ring.sortedHashes.Pairwise (· < ·) :=
    ring.sortedHashes_pairwise.imp₂ (fun a b h hab ↦ lt_of_le_of_ne h hab) hd
  have hidx : cyclicIndex ring.sortedHashes ring.positions[i].position = i := by
    have h := cyclicIndex_of_pairwise_lt hlt (i := i) (by rw [length_sortedHashes]; exact hi)
    simpa only [sortedHashes, List.getElem_map] using h
  rw [ownerOf_eq hne]
  simp only [hidx]

theorem ownerOf_eq_none_iff {ring : ConsistentHashRing} {keyHash : ℤ} :
    ring.ownerOf keyHash = none ↔ ring.silos = [] := by
  by_cases h : ring.positions = []
  · have hs := not_iff_not.mp (@positions_ne_nil _ ring)
    simp [ownerOf, nodeAt, h, hs.mp h]
  · rw [ownerOf_eq h]
    simpa using positions_ne_nil.mp h

theorem exists_ownerOf {ring : ConsistentHashRing} (h : ring.silos ≠ []) (keyHash : ℤ) :
    ∃ s, ring.ownerOf keyHash = some s :=
  Option.ne_none_iff_exists'.mp (fun hn ↦ h (ownerOf_eq_none_iff.mp hn))

theorem ownerOf_mem {ring : ConsistentHashRing} {keyHash : ℤ} {s : SiloAddress}
    (h : ring.ownerOf keyHash = some s) : s ∈ ring.silos := by
  have hp : ring.positions ≠ [] :=
    positions_ne_nil.mpr (fun hn ↦ by rw [ownerOf_eq_none_iff.mpr hn] at h; simp at h)
  rw [ownerOf_eq hp] at h
  rw [← Option.some.inj h]
  exact (mem_positions.mp (List.getElem_mem _)).1

theorem ownerOf_singleton (s : SiloAddress) (keyHash : ℤ) :
    (withDefaults [s]).ownerOf keyHash = some s := by
  obtain ⟨t, ht⟩ := exists_ownerOf (withDefaults_silos_ne_nil (List.cons_ne_nil s [])) keyHash
  have hm := mem_ofSilos.mp (ownerOf_mem ht)
  rw [ht, List.mem_singleton.mp hm]

end ConsistentHashRing

end Pyleans
