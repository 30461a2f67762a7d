import Mathlib
import Pyleans.Cluster.HashRing
import Pyleans.Library.CyclicWalk

namespace Pyleans

open Library

namespace ConsistentHashRing

theorem sortKey_injective : Function.Injective RingPosition.sortKey := by
  intro p q h
  simp only [RingPosition.sortKey, EmbeddingLike.apply_eq_iff_eq, Prod.mk.injEq] at h
  obtain ⟨hposition, hsilo, hindex⟩ := h
  cases p
  cases q
  simp_all [siloId_injective.eq_iff]

theorem ofSilos_congr {silos silos' : List SiloAddress} {n : ℕ} (hn : 1 ≤ n)
    (h : ∀ s, s ∈ silos ↔ s ∈ silos') :
    ofSilos silos n hn = ofSilos silos' n hn := by
  have hperm : (ofSilos silos n hn).silos.Perm (ofSilos silos' n hn).silos :=
    (List.perm_ext_iff_of_nodup (ofSilos silos n hn).nodup (ofSilos silos' n hn).nodup).mpr
      fun s ↦ mem_ofSilos.trans ((h s).trans mem_ofSilos.symm)
  have heq := hperm.eq_of_pairwise (fun s t _ _ hst hts ↦ siloId_injective (le_antisymm hst hts))
    (ofSilos silos n hn).sorted (ofSilos silos' n hn).sorted
  rw [ofSilos, ofSilos, ConsistentHashRing.mk.injEq]
  exact ⟨heq, rfl⟩

variable [StableHash]

def firstVnodeIndex (ring : ConsistentHashRing) (silo : SiloAddress) : Option ℕ :=
  ring.positions.findIdx? fun p ↦ p.silo = silo

def walkFrom (ring : ConsistentHashRing) (startIndex : ℕ) : List SiloAddress :=
  let total := ring.positions.length
  (List.range total).filterMap fun i ↦
    ring.positions[(startIndex + (i + 1)) % total]?.map RingPosition.silo

def successors (ring : ConsistentHashRing) (silo : SiloAddress) (count : ℤ) : List SiloAddress :=
  if count ≤ 0 ∨ silo ∉ ring.silos ∨ ring.silos.length ≤ 1 then []
  else
    match ring.firstVnodeIndex silo with
    | none => []
    | some startIndex => collectDistinct count.toNat (ring.walkFrom startIndex) [] [silo]

/-- Going around the circle from the first virtual node of `s`, a virtual
node of `u` comes before every one of `t`. -/
def ComesBefore (ring : ConsistentHashRing) (s u t : SiloAddress) : Prop :=
  ∃ start ∈ ring.positions.find? (fun p ↦ p.silo = s), ∃ p ∈ ring.positions, p.silo = u ∧
    ∀ q ∈ ring.positions, q.silo = t → Between start.sortKey q.sortKey p.sortKey

instance (ring : ConsistentHashRing) (s u t : SiloAddress) :
    Decidable (ring.ComesBefore s u t) := by
  unfold ComesBefore; infer_instance

def silosBefore (ring : ConsistentHashRing) (s t : SiloAddress) : Finset SiloAddress :=
  (ring.silos.filter fun u ↦ u ≠ s ∧ u ≠ t ∧ ring.ComesBefore s u t).toFinset

theorem nodup_positions (ring : ConsistentHashRing) : ring.positions.Nodup := by
  apply sortedBy_nodup
  rw [List.nodup_flatMap]
  constructor
  · intro silo _
    apply List.Nodup.map _ List.nodup_range
    intro i j hij
    exact congrArg RingPosition.vnodeIndex hij
  · apply ring.nodup.imp
    intro s t hst p hs ht
    obtain ⟨i, -, rfl⟩ := List.mem_map.mp hs
    obtain ⟨j, -, hj⟩ := List.mem_map.mp ht
    exact hst (congrArg RingPosition.silo hj).symm

theorem sortKeys_pairwise (ring : ConsistentHashRing) :
    (ring.positions.map RingPosition.sortKey).Pairwise (· < ·) := by
  rw [List.pairwise_map]
  refine (sortedBy_pairwise RingPosition.sortKey _).imp₂ (fun p q hle hne ↦ ?_) ring.nodup_positions
  exact lt_of_le_of_ne hle (sortKey_injective.ne hne)

section

variable {ring : ConsistentHashRing} {s t u : SiloAddress} {i : ℕ}

def positionsAfter (ring : ConsistentHashRing) (i : ℕ) : List RingPosition :=
  ring.positions.drop (i + 1) ++ ring.positions.take i

theorem mem_positionsAfter (hi : i < ring.positions.length) {p : RingPosition}
    (hp : p ≠ ring.positions[i]) :
    p ∈ ring.positionsAfter i ↔ p ∈ ring.positions := by
  conv_rhs =>
    rw [← List.take_append_drop (i + 1) ring.positions, List.take_succ_eq_append_getElem hi]
  simp only [positionsAfter, List.mem_append, List.mem_singleton, hp, or_false]
  exact or_comm

theorem positionsAfter_pairwise (hi : i < ring.positions.length) :
    (ring.positionsAfter i).Pairwise fun p q ↦
      Between ring.positions[i].sortKey q.sortKey p.sortKey := by
  have h := pairwise_between_walk ring.sortKeys_pairwise (i := i) (by simpa using hi)
  rw [← List.map_drop, ← List.map_take, ← List.map_append, List.pairwise_map] at h
  simpa only [List.getElem_map, positionsAfter] using h

theorem walkFrom_eq (hi : i < ring.positions.length) :
    ring.walkFrom i = (ring.positionsAfter i).map RingPosition.silo ++
      [ring.positions[i].silo] := by
  simp only [walkFrom, positionsAfter]
  rw [← List.map_filterMap, filterMap_range_rotate, List.rotate_eq_drop_append_take (by omega),
    List.take_succ_eq_append_getElem hi, ← List.append_assoc, List.map_append, List.map_singleton]

theorem mem_walkFrom (hi : i < ring.positions.length) (hs : ring.positions[i].silo = s)
    (ht : t ∈ ring.silos) (hst : t ≠ s) : t ∈ (ring.positionsAfter i).map RingPosition.silo := by
  obtain ⟨p, hp, rfl⟩ := exists_position ht
  refine List.mem_map.mpr ⟨p, (mem_positionsAfter hi fun h ↦ hst ?_).mpr hp, rfl⟩
  rw [h, hs]

theorem firstVnodeIndex_spec (h : ring.firstVnodeIndex s = some i) :
    ∃ hi : i < ring.positions.length, ring.positions[i].silo = s ∧
      ring.positions.find? (fun p ↦ p.silo = s) = some ring.positions[i] := by
  obtain ⟨hi, hsilo, -⟩ := List.findIdx?_eq_some_iff_getElem.mp h
  refine ⟨hi, of_decide_eq_true hsilo, ?_⟩
  rw [List.find?_eq_bind_findIdx?_getElem?, show ring.positions.findIdx? _ = some i from h]
  exact List.getElem?_eq_getElem hi

theorem exists_firstVnodeIndex (h : s ∈ ring.silos) :
    ∃ i, ring.firstVnodeIndex s = some i := by
  obtain ⟨p, hp, hs⟩ := exists_position h
  rw [← Option.isSome_iff_exists, firstVnodeIndex, List.findIdx?_isSome, List.any_eq_true]
  exact ⟨p, hp, decide_eq_true hs⟩

theorem mem_silosBefore : u ∈ ring.silosBefore s t ↔
    u ∈ ring.silos ∧ u ≠ s ∧ u ≠ t ∧ ring.ComesBefore s u t := by
  simp only [silosBefore, List.mem_toFinset, List.mem_filter, decide_eq_true_eq]

theorem mem_silos_of_comesBefore (h : ring.ComesBefore s u t) : u ∈ ring.silos := by
  obtain ⟨-, -, p, hp, rfl, -⟩ := h
  exact (mem_positions.mp hp).1

theorem comesBefore_iff (hi : ring.firstVnodeIndex s = some i) (hlt : i < ring.positions.length)
    (hus : u ≠ s) (hst : t ≠ s) : ring.ComesBefore s u t ↔ ∃ p ∈ ring.positionsAfter i, p.silo = u ∧
      ∀ q ∈ ring.positionsAfter i, q.silo = t →
        Between ring.positions[i].sortKey q.sortKey p.sortKey := by
  obtain ⟨_, hs, hfirst⟩ := firstVnodeIndex_spec hi
  have hmem : ∀ p, p.silo ≠ s → (p ∈ ring.positionsAfter i ↔ p ∈ ring.positions) :=
    fun p hp ↦ mem_positionsAfter hlt fun h ↦ hp (h ▸ hs)
  have hall : ∀ p : RingPosition, (∀ q ∈ ring.positionsAfter i, q.silo = t →
      Between ring.positions[i].sortKey q.sortKey p.sortKey) ↔
      ∀ q ∈ ring.positions, q.silo = t → Between ring.positions[i].sortKey q.sortKey p.sortKey :=
    fun p ↦ ⟨fun h q hq hqt ↦ h q ((hmem q (hqt ▸ hst)).mpr hq) hqt,
      fun h q hq hqt ↦ h q ((hmem q (hqt ▸ hst)).mp hq) hqt⟩
  simp only [ComesBefore, hfirst, Option.mem_some_iff, exists_eq_left']
  constructor
  · rintro ⟨p, hp, hpu, h⟩
    exact ⟨p, (hmem p (hpu ▸ hus)).mpr hp, hpu, (hall p).mpr h⟩
  · rintro ⟨p, hp, hpu, h⟩
    exact ⟨p, (hmem p (hpu ▸ hus)).mp hp, hpu, (hall p).mp h⟩

/-- What the walk from the first virtual node of `s` meets before `t`. -/
theorem distinctBefore_walkFrom (hi : ring.firstVnodeIndex s = some i) (ht : t ∈ ring.silos)
    (hst : t ≠ s) :
    distinctBefore (ring.walkFrom i) [s] t = ring.silosBefore s t := by
  obtain ⟨hlt, hs, -⟩ := firstVnodeIndex_spec hi
  rw [walkFrom_eq hlt, distinctBefore_append (mem_walkFrom hlt hs ht hst)]
  ext u
  rw [mem_distinctBefore, List.mem_singleton, mem_silosBefore]
  by_cases hut : u = t
  · subst hut
    simpa using fun h ↦ by simpa using List.mem_takeWhile_imp h
  · rw [mem_takeWhile_ne (fun p q hp hq ↦ sortKey_injective (hp.antisymm hq))
      (positionsAfter_pairwise hlt) _ hut]
    by_cases hus : u = s
    · simp [hus]
    · rw [← comesBefore_iff hi hlt hus hst]
      exact ⟨fun h ↦ ⟨mem_silos_of_comesBefore h.1, hus, hut, h.1⟩, fun h ↦ ⟨h.2.2.2, hus⟩⟩

theorem mem_silos_of_mem_walkFrom (h : t ∈ ring.walkFrom i) : t ∈ ring.silos := by
  simp only [walkFrom, List.mem_filterMap, Option.map_eq_some_iff] at h
  obtain ⟨offset, -, p, hp, rfl⟩ := h
  exact (mem_positions.mp (List.mem_of_getElem? hp)).1

/-- `t` is a successor of `s` when fewer silos than are asked for come before
it. -/
theorem mem_successors {count : ℤ} : t ∈ ring.successors s count ↔
    s ∈ ring.silos ∧ t ∈ ring.silos ∧ t ≠ s ∧ ((ring.silosBefore s t).card : ℤ) < count := by
  rw [successors]
  split_ifs with hnone
  · refine iff_of_false List.not_mem_nil ?_
    rintro ⟨hs, ht, hst, hcard⟩
    rcases hnone with hcount | hsilo | hlength
    · omega
    · exact hsilo hs
    · obtain ⟨a, ha, rfl⟩ := List.mem_iff_getElem.mp ht
      obtain ⟨b, hb, rfl⟩ := List.mem_iff_getElem.mp hs
      obtain rfl : a = b := by omega
      exact hst rfl
  · obtain ⟨hcount, hs, -⟩ : 0 < count ∧ s ∈ ring.silos ∧ 1 < ring.silos.length := by
      simpa only [not_or, not_le, not_not] using hnone
    obtain ⟨i, hi⟩ := exists_firstVnodeIndex hs
    obtain ⟨hlt, hsilo, -⟩ := firstVnodeIndex_spec hi
    rw [hi]
    simp only [mem_collectDistinct
      (show ([] : List SiloAddress).length < count.toNat by simpa using hcount), List.not_mem_nil,
      false_or, List.mem_singleton, List.length_nil, Nat.zero_add]
    constructor
    · rintro ⟨hst, hwalk, hcard⟩
      have ht := mem_silos_of_mem_walkFrom hwalk
      rw [distinctBefore_walkFrom hi ht hst] at hcard
      exact ⟨hs, ht, hst, by omega⟩
    · rintro ⟨-, ht, hst, hcard⟩
      rw [distinctBefore_walkFrom hi ht hst, walkFrom_eq hlt]
      exact ⟨hst, List.mem_append_left _ (mem_walkFrom hlt hsilo ht hst), by omega⟩

end

end ConsistentHashRing

end Pyleans
