import Pyleans.Cluster.Successors

namespace Pyleans

open Library

namespace ConsistentHashRing

variable [StableHash]

def clockwiseFrom (ring : ConsistentHashRing) (s : SiloAddress) : List SiloAddress :=
  (ring.positions.rotate (ring.positions.findIdx fun p ↦ p.silo = s)).map RingPosition.silo

/-- The other silos in the order in which the way around first meets them. -/
def othersInOrder (ring : ConsistentHashRing) (s : SiloAddress) : List SiloAddress :=
  ((ring.clockwiseFrom s).filter fun t ↦ t ≠ s).eraseDups

variable {ring : ConsistentHashRing} {s t : SiloAddress} {i : ℕ}

theorem mem_clockwiseFrom : t ∈ ring.clockwiseFrom s ↔ t ∈ ring.silos := by
  rw [clockwiseFrom, List.mem_map]
  constructor
  · rintro ⟨p, hp, rfl⟩
    exact (mem_positions.mp (List.mem_rotate.mp hp)).1
  · intro ht
    obtain ⟨p, hp, rfl⟩ := exists_position ht
    exact ⟨p, List.mem_rotate.mpr hp, rfl⟩

theorem mem_othersInOrder : t ∈ ring.othersInOrder s ↔ t ∈ ring.silos ∧ t ≠ s := by
  rw [othersInOrder, List.mem_eraseDups, List.mem_filter, mem_clockwiseFrom, decide_eq_true_eq]

theorem nodup_othersInOrder (ring : ConsistentHashRing) (s : SiloAddress) :
    (ring.othersInOrder s).Nodup :=
  nodup_eraseDups _

theorem length_othersInOrder (hs : s ∈ ring.silos) :
    (ring.othersInOrder s).length = ring.silos.length - 1 := by
  have hperm : (ring.othersInOrder s).Perm (ring.silos.erase s) := by
    refine (List.perm_ext_iff_of_nodup (nodup_othersInOrder ring s) (ring.nodup.erase s)).mpr
      fun t ↦ ?_
    rw [mem_othersInOrder, ring.nodup.mem_erase_iff, and_comm]
  rw [hperm.length_eq, List.length_erase_of_mem hs]

theorem walkFrom_filter (hi : ring.firstVnodeIndex s = some i) :
    (ring.walkFrom i).filter (fun t ↦ t ≠ s) = (ring.clockwiseFrom s).filter fun t ↦ t ≠ s := by
  obtain ⟨hlt, hsilo, -⟩ := firstVnodeIndex_spec hi
  have hidx : ring.positions.findIdx (fun p ↦ p.silo = s) = i := by
    obtain ⟨_, hp, hbefore⟩ := List.findIdx?_eq_some_iff_getElem.mp hi
    exact (List.findIdx_eq hlt).mpr ⟨hp, fun j hj ↦ by simpa using hbefore j hj⟩
  have hclock : ring.clockwiseFrom s = ring.positions[i].silo ::
    (ring.positionsAfter i).map RingPosition.silo := by
    rw [clockwiseFrom, hidx, List.rotate_eq_drop_append_take hlt.le, List.drop_eq_getElem_cons hlt,
      positionsAfter, List.cons_append, List.map_cons]
  rw [walkFrom_eq hlt, hclock, hsilo]
  simp

theorem successors_eq_take (hs : s ∈ ring.silos) (k : ℕ) :
    ring.successors s k = (ring.othersInOrder s).take k := by
  rw [successors]
  split_ifs with hnone
  · rcases hnone with hk | hmem | hlength
    · obtain rfl : k = 0 := by omega
      rfl
    · exact absurd hs hmem
    · have hnil : ring.othersInOrder s = [] := by
        rw [← List.length_eq_zero_iff, length_othersInOrder hs]
        omega
      rw [hnil, List.take_nil]
  · obtain ⟨i, hi⟩ := exists_firstVnodeIndex hs
    have hk : 0 < k := by
      rw [not_or] at hnone
      omega
    rw [hi, Int.toNat_natCast]
    dsimp only
    rw [collectDistinct_eq (by simpa using hk)]
    simp only [List.mem_singleton, List.nil_append, List.length_nil, Nat.sub_zero, othersInOrder,
      ← walkFrom_filter hi]

theorem successors_of_not_mem (hs : s ∉ ring.silos) (k : ℕ) : ring.successors s k = [] := by
  rw [successors, if_pos (.inr (.inl hs))]

/-- For every silo and every count. -/
theorem successors_exact (ring : ConsistentHashRing) (s : SiloAddress) (k : ℕ) :
    (s ∈ ring.silos →
      (ring.successors s k).length = min k (ring.silos.length - 1) ∧ (ring.successors s k).Nodup ∧
        s ∉ ring.successors s k ∧ ring.successors s k = (ring.othersInOrder s).take k ∧
        ring.successors s k <+: ring.successors s (k + 1 : ℕ)) ∧
      (s ∉ ring.silos → ring.successors s k = []) := by
  refine ⟨fun hs ↦ ?_, fun hs ↦ successors_of_not_mem hs k⟩
  rw [successors_eq_take hs, successors_eq_take hs]
  refine ⟨?_, ?_, ?_, rfl, List.take_prefix_take_left (Nat.le_succ k)⟩
  · rw [List.length_take, length_othersInOrder hs]
  · exact (nodup_othersInOrder ring s).sublist (List.take_sublist k _)
  · intro hmem
    exact (mem_othersInOrder.mp (List.mem_of_mem_take hmem)).2 rfl

end ConsistentHashRing

end Pyleans
