import Pyleans.Cluster.NewArcs
import Pyleans.Library.Counting

namespace Pyleans.NewArcs

open Library ConsistentHashRing

variable [StableHash]

/-- A silo that starts up asks for one arc for each of its virtual nodes. -/
theorem countP_computeNewArcs_none {ring : ConsistentHashRing} (hr : TwoHashes ring)
    (s : SiloAddress) (h : ℤ) :
    (computeNewArcs none ring s).countP (fun arc ↦ decide (arc.contains h)) =
      if ring.ownerOf h = some s then 1 else 0 := by
  have hp := hr.positions_ne_nil
  have hk := ownerIndex_lt hp h
  have hcount : (computeNewArcs none ring s).countP (fun arc ↦ decide (arc.contains h)) =
      ring.positions.zipIdx.countP
        (fun x ↦ decide (x.1.silo = s) && decide (x.2 = cyclicIndex ring.sortedHashes h)) := by
    rw [computeNewArcs, List.countP_filterMap]
    refine List.countP_congr fun x hx ↦ ?_
    obtain ⟨node, i⟩ := x
    have hnode : ring.positions[i]? = some node := List.mem_zipIdx_iff_getElem?.mp hx
    obtain ⟨hi, rfl⟩ := List.getElem?_eq_some_iff.mp hnode
    have hprev := cyclicPrev_lt i (show 0 < ring.positions.length by omega)
    by_cases hs : ring.positions[i].silo = s
    · simp only [newArcAt, hs, ne_eq, not_true_eq_false, if_false, List.getElem?_eq_getElem hprev,
        Option.bind_some, Option.map_some, Option.getD_some, decide_true, Bool.true_and,
        decide_eq_true_eq]
      exact (cyclicIndex_eq_iff_contains hr hi h).symm.trans eq_comm
    · simp [newArcAt, hs]
  rw [hcount, countP_zipIdx hk fun node ↦ decide (node.silo = s), ownerOf_eq hp]
  simp only [decide_eq_true_eq, Option.some.injEq]

/-- The arcs of all silos are a partition of the circle, and the arc around a hash is its
owner's. -/
theorem arcs_partition (ring : ConsistentHashRing) (hr : TwoHashes ring) (h : ℤ) :
    (ring.silos.flatMap (computeNewArcs none ring)).countP (fun arc ↦ decide (arc.contains h)) = 1 ∧
      ∃ owner ∈ ring.silos, ring.ownerOf h = some owner ∧
        ∃ arc ∈ computeNewArcs none ring owner, arc.contains h := by
  obtain ⟨owner, howner⟩ := exists_ownerOf (positions_ne_nil.mp hr.positions_ne_nil) h
  have hmem := ownerOf_mem howner
  have hcount : ∀ s, (computeNewArcs none ring s).countP (fun arc ↦ decide (arc.contains h)) =
      if owner = s then 1 else 0 := by
    intro s
    rw [countP_computeNewArcs_none hr, howner]
    simp only [Option.some.injEq]
  refine ⟨?_, owner, hmem, howner, ?_⟩
  · calc (ring.silos.flatMap (computeNewArcs none ring)).countP (fun arc ↦ decide (arc.contains h))
        = (ring.silos.map fun s ↦ if owner = s then 1 else 0).sum := by
          rw [List.countP_flatMap]
          exact congrArg List.sum (List.map_congr_left fun s _ ↦ hcount s)
      _ = ring.silos.count owner := sum_map_eq_count owner ring.silos
      _ = 1 := List.count_eq_one_of_mem ring.nodup hmem
  · have hpos : 0 < (computeNewArcs none ring owner).countP
        (fun arc ↦ decide (arc.contains h)) := by
      rw [hcount, if_pos rfl]
      exact Nat.one_pos
    obtain ⟨arc, harc, hc⟩ := List.countP_pos_iff.mp hpos
    exact ⟨arc, harc, of_decide_eq_true hc⟩

omit [StableHash] in
theorem arcs_partition_twoSilos :
    letI := sampleHash
    ∃ ring : ConsistentHashRing, TwoHashes ring ∧ ∀ h : ℤ,
      (ring.silos.flatMap (computeNewArcs none ring)).countP (fun arc ↦ decide (arc.contains h)) =
        1 ∧
        ∃ owner ∈ ring.silos, ring.ownerOf h = some owner ∧
          ∃ arc ∈ computeNewArcs none ring owner, arc.contains h :=
  letI := sampleHash
  have hr : TwoHashes (ofSilos [siloA, siloB] 1 (by decide)) := by decide
  ⟨ofSilos [siloA, siloB] 1 (by decide), hr, arcs_partition _ hr⟩

end Pyleans.NewArcs
