import Pyleans.Cluster.DirectoryRebuild

namespace Pyleans.NewArcs

open Library ConsistentHashRing

theorem contains_iff_between (arc : Arc) (h : ℤ) : arc.contains h ↔ Between arc.start arc.end_ h :=
  Iff.rfl

variable [StableHash]

theorem mem_computeNewArcs {old new : ConsistentHashRing} {l : SiloAddress} {arc : Arc} :
    arc ∈ computeNewArcs (some old) new l ↔ ∃ i, ∃ hi : i < new.positions.length,
      new.positions[i].silo = l ∧ old.ownerOf new.positions[i].position ≠ some l ∧
      arc =
        ⟨(getElem new.positions (cyclicPrev new.positions.length i)
        (cyclicPrev_lt i (by omega))).position,
        new.positions[i].position⟩ := by
  simp only [computeNewArcs, List.mem_filterMap, Prod.exists, List.mem_zipIdx_iff_getElem?]
  constructor
  · rintro ⟨node, i, hnode, harc⟩
    obtain ⟨hi, rfl⟩ := List.getElem?_eq_some_iff.mp hnode
    have hprev := cyclicPrev_lt i (show 0 < new.positions.length by omega)
    simp only [newArcAt, List.getElem?_eq_getElem hprev, Option.bind_some] at harc
    split_ifs at harc with hs ho
    exact ⟨i, hi, not_not.mp hs, ho, (Option.some.inj harc).symm⟩
  · rintro ⟨i, hi, hs, ho, rfl⟩
    have hprev := cyclicPrev_lt i (show 0 < new.positions.length by omega)
    refine ⟨_, i, List.getElem?_eq_getElem hi, ?_⟩
    simp only [newArcAt, List.getElem?_eq_getElem hprev, Option.bind_some]
    rw [if_neg (not_not.mpr hs)]
    exact if_pos ho

def TwoHashes (ring : ConsistentHashRing) : Prop :=
  ∃ p ∈ ring.positions, ∃ q ∈ ring.positions, p.position < q.position

instance (ring : ConsistentHashRing) : Decidable (TwoHashes ring) := by
  unfold TwoHashes; infer_instance

theorem TwoHashes.sortedHashes {ring : ConsistentHashRing} (h : TwoHashes ring) :
    ∃ a ∈ ring.sortedHashes, ∃ b ∈ ring.sortedHashes, a < b := by
  obtain ⟨p, hp, q, hq, hpq⟩ := h
  exact ⟨_, List.mem_map_of_mem hp, _, List.mem_map_of_mem hq, hpq⟩

theorem TwoHashes.positions_ne_nil {ring : ConsistentHashRing} (h : TwoHashes ring) :
    ring.positions ≠ [] := by
  obtain ⟨p, hp, -⟩ := h
  exact List.ne_nil_of_mem hp

theorem cyclicIndex_eq_iff_contains {ring : ConsistentHashRing} (hr : TwoHashes ring) {i : ℕ}
    (hi : i < ring.positions.length) (h : ℤ) :
    cyclicIndex ring.sortedHashes h = i ↔
      (⟨(getElem ring.positions (cyclicPrev ring.positions.length i)
        (cyclicPrev_lt i (by omega))).position,
        ring.positions[i].position⟩ : Arc).contains h := by
  have hi' : i < ring.sortedHashes.length := by rw [length_sortedHashes]; exact hi
  rw [cyclicIndex_eq_iff ring.sortedHashes_pairwise hr.sortedHashes hi', contains_iff_between]
  simp only [ConsistentHashRing.sortedHashes, List.getElem_map, List.length_map]

theorem covered_iff {old new : ConsistentHashRing} (hn : TwoHashes new) (l : SiloAddress) (h : ℤ) :
    (∃ arc ∈ computeNewArcs (some old) new l, arc.contains h) ↔
      new.ownerOf h = some l ∧ old.ownerOf (new.arcEnd h) ≠ some l := by
  have hp := hn.positions_ne_nil
  have hidx := ownerIndex_lt hp h
  have hend : new.arcEnd h = (new.positions[cyclicIndex new.sortedHashes h]).position := by
    rw [arcEnd_eq hp]
    simp only [ConsistentHashRing.sortedHashes, List.getElem_map]
  rw [ownerOf_eq hp, hend, Option.some.injEq]
  constructor
  · rintro ⟨arc, harc, hc⟩
    obtain ⟨i, hi, hs, ho, rfl⟩ := mem_computeNewArcs.mp harc
    obtain rfl := (cyclicIndex_eq_iff_contains hn hi h).mpr hc
    exact ⟨hs, ho⟩
  · rintro ⟨hs, ho⟩
    exact ⟨_, mem_computeNewArcs.mpr ⟨_, hidx, hs, ho, rfl⟩,
      (cyclicIndex_eq_iff_contains hn hidx h).mp rfl⟩

/-- Along one arc of the new ring the old owner changes only at old virtual
nodes inside that arc. -/
theorem old_owner_along_arc {old new : ConsistentHashRing} (ho : old.positions ≠ [])
    (hn : TwoHashes new) (h : ℤ) :
    old.ownerOf h = old.ownerOf (new.arcEnd h) ∨
      ∃ q ∈ old.positions, old.ownerOf q.position = old.ownerOf h ∧
        new.ownerOf q.position = new.ownerOf h ∧ new.arcEnd q.position = new.arcEnd h := by
  have hp := hn.positions_ne_nil
  have hi := ownerIndex_lt hp h
  have hlt := cyclicIndex_lt (sortedHashes_ne_nil ho) h
  have hx := (cyclicIndex_eq_iff_contains hn hi h).mp rfl
  let q := getElem old.positions (cyclicIndex old.sortedHashes h) (ownerIndex_lt ho h)
  have hq : old.sortedHashes[cyclicIndex old.sortedHashes h] = q.position := by
    simp only [ConsistentHashRing.sortedHashes, List.getElem_map, q]
  by_cases hb : cyclicIndex new.sortedHashes q.position = cyclicIndex new.sortedHashes h
  · refine .inr ⟨q, List.getElem_mem _, ?_, ownerOf_congr hp hb, ?_⟩
    · rw [← hq]
      exact ownerOf_congr ho (cyclicIndex_getElem (sortedHashes_ne_nil ho) h)
    · rw [arcEnd_eq hp, arcEnd_eq hp]
      simp only [hb]
  · left
    refine ownerOf_congr ho (cyclicIndex_of_not_between (sortedHashes_ne_nil ho) (s := ?_) ?_ ?_)
    · exact (getElem new.positions
        (cyclicPrev new.positions.length (cyclicIndex new.sortedHashes h))
        (cyclicPrev_lt _ (by omega))).position
    · rw [arcEnd_eq hp]
      have hb := (contains_iff_between _ _).mp hx
      simpa only [ConsistentHashRing.sortedHashes, List.getElem_map] using hb
    · rw [hq]
      intro hc
      refine hb ((cyclicIndex_eq_iff_contains hn hi q.position).mpr
        ((contains_iff_between _ _).mpr ?_))
      rw [arcEnd_eq hp] at hc
      simpa only [ConsistentHashRing.sortedHashes, List.getElem_map] using hc

/-- A silo on both rings keeps all its virtual nodes, so without hash ties it
finds no new arc, however many of its neighbours left. -/
theorem computeNewArcs_of_survivor {old new : ConsistentHashRing} {l : SiloAddress}
    (hv : old.virtualNodesPerSilo = new.virtualNodesPerSilo) (hl : l ∈ old.silos)
    (hd : old.sortedHashes.Nodup) : computeNewArcs (some old) new l = [] := by
  refine List.eq_nil_iff_forall_not_mem.mpr (fun arc harc ↦ ?_)
  obtain ⟨i, hi, hs, ho, -⟩ := mem_computeNewArcs.mp harc
  obtain ⟨-, hvn, hpos⟩ := mem_positions.mp (List.getElem_mem hi)
  have hold : new.positions[i] ∈ old.positions := mem_positions.mpr ⟨hs ▸ hl, hv ▸ hvn, hpos⟩
  exact ho (hs ▸ ownerOf_position hd hold)

/-- Every virtual node of the old ring that falls into a part of the circle the
local silo owns now had the owner that the end of its new arc had, as far as
the local silo is concerned. -/
def OldOwnersAgree (old new : ConsistentHashRing) (l : SiloAddress) : Prop :=
  ∀ q ∈ old.positions, new.ownerOf q.position = some l →
    (old.ownerOf q.position = some l ↔ old.ownerOf (new.arcEnd q.position) = some l)

instance (old new : ConsistentHashRing) (l : SiloAddress) :
    Decidable (OldOwnersAgree old new l) := by
  unfold OldOwnersAgree; infer_instance

theorem oldOwner_iff_of_agree {old new : ConsistentHashRing} {l : SiloAddress} (ho : old.silos ≠ [])
    (hn : TwoHashes new) (ha : OldOwnersAgree old new l) {h : ℤ} (hl : new.ownerOf h = some l) :
    old.ownerOf h = some l ↔ old.ownerOf (new.arcEnd h) = some l := by
  rcases old_owner_along_arc (positions_ne_nil.mpr ho) hn h with he | ⟨q, hq, hqo, hqn, hqe⟩
  · rw [he]
  · have hqa := ha q hq (hqn.trans hl)
    rwa [hqo, hqe] at hqa

/-- `computeNewArcs` covers exactly the hashes that changed hands to the local
silo when, and only when, no old virtual node splits one of its new arcs. -/
theorem computeNewArcs_exact_iff (old new : ConsistentHashRing) (l : SiloAddress)
    (ho : old.silos ≠ []) (hn : TwoHashes new) :
    (∀ h : UInt64, (∃ arc ∈ computeNewArcs (some old) new l, arc.contains h.toNat) ↔
      new.ownerOf h.toNat = some l ∧ old.ownerOf h.toNat ≠ some l) ↔ OldOwnersAgree old new l := by
  simp only [covered_iff hn, and_congr_right_iff, not_iff_not, ne_eq]
  constructor
  · intro hx q hq hl
    obtain ⟨x, hxq⟩ := exists_hashSiloVirtualNode q.silo q.vnodeIndex
    rw [(mem_positions.mp hq).2.2, hxq] at hl ⊢
    exact (hx x hl).symm
  · intro ha h hl
    exact (oldOwner_iff_of_agree ho hn ha hl).symm

omit [StableHash] in
theorem computeNewArcs_exact_joined :
    letI := sampleHash
    OldOwnersAgree (ofSilos [siloA] 1 (by decide)) (ofSilos [siloA, siloB] 1 (by decide)) siloB ∧
    ∀ h : UInt64, (∃ arc ∈ computeNewArcs (some (ofSilos [siloA] 1 (by decide)))
        (ofSilos [siloA, siloB] 1 (by decide)) siloB, arc.contains h.toNat) ↔
      (ofSilos [siloA, siloB] 1 (by decide)).ownerOf h.toNat = some siloB ∧
        (ofSilos [siloA] 1 (by decide)).ownerOf h.toNat ≠ some siloB :=
  letI := sampleHash
  ⟨by decide, (computeNewArcs_exact_iff _ _ siloB (by decide) (by decide)).mpr (by decide)⟩

omit [StableHash] in
/-- The hash `Counter/c4` moves from the silo that left to a survivor, which
finds no new arc. -/
theorem computeNewArcs_misses_merged_arc :
    letI := sampleHash
    ¬ ((∃ arc ∈ computeNewArcs (some (ofSilos [siloA, siloB, siloC] 1 (by decide)))
          (ofSilos [siloA, siloB] 1 (by decide)) siloB,
            arc.contains (0xcb80eb530b9523d8 : UInt64).toNat) ↔
        (ofSilos [siloA, siloB] 1 (by decide)).ownerOf (0xcb80eb530b9523d8 : UInt64).toNat =
          some siloB ∧
          (ofSilos [siloA, siloB, siloC] 1 (by decide)).ownerOf
            (0xcb80eb530b9523d8 : UInt64).toNat ≠
            some siloB) := by
  decide

end Pyleans.NewArcs
