import Pyleans.Cluster.Successors

namespace Pyleans

open Library

namespace ConsistentHashRing

variable [StableHash]

/-- Silos that see the same members, in whatever order and however often, route alike. -/
theorem ring_agreement (silos silos' : List SiloAddress) (n : ℕ) (hn : 1 ≤ n)
    (h : ∀ s, s ∈ silos ↔ s ∈ silos') :
    (ofSilos silos n hn).positions = (ofSilos silos' n hn).positions ∧
      (∀ keyHash, (ofSilos silos n hn).ownerOf keyHash = (ofSilos silos' n hn).ownerOf keyHash) ∧
      ∀ s count, (ofSilos silos n hn).successors s count =
        (ofSilos silos' n hn).successors s count := by
  rw [ofSilos_congr hn h]
  exact ⟨rfl, fun _ ↦ rfl, fun _ _ ↦ rfl⟩

omit [StableHash] in
theorem ring_agreement_twoSilos :
    letI := sampleHash
    (ofSilos [siloA, siloB] 1 (by decide)).positions =
      (ofSilos [siloB, siloA, siloB] 1 (by decide)).positions ∧
      (∀ keyHash, (ofSilos [siloA, siloB] 1 (by decide)).ownerOf keyHash =
        (ofSilos [siloB, siloA, siloB] 1 (by decide)).ownerOf keyHash) ∧
      ∀ s count, (ofSilos [siloA, siloB] 1 (by decide)).successors s count =
        (ofSilos [siloB, siloA, siloB] 1 (by decide)).successors s count :=
  letI := sampleHash
  ring_agreement [siloA, siloB] [siloB, siloA, siloB] 1 (by decide) fun s ↦ by
    simp only [List.mem_cons, List.not_mem_nil, or_false]
    tauto

def walkKey (keyHash : ℤ) (p : RingPosition) : Bool ×ₗ (ℤ ×ₗ (String ×ₗ ℕ)) :=
  toLex (decide (p.position < keyHash), p.sortKey)

omit [StableHash] in
theorem walkKey_injective (keyHash : ℤ) : Function.Injective (walkKey keyHash) := fun _ _ h ↦
  sortKey_injective (congrArg Prod.snd (toLex.injective h))

omit [StableHash] in
theorem walkKey_le {keyHash : ℤ} {p q : RingPosition}
    (hflag : p.position < keyHash → q.position < keyHash)
    (hkey : (q.position < keyHash → p.position < keyHash) → p.sortKey ≤ q.sortKey) :
    walkKey keyHash p ≤ walkKey keyHash q := by
  rw [walkKey, walkKey, Prod.Lex.toLex_le_toLex]
  by_cases hp : p.position < keyHash
  · exact .inr ⟨by simp [hp, hflag hp], hkey fun _ ↦ hp⟩
  · by_cases hq : q.position < keyHash
    · exact .inl (by simp [hp, hq])
    · exact .inr ⟨by simp [hp, hq], hkey fun h ↦ absurd h hq⟩

theorem sortKey_le {ring : ConsistentHashRing} {i j : ℕ} (hij : i ≤ j)
    (hj : j < ring.positions.length) :
    ring.positions[i].sortKey ≤ ring.positions[j].sortKey := by
  rcases hij.eq_or_lt with rfl | hlt
  · exact le_refl _
  · exact List.pairwise_iff_getElem.mp (sortedBy_pairwise RingPosition.sortKey _) i j
      (hlt.trans hj) hj hlt

theorem nodeAt_eq_some_iff {ring : ConsistentHashRing} {keyHash : ℤ} {p : RingPosition} :
    ring.nodeAt keyHash = some p ↔
      p ∈ ring.positions ∧ ∀ q ∈ ring.positions, walkKey keyHash p ≤ walkKey keyHash q := by
  have hfirst : ∀ p, ring.nodeAt keyHash = some p →
      p ∈ ring.positions ∧ ∀ q ∈ ring.positions, walkKey keyHash p ≤ walkKey keyHash q := by
    intro p hp
    have hne : ring.positions ≠ [] := by
      intro hnil
      simp [nodeAt, hnil] at hp
    have hk := ownerIndex_lt hne keyHash
    rw [nodeAt_eq hne] at hp
    obtain rfl := Option.some.inj hp
    refine ⟨List.getElem_mem _, fun q hq ↦ ?_⟩
    obtain ⟨j, hj, rfl⟩ := List.mem_iff_getElem.mp hq
    rcases cyclicIndex_cases (sortedHashes_ne_nil hne) keyHash with ⟨hle, hbefore⟩ | ⟨hzero, hall⟩
    · have hle' : keyHash ≤ (getElem ring.positions (cyclicIndex ring.sortedHashes keyHash)
        hk).position := by
        simpa only [sortedHashes, List.getElem_map] using hle
      refine walkKey_le (fun h ↦ absurd h hle'.not_gt) fun hflag ↦ ?_
      refine sortKey_le (not_lt.mp fun hlt ↦ ?_) hj
      have hjlt : ring.positions[j].position < keyHash := by
        simpa only [sortedHashes, List.getElem_map] using hbefore j hlt
      exact hle'.not_gt (hflag hjlt)
    · have hlt : ring.positions[j].position < keyHash :=
        hall _ (List.mem_map_of_mem (List.getElem_mem hj))
      exact walkKey_le (fun _ ↦ hlt) fun _ ↦ sortKey_le (by omega) hj
  constructor
  · exact hfirst p
  · rintro ⟨hp, hmin⟩
    have hne : ring.positions ≠ [] := List.ne_nil_of_mem hp
    obtain ⟨hmem, hmin'⟩ := hfirst _ (nodeAt_eq hne keyHash)
    rw [nodeAt_eq hne, walkKey_injective keyHash (le_antisymm (hmin' p hp) (hmin _ hmem))]

/-- A silo that owns a hash next to more silos owned it before they came. -/
theorem ownerOf_before_joins {old new : ConsistentHashRing} {s : SiloAddress} {keyHash : ℤ}
    (hv : old.virtualNodesPerSilo = new.virtualNodesPerSilo) (hs : s ∈ old.silos)
    (hsub : ∀ t ∈ old.silos, t ∈ new.silos) (h : new.ownerOf keyHash = some s) :
    old.ownerOf keyHash = some s := by
  obtain ⟨p, hp, rfl⟩ := Option.map_eq_some_iff.mp h
  obtain ⟨hmem, hmin⟩ := nodeAt_eq_some_iff.mp hp
  obtain ⟨-, hvn, hpos⟩ := mem_positions.mp hmem
  have hfirst : old.nodeAt keyHash = some p := by
    refine nodeAt_eq_some_iff.mpr ⟨mem_positions.mpr ⟨hs, hv ▸ hvn, hpos⟩, fun q hq ↦ hmin q ?_⟩
    obtain ⟨hq, hqvn, hqpos⟩ := mem_positions.mp hq
    exact mem_positions.mpr ⟨hsub _ hq, hv ▸ hqvn, hqpos⟩
  rw [ownerOf, hfirst]
  rfl

/-- A silo that joins takes hashes over and moves no other hash. -/
theorem minimal_disruption (silos joined : List SiloAddress) (x : SiloAddress) (n : ℕ) (hn : 1 ≤ n)
    (h : ∀ s, s ∈ joined ↔ s = x ∨ s ∈ silos) (keyHash : ℤ) :
    (ofSilos joined n hn).ownerOf keyHash = some x ∨
      (ofSilos joined n hn).ownerOf keyHash = (ofSilos silos n hn).ownerOf keyHash := by
  have hne : (ofSilos joined n hn).silos ≠ [] :=
    List.ne_nil_of_mem (mem_ofSilos.mpr ((h x).mpr (.inl rfl)))
  obtain ⟨owner, howner⟩ := exists_ownerOf hne keyHash
  by_cases hx : owner = x
  · exact .inl (hx ▸ howner)
  · have hstays : owner ∈ (ofSilos silos n hn).silos :=
      mem_ofSilos.mpr (((h _).mp (mem_ofSilos.mp (ownerOf_mem howner))).resolve_left hx)
    have hsub : ∀ t ∈ (ofSilos silos n hn).silos, t ∈ (ofSilos joined n hn).silos :=
      fun t ht ↦ mem_ofSilos.mpr ((h t).mpr (.inr (mem_ofSilos.mp ht)))
    have hvirtual : (ofSilos silos n hn).virtualNodesPerSilo =
      (ofSilos joined n hn).virtualNodesPerSilo := rfl
    exact .inr (howner.trans (ownerOf_before_joins hvirtual hstays hsub howner).symm)

omit [StableHash] in
theorem minimal_disruption_thirdSilo :
    letI := sampleHash
    (ofSilos [siloA, siloB, siloC] 1 (by decide)).ownerOf 0 = some siloC ∨
      (ofSilos [siloA, siloB, siloC] 1 (by decide)).ownerOf 0 =
        (ofSilos [siloA, siloB] 1 (by decide)).ownerOf 0 :=
  letI := sampleHash
  have hjoined : ∀ s, s ∈ [siloA, siloB, siloC] ↔ s = siloC ∨ s ∈ [siloA, siloB] := by
    intro s
    simp only [List.mem_cons, List.not_mem_nil, or_false]
    tauto
  minimal_disruption [siloA, siloB] [siloA, siloB, siloC] siloC 1 (by decide) hjoined 0

end ConsistentHashRing

end Pyleans
