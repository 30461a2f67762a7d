import Pyleans.Library.Table

namespace Pyleans.Library.Table

variable {K V : Type} {key : V → K}

/-- `INSERT`, which a row under the same primary key makes impossible. -/
def insert [DecidableEq K] (t : Table key) (v : V) : Option (Table key) :=
  if (t.get (key v)).isSome then none else some (t.put v)

/-- `UPDATE … WHERE … RETURNING *` that leaves the primary key alone. -/
def updateWhere (t : Table key) (p : V → Bool) (f : V → V) (hf : ∀ v, key (f v) = key v) :
    List V × Table key :=
  ((t.items.filter p).map f, ⟨t.items.map fun v ↦ if p v then f v else v, by
    have hkeys : (t.items.map fun v ↦ if p v then f v else v).map key = t.items.map key := by
      rw [List.map_map]
      refine List.map_congr_left fun v _ ↦ ?_
      rw [Function.comp_apply]
      split_ifs
      · exact hf v
      · rfl
    rw [hkeys]
    exact t.nodup⟩)

def deleteWhere (t : Table key) (p : V → Bool) : List V × Table key :=
  (t.items.filter p, t.filter fun v ↦ !p v)

section

variable {t : Table key} {q : V → Bool}

theorem filter_updateWhere {p : V → Bool} (f : V → V) (hf : ∀ v, key (f v) = key v)
    (hq : ∀ v, q v = true → p v = false ∧ p (f v) = false) :
    (t.updateWhere q f hf).2.items.filter p = t.items.filter p := by
  have hlist : ∀ l : List V, (l.map fun v ↦ if q v then f v else v).filter p = l.filter p := by
    intro l
    induction l with
    | nil => rfl
    | cons v l ih =>
      rw [List.map_cons]
      cases hv : q v with
      | true =>
        obtain ⟨hp, hpf⟩ := hq v hv
        rw [if_pos rfl, List.filter_cons_of_neg (by simp [hpf]),
          List.filter_cons_of_neg (by simp [hp]), ih]
      | false =>
        rw [if_neg Bool.false_ne_true, List.filter_cons, List.filter_cons, ih]
  exact hlist t.items

theorem filter_deleteWhere {p : V → Bool} (hq : ∀ v, q v = true → p v = false) :
    (t.deleteWhere q).2.items.filter p = t.items.filter p := by
  have hboth : ((t.items.filter fun v ↦ !q v).filter p) = t.items.filter p := by
    rw [List.filter_filter]
    refine List.filter_congr fun v _ ↦ ?_
    cases hv : q v with
    | true => simp [hq v hv]
    | false => simp
  exact hboth

theorem forall_updateWhere {P : V → Prop} (f : V → V) (hf : ∀ v, key (f v) = key v)
    (hall : ∀ v ∈ t.items, P v) (hkeep : ∀ v, P v → P (f v)) :
    ∀ v ∈ (t.updateWhere q f hf).2.items, P v := by
  intro w hw
  obtain ⟨v, hv, rfl⟩ := List.mem_map.mp hw
  split_ifs
  · exact hkeep v (hall v hv)
  · exact hall v hv

theorem forall_deleteWhere {P : V → Prop} (hall : ∀ v ∈ t.items, P v) :
    ∀ v ∈ (t.deleteWhere q).2.items, P v :=
  fun v hv ↦ hall v (List.mem_of_mem_filter hv)

end

section

variable [DecidableEq K] {t : Table key} {k : K} {v : V} {q : V → Bool}

theorem insert_of_get_some {w : V} (h : t.get (key v) = some w) : t.insert v = none := by
  rw [insert, h]
  rfl

theorem insert_of_get_none (h : t.get (key v) = none) : t.insert v = some (t.put v) := by
  rw [insert, h]
  rfl

theorem filter_key_and (t : Table key) (k : K) (q : V → Bool) :
    t.items.filter (fun v ↦ decide (key v = k) && q v) = ((t.get k).filter q).toList := by
  have hboth : t.items.filter (fun v ↦ decide (key v = k) && q v) =
    (t.items.filter fun v ↦ key v = k).filter q := by
    rw [List.filter_filter]
    refine List.filter_congr fun v _ ↦ Bool.and_comm _ _
  rw [hboth, filter_key]
  cases hget : t.get k with
  | none => rfl
  | some v => cases hq : q v <;> simp [Option.filter, hq]

theorem updateWhere_none (f : V → V) (hf : ∀ v, key (f v) = key v) (h : (t.get k).filter q = none) :
    ∃ t', t.updateWhere (fun v ↦ decide (key v = k) && q v) f hf = ([], t') := by
  refine ⟨(t.updateWhere (fun v ↦ decide (key v = k) && q v) f hf).2, Prod.ext ?_ rfl⟩
  rw [updateWhere, filter_key_and, h]
  rfl

theorem updateWhere_some (f : V → V) (hf : ∀ v, key (f v) = key v)
    (h : (t.get k).filter q = some v) :
    ∃ t', t.updateWhere (fun v ↦ decide (key v = k) && q v) f hf = ([f v], t') ∧
      t'.get k = some (f v) := by
  obtain ⟨hget, hq⟩ := Option.filter_eq_some_iff.mp h
  have hkey := key_of_get hget
  refine ⟨(t.updateWhere (fun v ↦ decide (key v = k) && q v) f hf).2, Prod.ext ?_ rfl, ?_⟩
  · rw [updateWhere, filter_key_and, h]
    rfl
  · have hmem : f v ∈ (t.updateWhere (fun v ↦ decide (key v = k) && q v) f hf).2.items :=
      List.mem_map.mpr ⟨v, mem_of_get hget, if_pos (by simp [hkey, hq])⟩
    have hfv := get_of_mem hmem
    rwa [hf, hkey] at hfv

theorem deleteWhere_none (h : (t.get k).filter q = none) :
    ∃ t', (t.deleteWhere fun v ↦ decide (key v = k) && q v) = ([], t') := by
  refine ⟨(t.deleteWhere fun v ↦ decide (key v = k) && q v).2, Prod.ext ?_ rfl⟩
  rw [deleteWhere, filter_key_and, h]
  rfl

theorem deleteWhere_some (h : (t.get k).filter q = some v) :
    ∃ t', (t.deleteWhere fun v ↦ decide (key v = k) && q v) = ([v], t') ∧ t'.get k = none := by
  obtain ⟨hget, hq⟩ := Option.filter_eq_some_iff.mp h
  refine ⟨(t.deleteWhere fun v ↦ decide (key v = k) && q v).2, Prod.ext ?_ rfl, ?_⟩
  · rw [deleteWhere, filter_key_and, h]
    rfl
  · rw [deleteWhere, get_filter, hget, Option.filter_some, key_of_get hget, hq]
    simp

theorem get_deleteWhere_key : (t.deleteWhere fun v ↦ decide (key v = k)).2.get k = none := by
  rw [deleteWhere, get_filter]
  cases hget : t.get k with
  | none => rfl
  | some v => simp [key_of_get hget]

/-- The row under a key is told by the rows that a statement leaves there. -/
theorem get_eq_of_filter {t' : Table key}
    (h : t'.items.filter (fun v ↦ decide (key v = k)) = t.items.filter fun v ↦ decide (key v = k)) :
    t'.get k = t.get k := by
  rw [filter_key, filter_key] at h
  cases hget : t.get k <;> cases hget' : t'.get k <;> simp_all

theorem get_updateWhere_of_ne {k' : K} (f : V → V) (hf : ∀ v, key (f v) = key v)
    (hq : ∀ v, q v = true → key v = k) (hk : k' ≠ k) :
    (t.updateWhere q f hf).2.get k' = t.get k' := by
  refine get_eq_of_filter (filter_updateWhere f hf fun v hv ↦ ?_)
  rw [hf, hq v hv, decide_eq_false_iff_not]
  exact ⟨hk.symm, hk.symm⟩

theorem get_deleteWhere_of_ne {k' : K} (hq : ∀ v, q v = true → key v = k) (hk : k' ≠ k) :
    (t.deleteWhere q).2.get k' = t.get k' := by
  refine get_eq_of_filter (filter_deleteWhere fun v hv ↦ ?_)
  rw [hq v hv, decide_eq_false_iff_not]
  exact hk.symm

theorem filter_put_new {p : V → Bool} (hnone : t.get (key v) = none) (hp : p v = false) :
    (t.put v).items.filter p = t.items.filter p := by
  have hnew : key v ∉ t.items.map key := by
    intro hmem
    obtain ⟨w, hw, hk⟩ := List.mem_map.mp hmem
    exact get_eq_none_iff.mp hnone w hw hk
  rw [put, dif_neg hnew]
  simp [hp]

theorem forall_put {P : V → Prop} (hall : ∀ v ∈ t.items, P v) (hv : P v) :
    ∀ w ∈ (t.put v).items, P w := by
  intro w hw
  rcases mem_put.mp hw with rfl | ⟨hw, -⟩
  · exact hv
  · exact hall w hw

end

end Pyleans.Library.Table
