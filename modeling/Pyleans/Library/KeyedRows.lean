import Mathlib.Data.List.Forall2
import Pyleans.Library.Table

namespace Pyleans.Library.Table

variable {A K V : Type} [DecidableEq K] {R : A → V → Prop} {k : A → K} {key : V → K} {rows : List A}
  {items : List V}
  {id : K} {i : ℕ} {a : A} {v : V}

theorem forall₂_find (h : List.Forall₂ R rows items) (hk : ∀ a v, R a v → k a = key v) (id : K) :
    ((rows.findIdx? fun a ↦ k a = id) = none ∧ (items.find? fun v ↦ key v = id) = none) ∨
      ∃ i a v, (rows.findIdx? fun a ↦ k a = id) = some i ∧ rows[i]? = some a ∧
        (items.find? fun v ↦ key v = id) = some v ∧ R a v := by
  induction h with
  | nil => exact .inl ⟨rfl, rfl⟩
  | @cons a v rows items hav h ih =>
    rw [List.findIdx?_cons, List.find?_cons, hk a v hav]
    by_cases hid : key v = id
    · exact .inr ⟨0, a, v, by simp [hid], rfl, by simp [hid], hav⟩
    · rcases ih with ⟨hindex, hfind⟩ | ⟨i, b, w, hindex, hget, hfind, hbw⟩
      · exact .inl ⟨by simp [hid, hindex], by simp [hid, hfind]⟩
      · exact .inr ⟨i + 1, b, w, by simp [hid, hindex], hget, by simp [hid, hfind], hbw⟩

omit [DecidableEq K] in
theorem ne_of_not_mem_keys (h : id ∉ items.map key) : ∀ w ∈ items, key w ≠ id :=
  fun _ hw hid ↦ h (hid ▸ List.mem_map_of_mem hw)

theorem forall₂_set (h : List.Forall₂ R rows items) (hk : ∀ a v, R a v → k a = key v)
    (hn : (items.map key).Nodup) (hi : (rows.findIdx? fun a ↦ k a = id) = some i) (hav : R a v) :
    List.Forall₂ R (rows.set i a) (items.map fun w ↦ if key w = id then v else w) := by
  induction h generalizing i with
  | nil => cases hi
  | @cons b w rows items hbw h ih =>
    rw [List.map_cons, List.nodup_cons] at hn
    rw [List.findIdx?_cons, hk b w hbw] at hi
    by_cases hid : key w = id
    · simp only [hid, decide_true, if_true, Option.some.injEq] at hi
      have hrest : (items.map fun w ↦ if key w = id then v else w) = items := by
        conv_rhs => rw [← List.map_id items]
        exact List.map_congr_left fun u hu ↦ if_neg (ne_of_not_mem_keys (hid ▸ hn.1) u hu)
      rw [← hi, List.set_cons_zero, List.map_cons, if_pos hid, hrest]
      exact .cons hav h
    · simp only [hid, decide_false, Bool.false_eq_true, if_false, Option.map_eq_some_iff] at hi
      obtain ⟨j, hj, rfl⟩ := hi
      rw [List.set_cons_succ, List.map_cons, if_neg hid]
      exact .cons hbw (ih hn.2 hj)

theorem forall₂_eraseIdx (h : List.Forall₂ R rows items) (hk : ∀ a v, R a v → k a = key v)
    (hn : (items.map key).Nodup) (hi : (rows.findIdx? fun a ↦ k a = id) = some i) :
    List.Forall₂ R (rows.eraseIdx i) (items.filter fun w ↦ key w ≠ id) := by
  induction h generalizing i with
  | nil => cases hi
  | @cons b w rows items hbw h ih =>
    rw [List.map_cons, List.nodup_cons] at hn
    rw [List.findIdx?_cons, hk b w hbw] at hi
    by_cases hid : key w = id
    · simp only [hid, decide_true, if_true, Option.some.injEq] at hi
      have hrest : items.filter (fun w ↦ key w ≠ id) = items :=
        List.filter_eq_self.mpr fun u hu ↦ decide_eq_true (ne_of_not_mem_keys (hid ▸ hn.1) u hu)
      rw [← hi, List.eraseIdx_cons_zero, List.filter_cons_of_neg (by simpa using hid), hrest]
      exact h
    · simp only [hid, decide_false, Bool.false_eq_true, if_false, Option.map_eq_some_iff] at hi
      obtain ⟨j, hj, rfl⟩ := hi
      rw [List.eraseIdx_cons_succ, List.filter_cons_of_pos (by simpa using hid)]
      exact .cons hbw (ih hn.2 hj)

section

variable {t : Table key}

theorem forall₂_put_new (h : List.Forall₂ R rows t.items) (hnone : t.get (key v) = none)
    (hav : R a v) :
    List.Forall₂ R (rows ++ [a]) (t.put v).items := by
  have hnew : key v ∉ t.items.map key := by
    intro hmem
    obtain ⟨w, hw, hkey⟩ := List.mem_map.mp hmem
    exact get_eq_none_iff.mp hnone w hw hkey
  rw [put, dif_neg hnew]
  exact List.rel_append h (.cons hav .nil)

theorem forall₂_put (h : List.Forall₂ R rows t.items) (hk : ∀ a v, R a v → k a = key v)
    (hi : (rows.findIdx? fun a ↦ k a = key v) = some i) {w : V} (hw : t.get (key v) = some w)
    (hav : R a v) :
    List.Forall₂ R (rows.set i a) (t.put v).items := by
  have hmem : key v ∈ t.items.map key := List.mem_map.mpr ⟨w, mem_of_get hw, key_of_get hw⟩
  rw [put, dif_pos hmem]
  exact forall₂_set h hk t.nodup hi hav

theorem forall₂_pop (h : List.Forall₂ R rows t.items) (hk : ∀ a v, R a v → k a = key v)
    (hi : (rows.findIdx? fun a ↦ k a = id) = some i) :
    List.Forall₂ R (rows.eraseIdx i) (t.pop id).items :=
  forall₂_eraseIdx h hk t.nodup hi

end

end Pyleans.Library.Table
