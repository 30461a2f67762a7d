import Mathlib.Data.List.Basic

namespace Pyleans.Library

variable {α : Type} {l : List α} {i : ℕ} {a : α}

theorem exists_split (h : l[i]? = some a) :
    ∃ before after, l.take i = before ∧ l = before ++ a :: after ∧ l.eraseIdx i = before ++ after ∧
      ∀ b, l.set i b = before ++ b :: after := by
  obtain ⟨hi, rfl⟩ := List.getElem?_eq_some_iff.mp h
  refine ⟨l.take i, l.drop (i + 1), rfl, ?_, List.eraseIdx_eq_take_drop_succ l i, fun b ↦ ?_⟩
  · rw [List.getElem_cons_drop, List.take_append_drop]
  · rw [List.set_eq_take_append_cons_drop, if_pos hi]

theorem mem_iff_of_getElem? (h : l[i]? = some a) {x : α} : x ∈ l ↔ x = a ∨ x ∈ l.eraseIdx i := by
  obtain ⟨before, after, -, hl, he, -⟩ := exists_split h
  rw [he, hl]
  simp only [List.mem_append, List.mem_cons]
  tauto

theorem mem_set_iff_of_getElem? (h : l[i]? = some a) {b x : α} :
    x ∈ l.set i b ↔ x = b ∨ x ∈ l.eraseIdx i := by
  obtain ⟨before, after, -, -, he, hs⟩ := exists_split h
  rw [he, hs]
  simp only [List.mem_append, List.mem_cons]
  tauto

theorem exists_mem_of_getElem? (h : l[i]? = some a) {p : α → Prop} :
    (∃ x ∈ l, p x) ↔ p a ∨ ∃ x ∈ l.eraseIdx i, p x := by
  simp only [mem_iff_of_getElem? h, or_and_right, exists_or, exists_eq_left]

theorem exists_mem_set (h : l[i]? = some a) {p : α → Prop} {b : α} :
    (∃ x ∈ l.set i b, p x) ↔ p b ∨ ∃ x ∈ l.eraseIdx i, p x := by
  simp only [mem_set_iff_of_getElem? h, or_and_right, exists_or, exists_eq_left]

theorem exists_mem_append_singleton {p : α → Prop} {b : α} :
    (∃ x ∈ l ++ [b], p x) ↔ (∃ x ∈ l, p x) ∨ p b := by
  simp only [List.mem_append, List.mem_singleton, or_and_right, exists_or, exists_eq_left]

theorem getElem?_grown {x : α} :
    (l ++ [x])[i]? = some a ↔ l[i]? = some a ∨ (i = l.length ∧ x = a) := by
  by_cases hi : i < l.length
  · rw [List.getElem?_append_left hi]
    exact ⟨.inl, fun h ↦ h.resolve_right fun h ↦ by omega⟩
  · have hnone : l[i]? = none := List.getElem?_eq_none (by omega)
    rw [List.getElem?_append_right (by omega), List.getElem?_singleton, hnone]
    by_cases h0 : i = l.length
    · simp [h0]
    · rw [if_neg (by omega)]
      simp [h0]

theorem getElem?_replaced (h : l[i]? = some a) {j : ℕ} {b c : α} :
    (l.set i b)[j]? = some c ↔ (j = i ∧ b = c) ∨ (j ≠ i ∧ l[j]? = some c) := by
  have hi : i < l.length := (List.getElem?_eq_some_iff.mp h).1
  by_cases hj : j = i
  · rw [hj, List.getElem?_set_self hi]
    simp
  · rw [List.getElem?_set_ne (Ne.symm hj)]
    simp [hj]

/-- What a change makes of an item is gone once the item is put back. -/
theorem set_modify_of_getElem? (h : l[i]? = some a) (f : α → α) : (l.modify i f).set i a = l := by
  apply List.ext_getElem?
  intro j
  by_cases hj : i = j
  · subst hj
    rw [List.getElem?_set_self (by simpa using (List.getElem?_eq_some_iff.mp h).1), h]
  · rw [List.getElem?_set_ne hj, List.getElem?_modify_ne _ _ hj]

theorem modify_length_append (l : List α) (a : α) (f : α → α) :
    (l ++ [a]).modify l.length f = l ++ [f a] := by
  induction l with
  | nil => rfl
  | cons b l ih =>
    rw [List.cons_append, List.length_cons, List.modify_succ_cons, ih, List.cons_append]

/-- An item of a list that has just grown is the new one or was there before. -/
theorem last_or_before {x : α} {before after : List α} (h : l ++ [x] = before ++ a :: after) :
    (l = before ∧ x = a) ∨ ∃ after', l = before ++ a :: after' := by
  rcases List.eq_nil_or_concat after with rfl | ⟨after', y, rfl⟩
  · obtain ⟨hl, hx⟩ := List.append_inj' h rfl
    exact .inl ⟨hl, (List.cons.inj hx).1⟩
  · rw [List.concat_eq_append, ← List.cons_append, ← List.append_assoc] at h
    exact .inr ⟨after', (List.append_inj' h rfl).1⟩

end Pyleans.Library
