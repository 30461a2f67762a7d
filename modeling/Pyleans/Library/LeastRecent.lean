import Mathlib.Data.List.Dedup

namespace Pyleans.Library

variable {α : Type} [DecidableEq α]

/-- Keys in the order in which each was touched last: a touched key goes to the
end, and the first keys leave when there are more than `maxSize`. -/
def touch (maxSize : ℕ) (k : α) (keys : List α) : List α :=
  let touched := keys.erase k ++ [k]
  touched.drop (touched.length - maxSize)

/-- `k` was touched, and `l` after the last touch of `k`. -/
def TouchedBefore (touches : List α) (k l : α) : Prop :=
  ∃ before after, touches = before ++ k :: after ∧ k ∉ after ∧ l ∈ after

variable {touches keys : List α} {k l : α} {maxSize : ℕ}

theorem dedup_snoc (touches : List α) (k : α) :
    (touches ++ [k]).dedup = touches.dedup.erase k ++ [k] := by
  induction touches with
  | nil => rfl
  | cons x touches ih =>
    by_cases hx : x ∈ touches
    · rw [List.cons_append, List.dedup_cons_of_mem (List.mem_append_left _ hx), ih,
        List.dedup_cons_of_mem hx]
    · rw [List.cons_append, List.dedup_cons_of_notMem hx]
      by_cases hk : x = k
      · subst hk
        rw [List.dedup_cons_of_mem (List.mem_append_right _ (List.mem_singleton_self x)), ih,
          List.erase_cons_head, List.erase_of_not_mem (mt List.mem_dedup.mp hx)]
      · have hnot : x ∉ touches ++ [k] := by simp [hx, hk]
        rw [List.dedup_cons_of_notMem hnot, ih, List.erase_cons_tail (by simpa using hk),
          List.cons_append]

/-- What comes first without repetitions was touched last before. -/
theorem touchedBefore_of_sublist (h : [k, l].Sublist touches.dedup) :
    TouchedBefore touches k l := by
  induction touches with
  | nil => simp at h
  | cons x touches ih =>
    by_cases hx : x ∈ touches
    · rw [List.dedup_cons_of_mem hx] at h
      obtain ⟨before, after, rfl, hk, hl⟩ := ih h
      exact ⟨x :: before, after, rfl, hk, hl⟩
    · rw [List.dedup_cons_of_notMem hx] at h
      cases h with
      | cons _ h =>
        obtain ⟨before, after, rfl, hk, hl⟩ := ih h
        exact ⟨x :: before, after, rfl, hk, hl⟩
      | cons_cons _ h =>
        exact ⟨[], touches, rfl, hx, List.mem_dedup.mp (List.singleton_sublist.mp h)⟩

theorem touchedBefore_of_cons (h : (k :: keys).Sublist touches.dedup) (hl : l ∈ keys) :
    TouchedBefore touches k l :=
  touchedBefore_of_sublist (((List.singleton_sublist.mpr hl).cons_cons k).trans h)

theorem touch_sublist (h : keys.Sublist touches.dedup) :
    (touch maxSize k keys).Sublist (touches ++ [k]).dedup := by
  rw [dedup_snoc]
  exact (List.drop_sublist _ _).trans ((h.erase k).append (List.Sublist.refl _))

theorem length_touch_le (maxSize : ℕ) (k : α) (keys : List α) :
    (touch maxSize k keys).length ≤ maxSize := by
  rw [touch, List.length_drop]
  omega

theorem touch_of_room (hlength : keys.length ≤ maxSize) (h : k ∈ keys ∨ keys.length < maxSize) :
    touch maxSize k keys = keys.erase k ++ [k] := by
  have hroom : (keys.erase k ++ [k]).length ≤ maxSize := by
    rw [List.length_append, List.length_singleton]
    rcases h with hmem | hlt
    · have hpos := List.length_pos_of_mem hmem
      rw [List.length_erase_of_mem hmem]
      omega
    · have hle : (keys.erase k).length ≤ keys.length := List.erase_sublist.length_le
      omega
  rw [touch, Nat.sub_eq_zero_of_le hroom, List.drop_zero]

theorem touch_of_full (hsize : 0 < maxSize) (hlength : keys.length = maxSize) (h : k ∉ keys) :
    ∃ first rest, keys = first :: rest ∧ touch maxSize k keys = rest ++ [k] := by
  cases keys with
  | nil =>
    rw [List.length_nil] at hlength
    omega
  | cons first rest =>
    refine ⟨first, rest, rfl, ?_⟩
    have hone : (first :: rest ++ [k]).length - maxSize = 1 := by
      rw [List.length_append, hlength, List.length_singleton]
      omega
    rw [touch, List.erase_of_not_mem h, hone, List.cons_append, List.drop_one, List.tail_cons]

end Pyleans.Library
