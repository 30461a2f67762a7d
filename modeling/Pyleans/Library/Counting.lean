import Mathlib.Algebra.BigOperators.Group.List.Basic
import Mathlib.Algebra.GroupWithZero.Nat
import Mathlib.Data.List.Count
import Mathlib.Data.List.Nodup

namespace Pyleans.Library

variable {α β : Type}

theorem nodup_zipIdx (l : List α) : l.zipIdx.Nodup := by
  refine List.Nodup.of_map Prod.snd ?_
  rw [List.zipIdx_map_snd]
  exact List.nodup_range'

theorem countP_zipIdx {l : List α} {k : ℕ} (hk : k < l.length) (p : α → Bool) :
    l.zipIdx.countP (fun x ↦ p x.1 && decide (x.2 = k)) = if p l[k] then 1 else 0 := by
  classical
  have hmem : (l[k], k) ∈ l.zipIdx := List.mem_zipIdx_iff_getElem?.mpr (List.getElem?_eq_getElem hk)
  have honly : ∀ x ∈ l.zipIdx, x.2 = k → x = (l[k], k) := by
    rintro ⟨a, i⟩ hx rfl
    exact Prod.ext (List.mem_zipIdx' hx).2 rfl
  cases hp : p l[k] with
  | true =>
    rw [if_pos rfl, ← List.count_eq_one_of_mem (nodup_zipIdx l) hmem, List.count_eq_countP]
    refine List.countP_congr fun x hx ↦ ?_
    constructor
    · intro h
      rw [Bool.and_eq_true, decide_eq_true_eq] at h
      exact beq_iff_eq.mpr (honly x hx h.2)
    · intro h
      obtain rfl := beq_iff_eq.mp h
      simp [hp]
  | false =>
    rw [if_neg Bool.false_ne_true]
    refine List.countP_eq_zero.mpr fun x hx h ↦ ?_
    rw [Bool.and_eq_true, decide_eq_true_eq] at h
    obtain rfl := honly x hx h.2
    exact Bool.false_ne_true (hp.symm.trans h.1)

theorem sum_map_eq_count [DecidableEq β] (a : β) (l : List β) :
    (l.map fun b ↦ if a = b then 1 else 0).sum = l.count a := by
  induction l with
  | nil => rfl
  | cons b l ih =>
    rw [List.map_cons, List.sum_cons, ih, List.count_cons, Nat.add_comm]
    by_cases h : a = b
    · simp [h]
    · simp [h, Ne.symm h]

end Pyleans.Library
