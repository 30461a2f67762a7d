import Mathlib.Data.List.Sort

namespace Pyleans.Library

variable {α β : Type} [LinearOrder β]

def sortedBy (key : α → β) (l : List α) : List α := l.insertionSort (fun a b ↦ key a ≤ key b)

section

variable (key : α → β)

instance instTotalKey : Std.Total (fun a b : α ↦ key a ≤ key b) :=
  ⟨fun a b ↦ le_total (key a) (key b)⟩

instance instTransKey : IsTrans α (fun a b : α ↦ key a ≤ key b) := ⟨fun _ _ _ h h' ↦ le_trans h h'⟩

theorem sortedBy_pairwise (l : List α) : (sortedBy key l).Pairwise (fun a b ↦ key a ≤ key b) :=
  List.pairwise_insertionSort _ l

theorem sortedBy_perm (l : List α) : (sortedBy key l).Perm l := List.perm_insertionSort _ l

@[simp] theorem mem_sortedBy {l : List α} {a : α} : a ∈ sortedBy key l ↔ a ∈ l :=
  List.mem_insertionSort _

@[simp] theorem length_sortedBy (l : List α) : (sortedBy key l).length = l.length :=
  List.length_insertionSort _ l

theorem sortedBy_ne_nil {l : List α} (h : l ≠ []) : sortedBy key l ≠ [] := by
  intro hs
  exact h (List.length_eq_zero_iff.mp (by rw [← length_sortedBy key, hs, List.length_nil]))

theorem sortedBy_nodup {l : List α} (h : l.Nodup) : (sortedBy key l).Nodup :=
  (sortedBy_perm key l).nodup_iff.mpr h

end

theorem nodup_eraseDups {γ : Type} [BEq γ] [LawfulBEq γ] (l : List γ) : l.eraseDups.Nodup := by
  induction h : l.length using Nat.strong_induction_on generalizing l with
  | _ n ih =>
    cases l with
    | nil => simp
    | cons a l =>
      have hlen := List.length_filter_le (fun b ↦ !b == a) l
      simp only [List.length_cons] at h
      rw [List.eraseDups_cons, List.nodup_cons]
      refine ⟨fun hm ↦ ?_, ih _ (by omega) _ rfl⟩
      simpa using List.of_mem_filter (List.mem_eraseDups.mp hm)

end Pyleans.Library
