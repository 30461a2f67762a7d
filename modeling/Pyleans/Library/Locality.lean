import Mathlib.Data.List.Basic

namespace Pyleans.Library

variable {σ α κ ν : Type}

/-- Every action has its place, and what is to be seen at a place depends only
on what was to be seen there before, and on the actions there. -/
structure Local (next : σ → α → σ) (place : α → Option κ) (view : σ → κ → ν) : Prop where
  elsewhere : ∀ s a k, place a ≠ some k → view (next s a) k = view s k
  here : ∀ s t a k, place a = some k → view s k = view t k → view (next s a) k = view (next t a) k

namespace Local

variable {next : σ → α → σ} {place : α → Option κ} {view : σ → κ → ν}

/-- Actions at other places can be left out of a run. -/
theorem purge (h : Local next place view) {k : κ} {keep : α → Bool}
    (hdrop : ∀ a, keep a = false → place a ≠ some k) (s : σ) (l : List α) :
    view (l.foldl next s) k = view ((l.filter keep).foldl next s) k := by
  have htwo : ∀ s t, view s k = view t k →
    view (l.foldl next s) k = view ((l.filter keep).foldl next t) k := by
    induction l with
    | nil => exact fun s t hst ↦ hst
    | cons a l ih =>
      intro s t hst
      rw [List.foldl_cons]
      cases hkeep : keep a with
      | false =>
        rw [List.filter_cons_of_neg (by simp [hkeep])]
        apply ih
        rw [h.elsewhere s a k (hdrop a hkeep), hst]
      | true =>
        rw [List.filter_cons_of_pos hkeep, List.foldl_cons]
        apply ih
        by_cases hplace : place a = some k
        · exact h.here s t a k hplace hst
        · rw [h.elsewhere s a k hplace, h.elsewhere t a k hplace, hst]
  exact htwo s s rfl

/-- What appears at a place was left there by an action. -/
theorem origin (h : Local next place view) {k : κ} {M : α → ν → Prop} {s : σ}
    (hmark : ∀ s a, place a = some k → view (next s a) k = view s k ∨ M a (view (next s a) k))
    (l : List α) :
    view (l.foldl next s) k = view s k ∨ ∃ a ∈ l, place a = some k ∧
      M a (view (l.foldl next s) k) := by
  induction l generalizing s with
  | nil => exact .inl rfl
  | cons a l ih =>
    rw [List.foldl_cons]
    rcases ih (s := next s a) with hsame | ⟨b, hb, hplace, hm⟩
    · rw [hsame]
      by_cases hplace : place a = some k
      · rcases hmark s a hplace with hkept | hm
        · exact .inl hkept
        · exact .inr ⟨a, List.mem_cons_self, hplace, hm⟩
      · exact .inl (h.elsewhere s a k hplace)
    · exact .inr ⟨b, List.mem_cons_of_mem a hb, hplace, hm⟩

end Local

end Pyleans.Library
