import Mathlib.Data.List.Infix
import Mathlib.Order.Basic

namespace Pyleans.Library

variable {σ α C V : Type} [PartialOrder V]

/-- A store whose version counts its changes: a step leaves version and content
as they are, or the version grows. -/
def Versioned (next : σ → α → σ) (I : σ → Prop) (version : σ → V) (content : σ → C) : Prop :=
  ∀ s a, I s → I (next s a) ∧
    (version (next s a) = version s ∧ content (next s a) = content s ∨
      version s < version (next s a))

namespace Versioned

variable {next : σ → α → σ} {I : σ → Prop} {version : σ → V} {content : σ → C} {s : σ}

theorem invariant (h : Versioned next I version content) (hs : I s) (l : List α) :
    I (l.foldl next s) := by
  induction l generalizing s with
  | nil => exact hs
  | cons a l ih => exact ih (h s a hs).1

theorem run (h : Versioned next I version content) (hs : I s) (l : List α) :
    version (l.foldl next s) = version s ∧ content (l.foldl next s) = content s ∨
      version s < version (l.foldl next s) := by
  induction l generalizing s with
  | nil => exact .inl ⟨rfl, rfl⟩
  | cons a l ih =>
    rw [List.foldl_cons]
    obtain ⟨hinv, hstep⟩ := h s a hs
    rcases hstep with ⟨hv, hc⟩ | hlt
    · have hrest := ih hinv
      rwa [hv, hc] at hrest
    · rcases ih hinv with ⟨hv, -⟩ | hlt'
      · exact .inr (hv ▸ hlt)
      · exact .inr (hlt.trans hlt')

theorem content_eq (h : Versioned next I version content) (hs : I s) {l m history : List α}
    (hl : l <+: history) (hm : m <+: history)
    (hv : version (l.foldl next s) = version (m.foldl next s)) :
    content (l.foldl next s) = content (m.foldl next s) := by
  have along : ∀ {l m : List α}, l <+: m → version (l.foldl next s) = version (m.foldl next s) →
      content (l.foldl next s) = content (m.foldl next s) := by
    intro l m hlm hv
    obtain ⟨rest, rfl⟩ := hlm
    rw [List.foldl_append] at hv ⊢
    rcases h.run (h.invariant hs l) rest with ⟨-, hc⟩ | hlt
    · exact hc.symm
    · exact absurd hv hlt.ne
  rcases List.prefix_or_prefix_of_prefix hl hm with hlm | hml
  · exact along hlm hv
  · exact (along hml hv.symm).symm

end Versioned

end Pyleans.Library
