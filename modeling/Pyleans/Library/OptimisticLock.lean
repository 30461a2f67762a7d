import Mathlib.Data.Int.Basic
import Mathlib.Data.List.Basic

namespace Pyleans.Library

/-- How the rows of a store carry their keys and the tags that a conditional
write compares. A write stamps its row with the next version of the store. -/
structure Tagging (K V T : Type) where
  key : V → K
  tag : V → T
  stamp : ℤ → T
  stamp_injective : Function.Injective stamp

namespace Tagging

variable {K V T : Type} (τ : Tagging K V T)

def Stamped (version : ℤ) (r : V) : Prop := ∃ v ≤ version, τ.tag r = τ.stamp v

def AllStamped (rows : K → Option V) (version : ℤ) : Prop :=
  ∀ k r, rows k = some r → τ.Stamped version r

/-- One write under the key `k`, or the removal of its row. -/
structure Writes (rows rows' : K → Option V) (version : ℤ) (k : K) : Prop where
  others : ∀ k' ≠ k, rows' k' = rows k'
  stamped : ∀ r, rows' k = some r → τ.tag r = τ.stamp (version + 1)

/-- `r` was read from a row, and `since` lists the keys written since. A row
that still carries its tag has not been written. -/
def Held (rows : K → Option V) (version : ℤ) (since : List K) (r : V) : Prop :=
  τ.Stamped version r ∧
    ∀ current, rows (τ.key r) = some current → τ.tag current = τ.tag r →
      current = r ∧ τ.key r ∉ since

variable {τ} {rows rows' : K → Option V} {version : ℤ} {k : K} {r : V} {since : List K}

theorem Stamped.later (h : τ.Stamped version r) : τ.Stamped (version + 1) r := by
  obtain ⟨v, hv, ht⟩ := h
  exact ⟨v, by omega, ht⟩

theorem AllStamped.write (h : τ.AllStamped rows version) (hw : τ.Writes rows rows' version k) :
    τ.AllStamped rows' (version + 1) := by
  intro k' r hr
  by_cases hk : k' = k
  · exact ⟨version + 1, Int.le_refl _, hw.stamped r (hk ▸ hr)⟩
  · exact (h k' r (hw.others k' hk ▸ hr)).later

theorem Held.of_read (h : τ.AllStamped rows version) (hr : rows (τ.key r) = some r) :
    τ.Held rows version [] r := by
  refine ⟨h _ r hr, fun current hc _ ↦ ⟨?_, List.not_mem_nil⟩⟩
  rw [hr] at hc
  exact (Option.some.inj hc).symm

/-- A write under the key of a row that is held takes its tag away for good. -/
theorem Held.write (h : τ.Held rows version since r) (hw : τ.Writes rows rows' version k) :
    τ.Held rows' (version + 1) (since ++ [k]) r := by
  obtain ⟨⟨v, hv, ht⟩, hcur⟩ := h
  refine ⟨⟨v, by omega, ht⟩, fun current hc he ↦ ?_⟩
  by_cases hk : τ.key r = k
  · have hstamp := τ.stamp_injective ((hw.stamped current (hk ▸ hc)).symm.trans (he.trans ht))
    omega
  · obtain ⟨hr, hs⟩ := hcur current (hw.others _ hk ▸ hc) he
    exact ⟨hr, by simpa [hs] using hk⟩

end Tagging

end Pyleans.Library
