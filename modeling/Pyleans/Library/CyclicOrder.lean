import Mathlib.Order.Basic
import Mathlib.Order.Lattice
import Mathlib.Data.List.Pairwise
import Mathlib.Tactic.Order

namespace Pyleans.Library

variable {α : Type} [LinearOrder α]

def bisectLeft (l : List α) (x : α) : ℕ := l.findIdx (fun a ↦ x ≤ a)

/-- The index of the first element at or after `x`, walking around the circle
from the last element back to the first. -/
def cyclicIndex (l : List α) (x : α) : ℕ :=
  if bisectLeft l x = l.length then 0 else bisectLeft l x

/-- `x` lies on the half-open way from `s` (excluded) to `e` (included), over
the top of the order when `e` is before `s`. -/
def Between (s e x : α) : Prop := if s ≤ e then s < x ∧ x ≤ e else s < x ∨ x ≤ e

instance (s e x : α) : Decidable (Between s e x) := by unfold Between; infer_instance

def cyclicPrev (n i : ℕ) : ℕ := (i + n - 1) % n

theorem cyclicPrev_zero {n : ℕ} (hn : 0 < n) : cyclicPrev n 0 = n - 1 := by
  rw [cyclicPrev, Nat.zero_add, Nat.mod_eq_of_lt (by omega)]

theorem cyclicPrev_succ {n i : ℕ} (hi : i + 1 < n) : cyclicPrev n (i + 1) = i := by
  rw [cyclicPrev, show i + 1 + n - 1 = i + n by
    omega, Nat.add_mod_right, Nat.mod_eq_of_lt (by omega)]

theorem cyclicPrev_lt {n : ℕ} (i : ℕ) (hn : 0 < n) : cyclicPrev n i < n := Nat.mod_lt _ hn

theorem bisectLeft_eq_iff {l : List α} {x : α} {i : ℕ} (hi : i < l.length) :
    bisectLeft l x = i ↔ x ≤ l[i] ∧ ∀ j (hj : j < i), l[j] < x := by
  rw [bisectLeft, List.findIdx_eq hi]
  simp

theorem bisectLeft_eq_length {l : List α} {x : α} : bisectLeft l x = l.length ↔ ∀ a ∈ l, a < x := by
  rw [bisectLeft, List.findIdx_eq_length]
  simp

theorem bisectLeft_lt {l : List α} {x : α} (h : bisectLeft l x ≠ l.length) :
    bisectLeft l x < l.length :=
  lt_of_le_of_ne List.findIdx_le_length h

theorem cyclicIndex_lt {l : List α} (hl : l ≠ []) (x : α) : cyclicIndex l x < l.length := by
  unfold cyclicIndex
  split_ifs with h
  · exact List.length_pos_iff.mpr hl
  · exact bisectLeft_lt h

theorem cyclicIndex_of_lt {l : List α} {x : α} (h : ∀ a ∈ l, a < x) : cyclicIndex l x = 0 := by
  rw [cyclicIndex, if_pos (bisectLeft_eq_length.mpr h)]

theorem cyclicIndex_of_le {l : List α} {x : α} {i : ℕ} (hi : i < l.length) (hx : x ≤ l[i])
    (hj : ∀ j (hj : j < i), l[j] < x) : cyclicIndex l x = i := by
  have h := (bisectLeft_eq_iff hi).mpr ⟨hx, hj⟩
  rw [cyclicIndex, if_neg (by omega), h]

theorem cyclicIndex_cases {l : List α} (hl : l ≠ []) (x : α) :
    (x ≤ getElem l (cyclicIndex l x) (cyclicIndex_lt hl x) ∧
      ∀ j (hj : j < cyclicIndex l x), getElem l j (hj.trans (cyclicIndex_lt hl x)) < x) ∨
    (cyclicIndex l x = 0 ∧ ∀ a ∈ l, a < x) := by
  by_cases h : bisectLeft l x = l.length
  · exact .inr ⟨by rw [cyclicIndex, if_pos h], bisectLeft_eq_length.mp h⟩
  · have he : cyclicIndex l x = bisectLeft l x := by rw [cyclicIndex, if_neg h]
    exact .inl ((bisectLeft_eq_iff (cyclicIndex_lt hl x)).mp he.symm)

theorem getElem_le_of_pairwise {l : List α} (hs : l.Pairwise (· ≤ ·)) {i j : ℕ} (hij : i ≤ j)
    (hj : j < l.length) : l[i] ≤ l[j] := by
  rcases hij.eq_or_lt with rfl | h
  · exact le_rfl
  · exact List.pairwise_iff_getElem.mp hs i j _ hj h

theorem first_lt_last {l : List α} (hs : l.Pairwise (· ≤ ·)) (hd : ∃ a ∈ l, ∃ b ∈ l, a < b) :
    ∃ h : 0 < l.length, l[0] < l[l.length - 1] := by
  obtain ⟨a, ha, b, hb, hab⟩ := hd
  obtain ⟨i, hi, rfl⟩ := List.mem_iff_getElem.mp ha
  obtain ⟨j, hj, rfl⟩ := List.mem_iff_getElem.mp hb
  refine ⟨by omega, ?_⟩
  have h0 := getElem_le_of_pairwise hs (Nat.zero_le i) hi
  have h1 := getElem_le_of_pairwise hs (show j ≤ l.length - 1 by omega) (by omega)
  order

/-- In a sorted list with two distinct elements the walk from `x` stops at
index `i` exactly when `x` lies between the elements before and at `i`. -/
theorem cyclicIndex_eq_iff {l : List α} (hs : l.Pairwise (· ≤ ·)) (hd : ∃ a ∈ l, ∃ b ∈ l, a < b)
    {i : ℕ} (hi : i < l.length) (x : α) :
    cyclicIndex l x = i ↔ Between
      (getElem l (cyclicPrev l.length i) (cyclicPrev_lt i (by omega))) l[i] x := by
  have hl : l ≠ [] := by rintro rfl; simp at hi
  cases i with
  | zero =>
    obtain ⟨hpos, hlt⟩ := first_lt_last hs hd
    simp only [cyclicPrev_zero hpos, Between, if_neg hlt.not_ge]
    constructor
    · intro h
      rcases cyclicIndex_cases hl x with ⟨hx, -⟩ | ⟨-, hx⟩
      · simp only [h] at hx
        exact .inr hx
      · exact .inl (hx _ (List.getElem_mem _))
    · rintro (h | h)
      · refine cyclicIndex_of_lt (fun a ha ↦ ?_)
        obtain ⟨j, hj, rfl⟩ := List.mem_iff_getElem.mp ha
        exact (getElem_le_of_pairwise hs (by omega) (by omega)).trans_lt h
      · exact cyclicIndex_of_le hi h (by omega)
  | succ i =>
    have hle := getElem_le_of_pairwise hs (Nat.le_succ i) hi
    simp only [cyclicPrev_succ hi, Between, if_pos hle]
    constructor
    · intro h
      rcases cyclicIndex_cases hl x with ⟨hx, hj⟩ | ⟨h0, -⟩
      · simp only [h] at hx
        exact ⟨hj i (by omega), hx⟩
      · omega
    · rintro ⟨hlt, hx⟩
      refine cyclicIndex_of_le hi hx (fun j hj ↦ ?_)
      exact (getElem_le_of_pairwise hs (by omega) (by omega)).trans_lt hlt

theorem cyclicIndex_getElem {l : List α} (hl : l ≠ []) (x : α) :
    cyclicIndex l (getElem l (cyclicIndex l x) (cyclicIndex_lt hl x)) = cyclicIndex l x := by
  rcases cyclicIndex_cases hl x with ⟨hx, hj⟩ | ⟨h0, -⟩
  · exact cyclicIndex_of_le (cyclicIndex_lt hl x) le_rfl (fun j h ↦ (hj j h).trans_le hx)
  · simp only [h0]
    exact cyclicIndex_of_le (List.length_pos_iff.mpr hl) le_rfl (by omega)

theorem cyclicIndex_of_pairwise_lt {l : List α} (hs : l.Pairwise (· < ·)) {i : ℕ}
    (hi : i < l.length) :
    cyclicIndex l l[i] = i :=
  cyclicIndex_of_le hi le_rfl (fun j hj ↦ List.pairwise_iff_getElem.mp hs j i _ hi hj)

/-- When the walk from `x` leaves the way from `s` to `e`, it passes `e`, and
the walk from `e` stops where it does. -/
theorem cyclicIndex_of_not_between {l : List α} (hl : l ≠ []) {s e x : α} (hx : Between s e x)
    (hn : ¬ Between s e (getElem l (cyclicIndex l x) (cyclicIndex_lt hl x))) :
    cyclicIndex l x = cyclicIndex l e := by
  have hpos := List.length_pos_iff.mpr hl
  unfold Between at hx hn
  rcases cyclicIndex_cases hl x with ⟨hle, hj⟩ | ⟨h0, hall⟩
  · refine (cyclicIndex_of_le (cyclicIndex_lt hl x) ?_ (fun j h ↦ ?_)).symm
    · split_ifs at hx hn with hse
      · by_contra h
        exact hn ⟨hx.1.trans_le hle, (not_le.mp h).le⟩
      · exact le_of_not_ge (fun h ↦ hn (.inr h))
    · have hjx := hj j h
      split_ifs at hx hn with hse
      · exact hjx.trans_le hx.2
      · rcases hx with hx | hx
        · exact absurd (.inl (hx.trans_le hle)) hn
        · exact hjx.trans_le hx
  · rw [h0]
    simp only [h0] at hn
    split_ifs at hx hn with hse
    · exact (cyclicIndex_of_lt (fun a ha ↦ (hall a ha).trans_le hx.2)).symm
    · rcases hx with hx | hx
      · exact (cyclicIndex_of_le hpos (le_of_not_ge (fun h ↦ hn (.inr h))) (by omega)).symm
      · exact (cyclicIndex_of_lt (fun a ha ↦ (hall a ha).trans_le hx)).symm

end Pyleans.Library
