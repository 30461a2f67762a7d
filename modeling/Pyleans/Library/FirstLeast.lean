import Mathlib.Data.List.MinMax
import Mathlib.Data.List.Perm.Basic
import Mathlib.Data.List.TakeWhile

namespace Pyleans.Library

variable {α β : Type} [LinearOrder β] {key : α → β} {l : List α}

theorem argmin_snoc_of_lt {m a : α} (h : l.argmin key = some m) (ha : key a < key m) :
    (l ++ [a]).argmin key = some a := by
  simp only [List.argmin_concat, h, if_pos ha]

theorem argmin_snoc_of_le {m a : α} (h : l.argmin key = some m) (ha : key m ≤ key a) :
    (l ++ [a]).argmin key = some m := by
  simp only [List.argmin_concat, h, if_neg ha.not_gt]

theorem argmin_eq_some_of_first {m : α} (h : ∀ a ∈ l, key m ≤ key a) :
    (m :: l).argmin key = some m := by
  rw [List.argmin_cons]
  cases hl : l.argmin key with
  | none => rfl
  | some a => exact if_neg (h a (List.argmin_mem hl)).not_gt

theorem exists_argmin (hl : l ≠ []) (key : α → β) : ∃ m, l.argmin key = some m :=
  Option.ne_none_iff_exists'.mp (fun h ↦ hl (List.argmin_eq_none.mp h))

/-- The element kept is the same for every order of arrival exactly when no
other element is as small. -/
theorem forall_perm_argmin_iff [DecidableEq α] {m : α} :
    (∀ l' : List α, l'.Perm l → l'.argmin key = some m) ↔
      m ∈ l ∧ (∀ a ∈ l, key m ≤ key a) ∧ ∀ a ∈ l, key a = key m → a = m := by
  constructor
  · intro h
    have hm := h l (List.Perm.refl l)
    have hle : ∀ a ∈ l, key m ≤ key a := fun a ha ↦ List.le_of_mem_argmin ha hm
    refine ⟨List.argmin_mem hm, hle, fun a ha hk ↦ ?_⟩
    have hfirst : (a :: l.erase a).argmin key = some a :=
      argmin_eq_some_of_first (fun b hb ↦ hk ▸ hle b (List.mem_of_mem_erase hb))
    rw [h _ (List.perm_cons_erase ha).symm] at hfirst
    exact (Option.some.inj hfirst).symm
  · rintro ⟨hm, hle, huniq⟩ l' hp
    obtain ⟨b, hb⟩ := exists_argmin (List.ne_nil_of_mem (hp.mem_iff.mpr hm)) key
    have hbl := hp.mem_iff.mp (List.argmin_mem hb)
    have hbm := List.le_of_mem_argmin (hp.mem_iff.mpr hm) hb
    rw [hb, huniq b hbl (le_antisymm hbm (hle b hbl))]

section Before

variable [DecidableEq α]

def before (m : α) (l : List α) : List α := l.takeWhile (fun a ↦ a ≠ m)

theorem before_snoc_of_mem {m : α} (hm : m ∈ l) (a : α) : before m (l ++ [a]) = before m l := by
  have hlt : (l.takeWhile (fun b ↦ b ≠ m)).length ≠ l.length := by
    intro h
    have hall := List.takeWhile_eq_self_iff.mp ((List.takeWhile_prefix _).eq_of_length h)
    simpa using hall m hm
  rw [before, List.takeWhile_append, if_neg hlt, before]

theorem before_snoc_of_not_mem {m : α} (hm : m ∉ l) : before m (l ++ [m]) = l := by
  have hall : ∀ a ∈ l, decide (a ≠ m) = true := fun a ha ↦ by
    simpa using ne_of_mem_of_not_mem ha hm
  rw [before, List.takeWhile_append_of_pos hall, List.takeWhile_cons_of_neg (by simp),
    List.append_nil]

theorem mem_of_mem_before {m a : α} (h : a ∈ before m l) : a ∈ l :=
  (List.takeWhile_prefix _).subset h

end Before

end Pyleans.Library
