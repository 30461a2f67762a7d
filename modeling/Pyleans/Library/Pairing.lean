import Mathlib.Data.List.Nodup

namespace Pyleans.Library

/-- Names that two parties have handed out side by side, pair by pair. -/
abbrev Pairing (α β : Type) := List (α × β)

namespace Pairing

variable {α β : Type} {p : Pairing α β} {x : Option α} {y : Option β} {a : α} {b : β}

/-- Both parties are given no name, or two names handed out together, or names
that neither of them has handed out. -/
def Corresponds (p : Pairing α β) : Option α → Option β → Prop
  | none, none => True
  | some a, some b => (a, b) ∈ p ∨ (a ∉ p.map Prod.fst ∧ b ∉ p.map Prod.snd)
  | _, _ => False

instance [DecidableEq α] [DecidableEq β] (p : Pairing α β) :
    ∀ x y, Decidable (p.Corresponds x y)
  | none, none => .isTrue trivial
  | some a, some b =>
    inferInstanceAs (Decidable ((a, b) ∈ p ∨ (a ∉ p.map Prod.fst ∧ b ∉ p.map Prod.snd)))
  | none, some _ | some _, none => .isFalse id

/-- No name was handed out twice. -/
structure OneToOne (p : Pairing α β) : Prop where
  left : (p.map Prod.fst).Nodup
  right : (p.map Prod.snd).Nodup

theorem OneToOne.eq_left_iff (h : p.OneToOne) {q r : α × β} (hq : q ∈ p) (hr : r ∈ p) :
    q.1 = r.1 ↔ q.2 = r.2 :=
  ⟨fun he ↦ by rw [List.inj_on_of_nodup_map h.left hq hr he],
    fun he ↦ by rw [List.inj_on_of_nodup_map h.right hq hr he]⟩

/-- A pair that was handed out tells one party the same about a name as the other. -/
theorem Corresponds.eq_iff (h : p.OneToOne) (hc : p.Corresponds x y) (hab : (a, b) ∈ p) :
    some a = x ↔ some b = y := by
  cases x with
  | none =>
    cases y with
    | none => exact iff_of_false (Option.some_ne_none a) (Option.some_ne_none b)
    | some y => exact False.elim hc
  | some x =>
    cases y with
    | none => exact False.elim hc
    | some y =>
      rw [Option.some_inj, Option.some_inj]
      rcases hc with hxy | ⟨hx, hy⟩
      · exact h.eq_left_iff hab hxy
      · refine iff_of_false (fun he ↦ hx ?_) (fun he ↦ hy ?_)
        · exact List.mem_map.mpr ⟨_, hab, he⟩
        · exact List.mem_map.mpr ⟨_, hab, he⟩

theorem Corresponds.none_iff (hc : p.Corresponds x y) : x = none ↔ y = none := by
  cases x <;> cases y <;> simp_all [Corresponds]

end Pairing

end Pyleans.Library
