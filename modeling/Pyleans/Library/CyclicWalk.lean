import Mathlib.Data.Finset.Card
import Mathlib.Data.List.Rotate
import Mathlib.Data.List.TakeWhile
import Pyleans.Library.CyclicOrder

namespace Pyleans.Library

variable {α : Type} [DecidableEq α]

/-- Walks along a list and collects what has not been seen, until `count`
items are together. -/
def collectDistinct (count : ℕ) : List α → List α → List α → List α
  | [], result, _ => result
  | candidate :: rest, result, seen =>
    if candidate ∈ seen then collectDistinct count rest result seen
    else if (result ++ [candidate]).length = count then result ++ [candidate]
    else collectDistinct count rest (result ++ [candidate]) (candidate :: seen)

/-- The items, seen ones apart, that a walk meets before it first meets `t`. -/
def distinctBefore (walk : List α) (seen : List α) (t : α) : Finset α :=
  ((walk.takeWhile (· ≠ t)).filter (· ∉ seen)).toFinset

theorem distinctBefore_self (rest seen : List α) (t : α) :
    distinctBefore (t :: rest) seen t = ∅ := by
  simp [distinctBefore]

theorem distinctBefore_seen {c t : α} {rest seen : List α} (hc : c ∈ seen) (ht : c ≠ t) :
    distinctBefore (c :: rest) seen t = distinctBefore rest seen t := by
  simp [distinctBefore, ht, hc]

theorem card_distinctBefore_new {c t : α} {rest seen : List α} (hc : c ∉ seen) (ht : c ≠ t) :
    (distinctBefore (c :: rest) seen t).card = (distinctBefore rest (c :: seen) t).card + 1 := by
  have hinsert : distinctBefore (c :: rest) seen t =
      insert c (distinctBefore rest (c :: seen) t) := by
    ext x
    by_cases hx : x = c <;> simp [distinctBefore, ht, hc, hx]
  rw [hinsert, Finset.card_insert_of_notMem (by simp [distinctBefore])]

@[simp] theorem mem_distinctBefore {walk seen : List α} {t u : α} :
    u ∈ distinctBefore walk seen t ↔ u ∈ walk.takeWhile (· ≠ t) ∧ u ∉ seen := by
  simp [distinctBefore]

theorem distinctBefore_append {walk rest seen : List α} {t : α} (ht : t ∈ walk) :
    distinctBefore (walk ++ rest) seen t = distinctBefore walk seen t := by
  have hshort : (walk.takeWhile (· ≠ t)).length ≠ walk.length := by
    intro h
    rw [← (List.takeWhile_prefix _).eq_of_length h] at ht
    simpa using List.mem_takeWhile_imp ht
  rw [distinctBefore, List.takeWhile_append, if_neg hshort, distinctBefore]

/-- An item is collected if it was before, or if fewer new ones than there is
room for come before it. -/
theorem mem_collectDistinct {count : ℕ} {walk result seen : List α} (hcount : result.length < count)
    {t : α} :
    t ∈ collectDistinct count walk result seen ↔
      t ∈ result ∨ t ∉ seen ∧ t ∈ walk ∧
        result.length + (distinctBefore walk seen t).card < count := by
  induction walk generalizing result seen with
  | nil => simp [collectDistinct]
  | cons c rest ih =>
    rw [collectDistinct]
    by_cases hc : c ∈ seen
    · rw [if_pos hc, ih hcount]
      by_cases ht : c = t
      · subst ht
        simp [hc]
      · rw [distinctBefore_seen hc ht]
        simp [Ne.symm ht]
    · rw [if_neg hc]
      by_cases ht : c = t
      · subst ht
        rw [distinctBefore_self, Finset.card_empty, Nat.add_zero]
        refine iff_of_true ?_ (.inr ⟨hc, List.mem_cons_self, hcount⟩)
        split_ifs with hfull
        · exact List.mem_append_right _ (List.mem_singleton_self c)
        · have hlen : (result ++ [c]).length < count := by
            simp only [List.length_append, List.length_singleton] at hfull ⊢
            omega
          exact (ih hlen).mpr (.inl (List.mem_append_right _ (List.mem_singleton_self c)))
      · rw [card_distinctBefore_new hc ht]
        split_ifs with hfull
        · simp only [List.length_append, List.length_singleton] at hfull
          simp only [List.mem_append, List.mem_singleton, Ne.symm ht, or_false]
          constructor
          · exact .inl
          · rintro (h | ⟨-, -, h⟩)
            · exact h
            · omega
        · have hlen : (result ++ [c]).length < count := by
            simp only [List.length_append, List.length_singleton] at hfull ⊢
            omega
          have hresult : t ∈ result ++ [c] ↔ t ∈ result := by simp [Ne.symm ht]
          have hseen : t ∉ c :: seen ↔ t ∉ seen := by simp [Ne.symm ht]
          have hrest : t ∈ c :: rest ↔ t ∈ rest := by simp [Ne.symm ht]
          have hroom : (result ++ [c]).length + (distinctBefore rest (c :: seen) t).card < count ↔
              result.length + ((distinctBefore rest (c :: seen) t).card + 1) < count := by
            rw [List.length_append, List.length_singleton, Nat.add_assoc, Nat.add_comm 1]
          rw [ih hlen, hresult, hseen, hrest, hroom]

/-- The walk collects the first of its items, seen ones and repetitions apart. -/
theorem collectDistinct_eq {count : ℕ} {walk result seen : List α}
    (hcount : result.length < count) :
    collectDistinct count walk result seen =
      result ++ ((walk.filter fun a ↦ a ∉ seen).eraseDups).take (count - result.length) := by
  induction walk generalizing result seen with
  | nil => simp [collectDistinct]
  | cons c rest ih =>
    rw [collectDistinct]
    by_cases hc : c ∈ seen
    · rw [if_pos hc, ih hcount, List.filter_cons_of_neg (by simpa using hc)]
    · have hrest : (rest.filter fun a ↦ a ∉ seen).filter (fun a ↦ !a == c) = rest.filter fun a ↦
        a ∉ c :: seen := by
        rw [List.filter_filter]
        refine List.filter_congr fun a _ ↦ ?_
        by_cases hac : a = c <;> simp [hac]
      have hroom : count - result.length = count - (result.length + 1) + 1 := by omega
      rw [if_neg hc, List.filter_cons_of_pos (by simpa using hc), List.eraseDups_cons, hrest, hroom,
        List.take_succ_cons]
      split_ifs with hfull
      · rw [List.length_append, List.length_singleton] at hfull
        rw [hfull, Nat.sub_self, List.take_zero]
      · rw [List.length_append, List.length_singleton] at hfull
        rw [ih (by rw [List.length_append, List.length_singleton]; omega), List.length_append,
          List.length_singleton, List.append_assoc, List.singleton_append]

/-- In a list kept in the order `R`, the items before the first `t` are those
in order with every `t`. -/
theorem mem_takeWhile_ne {β : Type} {R : β → β → Prop} (hR : ∀ p q, R p q → R q p → p = q)
    {l : List β} (hl : l.Pairwise R) (f : β → α) {t x : α} (hx : x ≠ t) :
    x ∈ (l.map f).takeWhile (· ≠ t) ↔ ∃ p ∈ l, f p = x ∧ ∀ q ∈ l, f q = t → R p q := by
  induction l with
  | nil => simp
  | cons a l ih =>
    have hafter := (List.pairwise_cons.mp hl).1
    by_cases ha : f a = t
    · simp only [List.map_cons, List.takeWhile_cons, ha, ne_eq, not_true_eq_false, decide_false,
        Bool.false_eq_true, if_false, List.not_mem_nil, false_iff, not_exists, not_and]
      intro p hp hpx hfirst
      have hpa := hfirst a List.mem_cons_self ha
      rcases List.mem_cons.mp hp with rfl | hp
      · exact hx (hpx.symm.trans ha)
      · exact hx ((hpx.symm.trans (congrArg f (hR p a hpa (hafter p hp)))).trans ha)
    · have hskip : (∀ q ∈ a :: l, f q = t → R a q) ∧ ∀ p, (∀ q ∈ a :: l, f q = t → R p q) ↔
          ∀ q ∈ l, f q = t → R p q :=
        ⟨fun q hq hqt ↦ hafter q ((List.mem_cons.mp hq).resolve_left fun h ↦ ha (h ▸ hqt)),
          fun p ↦ ⟨fun h q hq ↦ h q (List.mem_cons_of_mem _ hq),
            fun h q hq hqt ↦ h q ((List.mem_cons.mp hq).resolve_left fun h ↦ ha (h ▸ hqt)) hqt⟩⟩
      simp only [List.map_cons, List.takeWhile_cons, ha, ne_eq, not_false_eq_true, decide_true,
        if_true, List.mem_cons (a := x)]
      rw [ih hl.of_cons]
      constructor
      · rintro (rfl | ⟨p, hp, hpx, hfirst⟩)
        · exact ⟨a, List.mem_cons_self, rfl, hskip.1⟩
        · exact ⟨p, List.mem_cons_of_mem _ hp, hpx, (hskip.2 p).mpr hfirst⟩
      · rintro ⟨p, hp, hpx, hfirst⟩
        rcases List.mem_cons.mp hp with rfl | hp
        · exact .inl hpx.symm
        · exact .inr ⟨p, hp, hpx, (hskip.2 p).mp hfirst⟩

theorem filterMap_range_getElem? {γ : Type} (l : List γ) :
    (List.range l.length).filterMap (l[·]?) = l := by
  induction l with
  | nil => rfl
  | cons a l ih =>
    rw [List.length_cons, List.range_succ_eq_map,
      List.filterMap_cons_some (List.getElem?_cons_zero), List.filterMap_map]
    exact congrArg (List.cons a) ih

theorem filterMap_range_rotate {γ : Type} (l : List γ) (n : ℕ) :
    (List.range l.length).filterMap (fun i ↦ l[(n + (i + 1)) % l.length]?) = l.rotate (n + 1) := by
  rw [← filterMap_range_getElem? (l.rotate (n + 1)), List.length_rotate]
  apply List.filterMap_congr
  intro i hi
  rw [List.getElem?_rotate (List.mem_range.mp hi), show n + (i + 1) = i + (n + 1) by omega]

theorem Between.antisymm {γ : Type} [LinearOrder γ] {s p q : γ} (hp : Between s q p)
    (hq : Between s p q) :
    p = q := by
  unfold Between at hp hq
  split_ifs at hp hq
  · exact le_antisymm hp.2 hq.2
  · order
  · order
  · rcases hp with hp | hp <;> rcases hq with hq | hq <;> order

/-- The walk from the successor of index `i` around the circle meets the
elements in the order in which they lie on the way from `l[i]`. -/
theorem pairwise_between_walk {γ : Type} [LinearOrder γ] {l : List γ} (hl : l.Pairwise (· < ·))
    {i : ℕ} (hi : i < l.length) :
    (l.drop (i + 1) ++ l.take i).Pairwise fun p q ↦ Between l[i] q p := by
  have hafter : ∀ p ∈ l.drop (i + 1), l[i] < p := by
    intro p hp
    obtain ⟨j, hj, rfl⟩ := List.mem_drop_iff_getElem.mp hp
    exact List.pairwise_iff_getElem.mp hl i (i + 1 + j) hi (by omega) (by omega)
  have hbefore : ∀ p ∈ l.take i, p < l[i] := by
    intro p hp
    obtain ⟨j, hj, rfl⟩ := List.mem_take_iff_getElem.mp hp
    exact List.pairwise_iff_getElem.mp hl j i (by omega) hi (by omega)
  rw [List.pairwise_append]
  refine ⟨?_, ?_, fun p hp q hq ↦ ?_⟩
  · refine (hl.drop (i := i + 1)).imp_of_mem fun {p q} hp hq hpq ↦ ?_
    rw [Between, if_pos (hafter q hq).le]
    exact ⟨hafter p hp, hpq.le⟩
  · refine (hl.take (i := i)).imp_of_mem fun {p q} hp hq hpq ↦ ?_
    rw [Between, if_neg (hbefore q hq).not_ge]
    exact .inr hpq.le
  · rw [Between, if_neg (hbefore q hq).not_ge]
    exact .inl (hafter p hp)

end Pyleans.Library
