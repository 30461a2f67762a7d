import Mathlib.Data.List.Nodup

namespace Pyleans.Library

/-- An insertion-ordered dictionary whose values carry their own key. Writing
a present key keeps its place, a new key goes to the end. -/
structure Table {K V : Type} (key : V → K) where
  items : List V
  nodup : (items.map key).Nodup

namespace Table

variable {K V : Type} {key : V → K}

def empty : Table key := ⟨[], List.nodup_nil⟩

def filter (p : V → Bool) (t : Table key) : Table key :=
  ⟨t.items.filter p, t.nodup.sublist (List.filter_sublist.map key)⟩

variable [DecidableEq K]

def get (t : Table key) (k : K) : Option V := t.items.find? (fun v ↦ key v = k)

def pop (t : Table key) (k : K) : Table key := t.filter (fun v ↦ key v ≠ k)

theorem map_replace (v : V) (l : List V) :
    (l.map (fun w ↦ if key w = key v then v else w)).map key = l.map key := by
  rw [List.map_map]
  refine List.map_congr_left (fun w _ ↦ ?_)
  by_cases h : key w = key v <;> simp [h]

def put (t : Table key) (v : V) : Table key :=
  if h : key v ∈ t.items.map key then
    ⟨t.items.map (fun w ↦ if key w = key v then v else w), by rw [map_replace]; exact t.nodup⟩
  else
    ⟨t.items ++ [v], by
      rw [List.map_append, List.map_singleton, List.nodup_append]
      refine ⟨t.nodup, List.nodup_singleton _, ?_⟩
      rintro a ha b hb rfl
      exact h (List.mem_singleton.mp hb ▸ ha)⟩

def putAll (t u : Table key) : Table key := u.items.foldl put t

instance [DecidableEq V] : DecidableEq (Table key) := fun t u ↦
  decidable_of_iff (t.items = u.items) ⟨fun h ↦ by cases t; cases u; cases h; rfl, fun h ↦ h ▸ rfl⟩

@[simp] theorem get_empty (k : K) : (empty : Table key).get k = none := rfl

theorem key_of_get {t : Table key} {k : K} {v : V} (h : t.get k = some v) : key v = k := by
  simpa using List.find?_some h

theorem mem_of_get {t : Table key} {k : K} {v : V} (h : t.get k = some v) : v ∈ t.items :=
  List.mem_of_find?_eq_some h

theorem find_of_mem {l : List V} (hl : (l.map key).Nodup) {v : V} (hv : v ∈ l) :
    l.find? (fun w ↦ key w = key v) = some v := by
  induction l with
  | nil => simp at hv
  | cons w l ih =>
    rw [List.map_cons, List.nodup_cons] at hl
    rcases List.mem_cons.mp hv with rfl | hv
    · simp
    · have hne : key w ≠ key v := fun h ↦ hl.1 (h ▸ List.mem_map_of_mem hv)
      rw [List.find?_cons_of_neg (by simpa using hne)]
      exact ih hl.2 hv

theorem get_of_mem {t : Table key} {v : V} (h : v ∈ t.items) : t.get (key v) = some v :=
  find_of_mem t.nodup h

theorem mem_iff_get {t : Table key} {v : V} : v ∈ t.items ↔ t.get (key v) = some v :=
  ⟨get_of_mem, mem_of_get⟩

theorem get_eq_none_iff {t : Table key} {k : K} : t.get k = none ↔ ∀ v ∈ t.items, key v ≠ k := by
  simp [get]

theorem filter_key_of_nodup {l : List V} (hl : (l.map key).Nodup) (k : K) :
    l.filter (fun v ↦ key v = k) = (l.find? (fun v ↦ key v = k)).toList := by
  induction l with
  | nil => rfl
  | cons v l ih =>
    rw [List.map_cons, List.nodup_cons] at hl
    by_cases hk : key v = k
    · have hnone : l.filter (fun w ↦ key w = k) = [] := by
        rw [List.filter_eq_nil_iff]
        intro w hw h
        exact hl.1 (List.mem_map.mpr ⟨w, hw, (by simpa using h : key w = k).trans hk.symm⟩)
      rw [List.filter_cons_of_pos (by simpa using hk), hnone,
        List.find?_cons_of_pos (by simpa using hk)]
      rfl
    · rw [List.filter_cons_of_neg (by simpa using hk), List.find?_cons_of_neg (by simpa using hk)]
      exact ih hl.2

theorem filter_key (t : Table key) (k : K) :
    t.items.filter (fun v ↦ key v = k) = (t.get k).toList :=
  filter_key_of_nodup t.nodup k

theorem get_filter (p : V → Bool) (t : Table key) (k : K) :
    (t.filter p).get k = (t.get k).filter p := by
  cases h : t.get k with
  | none =>
    rw [get_eq_none_iff] at h
    rw [Option.filter_none, get_eq_none_iff]
    exact fun v hv ↦ h v (List.mem_of_mem_filter hv)
  | some v =>
    obtain rfl := key_of_get h
    by_cases hp : p v
    · rw [Option.filter_some, if_pos hp]
      exact get_of_mem (List.mem_filter.mpr ⟨mem_of_get h, hp⟩)
    · rw [Option.filter_some, if_neg hp, get_eq_none_iff]
      intro w hw hk
      obtain ⟨hw, hpw⟩ := List.mem_filter.mp hw
      have hwv := get_of_mem hw
      rw [hk, h] at hwv
      exact hp (Option.some.inj hwv ▸ hpw)

theorem get_pop (t : Table key) (k k' : K) :
    (t.pop k).get k' = if k' = k then none else t.get k' := by
  rw [pop, get_filter]
  cases h : t.get k' with
  | none => simp
  | some v =>
    obtain rfl := key_of_get h
    by_cases hk : key v = k <;> simp [Option.filter_some, hk]

theorem pop_of_get_eq_none {t : Table key} {k : K} (h : t.get k = none) : t.pop k = t := by
  have hitems : t.items.filter (fun v ↦ key v ≠ k) = t.items := by
    apply List.filter_eq_self.mpr
    intro v hv
    exact decide_eq_true (get_eq_none_iff.mp h v hv)
  simp only [pop, filter, hitems]

theorem mem_put {t : Table key} {v w : V} :
    w ∈ (t.put v).items ↔ w = v ∨ (w ∈ t.items ∧ key w ≠ key v) := by
  unfold put
  split_ifs with h
  · simp only [List.mem_map]
    constructor
    · rintro ⟨u, hu, rfl⟩
      by_cases hk : key u = key v
      · simp [hk]
      · simp [hk, hu]
    · rintro (rfl | ⟨hw, hk⟩)
      · obtain ⟨u, hu, hk⟩ := List.mem_map.mp h
        exact ⟨u, hu, if_pos hk⟩
      · exact ⟨w, hw, if_neg hk⟩
  · simp only [List.mem_append, List.mem_singleton]
    constructor
    · rintro (hw | rfl)
      · exact .inr ⟨hw, fun hk ↦ h (hk ▸ List.mem_map_of_mem hw)⟩
      · exact .inl rfl
    · rintro (rfl | ⟨hw, -⟩)
      · exact .inr rfl
      · exact .inl hw

theorem get_put (t : Table key) (v : V) (k : K) :
    (t.put v).get k = if k = key v then some v else t.get k := by
  split_ifs with h
  · rw [h]
    exact get_of_mem (mem_put.mpr (.inl rfl))
  · cases hg : t.get k with
    | none =>
      rw [get_eq_none_iff] at hg ⊢
      rintro w hw rfl
      rcases mem_put.mp hw with rfl | ⟨hw, -⟩
      · exact h rfl
      · exact hg w hw rfl
    | some w =>
      obtain rfl := key_of_get hg
      exact get_of_mem (mem_put.mpr (.inr ⟨mem_of_get hg, h⟩))

@[simp] theorem get_put_self (t : Table key) (v : V) : (t.put v).get (key v) = some v := by
  rw [get_put, if_pos rfl]

theorem get_foldl_put (l : List V) (hl : (l.map key).Nodup) (t : Table key) (k : K) :
    (l.foldl put t).get k = (l.find? (fun v ↦ key v = k)).or (t.get k) := by
  induction l generalizing t with
  | nil => rfl
  | cons v l ih =>
    rw [List.map_cons, List.nodup_cons] at hl
    rw [List.foldl_cons, ih hl.2, get_put]
    by_cases hk : k = key v
    · subst hk
      have hnone : l.find? (fun w ↦ key w = key v) = none := by
        rw [List.find?_eq_none]
        intro w hw h
        exact hl.1 (List.mem_map.mpr ⟨w, hw, by simpa using h⟩)
      simp [hnone]
    · simp [hk, Ne.symm hk]

theorem get_putAll (t u : Table key) (k : K) : (t.putAll u).get k = (u.get k).or (t.get k) :=
  get_foldl_put u.items u.nodup t k

theorem get_foldl_pop (ks : List K) (t : Table key) (k : K) :
    (ks.foldl pop t).get k = if k ∈ ks then none else t.get k := by
  induction ks generalizing t with
  | nil => simp
  | cons k' ks ih =>
    rw [List.foldl_cons, ih, get_pop]
    by_cases h : k = k' <;> simp [h]

section

variable {W : Type} {key' : W → K}

omit [DecidableEq K] in
theorem map_key (f : V → W) (hf : ∀ v, key' (f v) = key v) (l : List V) :
    (l.map f).map key' = l.map key := by
  rw [List.map_map]
  exact List.map_congr_left fun v _ ↦ hf v

variable (f : V → W) (hf : ∀ v, key' (f v) = key v)

def mapValues (t : Table key) : Table key' := ⟨t.items.map f, (map_key f hf t.items).symm ▸ t.nodup⟩

theorem get_mapValues (t : Table key) (k : K) : (t.mapValues f hf).get k = (t.get k).map f := by
  simp only [get, mapValues, List.find?_map, Function.comp_def, hf]

theorem mapValues_put (t : Table key) (v : V) :
    (t.put v).mapValues f hf = (t.mapValues f hf).put (f v) := by
  unfold put
  simp only [mapValues, map_key f hf, hf]
  split_ifs with h
  · simp only [List.map_map, mk.injEq]
    refine List.map_congr_left fun w _ ↦ ?_
    simp only [Function.comp_apply, hf]
    split_ifs <;> rfl
  · simp only [List.map_append, List.map_cons, List.map_nil]

end

end Table

end Pyleans.Library
