import Mathlib.Data.List.Basic

namespace Pyleans.Library.Fallible

variable {ε α β : Type}

theorem ok_bind (a : α) (f : α → Except ε β) : (Except.ok a >>= f) = f a := rfl

theorem error_bind (e : ε) (f : α → Except ε β) : (Except.error e >>= f) = .error e := rfl

theorem bind_eq_ok {x : Except ε α} {f : α → Except ε β} {b : β} :
    x >>= f = .ok b ↔ ∃ a, x = .ok a ∧ f a = .ok b := by
  cases x with
  | error e => exact iff_of_false (fun h ↦ nomatch h) fun ⟨_, h, _⟩ ↦ nomatch h
  | ok a => exact ⟨fun h ↦ ⟨a, rfl, h⟩, fun ⟨_, h, hf⟩ ↦ by cases h; exact hf⟩

theorem bind_eq_error {x : Except ε α} {f : α → Except ε β} {e : ε} :
    x >>= f = .error e ↔ x = .error e ∨ ∃ a, x = .ok a ∧ f a = .error e := by
  cases x with
  | error e' =>
    rw [error_bind, Except.error.injEq, Except.error.injEq]
    exact ⟨.inl, fun h ↦ h.resolve_right fun ⟨_, h, _⟩ ↦ nomatch h⟩
  | ok a =>
    rw [ok_bind]
    refine ⟨fun h ↦ .inr ⟨a, rfl, h⟩, fun h ↦ ?_⟩
    obtain ⟨_, h, hf⟩ := h.resolve_left fun h ↦ nomatch h
    cases h
    exact hf

theorem exists_of_isOk {x : Except ε α} (h : x.isOk = true) : ∃ a, x = .ok a := by
  cases x with
  | error e => cases h
  | ok a => exact ⟨a, rfl⟩

theorem mapM_map_ok {f : α → β} {g : β → Except ε α} (h : ∀ a, g (f a) = .ok a) (l : List α) :
    (l.map f).mapM g = .ok l := by
  induction l with
  | nil => rfl
  | cons a l ih => rw [List.map_cons, List.mapM_cons, h, ok_bind, ih, ok_bind]; rfl

theorem mapM_eq_ok_map {g : α → Except ε β} {b : α → β} {l : List α}
    (h : ∀ a ∈ l, g a = .ok (b a)) :
    l.mapM g = .ok (l.map b) := by
  induction l with
  | nil => rfl
  | cons a l ih =>
    obtain ⟨ha, hl⟩ := List.forall_mem_cons.mp h
    rw [List.mapM_cons, ha, ok_bind, ih hl]
    rfl

theorem mapM_congr {f g : α → Except ε β} {l : List α} (h : ∀ a ∈ l, f a = g a) :
    l.mapM f = l.mapM g := by
  induction l with
  | nil => rfl
  | cons a l ih =>
    obtain ⟨ha, hl⟩ := List.forall_mem_cons.mp h
    rw [List.mapM_cons, List.mapM_cons, ha, ih hl]

theorem exists_of_mapM_ok {g : α → Except ε β} {l : List α} {bs : List β} (h : l.mapM g = .ok bs) :
    ∀ a ∈ l, ∃ b, g a = .ok b := by
  induction l generalizing bs with
  | nil => nofun
  | cons a l ih =>
    rw [List.mapM_cons] at h
    obtain ⟨b, hb, h⟩ := bind_eq_ok.mp h
    obtain ⟨bs', hbs, -⟩ := bind_eq_ok.mp h
    exact List.forall_mem_cons.mpr ⟨⟨b, hb⟩, ih hbs⟩

theorem exists_mapM_ok {g : α → Except ε β} {P : β → Prop} {l : List α}
    (h : ∀ a ∈ l, ∃ b, g a = .ok b ∧ P b) :
    ∃ bs, l.mapM g = .ok bs ∧ ∀ b ∈ bs, P b := by
  induction l with
  | nil => exact ⟨[], rfl, List.forall_mem_nil _⟩
  | cons a l ih =>
    obtain ⟨⟨b, hb, hP⟩, hl⟩ := List.forall_mem_cons.mp h
    obtain ⟨bs, hbs, hall⟩ := ih hl
    exact ⟨b :: bs, by rw [List.mapM_cons, hb, hbs]; rfl, List.forall_mem_cons.mpr ⟨hP, hall⟩⟩

theorem mapM_eq_ok {g : α → Except ε β} {l : List α} {bs : List β} :
    l.mapM g = .ok bs ↔ List.Forall₂ (fun a b ↦ g a = .ok b) l bs := by
  induction l generalizing bs with
  | nil => exact ⟨fun h ↦ Except.ok.inj h ▸ .nil, fun h ↦ by cases h; rfl⟩
  | cons a l ih =>
    rw [List.mapM_cons, bind_eq_ok]
    constructor
    · rintro ⟨b, hb, h⟩
      obtain ⟨bs', hbs, h⟩ := bind_eq_ok.mp h
      obtain rfl := Except.ok.inj h
      exact .cons hb (ih.mp hbs)
    · rintro (_ | ⟨hb, hbs⟩)
      exact ⟨_, hb, bind_eq_ok.mpr ⟨_, ih.mpr hbs, rfl⟩⟩

theorem forall_mem_right {R : α → β → Prop} {P : β → Prop} {l : List α} {bs : List β}
    (h : List.Forall₂ R l bs) (hP : ∀ a ∈ l, ∀ b, R a b → P b) : ∀ b ∈ bs, P b := by
  induction h with
  | nil => exact List.forall_mem_nil _
  | cons hr _ ih =>
    obtain ⟨ha, hl⟩ := List.forall_mem_cons.mp hP
    exact List.forall_mem_cons.mpr ⟨ha _ hr, ih hl⟩

end Pyleans.Library.Fallible
