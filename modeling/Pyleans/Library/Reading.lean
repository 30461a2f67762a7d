import Mathlib.Tactic.SplitIfs
import Mathlib.Tactic.Tauto
import Pyleans.Library.Fallible

namespace Pyleans.Library

variable {ε ε' α β : Type}

def Raises (bad : ε → Prop) (x : Except ε α) : Prop := ∃ e, x = .error e ∧ bad e

def Succeeds (x : Except ε α) : Prop := ∃ a, x = .ok a

/-- A step of reading a document: that the document makes it go wrong, and that
it makes it go right. It may do neither. -/
structure Reading where
  wrong : Prop
  right : Prop

def FirstWrong : List Reading → Prop
  | [] => False
  | r :: readings => r.wrong ∨ r.right ∧ FirstWrong readings

def AllRight : List Reading → Prop
  | [] => True
  | r :: readings => r.right ∧ AllRight readings

/-- The computation goes through the steps one after the other; it raises one of
the errors where a step goes wrong. -/
structure Follows (bad : ε → Prop) (x : Except ε α) (readings : List Reading) : Prop where
  raises : Raises bad x ↔ FirstWrong readings
  succeeds : Succeeds x ↔ AllRight readings

def eachOf {ι : Type} (readings : ι → List Reading) (items : List ι) : Reading where
  wrong := ∃ before i after, items = before ++ i :: after ∧ (∀ b ∈ before, AllRight (readings b)) ∧
    FirstWrong (readings i)
  right := ∀ i ∈ items, AllRight (readings i)

variable {bad : ε → Prop} {x : Except ε α} {f : α → Except ε β} {rs ss : List Reading}

theorem firstWrong_append : FirstWrong (rs ++ ss) ↔ FirstWrong rs ∨ AllRight rs ∧
    FirstWrong ss := by
  induction rs with
  | nil => simp [FirstWrong, AllRight]
  | cons r rs ih =>
    rw [List.cons_append, FirstWrong, ih, FirstWrong, AllRight]
    tauto

theorem allRight_append : AllRight (rs ++ ss) ↔ AllRight rs ∧ AllRight ss := by
  induction rs with
  | nil => simp [AllRight]
  | cons r rs ih => rw [List.cons_append, AllRight, ih, AllRight, and_assoc]

theorem raises_bind : Raises bad (x >>= f) ↔ Raises bad x ∨ ∃ a, x = .ok a ∧ Raises bad (f a) := by
  cases x with
  | error e =>
    rw [Fallible.error_bind]
    constructor
    · rintro ⟨e', h, hbad⟩
      cases h
      exact .inl ⟨e, rfl, hbad⟩
    · rintro (⟨e', h, hbad⟩ | ⟨a, h, -⟩)
      · cases h
        exact ⟨e, rfl, hbad⟩
      · cases h
  | ok a =>
    refine ⟨fun h ↦ .inr ⟨a, rfl, h⟩, ?_⟩
    rintro (⟨e', h, -⟩ | ⟨a, h, hraises⟩)
    · cases h
    · cases h
      exact hraises

theorem succeeds_bind : Succeeds (x >>= f) ↔ ∃ a, x = .ok a ∧ Succeeds (f a) := by
  constructor
  · rintro ⟨b, h⟩
    obtain ⟨a, ha, hb⟩ := Fallible.bind_eq_ok.mp h
    exact ⟨a, ha, b, hb⟩
  · rintro ⟨a, ha, b, hb⟩
    exact ⟨b, Fallible.bind_eq_ok.mpr ⟨a, ha, hb⟩⟩

theorem follows_ok (bad : ε → Prop) (a : α) : Follows bad (.ok a) [] :=
  ⟨⟨fun ⟨_, h, _⟩ ↦ (nomatch h), False.elim⟩, ⟨fun _ ↦ trivial, fun _ ↦ ⟨a, rfl⟩⟩⟩

theorem Follows.congr {bad' : ε → Prop} (hx : Follows bad x rs) (h : ∀ e, bad' e ↔ bad e) :
    Follows bad' x rs := by
  have hsame : bad' = bad := funext fun e ↦ propext (h e)
  rwa [hsame]

theorem Follows.bind (hx : Follows bad x rs) (hf : ∀ a, Follows bad (f a) ss) :
    Follows bad (x >>= f) (rs ++ ss) where
  raises := by
    rw [raises_bind, firstWrong_append, hx.raises, ← hx.succeeds]
    exact or_congr_right ⟨fun ⟨a, ha, hraises⟩ ↦ ⟨⟨a, ha⟩, (hf a).raises.mp hraises⟩,
      fun ⟨⟨a, ha⟩, hwrong⟩ ↦ ⟨a, ha, (hf a).raises.mpr hwrong⟩⟩
  succeeds := by
    rw [succeeds_bind, allRight_append, ← hx.succeeds]
    exact ⟨fun ⟨a, ha, hsucceeds⟩ ↦ ⟨⟨a, ha⟩, (hf a).succeeds.mp hsucceeds⟩,
      fun ⟨⟨a, ha⟩, hright⟩ ↦ ⟨a, ha, (hf a).succeeds.mpr hright⟩⟩

theorem Follows.bind_bind {γ : Type} {g : β → Except ε γ} (hx : Follows bad (x >>= f) rs)
    (hg : ∀ b, Follows bad (g b) ss) : Follows bad (x >>= fun a ↦ f a >>= g) (rs ++ ss) := by
  have hassoc : (x >>= fun a ↦ f a >>= g) = (x >>= f) >>= g := by cases x <;> rfl
  rw [hassoc]
  exact hx.bind hg

theorem Follows.guard {p : Prop} [Decidable p] {e : ε} (he : ¬ bad e) (hx : Follows bad x rs) :
    Follows bad (if p then x else .error e) (⟨False, p⟩ :: rs) := by
  split_ifs with hp
  · exact ⟨hx.raises.trans (by simp [FirstWrong, hp]), hx.succeeds.trans (by simp [AllRight, hp])⟩
  · exact ⟨iff_of_false (fun ⟨_, h, hbad⟩ ↦ he (Except.error.inj h ▸ hbad))
      (by simp [FirstWrong, hp]),
      iff_of_false (fun ⟨_, h⟩ ↦ nomatch h) fun h ↦ hp h.1⟩

theorem raises_mapError {bad : ε' → Prop} {g : ε → ε'} :
    Raises bad (x.mapError g) ↔ Raises (fun e ↦ bad (g e)) x := by
  cases x with
  | error e =>
    constructor
    · rintro ⟨e', h, hbad⟩
      cases h
      exact ⟨e, rfl, hbad⟩
    · rintro ⟨e', h, hbad⟩
      cases h
      exact ⟨g e, rfl, hbad⟩
  | ok a => exact iff_of_false (fun ⟨_, h, _⟩ ↦ nomatch h) fun ⟨_, h, _⟩ ↦ nomatch h

theorem succeeds_mapError {g : ε → ε'} : Succeeds (x.mapError g) ↔ Succeeds x := by
  cases x with
  | error e => exact iff_of_false (fun ⟨_, h⟩ ↦ nomatch h) fun ⟨_, h⟩ ↦ nomatch h
  | ok a => exact iff_of_true ⟨a, rfl⟩ ⟨a, rfl⟩

theorem Follows.mapError {bad : ε' → Prop} {g : ε → ε'} (hx : Follows (fun e ↦ bad (g e)) x rs) :
    Follows bad (x.mapError g) rs :=
  ⟨raises_mapError.trans hx.raises, succeeds_mapError.trans hx.succeeds⟩

theorem eachOf_cons_wrong {ι : Type} (readings : ι → List Reading) (i : ι) (items : List ι) :
    (eachOf readings (i :: items)).wrong ↔
      FirstWrong (readings i) ∨ AllRight (readings i) ∧ (eachOf readings items).wrong := by
  constructor
  · rintro ⟨before, j, after, hitems, hbefore, hwrong⟩
    cases before with
    | nil =>
      obtain ⟨rfl, -⟩ := List.cons.inj hitems
      exact .inl hwrong
    | cons k before =>
      obtain ⟨rfl, rfl⟩ := List.cons.inj hitems
      obtain ⟨hright, hbefore⟩ := List.forall_mem_cons.mp hbefore
      exact .inr ⟨hright, before, j, after, rfl, hbefore, hwrong⟩
  · rintro (hwrong | ⟨hright, before, j, after, rfl, hbefore, hwrong⟩)
    · exact ⟨[], i, items, rfl, nofun, hwrong⟩
    · exact ⟨i :: before, j, after, rfl, List.forall_mem_cons.mpr ⟨hright, hbefore⟩, hwrong⟩

theorem Follows.mapM {ι : Type} {f : ι → Except ε β} {readings : ι → List Reading}
    (h : ∀ i, Follows bad (f i) (readings i)) (items : List ι) : Follows bad (items.mapM f)
      [eachOf readings items] := by
  induction items with
  | nil =>
    refine ⟨iff_of_false (fun ⟨_, h, _⟩ ↦ nomatch h) ?_, iff_of_true ⟨[], rfl⟩ ⟨nofun, trivial⟩⟩
    rintro (⟨before, j, after, hnil, -⟩ | ⟨-, hfalse⟩)
    · simp at hnil
    · exact hfalse
  | cons i items ih =>
    have hcons := (h i).bind fun b ↦ ih.bind fun bs ↦ follows_ok bad (b :: bs)
    rw [List.mapM_cons]
    refine ⟨hcons.raises.trans ?_, hcons.succeeds.trans ?_⟩
    · rw [firstWrong_append, List.append_nil, FirstWrong, FirstWrong, FirstWrong, FirstWrong,
        eachOf_cons_wrong]
      tauto
    · rw [allRight_append, List.append_nil, AllRight, AllRight, AllRight, AllRight, eachOf, eachOf]
      simp only [List.forall_mem_cons, and_true]

end Pyleans.Library
