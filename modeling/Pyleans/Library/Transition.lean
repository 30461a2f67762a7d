import Mathlib.Logic.Basic
import Mathlib.Data.Option.Basic

namespace Pyleans.Library

variable {σ α : Type}

/-- States reached from `start` by runs each of whose steps meets `ok` in
the state it is taken from. -/
inductive Guarded (step : σ → α → Option σ) (ok : σ → α → Prop) (start : σ) : σ → Prop
  | refl : Guarded step ok start start
  | next {s s' : σ} {a : α} :
      Guarded step ok start s → ok s a → step s a = some s' → Guarded step ok start s'

abbrev Reachable (step : σ → α → Option σ) (start : σ) : σ → Prop :=
  Guarded step (fun _ _ ↦ True) start

/-- The state after a list of actions, if each of them is enabled in turn. -/
def exec (step : σ → α → Option σ) : σ → List α → Option σ
  | s, [] => some s
  | s, a :: as => (step s a).bind (fun s' ↦ exec step s' as)

/-- Every step of the run meets `ok` in the state it is taken from. -/
def Meets (step : σ → α → Option σ) (ok : σ → α → Prop) : σ → List α → Prop
  | _, [] => True
  | s, a :: as => ok s a ∧ ∀ s', step s a = some s' → Meets step ok s' as

instance decidableMeets (step : σ → α → Option σ) (ok : σ → α → Prop) [∀ s a, Decidable (ok s a)] :
    ∀ s as, Decidable (Meets step ok s as)
  | _, [] => .isTrue trivial
  | s, a :: as =>
    match h : step s a with
    | none => decidable_of_iff (ok s a) (by simp [Meets, h])
    | some m =>
      have := decidableMeets step ok m as
      decidable_of_iff (ok s a ∧ Meets step ok m as) (by simp [Meets, h])

variable {step : σ → α → Option σ} {ok : σ → α → Prop} {start s s' : σ}

theorem Guarded.invariant {I : σ → Prop} (h : Guarded step ok start s) (hstart : I start)
    (hstep : ∀ s a s', I s → ok s a → step s a = some s' → I s') : I s := by
  induction h with
  | refl => exact hstart
  | next _ hok hs ih => exact hstep _ _ _ ih hok hs

theorem Guarded.head {a : α} (hok : ok start a) (hs : step start a = some s)
    (h : Guarded step ok s s') : Guarded step ok start s' := by
  induction h with
  | refl => exact .next .refl hok hs
  | next _ ho hs ih => exact .next ih ho hs

@[simp] theorem exec_nil (s : σ) : exec step s [] = some s := rfl

theorem exec_cons {a : α} {as : List α} :
    exec step s (a :: as) = some s' ↔ ∃ m, step s a = some m ∧ exec step m as = some s' := by
  rw [exec, Option.bind_eq_some_iff]

theorem exec_append {as bs : List α} :
    exec step s (as ++ bs) = some s' ↔ ∃ m, exec step s as = some m ∧ exec step m bs = some s' := by
  induction as generalizing s with
  | nil => simp
  | cons a as ih =>
    simp only [List.cons_append, exec_cons, ih]
    constructor
    · rintro ⟨m, hm, m', hm', h⟩
      exact ⟨m', ⟨m, hm, hm'⟩, h⟩
    · rintro ⟨m', ⟨m, hm, hm'⟩, h⟩
      exact ⟨m, hm, m', hm', h⟩

theorem guarded_of_exec {as : List α} (h : exec step s as = some s')
    (hok : Meets step ok s as) : Guarded step ok s s' := by
  induction as generalizing s with
  | nil =>
    obtain rfl := Option.some.inj h
    exact .refl
  | cons a as ih =>
    obtain ⟨m, hm, h⟩ := exec_cons.mp h
    exact (ih h (hok.2 m hm)).head hok.1 hm

theorem meets_append {as bs : List α} :
    Meets step ok s (as ++ bs) ↔ Meets step ok s as ∧ ∀ m, exec step s as = some m →
      Meets step ok m bs := by
  induction as generalizing s with
  | nil => simp [Meets]
  | cons a as ih =>
    simp only [List.cons_append, Meets, ih, exec_cons]
    constructor
    · rintro ⟨ha, hrest⟩
      exact ⟨⟨ha, fun m hm ↦ (hrest m hm).1⟩, fun n ⟨m, hm, hn⟩ ↦ (hrest m hm).2 n hn⟩
    · rintro ⟨⟨ha, hrest⟩, hbs⟩
      exact ⟨ha, fun m hm ↦ ⟨hrest m hm, fun n hn ↦ hbs n ⟨m, hm, hn⟩⟩⟩

/-- Steps that meet `ok` keep `I`, and under `I` they meet `ok'` too. -/
theorem Meets.imp {ok' : σ → α → Prop} {I : σ → Prop} {as : List α} (h : Meets step ok s as)
    (hs : I s) (hkeep : ∀ s a s', I s → ok s a → step s a = some s' → I s')
    (himp : ∀ s a, I s → ok s a → ok' s a) :
    Meets step ok' s as := by
  induction as generalizing s with
  | nil => trivial
  | cons a as ih =>
    exact ⟨himp s a hs h.1, fun s' hstep ↦ ih (h.2 s' hstep) (hkeep s a s' hs h.1 hstep)⟩

theorem Meets.and {ok' : σ → α → Prop} {as : List α} (h : Meets step ok s as)
    (h' : Meets step ok' s as) :
    Meets step (fun s a ↦ ok s a ∧ ok' s a) s as := by
  induction as generalizing s with
  | nil => trivial
  | cons a as ih => exact ⟨⟨h.1, h'.1⟩, fun s' hstep ↦ ih (h.2 s' hstep) (h'.2 s' hstep)⟩

/-- What can only be lost along a run holds all along if it holds at the end. -/
theorem meets_of_end {P : σ → Prop} {as : List α} (h : exec step s as = some s')
    (hback : ∀ s a s', step s a = some s' → P s' → P s) (hend : P s') : Meets step
      (fun s _ ↦ P s) s as := by
  induction as generalizing s with
  | nil => trivial
  | cons a as ih =>
    obtain ⟨m, hm, h⟩ := exec_cons.mp h
    have hP : P m := by
      cases as with
      | nil => exact Option.some.inj h ▸ hend
      | cons b bs => exact (ih h).1
    refine ⟨hback s a m hm hP, fun m' hm' ↦ ?_⟩
    obtain rfl := Option.some.inj (hm.symm.trans hm')
    exact ih h

/-- What each step of a run does, when the steps keep `I`. -/
theorem exec_each {I : σ → Prop} {Q : σ → σ → α → Prop} {as : List α} (h : exec step s as = some s')
    (hs : I s) (hok : Meets step ok s as)
    (hstep : ∀ s a s', I s → ok s a → step s a = some s' → I s' ∧ Q s s' a) :
    I s' ∧ ∀ before a after t t', before ++ a :: after = as → exec step s before = some t →
      step t a = some t' → Q t t' a := by
  induction as generalizing s with
  | nil =>
    refine ⟨Option.some.inj h ▸ hs, fun before a after t t' hb ↦ ?_⟩
    exact absurd hb (by simp)
  | cons b bs ih =>
    obtain ⟨m, hm, h⟩ := exec_cons.mp h
    obtain ⟨hI, hQ⟩ := hstep s b m hs hok.1 hm
    obtain ⟨hend, hrest⟩ := ih h hI (hok.2 m hm)
    refine ⟨hend, fun before a after t t' hb ht ht' ↦ ?_⟩
    cases before with
    | nil =>
      obtain ⟨rfl, -⟩ := List.cons.inj hb
      obtain rfl := Option.some.inj ht
      obtain rfl := Option.some.inj (hm.symm.trans ht')
      exact hQ
    | cons c before =>
      obtain ⟨rfl, htail⟩ := List.cons.inj hb
      obtain ⟨m', hm', ht⟩ := exec_cons.mp ht
      obtain rfl := Option.some.inj (hm.symm.trans hm')
      exact hrest before a after t t' htail ht ht'

theorem meets_true (s : σ) (as : List α) : Meets step (fun _ _ ↦ True) s as := by
  induction as generalizing s with
  | nil => trivial
  | cons a as ih => exact ⟨trivial, fun s' _ ↦ ih s'⟩

theorem reachable_of_exec {as : List α} (h : exec step s as = some s') : Reachable step s s' :=
  guarded_of_exec h (meets_true s as)

theorem meets_congr {ok' : σ → α → Prop} {I : σ → Prop} {as : List α} (hs : I s)
    (hkeep : ∀ s a s', I s → step s a = some s' → I s') (hiff : ∀ s a, I s → (ok s a ↔ ok' s a)) :
    Meets step ok s as ↔ Meets step ok' s as := by
  induction as generalizing s with
  | nil => exact Iff.rfl
  | cons a as ih =>
    exact and_congr (hiff s a hs)
      (forall_congr' fun s' ↦ imp_congr_right fun hstep ↦ ih (hkeep s a s' hs hstep))

/-- When steps that meet `ok` keep a state good, any other step spoils it and
nothing mends a spoilt one, the end of a run tells whether all its steps met `ok`. -/
theorem exec_good_or_bad {Good Bad : σ → Prop} {as : List α} (h : exec step s as = some s')
    (hs : Good s) (hkeep : ∀ s a s', Good s → ok s a → step s a = some s' → Good s')
    (hspoil : ∀ s a s', Good s → ¬ ok s a → step s a = some s' → Bad s')
    (hstay : ∀ s a s', Bad s → step s a = some s' → Bad s') :
    (Meets step ok s as → Good s') ∧ (¬ Meets step ok s as → Bad s') := by
  induction as generalizing s with
  | nil =>
    obtain rfl := Option.some.inj h
    exact ⟨fun _ ↦ hs, fun hn ↦ absurd trivial hn⟩
  | cons a as ih =>
    obtain ⟨m, hm, h'⟩ := exec_cons.mp h
    by_cases ha : ok s a
    · have hrest := ih h' (hkeep s a m hs ha hm)
      refine ⟨fun hok ↦ hrest.1 (hok.2 m hm), fun hn ↦ hrest.2 (fun hok ↦ hn ⟨ha, fun t ht ↦ ?_⟩)⟩
      rwa [← Option.some.inj (hm.symm.trans ht)]
    · refine ⟨fun hok ↦ absurd hok.1 ha, fun _ ↦ ?_⟩
      exact (guarded_of_exec h' (meets_true m as)).invariant (hspoil s a m hs ha hm)
        (fun t b t' ht _ hstep ↦ hstay t b t' ht hstep)

/-- When the steps that meet `ok` are those that keep `I`, a run consists of
such steps exactly when `I` holds all along. -/
theorem meets_iff_always {I : σ → Prop} {as : List α} (h : exec step s as = some s') (hs : I s)
    (hstep : ∀ s a s', I s → step s a = some s' → (ok s a ↔ I s')) :
    Meets step ok s as ↔ ∀ before t, before <+: as → exec step s before = some t → I t := by
  induction as generalizing s with
  | nil =>
    refine iff_of_true trivial fun before t hb ht ↦ ?_
    obtain rfl := List.prefix_nil.mp hb
    exact Option.some.inj ht ▸ hs
  | cons a as ih =>
    obtain ⟨m, hm, h'⟩ := exec_cons.mp h
    constructor
    · intro hok before t hb ht
      cases before with
      | nil => exact Option.some.inj ht ▸ hs
      | cons b before =>
        obtain ⟨rfl, hbefore⟩ := List.cons_prefix_cons.mp hb
        obtain ⟨m', hm', ht⟩ := exec_cons.mp ht
        obtain rfl := Option.some.inj (hm.symm.trans hm')
        exact (ih h' ((hstep s b m hs hm).mp hok.1)).mp (hok.2 m hm) before t hbefore ht
    · intro hall
      have hI : I m := hall [a] m (List.prefix_append [a] as) (exec_cons.mpr ⟨m, hm, rfl⟩)
      refine ⟨(hstep s a m hs hm).mpr hI, fun m' hm' ↦ ?_⟩
      obtain rfl := Option.some.inj (hm.symm.trans hm')
      exact (ih h' hI).mpr fun before t hb ht ↦
        hall (a :: before) t (List.cons_prefix_cons.mpr ⟨rfl, hb⟩) (exec_cons.mpr ⟨m, hm, ht⟩)

/-- When the steps that meet `ok` are those along the preorder `R`, a run
consists of such steps exactly when it goes along `R` from any of its states
to any later one. -/
theorem meets_iff_along {R : σ → σ → Prop} {as : List α} (h : exec step s as = some s')
    (hrefl : ∀ s, R s s) (htrans : ∀ s t u, R s t → R t u → R s u)
    (hstep : ∀ s a s', step s a = some s' → (ok s a ↔ R s s')) :
    Meets step ok s as ↔
      ∀ l m t u, l ++ m <+: as → exec step s l = some t → exec step t m = some u → R t u := by
  induction as generalizing s with
  | nil =>
    refine iff_of_true trivial fun l m t u hlm ht hu ↦ ?_
    obtain ⟨rfl, rfl⟩ := List.append_eq_nil_iff.mp (List.prefix_nil.mp hlm)
    exact Option.some.inj hu ▸ hrefl t
  | cons a as ih =>
    obtain ⟨n, hn, h'⟩ := exec_cons.mp h
    constructor
    · intro hok l m t u hlm ht hu
      have hrest := (ih h').mp (hok.2 n hn)
      cases l with
      | cons b l =>
        obtain ⟨rfl, hprefix⟩ := List.cons_prefix_cons.mp hlm
        obtain ⟨n', hn', ht⟩ := exec_cons.mp ht
        obtain rfl := Option.some.inj (hn.symm.trans hn')
        exact hrest l m t u hprefix ht hu
      | nil =>
        obtain rfl := Option.some.inj ht
        cases m with
        | nil => exact Option.some.inj hu ▸ hrefl s
        | cons b m =>
          obtain ⟨rfl, hm⟩ := List.cons_prefix_cons.mp hlm
          obtain ⟨n', hn', hu⟩ := exec_cons.mp hu
          obtain rfl := Option.some.inj (hn.symm.trans hn')
          exact htrans s n u ((hstep s b n hn).mp hok.1) (hrest [] m n u hm rfl hu)
    · intro hall
      have hR : R s n := hall [] [a] s n (List.prefix_append [a] as) rfl
        (exec_cons.mpr ⟨n, hn, rfl⟩)
      refine ⟨(hstep s a n hn).mpr hR, fun n' hn' ↦ ?_⟩
      obtain rfl := Option.some.inj (hn.symm.trans hn')
      exact (ih h').mpr fun l m t u hlm ht hu ↦
        hall (a :: l) m t u (List.cons_prefix_cons.mpr ⟨rfl, hlm⟩) (exec_cons.mpr ⟨n, hn, ht⟩) hu

/-- The run takes the step `a` from `t` to `t'`. -/
def StepOf (step : σ → α → Option σ) (start : σ) (as : List α) (t : σ) (a : α) (t' : σ) : Prop :=
  ∃ before after, before ++ a :: after = as ∧ exec step start before = some t ∧ step t a = some t'

theorem StepOf.taken {a : α} {as : List α} {t t' : σ} (h : StepOf step start as t a t') :
    step t a = some t' := by
  obtain ⟨before, after, -, -, ht⟩ := h
  exact ht

end Pyleans.Library
