import Mathlib.Logic.Function.Basic
import Mathlib.Data.List.Basic
import Pyleans.Library.Transition

namespace Pyleans.Library

/-- What the clients of an object see: a call is made, and it returns. -/
inductive Event (Id Op Res : Type)
  | call (id : Id) (op : Op)
  | ret (id : Id) (res : Res)

/-- A history with the point at which each operation takes effect. -/
inductive Mark (Id Op Res : Type)
  | event (e : Event Id Op Res)
  | point (id : Id) (op : Op) (res : Res)

variable {S Id Op Res σ α : Type}

def Mark.visible : Mark Id Op Res → Option (Event Id Op Res)
  | .event e => some e
  | .point _ _ _ => none

def Mark.effect : Mark Id Op Res → Option (Op × Res)
  | .event _ => none
  | .point _ op res => some (op, res)

def visible (marks : List (Mark Id Op Res)) : List (Event Id Op Res) := marks.filterMap Mark.visible

def effects (marks : List (Mark Id Op Res)) : List (Op × Res) := marks.filterMap Mark.effect

/-- A sequential object and the calls on it that have not returned, with their
results once they have taken effect. -/
structure Atomic (S Id Op Res : Type) where
  object : S
  pending : Id → Option (Op × Option Res)

def Atomic.idle (object : S) : Atomic S Id Op Res := ⟨object, fun _ ↦ none⟩

/-- What one operation may answer in a state of the object, and the state after it. -/
abbrev Spec (S Op Res : Type) := S → Op → Res → S → Prop

/-- Operations one after the other, each with its result. -/
inductive Sequential (spec : Spec S Op Res) : S → List (Op × Res) → S → Prop
  | nil {o : S} : Sequential spec o [] o
  | cons {o o' o'' : S} {op : Op} {res : Res} {rest : List (Op × Res)} :
      spec o op res o' → Sequential spec o' rest o'' → Sequential spec o ((op, res) :: rest) o''

variable [DecidableEq Id]

/-- Every call takes effect once, between its invocation and its return. -/
inductive AtomicStep (spec : Spec S Op Res) :
    Atomic S Id Op Res → Mark Id Op Res → Atomic S Id Op Res → Prop
  | call {a : Atomic S Id Op Res} {id : Id} {op : Op} : a.pending id = none →
      AtomicStep spec a (.event (.call id op))
        ⟨a.object, Function.update a.pending id (some (op, none))⟩
  | point {a : Atomic S Id Op Res} {id : Id} {op : Op} {res : Res} {object : S} :
      a.pending id = some (op, none) → spec a.object op res object →
      AtomicStep spec a (.point id op res)
        ⟨object, Function.update a.pending id (some (op, some res))⟩
  | ret {a : Atomic S Id Op Res} {id : Id} {op : Op} {res : Res} :
      a.pending id = some (op, some res) →
      AtomicStep spec a (.event (.ret id res)) ⟨a.object, Function.update a.pending id none⟩

inductive AtomicRun (spec : Spec S Op Res) :
    Atomic S Id Op Res → List (Mark Id Op Res) → Atomic S Id Op Res → Prop
  | nil {a : Atomic S Id Op Res} : AtomicRun spec a [] a
  | cons {a b c : Atomic S Id Op Res} {mark : Mark Id Op Res} {marks : List (Mark Id Op Res)} :
      AtomicStep spec a mark b → AtomicRun spec b marks c → AtomicRun spec a (mark :: marks) c

variable {spec : Spec S Op Res} {a b c : Atomic S Id Op Res}

theorem AtomicRun.append {m m' : List (Mark Id Op Res)} (h : AtomicRun spec a m b)
    (h' : AtomicRun spec b m' c) : AtomicRun spec a (m ++ m') c := by
  induction h with
  | nil => exact h'
  | cons hs _ ih => exact .cons hs (ih h')

/-- The effects of a run, in the order of their points, are a sequential run of the object. -/
theorem AtomicRun.sequential {m : List (Mark Id Op Res)} (h : AtomicRun spec a m b) :
    Sequential spec a.object (effects m) b.object := by
  induction h with
  | nil => exact .nil
  | cons hs _ ih =>
    cases hs with
    | call => exact ih
    | point _ hspec => exact .cons hspec ih
    | ret => exact ih

theorem Sequential.append_iff {o o' : S} {l l' : List (Op × Res)} :
    Sequential spec o (l ++ l') o' ↔ ∃ m, Sequential spec o l m ∧ Sequential spec m l' o' := by
  induction l generalizing o with
  | nil =>
    constructor
    · exact fun h ↦ ⟨o, .nil, h⟩
    · rintro ⟨m, hm, h⟩
      cases hm
      exact h
  | cons x l ih =>
    constructor
    · intro h
      cases h with
      | cons hs h =>
        obtain ⟨m, hm, h⟩ := ih.mp h
        exact ⟨m, .cons hs hm, h⟩
    · rintro ⟨m, hm, h⟩
      cases hm with
      | cons hs hm => exact .cons hs (ih.mpr ⟨m, hm, h⟩)

/-- What a property of the object survives one by one, it survives all together. -/
theorem Sequential.invariant {o o' : S} {l : List (Op × Res)} {P : S → Prop}
    (h : Sequential spec o l o') (ho : P o)
    (hstep : ∀ o op res o', (op, res) ∈ l → P o → spec o op res o' → P o') : P o' := by
  induction h with
  | nil => exact ho
  | cons hs _ ih =>
    refine ih (hstep _ _ _ _ List.mem_cons_self ho hs) (fun o op res o' hm ↦ ?_)
    exact hstep o op res o' (List.mem_cons_of_mem _ hm)

section Simulation

variable {step : σ → α → Option σ} {shown : σ → α → List (Event Id Op Res)}

def history (step : σ → α → Option σ) (shown : σ → α → List (Event Id Op Res)) :
    σ → List α → List (Event Id Op Res)
  | _, [] => []
  | s, a :: as => shown s a ++ ((step s a).map fun s' ↦ history step shown s' as).getD []

/-- A system whose steps map to steps of the atomic object is linearizable, also when what a
call that has taken effect returns depends on the actions still to come. -/
theorem exists_atomicRun_ahead {I : σ → Prop} {abs : σ → List α → Atomic S Id Op Res}
    {s s' : σ} {as : List α}
    (h : exec step s as = some s') (hs : I s)
    (hstep : ∀ s a s' as, I s → step s a = some s' →
      I s' ∧ ∃ marks, visible marks = shown s a ∧
        AtomicRun spec (abs s (a :: as)) marks (abs s' as)) :
    ∃ marks, visible marks = history step shown s as ∧
      AtomicRun spec (abs s as) marks (abs s' []) := by
  induction as generalizing s with
  | nil =>
    obtain rfl := Option.some.inj h
    exact ⟨[], rfl, .nil⟩
  | cons a as ih =>
    obtain ⟨m, hm, h⟩ := exec_cons.mp h
    obtain ⟨hI, marks, hv, hrun⟩ := hstep s a m as hs hm
    obtain ⟨rest, hv', hrun'⟩ := ih h hI
    refine ⟨marks ++ rest, ?_, hrun.append hrun'⟩
    rw [history, hm, Option.map_some, Option.getD_some, ← hv, ← hv', visible, List.filterMap_append]
    exact rfl

theorem exists_atomicRun {I : σ → Prop} {abs : σ → Atomic S Id Op Res} {s s' : σ} {as : List α}
    (h : exec step s as = some s') (hs : I s)
    (hstep : ∀ s a s', I s → step s a = some s' →
      I s' ∧ ∃ marks, visible marks = shown s a ∧ AtomicRun spec (abs s) marks (abs s')) :
    ∃ marks, visible marks = history step shown s as ∧ AtomicRun spec (abs s) marks (abs s') := by
  let ahead : σ → List α → Atomic S Id Op Res := fun s _ ↦ abs s
  have hahead : ∀ s a s' as, I s → step s a = some s' →
      I s' ∧ ∃ marks, visible marks = shown s a ∧
        AtomicRun spec (ahead s (a :: as)) marks (ahead s' as) :=
    fun s a s' _ ↦ hstep s a s'
  exact exists_atomicRun_ahead h hs hahead

end Simulation

end Pyleans.Library
