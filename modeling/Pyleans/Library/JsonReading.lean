import Pyleans.Library.Json
import Pyleans.Library.Reading

namespace Pyleans.Library.Json

def IsInt [IntDigitLimit] : Json → Prop
  | .bool _ => True
  | .int _ => True
  | .float (.finite _) => True
  | .string s => (Numerals.parseInt s).isSome ∧ ¬ IntDigitLimit.Exceeded s
  | _ => False

def IsFloat : Json → Prop
  | .bool _ => True
  | .int n => n.natAbs < floatBound
  | .float _ => True
  | .string s => (Numerals.parseFloat s).isSome
  | _ => False

def IsInfinite : Json → Prop
  | .float (.infinity _) => True
  | _ => False

def IsHuge : Json → Prop
  | .int n => ¬ n.natAbs < floatBound
  | _ => False

def IsArray : Json → Prop
  | .array _ => True
  | _ => False

def IsObject : Json → Prop
  | .object _ => True
  | _ => False

def IsNoNumber : Json → Prop
  | .null => True
  | .array _ => True
  | .object _ => True
  | _ => False

def Missing (obj : List (String × Json)) (key : String) : Prop := obj.lookup key = none

def Holds (obj : List (String × Json)) (key : String) (P : Json → Prop) : Prop :=
  ∃ j, obj.lookup key = some j ∧ P j

/-- What no handler turns into a `ValueError` here. -/
def Escapes (e : PyException) : Prop := e.isValueError = false

def Overflows (e : PyException) : Prop := ∃ text, e = .overflowError text

def rejected : Reading := ⟨False, False⟩

def text : Json → List Reading := fun _ ↦ []

/-- `int(value)` where only an `OverflowError` is not caught. -/
def caughtInt [IntDigitLimit] (j : Json) : List Reading := [⟨j.IsInfinite, j.IsInt⟩]

def uncaughtInt [IntDigitLimit] (j : Json) : List Reading :=
  [⟨j.IsNoNumber ∨ j.IsInfinite, j.IsInt⟩]

def caughtFloat (j : Json) : List Reading := [⟨j.IsHuge, j.IsFloat⟩]

def uncaughtFloat (j : Json) : List Reading := [⟨j.IsNoNumber ∨ j.IsHuge, j.IsFloat⟩]

section

variable (obj : List (String × Json)) (key : String) (readings : Json → List Reading)

def caughtField : Reading :=
  ⟨Holds obj key fun j ↦ FirstWrong (readings j), Holds obj key fun j ↦ AllRight (readings j)⟩

def uncaughtField : Reading :=
  ⟨Missing obj key ∨ Holds obj key fun j ↦ FirstWrong (readings j),
    Holds obj key fun j ↦ AllRight (readings j)⟩

def optionalField : Reading :=
  ⟨∃ j, present obj key = some j ∧ FirstWrong (readings j),
    ∀ j, present obj key = some j → AllRight (readings j)⟩

end

section

variable {α : Type} {bad : PyException → Prop} {readings : Json → List Reading}
  {obj : List (String × Json)}
  {key : String}

theorem singleton_wrong (r : Reading) : FirstWrong [r] ↔ r.wrong := by simp [FirstWrong]

theorem singleton_right (r : Reading) : AllRight [r] ↔ r.right := by simp [AllRight]

theorem follows_value {r : Reading} (a : α) (hwrong : ¬ r.wrong) (hright : r.right) :
    Follows bad (.ok a) [r] where
  raises := iff_of_false (fun ⟨_, h, _⟩ ↦ nomatch h) (by rwa [singleton_wrong])
  succeeds := iff_of_true ⟨a, rfl⟩ ((singleton_right r).mpr hright)

theorem follows_error {r : Reading} {e : PyException} (hwrong : bad e ↔ r.wrong)
    (hright : ¬ r.right) :
    Follows bad (.error e : Except PyException α) [r] where
  raises := by
    rw [singleton_wrong, ← hwrong]
    exact ⟨fun ⟨_, h, hbad⟩ ↦ Except.error.inj h ▸ hbad, fun hbad ↦ ⟨e, rfl, hbad⟩⟩
  succeeds := iff_of_false (fun ⟨_, h⟩ ↦ nomatch h) (by rwa [singleton_right])

theorem not_escapes_valueError (text : String) : ¬ Escapes (.valueError text) := nofun

theorem escapes_keyError (key : String) : Escapes (.keyError key) := rfl

theorem not_overflows_valueError (text : String) : ¬ Overflows (.valueError text) := nofun

theorem getItem_bind_missing (h : Missing obj key) (g : Json → Except PyException α) :
    getItem obj key >>= g = .error (.keyError key) := by
  have hlookup : obj.lookup key = none := h
  rw [getItem, hlookup]
  rfl

theorem getItem_bind_found {j : Json} (h : obj.lookup key = some j)
    (g : Json → Except PyException α) :
    getItem obj key >>= g = g j := by
  rw [getItem, h]
  rfl

theorem loadObject_eq {Bytes : Type} (c : JsonCodec Bytes) (what otherwise : String)
    (data : Bytes) :
    (∃ obj, c.loads data = .ok (.object obj) ∧ c.loadObject what otherwise data = .ok obj) ∨
      (∀ obj, c.loads data ≠ .ok (.object obj)) ∧
        ∃ text, c.loadObject what otherwise data = .error (.valueError text) := by
  unfold JsonCodec.loadObject JsonCodec.load
  cases hloads : c.loads data with
  | ok j =>
    cases j with
    | object obj => exact .inl ⟨obj, rfl, rfl⟩
    | _ => exact .inr ⟨nofun, _, rfl⟩
  | error e => cases e <;> exact .inr ⟨nofun, _, rfl⟩

theorem raises_loadObject {Bytes : Type} (c : JsonCodec Bytes) (what otherwise : String)
    (data : Bytes) (f : List (String × Json) → Except PyException α) : Raises Escapes
      (c.loadObject what otherwise data >>= f) ↔
      ∃ obj, c.loads data = .ok (.object obj) ∧ Raises Escapes (f obj) := by
  rcases loadObject_eq c what otherwise data with ⟨obj, hloads, hobject⟩ | ⟨hloads, text, herror⟩
  · rw [hobject, hloads]
    exact ⟨fun h ↦ ⟨obj, rfl, h⟩, fun ⟨_, h, hraises⟩ ↦ by cases h; exact hraises⟩
  · rw [herror]
    refine iff_of_false ?_ fun ⟨obj, h, _⟩ ↦ hloads obj h
    rintro ⟨e, h, he⟩
    cases h
    exact not_escapes_valueError text he

theorem holds_iff {j : Json} (h : obj.lookup key = some j) (P : Json → Prop) :
    Holds obj key P ↔ P j := by
  rw [Holds, h]
  exact ⟨fun ⟨_, hj, hP⟩ ↦ Option.some.inj hj ▸ hP, fun hP ↦ ⟨j, rfl, hP⟩⟩

theorem not_holds {P : Json → Prop} (h : Missing obj key) : ¬ Holds obj key P := by
  rintro ⟨j, hj, -⟩
  rw [Missing, hj] at h
  cases h

theorem follows_caughtField {g : Json → Except PyException α}
    (h : ∀ j, Follows bad (g j) (readings j)) (hbad : ¬ bad (.keyError key)) :
    Follows bad (getItem obj key >>= g) [caughtField obj key readings] := by
  cases hlookup : obj.lookup key with
  | none =>
    rw [getItem_bind_missing hlookup]
    exact follows_error (iff_of_false hbad (not_holds hlookup)) (not_holds hlookup)
  | some j =>
    rw [getItem_bind_found hlookup]
    refine ⟨(h j).raises.trans ?_, (h j).succeeds.trans ?_⟩
    · rw [singleton_wrong]
      exact (holds_iff hlookup fun j ↦ FirstWrong (readings j)).symm
    · rw [singleton_right]
      exact (holds_iff hlookup fun j ↦ AllRight (readings j)).symm

theorem follows_uncaughtField {g : Json → Except PyException α}
    (h : ∀ j, Follows bad (g j) (readings j)) (hbad : bad (.keyError key)) :
    Follows bad (getItem obj key >>= g) [uncaughtField obj key readings] := by
  cases hlookup : obj.lookup key with
  | none =>
    rw [getItem_bind_missing hlookup]
    exact follows_error (iff_of_true hbad (.inl hlookup)) (not_holds hlookup)
  | some j =>
    have hfound : ¬ Missing obj key := by
      rw [Missing, hlookup]
      nofun
    rw [getItem_bind_found hlookup]
    refine ⟨(h j).raises.trans ?_, (h j).succeeds.trans ?_⟩
    · rw [singleton_wrong]
      exact ((or_iff_right hfound).trans (holds_iff hlookup fun j ↦ FirstWrong (readings j))).symm
    · rw [singleton_right]
      exact (holds_iff hlookup fun j ↦ AllRight (readings j)).symm

theorem getItem_bind_ok (obj : List (String × Json)) (key : String) :
    getItem obj key >>= Except.ok = getItem obj key := by
  cases getItem obj key <;> rfl

theorem follows_caughtKey (hbad : ¬ bad (.keyError key)) :
    Follows bad (getItem obj key) [caughtField obj key text] := by
  have hread : ∀ j, Follows bad (.ok j : Except PyException Json) (text j) := follows_ok bad
  rw [← getItem_bind_ok]
  exact follows_caughtField hread hbad

theorem follows_uncaughtKey (hbad : bad (.keyError key)) :
    Follows bad (getItem obj key) [uncaughtField obj key text] := by
  have hread : ∀ j, Follows bad (.ok j : Except PyException Json) (text j) := follows_ok bad
  rw [← getItem_bind_ok]
  exact follows_uncaughtField hread hbad

theorem follows_optionalField {g : Json → Except PyException α}
    (h : ∀ j, Follows bad (g j) (readings j)) :
    Follows bad ((present obj key).mapM g) [optionalField obj key readings] := by
  unfold optionalField
  cases present obj key with
  | none =>
    refine ⟨iff_of_false (fun ⟨_, h, _⟩ ↦ nomatch h) ?_, iff_of_true ⟨none, rfl⟩ ?_⟩
    · simp [singleton_wrong]
    · simp [singleton_right]
  | some j =>
    have hbind := (h j).bind fun a ↦ follows_ok bad (some a)
    rw [Option.mapM_some]
    refine ⟨hbind.raises.trans ?_, hbind.succeeds.trans ?_⟩
    · simp [singleton_wrong]
    · simp [singleton_right]

end

section

variable [PythonRepr] {what : String} {bad : PyException → Prop}

theorem escapes_rewrap_keyTypeOrValue (e : PyException) :
    Escapes (e.rewrap what PyException.isKeyTypeOrValueError) ↔ Overflows e := by
  cases e <;> simp [Escapes, Overflows, PyException.rewrap, PyException.isKeyTypeOrValueError,
    PyException.isKeyOrTypeError, PyException.isValueError]

theorem escapes_rewrap_keyOrType (e : PyException) :
    Escapes (e.rewrap what PyException.isKeyOrTypeError) ↔ Overflows e := by
  cases e <;> simp [Escapes, Overflows, PyException.rewrap, PyException.isKeyOrTypeError,
    PyException.isValueError]

omit [PythonRepr] in
theorem not_overflows_keyError (key : String) : ¬ Overflows (.keyError key) := nofun

theorem overflows_rewrap (caught : PyException → Bool)
    (hcaught : ∀ text, caught (.overflowError text) = false) (e : PyException) :
    Overflows (e.rewrap what caught) ↔ Overflows e := by
  cases e <;> simp only [Overflows, PyException.rewrap] <;> split_ifs <;> simp_all

variable {T : Prop} (hvalue : ∀ text, ¬ bad (.valueError text))
  (hoverflow : ∀ text, bad (.overflowError text))
  (htype : ∀ text, bad (.typeError text) ↔ T)

include hvalue hoverflow htype

theorem follows_toInt [IntDigitLimit] (j : Json) :
    Follows bad j.toInt [⟨T ∧ j.IsNoNumber ∨ j.IsInfinite, j.IsInt⟩] := by
  have hnone : ¬ (T ∧ False ∨ False) := by simp
  have hnoNumber : ∀ text, bad (.typeError text) ↔ T ∧ True ∨ False := by simpa using htype
  match j with
  | .null => exact follows_error (hnoNumber _) id
  | .bool b => exact follows_value _ hnone trivial
  | .int n => exact follows_value _ hnone trivial
  | .float (.finite q) => exact follows_value _ hnone trivial
  | .float (.infinity _) => exact follows_error (iff_of_true (hoverflow _) (.inr trivial)) id
  | .float .nan => exact follows_error (iff_of_false (hvalue _) hnone) id
  | .string s =>
    simp only [toInt, IsInt]
    cases Numerals.parseInt s with
    | none => exact follows_error (iff_of_false (hvalue _) hnone) fun h ↦ Bool.false_ne_true h.1
    | some n =>
      dsimp only
      split_ifs with hexceeded
      · exact follows_error (iff_of_false (hvalue _) hnone) fun h ↦ h.2 hexceeded
      · exact follows_value _ hnone ⟨Option.isSome_some (a := n), hexceeded⟩
  | .array _ => exact follows_error (hnoNumber _) id
  | .object _ => exact follows_error (hnoNumber _) id

theorem follows_toFloat (j : Json) :
    Follows bad j.toFloat [⟨T ∧ j.IsNoNumber ∨ j.IsHuge, j.IsFloat⟩] := by
  have hnone : ¬ (T ∧ False ∨ False) := by simp
  have hnoNumber : ∀ text, bad (.typeError text) ↔ T ∧ True ∨ False := by simpa using htype
  match j with
  | .null => exact follows_error (hnoNumber _) id
  | .bool b => exact follows_value _ hnone trivial
  | .int n =>
    simp only [toFloat]
    split_ifs with hfits
    · exact follows_value _ (by simp [IsNoNumber, IsHuge, hfits]) hfits
    · exact follows_error (iff_of_true (hoverflow _) (.inr hfits)) hfits
  | .float x => exact follows_value _ hnone trivial
  | .string s =>
    simp only [toFloat, IsFloat]
    cases Numerals.parseFloat s with
    | none => exact follows_error (iff_of_false (hvalue _) hnone) Bool.false_ne_true
    | some x => exact follows_value _ hnone (Option.isSome_some (a := x))
  | .array _ => exact follows_error (hnoNumber _) id
  | .object _ => exact follows_error (hnoNumber _) id

omit hvalue hoverflow htype

omit [PythonRepr] in
theorem overflows_type (text : String) : Overflows (.typeError text) ↔ False :=
  iff_of_false nofun id

theorem follows_caughtInt [IntDigitLimit] (j : Json) : Follows Overflows j.toInt (caughtInt j) := by
  simpa [caughtInt] using follows_toInt not_overflows_valueError (fun _ ↦ ⟨_, rfl⟩) overflows_type j

theorem follows_uncaughtInt [IntDigitLimit] (j : Json) :
    Follows Escapes j.toInt (uncaughtInt j) := by
  simpa [uncaughtInt] using follows_toInt not_escapes_valueError (fun _ ↦ rfl)
    (fun _ ↦ iff_true_intro rfl) j

theorem follows_caughtFloat (j : Json) : Follows Overflows j.toFloat (caughtFloat j) := by
  simpa [caughtFloat] using follows_toFloat not_overflows_valueError
    (fun _ ↦ ⟨_, rfl⟩) overflows_type j

theorem follows_uncaughtFloat (j : Json) : Follows Escapes j.toFloat (uncaughtFloat j) := by
  simpa [uncaughtFloat] using follows_toFloat not_escapes_valueError (fun _ ↦ rfl)
    (fun _ ↦ iff_true_intro rfl) j

end

end Pyleans.Library.Json
