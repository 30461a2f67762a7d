import Pyleans.Library.Fallible
import Pyleans.Library.Numerals

namespace Pyleans.Library

/-- A JSON value as Python has it. -/
inductive Json
  | null
  | bool (b : Bool)
  | int (n : ℤ)
  | float (x : PyFloat)
  | string (s : String)
  | array (items : List Json)
  | object (fields : List (String × Json))

/-- The exceptions that reading a value can raise, with their texts; a
`KeyError` is about a key. -/
inductive PyException
  | valueError (text : String)
  | keyError (key : String)
  | typeError (text : String)
  | overflowError (text : String)
deriving DecidableEq

/-- `repr` of a value. Nothing depends on its texts. -/
class PythonRepr where
  reprText : Json → String

/-- `sys.get_int_max_str_digits()`: the most digits that `int` takes of a text, or 0 for any
number. -/
class IntDigitLimit where
  maxStrDigits : ℕ

namespace IntDigitLimit

abbrev initial : IntDigitLimit := ⟨4300⟩

abbrev unlimited : IntDigitLimit := ⟨0⟩

def Exceeded [IntDigitLimit] (text : String) : Prop :=
  maxStrDigits ≠ 0 ∧ maxStrDigits < Numerals.digitCount text

instance decidableExceeded [IntDigitLimit] (text : String) : Decidable (Exceeded text) := by
  unfold Exceeded; infer_instance

end IntDigitLimit

namespace PyException

variable [PythonRepr]

def text : PyException → String
  | .valueError text => text
  | .keyError key => PythonRepr.reprText (.string key)
  | .typeError text => text
  | .overflowError text => text

def isValueError : PyException → Bool
  | .valueError _ => true
  | _ => false

def isKeyOrTypeError : PyException → Bool
  | .keyError _ => true
  | .typeError _ => true
  | _ => false

def isKeyTypeOrValueError (e : PyException) : Bool := e.isKeyOrTypeError || e.isValueError

/-- `raise ValueError(f"{what}: {exc}") from exc`. -/
def rewrap (what : String) (caught : PyException → Bool) (e : PyException) : PyException :=
  if caught e then .valueError s!"{what}: {e.text}" else e

end PyException

namespace Json

/-- No key stands twice in an object. -/
inductive WellFormed : Json → Prop
  | null : WellFormed .null
  | bool (b : Bool) : WellFormed (.bool b)
  | int (n : ℤ) : WellFormed (.int n)
  | float (x : PyFloat) : WellFormed (.float x)
  | string (s : String) : WellFormed (.string s)
  | array {items : List Json} : (∀ j ∈ items, WellFormed j) → WellFormed (.array items)
  | object {fields : List (String × Json)} :
      (fields.map Prod.fst).Nodup → (∀ f ∈ fields, WellFormed f.2) → WellFormed (.object fields)

/-- The texts of the simplest values, without quotes or escapes inside a text. -/
abbrev plainRepr : PythonRepr where
  reprText
    | .null => "None"
    | .bool b => if b then "True" else "False"
    | .int n => toString n
    | .string s => s!"'{s}'"
    | _ => ""

def typeName : Json → String
  | .null => "NoneType"
  | .bool _ => "bool"
  | .int _ => "int"
  | .float _ => "float"
  | .string _ => "str"
  | .array _ => "list"
  | .object _ => "dict"

/-- The first integer that `float` takes to be too large. -/
def floatBound : ℕ := 2 ^ 1024 - 2 ^ 970

section

variable [PythonRepr]

def toStr : Json → String
  | .string s => s
  | j => PythonRepr.reprText j

def toInt [IntDigitLimit] : Json → Except PyException ℤ
  | .bool b => .ok b.toInt
  | .int n => .ok n
  | .float (.finite q) => .ok (q.num.tdiv q.den)
  | .float (.infinity _) => .error (.overflowError "cannot convert float infinity to integer")
  | .float .nan => .error (.valueError "cannot convert float NaN to integer")
  | .string s =>
    match Numerals.parseInt s with
    | none =>
      .error (.valueError
        s!"invalid literal for int() with base 10: {PythonRepr.reprText (.string s)}")
    | some n =>
      if IntDigitLimit.Exceeded s then .error (.valueError (
        s!"Exceeds the limit ({IntDigitLimit.maxStrDigits} digits) for integer string " ++
        s!"conversion: value has {Numerals.digitCount s} digits; " ++
        "use sys.set_int_max_str_digits() to increase the limit"))
      else .ok n
  | j =>
    .error (.typeError
      s!"int() argument must be a string, a bytes-like object or a real number, not '{j.typeName}'")

def toFloat : Json → Except PyException PyFloat
  | .bool b => .ok (.finite b.toInt)
  | .int n =>
    if n.natAbs < floatBound then .ok (Numerals.nearestDouble (n < 0) n.natAbs)
    else .error (.overflowError "int too large to convert to float")
  | .float x => .ok x
  | .string s =>
    match Numerals.parseFloat s with
    | some x => .ok x
    | none =>
      .error (.valueError s!"could not convert string to float: {PythonRepr.reprText (.string s)}")
  | j =>
    .error (.typeError s!"float() argument must be a string or a real number, not '{j.typeName}'")

end

def equalsInt (n : ℤ) : Json → Bool
  | .bool b => b.toInt = n
  | .int m => m = n
  | .float (.finite q) => q = n
  | _ => false

def truthy : Json → Bool
  | .null => false
  | .bool b => b
  | .int n => n ≠ 0
  | .float (.finite q) => q ≠ 0
  | .float _ => true
  | .string s => s ≠ ""
  | .array items => !items.isEmpty
  | .object fields => !fields.isEmpty

def getItem (fields : List (String × Json)) (key : String) : Except PyException Json :=
  match fields.lookup key with
  | some j => .ok j
  | none => .error (.keyError key)

/-- `fields.get(key)`, where `None` stands for nothing. -/
def present (fields : List (String × Json)) (key : String) : Option Json :=
  match fields.lookup key with
  | some .null => none
  | found => found

def ofOption {α : Type} (value : α → Json) : Option α → Json
  | none => .null
  | some a => value a

end Json

/-- What decoding the bytes as UTF-8 and parsing the text raises. All three are `ValueError`s. -/
inductive LoadError
  | unicodeDecodeError (text : String)
  | jsonDecodeError (text : String)
  | valueError (text : String)

/-- `json.dumps(value).encode("utf-8")` and `json.loads(data.decode("utf-8"))`. -/
structure JsonCodec (Bytes : Type) where
  dumps : Json → Bytes
  loads : Bytes → Except LoadError Json

namespace JsonCodec

variable {Bytes : Type}

def RoundTrips (c : JsonCodec Bytes) : Prop :=
  ∀ j : Json, j.WellFormed → c.loads (c.dumps j) = .ok j

/-- Reading with the errors of the decoder and of the parser as `ValueError`s that say what was
read. -/
def load (c : JsonCodec Bytes) (what : String) (data : Bytes) : Except PyException Json :=
  match c.loads data with
  | .ok j => .ok j
  | .error (.unicodeDecodeError text) => .error (.valueError s!"{what}: {text}")
  | .error (.jsonDecodeError text) => .error (.valueError s!"{what}: {text}")
  | .error (.valueError text) => .error (.valueError text)

def loadObject (c : JsonCodec Bytes) (what otherwise : String) (data : Bytes) :
    Except PyException (List (String × Json)) := do
  match ← c.load what data with
  | .object fields => .ok fields
  | _ => .error (.valueError otherwise)

def transparent : JsonCodec Json := ⟨id, .ok⟩

theorem transparent_roundTrips : transparent.RoundTrips := fun _ _ ↦ rfl

variable {c : JsonCodec Bytes} {fields : List (String × Json)}

theorem RoundTrips.loadObject (h : c.RoundTrips) (what otherwise : String)
    (hfields : (Json.object fields).WellFormed) :
    c.loadObject what otherwise (c.dumps (.object fields)) = .ok fields := by
  rw [JsonCodec.loadObject, load, h _ hfields]
  rfl

end JsonCodec

namespace Json

theorem toInt_repr [PythonRepr] (n : ℤ) : @toInt _ .unlimited (.string n.repr) = .ok n := by
  simp only [toInt, Numerals.parseInt_repr]
  exact if_neg fun h ↦ h.1 rfl

@[simp] theorem wellFormed_null : Json.null.WellFormed := .null

@[simp] theorem wellFormed_bool (b : Bool) : (Json.bool b).WellFormed := .bool b

@[simp] theorem wellFormed_int (n : ℤ) : (Json.int n).WellFormed := .int n

@[simp] theorem wellFormed_float (x : PyFloat) : (Json.float x).WellFormed := .float x

@[simp] theorem wellFormed_string (s : String) : (Json.string s).WellFormed := .string s

@[simp] theorem wellFormed_array {items : List Json} :
    (Json.array items).WellFormed ↔ ∀ j ∈ items, j.WellFormed :=
  ⟨fun h ↦ by cases h with | array h => exact h, .array⟩

@[simp] theorem wellFormed_object {fields : List (String × Json)} :
    (Json.object fields).WellFormed ↔
    (fields.map Prod.fst).Nodup ∧ ∀ f ∈ fields, f.2.WellFormed :=
  ⟨fun h ↦ by cases h with | object hkeys h => exact ⟨hkeys, h⟩, fun h ↦ .object h.1 h.2⟩

section

variable {α : Type} {value : α → Json}

theorem wellFormed_ofOption (hvalue : ∀ a, (value a).WellFormed) (a : Option α) :
    (ofOption value a).WellFormed := by
  cases a with
  | none => exact .null
  | some a => exact hvalue a

theorem present_ofOption (hvalue : ∀ a, value a ≠ .null) {fields : List (String × Json)}
    {key : String} {a : Option α} (h : fields.lookup key = some (ofOption value a)) :
    present fields key = a.map value := by
  rw [present, h]
  cases a with
  | none => rfl
  | some a =>
    dsimp only [ofOption, Option.map_some]
    split
    · next heq => exact absurd (Option.some.inj heq) (hvalue a)
    · rfl

theorem present_text [PythonRepr] {fields : List (String × Json)} {key : String}
    {text : Option String} (h : fields.lookup key = some (ofOption .string text)) :
      (present fields key).map toStr = text := by
  have hnull : ∀ text, Json.string text ≠ .null := fun _ h ↦ nomatch h
  rw [present_ofOption hnull h]
  cases text <;> rfl

theorem present_mapM {ε : Type} {read : Json → Except ε α} (hnull : ∀ a, value a ≠ .null)
    (hread : ∀ a, read (value a) = .ok a) {fields : List (String × Json)} {key : String}
    {a : Option α} (h : fields.lookup key = some (ofOption value a)) :
    (present fields key).mapM read = .ok a := by
  rw [present_ofOption hnull h]
  cases a with
  | none => rfl
  | some a =>
    rw [Option.map_some, Option.mapM_some, hread]
    rfl

end

end Json

end Pyleans.Library
