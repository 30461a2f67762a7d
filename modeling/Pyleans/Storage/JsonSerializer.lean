import Mathlib.Data.List.Nodup
import Pyleans.Library.Json

namespace Pyleans

open Library Fallible

namespace JsonSerializer

/-- A JSON value with dataclass instances in it, each with its fields in the
order of the class. -/
inductive Value
  | null
  | bool (b : Bool)
  | int (n : ℤ)
  | float (x : PyFloat)
  | string (s : String)
  | list (items : List Value)
  | dict (entries : List (String × Value))
  | dataclass (cls : String) (fields : List (String × Value))

/-- What a field is annotated with: a type of JSON values, a dataclass, a type
made of these, or the text of an annotation. -/
inductive Annotation
  | plain
  | dataclass (cls : String)
  | list (a : Annotation)
  | dict (a : Annotation)
  | optional (a : Annotation)
  | text (a : Annotation)

/-- A field of a dataclass. `init` is false for a field that the generated
`__init__` does not take. -/
structure Field where
  name : String
  annotation : Annotation
  default : Option Value
  init : Bool

/-- The dataclasses by name, each as the decorator makes it, without an
`__init__` or a `__post_init__` of its own. -/
structure Classes where
  fields : String → List Field
  nodup : ∀ cls, ((fields cls).map Field.name).Nodup

/-- The package `orjson`: `dumps` raises `TypeError`, `loads` `JSONDecodeError`. -/
structure Orjson (Bytes : Type) where
  dumps : Value → Except String Bytes
  loads : Bytes → Except String Value

/-- `SerializationError` with its text. -/
structure SerializationError where
  text : String
deriving DecidableEq

def Value.typeName : Value → String
  | .null => "NoneType"
  | .bool _ => "bool"
  | .int _ => "int"
  | .float _ => "float"
  | .string _ => "str"
  | .list _ => "list"
  | .dict _ => "dict"
  | .dataclass cls _ => cls

mutual

def dataclassToDict : Value → Value
  | .null => .null
  | .bool b => .bool b
  | .int n => .int n
  | .float x => .float x
  | .string s => .string s
  | .list items => .list (itemsToDict items)
  | .dict entries => .dict (entriesToDict entries)
  | .dataclass _ fields => .dict (entriesToDict fields)

def itemsToDict : List Value → List Value
  | [] => []
  | x :: items => dataclassToDict x :: itemsToDict items

def entriesToDict : List (String × Value) → List (String × Value)
  | [] => []
  | (key, x) :: entries => (key, dataclassToDict x) :: entriesToDict entries

end

def quoted (name : String) : String := s!"'{name}'"

def quotedNames : List String → String
  | [] => ""
  | [a] => quoted a
  | [a, b] => quoted a ++ " and " ++ quoted b
  | names =>
    String.intercalate ", " (names.dropLast.map quoted) ++ ", and " ++ quoted (names.getLastD "")

/-- `target_type(**values)`: the fields that are given, and the defaults of the
others. A field that `__init__` does not take has no value without a default. -/
def construct (cls : String) (fields : List Field) (values : List (String × Value)) :
    Except PyException (List (String × Value)) :=
  match fields.find? fun f ↦ !f.init && (values.lookup f.name).isSome with
  | some f =>
    .error (.typeError s!"{cls}.__init__() got an unexpected keyword argument {quoted f.name}")
  | none =>
    match fields.filter fun f ↦ f.init && (values.lookup f.name).isNone && f.default.isNone with
    | [] => .ok (fields.filterMap fun f ↦ ((values.lookup f.name).or f.default).map (f.name, ·))
    | missing =>
      let count := missing.length
      let plural := if count = 1 then "argument" else "arguments"
      let names := quotedNames (missing.map Field.name)
      .error (.typeError s!"{cls}.__init__() missing {count} required positional {plural}: {names}")

theorem sizeOf_lookup {entries : List (String × Value)} {key : String} {x : Value}
    (h : entries.lookup key = some x) :
    sizeOf x < sizeOf entries := by
  induction entries with
  | nil => cases h
  | cons e entries ih =>
    obtain ⟨k, y⟩ := e
    rw [List.lookup_cons] at h
    split at h
    · cases h
      simp only [List.cons.sizeOf_spec, Prod.mk.sizeOf_spec]
      omega
    · have hlt := ih h
      simp only [List.cons.sizeOf_spec]
      omega

/-- `_dict_to_dataclass` on a dict. A nested dict becomes an instance where the
annotation of its field is a dataclass; the text of an annotation is not resolved. -/
def dictToDataclass (classes : Classes) (data : List (String × Value)) (cls : String) :
    Except PyException Value := do
  let values ← (classes.fields cls).mapM fun f ↦
    match _h : data.lookup f.name, f.annotation with
    | none, _ => .ok none
    | some (.dict entries), .dataclass nested =>
      do .ok (some (f.name, ← dictToDataclass classes entries nested))
    | some x, _ => .ok (some (f.name, x))
  .ok (.dataclass cls (← construct cls (classes.fields cls) (values.filterMap id)))
termination_by sizeOf data
decreasing_by
  have hlt := sizeOf_lookup _h
  simp only [Value.dict.sizeOf_spec] at hlt
  omega

section

variable {Bytes : Type} (o : Orjson Bytes)

def serialize (obj : Value) : Except SerializationError Bytes :=
  (match obj with
    | .dataclass cls fields => o.dumps (dataclassToDict (.dataclass cls fields))
    | _ => o.dumps obj).mapError fun e ↦ ⟨s!"Cannot serialize {obj.typeName}: {e}"⟩

def deserialize [PythonRepr] (classes : Classes) (data : Bytes) (cls : String) :
    Except SerializationError Value := do
  let parsed ← (o.loads data).mapError fun e ↦ ⟨s!"Invalid JSON: {e}"⟩
  match parsed with
  | .dict entries =>
    (dictToDataclass classes entries cls).mapError fun e ↦
      ⟨s!"Cannot deserialize into {cls}: {e.text}"⟩
  | _ => .error ⟨s!"Expected dict for {cls}, got {parsed.typeName}"⟩

end

/-- No dataclass instance is in the value. -/
inductive Plain : Value → Prop
  | null : Plain .null
  | bool (b : Bool) : Plain (.bool b)
  | int (n : ℤ) : Plain (.int n)
  | float (x : PyFloat) : Plain (.float x)
  | string (s : String) : Plain (.string s)
  | list {items : List Value} : (∀ x ∈ items, Plain x) → Plain (.list items)
  | dict {entries : List (String × Value)} : (∀ e ∈ entries, Plain e.2) → Plain (.dict entries)

/-- The values of an annotation. -/
inductive HasType (classes : Classes) : Value → Annotation → Prop
  | plain {v : Value} : Plain v → HasType classes v .plain
  | dataclass {cls : String} {fields : List (String × Value)} :
      fields.map Prod.fst = (classes.fields cls).map Field.name →
      (∀ f ∈ classes.fields cls, ∀ x, fields.lookup f.name = some x →
        HasType classes x f.annotation) →
      HasType classes (.dataclass cls fields) (.dataclass cls)
  | list {items : List Value} {a : Annotation} : (∀ x ∈ items, HasType classes x a) →
      HasType classes (.list items) (.list a)
  | dict {entries : List (String × Value)} {a : Annotation} :
      (∀ e ∈ entries, HasType classes e.2 a) → HasType classes (.dict entries) (.dict a)
  | none {a : Annotation} : HasType classes .null (.optional a)
  | some {v : Value} {a : Annotation} : HasType classes v a → HasType classes v (.optional a)
  | text {v : Value} {a : Annotation} : HasType classes v a → HasType classes v (.text a)

/-- An instance whose fields `__init__` takes, and where an instance stands in a
field only if the field is annotated with a dataclass itself. -/
inductive Direct (classes : Classes) : Value → Prop
  | dataclass {cls : String} {fields : List (String × Value)} :
      (∀ f ∈ classes.fields cls, f.init = true) →
      (∀ f ∈ classes.fields cls, ∀ x, fields.lookup f.name = some x →
        Plain x ∨ ∃ nested, f.annotation = .dataclass nested) →
      (∀ f ∈ classes.fields cls, ∀ x, fields.lookup f.name = some x →
        ∀ nested, f.annotation = .dataclass nested →
        Direct classes x) →
      Direct classes (.dataclass cls fields)

theorem sizeOf_mem {entries : List (String × Value)} {e : String × Value} (h : e ∈ entries) :
    sizeOf e.2 < sizeOf entries := by
  have hlt := List.sizeOf_lt_of_mem h
  have hpair : sizeOf e = 1 + sizeOf e.1 + sizeOf e.2 := by
    cases e
    rfl
  omega

/-- Induction over a value, with the parts of a container as the hypotheses. -/
theorem Value.induct {P : Value → Prop} (null : P .null) (bool : ∀ b, P (.bool b))
    (int : ∀ n, P (.int n)) (float : ∀ x, P (.float x)) (string : ∀ s, P (.string s))
    (list : ∀ items, (∀ x ∈ items, P x) → P (.list items))
    (dict : ∀ entries, (∀ e ∈ entries, P e.2) → P (.dict entries))
    (dataclass : ∀ cls fields, (∀ e ∈ fields, P e.2) → P (.dataclass cls fields)) (v : Value) :
    P v :=
  match v with
  | .null => null
  | .bool b => bool b
  | .int n => int n
  | .float x => float x
  | .string s => string s
  | .list items => list items fun x _h ↦ induct null bool int float string list dict dataclass x
  | .dict entries =>
    dict entries fun e _h ↦ induct null bool int float string list dict dataclass e.2
  | .dataclass cls fields =>
    dataclass cls fields fun e _h ↦ induct null bool int float string list dict dataclass e.2
termination_by sizeOf v
decreasing_by
  · have hlt := List.sizeOf_lt_of_mem _h
    simp only [Value.list.sizeOf_spec]
    omega
  · have hlt := sizeOf_mem _h
    simp only [Value.dict.sizeOf_spec]
    omega
  · have hlt := sizeOf_mem _h
    simp only [Value.dataclass.sizeOf_spec]
    omega

theorem itemsToDict_eq (items : List Value) : itemsToDict items = items.map dataclassToDict := by
  induction items with
  | nil => rfl
  | cons x items ih => rw [itemsToDict, ih, List.map_cons]

theorem entriesToDict_eq (entries : List (String × Value)) :
    entriesToDict entries = entries.map fun e ↦ (e.1, dataclassToDict e.2) := by
  induction entries with
  | nil => rfl
  | cons e entries ih => rw [entriesToDict, ih, List.map_cons]

theorem map_eq_self {α : Type} {f : α → α} {l : List α} : l.map f = l ↔ ∀ a ∈ l, f a = a := by
  conv_lhs => rw [← List.map_id l, List.map_map]
  rw [List.map_inj_left]
  rfl

theorem dataclassToDict_eq_self {v : Value} : dataclassToDict v = v ↔ Plain v := by
  induction v using Value.induct with
  | null => exact iff_of_true rfl .null
  | bool b => exact iff_of_true rfl (.bool b)
  | int n => exact iff_of_true rfl (.int n)
  | float x => exact iff_of_true rfl (.float x)
  | string s => exact iff_of_true rfl (.string s)
  | list items ih =>
    have hplain : Plain (.list items) ↔ ∀ x ∈ items, Plain x :=
      ⟨fun h ↦ by cases h with | list h => exact h, .list⟩
    rw [dataclassToDict, Value.list.injEq, itemsToDict_eq, map_eq_self, hplain]
    exact forall₂_congr ih
  | dict entries ih =>
    have hplain : Plain (.dict entries) ↔ ∀ e ∈ entries, Plain e.2 :=
      ⟨fun h ↦ by cases h with | dict h => exact h, .dict⟩
    rw [dataclassToDict, Value.dict.injEq, entriesToDict_eq, map_eq_self, hplain]
    refine forall₂_congr fun e he ↦ ?_
    rw [← ih e he, Prod.ext_iff]
    exact and_iff_right rfl
  | dataclass cls fields _ => exact iff_of_false nofun nofun

theorem lookup_of_mem {entries : List (String × Value)} (hkeys : (entries.map Prod.fst).Nodup)
    {e : String × Value} (he : e ∈ entries) : entries.lookup e.1 = some e.2 := by
  induction entries with
  | nil => cases he
  | cons e' entries ih =>
    obtain ⟨hnew, hkeys⟩ := List.nodup_cons.mp hkeys
    rcases List.mem_cons.mp he with rfl | he
    · exact List.lookup_cons_self
    · have hne : (e.1 == e'.1) = false :=
        beq_eq_false_iff_ne.mpr fun h ↦ hnew (h ▸ List.mem_map_of_mem he)
      rw [List.lookup_cons, hne]
      exact ih hkeys he

section

variable {classes : Classes} {cls : String}

def valuesOf (fields : List Field) (x : Field → Value) : List (String × Value) :=
  fields.map fun f ↦ (f.name, x f)

theorem lookup_valuesOf {x : Field → Value} {f : Field} (hf : f ∈ classes.fields cls) :
    (valuesOf (classes.fields cls) x).lookup f.name = some (x f) := by
  have hkeys : ((valuesOf (classes.fields cls) x).map Prod.fst).Nodup := by
    rw [valuesOf, List.map_map]
    exact classes.nodup cls
  exact lookup_of_mem hkeys (e := (f.name, x f)) (List.mem_map_of_mem hf)

theorem exists_valuesOf {fields : List (String × Value)}
    (h : fields.map Prod.fst = (classes.fields cls).map Field.name) :
    ∃ x : Field → Value, fields = valuesOf (classes.fields cls) x := by
  have hkeys : (fields.map Prod.fst).Nodup := h ▸ classes.nodup cls
  refine ⟨fun f ↦ (fields.lookup f.name).getD .null, ?_⟩
  calc fields
    _ = fields.map fun e ↦ (e.1, (fields.lookup e.1).getD .null) := by
      refine (map_eq_self.mpr fun e he ↦ ?_).symm
      rw [lookup_of_mem hkeys he]
      rfl
    _ = (fields.map Prod.fst).map fun name ↦ (name, (fields.lookup name).getD .null) := by
      rw [List.map_map]
      rfl
    _ = valuesOf (classes.fields cls) fun f ↦ (fields.lookup f.name).getD .null := by
      rw [h, List.map_map]
      rfl

theorem entriesToDict_valuesOf (fields : List Field) (x : Field → Value) :
    entriesToDict (valuesOf fields x) = valuesOf fields fun f ↦ dataclassToDict (x f) := by
  rw [entriesToDict_eq, valuesOf, List.map_map]
  rfl

theorem valuesOf_inj {fields : List Field} {x y : Field → Value} :
    valuesOf fields x = valuesOf fields y ↔ ∀ f ∈ fields, x f = y f := by
  rw [valuesOf, valuesOf, List.map_inj_left]
  simp only [Prod.mk.injEq, true_and]

def rebuild (classes : Classes) (f : Field) (x : Value) : Except PyException Value :=
  match x, f.annotation with
  | .dict entries, .dataclass nested => dictToDataclass classes entries nested
  | x, _ => .ok x

theorem rebuild_dict {f : Field} {nested : String} (h : f.annotation = .dataclass nested)
    (entries : List (String × Value)) : rebuild classes f (.dict entries) =
      dictToDataclass classes entries nested := by
  unfold rebuild
  rw [h]

theorem rebuild_eq_ok {f : Field} {x : Value}
    (h : ∀ entries nested, f.annotation = .dataclass nested → x = .dict entries → False) :
    rebuild classes f x = .ok x := by
  unfold rebuild
  split
  · next hann => exact (h _ _ hann rfl).elim
  · rfl

theorem construct_valuesOf {y : Field → Value} {r : List (String × Value)} :
    construct cls (classes.fields cls) (valuesOf (classes.fields cls) y) = .ok r ↔
      (∀ f ∈ classes.fields cls, f.init = true) ∧ valuesOf (classes.fields cls) y = r := by
  unfold construct
  cases hfind : (classes.fields cls).find? fun f ↦
      !f.init && ((valuesOf (classes.fields cls) y).lookup f.name).isSome with
  | some f =>
    have hbad := List.find?_some hfind
    refine iff_of_false (fun h ↦ nomatch h) fun ⟨hinit, _⟩ ↦ ?_
    rw [hinit f (List.mem_of_find?_eq_some hfind)] at hbad
    cases hbad
  | none =>
    have hinit : ∀ f ∈ classes.fields cls, f.init = true := by
      intro f hf
      have hgood := List.find?_eq_none.mp hfind f hf
      rw [lookup_valuesOf hf] at hgood
      simpa using hgood
    have hgiven : ((classes.fields cls).filter fun f ↦ f.init &&
        ((valuesOf (classes.fields cls) y).lookup f.name).isNone && f.default.isNone) = [] := by
      refine List.filter_eq_nil_iff.mpr fun f hf ↦ ?_
      rw [lookup_valuesOf hf]
      simp
    have hvalues : ((classes.fields cls).filterMap fun f ↦
        (((valuesOf (classes.fields cls) y).lookup f.name).or f.default).map (f.name, ·)) =
          valuesOf (classes.fields cls) y := by
      refine (List.filterMap_congr (g := some ∘ fun f ↦ (f.name, y f)) fun f hf ↦ ?_).trans
        (congrFun List.filterMap_eq_map _)
      rw [lookup_valuesOf hf]
      rfl
    dsimp only
    rw [hgiven]
    dsimp only
    rw [hvalues, Except.ok.injEq, and_iff_right hinit]

theorem dictToDataclass_valuesOf (x : Field → Value) :
    dictToDataclass classes (valuesOf (classes.fields cls) x) cls = (do
      let values ← (classes.fields cls).mapM fun f ↦
        do .ok (some (f.name, ← rebuild classes f (x f)))
      .ok (.dataclass cls (← construct cls (classes.fields cls) (values.filterMap id)))) := by
  rw [dictToDataclass]
  refine congrArg (· >>= _) (mapM_congr fun f hf ↦ ?_)
  have hlookup := lookup_valuesOf (x := x) hf
  split
  · next h =>
    rw [hlookup] at h
    cases h
  · next h hann =>
    rw [hlookup] at h
    rw [Option.some.inj h, rebuild_dict hann]
  · next h hno =>
    rw [hlookup] at h
    obtain rfl := Option.some.inj h
    rw [rebuild_eq_ok fun entries nested hann hdict ↦ hno entries nested hann hdict]
    rfl

theorem dictToDataclass_eq_ok {x y : Field → Value} :
    dictToDataclass classes (valuesOf (classes.fields cls) x) cls =
        .ok (.dataclass cls (valuesOf (classes.fields cls) y)) ↔
      ∀ f ∈ classes.fields cls, f.init = true ∧ rebuild classes f (x f) = .ok (y f) := by
  have hpairs : ∀ y : Field → Value,
    ((classes.fields cls).map fun f ↦ some (f.name, y f)).filterMap id =
      valuesOf (classes.fields cls) y := by
    intro y
    rw [List.filterMap_map]
    exact congrFun List.filterMap_eq_map _
  rw [dictToDataclass_valuesOf]
  constructor
  · intro h
    obtain ⟨values, hvalues, h⟩ := bind_eq_ok.mp h
    obtain ⟨r, hr, h⟩ := bind_eq_ok.mp h
    have hr' : r = valuesOf (classes.fields cls) y := (Value.dataclass.inj (Except.ok.inj h)).2
    have hsome : ∀ f ∈ classes.fields cls, ∃ z, rebuild classes f (x f) = .ok z := by
      intro f hf
      obtain ⟨_, hf⟩ := exists_of_mapM_ok hvalues f hf
      obtain ⟨z, hz, -⟩ := bind_eq_ok.mp hf
      exact ⟨z, hz⟩
    have hnonempty : Nonempty Value := ⟨.null⟩
    choose! z hz using hsome
    have hvalues' : ((classes.fields cls).mapM fun f ↦
      do .ok (some (f.name, ← rebuild classes f (x f)))) =
        .ok ((classes.fields cls).map fun f ↦ some (f.name, z f)) :=
      mapM_eq_ok_map fun f hf ↦ by rw [hz f hf]; rfl
    rw [hvalues'] at hvalues
    rw [← Except.ok.inj hvalues, hpairs] at hr
    obtain ⟨hinit, hzr⟩ := construct_valuesOf.mp hr
    have hsame := valuesOf_inj.mp (hzr.trans hr')
    exact fun f hf ↦ ⟨hinit f hf, hsame f hf ▸ hz f hf⟩
  · intro h
    have hvalues : ((classes.fields cls).mapM fun f ↦
      do .ok (some (f.name, ← rebuild classes f (x f)))) =
        .ok ((classes.fields cls).map fun f ↦ some (f.name, y f)) :=
      mapM_eq_ok_map fun f hf ↦ by rw [(h f hf).2]; rfl
    rw [hvalues, ok_bind, hpairs, construct_valuesOf.mpr ⟨fun f hf ↦ (h f hf).1, rfl⟩]
    rfl

/-- An instance comes back from its dict exactly if it is direct. -/
theorem dictToDataclass_toDict {v : Value} (h : HasType classes v (.dataclass cls)) :
    ∃ fields, v = .dataclass cls fields ∧
      (dictToDataclass classes (entriesToDict fields) cls = .ok v ↔ Direct classes v) := by
  induction v using Value.induct generalizing cls with
  | dataclass cls' fields ih =>
    cases h with
    | dataclass hnames htypes =>
      obtain ⟨x, rfl⟩ := exists_valuesOf hnames
      refine ⟨_, rfl, ?_⟩
      have hlookup : ∀ f ∈ classes.fields cls',
        (valuesOf (classes.fields cls') x).lookup f.name = some (x f) :=
        fun f hf ↦ lookup_valuesOf hf
      have hfield : ∀ f ∈ classes.fields cls',
        rebuild classes f (dataclassToDict (x f)) = .ok (x f) ↔
          (Plain (x f) ∨ ∃ nested, f.annotation = .dataclass nested) ∧
            ∀ nested, f.annotation = .dataclass nested → Direct classes (x f) := by
        intro f hf
        have htype := htypes f hf (x f) (hlookup f hf)
        have hmem : (f.name, x f) ∈ valuesOf (classes.fields cls') x := List.mem_map_of_mem hf
        cases hann : f.annotation with
        | dataclass nested =>
          rw [hann] at htype
          obtain ⟨fields', hx, hiff⟩ := ih (f.name, x f) hmem htype
          have hdict : dataclassToDict (x f) = .dict (entriesToDict fields') := by
            simp only at hx
            rw [hx, dataclassToDict]
          rw [hdict, rebuild_dict hann, hiff]
          exact ⟨fun hdirect ↦ ⟨.inr ⟨nested, rfl⟩, fun _ _ ↦ hdirect⟩, fun h ↦ h.2 nested rfl⟩
        | _ =>
          have hother : rebuild classes f (dataclassToDict (x f)) = .ok (dataclassToDict (x f)) :=
            rebuild_eq_ok fun _ _ h ↦ by rw [hann] at h; cases h
          rw [hother, Except.ok.injEq, dataclassToDict_eq_self]
          simp
      rw [entriesToDict_valuesOf, dictToDataclass_eq_ok]
      constructor
      · intro h
        refine .dataclass (fun f hf ↦ (h f hf).1) (fun f hf y hy ↦ ?_) fun f hf y hy ↦ ?_
        · obtain rfl := Option.some.inj ((hlookup f hf).symm.trans hy)
          exact ((hfield f hf).mp (h f hf).2).1
        · obtain rfl := Option.some.inj ((hlookup f hf).symm.trans hy)
          exact ((hfield f hf).mp (h f hf).2).2
      · intro hdirect
        cases hdirect with
        | dataclass hinit hplain hnested =>
          exact fun f hf ↦ ⟨hinit f hf, (hfield f hf).mpr
            ⟨hplain f hf _ (hlookup f hf), hnested f hf _ (hlookup f hf)⟩⟩
  | _ => cases h

end

/-- What the package writes of a value without instances, it reads back. -/
def Orjson.RoundTripsOn {Bytes : Type} (o : Orjson Bytes) (v : Value) : Prop :=
  ∃ bytes, o.dumps v = .ok bytes ∧ o.loads bytes = .ok v

/-- A value of a dataclass comes back exactly if it is direct: each instance in
it stands in a field that is annotated with its class itself, not in a list, a
dict or an optional field, nor under the text of an annotation. -/
theorem json_round_trip_iff [PythonRepr] {Bytes : Type} (o : Orjson Bytes) (classes : Classes)
    (cls : String) (v : Value) (htype : HasType classes v (.dataclass cls))
    (hjson : o.RoundTripsOn (dataclassToDict v)) :
    (serialize o v >>= fun bytes ↦ deserialize o classes bytes cls) = .ok v ↔ Direct classes v := by
  obtain ⟨fields, rfl, hiff⟩ := dictToDataclass_toDict htype
  obtain ⟨bytes, hdumps, hloads⟩ := hjson
  have hserialize : serialize o (.dataclass cls fields) = .ok bytes := by
    simp only [serialize, hdumps]
    rfl
  have hdeserialize : deserialize o classes bytes cls =
      (dictToDataclass classes (entriesToDict fields) cls).mapError fun e ↦
        ⟨s!"Cannot deserialize into {cls}: {e.text}"⟩ := by
    rw [deserialize, hloads, dataclassToDict]
    rfl
  rw [hserialize, ok_bind, hdeserialize, ← hiff]
  cases dictToDataclass classes (entriesToDict fields) cls with
  | error e => exact iff_of_false nofun nofun
  | ok w => exact Iff.of_eq (by rw [Except.ok.injEq]; exact Except.ok.injEq _ _)

def shopFields : String → List Field
  | "Item" => [⟨"name", .plain, none, true⟩]
  | "Wallet" => [⟨"first", .dataclass "Item", none, true⟩]
  | "Inventory" => [⟨"items", .list (.dataclass "Item"), none, true⟩]
  | _ => []

theorem shopFields_nodup (cls : String) : ((shopFields cls).map Field.name).Nodup := by
  unfold shopFields
  split <;> simp

def shop : Classes := ⟨shopFields, shopFields_nodup⟩

def verbatim : Orjson Value := ⟨.ok, .ok⟩

def sword : Value := .dataclass "Item" [("name", .string "sword")]

theorem sword_hasType : HasType shop sword (.dataclass "Item") := by
  refine .dataclass rfl ?_
  intro f hf x hx
  obtain rfl := List.mem_singleton.mp hf
  obtain rfl := Option.some.inj hx
  exact .plain (.string _)

theorem json_round_trip_iff_wallet :
    let v := Value.dataclass "Wallet" [("first", sword)]
    (serialize verbatim v >>= fun bytes ↦
      @deserialize Value verbatim Json.plainRepr shop bytes "Wallet") = .ok v ↔
      Direct shop v := by
  refine @json_round_trip_iff Json.plainRepr Value verbatim shop "Wallet" _ (.dataclass rfl ?_)
    ⟨_, rfl, rfl⟩
  intro f hf x hx
  obtain rfl := List.mem_singleton.mp hf
  obtain rfl := Option.some.inj hx
  exact sword_hasType

/-- The items of an inventory come back as plain dicts. -/
theorem inventory_comes_back_plain :
    let v := Value.dataclass "Inventory" [("items", .list [sword])]
    HasType shop v (.dataclass "Inventory") ∧ verbatim.RoundTripsOn (dataclassToDict v) ∧
      (serialize verbatim v >>= fun bytes ↦
        @deserialize Value verbatim Json.plainRepr shop bytes "Inventory") =
        .ok (.dataclass "Inventory" [("items", .list [.dict [("name", .string "sword")]])]) ∧
      (serialize verbatim v >>= fun bytes ↦
        @deserialize Value verbatim Json.plainRepr shop bytes "Inventory") ≠
        .ok v := by
  have hback : (serialize verbatim (.dataclass "Inventory" [("items", .list [sword])]) >>=
    fun bytes ↦
      @deserialize Value verbatim Json.plainRepr shop bytes "Inventory") =
        .ok (.dataclass "Inventory" [("items", .list [.dict [("name", .string "sword")]])]) := by
    have hdict : dictToDataclass shop
      [("items", .list [.dict [("name", .string "sword")]])] "Inventory" =
        .ok (.dataclass "Inventory" [("items", .list [.dict [("name", .string "sword")]])]) := by
      rw [dictToDataclass]
      rfl
    calc (dictToDataclass shop [("items", .list [.dict [("name", .string "sword")]])]
      "Inventory").mapError _
      _ = _ := by rw [hdict]; rfl
  refine ⟨.dataclass rfl ?_, ⟨_, rfl, rfl⟩, hback, ?_⟩
  · intro f hf x hx
    obtain rfl := List.mem_singleton.mp hf
    obtain rfl := Option.some.inj hx
    exact .list fun x hx ↦ List.mem_singleton.mp hx ▸ sword_hasType
  · rw [hback]
    intro h
    simp [sword] at h

end JsonSerializer

end Pyleans
