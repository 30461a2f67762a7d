import Pyleans.Cluster.DirectoryCodec
import Pyleans.Library.JsonReading
import Pyleans.Membership.SnapshotCodec
import Pyleans.Server.GrainCallCodec

namespace Pyleans.InboundDecoders

open Library Json DirectoryCodec SnapshotCodec GrainCallCodec

def FailsOnlyAsValueError {α : Type} (x : Except PyException α) : Prop :=
  ∀ e, x = .error e → e.isValueError = true

def grainId : Json → List Reading
  | .object obj => [caughtField obj "grain_type" text, caughtField obj "key" text]
  | _ => [rejected]

variable [IntDigitLimit]

def silo : Json → List Reading
  | .string s =>
    match rsplitColons s with
    | none => [rejected]
    | some (_, port, epoch) =>
      [⟨False, (Json.string port).IsInt⟩, ⟨False, (Json.string epoch).IsInt⟩]
  | _ => [rejected]

def entry : Json → List Reading
  | .object obj =>
    [caughtField obj "grain_id" grainId, caughtField obj "silo" silo,
      caughtField obj "activation_epoch" caughtInt]
  | _ => [rejected]

def arc : Json → List Reading
  | .object obj => [uncaughtField obj "start" uncaughtInt, uncaughtField obj "end" uncaughtInt]
  | _ => []

def listOf (readings : Json → List Reading) : Json → List Reading
  | .array items => [eachOf readings items]
  | _ => [rejected]

def vote : Json → List Reading
  | .object obj => [caughtField obj "suspecting_silo" text, caughtField obj "timestamp" caughtFloat]
  | _ => [rejected]

def votes (suspicions : Json) : List Reading :=
  match iterate suspicions with
  | .ok items => [eachOf vote items]
  | .error _ => [rejected]

def status (value : Json) : List Reading :=
  [⟨False, ∃ s, value = .string s ∧ (SiloStatus.ofValue s).isSome⟩]

def rowStart (obj : List (String × Json)) : List Reading :=
  [caughtField obj "host" text, caughtField obj "port" caughtInt, caughtField obj "epoch" caughtInt,
    caughtField obj "status" status] ++ votes ((obj.lookup "suspicions").getD (.array []))

def row : Json → List Reading
  | .object obj => rowStart obj ++
    ([caughtField obj "last_heartbeat" caughtFloat, caughtField obj "start_time" caughtFloat,
      optionalField obj "gateway_port" caughtInt] ++
    caughtInt ((obj.lookup "version").getD (.int 0)) ++
    caughtFloat ((obj.lookup "i_am_alive").getD (.float (.finite 0))))
  | _ => [rejected]

section

variable (obj : List (String × Json))

/-- What each decoder reads of the parsed body, in its order. -/
def registerReadings : List Reading :=
  [uncaughtField obj "grain_id" grainId, uncaughtField obj "silo" silo]

def lookupReadings : List Reading := [uncaughtField obj "grain_id" grainId]

def resolveReadings : List Reading :=
  [uncaughtField obj "grain_id" grainId, uncaughtField obj "placement_class" text,
    optionalField obj "caller" silo]

def entryReadings : List Reading := [optionalField obj "entry" entry]

def handoffReadings : List Reading := [uncaughtField obj "entry" entry]

def deactivateReadings : List Reading :=
  [uncaughtField obj "grain_id" grainId, uncaughtField obj "activation_epoch" uncaughtInt]

def rebuildQueryReadings : List Reading := listOf arc ((obj.lookup "arcs").getD (.array []))

def rebuildResponseReadings : List Reading := listOf entry ((obj.lookup "entries").getD (.array []))

def snapshotReadings : List Reading :=
  [caughtField obj "version" caughtInt, caughtField obj "silos" (listOf row)]

/-- The schema version, the fields that every call has, and the two numbers. -/
def requestReadings : List Reading :=
  [⟨False, ((obj.lookup "v").getD .null).equalsInt GRAIN_CALL_SCHEMA_VERSION = true⟩,
    caughtField obj "grain_type" text, caughtField obj "grain_key" text,
    caughtField obj "method" text,
    ⟨False, ((obj.lookup "args").getD (.array [])).IsArray ∧
    ((obj.lookup "kwargs").getD (.object [])).IsObject⟩] ++
  uncaughtInt ((obj.lookup "call_id").getD (.int 0)) ++ [optionalField obj "deadline" uncaughtFloat]

end

variable [PythonRepr]

section

variable {bad : PyException → Prop} (hvalue : ∀ text, ¬ bad (.valueError text))

include hvalue

omit [PythonRepr] [IntDigitLimit] in
theorem follows_rejected {α : Type} (text : String) :
    Follows bad (.error (.valueError text) : Except PyException α) [rejected] :=
  follows_error (iff_of_false (hvalue text) id) id

omit [IntDigitLimit] in
theorem follows_grainId (j : Json) : Follows bad (grainIdFromDict j) (grainId j) := by
  cases j with
  | object obj =>
    refine Follows.mapError ?_
    have hkey : ∀ key, ¬ bad
      ((PyException.keyError key).rewrap "grain_id fields" PyException.isKeyOrTypeError) :=
      fun _ ↦ hvalue _
    exact (follows_caughtKey (hkey _)).bind fun _ ↦
      (follows_caughtKey (hkey _)).bind fun _ ↦ follows_ok _ _
  | _ => exact follows_rejected hvalue _

theorem follows_intText (s : String) :
    Follows bad (toInt (.string s)) [⟨False, (Json.string s).IsInt⟩] := by
  simp only [toInt, IsInt]
  cases Numerals.parseInt s with
  | none => exact follows_error (iff_of_false (hvalue _) id) fun h ↦ Bool.false_ne_true h.1
  | some n =>
    dsimp only
    split_ifs with hexceeded
    · exact follows_error (iff_of_false (hvalue _) id) fun h ↦ h.2 hexceeded
    · exact follows_value _ id ⟨Option.isSome_some (a := n), hexceeded⟩

theorem follows_silo (j : Json) : Follows bad (siloFromStr j) (silo j) := by
  cases j with
  | string s =>
    simp only [siloFromStr, fromSiloId, silo]
    cases rsplitColons s with
    | none => exact follows_rejected hvalue _
    | some parts =>
      refine Follows.mapError ?_
      have hvalue' : ∀ text, ¬ bad ((PyException.valueError text).rewrap
          s!"invalid silo id {PythonRepr.reprText (.string s)}" PyException.isValueError) :=
            fun _ ↦ hvalue _
      exact (follows_intText hvalue' _).bind fun _ ↦
        (follows_intText hvalue' _).bind fun _ ↦ follows_ok _ _
  | _ => exact follows_rejected hvalue _

end

theorem follows_entry (j : Json) : Follows Escapes (entryFromDict j) (entry j) := by
  have hvalue := not_overflows_valueError
  cases j with
  | object obj =>
    refine Follows.mapError (Follows.congr ?_ escapes_rewrap_keyTypeOrValue)
    exact (follows_caughtField (follows_grainId hvalue) (not_overflows_keyError _)).bind_bind
      fun _ ↦
      (follows_caughtField (follows_silo hvalue) (not_overflows_keyError _)).bind_bind fun _ ↦
      (follows_caughtField follows_caughtInt (not_overflows_keyError _)).bind_bind
        fun _ ↦ follows_ok _ _
  | _ => exact follows_rejected not_escapes_valueError _

theorem follows_arc (j : Json) : Follows Escapes (arcFromDict j) (arc j) := by
  cases j with
  | object obj =>
    exact (follows_uncaughtField follows_uncaughtInt (escapes_keyError _)).bind_bind fun _ ↦
      (follows_uncaughtField follows_uncaughtInt (escapes_keyError _)).bind_bind
        fun _ ↦ follows_ok _ _
  | _ => exact follows_ok _ _

omit [PythonRepr] [IntDigitLimit] in
theorem follows_listOf {α : Type} {bad : PyException → Prop}
    (hvalue : ∀ text, ¬ bad (.valueError text)) {fromDict : Json → Except PyException α}
    {readings : Json → List Reading} (h : ∀ j, Follows bad (fromDict j) (readings j)) {β : Type}
    (finish : List α → β) (otherwise : String) (j : Json) :
    Follows bad (match j with
      | .array items => do .ok (finish (← items.mapM fromDict))
      | _ => .error (.valueError otherwise)) (listOf readings j) := by
  cases j with
  | array items => exact (Follows.mapM h items).bind fun _ ↦ follows_ok _ _
  | _ => exact follows_rejected hvalue _

omit [PythonRepr] [IntDigitLimit] in
theorem follows_typeError {α : Type} (text : String) :
    Follows Overflows (.error (.typeError text) : Except PyException α) [rejected] :=
  follows_error (iff_of_false nofun id) id

omit [IntDigitLimit] in
theorem follows_vote (j : Json) : Follows Overflows (voteFromJson j) (vote j) := by
  have hkey := not_overflows_keyError
  cases j with
  | object obj =>
    exact (follows_caughtKey (hkey _)).bind fun _ ↦
      (follows_caughtField follows_caughtFloat (hkey _)).bind_bind fun _ ↦ follows_ok _ _
  | _ => exact follows_typeError _

omit [IntDigitLimit] in
theorem follows_votes (suspicions : Json) :
    Follows Overflows (iterate suspicions >>= fun items ↦ items.mapM voteFromJson)
      (votes suspicions) := by
  cases suspicions with
  | array items => exact Follows.mapM follows_vote _
  | object fields => exact Follows.mapM follows_vote _
  | string s => exact Follows.mapM follows_vote _
  | _ => exact follows_typeError _

omit [IntDigitLimit] in
theorem follows_status (value : Json) : Follows Overflows (siloStatus value) (status value) := by
  have hnone : ∀ {value : Json}, (∀ s, value = .string s → SiloStatus.ofValue s = none) →
      ¬ ∃ s, value = .string s ∧ (SiloStatus.ofValue s).isSome := by
    rintro value h ⟨s, hs, hsome⟩
    rw [h s hs] at hsome
    cases hsome
  cases value with
  | string s =>
    simp only [siloStatus, status]
    cases hs : SiloStatus.ofValue s with
    | some found => exact follows_value _ id ⟨s, rfl, by rw [hs]; rfl⟩
    | none => exact follows_error (iff_of_false nofun id) (hnone fun s' h ↦ by cases h; exact hs)
  | _ => exact follows_error (iff_of_false nofun id) (hnone nofun)

theorem follows_rowStart (obj : List (String × Json)) :
    Follows Overflows (siloFields obj) (rowStart obj) := by
  have hkey := not_overflows_keyError
  rw [← List.append_nil (rowStart obj), rowStart, List.append_assoc]
  exact (follows_caughtKey (hkey _)).bind fun _ ↦
    (follows_caughtField follows_caughtInt (hkey _)).bind_bind fun _ ↦
    (follows_caughtField follows_caughtInt (hkey _)).bind_bind fun _ ↦
    (follows_caughtField follows_status (hkey _)).bind_bind fun _ ↦
    (follows_votes _).bind_bind fun _ ↦ follows_ok _ _

omit [IntDigitLimit] in
theorem overflows_rewrap_caught (what : String) (e : PyException) :
    Overflows (e.rewrap what PyException.isKeyTypeOrValueError) ↔ Overflows e :=
  overflows_rewrap _ (fun _ ↦ rfl) e

theorem follows_row (j : Json) : Follows Overflows (siloFromJson j) (row j) := by
  have hkey := not_overflows_keyError
  cases j with
  | object obj =>
    exact (Follows.mapError (Follows.congr (follows_rowStart obj) (overflows_rewrap_caught _))).bind
      fun _ ↦
      (follows_caughtField follows_caughtFloat (hkey _)).bind_bind fun _ ↦
      (follows_caughtField follows_caughtFloat (hkey _)).bind_bind fun _ ↦
      (follows_optionalField follows_caughtInt).bind fun _ ↦
      (follows_caughtInt _).bind fun _ ↦ (follows_caughtFloat _).bind fun _ ↦ follows_ok _ _
  | _ => exact follows_rejected not_overflows_valueError _

theorem follows_snapshot (obj : List (String × Json)) :
    Follows Escapes
      ((snapshotFields obj).mapError
        (PyException.rewrap "malformed snapshot" PyException.isKeyTypeOrValueError))
      (snapshotReadings obj) := by
  have hkey := not_overflows_keyError
  refine Follows.mapError (Follows.congr ?_ escapes_rewrap_keyTypeOrValue)
  refine (follows_caughtField follows_caughtInt (hkey _)).bind_bind fun version ↦ ?_
  exact follows_caughtField (follows_listOf not_overflows_valueError follows_row _ _) (hkey _)

omit [IntDigitLimit] in
theorem follows_requestFields (obj : List (String × Json)) :
    Follows Overflows (requestFields obj)
      [caughtField obj "grain_type" text, caughtField obj "grain_key" text,
      caughtField obj "method" text,
      ⟨False, ((obj.lookup "args").getD (.array [])).IsArray ∧
      ((obj.lookup "kwargs").getD (.object [])).IsObject⟩] := by
  have hkey := not_overflows_keyError
  refine (follows_caughtKey (hkey _)).bind fun _ ↦ (follows_caughtKey (hkey _)).bind fun _ ↦
    (follows_caughtKey (hkey _)).bind fun _ ↦ ?_
  generalize (obj.lookup "args").getD (.array []) = args
  generalize (obj.lookup "kwargs").getD (.object []) = kwargs
  cases args with
  | array args =>
    cases kwargs with
    | object kwargs => exact follows_value _ id ⟨trivial, trivial⟩
    | _ => exact follows_error (iff_of_false nofun id) fun h ↦ h.2
  | _ => exact follows_error (iff_of_false nofun id) fun h ↦ h.1

theorem follows_requestFromObject (obj : List (String × Json)) :
    Follows Escapes (requestFromObject obj) (requestReadings obj) :=
  Follows.guard (not_escapes_valueError _)
    ((Follows.mapError (Follows.congr (follows_requestFields obj) escapes_rewrap_keyOrType)).bind
      fun _ ↦
      (follows_uncaughtInt _).bind fun _ ↦
        (follows_optionalField follows_uncaughtFloat).bind fun _ ↦ follows_ok _ _)

section

variable {Bytes : Type} (c : JsonCodec Bytes) (data : Bytes)

/-- The body is read to its end or to a step that rejects it, if it is an object at all. -/
def ReadInOrder (readings : List (String × Json) → List Reading) : Prop :=
  ∀ obj, c.loads data = .ok (.object obj) → ¬ FirstWrong (readings obj)

omit [PythonRepr] [IntDigitLimit] in
theorem failsOnlyAsValueError_iff {α : Type} {x : Except PyException α} :
    FailsOnlyAsValueError x ↔ ¬ Raises Escapes x := by
  simp only [FailsOnlyAsValueError, Raises, Escapes, not_exists, not_and, Bool.not_eq_false]

variable {c data}

omit [PythonRepr] [IntDigitLimit] in
theorem failsOnlyAsValueError_load {α : Type} {what otherwise : String}
    {f : List (String × Json) → Except PyException α}
    {readings : List (String × Json) → List Reading}
    (h : ∀ obj, Follows Escapes (f obj) (readings obj)) :
    FailsOnlyAsValueError (c.loadObject what otherwise data >>= f) ↔
      ReadInOrder c data readings := by
  rw [failsOnlyAsValueError_iff, raises_loadObject, ReadInOrder]
  simp only [(h _).raises, not_exists, not_and]

omit [IntDigitLimit] in
theorem follows_grainIdField (obj : List (String × Json)) :
    Follows Escapes (getItem obj "grain_id" >>= grainIdFromDict)
      [uncaughtField obj "grain_id" grainId] :=
  follows_uncaughtField (follows_grainId not_escapes_valueError) (escapes_keyError _)

theorem follows_siloField (obj : List (String × Json)) :
    Follows Escapes (getItem obj "silo" >>= siloFromStr) [uncaughtField obj "silo" silo] :=
  follows_uncaughtField (follows_silo not_escapes_valueError) (escapes_keyError _)

theorem decodeRegister_iff :
    FailsOnlyAsValueError (decodeRegister c data) ↔ ReadInOrder c data registerReadings :=
  failsOnlyAsValueError_load fun obj ↦ (follows_grainIdField obj).bind_bind fun _ ↦
    (follows_siloField obj).bind_bind fun _ ↦ follows_ok _ _

omit [IntDigitLimit] in
theorem decodeLookup_iff :
    FailsOnlyAsValueError (decodeLookup c data) ↔ ReadInOrder c data lookupReadings :=
  failsOnlyAsValueError_load fun obj ↦ (follows_grainIdField obj).bind_bind fun _ ↦ follows_ok _ _

theorem decodeUnregister_iff : FailsOnlyAsValueError (decodeUnregister c data) ↔
    ReadInOrder c data registerReadings :=
  failsOnlyAsValueError_load fun obj ↦ (follows_grainIdField obj).bind_bind fun _ ↦
    (follows_siloField obj).bind_bind fun _ ↦ follows_ok _ _

theorem decodeResolve_iff :
    FailsOnlyAsValueError (decodeResolve c data) ↔ ReadInOrder c data resolveReadings :=
  failsOnlyAsValueError_load fun obj ↦ (follows_grainIdField obj).bind_bind fun _ ↦
    (follows_uncaughtKey (escapes_keyError _)).bind fun _ ↦
    (follows_optionalField (follows_silo not_escapes_valueError)).bind fun _ ↦ follows_ok _ _

theorem decodeEntry_iff :
    FailsOnlyAsValueError (decodeEntry c data) ↔ ReadInOrder c data entryReadings :=
  failsOnlyAsValueError_load fun _ ↦ follows_optionalField follows_entry

omit [PythonRepr] [IntDigitLimit] in
theorem decodeNone_fails : FailsOnlyAsValueError (decodeNone c data) := by
  refine (failsOnlyAsValueError_load fun _ ↦
    Follows.guard (not_escapes_valueError _) (follows_ok _ ())).mpr ?_
  intro obj _ h
  rcases h with h | ⟨-, h⟩
  · exact h
  · exact h

theorem decodeHandoff_iff :
    FailsOnlyAsValueError (decodeHandoff c data) ↔ ReadInOrder c data handoffReadings :=
  failsOnlyAsValueError_load fun _ ↦
    (follows_uncaughtField follows_entry (escapes_keyError _)).bind_bind fun _ ↦
    follows_ok _ _

theorem decodeDeactivate_iff :
    FailsOnlyAsValueError (decodeDeactivate c data) ↔ ReadInOrder c data deactivateReadings :=
  failsOnlyAsValueError_load fun obj ↦ (follows_grainIdField obj).bind_bind fun _ ↦
    (follows_uncaughtField follows_uncaughtInt (escapes_keyError _)).bind_bind
      fun _ ↦ follows_ok _ _

theorem decodeRebuildQuery_iff :
    FailsOnlyAsValueError (decodeRebuildQuery c data) ↔ ReadInOrder c data rebuildQueryReadings :=
  failsOnlyAsValueError_load fun _ ↦ follows_listOf not_escapes_valueError follows_arc _ _ _

theorem decodeRebuildResponse_iff :
    FailsOnlyAsValueError (decodeRebuildResponse c data) ↔
      ReadInOrder c data rebuildResponseReadings :=
  failsOnlyAsValueError_load fun _ ↦ follows_listOf not_escapes_valueError follows_entry _ _ _

theorem decodeSnapshot_iff :
    FailsOnlyAsValueError (decodeSnapshot c data) ↔ ReadInOrder c data snapshotReadings :=
  failsOnlyAsValueError_load follows_snapshot

theorem decodeRequest_iff :
    FailsOnlyAsValueError (decodeRequest c data) ↔ ReadInOrder c data requestReadings :=
  failsOnlyAsValueError_load follows_requestFromObject

end

/-- Each decoder returns or raises a `ValueError` exactly on the bytes that it
reads in order: no step goes wrong before another one rejects the body. -/
theorem decoders_fail_only_as_valueError_iff {Bytes : Type} (c : JsonCodec Bytes) (data : Bytes) :
    (FailsOnlyAsValueError (decodeRegister c data) ↔ ReadInOrder c data registerReadings) ∧
    (FailsOnlyAsValueError (decodeLookup c data) ↔ ReadInOrder c data lookupReadings) ∧
    (FailsOnlyAsValueError (decodeUnregister c data) ↔ ReadInOrder c data registerReadings) ∧
    (FailsOnlyAsValueError (decodeResolve c data) ↔ ReadInOrder c data resolveReadings) ∧
    (FailsOnlyAsValueError (decodeEntry c data) ↔ ReadInOrder c data entryReadings) ∧
    FailsOnlyAsValueError (decodeNone c data) ∧
    (FailsOnlyAsValueError (decodeHandoff c data) ↔ ReadInOrder c data handoffReadings) ∧
    (FailsOnlyAsValueError (decodeDeactivate c data) ↔ ReadInOrder c data deactivateReadings) ∧
    (FailsOnlyAsValueError (decodeRebuildQuery c data) ↔ ReadInOrder c data rebuildQueryReadings) ∧
    (FailsOnlyAsValueError (decodeRebuildResponse c data) ↔
      ReadInOrder c data rebuildResponseReadings) ∧
    (FailsOnlyAsValueError (decodeSnapshot c data) ↔ ReadInOrder c data snapshotReadings) ∧
    (FailsOnlyAsValueError (decodeRequest c data) ↔ ReadInOrder c data requestReadings) :=
  ⟨decodeRegister_iff, decodeLookup_iff, decodeUnregister_iff, decodeResolve_iff, decodeEntry_iff,
    decodeNone_fails,
    decodeHandoff_iff, decodeDeactivate_iff, decodeRebuildQuery_iff, decodeRebuildResponse_iff,
      decodeSnapshot_iff,
    decodeRequest_iff⟩

omit [PythonRepr] [IntDigitLimit] in
/-- A missing key, a `null` for a number, a number out of range and a list for a number. -/
theorem decoders_leak :
    ¬ FailsOnlyAsValueError
      (@decodeRegister Json.plainRepr .initial Json .transparent (.object [])) ∧
    ¬ FailsOnlyAsValueError (@decodeDeactivate Json.plainRepr .initial Json .transparent
      (.object [("grain_id", grainIdToDict counter1), ("activation_epoch", .null)])) ∧
    ¬ FailsOnlyAsValueError (@decodeSnapshot Json.plainRepr .initial Json .transparent
      (.object [("version", .float (.infinity false)), ("silos", .array [])])) ∧
    ¬ FailsOnlyAsValueError
      (@decodeRequest Json .transparent Json.plainRepr .initial (.object [("v", .int 1),
      ("grain_type", .string "Counter"), ("grain_key", .string "c1"), ("method", .string "get"),
      ("call_id", .array [])])) := by
  refine ⟨fun h ↦ ?_, fun h ↦ ?_, fun h ↦ ?_, fun h ↦ ?_⟩
  · exact Bool.false_ne_true (h (.keyError "grain_id") rfl)
  · exact Bool.false_ne_true (h (.typeError
      "int() argument must be a string, a bytes-like object or a real number, not 'NoneType'") rfl)
  · exact Bool.false_ne_true (h (.overflowError "cannot convert float infinity to integer") rfl)
  · exact Bool.false_ne_true (h (.typeError
      "int() argument must be a string, a bytes-like object or a real number, not 'list'") rfl)

end Pyleans.InboundDecoders
