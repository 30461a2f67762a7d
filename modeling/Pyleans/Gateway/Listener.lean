import Pyleans.Gateway.Protocol
import Pyleans.Library.Json
import Pyleans.Library.Utf8

namespace Pyleans.Gateway

open Library Fallible

/-- What is written as JSON: the result of a call, or a reply. -/
inductive Document (Value : Type)
  | result (value : Value)
  | success (value : Value)
  | failure (text : String)

/-- An exception that a handler sees. Its text is missing when `str` of it fails or
cannot be written as UTF-8. -/
structure CallError where
  isPyleansError : Bool
  typeName : String
  text : Option String
deriving DecidableEq

structure GrainCall where
  grainType : Json
  key : Json
  method : Json
  args : Json
  kwargs : Json

/-- The exceptions that come out of `_dispatch`. -/
inductive DispatchError
  | protocol (e : ProtocolError)
  | payload (e : PyException)

def escapeChar (c : Char) : List UInt8 :=
  if c = '"' then [92, 34]
  else if c = '\\' then [92, 92]
  else if c = '\n' then [92, 110]
  else if c = '\r' then [92, 114]
  else if c = '\t' then [92, 116]
  else if c.toNat = 8 then [92, 98]
  else if c.toNat = 12 then [92, 102]
  else if c.toNat < 32 then [92, 117, 48, 48] ++ ((Nat.toDigits 16 (256 + c.toNat)).drop 1).map
    fun d ↦ UInt8.ofNat d.toNat
  else Utf8.encode (String.singleton c)

def failureBody (text : String) : List UInt8 :=
  [123, 34, 111, 107, 34, 58, 102, 97, 108, 115, 101, 44, 34, 101, 114, 114, 111,
    114, 34, 58, 34] ++
    text.toList.flatMap escapeChar ++ [34, 125]

/-- What the listener relies on: a reply with a text is always written, what is
written is JSON, and the text of a `JSONDecodeError` is short. -/
structure Orjson.Documented {Value : Type} (orjson : Orjson (Document Value) Json) : Prop where
  failure : ∀ text, orjson.dumps (.failure text) = .ok (failureBody text)
  valid : ∀ document body, orjson.dumps document = .ok body → ∃ payload,
    orjson.loads body = .ok payload
  short : ∀ body text, orjson.loads body = .error text → text.length ≤ 1000

def subscript (payload : Json) (key : String) : Except PyException Json :=
  match payload with
  | .object fields => Json.getItem fields key
  | .array _ => .error (.typeError "list indices must be integers or slices, not str")
  | .string _ => .error (.typeError "string indices must be integers, not 'str'")
  | j => .error (.typeError s!"'{j.typeName}' object is not subscriptable")

/-- `payload.get(key, default)`, behind a subscript that has succeeded. -/
def getOr (payload : Json) (key : String) (default : Json) : Json :=
  match payload with
  | .object fields => (fields.lookup key).getD default
  | _ => default

def readCall (payload : Json) : Except PyException GrainCall := do
  let grainType ← subscript payload "grain_type"
  let key ← subscript payload "key"
  let method ← subscript payload "method"
  .ok ⟨grainType, key, method, getOr payload "args" (.array []),
    getOr payload "kwargs" (.object [])⟩

/-- An exception of `encode_frame` in the eyes of the handlers: `orjson.JSONEncodeError` is
`TypeError` under another name. -/
def protocolError : ProtocolError → CallError
  | .transportError text => ⟨true, "TransportError", some text⟩
  | .jsonEncodeError text => ⟨false, "TypeError", text⟩
  | .structError => ⟨false, "error", some "int too large to convert"⟩
  | .incompleteReadError _ => ⟨false, "IncompleteReadError", none⟩

section

variable {Value : Type} (orjson : Orjson (Document Value) Json) (isPrimitive : Value → Bool)
  (invoke : GrainCall → Except CallError Value)

def serializeResult (result : Value) : Except ProtocolError Value :=
  if isPrimitive result then .ok result
  else (orjson.dumps (.result result)).mapError .jsonEncodeError |>.map fun _ ↦ result

def answerCall (correlationId : ℕ) (call : GrainCall) : Except CallError (List UInt8) := do
  let result ← invoke call
  let result ← (serializeResult orjson isPrimitive result).mapError protocolError
  (encodeFrame orjson .response correlationId (.success result)).mapError protocolError

def failureFrame (correlationId : ℕ) (text : Option String) : Except DispatchError (List UInt8) :=
  match text with
  | none => .error (.protocol (.jsonEncodeError none))
  | some text => (encodeFrame orjson .response correlationId (.failure text)).mapError .protocol

def failureText (e : CallError) : Option String :=
  if e.isPyleansError then e.text else e.text.map fun text ↦
    s!"Internal error: {e.typeName}: {text}"

def dispatch (frameData : List UInt8) : Except DispatchError (List UInt8) :=
  match decodeFrame orjson frameData with
  | .error (.transportError text) => failureFrame orjson 0 (some text)
  | .error e => .error (.protocol e)
  | .ok (msgType, correlationId, payload) =>
    if msgType ≠ .request then failureFrame orjson correlationId
      (some s!"Expected REQUEST, got {msgType.name}")
    else
      match readCall payload with
      | .error (.keyError key) =>
        failureFrame orjson correlationId (some s!"Missing required field: '{key}'")
      | .error e => .error (.payload e)
      | .ok call =>
        match answerCall orjson isPrimitive invoke correlationId call with
        | .ok frame => .ok frame
        | .error e => failureFrame orjson correlationId (failureText e)

def replyId (frameData : List UInt8) : ℕ :=
  match decodeFrame orjson frameData with
  | .ok (_, correlationId, _) => correlationId
  | .error _ => 0

def Answers (outcome : Except DispatchError (List UInt8)) (correlationId : ℕ) : Prop :=
  ∃ frame payload, outcome = .ok frame ∧
    decodeFrame orjson frame = .ok (.response, correlationId, payload) ∧
    ∀ (reader : FrameReader) (rest : List UInt8), reader.remaining = frame ++ rest →
      ∃ reader', readFrame reader = .ok (frame, reader') ∧ reader'.remaining = rest

end

def FitsFrame (text : String) : Prop := MIN_FRAME_SIZE + (failureBody text).length ≤ MAX_FRAME_SIZE

instance (text : String) : Decidable (FitsFrame text) := inferInstanceAs (Decidable (_ ≤ _))

/-- A request holds a JSON object, and what its call fails with can be told in a frame. -/
def CanAnswer {Value : Type} (orjson : Orjson (Document Value) Json) (isPrimitive : Value → Bool)
    (invoke : GrainCall → Except CallError Value) (frameData : List UInt8) : Prop :=
  ∀ correlationId payload, decodeFrame orjson frameData = .ok (.request, correlationId, payload) →
    (∃ fields, payload = .object fields) ∧
      ∀ call e, readCall payload = .ok call →
        answerCall orjson isPrimitive invoke correlationId call = .error e →
        ∃ text, failureText e = some text ∧ FitsFrame text

section

variable {Value : Type} {orjson : Orjson (Document Value) Json} {isPrimitive : Value → Bool}
  {invoke : GrainCall → Except CallError Value} {frameData frame : List UInt8} {correlationId : ℕ}
    {payload : Json}

theorem length_escapeChar (c : Char) : (escapeChar c).length ≤ 6 := by
  unfold escapeChar
  split_ifs with _ _ _ _ _ _ _ hcontrol
  · decide
  · decide
  · decide
  · decide
  · decide
  · decide
  · decide
  · have hdigits := Nat.toDigits_length 16 (256 + c.toNat) 3 (by decide) (by omega)
    simp only [List.length_append, List.length_map, List.length_drop, List.length_cons,
      List.length_nil]
    omega
  · have hsize := c.utf8Size_le_four
    rw [Utf8.length_encode, String.utf8ByteSize_singleton]
    omega

theorem length_failureBody (text : String) : (failureBody text).length ≤ 23 + 6 * text.length := by
  have hchars : ∀ cs : List Char, (cs.flatMap escapeChar).length ≤ 6 * cs.length := by
    intro cs
    induction cs with
    | nil => exact le_rfl
    | cons c cs ih =>
      have hc := length_escapeChar c
      rw [List.flatMap_cons, List.length_append, List.length_cons]
      omega
  have htext := hchars text.toList
  rw [String.length_toList] at htext
  simp only [failureBody, List.length_append, List.length_cons, List.length_nil]
  omega

theorem fitsFrame_of_length {text : String} (h : text.length ≤ 2000) : FitsFrame text := by
  have hbody := length_failureBody text
  rw [FitsFrame, MIN_FRAME_SIZE, MAX_FRAME_SIZE]
  omega

theorem answers_of_encodeFrame (hdoc : orjson.Documented) (hid : correlationId ≤ UINT64_MAX)
    {document : Document Value}
    (h : encodeFrame orjson .response correlationId document = .ok frame) : Answers orjson
      (.ok frame) correlationId := by
  obtain ⟨body, hdumps, hsize, -, rfl⟩ := encodeFrame_eq_ok.mp h
  rw [Int.toNat_natCast]
  obtain ⟨payload, hloads⟩ := hdoc.valid document body hdumps
  refine ⟨_, payload, rfl, ?_, fun reader rest hr ↦ readFrame_frameOf hsize hr⟩
  rw [decodeFrame_frameOf hid, hloads]

theorem answers_failureFrame (hdoc : orjson.Documented) (hid : correlationId ≤ UINT64_MAX)
    (text : Option String) :
    Answers orjson (failureFrame orjson correlationId text) correlationId ↔ ∃ t, text = some t ∧
      FitsFrame t := by
  cases text with
  | none => exact iff_of_false (fun ⟨_, _, h, _⟩ ↦ nomatch h) fun ⟨_, h, _⟩ ↦ nomatch h
  | some t =>
    have hdumps := hdoc.failure t
    constructor
    · rintro ⟨frame, payload, h, -⟩
      refine ⟨t, rfl, ?_⟩
      simp only [failureFrame] at h
      cases hframe : encodeFrame orjson .response correlationId (.failure t) with
      | error e =>
        rw [hframe] at h
        cases h
      | ok frame' =>
        obtain ⟨body, hbody, hsize, -⟩ := encodeFrame_eq_ok.mp hframe
        obtain rfl := Except.ok.inj (hdumps.symm.trans hbody)
        exact hsize
    · rintro ⟨t', h, hfits⟩
      obtain rfl := Option.some.inj h
      have hframe : encodeFrame orjson .response correlationId (.failure t) = .ok _ :=
        encodeFrame_eq_ok.mpr ⟨failureBody t, hdumps, hfits, ⟨by omega, by omega⟩, rfl⟩
      simp only [failureFrame, hframe]
      exact answers_of_encodeFrame hdoc hid hframe

theorem length_hexText {n : ℤ} (h : n.natAbs < 256) : (hexText n).length ≤ 5 := by
  have hdigits := Nat.toDigits_length 16 n.natAbs 2 (by decide) h
  rw [hexText, String.length_append, String.length_ofList]
  split_ifs
  · have hsign : "-0x".length = 3 := rfl
    omega
  · have hsign : "0x".length = 2 := rfl
    omega

theorem decodeFrame_error (hdoc : orjson.Documented) {e : ProtocolError}
    (h : decodeFrame orjson frameData = .error e) :
    ∃ text, e = .transportError text ∧ FitsFrame text := by
  unfold decodeFrame at h
  split_ifs at h with hshort
  · obtain rfl := Except.error.inj h
    refine ⟨_, rfl, fitsFrame_of_length ?_⟩
    have hdigits := Nat.repr_length frameData.length 2 (by decide) (hshort.trans (by decide))
    have htext : (toString "Frame too short: " ++ toString frameData.length ++
      toString " bytes").length =
        17 + (Nat.repr frameData.length).length + 6 := by
      rw [String.length_append, String.length_append]
      rfl
    exact htext.trans_le (by omega)
  · dsimp only at h
    split at h
    · obtain rfl := Except.error.inj h
      refine ⟨_, rfl, fitsFrame_of_length ?_⟩
      generalize hbyte : BigEndian.unpack ((frameData.drop FRAME_PREFIX_SIZE).take 1) = byte
      have hlt : byte < 256 := by
        have hbound := BigEndian.unpack_lt ((frameData.drop FRAME_PREFIX_SIZE).take 1)
        have hlength : ((frameData.drop FRAME_PREFIX_SIZE).take 1).length ≤ 1 :=
          List.length_take_le 1 _
        have hpow := Nat.pow_le_pow_right (by decide : 0 < 256) hlength
        omega
      have hsigned : (signedByte byte).natAbs < 256 := by
        unfold signedByte
        split_ifs <;> omega
      have hhex := length_hexText hsigned
      have htext : (toString "Unknown message type: " ++
        toString (hexText (signedByte byte))).length =
          22 + (hexText (signedByte byte)).length := by
        rw [String.length_append]
        rfl
      exact htext.trans_le (by omega)
    · split at h
      · next text hloads =>
        obtain rfl := Except.error.inj h
        refine ⟨_, rfl, fitsFrame_of_length ?_⟩
        have hlength := hdoc.short _ _ hloads
        have htext : (toString "Invalid JSON payload: " ++ toString text).length = 22 +
          text.length := by
          rw [String.length_append]
          rfl
        exact htext.trans_le (by omega)
      · cases h

theorem decodeFrame_id {msgType : MessageType}
    (h : decodeFrame orjson frameData = .ok (msgType, correlationId, payload)) :
    correlationId ≤ UINT64_MAX := by
  unfold decodeFrame at h
  split_ifs at h
  dsimp only at h
  split at h
  · cases h
  · split at h
    · cases h
    · obtain ⟨-, hid⟩ := Prod.mk.inj (Except.ok.inj h)
      obtain ⟨rfl, -⟩ := Prod.mk.inj hid
      have hbound := BigEndian.unpack_lt ((frameData.drop (FRAME_PREFIX_SIZE + 1)).take 8)
      have hlength : ((frameData.drop (FRAME_PREFIX_SIZE + 1)).take 8).length ≤ 8 :=
        List.length_take_le 8 _
      have hpow := Nat.pow_le_pow_right (by decide : 0 < 256) hlength
      have hmax : UINT64_MAX + 1 = 256 ^ 8 := rfl
      omega

theorem subscript_object (fields : List (String × Json)) (key : String) :
    (∃ j, subscript (.object fields) key = .ok j) ∨
      subscript (.object fields) key = .error (.keyError key) := by
  rw [subscript, Json.getItem]
  cases fields.lookup key with
  | none => exact .inr rfl
  | some j => exact .inl ⟨j, rfl⟩

theorem readCall_object (fields : List (String × Json)) :
    (∃ call, readCall (.object fields) = .ok call) ∨
    ∃ key, readCall (.object fields) = .error (.keyError key) ∧
      FitsFrame s!"Missing required field: '{key}'" := by
  unfold readCall
  rcases subscript_object fields "grain_type" with ⟨grainType, htype⟩ | htype
  · rw [htype, ok_bind]
    rcases subscript_object fields "key" with ⟨key, hkey⟩ | hkey
    · rw [hkey, ok_bind]
      rcases subscript_object fields "method" with ⟨method, hmethod⟩ | hmethod
      · rw [hmethod]
        exact .inl ⟨_, rfl⟩
      · rw [hmethod]
        exact .inr ⟨"method", rfl, fitsFrame_of_length (by decide)⟩
    · rw [hkey]
      exact .inr ⟨"key", rfl, fitsFrame_of_length (by decide)⟩
  · rw [htype]
    exact .inr ⟨"grain_type", rfl, fitsFrame_of_length (by decide)⟩

theorem readCall_noObject (h : ¬ ∃ fields, payload = .object fields) :
    ∃ text, readCall payload = .error (.typeError text) := by
  cases payload with
  | object fields => exact absurd ⟨fields, rfl⟩ h
  | _ => exact ⟨_, rfl⟩

theorem answers_answerCall (hdoc : orjson.Documented) (hid : correlationId ≤ UINT64_MAX)
    {call : GrainCall} (h : answerCall orjson isPrimitive invoke correlationId call = .ok frame) :
    Answers orjson (.ok frame) correlationId := by
  obtain ⟨result, -, h⟩ := bind_eq_ok.mp h
  obtain ⟨result', -, h⟩ := bind_eq_ok.mp h
  cases hframe : encodeFrame orjson .response correlationId (.success result') with
  | error e =>
    rw [hframe] at h
    cases h
  | ok frame' =>
    rw [hframe] at h
    obtain rfl := Except.ok.inj h
    exact answers_of_encodeFrame hdoc hid hframe

end

/-- The listener answers just the frames that it can answer: a request whose
payload is no object escapes, and so does an error that cannot be told. -/
theorem gateway_answers_iff {Value : Type} (orjson : Orjson (Document Value) Json)
    (hdoc : orjson.Documented) (isPrimitive : Value → Bool)
    (invoke : GrainCall → Except CallError Value) (frameData : List UInt8) :
    Answers orjson (dispatch orjson isPrimitive invoke frameData) (replyId orjson frameData) ↔
      CanAnswer orjson isPrimitive invoke frameData := by
  unfold dispatch replyId CanAnswer
  cases hframe : decodeFrame orjson frameData with
  | error e =>
    obtain ⟨text, rfl, hfits⟩ := decodeFrame_error hdoc hframe
    dsimp only
    exact iff_of_true ((answers_failureFrame hdoc (Nat.zero_le _) _).mpr ⟨text, rfl, hfits⟩)
      fun _ _ h ↦ nomatch h
  | ok message =>
    obtain ⟨msgType, correlationId, payload⟩ := message
    have hid := decodeFrame_id hframe
    dsimp only
    cases msgType with
    | response =>
      rw [if_pos (by decide)]
      refine iff_of_true ((answers_failureFrame hdoc hid _).mpr
        ⟨_, rfl, fitsFrame_of_length (by decide)⟩) fun _ _ h ↦ ?_
      cases h
    | request =>
      rw [if_neg (by decide)]
      by_cases hobject : ∃ fields, payload = .object fields
      · obtain ⟨fields, rfl⟩ := hobject
        rcases readCall_object fields with ⟨call, hcall⟩ | ⟨key, hkey, hfits⟩
        · rw [hcall]
          dsimp only
          cases hanswer : answerCall orjson isPrimitive invoke correlationId call with
          | ok frame =>
            refine iff_of_true (answers_answerCall hdoc hid hanswer) ?_
            rintro id payload h
            cases h
            refine ⟨⟨fields, rfl⟩, fun call' e hcall' he ↦ ?_⟩
            obtain rfl := Except.ok.inj (hcall.symm.trans hcall')
            rw [hanswer] at he
            cases he
          | error e =>
            dsimp only
            rw [answers_failureFrame hdoc hid]
            constructor
            · rintro ⟨text, htext, hfits⟩ id payload h
              cases h
              refine ⟨⟨fields, rfl⟩, fun call' e' hcall' he ↦ ?_⟩
              obtain rfl := Except.ok.inj (hcall.symm.trans hcall')
              obtain rfl := Except.error.inj (hanswer.symm.trans he)
              exact ⟨text, htext, hfits⟩
            · exact fun h ↦ (h correlationId _ rfl).2 call e hcall hanswer
        · rw [hkey]
          dsimp only
          refine iff_of_true ((answers_failureFrame hdoc hid _).mpr ⟨_, rfl, hfits⟩) ?_
          rintro id payload h
          cases h
          refine ⟨⟨fields, rfl⟩, fun call e hcall ↦ ?_⟩
          rw [hkey] at hcall
          cases hcall
      · obtain ⟨text, hread⟩ := readCall_noObject hobject
        rw [hread]
        refine iff_of_false (fun ⟨_, _, h, _⟩ ↦ nomatch h) fun h ↦ ?_
        exact hobject (h correlationId payload rfl).1

def requestBody : List UInt8 :=
  [123, 34, 103, 114, 97, 105, 110, 95, 116, 121, 112, 101, 34, 58, 34, 83, 119, 105, 116, 99, 104,
    34, 44, 34, 107, 101, 121, 34, 58, 34, 104, 97, 108, 108, 34, 44, 34, 109, 101, 116, 104, 111,
    100, 34, 58, 34, 105, 115, 95, 111, 110, 34, 125]

def requestFields : List (String × Json) :=
  [("grain_type", .string "Switch"), ("key", .string "hall"), ("method", .string "is_on")]

def switchJson : Orjson (Document Bool) Json where
  dumps
    | .result value => .ok (if value then [116, 114, 117, 101] else [102, 97, 108, 115, 101])
    | .success value => .ok
        ([123, 34, 111, 107, 34, 58, 116, 114, 117, 101, 44, 34, 114, 101, 115, 117,
          108, 116, 34, 58] ++
        (if value then [116, 114, 117, 101] else [102, 97, 108, 115, 101]) ++ [125])
    | .failure text => .ok (failureBody text)
  loads body :=
    if body = requestBody then .ok (.object requestFields)
    else if body = [91, 93] then .ok (.array [])
    else .ok (.object [("ok", .bool (decide (body.take 7 = [123, 34, 111, 107, 34, 58, 116])))])

theorem switchJson_documented : switchJson.Documented where
  failure _ := rfl
  valid _ body _ := by
    simp only [switchJson]
    split_ifs
    · exact ⟨_, rfl⟩
    · exact ⟨_, rfl⟩
    · exact ⟨_, rfl⟩
  short body text h := by
    simp only [switchJson] at h
    split_ifs at h

def requestFrame : List UInt8 := [0, 0, 0, 62, 1, 0, 0, 0, 0, 0, 0, 0, 7] ++ requestBody

theorem gateway_answers_iff_request :
    Answers switchJson (dispatch switchJson (fun _ ↦ true) (fun _ ↦ .ok true) requestFrame) 7 := by
  refine (gateway_answers_iff switchJson switchJson_documented (fun _ ↦ true)
    (fun _ ↦ .ok true) requestFrame).mpr ?_
  rintro correlationId payload h
  obtain ⟨rfl, rfl⟩ : 7 = correlationId ∧ .object requestFields = payload := by
    have hread : decodeFrame switchJson requestFrame = .ok (.request, 7, .object requestFields) :=
      rfl
    simpa [hread] using h
  refine ⟨⟨requestFields, rfl⟩, fun call e hcall he ↦ ?_⟩
  have hfine : answerCall switchJson (fun _ ↦ true) (fun _ ↦ .ok true) 7 call = .ok _ := rfl
  rw [hfine] at he
  cases he

/-- A request whose payload is an empty array has no field `grain_type` to miss. -/
def arrayFrame : List UInt8 := [0, 0, 0, 11, 1, 0, 0, 0, 0, 0, 0, 0, 7, 91, 93]

theorem arrayFrame_unanswered :
    ¬ ∀ (Value : Type) (orjson : Orjson (Document Value) Json), orjson.Documented →
      ∀ isPrimitive invoke frameData,
      Answers orjson (dispatch orjson isPrimitive invoke frameData) (replyId orjson frameData) := by
  intro h
  obtain ⟨frame, payload, hframe, -⟩ :=
    h Bool switchJson switchJson_documented (fun _ ↦ true) (fun _ ↦ .ok true) arrayFrame
  have hescapes : dispatch switchJson (fun _ ↦ true) (fun _ ↦ .ok true) arrayFrame =
      .error (.payload (.typeError "list indices must be integers or slices, not str")) := rfl
  rw [hescapes] at hframe
  cases hframe

end Pyleans.Gateway
