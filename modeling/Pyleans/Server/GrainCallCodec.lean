import Pyleans.Library.Json
import Pyleans.Server.Runtime

namespace Pyleans.GrainCallCodec

open Library Json Fallible

def GRAIN_CALL_SCHEMA_VERSION : ℤ := 1

/-- A `GrainCallRequest` whose values are JSON values, with whatever float came
over the wire for a deadline. -/
structure WireRequest where
  grainId : GrainId
  method : String
  args : List Json
  kwargs : List (String × Json)
  callerSilo : Option String
  callId : ℤ
  deadline : Option PyFloat

/-- The arguments are JSON values, those by name a dict of them. -/
structure WireRequest.WellFormed (req : WireRequest) : Prop where
  args : ∀ j ∈ req.args, j.WellFormed
  kwargs : (Json.object req.kwargs).WellFormed

def ofRequest (req : GrainCallRequest Json) : WireRequest where
  grainId := req.grainId
  method := req.method
  args := req.args
  kwargs := req.kwargs
  callerSilo := req.callerSilo
  callId := req.callId
  deadline := req.deadline.map .finite

variable {Bytes : Type} (c : JsonCodec Bytes)

def encodeRequest (req : WireRequest) : Bytes := c.dumps (.object [
  ("v", .int GRAIN_CALL_SCHEMA_VERSION),
  ("grain_type", .string req.grainId.grainType),
  ("grain_key", .string req.grainId.key),
  ("method", .string req.method),
  ("args", .array req.args),
  ("kwargs", .object req.kwargs),
  ("caller", ofOption .string req.callerSilo),
  ("call_id", .int req.callId),
  ("deadline", ofOption .float req.deadline)])

def encodeSuccess (result : Json) : Bytes :=
  c.dumps (.object [("ok", .bool true), ("result", result)])

def encodeFailure (exceptionType message : String) (remoteTraceback : Option String) : Bytes :=
  c.dumps (.object [
  ("ok", .bool false),
  ("exception_type", .string exceptionType),
  ("message", .string (takeChars MAX_EXCEPTION_MESSAGE_LEN message)),
  ("traceback", ofOption .string (remoteTraceback.map (takeChars MAX_TRACEBACK_LEN)))])

section

variable [PythonRepr] [IntDigitLimit]

def requestFields (obj : List (String × Json)) :
    Except PyException (GrainId × String × List Json × List (String × Json)) := do
  let grainType := toStr (← getItem obj "grain_type")
  let key := toStr (← getItem obj "grain_key")
  let method := toStr (← getItem obj "method")
  match (obj.lookup "args").getD (.array []), (obj.lookup "kwargs").getD (.object []) with
  | .array args, .object kwargs => .ok (⟨grainType, key⟩, method, args, kwargs)
  | .array _, _ => .error (.valueError "kwargs must be an object")
  | _, _ => .error (.valueError "args must be a list")

def requestFromObject (obj : List (String × Json)) : Except PyException WireRequest :=
  let version := (obj.lookup "v").getD .null
  if version.equalsInt GRAIN_CALL_SCHEMA_VERSION then do
    let (grainId, method, args, kwargs) ←
      (requestFields obj).mapError
        (PyException.rewrap "grain-call fields" PyException.isKeyOrTypeError)
    let callerSilo := (present obj "caller").map toStr
    let callId ← toInt ((obj.lookup "call_id").getD (.int 0))
    let deadline ← (present obj "deadline").mapM toFloat
    .ok ⟨grainId, method, args, kwargs, callerSilo, callId, deadline⟩
  else .error (.valueError s!"unsupported grain-call schema v{PythonRepr.reprText version}")

def decodeRequest (data : Bytes) : Except PyException WireRequest := do
  let obj ← c.loadObject "invalid grain-call bytes" "grain-call body must be a JSON object" data
  requestFromObject obj

/-- What has the truth value of a success is one. -/
def decodeResponse (data : Bytes) : Except PyException (GrainCallResponse Json) := do
  let obj ← c.loadObject "invalid grain-call response"
    "grain-call response must be a JSON object" data
  if ((obj.lookup "ok").getD .null).truthy then .ok (.success ((obj.lookup "result").getD .null))
  else
    let exceptionType := toStr ((obj.lookup "exception_type").getD (.string "Exception"))
    let message := toStr ((obj.lookup "message").getD (.string ""))
    let remoteTraceback := (present obj "traceback").map toStr
    .ok (.failure exceptionType message remoteTraceback)

end

variable {c} [PythonRepr] [IntDigitLimit]

theorem decodeRequest_encode (hc : c.RoundTrips) {req : WireRequest} (hreq : req.WellFormed) :
    decodeRequest c (encodeRequest c req) = .ok req := by
  have hnull : ∀ x, Json.float x ≠ .null := fun _ h ↦ nomatch h
  rw [decodeRequest, encodeRequest, hc.loadObject _ _ ?_, ok_bind]
  · generalize hobj : [("v", Json.int GRAIN_CALL_SCHEMA_VERSION), _, _, _, _, _, _, _, _] = obj
    have hcaller : (present obj "caller").map toStr = req.callerSilo :=
      present_text (by rw [← hobj]; rfl)
    have hdeadline : (present obj "deadline").mapM toFloat = .ok req.deadline :=
      present_mapM hnull (fun _ ↦ rfl) (by rw [← hobj]; rfl)
    have hfields : requestFields obj = .ok (req.grainId, req.method, req.args, req.kwargs) := by
      rw [← hobj]
      rfl
    have hcallId : obj.lookup "call_id" = some (.int req.callId) := by
      rw [← hobj]
      rfl
    have hversion : obj.lookup "v" = some (.int GRAIN_CALL_SCHEMA_VERSION) := by
      rw [← hobj]
      rfl
    rw [requestFromObject, hversion, hcaller, hcallId, hdeadline, hfields]
    rfl
  · refine .object (by simp) ?_
    simp only [List.forall_mem_cons]
    exact ⟨.int _, .string _, .string _, .string _, .array hreq.args, hreq.kwargs,
      wellFormed_ofOption .string _, .int _, wellFormed_ofOption .float _, nofun⟩

omit [IntDigitLimit] in
theorem decodeResponse_encodeSuccess (hc : c.RoundTrips) {result : Json}
    (hresult : result.WellFormed) :
    decodeResponse c (encodeSuccess c result) = .ok (.success result) := by
  rw [decodeResponse, encodeSuccess, hc.loadObject _ _ (by simp [hresult])]
  rfl

omit [IntDigitLimit] in
theorem decodeResponse_encodeFailure (hc : c.RoundTrips) (exceptionType message : String)
    (remoteTraceback : Option String) :
    decodeResponse c (encodeFailure c exceptionType message remoteTraceback) =
      .ok (Pyleans.encodeFailure exceptionType message remoteTraceback) := by
  rw [decodeResponse, encodeFailure, hc.loadObject _ _ (by simp [wellFormed_ofOption]), ok_bind]
  calc (.ok (.failure exceptionType (takeChars MAX_EXCEPTION_MESSAGE_LEN message)
    ((present _ _).map toStr)) :
      Except PyException (GrainCallResponse Json))
    _ = .ok (Pyleans.encodeFailure exceptionType message remoteTraceback) := by
      rw [present_text rfl]
      rfl

omit [PythonRepr] [IntDigitLimit] in
theorem ofRequest_injective : Function.Injective ofRequest := by
  have hfinite : Function.Injective PyFloat.finite := fun _ _ ↦ PyFloat.finite.inj
  intro r r' h
  cases r
  cases r'
  simpa [ofRequest, (Option.map_injective hfinite).eq_iff] using h

/-- Calls and their answers are read back from their bytes: a call as it was
sent, a result as it is, and of an exception its type, the beginning of its
message and the beginning of its traceback. -/
theorem grain_calls_read_back (hc : c.RoundTrips) :
    (∀ req : WireRequest, req.WellFormed → decodeRequest c (encodeRequest c req) = .ok req) ∧
    (∀ req req' : GrainCallRequest Json, (ofRequest req).WellFormed →
      (decodeRequest c (encodeRequest c (ofRequest req)) = .ok (ofRequest req') ↔ req = req')) ∧
    (∀ result : Json, result.WellFormed → decodeResponse c (encodeSuccess c result) =
      .ok (.success result)) ∧
    ∀ exceptionType message remoteTraceback,
      decodeResponse c (encodeFailure c exceptionType message remoteTraceback) =
        .ok (.failure exceptionType (takeChars (8 * 1024) message)
          (remoteTraceback.map (takeChars (32 * 1024)))) := by
  refine ⟨fun req ↦ decodeRequest_encode hc, fun req req' hreq ↦
    ?_, fun result ↦ decodeResponse_encodeSuccess hc,
    decodeResponse_encodeFailure hc⟩
  rw [decodeRequest_encode hc hreq, Except.ok.injEq]
  exact ofRequest_injective.eq_iff

omit [PythonRepr] [IntDigitLimit] in
theorem grain_calls_read_back_add :
    let req : WireRequest :=
      ⟨counter1, "add", [.array [.int 1, .object [("by", .float (.finite (1 / 2)))]]],
      [("times", .null)], some "a:11111:1", 5, none⟩
    @decodeRequest Json .transparent Json.plainRepr .initial
      (encodeRequest .transparent req) = .ok req :=
  (@grain_calls_read_back Json .transparent Json.plainRepr .initial
    JsonCodec.transparent_roundTrips).1 _
    ⟨by simp, by simp⟩

end Pyleans.GrainCallCodec
