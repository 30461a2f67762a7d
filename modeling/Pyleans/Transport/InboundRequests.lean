import Pyleans.Transport.SiloConnection

namespace Pyleans

open Library Wire ErrorPayload

/-- What becomes of a call of the message handler. The text of an exception is
missing when `str` of it fails or cannot be written as UTF-8. -/
inductive HandlerOutcome
  | returnsNone
  | returns (response : Wire.TransportMessage)
  | raises (exceptionClass : ExceptionClass) (text : Option String)

/-- The frames given to the writer, and the exception that comes out. -/
structure WriteResult where
  written : List Wire.TransportMessage
  raised : Option RaisedException
deriving DecidableEq

namespace SiloConnection

def encodeErrorResponse (correlationId : ℤ) (exceptionClass : ExceptionClass)
    (text : Option String) :
    Except RaisedException Wire.TransportMessage :=
  match text with
  | none => .error ⟨.other, ""⟩
  | some text =>
    match encodeErrorPayload ⟨exceptionToCode exceptionClass, text⟩ with
    | .error text => .error ⟨.other, text⟩
    | .ok body => .ok ⟨.error, correlationId, [], body⟩

def NONE_FOR_REQUEST : String := "handler returned None for REQUEST"

def invokeHandlerSafely (request : Wire.TransportMessage) :
    HandlerOutcome → Except RaisedException Wire.TransportMessage
  | .raises exceptionClass text => encodeErrorResponse request.correlationId exceptionClass text
  | .returnsNone =>
    encodeErrorResponse request.correlationId .transportError (some NONE_FOR_REQUEST)
  | .returns response => .ok response

/-- `_write_frame`, with the size of the write buffer and what the drain fails with. -/
def writeFrame (options : ConnectionOptions) (message : Wire.TransportMessage) (buffered : ℕ)
    (drainError : Option String) :
    WriteResult :=
  match encodeFrame message options.maxMessageSize with
  | .error error => ⟨[], some (wireException error)⟩
  | .ok _ =>
    if options.backpressureRaises ∧ buffered > options.writeBufferHighWater then
      ⟨[], some ⟨.backpressureError,
        s!"write buffer {buffered} bytes exceeds high-water {options.writeBufferHighWater}"⟩⟩
    else ⟨[message], drainError.map fun cause ↦
      ⟨.transportConnectionError, s!"write failed: {cause}"⟩⟩

def suppressed : ExceptionClass → Bool
  | .transportClosedError | .transportConnectionError => true
  | _ => false

def handleRequest (options : ConnectionOptions) (request : Wire.TransportMessage)
    (outcome : HandlerOutcome) (buffered : ℕ) (drainError : Option String) : WriteResult :=
  match invokeHandlerSafely request outcome with
  | .error error => ⟨[], some error⟩
  | .ok response =>
    let result := writeFrame options response buffered drainError
    { result with raised := result.raised.filter fun error ↦ !suppressed error.exceptionClass }

def replySize : HandlerOutcome → Option ℕ
  | .returnsNone => some (HEADER_SIZE + min MAX_REASON_BYTES (Utf8.encode NONE_FOR_REQUEST).length)
  | .returns response => some (response.header.length + response.body.length)
  | .raises _ text =>
    text.map fun text ↦ HEADER_SIZE + min MAX_REASON_BYTES (Utf8.encode text).length

/-- The handler keeps to its contract. -/
def Answers (request : Wire.TransportMessage) (outcome : HandlerOutcome) : Prop :=
  ∀ response, outcome = .returns response →
    response.messageType = .response ∧ response.correlationId = request.correlationId

def RepliesOnce (options : ConnectionOptions) (request : Wire.TransportMessage)
    (outcome : HandlerOutcome) (buffered : ℕ) (drainError : Option String) : Prop :=
  ∃ reply, (handleRequest options request outcome buffered drainError).written = [reply] ∧
    (reply.messageType = .response ∨ reply.messageType = .error) ∧
      reply.correlationId = request.correlationId

/-- The reply is small enough for a frame, and the write buffer has room or blocks. -/
def ReplyFits (options : ConnectionOptions) (outcome : HandlerOutcome) (buffered : ℕ) : Prop :=
  (∃ size ∈ replySize outcome, FRAME_OVERHEAD_AFTER_PREFIX + size ≤ UINT32_MAX ∧
    ((FRAME_PREFIX_SIZE + (FRAME_OVERHEAD_AFTER_PREFIX + size) : ℕ) : ℤ) ≤ options.maxMessageSize) ∧
  (options.backpressureRaises = true → buffered ≤ options.writeBufferHighWater)

variable {options : ConnectionOptions} {request : Wire.TransportMessage}
  {outcome : HandlerOutcome} {buffered : ℕ}
  {drainError : Option String}

theorem exceptionToCode_fits (exceptionClass : ExceptionClass) :
    0 ≤ exceptionToCode exceptionClass ∧ exceptionToCode exceptionClass ≤ CODE_MAX := by
  cases exceptionClass <;> decide

theorem encodeErrorResponse_some (correlationId : ℤ) (exceptionClass : ExceptionClass)
    (text : String) :
    ∃ body, encodeErrorResponse correlationId exceptionClass (some text) =
      .ok ⟨.error, correlationId, [], body⟩ ∧
      body.length = HEADER_SIZE + min MAX_REASON_BYTES (Utf8.encode text).length := by
  have hencode : encodeErrorPayload ⟨exceptionToCode exceptionClass, text⟩ = .ok _ :=
    encodeErrorPayload_eq_ok.mpr ⟨exceptionToCode_fits exceptionClass, rfl⟩
  simp only [encodeErrorResponse, hencode]
  refine ⟨_, rfl, ?_⟩
  rw [List.length_append, List.length_append, BigEndian.length_pack, BigEndian.length_pack,
    List.length_take, HEADER_SIZE]

theorem invokeHandlerSafely_cases (hanswers : Answers request outcome) :
    (∃ error, invokeHandlerSafely request outcome = .error error ∧ replySize outcome = none) ∨
      ∃ reply, invokeHandlerSafely request outcome = .ok reply ∧
        replySize outcome = some (reply.header.length + reply.body.length) ∧
        (reply.messageType = .response ∨ reply.messageType = .error) ∧
          reply.correlationId = request.correlationId := by
  have herror : ∀ exceptionClass text, ∃ reply,
      encodeErrorResponse request.correlationId exceptionClass (some text) = .ok reply ∧
        some (HEADER_SIZE + min MAX_REASON_BYTES (Utf8.encode text).length) =
          some (reply.header.length + reply.body.length) ∧
        (reply.messageType = .response ∨ reply.messageType = .error) ∧
          reply.correlationId = request.correlationId := by
    intro exceptionClass text
    obtain ⟨body, hencode, hlength⟩ :=
      encodeErrorResponse_some request.correlationId exceptionClass text
    refine ⟨_, hencode, ?_, .inr rfl, rfl⟩
    rw [← hlength, List.length_nil, Nat.zero_add]
  cases outcome with
  | returnsNone => exact .inr (herror .transportError NONE_FOR_REQUEST)
  | returns response =>
    obtain ⟨htype, hid⟩ := hanswers response rfl
    exact .inr ⟨response, rfl, rfl, .inl htype, hid⟩
  | raises exceptionClass text =>
    cases text with
    | none => exact .inl ⟨_, rfl, rfl⟩
    | some text => exact .inr (herror exceptionClass text)

def FrameFits (options : ConnectionOptions) (message : Wire.TransportMessage) (buffered : ℕ) :
    Prop :=
  (∃ frame, encodeFrame message options.maxMessageSize = .ok frame) ∧
    (options.backpressureRaises = true → buffered ≤ options.writeBufferHighWater)

theorem writeFrame_written (options : ConnectionOptions) (message : Wire.TransportMessage)
    (buffered : ℕ) (drainError : Option String) :
    ((writeFrame options message buffered drainError).written = [message] ∧
      FrameFits options message buffered) ∨
      ((writeFrame options message buffered drainError).written = [] ∧
        ¬ FrameFits options message buffered) := by
  unfold writeFrame FrameFits
  split
  · next error herror =>
    refine .inr ⟨rfl, ?_⟩
    rintro ⟨⟨frame, hframe⟩, -⟩
    rw [herror] at hframe
    cases hframe
  · next frame hframe =>
    split_ifs with hraises
    · exact .inr ⟨rfl, fun hfits ↦ by have := hfits.2 hraises.1; omega⟩
    · exact .inl ⟨rfl, ⟨frame, hframe⟩, fun h ↦ not_lt.mp fun hlt ↦ hraises ⟨h, hlt⟩⟩

theorem handleRequest_returns (response : Wire.TransportMessage) :
    (handleRequest options request (.returns response) buffered drainError).written =
      (writeFrame options response buffered drainError).written := rfl

/-- Every request is replied to once, as long as the reply fits. -/
theorem repliesOnce_iff_replyFits (options : ConnectionOptions) (request : Wire.TransportMessage)
    (outcome : HandlerOutcome) (buffered : ℕ) (drainError : Option String)
    (hid : 0 ≤ request.correlationId ∧ request.correlationId ≤ Wire.UINT64_MAX)
    (hanswers : Answers request outcome) :
    RepliesOnce options request outcome buffered drainError ↔
      ReplyFits options outcome buffered := by
  unfold RepliesOnce ReplyFits handleRequest
  rcases invokeHandlerSafely_cases hanswers with ⟨error, hinvoke, hsize⟩
    | ⟨reply, hinvoke, hsize, htype, hcorrelation⟩
  · rw [hinvoke, hsize]
    refine iff_of_false ?_ ?_
    · rintro ⟨reply, hwritten, -⟩
      cases hwritten
    · rintro ⟨⟨size, hsize, -⟩, -⟩
      cases hsize
  · have hencodes : (∃ frame, encodeFrame reply options.maxMessageSize = .ok frame) ↔
        ∃ size ∈ replySize outcome, FRAME_OVERHEAD_AFTER_PREFIX + size ≤ UINT32_MAX ∧
          ((FRAME_PREFIX_SIZE + (FRAME_OVERHEAD_AFTER_PREFIX + size) : ℕ) : ℤ) ≤
            options.maxMessageSize := by
      rw [encodeFrame_succeeds, hcorrelation, hsize, Nat.add_assoc]
      constructor
      · rintro ⟨-, hfits⟩
        exact ⟨_, rfl, hfits⟩
      · rintro ⟨size, he, hfits⟩
        obtain rfl := Option.some.inj he
        exact ⟨hid, hfits⟩
    rw [hinvoke, ← hencodes]
    dsimp only
    rcases writeFrame_written options reply buffered drainError with ⟨hwritten, hfits⟩
      | ⟨hwritten, hfits⟩
    · exact iff_of_true ⟨reply, hwritten, htype, hcorrelation⟩ hfits
    · refine iff_of_false ?_ hfits
      rintro ⟨reply', hreply, -⟩
      rw [hwritten] at hreply
      cases hreply

def DEFAULT_MAX_MESSAGE_SIZE : ℕ := 16 * 1024 * 1024

def defaultLimit : ConnectionOptions := ⟨DEFAULT_MAX_MESSAGE_SIZE, 30, 1000, 1024 * 1024, false⟩

theorem repliesOnce_to_error :
    RepliesOnce defaultLimit ⟨.request, 7, [], []⟩ (.raises .other (some "no such grain")) 0 none :=
  (repliesOnce_iff_replyFits defaultLimit ⟨.request, 7, [], []⟩
    (.raises .other (some "no such grain")) 0 none (by decide)
    nofun).mpr ⟨⟨21, by decide, by decide, by decide⟩, nofun⟩

/-- A body of 16 MiB, too much with the 17 bytes before it. -/
def largeResponse : Wire.TransportMessage :=
  ⟨.response, 7, [], List.replicate DEFAULT_MAX_MESSAGE_SIZE 0⟩

theorem length_largeResponse : largeResponse.body.length = DEFAULT_MAX_MESSAGE_SIZE :=
  List.length_replicate

theorem largeResponse_not_replied :
    ¬ ∀ (options : ConnectionOptions) (request : Wire.TransportMessage)
      (outcome : HandlerOutcome) (buffered : ℕ)
      (drainError : Option String), 0 ≤ request.correlationId ∧
        request.correlationId ≤ Wire.UINT64_MAX →
        Answers request outcome → RepliesOnce options request outcome buffered drainError := by
  intro h
  have hanswers : Answers ⟨.request, 7, [], []⟩ (.returns largeResponse) := by
    rintro response he
    obtain rfl := HandlerOutcome.returns.inj he
    exact ⟨rfl, rfl⟩
  obtain ⟨reply, hreply, -⟩ :=
    h defaultLimit ⟨.request, 7, [], []⟩ (.returns largeResponse) 0 none (by decide) hanswers
  rcases writeFrame_written defaultLimit largeResponse 0 none with ⟨-, ⟨hframe, -⟩⟩ | ⟨hwritten, -⟩
  · have hsize := (encodeFrame_succeeds.mp hframe).2.2
    have hlimit : defaultLimit.maxMessageSize = DEFAULT_MAX_MESSAGE_SIZE := rfl
    rw [length_largeResponse, FRAME_PREFIX_SIZE, FRAME_OVERHEAD_AFTER_PREFIX, hlimit] at hsize
    omega
  · rw [handleRequest_returns, hwritten] at hreply
    cases hreply

end SiloConnection

end Pyleans
