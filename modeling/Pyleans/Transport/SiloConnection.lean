import Pyleans.Library.Transition
import Pyleans.Transport.ErrorPayload
import Pyleans.Transport.PendingRequests
import Pyleans.Transport.Wire

namespace Pyleans

open Library Wire

inductive ConnectionState
  | new
  | running
  | closing
  | closed
deriving DecidableEq

inductive CloseReason
  | normal
  | lost
deriving DecidableEq

/-- What `close` is waiting for. -/
inductive CloseStage
  | background (reason : CloseReason)
  | drain
  | writer (reason : CloseReason)
  | readTask (reason : CloseReason)
  | handlers (reason : CloseReason)
deriving DecidableEq

abbrev Reply := List UInt8 × List UInt8

/-- Where a `send_request` or a `send_ping` waits, and with which correlation id and future. -/
inductive SenderPhase
  | queued (timeout : Option ℚ)
  | awaitingLock (correlationId future : ℕ)
  | drainingWrite (correlationId future : ℕ)
  | awaitingReply (correlationId future : ℕ)
  | finished (outcome : RaisedException ⊕ Reply)
deriving DecidableEq

structure Sender where
  messageType : MessageType
  header : List UInt8
  body : List UInt8
  phase : SenderPhase
deriving DecidableEq

def Sender.message (sender : Sender) (correlationId : ℕ) : Wire.TransportMessage :=
  ⟨sender.messageType, correlationId, sender.header, sender.body⟩

/-- Who has the write lock: one of the senders, or the writer of another frame. -/
inductive LockHolder
  | sender
  | other
deriving DecidableEq

structure ConnectionOptions where
  maxMessageSize : ℤ
  defaultRequestTimeout : ℚ
  maxInFlightRequests : ℕ
  writeBufferHighWater : ℕ
  backpressureRaises : Bool

/-- A connection as its senders see it: `inFlight` is what is left of the
semaphore, and `written` what they gave to the writer. -/
structure SiloConnection where
  options : ConnectionOptions
  state : ConnectionState
  stage : Option CloseStage
  closeReason : Option CloseReason
  pending : PendingRequests Reply RaisedException
  inFlight : ℕ
  writeLock : Option LockHolder
  senders : List Sender
  written : List Wire.TransportMessage

/-- What may happen next. Who of those that wait for the semaphore or the lock
comes first is left open. The lock is also taken for other frames; `buffered`
is the size of the write buffer; `closeStep` ends the wait that `close` is in,
and `closeCancelled` the close itself. -/
inductive ConnectionEvent
  | start
  | sendRequest (header body : List UInt8) (timeout : Option ℚ) (buffered : ℕ)
  | acquired (task buffered : ℕ)
  | sendPing (timeout : ℚ) (buffered : ℕ)
  | locked (task buffered : ℕ)
  | drained (task : ℕ)
  | writeFailed (task : ℕ) (cause : String)
  | replied (task : ℕ)
  | cancelled (task : ℕ)
  | lockTaken
  | lockFreed
  | response (correlationId : ℕ) (reply : Reply)
  | errorResponse (correlationId : ℕ) (error : RaisedException)
  | timedOut (correlationId : ℕ)
  | close (reason : CloseReason)
  | closeStep
  | closeCancelled

namespace SiloConnection

def new (options : ConnectionOptions) : SiloConnection where
  options := options
  state := .new
  stage := none
  closeReason := none
  pending := .new options.defaultRequestTimeout
  inFlight := options.maxInFlightRequests
  writeLock := none
  senders := []
  written := []

/-- `_ensure_running`: the error of a connection that is not. -/
def notRunning (s : SiloConnection) : RaisedException :=
  ⟨.transportClosedError, match s.state with
    | .new => "connection not started"
    | .running => "connection running"
    | .closing => "connection closing"
    | .closed => "connection closed"⟩

def setSender (s : SiloConnection) (task : ℕ) (sender : Sender) (phase : SenderPhase) :
    SiloConnection :=
  { s with senders := s.senders.set task { sender with phase := phase } }

def finish (s : SiloConnection) (task : ℕ) (sender : Sender) (outcome : RaisedException ⊕ Reply) :
    SiloConnection :=
  let s := s.setSender task sender (.finished outcome)
  if sender.messageType = .request then { s with inFlight := s.inFlight + 1 } else s

def abandon (s : SiloConnection) (task : ℕ) (sender : Sender) (correlationId : ℕ)
    (error : RaisedException) :
    SiloConnection :=
  { s with pending := s.pending.discard correlationId }.finish task sender (.inl error)

/-- What `_write_frame` does once it has the lock. -/
def write (s : SiloConnection) (task : ℕ) (sender : Sender) (correlationId future buffered : ℕ) :
    SiloConnection :=
  if s.options.backpressureRaises ∧ buffered > s.options.writeBufferHighWater then
    s.abandon task sender correlationId
      ⟨.backpressureError,
        s!"write buffer {buffered} bytes exceeds high-water {s.options.writeBufferHighWater}"⟩
  else
    { s with
      writeLock := some .sender
      written := s.written ++ [sender.message correlationId] }.setSender task sender
      (.drainingWrite correlationId future)

def wireException : WireError → RaisedException
  | .valueError text => ⟨.other, text⟩
  | .messageTooLarge text => ⟨.messageTooLargeError, text⟩
  | .transportConnection text => ⟨.transportConnectionError, text⟩

/-- From `allocate` to the next wait. -/
def send (s : SiloConnection) (task : ℕ) (sender : Sender) (timeout : Option ℚ) (buffered : ℕ) :
    SiloConnection :=
  let ((correlationId, future), pending) := s.pending.allocate timeout
  let s := { s with pending := pending }
  match encodeFrame (sender.message correlationId) s.options.maxMessageSize with
  | .error error => s.abandon task sender correlationId (wireException error)
  | .ok _ =>
    if s.writeLock = none then s.write task sender correlationId future buffered
    else s.setSender task sender (.awaitingLock correlationId future)

def enter (s : SiloConnection) (sender : Sender) : SiloConnection :=
  { s with senders := s.senders ++ [sender] }

def outcome : FutureState Reply RaisedException → Option (RaisedException ⊕ Reply)
  | .pending => none
  | .result reply => some (.inr reply)
  | .exception error => some (.inl error)
  | .cancelled => some (.inl ⟨.other, ""⟩)

def failed (reason : CloseReason) : RaisedException :=
  ⟨.transportConnectionError, match reason with
    | .normal => "connection closing"
    | .lost => "connection lost"⟩

def failAll (s : SiloConnection) (reason : CloseReason) : SiloConnection :=
  { s with pending := s.pending.failAll (failed reason), stage := some (.writer reason) }

def closeStep (s : SiloConnection) : CloseStage → SiloConnection
  | .background .normal => { s with stage := some .drain }
  | .background .lost => s.failAll .lost
  | .drain => s.failAll .normal
  | .writer reason => { s with stage := some (.readTask reason) }
  | .readTask reason => { s with stage := some (.handlers reason) }
  | .handlers reason => { s with stage := none, closeReason := some reason, state := .closed }

def step (s : SiloConnection) : ConnectionEvent → Option SiloConnection
  | .start => if s.state = .new then some { s with state := .running } else some s
  | .sendRequest header body timeout buffered =>
    let task := s.senders.length
    let sender : Sender := ⟨.request, header, body, .queued timeout⟩
    if s.state ≠ .running then some (s.enter { sender with phase := .finished (.inl s.notRunning) })
    else if s.inFlight = 0 then some (s.enter sender)
    else some ({ s.enter sender with inFlight := s.inFlight - 1 }.send task sender timeout buffered)
  | .acquired task buffered =>
    match s.senders[task]? with
    | some ⟨messageType, header, body, .queued timeout⟩ =>
      if s.inFlight = 0 then none
      else some ({ s with inFlight := s.inFlight - 1 }.send task
        ⟨messageType, header, body, .queued timeout⟩ timeout buffered)
    | _ => none
  | .sendPing timeout buffered =>
    let task := s.senders.length
    let sender : Sender := ⟨.ping, [], [], .queued (some timeout)⟩
    if s.state ≠ .running then some (s.enter { sender with phase := .finished (.inl s.notRunning) })
    else some ((s.enter sender).send task sender (some timeout) buffered)
  | .locked task buffered =>
    match s.senders[task]? with
    | some ⟨messageType, header, body, .awaitingLock correlationId future⟩ =>
      if s.writeLock = none then
        some (s.write task ⟨messageType, header, body, .awaitingLock correlationId future⟩
          correlationId future buffered)
      else none
    | _ => none
  | .drained task =>
    match s.senders[task]? with
    | some ⟨messageType, header, body, .drainingWrite correlationId future⟩ =>
      some ({ s with writeLock := none }.setSender task
        ⟨messageType, header, body, .drainingWrite correlationId future⟩
        (.awaitingReply correlationId future))
    | _ => none
  | .writeFailed task cause =>
    match s.senders[task]? with
    | some ⟨messageType, header, body, .drainingWrite correlationId future⟩ =>
      some ({ s with writeLock := none }.abandon task
        ⟨messageType, header, body, .drainingWrite correlationId future⟩ correlationId
        ⟨.transportConnectionError, s!"write failed: {cause}"⟩)
    | _ => none
  | .replied task =>
    match s.senders[task]? with
    | some ⟨messageType, header, body, .awaitingReply correlationId future⟩ =>
      match (s.pending.futures[future]?).bind fun p ↦ outcome p.state with
      | some (.inr reply) =>
        some (s.finish task ⟨messageType, header, body, .awaitingReply correlationId future⟩
          (.inr reply))
      | some (.inl error) =>
        some (s.abandon task ⟨messageType, header, body, .awaitingReply correlationId future⟩
          correlationId error)
      | none => none
    | _ => none
  | .cancelled task =>
    match s.senders[task]? with
    | some ⟨messageType, header, body, .queued timeout⟩ =>
      some (s.setSender task ⟨messageType, header, body, .queued timeout⟩
        (.finished (.inl ⟨.other, ""⟩)))
    | some ⟨messageType, header, body, .awaitingLock correlationId future⟩ =>
      some (s.abandon task ⟨messageType, header, body, .awaitingLock correlationId future⟩
        correlationId ⟨.other, ""⟩)
    | some ⟨messageType, header, body, .drainingWrite correlationId future⟩ =>
      some ({ s with writeLock := none }.abandon task
        ⟨messageType, header, body, .drainingWrite correlationId future⟩ correlationId ⟨.other, ""⟩)
    | some ⟨messageType, header, body, .awaitingReply correlationId future⟩ =>
      some ({ s with pending := s.pending.cancelFuture future }.abandon task
        ⟨messageType, header, body, .awaitingReply correlationId future⟩ correlationId ⟨.other, ""⟩)
    | _ => none
  | .lockTaken => if s.writeLock = none then some { s with writeLock := some .other } else none
  | .lockFreed => if s.writeLock = some .other then some { s with writeLock := none } else none
  | .response correlationId reply =>
    some { s with pending := s.pending.complete correlationId reply }
  | .errorResponse correlationId error =>
    some { s with pending := s.pending.fail correlationId error }
  | .timedOut correlationId =>
    some { s with
      pending := s.pending.expire correlationId
        ⟨.transportTimeoutError, s!"request {correlationId} timed out"⟩ }
  | .close reason =>
    if s.state = .closing ∨ s.state = .closed then some s
    else some { s with state := .closing, stage := some (.background reason) }
  | .closeStep => s.stage.map s.closeStep
  | .closeCancelled => s.stage.map fun _ ↦ { s with stage := none }

end SiloConnection

end Pyleans
