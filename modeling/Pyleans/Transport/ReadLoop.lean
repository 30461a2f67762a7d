import Pyleans.Transport.InboundRequests
import Pyleans.Transport.WrittenRequests

namespace Pyleans

open Library Wire

/-- What a task writes for, or runs for, that is none of the senders. -/
inductive TaskKind
  | handler (message : Wire.TransportMessage)
  | pong (message : Wire.TransportMessage)
  | oneWay
deriving DecidableEq

inductive TaskPhase
  | handling
  | awaitingLock (frame : Wire.TransportMessage)
  | drainingWrite (frame : Wire.TransportMessage)
  | finished (result : WriteResult)
deriving DecidableEq

/-- `released` once `_on_done` has given the permit of a handler back. -/
structure ConnectionTask where
  kind : TaskKind
  phase : TaskPhase
  released : Bool
deriving DecidableEq

/-- Where the read loop waits. A message that it has no permit for is dropped when it ends. -/
inductive ReaderPhase
  | reading
  | acquiring (message : Wire.TransportMessage)
  | ponging (task : ℕ)
  | ended (dropped : Option Wire.TransportMessage)
deriving DecidableEq

/-- A connection with its read loop and the tasks beside its senders: `received` and `sent`
are all the frames that it has read and that it has given to the writer. -/
structure Endpoint where
  connection : SiloConnection
  maxInboundConcurrency : ℕ
  inboundSem : ℕ
  reader : ReaderPhase
  tasks : List ConnectionTask
  incoming : WireReader
  received : List Wire.TransportMessage
  sent : List Wire.TransportMessage

/-- `read` is one turn of the read loop up to its next wait; `acquired`, `ponged`
and `readerEnds` end a wait of it. -/
inductive EndpointEvent
  | connection (event : ConnectionEvent)
  | sendOneWay (header body : List UInt8) (buffered : ℕ)
  | read (buffered : ℕ)
  | acquired
  | ponged
  | readerEnds
  | handled (task : ℕ) (outcome : HandlerOutcome) (buffered : ℕ)
  | locked (task buffered : ℕ)
  | drained (task : ℕ) (drainError : Option String)
  | cancelled (task : ℕ)
  | released (task : ℕ)

/-- Not of the lock, which the tasks have too, nor of a frame that the read loop dispatches. -/
def ConnectionEvent.isOwn : ConnectionEvent → Bool
  | .lockTaken | .lockFreed | .response _ _ | .errorResponse _ _ => false
  | _ => true

def TaskPhase.frames : TaskPhase → List Wire.TransportMessage
  | .handling => []
  | .awaitingLock frame | .drainingWrite frame => [frame]
  | .finished result => result.written

def TaskPhase.written : TaskPhase → List Wire.TransportMessage
  | .handling | .awaitingLock _ => []
  | .drainingWrite frame => [frame]
  | .finished result => result.written

def ConnectionTask.handles (t : ConnectionTask) : Option Wire.TransportMessage :=
  match t.kind with
  | .handler message => some message
  | _ => none

def ConnectionTask.holdsPermit (t : ConnectionTask) : Bool := t.handles.isSome && !t.released

def ReaderPhase.held : ReaderPhase → List Wire.TransportMessage
  | .acquiring message => [message]
  | .ended dropped => dropped.toList
  | .reading | .ponging _ => []

namespace Endpoint

def new (options : ConnectionOptions) (maxInboundConcurrency : ℕ) : Endpoint where
  connection := .new options
  maxInboundConcurrency := maxInboundConcurrency
  inboundSem := maxInboundConcurrency
  reader := .reading
  tasks := []
  incoming := ⟨[], []⟩
  received := []
  sent := []

def options (e : Endpoint) : ConnectionOptions := e.connection.options

def setTask (e : Endpoint) (task : ℕ) (t : ConnectionTask) (phase : TaskPhase) : Endpoint :=
  { e with tasks := e.tasks.set task { t with phase := phase } }

def setLock (e : Endpoint) (holder : Option LockHolder) : Endpoint :=
  { e with connection := { e.connection with writeLock := holder } }

def setPending (e : Endpoint) (pending : PendingRequests Reply RaisedException) : Endpoint :=
  { e with connection := { e.connection with pending := pending } }

/-- What `_write_frame` does once it has the lock. -/
def write (e : Endpoint) (task : ℕ) (t : ConnectionTask) (frame : Wire.TransportMessage)
    (buffered : ℕ) : Endpoint :=
  if e.options.backpressureRaises ∧ buffered > e.options.writeBufferHighWater then
    e.setTask task t (.finished ⟨[], some ⟨.backpressureError,
      s!"write buffer {buffered} bytes exceeds high-water {e.options.writeBufferHighWater}"⟩⟩)
  else
    let e := (e.setLock (some .other)).setTask task t (.drainingWrite frame)
    { e with sent := e.sent ++ [frame] }

/-- `_write_frame` up to its first wait. -/
def writeFrame (e : Endpoint) (task : ℕ) (t : ConnectionTask) (frame : Wire.TransportMessage)
    (buffered : ℕ) : Endpoint :=
  match encodeFrame frame e.options.maxMessageSize with
  | .error error => e.setTask task t (.finished ⟨[], some (SiloConnection.wireException error)⟩)
  | .ok _ =>
    if e.connection.writeLock = none then e.write task t frame buffered
    else e.setTask task t (.awaitingLock frame)

def spawn (e : Endpoint) (kind : TaskKind) : Endpoint :=
  { e with tasks := e.tasks ++ [⟨kind, .handling, false⟩] }

/-- `_spawn_bounded_handler`, past the semaphore. -/
def spawnHandler (e : Endpoint) (message : Wire.TransportMessage) : Endpoint :=
  { e.spawn (.handler message) with inboundSem := e.inboundSem - 1 }

def dispatch (e : Endpoint) (message : Wire.TransportMessage) (buffered : ℕ) : Endpoint :=
  let correlationId := message.correlationId.toNat
  match message.messageType with
  | .response =>
    e.setPending (e.connection.pending.complete correlationId (message.header, message.body))
  | .error =>
    e.setPending (e.connection.pending.fail correlationId (ErrorPayload.decodeError message.body))
  | .pong => e.setPending (e.connection.pending.complete correlationId ([], []))
  | .ping =>
    { (e.spawn (.pong message)).writeFrame e.tasks.length ⟨.pong message, .handling, false⟩
        ⟨.pong, message.correlationId, [], []⟩ buffered with reader := .ponging e.tasks.length }
  | .request | .oneWay =>
    if e.inboundSem = 0 then { e with reader := .acquiring message } else e.spawnHandler message

def step (e : Endpoint) : EndpointEvent → Option Endpoint
  | .connection event =>
    if event.isOwn then
      (e.connection.step event).map fun c ↦
        { e with connection := c, sent := e.sent ++ c.written.drop e.connection.written.length }
    else none
  | .sendOneWay header body buffered =>
    if e.connection.state ≠ .running then
      some { e with tasks := e.tasks ++
        [⟨.oneWay, .finished ⟨[], some e.connection.notRunning⟩, false⟩] }
    else
      some ((e.spawn .oneWay).writeFrame e.tasks.length ⟨.oneWay, .handling, false⟩
        ⟨.oneWay, 0, header, body⟩ buffered)
  | .read buffered =>
    if e.reader = .reading ∧ e.connection.state ≠ .new ∧ e.incoming.remaining ≠ [] then
      match readFrame e.incoming e.options.maxMessageSize with
      | .error _ => some { e with reader := .ended none }
      | .ok (message, incoming) =>
        some ({ e with incoming := incoming, received := e.received ++ [message] }.dispatch
          message buffered)
    else none
  | .acquired =>
    match e.reader with
    | .acquiring message =>
      if e.inboundSem = 0 then none else some ({ e with reader := .reading }.spawnHandler message)
    | _ => none
  | .ponged =>
    match e.reader with
    | .ponging task =>
      match e.tasks[task]? with
      | some ⟨_, .finished result, _⟩ =>
        some { e with reader := if result.raised = none then .reading else .ended none }
      | _ => none
    | _ => none
  | .readerEnds =>
    match e.reader with
    | .reading => some { e with reader := .ended none }
    | .acquiring message => some { e with reader := .ended (some message) }
    | _ => none
  | .handled task outcome buffered =>
    match e.tasks[task]? with
    | some ⟨.handler message, .handling, released⟩ =>
      let t : ConnectionTask := ⟨.handler message, .handling, released⟩
      if message.messageType = .oneWay then some (e.setTask task t (.finished ⟨[], none⟩))
      else
        match SiloConnection.invokeHandlerSafely message outcome with
        | .error error => some (e.setTask task t (.finished ⟨[], some error⟩))
        | .ok response => some (e.writeFrame task t response buffered)
    | _ => none
  | .locked task buffered =>
    match e.tasks[task]? with
    | some ⟨kind, .awaitingLock frame, released⟩ =>
      if e.connection.writeLock = none then
        some (e.write task ⟨kind, .awaitingLock frame, released⟩ frame buffered)
      else none
    | _ => none
  | .drained task drainError =>
    match e.tasks[task]? with
    | some ⟨kind, .drainingWrite frame, released⟩ =>
      some ((e.setLock none).setTask task ⟨kind, .drainingWrite frame, released⟩
        (.finished ⟨[frame], drainError.map fun cause ↦
          ⟨.transportConnectionError, s!"write failed: {cause}"⟩⟩))
    | _ => none
  | .cancelled task =>
    match e.tasks[task]? with
    | some ⟨kind, .handling, released⟩ =>
      some (e.setTask task ⟨kind, .handling, released⟩ (.finished ⟨[], some ⟨.other, ""⟩⟩))
    | some ⟨kind, .awaitingLock frame, released⟩ =>
      some (e.setTask task ⟨kind, .awaitingLock frame, released⟩
        (.finished ⟨[], some ⟨.other, ""⟩⟩))
    | some ⟨kind, .drainingWrite frame, released⟩ =>
      some ((e.setLock none).setTask task ⟨kind, .drainingWrite frame, released⟩
        (.finished ⟨[frame], some ⟨.other, ""⟩⟩))
    | _ => none
  | .released task =>
    match e.tasks[task]? with
    | some ⟨.handler message, .finished result, false⟩ =>
      some { e with
        inboundSem := e.inboundSem + 1
        tasks := e.tasks.set task ⟨.handler message, .finished result, true⟩ }
    | _ => none

/-- Requests and pings wait for an answer, under an id of their own. -/
def isCall (message : Wire.TransportMessage) : Bool :=
  decide (message.messageType = .request ∨ message.messageType = .ping)

def isInbound (message : Wire.TransportMessage) : Bool :=
  decide (message.messageType = .request ∨ message.messageType = .oneWay)

def Replies (message : Wire.TransportMessage) (reply : Reply) : Prop :=
  (message.messageType = .response ∧ reply = (message.header, message.body)) ∨
    (message.messageType = .pong ∧ reply = ([], []))

def Writes : TaskKind → Wire.TransportMessage → Prop
  | .handler message, frame =>
    message.messageType = .request ∧ (frame.messageType = .response ∨ frame.messageType = .error) ∧
      frame.correlationId = message.correlationId
  | .pong message, frame => frame = ⟨.pong, message.correlationId, [], []⟩
  | .oneWay, frame => frame.messageType = .oneWay

def Encodes (options : ConnectionOptions) (frame : Wire.TransportMessage) : Prop :=
  ∃ bytes, encodeFrame frame options.maxMessageSize = .ok bytes

/-- What holds of an endpoint that has still to spawn handlers for the messages `held`. -/
structure Sound (e : Endpoint) (held : List Wire.TransportMessage) : Prop where
  tracks : e.connection.Tracks
  wrote : e.connection.Wrote
  calls : e.sent.filter isCall = e.connection.written
  encoded : ∀ frame ∈ e.sent, Encodes e.options frame
  handled : e.tasks.filterMap ConnectionTask.handles ++ held = e.received.filter isInbound
  permits : e.inboundSem + e.tasks.countP ConnectionTask.holdsPermit = e.maxInboundConcurrency
  released : ∀ t ∈ e.tasks, t.released = true → ∃ result, t.phase = .finished result
  frames : ∀ t ∈ e.tasks, ∀ frame ∈ t.phase.frames, Writes t.kind frame ∧ Encodes e.options frame
  pongs : ∀ t ∈ e.tasks, ∀ message, t.kind = .pong message → message.messageType = .ping ∧
    message ∈ e.received
  answers : ∀ frame ∈ e.sent, isCall frame = false → ∃ t ∈ e.tasks, frame ∈ t.phase.written
  results : ∀ (f id : ℕ) (reply : Reply),
    e.connection.pending.futures[f]? = some ⟨id, .result reply⟩ →
    ∃ message ∈ e.received, message.correlationId = ((f + 1 : ℕ) : ℤ) ∧ Replies message reply

section

variable {e e' : Endpoint} {held : List Wire.TransportMessage} {task : ℕ} {t : ConnectionTask}
  {phase : TaskPhase}
  {frame message : Wire.TransportMessage} {buffered : ℕ}

theorem sound_new (options : ConnectionOptions) (maxInboundConcurrency : ℕ) :
    (new options maxInboundConcurrency).Sound [] where
  tracks := SiloConnection.tracks_new options
  wrote := SiloConnection.wrote_new options
  calls := rfl
  encoded _ h := absurd h List.not_mem_nil
  handled := rfl
  permits := rfl
  released _ h := absurd h List.not_mem_nil
  frames _ h := absurd h List.not_mem_nil
  pongs _ h := absurd h List.not_mem_nil
  answers _ h := absurd h List.not_mem_nil
  results f id reply h := by
    have hnone : (new options maxInboundConcurrency).connection.pending.futures[f]? = none :=
      List.getElem?_nil
    rw [hnone] at h
    cases h

theorem mem_frames_of_written (h : frame ∈ phase.written) : frame ∈ phase.frames := by
  cases phase with
  | handling | awaitingLock => cases h
  | drainingWrite | finished => exact h

theorem isCall_of_type {messageType : MessageType} (h : frame.messageType = messageType)
    (htype : messageType ≠ .request ∧ messageType ≠ .ping) : isCall frame = false := by
  unfold isCall
  rw [h]
  exact decide_eq_false (not_or.mpr htype)

theorem Writes.not_call {kind : TaskKind} (h : Writes kind frame) : isCall frame = false := by
  cases kind with
  | handler message =>
    obtain ⟨-, htype | htype, -⟩ := h
    · exact isCall_of_type htype (by decide)
    · exact isCall_of_type htype (by decide)
  | pong message =>
    have htype : frame.messageType = .pong := congrArg Wire.TransportMessage.messageType h
    exact isCall_of_type htype (by decide)
  | oneWay => exact isCall_of_type h (by decide)

theorem Sound.reader (h : e.Sound held) (reader : ReaderPhase) :
    { e with reader := reader }.Sound held :=
  ⟨h.tracks, h.wrote, h.calls, h.encoded, h.handled, h.permits, h.released, h.frames,
    h.pongs, h.answers,
    h.results⟩

theorem Sound.setLock (h : e.Sound held) (holder : Option LockHolder) :
    (e.setLock holder).Sound held where
  tracks := ⟨h.tracks.sound, h.tracks.tracked, h.tracks.apart⟩
  wrote :=
    ⟨h.wrote.encoded, h.wrote.once, h.wrote.made, h.wrote.kinds, h.wrote.callers, h.wrote.unwritten,
      h.wrote.written⟩
  calls := h.calls
  encoded := h.encoded
  handled := h.handled
  permits := h.permits
  released := h.released
  frames := h.frames
  pongs := h.pongs
  answers := h.answers
  results := h.results

theorem Sound.replaceTask {u : ConnectionTask} {n : ℕ} (h : e.Sound held)
    (ht : e.tasks[task]? = some t) (hkind : u.kind = t.kind)
    (hpermit : n + (if u.holdsPermit then 1 else 0) = e.inboundSem + if t.holdsPermit then 1 else 0)
    (hreleased : u.released = true → ∃ result, u.phase = .finished result)
    (hframes : ∀ frame ∈ u.phase.frames, Writes t.kind frame ∧ Encodes e.options frame)
    (hkeeps : ∀ frame ∈ t.phase.written, frame ∈ u.phase.written) :
    { e with inboundSem := n, tasks := e.tasks.set task u }.Sound held := by
  obtain ⟨before, after, -, htasks, -, hset⟩ := exists_split ht
  have hset := hset u
  have hhandles : u.handles = t.handles := by
    rw [ConnectionTask.handles, ConnectionTask.handles, hkind]
  refine ⟨h.tracks, h.wrote, h.calls, h.encoded, ?_, ?_, fun v hv ↦
    ?_, fun v hv ↦ ?_, fun v hv ↦ ?_,
    fun frame hframe hcall ↦ ?_, h.results⟩
  · refine Eq.trans ?_ h.handled
    dsimp only
    rw [hset, htasks, List.filterMap_append, List.filterMap_append, List.filterMap_cons,
      List.filterMap_cons, hhandles]
  · have hpermits := h.permits
    rw [htasks, List.countP_append, List.countP_cons] at hpermits
    dsimp only
    rw [hset, List.countP_append, List.countP_cons]
    omega
  · rcases List.mem_or_eq_of_mem_set hv with hv | rfl
    · exact h.released v hv
    · exact hreleased
  · rcases List.mem_or_eq_of_mem_set hv with hv | rfl
    · exact h.frames v hv
    · rw [hkind]
      exact hframes
  · rcases List.mem_or_eq_of_mem_set hv with hv | rfl
    · exact h.pongs v hv
    · rw [hkind]
      exact h.pongs t (List.mem_of_getElem? ht)
  · obtain ⟨v, hv, hwritten⟩ := h.answers frame hframe hcall
    dsimp only
    rw [hset]
    rw [htasks] at hv
    rcases List.mem_append.mp hv with hv | hv
    · exact ⟨v, List.mem_append_left _ hv, hwritten⟩
    · rcases List.mem_cons.mp hv with rfl | hv
      · exact ⟨u, List.mem_append_right _ List.mem_cons_self, hkeeps frame hwritten⟩
      · exact ⟨v, List.mem_append_right _ (List.mem_cons_of_mem _ hv), hwritten⟩

theorem Sound.setTask (h : e.Sound held) (ht : e.tasks[task]? = some t)
    (hopen : ∀ result, t.phase ≠ .finished result)
    (hframes : ∀ frame ∈ phase.frames, Writes t.kind frame ∧ Encodes e.options frame)
    (hkeeps : ∀ frame ∈ t.phase.written, frame ∈ phase.written) :
      (e.setTask task t phase).Sound held := by
  refine h.replaceTask (u := { t with phase := phase }) (n := e.inboundSem) ht rfl rfl
    (fun hreleased ↦ ?_) hframes hkeeps
  obtain ⟨result, hfinished⟩ := h.released t (List.mem_of_getElem? ht) hreleased
  exact absurd hfinished (hopen result)

theorem Sound.send (h : e.Sound held) (ht : t ∈ e.tasks) (hframe : frame ∈ t.phase.written) :
    { e with sent := e.sent ++ [frame] }.Sound held := by
  obtain ⟨hwrites, hencodes⟩ := h.frames t ht frame (mem_frames_of_written hframe)
  refine ⟨h.tracks, h.wrote, ?_, fun m hm ↦ ?_, h.handled, h.permits, h.released, h.frames, h.pongs,
    fun m hm hcall ↦ ?_,
    h.results⟩
  · rw [List.filter_append, h.calls, List.filter_singleton, hwrites.not_call]
    exact List.append_nil _
  · rcases List.mem_append.mp hm with hm | hm
    · exact h.encoded m hm
    · exact List.mem_singleton.mp hm ▸ hencodes
  · rcases List.mem_append.mp hm with hm | hm
    · exact h.answers m hm hcall
    · exact ⟨t, ht, List.mem_singleton.mp hm ▸ hframe⟩

theorem Sound.write (h : e.Sound held) (ht : e.tasks[task]? = some t)
    (hopen : ∀ result, t.phase ≠ .finished result) (hphase : t.phase.written = [])
    (hframe : Writes t.kind frame ∧ Encodes e.options frame) :
      (e.write task t frame buffered).Sound held := by
  have hnone : ∀ m ∈ t.phase.written, m ∈ ([] : List Wire.TransportMessage) :=
    hphase ▸ fun _ hm ↦ hm
  unfold Endpoint.write
  split
  · exact h.setTask ht hopen nofun hnone
  · have hset : ((e.setLock (some .other)).setTask task t (.drainingWrite frame)).Sound held := by
      refine (h.setLock (some .other)).setTask ht hopen (fun m hm ↦ ?_) fun m hm ↦ ?_
      · rw [List.mem_singleton.mp hm]
        exact hframe
      · exact absurd (hnone m hm) List.not_mem_nil
    refine hset.send (t := { t with phase := .drainingWrite frame }) ?_ (List.mem_singleton.mpr rfl)
    exact List.mem_set (List.getElem?_eq_some_iff.mp ht).1 _

theorem Sound.writeFrame (h : e.Sound held) (ht : e.tasks[task]? = some t)
    (hopen : ∀ result, t.phase ≠ .finished result) (hphase : t.phase.written = [])
    (hframe : Writes t.kind frame) : (e.writeFrame task t frame buffered).Sound held := by
  have hnone : ∀ m ∈ t.phase.written, m ∈ ([] : List Wire.TransportMessage) :=
    hphase ▸ fun _ hm ↦ hm
  unfold Endpoint.writeFrame
  split
  · exact h.setTask ht hopen nofun hnone
  · next bytes hbytes =>
    split
    · exact h.write ht hopen hphase ⟨hframe, bytes, hbytes⟩
    · refine h.setTask ht hopen (fun m hm ↦ ?_) hnone
      rw [List.mem_singleton.mp hm]
      exact ⟨hframe, bytes, hbytes⟩

theorem Sound.addTask (h : e.Sound held) (hhandles : t.handles = none) (hnew : t.released = false)
    (hframes : t.phase.frames = [])
    (hpong : ∀ message, t.kind = .pong message → message.messageType = .ping ∧
      message ∈ e.received) :
    { e with tasks := e.tasks ++ [t] }.Sound held := by
  have hpermit : t.holdsPermit = false := by rw [ConnectionTask.holdsPermit, hhandles]; rfl
  refine ⟨h.tracks, h.wrote, h.calls, h.encoded, ?_, ?_, fun u hu ↦
    ?_, fun u hu ↦ ?_, fun u hu ↦ ?_, fun m hm hcall ↦ ?_,
    h.results⟩
  · rw [List.filterMap_append, List.filterMap_cons, hhandles, List.filterMap_nil, List.append_nil]
    exact h.handled
  · rw [List.countP_append, List.countP_singleton, hpermit]
    exact h.permits
  · rcases List.mem_append.mp hu with hu | hu
    · exact h.released u hu
    · rw [List.mem_singleton.mp hu, hnew]
      nofun
  · rcases List.mem_append.mp hu with hu | hu
    · exact h.frames u hu
    · rw [List.mem_singleton.mp hu, hframes]
      nofun
  · rcases List.mem_append.mp hu with hu | hu
    · exact h.pongs u hu
    · rw [List.mem_singleton.mp hu]
      exact hpong
  · obtain ⟨u, hu, hwritten⟩ := h.answers m hm hcall
    exact ⟨u, List.mem_append_left _ hu, hwritten⟩

theorem Sound.spawnHandler (h : e.Sound [message]) (hpermit : e.inboundSem ≠ 0) :
    (e.spawnHandler message).Sound [] := by
  refine ⟨h.tracks, h.wrote, h.calls, h.encoded, ?_, ?_, fun u hu ↦
    ?_, fun u hu ↦ ?_, fun u hu ↦ ?_, fun m hm hcall ↦ ?_,
    h.results⟩
  · refine Eq.trans ?_ h.handled
    change (e.tasks ++ [_]).filterMap _ ++ [] = _
    rw [List.filterMap_append, List.append_nil]
    rfl
  · refine Eq.trans ?_ h.permits
    change e.inboundSem - 1 + (e.tasks ++ [_]).countP _ = _
    rw [List.countP_append]
    change e.inboundSem - 1 + (_ + 1) = _
    omega
  · rcases List.mem_append.mp hu with hu | hu
    · exact h.released u hu
    · rw [List.mem_singleton.mp hu]
      nofun
  · rcases List.mem_append.mp hu with hu | hu
    · exact h.frames u hu
    · rw [List.mem_singleton.mp hu]
      nofun
  · rcases List.mem_append.mp hu with hu | hu
    · exact h.pongs u hu
    · rw [List.mem_singleton.mp hu]
      nofun
  · obtain ⟨u, hu, hwritten⟩ := h.answers m hm hcall
    exact ⟨u, List.mem_append_left _ hu, hwritten⟩

theorem Sound.connectionStep {event : ConnectionEvent} {c : SiloConnection} (h : e.Sound held)
    (hstep : e.connection.step event = some c)
      (hbound : c.pending.futures.length < PendingRequests.UINT64_MAX)
    (hresults : ∀ (f id : ℕ) (reply : Reply), c.pending.futures[f]? = some ⟨id, .result reply⟩ →
      e.connection.pending.futures[f]? = some ⟨id, .result reply⟩ ∨
        ∃ message ∈ e.received, message.correlationId = ((f + 1 : ℕ) : ℤ) ∧ Replies message reply) :
    { e with connection := c, sent := e.sent ++ c.written.drop e.connection.written.length }.Sound
      held := by
  have htracks := h.tracks.step hbound hstep
  have hwrote := h.wrote.step h.tracks htracks hstep
  obtain ⟨hoptions, new, hnew⟩ := SiloConnection.step_grows hstep
  have hdrop : c.written.drop e.connection.written.length = new := by rw [← hnew, List.drop_left]
  have hcalls : ∀ m ∈ new, isCall m = true := by
    intro m hm
    refine decide_eq_true (hwrote.kinds m ?_)
    rw [← hnew]
    exact List.mem_append_right _ hm
  rw [hdrop]
  refine ⟨htracks, hwrote, ?_, fun m hm ↦ ?_, h.handled, h.permits, h.released, ?_, h.pongs,
    fun m hm hcall ↦ ?_,
    fun f id reply hf ↦ ?_⟩
  · rw [List.filter_append, h.calls, List.filter_eq_self.mpr hcalls]
    exact hnew
  · rcases List.mem_append.mp hm with hm | hm
    · unfold Encodes options
      dsimp only
      rw [hoptions]
      exact h.encoded m hm
    · refine hwrote.encoded m ?_
      rw [← hnew]
      exact List.mem_append_right _ hm
  · unfold Encodes options
    dsimp only
    rw [hoptions]
    exact h.frames
  · rcases List.mem_append.mp hm with hm | hm
    · exact h.answers m hm hcall
    · rw [hcalls m hm] at hcall
      cases hcall
  · exact (hresults f id reply hf).elim (h.results f id reply) fun hm ↦ hm

theorem Sound.dispatch (h : e.Sound (if isInbound message then [message] else []))
    (hreader : e.reader = .reading) (hid : 0 ≤ message.correlationId)
    (hreceived : message ∈ e.received)
    (hbound : e.connection.pending.futures.length < PendingRequests.UINT64_MAX) :
    (e.dispatch message buffered).Sound (e.dispatch message buffered).reader.held := by
  have hnotInbound (htype : message.messageType ≠ .request ∧ message.messageType ≠ .oneWay) :
    e.Sound [] := by
    have hno : isInbound message = false := decide_eq_false fun hin ↦ hin.elim htype.1 htype.2
    rw [hno] at h
    exact h
  have hinbound (htype : message.messageType = .request ∨ message.messageType = .oneWay) :
    e.Sound [message] := by
    have hyes : isInbound message = true := decide_eq_true htype
    rw [hyes] at h
    exact h
  have hheld (pending : PendingRequests Reply RaisedException) :
    (e.setPending pending).reader.held = [] := by
    change e.reader.held = []
    rw [hreader]
    rfl
  -- The registry as the connection's own events change it.
  have hregistry (event : ConnectionEvent) (pending : PendingRequests Reply RaisedException)
    (hs : e.Sound [])
      (hstep : e.connection.step event = some { e.connection with pending := pending })
      (hlength : pending.futures.length = e.connection.pending.futures.length)
      (hresults : ∀ (f id : ℕ) (reply : Reply), pending.futures[f]? = some ⟨id, .result reply⟩ →
        e.connection.pending.futures[f]? = some ⟨id, .result reply⟩ ∨
          ∃ message ∈ e.received, message.correlationId = ((f + 1 : ℕ) : ℤ) ∧
            Replies message reply) :
      (e.setPending pending).Sound (e.setPending pending).reader.held := by
    have hsound := hs.connectionStep hstep (hlength ▸ hbound) hresults
    rw [List.drop_length, List.append_nil] at hsound
    rw [hheld]
    exact hsound
  have hcompletes (reply : Reply)
    (htype : message.messageType = .response ∨ message.messageType = .pong)
      (hreplies : Replies message reply) :
      (e.setPending (e.connection.pending.complete message.correlationId.toNat reply)).Sound
        (e.setPending (e.connection.pending.complete message.correlationId.toNat
          reply)).reader.held := by
    refine hregistry (.response message.correlationId.toNat reply) _ (hnotInbound ?_) rfl
      (PendingRequests.length_futures _ (.complete _ _)) fun f id reply' hf ↦ ?_
    · rcases htype with htype | htype
      · rw [htype]
        decide
      · rw [htype]
        decide
    · rcases PendingRequests.result_of_complete h.tracks.sound hf with hold | ⟨hfuture, rfl⟩
      · exact .inl hold
      · exact .inr ⟨message, hreceived, by rw [← hfuture, Int.toNat_of_nonneg hid], hreplies⟩
  simp only [Endpoint.dispatch]
  split
  · next htype => exact hcompletes _ (.inl htype) (.inl ⟨htype, rfl⟩)
  · next htype =>
    refine hregistry (.errorResponse message.correlationId.toNat
      (ErrorPayload.decodeError message.body)) _
      (hnotInbound (by rw [htype]; decide)) rfl (PendingRequests.length_futures _ (.fail _ _))
        fun f id reply hf ↦ .inl ?_
    exact PendingRequests.noNewResult_step e.connection.pending (.fail _ _) nofun f id reply hf
  · next htype => exact hcompletes _ (.inr htype) (.inr ⟨htype, rfl⟩)
  · next htype =>
    have hspawned : (e.spawn (.pong message)).Sound [] := by
      refine (hnotInbound (by rw [htype]; decide)).addTask rfl rfl rfl fun m hm ↦ ?_
      obtain rfl := TaskKind.pong.inj hm
      exact ⟨htype, hreceived⟩
    refine (hspawned.writeFrame (t := ⟨.pong message, .handling, false⟩) ?_ nofun rfl rfl).reader _
    exact (List.getElem?_append_right le_rfl).trans (by rw [Nat.sub_self]; rfl)
  · next htype =>
    split
    · exact (hinbound (.inl htype)).reader _
    · next hpermit =>
      have hspawned := (hinbound (.inl htype)).spawnHandler hpermit
      rwa [show (e.spawnHandler message).reader.held = [] from congrArg ReaderPhase.held hreader]
  · next htype =>
    split
    · exact (hinbound (.inr htype)).reader _
    · next hpermit =>
      have hspawned := (hinbound (.inr htype)).spawnHandler hpermit
      rwa [show (e.spawnHandler message).reader.held = [] from congrArg ReaderPhase.held hreader]

/-- What nothing but a read changes, what is only added to, and the bound of the semaphore. -/
structure Extends (e e' : Endpoint) : Prop where
  options : e'.options = e.options
  maxInboundConcurrency : e'.maxInboundConcurrency = e.maxInboundConcurrency
  received : e'.received = e.received
  incoming : e'.incoming = e.incoming
  sent : e.sent <+: e'.sent
  futures : e.connection.pending.futures.length ≤ e'.connection.pending.futures.length

theorem extends_of_same (hconnection : e'.connection = e.connection)
    (hmax : e'.maxInboundConcurrency = e.maxInboundConcurrency)
    (hreceived : e'.received = e.received) (hincoming : e'.incoming = e.incoming)
    (hsent : e'.sent = e.sent) : e.Extends e' :=
  ⟨congrArg SiloConnection.options hconnection, hmax, hreceived, hincoming, hsent ▸ List.prefix_rfl,
    by rw [hconnection]⟩

theorem extends_write (e : Endpoint) (task : ℕ) (t : ConnectionTask) (frame : Wire.TransportMessage)
    (buffered : ℕ) :
    e.Extends (e.write task t frame buffered) := by
  unfold Endpoint.write
  split
  · exact extends_of_same rfl rfl rfl rfl rfl
  · exact ⟨rfl, rfl, rfl, rfl, List.prefix_append _ _, le_rfl⟩

theorem extends_writeFrame (e : Endpoint) (task : ℕ) (t : ConnectionTask)
    (frame : Wire.TransportMessage) (buffered : ℕ) :
    e.Extends (e.writeFrame task t frame buffered) := by
  unfold Endpoint.writeFrame
  split
  · exact extends_of_same rfl rfl rfl rfl rfl
  · split
    · exact extends_write e task t frame buffered
    · exact extends_of_same rfl rfl rfl rfl rfl

theorem extends_dispatch (e : Endpoint) (message : Wire.TransportMessage) (buffered : ℕ) :
    e.Extends (e.dispatch message buffered) := by
  have hregistry (op : PendingOp Reply RaisedException) : e.Extends
    (e.setPending (e.connection.pending.step op)) := by
    refine ⟨rfl, rfl, rfl, rfl, List.prefix_rfl, ?_⟩
    change _ ≤ (e.connection.pending.step op).futures.length
    rw [PendingRequests.length_futures]
    exact Nat.le_add_right _ _
  simp only [Endpoint.dispatch]
  split
  · exact hregistry (.complete _ _)
  · exact hregistry (.fail _ _)
  · exact hregistry (.complete _ _)
  · obtain ⟨ho, hm, hr, hi, hs, hf⟩ := extends_writeFrame (e.spawn (.pong message)) e.tasks.length
      ⟨.pong message, .handling, false⟩ ⟨.pong, message.correlationId, [], []⟩ buffered
    exact ⟨ho, hm, hr, hi, hs, hf⟩
  · split <;> exact extends_of_same rfl rfl rfl rfl rfl
  · split <;> exact extends_of_same rfl rfl rfl rfl rfl

/-- A read takes one frame off the stream, or ends the read loop; nothing else takes any. -/
theorem step_extends {event : EndpointEvent} (hstep : e.step event = some e') :
    e.Extends e' ∨ ∃ message incoming, readFrame e.incoming e.options.maxMessageSize =
      .ok (message, incoming) ∧
      { e with incoming := incoming, received := e.received ++ [message] }.Extends e' := by
  cases event with
  | connection event =>
    simp only [Endpoint.step] at hstep
    split_ifs at hstep
    obtain ⟨c, hc, rfl⟩ := Option.map_eq_some_iff.mp hstep
    obtain ⟨hoptions, -⟩ := SiloConnection.step_grows hc
    exact .inl ⟨hoptions, rfl, rfl, rfl, List.prefix_append _ _,
      SiloConnection.length_futures_le hc⟩
  | sendOneWay header body buffered =>
    simp only [Endpoint.step] at hstep
    split_ifs at hstep <;> cases hstep
    · exact .inl (extends_of_same rfl rfl rfl rfl rfl)
    · obtain ⟨ho, hm, hr, hi, hs, hf⟩ := extends_writeFrame (e.spawn .oneWay) e.tasks.length
        ⟨.oneWay, .handling, false⟩ ⟨.oneWay, 0, header, body⟩ buffered
      exact .inl ⟨ho, hm, hr, hi, hs, hf⟩
  | read buffered =>
    simp only [Endpoint.step] at hstep
    split_ifs at hstep
    split at hstep <;> cases hstep
    · exact .inl (extends_of_same rfl rfl rfl rfl rfl)
    · next message incoming hread =>
        exact .inr ⟨message, incoming, hread, extends_dispatch _ message buffered⟩
  | acquired =>
    simp only [Endpoint.step] at hstep
    split at hstep
    · split_ifs at hstep
      cases hstep
      exact .inl (extends_of_same rfl rfl rfl rfl rfl)
    · cases hstep
  | ponged =>
    simp only [Endpoint.step] at hstep
    split at hstep
    · split at hstep <;> cases hstep
      exact .inl (extends_of_same rfl rfl rfl rfl rfl)
    · cases hstep
  | readerEnds =>
    simp only [Endpoint.step] at hstep
    split at hstep <;> cases hstep <;> exact .inl (extends_of_same rfl rfl rfl rfl rfl)
  | handled task outcome buffered =>
    simp only [Endpoint.step] at hstep
    split at hstep
    · split_ifs at hstep
      · cases hstep
        exact .inl (extends_of_same rfl rfl rfl rfl rfl)
      · split at hstep <;> cases hstep
        · exact .inl (extends_of_same rfl rfl rfl rfl rfl)
        · exact .inl (extends_writeFrame _ _ _ _ _)
    · cases hstep
  | locked task buffered =>
    simp only [Endpoint.step] at hstep
    split at hstep
    · split_ifs at hstep
      cases hstep
      exact .inl (extends_write _ _ _ _ _)
    · cases hstep
  | drained task drainError =>
    simp only [Endpoint.step] at hstep
    split at hstep <;> cases hstep
    exact .inl ⟨rfl, rfl, rfl, rfl, List.prefix_rfl, le_rfl⟩
  | cancelled task =>
    simp only [Endpoint.step] at hstep
    split at hstep <;> cases hstep <;> exact .inl ⟨rfl, rfl, rfl, rfl, List.prefix_rfl, le_rfl⟩
  | released task =>
    simp only [Endpoint.step] at hstep
    split at hstep <;> cases hstep
    exact .inl (extends_of_same rfl rfl rfl rfl rfl)

theorem futures_le_step {event : EndpointEvent} (hstep : e.step event = some e') :
    e.connection.pending.futures.length ≤ e'.connection.pending.futures.length := by
  rcases step_extends hstep with h | ⟨_, _, -, h⟩
  · exact h.futures
  · exact h.futures

theorem Sound.receive (h : e.Sound []) (message : Wire.TransportMessage) (incoming : WireReader) :
    { e with incoming := incoming, received := e.received ++ [message] }.Sound
      (if isInbound message then [message] else []) := by
  refine ⟨h.tracks, h.wrote, h.calls, h.encoded, ?_, h.permits, h.released, h.frames,
    fun t ht m hm ↦ ?_, h.answers,
    fun f id reply hf ↦ ?_⟩
  · have hhandled := h.handled
    rw [List.append_nil] at hhandled
    rw [List.filter_append, List.filter_singleton, ← hhandled]
    cases isInbound message <;> rfl
  · obtain ⟨hping, hreceived⟩ := h.pongs t ht m hm
    exact ⟨hping, List.mem_append_left _ hreceived⟩
  · obtain ⟨m, hm, hreplies⟩ := h.results f id reply hf
    exact ⟨m, List.mem_append_left _ hm, hreplies⟩

theorem encodeErrorResponse_ok {correlationId : ℤ} {exceptionClass : ExceptionClass}
    {text : Option String}
    (h : SiloConnection.encodeErrorResponse correlationId exceptionClass text = .ok frame) :
    frame.messageType = .error ∧ frame.correlationId = correlationId := by
  unfold SiloConnection.encodeErrorResponse at h
  split at h
  · cases h
  · split at h <;> cases h
    exact ⟨rfl, rfl⟩

/-- A handler that keeps to its contract leaves a reply to its own request. -/
theorem writes_of_answers {outcome : HandlerOutcome} (hrequest : message.messageType = .request)
    (hanswers : SiloConnection.Answers message outcome)
    (h : SiloConnection.invokeHandlerSafely message outcome = .ok frame) : Writes
      (.handler message) frame := by
  cases outcome with
  | returnsNone =>
    simp only [SiloConnection.invokeHandlerSafely] at h
    obtain ⟨htype, hid⟩ := encodeErrorResponse_ok h
    exact ⟨hrequest, .inr htype, hid⟩
  | returns response =>
    cases h
    obtain ⟨htype, hid⟩ := hanswers frame rfl
    exact ⟨hrequest, .inl htype, hid⟩
  | raises exceptionClass text =>
    simp only [SiloConnection.invokeHandlerSafely] at h
    obtain ⟨htype, hid⟩ := encodeErrorResponse_ok h
    exact ⟨hrequest, .inr htype, hid⟩

theorem write_reader (e : Endpoint) (task : ℕ) (t : ConnectionTask) (frame : Wire.TransportMessage)
    (buffered : ℕ) :
    (e.write task t frame buffered).reader = e.reader := by
  unfold Endpoint.write
  split <;> rfl

theorem writeFrame_reader (e : Endpoint) (task : ℕ) (t : ConnectionTask)
    (frame : Wire.TransportMessage) (buffered : ℕ) :
    (e.writeFrame task t frame buffered).reader = e.reader := by
  unfold Endpoint.writeFrame
  split
  · rfl
  · split
    · exact write_reader e task t frame buffered
    · rfl

def KeepsContract (e : Endpoint) : EndpointEvent → Prop
  | .handled task outcome _ =>
    ∀ message ∈ (e.tasks[task]?).bind ConnectionTask.handles, SiloConnection.Answers message outcome
  | _ => True

instance decidableAnswers (request : Wire.TransportMessage) :
    ∀ outcome, Decidable (SiloConnection.Answers request outcome)
  | .returns response =>
    decidable_of_iff (response.messageType = .response ∧
      response.correlationId = request.correlationId)
      ⟨fun h _ he ↦ HandlerOutcome.returns.inj he ▸ h, fun h ↦ h response rfl⟩
  | .returnsNone => .isTrue fun _ he ↦ HandlerOutcome.noConfusion he
  | .raises _ _ => .isTrue fun _ he ↦ HandlerOutcome.noConfusion he

instance decidableKeepsContract (e : Endpoint) : ∀ event, Decidable (e.KeepsContract event)
  | .handled task outcome _ =>
    inferInstanceAs (Decidable (∀ message ∈ (e.tasks[task]?).bind ConnectionTask.handles,
      SiloConnection.Answers message outcome))
  | .connection _ | .sendOneWay _ _ _ | .read _ | .acquired | .ponged | .readerEnds | .locked _ _
  | .drained _ _ | .cancelled _ | .released _ => .isTrue trivial

theorem Sound.step {event : EndpointEvent} (h : e.Sound e.reader.held) (hok : e.KeepsContract event)
    (hstep : e.step event = some e')
    (hbound : e'.connection.pending.futures.length < PendingRequests.UINT64_MAX) :
    e'.Sound e'.reader.held := by
  have hbefore := (futures_le_step hstep).trans_lt hbound
  cases event with
  | connection event =>
    simp only [Endpoint.step] at hstep
    split_ifs at hstep with hown
    obtain ⟨c, hc, rfl⟩ := Option.map_eq_some_iff.mp hstep
    refine h.connectionStep hc hbound fun f id reply hf ↦ .inl ?_
    refine SiloConnection.step_results hc ?_ f id reply hf
    rintro id reply rfl
    cases hown
  | sendOneWay header body buffered =>
    simp only [Endpoint.step] at hstep
    split_ifs at hstep <;> cases hstep
    · exact h.addTask rfl rfl rfl nofun
    · have hspawned : (e.spawn .oneWay).Sound e.reader.held := h.addTask rfl rfl rfl nofun
      rw [writeFrame_reader]
      refine hspawned.writeFrame (t := ⟨.oneWay, .handling, false⟩) ?_ nofun rfl rfl
      exact (List.getElem?_append_right le_rfl).trans (by rw [Nat.sub_self]; rfl)
  | read buffered =>
    simp only [Endpoint.step] at hstep
    split_ifs at hstep with hguard
    rw [hguard.1] at h
    split at hstep <;> cases hstep
    · exact h.reader _
    · next message incoming hread =>
      obtain ⟨frame, hframe, -⟩ := readFrame_sound hread
      exact (h.receive message incoming).dispatch hguard.1 (encodeFrame_eq_ok.mp hframe).1.1
        (List.mem_append_right _ (List.mem_singleton.mpr rfl)) hbefore
  | acquired =>
    simp only [Endpoint.step] at hstep
    split at hstep
    · next message hreader =>
      split_ifs at hstep with hpermit
      cases hstep
      rw [hreader] at h
      exact (h.reader .reading).spawnHandler hpermit
    · cases hstep
  | ponged =>
    simp only [Endpoint.step] at hstep
    split at hstep
    · next hreader =>
      split at hstep <;> cases hstep
      rw [hreader] at h
      split_ifs
      · exact h.reader .reading
      · exact h.reader (.ended none)
    · cases hstep
  | readerEnds =>
    simp only [Endpoint.step] at hstep
    split at hstep
    · next hreader =>
      cases hstep
      rw [hreader] at h
      exact h.reader (.ended none)
    · next message hreader =>
      cases hstep
      rw [hreader] at h
      exact h.reader (.ended (some message))
    · cases hstep
  | handled task outcome buffered =>
    simp only [Endpoint.step] at hstep
    split at hstep
    · next message released ht =>
      split_ifs at hstep with htype
      · cases hstep
        exact h.setTask ht nofun nofun nofun
      · split at hstep <;> cases hstep
        · exact h.setTask ht nofun nofun nofun
        · next response hresponse =>
          have hin : message ∈ e.received.filter isInbound := by
            rw [← h.handled]
            exact List.mem_append_left _ (List.mem_filterMap.mpr ⟨_, List.mem_of_getElem? ht, rfl⟩)
          have hrequest := (of_decide_eq_true (List.mem_filter.mp hin).2).resolve_right htype
          rw [writeFrame_reader]
          refine h.writeFrame ht nofun rfl (writes_of_answers hrequest (hok message ?_) hresponse)
          rw [ht]
          rfl
    · cases hstep
  | locked task buffered =>
    simp only [Endpoint.step] at hstep
    split at hstep
    · next kind frame released ht =>
      split_ifs at hstep
      cases hstep
      have hframe := h.frames _ (List.mem_of_getElem? ht) frame (List.mem_singleton.mpr rfl)
      rw [write_reader]
      exact h.write ht nofun rfl hframe
    · cases hstep
  | drained task drainError =>
    simp only [Endpoint.step] at hstep
    split at hstep
    · next kind frame released ht =>
      cases hstep
      exact (h.setLock none).setTask ht nofun (h.frames _ (List.mem_of_getElem? ht)) fun m hm ↦ hm
    · cases hstep
  | cancelled task =>
    simp only [Endpoint.step] at hstep
    split at hstep
    · next ht =>
      cases hstep
      exact h.setTask ht nofun nofun nofun
    · next ht =>
      cases hstep
      exact h.setTask ht nofun nofun nofun
    · next ht =>
      cases hstep
      exact (h.setLock none).setTask ht nofun (h.frames _ (List.mem_of_getElem? ht)) fun m hm ↦ hm
    · cases hstep
  | released task =>
    simp only [Endpoint.step] at hstep
    split at hstep
    · next message result ht =>
      cases hstep
      exact h.replaceTask (n := e.inboundSem + 1) ht rfl rfl (fun _ ↦ ⟨result, rfl⟩)
        (h.frames ⟨.handler message, .finished result, false⟩ (List.mem_of_getElem? ht)) fun m hm ↦
          hm
    · cases hstep

end

end Endpoint

end Pyleans
