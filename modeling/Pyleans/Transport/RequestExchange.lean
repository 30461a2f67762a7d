import Pyleans.Transport.ReadLoop
import Pyleans.Transport.SimultaneousDial

namespace Pyleans

open Library Wire

namespace Endpoint

def frameBytes (options : ConnectionOptions) (frame : Wire.TransportMessage) : List UInt8 :=
  (encodeFrame frame options.maxMessageSize).toOption.getD []

def deliver (e : Endpoint) (chunks : List (List UInt8)) : Endpoint :=
  { e with incoming := ⟨e.incoming.buffer, e.incoming.arriving ++ chunks⟩ }

/-- What an end has still to read is what its peer has written since. -/
def Linked (e peer : Endpoint) : Prop :=
  ∃ queued, e.received ++ queued = peer.sent ∧
    e.incoming.remaining = (queued.map (frameBytes peer.options)).flatten

def AnsweredBy (peer : Endpoint) (request : Wire.TransportMessage) (reply : Reply) : Prop :=
  ∃ (k : ℕ) (t : ConnectionTask), peer.tasks[k]? = some t ∧ t.kind = .handler request ∧
    ⟨.response, request.correlationId, reply.1, reply.2⟩ ∈ t.phase.written ∧
    ∀ (j : ℕ) (u : ConnectionTask), peer.tasks[j]? = some u → u.kind = .handler request → j = k

/-- What the call of a task returns that waits under the id: the answer to the one message
that was sent under it. -/
structure Returned (e peer : Endpoint) (task : ℕ) (sender : Sender) (reply : Reply)
    (id : ℕ) : Prop where
  waits : ∃ f, e.connection.senders[task]? = some { sender with phase := .awaitingReply id f }
  once : e.sent.filter (fun m ↦ isCall m && m.correlationId == id) = [sender.message id]
  answer : (sender.messageType = .request ∧ AnsweredBy peer (sender.message id) reply) ∨
    (sender.messageType = .ping ∧ sender.message id ∈ peer.received ∧ reply = ([], []))

def isUnfinished : TaskPhase → Bool
  | .finished _ => false
  | _ => true

def unfinishedHandlers (e : Endpoint) : ℕ :=
  e.tasks.countP fun t ↦ t.handles.isSome && isUnfinished t.phase

/-- What an end may rely on, whatever its peer does. -/
structure Corresponds (e peer : Endpoint) : Prop where
  delivered : e.received <+: peer.sent
  handled : e.tasks.filterMap ConnectionTask.handles <+: peer.sent.filter isInbound
  bounded : e.unfinishedHandlers ≤ e.maxInboundConcurrency
  returned : ∀ (task : ℕ) (c : SiloConnection) (sender : Sender) (reply : Reply),
    e.connection.step (.replied task) = some c → c.senders[task]? = some sender →
      sender.phase = .finished (.inr reply) → ∃ id, Returned e peer task sender reply id

end Endpoint

abbrev Exchange := Side → Endpoint

namespace Exchange

open Endpoint

def new (options : Side → ConnectionOptions) (maxInboundConcurrency : Side → ℕ) : Exchange :=
  fun side ↦ .new (options side) (maxInboundConcurrency side)

def step (s : Exchange) (event : Side × EndpointEvent) : Option Exchange :=
  ((s event.1).step event.2).map fun e side ↦
    if side = event.1 then e
    else (s side).deliver ((e.sent.drop (s event.1).sent.length).map (frameBytes e.options))

def KeepsContract (s : Exchange) (event : Side × EndpointEvent) : Prop :=
  (s event.1).KeepsContract event.2

instance decidableKeepsContract (s : Exchange) (event : Side × EndpointEvent) :
    Decidable (s.KeepsContract event) :=
  inferInstanceAs (Decidable ((s event.1).KeepsContract event.2))

/-- The ids have not begun anew. -/
def FewCalls (s : Exchange) : Prop :=
  ∀ side, (s side).connection.pending.futures.length < PendingRequests.UINT64_MAX

section

variable {e peer : Endpoint} {options : ConnectionOptions} {queued : List Wire.TransportMessage}
  {s s' : Exchange}
  {event : Side × EndpointEvent}

theorem other_other (side : Side) : side.other.other = side := by cases side <;> rfl

theorem encodeFrame_mono {message : Wire.TransportMessage} {frame : List UInt8}
    {maxSize maxSize' : ℤ} (h : encodeFrame message maxSize = .ok frame)
    (hle : maxSize ≤ maxSize') :
      encodeFrame message maxSize' = .ok frame := by
  obtain ⟨hid, htotal, hsize, hframe⟩ := encodeFrame_eq_ok.mp h
  exact encodeFrame_eq_ok.mpr ⟨hid, htotal, hsize.trans hle, hframe⟩

/-- A read gives the first of the frames on the way, whatever the limits of the two ends are. -/
theorem read_head {reader reader' : WireReader} {maxSize : ℤ} {message : Wire.TransportMessage}
    (hencodes : ∀ m ∈ queued, Encodes options m)
    (hremaining : reader.remaining = (queued.map (frameBytes options)).flatten)
    (hread : readFrame reader maxSize = .ok (message, reader')) :
    ∃ rest, queued = message :: rest ∧
      reader'.remaining = (rest.map (frameBytes options)).flatten := by
  cases queued with
  | nil =>
    rw [readFrame_at_end maxSize hremaining] at hread
    cases hread
  | cons m rest =>
    obtain ⟨frame, hframe⟩ := hencodes m List.mem_cons_self
    obtain ⟨frame', hframe', hr⟩ := readFrame_sound hread
    have hbytes : frameBytes options m = frame := by rw [frameBytes, hframe]; rfl
    rw [List.map_cons, List.flatten_cons, hbytes] at hremaining
    obtain ⟨reader₁, hread₁, hrest₁⟩ :=
      readFrame_complete (encodeFrame_mono hframe (le_max_left _ maxSize)) hremaining
    obtain ⟨reader₂, hread₂, hrest₂⟩ :=
      readFrame_complete (encodeFrame_mono hframe' (le_max_right _ _)) hr
    obtain ⟨rfl, rfl⟩ := Prod.mk.inj (Except.ok.inj (hread₁.symm.trans hread₂))
    exact ⟨rest, rfl, hrest₂.symm.trans hrest₁⟩

theorem sound_deliver {held : List Wire.TransportMessage} (h : e.Sound held)
    (chunks : List (List UInt8)) :
    (e.deliver chunks).Sound held :=
  ⟨h.tracks, h.wrote, h.calls, h.encoded, h.handled, h.permits, h.released, h.frames, h.pongs,
    h.answers, h.results⟩

theorem remaining_deliver (e : Endpoint) (chunks : List (List UInt8)) :
    (e.deliver chunks).incoming.remaining = e.incoming.remaining ++ chunks.flatten := by
  simp only [deliver, StreamReader.remaining, List.flatten_append, List.append_assoc]

/-- Both ends are sound, and the streams between them carry what was written. -/
def Invariant (s : Exchange) : Prop :=
  ∀ side, (s side).Sound (s side).reader.held ∧ Linked (s side) (s side.other)

theorem invariant_new (options : Side → ConnectionOptions) (maxInboundConcurrency : Side → ℕ) :
    (new options maxInboundConcurrency).Invariant :=
  fun _ ↦ ⟨sound_new _ _, [], rfl, rfl⟩

theorem fewCalls_back (hstep : s.step event = some s') (h : s'.FewCalls) : s.FewCalls := by
  obtain ⟨e, he, rfl⟩ := Option.map_eq_some_iff.mp hstep
  intro side
  have hside := h side
  by_cases hmoves : side = event.1
  · subst hmoves
    dsimp only at hside
    rw [if_pos rfl] at hside
    exact (futures_le_step he).trans_lt hside
  · dsimp only at hside
    rw [if_neg hmoves] at hside
    exact hside

theorem Invariant.step (h : s.Invariant) (hok : s.KeepsContract event)
    (hstep : s.step event = some s') (hfew : s'.FewCalls) : s'.Invariant := by
  obtain ⟨x, event⟩ := event
  obtain ⟨e, he, rfl⟩ := Option.map_eq_some_iff.mp hstep
  have hbound := hfew x
  dsimp only at he hbound
  rw [if_pos rfl] at hbound
  obtain ⟨hsound, queued, hreceived, hremaining⟩ := h x
  obtain ⟨hpeer, queued', hreceived', hremaining'⟩ := h x.other
  rw [other_other] at hreceived' hremaining'
  obtain ⟨⟨new, hnew⟩, hoptions⟩ : (s x).sent <+: e.sent ∧ e.options = (s x).options := by
    rcases step_extends he with hext | ⟨_, _, -, hext⟩
    · exact ⟨hext.sent, hext.options⟩
    · exact ⟨hext.sent, hext.options⟩
  have hlinked : Linked e (s x.other) := by
    rcases step_extends he with hext | ⟨message, incoming, hread, hext⟩
    · exact ⟨queued, hext.received ▸ hreceived, hext.incoming ▸ hremaining⟩
    · have hencodes : ∀ m ∈ queued, Encodes (s x.other).options m := by
        intro m hm
        refine hpeer.encoded m ?_
        rw [← hreceived]
        exact List.mem_append_right _ hm
      obtain ⟨rest, rfl, hrest⟩ := read_head hencodes hremaining hread
      refine ⟨rest, ?_, hext.incoming ▸ hrest⟩
      rw [hext.received, ← hreceived]
      exact List.append_assoc _ _ _
  intro side
  rcases Side.eq_or_eq_other side x with hside | hside
  · rw [hside]
    dsimp only
    rw [if_pos rfl, if_neg (Side.other_ne x)]
    exact ⟨hsound.step hok he hbound, hlinked⟩
  · rw [hside]
    dsimp only
    rw [other_other, if_pos rfl, if_neg (Side.other_ne x)]
    refine ⟨sound_deliver hpeer _, queued' ++ new, ?_, ?_⟩
    · rw [← hnew, ← hreceived']
      exact (List.append_assoc _ _ _).symm
    · rw [remaining_deliver, hremaining', ← hnew, List.drop_left, List.map_append,
        List.flatten_append, hoptions]

theorem invariant_run {options : Side → ConnectionOptions} {maxInboundConcurrency : Side → ℕ}
    {events : List (Side × EndpointEvent)}
    (hrun : exec step (new options maxInboundConcurrency) events = some s)
    (hok : Meets step KeepsContract (new options maxInboundConcurrency) events)
    (hfew : s.FewCalls) : s.Invariant :=
  (guarded_of_exec hrun hok).invariant (I := fun s ↦ s.FewCalls → s.Invariant)
    (fun _ ↦ invariant_new options maxInboundConcurrency)
    (fun _ _ _ h hok hstep hfew ↦ (h (fewCalls_back hstep hfew)).step hok hstep hfew) hfew

theorem filter_eq_singleton {α β : Type} [DecidableEq β] {f : α → β} {l : List α} {x : α}
    (hnodup : (l.map f).Nodup) (hx : x ∈ l) : l.filter (fun y ↦ f y == f x) = [x] := by
  induction l with
  | nil => exact absurd hx List.not_mem_nil
  | cons y l ih =>
    rw [List.map_cons, List.nodup_cons] at hnodup
    rcases List.mem_cons.mp hx with rfl | hx
    · have hrest : ∀ z ∈ l, ¬(f z == f x) = true := by
        intro z hz he
        exact hnodup.1 (eq_of_beq he ▸ List.mem_map_of_mem hz)
      rw [List.filter_cons, if_pos (beq_self_eq_true (f x)), List.filter_eq_nil_iff.mpr hrest]
    · have hne : ¬(f y == f x) = true := by
        intro he
        exact hnodup.1 (eq_of_beq he ▸ List.mem_map_of_mem hx)
      rw [List.filter_cons, if_neg hne, ih hnodup.2 hx]

/-- No two calls have been sent under one id. -/
theorem pairwise_calls {held : List Wire.TransportMessage} (h : e.Sound held) :
    e.sent.Pairwise fun m m' ↦ isCall m = true → isCall m' = true →
      m.correlationId ≠ m'.correlationId := by
  have honce := h.wrote.once
  rw [← h.calls, List.Nodup, List.pairwise_map, List.pairwise_filter] at honce
  exact honce

/-- What was sent under the id of a call is that call alone. -/
theorem filter_call {held : List Wire.TransportMessage} {message : Wire.TransportMessage}
    (h : e.Sound held) (hwritten : message ∈ e.connection.written) :
    e.sent.filter (fun m ↦ isCall m && m.correlationId == message.correlationId) = [message] := by
  have hfilter : e.sent.filter (fun m ↦ isCall m && m.correlationId == message.correlationId) =
      e.connection.written.filter fun m ↦ m.correlationId == message.correlationId := by
    rw [← h.calls, List.filter_filter]
    exact List.filter_congr fun m _ ↦ Bool.and_comm _ _
  rw [hfilter]
  exact filter_eq_singleton h.wrote.once hwritten

/-- What handlers run for has been sent, in this order. -/
theorem handled_in_order (h : peer.Sound peer.reader.held) (hlinked : Linked peer e) :
    peer.tasks.filterMap ConnectionTask.handles <+: e.sent.filter isInbound := by
  obtain ⟨queued, hreceived, -⟩ := hlinked
  have hhandled : peer.tasks.filterMap ConnectionTask.handles <+: peer.received.filter isInbound :=
    ⟨_, h.handled⟩
  exact hhandled.trans (List.IsPrefix.filter _ ⟨queued, hreceived⟩)

/-- For a request that was sent no second handler is spawned. -/
theorem handler_unique {request : Wire.TransportMessage} {held : List Wire.TransportMessage}
    (h : e.Sound held) (hpeer : peer.Sound peer.reader.held) (hlinked : Linked peer e)
    (hrequest : isCall request = true) {j k : ℕ} {t u : ConnectionTask}
    (ht : peer.tasks[k]? = some t) (hu : peer.tasks[j]? = some u)
    (hkind : t.kind = .handler request) (hkind' : u.kind = .handler request) : j = k := by
  have hhandles : ∀ v : ConnectionTask, v.kind = .handler request → v.handles = some request := by
    intro v hv
    rw [ConnectionTask.handles, hv]
  have hpairs := (pairwise_calls h).sublist
    ((handled_in_order hpeer hlinked).sublist.trans List.filter_sublist)
  rw [List.pairwise_filterMap] at hpairs
  have hapart : ∀ (i i' : ℕ) (v v' : ConnectionTask), peer.tasks[i]? = some v →
    peer.tasks[i']? = some v' →
      v.kind = .handler request → v'.kind = .handler request → ¬ i < i' := by
    intro i i' v v' hv hv' hvkind hvkind' hlt
    obtain ⟨hi, rfl⟩ := List.getElem?_eq_some_iff.mp hv
    obtain ⟨hi', rfl⟩ := List.getElem?_eq_some_iff.mp hv'
    have hne := List.pairwise_iff_getElem.mp hpairs i i' hi hi' hlt
    exact hne request (hhandles _ hvkind) request (hhandles _ hvkind') hrequest hrequest rfl
  rcases lt_trichotomy j k with hlt | he | hlt
  · exact absurd hlt (hapart j k u t hu ht hkind' hkind)
  · exact he
  · exact absurd hlt (hapart k j t u ht hu hkind hkind')

theorem unfinishedHandlers_le {held : List Wire.TransportMessage} (h : e.Sound held) :
    e.unfinishedHandlers ≤ e.maxInboundConcurrency := by
  have hholds : e.unfinishedHandlers ≤ e.tasks.countP ConnectionTask.holdsPermit := by
    refine List.countP_mono_left fun t ht hunfinished ↦ ?_
    rw [Bool.and_eq_true] at hunfinished
    have hreleased : t.released = false := by
      rw [← Bool.not_eq_true]
      intro hreleased
      obtain ⟨result, hresult⟩ := h.released t ht hreleased
      rw [hresult] at hunfinished
      exact absurd hunfinished.2 Bool.false_ne_true
    rw [ConnectionTask.holdsPermit, hunfinished.1, hreleased]
    rfl
  have hpermits := h.permits
  omega

/-- A call that returns a reply returns the one that the peer wrote for its own message. -/
theorem exists_returned {held : List Wire.TransportMessage} {task : ℕ} {c : SiloConnection}
    {sender : Sender} {reply : Reply} (h : e.Sound held) (hpeer : peer.Sound peer.reader.held)
    (hlinked : Linked e peer) (hlinked' : Linked peer e)
    (hstep : e.connection.step (.replied task) = some c) (hsender : c.senders[task]? = some sender)
    (hphase : sender.phase = .finished (.inr reply)) :
    ∃ id, Returned e peer task sender reply id := by
  obtain ⟨id, f, i, ht, hf⟩ := SiloConnection.result_of_replied hstep hsender hphase
  have hmember := List.mem_of_getElem? ht
  have hid : id = f + 1 := (h.tracks.tracked _ hmember (id, f) rfl).id
  have hwritten : sender.message id ∈ e.connection.written :=
    h.wrote.written _ hmember id f (.inr rfl)
  have hsent : sender.message id ∈ e.sent := by
    rw [← h.calls] at hwritten
    exact (List.mem_filter.mp hwritten).1
  have honce := filter_call h hwritten
  have hown : ∀ message ∈ e.sent, isCall message = true → message.correlationId = id →
    message = sender.message id := by
    intro message hmessage hcall he
    refine List.mem_singleton.mp (honce ▸ List.mem_filter.mpr ⟨hmessage, ?_⟩)
    rw [hcall, he, Bool.true_and]
    exact beq_self_eq_true _
  obtain ⟨m, hm, hmid, hreplies⟩ := h.results f i reply hf
  rw [← hid] at hmid
  obtain ⟨queued, hreceived, -⟩ := hlinked
  have hpsent : m ∈ peer.sent := by
    rw [← hreceived]
    exact List.mem_append_left _ hm
  have hnot : isCall m = false := by
    rcases hreplies with ⟨htype, -⟩ | ⟨htype, -⟩
    · exact isCall_of_type htype (by decide)
    · exact isCall_of_type htype (by decide)
  obtain ⟨t, htask, hwrote⟩ := hpeer.answers m hpsent hnot
  obtain ⟨hwrites, -⟩ := hpeer.frames t htask m (mem_frames_of_written hwrote)
  obtain ⟨queued', hreceived', -⟩ := (show Linked peer e from hlinked')
  have harrived : ∀ message ∈ peer.received, message ∈ e.sent := by
    intro message hmessage
    rw [← hreceived']
    exact List.mem_append_left _ hmessage
  generalize hkind : t.kind = kind at hwrites
  cases kind with
  | handler request =>
    obtain ⟨hrequest, htype, hrequestId⟩ := hwrites
    have hcall : isCall request = true := decide_eq_true (.inl hrequest)
    have hhandled : request ∈ peer.received.filter isInbound := by
      rw [← hpeer.handled]
      refine List.mem_append_left _ (List.mem_filterMap.mpr ⟨t, htask, ?_⟩)
      rw [ConnectionTask.handles, hkind]
    have he : request = sender.message id :=
      hown request (harrived request (List.mem_filter.mp hhandled).1) hcall
        (hrequestId.symm.trans hmid)
    obtain ⟨k, hk⟩ := List.mem_iff_getElem?.mp htask
    rcases hreplies with ⟨hresponse, rfl⟩ | ⟨hpong, -⟩
    · refine ⟨id, ⟨f, ht⟩, honce, .inl ⟨?_, k, t, hk, he ▸ hkind, ?_, fun j u hu hukind ↦ ?_⟩⟩
      · rw [he] at hrequest
        exact hrequest
      · rw [← hresponse, ← he, ← hrequestId]
        exact hwrote
      · rw [he] at hcall hkind
        exact handler_unique h hpeer hlinked' hcall hk hu hkind hukind
    · rw [hpong] at htype
      rcases htype with htype | htype <;> cases htype
  | pong ping =>
    obtain ⟨hping, hpinged⟩ := hpeer.pongs t htask ping hkind
    have hframe : m = ⟨.pong, ping.correlationId, [], []⟩ := hwrites
    have he : ping = sender.message id := by
      refine hown ping (harrived ping hpinged) (decide_eq_true (.inr hping)) ?_
      rw [hframe] at hmid
      exact hmid
    rcases hreplies with ⟨hresponse, -⟩ | ⟨-, hreply⟩
    · rw [hframe] at hresponse
      cases hresponse
    · rw [he] at hping hpinged
      exact ⟨id, ⟨f, ht⟩, honce, .inr ⟨hping, hpinged, hreply⟩⟩
  | oneWay =>
    have htype : m.messageType = .oneWay := hwrites
    rcases hreplies with ⟨hresponse, -⟩ | ⟨hpong, -⟩
    · rw [hresponse] at htype
      cases htype
    · rw [hpong] at htype
      cases htype

/-- On one connection, in every run in which the handlers keep their contract: frames
arrive in the order they were sent, each request and one-way call is handled at most once
and in that order by a bounded number of handlers, and a call that returns a reply returns
what the one handler of its own request wrote, whichever answers come first. -/
theorem calls_return_own_answers (options : Side → ConnectionOptions)
    (maxInboundConcurrency : Side → ℕ) (events : List (Side × EndpointEvent))
    (hrun : exec step (new options maxInboundConcurrency) events = some s)
    (hok : Meets step KeepsContract (new options maxInboundConcurrency) events) (hfew : s.FewCalls)
    (side : Side) :
    Corresponds (s side) (s side.other) := by
  have hinvariant := invariant_run hrun hok hfew
  obtain ⟨hsound, hlinked⟩ := hinvariant side
  obtain ⟨hpeer, hlinked'⟩ := hinvariant side.other
  rw [other_other] at hlinked'
  refine ⟨?_, handled_in_order hsound hlinked, unfinishedHandlers_le hsound,
    fun task c sender reply hstep hsender hphase ↦ ?_⟩
  · obtain ⟨queued, hreceived, -⟩ := hlinked
    exact ⟨queued, hreceived⟩
  · exact exists_returned hsound hpeer hlinked hlinked' hstep hsender hphase

end

def exchangeOptions : ConnectionOptions := ⟨1024, 30, 10, 65536, false⟩

/-- `a` makes two requests and a ping; `b` answers the first request after the ping, and has to
finish it before it comes to the second. -/
def requestsAndPing : List (Side × EndpointEvent) :=
  [(.a, .connection .start), (.b, .connection .start),
    (.a, .connection (.sendRequest [1] [2] none 0)), (.a, .connection (.sendPing 5 0)),
    (.a, .connection (.drained 0)), (.a, .connection (.locked 1 0)), (.a, .connection (.drained 1)),
    (.a, .connection (.sendRequest [3] [4] none 0)), (.a, .connection (.drained 2)), (.b, .read 0),
    (.b, .read 0), (.b, .drained 1 none), (.b, .ponged), (.b, .read 0),
    (.b, .handled 0 (.returns ⟨.response, 1, [5], [6]⟩) 0), (.b, .drained 0 none),
    (.b, .released 0), (.b, .acquired), (.b, .handled 2 (.raises .other (some "no such grain")) 0),
    (.b, .drained 2 none), (.a, .read 0), (.a, .read 0),
    (.a, .connection (.replied 1)), (.a, .read 0)]

theorem calls_return_own_answers_requestsAndPing :
    ∃ s, exec step (new (fun _ ↦ exchangeOptions) fun _ ↦ 1) requestsAndPing = some s ∧
      ∀ side, Corresponds (s side) (s side.other) := by
  have hend : (exec step (new (fun _ ↦ exchangeOptions) fun _ ↦ 1) requestsAndPing).map (fun s ↦
      ((s .a).connection.pending.futures.length, (s .b).connection.pending.futures.length)) =
        some (3, 0) := by
    decide +kernel
  obtain ⟨s, hrun, hlengths⟩ := Option.map_eq_some_iff.mp hend
  obtain ⟨ha, hb⟩ := Prod.mk.inj hlengths
  have hfew : s.FewCalls := by
    intro side
    cases side with
    | a =>
      rw [ha]
      decide
    | b =>
      rw [hb]
      decide
  exact ⟨s, hrun, calls_return_own_answers (fun _ ↦ exchangeOptions)
    (fun _ ↦ 1) requestsAndPing hrun
    (by decide +kernel) hfew⟩

end Exchange

end Pyleans
