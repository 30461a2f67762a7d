import Pyleans.Transport.SiloConnection

namespace Pyleans

open Library

def SenderPhase.entry : SenderPhase → Option (ℕ × ℕ)
  | .awaitingLock correlationId future | .drainingWrite correlationId future
  | .awaitingReply correlationId future =>
    some (correlationId, future)
  | .queued _ | .finished _ => none

def Sender.Waits (sender : Sender) : Prop :=
  match sender.phase with
  | .queued _ => True
  | .awaitingLock _ _ => sender.messageType = .request
  | _ => False

instance (sender : Sender) : Decidable sender.Waits := by
  unfold Sender.Waits
  split <;> infer_instance

def CloseStage.isPast : CloseStage → Bool
  | .writer _ | .readTask _ | .handlers _ => true
  | .background _ | .drain => false

def ConnectionEvent.isOfState : ConnectionEvent → Bool
  | .start | .close _ | .closeStep | .closeCancelled => true
  | _ => false

namespace SiloConnection

def IsClosing (s : SiloConnection) : Prop := s.state = .closing ∨ s.state = .closed

instance (s : SiloConnection) : Decidable s.IsClosing := inferInstanceAs (Decidable (_ ∨ _))

def Quiet (s : SiloConnection) : Prop := ∀ t ∈ s.senders, ¬ t.Waits

def requests (s : SiloConnection) : List Wire.TransportMessage :=
  s.written.filter fun m ↦ m.messageType = .request

/-- What calls of the registry mean for a call that has, or comes to have, an entry in it. -/
structure Carries (p : PendingRequests Reply RaisedException) (old new : Option (ℕ × ℕ))
    (ops : List (PendingOp Reply RaisedException)) : Prop where
  entry : new = none ∨ (new = old ∧ ops = []) ∨ ∃ timeout, new = some (p.nextId, p.futures.length) ∧
    ops = [.allocate timeout]
  discards : ∀ id, PendingOp.discard id ∈ ops → new = none ∧
    ((∃ f, old = some (id, f)) ∨ (old = none ∧ id = p.nextId))

/-- Which call an event is about. -/
inductive MovesSender (s s' : SiloConnection) (ops : List (PendingOp Reply RaisedException)) : Prop
  | none : s'.senders = s.senders → (∀ id, PendingOp.discard id ∉ ops) → MovesSender s s' ops
  | appended (t : Sender) :
      s'.senders = s.senders ++ [t] → Carries s.pending none t.phase.entry ops →
        MovesSender s s' ops
  | replaced (task : ℕ) (t u : Sender) :
      s.senders[task]? = some t → s'.senders = s.senders.set task u →
      Carries s.pending t.phase.entry u.phase.entry ops → MovesSender s s' ops

/-- What an event does to the registry, and what it cannot do to a connection that is closing. -/
structure Does (s : SiloConnection) (e : ConnectionEvent) (s' : SiloConnection)
    (ops : List (PendingOp Reply RaisedException)) : Prop where
  stage : e.isOfState = false → s'.state = s.state ∧ s'.stage = s.stage
  registry : s'.pending = ops.foldl PendingRequests.step s.pending
  sender : MovesSender s s' ops
  quiet : s.IsClosing → s.Quiet →
    (∀ op ∈ ops, PendingOp.isAllocate op = false) ∧ s'.requests = s.requests ∧ s'.Quiet

section

variable {s s' : SiloConnection} {e : ConnectionEvent} {task : ℕ} {sender : Sender}
  {phase : SenderPhase}

/-- A call in the middle of something comes to its next wait or its end. -/
structure Settles (s s' : SiloConnection) (task : ℕ) (sender : Sender) (phase : SenderPhase)
    (ops : List (PendingOp Reply RaisedException)) : Prop where
  state : s'.state = s.state ∧ s'.stage = s.stage
  registry : s'.pending = ops.foldl PendingRequests.step s.pending
  senders : s'.senders = s.senders.set task { sender with phase := phase }
  carries : Carries s.pending sender.phase.entry phase.entry ops
  silent : ¬ sender.Waits → s'.requests = s.requests
  rests : ¬ sender.Waits → ¬ Sender.Waits { sender with phase := phase } ∧ ∀ op ∈ ops,
    PendingOp.isAllocate op = false

theorem carries_none (p : PendingRequests Reply RaisedException) (old : Option (ℕ × ℕ)) :
    Carries p old none [] :=
  ⟨.inl rfl, nofun⟩

theorem carries_self (p : PendingRequests Reply RaisedException) (old : Option (ℕ × ℕ)) :
    Carries p old old [] :=
  ⟨.inr (.inl ⟨rfl, rfl⟩), nofun⟩

theorem finish_eq (s : SiloConnection) (task : ℕ) (sender : Sender)
    (outcome : RaisedException ⊕ Reply) :
    ∃ inFlight, s.finish task sender outcome =
      { s.setSender task sender (.finished outcome) with inFlight := inFlight } := by
  simp only [finish]
  split
  · exact ⟨_, rfl⟩
  · exact ⟨_, rfl⟩

theorem settles_finish (s : SiloConnection) (task : ℕ) (sender : Sender)
    (outcome : RaisedException ⊕ Reply) :
    Settles s (s.finish task sender outcome) task sender (.finished outcome) [] := by
  obtain ⟨inFlight, h⟩ := finish_eq s task sender outcome
  rw [h]
  exact ⟨⟨rfl, rfl⟩, rfl, rfl, carries_none _ _, fun _ ↦ rfl, fun _ ↦ ⟨id, nofun⟩⟩

theorem settles_abandon (s t : SiloConnection) (ops : List (PendingOp Reply RaisedException))
    {correlationId future : ℕ} (hstate : t.state = s.state ∧ t.stage = s.stage)
    (hregistry : t.pending = ops.foldl PendingRequests.step s.pending)
    (hsenders : t.senders = s.senders) (hwritten : t.written = s.written)
    (hentry : sender.phase.entry = some (correlationId, future))
    (hops : ∀ op ∈ ops, PendingOp.isAllocate op = false ∧ ∀ id, op ≠ .discard id)
    (error : RaisedException) :
    Settles s (t.abandon task sender correlationId error) task sender (.finished (.inl error))
      (ops ++ [.discard correlationId]) := by
  obtain ⟨inFlight, h⟩ :=
    finish_eq { t with pending := t.pending.discard correlationId } task sender (.inl error)
  rw [abandon, h]
  refine ⟨hstate, ?_, ?_, ⟨.inl rfl, fun id hid ↦ ⟨rfl, .inl ⟨future, ?_⟩⟩⟩, fun _ ↦
    ?_, fun _ ↦ ⟨id, fun op hop ↦ ?_⟩⟩
  · rw [List.foldl_append, ← hregistry]
    rfl
  · rw [← hsenders]
    rfl
  · rcases List.mem_append.mp hid with hid | hid
    · exact absurd rfl ((hops _ hid).2 id)
    · rw [hentry, PendingOp.discard.inj (List.mem_singleton.mp hid)]
  · exact congrArg (List.filter _) hwritten
  · rcases List.mem_append.mp hop with hop | hop
    · exact (hops op hop).1
    · rw [List.mem_singleton.mp hop]
      rfl

theorem settles_write (s : SiloConnection) (task : ℕ) (sender : Sender) {correlationId future : ℕ}
    (buffered : ℕ) (hphase : sender.phase = .awaitingLock correlationId future) :
    ∃ phase ops, Settles s (s.write task sender correlationId future buffered) task
      sender phase ops := by
  have hentry : sender.phase.entry = some (correlationId, future) := by rw [hphase]; rfl
  unfold write
  split
  · exact ⟨_, _, settles_abandon s s [] ⟨rfl, rfl⟩ rfl rfl rfl hentry nofun _⟩
  · refine ⟨.drainingWrite correlationId future, [], ⟨rfl, rfl⟩, rfl, rfl,
      hentry ▸ carries_self _ _, fun hwaits ↦ ?_,
      fun _ ↦ ⟨id, nofun⟩⟩
    have hping : sender.messageType ≠ .request := by
      intro hrequest
      apply hwaits
      unfold Sender.Waits
      rw [hphase]
      exact hrequest
    change (s.written ++ [sender.message correlationId]).filter _ = s.written.filter _
    rw [List.filter_append, List.filter_singleton]
    simp [Sender.message, hping]

theorem settles_send (s : SiloConnection) (task : ℕ) (sender : Sender) {timeout : Option ℚ}
    (buffered : ℕ) (hphase : sender.phase = .queued timeout) :
    ∃ phase ops, Settles s (s.send task sender timeout buffered) task sender phase ops := by
  have hentry : sender.phase.entry = none := by rw [hphase]; rfl
  have hwaits : sender.Waits := by
    unfold Sender.Waits
    rw [hphase]
    trivial
  have hallocate : (s.pending.allocate timeout).1 =
      (s.pending.nextId, s.pending.futures.length) := by
    simp only [PendingRequests.allocate]
    split <;> rfl
  have hrefused : ∀ error, Settles s
      ({ s with pending := (s.pending.allocate timeout).2 }.abandon task sender s.pending.nextId
        error) task sender
      (.finished (.inl error)) [.allocate timeout, .discard s.pending.nextId] := by
    intro error
    obtain ⟨inFlight, h⟩ := finish_eq
      { s with pending := (s.pending.allocate timeout).2.discard s.pending.nextId } task
        sender (.inl error)
    rw [abandon, h]
    refine ⟨⟨rfl, rfl⟩, rfl, rfl, ⟨.inl rfl, fun id hid ↦ ⟨rfl, .inr ⟨hentry, ?_⟩⟩⟩, fun _ ↦
      rfl, fun h ↦ absurd hwaits h⟩
    rcases List.mem_pair.mp hid with hid | hid
    · cases hid
    · exact PendingOp.discard.inj hid
  have hcarries : Carries s.pending sender.phase.entry
    (some (s.pending.nextId, s.pending.futures.length))
      [.allocate timeout] := by
    refine ⟨.inr (.inr ⟨timeout, rfl, rfl⟩), fun id hid ↦ ?_⟩
    cases List.mem_singleton.mp hid
  simp only [send, hallocate]
  split
  · exact ⟨_, _, hrefused _⟩
  · split
    · unfold write
      split
      · exact ⟨_, _, hrefused _⟩
      · exact ⟨_, _, ⟨rfl, rfl⟩, rfl, rfl, hcarries, fun h ↦
          absurd hwaits h, fun h ↦ absurd hwaits h⟩
    · exact ⟨_, _, ⟨rfl, rfl⟩, rfl, rfl, hcarries, fun h ↦ absurd hwaits h, fun h ↦ absurd hwaits h⟩

theorem Settles.does {ops : List (PendingOp Reply RaisedException)}
    (h : Settles s s' task sender phase ops) (hsender : s.senders[task]? = some sender) :
    Does s e s' ops where
  stage _ := h.state
  registry := h.registry
  sender := .replaced task sender _ hsender h.senders h.carries
  quiet _ hquiet := by
    have hwaits := hquiet sender (List.mem_of_getElem? hsender)
    obtain ⟨hrests, hops⟩ := h.rests hwaits
    refine ⟨hops, h.silent hwaits, fun t ht ↦ ?_⟩
    rw [h.senders] at ht
    rcases List.mem_or_eq_of_mem_set ht with ht | rfl
    · exact hquiet t ht
    · exact hrests

theorem does_none (hstage : e.isOfState = false → s'.state = s.state ∧ s'.stage = s.stage)
    (h : s'.pending = s.pending) (hsenders : s'.senders = s.senders)
    (hwritten : s'.written = s.written) :
    Does s e s' [] where
  stage := hstage
  registry := h
  sender := .none hsenders nofun
  quiet _ hquiet := by
    refine ⟨nofun, congrArg (List.filter _) hwritten, ?_⟩
    unfold Quiet
    rw [hsenders]
    exact hquiet

theorem does_registry (s : SiloConnection) (op : PendingOp Reply RaisedException)
    {stage : Option CloseStage} (hstage : e.isOfState = false → stage = s.stage)
    (hallocate : op.isAllocate = false) (hdiscard : ∀ id, op ≠ .discard id) :
    Does s e { s with pending := s.pending.step op, stage := stage } [op] where
  stage he := ⟨rfl, hstage he⟩
  registry := rfl
  sender := .none rfl fun id hid ↦ hdiscard id (List.mem_singleton.mp hid).symm
  quiet _ hquiet := ⟨fun op' hop ↦ by rw [List.mem_singleton.mp hop]; exact hallocate, rfl, hquiet⟩

theorem does_enter (s : SiloConnection) (hentry : sender.phase.entry = none)
    (hwaits : sender.Waits → ¬ s.IsClosing) :
    Does s e (s.enter sender) [] where
  stage _ := ⟨rfl, rfl⟩
  registry := rfl
  sender := .appended sender rfl (hentry.symm ▸ carries_none _ _)
  quiet hclosing hquiet := by
    refine ⟨nofun, rfl, fun t ht ↦ ?_⟩
    rcases List.mem_append.mp ht with ht | ht
    · exact hquiet t ht
    · rw [List.mem_singleton.mp ht]
      exact fun h ↦ hwaits h hclosing

theorem not_isClosing (h : s.state = .running) : ¬ s.IsClosing := by
  rintro (hs | hs)
  · rw [h] at hs
    cases hs
  · rw [h] at hs
    cases hs

theorem does_enter_send {inFlight buffered : ℕ} {timeout : Option ℚ} (hrunning : s.state = .running)
    (hphase : sender.phase = .queued timeout) :
    ∃ ops,
      Does s e ({ s.enter sender with inFlight := inFlight }.send s.senders.length sender timeout
      buffered) ops := by
  obtain ⟨phase, ops, h⟩ :=
    settles_send { s.enter sender with inFlight := inFlight } s.senders.length
      sender buffered hphase
  refine ⟨ops, fun _ ↦ h.state, h.registry, .appended { sender with phase := phase } ?_ ?_,
    fun hclosing ↦ absurd hclosing (not_isClosing hrunning)⟩
  · rw [h.senders]
    exact List.set_append_right _ _ le_rfl |>.trans (by rw [Nat.sub_self]; rfl)
  · have hentry : sender.phase.entry = none := by rw [hphase]; rfl
    exact hentry ▸ h.carries

theorem step_does (h : s.step e = some s') : ∃ ops, Does s e s' ops := by
  cases e with
  | start =>
    simp only [step] at h
    split at h <;> cases h
    · exact ⟨[], does_none nofun rfl rfl rfl⟩
    · exact ⟨[], does_none nofun rfl rfl rfl⟩
  | sendRequest header body timeout buffered =>
    simp only [step] at h
    split_ifs at h with hrunning hpermit <;> cases h
    · exact ⟨[], does_enter s rfl (fun h ↦ h.elim)⟩
    · exact ⟨[], does_enter s rfl fun _ ↦ not_isClosing (not_not.mp hrunning)⟩
    · exact does_enter_send (not_not.mp hrunning) rfl
  | acquired task buffered =>
    simp only [step] at h
    split at h
    · next messageType header body timeout hsender =>
      split_ifs at h
      cases h
      obtain ⟨phase, ops, hsettles⟩ := settles_send { s with inFlight := s.inFlight - 1 } task
        ⟨messageType, header, body, .queued timeout⟩ buffered rfl
      exact ⟨ops, Settles.does (s := s)
        ⟨hsettles.state, hsettles.registry, hsettles.senders, hsettles.carries,
        hsettles.silent, hsettles.rests⟩ hsender⟩
    · cases h
  | sendPing timeout buffered =>
    simp only [step] at h
    split_ifs at h with hrunning <;> cases h
    · exact ⟨[], does_enter s rfl (fun h ↦ h.elim)⟩
    · exact does_enter_send (not_not.mp hrunning) rfl
  | locked task buffered =>
    simp only [step] at h
    split at h
    · next messageType header body correlationId future hsender =>
      split_ifs at h
      cases h
      obtain ⟨phase, ops, hsettles⟩ := settles_write s task
        ⟨messageType, header, body, .awaitingLock correlationId future⟩ buffered rfl
      exact ⟨ops, hsettles.does hsender⟩
    · cases h
  | drained task =>
    simp only [step] at h
    split at h
    · next hsender =>
      cases h
      exact ⟨[], Settles.does
        ⟨⟨rfl, rfl⟩, rfl, rfl, carries_self _ _, fun _ ↦ rfl, fun _ ↦ ⟨id, nofun⟩⟩ hsender⟩
    · cases h
  | writeFailed task cause =>
    simp only [step] at h
    split at h
    · next hsender =>
      cases h
      exact
        ⟨_, (settles_abandon s { s with writeLock := none } []
        ⟨rfl, rfl⟩ rfl rfl rfl rfl nofun _).does hsender⟩
    · cases h
  | replied task =>
    simp only [step] at h
    split at h
    · next hsender =>
      split at h
      · cases h
        exact ⟨_, (settles_finish _ _ _ _).does hsender⟩
      · cases h
        exact ⟨_, (settles_abandon s s [] ⟨rfl, rfl⟩ rfl rfl rfl rfl nofun _).does hsender⟩
      · cases h
    · cases h
  | cancelled task =>
    simp only [step] at h
    split at h
    · next hsender =>
      cases h
      exact ⟨[], Settles.does
        ⟨⟨rfl, rfl⟩, rfl, rfl, carries_none _ _, fun _ ↦ rfl, fun _ ↦ ⟨id, nofun⟩⟩ hsender⟩
    · next hsender =>
      cases h
      exact ⟨_, (settles_abandon s s [] ⟨rfl, rfl⟩ rfl rfl rfl rfl nofun _).does hsender⟩
    · next hsender =>
      cases h
      exact
        ⟨_, (settles_abandon s { s with writeLock := none } []
        ⟨rfl, rfl⟩ rfl rfl rfl rfl nofun _).does hsender⟩
    · next future hsender =>
      cases h
      refine ⟨_, (settles_abandon s { s with pending := s.pending.cancelFuture future }
        [.cancelFuture future]
        ⟨rfl, rfl⟩ rfl rfl rfl rfl ?_ _).does hsender⟩
      intro op hop
      rw [List.mem_singleton.mp hop]
      exact ⟨rfl, nofun⟩
    · cases h
  | lockTaken =>
    simp only [step] at h
    split_ifs at h
    cases h
    exact ⟨[], does_none (fun _ ↦ ⟨rfl, rfl⟩) rfl rfl rfl⟩
  | lockFreed =>
    simp only [step] at h
    split_ifs at h
    cases h
    exact ⟨[], does_none (fun _ ↦ ⟨rfl, rfl⟩) rfl rfl rfl⟩
  | response correlationId reply =>
    cases h
    exact ⟨_, does_registry s (.complete correlationId reply) (fun _ ↦ rfl) rfl nofun⟩
  | errorResponse correlationId error =>
    cases h
    exact ⟨_, does_registry s (.fail correlationId error) (fun _ ↦ rfl) rfl nofun⟩
  | timedOut correlationId =>
    cases h
    exact ⟨_, does_registry s (.expire correlationId _) (fun _ ↦ rfl) rfl nofun⟩
  | close reason =>
    simp only [step] at h
    split_ifs at h <;> cases h
    · exact ⟨[], does_none nofun rfl rfl rfl⟩
    · exact ⟨[], does_none nofun rfl rfl rfl⟩
  | closeStep =>
    obtain ⟨stage, -, rfl⟩ := Option.map_eq_some_iff.mp h
    cases stage with
    | background reason =>
      cases reason with
      | normal => exact ⟨[], does_none nofun rfl rfl rfl⟩
      | lost => exact ⟨_, does_registry s (.failAll (failed .lost)) nofun rfl nofun⟩
    | drain => exact ⟨_, does_registry s (.failAll (failed .normal)) nofun rfl nofun⟩
    | writer reason => exact ⟨[], does_none nofun rfl rfl rfl⟩
    | readTask reason => exact ⟨[], does_none nofun rfl rfl rfl⟩
    | handlers reason => exact ⟨[], does_none nofun rfl rfl rfl⟩
  | closeCancelled =>
    obtain ⟨stage, -, rfl⟩ := Option.map_eq_some_iff.mp h
    exact ⟨[], does_none nofun rfl rfl rfl⟩

end

/-- A call of `close` that finds the connection open comes while no request
waits for the semaphore or for the lock. -/
def ClosesAlone (s : SiloConnection) : ConnectionEvent → Prop
  | .close _ => s.IsClosing ∨ s.Quiet
  | _ => True

instance (s : SiloConnection) : ∀ e, Decidable (s.ClosesAlone e)
  | .close _ => inferInstanceAs (Decidable (_ ∨ ∀ t ∈ s.senders, ¬ t.Waits))
  | .start | .sendRequest .. | .acquired .. | .sendPing .. | .locked .. | .drained _
  | .writeFailed .. | .replied _ | .cancelled _ | .lockTaken | .lockFreed | .response ..
  | .errorResponse .. | .timedOut _ | .closeStep | .closeCancelled => .isTrue trivial

/-- What holds of a connection all of whose closes came so. -/
structure Orderly (s : SiloConnection) : Prop where
  quiet : s.IsClosing → s.Quiet
  stage : s.stage ≠ none → s.IsClosing
  emptied : (s.state = .closed ∨ ∃ stage ∈ s.stage, stage.isPast = true) →
    s.pending.pending.items = []

section

variable {s s' : SiloConnection} {e : ConnectionEvent} {options : ConnectionOptions}
  {events : List ConnectionEvent}

theorem orderly_new (options : ConnectionOptions) : (new options).Orderly where
  quiet _ := nofun
  stage h := absurd rfl h
  emptied h := by
    rcases h with h | ⟨_, h, _⟩
    · cases h
    · cases h

theorem Orderly.closeStep {stage : CloseStage} (h : s.Orderly) (hstage : s.stage = some stage) :
    (s.closeStep stage).Orderly ∧ (s.closeStep stage).IsClosing := by
  have hclosing : s.IsClosing := h.stage (by rw [hstage]; nofun)
  have hquiet := h.quiet hclosing
  have hold : s.state = .closed ∨ stage.isPast = true → s.pending.pending.items = [] := by
    intro hpast
    exact h.emptied (hpast.imp_right fun hpast ↦ ⟨stage, hstage, hpast⟩)
  have hfailed : ∀ reason, (s.failAll reason).pending.pending.items = [] := by
    intro reason
    exact congrArg Table.items (PendingRequests.failAll_frame s.pending (failed reason)).1
  have hstay : ∀ reason, (s.failAll reason).Orderly ∧ (s.failAll reason).IsClosing :=
    fun reason ↦ ⟨⟨fun _ ↦ hquiet, fun _ ↦ hclosing, fun _ ↦ hfailed reason⟩, hclosing⟩
  cases stage with
  | background reason =>
    cases reason with
    | normal =>
      refine ⟨⟨fun _ ↦ hquiet, fun _ ↦ hclosing, ?_⟩, hclosing⟩
      rintro (hclosed | ⟨_, he, hpast⟩)
      · exact hold (.inl hclosed)
      · cases he
        cases hpast
    | lost => exact hstay .lost
  | drain => exact hstay .normal
  | writer reason => exact ⟨⟨fun _ ↦ hquiet, fun _ ↦ hclosing, fun _ ↦ hold (.inr rfl)⟩, hclosing⟩
  | readTask reason => exact ⟨⟨fun _ ↦ hquiet, fun _ ↦ hclosing, fun _ ↦ hold (.inr rfl)⟩, hclosing⟩
  | handlers reason =>
    exact ⟨⟨fun _ ↦ hquiet, fun hne ↦ absurd rfl hne, fun _ ↦ hold (.inr rfl)⟩, .inr rfl⟩

theorem Orderly.step (h : s.Orderly) (hok : s.ClosesAlone e) (hstep : s.step e = some s') :
    s'.Orderly ∧ (s.IsClosing → s'.IsClosing) := by
  obtain ⟨ops, hdoes⟩ := step_does hstep
  cases hstate : e.isOfState with
  | false =>
    obtain ⟨hsame, hstage⟩ := hdoes.stage hstate
    have hclosing : s'.IsClosing ↔ s.IsClosing := by rw [IsClosing, IsClosing, hsame]
    refine ⟨⟨fun hc ↦ ?_, fun hc ↦ ?_, fun hpast ↦ ?_⟩, hclosing.mpr⟩
    · have hc := hclosing.mp hc
      exact (hdoes.quiet hc (h.quiet hc)).2.2
    · rw [hstage] at hc
      exact hclosing.mpr (h.stage hc)
    · rw [hsame, hstage] at hpast
      have hc : s.IsClosing := by
        rcases hpast with hclosed | ⟨stage, he, -⟩
        · exact .inr hclosed
        · exact h.stage (by rw [he]; nofun)
      rw [hdoes.registry]
      exact PendingRequests.items_nil_foldl (h.emptied hpast) (hdoes.quiet hc (h.quiet hc)).1
  | true =>
    cases e with
    | start =>
      simp only [SiloConnection.step] at hstep
      split at hstep
      · next hnew =>
        cases hstep
        have hopen : ¬ s.IsClosing := by
          rintro (hc | hc)
          · rw [hnew] at hc
            cases hc
          · rw [hnew] at hc
            cases hc
        refine ⟨⟨?_, fun hc ↦ absurd (h.stage hc) hopen, ?_⟩, fun hc ↦ absurd hc hopen⟩
        · rintro (hc | hc) <;> cases hc
        · rintro (hc | ⟨stage, he, -⟩)
          · cases hc
          · exact absurd (h.stage (by rw [he]; nofun)) hopen
      · cases hstep
        exact ⟨h, id⟩
    | close reason =>
      simp only [SiloConnection.step] at hstep
      split at hstep
      · cases hstep
        exact ⟨h, id⟩
      · next hopen =>
        cases hstep
        refine ⟨⟨fun _ ↦ hok.resolve_left hopen, fun _ ↦ .inl rfl, ?_⟩, fun _ ↦ .inl rfl⟩
        rintro (hc | ⟨stage, he, hpast⟩)
        · cases hc
        · cases he
          cases hpast
    | closeStep =>
      obtain ⟨stage, hstage, rfl⟩ := Option.map_eq_some_iff.mp hstep
      obtain ⟨horderly, hclosing⟩ := h.closeStep hstage
      exact ⟨horderly, fun _ ↦ hclosing⟩
    | closeCancelled =>
      obtain ⟨stage, hstage, rfl⟩ := Option.map_eq_some_iff.mp hstep
      refine ⟨⟨h.quiet, fun hne ↦ absurd rfl hne, ?_⟩, id⟩
      rintro (hc | ⟨_, he, -⟩)
      · exact h.emptied (.inl hc)
      · cases he
    | sendRequest | acquired | sendPing | locked | drained | writeFailed | replied | cancelled
      | lockTaken | lockFreed
    | response | errorResponse | timedOut => cases hstate

theorem orderly_run (hok : Meets step ClosesAlone (new options) events)
    (hrun : exec step (new options) events = some s) :
    s.Orderly :=
  (guarded_of_exec hrun hok).invariant (orderly_new options) fun _ _ _ h hok hstep ↦
    (h.step hok hstep).1

/-- Once it is closing, nothing is allocated and no request written any more. -/
theorem Orderly.silent (h : s.Orderly) (hclosing : s.IsClosing)
    (hrun : exec SiloConnection.step s events = some s') :
    s'.pending.futures.length = s.pending.futures.length ∧ s'.requests = s.requests := by
  induction events generalizing s with
  | nil =>
    obtain rfl := Option.some.inj hrun
    exact ⟨rfl, rfl⟩
  | cons e events ih =>
    obtain ⟨m, hstep, hrest⟩ := exec_cons.mp hrun
    have hok : s.ClosesAlone e := by
      unfold ClosesAlone
      split
      · exact .inl hclosing
      · trivial
    obtain ⟨hm, hmclosing⟩ := h.step hok hstep
    obtain ⟨ops, hdoes⟩ := step_does hstep
    obtain ⟨hops, hrequests, -⟩ := hdoes.quiet hclosing (h.quiet hclosing)
    obtain ⟨hlength', hrequests'⟩ := ih hm (hmclosing hclosing) hrest
    refine ⟨hlength'.trans ?_, hrequests'.trans hrequests⟩
    rw [hdoes.registry, PendingRequests.length_foldl, List.countP_eq_zero.mpr]
    · rfl
    · exact fun op hop ↦ by rw [hops op hop]; exact Bool.false_ne_true

/-- Every call that waits with a future has it in the registry under an id of its own, or the future
is done. -/
structure Tracks (s : SiloConnection) : Prop where
  sound : s.pending.Sound
  tracked : ∀ t ∈ s.senders, ∀ entry, t.phase.entry = some entry → s.pending.Tracked entry
  apart : ∀ (i j : ℕ) t u entry entry', s.senders[i]? = some t → s.senders[j]? = some u →
    t.phase.entry = some entry →
    u.phase.entry = some entry' → entry.1 = entry'.1 → i = j

theorem tracks_new (options : ConnectionOptions) : (new options).Tracks where
  sound := PendingRequests.sound_new _
  tracked _ ht := absurd ht List.not_mem_nil
  apart i _ t _ _ _ ht := by
    have hnone : (new options).senders[i]? = none := List.getElem?_nil
    rw [hnone] at ht
    cases ht

theorem Tracks.fresh {t : Sender} {entry : ℕ × ℕ} (h : s.Tracks) (ht : t ∈ s.senders)
    (hentry : t.phase.entry = some entry) :
    entry.1 ≠ s.pending.nextId := by
  have htracked := h.tracked t ht entry hentry
  have hid := htracked.id
  have hmade := htracked.made
  rw [h.sound.next]
  omega

/-- A call at a place of its own comes to hold `new`, where it held `old` before. -/
theorem Tracks.carry {ops : List (PendingOp Reply RaisedException)} {t : Sender}
    {old : Option (ℕ × ℕ)}
    (h : s.Tracks) (place : ℕ) (hregistry : s'.pending = ops.foldl PendingRequests.step s.pending)
    (hbound : s'.pending.futures.length < PendingRequests.UINT64_MAX)
      (hcarries : Carries s.pending old t.phase.entry ops)
    (hplace : s'.senders[place]? = some t) (hothers : ∀ i u, i ≠ place → s'.senders[i]? = some u →
      s.senders[i]? = some u)
    (hold : ∀ entry, old = some entry → ∃ u, s.senders[place]? = some u ∧
      u.phase.entry = some entry) : s'.Tracks := by
  rw [hregistry] at hbound
  have hsound : s'.pending.Sound := hregistry ▸ h.sound.foldl hbound
  have hother : ∀ i u entry, i ≠ place → s'.senders[i]? = some u → u.phase.entry = some entry →
      s'.pending.Tracked entry := by
    intro i u entry hi hu hentry
    have hu := hothers i u hi hu
    rw [hregistry]
    refine (h.tracked u (List.mem_of_getElem? hu) entry hentry).foldl h.sound hbound fun id hid he ↦
      ?_
    rcases (hcarries.discards id hid).2 with ⟨f, hf⟩ | ⟨-, hnew⟩
    · obtain ⟨v, hv, hventry⟩ := hold _ hf
      exact hi (h.apart i place u v entry (id, f) hu hv hentry hventry he)
    · exact h.fresh (List.mem_of_getElem? hu) hentry (he.trans hnew)
  have hself : ∀ entry, t.phase.entry = some entry → s'.pending.Tracked entry := by
    intro entry hentry
    rcases hcarries.entry with hnone | ⟨hsame, rfl⟩ | ⟨timeout, hnew, rfl⟩
    · rw [hnone] at hentry
      cases hentry
    · obtain ⟨u, hu, huentry⟩ := hold entry (hsame ▸ hentry)
      rw [hregistry]
      exact h.tracked u (List.mem_of_getElem? hu) entry huentry
    · rw [hnew] at hentry
      obtain rfl := Option.some.inj hentry
      have hget : s'.pending.pending = s.pending.pending.put
        (s.pending.nextId, s.pending.futures.length) := by
        rw [hregistry, List.foldl_cons, List.foldl_nil, PendingRequests.step,
          PendingRequests.allocate]
        split <;> rfl
      refine ⟨h.sound.next, ?_, .inr ?_⟩
      · rw [hregistry, PendingRequests.length_foldl]
        exact Nat.lt_succ_self _
      · rw [hget]
        exact Table.get_put_self _ _
  have hdistinct : ∀ i u entry entry', i ≠ place → s'.senders[i]? = some u →
    u.phase.entry = some entry →
      t.phase.entry = some entry' → entry.1 ≠ entry'.1 := by
    intro i u entry entry' hi hu hentry hentry' he
    have hu := hothers i u hi hu
    rcases hcarries.entry with hnone | ⟨hsame, -⟩ | ⟨timeout, hnew, -⟩
    · rw [hnone] at hentry'
      cases hentry'
    · obtain ⟨v, hv, hventry⟩ := hold entry' (hsame ▸ hentry')
      exact hi (h.apart i place u v entry entry' hu hv hentry hventry he)
    · rw [hnew] at hentry'
      obtain rfl := Option.some.inj hentry'
      exact h.fresh (List.mem_of_getElem? hu) hentry he
  refine ⟨hsound, fun u hu entry hentry ↦ ?_, fun i j u v entry entry' hu hv hentry hentry' he ↦ ?_⟩
  · obtain ⟨i, hi⟩ := List.mem_iff_getElem?.mp hu
    by_cases hplace' : i = place
    · subst hplace'
      obtain rfl := Option.some.inj (hplace.symm.trans hi)
      exact hself entry hentry
    · exact hother i u entry hplace' hi hentry
  · by_cases hi : i = place
    · by_cases hj : j = place
      · rw [hi, hj]
      · subst hi
        obtain rfl := Option.some.inj (hplace.symm.trans hu)
        exact absurd he.symm (hdistinct j v entry' entry hj hv hentry' hentry)
    · by_cases hj : j = place
      · subst hj
        obtain rfl := Option.some.inj (hplace.symm.trans hv)
        exact absurd he (hdistinct i u entry entry' hi hu hentry hentry')
      · exact h.apart i j u v entry entry' (hothers i u hi hu) (hothers j v hj hv) hentry hentry' he

theorem Tracks.step (h : s.Tracks) (hbound : s'.pending.futures.length < PendingRequests.UINT64_MAX)
    (hstep : s.step e = some s') : s'.Tracks := by
  obtain ⟨ops, hdoes⟩ := step_does hstep
  have hregistry := hdoes.registry
  cases hdoes.sender with
  | none hsenders hdiscards =>
    rw [hregistry] at hbound
    refine ⟨hregistry ▸ h.sound.foldl hbound, fun t ht entry hentry ↦ ?_, ?_⟩
    · rw [hregistry]
      refine (h.tracked t (hsenders ▸ ht) entry hentry).foldl h.sound hbound ?_
      exact fun id hid ↦ absurd hid (hdiscards id)
    · rw [hsenders]
      exact h.apart
  | appended t hsenders hcarries =>
    refine h.carry s.senders.length hregistry hbound hcarries ?_ (fun i u hi hu ↦ ?_) nofun
    · rw [hsenders, List.getElem?_append_right le_rfl, Nat.sub_self]
      rfl
    · rw [hsenders] at hu
      exact (getElem?_grown.mp hu).resolve_right fun hnew ↦ hi hnew.1
  | replaced task t u ht hsenders hcarries =>
    refine h.carry task hregistry hbound hcarries ?_ (fun i v hi hv ↦ ?_) fun entry he ↦ ⟨t, ht, he⟩
    · rw [hsenders]
      exact (getElem?_replaced ht).mpr (.inl ⟨rfl, rfl⟩)
    · rw [hsenders, List.getElem?_set_ne hi.symm] at hv
      exact hv

theorem length_futures_le (hstep : s.step e = some s') :
    s.pending.futures.length ≤ s'.pending.futures.length := by
  obtain ⟨ops, hdoes⟩ := step_does hstep
  rw [hdoes.registry, PendingRequests.length_foldl]
  exact Nat.le_add_right _ _

theorem tracks_run (hrun : exec SiloConnection.step s events = some s') (h : s.Tracks)
    (hbound : s'.pending.futures.length < PendingRequests.UINT64_MAX) : s'.Tracks := by
  have hlater : ∀ (events : List ConnectionEvent) (s : SiloConnection),
    exec SiloConnection.step s events = some s' →
      s.pending.futures.length ≤ s'.pending.futures.length := by
    intro events
    induction events with
    | nil =>
      intro s hrun
      exact (Option.some.inj hrun) ▸ le_rfl
    | cons e events ih =>
      intro s hrun
      obtain ⟨m, hstep, hrest⟩ := exec_cons.mp hrun
      exact (length_futures_le hstep).trans (ih m hrest)
  induction events generalizing s with
  | nil => exact (Option.some.inj hrun) ▸ h
  | cons e events ih =>
    obtain ⟨m, hstep, hrest⟩ := exec_cons.mp hrun
    exact ih hrest (h.step ((hlater events m hrest).trans_lt hbound) hstep)

end

/-- No request outlives a connection that closes. -/
structure OutlivedByNone (options : ConnectionOptions) (events : List ConnectionEvent) : Prop where
  silent : ∀ before after s s', events = before ++ after →
    exec step (new options) before = some s → s.IsClosing →
    exec step s after = some s' → s'.pending.futures.length = s.pending.futures.length ∧
      s'.requests = s.requests
  emptied : ∀ before s, before <+: events → exec step (new options) before = some s →
    s.state = .closed →
    s.pending.pending.items = []
  answered : ∀ before s, before <+: events → exec step (new options) before = some s →
    s.state = .closed →
    s.pending.futures.length < PendingRequests.UINT64_MAX →
      ∀ t ∈ s.senders, ∀ entry, t.phase.entry = some entry → s.pending.done entry.2 = true

/-- It holds of every run in which no request waits for the semaphore or the lock when the
connection is closed. -/
theorem outlivedByNone_of_closesAlone (options : ConnectionOptions) (events : List ConnectionEvent)
    (hok : Meets step ClosesAlone (new options) events) : OutlivedByNone options events := by
  have hemptied : ∀ before s, before <+: events → exec step (new options) before = some s →
    s.state = .closed →
      s.pending.pending.items = [] := by
    rintro before s ⟨after, rfl⟩ hrun hclosed
    exact (orderly_run (meets_append.mp hok).1 hrun).emptied (.inl hclosed)
  refine ⟨?_, hemptied, fun before s hbefore hrun hclosed hbound t ht entry hentry ↦ ?_⟩
  · rintro before after s s' rfl hrun hclosing hrest
    exact (orderly_run (meets_append.mp hok).1 hrun).silent hclosing hrest
  · have htracked := (tracks_run hrun (tracks_new options) hbound).tracked t ht entry hentry
    refine htracked.done.resolve_right fun hget ↦ ?_
    have hitem := Table.mem_of_get hget
    rw [hemptied before s hbefore hrun hclosed] at hitem
    cases hitem

def onePermit : ConnectionOptions := ⟨1024, 30, 1, 65536, false⟩

theorem outlivedByNone_afterReply : OutlivedByNone onePermit
    [.start, .sendRequest [] [] none 0, .drained 0, .close .normal, .closeStep,
      .response 1 ([], []), .replied 0, .sendRequest [] [] none 0, .closeStep, .closeStep,
      .closeStep, .closeStep] :=
  outlivedByNone_of_closesAlone onePermit _ (by decide)

/-- A second request waits for the permit of the first, which is failed. -/
def queuedAtClose : List ConnectionEvent :=
  [.start, .sendRequest [] [] none 0, .drained 0, .sendRequest [] [] none 0, .close .lost,
    .closeStep, .replied 0, .acquired 1 0, .drained 1, .closeStep, .closeStep, .closeStep]

theorem queuedAtClose_outlives : ¬ ∀ options events, OutlivedByNone options events := by
  intro h
  have hend : (exec step (new onePermit) queuedAtClose).map
    (fun s ↦ (s.state, s.pending.pending.items)) =
      some (.closed, [(2, 1)]) := by decide
  obtain ⟨s, hrun, hs⟩ := Option.map_eq_some_iff.mp hend
  obtain ⟨hclosed, hitems⟩ := Prod.mk.inj hs
  have hnone := (h onePermit queuedAtClose).emptied _ s List.prefix_rfl hrun hclosed
  rw [hitems] at hnone
  cases hnone

end SiloConnection

end Pyleans
