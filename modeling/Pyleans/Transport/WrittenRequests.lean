import Pyleans.Transport.ClosingConnection

namespace Pyleans

open Library

namespace PendingRequests

variable {ρ ε : Type} {s t : PendingRequests ρ ε}

def NoNewResult (s t : PendingRequests ρ ε) : Prop :=
  ∀ (f id : ℕ) (result : ρ), t.futures[f]? = some ⟨id, .result result⟩ →
    s.futures[f]? = some ⟨id, .result result⟩

theorem noNewResult_of_futures (h : t.futures = s.futures) : NoNewResult s t :=
  fun f id result hf ↦ by
  rw [← h]
  exact hf

theorem NoNewResult.trans {u : PendingRequests ρ ε} (h : NoNewResult s t) (h' : NoNewResult t u) :
    NoNewResult s u :=
  fun f id result hf ↦ h f id result (h' f id result hf)

theorem noNewResult_setFuture (s : PendingRequests ρ ε) (future : ℕ) {state : FutureState ρ ε}
    (resolver : Resolver) (hstate : ∀ result, state ≠ .result result) : NoNewResult s
      (s.setFuture future state resolver) := by
  intro f id result hf
  obtain ⟨q, hq, -, ⟨-, he⟩ | ⟨-, rfl⟩⟩ := getElem?_modify_state hf
  · exact absurd he.symm (hstate result)
  · exact hq

theorem noNewResult_resolve (s : PendingRequests ρ ε) (correlationId : ℕ) {state : FutureState ρ ε}
    (resolver : Resolver) (hstate : ∀ result, state ≠ .result result) : NoNewResult s
      (s.resolve correlationId state resolver) := by
  simp only [resolve]
  split
  · exact noNewResult_of_futures rfl
  · split_ifs
    · exact noNewResult_of_futures rfl
    · exact noNewResult_setFuture _ _ _ hstate

theorem noNewResult_popTimeout (s : PendingRequests ρ ε) (correlationId : ℕ) (state : TimerState) :
    NoNewResult s (s.popTimeout correlationId state) :=
  noNewResult_of_futures (popTimeout_frame s correlationId state).2.1

theorem noNewResult_failAll (s : PendingRequests ρ ε) (error : ε) :
    NoNewResult s (s.failAll error) := by
  refine List.foldlRecOn s.pending.items (failEach error) (motive := fun t ↦ NoNewResult s t)
    (noNewResult_of_futures rfl) fun t ht entry _ ↦ ht.trans ?_
  unfold failEach
  split_ifs
  · exact noNewResult_of_futures rfl
  · exact noNewResult_setFuture _ _ _ fun _ h ↦ by cases h

/-- Only `complete` gives a future a result. -/
theorem noNewResult_step (s : PendingRequests ρ ε) (op : PendingOp ρ ε)
    (hop : ∀ id result, op ≠ .complete id result) :
    NoNewResult s (s.step op) := by
  cases op with
  | allocate timeout =>
    intro f id result hf
    have hgrown : (s.step (.allocate timeout)).futures = s.futures ++ [⟨s.nextId, .pending⟩] := by
      simp only [step, allocate]
      split <;> rfl
    rw [hgrown] at hf
    rcases getElem?_grown.mp hf with hold | ⟨-, he⟩
    · exact hold
    · cases he
  | complete id result => exact absurd rfl (hop id result)
  | fail id error =>
    exact (noNewResult_popTimeout s id _).trans (noNewResult_resolve _ _ _ fun _ h ↦ by cases h)
  | expire id timedOut =>
    exact (noNewResult_popTimeout s id _).trans (noNewResult_resolve _ _ _ fun _ h ↦ by cases h)
  | discard id => exact noNewResult_popTimeout s id _
  | failAll error => exact noNewResult_failAll s error
  | cancelFuture future =>
    simp only [step, cancelFuture]
    split
    · exact noNewResult_of_futures rfl
    · intro f id result hf
      obtain ⟨q, hq, -, ⟨-, he⟩ | ⟨-, rfl⟩⟩ := getElem?_modify_state hf
      · cases he
      · exact hq

theorem result_of_complete (h : Sound s) {id f id' : ℕ} {result result' : ρ}
    (hf : (s.complete id result).futures[f]? = some ⟨id', .result result'⟩) :
    s.futures[f]? = some ⟨id', .result result'⟩ ∨ (id = f + 1 ∧ result' = result) := by
  have hresolve (t : PendingRequests ρ ε) (hentries : ∀ e ∈ t.pending.items, e.1 = e.2 + 1)
      (hf : (t.resolve id (.result result) (.complete id)).futures[f]? =
        some ⟨id', .result result'⟩) :
      t.futures[f]? = some ⟨id', .result result'⟩ ∨ (id = f + 1 ∧ result' = result) := by
    simp only [resolve] at hf
    split at hf
    · exact .inl hf
    · next key future hget =>
      obtain rfl : key = id := Table.key_of_get hget
      split_ifs at hf
      · exact .inl hf
      · obtain ⟨q, hq, -, ⟨rfl, he⟩ | ⟨-, rfl⟩⟩ := getElem?_modify_state hf
        · exact .inr ⟨hentries _ (Table.mem_of_get hget), FutureState.result.inj he⟩
        · exact .inl hq
  obtain ⟨hpending, hfutures, -, -⟩ := popTimeout_frame s id .cancelled
  have hentries : ∀ e ∈ (s.cancelTimeout id).pending.items, e.1 = e.2 + 1 := by
    rw [cancelTimeout, hpending]
    exact fun e he ↦ (h.entries e he).1
  rw [← hfutures]
  exact hresolve (s.cancelTimeout id) hentries hf

end PendingRequests

namespace SiloConnection

open PendingRequests

def Fits (s : SiloConnection) (t : Sender) (id : ℕ) : Prop :=
  ∃ frame, Wire.encodeFrame (t.message id) s.options.maxMessageSize = .ok frame

/-- From one wait of a call to its next or its end, with the id of the frame that it writes, if it
does. -/
inductive Moves (p : PendingRequests Reply RaisedException) (fits : ℕ → Prop) :
    SenderPhase → SenderPhase → Option ℕ → Prop
  | ends {old new : SenderPhase} : new.entry = none → Moves p fits old new none
  | allocates {old : SenderPhase} :
      old.entry = none → fits p.nextId →
        Moves p fits old (.awaitingLock p.nextId p.futures.length) none
  | allocatesAndWrites {old : SenderPhase} :
      old.entry = none → fits p.nextId →
        Moves p fits old (.drainingWrite p.nextId p.futures.length) (some p.nextId)
  | writes (id future : ℕ) : Moves p fits (.awaitingLock id future)
      (.drainingWrite id future) (some id)
  | drains (id future : ℕ) : Moves p fits (.drainingWrite id future) (.awaitingReply id future) none

/-- What an event does to the senders and to what they have written. -/
inductive Steps (s s' : SiloConnection) : Prop
  | none : s'.options = s.options → s'.senders = s.senders → s'.written = s.written → Steps s s'
  | appended (t : Sender) (old : SenderPhase) (id : Option ℕ) : s'.options = s.options →
      s'.senders = s.senders ++ [t] →
      (t.messageType = .request ∨ t.messageType = .ping) → old.entry = Option.none →
      Moves s.pending (s.Fits t) old t.phase id →
        s'.written = s.written ++ (id.map t.message).toList → Steps s s'
  | replaced (task : ℕ) (t : Sender) (phase : SenderPhase) (id : Option ℕ) :
      s'.options = s.options →
      s.senders[task]? = some t → s'.senders = s.senders.set task { t with phase := phase } →
      Moves s.pending (s.Fits t) t.phase phase id →
        s'.written = s.written ++ (id.map t.message).toList → Steps s s'

section

variable {s s' : SiloConnection} {e : ConnectionEvent} {task : ℕ} {sender : Sender}

theorem finish_senders (s : SiloConnection) (task : ℕ) (sender : Sender)
    (outcome : RaisedException ⊕ Reply) :
    (s.finish task sender outcome).senders = s.senders.set task
      { sender with phase := .finished outcome } ∧
      (s.finish task sender outcome).written = s.written ∧
        (s.finish task sender outcome).options = s.options := by
  obtain ⟨inFlight, h⟩ := finish_eq s task sender outcome
  rw [h]
  exact ⟨rfl, rfl, rfl⟩

/-- What `send` does to its own sender: the frame is written at once, after a wait for the lock, or
not at all. -/
theorem send_moves (s : SiloConnection) (task : ℕ) (sender : Sender) (timeout : Option ℚ)
    (buffered : ℕ) (hphase : sender.phase.entry = none) :
    ∃ phase id, (s.send task sender timeout buffered).senders = s.senders.set task
      { sender with phase := phase } ∧
      Moves s.pending (s.Fits sender) sender.phase phase id ∧
      (s.send task sender timeout buffered).written = s.written ++ (id.map sender.message).toList ∧
      (s.send task sender timeout buffered).options = s.options := by
  have hallocate : (s.pending.allocate timeout).1 =
      (s.pending.nextId, s.pending.futures.length) := by
    simp only [PendingRequests.allocate]
    split <;> rfl
  have hrefused (id : ℕ) (error : RaisedException) : ∃ phase w,
      ({ s with pending := (s.pending.allocate timeout).2 }.abandon task sender id error).senders =
        s.senders.set task { sender with phase := phase } ∧
      Moves s.pending (s.Fits sender) sender.phase phase w ∧
      ({ s with pending := (s.pending.allocate timeout).2 }.abandon task sender id error).written =
        s.written ++ (w.map sender.message).toList ∧
      ({ s with pending := (s.pending.allocate timeout).2 }.abandon task sender id error).options =
        s.options := by
    obtain ⟨hs, hw, ho⟩ :=
      finish_senders { s with pending := (s.pending.allocate timeout).2.discard id } task
        sender (.inl error)
    exact ⟨_, none, hs, .ends rfl, hw.trans (List.append_nil _).symm, ho⟩
  simp only [send, hallocate]
  split
  · exact hrefused _ _
  · next frame hframe =>
    split
    · unfold write
      split
      · exact hrefused _ _
      · exact ⟨_, _, rfl, .allocatesAndWrites hphase ⟨frame, hframe⟩, rfl, rfl⟩
    · exact ⟨_, _, rfl, .allocates hphase ⟨frame, hframe⟩, (List.append_nil _).symm, rfl⟩

theorem step_steps (h : s.step e = some s') : Steps s s' := by
  have hends (t : SiloConnection) {sender : Sender} {task : ℕ}
    (hsender : s.senders[task]? = some sender)
      (hoptions : t.options = s.options) (hsenders : t.senders = s.senders)
        (hwritten : t.written = s.written)
      (outcome : RaisedException ⊕ Reply) : Steps s (t.finish task sender outcome) := by
    obtain ⟨hs, hw, ho⟩ := finish_senders t task sender outcome
    exact .replaced task sender _ none (ho.trans hoptions) hsender
      (hs.trans (by rw [hsenders])) (.ends rfl)
      ((hw.trans hwritten).trans (List.append_nil _).symm)
  have habandons (t : SiloConnection) {sender : Sender} {task : ℕ}
    (hsender : s.senders[task]? = some sender)
      (hoptions : t.options = s.options) (hsenders : t.senders = s.senders)
        (hwritten : t.written = s.written) (id : ℕ)
      (error : RaisedException) : Steps s (t.abandon task sender id error) :=
    hends { t with pending := t.pending.discard id } hsender hoptions hsenders hwritten (.inl error)
  have hsends {sender : Sender} (hkind : sender.messageType = .request ∨ sender.messageType = .ping)
      (hphase : sender.phase.entry = none) (inFlight : ℕ) (timeout : Option ℚ) (buffered : ℕ) :
      Steps s ({ s.enter sender with inFlight := inFlight }.send s.senders.length sender
        timeout buffered) := by
    obtain ⟨phase, id, hs, hmoves, hw, ho⟩ :=
      send_moves { s.enter sender with inFlight := inFlight } s.senders.length sender
        timeout buffered hphase
    refine .appended { sender with phase := phase } sender.phase id ho ?_ hkind hphase hmoves hw
    rw [hs]
    exact List.set_append_right _ _ le_rfl |>.trans (by rw [Nat.sub_self]; rfl)
  have hnone : s'.options = s.options → s'.senders = s.senders → s'.written = s.written →
    Steps s s' := .none
  cases e with
  | start =>
    simp only [step] at h
    split at h <;> cases h <;> exact hnone rfl rfl rfl
  | sendRequest header body timeout buffered =>
    simp only [step] at h
    split_ifs at h <;> cases h
    · exact .appended _ (.queued none) none rfl rfl (.inl rfl) rfl (.ends rfl)
        (List.append_nil _).symm
    · exact .appended _ (.queued none) none rfl rfl (.inl rfl) rfl (.ends rfl)
        (List.append_nil _).symm
    · exact hsends (.inl rfl) rfl _ _ _
  | sendPing timeout buffered =>
    simp only [step] at h
    split_ifs at h <;> cases h
    · exact .appended _ (.queued none) none rfl rfl (.inr rfl) rfl (.ends rfl)
        (List.append_nil _).symm
    · exact hsends (.inr rfl) rfl s.inFlight _ _
  | acquired task buffered =>
    simp only [step] at h
    split at h
    · next messageType header body timeout hsender =>
      split_ifs at h
      cases h
      obtain ⟨phase, id, hs, hmoves, hw, ho⟩ :=
        send_moves { s with inFlight := s.inFlight - 1 } task
        ⟨messageType, header, body, .queued timeout⟩ timeout buffered rfl
      exact .replaced task _ phase id ho hsender hs hmoves hw
    · cases h
  | locked task buffered =>
    simp only [step] at h
    split at h
    · next messageType header body id future hsender =>
      split_ifs at h
      cases h
      unfold write
      split
      · exact habandons s hsender rfl rfl rfl _ _
      · exact .replaced task _ _ _ rfl hsender rfl (.writes id future) rfl
    · cases h
  | drained task =>
    simp only [step] at h
    split at h
    · next id future hsender =>
      cases h
      exact .replaced task _ _ _ rfl hsender rfl (.drains id future) (List.append_nil _).symm
    · cases h
  | writeFailed task cause =>
    simp only [step] at h
    split at h
    · next hsender =>
      cases h
      exact habandons { s with writeLock := none } hsender rfl rfl rfl _ _
    · cases h
  | replied task =>
    simp only [step] at h
    split at h
    · next hsender =>
      split at h <;> cases h
      · exact hends s hsender rfl rfl rfl _
      · exact habandons s hsender rfl rfl rfl _ _
    · cases h
  | cancelled task =>
    simp only [step] at h
    split at h
    · next hsender =>
      cases h
      exact .replaced task _ _ none rfl hsender rfl (.ends rfl) (List.append_nil _).symm
    · next hsender =>
      cases h
      exact habandons s hsender rfl rfl rfl _ _
    · next hsender =>
      cases h
      exact habandons { s with writeLock := none } hsender rfl rfl rfl _ _
    · next future hsender =>
      cases h
      exact habandons { s with pending := s.pending.cancelFuture future } hsender rfl rfl rfl _ _
    · cases h
  | lockTaken =>
    simp only [step] at h
    split_ifs at h
    cases h
    exact hnone rfl rfl rfl
  | lockFreed =>
    simp only [step] at h
    split_ifs at h
    cases h
    exact hnone rfl rfl rfl
  | response id reply =>
    cases h
    exact hnone rfl rfl rfl
  | errorResponse id error =>
    cases h
    exact hnone rfl rfl rfl
  | timedOut id =>
    cases h
    exact hnone rfl rfl rfl
  | close reason =>
    simp only [step] at h
    split_ifs at h <;> cases h <;> exact hnone rfl rfl rfl
  | closeStep =>
    obtain ⟨stage, -, rfl⟩ := Option.map_eq_some_iff.mp h
    cases stage with
    | background reason => cases reason <;> exact hnone rfl rfl rfl
    | drain | writer | readTask | handlers => exact hnone rfl rfl rfl
  | closeCancelled =>
    obtain ⟨stage, -, rfl⟩ := Option.map_eq_some_iff.mp h
    exact hnone rfl rfl rfl

theorem finish_pending (s : SiloConnection) (task : ℕ) (sender : Sender)
    (outcome : RaisedException ⊕ Reply) :
    (s.finish task sender outcome).pending = s.pending := by
  obtain ⟨inFlight, h⟩ := finish_eq s task sender outcome
  rw [h]
  rfl

/-- No call gives a future a result but the reader, with a response. -/
theorem step_results (h : s.step e = some s') (he : ∀ id reply, e ≠ .response id reply) :
    NoNewResult s.pending s'.pending := by
  have hallocates (timeout : Option ℚ) : NoNewResult s.pending (s.pending.allocate timeout).2 :=
    noNewResult_step s.pending (.allocate timeout) fun _ _ he ↦ by cases he
  have habandons (t : SiloConnection) (task : ℕ) (sender : Sender) (id : ℕ)
    (error : RaisedException)
      (ht : NoNewResult s.pending t.pending) : NoNewResult s.pending
        (t.abandon task sender id error).pending := by
    rw [abandon, finish_pending]
    exact ht.trans (noNewResult_step t.pending (.discard id) fun _ _ he ↦ by cases he)
  have hsends (t : SiloConnection) (ht : t.pending = s.pending) (task : ℕ) (sender : Sender)
    (timeout : Option ℚ)
      (buffered : ℕ) : NoNewResult s.pending (t.send task sender timeout buffered).pending := by
    have hallocated : NoNewResult s.pending (t.pending.allocate timeout).2 :=
      ht ▸ hallocates timeout
    simp only [send]
    split
    · exact habandons { t with pending := (t.pending.allocate timeout).2 } _ _ _ _ hallocated
    · split
      · unfold write
        split
        · exact habandons { t with pending := (t.pending.allocate timeout).2 } _ _ _ _ hallocated
        · exact hallocated
      · exact hallocated
  have hsame (t : SiloConnection) (ht : t.pending = s.pending) : NoNewResult s.pending t.pending :=
    noNewResult_of_futures (congrArg PendingRequests.futures ht)
  cases e with
  | sendRequest header body timeout buffered =>
    simp only [step] at h
    split_ifs at h <;> cases h
    · exact hsame _ rfl
    · exact hsame _ rfl
    · exact hsends { s.enter _ with inFlight := s.inFlight - 1 } rfl _ _ _ _
  | sendPing timeout buffered =>
    simp only [step] at h
    split_ifs at h <;> cases h
    · exact hsame _ rfl
    · exact hsends (s.enter _) rfl _ _ _ _
  | acquired task buffered =>
    simp only [step] at h
    split at h
    · split_ifs at h
      cases h
      exact hsends { s with inFlight := s.inFlight - 1 } rfl _ _ _ _
    · cases h
  | locked task buffered =>
    simp only [step] at h
    split at h
    · split_ifs at h
      cases h
      unfold write
      split
      · exact habandons s _ _ _ _ (hsame s rfl)
      · exact hsame _ rfl
    · cases h
  | drained task =>
    simp only [step] at h
    split at h <;> cases h
    exact hsame _ rfl
  | writeFailed task cause =>
    simp only [step] at h
    split at h <;> cases h
    exact habandons { s with writeLock := none } _ _ _ _ (hsame s rfl)
  | replied task =>
    simp only [step] at h
    split at h
    · split at h <;> cases h
      · exact hsame _ (finish_pending _ _ _ _)
      · exact habandons s _ _ _ _ (hsame s rfl)
    · cases h
  | cancelled task =>
    simp only [step] at h
    split at h <;> cases h
    · exact hsame _ rfl
    · exact habandons s _ _ _ _ (hsame s rfl)
    · exact habandons { s with writeLock := none } _ _ _ _ (hsame s rfl)
    · next future _ =>
      exact habandons { s with pending := s.pending.cancelFuture future } _ _ _ _
        (noNewResult_step s.pending (.cancelFuture future) fun _ _ he ↦ by cases he)
  | start =>
    simp only [step] at h
    split at h <;> cases h <;> exact hsame _ rfl
  | lockTaken =>
    simp only [step] at h
    split_ifs at h
    cases h
    exact hsame _ rfl
  | lockFreed =>
    simp only [step] at h
    split_ifs at h
    cases h
    exact hsame _ rfl
  | response id reply => exact absurd rfl (he id reply)
  | errorResponse id error =>
    cases h
    exact noNewResult_step s.pending (.fail id error) fun _ _ he ↦ by cases he
  | timedOut id =>
    cases h
    exact noNewResult_step s.pending (.expire id _) fun _ _ he ↦ by cases he
  | close reason =>
    simp only [step] at h
    split_ifs at h <;> cases h <;> exact hsame _ rfl
  | closeStep =>
    obtain ⟨stage, -, rfl⟩ := Option.map_eq_some_iff.mp h
    have hfails (reason : CloseReason) : NoNewResult s.pending (s.failAll reason).pending :=
      noNewResult_step s.pending (.failAll (failed reason)) fun _ _ he ↦ by cases he
    cases stage with
    | background reason =>
      cases reason with
      | normal => exact hsame _ rfl
      | lost => exact hfails .lost
    | drain => exact hfails .normal
    | writer | readTask | handlers => exact hsame _ rfl
  | closeCancelled =>
    obtain ⟨stage, -, rfl⟩ := Option.map_eq_some_iff.mp h
    exact hsame _ rfl

/-- What the senders have given to the writer, and what they have not yet. -/
structure Wrote (s : SiloConnection) : Prop where
  encoded : ∀ m ∈ s.written, ∃ frame, Wire.encodeFrame m s.options.maxMessageSize = .ok frame
  once : (s.written.map Wire.TransportMessage.correlationId).Nodup
  made : ∀ m ∈ s.written, ∃ f < s.pending.futures.length, m.correlationId = ((f + 1 : ℕ) : ℤ)
  kinds : ∀ m ∈ s.written, m.messageType = .request ∨ m.messageType = .ping
  callers : ∀ t ∈ s.senders, t.messageType = .request ∨ t.messageType = .ping
  unwritten : ∀ t ∈ s.senders, ∀ id f, t.phase = .awaitingLock id f →
    s.Fits t id ∧ ∀ m ∈ s.written, m.correlationId ≠ id
  written : ∀ t ∈ s.senders, ∀ id f, t.phase = .drainingWrite id f ∨ t.phase = .awaitingReply id f →
    t.message id ∈ s.written

theorem wrote_new (options : ConnectionOptions) : (new options).Wrote :=
  ⟨nofun, List.nodup_nil, nofun, nofun, nofun, nofun, nofun⟩

theorem Wrote.move {t : Sender} {old : SenderPhase} {id : Option ℕ} (h : s.Wrote)
    (htracks : s.Tracks) (htracks' : s'.Tracks)
    (place : ℕ) (hplace : s'.senders[place]? = some t)
    (hothers : ∀ i u, i ≠ place → s'.senders[i]? = some u → s.senders[i]? = some u)
    (hlength : s.pending.futures.length ≤ s'.pending.futures.length)
      (hoptions : s'.options = s.options)
    (hkind : t.messageType = .request ∨ t.messageType = .ping)
    (hold : old.entry ≠ none → ∃ u, s.senders[place]? = some u ∧ u.phase = old ∧
      u.message = t.message)
    (hmoves : Moves s.pending (s.Fits t) old t.phase id)
      (hwritten : s'.written = s.written ++ (id.map t.message).toList) : s'.Wrote := by
  have hmember : t ∈ s'.senders := List.mem_of_getElem? hplace
  have hsender : ∀ u ∈ s'.senders, u = t ∨ ∃ i, i ≠ place ∧ s'.senders[i]? = some u ∧
    u ∈ s.senders := by
    intro u hu
    obtain ⟨i, hi⟩ := List.mem_iff_getElem?.mp hu
    by_cases he : i = place
    · subst he
      exact .inl (Option.some.inj (hi.symm.trans hplace))
    · exact .inr ⟨i, he, hi, List.mem_of_getElem? (hothers i u he hi)⟩
  have hmade : ∀ m ∈ s.written, ∃ f < s'.pending.futures.length,
    m.correlationId = ((f + 1 : ℕ) : ℤ) := by
    intro m hm
    obtain ⟨f, hf, hid⟩ := h.made m hm
    exact ⟨f, hf.trans_le hlength, hid⟩
  have hcallers : ∀ u ∈ s'.senders, u.messageType = .request ∨ u.messageType = .ping := by
    intro u hu
    rcases hsender u hu with rfl | ⟨-, -, -, hu⟩
    · exact hkind
    · exact h.callers u hu
  have hfits : s'.Fits = s.Fits := by
    unfold Fits
    rw [hoptions]
  have hfresh : ∀ m ∈ s.written, m.correlationId ≠ s.pending.nextId := by
    intro m hm
    obtain ⟨f, hf, hid⟩ := h.made m hm
    rw [hid, htracks.sound.next]
    exact Int.natCast_inj.not.mpr (by omega)
  -- Nothing is written, or one frame whose id no written frame has.
  have hkeeps (hsame : s'.written = s.written)
      (hun : ∀ id f, t.phase = .awaitingLock id f → s.Fits t id ∧
        ∀ m ∈ s.written, m.correlationId ≠ id)
      (hwr : ∀ id f, t.phase = .drainingWrite id f ∨ t.phase = .awaitingReply id f →
        t.message id ∈ s.written) :
      s'.Wrote := by
    rw [← hsame] at hun hwr hmade
    refine ⟨?_, hsame ▸ h.once, hmade, hsame ▸ h.kinds, hcallers, fun u hu ↦ ?_, fun u hu ↦ ?_⟩
    · rw [hsame, hoptions]
      exact h.encoded
    · rw [hfits]
      rcases hsender u hu with rfl | ⟨-, -, -, hu⟩
      · exact hun
      · exact hsame ▸ h.unwritten u hu
    · rcases hsender u hu with rfl | ⟨-, -, -, hu⟩
      · exact hwr
      · exact hsame ▸ h.written u hu
  have hwrites (w f : ℕ) (hphase : t.phase = .drainingWrite w f)
      (hnew : s.Fits t w ∧ ∀ m ∈ s.written, m.correlationId ≠ w)
        (hgrown : s'.written = s.written ++ [t.message w]) : s'.Wrote := by
    have hentry : t.phase.entry = some (w, f) := by rw [hphase]; rfl
    have htracked := htracks'.tracked t hmember _ hentry
    have hin : ∀ m, m ∈ s'.written ↔ m ∈ s.written ∨ m = t.message w := by
      intro m
      rw [hgrown, List.mem_append, List.mem_singleton]
    refine ⟨fun m hm ↦ ?_, ?_, fun m hm ↦
      ?_, fun m hm ↦ ?_, hcallers, fun u hu id g hu' ↦ ?_, fun u hu id g hu' ↦ ?_⟩
    · rw [hoptions]
      rcases (hin m).mp hm with hm | rfl
      · exact h.encoded m hm
      · exact hnew.1
    · rw [hgrown, List.map_append, List.nodup_append]
      refine ⟨h.once, List.nodup_singleton _, ?_⟩
      rintro _ hid _ hid' rfl
      obtain ⟨m, hm, he⟩ := List.mem_map.mp hid
      exact hnew.2 m hm (he.trans (List.mem_singleton.mp hid'))
    · rcases (hin m).mp hm with hm | rfl
      · exact hmade m hm
      · exact ⟨f, htracked.made, congrArg Nat.cast htracked.id⟩
    · rcases (hin m).mp hm with hm | rfl
      · exact h.kinds m hm
      · exact hkind
    · rcases hsender u hu with rfl | ⟨i, hi, hplace', hu⟩
      · rw [hphase] at hu'
        cases hu'
      · obtain ⟨hencodes, hnone⟩ := h.unwritten u hu id g hu'
        refine ⟨hfits ▸ hencodes, fun m hm ↦ ?_⟩
        rcases (hin m).mp hm with hm | rfl
        · exact hnone m hm
        · intro he
          refine hi (htracks'.apart i place u t (id, g) (w, f) hplace' hplace ?_ hentry
            (Int.ofNat.inj he).symm)
          rw [hu']
          rfl
    · refine (hin _).mpr ?_
      rcases hsender u hu with rfl | ⟨-, -, -, hu⟩
      · rw [hphase] at hu'
        rcases hu' with he | he <;> cases he
        exact .inr rfl
      · exact .inl (h.written u hu id g hu')
  generalize hphase : t.phase = phase at hmoves
  cases hmoves with
  | ends hnone =>
    have hnone : t.phase.entry = none := hphase ▸ hnone
    refine hkeeps (hwritten.trans (List.append_nil _)) (fun id f he ↦ ?_) fun id f he ↦ ?_
    · rw [he] at hnone
      cases hnone
    · rcases he with he | he <;> rw [he] at hnone <;> cases hnone
  | allocates _ hencodes =>
    refine hkeeps (hwritten.trans (List.append_nil _)) (fun id f he ↦ ?_) fun id f he ↦ ?_
    · cases hphase.symm.trans he
      exact ⟨hencodes, hfresh⟩
    · rcases he with he | he <;> cases hphase.symm.trans he
  | allocatesAndWrites _ hencodes => exact hwrites _ _ hphase ⟨hencodes, hfresh⟩ hwritten
  | writes w f =>
    obtain ⟨u, hu, huphase, hmessage⟩ := hold nofun
    refine hwrites w f hphase ?_ hwritten
    unfold Fits
    rw [← hmessage]
    exact h.unwritten u (List.mem_of_getElem? hu) w f huphase
  | drains w f =>
    obtain ⟨u, hu, huphase, hmessage⟩ := hold nofun
    refine hkeeps (hwritten.trans (List.append_nil _)) (fun id g he ↦ ?_) fun id g he ↦ ?_
    · cases hphase.symm.trans he
    · rcases he with he | he <;> cases hphase.symm.trans he
      rw [← hmessage]
      exact h.written u (List.mem_of_getElem? hu) w f (.inl huphase)

theorem Wrote.step (h : s.Wrote) (htracks : s.Tracks) (htracks' : s'.Tracks)
    (hstep : s.step e = some s') : s'.Wrote := by
  have hlength := length_futures_le hstep
  cases step_steps hstep with
  | none hoptions hsenders hwritten =>
    have hfits : s'.Fits = s.Fits := by
      unfold Fits
      rw [hoptions]
    refine ⟨?_, hwritten ▸ h.once, fun m hm ↦ ?_, hwritten ▸ h.kinds, hsenders ▸ h.callers, ?_, ?_⟩
    · rw [hwritten, hoptions]
      exact h.encoded
    · obtain ⟨f, hf, hid⟩ := h.made m (hwritten ▸ hm)
      exact ⟨f, hf.trans_le hlength, hid⟩
    · rw [hsenders, hwritten, hfits]
      exact h.unwritten
    · rw [hsenders, hwritten]
      exact h.written
  | appended t old id hoptions hsenders hkind hold hmoves hwritten =>
    refine h.move htracks htracks' s.senders.length ?_ (fun i u hi hu ↦ ?_) hlength hoptions hkind
      (fun hne ↦ absurd hold hne) hmoves hwritten
    · rw [hsenders, List.getElem?_append_right le_rfl, Nat.sub_self]
      rfl
    · rw [hsenders] at hu
      exact (getElem?_grown.mp hu).resolve_right fun hnew ↦ hi hnew.1
  | replaced task t phase id hoptions ht hsenders hmoves hwritten =>
    refine h.move (t := { t with phase := phase }) htracks htracks' task ?_
      (fun i v hi hv ↦ ?_) hlength hoptions
      (h.callers t (List.mem_of_getElem? ht)) (fun _ ↦ ⟨t, ht, rfl, rfl⟩) hmoves hwritten
    · rw [hsenders]
      exact (getElem?_replaced ht).mpr (.inl ⟨rfl, rfl⟩)
    · rw [hsenders, List.getElem?_set_ne hi.symm] at hv
      exact hv

theorem step_grows (h : s.step e = some s') :
    s'.options = s.options ∧ s.written <+: s'.written := by
  cases step_steps h with
  | none hoptions _ hwritten => exact ⟨hoptions, hwritten ▸ List.prefix_rfl⟩
  | appended t old id hoptions _ _ _ _ hwritten =>
    exact ⟨hoptions, hwritten ▸ List.prefix_append _ _⟩
  | replaced task t phase id hoptions _ _ _ hwritten =>
    exact ⟨hoptions, hwritten ▸ List.prefix_append _ _⟩

/-- A call that returns a reply returns what its own future has been given. -/
theorem result_of_replied {reply : Reply} (h : s.step (.replied task) = some s')
    (hsender : s'.senders[task]? = some sender) (hphase : sender.phase = .finished (.inr reply)) :
    ∃ id f i, s.senders[task]? = some { sender with phase := .awaitingReply id f } ∧
      s.pending.futures[f]? = some ⟨i, .result reply⟩ := by
  simp only [step] at h
  split at h
  · next messageType header body id f ht =>
    have hlt := (List.getElem?_eq_some_iff.mp ht).1
    split at h <;> cases h
    · next reply' hreply =>
      rw [(finish_senders _ _ _ _).1, List.getElem?_set_self hlt] at hsender
      obtain rfl := Option.some.inj hsender
      obtain rfl := Sum.inr.inj (SenderPhase.finished.inj hphase)
      obtain ⟨p, hp, hout⟩ := Option.bind_eq_some_iff.mp hreply
      obtain ⟨i, state⟩ := p
      cases state with
      | result value =>
        obtain rfl := Sum.inr.inj (Option.some.inj hout)
        exact ⟨id, f, i, ht, hp⟩
      | pending | exception | cancelled => cases hout
    · rw [abandon, (finish_senders _ _ _ _).1, List.getElem?_set_self hlt] at hsender
      obtain rfl := Option.some.inj hsender
      cases hphase
  · cases h

end

end SiloConnection

end Pyleans
