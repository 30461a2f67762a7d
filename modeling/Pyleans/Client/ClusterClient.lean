import Pyleans.Library.Pool
import Pyleans.Library.Transition

namespace Pyleans

open Library

/-- A reader and a writer that `open_connection` has given together. The writer is closed by
the client, or with the connection when that is reset. `struck` notes that it worked when a
reconnect began on it or its writer was closed; only the records of what fails read it. -/
structure GatewayConnection where
  lost : Bool
  closed : Bool
  struck : Bool
deriving DecidableEq

/-- `raised` says whether an exception has come out of the loop. -/
inductive ReadLoopPhase
  | created
  | reading (connection : ℕ)
  | ended (raised : Bool)
deriving DecidableEq

def ReadLoopPhase.running : ReadLoopPhase → Bool
  | .ended _ => false
  | _ => true

structure ReadLoop where
  phase : ReadLoopPhase
  cancelledBy : Option ℕ
deriving DecidableEq

/-- `failed` says which call's `close` has failed the request, if one has, and whether the
connection of the request worked, then or when it was struck. -/
inductive RequestOutcome
  | pending
  | answered
  | timedOut
  | failed (caller : Option ℕ) (healthy : Bool)
deriving DecidableEq

structure GatewayRequest where
  call : ℕ
  connection : ℕ
  outcome : RequestOutcome
deriving DecidableEq

/-- Where an `invoke` is, with its `attempts_left`. `failed` has caught a `ConnectionError`,
`awaitingLoop` and `closing` are in `close()`, `refreshing` and `opening` in `connect()`. -/
inductive InvokePhase
  | trying (attempts : ℕ)
  | draining (request : ℕ) (attempts : ℕ)
  | waiting (request : ℕ) (attempts : ℕ)
  | failed (attempts : ℕ)
  | awaitingLoop (loop : ℕ) (attempts : ℕ)
  | closing (connection : ℕ) (attempts : ℕ)
  | refreshing (attempts : ℕ) (again : Bool)
  | opening (attempts : ℕ) (again : Bool)
  | finished
deriving DecidableEq

def InvokePhase.reconnecting : InvokePhase → Bool
  | .awaitingLoop _ _ | .closing _ _ | .refreshing _ _ | .opening _ _ => true
  | _ => false

/-- A client with its calls, its read loops, and the connections and requests there ever were.
A request is named by its correlation id; `pending` are the keys of `_pending`. -/
structure ClusterClient where
  connections : List GatewayConnection
  loops : List ReadLoop
  requests : List GatewayRequest
  calls : List InvokePhase
  reader : Option ℕ
  writer : Option ℕ
  readTask : Option ℕ
  pending : List ℕ
deriving DecidableEq

inductive ClientEvent
  | invoke
  | attempt (call : ℕ)
  | drained (call : ℕ) (ok : Bool)
  | resume (call : ℕ)
  | timeout (call : ℕ)
  | reconnect (call : ℕ)
  | loopDone (call : ℕ)
  | writerClosed (call : ℕ)
  | refreshed (call : ℕ)
  | opened (call : ℕ)
  | openFailed (call : ℕ)
  | startLoop (loop : ℕ)
  | frame (loop : ℕ) (request : ℕ)
  | endLoop (loop : ℕ) (raised : Bool)
  | lose (connection : ℕ) (reset : Bool)

namespace ClusterClient

def start : ClusterClient :=
  ⟨[⟨false, false, false⟩], [⟨.created, none⟩], [], [], some 0, some 0, some 0, []⟩

variable (s : ClusterClient)

def healthy (k : ℕ) : Bool := (s.connections[k]?).any fun c ↦ !c.lost && !c.closed

def worked (k : ℕ) : Bool := (s.connections[k]?).any fun c ↦ !c.lost && !c.closed || c.struck

def connected : Bool := s.writer.any fun k ↦ (s.connections[k]?).any fun c ↦ !c.closed

def setCall (c : ℕ) (t : InvokePhase) : ClusterClient := { s with calls := s.calls.set c t }

def setLoop (l : ℕ) (loop : ReadLoop) : ClusterClient := { s with loops := s.loops.set l loop }

def strike (k : ℕ) : ClusterClient :=
  { s with connections := s.connections.modify k fun c ↦
    { c with struck := !c.lost && !c.closed || c.struck } }

def closeConnection (k : ℕ) : ClusterClient :=
  { s with
    connections := s.connections.modify k fun c ↦
      { c with closed := true, struck := !c.lost && !c.closed || c.struck } }

/-- The request is taken out of `_pending`, with this outcome if it has none yet. -/
def settle (id : ℕ) (outcome : RequestOutcome) : ClusterClient :=
  { s with
    requests := s.requests.modify id fun r ↦
      if r.outcome = .pending then { r with outcome := outcome } else r
    pending := s.pending.filter fun i ↦ i ≠ id }

def failPending (caller : Option ℕ) : ClusterClient :=
  { s with
    requests := s.requests.mapIdx fun id r ↦
      if id ∈ s.pending ∧ r.outcome = .pending then
        { r with outcome := .failed caller (s.worked r.connection) }
      else r
    pending := [] }

def finishClose (c attempts : ℕ) : ClusterClient :=
  (s.failPending (some c)).setCall c (.refreshing attempts false)

def closeWriter (c attempts : ℕ) : ClusterClient :=
  match s.writer with
  | some k => (s.closeConnection k).setCall c (.closing k attempts)
  | none => s.finishClose c attempts

/-- `_reconnect_to_fresh_gateway` comes upon the connection in use. -/
def beginReconnect : ClusterClient :=
  match s.writer with
  | some k => s.strike k
  | none => s

/-- `close()` when the read loop has ended, from where what has come out of that is raised. -/
def afterLoop (c attempts : ℕ) (raised : Bool) : ClusterClient :=
  if raised then s.setCall c .finished
  else ({ s with readTask := none } : ClusterClient).closeWriter c attempts

/-- The `finally` of the read loop, which has been cancelled by a call or not. -/
def loopEnds (l : ℕ) (caller : Option ℕ) (raised : Bool) : ClusterClient :=
  let s := (s.failPending caller).setLoop l ⟨.ended raised, none⟩
  match caller, s.writer with
  | none, some k => s.closeConnection k
  | _, _ => s

/-- The read loop waits for a frame of `self._reader`, which it may not when that is gone or
another loop waits for it. -/
def read (l : ℕ) : ClusterClient :=
  match s.reader with
  | none => s.loopEnds l none true
  | some r =>
    if ∃ i < s.loops.length, i ≠ l ∧ (s.loops[i]?).map ReadLoop.phase = some (.reading r) then
      s.loopEnds l none true
    else s.setLoop l ⟨.reading r, none⟩

/-- A `ConnectionError` in `invoke`. -/
def afterError (refresher : Bool) (attempts : ℕ) : InvokePhase :=
  if attempts ≤ 1 ∨ !refresher then .finished else .failed (attempts - 1)

/-- `refresher` says whether there is one. -/
def step (refresher : Bool) (maxReconnectAttempts : ℕ) (s : ClusterClient) :
    ClientEvent → Option ClusterClient
  | .invoke => some { s with calls := s.calls ++ [.trying (1 + maxReconnectAttempts)] }
  | .attempt c =>
    match s.calls[c]?, s.writer with
    | some (.trying attempts), some k =>
      if s.connected then
        some (({ s with
          requests := s.requests ++ [⟨c, k, .pending⟩]
          pending := s.pending ++ [s.requests.length] } : ClusterClient).setCall c
            (.draining s.requests.length attempts))
      else some (s.setCall c (afterError refresher attempts))
    | some (.trying attempts), none => some (s.setCall c (afterError refresher attempts))
    | _, _ => none
  | .drained c ok =>
    match s.calls[c]? with
    | some (.draining id attempts) =>
      if ok then some (s.setCall c (.waiting id attempts))
      else match (s.requests[id]?).filter fun r ↦ !s.healthy r.connection with
      | some r =>
        some ((s.settle id (.failed none (s.worked r.connection))).setCall c
          (afterError refresher attempts))
      | none => none
    | _ => none
  | .resume c =>
    match s.calls[c]? with
    | some (.waiting id attempts) =>
      match (s.requests[id]?).map GatewayRequest.outcome with
      | some .answered => some (s.setCall c .finished)
      | some (.failed _ _) => some (s.setCall c (afterError refresher attempts))
      | _ => none
    | _ => none
  | .timeout c =>
    match s.calls[c]? with
    | some (.waiting id _) =>
      if (s.requests[id]?).map GatewayRequest.outcome = some .pending then
        some ((s.settle id .timedOut).setCall c .finished)
      else none
    | _ => none
  | .reconnect c =>
    match s.calls[c]? with
    | some (.failed attempts) =>
      match s.readTask with
      | none => some (s.beginReconnect.closeWriter c attempts)
      | some l =>
        match s.loops[l]? with
        | some ⟨.ended raised, _⟩ => some (s.beginReconnect.afterLoop c attempts raised)
        | some loop =>
          some ((s.beginReconnect.setLoop l ⟨loop.phase, some c⟩).setCall c
            (.awaitingLoop l attempts))
        | none => none
    | _ => none
  | .loopDone c =>
    match s.calls[c]? with
    | some (.awaitingLoop l attempts) =>
      match s.loops[l]? with
      | some ⟨.ended raised, _⟩ => some (s.afterLoop c attempts raised)
      | _ => none
    | _ => none
  | .writerClosed c =>
    match s.calls[c]? with
    | some (.closing _ attempts) =>
      some (({ s with writer := none, reader := none } : ClusterClient).finishClose c attempts)
    | _ => none
  | .refreshed c =>
    match s.calls[c]? with
    | some (.refreshing attempts again) => some (s.setCall c (.opening attempts again))
    | _ => none
  | .opened c =>
    match s.calls[c]? with
    | some (.opening attempts _) =>
      some (({ s with
        connections := s.connections ++ [⟨false, false, false⟩]
        loops := s.loops ++ [⟨.created, none⟩]
        reader := some s.connections.length
        writer := some s.connections.length
        readTask := some s.loops.length } : ClusterClient).setCall c (.trying attempts))
    | _ => none
  | .openFailed c =>
    match s.calls[c]? with
    | some (.opening attempts again) =>
      some (s.setCall c (if again then .finished else .refreshing attempts true))
    | _ => none
  | .startLoop l =>
    match s.loops[l]? with
    | some ⟨.created, none⟩ =>
      some (if s.reader.isNone then s.setLoop l ⟨.ended true, none⟩ else s.read l)
    | some ⟨.created, some _⟩ => some (s.setLoop l ⟨.ended false, none⟩)
    | _ => none
  | .frame l id =>
    match s.loops[l]? with
    | some ⟨.reading _, none⟩ => some ((if id ∈ s.pending then s.settle id .answered else s).read l)
    | _ => none
  | .endLoop l raised =>
    match s.loops[l]? with
    | some ⟨.reading _, some c⟩ => some (s.loopEnds l (some c) false)
    | some ⟨.reading r, none⟩ => if s.healthy r then none else some (s.loopEnds l none raised)
    | _ => none
  | .lose k reset =>
    some { s with connections := s.connections.modify k fun c ↦
      { c with lost := true, closed := c.closed || reset } }

/-- A reconnect begins when no other is under way and the connection of the client is broken. -/
def Orderly (s : ClusterClient) : ClientEvent → Prop
  | .reconnect _ => (∀ t ∈ s.calls, t.reconnecting = false) ∧ ∀ k ∈ s.writer, s.healthy k = false
  | _ => True

instance (s : ClusterClient) : ∀ event, Decidable (s.Orderly event) := fun event ↦ by
  cases event <;> dsimp only [Orderly] <;> infer_instance

def Running (l : ℕ) : Prop := ∃ loop, s.loops[l]? = some loop ∧ loop.phase.running

def OneLoop : Prop := ∀ l l', s.Running l → s.Running l' → l = l'

/-- No request on a connection that worked has failed, save by the call that had sent it. -/
def Unharmed : Prop :=
  ∀ (id : ℕ) (r : GatewayRequest) (caller : Option ℕ),
    s.requests[id]? = some r → r.outcome = .failed caller true → caller = some r.call

section

variable {s s' : ClusterClient} {c l k id : ℕ} {t t₀ : InvokePhase} {loop : ReadLoop}

def Broken (s : ClusterClient) : Prop := ∀ k ∈ s.writer, s.healthy k = false

def Stage (s : ClusterClient) : InvokePhase → Prop
  | .awaitingLoop l _ => s.readTask = some l ∧ s.Broken
  | .closing k _ => s.writer = some k ∧ s.Broken ∧ s.readTask = none
  | .refreshing _ _ | .opening _ _ => s.writer = none ∧ s.readTask = none
  | _ => True

/-- One reconnect at a time, and one read loop, which is that of the connection in use. -/
structure Linked (s : ClusterClient) : Prop where
  alone : ∀ {c c' : ℕ} {t t' : InvokePhase},
    s.calls[c]? = some t → s.calls[c']? = some t' → t.reconnecting → t'.reconnecting → c = c'
  stage : ∀ {c : ℕ} {t : InvokePhase}, s.calls[c]? = some t → s.Stage t
  same : s.reader = s.writer
  running : ∀ {l : ℕ} {loop : ReadLoop},
    s.loops[l]? = some loop → loop.phase.running → s.readTask = some l ∧ s.reader ≠ none
  reading : ∀ {l r : ℕ} {loop : ReadLoop}, s.loops[l]? = some loop → loop.phase = .reading r →
    s.reader = some r
  cancelled : ∀ {l c : ℕ} {loop : ReadLoop},
    s.loops[l]? = some loop → loop.phase.running → loop.cancelledBy = some c →
      ∃ c' attempts : ℕ, s.calls[c']? = some (.awaitingLoop l attempts)

def Unstruck (s : ClusterClient) : Prop :=
  ∀ (k : ℕ) (x : GatewayConnection), s.connections[k]? = some x → x.struck = false

/-- What is pending was sent on the connection in use, and no connection was ever struck. -/
structure Filed (s : ClusterClient) : Prop where
  pending : ∀ id ∈ s.pending, ∃ r, s.requests[id]? = some r ∧ s.writer = some r.connection
  unstruck : s.Unstruck
  unharmed : s.Unharmed

theorem stage_of_quiet (h : t.reconnecting = false) : s.Stage t := by
  cases t <;> trivial

theorem Broken.wear (h : s.Broken) (hwriter : s'.writer = s.writer)
    (hwear : ∀ k, s'.healthy k → s.healthy k) :
    s'.Broken := by
  intro k hk
  have hbroken := h k (hwriter ▸ hk)
  by_contra hhealthy
  rw [hwear k (by simpa using hhealthy)] at hbroken
  cases hbroken

theorem Stage.wear (h : s.Stage t) (hwriter : s'.writer = s.writer)
    (hread : s'.readTask = s.readTask) (hwear : ∀ k, s'.healthy k → s.healthy k) : s'.Stage t := by
  cases t with
  | awaitingLoop l attempts => exact ⟨hread.trans h.1, h.2.wear hwriter hwear⟩
  | closing k attempts => exact ⟨hwriter.trans h.1, h.2.1.wear hwriter hwear, hread.trans h.2.2⟩
  | refreshing attempts again | opening attempts again => exact ⟨hwriter.trans h.1, hread.trans h.2⟩
  | _ => trivial

theorem healthy_modify {f : GatewayConnection → GatewayConnection}
    (hf : ∀ x, (!(f x).lost && !(f x).closed) = true → (!x.lost && !x.closed) = true) (k j : ℕ)
    (h : ({ s with connections := s.connections.modify k f } : ClusterClient).healthy j) :
      s.healthy j := by
  simp only [healthy, List.getElem?_modify] at h ⊢
  cases hj : s.connections[j]? with
  | none => rw [hj] at h; cases h
  | some x =>
    rw [hj] at h
    split_ifs at h
    · exact hf x h
    · exact h

theorem healthy_closeConnection (k j : ℕ) (h : (s.closeConnection k).healthy j) : s.healthy j :=
  healthy_modify (fun x hx ↦ by simp at hx) k j h

theorem strike_of_broken (h : s.healthy k = false) : s.strike k = s := by
  have hsame : s.connections.modify k
    (fun c ↦ { c with struck := !c.lost && !c.closed || c.struck }) =
      s.connections := by
    refine List.ext_getElem? fun j ↦ ?_
    rw [List.getElem?_modify]
    split_ifs with hj
    · subst hj
      cases hk : s.connections[k]? with
      | none => rfl
      | some c =>
        rw [healthy, hk] at h
        have hbroken : (!c.lost && !c.closed) = false := h
        simp only [Option.map_eq_map, Option.map_some, hbroken, Bool.false_or]
    · exact Option.map_id'
  rw [strike, hsame]

theorem beginReconnect_of_broken (h : s.Broken) : s.beginReconnect = s := by
  unfold beginReconnect
  split
  · next k hk => exact strike_of_broken (h k hk)
  · rfl

theorem Linked.of_idle
    (hidle : ∀ (l : ℕ) (loop : ReadLoop), s.loops[l]? = some loop → loop.phase.running = false)
    (hsame : s.reader = s.writer)
    (honly : ∀ (c' : ℕ) (t : InvokePhase), s.calls[c']? = some t → t.reconnecting → c' = c)
    (hstage : ∀ t, s.calls[c]? = some t → s.Stage t) : s.Linked where
  alone h h' ht ht' := (honly _ _ h ht).trans (honly _ _ h' ht').symm
  stage := fun {c' t} h ↦ by
    by_cases ht : t.reconnecting
    · exact hstage t (honly c' t h ht ▸ h)
    · exact stage_of_quiet (by simpa using ht)
  same := hsame
  running h hr := by rw [hidle _ _ h] at hr; cases hr
  reading {l loop r} h hr := by
    have := hidle _ _ h
    rw [hr] at this
    cases this
  cancelled h hr := by rw [hidle _ _ h] at hr; cases hr

theorem Linked.wear (h : s.Linked) (f : GatewayConnection → GatewayConnection)
    (hf : ∀ x, (!(f x).lost && !(f x).closed) = true → (!x.lost && !x.closed) = true) (k : ℕ) :
    ({ s with connections := s.connections.modify k f } : ClusterClient).Linked where
  alone := h.alone
  stage hc := (h.stage hc).wear rfl rfl (healthy_modify hf k)
  same := h.same
  running := h.running
  reading := h.reading
  cancelled := h.cancelled

theorem Linked.closeConnection (h : s.Linked) (k : ℕ) : (s.closeConnection k).Linked :=
  h.wear _ (fun x hx ↦ by simp at hx) k

theorem Linked.advance (h : s.Linked) (hold : s.calls[c]? = some t₀)
    (hrec : t.reconnecting → t₀.reconnecting) (hnot : ∀ l attempts, t₀ ≠ .awaitingLoop l attempts)
    (hstage : s.Stage t) :
      (s.setCall c t).Linked where
  alone {c₁ c₂ t₁ t₂} h₁ h₂ ht₁ ht₂ := by
    have hbefore : ∀ {c' : ℕ} {t' : InvokePhase}, (s.calls.set c t)[c']? = some t' →
      t'.reconnecting →
        ∃ t'', s.calls[c']? = some t'' ∧ t''.reconnecting := by
      intro c' t' hc ht
      rcases (getElem?_replaced hold).mp hc with ⟨rfl, rfl⟩ | ⟨-, hc⟩
      · exact ⟨t₀, hold, hrec ht⟩
      · exact ⟨t', hc, ht⟩
    obtain ⟨t₁', h₁, ht₁⟩ := hbefore h₁ ht₁
    obtain ⟨t₂', h₂, ht₂⟩ := hbefore h₂ ht₂
    exact h.alone h₁ h₂ ht₁ ht₂
  stage {c' t'} hc := by
    rcases (getElem?_replaced hold).mp hc with ⟨rfl, rfl⟩ | ⟨-, hc⟩
    · exact hstage.wear rfl rfl fun _ hk ↦ hk
    · exact (h.stage hc).wear rfl rfl fun _ hk ↦ hk
  same := h.same
  running := h.running
  reading := h.reading
  cancelled hl hr hby := by
    obtain ⟨c', attempts, hc'⟩ := h.cancelled hl hr hby
    refine ⟨c', attempts, (getElem?_replaced hold).mpr (.inr ⟨fun hsame ↦ ?_, hc'⟩)⟩
    rw [hsame, hold] at hc'
    exact hnot _ _ (Option.some.inj hc')

theorem Linked.quiet (h : s.Linked) (hold : s.calls[c]? = some t₀) (hold₀ : t₀.reconnecting = false)
    (ht : t.reconnecting = false) : (s.setCall c t).Linked :=
  h.advance hold (fun hr ↦ by rw [ht] at hr; cases hr)
    (fun l attempts he ↦ by rw [he] at hold₀; cases hold₀)
    (stage_of_quiet ht)

theorem Linked.setLoop (h : s.Linked) {loop₀ : ReadLoop} (hold : s.loops[l]? = some loop₀)
    (hrunning : loop₀.phase.running)
    (hphase : loop.phase.running → ∃ r, loop.phase = .reading r ∧ s.reader = some r)
    (hby : loop.cancelledBy = none) : (s.setLoop l loop).Linked where
  alone := h.alone
  stage hc := (h.stage hc).wear rfl rfl fun _ hk ↦ hk
  same := h.same
  running {l' loop'} hl hr := by
    rcases (getElem?_replaced hold).mp hl with ⟨rfl, rfl⟩ | ⟨-, hl⟩
    · exact h.running hold hrunning
    · exact h.running hl hr
  reading {l' r loop'} hl hr := by
    rcases (getElem?_replaced hold).mp hl with ⟨rfl, rfl⟩ | ⟨-, hl⟩
    · obtain ⟨r', hr', hreader⟩ := hphase (by rw [hr]; rfl)
      exact ReadLoopPhase.reading.inj (hr'.symm.trans hr) ▸ hreader
    · exact h.reading hl hr
  cancelled {l' c' loop'} hl hr hc := by
    rcases (getElem?_replaced hold).mp hl with ⟨rfl, rfl⟩ | ⟨-, hl⟩
    · rw [hby] at hc
      cases hc
    · exact h.cancelled hl hr hc

/-- A reconnect that begins cancels the read loop and waits for it. -/
theorem Linked.cancel (h : s.Linked) {attempts : ℕ} (hold : s.calls[c]? = some t₀)
    (hloop : s.loops[l]? = some loop) (hread : s.readTask = some l)
    (hquiet : ∀ t ∈ s.calls, t.reconnecting = false) (hbroken : s.Broken) :
    ((s.setLoop l ⟨loop.phase, some c⟩).setCall c (.awaitingLoop l attempts)).Linked where
  alone {c₁ c₂ t₁ t₂} h₁ h₂ ht₁ ht₂ := by
    rcases (getElem?_replaced hold).mp h₁ with ⟨rfl, rfl⟩ | ⟨-, h₁⟩
    · rcases (getElem?_replaced hold).mp h₂ with ⟨rfl, rfl⟩ | ⟨-, h₂⟩
      · rfl
      · rw [hquiet _ (List.mem_of_getElem? h₂)] at ht₂
        cases ht₂
    · rw [hquiet _ (List.mem_of_getElem? h₁)] at ht₁
      cases ht₁
  stage {c' t'} hc := by
    rcases (getElem?_replaced hold).mp hc with ⟨rfl, rfl⟩ | ⟨-, hc⟩
    · exact ⟨hread, hbroken⟩
    · exact stage_of_quiet (hquiet _ (List.mem_of_getElem? hc))
  same := h.same
  running {l' loop'} hl hr := by
    rcases (getElem?_replaced hloop).mp hl with ⟨rfl, rfl⟩ | ⟨-, hl⟩
    · exact h.running hloop hr
    · exact h.running hl hr
  reading {l' r loop'} hl hr := by
    rcases (getElem?_replaced hloop).mp hl with ⟨rfl, rfl⟩ | ⟨-, hl⟩
    · exact h.reading hloop hr
    · exact h.reading hl hr
  cancelled {l' c' loop'} hl hr hc := by
    have hcall : (s.calls.set c (.awaitingLoop l attempts))[c]? = some (.awaitingLoop l attempts) :=
      (getElem?_replaced hold).mpr (.inl ⟨rfl, rfl⟩)
    rcases (getElem?_replaced hloop).mp hl with ⟨rfl, rfl⟩ | ⟨hne, hl⟩
    · exact ⟨c, attempts, hcall⟩
    · exact absurd (Option.some.inj ((h.running hl hr).1.symm.trans hread)) hne

theorem idle_of_readTask (h : s.Linked)
    (hread : ∀ l ∈ s.readTask, ∀ loop ∈ s.loops[l]?, loop.phase.running = false) :
    ∀ (l : ℕ) (loop : ReadLoop), s.loops[l]? = some loop → loop.phase.running = false := by
  intro l loop hl
  by_contra hr
  have hr : loop.phase.running := by simpa using hr
  rw [hread l (h.running hl hr).1 loop hl] at hr
  cases hr

theorem Linked.closeWriter (hold : s.calls[c]? = some t₀) {attempts : ℕ}
    (hidle : ∀ (l : ℕ) (loop : ReadLoop), s.loops[l]? = some loop → loop.phase.running = false)
    (hsame : s.reader = s.writer)
    (honly : ∀ (c' : ℕ) (t : InvokePhase), s.calls[c']? = some t → t.reconnecting → c' = c)
    (hbroken : s.Broken) (hread : s.readTask = none) : (s.closeWriter c attempts).Linked := by
  have honly' : ∀ (t' : InvokePhase) (c' : ℕ) (t : InvokePhase),
      (s.calls.set c t')[c']? = some t → t.reconnecting → c' = c := by
    intro t' c' t hc ht
    rcases (getElem?_replaced hold).mp hc with ⟨hsame, -⟩ | ⟨-, hc⟩
    · exact hsame
    · exact honly c' t hc ht
  have hown : ∀ t' t : InvokePhase, (s.calls.set c t')[c]? = some t → t' = t := by
    intro t' t hc
    exact ((getElem?_replaced hold).mp hc).elim And.right fun hne ↦ absurd rfl hne.1
  rw [ClusterClient.closeWriter]
  split
  · next k hk =>
    refine Linked.of_idle hidle hsame (honly' _) fun t hc ↦ ?_
    obtain rfl := hown _ _ hc
    exact ⟨hk, hbroken.wear rfl (healthy_closeConnection k), hread⟩
  · next hnone =>
    refine Linked.of_idle hidle hsame (honly' _) fun t hc ↦ ?_
    obtain rfl := hown _ _ hc
    exact ⟨hnone, hread⟩

theorem Linked.of_requests (h : s.Linked) (requests : List GatewayRequest) (pending : List ℕ) :
    ({ s with requests := requests, pending := pending } : ClusterClient).Linked where
  alone := h.alone
  stage hc := (h.stage hc).wear rfl rfl fun _ hk ↦ hk
  same := h.same
  running := h.running
  reading := h.reading
  cancelled := h.cancelled

theorem Linked.invoke (h : s.Linked) (attempts : ℕ) :
    ({ s with calls := s.calls ++ [.trying attempts] } : ClusterClient).Linked where
  alone {c₁ c₂ t₁ t₂} h₁ h₂ ht₁ ht₂ := by
    rcases getElem?_grown.mp h₁ with h₁ | ⟨-, rfl⟩
    · rcases getElem?_grown.mp h₂ with h₂ | ⟨-, rfl⟩
      · exact h.alone h₁ h₂ ht₁ ht₂
      · cases ht₂
    · cases ht₁
  stage {c' t'} hc := by
    rcases getElem?_grown.mp hc with hc | ⟨-, rfl⟩
    · exact (h.stage hc).wear rfl rfl fun _ hk ↦ hk
    · trivial
  same := h.same
  running := h.running
  reading := h.reading
  cancelled hl hr hby := by
    obtain ⟨c', attempts, hc'⟩ := h.cancelled hl hr hby
    exact ⟨c', attempts, getElem?_grown.mpr (.inl hc')⟩

theorem Linked.loopEnds (h : s.Linked) (hold : s.loops[l]? = some loop)
    (hrunning : loop.phase.running) (caller : Option ℕ) (raised : Bool) :
    (s.loopEnds l caller raised).Linked := by
  have hended : ((s.failPending caller).setLoop l ⟨.ended raised, none⟩).Linked :=
    (h.of_requests _ _).setLoop hold hrunning (fun hr ↦ by cases hr) rfl
  dsimp only [ClusterClient.loopEnds]
  split
  · exact hended.closeConnection _
  · exact hended

/-- The only read loop has its connection for itself. -/
theorem Linked.read (h : s.Linked) (hold : s.loops[l]? = some loop)
    (hrunning : loop.phase.running) :
    ∃ r, s.reader = some r ∧ s.read l = s.setLoop l ⟨.reading r, none⟩ := by
  obtain ⟨htask, hreader⟩ := h.running hold hrunning
  obtain ⟨r, hr⟩ := Option.ne_none_iff_exists'.mp hreader
  refine ⟨r, hr, ?_⟩
  have hfree : ¬ ∃ i < s.loops.length, i ≠ l ∧
    (s.loops[i]?).map ReadLoop.phase = some (.reading r) := by
    rintro ⟨i, -, hne, hi⟩
    obtain ⟨other, hother, hphase⟩ := Option.map_eq_some_iff.mp hi
    have hitask := (h.running hother (by rw [hphase]; rfl)).1
    exact hne (Option.some.inj (hitask.symm.trans htask))
  rw [ClusterClient.read, hr]
  exact if_neg hfree

theorem Unstruck.worked_eq (h : s.Unstruck) (k : ℕ) : s.worked k = s.healthy k := by
  rw [worked, healthy]
  cases hk : s.connections[k]? with
  | none => rfl
  | some x => rw [Option.any_some, Option.any_some, h k x hk, Bool.or_false]

theorem Unstruck.modify (h : s.Unstruck) {f : GatewayConnection → GatewayConnection}
    (hf : ∀ x, s.connections[k]? = some x → (f x).struck = x.struck) :
    ({ s with connections := s.connections.modify k f } : ClusterClient).Unstruck := by
  intro j x hx
  rw [List.getElem?_modify] at hx
  obtain ⟨x₀, hx₀, rfl⟩ := Option.map_eq_some_iff.mp hx
  split_ifs with hj
  · rw [hf x₀ (hj ▸ hx₀)]
    exact h j x₀ hx₀
  · exact h j x₀ hx₀

theorem Unstruck.closeConnection (h : s.Unstruck) (hbroken : s.healthy k = false) :
    (s.closeConnection k).Unstruck := by
  refine h.modify fun x hx ↦ ?_
  rw [healthy, hx] at hbroken
  have hx : (!x.lost && !x.closed) = false := hbroken
  rw [hx, Bool.false_or]

theorem Unstruck.opened (h : s.Unstruck) :
    ({ s with connections := s.connections ++ [⟨false, false, false⟩] } :
    ClusterClient).Unstruck := by
  intro k x hx
  rcases getElem?_grown.mp hx with hx | ⟨-, rfl⟩
  · exact h k x hx
  · rfl

theorem Filed.of_nil (hpending : s.pending = []) (hunstruck : s.Unstruck) (hunharmed : s.Unharmed) :
    s.Filed :=
  ⟨fun _ hid ↦ absurd (hpending ▸ hid) List.not_mem_nil, hunstruck, hunharmed⟩

theorem Filed.of_same (h : s.Filed) (hpending : s'.pending = s.pending)
    (hrequests : s'.requests = s.requests) (hwriter : s'.writer = s.writer)
    (hunstruck : s'.Unstruck) : s'.Filed := by
  refine ⟨fun id hid ↦ ?_, hunstruck, fun id r caller hr ↦ ?_⟩
  · rw [hrequests, hwriter]
    exact h.pending id (hpending ▸ hid)
  · exact h.unharmed id r caller (hrequests ▸ hr)

/-- What fails on a connection that is broken does not count. -/
theorem Filed.failPending (h : s.Filed) (hbroken : s.Broken) (caller : Option ℕ) :
    (s.failPending caller).Unharmed := by
  intro id r caller' hr houtcome
  simp only [ClusterClient.failPending, List.getElem?_mapIdx] at hr
  obtain ⟨r₀, hr₀, rfl⟩ := Option.map_eq_some_iff.mp hr
  split_ifs at houtcome ⊢ with hpending
  · obtain ⟨r', hr', hwriter⟩ := h.pending id hpending.1
    obtain rfl := Option.some.inj (hr'.symm.trans hr₀)
    have hhealthy := (h.unstruck.worked_eq _).trans (hbroken _ hwriter)
    rw [(RequestOutcome.failed.inj houtcome).2] at hhealthy
    cases hhealthy
  · exact h.unharmed id r₀ caller' hr₀ houtcome

theorem Filed.settle (h : s.Filed) (id : ℕ) {outcome : RequestOutcome}
    (houtcome : ∀ caller, outcome ≠ .failed caller true) : (s.settle id outcome).Filed where
  pending i hi := by
    obtain ⟨hi, hne⟩ := List.mem_filter.mp hi
    obtain ⟨r, hr, hwriter⟩ := h.pending i hi
    refine ⟨r, ?_, hwriter⟩
    simp only [ClusterClient.settle, List.getElem?_modify, hr,
      if_neg (Ne.symm (of_decide_eq_true hne))]
    rfl
  unstruck := h.unstruck
  unharmed i r caller hr hfailed := by
    simp only [ClusterClient.settle, List.getElem?_modify] at hr
    obtain ⟨r₀, hr₀, rfl⟩ := Option.map_eq_some_iff.mp hr
    split_ifs at hfailed ⊢
    · exact absurd hfailed (houtcome caller)
    · exact h.unharmed i r₀ caller hr₀ hfailed
    · exact h.unharmed i r₀ caller hr₀ hfailed

theorem Filed.send (h : s.Filed) (hk : s.writer = some k) (c : ℕ) :
    ({ s with requests := s.requests ++ [⟨c, k, .pending⟩], pending := s.pending ++
      [s.requests.length] } :
      ClusterClient).Filed where
  pending id hid := by
    rcases List.mem_append.mp hid with hid | hid
    · obtain ⟨r, hr, hwriter⟩ := h.pending id hid
      exact ⟨r, getElem?_grown.mpr (.inl hr), hwriter⟩
    · obtain rfl := List.mem_singleton.mp hid
      exact ⟨⟨c, k, .pending⟩, getElem?_grown.mpr (.inr ⟨rfl, rfl⟩), hk⟩
  unstruck := h.unstruck
  unharmed id r caller hr hfailed := by
    rcases getElem?_grown.mp hr with hr | ⟨-, rfl⟩
    · exact h.unharmed id r caller hr hfailed
    · cases hfailed

theorem Filed.loopEnds (h : s.Filed) (hbroken : s.Broken) (l : ℕ) (caller : Option ℕ)
    (raised : Bool) :
    (s.loopEnds l caller raised).Filed := by
  dsimp only [ClusterClient.loopEnds]
  split
  · next k hk =>
      exact .of_nil rfl (Unstruck.closeConnection h.unstruck (hbroken k hk))
        (h.failPending hbroken _)
  · exact .of_nil rfl h.unstruck (h.failPending hbroken _)

theorem Filed.closeWriter (h : s.Filed) (hbroken : s.Broken) (c attempts : ℕ) :
    (s.closeWriter c attempts).Filed := by
  rw [ClusterClient.closeWriter]
  split
  · next k hk => exact h.of_same rfl rfl rfl (h.unstruck.closeConnection (hbroken k hk))
  · next hnone =>
    refine .of_nil rfl h.unstruck (h.failPending (fun k hk ↦ ?_) (some c))
    rw [hnone] at hk
    cases hk

structure Sound (s : ClusterClient) : Prop where
  linked : s.Linked
  filed : s.Filed

variable {refresher : Bool} {maxReconnectAttempts : ℕ}

theorem afterError_quiet (refresher : Bool) (attempts : ℕ) :
    (afterError refresher attempts).reconnecting = false := by
  unfold afterError
  split_ifs <;> rfl

/-- A call that is not in a reconnect goes on, whatever it does to its own request. -/
theorem Sound.goOn (h : s.Sound) (hfiled : s'.Filed)
    (hrequests : s' = { s with requests := s'.requests, pending := s'.pending })
    (hold : s.calls[c]? = some t₀) (hold₀ : t₀.reconnecting = false) (ht : t.reconnecting = false) :
    (s'.setCall c t).Sound where
  linked := by
    rw [hrequests]
    exact (h.linked.of_requests _ _).quiet hold hold₀ ht
  filed := hfiled.of_same rfl rfl rfl hfiled.unstruck

theorem Sound.attempt (h : s.Sound)
    (hs : step refresher maxReconnectAttempts s (.attempt c) = some s') : s'.Sound := by
  simp only [step] at hs
  split at hs
  · next attempts k hold hk =>
    split_ifs at hs
    · obtain rfl := Option.some.inj hs
      exact h.goOn (h.filed.send hk c) rfl hold rfl rfl
    · obtain rfl := Option.some.inj hs
      exact h.goOn h.filed rfl hold rfl (afterError_quiet _ _)
  · next attempts hold hk =>
    obtain rfl := Option.some.inj hs
    exact h.goOn h.filed rfl hold rfl (afterError_quiet _ _)
  · cases hs

theorem Sound.drained (h : s.Sound) {ok : Bool}
    (hs : step refresher maxReconnectAttempts s (.drained c ok) = some s') : s'.Sound := by
  simp only [step] at hs
  split at hs
  · next id attempts hold =>
    split_ifs at hs
    · obtain rfl := Option.some.inj hs
      exact h.goOn h.filed rfl hold rfl rfl
    · split at hs
      · next r hr =>
        obtain rfl := Option.some.inj hs
        have hbroken : s.healthy r.connection = false := by
          simpa using (Option.filter_eq_some_iff.mp hr).2
        refine h.goOn (h.filed.settle id fun caller he ↦ ?_) rfl hold rfl (afterError_quiet _ _)
        rw [(h.filed.unstruck.worked_eq _).trans hbroken] at he
        cases he
      · cases hs
  · cases hs

theorem Sound.resume (h : s.Sound)
    (hs : step refresher maxReconnectAttempts s (.resume c) = some s') : s'.Sound := by
  simp only [step] at hs
  split at hs
  · next id attempts hold =>
    split at hs
    · obtain rfl := Option.some.inj hs
      exact h.goOn h.filed rfl hold rfl rfl
    · obtain rfl := Option.some.inj hs
      exact h.goOn h.filed rfl hold rfl (afterError_quiet _ _)
    · cases hs
  · cases hs

theorem Sound.timeout (h : s.Sound)
    (hs : step refresher maxReconnectAttempts s (.timeout c) = some s') : s'.Sound := by
  simp only [step] at hs
  split at hs
  · next id attempts hold =>
    split_ifs at hs
    obtain rfl := Option.some.inj hs
    exact h.goOn (h.filed.settle id fun _ ↦ RequestOutcome.noConfusion) rfl hold rfl rfl
  · cases hs

theorem Sound.afterLoop (h : s.Sound) {attempts : ℕ} {raised : Bool} (hold : s.calls[c]? = some t₀)
    (hidle : ∀ (l : ℕ) (loop : ReadLoop), s.loops[l]? = some loop → loop.phase.running = false)
    (honly : ∀ (c' : ℕ) (t : InvokePhase), s.calls[c']? = some t → t.reconnecting → c' = c)
    (hbroken : s.Broken) :
    (s.afterLoop c attempts raised).Sound := by
  unfold ClusterClient.afterLoop
  split_ifs
  · refine ⟨Linked.of_idle (c := c) hidle h.linked.same (fun c' t hc ht ↦ ?_) fun t hc ↦ ?_,
      h.filed.of_same rfl rfl rfl h.filed.unstruck⟩
    · exact ((getElem?_replaced hold).mp hc).elim And.left fun hne ↦ honly c' t hne.2 ht
    · rcases (getElem?_replaced hold).mp hc with ⟨-, rfl⟩ | ⟨hne, -⟩
      · trivial
      · exact absurd rfl hne
  · have hfiled : ({ s with readTask := none } : ClusterClient).Filed :=
      h.filed.of_same rfl rfl rfl h.filed.unstruck
    have hlinked : (({ s with readTask := none } : ClusterClient).closeWriter c attempts).Linked :=
      Linked.closeWriter (s := { s with readTask := none }) hold hidle h.linked.same
        honly hbroken rfl
    exact ⟨hlinked, hfiled.closeWriter hbroken c attempts⟩

theorem Sound.reconnect (h : s.Sound) (hok : s.Orderly (.reconnect c))
    (hs : step refresher maxReconnectAttempts s (.reconnect c) = some s') : s'.Sound := by
  obtain ⟨hquiet, hbroken⟩ := hok
  have honly : ∀ (c' : ℕ) (t : InvokePhase), s.calls[c']? = some t → t.reconnecting → c' = c := by
    intro c' t hc ht
    rw [hquiet t (List.mem_of_getElem? hc)] at ht
    cases ht
  simp only [step, beginReconnect_of_broken hbroken] at hs
  split at hs
  · next attempts hold =>
    split at hs
    · next hread =>
      obtain rfl := Option.some.inj hs
      have hidle := idle_of_readTask h.linked fun l hl ↦ by rw [hread] at hl; cases hl
      exact ⟨Linked.closeWriter hold hidle h.linked.same honly hbroken hread,
        h.filed.closeWriter hbroken c attempts⟩
    · next l hread =>
      split at hs
      · next raised by_ hloop =>
        obtain rfl := Option.some.inj hs
        refine h.afterLoop hold (idle_of_readTask h.linked fun l' hl loop hl' ↦ ?_) honly hbroken
        obtain rfl := Option.some.inj (hread.symm.trans hl)
        obtain rfl := Option.some.inj (hloop.symm.trans hl')
        rfl
      · next loop hloop =>
        obtain rfl := Option.some.inj hs
        exact ⟨h.linked.cancel hold hloop hread hquiet hbroken,
          h.filed.of_same rfl rfl rfl h.filed.unstruck⟩
      · cases hs
  · cases hs

theorem Sound.loopDone (h : s.Sound)
    (hs : step refresher maxReconnectAttempts s (.loopDone c) = some s') :
    s'.Sound := by
  simp only [step] at hs
  split at hs
  · next l attempts hold =>
    obtain ⟨hread, hbroken⟩ := h.linked.stage hold
    split at hs
    · next raised by_ hloop =>
      obtain rfl := Option.some.inj hs
      refine h.afterLoop hold (idle_of_readTask h.linked fun l' hl loop hl' ↦ ?_)
        (fun c' t hc ht ↦ h.linked.alone hc hold ht rfl) hbroken
      obtain rfl := Option.some.inj (hread.symm.trans hl)
      obtain rfl := Option.some.inj (hloop.symm.trans hl')
      rfl
    · cases hs
  · cases hs

theorem Sound.writerClosed (h : s.Sound)
    (hs : step refresher maxReconnectAttempts s (.writerClosed c) = some s') :
    s'.Sound := by
  simp only [step] at hs
  split at hs
  · next k attempts hold =>
    obtain rfl := Option.some.inj hs
    obtain ⟨hwriter, hbroken, hread⟩ := h.linked.stage hold
    have hidle := idle_of_readTask h.linked fun l hl ↦ by rw [hread] at hl; cases hl
    refine ⟨Linked.of_idle (c := c) hidle rfl (fun c' t hc ht ↦ ?_) fun t hc ↦
      ?_, .of_nil rfl h.filed.unstruck ?_⟩
    · exact ((getElem?_replaced hold).mp hc).elim And.left fun hne ↦
        h.linked.alone hne.2 hold ht rfl
    · rcases (getElem?_replaced hold).mp hc with ⟨-, rfl⟩ | ⟨hne, -⟩
      · exact ⟨rfl, hread⟩
      · exact absurd rfl hne
    · exact h.filed.failPending hbroken (some c)
  · cases hs

theorem Sound.connecting (h : s.Sound) (hold : s.calls[c]? = some t₀)
    (hold₀ : s.writer = none ∧ s.readTask = none) (hrec : t₀.reconnecting)
    (hnot : ∀ l attempts, t₀ ≠ .awaitingLoop l attempts)
    (hstage : s.writer = none ∧ s.readTask = none → s.Stage t) : (s.setCall c t).Sound :=
  ⟨h.linked.advance hold (fun _ ↦ hrec) hnot (hstage hold₀),
    h.filed.of_same rfl rfl rfl h.filed.unstruck⟩

theorem Sound.opened (h : s.Sound)
    (hs : step refresher maxReconnectAttempts s (.opened c) = some s') : s'.Sound := by
  simp only [step] at hs
  split at hs
  · next attempts again hold =>
    obtain rfl := Option.some.inj hs
    obtain ⟨hwriter, hread⟩ := h.linked.stage hold
    have hidle := idle_of_readTask h.linked fun l hl ↦ by rw [hread] at hl; cases hl
    have hnone : s.pending = [] := by
      refine List.eq_nil_iff_forall_not_mem.mpr fun id hid ↦ ?_
      obtain ⟨r, -, hr⟩ := h.filed.pending id hid
      rw [hwriter] at hr
      cases hr
    have hquiet : ∀ {c' : ℕ} {t : InvokePhase}, (s.calls.set c (.trying attempts))[c']? = some t →
        t.reconnecting = false := by
      intro c' t hc
      rcases (getElem?_replaced hold).mp hc with ⟨-, rfl⟩ | ⟨hne, hc⟩
      · rfl
      · by_contra ht
        exact hne (h.linked.alone hc hold (by simpa using ht) rfl)
    refine ⟨⟨?_, fun hc ↦ stage_of_quiet (hquiet hc), rfl, ?_, ?_, ?_⟩,
      .of_nil hnone h.filed.unstruck.opened h.filed.unharmed⟩
    · intro c₁ c₂ t₁ t₂ h₁ _ ht₁
      rw [hquiet h₁] at ht₁
      cases ht₁
    · intro l loop hl hr
      rcases getElem?_grown.mp hl with hl | ⟨rfl, -⟩
      · rw [hidle _ _ hl] at hr
        cases hr
      · exact ⟨rfl, Option.some_ne_none _⟩
    · intro l r loop hl hr
      rcases getElem?_grown.mp hl with hl | ⟨-, rfl⟩
      · have hend := hidle _ _ hl
        rw [hr] at hend
        cases hend
      · cases hr
    · intro l c' loop hl hr hby
      rcases getElem?_grown.mp hl with hl | ⟨-, rfl⟩
      · rw [hidle _ _ hl] at hr
        cases hr
      · cases hby
  · cases hs

theorem Sound.read (h : s.Sound) (hold : s.loops[l]? = some loop) (hrunning : loop.phase.running) :
    (s.read l).Sound := by
  obtain ⟨r, hr, he⟩ := h.linked.read hold hrunning
  rw [he]
  exact ⟨h.linked.setLoop hold hrunning (fun _ ↦ ⟨r, rfl, hr⟩) rfl,
    h.filed.of_same rfl rfl rfl h.filed.unstruck⟩

theorem Sound.startLoop (h : s.Sound)
    (hs : step refresher maxReconnectAttempts s (.startLoop l) = some s') :
    s'.Sound := by
  simp only [step] at hs
  have hends : ∀ {loop : ReadLoop} (raised : Bool), s.loops[l]? = some loop → loop.phase.running →
      (s.setLoop l ⟨.ended raised, none⟩).Sound := fun raised hold hr ↦
    ⟨h.linked.setLoop hold hr (fun he ↦ by cases he) rfl,
      h.filed.of_same rfl rfl rfl h.filed.unstruck⟩
  split at hs
  · next hold =>
    obtain rfl := Option.some.inj hs
    split_ifs
    · exact hends true hold rfl
    · exact h.read hold rfl
  · next hold =>
    obtain rfl := Option.some.inj hs
    exact hends false hold rfl
  · cases hs

theorem Sound.frame (h : s.Sound)
    (hs : step refresher maxReconnectAttempts s (.frame l id) = some s') :
    s'.Sound := by
  simp only [step] at hs
  split at hs
  · next r hold =>
    obtain rfl := Option.some.inj hs
    split_ifs
    · have hsettled : (s.settle id .answered).Sound :=
        ⟨h.linked.of_requests _ _, h.filed.settle id fun _ ↦ RequestOutcome.noConfusion⟩
      exact hsettled.read hold rfl
    · exact h.read hold rfl
  · cases hs

theorem Sound.endLoop (h : s.Sound) {raised : Bool}
    (hs : step refresher maxReconnectAttempts s (.endLoop l raised) = some s') : s'.Sound := by
  simp only [step] at hs
  split at hs
  · next r c hold =>
    obtain rfl := Option.some.inj hs
    obtain ⟨c', attempts, hc⟩ := h.linked.cancelled hold rfl rfl
    exact ⟨h.linked.loopEnds hold rfl _ _, h.filed.loopEnds (h.linked.stage hc).2 _ _ _⟩
  · next r hold =>
    split_ifs at hs with hhealthy
    obtain rfl := Option.some.inj hs
    have hwriter : s.writer = some r := h.linked.same ▸ h.linked.reading hold rfl
    have hbroken : s.Broken := by
      intro k hk
      rw [hwriter] at hk
      exact Option.some.inj hk ▸ by simpa using hhealthy
    exact ⟨h.linked.loopEnds hold rfl _ _, h.filed.loopEnds hbroken _ _ _⟩
  · cases hs

theorem Sound.step {event : ClientEvent} (h : s.Sound) (hok : s.Orderly event)
    (hs : step refresher maxReconnectAttempts s event = some s') : s'.Sound := by
  cases event with
  | invoke =>
    obtain rfl := Option.some.inj hs
    exact ⟨h.linked.invoke _, h.filed.of_same rfl rfl rfl h.filed.unstruck⟩
  | attempt c => exact h.attempt hs
  | drained c ok => exact h.drained hs
  | resume c => exact h.resume hs
  | timeout c => exact h.timeout hs
  | reconnect c => exact h.reconnect hok hs
  | loopDone c => exact h.loopDone hs
  | writerClosed c => exact h.writerClosed hs
  | refreshed c =>
    simp only [ClusterClient.step] at hs
    split at hs
    · next attempts again hold =>
      obtain rfl := Option.some.inj hs
      exact h.connecting hold (h.linked.stage hold) rfl (fun _ _ ↦ InvokePhase.noConfusion)
        fun hstage ↦ hstage
    · cases hs
  | opened c => exact h.opened hs
  | openFailed c =>
    simp only [ClusterClient.step] at hs
    split at hs
    · next attempts again hold =>
      obtain rfl := Option.some.inj hs
      refine h.connecting hold (h.linked.stage hold) rfl
        (fun _ _ ↦ InvokePhase.noConfusion) fun hstage ↦ ?_
      cases again with
      | false => exact hstage
      | true => trivial
    · cases hs
  | startLoop l => exact h.startLoop hs
  | frame l id => exact h.frame hs
  | endLoop l raised => exact h.endLoop hs
  | lose k reset =>
    obtain rfl := Option.some.inj hs
    exact ⟨h.linked.wear _ (fun x hx ↦ by simp at hx) k,
      h.filed.of_same rfl rfl rfl (h.filed.unstruck.modify fun _ _ ↦ rfl)⟩

theorem sound_start : start.Sound where
  linked :=
    { alone := fun h ↦ by cases h
      stage := fun h ↦ by cases h
      same := rfl
      running := fun {l loop} hl hr ↦ by
        obtain ⟨hlt, rfl⟩ := List.getElem?_eq_some_iff.mp hl
        obtain rfl : l = 0 := Nat.lt_one_iff.mp hlt
        exact ⟨rfl, Option.some_ne_none 0⟩
      reading := fun {l r loop} hl hr ↦ by
        obtain ⟨hlt, rfl⟩ := List.getElem?_eq_some_iff.mp hl
        obtain rfl : l = 0 := Nat.lt_one_iff.mp hlt
        cases hr
      cancelled := fun {l c loop} hl hr hby ↦ by
        obtain ⟨hlt, rfl⟩ := List.getElem?_eq_some_iff.mp hl
        obtain rfl : l = 0 := Nat.lt_one_iff.mp hlt
        cases hby }
  filed := by
    refine .of_nil rfl (fun k x hk ↦ ?_) fun id r caller h ↦ by cases h
    obtain ⟨hlt, rfl⟩ := List.getElem?_eq_some_iff.mp hk
    obtain rfl : k = 0 := Nat.lt_one_iff.mp hlt
    rfl

/-- As long as no reconnect begins beside another one or on a connection that works, there is
one read loop, and no call fails the requests of another on a connection that works. -/
theorem reconnects_spare_others (refresher : Bool) (maxReconnectAttempts : ℕ)
    (events : List ClientEvent) (s : ClusterClient)
    (h : exec (step refresher maxReconnectAttempts) start events = some s)
    (hmeets : Meets (step refresher maxReconnectAttempts) Orderly start events) : s.OneLoop ∧
      s.Unharmed := by
  have hsound : s.Sound :=
    (guarded_of_exec h hmeets).invariant (I := Sound) sound_start fun s e s' hi hok hs ↦
      hi.step hok hs
  refine ⟨fun l l' hl hl' ↦ ?_, hsound.filed.unharmed⟩
  obtain ⟨loop, hloop, hr⟩ := hl
  obtain ⟨loop', hloop', hr'⟩ := hl'
  have htask := (hsound.linked.running hloop hr).1
  exact Option.some.inj (htask.symm.trans (hsound.linked.running hloop' hr').1)

end

def gatewayLost : List ClientEvent :=
  [.invoke, .invoke, .attempt 0, .drained 0 true, .attempt 1, .drained 1 true, .startLoop 0,
    .lose 0 false, .endLoop 0 false, .resume 0, .resume 1]

def oneReconnects : List ClientEvent :=
  gatewayLost ++ [.reconnect 0, .writerClosed 0, .refreshed 0, .opened 0, .startLoop 1, .attempt 0,
    .drained 0 true, .frame 1 2, .resume 0]

/-- Both of them reconnect. The read loop of the first, which has got its reply, goes on with the
reader of the second. -/
def bothReconnect : List ClientEvent :=
  gatewayLost ++ [.reconnect 0, .reconnect 1, .writerClosed 0, .refreshed 0, .writerClosed 1,
    .refreshed 1, .opened 0, .startLoop 1, .attempt 0, .drained 0 true, .opened 1, .startLoop 2,
    .attempt 1, .drained 1 true, .frame 1 2]

theorem reconnects_spare_others_oneReconnects :
    ∃ s, exec (step true 2) start oneReconnects = some s ∧
    s.OneLoop ∧ s.Unharmed := by
  have hruns : (exec (step true 2) start oneReconnects).isSome := by decide +kernel
  obtain ⟨s, hs⟩ := Option.isSome_iff_exists.mp hruns
  exact ⟨s, hs, reconnects_spare_others true 2 oneReconnects s hs (by decide +kernel)⟩

theorem reconnect_fails_others_request : ¬ ∀ refresher maxReconnectAttempts events s,
    exec (step refresher maxReconnectAttempts) start events = some s → s.OneLoop ∧ s.Unharmed := by
  intro h
  have hruns : (exec (step true 2) start bothReconnect).map (fun s ↦ s.requests[3]?) =
      some (some ⟨1, 2, .failed none true⟩) := by decide +kernel
  obtain ⟨s, hs, hrequest⟩ := Option.map_eq_some_iff.mp hruns
  have hown := (h true 2 bothReconnect s hs).2 3 _ none hrequest rfl
  cases hown

end ClusterClient

end Pyleans
