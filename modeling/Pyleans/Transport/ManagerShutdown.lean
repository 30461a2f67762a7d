import Pyleans.Transport.LinkTasks

namespace Pyleans

open Library

def LinkPhase.isLate : LinkPhase → Bool
  | .handshaking _ | .awaitingMonitor _ _ _ | .closingExisting _ _ | .closingAll _ _ | .forcing _ =>
    true
  | _ => false

def LinkPhase.Late (p : LinkPhase) : Prop := p.isLate = true

def LinkPhase.installs : LinkPhase → Bool
  | .handshaking _ | .awaitingMonitor _ _ _ | .closingExisting _ _ => true
  | _ => false

namespace SiloConnection

/-- Closed, with nothing pending and nobody left to wait. -/
structure Ended (c : SiloConnection) : Prop where
  closed : c.state = .closed
  emptied : c.pending.pending.items = []
  answered : c.pending.futures.length < PendingRequests.UINT64_MAX →
    ∀ t ∈ c.senders, ∀ entry, t.phase.entry = some entry → c.pending.done entry.2 = true

/-- What holds of a connection none of whose closes found a request that waits for the semaphore or
the lock. -/
structure Kept (c : SiloConnection) : Prop where
  orderly : c.Orderly
  closed : c.state = .closed → c.stage = none
  tracks : c.pending.futures.length < PendingRequests.UINT64_MAX → c.Tracks

variable {c c' : SiloConnection} {e : ConnectionEvent}

theorem kept_new (options : ConnectionOptions) : (new options).Kept where
  orderly := orderly_new options
  closed := nofun
  tracks _ := tracks_new options

theorem Kept.step (h : c.Kept) (hok : c.ClosesAlone e) (hstep : c.step e = some c') :
    c'.Kept ∧ (c.state = .closed → c'.state = .closed) := by
  have hstate : (c.state = .closed → c'.state = .closed) ∧
      (c'.state = .closed → c'.stage = none) := by
    cases hof : e.isOfState with
    | false =>
      obtain ⟨ops, hdoes⟩ := step_does hstep
      obtain ⟨hsame, hstage⟩ := hdoes.stage hof
      rw [hsame, hstage]
      exact ⟨id, h.closed⟩
    | true =>
      cases e with
      | start =>
        simp only [SiloConnection.step] at hstep
        split_ifs at hstep with hnew
        · obtain rfl := Option.some.inj hstep
          refine ⟨fun hclosed ↦ ?_, by simp⟩
          rw [hnew] at hclosed
          cases hclosed
        · obtain rfl := Option.some.inj hstep
          exact ⟨id, h.closed⟩
      | close reason =>
        simp only [SiloConnection.step] at hstep
        split_ifs at hstep with hclosing
        · obtain rfl := Option.some.inj hstep
          exact ⟨id, h.closed⟩
        · obtain rfl := Option.some.inj hstep
          exact ⟨fun hclosed ↦ absurd (.inr hclosed) hclosing, by simp⟩
      | closeStep =>
        obtain ⟨stage, hstage, rfl⟩ := Option.map_eq_some_iff.mp hstep
        have hopen : c.state ≠ .closed := by
          intro hclosed
          rw [h.closed hclosed] at hstage
          cases hstage
        refine ⟨fun hclosed ↦ absurd hclosed hopen, fun hclosed ↦ ?_⟩
        cases stage with
        | background reason => cases reason <;> exact absurd hclosed hopen
        | handlers reason => rfl
        | drain | writer reason | readTask reason => exact absurd hclosed hopen
      | closeCancelled =>
        obtain ⟨stage, -, rfl⟩ := Option.map_eq_some_iff.mp hstep
        exact ⟨id, fun _ ↦ rfl⟩
      | _ => cases hof
  refine ⟨⟨(h.orderly.step hok hstep).1, hstate.2, fun hbound ↦ ?_⟩, hstate.1⟩
  exact (h.tracks ((length_futures_le hstep).trans_lt hbound)).step hbound hstep

theorem kept_started (options : ConnectionOptions) :
    Kept { new options with state := .running } := by
  have hstart : (new options).step .start = some { new options with state := .running } := rfl
  have hok : (new options).ClosesAlone .start := trivial
  exact ((kept_new options).step hok hstart).1

theorem Kept.ended (h : c.Kept) (hclosed : c.state = .closed) : c.Ended := by
  have hemptied := h.orderly.emptied (.inl hclosed)
  refine ⟨hclosed, hemptied, fun hbound t ht entry hentry ↦ ?_⟩
  refine ((h.tracks hbound).tracked t ht entry hentry).done.resolve_right fun hget ↦ ?_
  have hitem := Table.mem_of_get hget
  rw [hemptied] at hitem
  cases hitem

end SiloConnection

namespace SiloLink

variable {s s' s'' : SiloLink} {task t conn existing : ℕ} {p q : LinkPhase} {who : Installer}
  {caller : Caller}

def discards (s : SiloLink) : LinkPhase → Bool
  | .removing => (s.unfinished s.reconnectTask).isNone
  | .cancellingReconnect _ => true
  | _ => false

def closes (s : SiloLink) : LinkPhase → Option ℕ
  | .handshaking who =>
    if dedupKeepsExisting (s.initiator.getD s.remote) (s.initiatorOf who) then none
    else if (s.unfinished s.monitorTask).isSome then none
    else s.getConnection
  | .awaitingMonitor _ existing _ => some existing
  | .stopping _ | .closingAll _ true => s.connection
  | p => if s.discards p then s.connection else none

/-- No request waits for the semaphore or the lock of a connection that is closed. -/
def ClosesAlone (s : SiloLink) (conn : ℕ) : Prop := ∀ c ∈ s.conns[conn]?, c.IsClosing ∨ c.Quiet

/-- What the code of a task, or any other step, does to the connections. -/
structure Tends (s s' : SiloLink) : Prop where
  kept : (∀ c ∈ s.conns, c.Kept) → ∀ c ∈ s'.conns, c.Kept
  stopped : s'.stopped = s.stopped
  returned : s'.stopReturned = true → s.stopReturned = true ∨ s.stopped = true

theorem tends_same (hconns : s'.conns = s.conns) (hstopped : s'.stopped = s.stopped)
    (hreturned : s'.stopReturned = s.stopReturned) :
    Tends s s' := by
  refine ⟨fun h ↦ ?_, hstopped, fun h ↦ .inl ?_⟩
  · rw [hconns]
    exact h
  · rw [← hreturned]
    exact h

theorem Inert.tends {C : LinkPhase → Prop} (h : Inert C s s') : Tends s s' :=
  tends_same h.conns h.stopped h.stopReturned

theorem kept_move {e : ConnectionEvent} (h : ∀ c ∈ s.conns, c.Kept)
    (hok : ∀ c ∈ s.conns[conn]?, c.ClosesAlone e) :
    ∀ c ∈ (s.move conn e).conns, c.Kept := by
  intro c hc
  obtain ⟨i, hi⟩ := List.mem_iff_getElem?.mp hc
  rcases getElem?_move hi with ⟨hi, -⟩ | ⟨rfl, c₀, hc₀, hstep⟩
  · exact h c (List.mem_of_getElem? hi)
  · exact ((h c₀ (List.mem_of_getElem? hc₀)).step (hok c₀ hc₀) hstep).1

theorem tends_move {e : ConnectionEvent} (hok : ∀ c ∈ s.conns[conn]?, c.ClosesAlone e) :
    Tends s (s.move conn e) := by
  refine ⟨fun h ↦ kept_move h hok, ?_, fun h ↦ .inl ?_⟩
  · obtain ⟨conns, hmove⟩ := exists_move s conn e
    rw [hmove]
  · obtain ⟨conns, hmove⟩ := exists_move s conn e
    rw [hmove] at h
    exact h

theorem tends_register : Tends s (s.register task who) := by
  refine ⟨fun h c hc ↦ ?_, rfl, .inl⟩
  rcases List.mem_append.mp hc with hc | hc
  · exact h c hc
  · rw [List.mem_singleton.mp hc]
    exact SiloConnection.kept_started s.options

theorem tends_closeExisting (hok : s.ClosesAlone existing) :
    Tends s (s.closeExisting task who existing) := by
  unfold closeExisting
  split_ifs
  · exact tends_register
  · have hmove : Tends s (s.move existing (.close .normal)) := tends_move hok
    exact ⟨hmove.kept, hmove.stopped, hmove.returned⟩

theorem tends_closeTable {reason : CloseReason} (hok : ∀ conn ∈ s.connection, s.ClosesAlone conn)
    (hconnection : (s.connection.filter fun conn ↦ !s.isClosing conn) = some conn) :
    Tends s (s.move conn (.close reason)) :=
  tends_move (hok conn (Option.filter_eq_some_iff.mp hconnection).1)

theorem tends_cancel (s : SiloLink) (t : ℕ) : Tends s (s.cancel t) := by
  obtain ⟨thrown, asked, hcancel⟩ := exists_cancel s t
  rw [hcancel]
  exact tends_same rfl rfl rfl

theorem Tends.trans (h : Tends s s') (h' : Tends s' s'') : Tends s s'' where
  kept hs := h'.kept (h.kept hs)
  stopped := h'.stopped.trans h.stopped
  returned hs := by
    rcases h'.returned hs with hs | hs
    · exact h.returned hs
    · exact .inr (h.stopped ▸ hs)

theorem Tends.goto (h : Tends s s') (task : ℕ) (p : LinkPhase) : Tends s (s'.goto task p) :=
  ⟨h.kept, h.stopped, h.returned⟩

theorem tends_installConnection (hok : ∀ conn ∈ s.closes (.handshaking who), s.ClosesAlone conn) :
    Tends s (s.installConnection task who) := by
  have hpop : Tends s { s with connection := none, initiator := none, monitorTask := none } :=
    tends_same rfl rfl rfl
  unfold installConnection
  split
  · exact tends_register
  · next existing hexisting =>
    split_ifs with hkeeps
    · exact (tends_same rfl rfl rfl : Tends s s).goto task _
    · dsimp only
      split
      · exact (hpop.trans (tends_cancel _ _)).goto task _
      · next hmonitor =>
        have hcloses : s.closes (.handshaking who) = some existing := by
          simp only [closes, if_neg hkeeps, hmonitor, hexisting, Option.isSome_none,
            Bool.false_eq_true, if_false]
        have hok : ClosesAlone
          { s with connection := none, initiator := none, monitorTask := none } existing :=
          hok existing hcloses
        exact hpop.trans (tends_closeExisting hok)

theorem tends_dropMonitor (s : SiloLink) (task : ℕ) : Tends s (s.dropMonitor task) :=
  (inert_dropMonitor fun _ h ↦ h.elim : Inert (fun _ ↦ False) s (s.dropMonitor task)).tends

theorem tends_discard (hok : ∀ conn ∈ s.connection, s.ClosesAlone conn) :
    Tends s (s.discard task) := by
  unfold discard
  split
  · have hpop : Tends s { s with active := false } := tends_same rfl rfl rfl
    exact hpop.trans (tends_dropMonitor _ task)
  · next conn hconnection =>
    have hpop : Tends s { s with active := false, connection := none, initiator := none } :=
      tends_same rfl rfl rfl
    have hok : ClosesAlone { s with active := false, connection := none, initiator := none } conn :=
      hok conn hconnection
    dsimp only
    split_ifs
    · exact hpop.trans (tends_dropMonitor _ task)
    · exact (hpop.trans (tends_move (e := .close .normal) hok)).goto task _

theorem tends_disconnect (hok : ∀ conn ∈ s.closes .removing, s.ClosesAlone conn) :
    Tends s (s.disconnect task) := by
  have hpop : Tends s { s with reconnectTask := none } := tends_same rfl rfl rfl
  unfold disconnect
  dsimp only
  split
  · exact (hpop.trans (tends_cancel _ _)).goto task _
  · next hloop =>
    simp only [closes, discards, hloop, Option.isNone_none, if_true] at hok
    have hok : ∀ conn ∈ s.connection, ClosesAlone { s with reconnectTask := none } conn := hok
    exact hpop.trans (tends_discard hok)

theorem tends_closeAll (hok : ∀ conn ∈ s.connection, s.ClosesAlone conn) : Tends s
    (s.closeAll task) := by
  have hclear : Tends s { s with reconnectTask := none, monitorTask := none, pendingConnect :=
    none } := tends_same rfl rfl rfl
  unfold closeAll
  dsimp only
  split
  · next conn hconnection =>
    have hok : ∀ conn ∈ s.connection,
      ClosesAlone { s with reconnectTask := none, monitorTask := none, pendingConnect := none }
      conn :=
      hok
    exact (hclear.trans (tends_closeTable hok hconnection)).goto task _
  · exact hclear.goto task _

theorem tends_clear (hstopped : s.stopped = true) : Tends s (s.clear task) :=
  ⟨fun h ↦ h, rfl, fun _ ↦ .inr hstopped⟩

theorem tends_force (hstopped : s.stopped = true)
    (hok : ∀ conn ∈ s.connection, s.ClosesAlone conn) : Tends s (s.force task) := by
  unfold force
  split
  · next conn hconnection => exact (tends_closeTable hok hconnection).goto task _
  · exact tends_clear hstopped

theorem tends_proceed (htyped : s.Typed) (hp : s.tasks[task]? = some p)
    (hok : ∀ conn ∈ s.closes p, s.ClosesAlone conn) (hstep : s.proceed task p = some s') :
    Tends s s' := by
  have hC : ∀ p : LinkPhase, False → p.isOrdinary = false := fun _ h ↦ h.elim
  have hfinish : ∀ result, Tends s (s.goto task (.finished result)) :=
    fun result ↦ (tends_same rfl rfl rfl : Tends s s).goto task _
  have hconnect : ∀ {caller}, Tends s (s.connect task caller) :=
    (inert_connect hC fun _ h ↦ h).tends
  have hstopped : p.role = some .stop → s.stopped = true := htyped.stopped task p hp
  cases p with
  | connecting caller => exact Option.some.inj hstep ▸ hconnect
  | reconnecting => exact Option.some.inj hstep ▸ (inert_reconnectLoop hC _).tends
  | sleeping attempt =>
    obtain rfl := Option.some.inj hstep
    split_ifs
    · exact hconnect
    · exact (inert_endLoop hC _).tends
  | awaiting caller pending owner =>
    simp only [SiloLink.proceed] at hstep
    split at hstep
    · exact Option.some.inj hstep ▸ (inert_awaited hC pending owner _).tends
    · cases hstep
  | handshaking who => exact Option.some.inj hstep ▸ tends_installConnection hok
  | refusing who error => cases who <;> exact Option.some.inj hstep ▸ hfinish _
  | dropping who existing => exact Option.some.inj hstep ▸ hfinish _
  | awaitingMonitor who existing monitor =>
    simp only [SiloLink.proceed] at hstep
    split_ifs at hstep
    exact Option.some.inj hstep ▸ tends_closeExisting (hok existing rfl)
  | closingExisting who existing =>
    simp only [SiloLink.proceed] at hstep
    split_ifs at hstep
    exact Option.some.inj hstep ▸ tends_register
  | firingEstablished who conn => exact Option.some.inj hstep ▸ hfinish _
  | monitoring conn =>
    simp only [SiloLink.proceed] at hstep
    split_ifs at hstep
    obtain rfl := Option.some.inj hstep
    unfold monitorConnection
    split_ifs
    · exact tends_same rfl rfl rfl
    · exact hfinish _
  | firingLost reason =>
    obtain rfl := Option.some.inj hstep
    split_ifs
    · exact (inert_scheduleReconnect hC).tends.goto task _
    · exact hfinish _
  | removing => exact Option.some.inj hstep ▸ tends_disconnect hok
  | adding => exact Option.some.inj hstep ▸ tends_same rfl rfl rfl
  | cancellingReconnect loop =>
    simp only [SiloLink.proceed] at hstep
    split_ifs at hstep
    exact Option.some.inj hstep ▸ tends_discard hok
  | disconnecting conn =>
    simp only [SiloLink.proceed] at hstep
    split_ifs at hstep
    exact Option.some.inj hstep ▸ tends_dropMonitor s task
  | cancellingMonitor monitor =>
    simp only [SiloLink.proceed] at hstep
    split_ifs at hstep
    exact Option.some.inj hstep ▸ hfinish _
  | stopping tasks =>
    simp only [SiloLink.proceed] at hstep
    split_ifs at hstep
    exact Option.some.inj hstep ▸ tends_closeAll hok
  | closingAll conn expired =>
    simp only [SiloLink.proceed] at hstep
    split_ifs at hstep with hconn hexpired
    · subst hexpired
      exact Option.some.inj hstep ▸ tends_force (hstopped rfl) hok
    · exact Option.some.inj hstep ▸ tends_clear (hstopped rfl)
  | forcing conn =>
    simp only [SiloLink.proceed] at hstep
    split_ifs at hstep
    exact Option.some.inj hstep ▸ tends_clear (hstopped rfl)
  | finished result => cases hstep

theorem tends_interrupt : Tends s (s.interrupt task p) := by
  have hC : ∀ p : LinkPhase, False → p.isOrdinary = false := fun _ h ↦ h.elim
  have hsame : Tends s s := tends_same rfl rfl rfl
  have hfinish : Tends s (s.goto task (.finished .cancelled)) := hsame.goto task _
  have hclosing : ∀ conn,
    Tends s ((s.move conn .closeCancelled).goto task (.finished .cancelled)) :=
    fun conn ↦ (tends_move (e := .closeCancelled) fun _ _ ↦ trivial).goto task _
  have hgoesOn : Tends s { s with thrown := s.thrown.filter fun t ↦ t ≠ task } :=
    tends_same rfl rfl rfl
  cases p with
  | awaiting caller pending owner => exact (inert_awaited hC pending owner _).tends
  | sleeping attempt => exact (inert_endLoop hC _).tends
  | awaitingMonitor who existing monitor | cancellingReconnect loop | cancellingMonitor monitor
    | stopping tasks => exact hgoesOn
  | closingExisting who conn | disconnecting conn =>
    simp only [SiloLink.interrupt]
    split_ifs
    · exact hclosing conn
    · exact hgoesOn
  | closingAll conn expired =>
    cases conn with
    | none => exact hfinish
    | some conn =>
      simp only [SiloLink.interrupt]
      split_ifs
      · exact hclosing conn
      · exact hfinish
  | forcing conn =>
    simp only [SiloLink.interrupt]
    split_ifs
    · exact hclosing conn
    · exact hfinish
  | _ => exact hfinish

def Fits (s : SiloLink) (task : ℕ) : LinkPhase → Prop
  | .handshaking .dial => task ∈ s.thrown
  | .handshaking .accept | .awaitingMonitor _ _ _ | .closingExisting _ _ => False
  | .closingAll (some conn) _ | .forcing conn => s.connection = some conn ∨ s.connection = none
  | .closingAll none false => ∀ conn, s.connection = some conn → s.isClosed conn = true
  | _ => True

/-- What holds from then on. -/
structure Stopping (s : SiloLink) : Prop where
  fits : ∀ (u : ℕ) p, s.tasks[u]? = some p → s.Fits u p
  closed : ∀ conn c, s.conns[conn]? = some c → s.connection = some conn ∨ c.state = .closed
  returned : s.stopReturned = true → s.connection = none

/-- No connection is new, and the closed ones stay so. -/
structure Ages (s s' : SiloLink) : Prop where
  length : s'.conns.length = s.conns.length
  closed : ∀ conn, s.isClosed conn = true → s'.isClosed conn = true

theorem ages_same (hconns : s'.conns = s.conns) : Ages s s' := by
  refine ⟨by rw [hconns], fun conn hclosed ↦ ?_⟩
  unfold isClosed
  rw [hconns]
  exact hclosed

theorem Ages.trans (h : Ages s s') (h' : Ages s' s'') : Ages s s'' where
  length := h'.length.trans h.length
  closed conn hclosed := h'.closed conn (h.closed conn hclosed)

theorem fits_of_not_late (h : p.isLate = false) : s.Fits t p := by
  cases p <;> trivial

theorem not_ordinary_of_late (p : LinkPhase) (h : p.Late) : p.isOrdinary = false := by
  cases p <;> first | rfl | cases h

theorem Stopping.next (h : s.Stopping) (hages : Ages s s')
    (hconnection : s'.connection = s.connection ∨
      (s'.connection = none ∧ ∀ conn, s.connection = some conn → s.isClosed conn = true))
    (hreturned : s'.stopReturned = true → s.stopReturned = true ∨ s'.connection = none)
    (hfits : ∀ (u : ℕ) p, p.isLate = true → s'.tasks[u]? = some p →
      s'.Fits u p ∨ (s.tasks[u]? = some p ∧ (u ∈ s.thrown → u ∈ s'.thrown))) : s'.Stopping := by
  refine ⟨fun u p hp ↦ ?_, fun conn c hc ↦ ?_, fun hreturn ↦ ?_⟩
  · cases hlate : p.isLate with
    | false => exact fits_of_not_late hlate
    | true =>
      refine (hfits u p hlate hp).elim id fun ⟨hold, hthrown⟩ ↦ ?_
      have hfit := h.fits u p hold
      cases p with
      | handshaking who =>
        cases who with
        | dial => exact hthrown hfit
        | accept => exact hfit
      | closingAll conn expired =>
        cases conn with
        | none =>
          cases expired with
          | true => trivial
          | false =>
            intro conn hconn
            rcases hconnection with hsame | ⟨hnone, -⟩
            · exact hages.closed conn (hfit conn (hsame ▸ hconn))
            · rw [hnone] at hconn
              cases hconn
        | some conn =>
          rcases hconnection with hsame | ⟨hnone, -⟩
          · exact hfit.imp hsame.trans hsame.trans
          · exact .inr hnone
      | forcing conn =>
        rcases hconnection with hsame | ⟨hnone, -⟩
        · exact hfit.imp hsame.trans hsame.trans
        · exact .inr hnone
      | awaitingMonitor | closingExisting => exact hfit
      | _ => cases hlate
  · obtain ⟨c₀, hc₀⟩ : ∃ c₀, s.conns[conn]? = some c₀ := by
      have hlt := (List.getElem?_eq_some_iff.mp hc).1
      rw [hages.length] at hlt
      exact ⟨_, List.getElem?_eq_getElem hlt⟩
    have hlater : s.isClosed conn = true → c.state = .closed := by
      intro hclosed
      obtain ⟨c', hc', hclosed'⟩ := isClosed_iff.mp (hages.closed conn hclosed)
      rw [Option.some.inj (hc.symm.trans hc')]
      exact hclosed'
    rcases h.closed conn c₀ hc₀ with htable | hclosed
    · rcases hconnection with hsame | ⟨-, hclosed⟩
      · exact .inl (hsame.trans htable)
      · exact .inr (hlater (hclosed conn htable))
    · exact .inr (hlater (isClosed_iff.mpr ⟨c₀, hc₀, hclosed⟩))
  · refine (hreturned hreturn).elim (fun hold ↦ ?_) id
    rcases hconnection with hsame | ⟨hnone, -⟩
    · exact hsame.trans (h.returned hold)
    · exact hnone

theorem Stopping.inert (h : s.Stopping) (hinert : Inert LinkPhase.Late s s') :
    s'.Stopping ∧ Ages s s' := by
  have hages : Ages s s' := ages_same hinert.conns
  refine ⟨h.next hages (.inl hinert.connection) (fun hreturn ↦ .inl ?_) fun u p hlate hp ↦
    .inr ⟨?_, ?_⟩, hages⟩
  · rw [← hinert.stopReturned]
    exact hreturn
  · exact hinert.critical u p hlate hp
  · exact hinert.thrown u

theorem ages_move {e : ConnectionEvent} (hkept : ∀ c ∈ s.conns, c.Kept)
    (hok : ∀ c ∈ s.conns[conn]?, c.ClosesAlone e) :
    Ages s (s.move conn e) := by
  unfold move
  cases hbind : (s.conns[conn]?).bind fun c ↦ c.step e with
  | none => exact ages_same rfl
  | some c' =>
    obtain ⟨c, hc, hstep⟩ := Option.bind_eq_some_iff.mp hbind
    refine ⟨List.length_set, fun i hclosed ↦ ?_⟩
    obtain ⟨d, hd, hclosed⟩ := isClosed_iff.mp hclosed
    by_cases hi : i = conn
    · subst hi
      obtain rfl := Option.some.inj (hc.symm.trans hd)
      refine isClosed_iff.mpr ⟨c', (getElem?_replaced hc).mpr (.inl ⟨rfl, rfl⟩), ?_⟩
      exact ((hkept c (List.mem_of_getElem? hc)).step (hok c hc) hstep).2 hclosed
    · exact isClosed_iff.mpr ⟨d, (getElem?_replaced hc).mpr (.inr ⟨hi, hd⟩), hclosed⟩

/-- What `stop` need not close, and nobody else is closing, is closed. -/
theorem isClosed_of_alone
    (halone : ∀ conn ∈ s.connection, ∀ c ∈ s.conns[conn]?, c.state ≠ .closing)
    (hfilter : (s.connection.filter fun conn ↦ !s.isClosing conn) = none) :
    ∀ conn, s.connection = some conn → s.isClosed conn = true := by
  intro conn hconnection
  have hclosing : s.isClosing conn = true := by
    simpa using Option.filter_eq_none_iff.mp hfilter conn hconnection
  obtain ⟨c, hc, hstate⟩ := isClosing_iff.mp hclosing
  exact isClosed_iff.mpr ⟨c, hc, hstate.resolve_left (halone conn hconnection c hc)⟩

theorem isClosed_of_table (hclosed : s.isClosed conn = true)
    (htable : s.connection = some conn ∨ s.connection = none) :
    ∀ i, s.connection = some i → s.isClosed i = true := by
  intro i hi
  rcases htable with htable | hnone
  · rw [htable] at hi
    exact Option.some.inj hi ▸ hclosed
  · rw [hnone] at hi
    cases hi

section

variable (h : s.Stopping) (hp : s.tasks[task]? = some p)
include h hp

theorem Stopping.goto {m : SiloLink} (hages : Ages s m) (htasks : m.tasks = s.tasks)
    (hthrown : m.thrown = s.thrown)
    (hconnection : m.connection = s.connection ∨
      (m.connection = none ∧ ∀ conn, s.connection = some conn → s.isClosed conn = true))
    (hreturned : m.stopReturned = true → s.stopReturned = true ∨ m.connection = none)
      (hq : m.Fits task q) :
    (m.goto task q).Stopping ∧ Ages s (m.goto task q) := by
  have hages : Ages s (m.goto task q) := ⟨hages.length, hages.closed⟩
  refine ⟨h.next hages hconnection hreturned fun u r _ hr ↦ ?_, hages⟩
  rcases (getElem?_replaced (htasks ▸ hp)).mp hr with ⟨rfl, rfl⟩ | ⟨-, hr⟩
  · refine .inl ?_
    cases q with
    | handshaking who => cases who <;> exact hq
    | closingAll conn expired => cases conn <;> cases expired <;> exact hq
    | _ => exact hq
  · exact .inr ⟨htasks ▸ hr, fun hu ↦ hthrown ▸ hu⟩

theorem Stopping.move_goto {e : ConnectionEvent} (hkept : ∀ c ∈ s.conns, c.Kept)
    (hok : ∀ c ∈ s.conns[conn]?, c.ClosesAlone e) (hq : q.isLate = false) :
    ((s.move conn e).goto task q).Stopping ∧ Ages s ((s.move conn e).goto task q) := by
  have hages := ages_move hkept hok
  obtain ⟨conns, hmove⟩ := exists_move s conn e
  rw [hmove] at hages ⊢
  exact h.goto hp hages rfl rfl (.inl rfl) .inl (fits_of_not_late hq)

theorem Stopping.monitorConnection (hclosed : s.isClosed conn = true) :
    (s.monitorConnection task conn).Stopping ∧ Ages s (s.monitorConnection task conn) := by
  unfold SiloLink.monitorConnection
  split_ifs with htable
  · refine h.goto hp (ages_same rfl) rfl rfl (.inr ⟨rfl, fun i hi ↦ ?_⟩) (fun _ ↦ .inr rfl) trivial
    rw [htable] at hi
    exact Option.some.inj hi ▸ hclosed
  · exact h.goto hp (ages_same rfl) rfl rfl (.inl rfl) .inl trivial

theorem Stopping.overdue : (s.overdue task).Stopping ∧ Ages s (s.overdue task) :=
  h.goto hp (ages_same rfl) rfl rfl (.inl rfl) .inl trivial

theorem Stopping.closeAll (hkept : ∀ c ∈ s.conns, c.Kept)
    (hok : ∀ conn ∈ s.connection, s.ClosesAlone conn)
    (halone : ∀ conn ∈ s.connection, ∀ c ∈ s.conns[conn]?, c.state ≠ .closing) :
    (s.closeAll task).Stopping ∧ Ages s (s.closeAll task) := by
  unfold SiloLink.closeAll
  dsimp only
  split
  · next conn hfilter =>
    have hconnection := (Option.filter_eq_some_iff.mp hfilter).1
    have hages :=
      ages_move (s := { s with reconnectTask := none, monitorTask := none, pendingConnect := none })
      (e := .close .normal) hkept (hok conn hconnection)
    obtain ⟨conns, hmove⟩ :=
      exists_move { s with reconnectTask := none, monitorTask := none, pendingConnect := none } conn
      (.close .normal)
    rw [hmove] at hages ⊢
    exact h.goto hp ⟨hages.length, hages.closed⟩ rfl rfl (.inl rfl) .inl (.inl hconnection)
  · next hfilter =>
    exact h.goto hp (ages_same rfl) rfl rfl (.inl rfl) .inl (isClosed_of_alone halone hfilter)

theorem Stopping.clear (hclosed : ∀ conn, s.connection = some conn → s.isClosed conn = true) :
    (s.clear task).Stopping ∧ Ages s (s.clear task) :=
  h.goto hp (ages_same rfl) rfl rfl (.inr ⟨rfl, hclosed⟩) (fun _ ↦ .inr rfl) trivial

theorem Stopping.force (hkept : ∀ c ∈ s.conns, c.Kept)
    (hok : ∀ conn ∈ s.connection, s.ClosesAlone conn)
    (halone : ∀ conn ∈ s.connection, ∀ c ∈ s.conns[conn]?, c.state ≠ .closing) :
    (s.force task).Stopping ∧ Ages s (s.force task) := by
  unfold SiloLink.force
  split
  · next conn hfilter =>
    have hconnection := (Option.filter_eq_some_iff.mp hfilter).1
    have hages := ages_move (e := .close .lost) hkept (hok conn hconnection)
    obtain ⟨conns, hmove⟩ := exists_move s conn (.close .lost)
    rw [hmove] at hages ⊢
    exact h.goto hp ⟨hages.length, hages.closed⟩ rfl rfl (.inl rfl) .inl (.inl hconnection)
  · next hfilter => exact h.clear hp (isClosed_of_alone halone hfilter)

end

/-- Nobody but `stop` takes the connection away, or closes it. -/
def LeavesTable (s : SiloLink) : LinkPhase → Prop
  | .stopping _ | .closingAll none true =>
    ∀ conn ∈ s.connection, ∀ c ∈ s.conns[conn]?, c.state ≠ .closing
  | p => s.discards p = true → s.stopped = false ∨ s.connection = none

theorem inert_discard {C : LinkPhase → Prop} (hC : ∀ p, C p → p.isOrdinary = false)
    (hnone : s.connection = none) :
    Inert C s (s.discard task) := by
  have hpop : Inert C s { s with active := false } := inert_same rfl rfl rfl rfl nofun id rfl rfl
  unfold discard
  split
  · exact hpop.trans (inert_dropMonitor hC)
  · next conn hconnection =>
    rw [hnone] at hconnection
    cases hconnection

theorem inert_disconnect (hnone : s.discards .removing = true → s.connection = none) :
    Inert LinkPhase.Late s (s.disconnect task) := by
  have hpop : Inert LinkPhase.Late s { s with reconnectTask := none } :=
    inert_same rfl rfl rfl rfl id id rfl rfl
  unfold disconnect
  dsimp only
  split
  · exact (hpop.trans (inert_cancel _ _)).goto Bool.false_ne_true
  · next hloop =>
    have hnone := hnone (by simp only [discards, hloop, Option.isNone_none])
    exact hpop.trans (inert_discard not_ordinary_of_late hnone)

theorem Stopping.proceed (h : s.Stopping) (hstopped : s.stopped = true)
    (hkept : ∀ c ∈ s.conns, c.Kept) (hp : s.tasks[task]? = some p) (hthrown : task ∉ s.thrown)
    (hok : ∀ conn ∈ s.closes p, s.ClosesAlone conn) (hleaves : s.LeavesTable p)
    (hstep : s.proceed task p = some s') : s'.Stopping ∧ Ages s s' := by
  have hfit := h.fits task p hp
  have hfinish : ∀ result, (s.goto task (.finished result)).Stopping ∧
    Ages s (s.goto task (.finished result)) :=
    fun result ↦ h.inert ((Inert.refl s).ordinary not_ordinary_of_late rfl)
  have hconnect : ∀ {caller}, Inert LinkPhase.Late s (s.connect task caller) :=
    inert_connect not_ordinary_of_late fun hrunning ↦ by rw [hstopped] at hrunning; cases hrunning
  have hnone : s.discards p = true → s.connection = none := by
    intro hdiscards
    cases p with
    | removing | cancellingReconnect =>
      refine (hleaves hdiscards).resolve_left fun hrunning ↦ ?_
      rw [hstopped] at hrunning
      cases hrunning
    | _ => cases hdiscards
  cases p with
  | connecting caller => exact Option.some.inj hstep ▸ h.inert hconnect
  | reconnecting =>
    exact Option.some.inj hstep ▸ h.inert (inert_reconnectLoop not_ordinary_of_late _)
  | sleeping attempt =>
    obtain rfl := Option.some.inj hstep
    split_ifs
    · exact h.inert hconnect
    · exact h.inert (inert_endLoop not_ordinary_of_late _)
  | awaiting caller pending owner =>
    simp only [SiloLink.proceed] at hstep
    split at hstep
    · exact Option.some.inj hstep ▸ h.inert (inert_awaited not_ordinary_of_late pending owner _)
    · cases hstep
  | handshaking who =>
    cases who with
    | dial => exact absurd hfit hthrown
    | accept => exact hfit.elim
  | refusing who error => cases who <;> exact Option.some.inj hstep ▸ hfinish _
  | dropping who existing => exact Option.some.inj hstep ▸ hfinish _
  | awaitingMonitor who existing monitor | closingExisting who existing => exact hfit.elim
  | firingEstablished who conn => exact Option.some.inj hstep ▸ hfinish _
  | monitoring conn =>
    simp only [SiloLink.proceed] at hstep
    split_ifs at hstep with hclosed
    exact Option.some.inj hstep ▸ h.monitorConnection hp hclosed
  | firingLost reason =>
    obtain rfl := Option.some.inj hstep
    split_ifs
    · exact h.inert ((inert_scheduleReconnect not_ordinary_of_late).ordinary
        not_ordinary_of_late rfl)
    · exact hfinish _
  | removing => exact Option.some.inj hstep ▸ h.inert (inert_disconnect hnone)
  | adding =>
    obtain rfl := Option.some.inj hstep
    have hspawn : Inert LinkPhase.Late s (s.spawn (.connecting .eager)) :=
      (Inert.refl s).spawn Bool.false_ne_true
    exact h.inert (hspawn.ordinary not_ordinary_of_late rfl)
  | cancellingReconnect loop =>
    simp only [SiloLink.proceed] at hstep
    split_ifs at hstep
    exact Option.some.inj hstep ▸ h.inert (inert_discard not_ordinary_of_late (hnone rfl))
  | disconnecting conn =>
    simp only [SiloLink.proceed] at hstep
    split_ifs at hstep
    exact Option.some.inj hstep ▸ h.inert (inert_dropMonitor not_ordinary_of_late)
  | cancellingMonitor monitor =>
    simp only [SiloLink.proceed] at hstep
    split_ifs at hstep
    exact Option.some.inj hstep ▸ hfinish _
  | stopping tasks =>
    simp only [SiloLink.proceed] at hstep
    split_ifs at hstep
    exact Option.some.inj hstep ▸ h.closeAll hp hkept hok hleaves
  | closingAll conn expired =>
    simp only [SiloLink.proceed] at hstep
    split_ifs at hstep with hconn hexpired
    · subst hexpired
      refine Option.some.inj hstep ▸ h.force hp hkept hok ?_
      cases conn with
      | none => exact hleaves
      | some conn =>
        intro i hi c hc hclosing
        obtain ⟨d, hd, hclosed⟩ := isClosed_iff.mp (isClosed_of_table hconn hfit i hi)
        rw [Option.some.inj (hd.symm.trans hc), hclosing] at hclosed
        cases hclosed
    · obtain rfl := Bool.eq_false_iff.mpr hexpired
      refine Option.some.inj hstep ▸ h.clear hp ?_
      cases conn with
      | none => exact hfit
      | some conn => exact isClosed_of_table hconn hfit
  | forcing conn =>
    simp only [SiloLink.proceed] at hstep
    split_ifs at hstep with hclosed
    exact Option.some.inj hstep ▸ h.clear hp (isClosed_of_table hclosed hfit)
  | finished result => cases hstep

theorem Stopping.interrupt (h : s.Stopping) (hkept : ∀ c ∈ s.conns, c.Kept)
    (hp : s.tasks[task]? = some p) :
    (s.interrupt task p).Stopping ∧ Ages s (s.interrupt task p) := by
  have hfit := h.fits task p hp
  have hfinish : (s.goto task (.finished .cancelled)).Stopping ∧
    Ages s (s.goto task (.finished .cancelled)) :=
    h.inert ((Inert.refl s).ordinary not_ordinary_of_late rfl)
  have hclosing : ∀ conn,
    ((s.move conn .closeCancelled).goto task (.finished .cancelled)).Stopping ∧
      Ages s ((s.move conn .closeCancelled).goto task (.finished .cancelled)) :=
    fun conn ↦ h.move_goto (e := .closeCancelled) hp hkept (fun _ _ ↦ trivial) rfl
  have hgoesOn : p.isLate = false → Stopping { s with thrown := s.thrown.filter fun t ↦ t ≠ task } ∧
      Ages s { s with thrown := s.thrown.filter fun t ↦ t ≠ task } := by
    intro hearly
    refine ⟨h.next (ages_same rfl) (.inl rfl) .inl fun u r hlate hr ↦
      .inr ⟨hr, fun hu ↦ ?_⟩, ages_same rfl⟩
    refine List.mem_filter.mpr ⟨hu, decide_eq_true ?_⟩
    rintro rfl
    rw [Option.some.inj (hp.symm.trans hr), hlate] at hearly
    cases hearly
  cases p with
  | awaiting caller pending owner =>
    exact h.inert (inert_awaited not_ordinary_of_late pending owner _)
  | sleeping attempt => exact h.inert (inert_endLoop not_ordinary_of_late _)
  | awaitingMonitor who existing monitor | closingExisting who existing => exact hfit.elim
  | cancellingReconnect loop | cancellingMonitor monitor | stopping tasks => exact hgoesOn rfl
  | disconnecting conn =>
    simp only [SiloLink.interrupt]
    split_ifs
    · exact hclosing conn
    · exact hgoesOn rfl
  | closingAll conn expired =>
    cases conn with
    | none => exact hfinish
    | some conn =>
      simp only [SiloLink.interrupt]
      split_ifs
      · exact hclosing conn
      · exact hfinish
  | forcing conn =>
    simp only [SiloLink.interrupt]
    split_ifs
    · exact hclosing conn
    · exact hfinish
  | _ => exact hfinish

/-- `stop` finds no connection that has left the table and is still open, and no
install under way but that of the attempt it cancels; once called, nobody else
takes the connection away or closes it; the time is not up while its `close` can
be broken off; and no connection is closed while a request waits on it. -/
def StopsCleanly (s : SiloLink) : LinkEvent → Prop
  | .stop =>
    if s.stopped then s.stopReturned = true
    else
      (∀ t ∈ List.range s.tasks.length, ∀ p ∈ s.tasks[t]?, p.installs = true →
        p = .handshaking .dial ∧ s.pendingConnect = some t) ∧
      ∀ conn ∈ List.range s.conns.length, ∀ c ∈ s.conns[conn]?, s.connection = some conn ∨
        c.state = .closed
  | .connection conn e => ∀ c ∈ s.conns[conn]?, c.ClosesAlone e
  | .timeout task =>
    match s.tasks[task]? with
    | some (.closingAll (some conn) false) => s.isInterruptible conn = false
    | _ => True
  | .resume task =>
    task ∈ s.thrown ∨ ∀ p ∈ s.tasks[task]?,
      (∀ conn ∈ s.closes p, s.ClosesAlone conn) ∧ s.LeavesTable p
  | _ => True

instance (s : SiloLink) (conn : ℕ) : Decidable (s.ClosesAlone conn) :=
  inferInstanceAs (Decidable (∀ c ∈ s.conns[conn]?, c.IsClosing ∨ ∀ t ∈ c.senders, ¬ t.Waits))

instance (s : SiloLink) (p : LinkPhase) : Decidable (s.LeavesTable p) := by
  unfold LeavesTable
  rcases p with _ | _
  case closingAll conn expired =>
    rcases conn with _ | _ <;> rcases expired with _ | _ <;> dsimp only <;> infer_instance
  all_goals
    dsimp only
    infer_instance

instance (s : SiloLink) (e : LinkEvent) : Decidable (s.StopsCleanly e) := by
  unfold StopsCleanly
  rcases e with _ | _ <;> dsimp only
  case timeout task =>
    rcases s.tasks[task]? with _ | p
    · exact .isTrue trivial
    · rcases p with _ | _
      case closingAll conn expired =>
        rcases conn with _ | _ <;> rcases expired with _ | _ <;> dsimp only <;> infer_instance
      all_goals
        dsimp only
        infer_instance
  all_goals infer_instance

/-- What holds all along. -/
structure WindsDown (s : SiloLink) : Prop where
  typed : s.Typed
  kept : ∀ c ∈ s.conns, c.Kept
  returned : s.stopReturned = true → s.stopped = true
  stopping : s.stopped = true → s.Stopping

theorem thrown_cancel (hp : s.tasks[t]? = some p) (hrole : p.role ≠ none) (hwaits : p.waitsFor = [])
    (hsuppresses : p.suppresses = false) : t ∈ (s.cancel t).thrown := by
  have hdone : s.isDone t = false := isDone_eq_false.mpr ⟨p, hp, hrole⟩
  unfold SiloLink.cancel cancelTask
  rw [if_neg (by rw [hdone]; exact Bool.false_ne_true)]
  simp only [hp, hwaits, List.find?_nil, hsuppresses, Bool.false_eq_true, if_false]
  exact List.mem_cons_self

theorem thrown_cancelAll (hp : s.tasks[t]? = some p) (hrole : p.role ≠ none)
    (hwaits : p.waitsFor = []) (hsuppresses : p.suppresses = false) {tasks : List ℕ}
    (ht : t ∈ tasks) : t ∈
      (tasks.foldl SiloLink.cancel s).thrown := by
  have hlater : ∀ (tasks : List ℕ) (m : SiloLink), t ∈ m.thrown →
    t ∈ (tasks.foldl SiloLink.cancel m).thrown := by
    intro tasks
    induction tasks with
    | nil => exact fun _ hm ↦ hm
    | cons u tasks ih => exact fun m hm ↦ ih _ (thrown_cancelTask _ m u t hm)
  induction tasks generalizing s with
  | nil => cases ht
  | cons u tasks ih =>
    rw [List.foldl_cons]
    rcases List.mem_cons.mp ht with rfl | ht
    · exact hlater tasks _ (thrown_cancel hp hrole hwaits hsuppresses)
    · refine ih ?_ ht
      obtain ⟨thrown, asked, hcancel⟩ := exists_cancel s u
      rw [hcancel]
      exact hp

theorem WindsDown.stop (h : s.WindsDown) (hok : s.StopsCleanly .stop) :
    s.stop.Stopping ∧ (∀ c ∈ s.stop.conns, c.Kept) ∧ s.stop.stopped = true ∧
      s.stop.conns = s.conns := by
  unfold StopsCleanly at hok
  unfold SiloLink.stop
  split_ifs at hok ⊢ with hstopped
  · have hstopping := h.stopping hstopped
    refine ⟨hstopping.next (ages_same rfl) (.inl rfl) (fun _ ↦ .inl hok) fun u p hlate hp ↦
      .inr ⟨?_, id⟩, h.kept, hstopped, rfl⟩
    refine (getElem?_grown.mp hp).resolve_right ?_
    rintro ⟨-, rfl⟩
    cases hlate
  · obtain ⟨hinstalls, htable⟩ := hok
    have hthrown : ∀ (t : ℕ), s.tasks[t]? = some (.handshaking .dial) → s.pendingConnect = some t →
        t ∈ (s.backgroundTasks.foldl SiloLink.cancel
          { s with stopped := true, active := false }).thrown := by
      intro t ht hpending
      refine thrown_cancelAll (s := { s with stopped := true, active := false }) ht nofun rfl rfl ?_
      unfold backgroundTasks
      rw [hpending]
      exact List.mem_append_right _ (List.mem_singleton.mpr rfl)
    obtain ⟨thrown, asked, hcancel⟩ :=
      exists_cancelAll s.backgroundTasks { s with stopped := true, active := false }
    rw [hcancel] at hthrown ⊢
    refine ⟨⟨fun u p hp ↦ ?_, fun conn c hc ↦ ?_, fun hreturned ↦ ?_⟩, h.kept, rfl, rfl⟩
    · rcases getElem?_grown.mp hp with hp | ⟨-, rfl⟩
      · have hu := List.mem_range.mpr (List.getElem?_eq_some_iff.mp hp).1
        have hinstall := hinstalls u hu p hp
        have hrole : p.role ≠ some .stop := fun hrole ↦ hstopped (h.typed.stopped u p hp hrole)
        cases p with
        | handshaking who =>
          obtain ⟨he, hpending⟩ := hinstall rfl
          cases he
          exact hthrown u hp hpending
        | awaitingMonitor | closingExisting => cases (hinstall rfl).1
        | closingAll | forcing => exact absurd rfl hrole
        | _ => trivial
      · trivial
    · exact htable conn (List.mem_range.mpr (List.getElem?_eq_some_iff.mp hc).1) c hc
    · exact absurd (h.returned hreturned) hstopped

theorem tends_step {e : LinkEvent} (htyped : s.Typed) (hok : s.StopsCleanly e) (he : e ≠ .stop)
    (hstep : s.step e = some s') :
    Tends s s' := by
  cases e with
  | connect | acceptInbound | disconnect | updateActiveSilos =>
    exact Option.some.inj hstep ▸ tends_same rfl rfl rfl
  | stop => exact absurd rfl he
  | cancel t =>
    simp only [SiloLink.step] at hstep
    split_ifs at hstep
    exact Option.some.inj hstep ▸ tends_cancel s t
  | connection conn e =>
    simp only [SiloLink.step] at hstep
    split_ifs at hstep
    obtain ⟨c', hbind, rfl⟩ := Option.map_eq_some_iff.mp hstep
    obtain ⟨c, hc, hc'⟩ := Option.bind_eq_some_iff.mp hbind
    refine ⟨fun h d hd ↦ ?_, rfl, .inl⟩
    rcases List.mem_or_eq_of_mem_set hd with hd | rfl
    · exact h d hd
    · exact ((h c (List.mem_of_getElem? hc)).step (hok c hc) hc').1
  | openFailed t | handshakeFailed t error | unexpected t =>
    simp only [SiloLink.step] at hstep
    split at hstep
    · exact Option.some.inj hstep ▸ tends_same rfl rfl rfl
    · cases hstep
  | timeout t =>
    simp only [SiloLink.step] at hstep
    split at hstep
    · split_ifs at hstep
      exact Option.some.inj hstep ▸ tends_same rfl rfl rfl
    · split at hstep
      · exact Option.some.inj hstep ▸ (tends_move (e := .closeCancelled) fun _ _ ↦ trivial).goto t _
      · exact Option.some.inj hstep ▸ tends_same rfl rfl rfl
    · cases hstep
  | resume t =>
    simp only [SiloLink.step] at hstep
    split at hstep
    · cases hstep
    · cases hstep
    · next p _ hp =>
      split_ifs at hstep with hthrown
      · exact Option.some.inj hstep ▸ tends_interrupt
      · exact tends_proceed htyped hp (hok.resolve_left hthrown p hp).1 hstep

theorem Stopping.step {e : LinkEvent} (h : s.Stopping) (hstopped : s.stopped = true)
    (hkept : ∀ c ∈ s.conns, c.Kept) (hok : s.StopsCleanly e) (he : e ≠ .stop)
    (hstep : s.step e = some s') : s'.Stopping
      ∧ Ages s s' := by
  have hspawn : ∀ q : LinkPhase, q.isLate = false → Inert LinkPhase.Late s (s.spawn q) := by
    refine fun q hq ↦ (Inert.refl s).spawn fun hlate ↦ ?_
    rw [LinkPhase.Late, hq] at hlate
    cases hlate
  cases e with
  | connect => exact Option.some.inj hstep ▸ h.inert (hspawn _ rfl)
  | acceptInbound =>
    obtain rfl := Option.some.inj hstep
    rw [hstopped]
    exact h.inert (hspawn _ rfl)
  | disconnect => exact Option.some.inj hstep ▸ h.inert (hspawn _ rfl)
  | updateActiveSilos included =>
    obtain rfl := Option.some.inj hstep
    have hages : Ages s { s with active := included } := ages_same rfl
    have hsame : Stopping { s with active := included } :=
      h.next hages (.inl rfl) .inl fun u p _ hp ↦ .inr ⟨hp, id⟩
    obtain ⟨hstopping, hages'⟩ :=
      hsame.inert ((Inert.refl _).spawn
        (q := if s.active && !included then .removing
          else if !s.active && included then .adding else .finished .returned)
        (by split_ifs <;> exact Bool.false_ne_true))
    exact ⟨hstopping, hages.trans hages'⟩
  | stop => exact absurd rfl he
  | cancel t =>
    simp only [SiloLink.step] at hstep
    split_ifs at hstep
    exact Option.some.inj hstep ▸ h.inert (inert_cancel s t)
  | connection conn e =>
    simp only [SiloLink.step] at hstep
    split_ifs at hstep
    obtain ⟨c', hbind, rfl⟩ := Option.map_eq_some_iff.mp hstep
    have hages := ages_move hkept hok
    unfold move at hages
    rw [hbind] at hages
    exact ⟨h.next hages (.inl rfl) .inl fun u p _ hp ↦ .inr ⟨hp, id⟩, hages⟩
  | openFailed t | unexpected t =>
    simp only [SiloLink.step] at hstep
    split at hstep
    · exact Option.some.inj hstep ▸ h.inert ((Inert.refl s).ordinary not_ordinary_of_late rfl)
    · cases hstep
  | handshakeFailed t error =>
    simp only [SiloLink.step] at hstep
    split at hstep
    · next who hp =>
      obtain rfl := Option.some.inj hstep
      have hsame : Inert LinkPhase.Late s
          { s with rejected := s.rejected || decide (who = Installer.dial ∧
            error = ConnectError.rejected) } :=
        inert_same rfl rfl rfl rfl id (fun hrejected ↦ by rw [hrejected]; rfl) rfl rfl
      exact h.inert (hsame.goto Bool.false_ne_true)
    · cases hstep
  | timeout t =>
    simp only [SiloLink.step] at hstep
    split at hstep
    · next tasks hp =>
      split_ifs at hstep
      exact Option.some.inj hstep ▸ h.overdue hp
    · next conn hp =>
      have hkeeps : conn.filter s.isInterruptible = none := by
        cases conn with
        | none => rfl
        | some conn =>
          simp only [StopsCleanly, hp] at hok
          rw [Option.filter_some, hok]
          rfl
      rw [hkeeps] at hstep
      obtain rfl := Option.some.inj hstep
      refine h.goto hp (ages_same rfl) rfl rfl (.inl rfl) .inl ?_
      have hfit := h.fits t _ hp
      cases conn with
      | none => trivial
      | some conn => exact hfit
    · cases hstep
  | resume t =>
    simp only [SiloLink.step] at hstep
    split at hstep
    · cases hstep
    · cases hstep
    · next p _ hp =>
      split_ifs at hstep with hthrown
      · exact Option.some.inj hstep ▸ h.interrupt hkept hp
      · obtain ⟨hcloses, hleaves⟩ := hok.resolve_left hthrown p hp
        exact h.proceed hstopped hkept hp hthrown hcloses hleaves hstep

theorem WindsDown.step {e : LinkEvent} (h : s.WindsDown) (hok : s.StopsCleanly e)
    (hstep : s.step e = some s') :
    s'.WindsDown ∧ (s.stopped = true → s'.stopped = true ∧ s'.conns.length = s.conns.length) := by
  have htyped := h.typed.step hstep
  by_cases he : e = .stop
  · subst he
    obtain rfl := Option.some.inj hstep
    obtain ⟨hstopping, hkept, hstopped, hconns⟩ := h.stop hok
    exact ⟨⟨htyped, hkept, fun _ ↦ hstopped, fun _ ↦ hstopping⟩, fun _ ↦ ⟨hstopped, by rw [hconns]⟩⟩
  · have htends := tends_step h.typed hok he hstep
    have hlater := fun hstopped ↦ (h.stopping hstopped).step hstopped h.kept hok he hstep
    refine ⟨⟨htyped, htends.kept h.kept, fun hreturned ↦ ?_, fun hstopped ↦ ?_⟩, fun hstopped ↦
      ⟨?_, (hlater hstopped).2.length⟩⟩
    · rw [htends.stopped]
      exact (htends.returned hreturned).elim h.returned id
    · exact (hlater (htends.stopped ▸ hstopped)).1
    · exact htends.stopped.trans hstopped

theorem windsDown_new (localSilo remote : SiloAddress) (options : ConnectionOptions) :
    (new localSilo remote options).WindsDown where
  typed := typed_new localSilo remote options
  kept _ hc := absurd hc List.not_mem_nil
  returned := nofun
  stopping := nofun

theorem WindsDown.ended (h : s.WindsDown) (hreturned : s.stopReturned = true) :
    ∀ c ∈ s.conns, c.Ended := by
  intro c hc
  have hstopping := h.stopping (h.returned hreturned)
  obtain ⟨conn, hconn⟩ := List.mem_iff_getElem?.mp hc
  refine (h.kept c hc).ended ((hstopping.closed conn c hconn).resolve_left fun htable ↦ ?_)
  rw [hstopping.returned hreturned] at htable
  cases htable

/-- Once called, `stop` lets no connection be installed. -/
theorem WindsDown.run {events : List LinkEvent} (h : s.WindsDown) (hstopped : s.stopped = true)
    (hok : Meets SiloLink.step StopsCleanly s events)
    (hrun : exec SiloLink.step s events = some s') :
    s'.conns.length = s.conns.length := by
  induction events generalizing s with
  | nil => rw [Option.some.inj hrun]
  | cons e events ih =>
    obtain ⟨m, hstep, hrest⟩ := exec_cons.mp hrun
    obtain ⟨hm, hlater⟩ := h.step hok.1 hstep
    obtain ⟨hmstopped, hlength⟩ := hlater hstopped
    exact (ih hm hmstopped (hok.2 m hstep) hrest).trans hlength

/-- When a `stop` has returned, all connections have ended, and there will be no more. -/
structure ShutsDown (localSilo remote : SiloAddress) (options : ConnectionOptions)
    (events : List LinkEvent) : Prop where
  ended : ∀ before s, before <+: events → exec step (new localSilo remote options) before = some s →
    s.stopReturned = true →
    ∀ c ∈ s.conns, c.Ended
  last : ∀ before after s s', events = before ++ after →
    exec step (new localSilo remote options) before = some s →
    s.stopReturned = true → exec step s after = some s' → s'.conns.length = s.conns.length

theorem shutsDown_of_stopsCleanly (localSilo remote : SiloAddress) (options : ConnectionOptions)
    (events : List LinkEvent)
    (hok : Meets step StopsCleanly (new localSilo remote options) events) :
      ShutsDown localSilo remote options events := by
  have hreached : ∀ before after s, events = before ++ after →
    exec step (new localSilo remote options) before = some s →
      s.WindsDown ∧ Meets step StopsCleanly s after := by
    rintro before after s rfl hrun
    obtain ⟨hbefore, hafter⟩ := meets_append.mp hok
    refine ⟨?_, hafter s hrun⟩
    exact (guarded_of_exec hrun hbefore).invariant (windsDown_new localSilo remote options)
      fun _ _ _ h hok hstep ↦ (h.step hok hstep).1
  refine ⟨?_, ?_⟩
  · rintro before s ⟨after, rfl⟩ hrun hreturned
    exact (hreached before after s rfl hrun).1.ended hreturned
  · intro before after s s' he hrun hreturned hrest
    obtain ⟨h, hafter⟩ := hreached before after s he hrun
    exact h.run (h.returned hreturned) hafter hrest

/-- The time is up when `close` has failed the request and waits for its read
task; a peer that dials in later is turned away. -/
def closedInTime : List LinkEvent :=
  [.connect, .resume 0, .resume 1, .resume 1, .resume 0, .connection 0 (.sendRequest [] [] none 0),
    .connection 0 (.drained 0), .stop, .resume 2, .resume 3, .connection 0 .closeStep,
    .connection 0 .closeStep, .connection 0 (.replied 0), .connection 0 .closeStep, .timeout 3,
    .connection 0 .closeStep, .connection 0 .closeStep, .resume 3, .acceptInbound]

theorem shutsDown_closedInTime : ShutsDown siloA siloB SiloConnection.onePermit closedInTime :=
  shutsDown_of_stopsCleanly siloA siloB _ closedInTime (by decide)

/-- The time is up while `close` waits for its writer. -/
def brokenOff : List LinkEvent :=
  [.connect, .resume 0, .resume 1, .resume 1, .resume 0, .stop, .resume 2, .resume 3,
    .connection 0 .closeStep, .connection 0 .closeStep, .timeout 3, .resume 3]

theorem brokenOff_staysOpen :
    ¬ ∀ localSilo remote options events, ShutsDown localSilo remote options events := by
  intro h
  have hend : (exec step (new siloA siloB SiloConnection.onePermit) brokenOff).map (fun s ↦
      (s.stopReturned, s.conns[0]?.map fun c ↦ (c.state, c.stage))) =
        some (true, some (.closing, none)) := by decide
  obtain ⟨s, hrun, hs⟩ := Option.map_eq_some_iff.mp hend
  obtain ⟨hreturned, hconn⟩ := Prod.mk.inj hs
  obtain ⟨c, hc, hstate⟩ := Option.map_eq_some_iff.mp hconn
  have hended := (h siloA siloB _ brokenOff).ended brokenOff s List.prefix_rfl hrun hreturned c
    (List.mem_of_getElem? hc)
  have hopen := hended.closed
  rw [(Prod.mk.inj hstate).1] at hopen
  cases hopen

end SiloLink

end Pyleans
