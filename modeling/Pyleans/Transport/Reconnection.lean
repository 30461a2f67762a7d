import Pyleans.Transport.LinkTasks

namespace Pyleans

open Library

def CloseStage.reason : CloseStage → CloseReason
  | .background reason | .writer reason | .readTask reason | .handlers reason => reason
  | .drain => .normal

def LinkPhase.hasConnected : LinkPhase → Bool
  | .dropping _ _ | .firingEstablished _ _ | .finished (.connected _) | .finished .returned => true
  | _ => false

def LinkPhase.Replaces (p : LinkPhase) : Prop :=
  ∃ who existing monitor, p = .awaitingMonitor who existing monitor

namespace SiloConnection

/-- Whatever closes the connection is a loss. -/
structure OnlyLost (c : SiloConnection) : Prop where
  stage : ∀ stage, c.stage = some stage → stage.reason = .lost
  closed : c.state = .closed → c.closeReason = some .lost

variable {c c' : SiloConnection} {e : ConnectionEvent} {task correlationId future buffered : ℕ}
  {sender : Sender}
  {timeout : Option ℚ}

@[simp] theorem closeReason_finish (outcome : RaisedException ⊕ Reply) :
    (c.finish task sender outcome).closeReason = c.closeReason := by
  obtain ⟨inFlight, h⟩ := finish_eq c task sender outcome
  rw [h]
  rfl

@[simp] theorem closeReason_abandon (error : RaisedException) :
    (c.abandon task sender correlationId error).closeReason = c.closeReason :=
  closeReason_finish _

@[simp] theorem closeReason_write :
    (c.write task sender correlationId future buffered).closeReason = c.closeReason := by
  unfold write
  split
  · exact closeReason_abandon _
  · rfl

@[simp] theorem closeReason_send :
    (c.send task sender timeout buffered).closeReason = c.closeReason := by
  simp only [send]
  split
  · exact closeReason_abandon _
  · split
    · exact closeReason_write
    · rfl

theorem closeReason_step (hstep : c.step e = some c') (he : e.isOfState = false) :
    c'.closeReason = c.closeReason := by
  cases e with
  | start | close | closeStep | closeCancelled => cases he
  | response | errorResponse | timedOut => exact (Option.some.inj hstep) ▸ rfl
  | replied t =>
    simp only [step] at hstep
    split at hstep
    · split at hstep
      · exact (Option.some.inj hstep) ▸ closeReason_finish _
      · exact (Option.some.inj hstep) ▸ closeReason_abandon _
      · cases hstep
    · cases hstep
  | sendRequest | sendPing | lockTaken | lockFreed =>
    simp only [step] at hstep
    split_ifs at hstep <;> (obtain rfl := Option.some.inj hstep) <;>
      first | rfl | exact closeReason_send
  | acquired | locked =>
    simp only [step] at hstep
    split at hstep
    · split_ifs at hstep
      obtain rfl := Option.some.inj hstep
      first | exact closeReason_send | exact closeReason_write
    · cases hstep
  | drained | writeFailed =>
    simp only [step] at hstep
    split at hstep
    · obtain rfl := Option.some.inj hstep
      first | rfl | exact closeReason_abandon _
    · cases hstep
  | cancelled t =>
    simp only [step] at hstep
    split at hstep
    · exact (Option.some.inj hstep) ▸ rfl
    · exact (Option.some.inj hstep) ▸ closeReason_abandon _
    · exact (Option.some.inj hstep) ▸ closeReason_abandon _
    · exact (Option.some.inj hstep) ▸ closeReason_abandon _
    · cases hstep

theorem OnlyLost.step (h : c.OnlyLost) (he : e ≠ .close .normal) (hstep : c.step e = some c') :
    c'.OnlyLost := by
  cases hof : e.isOfState with
  | false =>
    obtain ⟨ops, hdoes⟩ := step_does hstep
    obtain ⟨hstate, hstage⟩ := hdoes.stage hof
    refine ⟨fun stage hs ↦ h.stage stage (hstage ▸ hs), fun hclosed ↦ ?_⟩
    rw [closeReason_step hstep hof]
    exact h.closed (hstate ▸ hclosed)
  | true =>
    cases e with
    | start =>
      simp only [SiloConnection.step] at hstep
      split_ifs at hstep
      · obtain rfl := Option.some.inj hstep
        exact ⟨h.stage, by simp⟩
      · exact Option.some.inj hstep ▸ h
    | close reason =>
      simp only [SiloConnection.step] at hstep
      split_ifs at hstep
      · exact Option.some.inj hstep ▸ h
      · obtain rfl := Option.some.inj hstep
        refine ⟨fun stage hs ↦ ?_, by simp⟩
        obtain rfl := Option.some.inj hs
        cases reason with
        | normal => exact absurd rfl he
        | lost => rfl
    | closeStep =>
      obtain ⟨stage, hs, rfl⟩ := Option.map_eq_some_iff.mp hstep
      have hreason := h.stage stage hs
      cases stage with
      | background reason =>
        obtain rfl : reason = .lost := hreason
        exact ⟨fun stage hs ↦ Option.some.inj hs ▸ rfl, h.closed⟩
      | drain => cases hreason
      | writer reason | readTask reason =>
        exact ⟨fun stage hs ↦ Option.some.inj hs ▸ hreason, h.closed⟩
      | handlers reason =>
        refine ⟨fun stage hs ↦ ?_, fun _ ↦ congrArg some hreason⟩
        cases hs
    | closeCancelled =>
      obtain ⟨stage, hs, rfl⟩ := Option.map_eq_some_iff.mp hstep
      exact ⟨fun stage hs ↦ absurd hs (by simp), h.closed⟩
    | _ => cases hof

end SiloConnection

namespace SiloLink

variable {s s' s'' : SiloLink} {task t conn existing : ℕ} {p q : LinkPhase} {who : Installer}
  {caller : Caller}

/-- The connection of the table is watched by a monitor, and is closed only when it is lost. -/
structure Watched (s : SiloLink) : Prop where
  monitored : ∀ conn, s.connection = some conn → ∃ u : ℕ, s.tasks[u]? = some (.monitoring conn)
  onlyLost : ∀ conn, s.connection = some conn → ∃ c, s.conns[conn]? = some c ∧ c.OnlyLost
  replaced : ∀ (u : ℕ) who existing monitor,
    s.tasks[u]? = some (.awaitingMonitor who existing monitor) →
    s.connection ≠ some existing ∧ existing < s.conns.length

def connects (s : SiloLink) (attempt : ℕ) : Bool := (s.tasks[attempt]?).all LinkPhase.hasConnected

/-- A task that sees to it that a connection is made. -/
def Cares (s : SiloLink) : LinkPhase → Prop
  | .connecting caller => caller ≠ .user
  | .awaiting caller attempt _ => caller ≠ .user ∧ s.connects attempt = false
  | .firingLost reason => reason = .lost
  | .reconnecting | .sleeping _ | .adding | .awaitingMonitor _ _ _ | .closingExisting _ _ => True
  | _ => False

def Cared (s : SiloLink) : Prop :=
  s.connection ≠ none ∨ ∃ (u : ℕ) (p : _), s.tasks[u]? = some p ∧ s.Cares p

theorem connects_eq_false : s.connects t = false ↔ ∃ p, s.tasks[t]? = some p ∧
    p.hasConnected = false := by
  unfold connects
  cases hp : s.tasks[t]? with
  | none => simp
  | some p => simp

theorem cares_congr (h : ∀ caller attempt owner, p = .awaiting caller attempt owner →
    s.connects attempt = false → s'.connects attempt = false)
    (hp : s.Cares p) : s'.Cares p := by
  cases p with
  | awaiting caller attempt owner => exact ⟨hp.1, h caller attempt owner rfl hp.2⟩
  | _ => exact hp

/-- What a task does takes nobody else's care, unless it has made a connection. -/
theorem Cared.keep (h : s.Cared) (htyped : s.Typed) (hp : s.tasks[task]? = some p)
    (hunfinished : p.role ≠ none)
    (hothers : ∀ (u : ℕ) q, u ≠ task → s.tasks[u]? = some q → s'.tasks[u]? = some q)
    (htable : s.connection ≠ none → s'.Cared) (hself : s.Cares p → s'.Cared)
    (hconnects : p.role = some .dial → s'.connects task = true → p.hasConnected = true) :
      s'.Cared := by
  rcases h with h | ⟨u, q, hq, hcares⟩
  · exact htable h
  by_cases hu : u = task
  · subst hu
    obtain rfl := Option.some.inj (hp.symm.trans hq)
    exact hself hcares
  refine .inr ⟨u, q, hothers u q hu hq,
    cares_congr (fun caller attempt owner he hattempt ↦ ?_) hcares⟩
  obtain ⟨r, hr, hnot⟩ := connects_eq_false.mp hattempt
  by_cases ht : attempt = task
  · subst ht he
    obtain rfl := Option.some.inj (hp.symm.trans hr)
    refine Bool.eq_false_iff.mpr fun hconnected ↦ ?_
    obtain ⟨r, hr, hrole⟩ := htyped.awaited u _ hq attempt (List.mem_singleton.mpr rfl) .dial rfl
    obtain rfl := Option.some.inj (hp.symm.trans hr)
    rcases hrole with hrole | hrole
    · exact absurd hrole hunfinished
    · rw [hconnects hrole hconnected] at hnot
      cases hnot
  · exact connects_eq_false.mpr ⟨r, hothers attempt r ht hr, hnot⟩

theorem Watched.code (h : s.Watched) (hinert : Inert LinkPhase.Replaces s s')
    (hothers : ∀ (u : ℕ) q, u ≠ task → s.tasks[u]? = some q → s'.tasks[u]? = some q)
    (hmonitor : ∀ conn, s.tasks[task]? = some (.monitoring conn) → s.connection ≠ some conn) :
      s'.Watched := by
  refine ⟨fun conn hconn ↦ ?_, fun conn hconn ↦ ?_, fun u who existing monitor hu ↦ ?_⟩
  · rw [hinert.connection] at hconn
    obtain ⟨u, hu⟩ := h.monitored conn hconn
    refine ⟨u, hothers u _ ?_ hu⟩
    rintro rfl
    exact hmonitor conn hu hconn
  · rw [hinert.connection] at hconn
    rw [hinert.conns]
    exact h.onlyLost conn hconn
  · rw [hinert.connection, hinert.conns]
    exact h.replaced u who existing monitor (hinert.critical u _ ⟨who, existing, monitor, rfl⟩ hu)

theorem Watched.pop (h : s.Watched) (hconnection : s'.connection = none)
    (hconns : s'.conns.length = s.conns.length) (htasks : s'.tasks = s.tasks) : s'.Watched := by
  refine ⟨fun conn hconn ↦ ?_, fun conn hconn ↦ ?_, fun u who existing monitor hu ↦ ⟨?_, ?_⟩⟩
  · rw [hconnection] at hconn
    cases hconn
  · rw [hconnection] at hconn
    cases hconn
  · rw [hconnection]
    nofun
  · rw [hconns]
    exact (h.replaced u who existing monitor (htasks ▸ hu)).2

theorem Watched.goto (h : s.Watched) (hp : s.tasks[task]? = some p)
    (hmonitor : ∀ conn, p = .monitoring conn → s.connection ≠ some conn)
    (hq : ∀ who existing monitor, q = .awaitingMonitor who existing monitor →
      s.connection ≠ some existing ∧ existing < s.conns.length) : (s.goto task q).Watched := by
  refine ⟨fun conn hconn ↦ ?_, h.onlyLost, fun u who existing monitor hu ↦ ?_⟩
  · obtain ⟨u, hu⟩ := h.monitored conn hconn
    refine ⟨u, (getElem?_replaced hp).mpr (.inr ⟨?_, hu⟩)⟩
    rintro rfl
    exact hmonitor conn (Option.some.inj (hp.symm.trans hu)) hconn
  · rcases (getElem?_replaced hp).mp hu with ⟨-, rfl⟩ | ⟨-, hu⟩
    · exact hq who existing monitor rfl
    · exact h.replaced u who existing monitor hu

theorem cared_goto (hp : s.tasks[task]? = some p) (hq : s.Cares q)
    (hattempt : ∀ caller attempt owner, q ≠ .awaiting caller attempt owner) :
    (s.goto task q).Cared := by
  refine .inr ⟨task, q, (getElem?_replaced hp).mpr (.inl ⟨rfl, rfl⟩), ?_⟩
  exact cares_congr (fun caller attempt owner he ↦ absurd he (hattempt caller attempt owner)) hq

theorem watched_register (who : Installer) (hp : s.tasks[task]? = some p)
    (hreplaced : ∀ (u : ℕ) who existing monitor, s.tasks[u]? =
      some (.awaitingMonitor who existing monitor) → existing < s.conns.length) :
    (s.register task who).Watched ∧ (s.register task who).Cared := by
  have hlt := (List.getElem?_eq_some_iff.mp hp).1
  have hspawned : (s.tasks ++ [.monitoring s.conns.length])[task]? = some p :=
    getElem?_grown.mpr (.inl hp)
  refine ⟨⟨fun conn hconn ↦
    ⟨s.tasks.length, ?_⟩, fun conn hconn ↦ ?_, fun u who' existing monitor hu ↦ ?_⟩, .inl nofun⟩
  · obtain rfl := Option.some.inj hconn
    exact (getElem?_replaced hspawned).mpr (.inr ⟨hlt.ne', getElem?_grown.mpr (.inr ⟨rfl, rfl⟩)⟩)
  · obtain rfl := Option.some.inj hconn
    exact ⟨_, getElem?_grown.mpr (.inr ⟨rfl, rfl⟩), nofun, nofun⟩
  · have hold : existing < s.conns.length := by
      rcases (getElem?_replaced hspawned).mp hu with ⟨-, he⟩ | ⟨-, hu⟩
      · cases he
      · refine hreplaced u who' existing monitor ((getElem?_grown.mp hu).resolve_right ?_)
        rintro ⟨-, he⟩
        cases he
    refine ⟨fun he ↦ hold.ne' (Option.some.inj he), hold.trans_le ?_⟩
    simp [SiloLink.register, SiloLink.goto, SiloLink.spawn]

/-- The connection that an install replaces is closed, and is not the one of the table. -/
theorem Watched.closeExisting (h : s.Watched) (who : Installer) (hp : s.tasks[task]? = some p)
    (hmonitor : ∀ conn, p ≠ .monitoring conn) (hpopped : s.connection ≠ some existing) :
    (s.closeExisting task who existing).Watched ∧ (s.closeExisting task who existing).Cared := by
  unfold SiloLink.closeExisting
  split_ifs
  · exact watched_register who hp fun u who existing monitor hu ↦
      (h.replaced u who existing monitor hu).2
  · have hother : ∀ (i : ℕ) c, i ≠ existing → s.conns[i]? = some c →
      (s.move existing (.close .normal)).conns[i]? = some c := by
      intro i c hi hc
      unfold move
      split
      · exact (List.getElem?_set_ne hi.symm).trans hc
      · exact hc
    have hlength : (s.move existing (.close .normal)).conns.length = s.conns.length := by
      unfold move
      split
      · exact List.length_set
      · rfl
    obtain ⟨conns, hmove⟩ := exists_move s existing (.close .normal)
    rw [hmove] at hother hlength ⊢
    have hmoved : Watched { s with conns := conns } := by
      refine ⟨h.monitored, fun conn hconn ↦ ?_, fun u who existing monitor hu ↦ ?_⟩
      · obtain ⟨c, hc, honly⟩ := h.onlyLost conn hconn
        refine ⟨c, hother conn c ?_ hc, honly⟩
        rintro rfl
        exact hpopped hconn
      · obtain ⟨hne, hlt⟩ := h.replaced u who existing monitor hu
        exact ⟨hne, hlt.trans_eq hlength.symm⟩
    exact ⟨hmoved.goto hp (fun conn he ↦ absurd he (hmonitor conn)) nofun,
      cared_goto (s := { s with conns := conns }) hp trivial nofun⟩

theorem Watched.installConnection (h : s.Watched) (who : Installer) (hp : s.tasks[task]? = some p)
    (hmonitor : ∀ conn, p ≠ .monitoring conn) :
    (s.installConnection task who).Watched ∧ (s.installConnection task who).Cared := by
  unfold SiloLink.installConnection
  split
  · exact watched_register who hp fun u who existing monitor hu ↦
      (h.replaced u who existing monitor hu).2
  · next existing hexisting =>
    have hconnection := (getConnection_eq_some.mp hexisting).1
    obtain ⟨c, hc, -⟩ := h.onlyLost existing hconnection
    have hlt := (List.getElem?_eq_some_iff.mp hc).1
    split_ifs
    · refine ⟨h.goto hp (fun conn he ↦ absurd he (hmonitor conn)) nofun, .inl fun hnone ↦ ?_⟩
      rw [show s.connection = none from hnone] at hconnection
      cases hconnection
    · have hpop : Watched { s with connection := none, initiator := none, monitorTask := none } :=
        h.pop rfl rfl rfl
      dsimp only
      split
      · next monitor _ =>
        obtain ⟨thrown, asked, hcancel⟩ :=
          exists_cancel { s with connection := none, initiator := none, monitorTask := none }
            monitor
        rw [hcancel]
        have hcancelled : Watched
          { s with connection := none, initiator := none, monitorTask := none, thrown, asked } :=
          h.pop rfl rfl rfl
        refine ⟨hcancelled.goto hp (fun conn he ↦ absurd he (hmonitor conn))
          fun who' existing' monitor' he ↦ ⟨nofun, ?_⟩, ?_⟩
        · cases he
          exact hlt
        · exact cared_goto (s :=
            { s with connection := none, initiator := none, monitorTask := none, thrown, asked })
            hp trivial nofun
      · exact hpop.closeExisting who hp hmonitor nofun

/-- The silo is wanted, and there is no connection. -/
def NeedsCare (s : SiloLink) : Prop :=
  s.active = true ∧ s.stopped = false ∧ s.rejected = false ∧ s.connection = none

/-- The reconnect loop, if there is one, will make a connection if the attempt it waits for has
not. -/
def LoopCares (s : SiloLink) : Prop :=
  ∀ loop ∈ s.unfinished s.reconnectTask, ∀ p ∈ s.tasks[loop]?, s.Cares p

def Retries (s : SiloLink) : Caller → LinkEnd → Prop
  | .user, _ | _, .connected _ | _, .returned => True
  | .eager, .raised error => error ≠ .other ∧ s.LoopCares
  | .loop attempt, .raised error => error = .connection ∧ attempt + 1 < Backoff.MAX_EXPONENT
  | _, .cancelled => False

def HandsOver (s : SiloLink) : LinkPhase → Prop
  | .connecting .user => True
  | .connecting _ | .sleeping _ => ∀ attempt ∈ s.pendingConnect, s.connects attempt = false
  | .awaiting caller attempt _ =>
    match s.tasks[attempt]? with
    | some (.finished result) => s.Retries caller result
    | _ => True
  | .firingLost .lost => s.LoopCares
  | _ => True

theorem not_ordinary_of_replaces (p : LinkPhase) (h : p.Replaces) : p.isOrdinary = false := by
  obtain ⟨who, existing, monitor, rfl⟩ := h
  rfl

section

variable (htyped : s.Typed) (hp : s.tasks[task]? = some p)
include htyped hp

/-- A monitor or an eager connect leaves the silo to the reconnect loop. -/
theorem cared_scheduleReconnect {role : TaskRole} (hrole : p.role = some role)
    (hloop : role ≠ .loop) (hdial : role ≠ .dial) (hcares : s.LoopCares) (result : LinkEnd) :
      (s.scheduleReconnect.goto task (.finished result)).Cared := by
  have hother : ∀ {role' u}, s.Plays role' u → role' ≠ role → u ≠ task := by
    rintro role' u ⟨q, hq, hplays⟩ hne rfl
    rw [Option.some.inj (hq.symm.trans hp), hrole] at hplays
    exact hne (Option.some.inj (hplays.resolve_left nofun)).symm
  unfold scheduleReconnect
  split
  · next loop hunfinished =>
    obtain ⟨htable, hdone⟩ := unfinished_eq_some.mp hunfinished
    obtain ⟨q, hq, -⟩ := isDone_eq_false.mp hdone
    have hne : loop ≠ task := hother (htyped.reconnectTask loop htable) hloop.symm
    refine .inr ⟨loop, q, (getElem?_replaced hp).mpr (.inr ⟨hne, hq⟩), ?_⟩
    refine cares_congr (fun caller attempt owner he hattempt ↦ ?_) (hcares loop hunfinished q hq)
    subst he
    obtain ⟨r, hr, hnot⟩ := connects_eq_false.mp hattempt
    have hne : attempt ≠ task :=
      hother (htyped.awaited loop _ hq attempt (List.mem_singleton.mpr rfl) .dial rfl) hdial.symm
    exact connects_eq_false.mpr ⟨r, (getElem?_replaced hp).mpr (.inr ⟨hne, hr⟩), hnot⟩
  · refine .inr ⟨s.tasks.length, .reconnecting,
      (getElem?_replaced (getElem?_grown.mpr (.inl hp))).mpr (.inr ⟨?_, ?_⟩), trivial⟩
    · exact (List.getElem?_eq_some_iff.mp hp).1.ne'
    · exact getElem?_grown.mpr (.inr ⟨rfl, rfl⟩)

omit htyped in
/-- A call of `connect` joins an attempt that has not connected, or makes one. -/
theorem cared_connect (hneeds : s.NeedsCare) (hcaller : caller ≠ .user)
    (hjoins : ∀ attempt ∈ s.pendingConnect, s.connects attempt = false) :
      (s.connect task caller).Cared := by
  obtain ⟨-, hstopped, -, hconnection⟩ := hneeds
  have hnone : s.getConnection = none := by
    rw [getConnection_eq_none, hconnection]
    nofun
  have hwait : ∀ (m : SiloLink) attempt owner, m.tasks[task]? = some p →
    m.connects attempt = false →
      (m.goto task (.awaiting caller attempt owner)).Cared := by
    intro m attempt owner hp hattempt
    refine .inr ⟨task, _, (getElem?_replaced hp).mpr (.inl ⟨rfl, rfl⟩), hcaller, ?_⟩
    obtain ⟨r, hr, hnot⟩ := connects_eq_false.mp hattempt
    by_cases ht : attempt = task
    · exact connects_eq_false.mpr ⟨_, (getElem?_replaced hp).mpr (.inl ⟨ht, rfl⟩), rfl⟩
    · exact connects_eq_false.mpr ⟨r, (getElem?_replaced hp).mpr (.inr ⟨ht, hr⟩), hnot⟩
  unfold connect
  rw [hstopped, hnone]
  simp only [Bool.false_eq_true, if_false]
  split
  · next attempt hpending => exact hwait s attempt false hp (hjoins attempt hpending)
  · refine hwait _ _ true (getElem?_grown.mpr (.inl hp)) ?_
    exact connects_eq_false.mpr ⟨_, getElem?_grown.mpr (.inr ⟨rfl, rfl⟩), rfl⟩

/-- A caller that does not get its connection goes on, or leaves the silo to the reconnect loop. -/
theorem cared_awaited (hrole : p.role = some caller.role) (hneeds : s.NeedsCare)
    (hcaller : caller ≠ .user) {pending : ℕ} {owner : Bool} {result : LinkEnd}
    (hresult : (LinkPhase.finished result).hasConnected = false)
    (hretries : s.Retries caller result) :
    (s.awaited task caller pending owner result).Cared := by
  obtain ⟨hactive, hstopped, -, -⟩ := hneeds
  have hwanted : s.active = true ∧ ¬ s.stopped = true :=
    ⟨hactive, by rw [hstopped]; exact Bool.false_ne_true⟩
  have htable : ∀ entry, entry = none ∨ entry = s.pendingConnect →
    ({ s with pendingConnect := entry }.connected task result caller).Cared := by
    intro entry hentry
    have htyped : Typed { s with pendingConnect := entry } :=
      htyped.tables rfl id hentry (.inr rfl) (.inr rfl)
    cases caller with
    | user => exact absurd rfl hcaller
    | eager =>
      cases result with
      | raised error =>
        obtain ⟨herror, hloop⟩ := hretries
        have hcared : ({ s with pendingConnect := entry }.scheduleReconnect.goto task
          (.finished .returned)).Cared :=
          cared_scheduleReconnect htyped hp hrole (by decide) (by decide) hloop .returned
        cases error with
        | other => exact absurd rfl herror
        | connection | torn | rejected | stopped =>
          simp only [connected]
          rw [if_pos hwanted]
          exact hcared
      | connected | returned => cases hresult
      | cancelled => exact hretries.elim
    | loop attempt =>
      cases result with
      | raised error =>
        obtain ⟨rfl, hbound⟩ := hretries
        simp only [connected, reconnectLoop]
        rw [if_pos hwanted, if_pos hbound]
        exact cared_goto (s := { s with pendingConnect := entry }) hp trivial (by simp)
      | connected | returned => cases hresult
      | cancelled => exact hretries.elim
  unfold awaited
  split_ifs
  · exact htable none (.inl rfl)
  · exact htable _ (.inr rfl)

end

/-- A loss is left to the task that reports it. -/
theorem Watched.monitorConnection (h : s.Watched) (hp : s.tasks[task]? = some (.monitoring conn))
    (hclosed : s.isClosed conn = true) :
    (s.monitorConnection task conn).Watched ∧
      (s.connection = some conn → (s.monitorConnection task conn).Cared) := by
  unfold SiloLink.monitorConnection
  split_ifs with htable
  · obtain ⟨c, hc, honly⟩ := h.onlyLost conn htable
    obtain ⟨c', hc', hstate⟩ := isClosed_iff.mp hclosed
    obtain rfl := Option.some.inj (hc.symm.trans hc')
    have hpop : Watched { s with connection := none, initiator := none, monitorTask := none } :=
      h.pop rfl rfl rfl
    refine ⟨hpop.goto hp nofun nofun, fun _ ↦
      cared_goto (s := { s with connection := none, initiator := none, monitorTask := none }) hp ?_
        nofun⟩
    rw [hc, Option.bind_some, honly.closed hstate]
    rfl
  · refine ⟨h.goto hp (fun i hi ↦ ?_) nofun, fun he ↦ absurd he htable⟩
    cases hi
    exact htable

theorem Watched.dropMonitor (h : s.Watched) (hp : s.tasks[task]? = some p)
    (hrole : p.role = some .update) :
    (s.dropMonitor task).Watched := by
  refine h.code (inert_dropMonitor not_ordinary_of_replaces) (runs_dropMonitor hp hrole).others
    fun conn hconn ↦ ?_
  rw [Option.some.inj (hp.symm.trans hconn)] at hrole
  cases hrole

theorem Watched.discard (h : s.Watched) (hp : s.tasks[task]? = some p)
    (hrole : p.role = some .update) :
    (s.discard task).Watched ∧ (s.discard task).active = false := by
  have hmonitor : ∀ conn, p ≠ .monitoring conn := by
    rintro conn rfl
    cases hrole
  have hinactive : ∀ m : SiloLink, m.active = false → (m.dropMonitor task).active = false := by
    intro m hm
    have hinert : Inert LinkPhase.Replaces m (m.dropMonitor task) :=
      inert_dropMonitor not_ordinary_of_replaces
    refine Bool.eq_false_iff.mpr fun hactive ↦ ?_
    rw [hinert.active hactive] at hm
    cases hm
  unfold SiloLink.discard
  split
  · have hpop : Watched { s with active := false } := ⟨h.monitored, h.onlyLost, h.replaced⟩
    exact ⟨hpop.dropMonitor hp hrole, hinactive _ rfl⟩
  · next conn _ =>
    have hpop : Watched { s with active := false, connection := none, initiator := none } := h.pop
      rfl rfl rfl
    dsimp only
    split_ifs
    · exact ⟨hpop.dropMonitor hp hrole, hinactive _ rfl⟩
    · have hlength : (move { s with active := false, connection := none, initiator := none } conn
          (.close .normal)).conns.length = s.conns.length := by
        unfold move
        split
        · exact List.length_set
        · rfl
      obtain ⟨conns, hmove⟩ :=
        exists_move { s with active := false, connection := none, initiator := none } conn
          (.close .normal)
      rw [hmove] at hlength ⊢
      have hmoved : Watched { s with
          active := false, connection := none, initiator := none, conns } :=
        h.pop rfl hlength rfl
      exact ⟨hmoved.goto hp (fun i hi ↦ absurd hi (hmonitor i)) nofun, rfl⟩

/-- What holds until the manager is stopped. -/
structure Minded (s : SiloLink) : Prop where
  watched : s.Watched
  cared : s.active = true → s.rejected = false → s.Cared

theorem Minded.code (h : s.Minded) (htyped : s.Typed) (hstopped : s.stopped = false)
    (hp : s.tasks[task]? = some p) (hunfinished : p.role ≠ none) (hruns : Runs task s s')
    (hinert : Inert LinkPhase.Replaces s s')
    (hmonitor : ∀ conn, p = .monitoring conn → s.connection ≠ some conn)
    (hself : s.NeedsCare → s.Cares p → s'.Cared)
    (hconnects : p.role = some .dial → s'.connects task = true → p.hasConnected = true) :
      s'.Minded := by
  refine ⟨h.watched.code hinert hruns.others fun conn hconn ↦
    hmonitor conn (Option.some.inj (hp.symm.trans hconn)), ?_⟩
  intro hactive hrejected
  have hactive := hinert.active hactive
  have hrejected : s.rejected = false := by
    refine Bool.eq_false_iff.mpr fun hbefore ↦ ?_
    rw [hinert.rejected hbefore] at hrejected
    cases hrejected
  have htable : s.connection ≠ none → s'.Cared := fun hne ↦ .inl (hinert.connection ▸ hne)
  by_cases hconnection : s.connection = none
  · exact (h.cared hactive hrejected).keep htyped hp hunfinished hruns.others htable
      (hself ⟨hactive, hstopped, hrejected, hconnection⟩) hconnects
  · exact htable hconnection

theorem Minded.disconnect (h : s.Minded) (htyped : s.Typed) (hstopped : s.stopped = false)
    (hp : s.tasks[task]? = some .removing) :
    (s.disconnect task).Minded := by
  have hruns := runs_disconnect hp rfl
  have hpop : Inert LinkPhase.Replaces s { s with reconnectTask := none } :=
    inert_same rfl rfl rfl rfl id id rfl rfl
  unfold SiloLink.disconnect at hruns ⊢
  dsimp only at hruns ⊢
  cases hloop : s.unfinished s.reconnectTask with
  | some loop =>
    simp only [hloop] at hruns
    refine h.code htyped hstopped hp nofun hruns ((hpop.trans (inert_cancel _ _)).goto ?_) nofun
      (fun _ ↦ nofun) nofun
    rintro ⟨who, existing, monitor, he⟩
    cases he
  | none =>
    have hwatched : Watched { s with reconnectTask := none } :=
      ⟨h.watched.monitored, h.watched.onlyLost, h.watched.replaced⟩
    obtain ⟨hwatched, hinactive⟩ := hwatched.discard hp rfl
    refine ⟨hwatched, fun hactive ↦ ?_⟩
    rw [hinactive] at hactive
    cases hactive

theorem Minded.proceed (h : s.Minded) (htyped : s.Typed) (hstopped : s.stopped = false)
    (hp : s.tasks[task]? = some p) (hok : s.NeedsCare → s.HandsOver p)
    (hstep : s.proceed task p = some s') : s'.Minded := by
  have hruns := runs_proceed hp hstep
  have hordinary := not_ordinary_of_replaces
  have hfinish : ∀ {result}, s' = s.goto task (.finished result) → p.role ≠ none →
    (∀ conn, p ≠ .monitoring conn) → ¬ s.Cares p →
      (p.role = some .dial → (LinkPhase.finished result).hasConnected = true →
        p.hasConnected = true) → s'.Minded := by
    rintro result rfl hunfinished hmonitor hnot hconnects
    refine h.code htyped hstopped hp hunfinished hruns ((Inert.refl s).ordinary hordinary rfl)
      (fun conn he ↦ absurd he (hmonitor conn)) (fun _ hcares ↦ absurd hcares hnot)
        fun hrole hconnected ↦ hconnects hrole ?_
    have hself : (s.goto task (.finished result)).tasks[task]? = some (.finished result) :=
      (getElem?_replaced hp).mpr (.inl ⟨rfl, rfl⟩)
    rw [connects, hself] at hconnected
    exact hconnected
  have hconnect : ∀ {caller}, Inert LinkPhase.Replaces s (s.connect task caller) := by
    refine inert_connect hordinary fun _ ↦ ?_
    rintro ⟨who, existing, monitor, he⟩
    cases he
  have hrunning : p.role ≠ some .stop := by
    intro hrole
    rw [htyped.stopped task p hp hrole] at hstopped
    cases hstopped
  cases p with
  | connecting caller =>
    obtain rfl := Option.some.inj hstep
    refine h.code htyped hstopped hp (Option.some_ne_none _) hruns hconnect (by simp)
      (fun hneeds hcares ↦ ?_) (by cases caller <;> simp [LinkPhase.role, Caller.role])
    cases caller with
    | user => exact absurd rfl hcares
    | eager | loop => exact cared_connect hp hneeds hcares (hok hneeds)
  | reconnecting =>
    obtain rfl := Option.some.inj hstep
    refine h.code htyped hstopped hp (Option.some_ne_none _) hruns (inert_reconnectLoop hordinary _)
      (by simp) (fun hneeds _ ↦ ?_) (by simp [LinkPhase.role])
    obtain ⟨hactive, hstopped, -⟩ := hneeds
    unfold reconnectLoop
    rw [if_pos ⟨hactive, by rw [hstopped]; exact Bool.false_ne_true⟩, if_pos (by decide)]
    exact cared_goto hp trivial (by simp)
  | sleeping attempt =>
    obtain rfl := Option.some.inj hstep
    refine h.code htyped hstopped hp (Option.some_ne_none _) hruns ?_ (by simp) (fun hneeds _ ↦ ?_)
      (by simp [LinkPhase.role])
    · split_ifs
      · exact hconnect
      · exact inert_endLoop hordinary _
    · rw [if_pos ⟨hneeds.1, by rw [hstopped]; exact Bool.false_ne_true⟩]
      exact cared_connect hp hneeds (by simp) (hok hneeds)
  | awaiting caller pending owner =>
    simp only [SiloLink.proceed] at hstep
    split at hstep
    · next result hresult =>
      obtain rfl := Option.some.inj hstep
      refine h.code htyped hstopped hp (Option.some_ne_none _) hruns
        (inert_awaited hordinary pending owner _) (by simp)
        (fun hneeds hcares ↦ ?_) (by cases caller <;> simp [LinkPhase.role, Caller.role])
      have hretries := hok hneeds
      simp only [HandsOver, hresult] at hretries
      refine cared_awaited htyped hp rfl hneeds hcares.1 ?_ hretries
      obtain ⟨r, hr, hnot⟩ := connects_eq_false.mp hcares.2
      rw [Option.some.inj (hr.symm.trans hresult)] at hnot
      exact hnot
    · cases hstep
  | handshaking who =>
    obtain ⟨hwatched, hcared⟩ := h.watched.installConnection who hp (by simp)
    exact Option.some.inj hstep ▸ ⟨hwatched, fun _ _ ↦ hcared⟩
  | refusing who error =>
    cases who with
    | dial =>
      exact hfinish (Option.some.inj hstep).symm (Option.some_ne_none _) (by simp) id fun _ ↦ id
    | accept =>
      exact hfinish (Option.some.inj hstep).symm (Option.some_ne_none _) (by simp) id
        (by simp [LinkPhase.role, Installer.role])
  | dropping who existing =>
    exact hfinish (Option.some.inj hstep).symm (Option.some_ne_none _) (by simp) id fun _ _ ↦ rfl
  | awaitingMonitor who existing monitor =>
    simp only [SiloLink.proceed] at hstep
    split_ifs at hstep
    obtain ⟨hwatched, hcared⟩ :=
      h.watched.closeExisting who hp (by simp) (h.watched.replaced task who existing monitor hp).1
    exact Option.some.inj hstep ▸ ⟨hwatched, fun _ _ ↦ hcared⟩
  | closingExisting who existing =>
    simp only [SiloLink.proceed] at hstep
    split_ifs at hstep
    obtain ⟨hwatched, hcared⟩ := watched_register who hp
      fun u who existing monitor hu ↦ (h.watched.replaced u who existing monitor hu).2
    exact Option.some.inj hstep ▸ ⟨hwatched, fun _ _ ↦ hcared⟩
  | firingEstablished who conn =>
    exact hfinish (Option.some.inj hstep).symm (Option.some_ne_none _) (by simp) id fun _ _ ↦ rfl
  | monitoring conn =>
    simp only [SiloLink.proceed] at hstep
    split_ifs at hstep with hclosed
    obtain ⟨hwatched, hcared⟩ := h.watched.monitorConnection hp hclosed
    obtain rfl := Option.some.inj hstep
    refine ⟨hwatched, fun hactive hrejected ↦ ?_⟩
    by_cases htable : s.connection = some conn
    · exact hcared htable
    · unfold SiloLink.monitorConnection at hruns hactive hrejected ⊢
      rw [if_neg htable] at hruns hactive hrejected ⊢
      exact (h.cared hactive hrejected).keep htyped hp (Option.some_ne_none _) hruns.others .inl
        False.elim (by simp [LinkPhase.role])
  | firingLost reason =>
    obtain rfl := Option.some.inj hstep
    refine h.code htyped hstopped hp (Option.some_ne_none _) hruns ?_ (by simp)
      (fun hneeds hcares ↦ ?_) (by simp [LinkPhase.role])
    · split_ifs
      · exact (inert_scheduleReconnect hordinary).ordinary hordinary rfl
      · exact (Inert.refl s).ordinary hordinary rfl
    · obtain rfl : reason = .lost := hcares
      rw [if_pos ⟨rfl, hneeds.1, by rw [hstopped]; exact Bool.false_ne_true⟩]
      exact cared_scheduleReconnect htyped hp rfl (by decide) (by decide) (hok hneeds) _
  | removing => exact Option.some.inj hstep ▸ h.disconnect htyped hstopped hp
  | adding =>
    obtain rfl := Option.some.inj hstep
    have hspawn : Inert LinkPhase.Replaces s (s.spawn (.connecting .eager)) := by
      refine (Inert.refl s).spawn ?_
      rintro ⟨who, existing, monitor, he⟩
      cases he
    refine h.code htyped hstopped hp (Option.some_ne_none _) hruns (hspawn.ordinary hordinary rfl)
      (by simp) (fun _ _ ↦ ?_) (by simp [LinkPhase.role])
    refine .inr ⟨s.tasks.length, .connecting .eager,
      (getElem?_replaced (getElem?_grown.mpr (.inl hp))).mpr (.inr ⟨?_, ?_⟩),
      fun hcaller ↦ absurd hcaller (by simp)⟩
    · exact (List.getElem?_eq_some_iff.mp hp).1.ne'
    · exact getElem?_grown.mpr (.inr ⟨rfl, rfl⟩)
  | cancellingReconnect loop =>
    simp only [SiloLink.proceed] at hstep
    split_ifs at hstep
    obtain ⟨hwatched, hinactive⟩ := h.watched.discard hp rfl
    refine Option.some.inj hstep ▸ ⟨hwatched, fun hactive ↦ ?_⟩
    rw [hinactive] at hactive
    cases hactive
  | disconnecting conn =>
    simp only [SiloLink.proceed] at hstep
    split_ifs at hstep
    obtain rfl := Option.some.inj hstep
    exact h.code htyped hstopped hp (Option.some_ne_none _) hruns (inert_dropMonitor hordinary)
      (by simp) (fun _ ↦ False.elim) (by simp [LinkPhase.role])
  | cancellingMonitor monitor =>
    simp only [SiloLink.proceed] at hstep
    split_ifs at hstep
    exact hfinish (Option.some.inj hstep).symm (Option.some_ne_none _) (by simp) id
      (by simp [LinkPhase.role])
  | stopping | closingAll | forcing => exact absurd rfl hrunning
  | finished result => cases hstep

theorem Watched.move {e : ConnectionEvent} (h : s.Watched) (conn : ℕ) (he : e ≠ .close .normal) :
    (s.move conn e).Watched := by
  unfold SiloLink.move
  split
  · next c' hbind =>
    obtain ⟨c, hc, hstep⟩ := Option.bind_eq_some_iff.mp hbind
    refine ⟨h.monitored, fun i hi ↦ ?_, fun u who existing monitor hu ↦ ?_⟩
    · obtain ⟨d, hd, honly⟩ := h.onlyLost i hi
      by_cases hne : i = conn
      · subst hne
        obtain rfl := Option.some.inj (hc.symm.trans hd)
        exact ⟨c', (getElem?_replaced hc).mpr (.inl ⟨rfl, rfl⟩), honly.step he hstep⟩
      · exact ⟨d, (getElem?_replaced hc).mpr (.inr ⟨hne, hd⟩), honly⟩
    · obtain ⟨hne, hlt⟩ := h.replaced u who existing monitor hu
      exact ⟨hne, hlt.trans_eq List.length_set.symm⟩
  · exact h

theorem Cared.same (h : s.Cared) (hconnection : s'.connection = s.connection)
    (htasks : s'.tasks = s.tasks) : s'.Cared := by
  unfold Cared Cares connects
  rw [hconnection, htasks]
  exact h

theorem Minded.move {e : ConnectionEvent} (h : s.Minded) (he : e ≠ .close .normal) :
    (s.move conn e).Minded := by
  have hwatched := h.watched.move conn he
  obtain ⟨conns, hmove⟩ := exists_move s conn e
  rw [hmove] at hwatched ⊢
  exact ⟨hwatched, fun hactive hrejected ↦ (h.cared hactive hrejected).same rfl rfl⟩

/-- A cancelled task that is not missed: it neither cares for the silo while it
needs care nor watches its connection. -/
def EndsUnmissed (s : SiloLink) : LinkPhase → Prop
  | .monitoring conn => s.stopped = false → s.connection ≠ some conn
  | .awaitingMonitor _ _ _ => True
  | .closingExisting _ conn => s.isInterruptible conn = true → ¬ s.NeedsCare
  | p => s.Cares p → ¬ s.NeedsCare

theorem Minded.interrupt (h : s.Minded) (htyped : s.Typed) (hstopped : s.stopped = false)
    (hp : s.tasks[task]? = some p) (hunfinished : p.role ≠ none) (hok : s.EndsUnmissed p) :
    (s.interrupt task p).Minded := by
  have hordinary := not_ordinary_of_replaces
  have hruns : Runs task s (s.interrupt task p) := runs_interrupt hp
  have hcancelled : ∀ m : SiloLink, m.tasks[task]? = some p →
    (m.goto task (.finished .cancelled)).connects task = false :=
    fun m hp ↦ connects_eq_false.mpr ⟨_, (getElem?_replaced hp).mpr (.inl ⟨rfl, rfl⟩), rfl⟩
  have hfinish : s.interrupt task p = s.goto task (.finished .cancelled) →
      (∀ conn, p = .monitoring conn → s.connection ≠ some conn) → (s.Cares p → ¬ s.NeedsCare) →
        (s.interrupt task p).Minded := by
    intro he hmonitor hnot
    rw [he] at hruns ⊢
    refine h.code htyped hstopped hp hunfinished hruns
      ((Inert.refl s).ordinary hordinary rfl) hmonitor
      (fun hneeds hcares ↦ absurd hneeds (hnot hcares)) fun _ hconnected ↦ ?_
    rw [hcancelled s hp] at hconnected
    cases hconnected
  have hclosing : ∀ conn, (∀ i, p ≠ .monitoring i) → (s.Cares p → ¬ s.NeedsCare) →
      ((s.move conn .closeCancelled).goto task (.finished .cancelled)).Minded := by
    intro conn hmonitor hnot
    have hmoved : (s.move conn .closeCancelled).Minded := h.move (by simp)
    obtain ⟨conns, hmove⟩ := exists_move s conn .closeCancelled
    rw [hmove] at hmoved ⊢
    have htyped : Typed { s with conns := conns } :=
      htyped.tables rfl id (.inr rfl) (.inr rfl) (.inr rfl)
    refine hmoved.code htyped hstopped hp hunfinished ((Runs.refl task _).finish _)
      ((Inert.refl _).ordinary hordinary rfl)
      (fun i hi ↦ absurd hi (hmonitor i)) (fun hneeds hcares ↦ absurd hneeds (hnot ?_))
        fun _ hconnected ↦ ?_
    · exact cares_congr (fun _ _ _ _ hattempt ↦ hattempt) hcares
    · rw [hcancelled { s with conns := conns } hp] at hconnected
      cases hconnected
  have hgoesOn : Minded { s with thrown := s.thrown.filter fun t ↦ t ≠ task } :=
    ⟨⟨h.watched.monitored, h.watched.onlyLost, h.watched.replaced⟩, fun hactive hrejected ↦
      (h.cared hactive hrejected).same rfl rfl⟩
  have hrunning : p.role ≠ some .stop := by
    intro hrole
    rw [htyped.stopped task p hp hrole] at hstopped
    cases hstopped
  cases p with
  | awaiting caller pending owner =>
    exact h.code htyped hstopped hp hunfinished hruns
      (inert_awaited hordinary pending owner _) (by simp)
      (fun hneeds hcares ↦ absurd hneeds (hok hcares))
        (by cases caller <;> simp [LinkPhase.role, Caller.role])
  | sleeping attempt =>
    exact h.code htyped hstopped hp hunfinished hruns (inert_endLoop hordinary _) (by simp)
      (fun hneeds hcares ↦ absurd hneeds (hok hcares)) (by simp [LinkPhase.role])
  | awaitingMonitor | cancellingReconnect | cancellingMonitor => exact hgoesOn
  | closingExisting who conn =>
    simp only [SiloLink.interrupt]
    split_ifs with hinterruptible
    · exact hclosing conn (by simp) fun _ ↦ hok hinterruptible
    · exact hgoesOn
  | disconnecting conn =>
    simp only [SiloLink.interrupt]
    split_ifs
    · exact hclosing conn (by simp) hok
    · exact hgoesOn
  | stopping | closingAll | forcing => exact absurd rfl hrunning
  | monitoring conn =>
    refine hfinish rfl (fun i hi ↦ ?_) fun hcares ↦ hcares.elim
    cases hi
    exact hok hstopped
  | connecting | reconnecting | handshaking | refusing | dropping | firingEstablished | firingLost
    | removing | adding =>
    exact hfinish rfl (by simp) hok
  | finished => exact absurd rfl hunfinished

/-- A task goes on so that the silo stays cared for, or is not missed if it was cancelled. -/
def KeepsCare (s : SiloLink) : LinkEvent → Prop
  | .resume task =>
    match s.tasks[task]? with
    | some p => if task ∈ s.thrown then s.EndsUnmissed p else s.NeedsCare → s.HandsOver p
    | none => True
  | _ => True

instance (s : SiloLink) : Decidable s.NeedsCare := inferInstanceAs (Decidable (_ ∧ _))

instance (s : SiloLink) (p : LinkPhase) : Decidable (s.Cares p) := by
  unfold Cares
  rcases p with _ | _ <;> dsimp only <;> infer_instance

instance (s : SiloLink) : Decidable s.LoopCares :=
  inferInstanceAs (Decidable
    (∀ loop ∈ s.unfinished s.reconnectTask, ∀ p ∈ s.tasks[loop]?, s.Cares p))

instance (s : SiloLink) (caller : Caller) (result : LinkEnd) :
    Decidable (s.Retries caller result) := by
  unfold Retries
  rcases caller with _ | _ <;> rcases result with _ | _ <;> dsimp only <;> infer_instance

instance (s : SiloLink) (p : LinkPhase) : Decidable (s.HandsOver p) := by
  unfold HandsOver
  rcases p with _ | _
  case connecting caller => rcases caller with _ | _ <;> dsimp only <;> infer_instance
  case awaiting caller attempt owner =>
    dsimp only
    rcases s.tasks[attempt]? with _ | q
    · exact .isTrue trivial
    · rcases q with _ | _ <;> dsimp only <;> infer_instance
  case firingLost reason => rcases reason with _ | _ <;> dsimp only <;> infer_instance
  all_goals
    dsimp only
    infer_instance

instance (s : SiloLink) (p : LinkPhase) : Decidable (s.EndsUnmissed p) := by
  unfold EndsUnmissed
  rcases p with _ | _ <;> dsimp only <;> infer_instance

instance (s : SiloLink) (e : LinkEvent) : Decidable (s.KeepsCare e) := by
  unfold KeepsCare
  rcases e with _ | _ <;> dsimp only
  case resume task => rcases s.tasks[task]? with _ | _ <;> dsimp only <;> infer_instance
  all_goals infer_instance

theorem Minded.spawn (h : s.Minded)
    (hq : ∀ who existing monitor, q ≠ .awaitingMonitor who existing monitor) :
    (s.spawn q).Minded := by
  refine ⟨⟨fun conn hconn ↦ ?_, h.watched.onlyLost, fun u who existing monitor hu ↦ ?_⟩,
    fun hactive hrejected ↦ ?_⟩
  · exact (h.watched.monitored conn hconn).imp fun u hu ↦ getElem?_grown.mpr (.inl hu)
  · exact h.watched.replaced u who existing monitor
      ((getElem?_grown.mp hu).resolve_right fun ⟨_, he⟩ ↦ hq who existing monitor he)
  · refine (h.cared hactive hrejected).imp_right fun ⟨u, r, hr, hcares⟩ ↦
      ⟨u, r, getElem?_grown.mpr (.inl hr), ?_⟩
    refine cares_congr (fun _ attempt _ _ hattempt ↦ ?_) hcares
    obtain ⟨r, hr, hnot⟩ := connects_eq_false.mp hattempt
    exact connects_eq_false.mpr ⟨r, getElem?_grown.mpr (.inl hr), hnot⟩

/-- A silo that becomes wanted is going to be connected to. -/
theorem Minded.updateActiveSilos (h : s.Minded) (included : Bool) :
    (s.updateActiveSilos included).Minded := by
  have hwatched : Watched { s with active := included } :=
    ⟨h.watched.monitored, h.watched.onlyLost, h.watched.replaced⟩
  unfold SiloLink.updateActiveSilos
  cases included with
  | false =>
    have hsame : Minded { s with active := false } := ⟨hwatched, nofun⟩
    refine hsame.spawn ?_
    split_ifs <;> nofun
  | true =>
    cases hactive : s.active with
    | true =>
      have hsame : Minded { s with active := true } :=
        ⟨hwatched, fun _ hrejected ↦ (h.cared hactive hrejected).same rfl rfl⟩
      exact hsame.spawn nofun
    | false =>
      have hsame : Minded { s with active := false } :=
        ⟨⟨h.watched.monitored, h.watched.onlyLost, h.watched.replaced⟩, nofun⟩
      have hadding := hsame.spawn (q := .adding) nofun
      refine ⟨⟨hadding.watched.monitored, hadding.watched.onlyLost, hadding.watched.replaced⟩,
        fun _ _ ↦ .inr ⟨s.tasks.length, .adding, ?_, trivial⟩⟩
      exact getElem?_grown.mpr (.inr ⟨rfl, rfl⟩)

theorem Minded.step {e : LinkEvent} (h : s.Minded) (htyped : s.Typed) (hstopped : s.stopped = false)
    (hok : s.KeepsCare e) (hstep : s.step e = some s') (hnotstopped : s'.stopped = false) :
    s'.Minded := by
  have hordinary := not_ordinary_of_replaces
  have hgoto : ∀ {t : ℕ} {who : Installer} {q : LinkPhase}, s.tasks[t]? = some (.handshaking who) →
    e.task = some t →
      s' = s.goto t q → (q.role = none ∨ q.role = some who.role) → q.isOrdinary = true →
        q.hasConnected = false → s'.Minded := by
    rintro t who q hp he rfl hrole hq hnot
    have hruns : Runs t s (s.goto t q) :=
      step_runs hstep fun u hu ↦ Option.some.inj (hu.symm.trans he)
    refine h.code htyped hstopped hp (by cases who <;> nofun)
      hruns ((Inert.refl s).ordinary hordinary hq) nofun (fun _ ↦ False.elim)
      fun _ hconnected ↦ ?_
    rw [connects_eq_false.mpr ⟨q, (getElem?_replaced hp).mpr (.inl ⟨rfl, rfl⟩), hnot⟩] at hconnected
    cases hconnected
  cases e with
  | connect => exact Option.some.inj hstep ▸ h.spawn nofun
  | acceptInbound =>
    obtain rfl := Option.some.inj hstep
    refine h.spawn ?_
    split_ifs <;> nofun
  | disconnect => exact Option.some.inj hstep ▸ h.spawn nofun
  | updateActiveSilos included => exact Option.some.inj hstep ▸ h.updateActiveSilos included
  | stop =>
    obtain rfl := Option.some.inj hstep
    unfold SiloLink.stop at hnotstopped
    rw [hstopped] at hnotstopped
    obtain ⟨thrown, asked, hcancel⟩ :=
      exists_cancelAll s.backgroundTasks { s with stopped := true, active := false }
    simp only [Bool.false_eq_true, if_false, hcancel] at hnotstopped
    cases hnotstopped
  | cancel t =>
    simp only [SiloLink.step] at hstep
    split_ifs at hstep
    obtain rfl := Option.some.inj hstep
    obtain ⟨thrown, asked, hcancel⟩ := exists_cancel s t
    rw [hcancel]
    exact ⟨⟨h.watched.monitored, h.watched.onlyLost, h.watched.replaced⟩,
      fun hactive hrejected ↦ (h.cared hactive hrejected).same rfl rfl⟩
  | connection conn e =>
    simp only [SiloLink.step] at hstep
    split_ifs at hstep with hmanagers
    obtain ⟨c', hbind, rfl⟩ := Option.map_eq_some_iff.mp hstep
    have hmoved : (s.move conn e).Minded := h.move fun he ↦ hmanagers (he ▸ rfl)
    unfold SiloLink.move at hmoved
    rw [hbind] at hmoved
    exact hmoved
  | openFailed t | unexpected t =>
    simp only [SiloLink.step] at hstep
    split at hstep
    · next hp => exact hgoto hp rfl (Option.some.inj hstep).symm (.inl rfl) rfl rfl
    · cases hstep
  | handshakeFailed t error =>
    have hruns : Runs t s s' := step_runs hstep fun u hu ↦ (Option.some.inj hu).symm
    simp only [SiloLink.step] at hstep
    split at hstep
    · next who hp =>
      obtain rfl := Option.some.inj hstep
      have hsame : Inert LinkPhase.Replaces s
          { s with rejected := s.rejected || decide (who = Installer.dial ∧
            error = ConnectError.rejected) } :=
        inert_same rfl rfl rfl rfl id (fun hrejected ↦ by rw [hrejected]; rfl) rfl rfl
      refine h.code htyped hstopped hp (by cases who <;> nofun) hruns (hsame.goto ?_) nofun
        (fun _ ↦ False.elim) fun _ hconnected ↦ ?_
      · rintro ⟨who, existing, monitor, he⟩
        cases he
      · refine absurd hconnected
          (Bool.eq_false_iff.mp (connects_eq_false.mpr ⟨.refusing who error, ?_, rfl⟩))
        exact (getElem?_replaced hp).mpr (.inl ⟨rfl, rfl⟩)
    · cases hstep
  | timeout t =>
    simp only [SiloLink.step] at hstep
    split at hstep
    · next hp =>
      rw [htyped.stopped t _ hp rfl] at hstopped
      cases hstopped
    · next hp =>
      rw [htyped.stopped t _ hp rfl] at hstopped
      cases hstopped
    · cases hstep
  | resume t =>
    simp only [SiloLink.step] at hstep
    unfold KeepsCare at hok
    split at hstep
    · cases hstep
    · cases hstep
    · next p hunfinished hp =>
      simp only [hp] at hok
      split_ifs at hstep hok with hthrown
      · refine Option.some.inj hstep ▸ h.interrupt htyped hstopped hp (fun hrole ↦ ?_) hok
        obtain ⟨result, rfl⟩ := role_eq_none_iff.mp hrole
        exact hunfinished result rfl
      · exact h.proceed htyped hstopped hp hok hstep

theorem minded_new (localSilo remote : SiloAddress) (options : ConnectionOptions) :
    (new localSilo remote options).Minded where
  watched := ⟨nofun, nofun, fun _ _ _ _ hu ↦ absurd (List.mem_of_getElem? hu) List.not_mem_nil⟩
  cared := nofun

def IsPending (s : SiloLink) : LinkPhase → Prop
  | .connecting _ | .reconnecting | .sleeping _ | .awaiting _ _ _ | .adding | .handshaking .dial
  | .refusing .dial _ | .dropping .dial _ | .firingEstablished .dial _ | .awaitingMonitor _ _ _
  | .closingExisting _ _ | .firingLost _ => True
  | .monitoring conn => s.connection = some conn
  | _ => False

/-- An active silo has an open connection, or something is under way to get one. -/
def Attended (s : SiloLink) : Prop :=
  s.active = true → s.stopped = false → s.rejected = false →
    (∃ conn, s.connection = some conn ∧ s.isClosing conn = false) ∨ ∃ p ∈ s.tasks, s.IsPending p

theorem Minded.attended (h : s.Minded) : s.Attended := by
  intro hactive _ hrejected
  rcases h.cared hactive hrejected with hconnection | ⟨u, p, hp, hcares⟩
  · obtain ⟨conn, hconn⟩ := Option.ne_none_iff_exists'.mp hconnection
    obtain ⟨u, hu⟩ := h.watched.monitored conn hconn
    exact .inr ⟨_, List.mem_of_getElem? hu, hconn⟩
  · refine .inr ⟨p, List.mem_of_getElem? hp, ?_⟩
    cases p with
    | connecting | awaiting | reconnecting | sleeping | adding | awaitingMonitor | closingExisting
      | firingLost => trivial
    | _ => exact hcares.elim

def NeverAbandons (localSilo remote : SiloAddress) (options : ConnectionOptions)
    (events : List LinkEvent) : Prop :=
  ∀ before s, before <+: events → exec step (new localSilo remote options) before = some s →
    s.Attended

theorem neverAbandons_of_keepsCare (localSilo remote : SiloAddress) (options : ConnectionOptions)
    (events : List LinkEvent) (hok : Meets step KeepsCare (new localSilo remote options) events) :
      NeverAbandons localSilo remote options events := by
  rintro before s ⟨after, rfl⟩ hrun hactive hstopped hrejected
  have hreached := guarded_of_exec hrun (meets_append.mp hok).1
  have hstep : ∀ (s : SiloLink) (e : LinkEvent) (s' : SiloLink), s.Typed ∧
    (s.stopped = false → s.Minded) → s.KeepsCare e →
      s.step e = some s' → s'.Typed ∧ (s'.stopped = false → s'.Minded) := by
    rintro s e s' ⟨htyped, hminded⟩ hok hstep
    refine ⟨htyped.step hstep, fun hstopped' ↦ ?_⟩
    have hstopped : s.stopped = false := by
      refine Bool.eq_false_iff.mpr fun hbefore ↦ ?_
      rw [stopped_step hstep hbefore] at hstopped'
      cases hstopped'
    exact (hminded hstopped).step htyped hstopped hok hstep hstopped'
  obtain ⟨-, hminded⟩ := hreached.invariant (I := fun s ↦ s.Typed ∧ (s.stopped = false → s.Minded))
    ⟨typed_new localSilo remote options, fun _ ↦ minded_new localSilo remote options⟩ hstep
  exact (hminded hstopped).attended hactive hstopped hrejected

/-- The first dial is refused, the second one is not; the connection is lost,
and the next handshake broken off. -/
def redialled : List LinkEvent :=
  [.updateActiveSilos true, .resume 0, .resume 1, .openFailed 2, .resume 1, .resume 3, .resume 3,
    .resume 4, .resume 4, .resume 3, .connection 0 (.close .lost), .connection 0 .closeStep,
    .connection 0 .closeStep, .connection 0 .closeStep, .connection 0 .closeStep, .resume 5,
    .resume 5, .resume 6, .resume 6, .handshakeFailed 7 .connection, .resume 7, .resume 6]

theorem neverAbandons_redialled : NeverAbandons siloA siloB SiloConnection.onePermit redialled :=
  neverAbandons_of_keepsCare siloA siloB _ redialled (by decide)

/-- The reconnect loop has its connection, which is lost before the loop has ended. -/
def lostBehindLoop : List LinkEvent :=
  [.updateActiveSilos true, .resume 0, .resume 1, .openFailed 2, .resume 1, .resume 3, .resume 3,
    .resume 4, .connection 0 (.close .lost), .connection 0 .closeStep, .connection 0 .closeStep,
    .connection 0 .closeStep, .connection 0 .closeStep, .resume 5, .resume 5, .resume 4, .resume 3]

theorem lostBehindLoop_abandoned :
    ¬ ∀ localSilo remote options events, NeverAbandons localSilo remote options events := by
  intro h
  have hend : (exec step (new siloA siloB SiloConnection.onePermit) lostBehindLoop).map (fun s ↦
      (s.active && !s.stopped && !s.rejected, s.connection, s.tasks.all LinkPhase.isFinished)) =
        some (true, none, true) := by decide
  obtain ⟨s, hrun, hs⟩ := Option.map_eq_some_iff.mp hend
  obtain ⟨hwanted, hs⟩ := Prod.mk.inj hs
  obtain ⟨hconnection, hfinished⟩ := Prod.mk.inj hs
  simp only [Bool.and_eq_true, Bool.not_eq_true'] at hwanted
  rcases h siloA siloB _ lostBehindLoop lostBehindLoop s List.prefix_rfl hrun hwanted.1.1
    hwanted.1.2 hwanted.2 with
    ⟨conn, hconn, -⟩ | ⟨p, hp, hpending⟩
  · rw [hconnection] at hconn
    cases hconn
  · have hdone := List.all_eq_true.mp hfinished p hp
    cases p with
    | finished result => exact hpending
    | _ => cases hdone

end SiloLink

end Pyleans
