import Pyleans.Transport.ClosingConnection
import Pyleans.Transport.SiloLink

namespace Pyleans

open Library

/-- Which function a task runs. -/
inductive TaskRole
  | caller
  | loop
  | dial
  | accept
  | monitor
  | update
  | stop
deriving DecidableEq

def Installer.role : Installer → TaskRole
  | .dial => .dial
  | .accept => .accept

def Caller.role : Caller → TaskRole
  | .user | .eager => .caller
  | .loop _ => .loop

def LinkPhase.role : LinkPhase → Option TaskRole
  | .connecting caller | .awaiting caller _ _ => some caller.role
  | .reconnecting | .sleeping _ => some .loop
  | .handshaking who | .refusing who _ | .dropping who _ | .awaitingMonitor who _ _
  | .closingExisting who _ | .firingEstablished who _ => some who.role
  | .monitoring _ | .firingLost _ => some .monitor
  | .removing | .adding | .cancellingReconnect _ | .disconnecting _ | .cancellingMonitor _ =>
    some .update
  | .stopping _ | .closingAll _ _ | .forcing _ => some .stop
  | .finished _ => none

def LinkPhase.awaitedRole : LinkPhase → Option TaskRole
  | .awaiting _ _ _ => some .dial
  | .awaitingMonitor _ _ _ | .cancellingMonitor _ => some .monitor
  | .cancellingReconnect _ => some .loop
  | _ => none

def LinkEvent.task : LinkEvent → Option ℕ
  | .openFailed task | .handshakeFailed task _ | .unexpected task | .timeout task | .resume task =>
    some task
  | _ => none

/-- What a task may come to without having to do with the connections. -/
def LinkPhase.isOrdinary : LinkPhase → Bool
  | .finished _ | .connecting _ | .reconnecting | .sleeping _ | .awaiting _ _ _
  | .cancellingMonitor _ => true
  | _ => false

namespace SiloLink

def Plays (s : SiloLink) (role : TaskRole) (task : ℕ) : Prop :=
  ∃ p, s.tasks[task]? = some p ∧ (p.role = none ∨ p.role = some role)

/-- The tasks of the tables and those that others wait for are what they should be. -/
structure Typed (s : SiloLink) : Prop where
  pendingConnect : ∀ t, s.pendingConnect = some t → s.Plays .dial t
  reconnectTask : ∀ t, s.reconnectTask = some t → s.Plays .loop t
  monitorTask : ∀ t, s.monitorTask = some t → s.Plays .monitor t
  awaited : ∀ (u : ℕ) p, s.tasks[u]? = some p → ∀ t ∈ p.waitsFor, ∀ role,
    p.awaitedRole = some role → s.Plays role t
  stopped : ∀ (u : ℕ) p, s.tasks[u]? = some p → p.role = some .stop → s.stopped = true

/-- What the code of a task does to the tasks. -/
structure Runs (task : ℕ) (s s' : SiloLink) : Prop where
  others : ∀ u p, u ≠ task → s.tasks[u]? = some p → s'.tasks[u]? = some p
  self : ∀ p, s.tasks[task]? = some p →
    ∃ p', s'.tasks[task]? = some p' ∧ (p'.role = none ∨ p'.role = p.role)
  typed : s.Typed → s'.Typed
  stopped : s.stopped = true → s'.stopped = true

variable {s s' s'' : SiloLink} {task t conn : ℕ} {p q : LinkPhase} {role : TaskRole}
  {who : Installer} {caller : Caller}

theorem not_isFinished_iff : p.isFinished = false ↔ p.role ≠ none := by
  cases p <;> simp [LinkPhase.isFinished, LinkPhase.role]

theorem role_eq_none_iff : p.role = none ↔ ∃ result, p = .finished result := by
  cases p <;> simp [LinkPhase.role]

theorem isInner_of_dial (h : p.role = some .dial) : p.isInner = true := by
  cases p with
  | connecting caller | awaiting caller _ _ => cases caller <;> cases h
  | handshaking who | refusing who _ | dropping who _ | awaitingMonitor who _ _
  | closingExisting who _ | firingEstablished who _ => cases who <;> first | rfl | cases h
  | _ => cases h

theorem isDone_eq_false : s.isDone t = false ↔ ∃ p, s.tasks[t]? = some p ∧ p.role ≠ none := by
  unfold isDone
  cases hp : s.tasks[t]? with
  | none => simp
  | some p => simp [not_isFinished_iff]

theorem unfinished_eq_some {entry : Option ℕ} :
    s.unfinished entry = some t ↔ entry = some t ∧ s.isDone t = false := by
  simp [unfinished, Option.filter_eq_some_iff]

theorem isClosed_iff : s.isClosed conn = true ↔ ∃ c, s.conns[conn]? = some c ∧
    c.state = .closed := by
  rw [isClosed, Option.any_eq_true]
  simp only [decide_eq_true_eq]

theorem isClosing_iff : s.isClosing conn = true ↔ ∃ c, s.conns[conn]? = some c ∧ c.IsClosing := by
  rw [isClosing, Option.any_eq_true]
  simp only [decide_eq_true_eq]
  rfl

theorem getConnection_eq_some : s.getConnection = some conn ↔ s.connection = some conn ∧
    s.isClosed conn = false := by
  simp [getConnection, Option.filter_eq_some_iff]

theorem getConnection_eq_none : s.getConnection = none ↔ ∀ conn, s.connection = some conn →
    s.isClosed conn = true := by
  simp [getConnection, Option.filter_eq_none_iff]

theorem exists_cancelTask (bound : ℕ) (s : SiloLink) (task : ℕ) :
    ∃ thrown asked, cancelTask bound s task = { s with thrown := thrown, asked := asked } := by
  induction bound generalizing s task with
  | zero => exact ⟨_, _, rfl⟩
  | succ bound ih =>
    unfold cancelTask
    split_ifs
    · exact ⟨_, _, rfl⟩
    · dsimp only
      split
      · exact ⟨_, _, rfl⟩
      · split
        · obtain ⟨thrown, asked, h⟩ := ih { s with asked := task :: s.asked } _
          exact ⟨thrown, asked, h⟩
        · split
          · exact ⟨_, _, rfl⟩
          · exact ⟨_, _, rfl⟩

theorem exists_cancel (s : SiloLink) (task : ℕ) :
    ∃ thrown asked, s.cancel task = { s with thrown := thrown, asked := asked } :=
      exists_cancelTask _ s task

theorem exists_move (s : SiloLink) (conn : ℕ) (e : ConnectionEvent) :
    ∃ conns, s.move conn e = { s with conns := conns } := by
  unfold move
  split
  · exact ⟨_, rfl⟩
  · exact ⟨_, rfl⟩

theorem getElem?_move {i : ℕ} {c' : SiloConnection} {e : ConnectionEvent}
    (h : (s.move conn e).conns[i]? = some c') :
    (s.conns[i]? = some c' ∧ (i = conn → c'.step e = none)) ∨
      (i = conn ∧ ∃ c, s.conns[i]? = some c ∧ c.step e = some c') := by
  unfold move at h
  split at h
  · next c hbind =>
    obtain ⟨c₀, hc₀, hstep⟩ := Option.bind_eq_some_iff.mp hbind
    rcases (getElem?_replaced hc₀).mp h with ⟨rfl, rfl⟩ | ⟨hne, h⟩
    · exact .inr ⟨rfl, c₀, hc₀, hstep⟩
    · exact .inl ⟨h, fun he ↦ absurd he hne⟩
  · next hbind =>
    refine .inl ⟨h, fun he ↦ ?_⟩
    rw [← he, h] at hbind
    exact hbind

theorem Plays.keep (hkeep : ∀ (u : ℕ) p, s.tasks[u]? = some p → ∃ p', s'.tasks[u]? = some p' ∧
    (p'.role = none ∨ p'.role = p.role))
    (h : s.Plays role t) : s'.Plays role t := by
  obtain ⟨p, hp, hrole⟩ := h
  obtain ⟨p', hp', hrole'⟩ := hkeep t p hp
  refine ⟨p', hp', hrole'.elim .inl fun he ↦ ?_⟩
  rw [he]
  exact hrole

theorem Runs.plays (h : Runs task s s') (hplays : s.Plays role t) : s'.Plays role t := by
  refine hplays.keep fun u p hp ↦ ?_
  by_cases hu : u = task
  · exact hu ▸ h.self p (hu ▸ hp)
  · exact ⟨p, h.others u p hu hp, .inr rfl⟩

theorem Runs.refl (task : ℕ) (s : SiloLink) : Runs task s s :=
  ⟨fun _ _ _ h ↦ h, fun p hp ↦ ⟨p, hp, .inr rfl⟩, id, id⟩

theorem Runs.trans (h : Runs task s s') (h' : Runs task s' s'') : Runs task s s'' where
  others u p hu hp := h'.others u p hu (h.others u p hu hp)
  self p hp := by
    obtain ⟨p', hp', hrole⟩ := h.self p hp
    obtain ⟨p'', hp'', hrole'⟩ := h'.self p' hp'
    refine ⟨p'', hp'', hrole'.elim .inl fun he ↦ ?_⟩
    rw [he]
    exact hrole
  typed hs := h'.typed (h.typed hs)
  stopped hs := h'.stopped (h.stopped hs)

/-- The tables may lose entries, and what is not of the tasks may change. -/
theorem runs_tables (htasks : s'.tasks = s.tasks) (hstopped : s.stopped = true → s'.stopped = true)
    (hpending : s'.pendingConnect = none ∨ s'.pendingConnect = s.pendingConnect)
    (hreconnect : s'.reconnectTask = none ∨ s'.reconnectTask = s.reconnectTask)
    (hmonitor : s'.monitorTask = none ∨ s'.monitorTask = s.monitorTask) : Runs task s s' := by
  have hsame : ∀ (u : ℕ) p, s.tasks[u]? = some p → s'.tasks[u]? = some p := by
    rw [htasks]; exact fun _ _ h ↦ h
  have hplays : ∀ {role u}, s.Plays role u → s'.Plays role u :=
    Plays.keep fun u p hp ↦ ⟨p, hsame u p hp, .inr rfl⟩
  have hentry : ∀ {a b : Option ℕ} {u : ℕ}, a = none ∨ a = b → a = some u → b = some u := by
    rintro a b u (rfl | rfl) ha
    · cases ha
    · exact ha
  refine ⟨fun u p _ ↦ hsame u p, fun p hp ↦
    ⟨p, hsame _ p hp, .inr rfl⟩, fun hs ↦ ⟨?_, ?_, ?_, ?_, ?_⟩, hstopped⟩
  · exact fun t ht ↦ hplays (hs.pendingConnect t (hentry hpending ht))
  · exact fun t ht ↦ hplays (hs.reconnectTask t (hentry hreconnect ht))
  · exact fun t ht ↦ hplays (hs.monitorTask t (hentry hmonitor ht))
  · rw [htasks]
    exact fun u p hp t ht role hrole ↦ hplays (hs.awaited u p hp t ht role hrole)
  · rw [htasks]
    exact fun u p hp hrole ↦ hstopped (hs.stopped u p hp hrole)

theorem Typed.tables (h : s.Typed) (htasks : s'.tasks = s.tasks)
    (hstopped : s.stopped = true → s'.stopped = true)
    (hpending : s'.pendingConnect = none ∨ s'.pendingConnect = s.pendingConnect)
    (hreconnect : s'.reconnectTask = none ∨ s'.reconnectTask = s.reconnectTask)
    (hmonitor : s'.monitorTask = none ∨ s'.monitorTask = s.monitorTask) : s'.Typed :=
  (show Runs 0 s s' from runs_tables htasks hstopped hpending hreconnect hmonitor).typed h

theorem Runs.goto (h : Runs task s'' s) (hp : s.tasks[task]? = some p)
    (hrole : q.role = none ∨ q.role = p.role)
    (hrefs : s''.Typed → ∀ t ∈ q.waitsFor, ∀ role, q.awaitedRole = some role → s''.Plays role t) :
    Runs task s'' (s.goto task q) := by
  have hothers : ∀ (u : ℕ) r, u ≠ task → s.tasks[u]? = some r →
    (s.goto task q).tasks[u]? = some r :=
    fun u r hu hr ↦ (getElem?_replaced hp).mpr (.inr ⟨hu, hr⟩)
  have hself : ∀ r, s.tasks[task]? = some r →
      ∃ r', (s.goto task q).tasks[task]? = some r' ∧ (r'.role = none ∨ r'.role = r.role) := by
    intro r hr
    obtain rfl := Option.some.inj (hp.symm.trans hr)
    exact ⟨q, (getElem?_replaced hp).mpr (.inl ⟨rfl, rfl⟩), hrole⟩
  have hplays : ∀ {role u}, s.Plays role u → (s.goto task q).Plays role u := by
    refine Plays.keep fun u r hr ↦ ?_
    by_cases hu : u = task
    · exact hu ▸ hself r (hu ▸ hr)
    · exact ⟨r, hothers u r hu hr, .inr rfl⟩
  refine ⟨fun u r hu hr ↦
    hothers u r hu (h.others u r hu hr), fun r hr ↦ ?_, fun hs'' ↦ ?_, h.stopped⟩
  · obtain ⟨r', hr', hrole'⟩ := h.self r hr
    obtain ⟨r'', hr'', hrole''⟩ := hself r' hr'
    refine ⟨r'', hr'', hrole''.elim .inl fun he ↦ ?_⟩
    rw [he]
    exact hrole'
  have hs := h.typed hs''
  refine ⟨?_, ?_, ?_, fun u r hr t ht role he ↦ ?_, fun u r hr he ↦ ?_⟩
  · exact fun t ht ↦ hplays (hs.pendingConnect t ht)
  · exact fun t ht ↦ hplays (hs.reconnectTask t ht)
  · exact fun t ht ↦ hplays (hs.monitorTask t ht)
  · rcases (getElem?_replaced hp).mp hr with ⟨-, rfl⟩ | ⟨-, hr⟩
    · exact hplays (h.plays (hrefs hs'' t ht role he))
    · exact hplays (hs.awaited u r hr t ht role he)
  · rcases (getElem?_replaced hp).mp hr with ⟨-, rfl⟩ | ⟨-, hr⟩
    · refine hs.stopped task p hp ?_
      rcases hrole with hrole | hrole
      · rw [hrole] at he
        cases he
      · exact hrole ▸ he
    · exact hs.stopped u r hr he

theorem Runs.goto_alone (h : Runs task s'' s) (hp : s.tasks[task]? = some p)
    (hrole : q.role = none ∨ q.role = p.role) (hwaits : q.awaitedRole = none) :
    Runs task s'' (s.goto task q) := by
  refine h.goto hp hrole fun _ t _ role he ↦ ?_
  rw [hwaits] at he
  cases he

theorem runs_spawn (htasks : s'.tasks = s.tasks ++ [q])
    (hstopped : s.stopped = true → s'.stopped = true)
    (hstop : q.role = some .stop → s'.stopped = true) (hwaits : q.awaitedRole = none)
    (hpending : s'.pendingConnect = s.pendingConnect ∨
      (q.role = some .dial ∧ s'.pendingConnect = some s.tasks.length))
    (hreconnect : s'.reconnectTask = s.reconnectTask ∨
      (q.role = some .loop ∧ s'.reconnectTask = some s.tasks.length))
    (hmonitor : s'.monitorTask = s.monitorTask ∨
      (q.role = some .monitor ∧ s'.monitorTask = some s.tasks.length)) :
    Runs task s s' := by
  have hsame : ∀ (u : ℕ) p, s.tasks[u]? = some p → s'.tasks[u]? = some p := by
    intro u p hp
    rw [htasks]
    exact getElem?_grown.mpr (.inl hp)
  have hnew : s'.tasks[s.tasks.length]? = some q := by
    rw [htasks]
    exact getElem?_grown.mpr (.inr ⟨rfl, rfl⟩)
  have hplays : ∀ {role u}, s.Plays role u → s'.Plays role u :=
    Plays.keep fun u p hp ↦ ⟨p, hsame u p hp, .inr rfl⟩
  have hentry : ∀ {a b : Option ℕ} {role : TaskRole}, a = b ∨
    (q.role = some role ∧ a = some s.tasks.length) →
      (∀ t, b = some t → s.Plays role t) → ∀ t, a = some t → s'.Plays role t := by
    rintro a b role (rfl | ⟨hrole, rfl⟩) hb t ht
    · exact hplays (hb t ht)
    · exact Option.some.inj ht ▸ ⟨q, hnew, .inr hrole⟩
  refine ⟨fun u p _ ↦ hsame u p, fun p hp ↦ ⟨p, hsame _ p hp, .inr rfl⟩,
    fun hs ↦ ⟨?_, ?_, ?_, fun u p hp t ht role he ↦ ?_, fun u p hp he ↦ ?_⟩, hstopped⟩
  · exact hentry hpending hs.pendingConnect
  · exact hentry hreconnect hs.reconnectTask
  · exact hentry hmonitor hs.monitorTask
  · rw [htasks] at hp
    rcases getElem?_grown.mp hp with hp | ⟨-, rfl⟩
    · exact hplays (hs.awaited u p hp t ht role he)
    · rw [hwaits] at he
      cases he
  · rw [htasks] at hp
    rcases getElem?_grown.mp hp with hp | ⟨-, rfl⟩
    · exact hstopped (hs.stopped u p hp he)
    · exact hstop he

theorem Runs.finish (h : Runs task s'' s) (result : LinkEnd) :
    Runs task s'' (s.goto task (.finished result)) := by
  cases hp : s.tasks[task]? with
  | none =>
    have hsame : s.goto task (.finished result) = s := by
      unfold SiloLink.goto
      rw [List.set_eq_of_length_le (List.getElem?_eq_none_iff.mp hp)]
    rw [hsame]
    exact h
  | some p => exact h.goto_alone hp (.inl rfl) rfl

theorem runs_cancel (s : SiloLink) (task t : ℕ) : Runs task s (s.cancel t) := by
  obtain ⟨thrown, asked, h⟩ := exists_cancel s t
  rw [h]
  exact runs_tables rfl id (.inr rfl) (.inr rfl) (.inr rfl)

theorem runs_move (s : SiloLink) (task conn : ℕ) (e : ConnectionEvent) :
    Runs task s (s.move conn e) := by
  obtain ⟨conns, h⟩ := exists_move s conn e
  rw [h]
  exact runs_tables rfl id (.inr rfl) (.inr rfl) (.inr rfl)

theorem Runs.close_goto (h : Runs task s'' s) (hp : s.tasks[task]? = some p) (conn : ℕ)
    (e : ConnectionEvent) (hrole : q.role = none ∨ q.role = p.role)
    (hwaits : q.awaitedRole = none) : Runs task s'' ((s.move conn e).goto task q) := by
  obtain ⟨conns, hmove⟩ := exists_move s conn e
  have hsame := runs_move s task conn e
  rw [hmove] at hsame ⊢
  exact (h.trans hsame).goto_alone hp hrole hwaits

theorem Runs.cancel_goto (h : Runs task s'' s) (hp : s.tasks[task]? = some p) (t : ℕ)
    (hrole : q.role = none ∨ q.role = p.role)
    (hrefs : s''.Typed → ∀ t ∈ q.waitsFor, ∀ role, q.awaitedRole = some role → s''.Plays role t) :
    Runs task s'' ((s.cancel t).goto task q) := by
  obtain ⟨thrown, asked, hcancel⟩ := exists_cancel s t
  have hsame := runs_cancel s task t
  rw [hcancel] at hsame ⊢
  exact (h.trans hsame).goto hp hrole hrefs

theorem runs_scheduleReconnect (s : SiloLink) (task : ℕ) : Runs task s s.scheduleReconnect := by
  unfold scheduleReconnect
  split
  · exact .refl task s
  · exact runs_spawn rfl id nofun rfl (.inl rfl) (.inr ⟨rfl, rfl⟩) (.inl rfl)

theorem runs_endLoop (s : SiloLink) (task : ℕ) (result : LinkEnd) :
    Runs task s (s.endLoop task result) := by
  have htable : ∀ entry, entry = none ∨ entry = s.reconnectTask →
    Runs task s { s with reconnectTask := entry } :=
    fun entry hentry ↦ runs_tables rfl id (.inr rfl) hentry (.inr rfl)
  unfold endLoop
  split_ifs
  · exact (htable none (.inl rfl)).finish result
  · exact (htable _ (.inr rfl)).finish result

section

variable (hp : s.tasks[task]? = some p)
include hp

theorem runs_reconnectLoop (hrole : p.role = some .loop) (attempt : ℕ) :
    Runs task s (s.reconnectLoop task attempt) := by
  unfold reconnectLoop
  split_ifs
  · exact (Runs.refl task s).goto_alone hp (.inr hrole.symm) rfl
  · exact runs_endLoop s task _
  · exact runs_endLoop s task _

theorem runs_connected (hrole : p.role = some caller.role) (result : LinkEnd) :
    Runs task s (s.connected task result caller) := by
  cases caller with
  | user => exact (Runs.refl task s).finish _
  | eager =>
    simp only [connected]
    split
    · exact (Runs.refl task s).finish _
    · split_ifs
      · exact (runs_scheduleReconnect s task).finish _
      · exact (Runs.refl task s).finish _
    · exact (Runs.refl task s).finish _
    · exact (Runs.refl task s).finish _
  | loop attempt =>
    simp only [connected]
    split
    · exact runs_reconnectLoop hp hrole _
    · exact runs_reconnectLoop hp hrole _
    · exact runs_endLoop s task _
    · exact runs_endLoop s task _
    · exact runs_endLoop s task _

theorem runs_connect (hrole : p.role = some caller.role) : Runs task s (s.connect task caller) := by
  unfold connect
  split_ifs
  · exact runs_connected hp hrole _
  · split
    · exact runs_connected hp hrole _
    · split
      · next pending hpending =>
        refine (Runs.refl task s).goto hp (.inr hrole.symm) fun hs t ht role he ↦ ?_
        obtain rfl := List.mem_singleton.mp ht
        obtain rfl := Option.some.inj he
        exact hs.pendingConnect t hpending
      · have hspawn : ∀ task',
          Runs task' s ({ s with pendingConnect := some s.tasks.length }.spawn
          (.handshaking .dial)) :=
          fun _ ↦ runs_spawn rfl id nofun rfl (.inr ⟨rfl, rfl⟩) (.inl rfl) (.inl rfl)
        have hnew : ({ s with pendingConnect := some s.tasks.length }.spawn
          (.handshaking .dial)).Plays .dial s.tasks.length :=
          ⟨_, getElem?_grown.mpr (.inr ⟨rfl, rfl⟩), .inr rfl⟩
        refine (hspawn task).trans
          ((Runs.refl task _).goto (getElem?_grown.mpr (.inl hp)) (.inr hrole.symm) ?_)
        intro _ t ht role he
        obtain rfl := List.mem_singleton.mp ht
        obtain rfl := Option.some.inj he
        exact hnew

theorem runs_awaited (hrole : p.role = some caller.role) (pending : ℕ) (owner : Bool)
    (result : LinkEnd) :
    Runs task s (s.awaited task caller pending owner result) := by
  have htable : ∀ entry, entry = none ∨ entry = s.pendingConnect →
      Runs task s ({ s with pendingConnect := entry }.connected task result caller) := by
    intro entry hentry
    have htables : Runs task s { s with pendingConnect := entry } :=
      runs_tables rfl id hentry (.inr rfl) (.inr rfl)
    exact htables.trans (runs_connected (s := { s with pendingConnect := entry }) hp hrole result)
  unfold awaited
  split_ifs
  · exact htable none (.inl rfl)
  · exact htable _ (.inr rfl)

theorem runs_register (hrole : p.role = some who.role) : Runs task s (s.register task who) := by
  have hspawn : Runs task s ({ s with
      connection := some s.conns.length
      initiator := some (s.initiatorOf who)
      monitorTask := some s.tasks.length
      conns := s.conns ++ [{ SiloConnection.new s.options with state := .running }] }.spawn
        (.monitoring s.conns.length)) :=
    runs_spawn rfl id nofun rfl (.inl rfl) (.inl rfl) (.inr ⟨rfl, rfl⟩)
  exact hspawn.goto_alone (getElem?_grown.mpr (.inl hp)) (.inr hrole.symm) rfl

theorem runs_closeExisting (hrole : p.role = some who.role) (existing : ℕ) :
    Runs task s (s.closeExisting task who existing) := by
  unfold closeExisting
  split_ifs
  · exact runs_register hp hrole
  · exact (Runs.refl task s).close_goto hp existing _ (.inr hrole.symm) rfl

theorem runs_installConnection (hrole : p.role = some who.role) :
    Runs task s (s.installConnection task who) := by
  have hpop : Runs task s { s with connection := none, initiator := none, monitorTask := none } :=
    runs_tables rfl id (.inr rfl) (.inr rfl) (.inl rfl)
  unfold installConnection
  split
  · exact runs_register hp hrole
  · next existing _ =>
    split_ifs
    · exact (Runs.refl task s).goto_alone hp (.inr hrole.symm) rfl
    · dsimp only
      split
      · next monitor hmonitor =>
        refine hpop.cancel_goto hp monitor (.inr hrole.symm) fun hs t ht role he ↦ ?_
        obtain rfl := List.mem_singleton.mp ht
        obtain rfl := Option.some.inj he
        exact hs.monitorTask t (unfinished_eq_some.mp hmonitor).1
      · exact hpop.trans (runs_closeExisting
          (s := { s with connection := none, initiator := none, monitorTask := none })
          hp hrole existing)

theorem runs_dropMonitor (hrole : p.role = some .update) : Runs task s (s.dropMonitor task) := by
  have hpop : Runs task s { s with monitorTask := none } :=
    runs_tables rfl id (.inr rfl) (.inr rfl) (.inl rfl)
  unfold dropMonitor
  dsimp only
  split
  · next monitor hmonitor =>
    refine hpop.cancel_goto hp monitor (.inr hrole.symm) fun hs t ht role he ↦ ?_
    obtain rfl := List.mem_singleton.mp ht
    obtain rfl := Option.some.inj he
    exact hs.monitorTask t (unfinished_eq_some.mp hmonitor).1
  · exact hpop.finish _

theorem runs_discard (hrole : p.role = some .update) : Runs task s (s.discard task) := by
  unfold discard
  split
  · have hpop : Runs task s { s with active := false } :=
      runs_tables rfl id (.inr rfl) (.inr rfl) (.inr rfl)
    exact hpop.trans (runs_dropMonitor (s := { s with active := false }) hp hrole)
  · next conn _ =>
    have hpop : Runs task s { s with active := false, connection := none, initiator := none } :=
      runs_tables rfl id (.inr rfl) (.inr rfl) (.inr rfl)
    dsimp only
    split_ifs
    · exact hpop.trans (runs_dropMonitor
        (s := { s with active := false, connection := none, initiator := none }) hp hrole)
    · exact hpop.close_goto hp conn _ (.inr hrole.symm) rfl

theorem runs_disconnect (hrole : p.role = some .update) : Runs task s (s.disconnect task) := by
  have hpop : Runs task s { s with reconnectTask := none } :=
    runs_tables rfl id (.inr rfl) (.inl rfl) (.inr rfl)
  unfold disconnect
  dsimp only
  split
  · next loop hloop =>
    refine hpop.cancel_goto hp loop (.inr hrole.symm) fun hs t ht role he ↦ ?_
    obtain rfl := List.mem_singleton.mp ht
    obtain rfl := Option.some.inj he
    exact hs.reconnectTask t (unfinished_eq_some.mp hloop).1
  · exact hpop.trans (runs_discard (s := { s with reconnectTask := none }) hp hrole)

theorem runs_closeAll (hrole : p.role = some .stop) : Runs task s (s.closeAll task) := by
  have hclear : Runs task s
    { s with reconnectTask := none, monitorTask := none, pendingConnect := none } :=
    runs_tables rfl id (.inl rfl) (.inl rfl) (.inl rfl)
  unfold closeAll
  dsimp only
  split
  · next conn _ => exact hclear.close_goto hp conn _ (.inr hrole.symm) rfl
  · exact hclear.goto_alone hp (.inr hrole.symm) rfl

theorem runs_overdue (hrole : p.role = some .stop) : Runs task s (s.overdue task) := by
  have hclear : Runs task s
    { s with reconnectTask := none, monitorTask := none, pendingConnect := none } :=
    runs_tables rfl id (.inl rfl) (.inl rfl) (.inl rfl)
  exact hclear.goto_alone hp (.inr hrole.symm) rfl

omit hp in
theorem runs_clear (s : SiloLink) (task : ℕ) : Runs task s (s.clear task) := by
  have hpop : Runs task s { s with connection := none, initiator := none, stopReturned := true } :=
    runs_tables rfl id (.inr rfl) (.inr rfl) (.inr rfl)
  exact hpop.finish _

theorem runs_force (hrole : p.role = some .stop) : Runs task s (s.force task) := by
  unfold force
  split
  · next conn _ => exact (Runs.refl task s).close_goto hp conn _ (.inr hrole.symm) rfl
  · exact runs_clear s task

theorem runs_monitorConnection (hrole : p.role = some .monitor) (conn : ℕ) :
    Runs task s (s.monitorConnection task conn) := by
  have hpop : Runs task s { s with connection := none, initiator := none, monitorTask := none } :=
    runs_tables rfl id (.inr rfl) (.inr rfl) (.inl rfl)
  unfold monitorConnection
  split_ifs
  · exact hpop.goto_alone hp (.inr hrole.symm) rfl
  · exact (Runs.refl task s).finish _

theorem runs_proceed (h : s.proceed task p = some s') : Runs task s s' := by
  cases p with
  | connecting caller => exact Option.some.inj h ▸ runs_connect hp rfl
  | reconnecting => exact Option.some.inj h ▸ runs_reconnectLoop hp rfl _
  | sleeping attempt =>
    obtain rfl := Option.some.inj h
    split_ifs
    · have hrole : (LinkPhase.sleeping attempt).role = some (Caller.loop attempt).role := rfl
      exact runs_connect hp hrole
    · exact runs_endLoop s task _
  | awaiting caller pending owner =>
    simp only [proceed] at h
    split at h
    · exact Option.some.inj h ▸ runs_awaited hp rfl pending owner _
    · cases h
  | handshaking who => exact Option.some.inj h ▸ runs_installConnection hp rfl
  | refusing who error => cases who <;> exact Option.some.inj h ▸ (Runs.refl task s).finish _
  | dropping who existing => exact Option.some.inj h ▸ (Runs.refl task s).finish _
  | awaitingMonitor who existing monitor =>
    simp only [proceed] at h
    split_ifs at h
    exact Option.some.inj h ▸ runs_closeExisting hp rfl existing
  | closingExisting who existing =>
    simp only [proceed] at h
    split_ifs at h
    exact Option.some.inj h ▸ runs_register hp rfl
  | firingEstablished who conn => exact Option.some.inj h ▸ (Runs.refl task s).finish _
  | monitoring conn =>
    simp only [proceed] at h
    split_ifs at h
    exact Option.some.inj h ▸ runs_monitorConnection hp rfl conn
  | firingLost reason =>
    obtain rfl := Option.some.inj h
    split_ifs
    · exact (runs_scheduleReconnect s task).finish _
    · exact (Runs.refl task s).finish _
  | removing => exact Option.some.inj h ▸ runs_disconnect hp rfl
  | adding =>
    obtain rfl := Option.some.inj h
    have hspawn : Runs task s (s.spawn (.connecting .eager)) :=
      runs_spawn rfl id nofun rfl (.inl rfl) (.inl rfl) (.inl rfl)
    exact hspawn.finish _
  | cancellingReconnect loop =>
    simp only [proceed] at h
    split_ifs at h
    exact Option.some.inj h ▸ runs_discard hp rfl
  | disconnecting conn =>
    simp only [proceed] at h
    split_ifs at h
    exact Option.some.inj h ▸ runs_dropMonitor hp rfl
  | cancellingMonitor monitor =>
    simp only [proceed] at h
    split_ifs at h
    exact Option.some.inj h ▸ (Runs.refl task s).finish _
  | stopping tasks =>
    simp only [proceed] at h
    split_ifs at h
    exact Option.some.inj h ▸ runs_closeAll hp rfl
  | closingAll conn expired =>
    simp only [proceed] at h
    split_ifs at h
    · exact Option.some.inj h ▸ runs_force hp rfl
    · exact Option.some.inj h ▸ runs_clear s task
  | forcing conn =>
    simp only [proceed] at h
    split_ifs at h
    exact Option.some.inj h ▸ runs_clear s task
  | finished result => cases h

theorem runs_interrupt : Runs task s (s.interrupt task p) := by
  have hfinish : Runs task s (s.goto task (.finished .cancelled)) := (Runs.refl task s).finish _
  have hclosing : ∀ conn,
    Runs task s ((s.move conn .closeCancelled).goto task (.finished .cancelled)) :=
    fun conn ↦ (runs_move s task conn _).finish _
  have hunflagged : Runs task s { s with thrown := s.thrown.filter fun t ↦ t ≠ task } :=
    runs_tables rfl id (.inr rfl) (.inr rfl) (.inr rfl)
  cases p with
  | awaiting caller pending owner => exact runs_awaited hp rfl pending owner _
  | sleeping attempt => exact runs_endLoop s task _
  | awaitingMonitor who existing monitor | cancellingReconnect loop | cancellingMonitor monitor
    | stopping tasks =>
    exact hunflagged
  | closingExisting who conn | disconnecting conn =>
    simp only [interrupt]
    split_ifs
    · exact hclosing conn
    · exact hunflagged
  | closingAll conn expired =>
    cases conn with
    | none => exact hfinish
    | some conn =>
      simp only [interrupt]
      split_ifs
      · exact hclosing conn
      · exact hfinish
  | forcing conn =>
    simp only [interrupt]
    split_ifs
    · exact hclosing conn
    · exact hfinish
  | _ => exact hfinish

end

theorem exists_cancelAll (tasks : List ℕ) (s : SiloLink) :
    ∃ thrown asked, tasks.foldl cancel s = { s with thrown := thrown, asked := asked } := by
  induction tasks generalizing s with
  | nil => exact ⟨_, _, rfl⟩
  | cons t tasks ih =>
    obtain ⟨thrown, asked, h⟩ := exists_cancel s t
    obtain ⟨thrown', asked', h'⟩ := ih { s with thrown := thrown, asked := asked }
    exact ⟨thrown', asked', by rw [List.foldl_cons, h, h']⟩

theorem runs_stop (s : SiloLink) (task : ℕ) : Runs task s s.stop := by
  unfold stop
  split_ifs
  · exact runs_spawn rfl id nofun rfl (.inl rfl) (.inl rfl) (.inl rfl)
  · obtain ⟨thrown, asked, h⟩ :=
      exists_cancelAll s.backgroundTasks { s with stopped := true, active := false }
    rw [h]
    exact runs_spawn (q := .stopping s.backgroundTasks) rfl (fun _ ↦ rfl) (fun _ ↦ rfl) rfl
      (.inl rfl) (.inl rfl) (.inl rfl)

/-- A step runs the code of one task, if of any; other tasks may only be added. -/
theorem step_runs {e : LinkEvent} (h : s.step e = some s')
    (htask : ∀ t, e.task = some t → t = task) : Runs task s s' := by
  cases e with
  | connect =>
    exact Option.some.inj h ▸ runs_spawn rfl id nofun rfl (.inl rfl) (.inl rfl) (.inl rfl)
  | acceptInbound =>
    obtain rfl := Option.some.inj h
    refine runs_spawn rfl id ?_ ?_ (.inl rfl) (.inl rfl) (.inl rfl)
    · split_ifs <;> nofun
    · split_ifs <;> rfl
  | disconnect =>
    exact Option.some.inj h ▸ runs_spawn rfl id nofun rfl (.inl rfl) (.inl rfl) (.inl rfl)
  | updateActiveSilos included =>
    obtain rfl := Option.some.inj h
    refine runs_spawn rfl id ?_ ?_ (.inl rfl) (.inl rfl) (.inl rfl)
    · split_ifs <;> nofun
    · split_ifs <;> rfl
  | stop => exact Option.some.inj h ▸ runs_stop s task
  | cancel t =>
    simp only [step] at h
    split_ifs at h
    exact Option.some.inj h ▸ runs_cancel s task t
  | connection conn e =>
    simp only [step] at h
    split_ifs at h
    obtain ⟨c, -, rfl⟩ := Option.map_eq_some_iff.mp h
    exact runs_tables rfl id (.inr rfl) (.inr rfl) (.inr rfl)
  | openFailed t =>
    obtain rfl := htask t rfl
    simp only [step] at h
    split at h
    · exact Option.some.inj h ▸ (Runs.refl t s).finish _
    · cases h
  | handshakeFailed t error =>
    obtain rfl := htask t rfl
    simp only [step] at h
    split at h
    · next who hp =>
      obtain rfl := Option.some.inj h
      have hsame : Runs t s { s with rejected := s.rejected || decide (who = Installer.dial ∧
        error = ConnectError.rejected) } :=
        runs_tables rfl id (.inr rfl) (.inr rfl) (.inr rfl)
      exact hsame.goto_alone hp (.inr rfl) rfl
    · cases h
  | unexpected t =>
    obtain rfl := htask t rfl
    simp only [step] at h
    split at h
    · exact Option.some.inj h ▸ (Runs.refl t s).finish _
    · cases h
  | timeout t =>
    obtain rfl := htask t rfl
    simp only [step] at h
    split at h
    · next tasks hp =>
      split_ifs at h
      exact Option.some.inj h ▸ runs_overdue hp rfl
    · next conn hp =>
      split at h
      · next conn _ => exact Option.some.inj h ▸ (Runs.refl t s).close_goto hp conn _ (.inr rfl) rfl
      · exact Option.some.inj h ▸ (Runs.refl t s).goto_alone hp (.inr rfl) rfl
    · cases h
  | resume t =>
    obtain rfl := htask t rfl
    simp only [step] at h
    split at h
    · cases h
    · cases h
    · next p _ hp =>
      split_ifs at h
      · exact Option.some.inj h ▸ runs_interrupt hp
      · exact runs_proceed hp h

theorem typed_new (localSilo remote : SiloAddress) (options : ConnectionOptions) :
    (new localSilo remote options).Typed :=
  ⟨nofun, nofun, nofun, fun _ _ hp ↦ absurd (List.mem_of_getElem? hp) List.not_mem_nil,
    fun _ _ hp ↦ absurd (List.mem_of_getElem? hp) List.not_mem_nil⟩

theorem Typed.step {e : LinkEvent} (hs : s.Typed) (h : s.step e = some s') : s'.Typed := by
  cases he : e.task with
  | none => exact (show Runs 0 s s' from step_runs h fun t ht ↦ by rw [he] at ht; cases ht).typed hs
  | some t => exact (step_runs h fun u hu ↦ (Option.some.inj (he.symm.trans hu)).symm).typed hs

theorem stopped_step {e : LinkEvent} (h : s.step e = some s') (hs : s.stopped = true) :
    s'.stopped = true := by
  cases he : e.task with
  | none =>
    exact (show Runs 0 s s' from step_runs h fun t ht ↦ by rw [he] at ht; cases ht).stopped hs
  | some t => exact (step_runs h fun u hu ↦ (Option.some.inj (he.symm.trans hu)).symm).stopped hs

/-- What touches no connection, does not make the silo wanted and brings no task to a phase of a
kind `C`. -/
structure Inert (C : LinkPhase → Prop) (s s' : SiloLink) : Prop where
  connection : s'.connection = s.connection
  conns : s'.conns = s.conns
  stopped : s'.stopped = s.stopped
  stopReturned : s'.stopReturned = s.stopReturned
  active : s'.active = true → s.active = true
  rejected : s.rejected = true → s'.rejected = true
  thrown : ∀ t ∈ s.thrown, t ∈ s'.thrown
  critical : ∀ (u : ℕ) p, C p → s'.tasks[u]? = some p → s.tasks[u]? = some p

theorem thrown_cancelTask (bound : ℕ) (s : SiloLink) (task : ℕ) :
    ∀ t ∈ s.thrown, t ∈ (cancelTask bound s task).thrown := by
  induction bound generalizing s task with
  | zero => exact fun _ h ↦ h
  | succ bound ih =>
    unfold cancelTask
    split_ifs
    · exact fun _ h ↦ h
    · dsimp only
      split
      · exact fun _ h ↦ h
      · split
        · exact ih { s with asked := task :: s.asked } _
        · split
          · exact fun _ h ↦ h
          · exact fun t h ↦ List.mem_cons_of_mem task h

section

variable {C : LinkPhase → Prop}

theorem Inert.refl (s : SiloLink) : Inert C s s :=
  ⟨rfl, rfl, rfl, rfl, id, id, fun _ h ↦ h, fun _ _ _ h ↦ h⟩

theorem Inert.trans (h : Inert C s s') (h' : Inert C s' s'') : Inert C s s'' where
  connection := h'.connection.trans h.connection
  conns := h'.conns.trans h.conns
  stopped := h'.stopped.trans h.stopped
  stopReturned := h'.stopReturned.trans h.stopReturned
  active ha := h.active (h'.active ha)
  rejected hr := h'.rejected (h.rejected hr)
  thrown t ht := h'.thrown t (h.thrown t ht)
  critical u p hC hp := h.critical u p hC (h'.critical u p hC hp)

theorem inert_same (hconnection : s'.connection = s.connection) (hconns : s'.conns = s.conns)
    (hstopped : s'.stopped = s.stopped) (hreturned : s'.stopReturned = s.stopReturned)
    (hactive : s'.active = true → s.active = true)
    (hrejected : s.rejected = true → s'.rejected = true) (hthrown : s'.thrown = s.thrown)
    (htasks : s'.tasks = s.tasks) :
    Inert C s s' :=
  ⟨hconnection, hconns, hstopped, hreturned, hactive, hrejected, fun _ h ↦
    hthrown ▸ h, fun _ _ _ h ↦ htasks ▸ h⟩

theorem Inert.spawn (h : Inert C s'' s) (hq : ¬ C q) : Inert C s'' (s.spawn q) := by
  refine h.trans ⟨rfl, rfl, rfl, rfl, id, id, fun _ h ↦
    h, fun u p hC hp ↦ (getElem?_grown.mp hp).resolve_right ?_⟩
  rintro ⟨-, rfl⟩
  exact hq hC

theorem inert_cancel (s : SiloLink) (t : ℕ) : Inert C s (s.cancel t) := by
  have hthrown : ∀ v ∈ s.thrown, v ∈ (s.cancel t).thrown := thrown_cancelTask _ s t
  obtain ⟨thrown, asked, h⟩ := exists_cancel s t
  rw [h] at hthrown ⊢
  exact ⟨rfl, rfl, rfl, rfl, id, id, hthrown, fun _ _ _ h ↦ h⟩

theorem Inert.goto (h : Inert C s'' s) (hq : ¬ C q) : Inert C s'' (s.goto task q) := by
  refine h.trans ⟨rfl, rfl, rfl, rfl, id, id, fun _ h ↦ h, fun u p hC hp ↦ ?_⟩
  change (s.tasks.set task q)[u]? = some p at hp
  by_cases hu : task = u
  · rw [hu, List.getElem?_set_self'] at hp
    obtain ⟨_, -, rfl⟩ := Option.map_eq_some_iff.mp hp
    exact absurd hC hq
  · rw [List.getElem?_set_ne hu] at hp
    exact hp

variable (hC : ∀ p, C p → p.isOrdinary = false)
include hC

theorem Inert.ordinary (h : Inert C s'' s) (hq : q.isOrdinary = true) :
    Inert C s'' (s.goto task q) := by
  refine h.goto fun hcritical ↦ ?_
  rw [hC q hcritical] at hq
  cases hq

theorem inert_endLoop (result : LinkEnd) : Inert C s (s.endLoop task result) := by
  have htable : ∀ entry,
    Inert C s ({ s with reconnectTask := entry }.goto task (.finished result)) := by
    intro entry
    have hsame : Inert C s { s with reconnectTask := entry } :=
      inert_same rfl rfl rfl rfl id id rfl rfl
    exact hsame.ordinary hC rfl
  exact htable _

theorem inert_scheduleReconnect : Inert C s s.scheduleReconnect := by
  unfold scheduleReconnect
  split
  · exact .refl s
  · have hsame : Inert C s { s with reconnectTask := some s.tasks.length } :=
      inert_same rfl rfl rfl rfl id id rfl rfl
    refine hsame.spawn fun hcritical ↦ ?_
    cases hC _ hcritical

theorem inert_reconnectLoop (attempt : ℕ) : Inert C s (s.reconnectLoop task attempt) := by
  unfold reconnectLoop
  split_ifs
  · exact (Inert.refl s).ordinary hC rfl
  · exact inert_endLoop hC _
  · exact inert_endLoop hC _

theorem inert_connected (result : LinkEnd) : Inert C s (s.connected task result caller) := by
  have hfinish : ∀ result, Inert C s (s.goto task (.finished result)) :=
    fun _ ↦ (Inert.refl s).ordinary hC rfl
  cases caller with
  | user => exact hfinish _
  | eager =>
    simp only [connected]
    split
    · exact hfinish _
    · split_ifs
      · exact (inert_scheduleReconnect hC).ordinary hC rfl
      · exact hfinish _
    · exact hfinish _
    · exact hfinish _
  | loop attempt =>
    simp only [connected]
    split
    · exact inert_reconnectLoop hC _
    · exact inert_reconnectLoop hC _
    · exact inert_endLoop hC _
    · exact inert_endLoop hC _
    · exact inert_endLoop hC _

theorem inert_connect (hdial : s.stopped = false → ¬ C (.handshaking .dial)) :
    Inert C s (s.connect task caller) := by
  unfold connect
  split_ifs with hstopped
  · exact inert_connected hC _
  · split
    · exact inert_connected hC _
    · split
      · exact (Inert.refl s).ordinary hC rfl
      · have hsame : Inert C s { s with pendingConnect := some s.tasks.length } :=
          inert_same rfl rfl rfl rfl id id rfl rfl
        exact (hsame.spawn (hdial (Bool.eq_false_iff.mpr hstopped))).ordinary hC rfl

theorem inert_awaited (pending : ℕ) (owner : Bool) (result : LinkEnd) :
    Inert C s (s.awaited task caller pending owner result) := by
  have htable : ∀ entry,
    Inert C s ({ s with pendingConnect := entry }.connected task result caller) := by
    intro entry
    have hsame : Inert C s { s with pendingConnect := entry } :=
      inert_same rfl rfl rfl rfl id id rfl rfl
    exact hsame.trans (inert_connected hC result)
  exact htable _

theorem inert_dropMonitor : Inert C s (s.dropMonitor task) := by
  have hpop : Inert C s { s with monitorTask := none } := inert_same rfl rfl rfl rfl id id rfl rfl
  unfold dropMonitor
  dsimp only
  split
  · exact (hpop.trans (inert_cancel _ _)).ordinary hC rfl
  · exact hpop.ordinary hC rfl

end

end SiloLink

end Pyleans
