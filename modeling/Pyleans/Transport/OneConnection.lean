import Pyleans.Transport.LinkTasks

namespace Pyleans

open Library

/-- From the time an install has popped the connection it replaces to the time it registers its
own. -/
def LinkPhase.isWindow : LinkPhase → Bool
  | .awaitingMonitor _ _ _ | .closingExisting _ _ => true
  | _ => false

def LinkPhase.Critical (p : LinkPhase) : Prop := p.isWindow = true ∨ p.role = some .stop

/-- A connection that was started and whose `close`, once begun, is under way or done. -/
inductive SiloConnection.Proper (c : SiloConnection) : Prop
  | running : c.state = .running → c.stage = none → Proper c
  | closing (stage : CloseStage) : c.state = .closing → c.stage = some stage → Proper c
  | closed : c.state = .closed → c.stage = none → Proper c

namespace SiloConnection

variable {c c' : SiloConnection} {e : ConnectionEvent} {reason : CloseReason} {stage : CloseStage}

theorem Proper.close (h : c.Proper) (hstep : c.step (.close reason) = some c') :
    c'.Proper ∧ c'.state ≠ .running := by
  simp only [SiloConnection.step] at hstep
  split_ifs at hstep with hclosing
  · obtain rfl := Option.some.inj hstep
    refine ⟨h, fun hrunning ↦ ?_⟩
    rw [hrunning] at hclosing
    simp at hclosing
  · obtain rfl := Option.some.inj hstep
    exact ⟨.closing _ rfl rfl, by simp⟩

theorem Proper.closeStep (h : c.Proper) (hstage : c.stage = some stage) :
    (c.closeStep stage).Proper ∧ (c.closeStep stage).state ≠ .running := by
  have hclosing : c.state = .closing := by
    cases h with
    | running _ hnone | closed _ hnone =>
      rw [hnone] at hstage
      cases hstage
    | closing _ hclosing => exact hclosing
  have hon : ∀ c' : SiloConnection, c'.state = c.state → ∀ stage, c'.stage = some stage →
      c'.Proper ∧ c'.state ≠ .running := by
    intro c' hsame stage hstage
    rw [hclosing] at hsame
    refine ⟨.closing stage hsame hstage, fun hrunning ↦ ?_⟩
    rw [hrunning] at hsame
    cases hsame
  cases stage with
  | background reason => cases reason <;> exact hon _ rfl _ rfl
  | drain | writer reason | readTask reason => exact hon _ rfl _ rfl
  | handlers reason => exact ⟨.closed rfl rfl, nofun⟩

/-- Unless its `close` is broken off, a connection stays proper, and it runs only if it ran
before. -/
theorem Proper.step (h : c.Proper) (hstep : c.step e = some c') (he : e ≠ .closeCancelled) :
    c'.Proper ∧ (c'.state = .running → c.state = .running) := by
  cases hstate : e.isOfState with
  | false =>
    obtain ⟨ops, hdoes⟩ := step_does hstep
    obtain ⟨hsame, hstage⟩ := hdoes.stage hstate
    refine ⟨?_, fun hrunning ↦ hsame ▸ hrunning⟩
    cases h with
    | running hs hst => exact .running (hsame.trans hs) (hstage.trans hst)
    | closing stage hs hst => exact .closing stage (hsame.trans hs) (hstage.trans hst)
    | closed hs hst => exact .closed (hsame.trans hs) (hstage.trans hst)
  | true =>
    cases e with
    | start =>
      simp only [SiloConnection.step] at hstep
      split_ifs at hstep with hnew
      · cases h with
        | running hs | closing _ hs | closed hs =>
          rw [hnew] at hs
          cases hs
      · obtain rfl := Option.some.inj hstep
        exact ⟨h, id⟩
    | close reason =>
      obtain ⟨hproper, hstopped⟩ := h.close hstep
      exact ⟨hproper, fun hrunning ↦ absurd hrunning hstopped⟩
    | closeStep =>
      obtain ⟨stage, hstage, rfl⟩ := Option.map_eq_some_iff.mp hstep
      obtain ⟨hproper, hstopped⟩ := h.closeStep hstage
      exact ⟨hproper, fun hrunning ↦ absurd hrunning hstopped⟩
    | closeCancelled => exact absurd rfl he
    | _ => cases hstate

end SiloConnection

namespace SiloLink

/-- What holds of the connections when installs do not overlap. -/
structure OneInstall (s : SiloLink) : Prop where
  proper : ∀ c ∈ s.conns, c.Proper
  running : ∀ conn c, s.conns[conn]? = some c → c.state = .running →
    s.connection = some conn ∨ ∃ (u : ℕ) (who : _) (monitor : _),
      s.tasks[u]? = some (.awaitingMonitor who conn monitor)
  window : ∀ (u : ℕ) p, s.tasks[u]? = some p → p.isWindow = true →
    s.connection = none ∧ ∀ (v : ℕ) q, s.tasks[v]? = some q → q.isWindow = true → v = u
  unstopped : ∀ (u : ℕ) p, s.tasks[u]? = some p → p.role ≠ some .stop

variable {s s' s'' : SiloLink} {task t conn existing : ℕ} {p q : LinkPhase} {who : Installer}
  {caller : Caller}

theorem not_ordinary_of_critical (p : LinkPhase) (h : p.Critical) : p.isOrdinary = false := by
  cases p with
  | connecting caller | awaiting caller _ _ => rcases h with h | h <;> cases caller <;> cases h
  | _ => first | rfl | (rcases h with h | h <;> cases h)

theorem OneInstall.inert (h : s.OneInstall) (hinert : Inert LinkPhase.Critical s s')
    (hkept : ∀ (u : ℕ) q, s.tasks[u]? = some q → q.isWindow = true → s'.tasks[u]? = some q) :
      s'.OneInstall where
  proper := hinert.conns ▸ h.proper
  running conn c hc hrunning := by
    rw [hinert.conns] at hc
    rw [hinert.connection]
    exact (h.running conn c hc hrunning).imp_right fun ⟨u, who, monitor, hu⟩ ↦
      ⟨u, who, monitor, hkept u _ hu rfl⟩
  window u p hp hwindow := by
    rw [hinert.connection]
    obtain ⟨hnone, hone⟩ := h.window u p (hinert.critical u p (.inl hwindow) hp) hwindow
    exact ⟨hnone, fun v q hq hwindow ↦ hone v q (hinert.critical v q (.inl hwindow) hq) hwindow⟩
  unstopped u p hp hrole := h.unstopped u p (hinert.critical u p (.inr hrole) hp) hrole

/-- The code of a task that is in no window. -/
theorem OneInstall.code (h : s.OneInstall) (hp : s.tasks[task]? = some p)
    (hidle : p.isWindow = false) (hruns : Runs task s s') (hinert : Inert LinkPhase.Critical s s') :
    s'.OneInstall := by
  refine h.inert hinert fun u q hq hwindow ↦ hruns.others u q ?_ hq
  rintro rfl
  rw [Option.some.inj (hp.symm.trans hq), hwindow] at hidle
  cases hidle

theorem OneInstall.spawn (h : s.OneInstall) (hq : ¬ q.Critical) : (s.spawn q).OneInstall :=
  h.inert ((Inert.refl s).spawn hq) fun _ _ hr _ ↦ getElem?_grown.mpr (.inl hr)

theorem OneInstall.same (h : s.OneInstall) (hconnection : s'.connection = s.connection)
    (hconns : s'.conns = s.conns) (htasks : s'.tasks = s.tasks) : s'.OneInstall := by
  refine ⟨hconns ▸ h.proper, ?_, ?_, htasks ▸ h.unstopped⟩
  · rw [hconnection, hconns, htasks]
    exact h.running
  · rw [hconnection, htasks]
    exact h.window

/-- `close` of the only connection that may be running. -/
theorem proper_close (reason : CloseReason) (hproper : ∀ c ∈ s.conns, c.Proper)
    (hone : ∀ (i : ℕ) c, s.conns[i]? = some c → c.state = .running → i = conn) :
    (∀ c ∈ (s.move conn (.close reason)).conns, c.Proper) ∧
      ∀ (i : ℕ) c, (s.move conn (.close reason)).conns[i]? = some c → c.state ≠ .running := by
  have hconns : ∀ (i : ℕ) c, (s.move conn (.close reason)).conns[i]? = some c → c.Proper ∧
    c.state ≠ .running := by
    intro i c hc
    rcases getElem?_move hc with ⟨hc, hother⟩ | ⟨-, c₀, hc₀, hstep⟩
    · refine ⟨hproper c (List.mem_of_getElem? hc), fun hstate ↦ ?_⟩
      have hnone := hother (hone i c hc hstate)
      simp only [SiloConnection.step] at hnone
      split_ifs at hnone
    · exact (hproper c₀ (List.mem_of_getElem? hc₀)).close hstep
  refine ⟨fun c hc ↦ ?_, fun i c hc ↦ (hconns i c hc).2⟩
  obtain ⟨i, hi⟩ := List.mem_iff_getElem?.mp hc
  exact (hconns i c hi).1

theorem role_ne_stop (who : Installer) : some who.role ≠ some TaskRole.stop := by
  cases who <;> nofun

theorem oneInstall_goto (hp : s.tasks[task]? = some p) (hproper : ∀ c ∈ s.conns, c.Proper)
    (hrunning : ∀ (i : ℕ) c, s.conns[i]? = some c → c.state = .running →
      s.connection = some i ∨ ∃ who monitor, q = .awaitingMonitor who i monitor)
    (hwindow : q.isWindow = true → s.connection = none) (hrole : q.role ≠ some .stop)
    (halone : ∀ (u : ℕ) r, u ≠ task → s.tasks[u]? = some r → ¬ r.Critical) :
      (s.goto task q).OneInstall := by
  have hself : (s.goto task q).tasks[task]? = some q := (getElem?_replaced hp).mpr (.inl ⟨rfl, rfl⟩)
  have hplace : ∀ (u : ℕ) r, (s.goto task q).tasks[u]? = some r → r.Critical →
      u = task ∧ r = q := by
    intro u r hu hr
    rcases (getElem?_replaced hp).mp hu with ⟨rfl, rfl⟩ | ⟨hne, hu⟩
    · exact ⟨rfl, rfl⟩
    · exact absurd hr (halone u r hne hu)
  refine ⟨hproper, fun i c hc hstate ↦
    ?_, fun u r hu hr ↦ ⟨?_, fun v r' hv hr' ↦ ?_⟩, fun u r hu hr ↦ ?_⟩
  · refine (hrunning i c hc hstate).imp_right fun ⟨who, monitor, he⟩ ↦ ⟨task, who, monitor, ?_⟩
    rw [hself, he]
  · obtain ⟨-, rfl⟩ := hplace u r hu (.inl hr)
    exact hwindow hr
  · rw [(hplace v r' hv (.inl hr')).1, (hplace u r hu (.inl hr)).1]
  · obtain ⟨-, rfl⟩ := hplace u r hu (.inr hr)
    exact hrole hr

/-- A new connection while no other runs and no other install is in its window. -/
theorem oneInstall_register (hp : s.tasks[task]? = some p) (hproper : ∀ c ∈ s.conns, c.Proper)
    (hnone : ∀ (i : ℕ) c, s.conns[i]? = some c → c.state ≠ .running)
    (halone : ∀ (u : ℕ) q, u ≠ task → s.tasks[u]? = some q → ¬ q.Critical) :
      (s.register task who).OneInstall := by
  refine oneInstall_goto (getElem?_grown.mpr (.inl hp)) (fun c hc ↦ ?_)
    (fun i c hc hstate ↦ .inl ?_) nofun
    (role_ne_stop who) fun u q hne hu ↦ ?_
  · rcases List.mem_append.mp hc with hc | hc
    · exact hproper c hc
    · rw [List.mem_singleton.mp hc]
      exact .running rfl rfl
  · rcases getElem?_grown.mp hc with hc | ⟨rfl, -⟩
    · exact absurd hstate (hnone i c hc)
    · rfl
  · rcases getElem?_grown.mp hu with hu | ⟨-, rfl⟩
    · exact halone u q hne hu
    · rintro (h | h) <;> cases h

/-- A connection that is out of the table is closed; then the new one may follow. -/
theorem oneInstall_closeExisting (hp : s.tasks[task]? = some p) (hproper : ∀ c ∈ s.conns, c.Proper)
    (hpopped : s.connection = none)
    (hone : ∀ (i : ℕ) c, s.conns[i]? = some c → c.state = .running → i = existing)
    (halone : ∀ (u : ℕ) q, u ≠ task → s.tasks[u]? = some q → ¬ q.Critical) :
      (s.closeExisting task who existing).OneInstall := by
  unfold closeExisting
  split_ifs with hclosing
  · refine oneInstall_register hp hproper (fun i c hc hstate ↦ ?_) halone
    obtain rfl := hone i c hc hstate
    obtain ⟨c', hc', hclosing⟩ := isClosing_iff.mp hclosing
    obtain rfl := Option.some.inj (hc.symm.trans hc')
    exact SiloConnection.not_isClosing hstate hclosing
  · obtain ⟨hproper, hnone⟩ := proper_close .normal hproper hone
    obtain ⟨conns, hmove⟩ := exists_move s existing (.close .normal)
    rw [hmove] at hproper hnone ⊢
    exact oneInstall_goto (s := { s with conns := conns }) hp hproper
      (fun i c hc hstate ↦ absurd hstate (hnone i c hc))
      (fun _ ↦ hpopped) (role_ne_stop who) halone

theorem OneInstall.alone (h : s.OneInstall) (hp : s.tasks[task]? = some p)
    (hwindow : p.isWindow = true) :
    ∀ (u : ℕ) q, u ≠ task → s.tasks[u]? = some q → ¬ q.Critical := by
  rintro u q hne hu (hq | hq)
  · exact hne ((h.window task p hp hwindow).2 u q hu hq)
  · exact h.unstopped u q hu hq

theorem OneInstall.not_critical (h : s.OneInstall) (hp : s.tasks[task]? = some p)
    (hwindow : p.isWindow = false) :
    ¬ p.Critical := by
  rintro (hq | hq)
  · rw [hwindow] at hq
    cases hq
  · exact h.unstopped task p hp hq

/-- An install that comes to its duplicate check while no other is in its window. -/
theorem OneInstall.installConnection (h : s.OneInstall)
    (hp : s.tasks[task]? = some (.handshaking who)) (hfree : ∀ q ∈ s.tasks, q.isWindow = false) :
    (s.installConnection task who).OneInstall := by
  have hidle : ∀ (u : ℕ) q, s.tasks[u]? = some q → ¬ q.Critical :=
    fun u q hu ↦ h.not_critical hu (hfree q (List.mem_of_getElem? hu))
  have halone : ∀ (u : ℕ) q, u ≠ task → s.tasks[u]? = some q → ¬ q.Critical := fun u q _ ↦ hidle u q
  have htable : ∀ (i : ℕ) c, s.conns[i]? = some c → c.state = .running → s.connection = some i := by
    intro i c hc hstate
    refine (h.running i c hc hstate).resolve_right ?_
    rintro ⟨u, who', monitor, hu⟩
    exact hidle u _ hu (.inl rfl)
  unfold SiloLink.installConnection
  split
  · next hnone =>
    refine oneInstall_register hp h.proper (fun i c hc hstate ↦ ?_) halone
    obtain ⟨c', hc', hclosed⟩ := isClosed_iff.mp (getConnection_eq_none.mp hnone
      i (htable i c hc hstate))
    obtain rfl := Option.some.inj (hc.symm.trans hc')
    rw [hstate] at hclosed
    cases hclosed
  · next existing hexisting =>
    have hconnection := (getConnection_eq_some.mp hexisting).1
    have hone : ∀ (i : ℕ) c, s.conns[i]? = some c → c.state = .running → i = existing :=
      fun i c hc hstate ↦ Option.some.inj ((htable i c hc hstate).symm.trans hconnection)
    split_ifs
    · exact h.code hp rfl ((Runs.refl task s).goto_alone hp (.inr rfl) rfl)
        ((Inert.refl s).goto (by rintro (h | h) <;> cases who <;> cases h))
    · dsimp only
      split
      · next monitor _ =>
        obtain ⟨thrown, asked, hcancel⟩ :=
          exists_cancel { s with connection := none, initiator := none, monitorTask := none }
            monitor
        rw [hcancel]
        refine oneInstall_goto
          (s := { s with
            connection := none, initiator := none, monitorTask := none, thrown, asked })
          hp h.proper (fun i c hc hstate ↦ .inr ?_) (fun _ ↦ rfl) (role_ne_stop who) halone
        rw [hone i c hc hstate]
        exact ⟨who, monitor, rfl⟩
      · exact oneInstall_closeExisting
          (s := { s with connection := none, initiator := none, monitorTask := none })
          hp h.proper rfl hone halone

theorem OneInstall.none_critical (h : s.OneInstall) (hconnection : s.connection = some conn) :
    ∀ (u : ℕ) q, s.tasks[u]? = some q → ¬ q.Critical := by
  rintro u q hu (hq | hq)
  · have hnone := (h.window u q hu hq).1
    rw [hconnection] at hnone
    cases hnone
  · exact h.unstopped u q hu hq

theorem OneInstall.only_running (h : s.OneInstall) (hconnection : s.connection = some conn) :
    ∀ (i : ℕ) c, s.conns[i]? = some c → c.state = .running → i = conn := by
  intro i c hc hstate
  rcases h.running i c hc hstate with hi | ⟨u, who, monitor, hu⟩
  · exact Option.some.inj (hi.symm.trans hconnection)
  · exact absurd (.inl rfl) (h.none_critical hconnection u _ hu)

theorem OneInstall.pop (h : s.OneInstall) (hconnection : s.connection = some conn)
    (hstate : ∀ c, s.conns[conn]? = some c → c.state ≠ .running) (hconns : s'.conns = s.conns)
    (htasks : s'.tasks = s.tasks) :
    s'.OneInstall := by
  have hidle := h.none_critical hconnection
  refine ⟨hconns ▸ h.proper, fun i c hc hrunning ↦ ?_, fun u q hu hq ↦ ?_, htasks ▸ h.unstopped⟩
  · rw [hconns] at hc
    obtain rfl := h.only_running hconnection i c hc hrunning
    exact absurd hrunning (hstate c hc)
  · exact absurd (.inl hq) (hidle u q (htasks ▸ hu))

theorem OneInstall.dropMonitor (h : s.OneInstall) (hp : s.tasks[task]? = some p)
    (hrole : p.role = some .update) (hidle : p.isWindow = false) :
    (s.dropMonitor task).OneInstall :=
  h.code hp hidle (runs_dropMonitor hp hrole) (inert_dropMonitor not_ordinary_of_critical)

theorem OneInstall.discard (h : s.OneInstall) (hp : s.tasks[task]? = some p)
    (hrole : p.role = some .update) (hidle : p.isWindow = false) : (s.discard task).OneInstall := by
  unfold SiloLink.discard
  split
  · have hpop : OneInstall { s with active := false } := h.same rfl rfl rfl
    exact hpop.dropMonitor hp hrole hidle
  · next conn hconnection =>
    dsimp only
    split_ifs with hclosing
    · have hpop : OneInstall { s with active := false, connection := none, initiator := none } := by
        refine h.pop hconnection (fun c hc hstate ↦ ?_) rfl rfl
        obtain ⟨c', hc', hclosing⟩ := isClosing_iff.mp hclosing
        obtain rfl := Option.some.inj (hc.symm.trans hc')
        exact SiloConnection.not_isClosing hstate hclosing
      exact hpop.dropMonitor hp hrole hidle
    · obtain ⟨hproper, hnone⟩ :=
        proper_close (s := { s with active := false, connection := none, initiator := none })
        .normal h.proper (h.only_running hconnection)
      obtain ⟨conns, hmove⟩ :=
        exists_move { s with active := false, connection := none, initiator := none } conn
          (.close .normal)
      rw [hmove] at hproper hnone ⊢
      exact oneInstall_goto (s :=
        { s with active := false, connection := none, initiator := none, conns }) hp hproper
        (fun i c hc hstate ↦ absurd hstate (hnone i c hc)) nofun nofun fun u q _ ↦
          h.none_critical hconnection u q

theorem OneInstall.disconnect (h : s.OneInstall) (hp : s.tasks[task]? = some p)
    (hrole : p.role = some .update) (hidle : p.isWindow = false) :
    (s.disconnect task).OneInstall := by
  have hpop : OneInstall { s with reconnectTask := none } := h.same rfl rfl rfl
  unfold SiloLink.disconnect
  dsimp only
  split
  · next loop _ =>
    refine hpop.inert ((inert_cancel _ loop).goto (by rintro (h | h) <;> cases h))
      fun u q hq hwindow ↦ ?_
    obtain ⟨thrown, asked, hcancel⟩ := exists_cancel { s with reconnectTask := none } loop
    rw [hcancel]
    refine (getElem?_replaced hp).mpr (.inr ⟨?_, hq⟩)
    rintro rfl
    rw [Option.some.inj (hp.symm.trans hq), hwindow] at hidle
    cases hidle
  · exact hpop.discard hp hrole hidle

theorem OneInstall.monitorConnection (h : s.OneInstall) (hp : s.tasks[task]? = some p)
    (hrole : p.role = some .monitor) (hidle : p.isWindow = false)
    (hclosed : s.isClosed conn = true) :
      (s.monitorConnection task conn).OneInstall := by
  unfold SiloLink.monitorConnection
  split_ifs with hconnection
  · have hpop : OneInstall
        { s with connection := none, initiator := none, monitorTask := none } := by
      refine h.pop hconnection (fun c hc hstate ↦ ?_) rfl rfl
      obtain ⟨c', hc', hclosed⟩ := isClosed_iff.mp hclosed
      obtain rfl := Option.some.inj (hc.symm.trans hc')
      rw [hstate] at hclosed
      cases hclosed
    exact hpop.code hp hidle ((Runs.refl task _).goto_alone hp (.inr hrole.symm) rfl)
      ((Inert.refl _).goto (by rintro (h | h) <;> cases h))
  · exact h.code hp hidle ((Runs.refl task s).finish _)
      ((Inert.refl s).ordinary not_ordinary_of_critical rfl)

/-- What an install that is past its window does while no other is in its window. -/
theorem OneInstall.closeExisting (h : s.OneInstall) {monitor : ℕ}
    (hp : s.tasks[task]? = some (.awaitingMonitor who existing monitor)) :
    (s.closeExisting task who existing).OneInstall := by
  obtain ⟨hpopped, halone⟩ := h.window task _ hp rfl
  refine oneInstall_closeExisting hp h.proper hpopped (fun i c hc hstate ↦ ?_) (h.alone hp rfl)
  rcases h.running i c hc hstate with hi | ⟨u, who', monitor', hu⟩
  · rw [hpopped] at hi
    cases hi
  · obtain rfl := halone u _ hu rfl
    cases Option.some.inj (hp.symm.trans hu)
    rfl

theorem OneInstall.register (h : s.OneInstall)
    (hp : s.tasks[task]? = some (.closingExisting who existing)) :
    (s.register task who).OneInstall := by
  obtain ⟨hpopped, halone⟩ := h.window task _ hp rfl
  refine oneInstall_register hp h.proper (fun i c hc hstate ↦ ?_) (h.alone hp rfl)
  rcases h.running i c hc hstate with hi | ⟨u, who', monitor', hu⟩
  · rw [hpopped] at hi
    cases hi
  · obtain rfl := halone u _ hu rfl
    cases Option.some.inj (hp.symm.trans hu)

/-- An install begins only while no other has popped the connection it replaces
and not yet registered its own, no task is broken off while it waits for a
`close`, and `stop` is not called. -/
def InstallsAlone (s : SiloLink) : LinkEvent → Prop
  | .stop => False
  | .resume task =>
    match s.tasks[task]? with
    | some (.handshaking _) => task ∈ s.thrown ∨ ∀ q ∈ s.tasks, q.isWindow = false
    | some (.closingExisting _ conn) | some (.disconnecting conn) =>
      task ∉ s.thrown ∨ s.isInterruptible conn = false
    | _ => True
  | _ => True

instance (s : SiloLink) (e : LinkEvent) : Decidable (s.InstallsAlone e) := by
  unfold InstallsAlone
  rcases e with _ | _ <;> dsimp only
  case resume task =>
    rcases s.tasks[task]? with _ | p
    · exact .isTrue trivial
    · rcases p with _ | _ <;> dsimp only <;> infer_instance
  all_goals infer_instance

theorem OneInstall.proceed (h : s.OneInstall) (hp : s.tasks[task]? = some p)
    (hok : ∀ who, p = .handshaking who → ∀ q ∈ s.tasks, q.isWindow = false)
    (hstep : s.proceed task p = some s') : s'.OneInstall := by
  have hruns := runs_proceed hp hstep
  have hfinish : ∀ {result}, s' = s.goto task (.finished result) → p.isWindow = false →
    s'.OneInstall :=
    fun hs' hidle ↦ h.code hp hidle hruns
      (hs' ▸ (Inert.refl s).ordinary not_ordinary_of_critical rfl)
  have hconnect : ∀ {caller}, Inert LinkPhase.Critical s (s.connect task caller) :=
    inert_connect not_ordinary_of_critical fun _ ↦ by rintro (h | h) <;> cases h
  have hstopped : p.role ≠ some .stop := h.unstopped task p hp
  cases p with
  | connecting caller =>
    obtain rfl := Option.some.inj hstep
    exact h.code hp rfl hruns hconnect
  | reconnecting =>
    obtain rfl := Option.some.inj hstep
    exact h.code hp rfl hruns (inert_reconnectLoop not_ordinary_of_critical _)
  | sleeping attempt =>
    obtain rfl := Option.some.inj hstep
    refine h.code hp rfl hruns ?_
    split_ifs
    · exact hconnect
    · exact inert_endLoop not_ordinary_of_critical _
  | awaiting caller pending owner =>
    simp only [SiloLink.proceed] at hstep
    split at hstep
    · obtain rfl := Option.some.inj hstep
      exact h.code hp rfl hruns (inert_awaited not_ordinary_of_critical pending owner _)
    · cases hstep
  | handshaking who => exact Option.some.inj hstep ▸ h.installConnection hp (hok who rfl)
  | refusing who error => cases who <;> exact hfinish (Option.some.inj hstep).symm rfl
  | dropping who existing => exact hfinish (Option.some.inj hstep).symm rfl
  | awaitingMonitor who existing monitor =>
    simp only [SiloLink.proceed] at hstep
    split_ifs at hstep
    exact Option.some.inj hstep ▸ h.closeExisting hp
  | closingExisting who existing =>
    simp only [SiloLink.proceed] at hstep
    split_ifs at hstep
    exact Option.some.inj hstep ▸ h.register hp
  | firingEstablished who conn => exact hfinish (Option.some.inj hstep).symm rfl
  | monitoring conn =>
    simp only [SiloLink.proceed] at hstep
    split_ifs at hstep with hclosed
    exact Option.some.inj hstep ▸ h.monitorConnection hp rfl rfl hclosed
  | firingLost reason =>
    obtain rfl := Option.some.inj hstep
    refine h.code hp rfl hruns ?_
    split_ifs
    · exact (inert_scheduleReconnect not_ordinary_of_critical).ordinary not_ordinary_of_critical rfl
    · exact (Inert.refl s).ordinary not_ordinary_of_critical rfl
  | removing => exact Option.some.inj hstep ▸ h.disconnect hp rfl rfl
  | adding =>
    obtain rfl := Option.some.inj hstep
    have hspawn : Inert LinkPhase.Critical s (s.spawn (.connecting .eager)) :=
      (Inert.refl s).spawn (by rintro (h | h) <;> cases h)
    exact h.code hp rfl hruns (hspawn.ordinary not_ordinary_of_critical rfl)
  | cancellingReconnect loop =>
    simp only [SiloLink.proceed] at hstep
    split_ifs at hstep
    exact Option.some.inj hstep ▸ h.discard hp rfl rfl
  | disconnecting conn =>
    simp only [SiloLink.proceed] at hstep
    split_ifs at hstep
    exact Option.some.inj hstep ▸ h.dropMonitor hp rfl rfl
  | cancellingMonitor monitor =>
    simp only [SiloLink.proceed] at hstep
    split_ifs at hstep
    exact hfinish (Option.some.inj hstep).symm rfl
  | stopping tasks | closingAll conn expired | forcing conn => exact absurd rfl hstopped
  | finished result => cases hstep

/-- A cancelled task that is not waiting for a `close` that its cancellation ends. -/
theorem OneInstall.interrupt (h : s.OneInstall) (hp : s.tasks[task]? = some p)
    (hok : ∀ conn, (∃ who, p = .closingExisting who conn) ∨
      p = .disconnecting conn → s.isInterruptible conn = false) :
    (s.interrupt task p).OneInstall := by
  have hruns : Runs task s (s.interrupt task p) := runs_interrupt hp
  have hfinish : s.interrupt task p = s.goto task (.finished .cancelled) → p.isWindow = false →
    (s.interrupt task p).OneInstall :=
    fun hs' hidle ↦ h.code hp hidle hruns
      (hs' ▸ (Inert.refl s).ordinary not_ordinary_of_critical rfl)
  have hgoesOn : OneInstall { s with thrown := s.thrown.filter fun t ↦ t ≠ task } :=
    h.same rfl rfl rfl
  have hstopped : p.role ≠ some .stop := h.unstopped task p hp
  cases p with
  | awaiting caller pending owner =>
    exact h.code hp rfl hruns (inert_awaited not_ordinary_of_critical pending owner _)
  | sleeping attempt => exact h.code hp rfl hruns (inert_endLoop not_ordinary_of_critical _)
  | awaitingMonitor who existing monitor | cancellingReconnect loop | cancellingMonitor monitor =>
    exact hgoesOn
  | closingExisting who conn =>
    simp only [SiloLink.interrupt, hok conn (.inl ⟨who, rfl⟩)]
    exact hgoesOn
  | disconnecting conn =>
    simp only [SiloLink.interrupt, hok conn (.inr rfl)]
    exact hgoesOn
  | stopping tasks | closingAll conn expired | forcing conn => exact absurd rfl hstopped
  | _ => exact hfinish rfl rfl

theorem OneInstall.step {e : LinkEvent} (h : s.OneInstall) (hok : s.InstallsAlone e)
    (hstep : s.step e = some s') : s'.OneInstall := by
  cases e with
  | connect => exact Option.some.inj hstep ▸ h.spawn (by rintro (h | h) <;> cases h)
  | acceptInbound =>
    obtain rfl := Option.some.inj hstep
    refine h.spawn ?_
    split_ifs <;> rintro (h | h) <;> cases h
  | disconnect => exact Option.some.inj hstep ▸ h.spawn (by rintro (h | h) <;> cases h)
  | updateActiveSilos included =>
    obtain rfl := Option.some.inj hstep
    have hsame : OneInstall { s with active := included } := h.same rfl rfl rfl
    refine hsame.spawn ?_
    split_ifs <;> rintro (h | h) <;> cases h
  | stop => exact hok.elim
  | cancel t =>
    simp only [SiloLink.step] at hstep
    split_ifs at hstep
    obtain rfl := Option.some.inj hstep
    obtain ⟨thrown, asked, hcancel⟩ := exists_cancel s t
    rw [hcancel]
    exact h.same rfl rfl rfl
  | connection conn e =>
    simp only [SiloLink.step] at hstep
    split_ifs at hstep with hmanagers
    obtain ⟨c', hbind, rfl⟩ := Option.map_eq_some_iff.mp hstep
    obtain ⟨c, hc, hc'⟩ := Option.bind_eq_some_iff.mp hbind
    have hcancelled : e ≠ .closeCancelled := fun he ↦ hmanagers (he ▸ rfl)
    obtain ⟨hproper, hrunning⟩ := (h.proper c (List.mem_of_getElem? hc)).step hc' hcancelled
    refine ⟨fun d hd ↦ ?_, fun i d hd hstate ↦ ?_, h.window, h.unstopped⟩
    · rcases List.mem_or_eq_of_mem_set hd with hd | rfl
      · exact h.proper d hd
      · exact hproper
    · rcases (getElem?_replaced hc).mp hd with ⟨rfl, rfl⟩ | ⟨-, hd⟩
      · exact h.running i c hc (hrunning hstate)
      · exact h.running i d hd hstate
  | openFailed t =>
    have hruns : Runs t s s' := step_runs hstep fun _ ht ↦ (Option.some.inj ht).symm
    simp only [SiloLink.step] at hstep
    split at hstep
    · next hp =>
      obtain rfl := Option.some.inj hstep
      exact h.code hp rfl hruns ((Inert.refl s).ordinary not_ordinary_of_critical rfl)
    · cases hstep
  | handshakeFailed t error =>
    simp only [SiloLink.step] at hstep
    split at hstep
    · next who hp =>
      obtain rfl := Option.some.inj hstep
      have hsame : OneInstall { s with
          rejected :=
            s.rejected || decide (who = Installer.dial ∧ error = ConnectError.rejected) } :=
        h.same rfl rfl rfl
      refine hsame.code hp rfl ((Runs.refl t _).goto_alone hp (.inr rfl) rfl)
        ((Inert.refl _).goto ?_)
      rintro (h | h)
      · cases h
      · exact role_ne_stop who h
    · cases hstep
  | unexpected t =>
    have hruns : Runs t s s' := step_runs hstep fun _ ht ↦ (Option.some.inj ht).symm
    simp only [SiloLink.step] at hstep
    split at hstep
    · next hp =>
      obtain rfl := Option.some.inj hstep
      exact h.code hp rfl hruns ((Inert.refl s).ordinary not_ordinary_of_critical rfl)
    · cases hstep
  | timeout t =>
    simp only [SiloLink.step] at hstep
    split at hstep
    · next hp => exact absurd rfl (h.unstopped t _ hp)
    · next hp => exact absurd rfl (h.unstopped t _ hp)
    · cases hstep
  | resume t =>
    simp only [SiloLink.step] at hstep
    split at hstep
    · cases hstep
    · cases hstep
    · next p _ hp =>
      unfold InstallsAlone at hok
      simp only [hp] at hok
      split_ifs at hstep with hthrown
      · refine Option.some.inj hstep ▸ h.interrupt hp ?_
        rintro conn (⟨who, rfl⟩ | rfl)
        · exact hok.resolve_left fun hnot ↦ hnot hthrown
        · exact hok.resolve_left fun hnot ↦ hnot hthrown
      · refine h.proceed hp ?_ hstep
        rintro who rfl
        exact hok.resolve_left hthrown

theorem oneInstall_new (localSilo remote : SiloAddress) (options : ConnectionOptions) :
    (new localSilo remote options).OneInstall where
  proper _ hc := absurd hc List.not_mem_nil
  running _ _ hc := absurd (List.mem_of_getElem? hc) List.not_mem_nil
  window _ _ hp := absurd (List.mem_of_getElem? hp) List.not_mem_nil
  unstopped _ _ hp := absurd (List.mem_of_getElem? hp) List.not_mem_nil

def BeingClosed (s : SiloLink) (conn : ℕ) (c : SiloConnection) : Prop :=
  c.stage ≠ none ∨ ∃ (u : ℕ) (who : _) (monitor : _),
    s.tasks[u]? = some (.awaitingMonitor who conn monitor)

/-- A connection that was started and is not closed is the one of the table, unless it is being
closed. -/
def OneLive (s : SiloLink) : Prop :=
  ∀ conn c, s.conns[conn]? = some c → c.state = .running ∨ c.state = .closing →
    ¬ s.BeingClosed conn c → s.connection = some conn

theorem OneInstall.oneLive (h : s.OneInstall) : s.OneLive := by
  rintro conn c hc hstate hnot
  rcases hstate with hrunning | hclosing
  · exact (h.running conn c hc hrunning).resolve_right fun hwaits ↦ hnot (.inr hwaits)
  · cases h.proper c (List.mem_of_getElem? hc) with
    | running hs | closed hs =>
      rw [hclosing] at hs
      cases hs
    | closing stage _ hstage =>
      refine absurd (.inl ?_) hnot
      rw [hstage]
      nofun

def KeepsOneLive (localSilo remote : SiloAddress) (options : ConnectionOptions)
    (events : List LinkEvent) : Prop :=
  ∀ before s, before <+: events → exec step (new localSilo remote options) before = some s →
    s.OneLive

theorem keepsOneLive_of_installsAlone (localSilo remote : SiloAddress) (options : ConnectionOptions)
    (events : List LinkEvent)
    (hok : Meets step InstallsAlone (new localSilo remote options) events) :
      KeepsOneLive localSilo remote options events := by
  rintro before s ⟨after, rfl⟩ hrun
  have hreached := guarded_of_exec hrun (meets_append.mp hok).1
  exact (hreached.invariant (oneInstall_new localSilo remote options) fun _ _ _ h hok hstep ↦
    h.step hok hstep).oneLive

def replacedAndLost : List LinkEvent :=
  [.connect, .resume 0, .acceptInbound, .resume 2, .resume 2, .resume 1, .resume 3, .resume 1,
    .connection 0 .closeStep, .connection 0 .closeStep, .connection 0 .closeStep,
    .connection 0 .closeStep, .connection 0 .closeStep, .resume 1, .connection 1 (.close .lost),
    .resume 1, .resume 0]

theorem keepsOneLive_replacedAndLost :
    KeepsOneLive siloA siloB SiloConnection.onePermit replacedAndLost :=
  keepsOneLive_of_installsAlone siloA siloB _ replacedAndLost (by decide)

/-- While the outbound connection waits to replace the inbound one, a second inbound one comes. -/
def acceptedInWindow : List LinkEvent :=
  [.connect, .resume 0, .acceptInbound, .resume 2, .resume 2, .resume 1, .acceptInbound, .resume 4,
    .resume 3, .resume 1, .connection 0 .closeStep, .connection 0 .closeStep,
    .connection 0 .closeStep, .connection 0 .closeStep, .connection 0 .closeStep, .resume 1]

theorem acceptedInWindow_twoLive :
    ¬ ∀ localSilo remote options events, KeepsOneLive localSilo remote options events := by
  intro h
  have hend : (exec step (new siloA siloB SiloConnection.onePermit) acceptedInWindow).map (fun s ↦
      (s.connection, s.conns[1]?.map fun c ↦ (c.state, c.stage), s.tasks.any LinkPhase.isWindow)) =
      some (some 2, some (.running, none), false) := by decide
  obtain ⟨s, hrun, hs⟩ := Option.map_eq_some_iff.mp hend
  obtain ⟨hconnection, hs⟩ := Prod.mk.inj hs
  obtain ⟨hconn, hwindows⟩ := Prod.mk.inj hs
  obtain ⟨c, hc, hstate⟩ := Option.map_eq_some_iff.mp hconn
  obtain ⟨hrunning, hstage⟩ := Prod.mk.inj hstate
  have htable := h siloA siloB _ acceptedInWindow acceptedInWindow s List.prefix_rfl hrun 1 c hc
    (.inl hrunning) ?_
  · rw [hconnection] at htable
    cases htable
  · rintro (hclosing | ⟨u, who, monitor, hu⟩)
    · exact hclosing hstage
    · have hnone := List.any_eq_false.mp hwindows _ (List.mem_of_getElem? hu)
      exact hnone rfl

end SiloLink

end Pyleans
