import Pyleans.Membership.Writers
import Pyleans.Server.Lifecycle

namespace Pyleans

open Library

def SiloStatus.alive : SiloStatus → Bool
  | .joining => true
  | .active => true
  | _ => false

def Routine.siloId : Routine → String
  | .vote _ peer => peer.siloId
  | .iAmAlive silo => silo.siloId
  | .transition silo _ => silo.siloId
  | .register silo _ _ _ => silo.siloId
  | .unregister silo => silo.siloId

/-- What runs for other silos: votes on any silo, and writes to rows of their own. -/
def Routine.Foreign (silo : SiloAddress) : Routine → Prop
  | .vote _ _ => True
  | r => r.siloId ≠ silo.siloId

instance (silo : SiloAddress) (r : Routine) : Decidable (r.Foreign silo) := by
  unfold Routine.Foreign
  split <;> infer_instance

def Writer.declares : Writer → Bool
  | .declaration _ _ => true
  | _ => false

/-- After the first `commits` commits a vote has declared the silo dead. -/
def Membership.DeclaredSince (silo : SiloAddress) (commits : ℕ) (m : Membership) : Prop :=
  ∃ x ∈ m.log.drop commits, x.siloId = silo.siloId ∧ x.writer.declares = true

instance (silo : SiloAddress) (commits : ℕ) (m : Membership) :
    Decidable (m.DeclaredSince silo commits) := by
  unfold Membership.DeclaredSince; infer_instance

/-- The row of a silo that registered `commits` commits ago is active until it is declared dead. -/
def Membership.RowKept (silo : SiloAddress) (commits : ℕ) (m : Membership) : Prop :=
  commits ≤ m.log.length ∧ ∃ row, m.table.silos.get silo.siloId = some row ∧
    row.status = if m.DeclaredSince silo commits then .dead else .active

structure SiloConfig where
  address : SiloAddress
  clusterId : String
  gatewayPort : ℤ

/-- How far `_on_start_register` has come. `done` holds the number of commits
up to its own, which no step reads. -/
inductive Registration
  | pending
  | writing (id : ℕ)
  | failed
  | done (commits : ℕ)
deriving DecidableEq

inductive StopStage
  | transitioning (id : ℕ)
  | unregistering (id : ℕ)

/-- A silo on its way up: its lifecycle, the table with everything that runs on
it, and the flags `_started` and `_stopping`. -/
structure StartingSilo where
  lifecycle : SiloLifecycle
  membership : Membership
  registration : Registration
  started : Bool
  stopping : Option StopStage

inductive StartingSiloEvent
  | lifecycle (e : LifecycleEvent)
  | register (id : ℕ) (now : ℚ)
  | iAmAlive (id : ℕ)
  | membership (e : MembershipEvent)
  | stop (id : ℕ)
  | stopLifecycle (id : ℕ)
  | stopEnd

namespace StartingSilo

/-- The subscriptions of `_register_lifecycle_participants`: the registration,
the cluster, the runtime, the membership agent and the gateway. -/
def participants : Subscriptions :=
  [LifecycleStage.RUNTIME_INITIALIZE, LifecycleStage.RUNTIME_CLUSTER,
    LifecycleStage.RUNTIME_GRAIN_SERVICES, LifecycleStage.BECOME_ACTIVE, LifecycleStage.ACTIVE]

def registrar : ℕ := 0

def agent : ℕ := 3

def created (m : Membership) : StartingSilo := ⟨.created, m, .pending, false, none⟩

def run (s : StartingSilo) (id : ℕ) (routine : Routine) : Membership :=
  s.membership.setTask id (some ⟨routine, 0, .reading⟩)

/-- `_occ_write` is over when its routine has ended, and its write is through if
that is what ended it. -/
def registrationAfter (s : StartingSilo) (m : Membership) : Registration :=
  match s.registration with
  | .writing id =>
    if (m.tasks id).isSome then .writing id
    else if s.membership.log.length < m.log.length then .done m.log.length
    else .failed
  | r => r

def mayFinish (s : StartingSilo) : LifecycleEvent → Bool
  | .finish i outcome =>
    if i = registrar then
      match s.registration with
      | .writing _ => false
      | .done _ => true
      | _ => decide (outcome ≠ .success)
    else true
  | _ => true

def mayStart (silo : SiloAddress) : MembershipEvent → Bool
  | .start _ routine => decide (routine.Foreign silo)
  | _ => true

section

variable (c : SiloConfig)

def step (s : StartingSilo) : StartingSiloEvent → Option StartingSilo
  | .lifecycle e =>
    if s.mayFinish e then
      (s.lifecycle.step participants e).map fun l ↦
        { s with
          lifecycle := l
          started := s.started || decide (l.phase = .started ∧ s.lifecycle.phase ≠ .started) }
    else none
  | .register id now =>
    if s.lifecycle.onStart registrar = .running ∧ s.registration = .pending ∧
      s.membership.tasks id = none then
      some { s with
        membership := s.run id (.register c.address c.clusterId c.gatewayPort now)
        registration := .writing id }
    else none
  | .iAmAlive id =>
    if s.lifecycle.onStart agent ≠ .notCalled ∧ agent ∉ s.lifecycle.onStops ∧
      s.membership.tasks id = none then
      some { s with membership := s.run id (.iAmAlive c.address) }
    else none
  | .membership e =>
    if mayStart c.address e then
      (s.membership.step e).map fun m ↦
        { s with membership := m, registration := s.registrationAfter m }
    else none
  | .stop id =>
    if s.started = false ∨ s.stopping.isSome then some s
    else if s.membership.tasks id = none then
      some { s with
        membership := s.run id (.transition c.address .shuttingDown)
        stopping := some (.transitioning id) }
    else none
  | .stopLifecycle id =>
    match s.stopping with
    | some (.transitioning task) =>
      if s.membership.tasks task = none ∧ s.membership.tasks id = none then
        some { s with
          membership := s.run id (.unregister c.address)
          stopping := some (.unregistering id) }
      else none
    | _ => none
  | .stopEnd =>
    match s.stopping with
    | some (.unregistering task) =>
      if s.membership.tasks task = none then some { s with started := false, stopping := none }
      else none
    | _ => none

/-- What each event finds, and what the silo is after it. -/
inductive Moves (s : StartingSilo) : StartingSiloEvent → StartingSilo → Prop
  | lifecycle {l : SiloLifecycle} (e : LifecycleEvent) (hmay : s.mayFinish e)
      (hl : s.lifecycle.step participants e = some l) :
      Moves s (.lifecycle e) { s with
        lifecycle := l
        started := s.started || decide (l.phase = .started ∧ s.lifecycle.phase ≠ .started) }
  | register (id : ℕ) (now : ℚ) (hstart : s.lifecycle.onStart registrar = .running)
      (hpending : s.registration = .pending) (hid : s.membership.tasks id = none) :
      Moves s (.register id now) { s with
        membership := s.run id (.register c.address c.clusterId c.gatewayPort now)
        registration := .writing id }
  | iAmAlive (id : ℕ) (hstart : s.lifecycle.onStart agent ≠ .notCalled)
      (hstop : agent ∉ s.lifecycle.onStops) (hid : s.membership.tasks id = none) :
      Moves s (.iAmAlive id) { s with membership := s.run id (.iAmAlive c.address) }
  | membership {m : Membership} (e : MembershipEvent) (hmay : mayStart c.address e)
      (hm : s.membership.step e = some m) :
      Moves s (.membership e) { s with membership := m, registration := s.registrationAfter m }
  | stopAgain (id : ℕ) (hstopped : s.started = false ∨ s.stopping.isSome) : Moves s (.stop id) s
  | stop (id : ℕ) (hstarted : ¬ (s.started = false ∨ s.stopping.isSome))
      (hid : s.membership.tasks id = none) :
      Moves s (.stop id) { s with
        membership := s.run id (.transition c.address .shuttingDown)
        stopping := some (.transitioning id) }
  | stopLifecycle {task : ℕ} (id : ℕ) (hstopping : s.stopping = some (.transitioning task))
      (hended : s.membership.tasks task = none) (hid : s.membership.tasks id = none) :
      Moves s (.stopLifecycle id) { s with
        membership := s.run id (.unregister c.address)
        stopping := some (.unregistering id) }
  | stopEnd {task : ℕ} (hstopping : s.stopping = some (.unregistering task))
      (hended : s.membership.tasks task = none) :
      Moves s .stopEnd { s with started := false, stopping := none }

theorem moves_of_step {c : SiloConfig} {s s' : StartingSilo} {e : StartingSiloEvent}
    (hs : step c s e = some s') :
    Moves c s e s' := by
  cases e with
  | lifecycle e =>
    simp only [step] at hs
    split_ifs at hs with hmay
    obtain ⟨l, hl, rfl⟩ := Option.map_eq_some_iff.mp hs
    exact .lifecycle e hmay hl
  | register id now =>
    simp only [step] at hs
    split_ifs at hs with hnew
    obtain rfl := Option.some.inj hs
    exact .register id now hnew.1 hnew.2.1 hnew.2.2
  | iAmAlive id =>
    simp only [step] at hs
    split_ifs at hs with hnew
    obtain rfl := Option.some.inj hs
    exact .iAmAlive id hnew.1 hnew.2.1 hnew.2.2
  | membership e =>
    simp only [step] at hs
    split_ifs at hs with hmay
    obtain ⟨m, hm, rfl⟩ := Option.map_eq_some_iff.mp hs
    exact .membership e hmay hm
  | stop id =>
    simp only [step] at hs
    split_ifs at hs with hstopped hid
    · obtain rfl := Option.some.inj hs
      exact .stopAgain id hstopped
    · obtain rfl := Option.some.inj hs
      exact .stop id hstopped hid
  | stopLifecycle id =>
    simp only [step] at hs
    split at hs
    · next hstopping =>
      split_ifs at hs with hid
      obtain rfl := Option.some.inj hs
      exact .stopLifecycle id hstopping hid.1 hid.2
    · cases hs
  | stopEnd =>
    simp only [step] at hs
    split at hs
    · next hstopping =>
      split_ifs at hs with hended
      obtain rfl := Option.some.inj hs
      exact .stopEnd hstopping hended
    · cases hs

/-- No row of the silo has a status that peers treat as alive. -/
def NoTrace (s : StartingSilo) : Prop :=
  ∀ row ∈ s.membership.table.readAll.silos, row.siloId = c.address.siloId → row.status.alive = false

def DeclaredDead (s : StartingSilo) : Prop :=
  ∃ commits, s.registration = .done commits ∧ s.membership.DeclaredSince c.address commits

end

end StartingSilo

def Routine.Aimed : Routine → Phase → Prop
  | _, .reading => True
  | .vote _ _, phase => phase.votes = true
  | .iAmAlive _, .updating _ _ => True
  | .transition silo status, .updating _ candidate =>
    candidate.siloId = silo.siloId ∧ candidate.status = status
  | .register silo _ _ _, .updating _ candidate =>
    candidate.siloId = silo.siloId ∧ candidate.status = .active
  | .unregister silo, .deleting row => row.siloId = silo.siloId
  | _, _ => False

def Steady (old new : Option SiloInfo) (writer : Writer) : Prop :=
  writer.declares = false ∧ ∃ before ∈ old, ∃ after ∈ new, after.status = before.status

def Routine.Leaves (siloId : String) (old new : Option SiloInfo) (writer : Writer) : Routine → Prop
  | .vote _ _ =>
    Steady old new writer ∨ (writer.declares = true ∧ ∃ after ∈ new, after.status = .dead)
  | .iAmAlive _ => Steady old new writer
  | .transition silo status =>
    siloId = silo.siloId ∧ writer.declares = false ∧ ∃ after ∈ new, after.status = status
  | .register silo _ _ _ =>
    siloId = silo.siloId ∧ writer.declares = false ∧ ∃ after ∈ new, after.status = .active
  | .unregister silo => siloId = silo.siloId

section

variable {m m' : Membership} {r : Routine} {task : WriterTask} {id : ℕ} {siloId : String}
  {writer : Writer}
  {table : MembershipTable}

theorem Routine.Aimed.votes {phase phase' : Phase} (h : r.Aimed phase) (hv : phase.votes = true)
    (hv' : phase'.votes = true) : r.Aimed phase' := by
  cases r with
  | vote detector peer => cases phase' <;> first | exact hv' | trivial
  | _ => cases phase <;> first | exact False.elim h | cases hv

theorem Routine.aimed_reading : r.Aimed .reading := by cases r <;> trivial

theorem Routine.aimed_begin {t : MembershipTable} {now : ℚ} {readAt : ℕ} {phase : Phase}
    (h : t.begin now readAt r = some phase) : r.Aimed phase := by
  cases r with
  | vote detector peer =>
    obtain ⟨row, -, hc⟩ := Option.bind_eq_some_iff.mp h
    unfold VoteAttempt.consider at hc
    split_ifs at hc
    · exact Option.some.inj hc ▸ rfl
    · exact Option.some.inj hc ▸ rfl
  | iAmAlive silo =>
    obtain ⟨row, -, rfl⟩ := Option.map_eq_some_iff.mp h
    trivial
  | transition silo status =>
    obtain ⟨row, hr, rfl⟩ := Option.map_eq_some_iff.mp h
    have hkey : row.siloId = silo.siloId := Table.key_of_get hr
    exact ⟨hkey, rfl⟩
  | register silo clusterId gatewayPort startTime =>
    obtain rfl := Option.some.inj h
    exact ⟨rfl, rfl⟩
  | unregister silo =>
    obtain ⟨row, hr, rfl⟩ := Option.map_eq_some_iff.mp h
    exact Table.key_of_get hr

namespace Membership

def AllAimed (m : Membership) : Prop :=
  ∀ id task, m.tasks id = some task → task.routine.Aimed task.phase

theorem AllAimed.setTask (h : m.AllAimed) (routine : Routine) :
    (m.setTask id (some ⟨routine, 0, .reading⟩)).AllAimed := by
  intro id' task ht
  rcases task_of_setTask ht with ⟨-, ht⟩ | ht
  · obtain rfl := Option.some.inj ht
    exact Routine.aimed_reading
  · exact h id' task ht

theorem AllAimed.step {e : MembershipEvent} (h : m.AllAimed) (hs : step m e = some m') :
    m'.AllAimed := by
  intro id task' ht
  rcases task_of_step hs ht with ht | ⟨-, routine, -, rfl⟩ | ⟨task, ht, hroutine, hgoesOn⟩
  · exact h id task' ht
  · exact Routine.aimed_reading
  · rw [hroutine]
    rcases hgoesOn with hreading | ⟨hv, hv'⟩ | ⟨now, readAt, hbegin⟩
    · rw [hreading]
      exact Routine.aimed_reading
    · exact (h id task ht).votes hv hv'
    · exact Routine.aimed_begin hbegin

theorem allAimed_reachable (h : Reachable Membership.step empty m) : m.AllAimed :=
  h.invariant (fun _ _ ht ↦ by cases ht) (fun _ _ _ hi _ hs ↦ hi.step hs)

theorem leaves_of_write (h : m.WellKept) (haimed : m.AllAimed) (ht : m.tasks id = some task)
    (hw : m.table.write task.phase = some (siloId, writer, .ok (some table))) :
    task.routine.Leaves siloId (m.table.silos.get siloId) (table.silos.get siloId) writer := by
  have hphase := h.tasks id task ht
  have haim := haimed id task ht
  obtain ⟨routine, failures, phase⟩ := task
  cases phase with
  | suspecting a =>
    obtain ⟨rfl, hw'⟩ := Prod.mk.inj (Option.some.inj hw)
    obtain ⟨rfl, hu⟩ := Prod.mk.inj hw'
    obtain ⟨stored, hu⟩ := map_snd_ok hu
    obtain ⟨current, hc, -, rfl⟩ := MembershipTable.tryAddSuspicion_ok hu
    have hget := m.table.store_get (current.addSuspicion (a.detector.newVote a.now)) a.peer.siloId
    have hkey : a.peer.siloId = (current.addSuspicion (a.detector.newVote a.now)).siloId :=
      (Table.key_of_get hc).symm
    rw [if_pos hkey] at hget
    have hsteady : Steady (m.table.silos.get a.peer.siloId) _ (.suspicion a) :=
      ⟨rfl, current, hc, _, hget, rfl⟩
    cases routine <;> first | exact .inl hsteady | cases haim
  | declaring a reports =>
    obtain ⟨rfl, hw'⟩ := Prod.mk.inj (Option.some.inj hw)
    obtain ⟨rfl, hu⟩ := Prod.mk.inj hw'
    obtain ⟨stored, hu⟩ := map_snd_ok hu
    obtain ⟨rfl, -⟩ := MembershipTable.tryUpdateSilo_ok hu
    have hget := m.table.store_get (a.detector.deadRow a.row a.now)
      (a.detector.deadRow a.row a.now).siloId
    rw [if_pos rfl] at hget
    cases routine <;> first | exact .inr ⟨rfl, _, hget, rfl⟩ | cases haim
  | updating read candidate =>
    obtain ⟨rfl, hw'⟩ := Prod.mk.inj (Option.some.inj hw)
    obtain ⟨rfl, hu⟩ := Prod.mk.inj hw'
    obtain ⟨stored, hu⟩ := map_snd_ok hu
    obtain ⟨rfl, hetag⟩ := MembershipTable.tryUpdateSilo_ok hu
    have hget := m.table.store_get candidate candidate.siloId
    rw [if_pos rfl] at hget
    cases routine with
    | vote detector peer => cases haim
    | iAmAlive silo =>
      obtain ⟨row, readAt, hheld, hkey, he, hstatus⟩ := hphase rfl
      obtain ⟨version, -, hstamp⟩ := hheld.2.1
      obtain ⟨current, hc⟩ := MembershipTable.tryUpdateSilo_found hu (he.trans hstamp)
      obtain ⟨rfl, -⟩ := hheld.current (hkey ▸ hc) ((hetag current hc).trans he)
      exact ⟨rfl, current, hc, _, hget, hstatus⟩
    | transition silo status => exact ⟨haim.1, rfl, _, hget, haim.2⟩
    | register silo clusterId gatewayPort now => exact ⟨haim.1, rfl, _, hget, haim.2⟩
    | unregister silo => cases haim
  | deleting row =>
    obtain ⟨rfl, -⟩ := Prod.mk.inj (Option.some.inj hw)
    cases routine <;> first | exact haim | cases haim
  | _ => cases hw

theorem declaredSince_commit {silo : SiloAddress} {commits : ℕ} (h : commits ≤ m.log.length) :
    ((m.commit siloId table writer).setTask id none).DeclaredSince silo commits ↔
      m.DeclaredSince silo commits ∨ (siloId = silo.siloId ∧ writer.declares = true) := by
  simp only [DeclaredSince, Membership.setTask, Membership.commit, List.drop_append_of_le_length h,
    List.mem_append, List.mem_singleton, or_and_right, exists_or, exists_eq_left]

/-- The row of a silo stays as it is but for a declaration, while no other
routine of its own than its signs of life writes to it. -/
theorem RowKept.commit {silo : SiloAddress} {commits : ℕ} (hrow : m.RowKept silo commits)
    (h : m.WellKept) (haimed : m.AllAimed) (ht : m.tasks id = some task)
    (hw : m.table.write task.phase = some (siloId, writer, .ok (some table)))
    (hroutine : task.routine.Foreign silo ∨ task.routine = .iAmAlive silo) :
    ((m.commit siloId table writer).setTask id none).RowKept silo commits := by
  obtain ⟨hle, row, hget, hstatus⟩ := hrow
  have hle' : commits ≤ ((m.commit siloId table writer).setTask id none).log.length :=
    hle.trans
      (by
      rw [Membership.setTask, Membership.commit, List.length_append]; exact Nat.le_add_right _ _)
  refine ⟨hle', ?_⟩
  by_cases hsilo : siloId = silo.siloId
  · have hleaves := leaves_of_write h haimed ht hw
    have hsteady : Steady (m.table.silos.get siloId) (table.silos.get siloId) writer → ∃ row,
        table.silos.get silo.siloId = some row ∧ row.status =
          if ((m.commit siloId table writer).setTask id none).DeclaredSince silo commits then
            .dead else .active := by
      rintro ⟨hnot, before, hbefore, after, hafter, hsame⟩
      rw [hsilo] at hbefore hafter
      obtain rfl := Option.some.inj (hget.symm.trans hbefore)
      refine ⟨after, hafter, ?_⟩
      rw [hsame, hstatus, if_congr (declaredSince_commit hle) rfl rfl]
      simp [hnot]
    obtain ⟨routine, failures, phase⟩ := task
    cases routine with
    | vote detector peer =>
      rcases hleaves with hs | ⟨hdeclares, after, hafter, hdead⟩
      · exact hsteady hs
      · refine ⟨after, hsilo ▸ hafter, ?_⟩
        rw [hdead, if_pos ((declaredSince_commit hle).mpr (.inr ⟨hsilo, hdeclares⟩))]
    | iAmAlive peer => exact hsteady hleaves
    | transition peer status =>
      rcases hroutine with hf | ha
      · exact absurd (hleaves.1.symm.trans hsilo) hf
      · cases ha
    | register peer clusterId gatewayPort now =>
      rcases hroutine with hf | ha
      · exact absurd (hleaves.1.symm.trans hsilo) hf
      · cases ha
    | unregister peer =>
      rcases hroutine with hf | ha
      · exact absurd (Eq.trans (Eq.symm hleaves) hsilo) hf
      · cases ha
  · have hother := (write_ok hw).2.others silo.siloId (Ne.symm hsilo)
    refine ⟨row, hother.trans hget, ?_⟩
    rw [hstatus, if_congr (declaredSince_commit hle) rfl rfl]
    simp [hsilo]

end Membership

end

namespace StartingSilo

/-- While `start()` has not succeeded, `stop()` does nothing and only the
registration and signs of life are written for the silo itself: its row is
active until it is declared dead. -/
structure Starting (c : SiloConfig) (s : StartingSilo) : Prop where
  notStarted : s.started = false
  notStopping : s.stopping = none
  own id task : s.membership.tasks id = some task → task.routine.Foreign c.address ∨
    task.routine = .iAmAlive c.address ∨
    (s.registration = .writing id ∧
      ∃ now, task.routine = .register c.address c.clusterId c.gatewayPort now)
  writing id : s.registration = .writing id → ∃ task now, s.membership.tasks id = some task ∧
    task.routine = .register c.address c.clusterId c.gatewayPort now
  row commits : s.registration = .done commits → s.membership.RowKept c.address commits

structure Kept (c : SiloConfig) (s : StartingSilo) : Prop where
  wellKept : s.membership.WellKept
  aimed : s.membership.AllAimed
  registered : s.lifecycle.onStart registrar = .ended .success →
    ∃ commits, s.registration = .done commits
  completed : LifecycleStage.RUNTIME_INITIALIZE ∈ s.lifecycle.completed →
    ∃ commits, s.registration = .done commits
  starting : s.lifecycle.phase ≠ .started → s.Starting c

section

variable {c : SiloConfig} {s s' : StartingSilo} {m : Membership}

theorem registrar_mem :
    registrar ∈ Subscriptions.participants participants LifecycleStage.RUNTIME_INITIALIZE := by
  decide

theorem registrationAfter_done {commits : ℕ} (h : s.registration = .done commits) :
    s.registrationAfter m = .done commits := by
  simp only [registrationAfter, h]

theorem Starting.run (h : s.Starting c) {id : ℕ} {routine : Routine} {registration : Registration}
    (hfree : s.membership.tasks id = none)
    (hroutine : routine = .iAmAlive c.address ∧ registration = s.registration ∨
      s.registration = .pending ∧ registration = .writing id ∧
        ∃ now, routine = .register c.address c.clusterId c.gatewayPort now) :
    ({ s with membership := s.run id routine, registration := registration } :
      StartingSilo).Starting c := by
  have hself : (s.run id routine).tasks id = some ⟨routine, 0, .reading⟩ :=
    Function.update_self _ _ _
  have hother : ∀ id' ≠ id, (s.run id routine).tasks id' = s.membership.tasks id' :=
    fun id' hid ↦ Function.update_of_ne hid _ _
  refine ⟨h.notStarted, h.notStopping, fun id' task ht ↦ ?_, fun id' hw ↦ ?_, fun commits hd ↦ ?_⟩
  · rcases Membership.task_of_setTask ht with ⟨rfl, hnew⟩ | ht
    · obtain rfl := Option.some.inj hnew
      rcases hroutine with ⟨hr, -⟩ | ⟨-, hw, hr⟩
      · exact .inr (.inl hr)
      · exact .inr (.inr ⟨hw, hr⟩)
    · rcases h.own id' task ht with hf | ha | ⟨hw, hr⟩
      · exact .inl hf
      · exact .inr (.inl ha)
      · rcases hroutine with ⟨-, hsame⟩ | ⟨hpending, -, -⟩
        · exact .inr (.inr ⟨hsame.trans hw, hr⟩)
        · rw [hw] at hpending
          cases hpending
  · rcases hroutine with ⟨-, hsame⟩ | ⟨-, hw', now, rfl⟩
    · obtain ⟨task, now, ht, hr⟩ := h.writing id' (hsame.symm.trans hw)
      have hid : id' ≠ id := by
        rintro rfl
        rw [hfree] at ht
        cases ht
      exact ⟨task, now, (hother id' hid).trans ht, hr⟩
    · obtain rfl := Registration.writing.inj (hw.symm.trans hw')
      exact ⟨_, now, hself, rfl⟩
  · rcases hroutine with ⟨-, hsame⟩ | ⟨-, hw, -⟩
    · exact h.row commits (hsame.symm.trans hd)
    · cases hd.symm.trans hw

theorem registrationAfter_cases (s : StartingSilo) (m : Membership) :
    s.registrationAfter m = s.registration ∧
      (∀ id, s.registration = .writing id → (m.tasks id).isSome) ∨
      ∃ id, s.registration = .writing id ∧ m.tasks id = none ∧
        (s.registrationAfter m = .failed ∨
          s.membership.log.length < m.log.length ∧ s.registrationAfter m = .done m.log.length) := by
  unfold registrationAfter
  split
  · next id hw =>
    cases htask : m.tasks id with
    | some task =>
      refine .inl ⟨by simp [hw], fun id' hw' ↦ ?_⟩
      obtain rfl := Registration.writing.inj (hw.symm.trans hw')
      rw [htask]
      rfl
    | none =>
      refine .inr ⟨id, hw, htask, ?_⟩
      by_cases hlog : s.membership.log.length < m.log.length
      · exact .inr ⟨hlog, by simp [hlog]⟩
      · exact .inl (by simp [hlog])
  · next hnot => exact .inl ⟨rfl, fun id hw ↦ absurd hw (hnot id)⟩

section

variable {e : MembershipEvent}

theorem Starting.own_of_step (h : s.Starting c) (hmay : mayStart c.address e)
    (he : s.membership.step e = some m) {id : ℕ} {task : WriterTask} (ht : m.tasks id = some task) :
    task.routine.Foreign c.address ∨ task.routine = .iAmAlive c.address ∨
      (s.registrationAfter m = .writing id ∧
      ∃ now, task.routine = .register c.address c.clusterId c.gatewayPort now) := by
  have hgoesOn : ∀ task₀, s.membership.tasks id = some task₀ → task.routine = task₀.routine →
      task.routine.Foreign c.address ∨ task.routine = .iAmAlive c.address ∨
        (s.registrationAfter m = .writing id ∧
        ∃ now, task.routine = .register c.address c.clusterId c.gatewayPort now) := by
    intro task₀ ht₀ hroutine
    rw [hroutine]
    rcases h.own id task₀ ht₀ with hf | ha | ⟨hw, hr⟩
    · exact .inl hf
    · exact .inr (.inl ha)
    · refine .inr (.inr ⟨?_, hr⟩)
      rcases registrationAfter_cases s m with ⟨hsame, -⟩ | ⟨id', hw', hnone, -⟩
      · exact hsame.trans hw
      · obtain rfl := Registration.writing.inj (hw.symm.trans hw')
        cases ht.symm.trans hnone
  rcases Membership.task_of_step he ht with ht₀ | ⟨-, routine, rfl, rfl⟩ | ⟨task₀, ht₀, hroutine, -⟩
  · exact hgoesOn task ht₀ rfl
  · exact .inl (of_decide_eq_true hmay)
  · exact hgoesOn task₀ ht₀ hroutine

theorem Starting.writing_of_step (h : s.Starting c) (he : s.membership.step e = some m) {id : ℕ}
    (hw : s.registrationAfter m = .writing id) :
    ∃ task now, m.tasks id = some task ∧
      task.routine = .register c.address c.clusterId c.gatewayPort now := by
  rcases registrationAfter_cases s m with ⟨hsame, hstill⟩ | ⟨id', -, -, hfailed | ⟨hlog, hdone⟩⟩
  · have hw₀ := hsame.symm.trans hw
    obtain ⟨task, now, ht, hr⟩ := h.writing id hw₀
    obtain ⟨task', ht'⟩ := Option.isSome_iff_exists.mp (hstill id hw₀)
    refine ⟨task', now, ht', ?_⟩
    rcases Membership.task_of_step he ht' with ht₀ | ⟨hnone, -⟩ | ⟨task₀, ht₀, hroutine, -⟩
    · obtain rfl := Option.some.inj (ht.symm.trans ht₀)
      exact hr
    · cases ht.symm.trans hnone
    · obtain rfl := Option.some.inj (ht.symm.trans ht₀)
      exact hroutine.trans hr
  · cases hw.symm.trans hfailed
  · cases hw.symm.trans hdone

end

theorem rowKept_of_register (hkept : s.membership.WellKept) (haimed : s.membership.AllAimed)
    {id : ℕ} {task : WriterTask} {siloId : String} {writer : Writer} {table : MembershipTable}
    (ht : s.membership.tasks id = some task)
    (hw : s.membership.table.write task.phase = some (siloId, writer, .ok (some table)))
    (hr : ∃ now, task.routine = .register c.address c.clusterId c.gatewayPort now) :
    let m := (s.membership.commit siloId table writer).setTask id none
    m.RowKept c.address m.log.length := by
  obtain ⟨now, hr⟩ := hr
  have hleaves := Membership.leaves_of_write hkept haimed ht hw
  rw [hr] at hleaves
  obtain ⟨hsilo, -, after, hafter, hactive⟩ := hleaves
  refine ⟨le_rfl, after, hsilo ▸ hafter, ?_⟩
  rw [hactive, if_neg]
  rintro ⟨x, hx, -⟩
  rw [List.drop_length] at hx
  cases hx

theorem Starting.membership (h : s.Starting c) (hkept : s.membership.WellKept)
    (haimed : s.membership.AllAimed) {e : MembershipEvent} (hmay : mayStart c.address e)
    (he : s.membership.step e = some m) :
    ({ s with membership := m, registration := s.registrationAfter m } : StartingSilo).Starting
      c := by
  have hafter := registrationAfter_cases s m
  refine ⟨h.notStarted, h.notStopping, fun id task ht ↦ h.own_of_step hmay he ht,
    fun id hw ↦ h.writing_of_step he hw, fun commits hd ↦ ?_⟩
  rcases Membership.step_cases he with ⟨id, task?, rfl, -⟩
    | ⟨id, task, siloId, writer, table, -, ht, hw, rfl⟩
  · rcases hafter with ⟨hsame, -⟩ | ⟨_, -, -, hfailed | ⟨hlog, -⟩⟩
    · exact h.row commits (hsame.symm.trans hd)
    · cases hd.symm.trans hfailed
    · exact absurd hlog (lt_irrefl _)
  · rcases hafter with ⟨hsame, -⟩ | ⟨id', hw', hnone, hfailed | ⟨hlog, hdone⟩⟩
    · have hd₀ := hsame.symm.trans hd
      refine (h.row commits hd₀).commit hkept haimed ht hw ?_
      rcases h.own id task ht with hf | ha | ⟨hw', -⟩
      · exact .inl hf
      · exact .inr ha
      · cases hd₀.symm.trans hw'
    · cases hd.symm.trans hfailed
    · obtain rfl := Registration.done.inj (hd.symm.trans hdone)
      obtain ⟨task', now, ht', hr⟩ := h.writing id' hw'
      have hid : id' = id := by
        by_contra hne
        rw [Membership.setTask] at hnone
        dsimp only at hnone
        rw [Function.update_of_ne hne] at hnone
        cases ht'.symm.trans hnone
      obtain rfl := Option.some.inj (ht'.symm.trans (hid ▸ ht))
      exact rowKept_of_register hkept haimed ht hw ⟨now, hr⟩

theorem wellKept_run (h : s.membership.WellKept) (id : ℕ) (routine : Routine) :
    (s.run id routine).WellKept :=
  h.setTask fun task ht ↦ by
    obtain rfl := Option.some.inj ht
    trivial

theorem done_of_step {e : StartingSiloEvent} (hs : step c s e = some s')
    (h : ∃ commits, s.registration = .done commits) :
    ∃ commits, s'.registration = .done commits := by
  obtain ⟨commits, hd⟩ := h
  refine ⟨commits, ?_⟩
  cases moves_of_step hs with
  | register id now hstart hpending hid => cases hd.symm.trans hpending
  | membership e hmay hm => exact registrationAfter_done hd
  | _ => exact hd

theorem lifecycle_of_step {e : StartingSiloEvent} (hs : step c s e = some s') :
    s'.lifecycle = s.lifecycle ∨
    ∃ l, e = .lifecycle l ∧ s.mayFinish l = true ∧
      s.lifecycle.step participants l = some s'.lifecycle := by
  cases moves_of_step hs with
  | lifecycle e hmay hl => exact .inr ⟨e, rfl, hmay, hl⟩
  | _ => exact .inl rfl

theorem membership_of_step {e : StartingSiloEvent} (hs : step c s e = some s') :
    s'.membership = s.membership ∨
    (∃ id routine, s'.membership = s.run id routine) ∨ ∃ me,
      s.membership.step me = some s'.membership := by
  cases moves_of_step hs with
  | lifecycle e hmay hl => exact .inl rfl
  | membership e hmay hm => exact .inr (.inr ⟨e, hm⟩)
  | stopAgain id hstopped => exact .inl rfl
  | stopEnd hstopping hended => exact .inl rfl
  | _ => exact .inr (.inl ⟨_, _, rfl⟩)

theorem Starting.step {e : StartingSiloEvent} (h : s.Starting c) (hkept : s.membership.WellKept)
    (haimed : s.membership.AllAimed) (hs : step c s e = some s')
    (hphase : s'.lifecycle.phase ≠ .started) :
    s'.Starting c := by
  cases moves_of_step hs with
  | @lifecycle l e hmay hl =>
    refine ⟨?_, h.notStopping, h.own, h.writing, h.row⟩
    simpa [h.notStarted] using fun hstarted : l.phase = .started ↦ absurd hstarted hphase
  | register id now hstart hpending hid => exact h.run hid (.inr ⟨hpending, rfl, now, rfl⟩)
  | iAmAlive id hstart hstop hid => exact h.run hid (.inl ⟨rfl, rfl⟩)
  | membership e hmay hm => exact h.membership hkept haimed hmay hm
  | stopAgain id hstopped => exact h
  | stop id hstarted hid => exact absurd (.inl h.notStarted) hstarted
  | stopLifecycle id hstopping hended hid => cases h.notStopping.symm.trans hstopping
  | stopEnd hstopping hended => cases h.notStopping.symm.trans hstopping

theorem Kept.step {e : StartingSiloEvent} (h : s.Kept c) (hs : step c s e = some s') :
    s'.Kept c := by
  have hlifecycle := lifecycle_of_step hs
  have hmembership := membership_of_step hs
  refine ⟨?_, ?_, fun hended ↦ ?_, fun hcompleted ↦ ?_, fun hphase ↦ ?_⟩
  · rcases hmembership with hm | ⟨id, routine, hm⟩ | ⟨me, hm⟩
    · exact hm ▸ h.wellKept
    · exact hm ▸ wellKept_run h.wellKept id routine
    · exact h.wellKept.step hm
  · rcases hmembership with hm | ⟨id, routine, hm⟩ | ⟨me, hm⟩
    · exact hm ▸ h.aimed
    · exact hm ▸ h.aimed.setTask routine
    · exact h.aimed.step hm
  · apply done_of_step hs
    rcases hlifecycle with hl | ⟨l, rfl, hmay, hl⟩
    · exact h.registered (hl ▸ hended)
    · rcases SiloLifecycle.ended_of_step hl hended with hbefore | rfl
      · exact h.registered hbefore
      · simp only [mayFinish, if_true] at hmay
        split at hmay
        · cases hmay
        · next commits hd => exact ⟨commits, hd⟩
        · cases hmay
  · apply done_of_step hs
    rcases hlifecycle with hl | ⟨l, rfl, -, hl⟩
    · exact h.completed (hl ▸ hcompleted)
    · rcases SiloLifecycle.completed_of_step hl hcompleted with hbefore | hsucceeded
      · exact h.completed hbefore
      · exact h.registered (hsucceeded registrar registrar_mem)
  · refine (h.starting fun hstarted ↦ hphase ?_).step h.wellKept h.aimed hs hphase
    rcases hlifecycle with hl | ⟨l, -, -, hl⟩
    · exact hl ▸ hstarted
    · exact SiloLifecycle.started_of_step hl hstarted

theorem kept_created (hm : Reachable Membership.step .empty m)
    (hforeign : ∀ id task, m.tasks id = some task → task.routine.Foreign c.address) :
      (created m).Kept c where
  wellKept := Membership.wellKept_reachable hm
  aimed := Membership.allAimed_reachable hm
  registered h := by cases h
  completed h := by cases h
  starting _ :=
    { notStarted := rfl
      notStopping := rfl
      own := fun id task ht ↦ .inl (hforeign id task ht)
      writing := fun _ hw ↦ by cases hw
      row := fun _ hd ↦ by cases hd }

/-- Whatever else happens, the row that a start has registered is alive after
it, unless another silo has declared this one dead. -/
theorem noTrace_iff {commits : ℕ} (h : s.Starting c) (hd : s.registration = .done commits) :
    s.NoTrace c ↔ s.DeclaredDead c := by
  obtain ⟨-, row, hget, hstatus⟩ := h.row commits hd
  have hno : s.NoTrace c ↔ row.status.alive = false := by
    constructor
    · exact fun hnone ↦ hnone row (Table.mem_of_get hget) (Table.key_of_get hget)
    · intro halive row' hmem hkey
      have hget' := Table.get_of_mem hmem
      rw [hkey] at hget'
      exact Option.some.inj (hget.symm.trans hget') ▸ halive
  have hdead : s.DeclaredDead c ↔ s.membership.DeclaredSince c.address commits := by
    constructor
    · rintro ⟨commits', hd', hdeclared⟩
      exact Registration.done.inj (hd'.symm.trans hd) ▸ hdeclared
    · exact fun hdeclared ↦ ⟨commits, hd, hdeclared⟩
  rw [hno, hdead, hstatus]
  split_ifs with hdeclared
  · exact iff_of_true rfl hdeclared
  · exact iff_of_false (by decide) hdeclared

end

/-- Once `start()` has raised in a stage after the registration, in whatever
way and whatever is called then, a row of the silo that peers treat as alive is
in the table, except when another silo has declared it dead. -/
theorem start_leaves_no_trace_iff (c : SiloConfig) (m : Membership)
    (events : List StartingSiloEvent) (s : StartingSilo) (hm : Reachable Membership.step .empty m)
    (hforeign : ∀ id task, m.tasks id = some task → task.routine.Foreign c.address)
    (h : exec (step c) (created m) events = some s) (hraised : s.lifecycle.phase = .aborted)
    (hlater : LifecycleStage.RUNTIME_INITIALIZE ∈ s.lifecycle.completed) : s.NoTrace c ↔
      s.DeclaredDead c := by
  have hkept : s.Kept c :=
    (reachable_of_exec h).invariant (kept_created hm hforeign) fun _ _ _ hi _ hs ↦ hi.step hs
  obtain ⟨commits, hd⟩ := hkept.completed hlater
  have hstarting := hkept.starting (by rw [hraised]; exact LifecyclePhase.noConfusion)
  exact noTrace_iff hstarting hd

def configA : SiloConfig := ⟨siloA, "dev", 30000⟩

def bindFails : List StartingSiloEvent :=
  [.lifecycle .start, .register 0 0, .membership (.read 0 0), .membership (.write 0),
    .lifecycle (.finish 0 .success), .lifecycle .stageDone, .lifecycle (.finish 1 .error),
    .lifecycle .stageFailed, .lifecycle .rollback, .lifecycle (.stopped 0),
    .lifecycle .rollback, .stop 1]

def bindFailsAndDies : List StartingSiloEvent :=
  bindFails ++ ([.start 1 (.vote ⟨siloB, { FailureDetectorOptions.defaults with
      numVotesForDeathDeclaration := 1, one_le_votes := Nat.one_pos }⟩ siloA),
    .read 1 10, .collect 1 (fun l k ↦ l.take k), .probed 1 (fun _ ↦ .fail), .write 1] :
      List MembershipEvent).map .membership

theorem start_leaves_no_trace_bindFailsAndDies : ∃ s,
    exec (step configA) (created .empty) bindFailsAndDies = some s ∧
      (s.NoTrace configA ↔ s.DeclaredDead configA) := by
  have hruns : (exec (step configA) (created .empty) bindFailsAndDies).map
      (fun s ↦ (s.lifecycle.phase, s.lifecycle.completed)) =
        some (.aborted, [LifecycleStage.RUNTIME_INITIALIZE]) := by
    decide +kernel
  obtain ⟨s, hs, hend⟩ := Option.map_eq_some_iff.mp hruns
  obtain ⟨hphase, hcompleted⟩ := Prod.mk.inj hend
  exact ⟨s, hs, start_leaves_no_trace_iff configA .empty bindFailsAndDies s .refl
    (fun _ _ ht ↦ by cases ht) hs hphase
    (by rw [hcompleted]; exact List.mem_singleton_self _)⟩

theorem failed_start_stays_active : ¬ ∀ c events s, exec (step c) (created .empty) events = some s →
    s.lifecycle.phase = .aborted → LifecycleStage.RUNTIME_INITIALIZE ∈ s.lifecycle.completed →
      s.NoTrace c := by
  intro h
  have hruns : (exec (step configA) (created .empty) bindFails).map
      (fun s ↦ (s.lifecycle.phase, s.lifecycle.completed,
        (s.membership.table.readSilo siloA.siloId).map SiloInfo.status)) =
      some (.aborted, [LifecycleStage.RUNTIME_INITIALIZE], some .active) := by decide +kernel
  obtain ⟨s, hs, hend⟩ := Option.map_eq_some_iff.mp hruns
  obtain ⟨hphase, hend⟩ := Prod.mk.inj hend
  obtain ⟨hcompleted, hrow⟩ := Prod.mk.inj hend
  obtain ⟨row, hget, hactive⟩ := Option.map_eq_some_iff.mp hrow
  have hlater : LifecycleStage.RUNTIME_INITIALIZE ∈ s.lifecycle.completed := by
    rw [hcompleted]
    exact List.mem_singleton_self _
  have halive := h configA bindFails s hs hphase hlater row (Table.mem_of_get hget)
    (Table.key_of_get hget)
  rw [hactive] at halive
  cases halive

end StartingSilo

end Pyleans
