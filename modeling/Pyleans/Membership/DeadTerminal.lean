import Pyleans.Membership.Writers

namespace Pyleans

open Library

def Commit.Resurrects (c : Commit) : Prop :=
  ∃ old ∈ c.old, ∃ new ∈ c.new, old.status = .dead ∧ new.status ≠ .dead

instance (c : Commit) : Decidable c.Resurrects :=
  inferInstanceAs (Decidable (∃ old ∈ c.old, ∃ new ∈ c.new, old.status = .dead ∧
    new.status ≠ .dead))

def WriterTask.statusWrite (task : WriterTask) : Option SiloInfo :=
  match task.phase with
  | .updating _ candidate => if task.routine.setsStatus then some candidate else none
  | _ => none

namespace Membership

/-- No status transition and no registration goes through over a dead row. -/
def SparesDead (s : Membership) : MembershipEvent → Prop
  | .write id => ∀ task ∈ s.tasks id, ∀ candidate ∈ task.statusWrite,
      ∀ row ∈ s.table.silos.get candidate.siloId, row.etag = candidate.etag → row.status = .dead →
        candidate.status = .dead
  | _ => True

instance (s : Membership) : ∀ e, Decidable (SparesDead s e)
  | .write id => inferInstanceAs (Decidable (∀ task ∈ s.tasks id, ∀ candidate ∈ task.statusWrite,
      ∀ row ∈ s.table.silos.get candidate.siloId, row.etag = candidate.etag → row.status = .dead →
        candidate.status = .dead))
  | .start _ _ | .read _ _ | .collect _ _ | .probed _ _ | .abort _ =>
    inferInstanceAs (Decidable True)

section

variable {s s' : Membership} {siloId : String} {table : MembershipTable} {writer : Writer}

theorem not_resurrects_of_status {c : Commit}
    (h : ∀ old ∈ c.old, ∀ new ∈ c.new, new.status = old.status ∨ new.status = .dead) :
      ¬ c.Resurrects := by
  rintro ⟨old, ho, new, hn, hd, ha⟩
  rcases h old ho new hn with hs | hs
  · exact ha (hs.trans hd)
  · exact ha hs

/-- Among all writes that go through, just those of the two kinds can bring a
dead row back. -/
theorem sparesDead_iff (h : s.WellKept) {id : ℕ} {task : WriterTask} (ht : s.tasks id = some task)
    (hw : s.table.write task.phase = some (siloId, writer, .ok (some table))) :
    SparesDead s (.write id) ↔
      ¬ Commit.Resurrects ⟨siloId, s.table.silos.get siloId, table.silos.get siloId, writer⟩ := by
  have hphase := h.tasks id task ht
  have hspares : SparesDead s (.write id) ↔ ∀ candidate ∈ task.statusWrite,
      ∀ row ∈ s.table.silos.get candidate.siloId, row.etag = candidate.etag → row.status = .dead →
        candidate.status = .dead := by
    simp only [SparesDead, ht, Option.mem_some_iff, forall_eq']
  rw [hspares]
  obtain ⟨routine, failures, phase⟩ := task
  cases phase with
  | suspecting a =>
    refine iff_of_true (fun candidate hc ↦ by cases hc)
      (not_resurrects_of_status fun old ho new hn ↦ ?_)
    obtain ⟨rfl, hw'⟩ := Prod.mk.inj (Option.some.inj hw)
    obtain ⟨stored, hu⟩ := map_snd_ok (Prod.mk.inj hw').2
    obtain ⟨current, hc, -, rfl⟩ := MembershipTable.tryAddSuspicion_ok hu
    obtain rfl := Option.some.inj (hc.symm.trans ho)
    rw [← Table.key_of_get hc] at hn
    have hstatus : new.status = (current.addSuspicion (a.detector.newVote a.now)).status :=
      (MembershipTable.store_found hn).1
    exact .inl hstatus
  | declaring a reports =>
    refine iff_of_true (fun candidate hc ↦ by cases hc)
      (not_resurrects_of_status fun old ho new hn ↦ ?_)
    obtain ⟨rfl, hw'⟩ := Prod.mk.inj (Option.some.inj hw)
    obtain ⟨stored, hu⟩ := map_snd_ok (Prod.mk.inj hw').2
    obtain ⟨rfl, -⟩ := MembershipTable.tryUpdateSilo_ok hu
    have hstatus : new.status = (a.detector.deadRow a.row a.now).status :=
      (MembershipTable.store_found hn).1
    exact .inr hstatus
  | updating read candidate =>
    obtain ⟨rfl, hw'⟩ := Prod.mk.inj (Option.some.inj hw)
    obtain ⟨stored, hu⟩ := map_snd_ok (Prod.mk.inj hw').2
    obtain ⟨rfl, hetag⟩ := MembershipTable.tryUpdateSilo_ok hu
    cases hr : routine.setsStatus with
    | true =>
      simp only [WriterTask.statusWrite, hr, if_true, Option.mem_some_iff, forall_eq']
      constructor
      · rintro hd ⟨old, ho, new, hn, hdead, halive⟩
        rw [(MembershipTable.store_found hn).1] at halive
        exact halive (hd old ho (hetag old ho) hdead)
      · intro hn row hrow _ hdead
        by_contra halive
        have hget := MembershipTable.store_get s.table candidate candidate.siloId
        rw [if_pos rfl] at hget
        exact hn ⟨row, hrow, _, hget, hdead, halive⟩
    | false =>
      refine iff_of_true (fun c hc ↦ ?_) (not_resurrects_of_status fun old ho new hn ↦ ?_)
      · simp only [WriterTask.statusWrite, hr] at hc
        cases hc
      · obtain ⟨row, readAt, hheld, hkey, he, hs⟩ := hphase hr
        obtain ⟨rfl, -⟩ := hheld.current (hkey ▸ ho) ((hetag old ho).trans he)
        exact .inl ((MembershipTable.store_found hn).1.trans hs)
  | deleting row =>
    refine iff_of_true (fun candidate hc ↦ by cases hc) ?_
    rintro ⟨old, ho, new, hn, -⟩
    obtain ⟨rfl, hw'⟩ := Prod.mk.inj (Option.some.inj hw)
    obtain rfl := MembershipTable.tryDeleteSilo_ok (Prod.mk.inj hw').2
    rw [Table.get_pop, if_pos rfl] at hn
    cases hn
  | _ => cases hw

theorem write_of_statusWrite {task : WriterTask} {candidate row : SiloInfo}
    (hc : task.statusWrite = some candidate) (hr : s.table.silos.get candidate.siloId = some row)
    (he : row.etag = candidate.etag) :
    s.table.write task.phase =
      some (candidate.siloId, .other, .ok (some (s.table.store candidate).2)) := by
  obtain ⟨routine, failures, phase⟩ := task
  cases phase with
  | updating read candidate' =>
    simp only [WriterTask.statusWrite] at hc
    split_ifs at hc
    obtain rfl := Option.some.inj hc
    have hu : s.table.tryUpdateSilo candidate' = .ok (s.table.store candidate') := by
      simp only [MembershipTable.tryUpdateSilo, hr, he, ne_eq, not_true_eq_false, if_false]
    simp only [MembershipTable.write, hu, Except.map]
  | _ => cases hc

theorem log_of_write {id : ℕ} {task : WriterTask} (ht : s.tasks id = some task)
    (hw : s.table.write task.phase = some (siloId, writer, .ok (some table)))
    (hs : step s (.write id) = some s') :
    s'.log = s.log ++ [⟨siloId, s.table.silos.get siloId, table.silos.get siloId, writer⟩] := by
  simp only [step, ht, Option.bind_some, hw] at hs
  rw [← Option.some.inj hs]
  rfl

theorem log_of_sparesDead (h : s.WellKept) {e : MembershipEvent} (hok : SparesDead s e)
    (hs : step s e = some s') (hlog : ∀ c ∈ s.log, ¬ c.Resurrects) :
    ∀ c ∈ s'.log, ¬ c.Resurrects := by
  rcases step_cases hs with ⟨id, task?, rfl, -⟩ | ⟨id, task, siloId, writer, table, rfl, ht, hw, -⟩
  · exact hlog
  · intro c hc
    rw [log_of_write ht hw hs] at hc
    rcases List.mem_append.mp hc with hc | hc
    · exact hlog c hc
    · exact List.mem_singleton.mp hc ▸ (sparesDead_iff h ht hw).mp hok

theorem resurrects_of_not_sparesDead (h : s.WellKept) {e : MembershipEvent} (hok : ¬ SparesDead s e)
    (hs : step s e = some s') : ∃ c ∈ s'.log, c.Resurrects := by
  cases e with
  | write id =>
    have hbad := hok
    simp only [SparesDead, not_forall] at hbad
    obtain ⟨task, ht, candidate, hc, row, hr, he, -⟩ := hbad
    have hw := write_of_statusWrite hc hr he
    refine ⟨_, ?_, not_not.mp (mt (sparesDead_iff h ht hw).mpr hok)⟩
    rw [log_of_write ht hw hs]
    exact List.mem_append_right _ (List.mem_singleton_self _)
  | _ => exact absurd trivial hok

theorem resurrects_stays {e : MembershipEvent} (hs : step s e = some s')
    (h : ∃ c ∈ s.log, c.Resurrects) :
    ∃ c ∈ s'.log, c.Resurrects := by
  obtain ⟨c, hc, hr⟩ := h
  rcases step_cases hs with ⟨id, task?, rfl, -⟩ | ⟨id, task, siloId, writer, table, -, -, -, rfl⟩
  · exact ⟨c, hc, hr⟩
  · exact ⟨c, List.mem_append_left _ hc, hr⟩

end

/-- A run brings no dead row back exactly when its status transitions and
registrations spare the dead rows, whatever votes, heartbeats and deletions do. -/
theorem dead_terminal_iff (events : List MembershipEvent) (s : Membership)
    (h : exec step empty events = some s) :
    (∀ c ∈ s.log, ¬ c.Resurrects) ↔ Meets step SparesDead empty events := by
  have hkeep : ∀ s e s', (s.WellKept ∧ ∀ c ∈ s.log, ¬ c.Resurrects) → SparesDead s e →
    step s e = some s' →
      s'.WellKept ∧ ∀ c ∈ s'.log, ¬ c.Resurrects :=
    fun s e s' hi hok hs ↦ ⟨hi.1.step hs, log_of_sparesDead hi.1 hok hs hi.2⟩
  have hspoil : ∀ s e s', (s.WellKept ∧ ∀ c ∈ s.log, ¬ c.Resurrects) → ¬ SparesDead s e →
    step s e = some s' →
      ∃ c ∈ s'.log, c.Resurrects :=
    fun s e s' hi hok hs ↦ resurrects_of_not_sparesDead hi.1 hok hs
  obtain ⟨hgood, hbad⟩ := exec_good_or_bad h
    ⟨wellKept_empty, fun c hc ↦ absurd hc List.not_mem_nil⟩ hkeep hspoil
    (fun _ _ _ hi hs ↦ resurrects_stays hs hi)
  constructor
  · intro hnone
    by_contra hmeets
    obtain ⟨c, hc, hr⟩ := hbad hmeets
    exact hnone c hc hr
  · exact fun hmeets ↦ (hgood hmeets).2

def selfDeath : List MembershipEvent :=
  [.start 0 (.register siloA "dev" 30000 0), .read 0 0, .write 0,
    .start 1 (.vote ⟨siloB, { FailureDetectorOptions.defaults with
      numVotesForDeathDeclaration := 1, one_le_votes := le_rfl }⟩ siloA),
    .read 1 10, .collect 1 (fun l k ↦ l.take k), .probed 1 (fun _ ↦ .fail), .write 1]

/-- Before it notices, it reports once more that it is alive, over its dead row. -/
def aliveAfterDeath : List MembershipEvent :=
  selfDeath ++ [.start 2 (.iAmAlive siloA), .read 2 20, .write 2]

theorem dead_terminal_aliveAfterDeath : ∃ s, exec step empty aliveAfterDeath = some s ∧
    (∃ c ∈ s.log, c.old.map SiloInfo.status = some .dead) ∧ ∀ c ∈ s.log, ¬ c.Resurrects := by
  have hruns : (exec step empty aliveAfterDeath).map (fun s ↦
      decide (∃ c ∈ s.log, c.old.map SiloInfo.status = some .dead)) = some true := by
    decide +kernel
  obtain ⟨s, hs, hold⟩ := Option.map_eq_some_iff.mp hruns
  exact ⟨s, hs, of_decide_eq_true hold, (dead_terminal_iff aliveAfterDeath s hs).mpr
    (by decide +kernel)⟩

/-- `siloA` sees that it is dead and stops, which begins with a transition to
`shuttingDown`. -/
def stopAfterDeath : List MembershipEvent :=
  selfDeath ++ [.start 2 (.transition siloA .shuttingDown), .read 2 20, .write 2]

theorem stop_overwrites_dead : ¬ ∀ events s, exec step empty events = some s → ∀ c ∈ s.log,
    ¬ c.Resurrects := by
  intro h
  have hruns : (exec step empty stopAfterDeath).map (fun s ↦ decide (∀ c ∈ s.log, ¬ c.Resurrects)) =
    some false := by
    decide +kernel
  obtain ⟨s, hs, hbad⟩ := Option.map_eq_some_iff.mp hruns
  exact of_decide_eq_false hbad (h stopAfterDeath s hs)

end Membership

end Pyleans
