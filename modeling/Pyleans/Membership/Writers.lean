import Pyleans.Library.Transition
import Pyleans.Membership.FailureDetector

namespace Pyleans

open Library

/-- Everything in the code that writes to the membership table. -/
inductive Routine
  | vote (detector : FailureDetector) (peer : SiloAddress)
  | iAmAlive (silo : SiloAddress)
  | transition (silo : SiloAddress) (status : SiloStatus)
  | register (silo : SiloAddress) (clusterId : String) (gatewayPort : ℤ) (now : ℚ)
  | unregister (silo : SiloAddress)

/-- A read of the peer's row that a vote is based on. `readAt` counts the
commits before it and is read by no step. -/
structure VoteAttempt where
  detector : FailureDetector
  peer : SiloAddress
  row : SiloInfo
  now : ℚ
  readAt : ℕ

inductive Phase
  | reading
  | suspecting (attempt : VoteAttempt)
  | collecting (attempt : VoteAttempt)
  | probing (attempt : VoteAttempt) (intermediaries : List SiloAddress)
  | declaring (attempt : VoteAttempt) (reports : List IntermediaryReport)
  | updating (read : Option SiloInfo) (candidate : SiloInfo)
  | deleting (row : SiloInfo)

def Phase.votes : Phase → Bool
  | .reading => false
  | .updating _ _ => false
  | .deleting _ => false
  | _ => true

structure WriterTask where
  routine : Routine
  staleFailures : ℕ
  phase : Phase

inductive Writer
  | suspicion (attempt : VoteAttempt)
  | declaration (attempt : VoteAttempt) (reports : List IntermediaryReport)
  | other

/-- A write that went through, with the row before and after it. -/
structure Commit where
  siloId : String
  old : Option SiloInfo
  new : Option SiloInfo
  writer : Writer

def MAX_STALE_RETRY : ℕ := 3

def OCC_MAX_RETRIES : ℕ := 5

def Routine.maxAttempts : Routine → ℕ
  | .vote _ _ => MAX_STALE_RETRY
  | .iAmAlive _ => 1
  | _ => OCC_MAX_RETRIES

def Routine.setsStatus : Routine → Bool
  | .transition _ _ => true
  | .register _ _ _ _ => true
  | _ => false

def registration (silo : SiloAddress) (clusterId : String) (gatewayPort : ℤ) (now : ℚ) :
    SiloInfo where
  address := silo
  status := .active
  lastHeartbeat := now
  startTime := now
  clusterId := some clusterId
  gatewayPort := some gatewayPort
  version := 0
  iAmAlive := now
  suspicions := []
  etag := none

/-- What a vote does with the row it has read; `none` when there is nothing to vote on. -/
def VoteAttempt.consider (a : VoteAttempt) : Option Phase :=
  if a.row.status = .dead then none
  else if a.detector.localSilo.siloId ∈ a.detector.freshDistinctVoters a.row a.now then none
  else if a.detector.isDeciding a.row a.now then some (.collecting a)
  else some (.suspecting a)

namespace MembershipTable

/-- The first read of a routine at time `now`; `none` when the routine ends there. -/
def begin (t : MembershipTable) (now : ℚ) (readAt : ℕ) : Routine → Option Phase
  | .vote detector peer =>
    (t.readSilo peer.siloId).bind fun row ↦ VoteAttempt.consider ⟨detector, peer, row, now, readAt⟩
  | .iAmAlive silo =>
    (t.readSilo silo.siloId).map fun row ↦
      .updating (some row) { row with iAmAlive := now, lastHeartbeat := now }
  | .transition silo status =>
    (t.readSilo silo.siloId).map fun row ↦ .updating (some row) { row with status := status }
  | .register silo clusterId gatewayPort startTime =>
    let existing := t.readSilo silo.siloId
    some (.updating existing
      { registration silo clusterId gatewayPort startTime
        with etag := existing.bind SiloInfo.etag })
  | .unregister silo => (t.readSilo silo.siloId).map .deleting

/-- The conditional write a phase ends in: the row, on whose behalf, and the
table after it, if it changes. -/
def write (t : MembershipTable) :
    Phase → Option (String × Writer × Except MembershipError (Option MembershipTable))
  | .suspecting a => some (a.peer.siloId, .suspicion a,
      (t.tryAddSuspicion a.peer.siloId (a.detector.newVote a.now) (a.row.etag.getD "")).map
        fun r ↦ some r.2)
  | .declaring a reports => some (a.row.siloId, .declaration a reports,
      (t.tryUpdateSilo (a.detector.deadRow a.row a.now)).map fun r ↦ some r.2)
  | .updating _ candidate => some (candidate.siloId, .other,
      (t.tryUpdateSilo candidate).map fun r ↦ some r.2)
  | .deleting row => some (row.siloId, .other, t.tryDeleteSilo row)
  | _ => none

end MembershipTable

/-- The table and the routines that run on it, on any number of silos. `log`
is the history of the table. -/
structure Membership where
  table : MembershipTable
  tasks : ℕ → Option WriterTask
  log : List Commit

inductive MembershipEvent
  | start (id : ℕ) (routine : Routine)
  | read (id : ℕ) (now : ℚ)
  | collect (id : ℕ) (sample : List SiloAddress → ℕ → List SiloAddress)
  | probed (id : ℕ) (report : SiloAddress → IntermediaryReport)
  | write (id : ℕ)
  | abort (id : ℕ)

namespace Membership

def empty : Membership := ⟨.empty, fun _ ↦ none, []⟩

def setTask (s : Membership) (id : ℕ) (task : Option WriterTask) : Membership :=
  { s with tasks := Function.update s.tasks id task }

def commit (s : Membership) (siloId : String) (table : MembershipTable) (writer : Writer) :
    Membership :=
  { s with
    table := table
    log := s.log ++ [⟨siloId, s.table.silos.get siloId, table.silos.get siloId, writer⟩] }

end Membership

/-- A stale write sends the routine back to its read, as often as it may try. -/
def WriterTask.retry (task : WriterTask) : Option WriterTask :=
  if task.staleFailures + 1 < task.routine.maxAttempts then
    some ⟨task.routine, task.staleFailures + 1, .reading⟩
  else none

namespace Membership

def step (s : Membership) : MembershipEvent → Option Membership
  | .start id routine =>
    if s.tasks id = none then some (s.setTask id (some ⟨routine, 0, .reading⟩)) else none
  | .read id now =>
    match s.tasks id with
    | some ⟨routine, failures, .reading⟩ =>
      some (s.setTask id ((s.table.begin now s.log.length routine).map fun p ↦
        ⟨routine, failures, p⟩))
    | _ => none
  | .collect id sample =>
    match s.tasks id with
    | some ⟨routine, failures, .collecting a⟩ =>
      let intermediaries := a.detector.pickIntermediaries sample s.table.readAll a.peer
      some (s.setTask id (some ⟨routine, failures, .probing a intermediaries⟩))
    | _ => none
  | .probed id report =>
    match s.tasks id with
    | some ⟨routine, failures, .probing a intermediaries⟩ =>
      let reports := intermediaries.map report
      let phase :=
        if FailureDetector.indirectProbe reports then .suspecting a else .declaring a reports
      some (s.setTask id (some ⟨routine, failures, phase⟩))
    | _ => none
  | .write id =>
    (s.tasks id).bind fun task ↦
      match s.table.write task.phase with
      | none => none
      | some (siloId, writer, .ok (some table)) =>
        some ((s.commit siloId table writer).setTask id none)
      | some (_, _, .ok none) => some (s.setTask id none)
      | some (_, _, .error .tableStale) => some (s.setTask id task.retry)
      | some (_, _, .error .siloNotFound) => some (s.setTask id none)
  | .abort id => if s.tasks id = none then none else some (s.setTask id none)

/-- What each event finds, and what the membership is after it. -/
inductive Moves (s : Membership) : MembershipEvent → Membership → Prop
  | start (id : ℕ) (routine : Routine) (hid : s.tasks id = none) :
      Moves s (.start id routine) (s.setTask id (some ⟨routine, 0, .reading⟩))
  | read {routine : Routine} {failures : ℕ} (id : ℕ) (now : ℚ)
      (hid : s.tasks id = some ⟨routine, failures, .reading⟩) :
      Moves s (.read id now)
        (s.setTask id ((s.table.begin now s.log.length routine).map fun p ↦ ⟨routine, failures, p⟩))
  | collect {routine : Routine} {failures : ℕ} {a : VoteAttempt} (id : ℕ)
      (sample : List SiloAddress → ℕ → List SiloAddress)
      (hid : s.tasks id = some ⟨routine, failures, .collecting a⟩) :
      Moves s (.collect id sample) (s.setTask id (some
        ⟨routine, failures, .probing a
          (a.detector.pickIntermediaries sample s.table.readAll a.peer)⟩))
  | probed {routine : Routine} {failures : ℕ} {a : VoteAttempt} {intermediaries : List SiloAddress}
      (id : ℕ) (report : SiloAddress → IntermediaryReport)
      (hid : s.tasks id = some ⟨routine, failures, .probing a intermediaries⟩) :
      Moves s (.probed id report) (s.setTask id (some ⟨routine, failures,
        if FailureDetector.indirectProbe (intermediaries.map report) then .suspecting a
        else .declaring a (intermediaries.map report)⟩))
  | written {task : WriterTask} {siloId : String} {writer : Writer} {table : MembershipTable}
      (id : ℕ) (hid : s.tasks id = some task)
      (hw : s.table.write task.phase = some (siloId, writer, .ok (some table))) :
      Moves s (.write id) ((s.commit siloId table writer).setTask id none)
  | unchanged {task : WriterTask} {siloId : String} {writer : Writer} (id : ℕ)
      (hid : s.tasks id = some task)
      (hw : s.table.write task.phase = some (siloId, writer, .ok none)) :
      Moves s (.write id) (s.setTask id none)
  | stale {task : WriterTask} {siloId : String} {writer : Writer} (id : ℕ)
      (hid : s.tasks id = some task)
      (hw : s.table.write task.phase = some (siloId, writer, .error .tableStale)) :
      Moves s (.write id) (s.setTask id task.retry)
  | notFound {task : WriterTask} {siloId : String} {writer : Writer} (id : ℕ)
      (hid : s.tasks id = some task)
      (hw : s.table.write task.phase = some (siloId, writer, .error .siloNotFound)) :
      Moves s (.write id) (s.setTask id none)
  | abort (id : ℕ) (hid : s.tasks id ≠ none) : Moves s (.abort id) (s.setTask id none)

theorem moves_of_step {s s' : Membership} {e : MembershipEvent} (hs : step s e = some s') :
    Moves s e s' := by
  cases e with
  | start id routine =>
    simp only [step] at hs
    split_ifs at hs with hid
    obtain rfl := Option.some.inj hs
    exact .start id routine hid
  | read id now =>
    simp only [step] at hs
    split at hs
    · next hid =>
      obtain rfl := Option.some.inj hs
      exact .read id now hid
    · cases hs
  | collect id sample =>
    simp only [step] at hs
    split at hs
    · next hid =>
      obtain rfl := Option.some.inj hs
      exact .collect id sample hid
    · cases hs
  | probed id report =>
    simp only [step] at hs
    split at hs
    · next hid =>
      obtain rfl := Option.some.inj hs
      exact .probed id report hid
    · cases hs
  | write id =>
    obtain ⟨task, hid, hs⟩ := Option.bind_eq_some_iff.mp hs
    split at hs
    · cases hs
    · next hw =>
      obtain rfl := Option.some.inj hs
      exact .written id hid hw
    · next hw =>
      obtain rfl := Option.some.inj hs
      exact .unchanged id hid hw
    · next hw =>
      obtain rfl := Option.some.inj hs
      exact .stale id hid hw
    · next hw =>
      obtain rfl := Option.some.inj hs
      exact .notFound id hid hw
  | abort id =>
    simp only [step] at hs
    split_ifs at hs with hid
    obtain rfl := Option.some.inj hs
    exact .abort id hid

def since (s : Membership) (readAt : ℕ) : List String := (s.log.drop readAt).map Commit.siloId

/-- `row` was read after `readAt` commits; while its etag is in the table, so is the row itself. -/
def Held (s : Membership) (row : SiloInfo) (readAt : ℕ) : Prop :=
  readAt ≤ s.log.length ∧
    MembershipTable.tagging.Held s.table.silos.get s.table.version (s.since readAt) row

structure AttemptOk (s : Membership) (a : VoteAttempt) : Prop where
  key : a.row.siloId = a.peer.siloId
  alive : a.row.status ≠ .dead
  held : s.Held a.row a.readAt

def PhaseOk (s : Membership) (routine : Routine) : Phase → Prop
  | .suspecting a => s.AttemptOk a
  | .collecting a => s.AttemptOk a ∧ a.detector.isDeciding a.row a.now
  | .probing a _ => s.AttemptOk a ∧ a.detector.isDeciding a.row a.now
  | .declaring a reports =>
    s.AttemptOk a ∧ a.detector.isDeciding a.row a.now ∧ IntermediaryReport.ok ∉ reports
  | .updating _ candidate => routine.setsStatus = false → ∃ row readAt, s.Held row readAt ∧
      candidate.siloId = row.siloId ∧ candidate.etag = row.etag ∧ candidate.status = row.status
  | _ => True

structure WellKept (s : Membership) : Prop where
  stamped : MembershipTable.tagging.AllStamped s.table.silos.get s.table.version
  tasks : ∀ id task, s.tasks id = some task → s.PhaseOk task.routine task.phase

section

variable {s s' : Membership} {siloId : String} {table : MembershipTable} {writer : Writer}

theorem Held.of_read (h : MembershipTable.tagging.AllStamped s.table.silos.get s.table.version)
    {row : SiloInfo} (hr : s.table.readSilo siloId = some row) : s.Held row s.log.length := by
  rw [MembershipTable.readSilo_eq] at hr
  refine ⟨le_rfl, ?_⟩
  rw [since, List.drop_length, List.map_nil]
  exact .of_read h (by rw [← Table.key_of_get hr] at hr; exact hr)

theorem Held.commit {row : SiloInfo} {readAt : ℕ} (h : s.Held row readAt)
    (hv : table.version = s.table.version + 1)
    (hw : MembershipTable.tagging.Writes s.table.silos.get table.silos.get s.table.version siloId) :
    (s.commit siloId table writer).Held row readAt := by
  have hheld := h.2.write hw
  have hsince : (s.commit siloId table writer).since readAt = s.since readAt ++ [siloId] := by
    rw [since, since, Membership.commit, List.drop_append_of_le_length h.1, List.map_append]
    rfl
  rw [← hv, ← hsince] at hheld
  exact ⟨by simp only [Membership.commit, List.length_append]; have := h.1; omega, hheld⟩

theorem Held.current {row current : SiloInfo} {readAt : ℕ} (h : s.Held row readAt)
    (hc : s.table.silos.get row.siloId = some current) (he : current.etag = row.etag) :
    current = row ∧ ∀ x ∈ s.log.drop readAt, x.siloId ≠ row.siloId := by
  obtain ⟨hrow, hsince⟩ := h.2.2 current hc he
  exact ⟨hrow, fun x hx hid ↦ hsince (List.mem_map.mpr ⟨x, hx, hid⟩)⟩

theorem PhaseOk.commit {routine : Routine} {phase : Phase} (h : s.PhaseOk routine phase)
    (hv : table.version = s.table.version + 1)
    (hw : MembershipTable.tagging.Writes s.table.silos.get table.silos.get s.table.version siloId) :
    (s.commit siloId table writer).PhaseOk routine phase := by
  have hattempt : ∀ a, s.AttemptOk a → (s.commit siloId table writer).AttemptOk a :=
    fun a ha ↦ ⟨ha.key, ha.alive, ha.held.commit hv hw⟩
  cases phase with
  | suspecting a => exact hattempt a h
  | collecting a => exact ⟨hattempt a h.1, h.2⟩
  | probing a intermediaries => exact ⟨hattempt a h.1, h.2⟩
  | declaring a reports => exact ⟨hattempt a h.1, h.2⟩
  | updating read candidate =>
    intro hr
    obtain ⟨row, readAt, hheld, hrow⟩ := h hr
    exact ⟨row, readAt, hheld.commit hv hw, hrow⟩
  | _ => trivial

theorem phaseOk_begin (h : MembershipTable.tagging.AllStamped s.table.silos.get s.table.version)
    {now : ℚ} {routine : Routine} {phase : Phase}
    (hb : s.table.begin now s.log.length routine = some phase) :
    s.PhaseOk routine phase := by
  cases routine with
  | vote detector peer =>
    obtain ⟨row, hr, hc⟩ := Option.bind_eq_some_iff.mp hb
    have ha : ∀ hd : row.status ≠ .dead, s.AttemptOk ⟨detector, peer, row, now, s.log.length⟩ :=
      fun hd ↦ ⟨Table.key_of_get hr, hd, .of_read h hr⟩
    unfold VoteAttempt.consider at hc
    split_ifs at hc with hd hv hdec
    · exact Option.some.inj hc ▸ ⟨ha hd, hdec⟩
    · exact Option.some.inj hc ▸ ha hd
  | iAmAlive silo =>
    obtain ⟨row, hr, rfl⟩ := Option.map_eq_some_iff.mp hb
    exact fun _ ↦ ⟨row, _, .of_read h hr, rfl, rfl, rfl⟩
  | transition silo status =>
    obtain ⟨row, -, rfl⟩ := Option.map_eq_some_iff.mp hb
    exact fun hi ↦ by cases hi
  | register silo clusterId gatewayPort startTime =>
    obtain rfl := Option.some.inj hb
    exact fun hi ↦ by cases hi
  | unregister silo =>
    obtain ⟨row, -, rfl⟩ := Option.map_eq_some_iff.mp hb
    trivial

/-- A step moves one routine on, or one routine's write goes through and ends it. -/
theorem step_cases {e : MembershipEvent} (hs : step s e = some s') :
    (∃ id task?, s' = s.setTask id task? ∧
      (s.WellKept → ∀ task ∈ task?, s.PhaseOk task.routine task.phase)) ∨
    ∃ id task siloId writer table, e = .write id ∧ s.tasks id = some task ∧
      s.table.write task.phase = some (siloId, writer, .ok (some table)) ∧
      s' = (s.commit siloId table writer).setTask id none := by
  cases moves_of_step hs with
  | start id routine hid =>
    refine .inl ⟨id, _, rfl, fun _ task ht ↦ ?_⟩
    obtain rfl := Option.some.inj ht
    trivial
  | read id now hid =>
    refine .inl ⟨id, _, rfl, fun h task ht ↦ ?_⟩
    obtain ⟨phase, hb, rfl⟩ := Option.map_eq_some_iff.mp ht
    exact phaseOk_begin h.stamped hb
  | @collect routine failures a id sample hid =>
    refine .inl ⟨id, _, rfl, fun h task ht ↦ ?_⟩
    obtain rfl := Option.some.inj ht
    have hphase : s.AttemptOk a ∧ a.detector.isDeciding a.row a.now := h.tasks _ _ hid
    exact hphase
  | probed id report hid =>
    refine .inl ⟨id, _, rfl, fun h task ht ↦ ?_⟩
    obtain rfl := Option.some.inj ht
    obtain ⟨ha, hdec⟩ := h.tasks _ _ hid
    dsimp only
    split_ifs with hok
    · exact ha
    · refine ⟨ha, hdec, fun hm ↦ hok (List.any_eq_true.mpr ⟨_, hm, by simp⟩)⟩
  | @written task siloId writer table id hid hw =>
    exact .inr ⟨id, task, siloId, writer, table, rfl, hid, hw, rfl⟩
  | stale id hid hw =>
    refine .inl ⟨id, _, rfl, fun _ retried ht ↦ ?_⟩
    unfold WriterTask.retry at ht
    split_ifs at ht
    · rw [← Option.some.inj ht]
      trivial
    · cases ht
  | unchanged id hid hw | notFound id hid hw | abort id hid =>
    exact .inl ⟨id, _, rfl, fun _ task ht ↦ by cases ht⟩

theorem task_of_setTask {id id₀ : ℕ} {task' : WriterTask} {task? : Option WriterTask}
    (h : (s.setTask id₀ task?).tasks id = some task') :
    (id = id₀ ∧ task? = some task') ∨ s.tasks id = some task' := by
  dsimp only [Membership.setTask] at h
  by_cases hid : id = id₀
  · rw [hid, Function.update_self] at h
    exact .inl ⟨hid, h⟩
  · rw [Function.update_of_ne hid] at h
    exact .inr h

/-- A routine goes on from where it was: it begins, reads anew after a stale
write, moves on in a vote, or goes by what it has read. -/
theorem task_of_step {e : MembershipEvent} (hs : step s e = some s') {id : ℕ} {task' : WriterTask}
    (ht : s'.tasks id = some task') :
    s.tasks id = some task' ∨
      (s.tasks id = none ∧ ∃ routine, e = .start id routine ∧ task' = ⟨routine, 0, .reading⟩) ∨
      ∃ task, s.tasks id = some task ∧ task'.routine = task.routine ∧
        (task'.phase = .reading ∨ (task.phase.votes = true ∧ task'.phase.votes = true) ∨
          ∃ now readAt, s.table.begin now readAt task.routine = some task'.phase) := by
  cases moves_of_step hs with
  | start id₀ routine hnone =>
    rcases task_of_setTask ht with ⟨rfl, h⟩ | h
    · exact .inr (.inl ⟨hnone, routine, rfl, (Option.some.inj h).symm⟩)
    · exact .inl h
  | read id₀ now hid =>
    rcases task_of_setTask ht with ⟨rfl, h⟩ | h
    · obtain ⟨phase, hb, rfl⟩ := Option.map_eq_some_iff.mp h
      exact .inr (.inr ⟨_, hid, rfl, .inr (.inr ⟨now, _, hb⟩)⟩)
    · exact .inl h
  | collect id₀ sample hid =>
    rcases task_of_setTask ht with ⟨rfl, h⟩ | h
    · obtain rfl := Option.some.inj h
      exact .inr (.inr ⟨_, hid, rfl, .inr (.inl ⟨rfl, rfl⟩)⟩)
    · exact .inl h
  | probed id₀ report hid =>
    rcases task_of_setTask ht with ⟨rfl, h⟩ | h
    · obtain rfl := Option.some.inj h
      refine .inr (.inr ⟨_, hid, rfl, .inr (.inl ⟨rfl, ?_⟩)⟩)
      dsimp only
      split_ifs <;> rfl
    · exact .inl h
  | stale id₀ hid hw =>
    rcases task_of_setTask ht with ⟨rfl, h⟩ | h
    · unfold WriterTask.retry at h
      split_ifs at h
      obtain rfl := Option.some.inj h
      exact .inr (.inr ⟨_, hid, rfl, .inl rfl⟩)
    · exact .inl h
  | written id₀ hid hw | unchanged id₀ hid hw | notFound id₀ hid hw | abort id₀ hid =>
    rcases task_of_setTask ht with ⟨-, h⟩ | h
    · cases h
    · exact .inl h

theorem map_snd_ok {r : Except MembershipError (SiloInfo × MembershipTable)} {t : MembershipTable}
    (h : r.map (fun r ↦ some r.2) = .ok (some t)) : ∃ stored, r = .ok (stored, t) := by
  cases r with
  | error e => cases h
  | ok r =>
    obtain rfl := Option.some.inj (Except.ok.inj h)
    exact ⟨r.1, rfl⟩

theorem write_ok {t t' : MembershipTable} {phase : Phase}
    (h : t.write phase = some (siloId, writer, .ok (some t'))) :
    t'.version = t.version + 1 ∧
      MembershipTable.tagging.Writes t.silos.get t'.silos.get t.version siloId := by
  cases phase with
  | suspecting a =>
    obtain ⟨rfl, hw⟩ := Prod.mk.inj (Option.some.inj h)
    obtain ⟨stored, hu⟩ := map_snd_ok (Prod.mk.inj hw).2
    obtain ⟨current, hc, -, rfl⟩ := MembershipTable.tryAddSuspicion_ok hu
    have hstore := t.store_writes (current.addSuspicion (a.detector.newVote a.now))
    exact Table.key_of_get hc ▸ hstore
  | declaring a reports =>
    obtain ⟨rfl, hw⟩ := Prod.mk.inj (Option.some.inj h)
    obtain ⟨stored, hu⟩ := map_snd_ok (Prod.mk.inj hw).2
    obtain ⟨rfl, -⟩ := MembershipTable.tryUpdateSilo_ok hu
    exact t.store_writes (a.detector.deadRow a.row a.now)
  | updating read candidate =>
    obtain ⟨rfl, hw⟩ := Prod.mk.inj (Option.some.inj h)
    obtain ⟨stored, hu⟩ := map_snd_ok (Prod.mk.inj hw).2
    obtain ⟨rfl, -⟩ := MembershipTable.tryUpdateSilo_ok hu
    exact t.store_writes candidate
  | deleting row =>
    obtain ⟨rfl, hw⟩ := Prod.mk.inj (Option.some.inj h)
    obtain rfl := MembershipTable.tryDeleteSilo_ok (Prod.mk.inj hw).2
    exact ⟨rfl, MembershipTable.pop_writes t row.siloId⟩
  | _ => cases h

theorem PhaseOk.setTask {id : ℕ} {task? : Option WriterTask} {routine : Routine} {phase : Phase}
    (h : s.PhaseOk routine phase) : (s.setTask id task?).PhaseOk routine phase := by
  have hattempt : ∀ a, s.AttemptOk a → (s.setTask id task?).AttemptOk a :=
    fun a ha ↦ ⟨ha.key, ha.alive, ha.held⟩
  cases phase with
  | suspecting a => exact hattempt a h
  | collecting a => exact ⟨hattempt a h.1, h.2⟩
  | probing a intermediaries => exact ⟨hattempt a h.1, h.2⟩
  | declaring a reports => exact ⟨hattempt a h.1, h.2⟩
  | _ => exact h

theorem WellKept.setTask (h : s.WellKept) {id : ℕ} {task? : Option WriterTask}
    (hnew : ∀ task, task? = some task → s.PhaseOk task.routine task.phase) :
      (s.setTask id task?).WellKept := by
  refine ⟨h.stamped, fun id' task ht ↦ ?_⟩
  by_cases hid : id' = id
  · simp only [Membership.setTask, hid, Function.update_self] at ht
    exact (hnew task ht).setTask
  · simp only [Membership.setTask, Function.update_of_ne hid] at ht
    exact (h.tasks id' task ht).setTask

theorem WellKept.step {e : MembershipEvent} (h : s.WellKept) (hs : step s e = some s') :
    s'.WellKept := by
  rcases step_cases hs with ⟨id, task?, rfl, hnew⟩
    | ⟨id, task, siloId, writer, table, -, -, hw, rfl⟩
  · exact h.setTask (hnew h)
  · obtain ⟨hv, hwrites⟩ := write_ok hw
    have hcommit : (s.commit siloId table writer).WellKept := by
      refine ⟨?_, fun id' task ht ↦ (h.tasks id' task ht).commit hv hwrites⟩
      have hstamped := h.stamped.write hwrites
      rw [← hv] at hstamped
      exact hstamped
    exact hcommit.setTask (fun task ht ↦ by cases ht)

theorem wellKept_empty : empty.WellKept :=
  ⟨fun _ _ hr ↦ (by cases hr), fun _ _ ht ↦ (by cases ht)⟩

theorem wellKept_reachable (h : Reachable Membership.step empty s) : s.WellKept :=
  h.invariant wellKept_empty (fun _ _ _ hi _ hs ↦ hi.step hs)

end

end Membership

end Pyleans
