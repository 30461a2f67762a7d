import Pyleans.Library.Pool
import Pyleans.Membership.Writers

namespace Pyleans

open Library

def Writer.attempt : Writer → Option VoteAttempt
  | .suspicion a => some a
  | .declaration a _ => some a
  | .other => none

def Writer.reports : Writer → List IntermediaryReport
  | .declaration _ reports => reports
  | _ => []

namespace Membership

/-- A vote that writes a dead row has enough fresh votes in it, replaces the
very row it read, and was not contradicted by an intermediary. -/
def SafeDeclaration (before : List Commit) (c : Commit) : Prop :=
  ∀ a row, c.writer.attempt = some a → c.new = some row → row.status = .dead →
    a.detector.options.numVotesForDeathDeclaration ≤
      (a.detector.freshDistinctVoters row a.now).card ∧
    c.old = some a.row ∧ (∀ x ∈ before.drop a.readAt, x.siloId ≠ c.siloId) ∧
    IntermediaryReport.ok ∉ c.writer.reports

/-- A suspicion never changes the status, and the row it was read with was not dead. -/
theorem suspicion_not_dead {s : Membership} {a : VoteAttempt} {table : MembershipTable}
    {row : SiloInfo} (h : s.AttemptOk a)
    (hw : s.table.write (.suspecting a) = some (a.peer.siloId, .suspicion a, .ok (some table)))
    (hr : table.silos.get a.peer.siloId = some row) : row.status ≠ .dead := by
  obtain ⟨stored, hu⟩ := map_snd_ok (Prod.mk.inj (Prod.mk.inj (Option.some.inj hw)).2).2
  obtain ⟨current, hc, he, rfl⟩ := MembershipTable.tryAddSuspicion_ok hu
  obtain ⟨v, -, hetag⟩ := h.held.2.1
  have hsame : current.etag = a.row.etag := by
    have hrow : a.row.etag = some (MembershipTable.etagOf v) := hetag
    rw [he, hrow, Option.getD_some]
  obtain ⟨rfl, -⟩ := h.held.current (h.key ▸ hc) hsame
  rw [← h.key] at hr
  have hstatus : row.status = (a.row.addSuspicion (a.detector.newVote a.now)).status :=
    (MembershipTable.store_found hr).1
  rw [hstatus]
  exact h.alive

theorem safe_write {s : Membership} (h : s.WellKept) {id : ℕ} {task : WriterTask} {siloId : String}
    {writer : Writer} {table : MembershipTable} (ht : s.tasks id = some task)
    (hw : s.table.write task.phase = some (siloId, writer, .ok (some table))) :
    SafeDeclaration s.log ⟨siloId, s.table.silos.get siloId, table.silos.get siloId, writer⟩ := by
  intro a row ha hr hdead
  have hphase := h.tasks id task ht
  obtain ⟨routine, failures, phase⟩ := task
  cases phase with
  | suspecting b =>
    obtain ⟨rfl, hw'⟩ := Prod.mk.inj (Option.some.inj hw)
    obtain ⟨rfl, hw'⟩ := Prod.mk.inj hw'
    exact absurd hdead (suspicion_not_dead hphase (by rw [hw]) hr)
  | declaring b reports =>
    obtain ⟨rfl, hw'⟩ := Prod.mk.inj (Option.some.inj hw)
    obtain ⟨rfl, hupdate⟩ := Prod.mk.inj hw'
    obtain rfl := Option.some.inj ha
    obtain ⟨hok, hdec, hreports⟩ := hphase
    obtain ⟨stored, hu⟩ := map_snd_ok hupdate
    obtain ⟨rfl, hetag⟩ := MembershipTable.tryUpdateSilo_ok hu
    have hsuspicions : row.suspicions = (b.detector.deadRow b.row b.now).suspicions :=
      (MembershipTable.store_found hr).2
    -- The row is there: a table without it refuses a write that carries an etag.
    obtain ⟨v, -, hv⟩ := hok.held.2.1
    obtain ⟨current, hcurrent⟩ := MembershipTable.tryUpdateSilo_found hu hv
    obtain ⟨rfl, hsince⟩ := hok.held.current hcurrent (hetag current hcurrent)
    refine ⟨?_, hcurrent, hsince, hreports⟩
    rw [FailureDetector.freshDistinctVoters_congr hsuspicions,
      FailureDetector.freshDistinctVoters_deadRow]
    exact hdec
  | updating read candidate =>
    obtain ⟨-, hw'⟩ := Prod.mk.inj (Option.some.inj hw)
    obtain ⟨rfl, -⟩ := Prod.mk.inj hw'
    cases ha
  | deleting b =>
    obtain ⟨-, hw'⟩ := Prod.mk.inj (Option.some.inj hw)
    obtain ⟨rfl, -⟩ := Prod.mk.inj hw'
    cases ha
  | _ => cases hw

theorem safe_log {s : Membership} (h : Reachable step empty s) {before after : List Commit}
    {c : Commit} (hlog : s.log = before ++ c :: after) : SafeDeclaration before c := by
  induction h generalizing before after with
  | refl => simp [empty] at hlog
  | next hreach _ hs ih =>
    have hwell := wellKept_reachable hreach
    rcases step_cases hs with ⟨id, task?, rfl, -⟩
      | ⟨id, task, siloId, writer, table, -, ht, hw, rfl⟩
    · exact ih hlog
    · rcases last_or_before hlog with ⟨rfl, rfl⟩ | ⟨after', hold⟩
      · exact safe_write hwell ht hw
      · exact ih hold

/-- Whenever a vote writes a dead row, at least as many distinct silos as are
needed have a vote in it that has not expired at the attempt's clock reading,
the row it replaces is the one the attempt read and was not written in between,
and no intermediary reported the silo alive. -/
theorem voting_safety (s : Membership) (h : Reachable step empty s) (before after : List Commit)
    (c : Commit) (hlog : s.log = before ++ c :: after) (a : VoteAttempt)
    (ha : c.writer.attempt = some a) (row : SiloInfo) (hrow : c.new = some row)
    (hdead : row.status = .dead) :
    (∃ voters : Finset String, a.detector.options.numVotesForDeathDeclaration ≤ voters.card ∧
      ∀ voter ∈ voters, ∃ v ∈ row.suspicions, v.suspectingSilo = voter ∧
        a.now - a.detector.options.deathVoteExpiration ≤ v.timestamp) ∧
    c.old = some a.row ∧ (∀ x ∈ before.drop a.readAt, x.siloId ≠ c.siloId) ∧
    ∀ report ∈ c.writer.reports, report ≠ .ok := by
  obtain ⟨hvotes, hold, hsince, hreports⟩ := safe_log h hlog a row ha hrow hdead
  refine ⟨⟨_, hvotes, fun voter hv ↦ FailureDetector.mem_freshDistinctVoters.mp hv⟩,
    hold, hsince, ?_⟩
  exact fun report hr hok ↦ hreports (hok ▸ hr)

def deathOfC : List MembershipEvent :=
  [.start 0 (.register siloC "dev" 30000 0), .read 0 0, .write 0,
    .start 3 (.register siloA "dev" 30000 0), .read 3 0, .write 3,
    .start 1 (.vote ⟨siloA, .defaults⟩ siloC), .read 1 10, .write 1,
    .start 2 (.vote ⟨siloB, .defaults⟩ siloC), .read 2 20, .collect 2 (fun l k ↦ l.take k),
    .probed 2 (fun _ ↦ .unreachable), .write 2]

/-- The status that the last write gave its row on behalf of a vote, with what
the intermediaries reported. -/
def lastDeclared (s : Membership) : Option (SiloStatus × List IntermediaryReport) :=
  s.log.getLast?.bind fun c ↦
    if c.writer.attempt.isSome then c.new.map fun row ↦ (row.status, c.writer.reports) else none

theorem deathOfC_runs :
    (exec step empty deathOfC).map lastDeclared = some (some (.dead, [.unreachable])) := by
  decide +kernel

theorem voting_safety_deathOfC : ∃ s before c a row, exec step empty deathOfC = some s ∧
    s.log = before ++ [c] ∧ c.writer.attempt = some a ∧ c.new = some row ∧ row.status = .dead ∧
    c.old = some a.row ∧ c.writer.reports = [.unreachable] ∧
    ∀ report ∈ c.writer.reports, report ≠ .ok := by
  obtain ⟨s, hs, hlast⟩ := Option.map_eq_some_iff.mp deathOfC_runs
  obtain ⟨c, hc, hdead⟩ := Option.bind_eq_some_iff.mp hlast
  obtain ⟨before, hlog⟩ := List.getLast?_eq_some_iff.mp hc
  split_ifs at hdead with ha
  obtain ⟨a, ha⟩ := Option.isSome_iff_exists.mp ha
  obtain ⟨row, hrow, hdead⟩ := Option.map_eq_some_iff.mp hdead
  obtain ⟨hdead, hreports⟩ := Prod.mk.inj hdead
  have hsafe := voting_safety s (reachable_of_exec hs) before [] c hlog a ha row hrow hdead
  exact ⟨s, before, c, a, row, hs, hlog, ha, hrow, hdead, hsafe.2.1, hreports, hsafe.2.2.2⟩

end Membership

end Pyleans
