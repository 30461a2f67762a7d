import Mathlib
import Pyleans.Membership.Writers

namespace Pyleans

open Library

structure PeerHealth where
  missCount : ℕ
  consecutiveOk : ℕ
  lastProbeOkTime : ℚ
  lastRtt : ℚ
deriving DecidableEq

def PeerHealth.fresh : PeerHealth := ⟨0, 0, 0, 0⟩

inductive ProbeResult
  | ok (rtt : ℚ)
  | failed
deriving DecidableEq

/-- What one attempt to vote comes to. -/
inductive AttemptOutcome
  | rowGone
  | ended (declared : Bool)
  | tableStale
  | unavailable
  | siloNotFound
  | raised
deriving DecidableEq

def AttemptOutcome.findsNoRow : AttemptOutcome → Bool
  | .rowGone | .siloNotFound => true
  | _ => false

/-- A `_vote_or_declare` that is under way, and how many of its attempts are over. -/
structure PendingVote where
  peer : String
  attempts : ℕ
deriving DecidableEq

/-- The failure detector with what it knows of its peers, and its votes. A vote
that is over leaves nothing behind. -/
structure HealthMonitor where
  numMissedProbesLimit : ℕ
  health : Table (Prod.fst : String × PeerHealth → String)
  votes : List (Option PendingVote)
deriving DecidableEq

inductive HealthEvent
  | probeResult (peer : String) (result : ProbeResult) (now : ℚ)
  | disconnect (peer : String)
  | attempt (vote : ℕ) (peer : String) (outcome : AttemptOutcome)
deriving DecidableEq

namespace HealthMonitor

def new (numMissedProbesLimit : ℕ) : HealthMonitor := ⟨numMissedProbesLimit, .empty, []⟩

def peerHealth (m : HealthMonitor) (siloId : String) : PeerHealth :=
  match m.health.get siloId with
  | none => .fresh
  | some row => row.2

def setHealth (m : HealthMonitor) (siloId : String) (health : PeerHealth) : HealthMonitor :=
  { m with health := m.health.put (siloId, health) }

def bumpMissCount (m : HealthMonitor) (siloId : String) : HealthMonitor :=
  let health := m.peerHealth siloId
  m.setHealth siloId { health with missCount := min (health.missCount + 1) m.numMissedProbesLimit }

def resetMissCount (m : HealthMonitor) (siloId : String) : HealthMonitor :=
  m.setHealth siloId { m.peerHealth siloId with missCount := 0 }

def startVote (m : HealthMonitor) (peer : String) : HealthMonitor :=
  { m with votes := m.votes ++ [some ⟨peer, 0⟩] }

def onProbeResult (m : HealthMonitor) (peer : String) (result : ProbeResult) (now : ℚ) :
    HealthMonitor :=
  let health := m.peerHealth peer
  match result with
  | .ok rtt => m.setHealth peer ⟨0, health.consecutiveOk + 1, now, rtt⟩
  | .failed =>
    let missed :=
      m.setHealth peer { health with consecutiveOk := 0, missCount := health.missCount + 1 }
    if (missed.peerHealth peer).missCount < m.numMissedProbesLimit then missed
    else missed.startVote peer

def setVote (m : HealthMonitor) (vote : ℕ) (pending : Option PendingVote) : HealthMonitor :=
  { m with votes := m.votes.set vote pending }

/-- `_vote_or_declare` behind the end of an attempt. -/
def voteOrDeclare (m : HealthMonitor) (vote : ℕ) (pending : PendingVote) :
    AttemptOutcome → HealthMonitor
  | .rowGone | .siloNotFound => (m.resetMissCount pending.peer).setVote vote none
  | .ended _ | .unavailable | .raised => m.setVote vote none
  | .tableStale =>
    if pending.attempts + 1 < MAX_STALE_RETRY then
      m.setVote vote (some ⟨pending.peer, pending.attempts + 1⟩)
    else m.setVote vote none

def step (m : HealthMonitor) : HealthEvent → Option HealthMonitor
  | .probeResult peer result now => some (m.onProbeResult peer result now)
  | .disconnect peer => some (m.bumpMissCount peer)
  | .attempt vote peer outcome =>
    match m.votes[vote]? with
    | some (some pending) =>
      if pending.peer = peer then some (m.voteOrDeclare vote pending outcome) else none
    | _ => none

end HealthMonitor

def HealthEvent.misses (peer : String) (n : ℕ) : HealthEvent → ℕ
  | .probeResult p (.ok _) _ => if p = peer then 0 else n
  | .probeResult p .failed _ | .disconnect p => if p = peer then n + 1 else n
  | .attempt _ p outcome => if p = peer ∧ outcome.findsNoRow then 0 else n

/-- The misses of a peer since its last successful probe or the last vote that found its row
gone. -/
def missesSince (peer : String) (events : List HealthEvent) : ℕ :=
  events.foldl (HealthEvent.misses peer) 0

theorem missesSince_concat (peer : String) (events : List HealthEvent) (e : HealthEvent) :
    missesSince peer (events ++ [e]) = e.misses peer (missesSince peer events) := by
  rw [missesSince, List.foldl_append]
  rfl

namespace HealthMonitor

variable {m m' : HealthMonitor} {peer siloId : String} {health : PeerHealth} {e : HealthEvent}

theorem peerHealth_setHealth : (m.setHealth siloId health).peerHealth peer =
    if siloId = peer then health else m.peerHealth peer := by
  simp only [peerHealth, setHealth, Table.get_put, eq_comm (a := peer)]
  split_ifs <;> rfl

@[simp] theorem peerHealth_setVote (vote : ℕ) (pending : Option PendingVote) :
    (m.setVote vote pending).peerHealth peer = m.peerHealth peer := rfl

@[simp] theorem peerHealth_startVote : (m.startVote siloId).peerHealth peer = m.peerHealth peer :=
  rfl

theorem missCount_onProbeResult_failed (now : ℚ) :
    ((m.onProbeResult siloId .failed now).peerHealth peer).missCount =
    if siloId = peer then (m.peerHealth peer).missCount + 1 else (m.peerHealth peer).missCount := by
  have hset : ((m.setHealth siloId { m.peerHealth siloId with
      consecutiveOk := 0, missCount := (m.peerHealth siloId).missCount + 1 }).peerHealth
        peer).missCount =
        if siloId = peer then (m.peerHealth peer).missCount +
          1 else (m.peerHealth peer).missCount := by
    rw [peerHealth_setHealth]
    split_ifs with h
    · rw [h]
    · rfl
  simp only [onProbeResult]
  split_ifs at hset ⊢ <;> exact hset

theorem missCount_resetMissCount : ((m.resetMissCount siloId).peerHealth peer).missCount =
    if siloId = peer then 0 else (m.peerHealth peer).missCount := by
  rw [resetMissCount, peerHealth_setHealth]
  split_ifs <;> rfl

theorem missCount_voteOrDeclare (vote : ℕ) (pending : PendingVote) (outcome : AttemptOutcome) :
    ((m.voteOrDeclare vote pending outcome).peerHealth peer).missCount =
      if pending.peer = peer ∧ outcome.findsNoRow then 0 else (m.peerHealth peer).missCount := by
  cases outcome with
  | rowGone | siloNotFound =>
    simp [voteOrDeclare, missCount_resetMissCount, AttemptOutcome.findsNoRow]
  | ended | unavailable | raised => simp [voteOrDeclare, AttemptOutcome.findsNoRow]
  | tableStale =>
    simp only [voteOrDeclare, AttemptOutcome.findsNoRow, Bool.false_eq_true, and_false, if_false]
    split_ifs <;> rfl

theorem numMissedProbesLimit_step (h : m.step e = some m') :
    m'.numMissedProbesLimit = m.numMissedProbesLimit := by
  cases e with
  | probeResult p result now =>
    obtain rfl := Option.some.inj h
    cases result with
    | ok => rfl
    | failed =>
      simp only [onProbeResult]
      split_ifs <;> rfl
  | disconnect p => exact (Option.some.inj h) ▸ rfl
  | attempt vote p outcome =>
    simp only [step] at h
    split at h
    · split_ifs at h
      obtain rfl := Option.some.inj h
      cases outcome with
      | tableStale =>
        simp only [voteOrDeclare]
        split_ifs <;> rfl
      | _ => rfl
    · cases h

/-- The counter and the number of misses go through a step together, as far as the limit. -/
theorem missCount_step {n : ℕ} (h : m.step e = some m')
    (hn : min (m.peerHealth peer).missCount m.numMissedProbesLimit = min n m.numMissedProbesLimit) :
    min (m'.peerHealth peer).missCount m.numMissedProbesLimit =
      min (e.misses peer n) m.numMissedProbesLimit := by
  cases e with
  | probeResult p result now =>
    obtain rfl := Option.some.inj h
    cases result with
    | ok rtt =>
      rw [onProbeResult, peerHealth_setHealth, HealthEvent.misses]
      split_ifs
      · rfl
      · exact hn
    | failed =>
      rw [missCount_onProbeResult_failed, HealthEvent.misses]
      split_ifs <;> omega
  | disconnect p =>
    obtain rfl := Option.some.inj h
    rw [bumpMissCount, peerHealth_setHealth, HealthEvent.misses]
    split_ifs with hp
    · subst hp
      dsimp only
      omega
    · exact hn
  | attempt vote p outcome =>
    simp only [step] at h
    split at h
    · split_ifs at h with hp
      subst hp
      obtain rfl := Option.some.inj h
      rw [missCount_voteOrDeclare, HealthEvent.misses]
      split_ifs
      · rfl
      · exact hn
    · cases h

theorem missCount_run (peer : String) {limit : ℕ} {events : List HealthEvent}
    (h : exec step (new limit) events = some m) :
    m.numMissedProbesLimit = limit ∧ min (m.peerHealth peer).missCount limit =
      min (missesSince peer events) limit := by
  induction events using List.reverseRecOn generalizing m with
  | nil =>
    obtain rfl := Option.some.inj h
    exact ⟨rfl, rfl⟩
  | append_singleton events e ih =>
    obtain ⟨m₁, h₁, h⟩ := exec_append.mp h
    obtain ⟨m₂, hstep, h⟩ := exec_cons.mp h
    obtain rfl := Option.some.inj h
    obtain ⟨rfl, hcount⟩ := ih h₁
    rw [missesSince_concat]
    exact ⟨numMissedProbesLimit_step hstep, missCount_step hstep hcount⟩

def StartsVote (m m' : HealthMonitor) (peer : String) : Prop :=
  m'.votes = m.votes ++ [some ⟨peer, 0⟩]

theorem not_startsVote (h : m'.votes.length = m.votes.length) : ¬ StartsVote m m' peer := by
  intro hstarts
  have hlength := congrArg List.length hstarts
  rw [List.length_append, h, List.length_singleton] at hlength
  omega

theorem length_votes_voteOrDeclare (vote : ℕ) (pending : PendingVote) (outcome : AttemptOutcome) :
    (m.voteOrDeclare vote pending outcome).votes.length = m.votes.length := by
  cases outcome with
  | tableStale =>
    simp only [voteOrDeclare]
    split_ifs <;> exact List.length_set
  | _ => exact List.length_set

/-- Only a failed probe begins a vote, and only with a counter that has reached the limit. -/
theorem startsVote_step (h : m.step e = some m') : StartsVote m m' peer ↔
    (∃ now, e = .probeResult peer .failed now) ∧
      m.numMissedProbesLimit ≤ (m'.peerHealth peer).missCount := by
  cases e with
  | probeResult p result now =>
    obtain rfl := Option.some.inj h
    cases result with
    | ok rtt => exact iff_of_false (not_startsVote rfl) fun ⟨⟨_, he⟩, _⟩ ↦ nomatch he
    | failed =>
      have hvotes : (m.onProbeResult p .failed now).votes =
          if (m.peerHealth p).missCount + 1 < m.numMissedProbesLimit then m.votes else
            m.votes ++ [some ⟨p, 0⟩] := by
        simp only [onProbeResult, peerHealth_setHealth, if_true]
        split_ifs <;> rfl
      rw [StartsVote, hvotes, missCount_onProbeResult_failed]
      constructor
      · intro hstarts
        split_ifs at hstarts with hlimit
        · exact absurd hstarts (by simp)
        · obtain rfl : p = peer := by simpa using List.append_cancel_left hstarts
          rw [if_pos rfl]
          exact ⟨⟨now, rfl⟩, by omega⟩
      · rintro ⟨⟨now', he⟩, hlimit⟩
        cases he
        rw [if_pos rfl] at hlimit
        rw [if_neg (by omega)]
  | disconnect p =>
    obtain rfl := Option.some.inj h
    exact iff_of_false (not_startsVote rfl) fun ⟨⟨_, he⟩, _⟩ ↦ nomatch he
  | attempt vote p outcome =>
    refine iff_of_false (not_startsVote ?_) fun ⟨⟨_, he⟩, _⟩ ↦ nomatch he
    simp only [step] at h
    split at h
    · split_ifs at h
      obtain rfl := Option.some.inj h
      exact length_votes_voteOrDeclare _ _ _
    · cases h

end HealthMonitor

/-- In every run the counter of a peer is, as far as the limit, the number of
its misses since its last success or reset, and a vote on it begins on just
those failed probes with which that number is at the limit. -/
theorem misses_decide_votes (limit : ℕ) (events : List HealthEvent) (m : HealthMonitor)
    (peer : String) (h : exec HealthMonitor.step (.new limit) events = some m) :
    min (m.peerHealth peer).missCount limit = min (missesSince peer events) limit ∧
      ∀ e m', m.step e = some m' → (HealthMonitor.StartsVote m m' peer ↔
        (∃ now, e = .probeResult peer .failed now) ∧ limit ≤ missesSince peer (events ++ [e])) := by
  obtain ⟨rfl, hcount⟩ := HealthMonitor.missCount_run peer h
  refine ⟨hcount, fun e m' hstep ↦ ?_⟩
  have hnext := HealthMonitor.missCount_step hstep hcount
  rw [HealthMonitor.startsVote_step hstep, missesSince_concat]
  refine and_congr_right fun _ ↦ ?_
  omega

def missedThrice : List HealthEvent :=
  [.probeResult "c:1:1" (.ok 1) 10, .probeResult "c:1:1" .failed 20, .disconnect "c:1:1",
    .probeResult "b:1:1" .failed 25]

theorem misses_decide_votes_missedThrice :
    ∃ m m', exec HealthMonitor.step (.new 3) missedThrice = some m ∧
      m.step (.probeResult "c:1:1" .failed 30) = some m' ∧
      HealthMonitor.StartsVote m m' "c:1:1" := by
  refine ⟨_, _, rfl, rfl, ?_⟩
  exact ((misses_decide_votes 3 missedThrice _ "c:1:1" rfl).2 _ _ rfl).mpr ⟨⟨30, rfl⟩, by decide⟩

end Pyleans
