import Mathlib
import Pyleans.Membership.Table

namespace Pyleans

/-- The options that voting and the choice of probe targets read, as
`__post_init__` lets them pass. -/
structure FailureDetectorOptions where
  numProbedSilos : ℕ
  numVotesForDeathDeclaration : ℕ
  deathVoteExpiration : ℚ
  indirectProbeIntermediaries : ℕ
  one_le_votes : 1 ≤ numVotesForDeathDeclaration
  expiration_pos : 0 < deathVoteExpiration

def FailureDetectorOptions.defaults : FailureDetectorOptions where
  numProbedSilos := 3
  numVotesForDeathDeclaration := 2
  deathVoteExpiration := 180
  indirectProbeIntermediaries := 2
  one_le_votes := by decide
  expiration_pos := by norm_num

structure FailureDetector where
  localSilo : SiloAddress
  options : FailureDetectorOptions

/-- What an intermediary that was asked for an indirect probe came back with. -/
inductive IntermediaryReport
  | ok
  | fail
  | unreachable
deriving DecidableEq

namespace FailureDetector

def freshDistinctVoters (d : FailureDetector) (row : SiloInfo) (now : ℚ) : Finset String :=
  let cutoff := now - d.options.deathVoteExpiration
  ((row.suspicions.filter fun v ↦ cutoff ≤ v.timestamp).map SuspicionVote.suspectingSilo).toFinset

def pickIntermediaries (d : FailureDetector) (sample : List SiloAddress → ℕ → List SiloAddress)
    (snapshot : MembershipSnapshot) (peer : SiloAddress) : List SiloAddress :=
  let candidates := (snapshot.silos.filter fun s ↦
    s.status = .active ∧ s.address ≠ d.localSilo ∧ s.address ≠ peer).map SiloInfo.address
  let k := min d.options.indirectProbeIntermediaries candidates.length
  if k = 0 then [] else sample candidates k

def indirectProbe (reports : List IntermediaryReport) : Bool := reports.any fun r ↦ r = .ok

def newVote (d : FailureDetector) (now : ℚ) : SuspicionVote := ⟨d.localSilo.siloId, now⟩

def isDeciding (d : FailureDetector) (row : SiloInfo) (now : ℚ) : Prop :=
  d.options.numVotesForDeathDeclaration ≤
    (d.freshDistinctVoters row now ∪ {d.localSilo.siloId}).card

instance (d : FailureDetector) (row : SiloInfo) (now : ℚ) : Decidable (d.isDeciding row now) := by
  unfold isDeciding; infer_instance

def deadRow (d : FailureDetector) (row : SiloInfo) (now : ℚ) : SiloInfo :=
  { row.addSuspicion (d.newVote now) with status := .dead }

theorem freshDistinctVoters_congr {d : FailureDetector} {row row' : SiloInfo} {now : ℚ}
    (h : row.suspicions = row'.suspicions) : d.freshDistinctVoters row now =
      d.freshDistinctVoters row' now := by
  simp only [freshDistinctVoters, h]

theorem mem_freshDistinctVoters {d : FailureDetector} {row : SiloInfo} {now : ℚ} {voter : String} :
    voter ∈ d.freshDistinctVoters row now ↔
      ∃ v ∈ row.suspicions, v.suspectingSilo = voter ∧ now - d.options.deathVoteExpiration ≤
        v.timestamp := by
  simp only [freshDistinctVoters, List.mem_toFinset, List.mem_map, List.mem_filter,
    decide_eq_true_eq]
  constructor
  · rintro ⟨v, ⟨hv, ht⟩, rfl⟩
    exact ⟨v, hv, rfl, ht⟩
  · rintro ⟨v, hv, rfl, ht⟩
    exact ⟨v, ⟨hv, ht⟩, rfl⟩

/-- The vote of the declaring silo is fresh itself and joins those it read. -/
theorem freshDistinctVoters_deadRow (d : FailureDetector) (row : SiloInfo) (now : ℚ) :
    d.freshDistinctVoters (d.deadRow row now) now = d.freshDistinctVoters row now ∪
      {d.localSilo.siloId} := by
  have hpos := d.options.expiration_pos
  have hfresh : now - d.options.deathVoteExpiration ≤ (d.newVote now).timestamp :=
    show now - d.options.deathVoteExpiration ≤ now by linarith
  ext voter
  rw [Finset.mem_union, Finset.mem_singleton, mem_freshDistinctVoters, mem_freshDistinctVoters]
  constructor
  · rintro ⟨v, hv, hs, ht⟩
    rcases List.mem_append.mp hv with hv | hv
    · exact .inl ⟨v, hv, hs, ht⟩
    · exact .inr (by rw [← hs, List.mem_singleton.mp hv, newVote])
  · rintro (⟨v, hv, hs, ht⟩ | rfl)
    · exact ⟨v, List.mem_append_left _ hv, hs, ht⟩
    · exact ⟨d.newVote now, List.mem_append_right _ (List.mem_singleton_self _), rfl, hfresh⟩

end FailureDetector

end Pyleans
