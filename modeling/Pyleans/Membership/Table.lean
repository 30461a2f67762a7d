import Pyleans.Identity
import Pyleans.Library.OptimisticLock
import Pyleans.Library.Table

namespace Pyleans

open Library

inductive SiloStatus
  | joining
  | active
  | shuttingDown
  | dead
deriving DecidableEq, Repr

/-- Clock readings are rational numbers; nothing depends on rounding. -/
structure SuspicionVote where
  suspectingSilo : String
  timestamp : ℚ
deriving DecidableEq

structure SiloInfo where
  address : SiloAddress
  status : SiloStatus
  lastHeartbeat : ℚ
  startTime : ℚ
  clusterId : Option String
  gatewayPort : Option ℤ
  version : ℤ
  iAmAlive : ℚ
  suspicions : List SuspicionVote
  etag : Option String
deriving DecidableEq

def SiloInfo.siloId (s : SiloInfo) : String := s.address.siloId

def SiloInfo.addSuspicion (s : SiloInfo) (vote : SuspicionVote) : SiloInfo :=
  { s with suspicions := s.suspicions ++ [vote] }

structure MembershipSnapshot where
  version : ℤ
  silos : List SiloInfo
deriving DecidableEq

inductive MembershipError
  | siloNotFound
  | tableStale

/-- The table behind a membership provider. -/
structure MembershipTable where
  version : ℤ
  silos : Table SiloInfo.siloId

namespace MembershipTable

def empty : MembershipTable := ⟨0, .empty⟩

def readAll (t : MembershipTable) : MembershipSnapshot := ⟨t.version, t.silos.items⟩

def readSilo (t : MembershipTable) (siloId : String) : Option SiloInfo :=
  t.readAll.silos.find? fun s ↦ s.siloId = siloId

def etagOf (version : ℤ) : String := s!"v{version}"

def store (t : MembershipTable) (silo : SiloInfo) : SiloInfo × MembershipTable :=
  let stored := { silo with etag := some (etagOf (t.version + 1)) }
  (stored, ⟨t.version + 1, t.silos.put stored⟩)

def tryUpdateSilo (t : MembershipTable) (silo : SiloInfo) :
    Except MembershipError (SiloInfo × MembershipTable) :=
  match t.silos.get silo.siloId with
  | none => if silo.etag ≠ none then .error .siloNotFound else .ok (t.store silo)
  | some current => if current.etag ≠ silo.etag then .error .tableStale else .ok (t.store silo)

def tryAddSuspicion (t : MembershipTable) (siloId : String) (vote : SuspicionVote)
    (expectedEtag : String) :
    Except MembershipError (SiloInfo × MembershipTable) :=
  match t.silos.get siloId with
  | none => .error .siloNotFound
  | some current =>
    if current.etag ≠ some expectedEtag then .error .tableStale
    else .ok (t.store (current.addSuspicion vote))

/-- Deletes a row. A row that is gone already leaves nothing to write. -/
def tryDeleteSilo (t : MembershipTable) (silo : SiloInfo) :
    Except MembershipError (Option MembershipTable) :=
  match t.silos.get silo.siloId with
  | none => .ok none
  | some current =>
    if current.etag ≠ silo.etag then .error .tableStale
    else .ok (some ⟨t.version + 1, t.silos.pop silo.siloId⟩)

theorem readSilo_eq (t : MembershipTable) (siloId : String) :
    t.readSilo siloId = t.silos.get siloId := rfl

theorem etagOf_injective : Function.Injective fun version ↦ some (etagOf version) := by
  intro v w h
  have hl := congrArg String.toList (Option.some.inj h)
  simpa [etagOf, toString, String.toList_inj, Int.repr_inj] using hl

/-- Rows are written under the etag they were read with, and every write gives a new one. -/
def tagging : Tagging String SiloInfo (Option String) where
  key := SiloInfo.siloId
  tag := SiloInfo.etag
  stamp version := some (etagOf version)
  stamp_injective := etagOf_injective

section

variable {t t' : MembershipTable} {silo stored : SiloInfo}

theorem store_get (t : MembershipTable) (silo : SiloInfo) (siloId : String) :
    (t.store silo).2.silos.get siloId =
      if siloId = silo.siloId then some { silo with etag := some (etagOf (t.version + 1)) }
      else t.silos.get siloId := by
  simp only [store, Table.get_put]
  rfl

theorem store_found {row : SiloInfo} (h : (t.store silo).2.silos.get silo.siloId = some row) :
    row.status = silo.status ∧ row.suspicions = silo.suspicions := by
  rw [store_get, if_pos rfl] at h
  rw [← Option.some.inj h]
  exact ⟨rfl, rfl⟩

theorem store_writes (t : MembershipTable) (silo : SiloInfo) :
    (t.store silo).2.version = t.version + 1 ∧
      tagging.Writes t.silos.get (t.store silo).2.silos.get t.version silo.siloId := by
  refine ⟨rfl, ⟨fun k hk ↦ by rw [store_get, if_neg hk], fun r hr ↦ ?_⟩⟩
  rw [store_get, if_pos rfl] at hr
  rw [← Option.some.inj hr]
  rfl

theorem pop_writes (t : MembershipTable) (siloId : String) :
    tagging.Writes t.silos.get (t.silos.pop siloId).get t.version siloId := by
  refine ⟨fun k hk ↦ by rw [Table.get_pop, if_neg hk], fun r hr ↦ ?_⟩
  rw [Table.get_pop, if_pos rfl] at hr
  cases hr

theorem tryUpdateSilo_ok (h : t.tryUpdateSilo silo = .ok (stored, t')) :
    t' = (t.store silo).2 ∧
      ∀ current, t.silos.get silo.siloId = some current → current.etag = silo.etag := by
  unfold tryUpdateSilo at h
  split at h
  · next hn =>
    split_ifs at h
    exact ⟨congrArg Prod.snd (Except.ok.inj h).symm, fun current hc ↦ by rw [hn] at hc; cases hc⟩
  · next current hc =>
    split_ifs at h with he
    refine ⟨congrArg Prod.snd (Except.ok.inj h).symm, fun c hc' ↦ ?_⟩
    rw [hc] at hc'
    rw [← Option.some.inj hc']
    exact not_not.mp he

theorem tryUpdateSilo_found (h : t.tryUpdateSilo silo = .ok (stored, t')) {etag : String}
    (he : silo.etag = some etag) : ∃ current, t.silos.get silo.siloId = some current := by
  unfold tryUpdateSilo at h
  split at h
  · split_ifs at h with hn
    exact absurd (he.symm.trans (not_not.mp hn)) (Option.some_ne_none etag)
  · next current hc => exact ⟨current, hc⟩

theorem tryAddSuspicion_ok {siloId expectedEtag : String} {vote : SuspicionVote}
    (h : t.tryAddSuspicion siloId vote expectedEtag = .ok (stored, t')) :
    ∃ current, t.silos.get siloId = some current ∧ current.etag = some expectedEtag ∧
      t' = (t.store (current.addSuspicion vote)).2 := by
  unfold tryAddSuspicion at h
  split at h
  · cases h
  · next current hc =>
    split_ifs at h with he
    exact ⟨current, hc, not_not.mp he, congrArg Prod.snd (Except.ok.inj h).symm⟩

theorem tryDeleteSilo_ok (h : t.tryDeleteSilo silo = .ok (some t')) :
    t' = ⟨t.version + 1, t.silos.pop silo.siloId⟩ := by
  unfold tryDeleteSilo at h
  split at h
  · cases h
  · split_ifs at h
    exact (Option.some.inj (Except.ok.inj h)).symm

end

end MembershipTable

end Pyleans
