import Pyleans.Library.Numerals
import Pyleans.Library.Sql
import Pyleans.Membership.YamlMembership

namespace Pyleans

open Library

/-- A row of `pyleans_membership`. Timestamps are kept without rounding. -/
structure PgRow where
  clusterId : String
  siloId : String
  host : String
  port : ℤ
  epoch : ℤ
  status : String
  gatewayPort : Option ℤ
  startTime : ℚ
  lastHeartbeat : ℚ
  iAmAlive : ℚ
  suspicions : List SuspicionVote
  etagVersion : ℤ
deriving DecidableEq

def PgRow.key (r : PgRow) : String × String := (r.clusterId, r.siloId)

/-- The two tables of the schema with their primary keys. -/
structure PgDatabase where
  membership : Table PgRow.key
  versions : Table (Prod.fst : String × ℤ → String)
deriving DecidableEq

/-- `int(None)`, `int` of a text that is no number and a time that no `datetime`
has raise errors of their own. -/
inductive PgError
  | membership (e : MembershipError)
  | typeError
  | valueError
  | outOfRange

def alive (silo : SiloInfo) : ℚ := if silo.iAmAlive > 0 then silo.iAmAlive else silo.lastHeartbeat

/-- `_ts(seconds)` does not raise: the year is from 1 to 9999. -/
def HasDatetime (seconds : ℚ) : Prop := -62135596800 ≤ seconds ∧ seconds < 253402300800

def Dated (silo : SiloInfo) : Prop :=
  HasDatetime silo.startTime ∧ HasDatetime silo.lastHeartbeat ∧ HasDatetime (alive silo)

instance decidableDated (silo : SiloInfo) : Decidable (Dated silo) := by
  unfold Dated HasDatetime; infer_instance

def pgRow (cluster : String) (silo : SiloInfo) (etagVersion : ℤ) : PgRow where
  clusterId := cluster
  siloId := silo.siloId
  host := silo.address.host
  port := silo.address.port
  epoch := silo.address.epoch
  status := silo.status.value
  gatewayPort := silo.gatewayPort
  startTime := silo.startTime
  lastHeartbeat := silo.lastHeartbeat
  iAmAlive := alive silo
  suspicions := silo.suspicions
  etagVersion := etagVersion

/-- The columns that an `UPDATE` of a row sets: the address and the start time stay. -/
def PgRow.set (silo : SiloInfo) (row : PgRow) : PgRow :=
  { row with
    status := silo.status.value
    gatewayPort := silo.gatewayPort
    lastHeartbeat := silo.lastHeartbeat
    iAmAlive := alive silo
    suspicions := silo.suspicions
    etagVersion := row.etagVersion + 1 }

def PgRow.addSuspicion (vote : SuspicionVote) (row : PgRow) : PgRow :=
  { row with suspicions := row.suspicions ++ [vote], etagVersion := row.etagVersion + 1 }

theorem etagVersion_set_ne (silo : SiloInfo) (row : PgRow) :
    (row.set silo).etagVersion ≠ row.etagVersion := by
  simp only [PgRow.set]
  omega

theorem etagVersion_addSuspicion_ne (vote : SuspicionVote) (row : PgRow) :
    (row.addSuspicion vote).etagVersion ≠ row.etagVersion := by
  simp only [PgRow.addSuspicion]
  omega

def rowToSilo (row : PgRow) : Except PgError SiloInfo :=
  match SiloStatus.ofValue row.status with
  | none => .error .valueError
  | some status => .ok {
      address := ⟨row.host, row.port, row.epoch⟩
      status := status
      lastHeartbeat := row.lastHeartbeat
      startTime := row.startTime
      clusterId := some row.clusterId
      gatewayPort := row.gatewayPort
      version := 0
      iAmAlive := row.iAmAlive
      suspicions := row.suspicions
      etag := some (toString row.etagVersion) }

def pgInt (etag : Option String) : Except PgError ℤ :=
  match etag with
  | none => .error .typeError
  | some text =>
    match Numerals.parseInt text with
    | none => .error .valueError
    | some n => .ok n

namespace PgDatabase

variable (cluster : String)

/-- `WHERE cluster_id = … AND silo_id = … AND etag_version = …`. -/
def expected (siloId : String) (etagVersion : ℤ) (row : PgRow) : Bool :=
  decide (row.key = (cluster, siloId)) && decide (row.etagVersion = etagVersion)

def bumpVersion (db : PgDatabase) : PgDatabase :=
  match db.versions.get cluster with
  | none => { db with versions := db.versions.put (cluster, 1) }
  | some row => { db with versions := db.versions.put (cluster, row.2 + 1) }

def readVersion (db : PgDatabase) : ℤ :=
  match db.versions.get cluster with
  | none => 0
  | some row => row.2

def selectAll (db : PgDatabase) : List PgRow :=
  db.membership.items.filter fun row ↦ row.clusterId = cluster

def snapshot (rows : List PgRow) (version : ℤ) : Except PgError MembershipSnapshot :=
  (rows.mapM rowToSilo).map fun silos ↦ ⟨version, silos⟩

def upsertSilo (db : PgDatabase) (silo : SiloInfo) : Except PgError (ℤ × PgDatabase) :=
  if Dated silo then
    match silo.etag with
    | none =>
      match db.membership.insert (pgRow cluster silo 1) with
      | none => .error (.membership .tableStale)
      | some membership => .ok (1, { db with membership := membership })
    | some etag =>
      (pgInt (some etag)).bind fun etagVersion ↦
        match db.membership.updateWhere (expected cluster silo.siloId etagVersion) (PgRow.set silo)
          (fun _ ↦ rfl) with
        | ([], _) => .error (.membership .tableStale)
        | (row :: _, membership) => .ok (row.etagVersion, { db with membership := membership })
  else .error .outOfRange

def tryUpdateSilo (db : PgDatabase) (silo : SiloInfo) : Except PgError (SiloInfo × PgDatabase) :=
  (db.upsertSilo cluster silo).map fun r ↦
    ({ silo with etag := some (toString r.1) }, r.2.bumpVersion cluster)

def tryAddSuspicion (db : PgDatabase) (siloId : String) (vote : SuspicionVote)
    (expectedEtag : Option String) :
    Except PgError (PgRow × PgDatabase) :=
  (pgInt expectedEtag).bind fun etagVersion ↦
    match db.membership.updateWhere (expected cluster siloId etagVersion) (PgRow.addSuspicion vote)
      (fun _ ↦ rfl) with
    | ([], _) => .error (.membership .tableStale)
    | (row :: _, membership) => .ok (row, { db with membership := membership }.bumpVersion cluster)

/-- Without an etag there is nothing to do. -/
def tryDeleteSilo (db : PgDatabase) (silo : SiloInfo) : Except PgError (Option PgDatabase) :=
  if silo.etag = none then .ok none
  else
    (pgInt silo.etag).bind fun etagVersion ↦
      match db.membership.deleteWhere (expected cluster silo.siloId etagVersion) with
      | ([], _) => .error (.membership .tableStale)
      | (_ :: _, membership) =>
        .ok (some ({ db with membership := membership }.bumpVersion cluster))

/-- A call alone. Whatever raises within the transaction leaves the database as it was. -/
def answer (db : PgDatabase) : MembershipCall → Except PgError MembershipAnswer × PgDatabase
  | .readAll => ((snapshot (db.selectAll cluster) (db.readVersion cluster)).map .snapshot, db)
  | .tryUpdateSilo silo =>
    match db.tryUpdateSilo cluster silo with
    | .error e => (.error e, db)
    | .ok (stored, db') => (.ok (.silo stored), db')
  | .tryAddSuspicion siloId vote expectedEtag =>
    match db.tryAddSuspicion cluster siloId vote expectedEtag with
    | .error e => (.error e, db)
    | .ok (row, db') => ((rowToSilo row).map .silo, db')
  | .tryDeleteSilo silo =>
    match db.tryDeleteSilo cluster silo with
    | .error e => (.error e, db)
    | .ok db' => (.ok .done, db'.getD db)

section

variable {cluster} {db db' : PgDatabase} {siloId : String} {silo : SiloInfo}

@[simp] theorem bumpVersion_membership : (db.bumpVersion cluster).membership = db.membership := by
  unfold bumpVersion
  split <;> rfl

@[simp] theorem readVersion_bumpVersion :
    (db.bumpVersion cluster).readVersion cluster = db.readVersion cluster + 1 := by
  cases hget : db.versions.get cluster with
  | none =>
    simp only [readVersion, bumpVersion, hget, Table.get_put, if_true, zero_add]
  | some row =>
    simp only [readVersion, bumpVersion, hget, Table.get_put, if_true]

end

end PgDatabase

inductive Mutation
  | update
  | addSuspicion
  | delete
deriving DecidableEq

namespace MembershipCall

def mutation : MembershipCall → Option Mutation
  | .readAll => none
  | .tryUpdateSilo _ => some .update
  | .tryAddSuspicion _ _ _ => some .addSuspicion
  | .tryDeleteSilo _ => some .delete

def siloId : MembershipCall → String
  | .readAll => ""
  | .tryUpdateSilo silo => silo.siloId
  | .tryAddSuspicion siloId _ _ => siloId
  | .tryDeleteSilo silo => silo.siloId

def written : MembershipCall → Option SiloInfo
  | .tryUpdateSilo silo => some silo
  | _ => none

def etag : MembershipCall → Option String
  | .readAll => none
  | .tryUpdateSilo silo => silo.etag
  | .tryAddSuspicion _ _ expectedEtag => expectedEtag
  | .tryDeleteSilo silo => silo.etag

end MembershipCall

/-- How a call ends: it writes, has nothing to write, fails with an error of
the membership contract, or raises something else. -/
inductive Verdict
  | wrote
  | nothing
  | failed (e : MembershipError)
  | raised

namespace Verdict

def ofFile : Mutation → Option (Option String) → Option String → Verdict
  | .update, none, none => .wrote
  | .update, none, some _ => .failed .siloNotFound
  | .addSuspicion, none, _ => .failed .siloNotFound
  | .delete, none, _ => .nothing
  | _, some current, etag => if current = etag then .wrote else .failed .tableStale

def ofSql : Mutation → Option ℤ → Option ℤ → Verdict
  | .update, none, none => .wrote
  | .update, some _, none => .failed .tableStale
  | .addSuspicion, _, none => .raised
  | .delete, _, none => .nothing
  | _, none, some _ => .failed .tableStale
  | _, some current, some expected => if current = expected then .wrote else .failed .tableStale

/-- The database writes where the file provider succeeds, and both fail alike. -/
def Agrees : Verdict → Verdict → Prop
  | .wrote, .wrote => True
  | .nothing, .wrote => True
  | .failed e, .failed e' => e = e'
  | _, _ => False

def Answers : Verdict → Except YamlError MembershipAnswer → Prop
  | .wrote, .ok _ => True
  | .nothing, .ok _ => True
  | .failed e, .error (.membership e') => e = e'
  | _, _ => False

def Moves (cluster : String) (db : PgDatabase) :
    Verdict → Except PgError MembershipAnswer × PgDatabase → Prop
  | .wrote, (.ok _, db') =>
    db'.membership ≠ db.membership ∧ db'.readVersion cluster = db.readVersion cluster + 1
  | .nothing, (.ok _, db') => db' = db
  | .failed e, (.error (.membership e'), db') => e = e' ∧ db' = db
  | .raised, (.error .typeError, db') => db' = db
  | .raised, (.error .outOfRange, db') => db' = db
  | _, _ => False

end Verdict

section

variable {File : Type} {y : Yaml File} {file : Option File} {data : YamlTable} {cluster : String}
  {db : PgDatabase}
  {c : MembershipCall} {m : Mutation}

theorem dictToSilo_of_status {row : YamlRow} (row' : YamlRow) (h : ∃ s, dictToSilo row = .ok s)
    (hstatus : row'.status = row.status) :
    ∃ s, dictToSilo row' = .ok s := by
  obtain ⟨s, hs⟩ := h
  unfold dictToSilo at hs ⊢
  rw [hstatus]
  split at hs
  · cases hs
  · exact ⟨_, rfl⟩

theorem ofFile_answers (hdata : y.loadTable file = .ok data)
    (hreadable : ∀ index row, findSilo data.silos c.siloId = some (index, row) →
      ∃ s, dictToSilo row = .ok s)
    (hm : c.mutation = some m) :
    (Verdict.ofFile m ((findSilo data.silos c.siloId).map fun r ↦ r.2.etag) c.etag).Answers
      (y.answer file c).1 := by
  cases c with
  | readAll => cases hm
  | tryUpdateSilo silo =>
    obtain rfl := Option.some.inj hm
    have hwritten : ∀ rows, ∃ s,
      dictToSilo (y.finaliseWrite data (siloToDict silo) rows).1 = .ok s :=
      fun rows ↦
        ⟨_, dictToSilo_siloToDict
          { silo with etag := some (y.computeEtag (siloToDict silo) (data.version + 1)) }⟩
    cases hfind : findSilo data.silos silo.siloId with
    | none =>
      obtain ⟨s, hs⟩ := hwritten fun row ↦ data.silos ++ [row]
      cases he : silo.etag with
      | none =>
        simp only [Yaml.answer, Yaml.tryUpdateSilo, hdata, Except.bind, MembershipCall.siloId,
          MembershipCall.etag, hfind, he, Option.map_none, Verdict.ofFile, ne_eq, not_true_eq_false,
          if_false, hs, Except.map, Verdict.Answers]
      | some etag =>
        simp only [Yaml.answer, Yaml.tryUpdateSilo, hdata, Except.bind, MembershipCall.siloId,
          MembershipCall.etag, hfind, he, Option.map_none, Verdict.ofFile, ne_eq, reduceCtorEq,
          not_false_eq_true, if_true, Verdict.Answers]
    | some found =>
      obtain ⟨index, row⟩ := found
      obtain ⟨s, hs⟩ := hwritten fun row ↦ data.silos.set index row
      by_cases he : row.etag = silo.etag
      · simp only [Yaml.answer, Yaml.tryUpdateSilo, hdata, Except.bind, MembershipCall.siloId,
          MembershipCall.etag, hfind, he, Option.map_some, Verdict.ofFile, ne_eq, not_true_eq_false,
          if_true, if_false, hs, Except.map, Verdict.Answers]
      · simp only [Yaml.answer, Yaml.tryUpdateSilo, hdata, Except.bind, MembershipCall.siloId,
          MembershipCall.etag, hfind, he, Option.map_some, Verdict.ofFile, ne_eq, not_false_eq_true,
          if_true, if_false, Verdict.Answers]
  | tryAddSuspicion siloId vote etag =>
    obtain rfl := Option.some.inj hm
    cases hfind : findSilo data.silos siloId with
    | none =>
      simp only [Yaml.answer, Yaml.tryAddSuspicion, hdata, Except.bind, MembershipCall.siloId,
        hfind, Option.map_none, Verdict.ofFile, Verdict.Answers]
    | some found =>
      obtain ⟨index, row⟩ := found
      obtain ⟨s, hs⟩ :=
        dictToSilo_of_status (y.finaliseWrite data
          { row with suspicions := row.suspicions ++ [vote] }
        fun row ↦ data.silos.set index row).1 (hreadable index row hfind) rfl
      by_cases he : row.etag = etag
      · rw [he] at hs
        simp only [Yaml.answer, Yaml.tryAddSuspicion, hdata, Except.bind, MembershipCall.siloId,
          MembershipCall.etag, hfind, he, Option.map_some, Verdict.ofFile, ne_eq, not_true_eq_false,
          if_true, if_false, hs, Except.map, Verdict.Answers]
      · simp only [Yaml.answer, Yaml.tryAddSuspicion, hdata, Except.bind, MembershipCall.siloId,
          MembershipCall.etag, hfind, he, Option.map_some, Verdict.ofFile, ne_eq, not_false_eq_true,
          if_true, if_false, Verdict.Answers]
  | tryDeleteSilo silo =>
    obtain rfl := Option.some.inj hm
    cases hfind : findSilo data.silos silo.siloId with
    | none =>
      simp only [Yaml.answer, Yaml.tryDeleteSilo, hdata, Except.bind, MembershipCall.siloId, hfind,
        Option.map_none, Verdict.ofFile, Verdict.Answers]
    | some found =>
      obtain ⟨index, row⟩ := found
      by_cases he : row.etag = silo.etag
      · simp only [Yaml.answer, Yaml.tryDeleteSilo, hdata, Except.bind, MembershipCall.siloId,
          MembershipCall.etag, hfind, he, Option.map_some, Verdict.ofFile, ne_eq, not_true_eq_false,
          if_true, if_false, Verdict.Answers]
      · simp only [Yaml.answer, Yaml.tryDeleteSilo, hdata, Except.bind, MembershipCall.siloId,
          MembershipCall.etag, hfind, he, Option.map_some, Verdict.ofFile, ne_eq, not_false_eq_true,
          if_true, if_false, Verdict.Answers]

theorem filter_expected (db : PgDatabase) (cluster siloId : String) (n : ℤ) :
    (db.membership.get (cluster, siloId)).filter (fun row ↦ decide (row.etagVersion = n)) = none ∧
        (db.membership.get (cluster, siloId)).map PgRow.etagVersion ≠ some n ∨
      ∃ row, (db.membership.get (cluster, siloId)).filter (fun row ↦ decide (row.etagVersion = n)) =
        some row ∧
        db.membership.get (cluster, siloId) = some row ∧ row.etagVersion = n := by
  cases hget : db.membership.get (cluster, siloId) with
  | none => exact .inl ⟨rfl, fun h ↦ by cases h⟩
  | some row =>
    by_cases hn : row.etagVersion = n
    · exact .inr ⟨row, by simp [Option.filter, hn], rfl, hn⟩
    · refine .inl ⟨by simp [Option.filter, hn], fun h ↦ hn (Option.some.inj h)⟩

theorem update_cases (db : PgDatabase) (cluster siloId : String) (n : ℤ) (f : PgRow → PgRow)
    (hf : ∀ row, (f row).key = row.key) :
    ((db.membership.get (cluster, siloId)).map PgRow.etagVersion ≠ some n ∧
      ∃ t', db.membership.updateWhere (PgDatabase.expected cluster siloId n) f hf = ([], t')) ∨
    ∃ row t', db.membership.get (cluster, siloId) = some row ∧ row.etagVersion = n ∧
      db.membership.updateWhere (PgDatabase.expected cluster siloId n) f hf = ([f row], t') ∧
        t'.get (cluster, siloId) = some (f row) := by
  rcases filter_expected db cluster siloId n with ⟨hfilter, hne⟩ | ⟨row, hfilter, hget, hn⟩
  · exact .inl ⟨hne, Table.updateWhere_none f hf hfilter⟩
  · obtain ⟨t', hupdate, hget'⟩ := Table.updateWhere_some f hf hfilter
    exact .inr ⟨row, t', hget, hn, hupdate, hget'⟩

theorem delete_cases (db : PgDatabase) (cluster siloId : String) (n : ℤ) :
    ((db.membership.get (cluster, siloId)).map PgRow.etagVersion ≠ some n ∧
      ∃ t', db.membership.deleteWhere (PgDatabase.expected cluster siloId n) = ([], t')) ∨
    ∃ row t', db.membership.get (cluster, siloId) = some row ∧ row.etagVersion = n ∧
      db.membership.deleteWhere (PgDatabase.expected cluster siloId n) = ([row], t') ∧
        t'.get (cluster, siloId) = none := by
  rcases filter_expected db cluster siloId n with ⟨hfilter, hne⟩ | ⟨row, hfilter, hget, hn⟩
  · exact .inl ⟨hne, Table.deleteWhere_none hfilter⟩
  · obtain ⟨t', hdelete, hget'⟩ := Table.deleteWhere_some hfilter
    exact .inr ⟨row, t', hget, hn, hdelete, hget'⟩

theorem ofSql_expected {current : Option ℤ} {n : ℤ} (h : current ≠ some n) :
    Verdict.ofSql m current (some n) = .failed .tableStale := by
  cases current with
  | none => cases m <;> rfl
  | some k =>
    have hk : k ≠ n := fun hk ↦ h (congrArg some hk)
    cases m <;> simp only [Verdict.ofSql, hk, if_false]

theorem pgInt_toString (n : ℤ) : pgInt (some (toString n)) = .ok n := by
  have hn : Numerals.parseInt (toString n) = some n := Numerals.parseInt_repr n
  simp only [pgInt, hn]

theorem ne_of_get {K V : Type} [DecidableEq K] {key : V → K} {t t' : Table key} {k : K}
    (h : t'.get k ≠ t.get k) :
    t' ≠ t := fun he ↦ h (congrArg (Table.get · k) he)

theorem rowToSilo_of_status {row : PgRow} (row' : PgRow) (h : ∃ s, rowToSilo row = .ok s)
    (hstatus : row'.status = row.status) :
    ∃ s, rowToSilo row' = .ok s := by
  obtain ⟨s, hs⟩ := h
  unfold rowToSilo at hs ⊢
  rw [hstatus]
  split at hs
  · cases hs
  · exact ⟨_, rfl⟩

theorem ofSql_moves_update (silo : SiloInfo) (hdated : Dated silo) (expected : Option ℤ)
    (hetag : silo.etag = expected.map toString) :
    (Verdict.ofSql .update ((db.membership.get (cluster, silo.siloId)).map PgRow.etagVersion)
      expected).Moves cluster db
      (db.answer cluster (.tryUpdateSilo silo)) := by
  cases expected with
  | none =>
    rw [Option.map_none] at hetag
    cases hget : db.membership.get (cluster, silo.siloId) with
    | none =>
      have hinsert := Table.insert_of_get_none (t := db.membership) (v := pgRow cluster silo 1) hget
      simp only [PgDatabase.answer, PgDatabase.tryUpdateSilo, PgDatabase.upsertSilo, if_pos hdated,
        hetag, hinsert, Except.map, Option.map_none, Verdict.ofSql, Verdict.Moves,
        PgDatabase.bumpVersion_membership, PgDatabase.readVersion_bumpVersion]
      refine ⟨ne_of_get (k := (cluster, silo.siloId)) ?_, rfl⟩
      have hnew : (db.membership.put (pgRow cluster silo 1)).get (cluster, silo.siloId) =
          some (pgRow cluster silo 1) := Table.get_put_self db.membership (pgRow cluster silo 1)
      rw [hnew, hget]
      exact Option.some_ne_none _
    | some row =>
      have hinsert := Table.insert_of_get_some (t := db.membership) (v := pgRow cluster silo 1) hget
      simp only [PgDatabase.answer, PgDatabase.tryUpdateSilo, PgDatabase.upsertSilo, if_pos hdated,
        hetag, hinsert, Except.map, Option.map_some, Verdict.ofSql, Verdict.Moves, and_self]
  | some n =>
    rw [Option.map_some] at hetag
    rcases update_cases db cluster silo.siloId n (PgRow.set silo) (fun _ ↦ rfl) with
      ⟨hne, t', hupdate⟩ | ⟨row, t', hget, hn, hupdate, hget'⟩
    · rw [ofSql_expected hne]
      simp only [PgDatabase.answer, PgDatabase.tryUpdateSilo, PgDatabase.upsertSilo, if_pos hdated,
        hetag, pgInt_toString, Except.bind, hupdate, Except.map, Verdict.Moves, and_self]
    · rw [hget, Option.map_some, hn]
      simp only [PgDatabase.answer, PgDatabase.tryUpdateSilo, PgDatabase.upsertSilo, if_pos hdated,
        hetag, pgInt_toString, Except.bind, hupdate, Except.map, Verdict.ofSql, if_true,
        Verdict.Moves, PgDatabase.bumpVersion_membership, PgDatabase.readVersion_bumpVersion]
      refine ⟨ne_of_get (k := (cluster, silo.siloId)) ?_, rfl⟩
      rw [hget, hget']
      exact fun h ↦ etagVersion_set_ne silo row (congrArg PgRow.etagVersion (Option.some.inj h))

/-- A time that no `datetime` has is found before any statement is executed. -/
theorem raised_moves_update (silo : SiloInfo) (hdated : ¬ Dated silo) :
    Verdict.raised.Moves cluster db (db.answer cluster (.tryUpdateSilo silo)) := by
  simp only [PgDatabase.answer, PgDatabase.tryUpdateSilo, PgDatabase.upsertSilo, if_neg hdated,
    Except.map, Verdict.Moves]

theorem ofSql_moves_addSuspicion (siloId : String) (vote : SuspicionVote) (expected : Option ℤ)
    (hreadable : ∀ row, db.membership.get (cluster, siloId) = some row →
      ∃ s, rowToSilo row = .ok s) :
    (Verdict.ofSql .addSuspicion ((db.membership.get (cluster, siloId)).map PgRow.etagVersion)
      expected).Moves cluster db
      (db.answer cluster (.tryAddSuspicion siloId vote (expected.map toString))) := by
  cases expected with
  | none =>
    cases (db.membership.get (cluster, siloId)).map PgRow.etagVersion <;>
      simp only [PgDatabase.answer, PgDatabase.tryAddSuspicion, pgInt, Option.map_none, Except.bind,
        Verdict.ofSql, Verdict.Moves]
  | some n =>
    rcases update_cases db cluster siloId n (PgRow.addSuspicion vote) (fun _ ↦ rfl) with
      ⟨hne, t', hupdate⟩ | ⟨row, t', hget, hn, hupdate, hget'⟩
    · rw [ofSql_expected hne]
      simp only [PgDatabase.answer, PgDatabase.tryAddSuspicion, Option.map_some, pgInt_toString,
        Except.bind, hupdate, Verdict.Moves, and_self]
    · obtain ⟨s, hs⟩ := rowToSilo_of_status (row.addSuspicion vote) (hreadable row hget) rfl
      rw [hget, Option.map_some, hn]
      simp only [PgDatabase.answer, PgDatabase.tryAddSuspicion, Option.map_some, pgInt_toString,
        Except.bind, hupdate, hs, Except.map, Verdict.ofSql, if_true, Verdict.Moves,
        PgDatabase.bumpVersion_membership, PgDatabase.readVersion_bumpVersion]
      refine ⟨ne_of_get (k := (cluster, siloId)) ?_, rfl⟩
      rw [hget, hget']
      exact fun h ↦ etagVersion_addSuspicion_ne vote row
        (congrArg PgRow.etagVersion (Option.some.inj h))

theorem ofSql_moves_delete (silo : SiloInfo) (expected : Option ℤ)
    (hetag : silo.etag = expected.map toString) :
    (Verdict.ofSql .delete ((db.membership.get (cluster, silo.siloId)).map PgRow.etagVersion)
      expected).Moves cluster db
      (db.answer cluster (.tryDeleteSilo silo)) := by
  cases expected with
  | none =>
    rw [Option.map_none] at hetag
    cases (db.membership.get (cluster, silo.siloId)).map PgRow.etagVersion <;>
      simp only [PgDatabase.answer, PgDatabase.tryDeleteSilo, hetag, if_true, Option.getD_none,
        Verdict.ofSql, Verdict.Moves]
  | some n =>
    rw [Option.map_some] at hetag
    rcases delete_cases db cluster silo.siloId n with ⟨hne, t', hdelete⟩
      | ⟨row, t', hget, hn, hdelete, hget'⟩
    · rw [ofSql_expected hne]
      simp only [PgDatabase.answer, PgDatabase.tryDeleteSilo, hetag, reduceCtorEq, if_false,
        pgInt_toString, Except.bind, hdelete, Verdict.Moves, and_self]
    · rw [hget, Option.map_some, hn]
      simp only [PgDatabase.answer, PgDatabase.tryDeleteSilo, hetag, reduceCtorEq, if_false,
        pgInt_toString, Except.bind, hdelete, Option.getD_some, Verdict.ofSql, if_true,
        Verdict.Moves, PgDatabase.bumpVersion_membership, PgDatabase.readVersion_bumpVersion]
      refine ⟨ne_of_get (k := (cluster, silo.siloId)) ?_, rfl⟩
      rw [hget, hget']
      exact fun h ↦ by cases h

theorem ofSql_moves (hreadable : ∀ row, db.membership.get (cluster, c.siloId) = some row →
    ∃ s, rowToSilo row = .ok s)
    (hdated : ∀ silo ∈ c.written, Dated silo) (hm : c.mutation = some m) (expected : Option ℤ)
      (hetag : c.etag = expected.map toString) :
    (Verdict.ofSql m ((db.membership.get (cluster, c.siloId)).map PgRow.etagVersion) expected).Moves
      cluster db
      (db.answer cluster c) := by
  cases c with
  | readAll => cases hm
  | tryUpdateSilo silo =>
    obtain rfl := Option.some.inj hm
    exact ofSql_moves_update silo (hdated silo rfl) expected hetag
  | tryAddSuspicion siloId vote etag =>
    obtain rfl := Option.some.inj hm
    obtain rfl : etag = expected.map toString := hetag
    exact ofSql_moves_addSuspicion siloId vote expected hreadable
  | tryDeleteSilo silo =>
    obtain rfl := Option.some.inj hm
    exact ofSql_moves_delete silo expected hetag

end

def SameKind : Except YamlError MembershipAnswer → Except PgError MembershipAnswer → Prop
  | .ok _, .ok _ => True
  | .error (.membership e), .error (.membership e') => e = e'
  | _, _ => False

section

variable {File : Type}

/-- The outcome contract for one call, with the answer `a` of the file provider
and what the database makes of it: the kind of outcome is the same, and the rows
and the version change exactly when the call succeeds. -/
structure KeepsContract (cluster : String) (db : PgDatabase) (a : Except YamlError MembershipAnswer)
    (b : Except PgError MembershipAnswer × PgDatabase) : Prop where
  outcome : SameKind a b.1
  mutates : b.2.membership ≠ db.membership ↔ b.1.isOk = true
  bumps : b.2.readVersion cluster = db.readVersion cluster + if b.1.isOk then 1 else 0

theorem keepsContract_iff_of_verdicts {cluster : String} {db : PgDatabase}
    {a : Except YamlError MembershipAnswer} {b : Except PgError MembershipAnswer × PgDatabase}
    {v v' : Verdict} (hv : v.Answers a) (hv' : v'.Moves cluster db b) :
    KeepsContract cluster db a b ↔ v.Agrees v' := by
  obtain ⟨b, db'⟩ := b
  cases v' with
  | wrote =>
    cases b with
    | error e => exact False.elim hv'
    | ok b =>
      obtain ⟨hne, hversion⟩ := hv'
      cases a with
      | ok a =>
        refine iff_of_true ⟨trivial, iff_of_true hne rfl, hversion⟩ ?_
        cases v <;> trivial
      | error e =>
        refine iff_of_false (fun h ↦ ?_) ?_
        · cases e <;> exact h.outcome
        · cases v <;> first | exact id | exact fun _ ↦ hv
  | nothing =>
    cases b with
    | error e => exact False.elim hv'
    | ok b =>
      obtain rfl : db' = db := hv'
      refine iff_of_false (fun h ↦ h.mutates.mpr rfl rfl) ?_
      cases v <;> exact id
  | failed e =>
    cases b with
    | ok b => exact False.elim hv'
    | error e' =>
      cases e' with
      | membership e' =>
        obtain ⟨rfl, rfl⟩ := hv'
        have hkeeps : KeepsContract cluster db' a (.error (.membership e), db') ↔
            SameKind a (.error (.membership e)) :=
          ⟨fun h ↦ h.outcome, fun h ↦
            ⟨h, iff_of_false (fun hne ↦ hne rfl) Bool.false_ne_true, (add_zero _).symm⟩⟩
        rw [hkeeps]
        cases a with
        | ok a => cases v <;> first | exact Iff.rfl | exact False.elim hv
        | error e' =>
          cases v with
          | failed e₁ =>
            cases e' with
            | membership e' =>
              obtain rfl : e₁ = e' := hv
              exact Iff.rfl
            | unreadable => exact False.elim hv
            | malformed => exact False.elim hv
          | _ => exact False.elim hv
      | typeError => exact False.elim hv'
      | valueError => exact False.elim hv'
      | outOfRange => exact False.elim hv'
  | raised =>
    cases b with
    | ok b => exact False.elim hv'
    | error e =>
      cases e with
      | typeError | outOfRange =>
        refine iff_of_false (fun h ↦ ?_) ?_
        · cases a with
          | ok a => exact h.outcome
          | error e => cases e <;> exact h.outcome
        · cases v <;> exact id
      | membership e => exact False.elim hv'
      | valueError => exact False.elim hv'

/-- Two etags that the providers issued for the same write, or none. -/
def IssuedEtags (issued : Pairing String String) : Option String → Option String → Prop
  | none, none => True
  | some e, some e' => (e, e') ∈ issued
  | _, _ => False

/-- A mutation with an etag that was issued at some time, or with none. -/
def SameMutation (issued : Pairing String String) : MembershipCall → MembershipCall → Prop
  | .tryUpdateSilo s, .tryUpdateSilo t => s.bare = t.bare ∧ IssuedEtags issued s.etag t.etag
  | .tryAddSuspicion s v e, .tryAddSuspicion s' v' e' => s = s' ∧ v = v' ∧ IssuedEtags issued e e'
  | .tryDeleteSilo s, .tryDeleteSilo t => s.bare = t.bare ∧ IssuedEtags issued s.etag t.etag
  | _, _ => False

/-- The file and the database hold the same silos, and the etags that a silo
carries in them were issued for one write. -/
structure SameTable (cluster : String) (issued : Pairing String String) (data : YamlTable)
    (db : PgDatabase) : Prop where
  left : (issued.map Prod.fst).Nodup
  numbers : ∀ p ∈ issued, ∃ n : ℤ, p.2 = toString n
  rows siloId : (findSilo data.silos siloId = none ∧ db.membership.get (cluster, siloId) = none) ∨
    ∃ index entry row etag, findSilo data.silos siloId = some (index, entry) ∧
      db.membership.get (cluster, siloId) = some row ∧ entry.etag = some etag ∧
        (etag, toString row.etagVersion) ∈ issued ∧
        (∃ s, dictToSilo entry = .ok s) ∧ ∃ s, rowToSilo row = .ok s

/-- The number of the row's etag is also that of an etag issued for another write. -/
def Reused (cluster : String) (data : YamlTable) (db : PgDatabase) (siloId : String)
    (etag etag' : Option String) : Prop :=
  ∃ index entry row, findSilo data.silos siloId = some (index, entry) ∧
    db.membership.get (cluster, siloId) = some row ∧
    entry.etag ≠ etag ∧ etag' = some (toString row.etagVersion)

/-- When a call keeps the contract: a suspicion and a deletion are of a row that
is there and carry an etag, an update carries an etag only if the row is there
and times that a `datetime` has, and the etag's number tells its write from the
row's. -/
def WithinContract (cluster : String) (data : YamlTable) (db : PgDatabase) (c c' : MembershipCall) :
    Prop :=
  (∀ silo ∈ c'.written, Dated silo) ∧
    (c'.etag ≠ none → (db.membership.get (cluster, c'.siloId)).isSome) ∧
    (c'.mutation ≠ some .update → c'.etag ≠ none) ∧
      ¬ Reused cluster data db c'.siloId c.etag c'.etag

theorem SameMutation.common {issued : Pairing String String} {c c' : MembershipCall}
    (h : SameMutation issued c c') :
    ∃ m, c.mutation = some m ∧ c'.mutation = some m ∧ c.siloId = c'.siloId ∧
      IssuedEtags issued c.etag c'.etag := by
  cases c <;> cases c' <;> try exact False.elim h
  case tryUpdateSilo.tryUpdateSilo s t => exact ⟨.update, rfl, rfl, Twins.siloId_of_bare h.1, h.2⟩
  case tryAddSuspicion.tryAddSuspicion s v e s' v' e' => exact ⟨.addSuspicion, rfl, rfl, h.1, h.2.2⟩
  case tryDeleteSilo.tryDeleteSilo s t => exact ⟨.delete, rfl, rfl, Twins.siloId_of_bare h.1, h.2⟩

theorem IssuedEtags.cases {issued : Pairing String String} {e e' : Option String}
    (h : IssuedEtags issued e e') (hnumbers : ∀ p ∈ issued, ∃ n : ℤ, p.2 = toString n) :
    (e = none ∧ e' = none) ∨ ∃ etag n, e = some etag ∧ e' = some (toString n) ∧
      (etag, toString (n : ℤ)) ∈ issued := by
  cases e <;> cases e' <;> try exact False.elim h
  case none.none => exact .inl ⟨rfl, rfl⟩
  case some.some etag etag' =>
    obtain ⟨n, hn⟩ := hnumbers _ h
    obtain rfl : etag' = toString n := hn
    exact .inr ⟨etag, n, rfl, rfl, h⟩

theorem toString_inj {m n : ℤ} : toString m = toString n ↔ m = n := Int.repr_inj

/-- For every state of the table and every mutation. -/
theorem contract_iff (y : Yaml File) (cluster : String) (issued : Pairing String String)
    (file : Option File) (data : YamlTable) (db : PgDatabase) (c c' : MembershipCall)
    (hfile : y.loadTable file = .ok data) (hsame : SameTable cluster issued data db)
    (hcall : SameMutation issued c c') :
    KeepsContract cluster db (y.answer file c).1 (db.answer cluster c') ↔
      WithinContract cluster data db c c' := by
  obtain ⟨m, hm, hm', hsilo, hetags⟩ := hcall.common
  have hentries : ∀ index entry, findSilo data.silos c.siloId = some (index, entry) → ∃ s,
    dictToSilo entry = .ok s := by
    intro index entry hfind
    rcases hsame.rows c.siloId with ⟨hnone, -⟩ | ⟨_, _, row, etag, hfind', -, -, -, hs, -⟩
    · cases hfind.symm.trans hnone
    · obtain ⟨rfl, rfl⟩ := Prod.mk.inj (Option.some.inj (hfind.symm.trans hfind'))
      exact hs
  have hrows : ∀ row, db.membership.get (cluster, c'.siloId) = some row → ∃ s,
    rowToSilo row = .ok s := by
    intro row hget
    rcases hsame.rows c'.siloId with ⟨-, hnone⟩ | ⟨_, _, _, etag, -, hget', -, -, -, hs⟩
    · cases hget.symm.trans hnone
    · obtain rfl := Option.some.inj (hget.symm.trans hget')
      exact hs
  have hv := ofFile_answers hfile hentries hm
  by_cases hdated : ∀ silo ∈ c'.written, Dated silo
  swap
  · have hraised : Verdict.raised.Moves cluster db (db.answer cluster c') := by
      cases c' with
      | tryUpdateSilo silo =>
        exact raised_moves_update silo fun h ↦ hdated fun s hs ↦ Option.some.inj hs ▸ h
      | readAll | tryAddSuspicion | tryDeleteSilo => exact absurd (fun s hs ↦ by cases hs) hdated
    rw [keepsContract_iff_of_verdicts hv hraised, WithinContract]
    refine iff_of_false ?_ fun h ↦ hdated h.1
    generalize Verdict.ofFile m _ _ = v
    cases v <;> exact id
  rcases hetags.cases hsame.numbers with ⟨he, he'⟩ | ⟨etag, n, he, he', hissued⟩
  · have hv' := ofSql_moves hrows hdated hm' none he'
    rw [keepsContract_iff_of_verdicts hv hv', WithinContract, and_iff_right hdated, he, he', hm']
    have hreused : ¬ Reused cluster data db c'.siloId none none := by
      rintro ⟨_, _, _, -, -, -, h⟩
      cases h
    rw [← hsilo]
    rcases hsame.rows c.siloId with ⟨hfind, hget⟩
      | ⟨index, entry, row, etag, hfind, hget, hentry, -, -, -⟩
    · rw [hfind, hget]
      cases m <;> simp [Verdict.ofFile, Verdict.ofSql, Verdict.Agrees, hsilo, hreused]
    · rw [hfind, hget]
      cases m <;> simp [Verdict.ofFile, Verdict.ofSql, Verdict.Agrees, hentry, hsilo, hreused]
  · have hv' := ofSql_moves hrows hdated hm' (some n) he'
    rw [keepsContract_iff_of_verdicts hv hv', WithinContract, and_iff_right hdated, he,
      he', hm', ← hsilo]
    rcases hsame.rows c.siloId with ⟨hfind, hget⟩
      | ⟨index, entry, row, current, hfind, hget, hentry, hmem, -, -⟩
    · rw [hfind, hget]
      cases m <;> simp [Verdict.ofFile, Verdict.ofSql, Verdict.Agrees]
    · have hreused : Reused cluster data db c.siloId (some etag) (some (toString n)) ↔
          current ≠ etag ∧ row.etagVersion = n := by
        constructor
        · rintro ⟨_, _, _, hfind', hget', hne, hn⟩
          obtain ⟨rfl, rfl⟩ := Prod.mk.inj (Option.some.inj (hfind.symm.trans hfind'))
          obtain rfl := Option.some.inj (hget.symm.trans hget')
          exact ⟨fun h ↦ hne (hentry.trans (congrArg some h)),
            (toString_inj.mp (Option.some.inj hn)).symm⟩
        · rintro ⟨hne, rfl⟩
          exact ⟨index, entry, row, hfind, hget, fun h ↦
            hne (Option.some.inj (hentry.symm.trans h)), rfl⟩
      rw [hreused, hfind, hget]
      by_cases hcurrent : current = etag
      · -- the call carries the current etags of both
        have hn : row.etagVersion = n := by
          have hpair := List.inj_on_of_nodup_map hsame.left hmem hissued hcurrent
          exact toString_inj.mp (Prod.mk.inj hpair).2
        cases m <;> simp [Verdict.ofFile, Verdict.ofSql, Verdict.Agrees, hentry, hcurrent, hn]
      · by_cases hn : row.etagVersion = n
        · cases m <;> simp [Verdict.ofFile, Verdict.ofSql, Verdict.Agrees, hentry, hcurrent, hn]
        · cases m <;> simp [Verdict.ofFile, Verdict.ofSql, Verdict.Agrees, hentry, hcurrent, hn]

end

def leftData : YamlTable := ⟨2, []⟩

def leftDatabase : PgDatabase := ⟨.empty, .put .empty ("dev", 2)⟩

def issuedA : Pairing String String := [("h-267e80240cfc", "1")]

theorem sameTable_left : SameTable "dev" issuedA leftData leftDatabase where
  left := by decide
  numbers p hp := ⟨1, by rw [List.mem_singleton.mp hp]; rfl⟩
  rows _ := .inl ⟨rfl, rfl⟩

theorem contract_iff_registerAgain :
    KeepsContract "dev" leftDatabase (yamlA.answer (some leftData) (.tryUpdateSilo (rowA none))).1
      (leftDatabase.answer "dev" (.tryUpdateSilo (rowA none))) ↔
    WithinContract "dev" leftData leftDatabase (.tryUpdateSilo (rowA none))
      (.tryUpdateSilo (rowA none)) :=
  contract_iff yamlA "dev" issuedA (some leftData) leftData leftDatabase _ _ rfl sameTable_left
    ⟨rfl, trivial⟩

theorem update_of_absent_row : ¬ ∀ (y : Yaml YamlTable) cluster issued file data db c c',
    y.loadTable file = .ok data →
    SameTable cluster issued data db → SameMutation issued c c' →
      KeepsContract cluster db (y.answer file c).1 (PgDatabase.answer cluster db c') := by
  intro h
  have hkeeps := h yamlA "dev" issuedA (some leftData) leftData leftDatabase
    (.tryUpdateSilo (rowA (some "h-267e80240cfc")))
      (.tryUpdateSilo (rowA (some "1"))) rfl sameTable_left
    ⟨rfl, List.mem_singleton_self _⟩
  have hfile : (yamlA.answer (some leftData) (.tryUpdateSilo (rowA (some "h-267e80240cfc")))).1 =
      .error (.membership .siloNotFound) := rfl
  have hnumber : pgInt (some "1") = .ok 1 := pgInt_toString 1
  have hsql : (leftDatabase.answer "dev" (.tryUpdateSilo (rowA (some "1")))).1 =
    .error (.membership .tableStale) := by
    have hdated : Dated (rowA (some "1")) := by decide
    simp only [PgDatabase.answer, PgDatabase.tryUpdateSilo, PgDatabase.upsertSilo, if_pos hdated]
    simp only [rowA, hnumber, Except.bind]
    rfl
  have houtcome := hkeeps.outcome
  rw [hfile, hsql] at houtcome
  cases houtcome

end Pyleans
