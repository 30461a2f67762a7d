import Pyleans.Library.Pairing
import Pyleans.Library.Transition
import Pyleans.Storage.PostgresStorage

namespace Pyleans

open Library

def fileAccepts (current expected : Option String) : Bool :=
  expected = none ∨ current = none ∨ current = expected

/-- The statements let a write through: an `INSERT` without an etag, an `UPDATE` with one. -/
def sqlWriteAccepts (current expected : Option ℤ) : Bool := current = expected

def sqlClearAccepts (current expected : Option ℤ) : Bool := expected = none ∨ current = expected

namespace FileStorageProvider

variable {State Bytes : Type} (p : FileStorageProvider State Bytes)

def Holds (files : Files Bytes) (grain : GrainId) (record : Option (State × String)) : Prop :=
  match p.file grain, record with
  | none, record => record = none
  | some k, none => files.get k = none
  | some k, some (state, etag) =>
    ∃ bytes, files.get k = some (k, bytes) ∧ p.orjson.loads bytes = some (some state, some etag)

variable {p} {files : Files Bytes} {grain : GrainId} {path : List String}
  {record : Option (State × String)}
  {state : State} {expectedEtag : Option String} {uuid : String}

theorem holds_none (hk : p.file grain = some path) :
    p.Holds files grain none ↔ files.get path = none := by
  simp only [Holds, hk]

theorem holds_some {etag : String} (hk : p.file grain = some path) :
    p.Holds files grain (some (state, etag)) ↔
    ∃ bytes, files.get path = some (path, bytes) ∧
      p.orjson.loads bytes = some (some state, some etag) := by
  simp only [Holds, hk]

theorem checkEtag_of_holds (expectedEtag : Option String) (hpath : p.grainPath grain = .ok path)
    (h : p.Holds files grain record) :
    p.checkEtag files path expectedEtag false false =
      if fileAccepts (record.map Prod.snd) expectedEtag then .ok ()
      else .error (.inconsistency expectedEtag (record.map Prod.snd)) := by
  have hk : p.file grain = some (p.locate path) := file_eq_some.mpr ⟨path, hpath, rfl⟩
  cases expectedEtag with
  | none => simp [checkEtag, fileAccepts]
  | some expected =>
    cases record with
    | none =>
      rw [holds_none hk] at h
      simp [checkEtag, fileAccepts, h]
    | some r =>
      obtain ⟨state, etag⟩ := r
      obtain ⟨bytes, hget, hloads⟩ := (holds_some hk).mp h
      by_cases he : etag = expected
      · simp [checkEtag, fileAccepts, hget, hloads, he]
      · simp [checkEtag, fileAccepts, hget, hloads, he]

theorem read_of_holds (hpath : p.grainPath grain = .ok path) (h : p.Holds files grain record) :
    ∃ state, p.read files grain .none = .ok (state, record.map Prod.snd) := by
  have hk : p.file grain = some (p.locate path) := file_eq_some.mpr ⟨path, hpath, rfl⟩
  cases record with
  | none =>
    refine ⟨p.orjson.emptyDict, ?_⟩
    simp only [read, hpath, Except.bind, OsErrors.none, Bool.false_eq_true, if_false,
      (holds_none hk).mp h, Option.map_none]
  | some r =>
    obtain ⟨state, etag⟩ := r
    obtain ⟨bytes, hget, hloads⟩ := (holds_some hk).mp h
    exact ⟨state, read_ok hpath hget hloads⟩

theorem write_accepted (state : State) (uuid : String) (hjson : p.orjson.ReadsBack)
    (htotal : ∀ etag state, (p.orjson.dumps etag state).isSome)
    (hpath : p.grainPath grain = .ok path) (h : p.Holds files grain record)
    (ha : fileAccepts (record.map Prod.snd) expectedEtag = true) :
    (p.write files grain state expectedEtag uuid .none).1 = .ok uuid ∧
      p.Holds (p.write files grain state expectedEtag uuid .none).2 grain (some (state, uuid)) := by
  have hk : p.file grain = some (p.locate path) := file_eq_some.mpr ⟨path, hpath, rfl⟩
  have hetag := checkEtag_of_holds expectedEtag hpath h
  rw [if_pos ha] at hetag
  obtain ⟨bytes, hdumps⟩ := Option.isSome_iff_exists.mp (htotal uuid state)
  rw [write_ok hpath hetag hdumps]
  exact ⟨rfl, (holds_some hk).mpr
    ⟨bytes, Table.get_put_self files (p.locate path, bytes), hjson _ _ _ hdumps⟩⟩

theorem write_refused (state : State) (uuid : String) (hpath : p.grainPath grain = .ok path)
    (h : p.Holds files grain record)
    (ha : fileAccepts (record.map Prod.snd) expectedEtag = false) :
    p.write files grain state expectedEtag uuid .none =
      (.error (.inconsistency expectedEtag (record.map Prod.snd)), files) := by
  have hetag := checkEtag_of_holds expectedEtag hpath h
  rw [if_neg (by simp [ha])] at hetag
  simp only [write, hpath, Except.bind, OsErrors.none, hetag, Except.map]

theorem clear_accepted (hpath : p.grainPath grain = .ok path) (h : p.Holds files grain record)
    (ha : fileAccepts (record.map Prod.snd) expectedEtag = true) :
    (p.clear files grain expectedEtag .none).1 = .ok () ∧
      p.Holds (p.clear files grain expectedEtag .none).2 grain none := by
  have hk : p.file grain = some (p.locate path) := file_eq_some.mpr ⟨path, hpath, rfl⟩
  have hetag := checkEtag_of_holds expectedEtag hpath h
  rw [if_pos ha] at hetag
  cases hget : files.get (p.locate path) with
  | none =>
    simp only [clear, hpath, OsErrors.none, Bool.false_eq_true, if_false, hget, true_and]
    exact (holds_none hk).mpr hget
  | some bytes =>
    simp only [clear, hpath, OsErrors.none, Bool.false_eq_true, if_false, hget, hetag, true_and]
    rw [holds_none hk, Table.get_pop, if_pos rfl]

theorem clear_refused (hpath : p.grainPath grain = .ok path) (h : p.Holds files grain record)
    (ha : fileAccepts (record.map Prod.snd) expectedEtag = false) :
    p.clear files grain expectedEtag .none =
      (.error (.inconsistency expectedEtag (record.map Prod.snd)), files) := by
  have hk : p.file grain = some (p.locate path) := file_eq_some.mpr ⟨path, hpath, rfl⟩
  have hetag := checkEtag_of_holds expectedEtag hpath h
  rw [if_neg (by simp [ha])] at hetag
  cases record with
  | none => simp [fileAccepts] at ha
  | some r =>
    obtain ⟨bytes, hget, -⟩ := (holds_some hk).mp h
    simp only [clear, hpath, OsErrors.none, Bool.false_eq_true, if_false, hget, hetag]

end FileStorageProvider

namespace GrainStates

variable {State : Type} {rows : GrainStates State} {grain : GrainId} {state : State}
  {expectedEtag : Option ℤ}

def record (rows : GrainStates State) (grain : GrainId) : Option (State × ℤ) :=
  (rows.row grain).map fun row ↦ (row.state, row.etag)

theorem record_eq_none : rows.record grain = none ↔ rows.row grain = none := Option.map_eq_none_iff

theorem etag_record : (rows.record grain).map Prod.snd = (rows.row grain).map GrainRow.etag := by
  rw [record, Option.map_map]
  rfl

theorem expectedInt_toString (n : ℤ) : expectedInt (toString n) = .ok n := by
  have hn : (toString n).toInt? = some n := Int.toInt?_repr n
  simp only [expectedInt, hn]

theorem filter_etag (rows : GrainStates State) (grain : GrainId) (n : ℤ) :
    ((rows.record grain).map Prod.snd = some n ∧
        ∃ row, (rows.row grain).filter (fun row ↦ decide (row.etag = n)) = some row ∧
          row.etag = n) ∨
      ((rows.record grain).map Prod.snd ≠ some n ∧
        (rows.row grain).filter (fun row ↦ decide (row.etag = n)) = none) := by
  rw [etag_record]
  cases rows.row grain with
  | none => exact .inr ⟨(fun h ↦ by cases h), rfl⟩
  | some row =>
    by_cases hn : row.etag = n
    · exact .inl ⟨congrArg some hn, row, by simp [Option.filter, hn], hn⟩
    · exact .inr ⟨fun h ↦ hn (Option.some.inj h), by simp [Option.filter, hn]⟩

theorem update_found (state : State) {n : ℤ} (h : (rows.record grain).map Prod.snd = some n) :
    ∃ (row : GrainRow State) (rows' : GrainStates State), row.etag = n ∧
      Table.updateWhere rows (expected grain n) (GrainRow.set state) (fun _ ↦ rfl) =
        ([row.set state], rows') ∧
      rows'.row grain = some (row.set state) := by
  rcases filter_etag rows grain n with ⟨-, row, hfilter, hn⟩ | ⟨hne, -⟩
  · obtain ⟨rows', hupdate, hget⟩ :=
      Table.updateWhere_some (GrainRow.set state) (fun _ ↦ rfl) hfilter
    exact ⟨row, rows', hn, hupdate, hget⟩
  · exact absurd h hne

theorem update_missed (state : State) {n : ℤ} (h : (rows.record grain).map Prod.snd ≠ some n) :
    ∃ rows', Table.updateWhere rows (expected grain n) (GrainRow.set state) (fun _ ↦ rfl) =
      ([], rows') := by
  rcases filter_etag rows grain n with ⟨heq, -⟩ | ⟨-, hfilter⟩
  · exact absurd heq h
  · exact Table.updateWhere_none (GrainRow.set state) (fun _ ↦ rfl) hfilter

theorem delete_found {n : ℤ} (h : (rows.record grain).map Prod.snd = some n) :
    ∃ (row : GrainRow State) (rows' : GrainStates State),
      Table.deleteWhere rows (expected grain n) = ([row], rows') ∧
      rows'.row grain = none := by
  rcases filter_etag rows grain n with ⟨-, row, hfilter, -⟩ | ⟨hne, -⟩
  · obtain ⟨rows', hdelete, hget⟩ := Table.deleteWhere_some hfilter
    exact ⟨row, rows', hdelete, hget⟩
  · exact absurd h hne

theorem delete_missed {n : ℤ} (h : (rows.record grain).map Prod.snd ≠ some n) :
    ∃ rows', Table.deleteWhere rows (expected grain n) = ([], rows') := by
  rcases filter_etag rows grain n with ⟨heq, -⟩ | ⟨-, hfilter⟩
  · exact absurd heq h
  · exact Table.deleteWhere_none hfilter

theorem write_accepted (state : State)
    (ha : sqlWriteAccepts ((rows.record grain).map Prod.snd) expectedEtag = true) :
    ∃ n, (rows.write grain state (expectedEtag.map toString)).1 = .ok (toString n) ∧
      (rows.write grain state (expectedEtag.map toString)).2.record grain = some (state, n) := by
  rw [sqlWriteAccepts, decide_eq_true_eq] at ha
  cases expectedEtag with
  | none =>
    have hrow : rows.row grain = none := record_eq_none.mp (Option.map_eq_none_iff.mp ha)
    have hinsert : Table.insert rows ⟨grain.grainType, grain.key, state, 1⟩ =
        some (Table.put rows ⟨grain.grainType, grain.key, state, 1⟩) :=
          Table.insert_of_get_none hrow
    refine ⟨1, ?_, ?_⟩
    · simp only [write, Option.map_none, hinsert]
    · simp only [write, Option.map_none, hinsert, record, row, Table.get_put, GrainRow.key, if_true,
        Option.map_some]
  | some n =>
    obtain ⟨row, rows', hn, hupdate, hrow⟩ := update_found state ha
    refine ⟨n + 1, ?_, ?_⟩
    · simp only [write, Option.map_some, expectedInt_toString, hupdate, GrainRow.set, hn]
    · simp only [write, Option.map_some, expectedInt_toString, hupdate, record, hrow,
        GrainRow.set, hn]

theorem write_refused (state : State)
    (ha : sqlWriteAccepts ((rows.record grain).map Prod.snd) expectedEtag = false) :
    ∃ actual, rows.write grain state (expectedEtag.map toString) =
      (.error (.inconsistency (expectedEtag.map toString) actual), rows) := by
  rw [sqlWriteAccepts, decide_eq_false_iff_not] at ha
  cases expectedEtag with
  | none =>
    obtain ⟨r, hr⟩ := Option.ne_none_iff_exists'.mp ha
    rw [etag_record, Option.map_eq_some_iff] at hr
    obtain ⟨row, hrow, -⟩ := hr
    have hinsert : Table.insert rows ⟨grain.grainType, grain.key, state, 1⟩ = none :=
      Table.insert_of_get_some hrow
    refine ⟨some "exists", ?_⟩
    simp only [write, Option.map_none, hinsert]
  | some n =>
    obtain ⟨rows', hupdate⟩ := update_missed state ha
    refine ⟨some "stale", ?_⟩
    simp only [write, Option.map_some, expectedInt_toString, hupdate]

theorem write_number {etag : Option String} {v : String}
    (h : (rows.write grain state etag).1 = .ok v) :
    ∃ n : ℤ, v = toString n := by
  simp only [write] at h
  split at h
  · split at h
    · cases h
    · exact ⟨1, (Except.ok.inj h).symm⟩
  · split at h
    · cases h
    · split at h
      · cases h
      · exact ⟨_, (Except.ok.inj h).symm⟩

theorem clear_accepted
    (ha : sqlClearAccepts ((rows.record grain).map Prod.snd) expectedEtag = true) :
    (rows.clear grain (expectedEtag.map toString)).1 = .ok () ∧
      (rows.clear grain (expectedEtag.map toString)).2.record grain = none := by
  rw [sqlClearAccepts, decide_eq_true_eq] at ha
  cases expectedEtag with
  | none =>
    simp only [clear, Option.map_none, record, row, Table.get_deleteWhere_key, true_and]
  | some n =>
    obtain ⟨row, rows', hdelete, hrow⟩ := delete_found (ha.resolve_left (Option.some_ne_none n))
    simp only [clear, Option.map_some, expectedInt_toString, hdelete, record, hrow,
      Option.map_none, true_and]

theorem clear_refused
    (ha : sqlClearAccepts ((rows.record grain).map Prod.snd) expectedEtag = false) :
    ∃ actual, rows.clear grain (expectedEtag.map toString) =
      (.error (.inconsistency (expectedEtag.map toString) actual), rows) := by
  rw [sqlClearAccepts, decide_eq_false_iff_not, not_or] at ha
  cases expectedEtag with
  | none => exact absurd rfl ha.1
  | some n =>
    obtain ⟨rows', hdelete⟩ := delete_missed ha.2
    refine ⟨some "stale", ?_⟩
    simp only [clear, Option.map_some, expectedInt_toString, hdelete]

end GrainStates

inductive StorageAnswer (State : Type)
  | record (state : State) (etag : Option String)
  | etag (etag : String)
  | done

/-- How a call ends: `failed` is any error but a `StorageInconsistencyError`. -/
inductive Outcome
  | success
  | inconsistent
  | failed
deriving DecidableEq

def outcome {State : Type} : Except StorageError (StorageAnswer State) → Outcome
  | .ok _ => .success
  | .error (.inconsistency _ _) => .inconsistent
  | .error _ => .failed

namespace StorageCall

variable {State Etag Etag' : Type}

def map (f : Etag → Etag') : StorageCall State Etag → StorageCall State Etag'
  | .read => .read
  | .write state expectedEtag => .write state (expectedEtag.map f)
  | .clear expectedEtag => .clear (expectedEtag.map f)

def expectedEtag : StorageCall State Etag → Option Etag
  | .read => none
  | .write _ expectedEtag => expectedEtag
  | .clear expectedEtag => expectedEtag

end StorageCall

section

variable {State Bytes : Type}

def FileStorageProvider.answer (p : FileStorageProvider State Bytes) (files : Files Bytes)
    (grain : GrainId) (uuid : String) : StorageCall State String →
      Except StorageError (StorageAnswer State) × Files Bytes
  | .read => ((p.read files grain .none).map fun r ↦ .record r.1 r.2, files)
  | .write state expectedEtag =>
    let r := p.write files grain state expectedEtag uuid .none
    (r.1.map .etag, r.2)
  | .clear expectedEtag =>
    let r := p.clear files grain expectedEtag .none
    (r.1.map fun _ ↦ .done, r.2)

def GrainStates.answer (emptyDict : State) (rows : GrainStates State) (grain : GrainId) :
    StorageCall State String → Except StorageError (StorageAnswer State) × GrainStates State
  | .read => (.ok (.record (rows.read grain emptyDict).1 (rows.read grain emptyDict).2), rows)
  | .write state expectedEtag =>
    let r := rows.write grain state expectedEtag
    (r.1.map .etag, r.2)
  | .clear expectedEtag =>
    let r := rows.clear grain expectedEtag
    (r.1.map fun _ ↦ .done, r.2)

/-- The two providers side by side, the etags that they have issued at once, and
how the last call ended in each. -/
structure Adapters (State Bytes : Type) where
  files : Files Bytes
  rows : GrainStates State
  issued : Pairing String String
  last : Option (Outcome × Outcome)

def issuedAtOnce : Except StorageError (StorageAnswer State) → Except StorageError
    (StorageAnswer State) →
    Pairing String String
  | .ok (.etag e), .ok (.etag e') => [(e, e')]
  | _, _ => []

/-- The same state under two etags of one write, or nothing in both. -/
def SameRecord (issued : Pairing String String) :
    Option (State × String) → Option (State × ℤ) → Prop
  | none, none => True
  | some (state, e), some (state', n) => state = state' ∧ (e, toString n) ∈ issued
  | _, _ => False

namespace Adapters

variable (p : FileStorageProvider State Bytes) (grain : GrainId)

def empty : Adapters State Bytes := ⟨.empty, .empty, [], none⟩

def next (t : Adapters State Bytes) (call : StorageCall State (String × String)) (uuid : String) :
    Adapters State Bytes :=
  let a := p.answer t.files grain uuid (call.map Prod.fst)
  let b := t.rows.answer p.orjson.emptyDict grain (call.map Prod.snd)
  ⟨a.2, b.2, t.issued ++ issuedAtOnce a.1 b.1, some (outcome a.1, outcome b.1)⟩

/-- An etag that a call expects was issued at some time, the `uuid` is fresh. -/
def step (t : Adapters State Bytes) (c : StorageCall State (String × String) × String) :
    Option (Adapters State Bytes) :=
  if (∀ pair ∈ c.1.expectedEtag, pair ∈ t.issued) ∧
    c.2 ∉ t.issued.map Prod.fst then some (next p grain t c.1 c.2)
  else none

/-- The last call ended alike, and the providers hold the same record. -/
structure Agree (t : Adapters State Bytes) : Prop where
  outcomes : ∀ o ∈ t.last, o.1 = o.2 ∧ o.1 ≠ .failed
  contents : ∃ record, p.Holds t.files grain record ∧
    SameRecord t.issued record (t.rows.record grain)

/-- The number of the etag is the row's own, though the etag was issued for another write. -/
def Reused (t : Adapters State Bytes) (pair : String × String) : Prop :=
  (∃ row, t.rows.row grain = some row ∧ pair.2 = toString row.etag) ∧
    ∀ state, p.read t.files grain .none ≠ .ok (state, some pair.1)

/-- When a call goes alike in both: a write without an etag is of a record that
is not there, a write or clear with an etag is of one that is there, and the
etag's number tells its write from the row's. -/
def Within (t : Adapters State Bytes) (c : StorageCall State (String × String) × String) : Prop :=
  (grain.grainType ≠ "" ∧ grain.key ≠ "") ∧
    match c.1 with
    | .read | .clear none => True
    | .write _ none => t.rows.row grain = none
    | .write _ (some pair) | .clear (some pair) => t.rows.row grain ≠ none ∧ ¬ Reused p grain t pair

/-- What the etags that were issued look like. -/
structure WellIssued (t : Adapters State Bytes) : Prop where
  left : (t.issued.map Prod.fst).Nodup
  numbers : ∀ pair ∈ t.issued, ∃ n : ℤ, pair.2 = toString n

section

variable {p grain} {t t' : Adapters State Bytes}
  {c : StorageCall State (String × String)} {uuid : String}
  {record : Option (State × String)}

theorem failed_of_unnamed (h : ¬ (grain.grainType ≠ "" ∧ grain.key ≠ "")) (files : Files Bytes)
    (call : StorageCall State String) : outcome (p.answer files grain uuid call).1 = .failed := by
  cases hpath : p.grainPath grain with
  | ok path =>
    obtain ⟨htype, hkey, -⟩ := FileStorageProvider.grainPath_eq_ok.mp hpath
    exact absurd ⟨htype, hkey⟩ h
  | error e =>
    obtain ⟨reason, rfl⟩ := FileStorageProvider.grainPath_error hpath
    cases call <;>
      simp only [FileStorageProvider.answer, FileStorageProvider.read, FileStorageProvider.write,
        FileStorageProvider.clear, hpath, Except.bind, Except.map, outcome]

theorem issuedAtOnce_cases (p : FileStorageProvider State Bytes) (grain : GrainId)
    (t : Adapters State Bytes) (call : StorageCall State (String × String)) (uuid : String) :
    issuedAtOnce (p.answer t.files grain uuid (call.map Prod.fst)).1
        (t.rows.answer p.orjson.emptyDict grain (call.map Prod.snd)).1 = [] ∨
      ∃ n : ℤ, issuedAtOnce (p.answer t.files grain uuid (call.map Prod.fst)).1
        (t.rows.answer p.orjson.emptyDict grain (call.map Prod.snd)).1 = [(uuid, toString n)] := by
  cases call with
  | read =>
    left
    cases hread : p.read t.files grain .none <;>
      simp only [StorageCall.map, FileStorageProvider.answer, GrainStates.answer, hread,
        Except.map, issuedAtOnce]
  | clear etag =>
    left
    cases hclear : (p.clear t.files grain (etag.map Prod.fst) .none).1 <;>
      cases hclear' : (t.rows.clear grain (etag.map Prod.snd)).1 <;>
        simp only [StorageCall.map, FileStorageProvider.answer, GrainStates.answer, hclear, hclear',
          Except.map, issuedAtOnce]
  | write state etag =>
    cases hwrite : (p.write t.files grain state (etag.map Prod.fst) uuid .none).1 with
    | error e =>
      left
      simp only [StorageCall.map, FileStorageProvider.answer, GrainStates.answer, hwrite,
        Except.map, issuedAtOnce]
    | ok e =>
      cases hwrite' : (t.rows.write grain state (etag.map Prod.snd)).1 with
      | error e' =>
        left
        simp only [StorageCall.map, FileStorageProvider.answer, GrainStates.answer, hwrite, hwrite',
          Except.map, issuedAtOnce]
      | ok v =>
        right
        obtain rfl := FileStorageProvider.write_uuid hwrite
        obtain ⟨n, rfl⟩ := GrainStates.write_number hwrite'
        refine ⟨n, ?_⟩
        simp only [StorageCall.map, FileStorageProvider.answer, GrainStates.answer, hwrite, hwrite',
          Except.map, issuedAtOnce]

theorem WellIssued.step (h : WellIssued t) (hs : step p grain t (c, uuid) = some t') :
    WellIssued t' := by
  rw [Adapters.step] at hs
  split_ifs at hs with hok
  obtain rfl := Option.some.inj hs
  have hcases := issuedAtOnce_cases p grain t c uuid
  constructor
  · dsimp only [next]
    rcases hcases with hnone | ⟨n, hpair⟩
    · rw [hnone, List.append_nil]
      exact h.left
    · rw [hpair, List.map_append, List.nodup_append]
      refine ⟨h.left, List.nodup_singleton _, ?_⟩
      rintro e he e' he' rfl
      obtain rfl : e = uuid := List.mem_singleton.mp he'
      exact hok.2 he
  · intro pair hmem
    rcases List.mem_append.mp hmem with hold | hnew
    · exact h.numbers pair hold
    · rcases hcases with hnone | ⟨n, hpair⟩
      · rw [hnone] at hnew
        cases hnew
      · rw [hpair] at hnew
        exact ⟨n, congrArg Prod.snd (List.mem_singleton.mp hnew)⟩

/-- When each provider does with the call what its test says, both go alike
exactly when the tests agree. -/
theorem agree_iff_of_accepts (new : Option (State × String)) {fa sa : Bool}
    {a : Except StorageError (StorageAnswer State) × Files Bytes}
    {b : Except StorageError (StorageAnswer State) × GrainStates State}
    (hrecord : p.Holds t.files grain record)
      (hsame : SameRecord t.issued record (t.rows.record grain))
    (haccepted : fa = true → outcome a.1 = .success ∧ p.Holds a.2 grain new)
    (hrefused : fa = false → outcome a.1 = .inconsistent ∧ a.2 = t.files)
    (haccepted' : sa = true → outcome b.1 = .success)
    (hrefused' : sa = false → outcome b.1 = .inconsistent ∧ b.2 = t.rows)
    (hnew : fa = true → sa = true →
      SameRecord (t.issued ++ issuedAtOnce a.1 b.1) new (b.2.record grain)) :
    Agree p grain ⟨a.2, b.2, t.issued ++ issuedAtOnce a.1 b.1, some (outcome a.1, outcome b.1)⟩ ↔
      fa = sa := by
  constructor
  · intro h
    have houtcomes := (h.outcomes _ rfl).1
    cases fa <;> cases sa
    case false.false => rfl
    case true.true => rfl
    case false.true =>
      rw [(hrefused rfl).1, haccepted' rfl] at houtcomes
      cases houtcomes
    case true.false =>
      rw [(haccepted rfl).1, (hrefused' rfl).1] at houtcomes
      cases houtcomes
  · rintro rfl
    cases fa with
    | true =>
      obtain ⟨hout, hholds⟩ := haccepted rfl
      refine ⟨?_, new, hholds, hnew rfl rfl⟩
      rintro o ⟨rfl⟩
      exact ⟨hout.trans (haccepted' rfl).symm, fun h ↦ by cases hout.symm.trans h⟩
    | false =>
      obtain ⟨hout, hfiles⟩ := hrefused rfl
      obtain ⟨hout', hrows⟩ := hrefused' rfl
      have hissued : issuedAtOnce a.1 b.1 = [] := by
        revert hout
        cases a.1 with
        | ok x => exact fun h ↦ by cases h
        | error e => exact fun _ ↦ rfl
      refine ⟨?_, record, ?_, ?_⟩
      · rintro o ⟨rfl⟩
        exact ⟨hout.trans hout'.symm, fun h ↦ by cases hout.symm.trans h⟩
      · rw [hfiles]
        exact hrecord
      · rw [hissued, List.append_nil, hrows]
        exact hsame

theorem cases_of_sameRecord {issued : Pairing String String} {record' : Option (State × ℤ)}
    (h : SameRecord issued record record') : (record = none ∧ record' = none) ∨
      ∃ state e n, record = some (state, e) ∧ record' = some (state, n) ∧
        (e, toString n) ∈ issued := by
  cases record <;> cases record' <;> try exact False.elim h
  case none.none => exact .inl ⟨rfl, rfl⟩
  case some.some r r' =>
    obtain ⟨state, e⟩ := r
    obtain ⟨state', n⟩ := r'
    obtain ⟨rfl, hmem⟩ := h
    exact .inr ⟨state, e, n, rfl, rfl, hmem⟩

/-- Under an etag that was issued, the two tests agree unless the record is gone
or its number was handed out before. -/
theorem accepts_some_iff {path : List String} {u : String} {n : ℤ} (hwell : WellIssued t)
    (hpath : p.grainPath grain = .ok path) (hrecord : p.Holds t.files grain record)
    (hsame : SameRecord t.issued record (t.rows.record grain))
    (hissued : (u, toString n) ∈ t.issued) :
    fileAccepts (record.map Prod.snd) (some u) =
      decide ((t.rows.record grain).map Prod.snd = some n) ↔
      t.rows.row grain ≠ none ∧ ¬ Reused p grain t (u, toString n) := by
  rcases cases_of_sameRecord hsame with ⟨rfl, hrow⟩ | ⟨state, e, m, rfl, hrow, hmem⟩
  · rw [hrow]
    refine iff_of_false (fun h ↦ ?_) (fun h ↦ h.1 (GrainStates.record_eq_none.mp hrow))
    simp [fileAccepts] at h
  · rw [hrow]
    obtain ⟨row, hget, hpair⟩ := Option.map_eq_some_iff.mp hrow
    obtain ⟨-, rfl⟩ := Prod.mk.inj hpair
    obtain ⟨state', hread⟩ := FileStorageProvider.read_of_holds hpath hrecord
    have hreused : Reused p grain t (u, toString n) ↔ n = row.etag ∧ u ≠ e := by
      constructor
      · rintro ⟨⟨row', hrow', hn⟩, hne⟩
        obtain rfl := Option.some.inj (hget.symm.trans hrow')
        refine ⟨Int.repr_inj.mp hn, ?_⟩
        rintro rfl
        exact hne _ hread
      · rintro ⟨rfl, hne⟩
        refine ⟨⟨row, hget, rfl⟩, fun state'' h ↦ hne ?_⟩
        have heq := (Prod.mk.inj (Except.ok.inj (hread.symm.trans h))).2
        exact (Option.some.inj heq).symm
    have hinj : e = u → row.etag = n := by
      rintro rfl
      have heq := List.inj_on_of_nodup_map hwell.left hmem hissued rfl
      exact Int.repr_inj.mp (Prod.mk.inj heq).2
    rw [hreused, hget]
    simp only [fileAccepts, Option.map_some, reduceCtorEq, Option.some.injEq, false_or,
      decide_eq_decide, ne_eq, not_false_eq_true, true_and, not_and, not_not]
    constructor
    · intro h hn
      exact (h.mpr hn.symm).symm
    · intro h
      exact ⟨hinj, fun hn ↦ (h hn.symm).symm⟩

section

variable {path : List String} {etag : Option (String × String)} {state : State}

theorem agree_read (hpath : p.grainPath grain = .ok path) (hrecord : p.Holds t.files grain record)
    (hsame : SameRecord t.issued record (t.rows.record grain)) : Agree p grain
      (next p grain t .read uuid) := by
  obtain ⟨state, hread⟩ := FileStorageProvider.read_of_holds hpath hrecord
  refine ⟨?_, record, hrecord, ?_⟩
  · rintro o ⟨rfl⟩
    simp only [StorageCall.map, FileStorageProvider.answer, GrainStates.answer, hread, Except.map,
      outcome, ne_eq, reduceCtorEq, not_false_eq_true, and_self]
  · simp only [next, StorageCall.map, FileStorageProvider.answer, GrainStates.answer, hread,
      Except.map, issuedAtOnce, List.append_nil, hsame]

theorem agree_write_iff (hjson : p.orjson.ReadsBack)
    (htotal : ∀ etag state, (p.orjson.dumps etag state).isSome)
    (hpath : p.grainPath grain = .ok path) (hrecord : p.Holds t.files grain record)
    (hsame : SameRecord t.issued record (t.rows.record grain)) (expected : Option ℤ)
    (hexpected : etag.map Prod.snd = expected.map toString) :
    Agree p grain (next p grain t (.write state etag) uuid) ↔
      fileAccepts (record.map Prod.snd) (etag.map Prod.fst) =
        sqlWriteAccepts ((t.rows.record grain).map Prod.snd) expected := by
  apply agree_iff_of_accepts (some (state, uuid)) hrecord hsame
  · intro ha
    obtain ⟨hwrite, hholds⟩ := FileStorageProvider.write_accepted state uuid hjson htotal hpath
      hrecord ha
    refine ⟨?_, hholds⟩
    simp only [StorageCall.map, FileStorageProvider.answer, hwrite, Except.map, outcome]
  · intro ha
    have hwrite := FileStorageProvider.write_refused state uuid hpath hrecord ha
    simp only [StorageCall.map, FileStorageProvider.answer, hwrite, Except.map, outcome, and_self]
  · intro ha
    obtain ⟨n, hwrite, -⟩ := GrainStates.write_accepted state ha
    simp only [StorageCall.map, GrainStates.answer, hexpected, hwrite, Except.map, outcome]
  · intro ha
    obtain ⟨actual, hwrite⟩ := GrainStates.write_refused state ha
    simp only [StorageCall.map, GrainStates.answer, hexpected, hwrite, Except.map,
      outcome, and_self]
  · intro ha ha'
    obtain ⟨hwrite, -⟩ := FileStorageProvider.write_accepted state uuid hjson htotal hpath
      hrecord ha
    obtain ⟨n, hwrite', hrecord'⟩ := GrainStates.write_accepted state ha'
    simp only [StorageCall.map, FileStorageProvider.answer, GrainStates.answer, hexpected, hwrite,
      hwrite', hrecord', Except.map, issuedAtOnce, SameRecord, true_and]
    exact List.mem_append_right _ (List.mem_singleton_self _)

theorem agree_clear_iff (hpath : p.grainPath grain = .ok path)
    (hrecord : p.Holds t.files grain record)
    (hsame : SameRecord t.issued record (t.rows.record grain)) (expected : Option ℤ)
    (hexpected : etag.map Prod.snd = expected.map toString) :
    Agree p grain (next p grain t (.clear etag) uuid) ↔
      fileAccepts (record.map Prod.snd) (etag.map Prod.fst) =
        sqlClearAccepts ((t.rows.record grain).map Prod.snd) expected := by
  apply agree_iff_of_accepts none hrecord hsame
  · intro ha
    obtain ⟨hclear, hholds⟩ := FileStorageProvider.clear_accepted hpath hrecord ha
    refine ⟨?_, hholds⟩
    simp only [StorageCall.map, FileStorageProvider.answer, hclear, Except.map, outcome]
  · intro ha
    have hclear := FileStorageProvider.clear_refused hpath hrecord ha
    simp only [StorageCall.map, FileStorageProvider.answer, hclear, Except.map, outcome, and_self]
  · intro ha
    obtain ⟨hclear, -⟩ := GrainStates.clear_accepted ha
    simp only [StorageCall.map, GrainStates.answer, hexpected, hclear, Except.map, outcome]
  · intro ha
    obtain ⟨actual, hclear⟩ := GrainStates.clear_refused ha
    simp only [StorageCall.map, GrainStates.answer, hexpected, hclear, Except.map,
      outcome, and_self]
  · intro ha ha'
    obtain ⟨-, hrecord'⟩ := GrainStates.clear_accepted ha'
    simp only [StorageCall.map, GrainStates.answer, hexpected, hrecord', SameRecord]

end

/-- For each call, when both go alike. -/
theorem agree_step_iff (hjson : p.orjson.ReadsBack)
    (htotal : ∀ etag state, (p.orjson.dumps etag state).isSome) (hwell : WellIssued t)
    (hagree : Agree p grain t) (hs : step p grain t (c, uuid) = some t') :
    Within p grain t (c, uuid) ↔ Agree p grain t' := by
  obtain ⟨record, hrecord, hsame⟩ := hagree.contents
  rw [Adapters.step] at hs
  split_ifs at hs with hok
  obtain rfl := Option.some.inj hs
  by_cases hnamed : grain.grainType ≠ "" ∧ grain.key ≠ ""
  · have hpath := FileStorageProvider.grainPath_of_ne p hnamed.1 hnamed.2
    have hetag : ∀ u v, c.expectedEtag = some (u, v) → ∃ n : ℤ, v = toString n ∧
      (u, toString n) ∈ t.issued := by
      intro u v hc
      have hmem := hok.1 (u, v) hc
      obtain ⟨n, rfl⟩ := hwell.numbers _ hmem
      exact ⟨n, rfl, hmem⟩
    cases c with
    | read => exact iff_of_true ⟨hnamed, trivial⟩ (agree_read hpath hrecord hsame)
    | write state etag =>
      cases etag with
      | none =>
        rw [agree_write_iff hjson htotal hpath hrecord hsame none rfl]
        simp [Within, hnamed, fileAccepts, sqlWriteAccepts, GrainStates.record_eq_none]
      | some pair =>
        obtain ⟨u, v⟩ := pair
        obtain ⟨n, rfl, hissued⟩ := hetag u v rfl
        rw [agree_write_iff hjson htotal hpath hrecord hsame (some n) rfl]
        exact (and_iff_right hnamed).trans (accepts_some_iff hwell hpath hrecord hsame hissued).symm
    | clear etag =>
      cases etag with
      | none =>
        rw [agree_clear_iff hpath hrecord hsame none rfl]
        simp [Within, hnamed, fileAccepts, sqlClearAccepts]
      | some pair =>
        obtain ⟨u, v⟩ := pair
        obtain ⟨n, rfl, hissued⟩ := hetag u v rfl
        have hsql : sqlClearAccepts ((t.rows.record grain).map Prod.snd) (some n) =
            decide ((t.rows.record grain).map Prod.snd = some n) := by simp [sqlClearAccepts]
        rw [agree_clear_iff hpath hrecord hsame (some n) rfl, hsql]
        exact (and_iff_right hnamed).trans (accepts_some_iff hwell hpath hrecord hsame hissued).symm
  · refine iff_of_false (fun h ↦ hnamed h.1) (fun h ↦ ?_)
    exact (h.outcomes _ rfl).2 (failed_of_unnamed hnamed _ _)

theorem agree_empty : Agree p grain (empty : Adapters State Bytes) := by
  refine ⟨fun o ho ↦ ?_, none, ?_, trivial⟩
  · cases ho
  · cases hk : p.file grain with
    | none => simp only [FileStorageProvider.Holds, hk]
    | some k => exact (FileStorageProvider.holds_none hk).mpr rfl

theorem wellIssued_empty : WellIssued (empty : Adapters State Bytes) :=
  ⟨List.nodup_nil, fun _ h ↦ absurd h List.not_mem_nil⟩

end

/-- For every run of calls about one grain. -/
theorem adapters_agree_iff (p : FileStorageProvider State Bytes) (grain : GrainId)
    (hjson : p.orjson.ReadsBack) (htotal : ∀ etag state, (p.orjson.dumps etag state).isSome)
    (calls : List (StorageCall State (String × String) × String)) (t : Adapters State Bytes)
    (h : exec (step p grain) empty calls = some t) :
    Meets (step p grain) (Within p grain) empty calls ↔
      ∀ before u, before <+: calls → exec (step p grain) empty before = some u →
      Agree p grain u := by
  have hwell : ∀ before u, exec (step p grain) empty before = some u → WellIssued u :=
    fun before u hu ↦
    (reachable_of_exec hu).invariant wellIssued_empty fun s c s' hs _ hstep ↦ hs.step hstep
  rw [meets_iff_always (I := fun u ↦ WellIssued u ∧ Agree p grain u) h
    ⟨wellIssued_empty, agree_empty⟩]
  · constructor
    · intro hall before u hbefore hu
      exact (hall before u hbefore hu).2
    · intro hall before u hbefore hu
      exact ⟨hwell before u hu, hall before u hbefore hu⟩
  · rintro s c s' ⟨hs, hagree⟩ hstep
    rw [agree_step_iff hjson htotal hs hagree hstep]
    exact (and_iff_right (hs.step hstep)).symm

def counter : GrainId := ⟨"Counter", "c1"⟩

def writeAndClear : List (StorageCall FileStorageProvider.Dict (String × String) × String) :=
  [(.write [("value", 1)] none, "e1"), (.read, "e2"), (.clear none, "e3"),
    (.write [("value", 2)] none, "e4")]

theorem adapters_agree_writeAndClear :
    ∃ t, exec (step .posix counter) empty writeAndClear = some t ∧
    (Meets (step .posix counter) (Within .posix counter) empty writeAndClear ↔
      ∀ before u, before <+: writeAndClear → exec (step .posix counter) empty before = some u →
        Agree .posix counter u) := by
  have hissued : (exec (step .posix counter) empty writeAndClear).map issued =
    some [("e1", "1"), ("e4", "1")] := by
    decide +kernel
  obtain ⟨t, ht, -⟩ := Option.map_eq_some_iff.mp hissued
  exact ⟨t, ht, adapters_agree_iff .posix counter FileStorageProvider.documents_readsBack
    (fun _ _ ↦ rfl)
    writeAndClear t ht⟩

def cleared : Adapters FileStorageProvider.Dict (Option FileStorageProvider.Dict × Option String) :=
  ⟨.empty, .empty, [("e1", "1")], some (.success, .success)⟩

/-- A write under an etag of a record that is gone. -/
theorem write_after_clear_differs :
    ¬ ∀ grain calls t, exec (step .posix grain) empty calls = some t →
    Agree .posix grain t := by
  intro h
  have hcleared : exec (step .posix counter) empty
    [(.write [("value", 1)] none, "e1"), (.clear none, "e2")] =
      some cleared := by rfl
  have hwrite : step .posix counter cleared (.write [("value", 2)] (some ("e1", "1")), "e3") =
      some (next .posix counter cleared (.write [("value", 2)] (some ("e1", "1"))) "e3") :=
        if_pos (by decide)
  have hrun : exec (step .posix counter) empty
      [(.write [("value", 1)] none, "e1"), (.clear none, "e2"),
        (.write [("value", 2)] (some ("e1", "1")), "e3")] =
        some (next .posix counter cleared (.write [("value", 2)] (some ("e1", "1"))) "e3") := by
    obtain ⟨s, hs, hrest⟩ := exec_cons.mp hcleared
    obtain ⟨s', hs', hend⟩ := exec_cons.mp hrest
    obtain rfl := Option.some.inj hend
    exact exec_cons.mpr ⟨s, hs, exec_cons.mpr ⟨_, hs', exec_cons.mpr ⟨_, hwrite, rfl⟩⟩⟩
  have hstale : sqlWriteAccepts ((cleared.rows.record counter).map Prod.snd) (some 1) = false := by
    decide
  obtain ⟨actual, hrefused⟩ := GrainStates.write_refused [("value", 2)] hstale
  have hsql : outcome (cleared.rows.answer [] counter (.write [("value", 2)] (some "1"))).1 =
    .inconsistent := by
    have hnumber : (some "1" : Option String) = (some (1 : ℤ)).map toString := rfl
    simp only [GrainStates.answer, hnumber, hrefused, Except.map, outcome]
  have hfile : outcome (FileStorageProvider.posix.answer cleared.files counter "e3"
      (.write [("value", 2)] (some "e1"))).1 = .success := by decide
  have houtcomes := ((h counter _ _ hrun).outcomes _ rfl).1
  cases hfile.symm.trans (houtcomes.trans hsql)

end Adapters

end

end Pyleans
