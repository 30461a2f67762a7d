import Pyleans.Library.Sql
import Pyleans.Storage.FileStorage

namespace Pyleans

open Library

/-- A row of `pyleans_grain_state`. The state is kept as it is. -/
structure GrainRow (State : Type) where
  grainType : String
  grainKey : String
  state : State
  etag : ℤ

def GrainRow.key {State : Type} (row : GrainRow State) : String × String :=
  (row.grainType, row.grainKey)

abbrev GrainStates (State : Type) := Table (GrainRow.key : GrainRow State → String × String)

/-- `SET state = $1::jsonb, etag = etag + 1`. -/
def GrainRow.set {State : Type} (state : State) (row : GrainRow State) : GrainRow State :=
  { row with state := state, etag := row.etag + 1 }

namespace GrainStates

variable {State : Type} (rows : GrainStates State) (grain : GrainId)

def expectedInt (expectedEtag : String) : Except StorageError ℤ :=
  match expectedEtag.toInt? with
  | none => .error .valueError
  | some n => .ok n

/-- `WHERE grain_type = … AND grain_key = … AND etag = …`. -/
def expected (etag : ℤ) (row : GrainRow State) : Bool :=
  decide (row.key = (grain.grainType, grain.key)) && decide (row.etag = etag)

def row : Option (GrainRow State) := Table.get rows (grain.grainType, grain.key)

def read (emptyDict : State) : State × Option String :=
  match rows.row grain with
  | none => (emptyDict, none)
  | some row => (row.state, some (toString row.etag))

def write (state : State) (expectedEtag : Option String) :
    Except StorageError String × GrainStates State :=
  match expectedEtag with
  | none =>
    match Table.insert rows ⟨grain.grainType, grain.key, state, 1⟩ with
    | none => (.error (.inconsistency none (some "exists")), rows)
    | some rows => (.ok (toString (1 : ℤ)), rows)
  | some etag =>
    match expectedInt etag with
    | .error e => (.error e, rows)
    | .ok n =>
      match Table.updateWhere rows (expected grain n) (GrainRow.set state) (fun _ ↦ rfl) with
      | ([], _) => (.error (.inconsistency (some etag) (some "stale")), rows)
      | (row :: _, rows) => (.ok (toString row.etag), rows)

def clear (expectedEtag : Option String) : Except StorageError Unit × GrainStates State :=
  match expectedEtag with
  | none =>
    (.ok (), (Table.deleteWhere rows fun row ↦ decide (row.key = (grain.grainType, grain.key))).2)
  | some etag =>
    match expectedInt etag with
    | .error e => (.error e, rows)
    | .ok n =>
      match Table.deleteWhere rows (expected grain n) with
      | ([], _) => (.error (.inconsistency (some etag) (some "stale")), rows)
      | (_ :: _, rows) => (.ok (), rows)

end GrainStates

end Pyleans
