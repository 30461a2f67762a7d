import Pyleans.Library.Utf8
import Pyleans.Membership.FileLock
import Pyleans.Membership.YamlMembership

namespace Pyleans

open Library FileLock

def Yaml.perform (y : Yaml Bytes) : Body MembershipCall (Except YamlError MembershipAnswer)
  | file, .readAll => ((y.readAll file).map .snapshot, none)
  | file, .tryUpdateSilo silo =>
    match y.tryUpdateSilo file silo with
    | .error e => (.error e, none)
    | .ok (refreshed, file') => ((dictToSilo refreshed).map .silo, some file')
  | file, .tryAddSuspicion siloId vote expectedEtag =>
    match y.tryAddSuspicion file siloId vote expectedEtag with
    | .error e => (.error e, none)
    | .ok (refreshed, file') => ((dictToSilo refreshed).map .silo, some file')
  | file, .tryDeleteSilo silo =>
    match y.tryDeleteSilo file silo with
    | .error e => (.error e, none)
    | .ok file' => (.ok .done, file')

/-- The calls that got to an answer, with it. -/
def answered {Op Ans : Type} : Op × Outcome Ans → Option (Op × Ans)
  | (op, .answered a) | (op, .unreleased a) => some (op, a)
  | (_, .failed _) => none

namespace Twins

variable {y : Yaml Bytes} {t : Twins Bytes}

end Twins

instance encodableString : Encodable String :=
  Encodable.ofLeftInverse (fun text ↦ text.toList.map Char.toNat)
    (fun code ↦ String.ofList (code.map Char.ofNat))
    fun text ↦ by simp [Function.comp_def]

instance encodableSuspicionVote : Encodable SuspicionVote :=
  Encodable.ofLeftInverse (fun vote ↦ (vote.suspectingSilo, vote.timestamp))
    (fun p ↦ ⟨p.1, p.2⟩) fun _ ↦ rfl

instance encodableYamlRow : Encodable YamlRow :=
  Encodable.ofLeftInverse
    (fun row ↦ ((row.id, row.host, row.port, row.epoch, row.status, row.clusterId, row.gatewayPort),
      row.lastHeartbeat, row.iAmAlive, row.startTime, row.suspicions, row.etag))
    (fun p ↦ ⟨p.1.1, p.1.2.1, p.1.2.2.1, p.1.2.2.2.1, p.1.2.2.2.2.1, p.1.2.2.2.2.2.1,
      p.1.2.2.2.2.2.2, p.2.1, p.2.2.1, p.2.2.2.1, p.2.2.2.2.1, p.2.2.2.2.2⟩) fun _ ↦ rfl

instance encodableYamlTable : Encodable YamlTable :=
  Encodable.ofLeftInverse (fun table ↦ (table.version, table.silos))
    (fun p ↦ ⟨p.1, p.2⟩) fun _ ↦ rfl

end Pyleans
