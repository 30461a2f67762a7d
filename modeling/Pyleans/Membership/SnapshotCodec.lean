import Pyleans.Library.Json
import Pyleans.Membership.YamlMembership

namespace Pyleans

open Library Json Fallible

namespace SnapshotCodec

/-- A `SuspicionVote` with whatever float came over the wire. -/
structure WireVote where
  suspectingSilo : String
  timestamp : PyFloat
deriving DecidableEq

/-- A `SiloInfo` in the same way. -/
structure WireSilo where
  address : SiloAddress
  status : SiloStatus
  lastHeartbeat : PyFloat
  startTime : PyFloat
  clusterId : Option String
  gatewayPort : Option ℤ
  version : ℤ
  iAmAlive : PyFloat
  suspicions : List WireVote
  etag : Option String
deriving DecidableEq

structure WireSnapshot where
  version : ℤ
  silos : List WireSilo
deriving DecidableEq

/-- The snapshot on the wire. Its timestamps are finite. -/
def ofVote (v : SuspicionVote) : WireVote := ⟨v.suspectingSilo, .finite v.timestamp⟩

def ofSilo (s : SiloInfo) : WireSilo where
  address := s.address
  status := s.status
  lastHeartbeat := .finite s.lastHeartbeat
  startTime := .finite s.startTime
  clusterId := s.clusterId
  gatewayPort := s.gatewayPort
  version := s.version
  iAmAlive := .finite s.iAmAlive
  suspicions := s.suspicions.map ofVote
  etag := s.etag

def ofSnapshot (s : MembershipSnapshot) : WireSnapshot := ⟨s.version, s.silos.map ofSilo⟩

variable [PythonRepr] [IntDigitLimit]

def siloStatus (value : Json) : Except PyException SiloStatus :=
  match (match value with
    | .string s => SiloStatus.ofValue s
    | _ => none) with
  | some status => .ok status
  | none => .error (.valueError s!"{PythonRepr.reprText value} is not a valid SiloStatus")

def voteToJson (v : WireVote) : Json :=
  .object [("suspecting_silo", .string v.suspectingSilo), ("timestamp", .float v.timestamp)]

def subscript (value : Json) (key : String) : Except PyException Json :=
  match value with
  | .object fields => getItem fields key
  | .array _ => .error (.typeError "list indices must be integers or slices, not str")
  | .string _ => .error (.typeError "string indices must be integers, not 'str'")
  | _ => .error (.typeError s!"'{value.typeName}' object is not subscriptable")

/-- What a `for` loop runs over: the elements of a list, the keys of a dict, the
characters of a text. -/
def iterate : Json → Except PyException (List Json)
  | .array items => .ok items
  | .object fields => .ok (fields.map fun f ↦ .string f.1)
  | .string s => .ok (s.toList.map fun c ↦ .string c.toString)
  | value => .error (.typeError s!"'{value.typeName}' object is not iterable")

def voteFromJson (v : Json) : Except PyException WireVote := do
  let suspectingSilo := toStr (← subscript v "suspecting_silo")
  let timestamp ← toFloat (← subscript v "timestamp")
  .ok ⟨suspectingSilo, timestamp⟩

def siloToJson (silo : WireSilo) : Json := .object [
  ("host", .string silo.address.host),
  ("port", .int silo.address.port),
  ("epoch", .int silo.address.epoch),
  ("status", .string silo.status.value),
  ("last_heartbeat", .float silo.lastHeartbeat),
  ("start_time", .float silo.startTime),
  ("cluster_id", ofOption .string silo.clusterId),
  ("gateway_port", ofOption .int silo.gatewayPort),
  ("version", .int silo.version),
  ("i_am_alive", .float silo.iAmAlive),
  ("suspicions", .array (silo.suspicions.map voteToJson)),
  ("etag", ofOption .string silo.etag)]

def siloFields (obj : List (String × Json)) :
    Except PyException (SiloAddress × SiloStatus × List WireVote) := do
  let host := toStr (← getItem obj "host")
  let port ← toInt (← getItem obj "port")
  let epoch ← toInt (← getItem obj "epoch")
  let status ← siloStatus (← getItem obj "status")
  let suspicions ← (← iterate ((obj.lookup "suspicions").getD (.array []))).mapM voteFromJson
  .ok (⟨host, port, epoch⟩, status, suspicions)

def siloFromJson : Json → Except PyException WireSilo
  | .object obj => do
    let (address, status, suspicions) ←
      (siloFields obj).mapError (PyException.rewrap "silo fields" PyException.isKeyTypeOrValueError)
    let lastHeartbeat ← toFloat (← getItem obj "last_heartbeat")
    let startTime ← toFloat (← getItem obj "start_time")
    let clusterId := (present obj "cluster_id").map toStr
    let gatewayPort ← (present obj "gateway_port").mapM toInt
    let version ← toInt ((obj.lookup "version").getD (.int 0))
    let iAmAlive ← toFloat ((obj.lookup "i_am_alive").getD (.float (.finite 0)))
    let etag := (present obj "etag").map toStr
    .ok ⟨address, status, lastHeartbeat, startTime, clusterId, gatewayPort, version, iAmAlive,
      suspicions, etag⟩
  | _ => .error (.valueError "silo entry must be a JSON object")

def snapshotFields (obj : List (String × Json)) : Except PyException WireSnapshot := do
  let version ← toInt (← getItem obj "version")
  match ← getItem obj "silos" with
  | .array rawSilos =>
    let silos ← rawSilos.mapM siloFromJson
    .ok ⟨version, silos⟩
  | _ => .error (.valueError "silos must be a list")

section

variable {Bytes : Type} (c : JsonCodec Bytes)

def encodeSnapshot (snapshot : WireSnapshot) : Bytes :=
  c.dumps (.object [
    ("version", .int snapshot.version), ("silos", .array (snapshot.silos.map siloToJson))])

def decodeSnapshot (data : Bytes) : Except PyException WireSnapshot := do
  let obj ← c.loadObject "invalid snapshot bytes" "snapshot must be a JSON object" data
  (snapshotFields obj).mapError
    (PyException.rewrap "malformed snapshot" PyException.isKeyTypeOrValueError)

end

omit [PythonRepr] [IntDigitLimit] in
@[simp] theorem wellFormed_vote (v : WireVote) : (voteToJson v).WellFormed := by simp [voteToJson]

omit [PythonRepr] [IntDigitLimit] in
@[simp] theorem wellFormed_silo (silo : WireSilo) : (siloToJson silo).WellFormed := by
  simp [siloToJson, wellFormed_ofOption]

omit [IntDigitLimit] in
theorem siloStatus_value (status : SiloStatus) :
    siloStatus (.string status.value) = .ok status := by
  cases status <;> rfl

omit [IntDigitLimit] in
theorem voteFromJson_toJson (v : WireVote) : voteFromJson (voteToJson v) = .ok v := rfl

omit [PythonRepr] [IntDigitLimit] in
theorem siloToJson_eq (silo : WireSilo) : ∃ obj, siloToJson silo = .object obj ∧
    obj.lookup "host" = some (.string silo.address.host) ∧
      obj.lookup "port" = some (.int silo.address.port) ∧
    obj.lookup "epoch" = some (.int silo.address.epoch) ∧
      obj.lookup "status" = some (.string silo.status.value) ∧
    obj.lookup "last_heartbeat" = some (.float silo.lastHeartbeat) ∧
    obj.lookup "start_time" = some (.float silo.startTime) ∧
    obj.lookup "cluster_id" = some (ofOption .string silo.clusterId) ∧
    obj.lookup "gateway_port" = some (ofOption .int silo.gatewayPort) ∧
    obj.lookup "version" = some (.int silo.version) ∧
      obj.lookup "i_am_alive" = some (.float silo.iAmAlive) ∧
    obj.lookup "suspicions" = some (.array (silo.suspicions.map voteToJson)) ∧
    obj.lookup "etag" = some (ofOption .string silo.etag) :=
  ⟨_, rfl, rfl, rfl, rfl, rfl, rfl, rfl, rfl, rfl, rfl, rfl, rfl, rfl⟩

theorem siloFromJson_toJson (silo : WireSilo) : siloFromJson (siloToJson silo) = .ok silo := by
  obtain ⟨obj, hobj, hhost, hport, hepoch, hstatus, hheartbeat, hstart, hcluster, hgateway,
    hversion, halive,
    hsuspicions, hetag⟩ := siloToJson_eq silo
  have hnull : ∀ n, Json.int n ≠ .null := fun _ h ↦ nomatch h
  have hport' : (present obj "gateway_port").mapM toInt = .ok silo.gatewayPort :=
    present_mapM hnull (fun _ ↦ rfl) hgateway
  have hfields : siloFields obj = .ok (silo.address, silo.status, silo.suspicions) := by
    simp only [siloFields, getItem, hhost, hport, hepoch, hstatus, hsuspicions, Option.getD_some,
      iterate, toInt, ok_bind, siloStatus_value, mapM_map_ok voteFromJson_toJson, toStr]
  rw [hobj, siloFromJson, hfields]
  simp only [getItem, hheartbeat, hstart, hversion, halive, hport', present_text hcluster,
    present_text hetag, Option.getD_some, toFloat, toInt, ok_bind, Except.mapError]

theorem decodeSnapshot_encode {Bytes : Type} {c : JsonCodec Bytes} (hc : c.RoundTrips)
    (s : WireSnapshot) :
    decodeSnapshot c (encodeSnapshot c s) = .ok s := by
  rw [decodeSnapshot, encodeSnapshot, hc.loadObject _ _ (by simp), ok_bind]
  calc Except.mapError (PyException.rewrap "malformed snapshot" PyException.isKeyTypeOrValueError)
          ((s.silos.map siloToJson).mapM siloFromJson >>= fun silos ↦ .ok ⟨s.version, silos⟩)
    _ = .ok s := by
      rw [mapM_map_ok siloFromJson_toJson]
      rfl

omit [PythonRepr] [IntDigitLimit] in
theorem ofVote_injective : Function.Injective ofVote := by
  intro v w h
  obtain ⟨suspectingSilo, timestamp⟩ := v
  obtain ⟨suspectingSilo', timestamp'⟩ := w
  simpa [ofVote] using h

omit [PythonRepr] [IntDigitLimit] in
theorem ofSilo_injective : Function.Injective ofSilo := by
  intro s t h
  cases s
  cases t
  simpa [ofSilo, ofVote_injective.list_map.eq_iff] using h

omit [PythonRepr] [IntDigitLimit] in
theorem ofSnapshot_injective : Function.Injective ofSnapshot := by
  intro s t h
  cases s
  cases t
  simpa [ofSnapshot, ofSilo_injective.list_map.eq_iff] using h

/-- Every snapshot is read back from its bytes, whatever floats are in it; what
arrives of a snapshot of the table is that snapshot and no other. -/
theorem snapshots_read_back {Bytes : Type} {c : JsonCodec Bytes} (hc : c.RoundTrips) :
    (∀ s : WireSnapshot, decodeSnapshot c (encodeSnapshot c s) = .ok s) ∧
      ∀ s t : MembershipSnapshot, decodeSnapshot c (encodeSnapshot c (ofSnapshot s)) =
        .ok (ofSnapshot t) ↔ s = t := by
  refine ⟨decodeSnapshot_encode hc, fun s t ↦ ?_⟩
  rw [decodeSnapshot_encode hc, Except.ok.injEq]
  exact ofSnapshot_injective.eq_iff

omit [PythonRepr] [IntDigitLimit] in
theorem snapshots_read_back_suspected :
    let s : WireSnapshot :=
      ⟨7, [⟨siloA, .shuttingDown, .finite (3 / 2), .finite 1, some "dev", none, 4, .finite 2,
      [⟨"b:11111:1", .finite (5 / 4)⟩], some "v7"⟩]⟩
    @decodeSnapshot Json.plainRepr .initial Json .transparent
      (encodeSnapshot .transparent s) = .ok s :=
  (@snapshots_read_back Json.plainRepr .initial Json .transparent
    JsonCodec.transparent_roundTrips).1 _

end SnapshotCodec

end Pyleans
