import Mathlib
import Pyleans.Library.KeyedRows
import Pyleans.Library.Pairing
import Pyleans.Library.Transition
import Pyleans.Membership.Table

namespace Pyleans

open Library

inductive MembershipCall
  | readAll
  | tryUpdateSilo (silo : SiloInfo)
  | tryAddSuspicion (siloId : String) (vote : SuspicionVote) (expectedEtag : Option String)
  | tryDeleteSilo (silo : SiloInfo)

inductive MembershipAnswer
  | snapshot (s : MembershipSnapshot)
  | silo (s : SiloInfo)
  | done
deriving DecidableEq

namespace MembershipTable

/-- `try_add_suspicion` whatever etag it is given, `None` included. -/
def addSuspicion (t : MembershipTable) (siloId : String) (vote : SuspicionVote)
    (expectedEtag : Option String) :
    Except MembershipError (SiloInfo × MembershipTable) :=
  match t.silos.get siloId with
  | none => .error .siloNotFound
  | some current =>
    if current.etag ≠ expectedEtag then .error .tableStale
    else .ok (t.store (current.addSuspicion vote))

def answer (t : MembershipTable) :
    MembershipCall → Except MembershipError MembershipAnswer × MembershipTable
  | .readAll => (.ok (.snapshot t.readAll), t)
  | .tryUpdateSilo silo =>
    match t.tryUpdateSilo silo with
    | .error e => (.error e, t)
    | .ok (stored, t') => (.ok (.silo stored), t')
  | .tryAddSuspicion siloId vote expectedEtag =>
    match t.addSuspicion siloId vote expectedEtag with
    | .error e => (.error e, t)
    | .ok (stored, t') => (.ok (.silo stored), t')
  | .tryDeleteSilo silo =>
    match t.tryDeleteSilo silo with
    | .error e => (.error e, t)
    | .ok t' => (.ok .done, t'.getD t)

/-- One for a call that succeeds in writing or removing a row. -/
def bump (t : MembershipTable) (c : MembershipCall) : ℤ :=
  match (t.answer c).1, c with
  | .error _, _ => 0
  | .ok _, .readAll => 0
  | .ok _, .tryDeleteSilo silo => if (t.readSilo silo.siloId).isSome then 1 else 0
  | .ok _, _ => 1

end MembershipTable

/-- A row of the file as the provider writes it, with all its keys. -/
structure YamlRow where
  id : String
  host : String
  port : ℤ
  epoch : ℤ
  status : String
  clusterId : Option String
  gatewayPort : Option ℤ
  lastHeartbeat : ℚ
  iAmAlive : ℚ
  startTime : ℚ
  suspicions : List SuspicionVote
  etag : Option String
deriving DecidableEq

structure YamlTable where
  version : ℤ
  silos : List YamlRow
deriving DecidableEq

/-- A `MembershipError` of the provider's own is raised for a file that cannot
be read or a row that cannot be decoded. -/
inductive YamlError
  | membership (e : MembershipError)
  | unreadable
  | malformed

/-- What the provider uses of other packages: `yaml` for the file, where
`safeLoad` raises or finds anything but a dict, and for the text of one row
that an etag is computed from, and `hashlib`. -/
structure Yaml (File : Type) where
  dump : YamlTable → File
  safeLoad : File → Option (Option YamlTable)
  dumpRow : YamlRow → String
  sha256Hex : String → String

def SiloAddress.encoded (s : SiloAddress) : String := s!"{s.host}_{s.port}_{s.epoch}"

def SiloStatus.value : SiloStatus → String
  | .joining => "joining"
  | .active => "active"
  | .shuttingDown => "shutting_down"
  | .dead => "dead"

def SiloStatus.all : List SiloStatus := [.joining, .active, .shuttingDown, .dead]

def SiloStatus.ofValue (value : String) : Option SiloStatus := all.find? fun s ↦ s.value = value

def siloToDict (silo : SiloInfo) : YamlRow where
  id := silo.address.encoded
  host := silo.address.host
  port := silo.address.port
  epoch := silo.address.epoch
  status := silo.status.value
  clusterId := silo.clusterId
  gatewayPort := silo.gatewayPort
  lastHeartbeat := silo.lastHeartbeat
  iAmAlive := silo.iAmAlive
  startTime := silo.startTime
  suspicions := silo.suspicions
  etag := silo.etag

def dictToSilo (entry : YamlRow) : Except YamlError SiloInfo :=
  match SiloStatus.ofValue entry.status with
  | none => .error .malformed
  | some status => .ok {
      address := ⟨entry.host, entry.port, entry.epoch⟩
      status := status
      lastHeartbeat := entry.lastHeartbeat
      startTime := entry.startTime
      clusterId := entry.clusterId
      gatewayPort := entry.gatewayPort
      version := 0
      iAmAlive := entry.iAmAlive
      suspicions := entry.suspicions
      etag := entry.etag }

def entrySiloId (entry : YamlRow) : String := s!"{entry.host}:{entry.port}:{entry.epoch}"

def findSiloIndex (silos : List YamlRow) (siloId : String) : Option ℕ :=
  silos.findIdx? fun entry ↦ entrySiloId entry = siloId

def findSilo (silos : List YamlRow) (siloId : String) : Option (ℕ × YamlRow) :=
  (findSiloIndex silos siloId).bind fun index ↦ silos[index]?.map fun row ↦ (index, row)

def emptyTable : YamlTable := ⟨0, []⟩

namespace Yaml

variable {File : Type} (y : Yaml File)

def computeEtag (row : YamlRow) (version : ℤ) : String :=
  let stripped := { row with etag := none }
  let digest := y.sha256Hex s!"{version}::{y.dumpRow stripped}"
  s!"h-{String.ofList (digest.toList.take 12)}"

def loadTable (file : Option File) : Except YamlError YamlTable :=
  match file with
  | none => .ok emptyTable
  | some content =>
    match y.safeLoad content with
    | none => .error .unreadable
    | some none => .ok emptyTable
    | some (some parsed) => .ok parsed

/-- `silos` puts the row that is written among the others. -/
def finaliseWrite (data : YamlTable) (row : YamlRow) (silos : YamlRow → List YamlRow) :
    YamlRow × File :=
  let version := data.version + 1
  let refreshed := { row with etag := some (y.computeEtag row version) }
  (refreshed, y.dump ⟨version, silos refreshed⟩)

def readAll (file : Option File) : Except YamlError MembershipSnapshot :=
  (y.loadTable file).bind fun data ↦
    (data.silos.mapM dictToSilo).map fun silos ↦ ⟨data.version, silos⟩

def tryUpdateSilo (file : Option File) (silo : SiloInfo) : Except YamlError (YamlRow × File) :=
  (y.loadTable file).bind fun data ↦
    match findSilo data.silos silo.siloId with
    | none =>
      if silo.etag ≠ none then .error (.membership .siloNotFound)
      else .ok (y.finaliseWrite data (siloToDict silo) fun row ↦ data.silos ++ [row])
    | some (index, current) =>
      if current.etag ≠ silo.etag then .error (.membership .tableStale)
      else .ok (y.finaliseWrite data (siloToDict silo) fun row ↦ data.silos.set index row)

def tryAddSuspicion (file : Option File) (siloId : String) (vote : SuspicionVote)
    (expectedEtag : Option String) : Except YamlError (YamlRow × File) :=
  (y.loadTable file).bind fun data ↦
    match findSilo data.silos siloId with
    | none => .error (.membership .siloNotFound)
    | some (index, current) =>
      if current.etag ≠ expectedEtag then .error (.membership .tableStale)
      else
        let voted := { current with suspicions := current.suspicions ++ [vote] }
        .ok (y.finaliseWrite data voted fun row ↦ data.silos.set index row)

def tryDeleteSilo (file : Option File) (silo : SiloInfo) : Except YamlError (Option File) :=
  (y.loadTable file).bind fun data ↦
    match findSilo data.silos silo.siloId with
    | none => .ok none
    | some (index, current) =>
      if current.etag ≠ silo.etag then .error (.membership .tableStale)
      else .ok (some (y.dump ⟨data.version + 1, data.silos.eraseIdx index⟩))

def answer (file : Option File) : MembershipCall → Except YamlError MembershipAnswer × Option File
  | .readAll => ((y.readAll file).map .snapshot, file)
  | .tryUpdateSilo silo =>
    match y.tryUpdateSilo file silo with
    | .error e => (.error e, file)
    | .ok (refreshed, file') => ((dictToSilo refreshed).map .silo, some file')
  | .tryAddSuspicion siloId vote expectedEtag =>
    match y.tryAddSuspicion file siloId vote expectedEtag with
    | .error e => (.error e, file)
    | .ok (refreshed, file') => ((dictToSilo refreshed).map .silo, some file')
  | .tryDeleteSilo silo =>
    match y.tryDeleteSilo file silo with
    | .error e => (.error e, file)
    | .ok file' => (.ok .done, file'.or file)

end Yaml

def rowA (etag : Option String) : SiloInfo :=
  ⟨siloA, .active, 0, 0, some "dev", some 30000, 0, 0, [], etag⟩

def dumpedRowA : String :=
  "cluster_id: dev\nepoch: 1\ngateway_port: 30000\nhost: a\ni_am_alive: 0.0\nid: a_11111_1\n" ++
    "last_heartbeat: 0.0\nport: 11111\nstart_time: 0.0\nstatus: active\nsuspicions: []\n"

def yamlA : Yaml YamlTable where
  dump := id
  safeLoad data := some (some data)
  dumpRow row := if row = siloToDict (rowA none) then dumpedRowA else ""
  sha256Hex text :=
    if text = "1::" ++ dumpedRowA then
      "267e80240cfc6368dd63ad0e5477d2bf469c9fa559b249203ec7ee73b8dd7676"
    else if text = "2::" ++ dumpedRowA then
      "dd65bcbf62667d455d8d6295dc25ddb2532fbbd1916d534951421566c22d035e"
    else if text = "4::" ++ dumpedRowA then
      "022bf6de4671b1061c24d3493e5b9b29534d2e54e7613ab83254ef3d080ceba8"
    else ""

/-- What two providers have in common of a row. -/
def SiloInfo.bare (s : SiloInfo) : SiloInfo := { s with etag := none, version := 0 }

/-- The two providers side by side, and the etags that they have issued at once. -/
structure Twins (File : Type) where
  yaml : Option File
  memory : MembershipTable
  issued : Pairing String String

/-- The same call to both, up to etags. -/
def SameCall (issued : Pairing String String) : MembershipCall → MembershipCall → Prop
  | .readAll, .readAll => True
  | .tryUpdateSilo s, .tryUpdateSilo t => s.bare = t.bare ∧ issued.Corresponds s.etag t.etag
  | .tryAddSuspicion s v e, .tryAddSuspicion s' v' e' => s = s' ∧ v = v' ∧ issued.Corresponds e e'
  | .tryDeleteSilo s, .tryDeleteSilo t => s.bare = t.bare ∧ issued.Corresponds s.etag t.etag
  | _, _ => False

instance (issued : Pairing String String) : ∀ c d, Decidable (SameCall issued c d) := by
  intro c d
  unfold SameCall
  split <;> infer_instance

def SameSilo (issued : Pairing String String) (s t : SiloInfo) : Prop :=
  s.bare = t.bare ∧ ∃ p ∈ issued, s.etag = some p.1 ∧ t.etag = some p.2

def SameSnapshot (issued : Pairing String String) (s t : MembershipSnapshot) : Prop :=
  s.version = t.version ∧ List.Forall₂ (SameSilo issued) s.silos t.silos

def SameAnswer (issued : Pairing String String) : MembershipAnswer → MembershipAnswer → Prop
  | .snapshot s, .snapshot t => SameSnapshot issued s t
  | .silo s, .silo t => SameSilo issued s t
  | .done, .done => True
  | _, _ => False

def SameOutcome (issued : Pairing String String) :
    Except YamlError MembershipAnswer → Except MembershipError MembershipAnswer → Prop
  | .ok a, .ok b => SameAnswer issued a b
  | .error e, .error e' => e = .membership e'
  | _, _ => False

def issuedBy : Except YamlError MembershipAnswer → Except MembershipError MembershipAnswer →
    Pairing String String
  | .ok (.silo s), .ok (.silo t) => (s.etag.bind fun e ↦ t.etag.map fun e' ↦ (e, e')).toList
  | _, _ => []

namespace Twins

variable {File : Type}

def empty : Twins File := ⟨none, .empty, []⟩

def step (y : Yaml File) (t : Twins File) (c : MembershipCall × MembershipCall) :
    Option (Twins File) :=
  let a := y.answer t.yaml c.1
  let b := t.memory.answer c.2
  some ⟨a.2, b.2, t.issued ++ issuedBy a.1 b.1⟩

end Twins

theorem ofValue_value (s : SiloStatus) : SiloStatus.ofValue s.value = some s := by
  cases s <;> decide

theorem dictToSilo_siloToDict (s : SiloInfo) :
    dictToSilo (siloToDict s) = .ok { s with version := 0 } := by
  simp only [dictToSilo, siloToDict, ofValue_value]

/-- A row of the file stands for a row of the other provider. -/
def SameRow (issued : Pairing String String) (row : YamlRow) (s : SiloInfo) : Prop :=
  ∃ p ∈ issued, s.etag = some p.2 ∧ row = siloToDict { s with etag := some p.1 }

section

variable {issued issued' : Pairing String String} {row : YamlRow} {s s' : SiloInfo}
  {rows : List YamlRow}
  {table : Table SiloInfo.siloId} {siloId : String}

theorem SameRow.key (h : SameRow issued row s) : entrySiloId row = s.siloId := by
  obtain ⟨p, -, -, rfl⟩ := h
  rfl

theorem SameRow.mono (h : SameRow issued row s) (hsub : issued ⊆ issued') :
    SameRow issued' row s := by
  obtain ⟨p, hp, hrow⟩ := h
  exact ⟨p, hsub hp, hrow⟩

theorem SameRow.decoded (h : SameRow issued row s) :
    ∃ a, dictToSilo row = .ok a ∧ SameSilo issued a s := by
  obtain ⟨p, hp, hetag, rfl⟩ := h
  exact ⟨_, dictToSilo_siloToDict _, rfl, p, hp, rfl, hetag⟩

theorem sameRow_written (issued : Pairing String String) (h : s.bare = s'.bare) (e e' : String) :
    SameRow (issued ++ [(e, e')]) { siloToDict s with etag := some e }
      { s' with etag := some e' } := by
  refine ⟨(e, e'), List.mem_append_right _ (List.mem_singleton_self _), rfl, ?_⟩
  cases s
  cases s'
  simp only [SiloInfo.bare, SiloInfo.mk.injEq] at h
  simp only [siloToDict, h]

theorem decoded_all (h : List.Forall₂ (SameRow issued) rows table.items) :
    ∃ silos, rows.mapM dictToSilo = Except.ok silos ∧
      List.Forall₂ (SameSilo issued) silos table.items := by
  generalize table.items = items at h
  induction h with
  | nil => exact ⟨[], rfl, .nil⟩
  | cons hrow _ ih =>
    obtain ⟨a, hdecoded, hsame⟩ := hrow.decoded
    obtain ⟨silos, hall, hsames⟩ := ih
    refine ⟨a :: silos, ?_, .cons hsame hsames⟩
    rw [List.mapM_cons, hdecoded, hall]
    rfl

theorem findSilo_cases (h : List.Forall₂ (SameRow issued) rows table.items) (siloId : String) :
    (findSilo rows siloId = none ∧ table.get siloId = none) ∨
      ∃ index row s, findSilo rows siloId = some (index, row) ∧
        findSiloIndex rows siloId = some index ∧
        table.get siloId = some s ∧ SameRow issued row s := by
  rcases Table.forall₂_find h (fun _ _ ↦ SameRow.key) siloId with
    ⟨hindex, hget⟩ | ⟨index, row, s, hindex, hrow, hget, hsame⟩
  · refine .inl ⟨?_, hget⟩
    rw [findSilo, findSiloIndex, hindex, Option.bind_none]
  · refine .inr ⟨index, row, s, ?_, hindex, hget, hsame⟩
    rw [findSilo, findSiloIndex, hindex, Option.bind_some, hrow, Option.map_some]

end

namespace Twins

variable {File : Type} {y : Yaml File} {t t' : Twins File} {c : MembershipCall × MembershipCall}

/-- The file holds the rows of the other provider, under etags of its own. -/
structure Related (y : Yaml File) (t : Twins File) : Prop where
  file : ∃ data, y.loadTable t.yaml = .ok data ∧ data.version = t.memory.version ∧
    List.Forall₂ (SameRow t.issued) data.silos t.memory.silos.items
  stamped : ∀ p ∈ t.issued, ∃ v ≤ t.memory.version, p.2 = MembershipTable.etagOf v
  right : (t.issued.map Prod.snd).Nodup

/-- What a call does to both: the same outcome, the same rows afterwards, and
the version goes up on both sides by one exactly for a successful mutation. -/
structure Agrees (y : Yaml File) (t t' : Twins File) (c : MembershipCall × MembershipCall) :
    Prop where
  outcome : SameOutcome t'.issued (y.answer t.yaml c.1).1 (t.memory.answer c.2).1
  rows : ∃ s, y.readAll t'.yaml = .ok s ∧ SameSnapshot t'.issued s t'.memory.readAll
  version : t'.memory.version = t.memory.version + t.memory.bump c.2
  failure e : (t.memory.answer c.2).1 = .error e → t'.yaml = t.yaml ∧ t'.memory = t.memory

theorem Related.readAll (h : Related y t) :
    ∃ s, y.readAll t.yaml = .ok s ∧ SameSnapshot t.issued s t.memory.readAll := by
  obtain ⟨data, hload, hversion, hrows⟩ := h.file
  obtain ⟨silos, hall, hsame⟩ := decoded_all hrows
  refine ⟨⟨data.version, silos⟩, ?_, hversion, hsame⟩
  rw [Yaml.readAll, hload, Except.bind, hall]
  rfl

theorem Related.written (hload : ∀ d, y.safeLoad (y.dump d) = some (some d)) (h : Related y t)
    {data : YamlTable}
    (hversion : data.version = t.memory.version) {s s' : SiloInfo} (hbare : s.bare = s'.bare)
    (rows : YamlRow → List YamlRow)
    (hrows : ∀ issued' row, t.issued ⊆ issued' → SameRow issued' row (t.memory.store s').1 →
      List.Forall₂ (SameRow issued') (rows row) (t.memory.store s').2.silos.items)
    (ht : t' = ⟨some (y.finaliseWrite data (siloToDict s) rows).2, (t.memory.store s').2,
      t.issued ++
        [(y.computeEtag (siloToDict s) (data.version + 1),
        MembershipTable.etagOf (t.memory.version + 1))]⟩) :
    Related y t' ∧ SameRow t'.issued (y.finaliseWrite data (siloToDict s) rows).1
      (t.memory.store s').1 := by
  have hrow := sameRow_written t.issued hbare (y.computeEtag (siloToDict s) (data.version + 1))
    (MembershipTable.etagOf (t.memory.version + 1))
  rw [ht]
  refine ⟨⟨⟨⟨data.version + 1, rows (y.finaliseWrite data (siloToDict s) rows).1⟩, ?_, ?_,
    hrows _ _ (List.subset_append_left _ _) hrow⟩, ?_, ?_⟩, hrow⟩
  · simp only [Yaml.loadTable, Yaml.finaliseWrite, hload]
  · exact congrArg (· + 1) hversion
  · intro p hp
    rcases List.mem_append.mp hp with hp | hp
    · obtain ⟨v, hv, hetag⟩ := h.stamped p hp
      exact ⟨v, hv.trans (Int.le_add_one le_rfl), hetag⟩
    · obtain rfl := List.mem_singleton.mp hp
      exact ⟨t.memory.version + 1, le_rfl, rfl⟩
  · rw [List.map_append, List.map_singleton, List.nodup_append]
    refine ⟨h.right, List.nodup_singleton _, ?_⟩
    rintro e he e' he' rfl
    obtain ⟨p, hp, rfl⟩ := List.mem_map.mp he
    obtain ⟨v, hv, hetag⟩ := h.stamped p hp
    have hsame := MembershipTable.etagOf_injective
      (congrArg some ((List.mem_singleton.mp he').symm.trans hetag))
    omega

theorem Related.unchanged (h : Related y t) (hm : (t.memory.answer c.2).2 = t.memory)
    (hy : (y.answer t.yaml c.1).2 = t.yaml)
    (hout : SameOutcome t.issued (y.answer t.yaml c.1).1 (t.memory.answer c.2).1)
    (hnew : issuedBy (y.answer t.yaml c.1).1 (t.memory.answer c.2).1 = [])
    (hbump : t.memory.bump c.2 = 0) (hs : step y t c = some t') :
    Related y t' ∧ Agrees y t t' c := by
  have ht : t' = t := by
    rw [step, hnew, List.append_nil, hm, hy] at hs
    exact (Option.some.inj hs).symm
  subst ht
  exact ⟨h, hout, h.readAll, by rw [hbump, add_zero], fun _ _ ↦ ⟨rfl, rfl⟩⟩

theorem Related.failed (h : Related y t) {e : MembershipError}
    (hy : y.answer t.yaml c.1 = (.error (.membership e), t.yaml))
    (hm : t.memory.answer c.2 = (.error e, t.memory)) (hs : step y t c = some t') : Related y t' ∧
      Agrees y t t' c := by
  apply h.unchanged (by rw [hm]) (by rw [hy]) ?_ ?_ ?_ hs
  · rw [hy, hm]
    exact rfl
  · rw [hy]
    rfl
  · simp only [MembershipTable.bump, hm]

theorem Related.wrote (hload : ∀ d, y.safeLoad (y.dump d) = some (some d)) (h : Related y t)
    {data : YamlTable}
    (hversion : data.version = t.memory.version) {s s' : SiloInfo} (hbare : s.bare = s'.bare)
    (rows : YamlRow → List YamlRow)
    (hrows : ∀ issued' row, t.issued ⊆ issued' → SameRow issued' row (t.memory.store s').1 →
      List.Forall₂ (SameRow issued') (rows row) (t.memory.store s').2.silos.items)
    (hy : y.answer t.yaml c.1 =
      ((dictToSilo (y.finaliseWrite data (siloToDict s) rows).1).map .silo,
      some (y.finaliseWrite data (siloToDict s) rows).2))
    (hm : t.memory.answer c.2 = (.ok (.silo (t.memory.store s').1), (t.memory.store s').2))
    (hbump : t.memory.bump c.2 = 1) (hs : step y t c = some t') :
    Related y t' ∧ Agrees y t t' c := by
  have hdecoded : dictToSilo (y.finaliseWrite data (siloToDict s) rows).1 =
      .ok { s with version := 0, etag := some (y.computeEtag (siloToDict s) (data.version + 1)) } :=
    dictToSilo_siloToDict { s with etag := some (y.computeEtag (siloToDict s) (data.version + 1)) }
  have ht : t' = ⟨some (y.finaliseWrite data (siloToDict s) rows).2,
    (t.memory.store s').2, t.issued ++
      [(y.computeEtag (siloToDict s) (data.version + 1),
        MembershipTable.etagOf (t.memory.version + 1))]⟩ := by
    rw [step, hy, hm, hdecoded] at hs
    exact (Option.some.inj hs).symm
  obtain ⟨hrelated, hrow⟩ := h.written hload hversion hbare rows hrows ht
  refine ⟨hrelated, ?_, hrelated.readAll, ?_, fun e he ↦ ?_⟩
  · rw [hy, hm]
    obtain ⟨a, ha, hsame⟩ := hrow.decoded
    rw [ha]
    exact hsame
  · rw [hbump, ht]
    rfl
  · rw [hm] at he
    cases he

theorem siloId_of_bare {s s' : SiloInfo} (h : s.bare = s'.bare) : s.siloId = s'.siloId := by
  show s.bare.siloId = s'.bare.siloId
  rw [h]

section

variable {data : YamlTable} {s s' : SiloInfo}

theorem Related.update (hload : ∀ d, y.safeLoad (y.dump d) = some (some d)) (h : Related y t)
    (hfresh : (t.issued.map Prod.fst).Nodup) (hbare : s.bare = s'.bare)
    (hetags : t.issued.Corresponds s.etag s'.etag)
    (hs : step y t (.tryUpdateSilo s, .tryUpdateSilo s') = some t') :
    Related y t' ∧ Agrees y t t' (.tryUpdateSilo s, .tryUpdateSilo s') := by
  obtain ⟨data, hdata, hversion, hrows⟩ := h.file
  have hkey := siloId_of_bare hbare
  rcases findSilo_cases hrows s.siloId with ⟨hfind, hget⟩
    | ⟨index, row, current, hfind, hindex, hget, hrow⟩
  · by_cases hnone : s.etag = none
    · have hy : y.tryUpdateSilo t.yaml s =
        .ok (y.finaliseWrite data (siloToDict s) fun row ↦ data.silos ++ [row]) := by
        simp only [Yaml.tryUpdateSilo, hdata, Except.bind, hfind, hnone, ne_eq,
          not_true_eq_false, if_false]
      have hm : t.memory.tryUpdateSilo s' = .ok (t.memory.store s') := by
        simp only [MembershipTable.tryUpdateSilo, ← hkey, hget, hetags.none_iff.mp hnone, ne_eq,
          not_true_eq_false, if_false]
      apply h.wrote hload hversion hbare (fun row ↦ data.silos ++ [row]) ?_ ?_ ?_ ?_ hs
      · intro issued' row hsub hrow
        exact Table.forall₂_put_new (hrows.imp fun _ _ hr ↦ hr.mono hsub) (hkey ▸ hget) hrow
      · simp only [Yaml.answer, hy]
      · simp only [MembershipTable.answer, hm]
      · simp only [MembershipTable.bump, MembershipTable.answer, hm]
    · apply h.failed (e := .siloNotFound) ?_ ?_ hs
      · simp only [Yaml.answer, Yaml.tryUpdateSilo, hdata, Except.bind, hfind, ne_eq, hnone,
          not_false_eq_true, if_true]
      · simp only [MembershipTable.answer, MembershipTable.tryUpdateSilo, ← hkey, hget, ne_eq,
          mt hetags.none_iff.mpr hnone, not_false_eq_true, if_true]
  · obtain ⟨p, hp, hetag, hdict⟩ := hrow
    have hcurrent : row.etag = s.etag ↔ current.etag = s'.etag := by
      rw [hetag, hdict]
      exact hetags.eq_iff ⟨hfresh, h.right⟩ hp
    by_cases he : row.etag = s.etag
    · have hy : y.tryUpdateSilo t.yaml s =
          .ok (y.finaliseWrite data (siloToDict s) fun row ↦ data.silos.set index row) := by
        simp only [Yaml.tryUpdateSilo, hdata, Except.bind, hfind, he, ne_eq,
          not_true_eq_false, if_false]
      have hm : t.memory.tryUpdateSilo s' = .ok (t.memory.store s') := by
        simp only [MembershipTable.tryUpdateSilo, ← hkey, hget, hcurrent.mp he, ne_eq,
          not_true_eq_false, if_false]
      apply h.wrote hload hversion hbare (fun row ↦ data.silos.set index row) ?_ ?_ ?_ ?_ hs
      · intro issued' row hsub hrow
        exact Table.forall₂_put (hrows.imp fun _ _ hr ↦ hr.mono hsub)
          (fun _ _ ↦ SameRow.key) (hkey ▸ hindex)
          (hkey ▸ hget) hrow
      · simp only [Yaml.answer, hy]
      · simp only [MembershipTable.answer, hm]
      · simp only [MembershipTable.bump, MembershipTable.answer, hm]
    · apply h.failed (e := .tableStale) ?_ ?_ hs
      · simp only [Yaml.answer, Yaml.tryUpdateSilo, hdata, Except.bind, hfind, ne_eq, he,
          not_false_eq_true, if_true]
      · simp only [MembershipTable.answer, MembershipTable.tryUpdateSilo, ← hkey, hget, ne_eq,
          mt hcurrent.mpr he, not_false_eq_true, if_true]

theorem Related.suspicion (hload : ∀ d, y.safeLoad (y.dump d) = some (some d)) (h : Related y t)
    (hfresh : (t.issued.map Prod.fst).Nodup) {siloId : String} {e e' : Option String}
    {vote : SuspicionVote} (hetags : t.issued.Corresponds e e')
    (hs : step y t (.tryAddSuspicion siloId vote e, .tryAddSuspicion siloId vote e') = some t') :
    Related y t' ∧ Agrees y t t'
      (.tryAddSuspicion siloId vote e, .tryAddSuspicion siloId vote e') := by
  obtain ⟨data, hdata, hversion, hrows⟩ := h.file
  rcases findSilo_cases hrows siloId with ⟨hfind, hget⟩
    | ⟨index, row, current, hfind, hindex, hget, hrow⟩
  · apply h.failed (e := .siloNotFound) ?_ ?_ hs
    · simp only [Yaml.answer, Yaml.tryAddSuspicion, hdata, Except.bind, hfind]
    · simp only [MembershipTable.answer, MembershipTable.addSuspicion, hget]
  · obtain ⟨p, hp, hetag, hdict⟩ := hrow
    have hcurrent : row.etag = e ↔ current.etag = e' := by
      rw [hetag, hdict]
      exact hetags.eq_iff ⟨hfresh, h.right⟩ hp
    by_cases he : row.etag = e
    · have hvoted : { row with suspicions := row.suspicions ++ [vote] } =
          siloToDict { current.addSuspicion vote with etag := some p.1 } := by rw [hdict]; rfl
      have hy : y.tryAddSuspicion t.yaml siloId vote e =
          .ok (y.finaliseWrite data (siloToDict { current.addSuspicion vote with etag := some p.1 })
            fun row ↦ data.silos.set index row) := by
        simp only [Yaml.tryAddSuspicion, hdata, Except.bind, hfind, he, ne_eq,
          not_true_eq_false, if_false]
        rw [← hvoted, ← he]
      have hm : t.memory.addSuspicion siloId vote e' =
        .ok (t.memory.store (current.addSuspicion vote)) := by
        simp only [MembershipTable.addSuspicion, hget, hcurrent.mp he, ne_eq,
          not_true_eq_false, if_false]
      have hkey : siloId = current.siloId := (Table.key_of_get hget).symm
      have hbare : ({ current.addSuspicion vote with etag := some p.1 } : SiloInfo).bare =
          (current.addSuspicion vote).bare := rfl
      apply h.wrote hload hversion hbare (fun row ↦ data.silos.set index row) ?_ ?_ ?_ ?_ hs
      · intro issued' row hsub hrow
        exact Table.forall₂_put (hrows.imp fun _ _ hr ↦ hr.mono hsub)
          (fun _ _ ↦ SameRow.key) (hkey ▸ hindex)
          (hkey ▸ hget) hrow
      · simp only [Yaml.answer, hy]
      · simp only [MembershipTable.answer, hm]
      · simp only [MembershipTable.bump, MembershipTable.answer, hm]
    · apply h.failed (e := .tableStale) ?_ ?_ hs
      · simp only [Yaml.answer, Yaml.tryAddSuspicion, hdata, Except.bind, hfind, ne_eq, he,
          not_false_eq_true, if_true]
      · simp only [MembershipTable.answer, MembershipTable.addSuspicion, hget, ne_eq,
          mt hcurrent.mpr he, not_false_eq_true, if_true]

theorem Related.delete (hload : ∀ d, y.safeLoad (y.dump d) = some (some d)) (h : Related y t)
    (hfresh : (t.issued.map Prod.fst).Nodup) (hbare : s.bare = s'.bare)
    (hetags : t.issued.Corresponds s.etag s'.etag)
    (hs : step y t (.tryDeleteSilo s, .tryDeleteSilo s') = some t') :
    Related y t' ∧ Agrees y t t' (.tryDeleteSilo s, .tryDeleteSilo s') := by
  obtain ⟨data, hdata, hversion, hrows⟩ := h.file
  have hkey := siloId_of_bare hbare
  rcases findSilo_cases hrows s.siloId with ⟨hfind, hget⟩
    | ⟨index, row, current, hfind, hindex, hget, hrow⟩
  · have hy : y.tryDeleteSilo t.yaml s = .ok none := by
      simp only [Yaml.tryDeleteSilo, hdata, Except.bind, hfind]
    have hm : t.memory.tryDeleteSilo s' = .ok none := by
      simp only [MembershipTable.tryDeleteSilo, ← hkey, hget]
    apply h.unchanged ?_ ?_ ?_ ?_ ?_ hs
    · simp only [MembershipTable.answer, hm, Option.getD_none]
    · simp only [Yaml.answer, hy, Option.none_or]
    · simp only [Yaml.answer, MembershipTable.answer, hy, hm, SameOutcome, SameAnswer]
    · simp only [Yaml.answer, MembershipTable.answer, hy, hm, issuedBy]
    · simp only [MembershipTable.bump, MembershipTable.answer, hm, MembershipTable.readSilo_eq,
        ← hkey, hget, Option.isSome_none, Bool.false_eq_true, if_false]
  · obtain ⟨p, hp, hetag, hdict⟩ := hrow
    have hcurrent : row.etag = s.etag ↔ current.etag = s'.etag := by
      rw [hetag, hdict]
      exact hetags.eq_iff ⟨hfresh, h.right⟩ hp
    by_cases he : row.etag = s.etag
    · have hy : y.tryDeleteSilo t.yaml s =
        .ok (some (y.dump ⟨data.version + 1, data.silos.eraseIdx index⟩)) := by
        simp only [Yaml.tryDeleteSilo, hdata, Except.bind, hfind, he, ne_eq,
          not_true_eq_false, if_false]
      have hm : t.memory.tryDeleteSilo s' =
        .ok (some ⟨t.memory.version + 1, t.memory.silos.pop s'.siloId⟩) := by
        simp only [MembershipTable.tryDeleteSilo, ← hkey, hget, hcurrent.mp he, ne_eq,
          not_true_eq_false, if_false]
      have ht : t' = ⟨some (y.dump ⟨data.version + 1, data.silos.eraseIdx index⟩),
          ⟨t.memory.version + 1, t.memory.silos.pop s'.siloId⟩, t.issued⟩ := by
        simp only [step, Yaml.answer, MembershipTable.answer, hy, hm, issuedBy, List.append_nil,
          Option.some_or, Option.getD_some, Option.some.injEq] at hs
        exact hs.symm
      have hrelated : Related y t' := by
        rw [ht]
        refine ⟨⟨⟨data.version + 1, data.silos.eraseIdx index⟩, ?_, congrArg (· + 1) hversion, ?_⟩,
          ?_, h.right⟩
        · simp only [Yaml.loadTable, hload]
        · exact Table.forall₂_pop hrows (fun _ _ ↦ SameRow.key) (hkey ▸ hindex)
        · intro q hq
          obtain ⟨v, hv, hv'⟩ := h.stamped q hq
          exact ⟨v, hv.trans (Int.le_add_one le_rfl), hv'⟩
      refine ⟨hrelated, ?_, hrelated.readAll, ?_, fun e he ↦ ?_⟩
      · simp only [Yaml.answer, MembershipTable.answer, hy, hm, SameOutcome, SameAnswer]
      · rw [ht]
        simp only [MembershipTable.bump, MembershipTable.answer, hm, MembershipTable.readSilo_eq,
          ← hkey, hget, Option.isSome_some, if_true]
      · simp only [MembershipTable.answer, hm] at he
        cases he
    · apply h.failed (e := .tableStale) ?_ ?_ hs
      · simp only [Yaml.answer, Yaml.tryDeleteSilo, hdata, Except.bind, hfind, ne_eq, he,
          not_false_eq_true, if_true]
      · simp only [MembershipTable.answer, MembershipTable.tryDeleteSilo, ← hkey, hget, ne_eq,
          mt hcurrent.mpr he, not_false_eq_true, if_true]

end

theorem Related.step (hload : ∀ d, y.safeLoad (y.dump d) = some (some d)) (h : Related y t)
    (hfresh : (t.issued.map Prod.fst).Nodup) (hc : SameCall t.issued c.1 c.2)
    (hs : step y t c = some t') :
    Related y t' ∧ Agrees y t t' c := by
  obtain ⟨c₁, c₂⟩ := c
  cases c₁ <;> cases c₂ <;> try exact False.elim hc
  case readAll.readAll =>
    obtain ⟨s, hread, hsame⟩ := h.readAll
    apply h.unchanged rfl rfl ?_ ?_ rfl hs
    · simp only [Yaml.answer, hread]
      exact hsame
    · simp only [Yaml.answer, hread]
      rfl
  case tryUpdateSilo.tryUpdateSilo s s' => exact h.update hload hfresh hc.1 hc.2 hs
  case tryAddSuspicion.tryAddSuspicion siloId vote e siloId' vote' e' =>
    obtain ⟨rfl, rfl, hetags⟩ := hc
    exact h.suspicion hload hfresh hetags hs
  case tryDeleteSilo.tryDeleteSilo s s' => exact h.delete hload hfresh hc.1 hc.2 hs

theorem related_empty (y : Yaml File) : Related y empty :=
  ⟨⟨emptyTable, rfl, rfl, .nil⟩, fun _ hp ↦ (by cases hp), List.nodup_nil⟩

theorem issued_extends {calls : List (MembershipCall × MembershipCall)}
    (h : exec (step y) t calls = some t') :
    t.issued <+: t'.issued := by
  induction calls generalizing t with
  | nil => exact Option.some.inj h ▸ List.prefix_rfl
  | cons c calls ih =>
    obtain ⟨u, hu, h⟩ := exec_cons.mp h
    refine List.IsPrefix.trans ?_ (ih h)
    rw [← Option.some.inj hu]
    exact List.prefix_append _ _

theorem fresh_of_prefix {issued issued' : Pairing String String} (h : issued <+: issued')
    (hfresh : (issued'.map Prod.fst).Nodup) : (issued.map Prod.fst).Nodup :=
  hfresh.sublist (h.sublist.map Prod.fst)

theorem Related.run (hload : ∀ d, y.safeLoad (y.dump d) = some (some d))
    {calls : List (MembershipCall × MembershipCall)} (hrelated : Related y t)
    (h : exec (Twins.step y) t calls = some t')
    (hcalls : Meets (Twins.step y) (fun t c ↦ SameCall t.issued c.1 c.2) t calls)
    (hfresh : (t'.issued.map Prod.fst).Nodup) :
    Related y t' ∧ ∀ before c after u u', before ++ c :: after = calls →
      exec (Twins.step y) t before = some u → Twins.step y u c = some u' → Agrees y u u' c := by
  induction calls generalizing t with
  | nil =>
    refine ⟨Option.some.inj h ▸ hrelated, fun before c after u u' hb ↦ ?_⟩
    exact absurd hb (by simp)
  | cons c calls ih =>
    have hnow := fresh_of_prefix (issued_extends h) hfresh
    obtain ⟨u, hu, h⟩ := exec_cons.mp h
    obtain ⟨hnext, hagrees⟩ := hrelated.step hload hnow hcalls.1 hu
    obtain ⟨hend, hrest⟩ := ih hnext h (hcalls.2 u hu)
    refine ⟨hend, fun before d after v v' hb hv hv' ↦ ?_⟩
    cases before with
    | nil =>
      obtain ⟨rfl, -⟩ := List.cons.inj hb
      obtain rfl := Option.some.inj hv
      obtain rfl := Option.some.inj (hu.symm.trans hv')
      exact hagrees
    | cons e before =>
      obtain ⟨rfl, htail⟩ := List.cons.inj hb
      obtain ⟨w, hw, hv⟩ := exec_cons.mp hv
      obtain rfl := Option.some.inj (hu.symm.trans hw)
      exact hrest before d after v v' htail hv hv'

/-- In every run in which both get the same calls, as long as the etags that
the file provider computes are different, each call does the same to both, and
their etags are renamed one to one. -/
theorem yaml_refines_memory (y : Yaml File) (hload : ∀ d, y.safeLoad (y.dump d) = some (some d))
    (calls : List (MembershipCall × MembershipCall)) (t : Twins File)
    (h : exec (step y) empty calls = some t)
    (hcalls : Meets (step y) (fun t c ↦ SameCall t.issued c.1 c.2) empty calls)
    (hfresh : (t.issued.map Prod.fst).Nodup) :
    t.issued.OneToOne ∧ ∀ before c after u u', before ++ c :: after = calls →
      exec (step y) empty before = some u → step y u c = some u' → Agrees y u u' c := by
  obtain ⟨hrelated, hagrees⟩ := (related_empty y).run hload h hcalls hfresh
  exact ⟨⟨hfresh, hrelated.right⟩, hagrees⟩

/-- `siloA` registers, writes again, fails to leave under its old etag, leaves
and registers anew. -/
def comeAndGo : List (MembershipCall × MembershipCall) :=
  [(.tryUpdateSilo (rowA none), .tryUpdateSilo (rowA none)),
    (.tryUpdateSilo (rowA (some "h-267e80240cfc")), .tryUpdateSilo (rowA (some "v1"))),
    (.tryDeleteSilo (rowA (some "h-267e80240cfc")), .tryDeleteSilo (rowA (some "v1"))),
    (.tryDeleteSilo (rowA (some "h-dd65bcbf6266")), .tryDeleteSilo (rowA (some "v2"))),
    (.tryUpdateSilo (rowA none), .tryUpdateSilo (rowA none))]

theorem yaml_refines_memory_comeAndGo : ∃ t, exec (step yamlA) empty comeAndGo = some t ∧
    t.issued.OneToOne ∧ ∀ before c after u u', before ++ c :: after = comeAndGo →
      exec (step yamlA) empty before = some u → step yamlA u c = some u' → Agrees yamlA u u' c := by
  have hruns : (exec (step yamlA) empty comeAndGo).map issued =
      some [("h-267e80240cfc", "v1"), ("h-dd65bcbf6266", "v2"), ("h-022bf6de4671", "v4")] := by
        decide +kernel
  obtain ⟨t, ht, hissued⟩ := Option.map_eq_some_iff.mp hruns
  refine ⟨t, ht, yaml_refines_memory yamlA (fun _ ↦ rfl) comeAndGo t ht (by decide +kernel) ?_⟩
  rw [hissued]
  decide

end Twins

end Pyleans
