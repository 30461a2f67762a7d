import Pyleans.Membership.MarkdownRoundTrip

namespace Pyleans

open Library

inductive MarkdownFailure
  | membership (e : MembershipError)
  | table (e : MarkdownError)

/-- The fields of a row that its etag covers. -/
structure EtagPayload where
  siloId : String
  status : String
  clusterId : Option String
  gatewayPort : Option ℤ
  lastHeartbeat : ℚ
  iAmAlive : ℚ
  startTime : ℚ
  suspicions : List SuspicionVote
deriving DecidableEq

/-- What the provider uses of other packages: `json` and `hashlib` for etags, and
`datetime` for times that it has not written. -/
structure Markdown where
  other : MarkdownTable.OtherTimes
  dumps : EtagPayload → String
  sha256Hex : String → String

namespace Markdown

open MarkdownTable

def findSilo (silos : List SiloInfo) (siloId : String) : Option (ℕ × SiloInfo) :=
  (silos.findIdx? fun silo ↦ silo.siloId = siloId).bind fun index ↦
    silos[index]?.map fun silo ↦ (index, silo)

def withEtag (silo : SiloInfo) (etag : Option String) : SiloInfo := { silo with etag := etag }

def etagPayload (silo : SiloInfo) : EtagPayload where
  siloId := silo.siloId
  status := silo.status.value
  clusterId := silo.clusterId
  gatewayPort := silo.gatewayPort
  lastHeartbeat := silo.lastHeartbeat
  iAmAlive := silo.iAmAlive
  startTime := silo.startTime
  suspicions := silo.suspicions

variable (m : Markdown)

def computeEtag (silo : SiloInfo) (version : ℤ) : String :=
  let digest := m.sha256Hex s!"{version}::{m.dumps (etagPayload silo)}"
  s!"h-{String.ofList (digest.toList.take 12)}"

def loadTable (file : Option String) : Except MarkdownFailure MarkdownState :=
  match file with
  | none => .ok ⟨0, []⟩
  | some content => (parse m.other content).mapError .table

def writeState (state : MarkdownState) : Except MarkdownFailure String :=
  (render state).mapError .table

/-- `silos` puts the row that is written among the others. -/
def finaliseWrite (state : MarkdownState) (target : SiloInfo) (silos : SiloInfo → List SiloInfo) :
    Except MarkdownFailure (SiloInfo × String) :=
  let version := state.version + 1
  let fresh := withEtag target (some (m.computeEtag target version))
  (writeState ⟨version, silos fresh⟩).map fun text ↦ (fresh, text)

def readAll (file : Option String) : Except MarkdownFailure MembershipSnapshot :=
  (m.loadTable file).map fun state ↦ ⟨state.version, state.silos⟩

def tryUpdateSilo (file : Option String) (silo : SiloInfo) :
    Except MarkdownFailure (SiloInfo × String) :=
  (m.loadTable file).bind fun state ↦
    match findSilo state.silos silo.siloId with
    | none =>
      if silo.etag ≠ none then .error (.membership .siloNotFound)
      else m.finaliseWrite state silo fun fresh ↦ state.silos ++ [fresh]
    | some (index, current) =>
      if current.etag ≠ silo.etag then .error (.membership .tableStale)
      else m.finaliseWrite state (withEtag silo none) fun fresh ↦ state.silos.set index fresh

def tryAddSuspicion (file : Option String) (siloId : String) (vote : SuspicionVote)
    (expectedEtag : Option String) : Except MarkdownFailure (SiloInfo × String) :=
  (m.loadTable file).bind fun state ↦
    match findSilo state.silos siloId with
    | none => .error (.membership .siloNotFound)
    | some (index, current) =>
      if current.etag ≠ expectedEtag then .error (.membership .tableStale)
      else m.finaliseWrite state (current.addSuspicion vote) fun fresh ↦ state.silos.set index fresh

def tryDeleteSilo (file : Option String) (silo : SiloInfo) :
    Except MarkdownFailure (Option String) :=
  (m.loadTable file).bind fun state ↦
    match findSilo state.silos silo.siloId with
    | none => .ok none
    | some (index, current) =>
      if current.etag ≠ silo.etag then .error (.membership .tableStale)
      else (writeState ⟨state.version + 1, state.silos.eraseIdx index⟩).map some

def perform (file : Option String) :
    MembershipCall → Except MarkdownFailure MembershipAnswer × Option String
  | .readAll => ((m.readAll file).map .snapshot, none)
  | .tryUpdateSilo silo =>
    match m.tryUpdateSilo file silo with
    | .error e => (.error e, none)
    | .ok (fresh, text) => (.ok (.silo fresh), some text)
  | .tryAddSuspicion siloId vote expectedEtag =>
    match m.tryAddSuspicion file siloId vote expectedEtag with
    | .error e => (.error e, none)
    | .ok (fresh, text) => (.ok (.silo fresh), some text)
  | .tryDeleteSilo silo =>
    match m.tryDeleteSilo file silo with
    | .error e => (.error e, none)
    | .ok text => (.ok .done, text)

def answer (file : Option String) (c : MembershipCall) :
    Except MarkdownFailure MembershipAnswer × Option String :=
  ((m.perform file c).1, (m.perform file c).2.or file)

end Markdown

namespace MarkdownTable

open Calendar Text

def Clear (cell : List Char) : Prop := ∀ c ∈ cell, isLineBreak c = false ∧ c ≠ '|'

/-- What a table can hold in one cell. -/
structure PlainCell (text : String) : Prop where
  unpadded : Unpadded text
  clear : Clear text.toList

structure PlainVote (vote : SuspicionVote) : Prop where
  clear : Clear vote.suspectingSilo.toList
  noSeparator : ';' ∉ vote.suspectingSilo.toList
  start : vote.suspectingSilo.toList.dropWhile isSpace = vote.suspectingSilo.toList
  stays : StaysInSecond vote.timestamp
  inYears : (formatTimestamp vote.timestamp).isOk = true

/-- A row that a table can hold, whatever its etag. -/
structure Storable (silo : SiloInfo) : Prop where
  host : PlainCell silo.address.host
  notSeparator : ¬ "---".toList <+: silo.address.host.toList
  clusterId : ∀ text ∈ silo.clusterId, text ≠ "" ∧ PlainCell text
  times : ∀ ts ∈ [silo.lastHeartbeat, silo.iAmAlive, silo.startTime],
    StaysInSecond ts ∧ (formatTimestamp ts).isOk = true
  votes : ∀ vote ∈ silo.suspicions, PlainVote vote

section Storing

variable {silo : SiloInfo} {vote : SuspicionVote} {etag : String} {ts : ℚ}

theorem staysInSecond_floor (ts : ℚ) : StaysInSecond ((⌊ts⌋ : ℤ) : ℚ) := by
  rw [StaysInSecond, secondOf_intCast, Int.floor_intCast]

theorem formatTimestamp_floor (hstays : StaysInSecond ts) (h : (formatTimestamp ts).isOk = true) :
    (formatTimestamp ((⌊ts⌋ : ℤ) : ℚ)).isOk = true := by
  rw [formatTimestamp, secondOf_intCast]
  rw [formatTimestamp, hstays] at h
  split_ifs with hfloor
  · rfl
  · have hne : ts ≠ 0 := by
      rintro rfl
      exact hfloor (by rw [Int.floor_zero, Int.cast_zero])
    rw [if_neg hne] at h
    cases hdate : DateTime.ofTimestamp ⌊ts⌋ with
    | none =>
      rw [hdate] at h
      cases h
    | some date => rfl

theorem PlainVote.wholeSeconds (h : PlainVote vote) : PlainVote vote.wholeSeconds :=
  { h with stays := staysInSecond_floor _, inYears := formatTimestamp_floor h.stays h.inYears }

theorem Storable.wholeSeconds (h : Storable silo) : Storable silo.wholeSeconds := by
  refine ⟨h.host, h.notSeparator, h.clusterId, ?_, ?_⟩
  · have hfloor : ∀ ts ∈ [silo.lastHeartbeat, silo.iAmAlive, silo.startTime],
        StaysInSecond ((⌊ts⌋ : ℤ) : ℚ) ∧ (formatTimestamp ((⌊ts⌋ : ℤ) : ℚ)).isOk = true :=
          fun ts hts ↦
      ⟨staysInSecond_floor ts, formatTimestamp_floor (h.times ts hts).1 (h.times ts hts).2⟩
    simp only [List.forall_mem_cons] at hfloor ⊢
    obtain ⟨hlast, halive, hstart, -⟩ := hfloor
    exact ⟨hlast, halive, hstart, List.forall_mem_nil _⟩
  · intro vote hvote
    obtain ⟨exact, hexact, rfl⟩ := List.mem_map.mp hvote
    exact (h.votes exact hexact).wholeSeconds

theorem Storable.withEtag (h : Storable silo) (etag : Option String) :
    Storable (Markdown.withEtag silo etag) :=
  ⟨h.host, h.notSeparator, h.clusterId, h.times, h.votes⟩

theorem Storable.addSuspicion (h : Storable silo) (hvote : PlainVote vote) :
    Storable (silo.addSuspicion vote) :=
  ⟨h.host, h.notSeparator, h.clusterId, h.times,
    List.forall_mem_append.mpr ⟨h.votes, List.forall_mem_singleton.mpr hvote⟩⟩

theorem Storable.tabular (h : Storable silo)
    (hetag : ∀ text ∈ silo.etag, text ≠ "" ∧ PlainCell text) : Tabular silo := by
  obtain ⟨hlast, halive, hstart, -⟩ := by simpa only [List.forall_mem_cons] using h.times
  have hvotes : LegibleVotes silo.suspicions := by
    refine ⟨fun vote hvote ↦ (h.votes vote hvote).noSeparator, fun vote hvote ↦ ?_,
      fun vote hvote ↦ (h.votes vote hvote).stays⟩
    exact (h.votes vote (List.mem_of_mem_head? hvote)).start
  exact {
    legible := {
      host := h.host.unpadded
      clusterId := fun text htext ↦
        ⟨(h.clusterId text htext).1, (h.clusterId text htext).2.unpadded⟩
      etag := fun text htext ↦ ⟨(hetag text htext).1, (hetag text htext).2.unpadded⟩
      lastHeartbeat := hlast.1
      startTime := hstart.1
      iAmAlive := halive.1
      votes := hvotes }
    host := fun c hc ↦ (h.host.clear c hc).1
    clusterId := fun text htext ↦ fun c hc ↦ ((h.clusterId text htext).2.clear c hc).1
    etag := fun text htext ↦ fun c hc ↦ ((hetag text htext).2.clear c hc).1
    voters := fun vote hvote ↦ fun c hc ↦ ((h.votes vote hvote).clear c hc).1
    notSeparator := h.notSeparator }

theorem clear_of_all {cell : List Char} (h : cell.all (fun c ↦ !isLineBreak c && c != '|') = true) :
    Clear cell :=
  fun c hc ↦ by simpa using List.all_eq_true.mp h c hc

theorem clear_of_marks {cell : List Char} (h : ∀ c ∈ cell, DateTime.isMark c = true) :
    Clear cell := fun c hc ↦ by
  refine ⟨isLineBreak_of_not_isSpace (isSpace_of_isMark (h c hc)), ?_⟩
  rintro rfl
  exact absurd (h _ hc) (by decide)

theorem Clear.append {cell cell' : List Char} (h : Clear cell) (h' : Clear cell') :
    Clear (cell ++ cell') :=
  List.forall_mem_append.mpr ⟨h, h'⟩

theorem Clear.cons {c : Char} {cell : List Char} (hc : isLineBreak c = false ∧ c ≠ '|')
    (h : Clear cell) :
    Clear (c :: cell) := List.forall_mem_cons.mpr ⟨hc, h⟩

theorem Clear.breaksTable {cell : List Char} (h : Clear cell) : breaksTable cell = false := by
  refine breaksTable_eq_false.mpr ⟨fun hbar ↦ (h _ hbar).2 rfl, fun hn ↦ ?_, fun hr ↦ ?_⟩
  · exact absurd (h _ hn).1 (by decide)
  · exact absurd (h _ hr).1 (by decide)

theorem clear_repr (n : ℤ) : Clear n.repr.toList := by
  have hdigits (m : ℕ) : ∀ c ∈ Nat.toDigits 10 m, DateTime.isMark c = true := fun c hc ↦
    Bool.or_eq_true_iff.mpr (.inl (Numerals.isDigit_of_mem_toDigits m c hc))
  apply clear_of_marks
  cases n with
  | ofNat m =>
    rw [show (Int.ofNat m).repr.toList = Nat.toDigits 10 m from Nat.toList_repr]
    exact hdigits m
  | negSucc m =>
    rw [show (Int.negSucc m).repr.toList = '-' :: Nat.toDigits 10 (m + 1) by
      simp [Int.repr, Nat.toList_repr]]
    exact List.forall_mem_cons.mpr ⟨by decide, hdigits (m + 1)⟩

theorem exists_renderSuspicions {votes : List SuspicionVote} (h : ∀ vote ∈ votes, PlainVote vote) :
    ∃ cell, renderSuspicions votes = .ok cell ∧ Clear cell := by
  have hchunk : ∀ vote ∈ votes, ∃ chunk, renderSuspicion vote = .ok chunk ∧ Clear chunk :=
    fun vote hvote ↦ by
    obtain ⟨text, htext⟩ := Fallible.exists_of_isOk (h vote hvote).inYears
    refine ⟨_, renderSuspicion_eq_ok.mpr ⟨text, htext, rfl⟩, (h vote hvote).clear.append
      (.cons (by decide) ?_)⟩
    exact clear_of_marks (formatTimestamp_marks htext)
  obtain ⟨chunks, hchunks, hclear⟩ := Fallible.exists_mapM_ok hchunk
  refine ⟨[';'].intercalate chunks, by rw [renderSuspicions, hchunks]; rfl, fun c hc ↦ ?_⟩
  rcases mem_intercalate hc with hc | ⟨chunk, hmem, hc⟩
  · obtain rfl := List.mem_singleton.mp hc
    decide
  · exact hclear chunk hmem c hc

theorem Storable.exists_renderRow (h : Storable silo)
    (hetag : ∀ text ∈ silo.etag, text ≠ "" ∧ PlainCell text) :
    ∃ line, renderRow silo = .ok line := by
  obtain ⟨⟨-, hlast⟩, ⟨-, halive⟩, ⟨-, hstart⟩, -⟩ := by
    simpa only [List.forall_mem_cons] using h.times
  obtain ⟨lastHeartbeat, hlast⟩ := Fallible.exists_of_isOk hlast
  obtain ⟨iAmAlive, halive⟩ := Fallible.exists_of_isOk halive
  obtain ⟨startTime, hstart⟩ := Fallible.exists_of_isOk hstart
  obtain ⟨suspicions, hvotes, hclear⟩ := exists_renderSuspicions h.votes
  have hoption {text : Option String} (ht : ∀ t ∈ text, t ≠ "" ∧ PlainCell t) : Clear
    (text.getD "").toList := by
    cases text with
    | none => exact List.forall_mem_nil _
    | some t => exact (ht t rfl).2.clear
  have hport : Clear ((silo.gatewayPort.map fun port ↦ port.repr.toList).getD []) := by
    cases silo.gatewayPort with
    | none => exact List.forall_mem_nil _
    | some port => exact clear_repr port
  have hencoded : Clear silo.address.encoded.toList := by
    rw [encoded_toList]
    exact h.host.clear.append
      (.cons (by decide) ((clear_repr _).append (.cons (by decide) (clear_repr _))))
  have hstatus : Clear silo.status.value.toList := by
    apply clear_of_all
    cases silo.status <;> decide
  have hcells : ∀ cell ∈ rowCells silo lastHeartbeat iAmAlive startTime suspicions, Clear cell := by
    simp only [rowCells, List.forall_mem_cons]
    exact ⟨hencoded, h.host.clear, clear_repr _, clear_repr _, hstatus, hoption h.clusterId, hport,
      clear_of_marks (formatTimestamp_marks hlast), clear_of_marks (formatTimestamp_marks halive),
      clear_of_marks (formatTimestamp_marks hstart), hclear, hoption hetag, List.forall_mem_nil _⟩
  have hfind : (rowCells silo lastHeartbeat iAmAlive startTime suspicions).find? breaksTable =
    none :=
    List.find?_eq_none.mpr fun cell hcell ↦ Bool.eq_false_iff.mp (hcells cell hcell).breaksTable
  refine ⟨joinRow (rowCells silo lastHeartbeat iAmAlive startTime suspicions), ?_⟩
  rw [renderRow, hlast, halive, hstart, hvotes]
  simp only [Fallible.ok_bind, hfind]

/-- A table of rows that it can hold, each under an etag, is written and read
back with its times cut to whole seconds. -/
theorem exists_text (state : MarkdownState) (h : ∀ silo ∈ state.silos, Storable silo)
    (hetag : ∀ silo ∈ state.silos, ∀ text ∈ silo.etag, text ≠ "" ∧ PlainCell text) :
    ∃ text, render state = .ok text ∧ ∀ other, parse other text = .ok state.wholeSeconds := by
  have hrows : ∀ silo ∈ state.silos, ∃ line, renderRow silo = .ok line ∧ True := fun silo hsilo ↦
    ((h silo hsilo).exists_renderRow (hetag silo hsilo)).imp fun _ hline ↦ ⟨hline, trivial⟩
  obtain ⟨rows, hrows, -⟩ := Fallible.exists_mapM_ok hrows
  obtain ⟨text, htext⟩ : ∃ text, render state = .ok text := ⟨_, by rw [render, hrows]; rfl⟩
  refine ⟨text, htext, fun other ↦ ?_⟩
  obtain ⟨lines, hlines, hparse⟩ := parse_render other htext
  rw [hparse, Fallible.bind_eq_ok]
  exact ⟨_, foldlM_tabular hlines (fun silo hsilo ↦ (h silo hsilo).tabular (hetag silo hsilo)) rfl,
    rfl⟩

end Storing

end MarkdownTable

def SiloInfo.kept (s : SiloInfo) : SiloInfo := { s.wholeSeconds with etag := none }

namespace Markdown

open MarkdownTable

/-- The file provider beside the one in memory, and the etags that they have issued at once. -/
structure Tandem where
  file : Option String
  memory : MembershipTable
  issued : Pairing String String

/-- The same call to both, up to etags and to fractions of a second. -/
def SameCall (issued : Pairing String String) : MembershipCall → MembershipCall → Prop
  | .readAll, .readAll => True
  | .tryUpdateSilo s, .tryUpdateSilo t => s.kept = t.kept ∧ issued.Corresponds s.etag t.etag
  | .tryAddSuspicion s v e, .tryAddSuspicion s' v' e' =>
    s = s' ∧ v.wholeSeconds = v'.wholeSeconds ∧ issued.Corresponds e e'
  | .tryDeleteSilo s, .tryDeleteSilo t => s.kept = t.kept ∧ issued.Corresponds s.etag t.etag
  | _, _ => False

/-- What a call brings can be held by a table. -/
def Fits : MembershipCall → Prop
  | .tryUpdateSilo silo => Storable silo
  | .tryAddSuspicion _ vote _ => PlainVote vote
  | _ => True

def SameSilo (issued : Pairing String String) (s t : SiloInfo) : Prop :=
  s.kept = t.kept ∧ ∃ p ∈ issued, s.etag = some p.1 ∧ t.etag = some p.2

def SameSnapshot (issued : Pairing String String) (s t : MembershipSnapshot) : Prop :=
  s.version = t.version ∧ List.Forall₂ (SameSilo issued) s.silos t.silos

def SameAnswer (issued : Pairing String String) : MembershipAnswer → MembershipAnswer → Prop
  | .snapshot s, .snapshot t => SameSnapshot issued s t
  | .silo s, .silo t => SameSilo issued s t
  | .done, .done => True
  | _, _ => False

def SameOutcome (issued : Pairing String String) :
    Except MarkdownFailure MembershipAnswer → Except MembershipError MembershipAnswer → Prop
  | .ok a, .ok b => SameAnswer issued a b
  | .error e, .error e' => e = .membership e'
  | _, _ => False

def issuedBy : Except MarkdownFailure MembershipAnswer → Except MembershipError MembershipAnswer →
    Pairing String String
  | .ok (.silo s), .ok (.silo t) => (s.etag.bind fun e ↦ t.etag.map fun e' ↦ (e, e')).toList
  | _, _ => []

namespace Tandem

def empty : Tandem := ⟨none, .empty, []⟩

def step (m : Markdown) (t : Tandem) (c : MembershipCall × MembershipCall) : Option Tandem :=
  let a := m.answer t.file c.1
  let b := t.memory.answer c.2
  some ⟨a.2, b.2, t.issued ++ issuedBy a.1 b.1⟩

end Tandem

def PlainEtag (etag : String) : Prop := etag ≠ "" ∧ PlainCell etag

/-- A row of the file stands for a row of the other provider. -/
structure SameRow (issued : Pairing String String) (row s : SiloInfo) : Prop where
  etags : ∃ p ∈ issued, s.etag = some p.2 ∧
    row = { s.wholeSeconds with etag := some p.1 } ∧ PlainEtag p.1
  storable : Storable row

section Rows

variable {issued issued' : Pairing String String} {row s s' : SiloInfo} {rows : List SiloInfo}
  {table : Table SiloInfo.siloId} {siloId : String}

theorem siloId_of_kept (h : s.kept = s'.kept) : s.siloId = s'.siloId := by
  show s.kept.siloId = s'.kept.siloId
  rw [h]

theorem wholeSeconds_wholeSeconds (s : SiloInfo) :
    s.wholeSeconds.wholeSeconds = s.wholeSeconds := by
  have hvote (vote : SuspicionVote) : vote.wholeSeconds.wholeSeconds = vote.wholeSeconds := by
    simp only [SuspicionVote.wholeSeconds, Int.floor_intCast]
  simp only [SiloInfo.wholeSeconds, Int.floor_intCast, List.map_map, SiloInfo.mk.injEq, true_and]
  exact ⟨List.map_congr_left fun vote _ ↦ hvote vote, trivial⟩

theorem SameRow.key (h : SameRow issued row s) : row.siloId = s.siloId := by
  obtain ⟨⟨p, -, -, rfl, -⟩, -⟩ := h
  rfl

theorem SameRow.mono (h : SameRow issued row s) (hsub : issued ⊆ issued') :
    SameRow issued' row s := by
  obtain ⟨⟨p, hp, hrow⟩, hstorable⟩ := h
  exact ⟨⟨p, hsub hp, hrow⟩, hstorable⟩

theorem SameRow.wholeSeconds (h : SameRow issued row s) : row.wholeSeconds = row := by
  obtain ⟨⟨p, -, -, rfl, -⟩, -⟩ := h
  exact congrArg (fun silo ↦ withEtag silo (some p.1)) (wholeSeconds_wholeSeconds s)

theorem SameRow.plain (h : SameRow issued row s) : ∀ text ∈ row.etag, PlainEtag text := by
  obtain ⟨⟨p, -, -, rfl, hplain⟩, -⟩ := h
  rintro text ⟨⟩
  exact hplain

theorem SameRow.same (h : SameRow issued row s) : SameSilo issued row s := by
  obtain ⟨⟨p, hp, hetag, rfl, -⟩, -⟩ := h
  refine ⟨?_, p, hp, rfl, hetag⟩
  show withEtag s.wholeSeconds.wholeSeconds none = withEtag s.wholeSeconds none
  rw [wholeSeconds_wholeSeconds]

theorem sameRow_written (issued : Pairing String String) (h : s.kept = s'.kept) (hs : Storable s)
    {e : String} (he : PlainEtag e) (e' : String) :
    SameRow (issued ++ [(e, e')]) (withEtag s (some e)).wholeSeconds (withEtag s' (some e')) := by
  refine ⟨⟨(e, e'), List.mem_append_right _ (List.mem_singleton_self _), rfl, ?_, he⟩,
    (hs.withEtag _).wholeSeconds⟩
  exact congrArg (fun silo ↦ withEtag silo (some e)) h

theorem findSilo_cases (h : List.Forall₂ (SameRow issued) rows table.items) (siloId : String) :
    (findSilo rows siloId = none ∧ table.get siloId = none) ∨
      ∃ index row s, findSilo rows siloId = some (index, row) ∧
        (rows.findIdx? fun silo ↦ silo.siloId = siloId) = some index ∧ table.get siloId = some s ∧
          SameRow issued row s := by
  rcases Table.forall₂_find h (fun _ _ ↦ SameRow.key) siloId with
    ⟨hindex, hget⟩ | ⟨index, row, s, hindex, hrow, hget, hsame⟩
  · exact .inl ⟨by rw [findSilo, hindex, Option.bind_none], hget⟩
  · refine .inr ⟨index, row, s, ?_, hindex, hget, hsame⟩
    rw [findSilo, hindex, Option.bind_some, hrow, Option.map_some]

theorem forall_left {P : SiloInfo → Prop} {items : List SiloInfo}
    (h : List.Forall₂ (SameRow issued) rows items) (hP : ∀ row s, SameRow issued row s → P row) :
    ∀ row ∈ rows, P row := by
  induction h with
  | nil => exact List.forall_mem_nil _
  | cons hrow _ ih => exact List.forall_mem_cons.mpr ⟨hP _ _ hrow, ih⟩

/-- `place` puts one row among those of the file. -/
structure Places (rows : List SiloInfo) (place : SiloInfo → List SiloInfo) : Prop where
  wholeSeconds row : (place row).map SiloInfo.wholeSeconds = place row.wholeSeconds
  mem row : ∀ r ∈ place row, r = row ∨ r ∈ rows

theorem map_wholeSeconds {items : List SiloInfo} (h : List.Forall₂ (SameRow issued) rows items) :
    rows.map SiloInfo.wholeSeconds = rows :=
  (List.map_congr_left (forall_left h fun _ _ ↦ SameRow.wholeSeconds)).trans (List.map_id' rows)

theorem places_append {items : List SiloInfo} (h : List.Forall₂ (SameRow issued) rows items) :
    Places rows fun row ↦ rows ++ [row] := by
  refine ⟨fun row ↦ ?_, fun row r hr ↦ ?_⟩
  · rw [List.map_append, map_wholeSeconds h, List.map_singleton]
  · exact (List.mem_append.mp hr).elim .inr fun hr ↦ .inl (List.mem_singleton.mp hr)

theorem places_set {items : List SiloInfo} (h : List.Forall₂ (SameRow issued) rows items)
    (index : ℕ) :
    Places rows fun row ↦ rows.set index row := by
  refine ⟨fun row ↦ ?_, fun row r hr ↦ ?_⟩
  · rw [List.map_set, map_wholeSeconds h]
  · exact (List.mem_or_eq_of_mem_set hr).symm

end Rows

namespace Tandem

variable {m : Markdown} {t t' : Tandem} {c : MembershipCall × MembershipCall}

/-- The file holds the rows of the other provider cut to whole seconds, under etags of its own. -/
structure Related (m : Markdown) (t : Tandem) : Prop where
  file : ∃ state, m.loadTable t.file = .ok state ∧ state.version = t.memory.version ∧
    List.Forall₂ (SameRow t.issued) state.silos t.memory.silos.items
  stamped : ∀ p ∈ t.issued, ∃ v ≤ t.memory.version, p.2 = MembershipTable.etagOf v
  right : (t.issued.map Prod.snd).Nodup

/-- What a call does to both: the same outcome and the same rows afterwards, up
to fractions of a second, and the version goes up on both sides by one exactly
for a successful mutation. -/
structure Agrees (m : Markdown) (t t' : Tandem) (c : MembershipCall × MembershipCall) : Prop where
  outcome : SameOutcome t'.issued (m.answer t.file c.1).1 (t.memory.answer c.2).1
  rows : ∃ s, m.readAll t'.file = .ok s ∧ SameSnapshot t'.issued s t'.memory.readAll
  version : t'.memory.version = t.memory.version + t.memory.bump c.2
  failure e : (t.memory.answer c.2).1 = .error e → t'.file = t.file ∧ t'.memory = t.memory

theorem Related.readAll (h : Related m t) :
    ∃ s, m.readAll t.file = .ok s ∧ SameSnapshot t.issued s t.memory.readAll := by
  obtain ⟨state, hload, hversion, hrows⟩ := h.file
  refine ⟨⟨state.version, state.silos⟩, by rw [Markdown.readAll, hload]; rfl, hversion, ?_⟩
  exact hrows.imp fun _ _ ↦ SameRow.same

theorem Related.unchanged (h : Related m t) (hm : (t.memory.answer c.2).2 = t.memory)
    (hf : (m.answer t.file c.1).2 = t.file)
    (hout : SameOutcome t.issued (m.answer t.file c.1).1 (t.memory.answer c.2).1)
    (hnew : issuedBy (m.answer t.file c.1).1 (t.memory.answer c.2).1 = [])
    (hbump : t.memory.bump c.2 = 0) (hs : step m t c = some t') :
    Related m t' ∧ Agrees m t t' c := by
  have ht : t' = t := by
    rw [step, hnew, List.append_nil, hm, hf] at hs
    exact (Option.some.inj hs).symm
  subst ht
  exact ⟨h, hout, h.readAll, by rw [hbump, add_zero], fun _ _ ↦ ⟨rfl, rfl⟩⟩

theorem Related.failed (h : Related m t) {e : MembershipError}
    (hf : m.perform t.file c.1 = (.error (.membership e), none))
    (hm : t.memory.answer c.2 = (.error e, t.memory)) (hs : step m t c = some t') :
    Related m t' ∧ Agrees m t t' c := by
  have hanswer : m.answer t.file c.1 = (.error (.membership e), t.file) := by
    rw [answer, hf]
    rfl
  apply h.unchanged (by rw [hm]) (by rw [hanswer]) ?_ ?_ ?_ hs
  · rw [hanswer, hm]
    exact rfl
  · rw [hanswer]
    rfl
  · simp only [MembershipTable.bump, hm]

/-- Etags are made of what `hexdigest` returns. -/
def HexDigests (m : Markdown) : Prop :=
  ∀ text, ∀ c ∈ (m.sha256Hex text).toList, c ∈ "0123456789abcdef".toList

theorem plainEtag (hhex : HexDigests m) (silo : SiloInfo) (version : ℤ) :
    PlainEtag (m.computeEtag silo version) := by
  have hchars : (m.computeEtag silo version).toList =
      "h-".toList ++
      ((m.sha256Hex s!"{version}::{m.dumps (etagPayload silo)}").toList.take 12) := by
    simp [computeEtag, toString]
  have hmarks : ∀ c ∈ (m.computeEtag silo version).toList, Text.isSpace c = false ∧ c ≠ '|' := by
    have hall : ("h-".toList ++ "0123456789abcdef".toList).all
      (fun c ↦ !Text.isSpace c && c != '|') = true := by
      decide
    intro c hc
    rw [hchars, List.mem_append] at hc
    have hmem : c ∈ "h-".toList ++ "0123456789abcdef".toList :=
      List.mem_append.mpr (hc.imp_right fun hc ↦ hhex _ c (List.mem_of_mem_take hc))
    simpa using List.all_eq_true.mp hall c hmem
  refine ⟨fun hempty ↦ ?_, Text.strip_of_forall fun c hc ↦ (hmarks c hc).1, fun c hc ↦ ?_⟩
  · rw [hempty] at hchars
    cases hchars
  · exact ⟨Text.isLineBreak_of_not_isSpace (hmarks c hc).1, (hmarks c hc).2⟩

theorem exists_written (hhex : HexDigests m) {state : MarkdownState} {s : SiloInfo}
    {place : SiloInfo → List SiloInfo} {issued : Pairing String String} {items : List SiloInfo}
    (hrows : List.Forall₂ (SameRow issued) state.silos items) (hs : Storable s)
    (hplace : Places state.silos place) :
    ∃ text, m.finaliseWrite state s place =
      .ok (withEtag s (some (m.computeEtag s (state.version + 1))), text) ∧
      m.loadTable (some text) = .ok ⟨state.version + 1,
        place (withEtag s (some (m.computeEtag s (state.version + 1)))).wholeSeconds⟩ := by
  have hplain := plainEtag hhex s (state.version + 1)
  generalize hfresh : withEtag s (some (m.computeEtag s (state.version + 1))) = fresh
  have hall : ∀ r ∈ place fresh, Storable r ∧ ∀ text ∈ r.etag, PlainEtag text := by
    intro r hr
    rcases hplace.mem fresh r hr with rfl | hr
    · rw [← hfresh]
      refine ⟨hs.withEtag _, ?_⟩
      rintro text ⟨⟩
      exact hplain
    · exact ⟨forall_left hrows (fun _ _ ↦ SameRow.storable) r hr,
        forall_left hrows (fun _ _ ↦ SameRow.plain) r hr⟩
  obtain ⟨text, htext, hparse⟩ := exists_text ⟨state.version + 1, place fresh⟩
    (fun r hr ↦ (hall r hr).1) (fun r hr ↦ (hall r hr).2)
  refine ⟨text, ?_, ?_⟩
  · rw [finaliseWrite, hfresh, writeState, htext]
    rfl
  · rw [loadTable, hparse, MarkdownState.wholeSeconds, hplace.wholeSeconds]
    rfl

theorem Related.wrote (hhex : HexDigests m) (h : Related m t) {state : MarkdownState}
    (hversion : state.version = t.memory.version)
    (hrows : List.Forall₂ (SameRow t.issued) state.silos t.memory.silos.items) {s s' : SiloInfo}
    (hkept : s.kept = s'.kept) (hstorable : Storable s) {place : SiloInfo → List SiloInfo}
    (hplace : Places state.silos place)
    (hstored : ∀ issued' row, t.issued ⊆ issued' → SameRow issued' row (t.memory.store s').1 →
      List.Forall₂ (SameRow issued') (place row) (t.memory.store s').2.silos.items)
    (hf : ∀ fresh text, m.finaliseWrite state s place = .ok (fresh, text) →
      m.perform t.file c.1 = (.ok (.silo fresh), some text))
    (hm : t.memory.answer c.2 = (.ok (.silo (t.memory.store s').1), (t.memory.store s').2))
    (hbump : t.memory.bump c.2 = 1) (hs : step m t c = some t') :
    Related m t' ∧ Agrees m t t' c := by
  obtain ⟨text, hwrite, hload⟩ := exists_written hhex hrows hstorable hplace
  have hanswer : m.answer t.file c.1 =
      (.ok (.silo (withEtag s (some (m.computeEtag s (state.version + 1))))), some text) := by
    rw [answer, hf _ _ hwrite]
    rfl
  have hrow := sameRow_written t.issued hkept hstorable (plainEtag hhex s (state.version + 1))
    (MembershipTable.etagOf (t.memory.version + 1))
  have ht : t' = ⟨some text, (t.memory.store s').2, t.issued ++
      [(m.computeEtag s (state.version + 1), MembershipTable.etagOf (t.memory.version + 1))]⟩ := by
    rw [step, hanswer, hm] at hs
    exact (Option.some.inj hs).symm
  have hrelated : Related m t' := by
    rw [ht]
    refine ⟨⟨_, hload, congrArg (· + 1) hversion, hstored _ _ (List.subset_append_left _ _) hrow⟩,
      fun p hp ↦ ?_, ?_⟩
    · rcases List.mem_append.mp hp with hp | hp
      · obtain ⟨v, hv, hetag⟩ := h.stamped p hp
        exact ⟨v, hv.trans (Int.le_add_one le_rfl), hetag⟩
      · obtain rfl := List.mem_singleton.mp hp
        exact ⟨t.memory.version + 1, le_rfl, rfl⟩
    · rw [List.map_append, List.map_singleton, List.nodup_append]
      refine ⟨h.right, List.nodup_singleton _, ?_⟩
      rintro e he e' he' rfl
      obtain ⟨p, hp, rfl⟩ := List.mem_map.mp he
      obtain ⟨v, hv, hetag⟩ := h.stamped p hp
      have hsame := MembershipTable.etagOf_injective
        (congrArg some ((List.mem_singleton.mp he').symm.trans hetag))
      omega
  refine ⟨hrelated, ?_, hrelated.readAll, ?_, fun e he ↦ ?_⟩
  · rw [hanswer, hm, ht]
    exact ⟨hkept, _, List.mem_append_right _ (List.mem_singleton_self _), rfl, rfl⟩
  · rw [hbump, ht]
    rfl
  · rw [hm] at he
    cases he

section

variable {s s' : SiloInfo}

theorem Related.update (hhex : HexDigests m) (h : Related m t)
    (hfresh : (t.issued.map Prod.fst).Nodup) (hkept : s.kept = s'.kept)
    (hetags : t.issued.Corresponds s.etag s'.etag) (hstorable : Storable s)
    (hs : step m t (.tryUpdateSilo s, .tryUpdateSilo s') = some t') :
    Related m t' ∧ Agrees m t t' (.tryUpdateSilo s, .tryUpdateSilo s') := by
  obtain ⟨state, hload, hversion, hrows⟩ := h.file
  have hkey := siloId_of_kept hkept
  rcases findSilo_cases hrows s.siloId with ⟨hfind, hget⟩
    | ⟨index, row, current, hfind, hindex, hget, hrow⟩
  · by_cases hnone : s.etag = none
    · have hm : t.memory.tryUpdateSilo s' = .ok (t.memory.store s') := by
        simp only [MembershipTable.tryUpdateSilo, ← hkey, hget, hetags.none_iff.mp hnone, ne_eq,
          not_true_eq_false, if_false]
      apply h.wrote hhex hversion hrows hkept hstorable (places_append hrows) ?_ ?_ ?_ ?_ hs
      · intro issued' row hsub hrow
        exact Table.forall₂_put_new (hrows.imp fun _ _ hr ↦ hr.mono hsub) (hkey ▸ hget) hrow
      · intro fresh text hwrite
        simp only [perform, Markdown.tryUpdateSilo, hload, Except.bind, hfind, hnone, ne_eq,
          not_true_eq_false, if_false, hwrite]
      · simp only [MembershipTable.answer, hm]
      · simp only [MembershipTable.bump, MembershipTable.answer, hm]
    · apply h.failed (e := .siloNotFound) ?_ ?_ hs
      · simp only [perform, Markdown.tryUpdateSilo, hload, Except.bind, hfind, ne_eq, hnone,
          not_false_eq_true, if_true]
      · simp only [MembershipTable.answer, MembershipTable.tryUpdateSilo, ← hkey, hget, ne_eq,
          mt hetags.none_iff.mpr hnone, not_false_eq_true, if_true]
  · obtain ⟨p, hp, hetag, hdict, -⟩ := hrow.etags
    have hcurrent : row.etag = s.etag ↔ current.etag = s'.etag := by
      rw [hetag, hdict]
      exact hetags.eq_iff ⟨hfresh, h.right⟩ hp
    by_cases he : row.etag = s.etag
    · have hm : t.memory.tryUpdateSilo s' = .ok (t.memory.store s') := by
        simp only [MembershipTable.tryUpdateSilo, ← hkey, hget, hcurrent.mp he, ne_eq,
          not_true_eq_false, if_false]
      apply h.wrote (s := withEtag s none) hhex hversion hrows hkept (hstorable.withEtag none)
        (places_set hrows index)
        ?_ ?_ ?_ ?_ hs
      · intro issued' row hsub hrow
        exact Table.forall₂_put (hrows.imp fun _ _ hr ↦ hr.mono hsub)
          (fun _ _ ↦ SameRow.key) (hkey ▸ hindex)
          (hkey ▸ hget) hrow
      · intro fresh text hwrite
        simp only [perform, Markdown.tryUpdateSilo, hload, Except.bind, hfind, he, ne_eq,
          not_true_eq_false, if_false, hwrite]
      · simp only [MembershipTable.answer, hm]
      · simp only [MembershipTable.bump, MembershipTable.answer, hm]
    · apply h.failed (e := .tableStale) ?_ ?_ hs
      · simp only [perform, Markdown.tryUpdateSilo, hload, Except.bind, hfind, ne_eq, he,
          not_false_eq_true, if_true]
      · simp only [MembershipTable.answer, MembershipTable.tryUpdateSilo, ← hkey, hget, ne_eq,
          mt hcurrent.mpr he, not_false_eq_true, if_true]

theorem kept_addSuspicion {row current : SiloInfo} {vote vote' : SuspicionVote}
    (hrow : row.kept = current.kept) (hvote : vote.wholeSeconds = vote'.wholeSeconds) :
    (row.addSuspicion vote).kept = (current.addSuspicion vote').kept := by
  simp only [SiloInfo.kept, SiloInfo.wholeSeconds, SiloInfo.mk.injEq] at hrow
  simp only [SiloInfo.kept, SiloInfo.wholeSeconds, SiloInfo.addSuspicion, List.map_append,
    List.map_singleton, hrow, hvote]

theorem Related.suspicion (hhex : HexDigests m) (h : Related m t)
    (hfresh : (t.issued.map Prod.fst).Nodup) {siloId : String} {e e' : Option String}
    {vote vote' : SuspicionVote} (hvote : vote.wholeSeconds = vote'.wholeSeconds)
    (hetags : t.issued.Corresponds e e') (hplain : PlainVote vote)
    (hs : step m t (.tryAddSuspicion siloId vote e, .tryAddSuspicion siloId vote' e') = some t') :
    Related m t' ∧ Agrees m t t'
      (.tryAddSuspicion siloId vote e, .tryAddSuspicion siloId vote' e') := by
  obtain ⟨state, hload, hversion, hrows⟩ := h.file
  rcases findSilo_cases hrows siloId with ⟨hfind, hget⟩
    | ⟨index, row, current, hfind, hindex, hget, hrow⟩
  · apply h.failed (e := .siloNotFound) ?_ ?_ hs
    · simp only [perform, Markdown.tryAddSuspicion, hload, Except.bind, hfind]
    · simp only [MembershipTable.answer, MembershipTable.addSuspicion, hget]
  · obtain ⟨p, hp, hetag, hdict, -⟩ := hrow.etags
    have hcurrent : row.etag = e ↔ current.etag = e' := by
      rw [hetag, hdict]
      exact hetags.eq_iff ⟨hfresh, h.right⟩ hp
    by_cases he : row.etag = e
    · have hm : t.memory.addSuspicion siloId vote' e' =
        .ok (t.memory.store (current.addSuspicion vote')) := by
        simp only [MembershipTable.addSuspicion, hget, hcurrent.mp he, ne_eq,
          not_true_eq_false, if_false]
      have hkey : siloId = current.siloId := (Table.key_of_get hget).symm
      apply h.wrote hhex hversion hrows (kept_addSuspicion hrow.same.1 hvote)
        (hrow.storable.addSuspicion hplain)
        (places_set hrows index) ?_ ?_ ?_ ?_ hs
      · intro issued' row hsub hrow
        exact Table.forall₂_put (hrows.imp fun _ _ hr ↦ hr.mono hsub)
          (fun _ _ ↦ SameRow.key) (hkey ▸ hindex)
          (hkey ▸ hget) hrow
      · intro fresh text hwrite
        simp only [perform, Markdown.tryAddSuspicion, hload, Except.bind, hfind, he, ne_eq,
          not_true_eq_false, if_false, hwrite]
      · simp only [MembershipTable.answer, hm]
      · simp only [MembershipTable.bump, MembershipTable.answer, hm]
    · apply h.failed (e := .tableStale) ?_ ?_ hs
      · simp only [perform, Markdown.tryAddSuspicion, hload, Except.bind, hfind, ne_eq, he,
          not_false_eq_true, if_true]
      · simp only [MembershipTable.answer, MembershipTable.addSuspicion, hget, ne_eq,
          mt hcurrent.mpr he, not_false_eq_true, if_true]

theorem Related.delete (h : Related m t) (hfresh : (t.issued.map Prod.fst).Nodup)
    (hkept : s.kept = s'.kept) (hetags : t.issued.Corresponds s.etag s'.etag)
    (hs : step m t (.tryDeleteSilo s, .tryDeleteSilo s') = some t') :
    Related m t' ∧ Agrees m t t' (.tryDeleteSilo s, .tryDeleteSilo s') := by
  obtain ⟨state, hload, hversion, hrows⟩ := h.file
  have hkey := siloId_of_kept hkept
  rcases findSilo_cases hrows s.siloId with ⟨hfind, hget⟩
    | ⟨index, row, current, hfind, hindex, hget, hrow⟩
  · have hf : m.perform t.file (.tryDeleteSilo s) = (.ok .done, none) := by
      simp only [perform, Markdown.tryDeleteSilo, hload, Except.bind, hfind]
    have hm : t.memory.tryDeleteSilo s' = .ok none := by
      simp only [MembershipTable.tryDeleteSilo, ← hkey, hget]
    apply h.unchanged ?_ ?_ ?_ ?_ ?_ hs
    · simp only [MembershipTable.answer, hm, Option.getD_none]
    · simp only [answer, hf, Option.none_or]
    · simp only [answer, MembershipTable.answer, hf, hm, SameOutcome, SameAnswer]
    · simp only [answer, MembershipTable.answer, hf, hm, issuedBy]
    · simp only [MembershipTable.bump, MembershipTable.answer, hm, MembershipTable.readSilo_eq,
        ← hkey, hget, Option.isSome_none, Bool.false_eq_true, if_false]
  · obtain ⟨p, hp, hetag, hdict, -⟩ := hrow.etags
    have hcurrent : row.etag = s.etag ↔ current.etag = s'.etag := by
      rw [hetag, hdict]
      exact hetags.eq_iff ⟨hfresh, h.right⟩ hp
    by_cases he : row.etag = s.etag
    · have hrest : ∀ r ∈ state.silos.eraseIdx index, Storable r ∧
        (∀ text ∈ r.etag, PlainEtag text) ∧
          r.wholeSeconds = r := fun r hr ↦ by
        have hmem := List.mem_of_mem_eraseIdx hr
        exact ⟨forall_left hrows (fun _ _ ↦ SameRow.storable) r hmem,
          forall_left hrows (fun _ _ ↦ SameRow.plain) r hmem,
          forall_left hrows (fun _ _ ↦ SameRow.wholeSeconds) r hmem⟩
      obtain ⟨text, htext, hparse⟩ := exists_text ⟨state.version + 1, state.silos.eraseIdx index⟩
        (fun r hr ↦ (hrest r hr).1) (fun r hr ↦ (hrest r hr).2.1)
      have hf : m.perform t.file (.tryDeleteSilo s) = (.ok .done, some text) := by
        simp only [perform, Markdown.tryDeleteSilo, hload, Except.bind, hfind, he, ne_eq,
          not_true_eq_false, if_false, writeState, htext, Except.mapError, Except.map]
      have hm : t.memory.tryDeleteSilo s' =
        .ok (some ⟨t.memory.version + 1, t.memory.silos.pop s'.siloId⟩) := by
        simp only [MembershipTable.tryDeleteSilo, ← hkey, hget, hcurrent.mp he, ne_eq,
          not_true_eq_false, if_false]
      have ht : t' = ⟨some text, ⟨t.memory.version + 1, t.memory.silos.pop s'.siloId⟩,
          t.issued⟩ := by
        simp only [step, answer, MembershipTable.answer, hf, hm, issuedBy, List.append_nil,
          Option.some_or, Option.getD_some, Option.some.injEq] at hs
        exact hs.symm
      have hload' : m.loadTable (some text) =
          .ok ⟨state.version + 1, state.silos.eraseIdx index⟩ := by
        have hwhole : (state.silos.eraseIdx index).map SiloInfo.wholeSeconds =
          state.silos.eraseIdx index :=
          (List.map_congr_left fun r hr ↦ (hrest r hr).2.2).trans (List.map_id' _)
        rw [loadTable, hparse, MarkdownState.wholeSeconds, hwhole]
        rfl
      have hrelated : Related m t' := by
        rw [ht]
        refine ⟨⟨_, hload', congrArg (· + 1) hversion, ?_⟩, fun q hq ↦ ?_, h.right⟩
        · exact Table.forall₂_pop hrows (fun _ _ ↦ SameRow.key) (hkey ▸ hindex)
        · obtain ⟨v, hv, hv'⟩ := h.stamped q hq
          exact ⟨v, hv.trans (Int.le_add_one le_rfl), hv'⟩
      refine ⟨hrelated, ?_, hrelated.readAll, ?_, fun e he ↦ ?_⟩
      · simp only [answer, MembershipTable.answer, hf, hm, SameOutcome, SameAnswer]
      · rw [ht]
        simp only [MembershipTable.bump, MembershipTable.answer, hm, MembershipTable.readSilo_eq,
          ← hkey, hget, Option.isSome_some, if_true]
      · simp only [MembershipTable.answer, hm] at he
        cases he
    · apply h.failed (e := .tableStale) ?_ ?_ hs
      · simp only [perform, Markdown.tryDeleteSilo, hload, Except.bind, hfind, ne_eq, he,
          not_false_eq_true, if_true]
      · simp only [MembershipTable.answer, MembershipTable.tryDeleteSilo, ← hkey, hget, ne_eq,
          mt hcurrent.mpr he, not_false_eq_true, if_true]

end

theorem Related.step (hhex : HexDigests m) (h : Related m t)
    (hfresh : (t.issued.map Prod.fst).Nodup) (hc : SameCall t.issued c.1 c.2) (hfits : Fits c.1)
    (hs : step m t c = some t') :
    Related m t' ∧ Agrees m t t' c := by
  obtain ⟨c₁, c₂⟩ := c
  cases c₁ <;> cases c₂ <;> try exact False.elim hc
  case readAll.readAll =>
    obtain ⟨s, hread, hsame⟩ := h.readAll
    apply h.unchanged rfl rfl ?_ ?_ rfl hs
    · simp only [answer, perform, hread]
      exact hsame
    · simp only [answer, perform, hread]
      rfl
  case tryUpdateSilo.tryUpdateSilo s s' => exact h.update hhex hfresh hc.1 hc.2 hfits hs
  case tryAddSuspicion.tryAddSuspicion siloId vote e siloId' vote' e' =>
    obtain ⟨rfl, hvote, hetags⟩ := hc
    exact h.suspicion hhex hfresh hvote hetags hfits hs
  case tryDeleteSilo.tryDeleteSilo s s' => exact h.delete hfresh hc.1 hc.2 hs

theorem related_empty (m : Markdown) : Related m empty :=
  ⟨⟨⟨0, []⟩, rfl, rfl, .nil⟩, fun _ hp ↦ (by cases hp), List.nodup_nil⟩

theorem fresh_before {calls : List (MembershipCall × MembershipCall)}
    (h : exec (Tandem.step m) t calls = some t') (hfresh : (t'.issued.map Prod.fst).Nodup) :
    Meets (Tandem.step m) (fun t _ ↦ (t.issued.map Prod.fst).Nodup) t calls := by
  refine meets_of_end h (fun t c t' hs hfresh ↦ ?_) hfresh
  obtain rfl := Option.some.inj hs
  rw [List.map_append] at hfresh
  exact hfresh.of_append_left

/-- In every run in which both get the same calls, of which the table can hold
what they bring, each call does the same to both, up to fractions of a second
and to etags that are renamed one to one. -/
theorem markdown_refines_memory (m : Markdown) (hhex : HexDigests m)
    (calls : List (MembershipCall × MembershipCall)) (t : Tandem)
    (h : exec (step m) empty calls = some t)
    (hcalls : Meets (step m) (fun t c ↦ SameCall t.issued c.1 c.2 ∧ Fits c.1) empty calls)
    (hfresh : (t.issued.map Prod.fst).Nodup) :
    t.issued.OneToOne ∧ ∀ before c after u u', before ++ c :: after = calls →
      exec (step m) empty before = some u → step m u c = some u' → Agrees m u u' c := by
  obtain ⟨hrelated, hagrees⟩ := exec_each h (related_empty m) (hcalls.and (fresh_before h hfresh))
    fun t c t' hrelated hc hs ↦ hrelated.step hhex hc.2 hc.1.1 hc.1.2 hs
  exact ⟨⟨hfresh, hrelated.right⟩, hagrees⟩

end Tandem

def beating : SiloInfo where
  address := ⟨"a", 11111, 1⟩
  status := .active
  lastHeartbeat := 3426882121 / 2
  startTime := 1713441000
  clusterId := some "dev"
  gatewayPort := some 30000
  version := 0
  iAmAlive := 3426882121 / 2
  suspicions := []
  etag := none

def payloadA : String :=
  "\x7b\"cluster_id\": \"dev\", \"gateway_port\": 30000, \"i_am_alive\": 1713441060.5, " ++
    "\"last_heartbeat\": 1713441060.5, \"silo_id\": \"a:11111:1\", " ++
    "\"start_time\": 1713441000.0, \"status\": \"active\", \"suspicions\": []\x7d"

def markdownA : Markdown where
  other _ := none
  dumps payload := if payload = etagPayload beating then payloadA else ""
  sha256Hex text :=
    if text = "1::" ++ payloadA then
      "9255e0aa7001acaadc02ff0e5a3f78541792f063a0683c4c88b689e6dfce65f7"
    else ""

theorem hexDigests_markdownA : Tandem.HexDigests markdownA := by
  have hall : ("9255e0aa7001acaadc02ff0e5a3f78541792f063a0683c4c88b689e6dfce65f7".toList.all
      ("0123456789abcdef".toList.contains ·)) = true := by decide +kernel
  simp only [List.all_eq_true, List.contains_iff_mem] at hall
  intro text
  simp only [markdownA]
  split_ifs
  · exact hall
  · exact List.forall_mem_nil _

theorem storable_beating : Storable beating where
  host := ⟨by unfold Unpadded; decide, clear_of_all (by decide)⟩
  notSeparator := by decide
  clusterId := by
    rintro text ⟨⟩
    exact ⟨by decide, by unfold Unpadded; decide, clear_of_all (by decide)⟩
  times := by
    simp only [List.forall_mem_cons]
    refine ⟨⟨?_, ?_⟩, ⟨?_, ?_⟩, ⟨?_, ?_⟩, List.forall_mem_nil _⟩
    all_goals first | (unfold StaysInSecond; decide +kernel) | decide +kernel
  votes := List.forall_mem_nil _

namespace Tandem

/-- `beating` registers, is seen by all and leaves under the etag that it got. -/
def visit : List (MembershipCall × MembershipCall) :=
  [(.tryUpdateSilo beating, .tryUpdateSilo beating), (.readAll, .readAll),
    (.tryDeleteSilo (withEtag beating (some "h-9255e0aa7001")),
    .tryDeleteSilo (withEtag beating (some "v1")))]

theorem step_issued {m : Markdown} {t t' : Tandem} {c : MembershipCall × MembershipCall}
    (hs : step m t c = some t') (h : ∀ silo, (t.memory.answer c.2).1 ≠ .ok (.silo silo)) :
    t'.issued = t.issued ∧ t'.memory = (t.memory.answer c.2).2 := by
  obtain rfl := Option.some.inj hs
  refine ⟨?_, rfl⟩
  have hnone : issuedBy (m.answer t.file c.1).1 (t.memory.answer c.2).1 = [] := by
    rw [issuedBy.eq_def]
    split
    · next hanswer => exact absurd hanswer (h _)
    · rfl
  exact (congrArg (t.issued ++ ·) hnone).trans (List.append_nil _)

theorem markdown_refines_memory_visit : ∃ t, exec (step markdownA) empty visit = some t ∧
    t.issued.OneToOne ∧ ∀ before c after u u', before ++ c :: after = visit →
      exec (step markdownA) empty before = some u → step markdownA u c = some u' →
        Agrees markdownA u u' c := by
  obtain ⟨u, hu⟩ : ∃ u, step markdownA empty (.tryUpdateSilo beating, .tryUpdateSilo beating) =
    some u := ⟨_, rfl⟩
  have hissued : u.issued = [("h-9255e0aa7001", "v1")] := by
    have hfirst : (step markdownA empty (.tryUpdateSilo beating, .tryUpdateSilo beating)).map
      issued =
        some [("h-9255e0aa7001", "v1")] := by decide +kernel
    rw [hu] at hfirst
    exact Option.some.inj hfirst
  have hmemory : u.memory = (MembershipTable.empty.answer (.tryUpdateSilo beating)).2 :=
    congrArg memory (Option.some.inj hu).symm
  obtain ⟨v, hv⟩ : ∃ v, step markdownA u (.readAll, .readAll) = some v := ⟨_, rfl⟩
  obtain ⟨hv', hvmemory⟩ := step_issued hv fun silo h ↦ by cases h
  obtain ⟨w, hw⟩ : ∃ w, step markdownA v (.tryDeleteSilo (withEtag beating (some "h-9255e0aa7001")),
      .tryDeleteSilo (withEtag beating (some "v1"))) = some w := ⟨_, rfl⟩
  obtain ⟨hw', -⟩ := step_issued hw fun silo h ↦ by
    have hdone : ((MembershipTable.empty.answer (.tryUpdateSilo beating)).2.answer
        (.tryDeleteSilo (withEtag beating (some "v1")))).1 = .ok .done := rfl
    rw [hvmemory, hmemory] at h
    cases hdone.symm.trans h
  have hrun : exec (step markdownA) empty visit = some w :=
    exec_cons.mpr ⟨u, hu, exec_cons.mpr ⟨v, hv, exec_cons.mpr ⟨w, hw, rfl⟩⟩⟩
  refine ⟨w, hrun, markdown_refines_memory markdownA hexDigests_markdownA visit w hrun ?_ ?_⟩
  · refine ⟨⟨⟨rfl, trivial⟩, storable_beating⟩, fun u₁ hu₁ ↦ ⟨⟨trivial, trivial⟩, fun v₁ hv₁ ↦
      ⟨⟨⟨rfl, ?_⟩, trivial⟩, fun _ _ ↦ trivial⟩⟩⟩
    obtain rfl := Option.some.inj (hu.symm.trans hu₁)
    obtain rfl := Option.some.inj (hv.symm.trans hv₁)
    rw [hv', hissued]
    exact .inl (List.mem_singleton_self _)
  · rw [hw', hv', hissued]
    decide

end Tandem

end Markdown

end Pyleans
