import Mathlib
import Pyleans.Library.Calendar
import Pyleans.Library.Fallible
import Pyleans.Library.Text
import Pyleans.Membership.YamlMembership

namespace Pyleans

open Library

/-- What the file holds. -/
structure MarkdownState where
  version : ℤ
  silos : List SiloInfo
deriving DecidableEq

/-- A `MembershipError`, with the text it names, or the `ValueError` of a time
in no year from 1 to 9999. -/
inductive MarkdownError
  | tableBreaking (cell : List Char)
  | malformedVersion (line : List Char)
  | malformedRow (line : List Char)
  | malformedSuspicion (chunk : List Char)
  | yearOutOfRange (timestamp : ℚ)
deriving DecidableEq

namespace MarkdownTable

open Calendar Text

def header : List Char :=
  ("| ID | Host | Port | Epoch | Status | ClusterId | GatewayPort " ++
    "| LastHeartbeat | IAmAlive | StartTime | Suspicions | ETag |").toList

def separator : List Char :=
  "| --- | --- | --- | --- | --- | --- | --- | --- | --- | --- | --- | --- |".toList

def formatTimestamp (ts : ℚ) : Except MarkdownError (List Char) :=
  if ts = 0 then .ok []
  else
    match DateTime.ofTimestamp (secondOf ts) with
    | none => .error (.yearOutOfRange ts)
    | some date => .ok date.isoformat

def renderSuspicion (vote : SuspicionVote) : Except MarkdownError (List Char) := do
  let timestamp ← formatTimestamp vote.timestamp
  .ok (vote.suspectingSilo.toList ++ '@' :: timestamp)

def renderSuspicions (votes : List SuspicionVote) : Except MarkdownError (List Char) := do
  let chunks ← votes.mapM renderSuspicion
  .ok ([';'].intercalate chunks)

def breaksTable (cell : List Char) : Bool :=
  cell.contains '|' || cell.contains '\n' || cell.contains '\r'

def joinRow (cells : List (List Char)) : List Char :=
  ['|', ' '] ++ [' ', '|', ' '].intercalate cells ++ [' ', '|']

def rowCells (silo : SiloInfo) (lastHeartbeat iAmAlive startTime suspicions : List Char) :
    List (List Char) :=
  [silo.address.encoded.toList, silo.address.host.toList, silo.address.port.repr.toList,
    silo.address.epoch.repr.toList, silo.status.value.toList, (silo.clusterId.getD "").toList,
    (silo.gatewayPort.map fun port ↦ port.repr.toList).getD [], lastHeartbeat, iAmAlive, startTime,
    suspicions, (silo.etag.getD "").toList]

def renderRow (silo : SiloInfo) : Except MarkdownError (List Char) := do
  let lastHeartbeat ← formatTimestamp silo.lastHeartbeat
  let iAmAlive ← formatTimestamp silo.iAmAlive
  let startTime ← formatTimestamp silo.startTime
  let suspicions ← renderSuspicions silo.suspicions
  let cells := rowCells silo lastHeartbeat iAmAlive startTime suspicions
  match cells.find? breaksTable with
  | some cell => .error (.tableBreaking cell)
  | none => .ok (joinRow cells)

def render (state : MarkdownState) : Except MarkdownError String := do
  let rows ← state.silos.mapM renderRow
  let lines :=
    ["# Membership".toList, [], "Version: ".toList ++ state.version.repr.toList, [], header,
      separator] ++ rows ++ [[]]
  .ok (String.ofList (['\n'].intercalate lines))

/-- What `datetime.fromisoformat` reads, by `timestamp`, in a text of another
form than `isoformat` writes, perhaps with no offset and so in local time. -/
abbrev OtherTimes := List Char → Option ℚ

variable (other : OtherTimes)

def parseTimestamp (s : List Char) : Option ℚ :=
  if s = [] then some 0
  else
    match DateTime.ofIsoformat s with
    | some date => some date.timestamp
    | none => other s

def parseVersion (line : List Char) : Except MarkdownError ℤ :=
  match Numerals.parseInt (String.ofList (strip isSpace ((line.dropWhile (· ≠ ':')).drop 1))) with
  | none => .error (.malformedVersion line)
  | some version => .ok version

def orMalformed {α : Type} (line : List Char) : Option α → Except MarkdownError α
  | none => .error (.malformedRow line)
  | some a => .ok a

def parseSuspicion (line chunk : List Char) : Except MarkdownError SuspicionVote :=
  match rsplit '@' chunk with
  | none => .error (.malformedSuspicion chunk)
  | some (suspecting, timestamp) => do
    let ts ← orMalformed line (parseTimestamp other timestamp)
    .ok ⟨String.ofList suspecting, ts⟩

def parseSuspicions (line cell : List Char) : Except MarkdownError (List SuspicionVote) :=
  if cell = [] then .ok [] else (cell.splitOn ';').mapM (parseSuspicion other line)

def orNone (cell : List Char) : Option String :=
  if cell = [] then none else some (String.ofList cell)

def parseInt (line cell : List Char) : Except MarkdownError ℤ :=
  orMalformed line (Numerals.parseInt (String.ofList cell))

def parseRow (line : List Char) : Except MarkdownError SiloInfo :=
  match ((strip (· == '|') line).splitOn '|').map (strip isSpace) with
  | [_, host, port, epoch, status, clusterId, gatewayPort, lastHeartbeat, iAmAlive, startTime,
    suspicions, etag] => do
    let port ← parseInt line port
    let epoch ← parseInt line epoch
    let status ← orMalformed line (SiloStatus.ofValue (String.ofList status))
    let lastHeartbeat ← orMalformed line (parseTimestamp other lastHeartbeat)
    let startTime ← orMalformed line (parseTimestamp other startTime)
    let gatewayPort ← (if gatewayPort = [] then .ok none else some <$> parseInt line gatewayPort)
    let iAmAlive ← (if iAmAlive = [] then .ok 0
      else orMalformed line (parseTimestamp other iAmAlive))
    let suspicions ← parseSuspicions other line suspicions
    .ok ⟨⟨String.ofList host, port, epoch⟩, status, lastHeartbeat, startTime, orNone clusterId,
      gatewayPort, 0, iAmAlive, suspicions, orNone etag⟩
  | _ => .error (.malformedRow line)

/-- `_parse` between two lines. -/
structure Progress where
  state : MarkdownState
  inTable : Bool
deriving DecidableEq

def parseLine (progress : Progress) (line : List Char) : Except MarkdownError Progress :=
  let stripped := strip isSpace line
  let state := progress.state
  if (stripped.take 8).map Char.toLower = "version:".toList then do
    let version ← parseVersion stripped
    .ok { progress with state := { state with version := version } }
  else if stripped = header then .ok { progress with inTable := true }
  else if progress.inTable = false then .ok progress
  else if stripped = [] then .ok { progress with inTable := false }
  else if "| ---".toList <+: stripped then .ok progress
  else if stripped.head? = some '|' then do
    let silo ← parseRow other stripped
    .ok { progress with state := { state with silos := state.silos ++ [silo] } }
  else .ok progress

def parse (content : String) : Except MarkdownError MarkdownState := do
  let progress ← (splitlines content.toList).foldlM (parseLine other) ⟨⟨0, []⟩, false⟩
  .ok progress.state

end MarkdownTable

/-- What the file keeps of a vote and of a row: the second of each time, and not
the row's own version. -/
def SuspicionVote.wholeSeconds (vote : SuspicionVote) : SuspicionVote :=
  { vote with timestamp := ⌊vote.timestamp⌋ }

def SuspicionVote.readBack (vote : SuspicionVote) : SuspicionVote :=
  { vote with timestamp := Calendar.secondOf vote.timestamp }

def SiloInfo.wholeSeconds (silo : SiloInfo) : SiloInfo :=
  { silo with
    lastHeartbeat := ⌊silo.lastHeartbeat⌋
    startTime := ⌊silo.startTime⌋
    version := 0
    iAmAlive := ⌊silo.iAmAlive⌋
    suspicions := silo.suspicions.map SuspicionVote.wholeSeconds }

def MarkdownState.wholeSeconds (state : MarkdownState) : MarkdownState :=
  { state with silos := state.silos.map SiloInfo.wholeSeconds }

namespace MarkdownTable

open Calendar Text

/-- A clock reading that, rounded to microseconds, is still in its second. -/
def StaysInSecond (reading : ℚ) : Prop := secondOf reading = ⌊reading⌋

section Timestamps

variable {other : OtherTimes} {ts : ℚ} {text : List Char}

theorem isSpace_of_isMark {c : Char} (h : DateTime.isMark c = true) : isSpace c = false := by
  have hmarks : ['-', 'T', ':', '+'].all (fun d ↦ !isSpace d) = true := by decide
  rcases Bool.or_eq_true_iff.mp h with h | h
  · exact isSpace_of_isDigit h
  · simpa using List.all_eq_true.mp hmarks c (List.contains_iff_mem.mp h)

theorem formatTimestamp_marks (h : formatTimestamp ts = .ok text) :
    ∀ c ∈ text, DateTime.isMark c = true := by
  rw [formatTimestamp] at h
  split_ifs at h
  · obtain rfl := Except.ok.inj h
    exact List.forall_mem_nil _
  · cases hdate : DateTime.ofTimestamp (secondOf ts) with
    | none =>
      rw [hdate] at h
      cases h
    | some date =>
      rw [hdate] at h
      obtain rfl := Except.ok.inj h
      exact List.all_eq_true.mp date.all_isoformat

theorem parseTimestamp_formatTimestamp (h : formatTimestamp ts = .ok text) :
    parseTimestamp other text = some ((secondOf ts : ℤ) : ℚ) := by
  rw [formatTimestamp] at h
  split_ifs at h with hzero
  · obtain rfl := Except.ok.inj h
    have hsecond : secondOf ts = 0 := by
      rw [hzero]
      exact_mod_cast secondOf_intCast 0
    rw [parseTimestamp, if_pos rfl, hsecond, Int.cast_zero]
  · cases hdate : DateTime.ofTimestamp (secondOf ts) with
    | none =>
      rw [hdate] at h
      cases h
    | some date =>
      rw [hdate] at h
      obtain rfl := Except.ok.inj h
      obtain ⟨hvalid, htime⟩ := DateTime.ofTimestamp_spec hdate
      have hne : date.isoformat ≠ [] := List.append_ne_nil_of_left_ne_nil (List.cons_ne_nil _ _) _
      rw [parseTimestamp, if_neg hne, hvalid.ofIsoformat_isoformat]
      dsimp only
      rw [htime]

theorem strip_timestamp (h : formatTimestamp ts = .ok text) : strip isSpace text = text :=
  strip_of_forall fun c hc ↦ isSpace_of_isMark (formatTimestamp_marks h c hc)

theorem not_mem_timestamp {c : Char} (h : formatTimestamp ts = .ok text)
    (hc : DateTime.isMark c = false) : c ∉ text :=
  fun hmem ↦ by
    rw [formatTimestamp_marks h c hmem] at hc
    cases hc

end Timestamps

section Suspicions

variable {other : OtherTimes} {line cell chunk : List Char} {vote : SuspicionVote}
  {votes : List SuspicionVote}

def lstripped (vote : SuspicionVote) : SuspicionVote :=
  { vote with suspectingSilo := String.ofList (vote.suspectingSilo.toList.dropWhile isSpace) }

theorem renderSuspicion_eq_ok : renderSuspicion vote = .ok chunk ↔
    ∃ text, formatTimestamp vote.timestamp = .ok text ∧ chunk = vote.suspectingSilo.toList ++
      '@' :: text := by
  rw [renderSuspicion, Fallible.bind_eq_ok]
  refine exists_congr fun text ↦ and_congr_right fun _ ↦ ?_
  rw [Except.ok.injEq, eq_comm]

theorem renderSuspicions_eq_ok : renderSuspicions votes = .ok cell ↔
    ∃ chunks, List.Forall₂ (fun vote chunk ↦ renderSuspicion vote = .ok chunk) votes chunks ∧
      cell = [';'].intercalate chunks := by
  rw [renderSuspicions, Fallible.bind_eq_ok]
  refine exists_congr fun chunks ↦ and_congr Fallible.mapM_eq_ok ?_
  rw [Except.ok.injEq, eq_comm]

theorem parseSuspicion_renderSuspicion (h : renderSuspicion vote = .ok chunk) :
    parseSuspicion other line chunk = .ok vote.readBack := by
  obtain ⟨text, htext, rfl⟩ := renderSuspicion_eq_ok.mp h
  rw [parseSuspicion, rsplit_append (not_mem_timestamp htext (by decide))]
  dsimp only
  rw [parseTimestamp_formatTimestamp htext, String.ofList_toList]
  rfl

theorem renderSuspicion_ends (h : renderSuspicion vote = .ok chunk) : Ends isSpace chunk := by
  obtain ⟨text, htext, rfl⟩ := renderSuspicion_eq_ok.mp h
  refine (Ends.of_forall (List.cons_ne_nil _ _)
    (List.forall_mem_cons.mpr ⟨by decide, fun c hc ↦ ?_⟩)).append _
  exact isSpace_of_isMark (formatTimestamp_marks htext c hc)

theorem renderSuspicions_ends (h : renderSuspicions (vote :: votes) = .ok cell) :
    Ends isSpace cell := by
  obtain ⟨chunks, hchunks, rfl⟩ := renderSuspicions_eq_ok.mp h
  have hends := Fallible.forall_mem_right hchunks fun _ _ _ ↦ renderSuspicion_ends
  cases hchunks with
  | cons => exact Ends.intercalate (List.cons_ne_nil _ _) hends

theorem strip_renderSuspicions (h : renderSuspicions votes = .ok cell) :
    renderSuspicions (votes.modifyHead lstripped) = .ok (strip isSpace cell) := by
  obtain ⟨chunks, hchunks, hcell⟩ := renderSuspicions_eq_ok.mp h
  cases hchunks with
  | nil =>
    rw [hcell]
    rfl
  | @cons vote chunk votes chunks hchunk hchunks =>
    obtain ⟨text, htext, rfl⟩ := renderSuspicion_eq_ok.mp hchunk
    obtain ⟨rest, hrest⟩ := exists_intercalate_cons [';'] chunks
    have hstripped : renderSuspicion (lstripped vote) =
      .ok (vote.suspectingSilo.toList.dropWhile isSpace ++ '@' :: text) :=
      renderSuspicion_eq_ok.mpr ⟨text, htext, by rw [lstripped, String.toList_ofList]⟩
    refine renderSuspicions_eq_ok.mpr ⟨_, .cons hstripped hchunks, ?_⟩
    rw [(renderSuspicions_ends h).strip, hcell, hrest, hrest, List.append_assoc, List.cons_append,
      dropWhile_append_neg (by decide), List.append_assoc, List.cons_append]

theorem not_mem_renderSuspicion (h : renderSuspicion vote = .ok chunk)
    (hsep : ';' ∉ vote.suspectingSilo.toList) :
    ';' ∉ chunk := by
  obtain ⟨text, htext, rfl⟩ := renderSuspicion_eq_ok.mp h
  rw [List.mem_append, List.mem_cons, not_or, not_or]
  exact ⟨hsep, by decide, not_mem_timestamp htext (by decide)⟩

theorem parseSuspicions_renderSuspicions (h : renderSuspicions votes = .ok cell)
    (hsep : ∀ vote ∈ votes, ';' ∉ vote.suspectingSilo.toList) :
    parseSuspicions other line cell = .ok (votes.map SuspicionVote.readBack) := by
  obtain ⟨chunks, hchunks, hcell⟩ := renderSuspicions_eq_ok.mp h
  have hclear : ∀ chunk ∈ chunks, ';' ∉ chunk :=
    Fallible.forall_mem_right hchunks fun vote hvote _ hchunk ↦
      not_mem_renderSuspicion hchunk (hsep vote hvote)
  have hread : List.Forall₂ (fun chunk vote ↦ parseSuspicion other line chunk = .ok vote) chunks
      (votes.map SuspicionVote.readBack) := by
    rw [List.forall₂_map_right_iff]
    exact hchunks.flip.imp fun _ _ ↦ parseSuspicion_renderSuspicion
  cases hchunks with
  | nil =>
    rw [hcell]
    rfl
  | cons =>
    rw [parseSuspicions, if_neg (renderSuspicions_ends h).ne_nil, hcell,
      List.splitOn_intercalate _ hclear (List.cons_ne_nil _ _)]
    exact Fallible.mapM_eq_ok.mpr hread

/-- With a separator in a name, more votes are read than were written. -/
theorem not_mem_of_parseSuspicions {read : List SuspicionVote}
    (h : renderSuspicions votes = .ok cell) (hparse : parseSuspicions other line cell = .ok read)
    (hlength : read.length = votes.length) :
    ∀ vote ∈ votes, ';' ∉ vote.suspectingSilo.toList := by
  obtain ⟨chunks, hchunks, hcell⟩ := renderSuspicions_eq_ok.mp h
  cases votes with
  | nil => exact List.forall_mem_nil _
  | cons vote votes =>
    rw [parseSuspicions, if_neg (renderSuspicions_ends h).ne_nil] at hparse
    have hparts := (Fallible.mapM_eq_ok.mp hparse).length_eq
    have hvotes := hchunks.length_eq
    have hne : chunks ≠ [] := by
      rintro rfl
      cases hchunks
    rw [length_splitOn, hcell, @count_intercalate ';' _ hne, hlength, hvotes, Nat.add_eq_left,
      List.sum_eq_zero_iff] at hparts
    refine Fallible.forall_mem_right hchunks.flip fun chunk hmem vote hchunk ↦ ?_
    obtain ⟨text, -, rfl⟩ := renderSuspicion_eq_ok.mp hchunk
    have hnone := List.count_eq_zero.mp (hparts _ (List.mem_map_of_mem hmem))
    exact fun h ↦ hnone (List.mem_append_left _ h)

/-- Votes whose cell gives them back. -/
structure LegibleVotes (votes : List SuspicionVote) : Prop where
  separators : ∀ vote ∈ votes, ';' ∉ vote.suspectingSilo.toList
  first : ∀ vote ∈ votes.head?, vote.suspectingSilo.toList.dropWhile isSpace =
    vote.suspectingSilo.toList
  seconds : ∀ vote ∈ votes, StaysInSecond vote.timestamp

theorem readBack_eq_wholeSeconds :
    vote.readBack = vote.wholeSeconds ↔ StaysInSecond vote.timestamp := by
  rw [SuspicionVote.readBack, SuspicionVote.wholeSeconds, SuspicionVote.mk.injEq,
    StaysInSecond, Int.cast_inj]
  exact and_iff_right rfl

theorem modifyHead_lstripped
    (h : ∀ vote ∈ votes.head?, vote.suspectingSilo.toList.dropWhile isSpace =
    vote.suspectingSilo.toList) :
    votes.modifyHead lstripped = votes := by
  cases votes with
  | nil => rfl
  | cons vote votes => rw [List.modifyHead_cons, lstripped, h vote rfl, String.ofList_toList]

theorem parseSuspicions_eq_wholeSeconds (h : renderSuspicions votes = .ok cell) :
    parseSuspicions other line (strip isSpace cell) = .ok (votes.map SuspicionVote.wholeSeconds) ↔
      LegibleVotes votes := by
  have hstripped := strip_renderSuspicions h
  constructor
  · intro hparse
    have hsep := not_mem_of_parseSuspicions hstripped hparse
      (by rw [List.length_map, List.length_modifyHead])
    rw [parseSuspicions_renderSuspicions hstripped hsep, Except.ok.injEq] at hparse
    have hfirst : ∀ vote ∈ votes.head?, vote.suspectingSilo.toList.dropWhile isSpace =
      vote.suspectingSilo.toList := by
      cases votes with
      | nil => nofun
      | cons vote votes =>
        rintro _ ⟨⟩
        have hname : (lstripped vote).readBack.suspectingSilo = vote.wholeSeconds.suspectingSilo :=
          congrArg SuspicionVote.suspectingSilo (List.cons.inj hparse).1
        exact String.toList_ofList.symm.trans (congrArg String.toList hname)
    rw [modifyHead_lstripped hfirst] at hsep hparse
    exact ⟨hsep, hfirst, fun vote hvote ↦
      readBack_eq_wholeSeconds.mp (List.map_inj_left.mp hparse vote hvote)⟩
  · intro hlegible
    rw [modifyHead_lstripped hlegible.first] at hstripped
    rw [parseSuspicions_renderSuspicions hstripped hlegible.separators]
    exact congrArg _ (List.map_congr_left fun vote hvote ↦
      readBack_eq_wholeSeconds.mpr (hlegible.seconds vote hvote))

end Suspicions

section Cells

variable {cells : List (List Char)} {cell : List Char}

def pad (cell : List Char) : List Char := ' ' :: (cell ++ [' '])

theorem strip_pad (cell : List Char) : strip isSpace (pad cell) = strip isSpace cell := by
  rw [pad, strip_cons_pos rfl, strip_concat_pos rfl]

theorem joinRow_cons (cell : List Char) (cells : List (List Char)) :
    joinRow (cell :: cells) = '|' :: (['|'].intercalate ((cell :: cells).map pad) ++ ['|']) := by
  induction cells generalizing cell with
  | nil => simp [joinRow, pad, List.intercalate_singleton]
  | cons cell' cells ih =>
    have hrest : ' ' :: ([' ', '|', ' '].intercalate (cell' :: cells) ++ [' ', '|']) =
        ['|'].intercalate ((cell' :: cells).map pad) ++ ['|'] := by
      have := ih cell'
      rw [joinRow] at this
      exact (List.cons.inj this).2
    have hbars : ['|'].intercalate ((cell :: cell' :: cells).map pad) =
        pad cell ++ '|' :: ['|'].intercalate ((cell' :: cells).map pad) := by
      rw [List.map_cons, List.map_cons, List.intercalate_cons_cons, ← List.map_cons,
        List.append_assoc]
      rfl
    rw [hbars, List.append_assoc, List.cons_append, ← hrest, joinRow,
      List.intercalate_cons_cons, pad]
    simp only [List.append_assoc, List.cons_append, List.nil_append]

theorem pad_ends (cell : List Char) : Ends (· == '|') (pad cell) := ⟨' ' :: cell, ' ', rfl, rfl⟩

theorem strip_bars (cell : List Char) (cells : List (List Char)) :
    strip (· == '|') (joinRow (cell :: cells)) = ['|'].intercalate ((cell :: cells).map pad) := by
  have hends : Ends (· == '|') (['|'].intercalate ((cell :: cells).map pad)) := by
    refine Ends.intercalate (List.cons_ne_nil _ _) fun part hpart ↦ ?_
    obtain ⟨cell, -, rfl⟩ := List.mem_map.mp hpart
    exact pad_ends cell
  rw [joinRow_cons, strip_cons_pos rfl, strip_concat_pos rfl, hends.strip]
  obtain ⟨rest, hrest⟩ := exists_intercalate_cons ['|'] (cells.map pad)
  rw [List.map_cons, hrest, pad, List.cons_append, List.dropWhile_cons_of_neg (by decide)]

theorem not_mem_pad (h : '|' ∉ cell) : '|' ∉ pad cell := by
  rw [pad, List.mem_cons, List.mem_append, List.mem_singleton, not_or, not_or]
  exact ⟨by decide, h, by decide⟩

theorem splitOn_joinRow (h : ∀ part ∈ cell :: cells, '|' ∉ part) :
    ((strip (· == '|') (joinRow (cell :: cells))).splitOn '|').map (strip isSpace) =
      (cell :: cells).map (strip isSpace) := by
  have hclear : ∀ part ∈ (cell :: cells).map pad, '|' ∉ part := by
    intro part hpart
    obtain ⟨cell, hcell, rfl⟩ := List.mem_map.mp hpart
    exact not_mem_pad (h cell hcell)
  rw [strip_bars, List.splitOn_intercalate _ hclear (List.cons_ne_nil _ _), List.map_map]
  exact List.map_congr_left fun cell _ ↦ strip_pad cell

end Cells

section Row

variable {other : OtherTimes} {silo : SiloInfo}
  {line lastHeartbeat iAmAlive startTime suspicions : List Char}

theorem isSpace_of_mem_repr (n : ℤ) : ∀ c ∈ n.repr.toList, isSpace c = false := by
  have hdigits : ∀ m, ∀ c ∈ Nat.toDigits 10 m, isSpace c = false := fun m c hc ↦
    isSpace_of_isDigit (Numerals.isDigit_of_mem_toDigits m c hc)
  cases n with
  | ofNat m =>
    rw [show (Int.ofNat m).repr.toList = Nat.toDigits 10 m from Nat.toList_repr]
    exact hdigits m
  | negSucc m =>
    rw [show (Int.negSucc m).repr.toList = '-' :: Nat.toDigits 10 (m + 1) by
      simp [Int.repr, Nat.toList_repr]]
    exact List.forall_mem_cons.mpr ⟨by decide, hdigits (m + 1)⟩

theorem strip_repr (n : ℤ) : strip isSpace n.repr.toList = n.repr.toList :=
  strip_of_forall (isSpace_of_mem_repr n)

theorem repr_ne_nil (n : ℤ) : n.repr.toList ≠ [] := by
  intro h
  have hread := Numerals.parseInt_repr n
  rw [String.toList_eq_nil_iff.mp h] at hread
  cases hread

theorem parseInt_strip (line : List Char) (n : ℤ) :
    parseInt line (strip isSpace n.repr.toList) = .ok n := by
  rw [strip_repr, parseInt, String.ofList_toList, Numerals.parseInt_repr]
  rfl

theorem parseStatus_strip (line : List Char) (status : SiloStatus) :
    orMalformed line (SiloStatus.ofValue (String.ofList (strip isSpace status.value.toList))) =
      .ok status := by
  cases status <;> rfl

theorem parseRow_joinRow (hlast : formatTimestamp silo.lastHeartbeat = .ok lastHeartbeat)
    (halive : formatTimestamp silo.iAmAlive = .ok iAmAlive)
    (hstart : formatTimestamp silo.startTime = .ok startTime)
    (hclear : ∀ cell ∈ rowCells silo lastHeartbeat iAmAlive startTime suspicions, '|' ∉ cell)
    (hline : line = joinRow (rowCells silo lastHeartbeat iAmAlive startTime suspicions)) :
    parseRow other line = (parseSuspicions other line (strip isSpace suspicions) >>= fun votes ↦
      .ok ⟨⟨String.ofList (strip isSpace silo.address.host.toList), silo.address.port,
        silo.address.epoch⟩, silo.status,
        secondOf silo.lastHeartbeat, secondOf silo.startTime,
          orNone (strip isSpace (silo.clusterId.getD "").toList),
        silo.gatewayPort, 0, secondOf silo.iAmAlive, votes,
          orNone (strip isSpace (silo.etag.getD "").toList)⟩) := by
  have hcells : ((strip (· == '|') line).splitOn '|').map (strip isSpace) =
      (rowCells silo lastHeartbeat iAmAlive startTime suspicions).map (strip isSpace) := by
    rw [hline]
    exact splitOn_joinRow hclear
  have hgateway : (if strip isSpace ((silo.gatewayPort.map fun port ↦ port.repr.toList).getD []) =
    [] then .ok none
      else some <$> parseInt line
        (strip isSpace ((silo.gatewayPort.map fun port ↦ port.repr.toList).getD []))) =
      (.ok silo.gatewayPort : Except MarkdownError (Option ℤ)) := by
    cases silo.gatewayPort with
    | none => rfl
    | some port =>
      rw [Option.map_some, Option.getD_some, parseInt_strip, strip_repr, if_neg (repr_ne_nil port)]
      rfl
  have hiAmAlive : (if iAmAlive = [] then .ok 0 else orMalformed line
    (parseTimestamp other iAmAlive)) =
      (.ok (secondOf silo.iAmAlive : ℚ) : Except MarkdownError ℚ) := by
    have hread : parseTimestamp other iAmAlive = some ((secondOf silo.iAmAlive : ℤ) : ℚ) :=
      parseTimestamp_formatTimestamp halive
    split_ifs with hempty
    · rw [hempty, parseTimestamp, if_pos rfl] at hread
      exact congrArg _ (Option.some.inj hread)
    · rw [hread]
      rfl
  rw [parseRow, hcells, rowCells]
  simp only [List.map_cons, List.map_nil, parseInt_strip, parseStatus_strip, strip_timestamp hlast,
    strip_timestamp halive, strip_timestamp hstart, hgateway, hiAmAlive, Fallible.ok_bind]
  rw [parseTimestamp_formatTimestamp hlast, parseTimestamp_formatTimestamp hstart]
  rfl

def Unpadded (text : String) : Prop := strip isSpace text.toList = text.toList

theorem orNone_eq (text : Option String) :
    orNone (strip isSpace (text.getD "").toList) = text ↔ ∀ t ∈ text, t ≠ "" ∧ Unpadded t := by
  cases text with
  | none => exact iff_of_true rfl nofun
  | some t =>
    have hiff : (∀ t' ∈ some t, t' ≠ "" ∧ Unpadded t') ↔ t ≠ "" ∧ Unpadded t := by simp
    rw [hiff, Option.getD_some, orNone, Unpadded]
    split_ifs with hempty
    · refine iff_of_false nofun fun ⟨hne, hpad⟩ ↦ hne ?_
      exact String.toList_eq_nil_iff.mp (hpad.symm.trans hempty)
    · rw [Option.some.injEq]
      constructor
      · intro h
        have hpad : strip isSpace t.toList = t.toList :=
          String.toList_ofList.symm.trans (congrArg String.toList h)
        refine ⟨fun hnil ↦ hempty ?_, hpad⟩
        rw [hpad, hnil]
        rfl
      · intro ⟨_, hpad⟩
        rw [hpad, String.ofList_toList]

/-- A row whose line gives it back. -/
structure Legible (silo : SiloInfo) : Prop where
  host : Unpadded silo.address.host
  clusterId : ∀ text ∈ silo.clusterId, text ≠ "" ∧ Unpadded text
  etag : ∀ text ∈ silo.etag, text ≠ "" ∧ Unpadded text
  lastHeartbeat : StaysInSecond silo.lastHeartbeat
  startTime : StaysInSecond silo.startTime
  iAmAlive : StaysInSecond silo.iAmAlive
  votes : LegibleVotes silo.suspicions

theorem parseRow_eq_wholeSeconds (hlast : formatTimestamp silo.lastHeartbeat = .ok lastHeartbeat)
    (halive : formatTimestamp silo.iAmAlive = .ok iAmAlive)
    (hstart : formatTimestamp silo.startTime = .ok startTime)
    (hvotes : renderSuspicions silo.suspicions = .ok suspicions)
    (hclear : ∀ cell ∈ rowCells silo lastHeartbeat iAmAlive startTime suspicions, '|' ∉ cell)
    (hline : line = joinRow (rowCells silo lastHeartbeat iAmAlive startTime suspicions)) :
    parseRow other line = .ok silo.wholeSeconds ↔ Legible silo := by
  rw [parseRow_joinRow hlast halive hstart hclear hline, Fallible.bind_eq_ok]
  constructor
  · rintro ⟨votes, hparse, hsame⟩
    obtain ⟨haddress, -, hlast, hstart, hcluster, -, -, halive, rfl, hetag⟩ :=
      (SiloInfo.mk.injEq ..).mp (Except.ok.inj hsame)
    have hhost : String.ofList (strip isSpace silo.address.host.toList) = silo.address.host :=
      congrArg SiloAddress.host haddress
    exact ⟨String.toList_ofList.symm.trans (congrArg String.toList hhost),
      (orNone_eq _).mp hcluster,
      (orNone_eq _).mp hetag, Int.cast_injective hlast, Int.cast_injective hstart,
        Int.cast_injective halive,
      (parseSuspicions_eq_wholeSeconds hvotes).mp hparse⟩
  · intro h
    refine ⟨_, (parseSuspicions_eq_wholeSeconds hvotes).mpr h.votes, ?_⟩
    rw [h.host, String.ofList_toList, (orNone_eq _).mpr h.clusterId, (orNone_eq _).mpr h.etag,
      h.lastHeartbeat, h.startTime, h.iAmAlive]
    rfl

end Row

end MarkdownTable

end Pyleans
