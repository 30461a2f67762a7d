import Pyleans.Storage.AdapterAgreement

namespace Pyleans

open Library

/-- What has happened around the records. -/
inductive RecordEvent (Client : Type)
  | obtained (client : Client) (grain : GrainId) (etag : String)
  | written (grain : GrainId)
  | cleared (grain : GrainId)
deriving DecidableEq

structure ClientCall (Client State : Type) where
  client : Client
  grain : GrainId
  call : StorageCall State String

/-- The table and the history of its clients, the latest event first. -/
structure GrainClients (Client State : Type) where
  rows : GrainStates State
  history : List (RecordEvent Client)

namespace GrainStates

variable {State : Type} {rows : GrainStates State} {grain : GrainId} {state : State}
  {expectedEtag : Option String}

def Finds (rows : GrainStates State) (grain : GrainId) (expectedEtag : Option String) : Prop :=
  ∀ etag, expectedEtag = some etag → ∃ row, rows.row grain = some row ∧
    expectedInt etag = .ok row.etag

theorem key_ne {g : GrainId} (h : g ≠ grain) :
    (g.grainType, g.key) ≠ (grain.grainType, grain.key) := by
  intro hkey
  cases g
  cases grain
  cases hkey
  exact h rfl

theorem key_of_expected {n : ℤ} (row : GrainRow State) (h : expected grain n row = true) :
    row.key = (grain.grainType, grain.key) := by
  rw [expected, Bool.and_eq_true, decide_eq_true_eq] at h
  exact h.1

/-- A write that goes through gives an absent row the number 1 and counts the
number of a present one up; it leaves all other rows alone. -/
theorem write_cases (rows : GrainStates State) (grain : GrainId) (state : State)
    (expectedEtag : Option String) :
    (∃ e, rows.write grain state expectedEtag = (.error e, rows)) ∨
      ∃ row rows', rows.write grain state expectedEtag = (.ok (toString row.etag), rows') ∧
        rows'.row grain = some row ∧ (∀ g ≠ grain, rows'.row g = rows.row g) ∧
          rows.Finds grain expectedEtag ∧
        ∀ old, rows.row grain = some old → row.etag = old.etag + 1 := by
  cases expectedEtag with
  | none =>
    let new : GrainRow State := ⟨grain.grainType, grain.key, state, 1⟩
    cases hrow : rows.row grain with
    | some old =>
      have hinsert : Table.insert rows new = none := Table.insert_of_get_some hrow
      exact .inl ⟨.inconsistency none (some "exists"), by simp only [write, new, hinsert]⟩
    | none =>
      have hinsert : Table.insert rows new = some (Table.put rows new) :=
        Table.insert_of_get_none hrow
      refine .inr ⟨new, Table.put rows new, by
        simp only [write, new, hinsert], Table.get_put_self rows new, ?_, ?_, ?_⟩
      · intro g hg
        exact (Table.get_put rows new _).trans (if_neg (key_ne hg))
      · intro etag h
        cases h
      · intro old h
        cases h
  | some etag =>
    cases hint : expectedInt etag with
    | error e => exact .inl ⟨e, by simp only [write, hint]⟩
    | ok n =>
      by_cases hn : (rows.record grain).map Prod.snd = some n
      · obtain ⟨row, rows', hrowN, hupdate, hrow'⟩ := update_found state hn
        have hold : ∀ old, rows.row grain = some old → old.etag = n := by
          intro old hrow
          rw [etag_record, hrow] at hn
          exact Option.some.inj hn
        refine .inr ⟨row.set state, rows', by simp only [write, hint, hupdate], hrow', ?_, ?_, ?_⟩
        · intro g hg
          have hframe := Table.get_updateWhere_of_ne (t := rows) (GrainRow.set state) (fun _ ↦ rfl)
            (key_of_expected (n := n)) (key_ne hg)
          rwa [hupdate] at hframe
        · rintro _ ⟨⟩
          rw [etag_record, Option.map_eq_some_iff] at hn
          obtain ⟨old, hrow, rfl⟩ := hn
          exact ⟨old, hrow, hint⟩
        · intro old hrow
          rw [hold old hrow, ← hrowN]
          rfl
      · obtain ⟨rows', hupdate⟩ := update_missed state hn
        exact .inl ⟨.inconsistency (some etag) (some "stale"), by simp only [write, hint, hupdate]⟩

theorem clear_cases (rows : GrainStates State) (grain : GrainId) (expectedEtag : Option String) :
    (∃ e, rows.clear grain expectedEtag = (.error e, rows)) ∨
      ∃ rows', rows.clear grain expectedEtag = (.ok (), rows') ∧
        (∀ g ≠ grain, rows'.row g = rows.row g) ∧
        rows.Finds grain expectedEtag := by
  cases expectedEtag with
  | none =>
    refine .inr ⟨_, rfl, fun g hg ↦ ?_, fun etag h ↦ ?_⟩
    · exact Table.get_deleteWhere_of_ne (fun row h ↦ of_decide_eq_true h) (key_ne hg)
    · cases h
  | some etag =>
    cases hint : expectedInt etag with
    | error e => exact .inl ⟨e, by simp only [clear, hint]⟩
    | ok n =>
      by_cases hn : (rows.record grain).map Prod.snd = some n
      · obtain ⟨row, rows', hdelete, -⟩ := delete_found hn
        refine .inr ⟨rows', by simp only [clear, hint, hdelete], ?_, ?_⟩
        · intro g hg
          have hframe := Table.get_deleteWhere_of_ne (t := rows)
            (key_of_expected (n := n)) (key_ne hg)
          rwa [hdelete] at hframe
        · rintro _ ⟨⟩
          rw [etag_record, Option.map_eq_some_iff] at hn
          obtain ⟨old, hrow, rfl⟩ := hn
          exact ⟨old, hrow, hint⟩
      · obtain ⟨rows', hdelete⟩ := delete_missed hn
        exact .inl ⟨.inconsistency (some etag) (some "stale"), by simp only [clear, hint, hdelete]⟩

/-- What one call can do to the table. -/
inductive Answers (rows : GrainStates State) (grain : GrainId) (expectedEtag : Option String) :
    Except StorageError (StorageAnswer State) × GrainStates State → Prop
  | refused (e : StorageError) : Answers rows grain expectedEtag (.error e, rows)
  | absent (state : State) (h : expectedEtag = none) :
      Answers rows grain expectedEtag (.ok (.record state none), rows)
  | found (state : State) (row : GrainRow State) (h : expectedEtag = none)
      (hrow : rows.row grain = some row) :
      Answers rows grain expectedEtag (.ok (.record state (some (toString row.etag))), rows)
  | written (row : GrainRow State) (rows' : GrainStates State) (hrow : rows'.row grain = some row)
      (hframe : ∀ g ≠ grain, rows'.row g = rows.row g) (hfinds : rows.Finds grain expectedEtag)
      (hnext : ∀ old, rows.row grain = some old → row.etag = old.etag + 1) :
      Answers rows grain expectedEtag (.ok (.etag (toString row.etag)), rows')
  | cleared (rows' : GrainStates State) (hframe : ∀ g ≠ grain, rows'.row g = rows.row g)
      (hfinds : rows.Finds grain expectedEtag) :
      Answers rows grain expectedEtag (.ok .done, rows')

theorem answer_answers (emptyDict : State) (rows : GrainStates State) (grain : GrainId)
    (call : StorageCall State String) : rows.Answers grain call.expectedEtag
      (rows.answer emptyDict grain call) := by
  cases call with
  | read =>
    cases hrow : rows.row grain with
    | none =>
      simp only [answer, read, hrow]
      exact .absent emptyDict rfl
    | some row =>
      simp only [answer, read, hrow]
      exact .found row.state row rfl hrow
  | write state expectedEtag =>
    rcases write_cases rows grain state expectedEtag with ⟨e, h⟩
      | ⟨row, rows', h, hrow, hframe, hfinds, hnext⟩
    · simp only [answer, h, Except.map]
      exact .refused e
    · simp only [answer, h, Except.map]
      exact .written row rows' hrow hframe hfinds hnext
  | clear expectedEtag =>
    rcases clear_cases rows grain expectedEtag with ⟨e, h⟩ | ⟨rows', h, hframe, hfinds⟩
    · simp only [answer, h, Except.map]
      exact .refused e
    · simp only [answer, h, Except.map]
      exact .cleared rows' hframe hfinds

theorem Answers.finds {r : Except StorageError (StorageAnswer State) × GrainStates State}
    {answer : StorageAnswer State} (h : rows.Answers grain expectedEtag r)
    (hok : r.1 = .ok answer) :
      rows.Finds grain expectedEtag := by
  cases h with
  | refused e => cases hok
  | absent state h =>
    intro etag he
    cases h.symm.trans he
  | found state row h hrow =>
    intro etag he
    cases h.symm.trans he
  | written row rows' hrow hframe hfinds hnext => exact hfinds
  | cleared rows' hframe hfinds => exact hfinds

theorem answer_of_number (emptyDict : State) {call : StorageCall State String}
    {row : GrainRow State} (hcall : call.expectedEtag = some (toString row.etag))
    (hrow : rows.row grain = some row) :
    ∃ answer, (rows.answer emptyDict grain call).1 = .ok answer := by
  have hnumber : (rows.record grain).map Prod.snd = some row.etag := by
    rw [etag_record, hrow, Option.map_some]
  cases call with
  | read => cases hcall
  | write state expectedEtag =>
    obtain rfl : expectedEtag = (some row.etag).map toString := hcall
    have haccepts : sqlWriteAccepts ((rows.record grain).map Prod.snd) (some row.etag) = true :=
      decide_eq_true hnumber
    obtain ⟨n, hwrite, -⟩ := write_accepted state haccepts
    exact ⟨.etag (toString n), by rw [answer, hwrite, Except.map]⟩
  | clear expectedEtag =>
    obtain rfl : expectedEtag = (some row.etag).map toString := hcall
    have haccepts : sqlClearAccepts ((rows.record grain).map Prod.snd) (some row.etag) = true :=
      decide_eq_true (.inr hnumber)
    obtain ⟨hclear, -⟩ := clear_accepted haccepts
    exact ⟨.done, by rw [answer, hclear, Except.map]⟩

end GrainStates

namespace GrainClients

variable {Client State : Type}

def events (c : ClientCall Client State) : Except StorageError (StorageAnswer State) → List
    (RecordEvent Client)
  | .ok (.record _ (some etag)) => [.obtained c.client c.grain etag]
  | .ok (.record _ none) => []
  | .ok (.etag etag) => [.obtained c.client c.grain etag, .written c.grain]
  | .ok .done => [.cleared c.grain]
  | .error _ => []

def answer (emptyDict : State) (t : GrainClients Client State) (c : ClientCall Client State) :
    Except StorageError (StorageAnswer State) × GrainStates State :=
  t.rows.answer emptyDict c.grain c.call

def step (emptyDict : State) (t : GrainClients Client State) (c : ClientCall Client State) :
    Option (GrainClients Client State) :=
  some ⟨(t.answer emptyDict c).2, events c (t.answer emptyDict c).1 ++ t.history⟩

def start (rows : GrainStates State) : GrainClients Client State := ⟨rows, []⟩

variable [DecidableEq Client]

/-- The events since the client last obtained this etag. -/
def since (t : GrainClients Client State) (client : Client) (grain : GrainId) (etag : String) :
    List (RecordEvent Client) :=
  t.history.takeWhile (· ≠ .obtained client grain etag)

/-- A call that goes through with an etag finds the record as it was when its
client obtained the etag. -/
def NoLostUpdate (emptyDict : State) (t : GrainClients Client State) (c : ClientCall Client State) :
    Prop :=
  ∀ etag answer, c.call.expectedEtag = some etag → (t.answer emptyDict c).1 = .ok answer →
    .obtained c.client c.grain etag ∈ t.history →
      .written c.grain ∉ t.since c.client c.grain etag ∧
        .cleared c.grain ∉ t.since c.client c.grain etag

/-- The call does not come with an etag from before a clear of the record, with
the record written anew and back at the same number. -/
def SameIncarnation (t : GrainClients Client State) (c : ClientCall Client State) : Prop :=
  ∀ etag, c.call.expectedEtag = some etag → .obtained c.client c.grain etag ∈ t.history →
    .cleared c.grain ∈ t.since c.client c.grain etag →
      (t.rows.row c.grain).map (fun row ↦ toString row.etag) ≠ some etag

variable {emptyDict : State} {rows rows' : GrainStates State} {history : List (RecordEvent Client)}
  {grain : GrainId}

/-- An etag is the number that the record had, and the number tells the writes
since apart until the record is cleared. -/
def Tracks (t : GrainClients Client State) : Prop :=
  ∀ client grain etag, .obtained client grain etag ∈ t.history →
    ∃ n : ℤ, etag = toString n ∧ (.cleared grain ∉ t.since client grain etag →
      ∃ row, t.rows.row grain = some row ∧ n ≤ row.etag ∧
        (row.etag = n → .written grain ∉ t.since client grain etag))

theorem mem_since_cons (rows rows' : GrainStates State) {event e : RecordEvent Client}
    {client : Client} {etag : String} :
    event ∈ since ⟨rows', e :: history⟩ client grain etag ↔
      e ≠ .obtained client grain etag ∧
        (event = e ∨ event ∈ since ⟨rows, history⟩ client grain etag) := by
  rw [since, since, List.takeWhile_cons]
  by_cases he : e = .obtained client grain etag <;> simp [he]

theorem not_mem_since {event e : RecordEvent Client} {client : Client} {etag : String}
    (he : e ≠ .obtained client grain etag)
    (h : event ∉ since ⟨rows', e :: history⟩ client grain etag) :
    event ∉ since ⟨rows, history⟩ client grain etag :=
  fun hmem ↦ h ((mem_since_cons rows rows').mpr ⟨he, .inr hmem⟩)

theorem mem_since_of_ne {event e : RecordEvent Client} {client : Client} {etag : String}
    (hne : event ≠ e) (h : event ∈ since ⟨rows', e :: history⟩ client grain etag) :
    event ∈ since ⟨rows, history⟩ client grain etag :=
  ((mem_since_cons rows rows').mp h).2.resolve_left hne

theorem Tracks.obtained {row : GrainRow State} (h : Tracks ⟨rows, history⟩) (client : Client)
    (hrow : rows.row grain = some row) :
    Tracks ⟨rows, .obtained client grain (toString row.etag) :: history⟩ := by
  intro client' g etag hmem
  by_cases he : (.obtained client grain (toString row.etag) : RecordEvent Client) =
    .obtained client' g etag
  · cases he
    refine ⟨row.etag, rfl, fun _ ↦ ⟨row, hrow, le_refl _, fun _ hw ↦ ?_⟩⟩
    exact ((mem_since_cons rows rows).mp hw).1 rfl
  · obtain ⟨n, hn, hrest⟩ := h client' g etag ((List.mem_cons.mp hmem).resolve_left (Ne.symm he))
    refine ⟨n, hn, fun hc ↦ ?_⟩
    obtain ⟨row', hrow', hle, hw⟩ := hrest (not_mem_since he hc)
    exact ⟨row', hrow', hle, fun heq hw' ↦ hw heq (mem_since_of_ne (by simp) hw')⟩

theorem Tracks.written {row : GrainRow State} (h : Tracks ⟨rows, history⟩)
    (hrow : rows'.row grain = some row) (hframe : ∀ g ≠ grain, rows'.row g = rows.row g)
    (hnext : ∀ old, rows.row grain = some old → row.etag = old.etag + 1) :
    Tracks ⟨rows', .written grain :: history⟩ := by
  intro client g etag hmem
  obtain ⟨n, hn, hrest⟩ := h client g etag (List.mem_of_ne_of_mem (by simp) hmem)
  refine ⟨n, hn, fun hc ↦ ?_⟩
  obtain ⟨old, hold, hle, hw⟩ := hrest (not_mem_since (by simp) hc)
  by_cases hg : g = grain
  · subst hg
    -- the number has grown past every etag obtained before the write
    have hcount := hnext old hold
    refine ⟨row, hrow, by omega, fun heq ↦ ?_⟩
    omega
  · refine ⟨old, (hframe g hg).trans hold, hle, fun heq hw' ↦ ?_⟩
    have hne : (.written g : RecordEvent Client) ≠ .written grain :=
      fun h ↦ hg (RecordEvent.written.inj h)
    exact hw heq (mem_since_of_ne hne hw')

theorem Tracks.cleared (h : Tracks ⟨rows, history⟩)
    (hframe : ∀ g ≠ grain, rows'.row g = rows.row g) :
    Tracks ⟨rows', .cleared grain :: history⟩ := by
  intro client g etag hmem
  obtain ⟨n, hn, hrest⟩ := h client g etag (List.mem_of_ne_of_mem (by simp) hmem)
  refine ⟨n, hn, fun hc ↦ ?_⟩
  have hg : g ≠ grain := by
    rintro rfl
    exact hc ((mem_since_cons rows rows').mpr ⟨by simp, .inl rfl⟩)
  obtain ⟨row, hrow, hle, hw⟩ := hrest (not_mem_since (by simp) hc)
  exact ⟨row, (hframe g hg).trans hrow, hle, fun heq hw' ↦ hw heq (mem_since_of_ne (by simp) hw')⟩

variable {t t' : GrainClients Client State} {c : ClientCall Client State}

theorem Tracks.step (h : Tracks t) (hs : step emptyDict t c = some t') : Tracks t' := by
  obtain rfl := Option.some.inj hs
  have hanswers := GrainStates.answer_answers emptyDict t.rows c.grain c.call
  rw [GrainClients.answer]
  generalize t.rows.answer emptyDict c.grain c.call = r at hanswers
  cases hanswers with
  | refused e => exact h
  | absent state hread => exact h
  | found state row hread hrow => exact h.obtained c.client hrow
  | written row rows' hrow hframe hfinds hnext =>
    exact (h.written hrow hframe hnext).obtained c.client hrow
  | cleared rows' hframe hfinds => exact h.cleared hframe

theorem noLostUpdate_iff_sameIncarnation (h : Tracks t) :
    NoLostUpdate emptyDict t c ↔ SameIncarnation t c := by
  constructor
  · intro hlost etag hetag hobtained hcleared hnumber
    obtain ⟨row, hrow, rfl⟩ := Option.map_eq_some_iff.mp hnumber
    obtain ⟨answer, hok⟩ := GrainStates.answer_of_number emptyDict hetag hrow
    exact (hlost _ answer hetag hok hobtained).2 hcleared
  · intro hsame etag answer hetag hok hobtained
    obtain ⟨row, hrow, hint⟩ :=
      (GrainStates.answer_answers emptyDict t.rows c.grain c.call).finds hok etag hetag
    obtain ⟨n, rfl, hrest⟩ := h c.client c.grain etag hobtained
    obtain rfl : n = row.etag :=
      Except.ok.inj ((GrainStates.expectedInt_toString n).symm.trans hint)
    have hcleared : .cleared c.grain ∉ t.since c.client c.grain (toString row.etag) := fun hc ↦
      hsame _ hetag hobtained hc (by rw [hrow, Option.map_some])
    obtain ⟨row', hrow', -, hwritten⟩ := hrest hcleared
    obtain rfl := Option.some.inj (hrow.symm.trans hrow')
    exact ⟨hwritten rfl, hcleared⟩

theorem tracks_start (rows : GrainStates State) : Tracks (start rows : GrainClients Client State) :=
  fun _ _ _ h ↦ absurd h List.not_mem_nil

/-- For every interleaving of the clients' calls. -/
theorem no_lost_update_iff (emptyDict : State) (rows : GrainStates State)
    (calls : List (ClientCall Client State)) :
    Meets (step emptyDict) (NoLostUpdate emptyDict) (start rows) calls ↔
      Meets (step emptyDict) SameIncarnation (start rows) calls :=
  meets_congr (I := Tracks) (tracks_start rows) (fun _ _ _ h hs ↦ h.step hs)
    fun _ _ h ↦ noLostUpdate_iff_sameIncarnation h

/-- The second client clears the record and writes it anew under the number 1,
which the first client still holds. -/
theorem etag_of_cleared_record_accepted : ¬ ∀ calls :
    List (ClientCall String FileStorageProvider.Dict),
    Meets (step []) (NoLostUpdate []) (start .empty) calls := by
  intro h
  let grain : GrainId := ⟨"Counter", "c1"⟩
  let stale : ClientCall String FileStorageProvider.Dict :=
    ⟨"first", grain, .write [("value", 3)] (some "1")⟩
  have hmeets := h [⟨"first", grain, .write [("value", 1)] none⟩, ⟨"second", grain, .clear none⟩,
    ⟨"second", grain, .write [("value", 2)] none⟩, stale]
  have hlost := (((hmeets.2 _ rfl).2 _ rfl).2 _ rfl).1
  let row : GrainRow FileStorageProvider.Dict := ⟨"Counter", "c1", [("value", 2)], 1⟩
  have hrow : GrainStates.row (Table.empty.put row) grain = some row := rfl
  have hnumber : stale.call.expectedEtag = some (toString row.etag) := rfl
  obtain ⟨answer, hok⟩ := GrainStates.answer_of_number [] hnumber hrow
  have hunchanged := hlost "1" answer rfl hok (by decide)
  revert hunchanged
  decide

end GrainClients

end Pyleans
