import Pyleans.Library.Versioned
import Pyleans.Membership.PostgresMembership

namespace Pyleans

open Library

/-- What the provider stores: the row's id is that of its address, its status has a name. -/
structure PgRow.WellFormed (row : PgRow) : Prop where
  siloId : row.siloId = (SiloAddress.mk row.host row.port row.epoch).siloId
  status : ∃ s : SiloStatus, row.status = s.value

theorem PgRow.wellFormed_pgRow (cluster : String) (silo : SiloInfo) (n : ℤ) :
    (pgRow cluster silo n).WellFormed :=
  ⟨rfl, silo.status, rfl⟩

theorem PgRow.WellFormed.set {row : PgRow} (h : row.WellFormed) (silo : SiloInfo) :
    (row.set silo).WellFormed :=
  ⟨h.siloId, silo.status, rfl⟩

theorem PgRow.WellFormed.addSuspicion {row : PgRow} (h : row.WellFormed) (vote : SuspicionVote) :
    (row.addSuspicion vote).WellFormed := ⟨h.siloId, h.status⟩

theorem PgRow.WellFormed.rowToSilo {row : PgRow} (h : row.WellFormed) :
    ∃ silo, rowToSilo row = .ok silo := by
  obtain ⟨s, hs⟩ := h.status
  simp only [Pyleans.rowToSilo, hs, ofValue_value, Except.ok.injEq, exists_eq']

/-- A silo tells which row it was read from. -/
theorem rowToSilo_inj {row row' : PgRow} {silo : SiloInfo} (h : row.WellFormed)
    (h' : row'.WellFormed) (hs : rowToSilo row = .ok silo) (hs' : rowToSilo row' = .ok silo) :
    row = row' := by
  obtain ⟨s, hstatus⟩ := h.status
  obtain ⟨s', hstatus'⟩ := h'.status
  simp only [rowToSilo, hstatus, ofValue_value] at hs
  simp only [rowToSilo, hstatus', ofValue_value] at hs'
  obtain rfl := Except.ok.inj hs
  have hsilo := Except.ok.inj hs'
  simp only [SiloInfo.mk.injEq, SiloAddress.mk.injEq, Option.some.injEq, toString_inj] at hsilo
  obtain ⟨⟨hhost, hport, hepoch⟩, rfl, hbeat, hstart, hcluster, hgateway, -, halive,
    hvotes, hetag⟩ := hsilo
  have hid : row.siloId = row'.siloId := by rw [h.siloId, h'.siloId, hhost, hport, hepoch]
  have hvalue : row.status = row'.status := hstatus.trans hstatus'.symm
  cases row
  cases row'
  simp_all

theorem mapM_cons_ok {row : PgRow} {rows : List PgRow} {silos : List SiloInfo} :
    (row :: rows).mapM rowToSilo = .ok silos ↔
      ∃ silo rest, rowToSilo row = .ok silo ∧ rows.mapM rowToSilo = .ok rest ∧
        silos = silo :: rest := by
  rw [List.mapM_cons]
  cases hrow : rowToSilo row with
  | error e => exact iff_of_false (fun h ↦ by cases h) (fun ⟨_, _, h, _⟩ ↦ by cases h)
  | ok silo =>
    cases hrows : rows.mapM rowToSilo with
    | error e => exact iff_of_false (fun h ↦ by cases h) (fun ⟨_, _, _, h, _⟩ ↦ by cases h)
    | ok rest =>
      constructor
      · intro h
        exact ⟨silo, rest, rfl, rfl, (Except.ok.inj h).symm⟩
      · rintro ⟨silo', rest', h, h', rfl⟩
        obtain rfl := Except.ok.inj h
        obtain rfl := Except.ok.inj h'
        rfl

theorem mapM_rowToSilo {rows : List PgRow} (h : ∀ row ∈ rows, row.WellFormed) :
    ∃ silos, rows.mapM rowToSilo = .ok silos := by
  induction rows with
  | nil => exact ⟨[], rfl⟩
  | cons row rows ih =>
    obtain ⟨silo, hsilo⟩ := (h row List.mem_cons_self).rowToSilo
    obtain ⟨silos, hsilos⟩ := ih fun r hr ↦ h r (List.mem_cons_of_mem row hr)
    exact ⟨silo :: silos, mapM_cons_ok.mpr ⟨silo, silos, hsilo, hsilos, rfl⟩⟩

theorem mapM_rowToSilo_inj {rows rows' : List PgRow} {silos : List SiloInfo}
    (h : ∀ row ∈ rows, row.WellFormed) (h' : ∀ row ∈ rows', row.WellFormed)
    (hs : rows.mapM rowToSilo = .ok silos) (hs' : rows'.mapM rowToSilo = .ok silos) :
    rows = rows' := by
  induction rows generalizing rows' silos with
  | nil =>
    obtain rfl : [] = silos := Except.ok.inj hs
    cases rows' with
    | nil => rfl
    | cons row' rows' =>
      obtain ⟨_, _, -, -, hnil⟩ := mapM_cons_ok.mp hs'
      cases hnil
  | cons row rows ih =>
    obtain ⟨silo, rest, hsilo, hrest, rfl⟩ := mapM_cons_ok.mp hs
    cases rows' with
    | nil => cases Except.ok.inj hs'
    | cons row' rows' =>
      obtain ⟨silo', rest', hsilo', hrest', heq⟩ := mapM_cons_ok.mp hs'
      obtain ⟨rfl, rfl⟩ := List.cons.inj heq
      obtain ⟨hrow, hrows⟩ := List.forall_mem_cons.mp h
      obtain ⟨hrow', hrows'⟩ := List.forall_mem_cons.mp h'
      rw [rowToSilo_inj hrow hrow' hsilo hsilo', ih hrows hrows' hrest hrest']

theorem snapshot_ok {rows : List PgRow} {version : ℤ} {s : MembershipSnapshot} :
    PgDatabase.snapshot rows version = .ok s ↔ rows.mapM rowToSilo = .ok s.silos ∧
      s.version = version := by
  rw [PgDatabase.snapshot]
  cases rows.mapM rowToSilo with
  | error e => exact iff_of_false (fun h ↦ by cases h) (fun h ↦ by cases h.1)
  | ok silos =>
    constructor
    · intro h
      obtain rfl := Except.ok.inj h
      exact ⟨rfl, rfl⟩
    · rintro ⟨h, rfl⟩
      obtain rfl := Except.ok.inj h
      rfl

abbrev Transaction := String × MembershipCall

namespace PgDatabase

def created : PgDatabase := ⟨.empty, .empty⟩

/-- A transaction as a whole: nobody sees anything of it before it commits. -/
def commit (db : PgDatabase) (t : Transaction) : PgDatabase := (db.answer t.1 t.2).2

def run (history : List Transaction) : PgDatabase := history.foldl commit created

def WellFormed (db : PgDatabase) : Prop := ∀ row ∈ db.membership.items, row.WellFormed

/-- What a successful transaction makes of the rows. -/
inductive Writes (cluster : String) (t : Table PgRow.key) : Table PgRow.key → Prop
  | insert (silo : SiloInfo) (hnone : t.get (cluster, silo.siloId) = none) :
      Writes cluster t (t.put (pgRow cluster silo 1))
  | set (silo : SiloInfo) (n : ℤ) :
      Writes cluster t (t.updateWhere (expected cluster silo.siloId n) (PgRow.set silo)
        (fun _ ↦ rfl)).2
  | addSuspicion (siloId : String) (n : ℤ) (vote : SuspicionVote) :
      Writes cluster t (t.updateWhere (expected cluster siloId n) (PgRow.addSuspicion vote)
        (fun _ ↦ rfl)).2
  | delete (siloId : String) (n : ℤ) :
      Writes cluster t (t.deleteWhere (expected cluster siloId n)).2

section

variable {cluster : String} {db : PgDatabase} {t t' : Table PgRow.key}

theorem commit_cases (db : PgDatabase) (cluster : String) (c : MembershipCall) :
    db.commit (cluster, c) = db ∨
      ∃ t, Writes cluster db.membership t ∧
        db.commit (cluster, c) = bumpVersion cluster { db with membership := t } := by
  cases c with
  | readAll => exact .inl rfl
  | tryUpdateSilo silo =>
    by_cases hdated : Dated silo
    swap
    · left
      simp only [commit, answer, tryUpdateSilo, upsertSilo, if_neg hdated, Except.map]
    cases he : silo.etag with
    | none =>
      cases hget : db.membership.get (cluster, silo.siloId) with
      | none =>
        refine .inr ⟨_, .insert silo hget, ?_⟩
        have hinsert := Table.insert_of_get_none (t := db.membership)
          (v := pgRow cluster silo 1) hget
        simp only [commit, answer, tryUpdateSilo, upsertSilo, if_pos hdated, he,
          hinsert, Except.map]
      | some row =>
        left
        have hinsert := Table.insert_of_get_some (t := db.membership)
          (v := pgRow cluster silo 1) hget
        simp only [commit, answer, tryUpdateSilo, upsertSilo, if_pos hdated, he,
          hinsert, Except.map]
    | some etag =>
      cases hn : pgInt (some etag) with
      | error e =>
        left
        simp only [commit, answer, tryUpdateSilo, upsertSilo, if_pos hdated, he, hn,
          Except.bind, Except.map]
      | ok n =>
        cases hupdate : db.membership.updateWhere (expected cluster silo.siloId n) (PgRow.set silo)
          (fun _ ↦ rfl) with
        | mk rows membership =>
          cases rows with
          | nil =>
            left
            simp only [commit, answer, tryUpdateSilo, upsertSilo, if_pos hdated, he, hn,
              Except.bind, hupdate, Except.map]
          | cons row rows =>
            refine .inr ⟨_, .set silo n, ?_⟩
            simp only [commit, answer, tryUpdateSilo, upsertSilo, if_pos hdated, he, hn,
              Except.bind, hupdate, Except.map]
  | tryAddSuspicion siloId vote etag =>
    cases hn : pgInt etag with
    | error e =>
      left
      simp only [commit, answer, tryAddSuspicion, hn, Except.bind]
    | ok n =>
      cases hupdate :
          db.membership.updateWhere (expected cluster siloId n) (PgRow.addSuspicion vote)
            (fun _ ↦ rfl) with
      | mk rows membership =>
        cases rows with
        | nil =>
          left
          simp only [commit, answer, tryAddSuspicion, hn, Except.bind, hupdate]
        | cons row rows =>
          refine .inr ⟨_, .addSuspicion siloId n vote, ?_⟩
          simp only [commit, answer, tryAddSuspicion, hn, Except.bind, hupdate]
  | tryDeleteSilo silo =>
    cases he : silo.etag with
    | none =>
      left
      simp only [commit, answer, tryDeleteSilo, he, if_true, Option.getD_none]
    | some etag =>
      cases hn : pgInt (some etag) with
      | error e =>
        left
        simp only [commit, answer, tryDeleteSilo, he, reduceCtorEq, if_false, hn, Except.bind]
      | ok n =>
        cases hdelete : db.membership.deleteWhere (expected cluster silo.siloId n) with
        | mk rows membership =>
          cases rows with
          | nil =>
            left
            simp only [commit, answer, tryDeleteSilo, he, reduceCtorEq, if_false, hn,
              Except.bind, hdelete]
          | cons row rows =>
            refine .inr ⟨_, .delete silo.siloId n, ?_⟩
            simp only [commit, answer, tryDeleteSilo, he, reduceCtorEq, if_false, hn, Except.bind,
              hdelete, Option.getD_some]

theorem clusterId_of_expected {siloId : String} {n : ℤ} {row : PgRow}
    (h : expected cluster siloId n row = true) :
    row.clusterId = cluster := by
  rw [expected, Bool.and_eq_true, decide_eq_true_eq] at h
  exact congrArg Prod.fst h.1

/-- Statements name their cluster in their conditions. -/
theorem Writes.other {other : String} (h : Writes cluster t t') (hne : cluster ≠ other) :
    t'.items.filter (fun row ↦ decide (row.clusterId = other)) =
      t.items.filter (fun row ↦ decide (row.clusterId = other)) := by
  have hmiss : ∀ siloId n row, expected cluster siloId n row = true →
    decide (row.clusterId = other) = false := by
    intro siloId n row hrow
    rw [clusterId_of_expected hrow]
    exact decide_eq_false hne
  cases h with
  | insert silo hnone => exact Table.filter_put_new hnone (decide_eq_false hne)
  | set silo n =>
    exact Table.filter_updateWhere _ _ fun row hrow ↦
      ⟨hmiss silo.siloId n row hrow, hmiss silo.siloId n row hrow⟩
  | addSuspicion siloId n vote =>
    exact Table.filter_updateWhere _ _ fun row hrow ↦
      ⟨hmiss siloId n row hrow, hmiss siloId n row hrow⟩
  | delete siloId n => exact Table.filter_deleteWhere fun row hrow ↦ hmiss siloId n row hrow

theorem Writes.wellFormed (h : Writes cluster t t') (hall : ∀ row ∈ t.items, row.WellFormed) :
    ∀ row ∈ t'.items, row.WellFormed := by
  cases h with
  | insert silo hnone => exact Table.forall_put hall (PgRow.wellFormed_pgRow cluster silo 1)
  | set silo n => exact Table.forall_updateWhere _ _ hall fun row hrow ↦ hrow.set silo
  | addSuspicion siloId n vote =>
    exact Table.forall_updateWhere _ _ hall fun row hrow ↦ hrow.addSuspicion vote
  | delete siloId n => exact Table.forall_deleteWhere hall

theorem readVersion_bumpVersion_of_ne {other : String} (hne : cluster ≠ other) :
    (db.bumpVersion cluster).readVersion other = db.readVersion other := by
  have hput : ∀ n : ℤ, (db.versions.put (cluster, n)).get other = db.versions.get other := by
    intro n
    rw [Table.get_put, if_neg hne.symm]
  cases hget : db.versions.get cluster <;> simp only [bumpVersion, hget, readVersion, hput]

/-- The version of a cluster counts the changes of its rows. -/
theorem versioned (cluster : String) :
    Versioned commit WellFormed (readVersion cluster) (selectAll cluster) := by
  intro db ⟨writer, c⟩ hall
  rcases commit_cases db writer c with hsame | ⟨t, hwrites, hcommit⟩
  · rw [hsame]
    exact ⟨hall, .inl ⟨rfl, rfl⟩⟩
  · rw [hcommit]
    refine ⟨?_, ?_⟩
    · rw [WellFormed, bumpVersion_membership]
      exact hwrites.wellFormed hall
    · by_cases hwriter : writer = cluster
      · subst hwriter
        right
        rw [readVersion_bumpVersion]
        exact lt_add_one (db.readVersion writer)
      · left
        rw [readVersion_bumpVersion_of_ne hwriter, selectAll, selectAll, bumpVersion_membership]
        exact ⟨rfl, hwrites.other hwriter⟩

theorem created_wellFormed : created.WellFormed := fun _ h ↦ absurd h List.not_mem_nil

theorem wellFormed_of_perm {history : List Transaction} {rows : List PgRow}
    (h : rows.Perm ((run history).selectAll cluster)) : ∀ row ∈ rows, row.WellFormed := by
  intro row hrow
  have hall := (versioned cluster).invariant created_wellFormed history
  exact hall row (List.mem_of_mem_filter (h.mem_iff.mp hrow))

/-- The snapshot shows the whole table of the cluster under its version. -/
def HeldAt (cluster : String) (db : PgDatabase) (s : MembershipSnapshot) : Prop :=
  ∃ rows, rows.Perm (db.selectAll cluster) ∧ snapshot rows (db.readVersion cluster) = .ok s

/-- `read_all` among the transactions of all silos: its first statement runs
after those of `before`, its second after those of `between` as well, and the
server returns the rows in any order. -/
theorem snapshot_consistent_iff (cluster : String) (before between after : List Transaction)
    (rows : List PgRow) (hrows : rows.Perm ((run before).selectAll cluster)) :
    ∃ s, snapshot rows ((run (before ++ between)).readVersion cluster) = .ok s ∧
      ((∃ history, history <+: before ++ between ++ after ∧ (run history).HeldAt cluster s) ↔
        ((run (before ++ between)).selectAll cluster).Perm ((run before).selectAll cluster)) := by
  obtain ⟨silos, hsilos⟩ := mapM_rowToSilo (wellFormed_of_perm hrows)
  refine ⟨⟨(run (before ++ between)).readVersion cluster, silos⟩, snapshot_ok.mpr ⟨hsilos, rfl⟩, ?_⟩
  constructor
  · rintro ⟨history, hprefix, rows', hrows', hsnapshot⟩
    obtain ⟨hsilos', hversion⟩ := snapshot_ok.mp hsnapshot
    have hsame : (run history).selectAll cluster = (run (before ++ between)).selectAll cluster :=
      (versioned cluster).content_eq created_wellFormed hprefix
        (List.prefix_append _ after) hversion.symm
    have heq := mapM_rowToSilo_inj (wellFormed_of_perm hrows)
      (wellFormed_of_perm hrows') hsilos hsilos'
    rw [← hsame]
    exact hrows'.symm.trans (heq ▸ hrows)
  · intro hunchanged
    exact ⟨before ++ between, List.prefix_append _ after, rows, hrows.trans hunchanged.symm,
      snapshot_ok.mpr ⟨hsilos, rfl⟩⟩

end

def registerA : Transaction := ("dev", .tryUpdateSilo (rowA none))

def registerB : Transaction := ("dev", .tryUpdateSilo { rowA none with address := siloB })

theorem snapshot_consistent_twoSilos :
    ∃ s, snapshot [pgRow "dev" (rowA none) 1] ((run ([registerA] ++ [])).readVersion "dev") =
      .ok s ∧
      ((∃ history, history <+: [registerA] ++ [] ++ [registerB] ∧ (run history).HeldAt "dev" s) ↔
        ((run ([registerA] ++ [])).selectAll "dev").Perm ((run [registerA]).selectAll "dev")) :=
  snapshot_consistent_iff "dev" [registerA] [] [registerB] [pgRow "dev" (rowA none) 1] (.of_eq rfl)

/-- A silo registers between the two statements: the snapshot has its version and not its row. -/
theorem torn_snapshot : ¬ ∀ cluster before between after (rows : List PgRow),
    rows.Perm ((run before).selectAll cluster) →
      ∃ s, snapshot rows ((run (before ++ between)).readVersion cluster) = .ok s ∧
        ∃ history, history <+: before ++ between ++ after ∧ (run history).HeldAt cluster s := by
  intro h
  obtain ⟨s, hs, history, hprefix, rows, hrows, hheld⟩ :=
    h "dev" [registerA] [registerB] [] [pgRow "dev" (rowA none) 1] (.of_eq rfl)
  obtain ⟨hsilos, hversion⟩ := snapshot_ok.mp hs
  obtain ⟨hsilos', hversion'⟩ := snapshot_ok.mp hheld
  have hall : ∀ history ∈ [registerA, registerB].inits, (run history).readVersion "dev" = 2 →
      ((run history).selectAll "dev").length = 2 := by decide
  have hlength := hall history ((List.mem_inits history _).mpr hprefix)
    (hversion'.symm.trans hversion)
  have hrowA : [pgRow "dev" (rowA none) 1].Perm ((run [registerA]).selectAll "dev") := .of_eq rfl
  have heq := mapM_rowToSilo_inj (wellFormed_of_perm hrowA)
    (wellFormed_of_perm hrows) hsilos hsilos'
  rw [← hrows.length_eq, ← heq] at hlength
  exact absurd hlength (by decide)

end PgDatabase

end Pyleans
