import Pyleans.Library.Locality
import Pyleans.Storage.FileStorage

namespace Pyleans

open Library

/-- A call of the file provider with the etag that a write draws and the
`OSError`s that it meets. -/
structure FileCall (State Bytes : Type) where
  grain : GrainId
  call : StorageCall State String
  uuid : String
  os : OsErrors Bytes

namespace FileStorageProvider

variable {State Bytes : Type} (p : FileStorageProvider State Bytes)

def perform (files : Files Bytes) (c : FileCall State Bytes) : Files Bytes :=
  match c.call with
  | .read => files
  | .write state expectedEtag => (p.write files c.grain state expectedEtag c.uuid c.os).2
  | .clear expectedEtag => (p.clear files c.grain expectedEtag c.os).2

def after (files : Files Bytes) (calls : List (FileCall State Bytes)) : Files Bytes :=
  calls.foldl p.perform files

/-- The bytes that a write leaves in its file, whether it succeeds or not. -/
def leaves (c : FileCall State Bytes) : Option Bytes :=
  match c.call with
  | .write state _ =>
    match c.os.writeBytes with
    | none => p.orjson.dumps c.uuid state
    | some left => left
  | _ => none

/-- No call about `writer` has an effect on what a read of `reader` returns, and
the data it returns was left by a write of another grain than `writer`. -/
structure Isolated (writer reader : GrainId) : Prop where
  unchanged : ∀ files calls os, p.read (p.after files calls) reader os =
    p.read (p.after files (calls.filter fun c ↦ c.grain ≠ writer)) reader os
  foreign : ∀ calls os state etag, p.read (p.after .empty calls) reader os =
    .ok (state, some etag) →
    ∃ c ∈ calls, c.grain ≠ writer ∧
      ∃ bytes, p.leaves c = some bytes ∧ p.orjson.loads bytes = some (some state, some etag)

/-- The two grains share a file: sanitising makes their types and their keys
equal, as far as the file system tells names apart. -/
def SameFile (a b : GrainId) : Prop :=
  (a.grainType ≠ "" ∧ a.key ≠ "") ∧ (b.grainType ≠ "" ∧ b.key ≠ "") ∧
    p.fold (safeName a.grainType) = p.fold (safeName b.grainType) ∧
    p.fold (safeName a.key ++ ".json") = p.fold (safeName b.key ++ ".json")

section

variable {p} {grain writer reader : GrainId}

theorem sameFile_iff : p.SameFile writer reader ↔ ∃ k, p.file writer = some k ∧
    p.file reader = some k := by
  simp only [file_eq_some, grainPath_eq_ok]
  constructor
  · rintro ⟨⟨ht, hk⟩, ⟨ht', hk'⟩, htype, hkey⟩
    refine ⟨_, ⟨_, ⟨ht, hk, rfl⟩, rfl⟩, ⟨_, ⟨ht', hk', rfl⟩, ?_⟩⟩
    simp only [locate, List.map_append, List.map_cons, htype, hkey]
  · rintro ⟨k, ⟨_, ⟨ht, hk, rfl⟩, rfl⟩, ⟨_, ⟨ht', hk', rfl⟩, h⟩⟩
    simp only [locate, List.map_append, List.map_cons, List.map_nil, List.append_cancel_left_eq,
      List.cons.injEq, and_true] at h
    exact ⟨⟨ht, hk⟩, ⟨ht', hk'⟩, h.1.symm, h.2.symm⟩

theorem read_data {files : Files Bytes} {os : OsErrors Bytes} {state : State} {etag : String}
    (h : p.read files grain os = .ok (state, some etag)) : ∃ k bytes, p.file grain = some k ∧
      files.get k = some (k, bytes) ∧ p.orjson.loads bytes = some (some state, some etag) := by
  cases hpath : p.grainPath grain with
  | error e =>
    simp only [read, hpath, Except.bind] at h
    cases h
  | ok path =>
    cases hget : files.get (p.locate path) with
    | none =>
      simp only [read, hpath, Except.bind, hget] at h
      split_ifs at h
      cases h
    | some entry =>
      obtain ⟨k, bytes⟩ := entry
      obtain rfl : k = p.locate path := Table.key_of_get hget
      simp only [read, hpath, Except.bind, hget] at h
      split_ifs at h
      split at h
      · rename_i hloads
        obtain ⟨rfl, heq⟩ := Prod.mk.inj (Except.ok.inj h)
        obtain rfl := Option.some.inj heq
        exact ⟨p.locate path, bytes, file_eq_some.mpr ⟨path, hpath, rfl⟩, hget, hloads⟩
      · cases h

/-- A call touches the file of its grain only, and sees no other. -/
theorem perform_local (p : FileStorageProvider State Bytes) :
    Local p.perform (fun c ↦ p.file c.grain) (fun files k ↦ files.get k) where
  elsewhere files c k hk := by
    obtain ⟨grain, call, uuid, os⟩ := c
    have hne : ∀ path, p.grainPath grain = .ok path → k ≠ p.locate path := by
      rintro path hpath rfl
      exact hk (file_eq_some.mpr ⟨path, hpath, rfl⟩)
    cases call with
    | read => rfl
    | write state expectedEtag =>
      rcases write_cases (p := p) files grain state expectedEtag uuid os with hsame
        | ⟨path, bytes, hpath, hput, -⟩
      · simp only [perform, hsame]
      · simp only [perform, hput, Table.get_put, hne path hpath, if_false]
    | clear expectedEtag =>
      rcases clear_cases (p := p) files grain expectedEtag os with hsame | ⟨path, hpath, hpop⟩
      · simp only [perform, hsame]
      · simp only [perform, hpop, Table.get_pop, hne path hpath, if_false]
  here files files' c k hk h := by
    obtain ⟨path, hpath, rfl⟩ := file_eq_some.mp hk
    obtain ⟨grain, call, uuid, os⟩ := c
    cases call with
    | read => exact h
    | write state expectedEtag => exact write_congr hpath h
    | clear expectedEtag => exact clear_congr hpath h

theorem perform_leaves (files : Files Bytes) (c : FileCall State Bytes) {k : List String} :
    (p.perform files c).get k = files.get k ∨
      ∀ bytes, (p.perform files c).get k = some (k, bytes) → p.leaves c = some bytes := by
  obtain ⟨grain, call, uuid, os⟩ := c
  cases call with
  | read => exact .inl rfl
  | write state expectedEtag =>
    rcases write_cases (p := p) files grain state expectedEtag uuid os with hsame
      | ⟨path, bytes, -, hput, hleft⟩
    · left
      simp only [perform, hsame]
    · by_cases hk : k = p.locate path
      · right
        intro bytes' hbytes'
        simp only [perform, hput, Table.get_put, hk, if_true] at hbytes'
        obtain rfl := (Prod.mk.inj (Option.some.inj hbytes')).2
        rcases hleft with ⟨hnone, hdumps⟩ | hsome
        · simp only [leaves, hnone, hdumps]
        · simp only [leaves, hsome]
      · left
        simp only [perform, hput, Table.get_put, hk, if_false]
  | clear expectedEtag =>
    rcases clear_cases (p := p) files grain expectedEtag os with hsame | ⟨path, -, hpop⟩
    · left
      simp only [perform, hsame]
    · by_cases hk : k = p.locate path
      · right
        intro bytes hbytes
        simp only [perform, hpop, Table.get_pop, hk, if_true] at hbytes
        cases hbytes
      · left
        simp only [perform, hpop, Table.get_pop, hk, if_false]

theorem isolated_of_not_sameFile (h : ¬ p.SameFile writer reader) : p.Isolated writer reader := by
  have hdrop : ∀ k, p.file reader = some k → ∀ c : FileCall State Bytes,
      decide (c.grain ≠ writer) = false → p.file c.grain ≠ some k := by
    intro k hk c hc hfile
    rw [decide_eq_false_iff_not, not_not] at hc
    exact h (sameFile_iff.mpr ⟨k, hc ▸ hfile, hk⟩)
  constructor
  · intro files calls os
    cases hpath : p.grainPath reader with
    | error e => simp only [read, hpath, Except.bind]
    | ok path =>
      apply read_congr hpath
      have hk : p.file reader = some (p.locate path) := file_eq_some.mpr ⟨path, hpath, rfl⟩
      exact (perform_local p).purge (hdrop _ hk) files calls
  · intro calls os state etag hread
    obtain ⟨k, bytes, hk, hget, hloads⟩ := read_data hread
    rw [after] at hget
    have horigin := (perform_local p).origin (k := k)
      (M := fun c v ↦ ∀ bytes, v = some (k, bytes) → p.leaves c = some bytes)
      (s := .empty) (fun files c _ ↦ perform_leaves files c) calls
    rcases horigin with hnone | ⟨c, hc, hplace, hmark⟩
    · rw [hget] at hnone
      cases hnone
    · refine ⟨c, hc, ?_, bytes, hmark bytes hget, hloads⟩
      rintro rfl
      exact h (sameFile_iff.mpr ⟨k, hplace, hk⟩)

/-- For any two grains. A file system that knows every name apart has `fold = id`. -/
theorem isolated_iff (p : FileStorageProvider State Bytes) (hjson : p.orjson.ReadsBack)
    (hempty : ∀ etag, (p.orjson.dumps etag p.orjson.emptyDict).isSome) (writer reader : GrainId) :
    p.Isolated writer reader ↔ ¬ p.SameFile writer reader := by
  refine ⟨fun hisolated hsame ↦ ?_, isolated_of_not_sameFile⟩
  obtain ⟨k, hwriter, hreader⟩ := sameFile_iff.mp hsame
  obtain ⟨path, hpath, rfl⟩ := file_eq_some.mp hwriter
  obtain ⟨path', hpath', hlocate⟩ := file_eq_some.mp hreader
  obtain ⟨bytes, hdumps⟩ := Option.isSome_iff_exists.mp (hempty "e")
  have hunchanged := hisolated.unchanged .empty
    [⟨writer, .write p.orjson.emptyDict none, "e", .none⟩] .none
  have hwrite : p.after .empty [⟨writer, .write p.orjson.emptyDict none, "e", .none⟩] =
      (Table.empty.put (p.locate path, bytes) : Files Bytes) := by
    simp only [after, List.foldl_cons, List.foldl_nil, perform,
      write_ok hpath checkEtag_none hdumps]
  have hpurged :
    [(⟨writer, .write p.orjson.emptyDict none, "e", .none⟩ : FileCall State Bytes)].filter
      (fun c ↦ c.grain ≠ writer) = [] := List.filter_cons_of_neg (by simp)
  have hread : p.read (Table.empty.put (p.locate path, bytes)) reader .none =
    .ok (p.orjson.emptyDict, some "e") := by
    refine read_ok hpath' ?_ (hjson _ _ _ hdumps)
    rw [hlocate]
    exact Table.get_put_self _ _
  have hnone : p.read .empty reader .none = .ok (p.orjson.emptyDict, none) := by
    simp only [read, hpath', Except.bind, OsErrors.none, Bool.false_eq_true, if_false,
      Table.get_empty]
  rw [hwrite, hread, hpurged] at hunchanged
  cases hunchanged.trans hnone

end

theorem isolated_iff_dashAndDot :
    posix.Isolated ⟨"Counter", "a-b"⟩ ⟨"Counter", "a.b"⟩ ↔
      ¬ posix.SameFile ⟨"Counter", "a-b"⟩ ⟨"Counter", "a.b"⟩ :=
  isolated_iff posix documents_readsBack (fun _ ↦ rfl) ⟨"Counter", "a-b"⟩ ⟨"Counter", "a.b"⟩

/-- `a.b` and `a/b` both go to `a_b.json`. -/
theorem dot_and_slash_share : ¬ ∀ (p : FileStorageProvider Dict (Option Dict × Option String)),
    p.orjson.ReadsBack →
    ∀ writer reader, writer ≠ reader → p.Isolated writer reader := by
  intro h
  have hisolated := h posix documents_readsBack ⟨"Counter", "a.b"⟩ ⟨"Counter", "a/b"⟩ (by decide)
  have hunchanged := hisolated.unchanged .empty
    [⟨⟨"Counter", "a.b"⟩, .write [("value", 42)] none, "e", .none⟩] .none
  have hread : posix.read
    (posix.after .empty [⟨⟨"Counter", "a.b"⟩, .write [("value", 42)] none, "e", .none⟩])
      ⟨"Counter", "a/b"⟩ .none = .ok ([("value", 42)], some "e") := by decide
  have hnone : posix.read .empty ⟨"Counter", "a/b"⟩ .none = .ok ([], none) := by decide
  cases hread.symm.trans (hunchanged.trans hnone)

end FileStorageProvider

end Pyleans
