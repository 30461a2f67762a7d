import Pyleans.Identity
import Pyleans.Library.Table

namespace Pyleans

open Library

/-- What the message of a `StorageError` says. -/
inductive StorageReason
  | emptyComponent (value : String)
  | pathTraversal (grain : GrainId)
  | failedToRead (grain : GrainId)
  | failedToWrite (grain : GrainId)
  | failedToClear (grain : GrainId)
  | failedToReadEtag
deriving DecidableEq

/-- `OSError` and `TypeError` come from the file system and from `orjson.dumps`
and leave the provider as they are. -/
inductive StorageError
  | storage (reason : StorageReason)
  | inconsistency (expected actual : Option String)
  | osError
  | typeError
  | valueError
deriving DecidableEq

/-- A call of a storage provider about one grain. -/
inductive StorageCall (State Etag : Type)
  | read
  | write (state : State) (expectedEtag : Option Etag)
  | clear (expectedEtag : Option Etag)

/-- `orjson` on documents `{"etag": …, "state": …}`. A document that is read
may lack a key. -/
structure Orjson (State Bytes : Type) where
  emptyDict : State
  dumps : String → State → Option Bytes
  loads : Bytes → Option (Option State × Option String)

/-- `orjson.loads` reads back what `orjson.dumps` has written. -/
def Orjson.ReadsBack {State Bytes : Type} (j : Orjson State Bytes) : Prop :=
  ∀ etag state bytes, j.dumps etag state = some bytes → j.loads bytes = some (some state, some etag)

/-- The calls of the file system that fail during one call of the provider.
A `write_bytes` that fails may have left other bytes in the file. -/
structure OsErrors (Bytes : Type) where
  stat : Bool
  statAgain : Bool
  readBytes : Bool
  mkdir : Bool
  writeBytes : Option (Option Bytes)
  unlink : Bool

def OsErrors.none {Bytes : Type} : OsErrors Bytes :=
  ⟨false, false, false, false, Option.none, false⟩

/-- The files below the base directory. -/
abbrev Files (Bytes : Type) := Table (Prod.fst : List String × Bytes → List String)

/-- The provider on a file system that takes two names for one file when `fold`
makes them equal: the identity, or a folding of case. -/
structure FileStorageProvider (State Bytes : Type) where
  basePath : List String
  orjson : Orjson State Bytes
  fold : String → String

def isSafe (c : Char) : Bool := c.isAlphanum || c == '_' || c == '-'

def safeName (value : String) : String :=
  String.ofList (value.toList.map fun c ↦ if isSafe c then c else '_')

def sanitizePathComponent (value : String) : Except StorageError String :=
  let sanitized := safeName value
  if sanitized = "" then .error (.storage (.emptyComponent value)) else .ok sanitized

def strPath : List String → List Char
  | [] => ['/']
  | path => path.flatMap fun name ↦ '/' :: name.toList

namespace FileStorageProvider

variable {State Bytes : Type} (p : FileStorageProvider State Bytes)

/-- No component is `..` and there are no links, so `resolve()` changes nothing. -/
def grainPath (grain : GrainId) : Except StorageError (List String) :=
  (sanitizePathComponent grain.grainType).bind fun safeType ↦
    (sanitizePathComponent grain.key).bind fun safeKey ↦
      let path := p.basePath ++ [safeType, safeKey ++ ".json"]
      if strPath p.basePath <+: strPath path then .ok path
      else .error (.storage (.pathTraversal grain))

def locate (path : List String) : List String := path.map p.fold

def file (grain : GrainId) : Option (List String) :=
  match p.grainPath grain with
  | .error _ => none
  | .ok path => some (p.locate path)

def read (files : Files Bytes) (grain : GrainId) (os : OsErrors Bytes) :
    Except StorageError (State × Option String) :=
  (p.grainPath grain).bind fun path ↦
    if os.stat then .error .osError
    else
      match files.get (p.locate path) with
      | none => .ok (p.orjson.emptyDict, none)
      | some bytes =>
        if os.readBytes then .error (.storage (.failedToRead grain))
        else
          match p.orjson.loads bytes.2 with
          | some (some state, some etag) => .ok (state, some etag)
          | _ => .error (.storage (.failedToRead grain))

/-- `stat` tells whether the `path.exists()` of the check itself fails. -/
def checkEtag (files : Files Bytes) (path : List String) (expectedEtag : Option String)
    (stat readBytes : Bool) :
    Except StorageError Unit :=
  if expectedEtag = none then .ok ()
  else if stat then .error .osError
  else
    match files.get (p.locate path) with
    | none => .ok ()
    | some bytes =>
      if readBytes then .error (.storage .failedToReadEtag)
      else
        match p.orjson.loads bytes.2 with
        | some (_, some actual) =>
          if some actual ≠ expectedEtag then .error (.inconsistency expectedEtag (some actual))
          else .ok ()
        | _ => .error (.storage .failedToReadEtag)

def write (files : Files Bytes) (grain : GrainId) (state : State) (expectedEtag : Option String)
    (uuid : String) (os : OsErrors Bytes) : Except StorageError String × Files Bytes :=
  match (p.grainPath grain).bind fun path ↦
      (p.checkEtag files path expectedEtag os.stat os.readBytes).map fun _ ↦ p.locate path with
  | .error e => (.error e, files)
  | .ok file =>
    if os.mkdir then (.error (.storage (.failedToWrite grain)), files)
    else
      match p.orjson.dumps uuid state, os.writeBytes with
      | none, _ => (.error .typeError, files)
      | some bytes, none => (.ok uuid, files.put (file, bytes))
      | some _, some none => (.error (.storage (.failedToWrite grain)), files)
      | some _, some (some left) =>
        (.error (.storage (.failedToWrite grain)), files.put (file, left))

def clear (files : Files Bytes) (grain : GrainId) (expectedEtag : Option String)
    (os : OsErrors Bytes) :
    Except StorageError Unit × Files Bytes :=
  match p.grainPath grain with
  | .error e => (.error e, files)
  | .ok path =>
    if os.stat then (.error .osError, files)
    else
      match files.get (p.locate path) with
      | none => (.ok (), files)
      | some _ =>
        match p.checkEtag files path expectedEtag os.statAgain os.readBytes with
        | .error e => (.error e, files)
        | .ok _ =>
          if os.unlink then (.error (.storage (.failedToClear grain)), files)
          else (.ok (), files.pop (p.locate path))

section

variable {p} {grain : GrainId} {path : List String} {files files' : Files Bytes} {state : State}
  {expectedEtag : Option String} {uuid : String} {os : OsErrors Bytes}

theorem safeName_eq_empty {value : String} : safeName value = "" ↔ value = "" := by
  rw [safeName, String.ofList_eq_empty_iff, List.map_eq_nil_iff, String.toList_eq_nil_iff]

theorem strPath_append (base : List String) (type key : String) :
    strPath base <+: strPath (base ++ [type, key]) := by
  cases base with
  | nil => simp [strPath]
  | cons name base =>
    rw [strPath, List.cons_append, strPath, ← List.cons_append, List.flatMap_append]
    · exact List.prefix_append _ _
    · simp
    · simp

theorem sanitizePathComponent_of_ne {value : String} (h : value ≠ "") :
    sanitizePathComponent value = .ok (safeName value) := by
  dsimp only [sanitizePathComponent]
  rw [if_neg (mt safeName_eq_empty.mp h)]

theorem grainPath_of_ne (p : FileStorageProvider State Bytes) (htype : grain.grainType ≠ "")
    (hkey : grain.key ≠ "") :
    p.grainPath grain = .ok
      (p.basePath ++ [safeName grain.grainType, safeName grain.key ++ ".json"]) := by
  simp only [grainPath, sanitizePathComponent_of_ne htype,
    sanitizePathComponent_of_ne hkey, Except.bind]
  rw [if_pos (strPath_append _ _ _)]

/-- The check of the path never fires. -/
theorem grainPath_eq_ok : p.grainPath grain = .ok path ↔ grain.grainType ≠ "" ∧ grain.key ≠ "" ∧
    path = p.basePath ++ [safeName grain.grainType, safeName grain.key ++ ".json"] := by
  constructor
  · intro h
    have htype : grain.grainType ≠ "" := by
      intro hempty
      simp [grainPath, sanitizePathComponent, safeName_eq_empty, hempty, Except.bind] at h
    have hkey : grain.key ≠ "" := by
      intro hempty
      rw [grainPath, sanitizePathComponent_of_ne htype] at h
      simp [sanitizePathComponent, safeName_eq_empty, hempty, Except.bind] at h
    rw [grainPath_of_ne p htype hkey] at h
    exact ⟨htype, hkey, (Except.ok.inj h).symm⟩
  · rintro ⟨htype, hkey, rfl⟩
    exact grainPath_of_ne p htype hkey

theorem grainPath_error {e : StorageError} (h : p.grainPath grain = .error e) :
    ∃ reason, e = .storage reason := by
  by_cases htype : grain.grainType = ""
  · simp only [grainPath, sanitizePathComponent, safeName_eq_empty, htype, if_true, Except.bind]
      at h
    exact ⟨_, (Except.error.inj h).symm⟩
  · by_cases hkey : grain.key = ""
    · rw [grainPath, sanitizePathComponent_of_ne htype] at h
      simp only [sanitizePathComponent, safeName_eq_empty, hkey, if_true, Except.bind] at h
      exact ⟨_, (Except.error.inj h).symm⟩
    · rw [grainPath_of_ne p htype hkey] at h
      cases h

theorem file_eq_some {k : List String} :
    p.file grain = some k ↔ ∃ path, p.grainPath grain = .ok path ∧ p.locate path = k := by
  rw [file]
  cases p.grainPath grain with
  | error e => exact iff_of_false (fun h ↦ by cases h) (fun ⟨_, h, _⟩ ↦ by cases h)
  | ok path => simp

theorem checkEtag_congr {stat readBytes : Bool}
    (h : files.get (p.locate path) = files'.get (p.locate path)) :
    p.checkEtag files path expectedEtag stat readBytes =
      p.checkEtag files' path expectedEtag stat readBytes := by
  rw [checkEtag, checkEtag, h]

theorem read_congr (hpath : p.grainPath grain = .ok path)
    (h : files.get (p.locate path) = files'.get (p.locate path)) : p.read files grain os =
      p.read files' grain os := by
  simp only [read, hpath, Except.bind, h]

theorem write_cases (files : Files Bytes) (grain : GrainId) (state : State)
    (expectedEtag : Option String) (uuid : String) (os : OsErrors Bytes) :
    (p.write files grain state expectedEtag uuid os).2 = files ∨
      ∃ path bytes, p.grainPath grain = .ok path ∧
        (p.write files grain state expectedEtag uuid os).2 = files.put (p.locate path, bytes) ∧
        (os.writeBytes = none ∧ p.orjson.dumps uuid state = some bytes ∨
          os.writeBytes = some (some bytes)) := by
  cases hpath : p.grainPath grain with
  | error e =>
    left
    simp only [write, hpath, Except.bind]
  | ok path =>
    cases hetag : p.checkEtag files path expectedEtag os.stat os.readBytes with
    | error e =>
      left
      simp only [write, hpath, Except.bind, hetag, Except.map]
    | ok _ =>
      cases hmkdir : os.mkdir with
      | true =>
        left
        simp only [write, hpath, Except.bind, hetag, Except.map, hmkdir, if_true]
      | false =>
        cases hdumps : p.orjson.dumps uuid state with
        | none =>
          left
          simp only [write, hpath, Except.bind, hetag, Except.map, hmkdir, Bool.false_eq_true,
            if_false, hdumps]
        | some bytes =>
          cases hwrite : os.writeBytes with
          | none =>
            refine .inr ⟨path, bytes, rfl, ?_, .inl ⟨rfl, rfl⟩⟩
            simp only [write, hpath, Except.bind, hetag, Except.map, hmkdir, Bool.false_eq_true,
              if_false, hdumps, hwrite]
          | some left' =>
            cases left' with
            | none =>
              left
              simp only [write, hpath, Except.bind, hetag, Except.map, hmkdir, Bool.false_eq_true,
                if_false, hdumps, hwrite]
            | some left' =>
              refine .inr ⟨path, left', rfl, ?_, .inr rfl⟩
              simp only [write, hpath, Except.bind, hetag, Except.map, hmkdir, Bool.false_eq_true,
                if_false, hdumps, hwrite]

theorem checkEtag_none {stat readBytes : Bool} :
    p.checkEtag files path none stat readBytes = .ok () := by
  rw [checkEtag, if_pos rfl]

theorem write_ok {bytes : Bytes} (hpath : p.grainPath grain = .ok path)
    (hetag : p.checkEtag files path expectedEtag false false = .ok ())
    (hdumps : p.orjson.dumps uuid state = some bytes) :
    p.write files grain state expectedEtag uuid .none =
      (.ok uuid, files.put (p.locate path, bytes)) := by
  simp only [write, hpath, Except.bind, OsErrors.none, hetag, Except.map, Bool.false_eq_true,
    if_false, hdumps]

theorem write_uuid {etag : String}
    (h : (p.write files grain state expectedEtag uuid os).1 = .ok etag) : etag = uuid := by
  simp only [write] at h
  split at h
  · cases h
  · split_ifs at h
    split at h
    · cases h
    · exact (Except.ok.inj h).symm
    · cases h
    · cases h

theorem read_ok {bytes : Bytes} {etag : String} (hpath : p.grainPath grain = .ok path)
    (hget : files.get (p.locate path) = some (p.locate path, bytes))
    (hloads : p.orjson.loads bytes = some (some state, some etag)) : p.read files grain .none =
      .ok (state, some etag) := by
  simp only [read, hpath, Except.bind, OsErrors.none, Bool.false_eq_true, if_false, hget, hloads]

/-- A write does the same to the grain's own file whatever the other files are. -/
theorem write_congr (hpath : p.grainPath grain = .ok path)
    (h : files.get (p.locate path) = files'.get (p.locate path)) :
    (p.write files grain state expectedEtag uuid os).2.get (p.locate path) =
      (p.write files' grain state expectedEtag uuid os).2.get (p.locate path) := by
  simp only [write, hpath, Except.bind, checkEtag_congr h]
  cases p.checkEtag files' path expectedEtag os.stat os.readBytes with
  | error e => exact h
  | ok _ =>
    dsimp only [Except.map]
    split_ifs
    · exact h
    · cases p.orjson.dumps uuid state <;> rcases os.writeBytes with _ | _ | left' <;>
        simp only [h, Table.get_put, if_true]

theorem clear_cases (files : Files Bytes) (grain : GrainId) (expectedEtag : Option String)
    (os : OsErrors Bytes) :
    (p.clear files grain expectedEtag os).2 = files ∨
      ∃ path, p.grainPath grain = .ok path ∧ (p.clear files grain expectedEtag os).2 =
        files.pop (p.locate path) := by
  cases hpath : p.grainPath grain with
  | error e =>
    left
    simp only [clear, hpath]
  | ok path =>
    cases hstat : os.stat with
    | true =>
      left
      simp only [clear, hpath, hstat, if_true]
    | false =>
      cases hget : files.get (p.locate path) with
      | none =>
        left
        simp only [clear, hpath, hstat, Bool.false_eq_true, if_false, hget]
      | some bytes =>
        cases hetag : p.checkEtag files path expectedEtag os.statAgain os.readBytes with
        | error e =>
          left
          simp only [clear, hpath, hstat, Bool.false_eq_true, if_false, hget, hetag]
        | ok _ =>
          cases hunlink : os.unlink with
          | true =>
            left
            simp only [clear, hpath, hstat, Bool.false_eq_true, if_false, hget, hetag,
              hunlink, if_true]
          | false =>
            refine .inr ⟨path, rfl, ?_⟩
            simp only [clear, hpath, hstat, Bool.false_eq_true, if_false, hget, hetag, hunlink]

theorem clear_congr (hpath : p.grainPath grain = .ok path)
    (h : files.get (p.locate path) = files'.get (p.locate path)) :
    (p.clear files grain expectedEtag os).2.get (p.locate path) =
      (p.clear files' grain expectedEtag os).2.get (p.locate path) := by
  simp only [clear, hpath, checkEtag_congr h, h]
  cases os.stat with
  | true => exact h
  | false =>
    simp only [Bool.false_eq_true, if_false]
    cases files'.get (p.locate path) with
    | none => exact h
    | some bytes =>
      cases p.checkEtag files' path expectedEtag os.statAgain os.readBytes with
      | error e => exact h
      | ok _ =>
        cases os.unlink with
        | true => exact h
        | false => simp only [Bool.false_eq_true, if_false, Table.get_pop, if_true]

end

def documents (State : Type) (emptyDict : State) : Orjson State (Option State × Option String) where
  emptyDict := emptyDict
  dumps etag state := some (some state, some etag)
  loads := some

theorem documents_readsBack {State : Type} {emptyDict : State} :
    (documents State emptyDict).ReadsBack := by
  intro etag state bytes h
  obtain rfl := Option.some.inj h
  rfl

abbrev Dict := List (String × ℤ)

def posix : FileStorageProvider Dict (Option Dict × Option String) where
  basePath := ["data", "storage"]
  orjson := documents Dict []
  fold := id

end FileStorageProvider

end Pyleans
