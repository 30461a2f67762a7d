import Pyleans.Membership.PostgresMembership
import Pyleans.Storage.AdapterAgreement

namespace Pyleans

/-- The exceptions of asyncpg as far as a handler tells them apart; the last is
no `PostgresError`. -/
inductive DbExceptionKind
  | serializationError
  | deadlockDetectedError
  | postgresConnectionError
  | cannotConnectNowError
  | dataError
  | postgresError
  | noPostgresError
deriving DecidableEq

structure DbException where
  kind : DbExceptionKind
  typeName : String
  text : String
deriving DecidableEq

inductive PgProvider
  | membership
  | storage
deriving DecidableEq

/-- What the body of an operation raises: an exception of the database or one of its own. -/
inductive BodyError (E : Type)
  | database (e : DbException)
  | own (e : E)

/-- What an operation raises. -/
inductive OperationError (E : Type)
  | membershipError (text : String)
  | membershipUnavailableError (text : String)
  | storageError (text : String)
  | storageUnavailableError (text : String)
  | storageSerializationError (text : String)
  | runtimeError (text : String)
  | unchanged (e : BodyError E)

def TRANSIENT_RETRIES : ℕ := 3

def DbException.isTransient (e : DbException) : Bool :=
  e.kind = .serializationError ∨ e.kind = .deadlockDetectedError

section

variable {E α : Type}

def PgProvider.gaveUp (exc : DbException) : PgProvider → OperationError E
  | .membership =>
    .membershipError s!"membership op failed after {TRANSIENT_RETRIES} retries: {exc.text}"
  | .storage => .storageError s!"storage op failed after {TRANSIENT_RETRIES} retries: {exc.text}"

def PgProvider.mapError (exc : DbException) : PgProvider → OperationError E
  | .membership =>
    match exc.kind with
    | .postgresConnectionError | .cannotConnectNowError =>
      .membershipUnavailableError s!"PostgreSQL connection unavailable: {exc.text}"
    | .noPostgresError => .unchanged (.database exc)
    | _ => .membershipError s!"membership op raised {exc.typeName}: {exc.text}"
  | .storage =>
    match exc.kind with
    | .postgresConnectionError | .cannotConnectNowError =>
      .storageUnavailableError s!"PostgreSQL connection unavailable: {exc.text}"
    | .dataError => .storageSerializationError s!"storage data error: {exc.text}"
    | .noPostgresError => .unchanged (.database exc)
    | _ => .storageError s!"storage op raised {exc.typeName}: {exc.text}"

/-- The generator `_handle_transient_errors`, which waits at its `yield`. -/
structure TransientErrors where
  provider : PgProvider
  attempt : ℕ

/-- What a generator does when it goes on. -/
inductive Resumed (E : Type)
  | yielded (generator : TransientErrors)
  | returned
  | raised (e : OperationError E)

namespace TransientErrors

def start (provider : PgProvider) : TransientErrors := ⟨provider, 1⟩

/-- The generator behind its `yield`, with the exception that is thrown in there. -/
def resume (g : TransientErrors) : Option (BodyError E) → Resumed E
  | none => .returned
  | some (.own e) => .raised (.unchanged (.own e))
  | some (.database exc) =>
    if exc.isTransient then
      if g.attempt < TRANSIENT_RETRIES then .yielded { g with attempt := g.attempt + 1 }
      else .raised (g.provider.gaveUp exc)
    else .raised (g.provider.mapError exc)

/-- `__aexit__` of a context manager that is made of a generator. An exception
that the generator does not pass on is suppressed. -/
def aexit (g : TransientErrors) (thrown : Option (BodyError E)) : Except (OperationError E) Unit :=
  match g.resume thrown with
  | .returned => .ok ()
  | .raised e => .error e
  | .yielded _ =>
    match thrown with
    | none => .error (.runtimeError "generator didn't stop")
    | some _ => .error (.runtimeError "generator didn't stop after athrow()")

/-- `async with _handle_transient_errors()` around a body, which is executed once.
Nothing comes out of a body whose exception is suppressed. -/
def asyncWith (provider : PgProvider) (body : Except (BodyError E) α) :
    Except (OperationError E) (Option α) :=
  match body with
  | .ok a => ((start provider).aexit none).map fun _ ↦ some a
  | .error e => ((start provider).aexit (some e)).map fun _ ↦ none

end TransientErrors

end

/-- A call of one of the two PostgreSQL providers. -/
inductive PgCall (State : Type)
  | membership (cluster : String) (call : MembershipCall)
  | storage (grain : GrainId) (call : StorageCall State String)

/-- The tables of both providers. -/
structure PgTables (State : Type) where
  membership : PgDatabase
  grains : GrainStates State

abbrev PgAnswer (State : Type) := MembershipAnswer ⊕ StorageAnswer State

namespace PgCall

variable {State : Type}

def provider : PgCall State → PgProvider
  | .membership _ _ => .membership
  | .storage _ _ => .storage

/-- The operation comes as far as its `async with`: the etag is a number, and there
is one if a row is to be deleted. -/
def entersBody : PgCall State → Bool
  | .membership _ (.tryAddSuspicion _ _ expectedEtag) => (pgInt expectedEtag).isOk
  | .membership _ (.tryDeleteSilo silo) => (pgInt silo.etag).isOk
  | _ => true

def answer (emptyDict : State) (tables : PgTables State) :
    PgCall State → Except (PgError ⊕ StorageError) (PgAnswer State)
  | .membership cluster call => ((tables.membership.answer cluster call).1.map .inl).mapError .inl
  | .storage grain call => ((tables.grains.answer emptyDict grain call).1.map .inr).mapError .inr

/-- The `i`-th execution of the body, in the tables that it finds, with what the
database fails with. -/
def body (call : PgCall State) (emptyDict : State) (tables : ℕ → PgTables State)
    (fault : ℕ → Option DbException) (i : ℕ) :
    Except (BodyError (PgError ⊕ StorageError)) (PgAnswer State) :=
  match fault i with
  | some e => .error (.database e)
  | none => (call.answer emptyDict (tables i)).mapError .own

def run (call : PgCall State) (emptyDict : State) (tables : ℕ → PgTables State)
    (fault : ℕ → Option DbException) :
    Except (OperationError (PgError ⊕ StorageError)) (Option (PgAnswer State)) × ℕ :=
  if call.entersBody then
    (TransientErrors.asyncWith call.provider (call.body emptyDict tables fault 0), 1)
  else (((call.answer emptyDict (tables 0)).map some).mapError fun e ↦ .unchanged (.own e), 0)

/-- The body is executed until it succeeds, and its answer comes out. -/
def Retries (call : PgCall State) (emptyDict : State) (tables : ℕ → PgTables State)
    (fault : ℕ → Option DbException) (k : ℕ) (answer : PgAnswer State) : Prop :=
  call.run emptyDict tables fault = (.ok (some answer), k + 1)

variable {call : PgCall State} {emptyDict : State} {tables : ℕ → PgTables State}
  {fault : ℕ → Option DbException} {k : ℕ}
  {answer : PgAnswer State}

theorem run_of_success (henters : call.entersBody = true) (hfault : fault 0 = none)
    (hanswer : call.answer emptyDict (tables 0) = .ok answer) :
    call.run emptyDict tables fault = (.ok (some answer), 1) := by
  rw [run, if_pos henters, body, hfault, hanswer]
  rfl

theorem run_of_transient {e : DbException} (henters : call.entersBody = true)
    (hfault : fault 0 = some e) (he : e.isTransient = true) :
    call.run emptyDict tables fault =
      (.error (.runtimeError "generator didn't stop after athrow()"), 1) := by
  have hyields : (TransientErrors.start call.provider).resume (E := PgError ⊕ StorageError)
    (some (.database e)) =
      .yielded ⟨call.provider, 2⟩ := by
    rw [TransientErrors.resume, if_pos he]
    rfl
  rw [run, if_pos henters, body, hfault]
  dsimp only [TransientErrors.asyncWith, TransientErrors.aexit]
  rw [hyields]
  rfl

end PgCall

/-- Of the operations whose body fails with transient errors and then succeeds,
those come back with its answer whose body does not fail at all. -/
theorem transient_errors_retried_iff {State : Type} (call : PgCall State) (emptyDict : State)
    (tables : ℕ → PgTables State) (fault : ℕ → Option DbException) (k : ℕ) (answer : PgAnswer State)
    (_ : k < TRANSIENT_RETRIES) (henters : call.entersBody = true)
    (hfails : ∀ i < k, ∃ e, fault i = some e ∧ e.isTransient = true) (hthen : fault k = none)
    (hanswer : call.answer emptyDict (tables k) = .ok answer) :
    call.Retries emptyDict tables fault k answer ↔ k = 0 := by
  constructor
  · intro hretries
    by_contra hk
    obtain ⟨e, hfault, he⟩ := hfails 0 (by omega)
    rw [PgCall.Retries, PgCall.run_of_transient henters hfault he] at hretries
    cases hretries
  · rintro rfl
    exact PgCall.run_of_success henters hthen hanswer

def counterTables : PgTables ℕ :=
  ⟨⟨.empty, .empty⟩, Library.Table.empty.put ⟨"Counter", "a", 41, 1⟩⟩

def readCounter : PgCall ℕ := .storage ⟨"Counter", "a"⟩ .read

/-- The first execution meets a deadlock, the second would not. -/
def deadlockOnce (i : ℕ) : Option DbException :=
  if i = 0 then some ⟨.deadlockDetectedError, "DeadlockDetectedError", "deadlock detected"⟩
  else none

theorem deadlockOnce_transient : ∀ i < 1, ∃ e, deadlockOnce i = some e ∧ e.isTransient = true := by
  intro i hi
  exact ⟨_, by rw [deadlockOnce, if_pos (Nat.lt_one_iff.mp hi)], rfl⟩

theorem transient_errors_retried_iff_readCounter :
    readCounter.Retries 0 (fun _ ↦ counterTables) (fun _ ↦ none) 0 (.inr (.record 41 (some "1"))) ∧
      ¬ readCounter.Retries 0 (fun _ ↦ counterTables) deadlockOnce 1
        (.inr (.record 41 (some "1"))) := by
  constructor
  · exact (transient_errors_retried_iff readCounter 0 (fun _ ↦ counterTables) (fun _ ↦ none) 0
      (.inr (.record 41 (some "1"))) (by decide) rfl (fun _ hi ↦ absurd hi (Nat.not_lt_zero _))
        rfl rfl).mpr rfl
  · intro hretries
    have hk := (transient_errors_retried_iff readCounter 0 (fun _ ↦ counterTables) deadlockOnce 1
      (.inr (.record 41 (some "1"))) (by decide) rfl deadlockOnce_transient rfl rfl).mp hretries
    cases hk

theorem readCounter_not_retried :
    ¬ ∀ (State : Type) (call : PgCall State) (emptyDict : State) (tables : ℕ → PgTables State)
      (fault : ℕ → Option DbException) (k : ℕ) (answer : PgAnswer State), k < TRANSIENT_RETRIES →
      call.entersBody = true → (∀ i < k, ∃ e, fault i = some e ∧ e.isTransient = true) →
        fault k = none →
      call.answer emptyDict (tables k) = .ok answer →
        call.Retries emptyDict tables fault k answer := by
  intro h
  have hretries := h ℕ readCounter 0 (fun _ ↦ counterTables) deadlockOnce 1
    (.inr (.record 41 (some "1")))
    (by decide) rfl deadlockOnce_transient rfl rfl
  rw [PgCall.Retries, PgCall.run_of_transient rfl rfl rfl] at hretries
  cases hretries

end Pyleans
