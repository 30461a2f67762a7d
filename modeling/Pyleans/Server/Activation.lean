import Pyleans.Library.Fallible
import Pyleans.Server.Runtime

namespace Pyleans

open Library Fallible

/-- How an awaited call ends for the task that waits: `cancelled` is that the
task itself is cancelled meanwhile. -/
inductive Awaited (α : Type)
  | returned (a : α)
  | raised (e : Raised)
  | cancelled

/-- A grain class with the name of its state type, and of its storage if it names one. -/
structure StatefulClass extends GrainClass where
  stateType : Option String
  storageName : Option String

def DEFAULT_STORAGE_NAME : String := "default"

def StatefulClass.storage (c : StatefulClass) : String := c.storageName.getD DEFAULT_STORAGE_NAME

/-- A grain object with what `activate_grain` sets on it. -/
structure GrainInstance (Object State : Type) where
  object : Object
  identity : GrainId
  state : Option State

structure LiveActivation (Object State : Type) where
  grainId : GrainId
  number : ℕ
  grain : GrainInstance Object State
  etag : Option String
  stateLoaded : Bool

def LiveActivation.plain {Object State : Type} (a : LiveActivation Object State) :
    GrainActivation :=
  ⟨a.grainId, a.number⟩

theorem LiveActivation.plain_grainId {Object State : Type} (a : LiveActivation Object State) :
    GrainActivation.grainId a.plain = LiveActivation.grainId a := rfl

/-- The code that `activate_grain` calls: the grain author's, the factory's if
there is one, that of the storages by name, and the serializer's. -/
structure ActivationCode (Object State Value : Type) where
  grainClass : String → Option StatefulClass
  grainFactory : Option (String → GrainId → Except Raised Object)
  construct : String → GrainId → Except Raised Object
  storageProviders : String →
    Option (String → String → Awaited (List (String × Value) × Option String))
  serialize : List (String × Value) → Except Raised ByteArray
  deserialize : ByteArray → String → Except Raised State
  newState : String → Except Raised State
  onActivate : GrainInstance Object State → Awaited Unit

/-- How the state fails to load. Only what is done with a storage is inside the `try`. -/
inductive LoadFailure
  | caught (e : Raised)
  | own (e : Raised)
  | cancelled

/-- What `activate_grain` raises; `own` is an exception of the grain author's
that it does not wrap. -/
inductive ActivationFailure
  | runtime (e : RuntimeError)
  | own (e : Raised)
  | cancelled
deriving DecidableEq

def LoadFailure.surfaced (g : GrainId) : LoadFailure → ActivationFailure
  | .caught e => .runtime (loadFailed g e.message)
  | .own e => .own e
  | .cancelled => .cancelled

structure LoadedState (State : Type) where
  state : Option State
  etag : Option String
  stateLoaded : Bool

/-- `_activations`, and the workers that run, each with the grain it serves. -/
structure ActivationRuntime (Object State : Type) where
  localSilo : SiloAddress
  activations : Table (@LiveActivation.grainId Object State)
  nextActivation : ℕ
  workers : List (GrainId × ℕ)

namespace ActivationRuntime

variable {Object State Value : Type}

/-- Work that has nothing to do with `g`. -/
structure OtherWork (Object State : Type) (g : GrainId) where
  run : ActivationRuntime Object State → ActivationRuntime Object State
  activation : ∀ r, (run r).activations.get g = r.activations.get g
  worker : ∀ r n, (g, n) ∈ (run r).workers ↔ (g, n) ∈ r.workers

def OtherWork.none (g : GrainId) : OtherWork Object State g := ⟨id, fun _ ↦ rfl, fun _ _ ↦ Iff.rfl⟩

/-- What others do while `activate_grain` waits for the storage, and while it
waits for `on_activate`. -/
structure Meanwhile (Object State : Type) (g : GrainId) where
  loading : OtherWork Object State g
  activating : OtherWork Object State g

def Meanwhile.nothing (g : GrainId) : Meanwhile Object State g := ⟨.none g, .none g⟩

end ActivationRuntime

namespace ActivationCode

variable {Object State Value : Type} (code : ActivationCode Object State Value)

def newInstance (g : GrainId) : Except Raised Object :=
  match code.grainFactory with
  | some factory => factory g.grainType g
  | none => code.construct g.grainType g

def stateOf (stateType : String) (stateDict : List (String × Value)) : Except Raised State :=
  if stateDict.isEmpty then code.newState stateType
  else do
    let serialized ← code.serialize stateDict
    code.deserialize serialized stateType

def loadState (c : StatefulClass) (g : GrainId) : Except LoadFailure (LoadedState State) :=
  match c.stateType with
  | none => .ok ⟨none, none, false⟩
  | some stateType =>
    match code.storageProviders c.storage with
    | none => ((code.newState stateType).mapError .own).map fun state ↦ ⟨some state, none, true⟩
    | some read =>
      match read g.grainType g.key with
      | .cancelled => .error .cancelled
      | .raised e => .error (.caught e)
      | .returned (stateDict, etag) =>
        ((code.stateOf stateType stateDict).mapError .caught).map fun state ↦
          ⟨some state, etag, true⟩

def readsStorage (c : StatefulClass) : Bool :=
  c.stateType.isSome && (code.storageProviders c.storage).isSome

def hook (g : GrainId) : Awaited Unit :=
  match code.grainClass g.grainType, code.newInstance g with
  | some c, .ok object =>
    match code.loadState c g with
    | .ok loaded => code.onActivate ⟨object, g, loaded.state⟩
    | .error _ => .returned ()
  | _, _ => .returned ()

/-- The same code for a runtime that looks at no data, with the methods and the
codec of `base`; `done` is what `on_activate` returns. -/
def toGrainCode {Result : Type} (base : GrainCode Result) (done : Result) : GrainCode Result :=
  { base with
    grainClass := fun grainType ↦ (code.grainClass grainType).map StatefulClass.toGrainClass
    newInstance := fun g ↦ ((code.newInstance g).mapError Raised.message).map fun _ ↦ ()
    loadState := fun g ↦
      match (code.grainClass g.grainType).map fun c ↦ code.loadState c g with
      | some (.error (.caught e)) => .error e.message
      | _ => .ok ()
    runMethod := fun g method args kwargs ↦
      if method = "on_activate" then
        match code.hook g with
        | .raised e => .error e
        | _ => .ok done
      else base.runMethod g method args kwargs }

end ActivationCode

namespace ActivationRuntime

variable {Object State Value : Type}

def newActivation (r : ActivationRuntime Object State) (g : GrainId) (object : Object)
    (loaded : LoadedState State) :
    LiveActivation Object State :=
  ⟨g, r.nextActivation, ⟨object, g, loaded.state⟩, loaded.etag, loaded.stateLoaded⟩

def insertActivation (r : ActivationRuntime Object State) (a : LiveActivation Object State) :
    ActivationRuntime Object State :=
  { r with
    activations := r.activations.put a
    nextActivation := r.nextActivation + 1
    workers := (a.grainId, a.number) :: r.workers }

section

variable (code : ActivationCode Object State Value)

def runOnActivate (a : LiveActivation Object State) :
    Except ActivationFailure (LiveActivation Object State) :=
  let method := "on_activate"
  match code.onActivate a.grain with
  | .returned () => .ok a
  | .raised e => .error (.runtime (methodFailed a.grainId method e))
  | .cancelled => .error .cancelled

def whenLoaded {g : GrainId} (r : ActivationRuntime Object State) (c : StatefulClass)
    (m : Meanwhile Object State g) :
    ActivationRuntime Object State :=
  if code.readsStorage c then m.loading.run r else r

def activateGrain (r : ActivationRuntime Object State) (g : GrainId)
    (m : Meanwhile Object State g) :
    ActivationRuntime Object State × Except ActivationFailure (LiveActivation Object State) :=
  match r.activations.get g with
  | some a => (r, .ok a)
  | none =>
    match code.grainClass g.grainType with
    | none =>
      (r, .error (.runtime (.grainNotFound s!"Grain type {reprText g.grainType} not registered")))
    | some c =>
      match code.newInstance g with
      | .error e =>
        (r, .error (.runtime (createFailed g e.message)))
      | .ok object =>
        let r := r.whenLoaded code c m
        match code.loadState c g with
        | .error e => (r, .error (e.surfaced g))
        | .ok loaded =>
          let a := r.newActivation g object loaded
          let r := r.insertActivation a
          if c.hasOnActivate then (m.activating.run r, runOnActivate code a) else (r, .ok a)

/-- Whatever comes before `on_activate` fails, or the class has none, or it succeeds. -/
def HookSucceeds (r : ActivationRuntime Object State) (g : GrainId) : Prop :=
  r.activations.get g = none → ∀ c, code.grainClass g.grainType = some c → c.hasOnActivate = true →
    ∀ object, code.newInstance g = .ok object → ∀ loaded, code.loadState c g = .ok loaded →
      code.onActivate ⟨object, g, loaded.state⟩ = .returned ()

end

/-- What a call that raised leaves: the runtime is what others have made of
it, with the activations and the workers that the grain had, and the next call
finds none. -/
structure NothingLeft (r r' : ActivationRuntime Object State) (g : GrainId)
    (m : Meanwhile Object State g) :
    Prop where
  others : r' = r ∨ r' = m.loading.run r ∨ r' = m.activating.run r ∨
    r' = m.activating.run (m.loading.run r)
  activation : r'.activations.get g = r.activations.get g
  worker : ∀ n, (g, n) ∈ r'.workers ↔ (g, n) ∈ r.workers
  fresh : r'.activations.get g = none

section

variable {code : ActivationCode Object State Value}
  {r r' : ActivationRuntime Object State} {g : GrainId}
  {m : Meanwhile Object State g} {c : StatefulClass} {object : Object} {loaded : LoadedState State}

theorem exists_runOnActivate_error {a : LiveActivation Object State} :
    (∃ e, runOnActivate code a = .error e) ↔ code.onActivate a.grain ≠ .returned () := by
  unfold runOnActivate
  cases code.onActivate a.grain with
  | returned => exact iff_of_false (fun ⟨_, h⟩ ↦ nomatch h) fun h ↦ h rfl
  | raised e => exact iff_of_true ⟨_, rfl⟩ nofun
  | cancelled => exact iff_of_true ⟨_, rfl⟩ nofun

@[simp] theorem whenLoaded_nothing : r.whenLoaded code c (.nothing g) = r := by
  unfold whenLoaded
  split_ifs <;> rfl

variable (code r c m) in
theorem whenLoaded_cases : r.whenLoaded code c m = r ∨ r.whenLoaded code c m = m.loading.run r := by
  unfold whenLoaded
  split_ifs
  · exact .inr rfl
  · exact .inl rfl

theorem nothingLeft_self (hnone : r.activations.get g = none) : NothingLeft r r g m :=
  ⟨.inl rfl, rfl, fun _ ↦ Iff.rfl, hnone⟩

variable (code c m) in
theorem nothingLeft_whenLoaded (hnone : r.activations.get g = none) :
    NothingLeft r (r.whenLoaded code c m) g m := by
  rcases whenLoaded_cases code r m c with h | h
  · rw [h]
    exact nothingLeft_self hnone
  · rw [h]
    have hkept := m.loading.activation r
    exact ⟨.inr (.inl rfl), hkept, m.loading.worker r, hkept.trans hnone⟩

theorem activateGrain_of_loaded (hnone : r.activations.get g = none)
    (hc : code.grainClass g.grainType = some c) (hobject : code.newInstance g = .ok object)
    (hloaded : code.loadState c g = .ok loaded) (hhook : c.hasOnActivate) :
    let a := (r.whenLoaded code c m).newActivation g object loaded
    activateGrain code r g m =
      (m.activating.run ((r.whenLoaded code c m).insertActivation a), runOnActivate code a) := by
  simp only [activateGrain, hnone, hc, hobject, hloaded, hhook, if_true]

theorem hook_keeps_activation (m : Meanwhile Object State g) (a : LiveActivation Object State)
    (ha : a.grainId = g) :
    (m.activating.run (r.insertActivation a)).activations.get g = some a := by
  rw [m.activating.activation, insertActivation, Table.get_put, if_pos ha.symm]

theorem activateGrain_raises {e : ActivationFailure}
    (h : activateGrain code r g m = (r', .error e)) :
    NothingLeft r r' g m ∨
      r.activations.get g = none ∧ ∃ c, code.grainClass g.grainType = some c ∧
        c.hasOnActivate = true ∧
        ∃ object, code.newInstance g = .ok object ∧ ∃ loaded, code.loadState c g = .ok loaded ∧
          code.onActivate ⟨object, g, loaded.state⟩ ≠ .returned () := by
  unfold activateGrain at h
  split at h
  · cases h
  · next hnone =>
    split at h
    · cases h
      exact .inl (nothingLeft_self hnone)
    · next c hc =>
      split at h
      · cases h
        exact .inl (nothingLeft_self hnone)
      · next object hobject =>
        dsimp only at h
        split at h
        · cases h
          exact .inl (nothingLeft_whenLoaded code m c hnone)
        · next loaded hloaded =>
          split at h
          · next hhook =>
            have hend := exists_runOnActivate_error.mp ⟨e, congrArg Prod.snd h⟩
            exact .inr ⟨hnone, c, hc, hhook, object, hobject, loaded, hloaded, hend⟩
          · cases h

/-- After an `on_activate` that fails, the next call takes the grain as active. -/
theorem failed_hook_then_active (hnone : r.activations.get g = none)
    (hc : code.grainClass g.grainType = some c) (hobject : code.newInstance g = .ok object)
    (hloaded : code.loadState c g = .ok loaded) (hhook : c.hasOnActivate)
    (hend : code.onActivate ⟨object, g, loaded.state⟩ ≠ .returned ())
    (next : ActivationCode Object State Value) :
    (∃ e, (activateGrain code r g m).2 = .error e) ∧
      ∃ a, activateGrain next (activateGrain code r g m).1 g m =
        ((activateGrain code r g m).1, .ok a) := by
  have hcall := activateGrain_of_loaded (m := m) hnone hc hobject hloaded hhook
  rw [hcall]
  refine ⟨exists_runOnActivate_error.mpr hend,
    (r.whenLoaded code c m).newActivation g object loaded, ?_⟩
  rw [activateGrain, hook_keeps_activation m _ rfl]

end

/-- The same runtime without the data of its activations and without their workers. -/
def toGrainRuntime (r : ActivationRuntime Object State) : GrainRuntime where
  localSilo := r.localSilo
  activations := r.activations.mapValues LiveActivation.plain LiveActivation.plain_grainId
  nextActivation := r.nextActivation

theorem toGrainRuntime_hosts (r : ActivationRuntime Object State) (g : GrainId) :
    r.toGrainRuntime.hosts g = (r.activations.get g).isSome := by
  rw [GrainRuntime.hosts, toGrainRuntime, Table.get_mapValues, Option.isSome_map]

theorem toGrainRuntime_insertActivation (r : ActivationRuntime Object State) (g : GrainId)
    (object : Object) (loaded : LoadedState State) :
    (r.insertActivation (r.newActivation g object loaded)).toGrainRuntime =
      r.toGrainRuntime.insertActivation g := by
  rw [toGrainRuntime, insertActivation, Table.mapValues_put]
  rfl

def coarse : Except ActivationFailure (LiveActivation Object State) → Option
    (Except RuntimeError Unit)
  | .ok _ => some (.ok ())
  | .error (.runtime e) => some (.error e)
  | .error _ => none

theorem runTurn_hook {Result : Type} (base : GrainCode Result) (done : Result)
    {code : ActivationCode Object State Value} {a : LiveActivation Object State}
    {outcome : Except RuntimeError Unit} (hend : code.hook a.grainId = code.onActivate a.grain)
    (h : coarse (runOnActivate code a) = some outcome) :
    (runTurn (code.toGrainCode base done) a.grainId "on_activate" [] []).map
      (fun _ ↦ ()) = outcome := by
  unfold runOnActivate at h
  simp only [runTurn, turnResult, ActivationCode.toGrainCode, if_true, hend]
  cases hgrain : code.onActivate a.grain with
  | returned =>
    simp only [hgrain, coarse, Option.some.injEq] at h
    exact h
  | raised e =>
    simp only [hgrain, coarse, Option.some.injEq] at h
    exact h
  | cancelled =>
    simp only [hgrain, coarse, reduceCtorEq] at h

/-- Where nothing else goes on, the activation is that of the runtime without
data, as far as the latter has a word for the outcome. -/
theorem activateGrain_coarse {Result : Type} (base : GrainCode Result) (done : Result)
    (code : ActivationCode Object State Value) (r : ActivationRuntime Object State) (g : GrainId)
    {outcome : Except RuntimeError Unit}
    (h : coarse (activateGrain code r g (.nothing g)).2 = some outcome) :
    Pyleans.activateGrain (code.toGrainCode base done) r.toGrainRuntime g =
      ((activateGrain code r g (.nothing g)).1.toGrainRuntime, outcome) := by
  have hhosts := r.toGrainRuntime_hosts g
  unfold Pyleans.activateGrain activateGrain
  unfold activateGrain at h
  cases hget : r.activations.get g with
  | some a =>
    simp only [hget, coarse, Option.some.injEq] at h
    rw [if_pos (by rw [hhosts, hget]; rfl), ← h]
  | none =>
    rw [if_neg (by rw [hhosts, hget]; exact Bool.false_ne_true)]
    simp only [hget] at h
    cases hc : code.grainClass g.grainType with
    | none =>
      simp only [hc, coarse, Option.some.injEq] at h
      simp only [getGrainClass, ActivationCode.toGrainCode, hc, Option.map_none, ← h]
    | some c =>
      simp only [hc] at h
      simp only [getGrainClass, ActivationCode.toGrainCode, hc, Option.map_some]
      cases hobject : code.newInstance g with
      | error e =>
        simp only [hobject, coarse, Option.some.injEq] at h
        simp only [Except.mapError, Except.map, ← h]
      | ok object =>
        simp only [hobject] at h
        simp only [Except.mapError, Except.map]
        cases hloaded : code.loadState c g with
        | error e =>
          cases e with
          | caught e =>
            simp only [hloaded, LoadFailure.surfaced, coarse, Option.some.injEq] at h
            simp only [whenLoaded_nothing, ← h]
          | own e => simp only [hloaded, LoadFailure.surfaced, coarse, reduceCtorEq] at h
          | cancelled => simp only [hloaded, LoadFailure.surfaced, coarse, reduceCtorEq] at h
        | ok loaded =>
          simp only [hloaded, whenLoaded_nothing] at h ⊢
          rw [← toGrainRuntime_insertActivation r g object loaded]
          cases hhook : c.hasOnActivate with
          | false =>
            simp only [hhook, Bool.false_eq_true, if_false, coarse, Option.some.injEq] at h
            simp only [Bool.false_eq_true, if_false, ← h]
          | true =>
            simp only [hhook, if_true] at h ⊢
            have hend : code.hook g = code.onActivate ⟨object, g, loaded.state⟩ := by
              simp only [ActivationCode.hook, hc, hobject, hloaded]
            have hturn := runTurn_hook base done hend h
            exact Prod.ext rfl hturn

/-- When `activate_grain` raises, whatever the class, the stored state and the
point, nothing of the activation is left, exactly when it is not `on_activate`
that fails: by then the activation is in the table and its worker runs. -/
theorem failed_activation_leaves_nothing_iff (code : ActivationCode Object State Value)
    (r : ActivationRuntime Object State) (g : GrainId) (m : Meanwhile Object State g) :
    (∀ r' e, activateGrain code r g m = (r', .error e) → NothingLeft r r' g m) ↔
      HookSucceeds code r g := by
  constructor
  · intro h hnone c hc hhook object hobject loaded hloaded
    by_contra hend
    obtain ⟨e, he⟩ := exists_runOnActivate_error
      (a := (r.whenLoaded code c m).newActivation g object loaded).mpr hend
    have hcall := activateGrain_of_loaded (m := m) hnone hc hobject hloaded hhook
    have hfresh := (h _ e (hcall.trans (congrArg _ he))).fresh
    rw [hook_keeps_activation m _ rfl] at hfresh
    cases hfresh
  · intro h r' e hraises
    rcases activateGrain_raises hraises with hleft
      | ⟨hnone, c, hc, hhook, object, hobject, loaded, hloaded, hend⟩
    · exact hleft
    · exact absurd (h hnone c hc hhook object hobject loaded hloaded) hend

def failingCounter : ActivationCode Unit ℕ ℕ where
  grainClass grainType :=
    if grainType = "Counter" then
      some {
        methods := ["get"], hasOnActivate := true, stateType := some "CounterState",
        storageName := none }
    else none
  grainFactory := none
  construct _ _ := .ok ()
  storageProviders _ := some fun _ _ ↦ .returned ([("count", 3)], some "1")
  serialize _ := .ok .empty
  deserialize _ _ := .ok 3
  newState _ := .ok 0
  onActivate _ := .raised ⟨"ConnectionError", "no broker"⟩

theorem failed_hook_leaves_activation :
    ¬ ∀ (Object State Value : Type) (code : ActivationCode Object State Value)
      (r : ActivationRuntime Object State)
      (g : GrainId) (m : Meanwhile Object State g) r' e, activateGrain code r g m = (r', .error e) →
        NothingLeft r r' g m := by
  intro h
  have hleft :=
    h Unit ℕ ℕ failingCounter ⟨siloA, .empty, 0, []⟩ counter1 (.nothing counter1) _ _ rfl
  have hfresh : (some _ : Option (LiveActivation Unit ℕ)) = none := hleft.fresh
  cases hfresh

end ActivationRuntime

end Pyleans
