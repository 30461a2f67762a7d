import Mathlib
import Pyleans.Identity
import Pyleans.Library.Table
import Pyleans.Transport.Messages

namespace Pyleans

open Library

/-- A live grain instance. The number tells instances of one grain apart: each
has an inbox and a worker of its own. -/
structure GrainActivation where
  grainId : GrainId
  number : ℕ
deriving DecidableEq, Repr

structure GrainRuntime where
  localSilo : SiloAddress
  activations : Table GrainActivation.grainId
  nextActivation : ℕ

namespace GrainRuntime

def init (localSilo : SiloAddress) : GrainRuntime := ⟨localSilo, .empty, 0⟩

/-- A finished `activate_grain` replaces an activation that another call made meanwhile. -/
def insertActivation (r : GrainRuntime) (g : GrainId) : GrainRuntime :=
  { r with
    activations := r.activations.put ⟨g, r.nextActivation⟩
    nextActivation := r.nextActivation + 1 }

def popActivation (r : GrainRuntime) (g : GrainId) : GrainRuntime :=
  { r with activations := r.activations.pop g }

def hosts (r : GrainRuntime) (g : GrainId) : Bool := (r.activations.get g).isSome

theorem insertActivation_hosts (r : GrainRuntime) (g k : GrainId) :
    (r.insertActivation g).hosts k = (decide (k = g) || r.hosts k) := by
  simp only [hosts, insertActivation, Table.get_put]
  by_cases h : k = g <;> simp [h]

theorem popActivation_hosts (r : GrainRuntime) (g k : GrainId) :
    (r.popActivation g).hosts k = (!decide (k = g) && r.hosts k) := by
  simp only [hosts, popActivation, Table.get_pop]
  by_cases h : k = g <;> simp [h]

end GrainRuntime

/-- A message of the transport, with the header of its REQUEST as a text. -/
structure TransportMessage where
  messageType : MessageType
  correlationId : ℕ
  header : String
  body : ByteArray

def hexDigits (c : Char) : String :=
  String.ofList [Nat.digitChar (c.toNat / 16), Nat.digitChar (c.toNat % 16)]

def reprChar (quote c : Char) : String :=
  if c = quote ∨ c.toNat = 92 then String.ofList [Char.ofNat 92, c]
  else if c.toNat = 9 then String.ofList [Char.ofNat 92, 't']
  else if c.toNat = 10 then String.ofList [Char.ofNat 92, 'n']
  else if c.toNat = 13 then String.ofList [Char.ofNat 92, 'r']
  else if c.toNat < 32 ∨ c.toNat = 127 then String.ofList [Char.ofNat 92, 'x'] ++ hexDigits c
  else String.singleton c

/-- The `repr` of a text: in single quotes (39), unless it has single quotes but no double
ones (34). Characters beyond ASCII stand as they are. -/
def reprText (text : String) : String :=
  let quote :=
    if Char.ofNat 39 ∈ text.toList ∧ Char.ofNat 34 ∉ text.toList then Char.ofNat 34
    else Char.ofNat 39
  String.singleton quote ++ String.join (text.toList.map (reprChar quote)) ++ String.singleton quote

def GRAIN_CALL_HEADER : String := "pyleans/grain-call/v1"

structure GrainCallRequest (Value : Type) where
  grainId : GrainId
  method : String
  args : List Value
  kwargs : List (String × Value)
  callerSilo : Option String
  callId : ℤ
  deadline : Option ℚ

structure Raised where
  exceptionType : String
  message : String
deriving DecidableEq, Repr

inductive GrainCallResponse (Value : Type)
  | success (result : Value)
  | failure (exceptionType message : String) (remoteTraceback : Option String)

/-- The RESPONSE to a grain call; its header is always that of the call. -/
structure GrainCallReply (Value : Type) where
  correlationId : ℕ
  body : GrainCallResponse Value

inductive RuntimeError
  | grainNotFound (message : String)
  | grainActivation (message : String)
  | grainMethod (message : String) (cause : Option Raised)
deriving DecidableEq, Repr

/-- What crosses the wire for an error: the grain author's own exception when
there is one behind it. -/
def RuntimeError.surfaced : RuntimeError → Raised
  | .grainNotFound message => ⟨"GrainNotFoundError", message⟩
  | .grainActivation message => ⟨"GrainActivationError", message⟩
  | .grainMethod message none => ⟨"GrainMethodError", message⟩
  | .grainMethod _ (some cause) => cause

def MAX_EXCEPTION_MESSAGE_LEN : ℕ := 8 * 1024

def MAX_TRACEBACK_LEN : ℕ := 32 * 1024

def takeChars (n : ℕ) (text : String) : String := String.ofList (text.toList.take n)

def encodeFailure {Value : Type} (exceptionType message : String)
    (remoteTraceback : Option String) :
    GrainCallResponse Value :=
  .failure exceptionType (takeChars MAX_EXCEPTION_MESSAGE_LEN message)
    (remoteTraceback.map (takeChars MAX_TRACEBACK_LEN))

structure GrainClass where
  methods : List String
  hasOnActivate : Bool

/-- How grain calls are read and answered. -/
structure CallCodec (Value : Type) where
  decodeRequest : ByteArray → Except String (GrainCallRequest Value)
  encodeResult : Value → Option Raised
  formatTraceback : Raised → String

/-- What the runtime is given: the registered grain classes and how their code,
the factory, the storage and the JSON codec turn out. -/
structure GrainCode (Value : Type) extends CallCodec Value where
  grainClass : String → Option GrainClass
  newInstance : GrainId → Except String Unit
  loadState : GrainId → Except String Unit
  runMethod : GrainId → String → List Value → List (String × Value) → Except Raised Value

def getGrainClass {Class : Type} (classes : String → Option Class) (grainType : String) :
    Except RuntimeError Class :=
  match classes grainType with
  | none => .error (.grainNotFound s!"Grain type {reprText grainType} not registered")
  | some grainClass => .ok grainClass

def createFailed (g : GrainId) (e : String) : RuntimeError :=
  .grainActivation s!"Failed to create instance of {g.grainType}: {e}"

def loadFailed (g : GrainId) (e : String) : RuntimeError :=
  .grainActivation s!"Failed to load state for {g.toStr}: {e}"

def methodNotFound (g : GrainId) (method : String) : RuntimeError :=
  .grainMethod s!"Method {reprText method} not found on {g.grainType}" none

def methodFailed (g : GrainId) (method : String) (cause : Raised) : RuntimeError :=
  .grainMethod s!"Error in {g.grainType}.{method}: {cause.message}" (some cause)

section

variable {Value : Type}

def turnResult (g : GrainId) (method : String) : Except Raised Value → Except RuntimeError Value
  | .ok result => .ok result
  | .error cause => .error (methodFailed g method cause)

def failureReply (codec : CallCodec Value) (correlationId : ℕ) (raised : Raised) :
    GrainCallReply Value :=
  ⟨correlationId, encodeFailure raised.exceptionType raised.message
    (some (codec.formatTraceback raised))⟩

/-- The reply to a call that was served: its result, unless it raised or its
result cannot be encoded. -/
def servedReply (codec : CallCodec Value) (correlationId : ℕ) :
    Except RuntimeError Value → GrainCallReply Value
  | .error e => failureReply codec correlationId e.surfaced
  | .ok result =>
    match codec.encodeResult result with
    | some raised => failureReply codec correlationId raised
    | none => ⟨correlationId, .success result⟩

def malformedReply (correlationId : ℕ) (e : String) : GrainCallReply Value :=
  ⟨correlationId, encodeFailure "ValueError" s!"malformed body: {e}" none⟩

def lateReply (correlationId : ℕ) : GrainCallReply Value :=
  ⟨correlationId, encodeFailure "TimeoutError" "deadline expired before handler ran" none⟩

variable (code : GrainCode Value)

def runTurn (g : GrainId) (method : String) (args : List Value) (kwargs : List (String × Value)) :
    Except RuntimeError Value :=
  turnResult g method (code.runMethod g method args kwargs)

/-- An activation that fails in `on_activate` stays in the table. -/
def activateGrain (r : GrainRuntime) (g : GrainId) : GrainRuntime × Except RuntimeError Unit :=
  if r.hosts g then (r, .ok ())
  else
    match getGrainClass code.grainClass g.grainType with
    | .error e => (r, .error e)
    | .ok grainClass =>
      match code.newInstance g with
      | .error e => (r, .error (createFailed g e))
      | .ok () =>
        match code.loadState g with
        | .error e => (r, .error (loadFailed g e))
        | .ok () =>
          if grainClass.hasOnActivate then
            (r.insertActivation g, (runTurn code g "on_activate" [] []).map fun _ ↦ ())
          else (r.insertActivation g, .ok ())

/-- The outcome of a call served here: the runtime after it, whether the method
the call names was run, and what it returned or raised. -/
structure Served (Value : Type) where
  runtime : GrainRuntime
  executed : Bool
  result : Except RuntimeError Value

def invokeLocal (r : GrainRuntime) (g : GrainId) (method : String) (args : List Value)
    (kwargs : List (String × Value)) : Served Value :=
  match activateGrain code r g with
  | (r', .error e) => ⟨r', false, .error e⟩
  | (r', .ok ()) =>
    match getGrainClass code.grainClass g.grainType with
    | .error e => ⟨r', false, .error e⟩
    | .ok grainClass =>
      if method ∉ grainClass.methods then
        ⟨r', false, .error (methodNotFound g method)⟩
      else ⟨r', true, runTurn code g method args kwargs⟩

theorem activateGrain_runtime (r : GrainRuntime) (g : GrainId) :
    (activateGrain code r g).1 = r ∨
      r.hosts g = false ∧ (activateGrain code r g).1 = r.insertActivation g := by
  unfold activateGrain
  split_ifs with h
  · exact .inl rfl
  · have hf : r.hosts g = false := Bool.eq_false_iff.mpr h
    split
    · exact .inl rfl
    · split
      · exact .inl rfl
      · split
        · exact .inl rfl
        · split_ifs <;> exact .inr ⟨hf, rfl⟩

/-- A call that is served here changes the table by activating its grain, and by nothing else. -/
theorem invokeLocal_runtime (r : GrainRuntime) (g : GrainId) (method : String) (args : List Value)
    (kwargs : List (String × Value)) :
    (invokeLocal code r g method args kwargs).runtime = (activateGrain code r g).1 := by
  unfold invokeLocal
  split
  · next h => rw [h]
  · next h =>
    rw [h]
    split
    · rfl
    · split_ifs <;> rfl

structure Handled (Value : Type) where
  runtime : GrainRuntime
  executed : Bool
  reply : Option (GrainCallReply Value)

def Served.handled (served : Served Value) (correlationId : ℕ) : Handled Value where
  runtime := served.runtime
  executed := served.executed
  reply := some (servedReply code.toCallCodec correlationId served.result)

/-- The request is served in one go: no other task of the silo runs between its awaits. -/
def handleGrainCall (r : GrainRuntime) (now : ℚ) (msg : TransportMessage) : Handled Value :=
  if msg.header ≠ GRAIN_CALL_HEADER ∨ msg.messageType ≠ .request then ⟨r, false, none⟩
  else
    match code.decodeRequest msg.body with
    | .error e => ⟨r, false, some (malformedReply msg.correlationId e)⟩
    | .ok req =>
      if ∃ deadline ∈ req.deadline, now ≥ deadline then
        ⟨r, false, some (lateReply msg.correlationId)⟩
      else
        match getGrainClass code.grainClass req.grainId.grainType with
        | .error e => ⟨r, false, some (failureReply code.toCallCodec msg.correlationId e.surfaced)⟩
        | .ok _ =>
          (invokeLocal code r req.grainId req.method req.args req.kwargs).handled code
            msg.correlationId

/-- An inbound message activates the grain it is for, or leaves the table as it was. -/
theorem handleGrainCall_runtime (r : GrainRuntime) (now : ℚ) (msg : TransportMessage) :
    (handleGrainCall code r now msg).runtime = r ∨
      ∃ req, code.decodeRequest msg.body = .ok req ∧ r.hosts req.grainId = false ∧
        (handleGrainCall code r now msg).runtime = r.insertActivation req.grainId := by
  unfold handleGrainCall
  split_ifs
  · exact .inl rfl
  · split
    · exact .inl rfl
    · next req hd =>
      split_ifs
      · exact .inl rfl
      · split
        · exact .inl rfl
        · rw [Served.handled, invokeLocal_runtime]
          rcases activateGrain_runtime code r req.grainId with h | ⟨hf, h⟩
          · exact .inl h
          · exact .inr ⟨req, hd, hf, h⟩

end

end Pyleans
