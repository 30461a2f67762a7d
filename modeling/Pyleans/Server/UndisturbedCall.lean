import Pyleans.Server.Serving

namespace Pyleans.ServingRuntime

open Library

/-- The classes are those of the code, and a grain without a stored state has nothing to load. -/
structure Matches {Value : Type} (classes : String → Option GrainTraits) (code : GrainCode Value) :
    Prop where
  grainClass : ∀ t, code.grainClass t = (classes t).map GrainTraits.toGrainClass
  loadState : ∀ g c, classes g.grainType = some c → c.readsStorage = false →
    code.loadState g = .ok ()

/-- The silo has the activations of the table, and none of them has anything to do. -/
structure Rests {Value : Type} (s : ServingRuntime Value) (r : GrainRuntime) : Prop where
  size : s.instances.length = r.nextActivation
  activations : ∀ g, s.activations g = (r.activations.get g).map GrainActivation.number
  idle : ∀ g n, s.activations g = some n → s.instances[n]? = some ⟨g, [], none, false⟩

variable {Value : Type} {classes : String → Option GrainTraits} {code : GrainCode Value}
  {req : GrainCallRequest Value} {s s' s'' : ServingRuntime Value} {r : GrainRuntime} {task n : ℕ}
  {call : ServedCall Value} {g : GrainId}

def Answered (s s' : ServingRuntime Value) (reply : GrainCallReply Value) : Prop :=
  s'.malformed = s.malformed ++ [reply] ∨
    ∃ call, s'.calls = s.calls ++ [call] ∧ call.phase = .replied reply

/-- The events of one call alone, with what the code of the grain does in each. -/
def FromCode (code : GrainCode Value) (req : GrainCallRequest Value) : ServingEvent Value → Prop
  | .loaded _ loaded => loaded = code.loadState req.grainId
  | .finish _ result =>
    result = code.runMethod req.grainId "on_activate" [] [] ∨
      result = code.runMethod req.grainId req.method req.args req.kwargs
  | .take _ | .resume _ => True
  | _ => False

/-- What comes of the call once its grain is active. -/
def outcome (code : GrainCode Value) (req : GrainCallRequest Value) : Except RuntimeError Value :=
  match getGrainClass code.grainClass req.grainId.grainType with
  | .error e => .error e
  | .ok grainClass =>
    if req.method ∉ grainClass.methods then .error (methodNotFound req.grainId req.method)
    else runTurn code req.grainId req.method req.args req.kwargs

def Goes (code : GrainCode Value) (classes : String → Option GrainTraits)
    (req : GrainCallRequest Value) (s s' : ServingRuntime Value) : Prop :=
  ∃ events, (∀ e ∈ events, FromCode code req e) ∧
    exec (step code.toCallCodec classes) s events = some s'

theorem Goes.refl (s : ServingRuntime Value) : Goes code classes req s s :=
  ⟨[], fun _ he ↦ absurd he List.not_mem_nil, rfl⟩

theorem Goes.cons {e : ServingEvent Value} (hs : step code.toCallCodec classes s e = some s')
    (he : FromCode code req e) (h : Goes code classes req s' s'') :
    Goes code classes req s s'' := by
  obtain ⟨events, hfrom, hexec⟩ := h
  exact ⟨e :: events, List.forall_mem_cons.mpr ⟨he, hfrom⟩, exec_cons.mpr ⟨s', hs, hexec⟩⟩

/-- The worker of an idle activation takes the one turn in its inbox and ends it. -/
theorem Goes.turn (n : ℕ) (g : GrainId) (t : ServedTurn) (call : ServedCall Value)
    {result : Except Raised Value}
    (hn : s.instances[n]? = some ⟨g, [.turn t], none, false⟩)
    (hcall : s.calls[t.call]? = some call) (hresult : FromCode code req (.finish n result))
    (h : Goes code classes req
      ((s.setInstance n ⟨g, [], none, false⟩).setCall t.call (call.settle t result)) s'') :
    Goes code classes req s s'' := by
  have htake : step code.toCallCodec classes s (.take n) =
      some (s.setInstance n ⟨g, [], some t, false⟩) := by
    simp only [step, stepTake, hn]
  have hlt : n < s.instances.length := (List.getElem?_eq_some_iff.mp hn).1
  refine .cons htake trivial (.cons ?_ hresult h)
  simp [step, stepFinish, setInstance, setCall, List.getElem?_set_self hlt, hcall]

/-- A turn that is over leaves the inbox as it was. -/
theorem served_turn {a : ServedActivation} (h : s.instances[n]? = some a) (item : ServedItem)
    (task : ℕ) (call call' : ServedCall Value) :
    (((s.enqueue n item).setCall task call).setInstance n a).setCall task call' =
      s.setCall task call' := by
  simp [setCall, setInstance, enqueue, set_modify_of_getElem? h]

/-- A call whose activation is idle. -/
structure Ready (s : ServingRuntime Value) (task n : ℕ) (call : ServedCall Value)
    (req : GrainCallRequest Value) (correlationId : ℕ) : Prop where
  task_lt : task < s.calls.length
  idle : s.instances[n]? = some ⟨req.grainId, [], none, false⟩
  correlationId : call.correlationId = some correlationId
  grainId : call.grainId = req.grainId
  method : call.method = req.method

theorem goes_afterActivate (hm : Matches classes code) {correlationId : ℕ}
    (h : Ready s task n call req correlationId) :
    Goes code classes req (s.afterActivate code.toCallCodec classes task call n)
      (s.setCall task (call.conclude code.toCallCodec (outcome code req))) := by
  have hclass := hm.grainClass req.grainId.grainType
  cases hc : classes req.grainId.grainType with
  | none =>
    have houtcome : outcome code req = .error (.grainNotFound
        s!"Grain type {reprText req.grainId.grainType} not registered") := by
      simp only [outcome, getGrainClass, hclass, hc, Option.map_none]
    rw [houtcome]
    simpa only [afterActivate, getGrainClass, h.grainId, hc] using Goes.refl _
  | some c =>
    by_cases hmethod : req.method ∈ c.methods
    · have houtcome : outcome code req = turnResult req.grainId req.method
          (code.runMethod req.grainId req.method req.args req.kwargs) := by
        simp only [outcome, getGrainClass, hclass, hc, Option.map_some, runTurn, hmethod,
          not_true_eq_false, if_false]
      have hroom : s.hasRoom n = true := by
        simp [hasRoom, h.idle, INBOX_MAX_SIZE]
      have hput : s.afterActivate code.toCallCodec classes task call n =
          (s.enqueue n (.turn (.method task))).setCall task
            { call with phase := .awaiting none } := by
        simp only [afterActivate, getGrainClass, h.grainId, h.method, hc, hmethod,
          not_true_eq_false, if_false, putCall, hroom, if_true]
      rw [hput, houtcome]
      refine .turn n req.grainId (.method task) { call with phase := .awaiting none }
        ?_ ?_ (.inr rfl) ?_
      · simp [setCall, enqueue, h.idle]
      · exact List.getElem?_set_self h.task_lt
      · rw [ServedTurn.call, served_turn h.idle]
        refine .cons (e := .resume task) ?_ trivial (Goes.refl _)
        have hcall (call' : ServedCall Value) : (s.setCall task call').calls[task]? = some call' :=
          List.getElem?_set_self h.task_lt
        simp only [step, stepResume, hcall]
        simp [ServedCall.settle, h.grainId, h.method, ServedCall.conclude, setCall]
    · have houtcome : outcome code req = .error (methodNotFound req.grainId req.method) := by
        simp only [outcome, getGrainClass, hclass, hc, Option.map_some, hmethod, not_false_eq_true,
          if_true]
      rw [houtcome]
      simpa only [afterActivate, getGrainClass, h.grainId, h.method, hc, hmethod, not_false_eq_true,
        if_true] using Goes.refl _

/-- The silo with one more activation, which is idle. -/
def grown (s : ServingRuntime Value) (g : GrainId) : ServingRuntime Value :=
  { s with
    activations := Function.update s.activations g (some s.instances.length)
    instances := s.instances ++ [⟨g, [], none, false⟩] }

/-- What comes of a call whose grain has just got an activation. -/
def activated (code : GrainCode Value) (req : GrainCallRequest Value) (c : GrainTraits) :
    Except RuntimeError Value :=
  if c.hasOnActivate then
    match runTurn code req.grainId "on_activate" [] [] with
    | .error e => .error e
    | .ok _ => outcome code req
  else outcome code req

theorem goes_insertActivation (hm : Matches classes code) {correlationId : ℕ} {c : GrainTraits}
    (htask : task < s.calls.length) (hid : call.correlationId = some correlationId)
    (hg : call.grainId = req.grainId) (hmethod : call.method = req.method) :
    Goes code classes req (s.insertActivation code.toCallCodec classes task call c)
      ((s.grown req.grainId).setCall task
        (({ call with activation := some s.instances.length } : ServedCall Value).conclude
          code.toCallCodec (activated code req c))) := by
  have hidle : (s.grown req.grainId).instances[s.instances.length]? =
      some ⟨req.grainId, [], none, false⟩ := List.getElem?_concat_length
  by_cases hhook : c.hasOnActivate = true
  · have hinsert : s.insertActivation code.toCallCodec classes task call c =
        ((s.grown req.grainId).enqueue s.instances.length (.turn (.onActivate task))).setCall task
          { call with activation := some s.instances.length, phase := .activating none } := by
      simp [insertActivation, hhook, hg, grown, enqueue, setCall, modify_length_append]
    rw [hinsert]
    refine .turn s.instances.length req.grainId (.onActivate task)
      { call with activation := some s.instances.length, phase := .activating none }
      ?_ ?_ (.inl rfl) ?_
    · simp [setCall, enqueue, hidle]
    · exact List.getElem?_set_self htask
    · rw [ServedTurn.call, served_turn hidle, activated, if_pos hhook, runTurn]
      cases hr : code.runMethod req.grainId "on_activate" [] [] with
      | error cause =>
        refine .cons (e := .resume task) ?_ trivial (Goes.refl _)
        simp [step, stepResume, setCall, grown, htask, ServedCall.settle, turnResult, hg,
          ServedCall.conclude, Except.map]
      | ok result =>
        let called : ServedCall Value := { call with
          activation := some s.instances.length, phase := .activating (some (.ok ())) }
        have hresume : step code.toCallCodec classes ((s.grown req.grainId).setCall task called)
            (.resume task) = some (((s.grown req.grainId).setCall task called).afterActivate
              code.toCallCodec classes task called s.instances.length) := by
          simp [step, stepResume, setCall, grown, htask, called]
        have hready : Ready ((s.grown req.grainId).setCall task called) task s.instances.length
            called req correlationId :=
          ⟨by simpa [setCall, grown] using htask, hidle, hid, hg, hmethod⟩
        have hgoes := goes_afterActivate hm hready
        simp only [setCall, List.set_set, called] at hgoes
        have hsettle : ServedCall.settle
            { call with activation := some s.instances.length, phase := .activating none }
            (.onActivate task) (.ok result) = called := rfl
        rw [hsettle]
        exact .cons hresume trivial hgoes
  · have hinsert : s.insertActivation code.toCallCodec classes task call c =
        (s.grown req.grainId).afterActivate code.toCallCodec classes task
          { call with activation := some s.instances.length } s.instances.length := by
      simp [insertActivation, hhook, hg, grown]
    rw [hinsert, activated, if_neg hhook]
    exact goes_afterActivate hm ⟨htask, hidle, hid, hg, hmethod⟩

theorem Rests.congr (h : Rests s r) (hinstances : s'.instances = s.instances)
    (hactivations : s'.activations = s.activations) : Rests s' r where
  size := by rw [hinstances, h.size]
  activations g := by rw [hactivations, h.activations g]
  idle g n hn := by
    rw [hactivations] at hn
    rw [hinstances, h.idle g n hn]

theorem Rests.grown (h : Rests s r) (g : GrainId) : Rests (s.grown g) (r.insertActivation g) where
  size := by simp [ServingRuntime.grown, GrainRuntime.insertActivation, h.size]
  activations k := by
    simp only [ServingRuntime.grown, GrainRuntime.insertActivation, Table.get_put,
      Function.update_apply]
    by_cases hk : k = g
    · simp [hk, h.size]
    · simp [hk, h.activations k]
  idle k n hn := by
    simp only [ServingRuntime.grown, Function.update_apply] at hn ⊢
    split_ifs at hn with hk
    · obtain rfl := Option.some.inj hn
      rw [hk, List.getElem?_concat_length]
    · have hlt := (List.getElem?_eq_some_iff.mp (h.idle k n hn)).1
      rw [List.getElem?_append_left hlt, h.idle k n hn]

theorem Rests.hosts (h : Rests s r) (g : GrainId) : r.hosts g = (s.activations g).isSome := by
  rw [h.activations g, Option.isSome_map, GrainRuntime.hosts]

theorem invokeLocal_result (r : GrainRuntime) :
    (Pyleans.invokeLocal code r req.grainId req.method req.args req.kwargs).result =
      match (Pyleans.activateGrain code r req.grainId).2 with
      | .error e => .error e
      | .ok () => outcome code req := by
  unfold Pyleans.invokeLocal outcome
  rcases Pyleans.activateGrain code r req.grainId with ⟨r', e | ⟨⟨⟩⟩⟩
  · rfl
  · cases getGrainClass code.grainClass req.grainId.grainType with
    | error e => rfl
    | ok grainClass => exact apply_ite Served.result _ _ _

theorem answered_conclude {correlationId : ℕ} (hid : call.correlationId = some correlationId)
    (codec : CallCodec Value) (result : Except RuntimeError Value) {call' : ServedCall Value}
    (h : s'.calls = s.calls ++ [call']) :
    Answered s (s'.setCall s.calls.length (call.conclude codec result))
      (servedReply codec correlationId result) := by
  refine .inr ⟨call.conclude codec result, ?_, by simp only [ServedCall.conclude, hid]⟩
  simp [setCall, h]

theorem goes_inserted (hm : Matches classes code) (correlationId : ℕ) (c : GrainTraits)
    (h : Rests s' r) (hcalls : s'.calls = s.calls ++ [call]) :
    ∃ s'', Goes code classes req
        (s'.insertActivation code.toCallCodec classes s.calls.length
          ⟨some correlationId, req.grainId, req.method, none, .loading⟩ c) s'' ∧
      Rests s'' (r.insertActivation req.grainId) ∧
      Answered s s'' (servedReply code.toCallCodec correlationId (activated code req c)) :=
  ⟨_, goes_insertActivation hm (by simp [hcalls]) rfl rfl rfl,
    (h.grown req.grainId).congr rfl rfl, answered_conclude rfl _ _ hcalls⟩

theorem setCall_spawn (s : ServingRuntime Value) (call call' : ServedCall Value) :
    (s.spawn call).setCall s.calls.length call' = s.spawn call' := by
  simp [setCall, spawn]

theorem step_loaded (codec : CallCodec Value) (s : ServingRuntime Value) (call : ServedCall Value)
    {c : GrainTraits} (hc : classes call.grainId.grainType = some c)
    (hphase : call.phase = .loading)
    (loaded : Except String Unit) :
    step codec classes (s.spawn call) (.loaded s.calls.length loaded) = some (match loaded with
      | .error e => s.spawn (call.conclude codec (.error (loadFailed call.grainId e)))
      | .ok () => (s.spawn call).insertActivation codec classes s.calls.length call c) := by
  have hcall : (s.spawn call).calls[s.calls.length]? = some call := List.getElem?_concat_length
  simp only [step, stepLoaded, hcall, hphase, hc, setCall_spawn]
  cases loaded <;> rfl

/-- A call that no other disturbs is served as `Pyleans.invokeLocal` computes it. -/
theorem goes_invokeLocal (hm : Matches classes code) (h : Rests s r) (correlationId : ℕ)
    (req : GrainCallRequest Value) :
    ∃ s', Goes code classes req
        (s.invokeLocal code.toCallCodec classes
          ⟨some correlationId, req.grainId, req.method, none, .loading⟩
          (code.newInstance req.grainId)) s' ∧
      Rests s' (Pyleans.invokeLocal code r req.grainId req.method req.args req.kwargs).runtime ∧
      Answered s s' (servedReply code.toCallCodec correlationId
        (Pyleans.invokeLocal code r req.grainId req.method req.args req.kwargs).result) := by
  have hhosts := h.hosts req.grainId
  rw [invokeLocal_runtime, invokeLocal_result]
  cases hn : s.activations req.grainId with
  | some n =>
    have hactivate : Pyleans.activateGrain code r req.grainId = (r, .ok ()) := by
      rw [Pyleans.activateGrain, hhosts, hn, Option.isSome_some, if_pos rfl]
    have hready : Ready (s.spawn ⟨some correlationId, req.grainId, req.method, some n, .loading⟩)
        s.calls.length n ⟨some correlationId, req.grainId, req.method, some n, .loading⟩ req
        correlationId :=
      ⟨by simp [spawn], h.idle _ _ hn, rfl, rfl, rfl⟩
    rw [hactivate, invokeLocal, hn]
    exact ⟨_, goes_afterActivate hm hready, h.congr rfl rfl, answered_conclude rfl _ _ rfl⟩
  | none =>
    rw [hn, Option.isSome_none] at hhosts
    rw [invokeLocal, hn]
    simp only [Pyleans.activateGrain, activateGrain, getGrainClass, hhosts, Bool.false_eq_true,
      if_false, hm.grainClass]
    cases hc : classes req.grainId.grainType with
    | none => exact ⟨_, Goes.refl _, h.congr rfl rfl, answered_conclude rfl _ _ rfl⟩
    | some c =>
      dsimp only [Option.map_some]
      cases code.newInstance req.grainId with
      | error e => exact ⟨_, Goes.refl _, h.congr rfl rfl, answered_conclude rfl _ _ rfl⟩
      | ok u =>
        have hstep (loaded : Except String Unit) := step_loaded code.toCallCodec s
          ⟨some correlationId, req.grainId, req.method, none, .loading⟩ hc rfl loaded
        dsimp only
        rw [setCall_spawn]
        cases hloaded : code.loadState req.grainId with
        | error e =>
          have hreads : c.readsStorage = true := by
            by_contra hreads
            rw [hm.loadState req.grainId c hc (Bool.eq_false_iff.mpr hreads)] at hloaded
            cases hloaded
          rw [if_pos hreads]
          exact ⟨_, .cons (hstep (.error e)) hloaded.symm (Goes.refl _), h.congr rfl rfl,
            .inr ⟨_, rfl, rfl⟩⟩
        | ok v =>
          have hspawn :
              Rests (s.spawn ⟨some correlationId, req.grainId, req.method, none, .loading⟩) r :=
            h.congr rfl rfl
          obtain ⟨s', hgoes, hrests, hanswered⟩ :=
            goes_inserted (s := s) hm correlationId c hspawn rfl
          refine ⟨s', ?_, ?_, ?_⟩
          · split_ifs
            · exact .cons (hstep (.ok ())) hloaded.symm hgoes
            · exact hgoes
          · dsimp only
            split_ifs <;> exact hrests
          · rw [activated] at hanswered
            split_ifs at hanswered ⊢
            · cases hr : runTurn code req.grainId "on_activate" [] [] with
              | error e => simpa only [hr, Except.map] using hanswered
              | ok value => simpa only [hr, Except.map] using hanswered
            · exact hanswered

/-- A request that no other disturbs is answered as `Pyleans.handleGrainCall` computes it, and
leaves the activations that it computes. -/
theorem exec_undisturbed (hm : Matches classes code) (h : Rests s r) (now : ℚ)
    (msg : TransportMessage) {created : Except String Unit}
    (hcreated : ∀ req, code.decodeRequest msg.body = .ok req →
      created = code.newInstance req.grainId) :
    ∃ events s',
      (∀ req, code.decodeRequest msg.body = .ok req → ∀ e ∈ events, FromCode code req e) ∧
      exec (step code.toCallCodec classes) s (.deliver now msg created :: events) = some s' ∧
      Rests s' (Pyleans.handleGrainCall code r now msg).runtime ∧
      ∀ reply ∈ (Pyleans.handleGrainCall code r now msg).reply, Answered s s' reply := by
  have hrun {s₁ s' : ServingRuntime Value} {events : List (ServingEvent Value)}
      (hdeliver : s.handleGrainCall code.toCallCodec classes now msg created = s₁)
      (hexec : exec (step code.toCallCodec classes) s₁ events = some s') :
      exec (step code.toCallCodec classes) s (.deliver now msg created :: events) = some s' :=
    exec_cons.mpr ⟨s₁, congrArg some hdeliver, hexec⟩
  unfold Pyleans.handleGrainCall
  by_cases hheader : msg.header ≠ GRAIN_CALL_HEADER ∨ msg.messageType ≠ .request
  · have hdeliver : s.handleGrainCall code.toCallCodec classes now msg created = s := by
      rw [handleGrainCall, if_pos hheader]
    rw [if_pos hheader]
    exact ⟨[], s, by simp, hrun hdeliver rfl, h, by simp⟩
  rw [if_neg hheader]
  cases hdecode : code.decodeRequest msg.body with
  | error e =>
    have hdeliver : s.handleGrainCall code.toCallCodec classes now msg created =
        { s with malformed := s.malformed ++ [malformedReply msg.correlationId e] } := by
      simp only [handleGrainCall, if_neg hheader, hdecode]
    exact ⟨[], _, by simp, hrun hdeliver rfl, h.congr rfl rfl, by simp [Answered]⟩
  | ok req =>
    obtain rfl := hcreated req hdecode
    by_cases hlate : ∃ deadline ∈ req.deadline, now ≥ deadline
    · have hdeliver : s.handleGrainCall code.toCallCodec classes now msg
          (code.newInstance req.grainId) = s.spawn ⟨some msg.correlationId, req.grainId,
            req.method, none, .replied (lateReply msg.correlationId)⟩ := by
        simp only [handleGrainCall, if_neg hheader, hdecode, if_pos hlate]
      dsimp only
      rw [if_pos hlate]
      exact ⟨[], _, by simp, hrun hdeliver rfl, h.congr rfl rfl, by simp [Answered, spawn]⟩
    · have hclass := hm.grainClass req.grainId.grainType
      dsimp only
      rw [if_neg hlate]
      cases hc : classes req.grainId.grainType with
      | none =>
        have hdeliver : s.handleGrainCall code.toCallCodec classes now msg
            (code.newInstance req.grainId) = s.spawn (ServedCall.conclude code.toCallCodec
              ⟨some msg.correlationId, req.grainId, req.method, none, .loading⟩
              (.error (.grainNotFound
                s!"Grain type {reprText req.grainId.grainType} not registered"))) := by
          simp only [handleGrainCall, if_neg hheader, hdecode, if_neg hlate, getGrainClass, hc]
        simp only [getGrainClass, hclass, hc, Option.map_none]
        exact ⟨[], _, by simp, hrun hdeliver rfl, h.congr rfl rfl,
          by simp [Answered, spawn, ServedCall.conclude, servedReply]⟩
      | some c =>
        have hdeliver : s.handleGrainCall code.toCallCodec classes now msg
            (code.newInstance req.grainId) = s.invokeLocal code.toCallCodec classes
              ⟨some msg.correlationId, req.grainId, req.method, none, .loading⟩
              (code.newInstance req.grainId) := by
          simp only [handleGrainCall, if_neg hheader, hdecode, if_neg hlate, getGrainClass, hc]
        obtain ⟨s', ⟨events, hfrom, hexec⟩, hrests, hanswered⟩ :=
          goes_invokeLocal hm h msg.correlationId req
        simp only [getGrainClass, hclass, hc, Option.map_some]
        refine ⟨events, s', ?_, hrun hdeliver hexec, hrests, ?_⟩
        · rintro req' hreq'
          obtain rfl := Except.ok.inj hreq'
          exact hfrom
        · rintro reply hreply
          obtain rfl := Option.some.inj hreply
          exact hanswered

end Pyleans.ServingRuntime
