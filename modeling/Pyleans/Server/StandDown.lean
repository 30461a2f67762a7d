import Pyleans.Cluster.Ownership
import Pyleans.Server.Runtime

namespace Pyleans

open Library DistributedGrainDirectory Ownership

structure DeactivateRequest where
  grainId : GrainId
  activationEpoch : ℤ
deriving DecidableEq, Repr

/-- Where a `deactivate_grain` is suspended: in the grain's `on_deactivate`,
until the worker has ended, or in `unregister`. -/
inductive DeactivationStage
  | onDeactivate
  | stopping
  | unregistering
deriving DecidableEq, Repr

/-- A running `deactivate_grain` with the activation that it took up. `order`
is the epoch of the order that it carries out, which no code looks at. -/
structure Deactivation where
  grainId : GrainId
  number : ℕ
  order : Option ℤ
  stage : DeactivationStage
deriving DecidableEq, Repr

/-- A silo, the partition of the directory in which its grains are registered
(its own or another silo's), and the orders in flight to it. `stopped` lists the
activations whose worker was told to end. -/
structure StandDown where
  directory : DirectoryRun
  runtime : GrainRuntime
  notifierInstalled : Bool
  stopped : List ℕ
  orders : List DeactivateRequest
  deactivations : List Deactivation

/-- `abandon` is a coroutine that is cancelled, or whose `unregister` raises, is
lost or goes to another partition. -/
inductive StandDownEvent
  | directory (event : DirectoryEvent)
  | activate (g : GrainId)
  | send (req : DeactivateRequest)
  | receive (i : ℕ)
  | deactivate (g : GrainId)
  | advance (i : ℕ)
  | abandon (i : ℕ)

namespace StandDown

def entry (s : StandDown) (g : GrainId) : Option DirectoryEntry := s.directory.directory.owned.get g

def activation (s : StandDown) (g : GrainId) : Option GrainActivation := s.runtime.activations.get g

def deactivateGrain (s : StandDown) (g : GrainId) (order : Option ℤ) : StandDown :=
  match s.activation g with
  | none => s
  | some a => { s with deactivations := s.deactivations ++ [⟨g, a.number, order, .onDeactivate⟩] }

def onDirectoryDeactivate (s : StandDown) (g : GrainId) (activationEpoch : ℤ) : StandDown :=
  if s.runtime.hosts g then s.deactivateGrain g (some activationEpoch) else s

def applyDeactivate (s : StandDown) (req : DeactivateRequest) : StandDown :=
  if s.notifierInstalled then s.onDirectoryDeactivate req.grainId req.activationEpoch else s

/-- The rest of `deactivate_grain`: the sentinel for the activation it took up,
then whatever the grain has in the table, then the directory. -/
def resume (s : StandDown) (i : ℕ) (d : Deactivation) : StandDown :=
  match d.stage with
  | .onDeactivate =>
    { s with
      stopped := d.number :: s.stopped
      deactivations := s.deactivations.set i { d with stage := .stopping } }
  | .stopping =>
    { s with
      runtime := s.runtime.popActivation d.grainId
      deactivations := s.deactivations.set i { d with stage := .unregistering } }
  | .unregistering =>
    { s with
      directory.directory := s.directory.directory.unregisterLocal d.grainId s.runtime.localSilo
      deactivations := s.deactivations.eraseIdx i }

def carriedOut (s : StandDown) : StandDownEvent → Option DeactivateRequest
  | .receive i => s.orders[i]?
  | .advance i => s.deactivations[i]?.bind fun d ↦ d.order.map fun e ↦ ⟨d.grainId, e⟩
  | _ => none

/-- The directory maps the grain to this silo under another epoch than the order names. -/
def Renewed (s : StandDown) (req : DeactivateRequest) : Prop :=
  ∃ e ∈ s.entry req.grainId, e.silo = s.runtime.localSilo ∧ e.activationEpoch ≠ req.activationEpoch

instance (s : StandDown) (req : DeactivateRequest) : Decidable (s.Renewed req) :=
  inferInstanceAs (Decidable (∃ e ∈ s.entry req.grainId,
    e.silo = s.runtime.localSilo ∧ e.activationEpoch ≠ req.activationEpoch))

/-- The activation of the grain runs on, and the directory keeps its entry. -/
structure Spares (s s' : StandDown) (g : GrainId) : Prop where
  activation : s'.activation g = s.activation g
  running : ∀ a ∈ s.activation g, a.number ∈ s'.stopped → a.number ∈ s.stopped
  entry : s'.entry g = s.entry g

variable [StableHash] [SeededRandom]

def step (s : StandDown) : StandDownEvent → Option StandDown
  | .directory event => (Ownership.step s.directory event).map fun run ↦ { s with directory := run }
  | .activate g => some { s with runtime := s.runtime.insertActivation g }
  | .send req => some { s with orders := s.orders ++ [req] }
  | .receive i =>
    s.orders[i]?.map fun req ↦ { s with orders := s.orders.eraseIdx i }.applyDeactivate req
  | .deactivate g => some (s.deactivateGrain g none)
  | .advance i => s.deactivations[i]?.map fun d ↦ s.resume i d
  | .abandon i => some { s with deactivations := s.deactivations.eraseIdx i }

/-- A step of an order's processing spares a grain that the directory maps here
under another epoch. -/
def HitsNamed (s : StandDown) (event : StandDownEvent) : Prop :=
  ∀ req s', s.carriedOut event = some req → s.Renewed req → step s event = some s' →
    s.Spares s' req.grainId

/-- No order is taken up for a grain that the directory maps here under another
epoch, and the directory does not come to do so while an order is carried out. -/
def Orderly (s : StandDown) : StandDownEvent → Prop
  | .receive i =>
    ∀ req, s.orders[i]? = some req → s.notifierInstalled = true →
      s.runtime.hosts req.grainId = true →
      ¬ s.Renewed req
  | .directory event => ∀ run, Ownership.step s.directory event = some run →
      ∀ d ∈ s.deactivations, ∀ e, d.order = some e →
        ¬ { s with directory := run }.Renewed ⟨d.grainId, e⟩
  | _ => True

instance decidableOrderly (s : StandDown) : ∀ event, Decidable (s.Orderly event)
  | .receive i =>
    inferInstanceAs (Decidable (∀ req ∈ s.orders[i]?, s.notifierInstalled = true →
      s.runtime.hosts req.grainId = true → ¬ s.Renewed req))
  | .directory event =>
    inferInstanceAs (Decidable (∀ run ∈ Ownership.step s.directory event, ∀ d ∈ s.deactivations,
      ∀ e ∈ d.order, ¬ { s with directory := run }.Renewed ⟨d.grainId, e⟩))
  | .activate _ | .send _ | .deactivate _ | .advance _ | .abandon _ => .isTrue trivial

def NoneRenewed (s : StandDown) : Prop :=
  ∀ d ∈ s.deactivations, ∀ e, d.order = some e → ¬ s.Renewed ⟨d.grainId, e⟩

section

variable {s s' : StandDown} {i : ℕ} {d : Deactivation} {req : DeactivateRequest} {g : GrainId}

omit [StableHash] [SeededRandom] in
theorem deactivateGrain_cases (s : StandDown) (g : GrainId) (order : Option ℤ) :
    s.deactivateGrain g order = s ∨ ∃ a ∈ s.activation g,
      s.deactivateGrain g order =
        { s with deactivations := s.deactivations ++ [⟨g, a.number, order, .onDeactivate⟩] } := by
  unfold deactivateGrain
  split
  · exact .inl rfl
  · next a ha => exact .inr ⟨a, ha, rfl⟩

omit [StableHash] [SeededRandom] in
theorem applyDeactivate_cases (s : StandDown) (req : DeactivateRequest) :
    (s.applyDeactivate req = s ∧
      ¬ (s.notifierInstalled = true ∧ s.runtime.hosts req.grainId = true)) ∨
      ∃ a ∈ s.activation req.grainId, s.notifierInstalled = true ∧
        s.runtime.hosts req.grainId = true ∧
        s.applyDeactivate req = { s with
          deactivations := s.deactivations
            ++ [⟨req.grainId, a.number, some req.activationEpoch, .onDeactivate⟩] } := by
  unfold applyDeactivate onDirectoryDeactivate
  split_ifs with hn hh
  · obtain ⟨a, ha⟩ := Option.isSome_iff_exists.mp hh
    have hactivation : s.activation req.grainId = some a := ha
    exact .inr ⟨a, hactivation, hn, hh, by rw [deactivateGrain, hactivation]⟩
  · exact .inl ⟨rfl, fun h ↦ hh h.2⟩
  · exact .inl ⟨rfl, fun h ↦ hn h.1⟩

omit [StableHash] [SeededRandom] in
theorem applyDeactivate_spares (s : StandDown) (req : DeactivateRequest) (g : GrainId) :
    s.Spares (s.applyDeactivate req) g := by
  rcases applyDeactivate_cases s req with ⟨h, -⟩ | ⟨a, -, -, -, h⟩
  · rw [h]
    exact ⟨rfl, fun _ _ ha ↦ ha, rfl⟩
  · rw [h]
    exact ⟨rfl, fun _ _ ha ↦ ha, rfl⟩

omit [StableHash] [SeededRandom] in
theorem Renewed.congr (h : s'.Renewed req) (hentry : s'.entry req.grainId = s.entry req.grainId)
    (hsilo : s'.runtime.localSilo = s.runtime.localSilo) : s.Renewed req := by
  obtain ⟨e, he, hs, hepoch⟩ := h
  exact ⟨e, hentry ▸ he, hs.trans hsilo, hepoch⟩

omit [StableHash] [SeededRandom] in
theorem renewed_of_resume (h : (s.resume i d).Renewed req) : s.Renewed req := by
  unfold resume at h
  split at h
  · exact h.congr rfl rfl
  · exact h.congr rfl rfl
  · obtain ⟨e, he, hs, hepoch⟩ := h
    refine ⟨e, ?_, hs, hepoch⟩
    have hget : (s.directory.directory.unregisterLocal d.grainId s.runtime.localSilo).owned.get
      req.grainId =
        some e := he
    rw [unregisterLocal_get] at hget
    split_ifs at hget
    · exact Option.eq_some_of_filter_eq_some hget
    · exact hget

omit [StableHash] [SeededRandom] in
theorem mem_resume (hi : s.deactivations[i]? = some d) {d' : Deactivation}
    (h : d' ∈ (s.resume i d).deactivations) :
    ∃ c ∈ s.deactivations, d'.grainId = c.grainId ∧ d'.order = c.order := by
  have hd := List.mem_of_getElem? hi
  unfold resume at h
  split at h
  · rcases List.mem_or_eq_of_mem_set h with h | rfl
    · exact ⟨d', h, rfl, rfl⟩
    · exact ⟨d, hd, rfl, rfl⟩
  · rcases List.mem_or_eq_of_mem_set h with h | rfl
    · exact ⟨d', h, rfl, rfl⟩
    · exact ⟨d, hd, rfl, rfl⟩
  · exact ⟨d', List.mem_of_mem_eraseIdx h, rfl, rfl⟩

theorem noneRenewed_step {event : StandDownEvent} (h : s.NoneRenewed)
    (hs : step s event = some s') :
    s.Orderly event ↔ s'.NoneRenewed := by
  cases event with
  | directory event =>
    obtain ⟨run, hrun, rfl⟩ := Option.map_eq_some_iff.mp hs
    constructor
    · exact fun ho ↦ ho run hrun
    · intro hn run' hrun'
      obtain rfl := Option.some.inj (hrun.symm.trans hrun')
      exact hn
  | activate g =>
    obtain rfl := Option.some.inj hs
    exact iff_of_true trivial fun d hd e he hr ↦ h d hd e he (hr.congr rfl rfl)
  | send req =>
    obtain rfl := Option.some.inj hs
    exact iff_of_true trivial fun d hd e he hr ↦ h d hd e he (hr.congr rfl rfl)
  | receive i =>
    obtain ⟨req, hreq, rfl⟩ := Option.map_eq_some_iff.mp hs
    rcases applyDeactivate_cases { s with orders := s.orders.eraseIdx i } req with ⟨heq, hidle⟩
      | ⟨a, -, hn, hh, heq⟩
    · rw [heq]
      refine iff_of_true (fun req' hreq' hn hh ↦ ?_) fun d hd e he hr ↦
        h d hd e he (hr.congr rfl rfl)
      obtain rfl := Option.some.inj (hreq.symm.trans hreq')
      exact absurd ⟨hn, hh⟩ hidle
    · rw [heq]
      constructor
      · intro ho d hd e he hr
        rcases List.mem_append.mp hd with hd | hd
        · exact h d hd e he (hr.congr rfl rfl)
        · obtain rfl := List.mem_singleton.mp hd
          obtain rfl := Option.some.inj he
          exact ho req hreq hn hh (hr.congr rfl rfl)
      · intro hnone req' hreq' _ _ hr
        obtain rfl := Option.some.inj (hreq.symm.trans hreq')
        exact hnone _ (List.mem_append_right _ (List.mem_singleton_self _)) _ rfl (hr.congr rfl rfl)
  | deactivate g =>
    obtain rfl := Option.some.inj hs
    refine iff_of_true trivial ?_
    rcases deactivateGrain_cases s g none with heq | ⟨a, -, heq⟩
    · rw [heq]
      exact h
    · rw [heq]
      intro d hd e he hr
      rcases List.mem_append.mp hd with hd | hd
      · exact h d hd e he (hr.congr rfl rfl)
      · obtain rfl := List.mem_singleton.mp hd
        cases he
  | advance i =>
    obtain ⟨d, hd, rfl⟩ := Option.map_eq_some_iff.mp hs
    refine iff_of_true trivial fun d' hd' e he hr ↦ ?_
    obtain ⟨c, hc, hgrain, horder⟩ := mem_resume hd hd'
    have hrenewed := renewed_of_resume hr
    rw [hgrain] at hrenewed
    exact h c hc e (horder ▸ he) hrenewed
  | abandon i =>
    obtain rfl := Option.some.inj hs
    exact iff_of_true trivial fun d hd e he hr ↦
      h d (List.mem_of_mem_eraseIdx hd) e he (hr.congr rfl rfl)

/-- What happens next harms no grain as long as none is registered anew. -/
theorem NoneRenewed.hitsNamed (h : s.NoneRenewed) (event : StandDownEvent) : s.HitsNamed event := by
  intro req s' hcarried hr hs
  cases event with
  | receive i =>
    obtain ⟨req', hreq, rfl⟩ := Option.map_eq_some_iff.mp hs
    obtain ⟨hactivation, hrunning, hentry⟩ :=
      applyDeactivate_spares { s with orders := s.orders.eraseIdx i } req' req.grainId
    exact ⟨hactivation, hrunning, hentry⟩
  | advance i =>
    obtain ⟨d, hd, horder⟩ := Option.bind_eq_some_iff.mp hcarried
    obtain ⟨e, he, rfl⟩ := Option.map_eq_some_iff.mp horder
    exact absurd hr (h d (List.mem_of_getElem? hd) e he)
  | directory event => cases hcarried
  | activate g => cases hcarried
  | send req => cases hcarried
  | deactivate g => cases hcarried
  | abandon i => cases hcarried

theorem not_hitsNamed_of_unregistering (hd : s.deactivations[i]? = some d) {e : ℤ}
    (he : d.order = some e) (hstage : d.stage = .unregistering) (hr : s.Renewed ⟨d.grainId, e⟩) :
      ¬ s.HitsNamed (.advance i) := by
  intro hits
  have hstep : step s (.advance i) = some (s.resume i d) := by rw [step, hd, Option.map_some]
  have hcarried : s.carriedOut (.advance i) = some ⟨d.grainId, e⟩ := by
    rw [carriedOut, hd, Option.bind_some, he, Option.map_some]
  have hkept := (hits _ _ hcarried hr hstep).entry
  obtain ⟨entry, hentry, hsilo, -⟩ := hr
  have hgone : (s.resume i d).entry d.grainId = none := by
    have hget : (s.resume i d).entry d.grainId =
        (s.directory.directory.unregisterLocal d.grainId
          s.runtime.localSilo).owned.get d.grainId := by
      rw [resume, hstage]
      rfl
    have hmapped : s.directory.directory.owned.get d.grainId = some entry := hentry
    rw [hget, unregisterLocal_get, if_pos rfl, hmapped]
    simp [hsilo]
  rw [hgone] at hkept
  cases hkept.trans hentry

omit [StableHash] [SeededRandom] in
theorem resume_next (hd : s.deactivations[i]? = some d) {next : DeactivationStage}
    (hnext : d.stage = .onDeactivate ∧ next = .stopping ∨
      d.stage = .stopping ∧ next = .unregistering) :
    (s.resume i d).deactivations[i]? = some { d with stage := next } ∧
      ∀ req, s.Renewed req → (s.resume i d).Renewed req := by
  obtain ⟨hlt, -⟩ := List.getElem?_eq_some_iff.mp hd
  rcases hnext with ⟨hstage, rfl⟩ | ⟨hstage, rfl⟩
  · rw [resume, hstage]
    exact ⟨List.getElem?_set_self hlt, fun req hr ↦ hr.congr rfl rfl⟩
  · rw [resume, hstage]
    exact ⟨List.getElem?_set_self hlt, fun req hr ↦ hr.congr rfl rfl⟩

theorem hitsNamed_resume (hd : s.deactivations[i]? = some d)
    (h : ∀ k, Meets step HitsNamed s (List.replicate k (.advance i))) (k : ℕ) :
    Meets step HitsNamed (s.resume i d) (List.replicate k (.advance i)) :=
  (h (k + 1)).2 _ (by rw [step, hd, Option.map_some])

theorem not_renewed_of_stopping (hd : s.deactivations[i]? = some d) {e : ℤ} (he : d.order = some e)
    (hstage : d.stage = .stopping)
    (h : ∀ k, Meets step HitsNamed s (List.replicate k (.advance i))) :
    ¬ s.Renewed ⟨d.grainId, e⟩ := by
  intro hr
  obtain ⟨hd', hr'⟩ := resume_next hd (.inr ⟨hstage, rfl⟩)
  have hlast := (hitsNamed_resume hd h 1).1
  exact not_hitsNamed_of_unregistering hd' he rfl (hr' _ hr) hlast

/-- Let run on to its end, a stand-down for a grain registered anew takes the
new entry off the directory. -/
theorem not_renewed_of_finish (hd : s.deactivations[i]? = some d) {e : ℤ} (he : d.order = some e)
    (h : ∀ k, Meets step HitsNamed s (List.replicate k (.advance i))) : ¬ s.Renewed
      ⟨d.grainId, e⟩ := by
  cases hstage : d.stage with
  | onDeactivate =>
    intro hr
    obtain ⟨hd', hr'⟩ := resume_next hd (.inl ⟨hstage, rfl⟩)
    have hrest := hitsNamed_resume hd h
    exact not_renewed_of_stopping hd' he rfl hrest (hr' _ hr)
  | stopping => exact not_renewed_of_stopping hd he hstage h
  | unregistering => exact fun hr ↦ not_hitsNamed_of_unregistering hd he hstage hr (h 1).1

/-- No grain is being stood down that is registered anew exactly when every
stand-down can run on to its end without harm. -/
theorem noneRenewed_iff_finish :
    s.NoneRenewed ↔ ∀ i k, Meets step HitsNamed s (List.replicate k (.advance i)) := by
  constructor
  · intro h i k
    induction k generalizing s with
    | zero => trivial
    | succ k ih => exact ⟨h.hitsNamed _, fun s' hs ↦ ih ((noneRenewed_step h hs).mp trivial)⟩
  · intro h d hd e he
    obtain ⟨i, hi⟩ := List.mem_iff_getElem?.mp hd
    exact not_renewed_of_finish hi he (h i)

end

/-- For every run: all its steps are orderly exactly when at no point of it a
stand-down that runs on to its end does harm, and then none of its steps does. -/
theorem order_hits_named_iff (s : StandDown) (hs : s.deactivations = [])
    (events : List StandDownEvent) (t : StandDown) (h : exec step s events = some t) :
    (Meets step Orderly s events ↔ ∀ before u, before <+: events → exec step s before = some u →
      ∀ i k, Meets step HitsNamed u (List.replicate k (.advance i))) ∧
    (Meets step Orderly s events → Meets step HitsNamed s events) := by
  have hstart : s.NoneRenewed := by
    intro d hd
    rw [hs] at hd
    cases hd
  constructor
  · rw [meets_iff_always (I := NoneRenewed) h hstart fun _ _ _ hi hstep ↦ noneRenewed_step hi hstep]
    simp only [noneRenewed_iff_finish]
  · intro hmeets
    exact hmeets.imp hstart (fun _ _ _ hi ho hstep ↦ (noneRenewed_step hi hstep).mp ho)
      fun _ a hi _ ↦ hi.hitsNamed a

omit [StableHash] [SeededRandom]

def standDownStart : StandDown := ⟨twoSiloStart, .init siloB, true, [], [], []⟩

/-- A handoff under a lower epoch makes `siloB` the loser, which stands down at once. -/
def promptOrder : List StandDownEvent :=
  [.directory (.op (.recvRegister counter1 siloB)), .activate counter1,
    .directory (.op (.recvHandoff ⟨counter1, siloC, 0⟩)), .send ⟨counter1, 1⟩, .receive 0,
    .advance 0, .advance 0, .advance 0]

theorem order_hits_named_promptOrder :
    letI := sampleHash
    letI := sampleRandom
    ∃ t, exec step standDownStart promptOrder = some t ∧
      (∀ before u, before <+: promptOrder → exec step standDownStart before = some u →
        ∀ i k, Meets step HitsNamed u (List.replicate k (.advance i))) ∧
      Meets step HitsNamed standDownStart promptOrder := by
  let _ := sampleHash
  let _ := sampleRandom
  have horderly : Meets step Orderly standDownStart promptOrder := by
    decide
  obtain ⟨halways, hmeets⟩ := order_hits_named_iff standDownStart rfl promptOrder _ rfl
  exact ⟨_, rfl, halways.mp horderly, hmeets horderly⟩

/-- The same order, but while it is in flight the grain goes from `siloB` and `siloC` and comes
back. -/
def lateOrder : List StandDownEvent :=
  [.directory (.op (.recvRegister counter1 siloB)), .activate counter1,
    .directory (.op (.recvHandoff ⟨counter1, siloC, 0⟩)), .send ⟨counter1, 1⟩, .deactivate counter1,
    .advance 0, .advance 0, .advance 0, .directory (.op (.recvUnregister counter1 siloC)),
    .directory (.op (.recvRegister counter1 siloB)), .activate counter1, .receive 0]

theorem late_order_stops_new_activation :
    letI := sampleHash
    letI := sampleRandom
    ¬ ∀ events, Meets step HitsNamed standDownStart events := by
  intro h
  obtain ⟨-, hlast⟩ := meets_append.mp (h (lateOrder ++ [.advance 0]))
  have hspares := (hlast _ rfl).1 ⟨counter1, 1⟩ _ rfl (by decide) rfl
  exact absurd (hspares.running ⟨counter1, 1⟩ rfl (by decide)) (by decide)

end StandDown

end Pyleans
