import Pyleans.Server.LocalRuntime

namespace Pyleans

open Library

namespace LocalRuntime

/-- The `n`th activation is one of `g`, and its worker runs. -/
def Runs (s : LocalRuntime) (g : GrainId) (n : ℕ) : Prop :=
  ∃ a, s.instances[n]? = some a ∧ a.grainId = g ∧ a.stopped = false

/-- What the runtime holds for `g`, if anything, has no running worker. -/
def EntryStopped (s : LocalRuntime) (g : GrainId) : Prop :=
  ∀ n ∈ s.activations g, ∀ a ∈ s.instances[n]?, a.stopped = true

instance (s : LocalRuntime) (g : GrainId) : Decidable (s.EntryStopped g) := by
  unfold EntryStopped; infer_instance

/-- The grain whose entry an event writes over or removes without a look at it. -/
def replaces (s : LocalRuntime) : LocalEvent → Option GrainId
  | .loaded task true =>
    match s.tasks[task]? with
    | some (.loading g _) => some g
    | _ => none
  | .pop task =>
    match s.tasks[task]? with
    | some (.stopping _ g _) => some g
    | _ => none
  | _ => none

/-- No entry with a running worker is lost. -/
def Orderly (s : LocalRuntime) (e : LocalEvent) : Prop := ∀ g ∈ s.replaces e, s.EntryStopped g

instance (s : LocalRuntime) (e : LocalEvent) : Decidable (s.Orderly e) := by
  unfold Orderly; infer_instance

/-- Every running worker is that of the activation which the runtime holds. -/
def Registered (s : LocalRuntime) : Prop := ∀ g n, s.Runs g n → s.activations g = some n

section

variable {classes : String → Option GrainTraits} {s s' : LocalRuntime} {g k : GrainId} {n task : ℕ}

theorem runs_setInstance {a a' : LocalActivation} {m : ℕ} (h : s.instances[n]? = some a)
    (hg : a'.grainId = a.grainId) (hstopped : a'.stopped = false → a.stopped = false)
    (hr : (s.setInstance n a').Runs k m) : s.Runs k m := by
  obtain ⟨b, hb, hbk, hbs⟩ := hr
  rcases (getElem?_replaced h).mp hb with ⟨rfl, rfl⟩ | ⟨-, hb⟩
  · exact ⟨a, h, hg ▸ hbk, hstopped hbs⟩
  · exact ⟨b, hb, hbk, hbs⟩

/-- Beside what the runtime holds, a step may only stop workers. -/
def Quietly (s s' : LocalRuntime) : Prop :=
  s'.activations = s.activations ∧ ∀ k m, s'.Runs k m → s.Runs k m

def Inserts (s s' : LocalRuntime) (g : GrainId) : Prop :=
  s'.activations = Function.update s.activations g (some s.instances.length) ∧
    ∀ k m, s'.Runs k m → s.Runs k m ∨ (k = g ∧ m = s.instances.length)

theorem inserts_insertActivation (s : LocalRuntime) (task : ℕ) (c : GrainTraits) (g : GrainId)
    (method : Option String) : s.Inserts (s.insertActivation classes task c g method) g := by
  refine ⟨rfl, ?_⟩
  rintro k m ⟨a, ha, hk, hs⟩
  rcases getElem?_grown.mp ha with ha | ⟨hm, rfl⟩
  · exact .inl ⟨a, ha, hk, hs⟩
  · exact .inr ⟨hk.symm, hm⟩

/-- A first call inserts at once only when nothing is there. -/
theorem activateGrain_cases (s : LocalRuntime) (task : ℕ) (g : GrainId) (method : Option String) :
    s.Quietly (s.activateGrain classes task g method) ∨
      s.activations g = none ∧ s.Inserts (s.activateGrain classes task g method) g := by
  simp only [activateGrain]
  split
  · exact .inl ⟨rfl, fun k m h ↦ h⟩
  · next hnone =>
    split
    · exact .inl ⟨rfl, fun k m h ↦ h⟩
    · next c _ =>
      split_ifs
      · exact .inl ⟨rfl, fun k m h ↦ h⟩
      · exact .inr ⟨hnone, inserts_insertActivation s task c g method⟩

variable (classes) in
theorem activateGrain_tasks (s : LocalRuntime) (task : ℕ) (g : GrainId) (method : Option String) :
    ∃ t, (s.activateGrain classes task g method).tasks = s.tasks.set task t := by
  unfold activateGrain
  split
  · exact ⟨_, rfl⟩
  · split
    · exact ⟨_, rfl⟩
    · split_ifs <;> exact ⟨_, rfl⟩

theorem quietly_setTask (s : LocalRuntime) (task : ℕ) (t : LocalTask) :
    s.Quietly (s.setTask task t) :=
  ⟨rfl, fun _ _ h ↦ h⟩

theorem quietly_setInstance {a a' : LocalActivation} (h : s.instances[n]? = some a)
    (hg : a'.grainId = a.grainId) (hstopped : a'.stopped = false → a.stopped = false) :
    s.Quietly (s.setInstance n a') :=
  ⟨rfl, fun _ _ hr ↦ runs_setInstance h hg hstopped hr⟩

/-- What a step does to the running workers and to what the runtime holds. -/
theorem step_cases {e : LocalEvent} (h : step classes s e = some s') : s.Quietly s' ∨
    (∃ g, (s.replaces e = some g ∨ s.activations g = none) ∧ s.Inserts s' g) ∨
    (∃ g, s.replaces e = some g ∧ s'.activations = Function.update s.activations g none ∧
      ∀ k m, s'.Runs k m → s.Runs k m) := by
  cases moves_of_step h with
  | invoke g method | deactivate grains => exact .inl ⟨rfl, fun k m h ↦ h⟩
  | inbound g method | activate g =>
    rcases activateGrain_cases (s.spawn .finished) s.tasks.length g _ with hq | ⟨hnone, hi⟩
    · exact .inl hq
    · exact .inr (.inl ⟨g, .inr hnone, hi⟩)
  | @resolvedHere g method retry task ht =>
    rcases activateGrain_cases s task g (some method) with hq | ⟨hnone, hi⟩
    · exact .inl hq
    · exact .inr (.inl ⟨g, .inr hnone, hi⟩)
  | @loaded g method c task ht hc =>
    exact .inr
      (.inl ⟨g, .inl (by simp only [replaces, ht]), inserts_insertActivation s task c g method⟩)
  | put task ht ha hsize | putSentinel task ht ha hsize =>
    exact .inl (quietly_setInstance ha rfl fun h ↦ h)
  | takeTurn n ha | finish n ok ha | activated n ok ha ht =>
    exact .inl (quietly_setInstance ha rfl fun h ↦ h)
  | takeSentinel n ha | shutdownTimeout task ht ha =>
    exact .inl (quietly_setInstance ha rfl fun h ↦ Bool.noConfusion h)
  | @pop n g rest task ht hstopped =>
    exact .inr (.inr ⟨g, by simp only [replaces, ht], rfl, fun k m h ↦ h⟩)
  | _ => exact .inl (quietly_setTask s _ _)

theorem Registered.step {e : LocalEvent} (h : s.Registered) (hok : s.Orderly e)
    (hs : step classes s e = some s') : s'.Registered := by
  have hgone : ∀ g, s.EntryStopped g → ∀ m, ¬ s.Runs g m := by
    rintro g hstopped m ⟨a, ha, rfl, hruns⟩
    have hm := hstopped m (h a.grainId m ⟨a, ha, rfl, hruns⟩) a ha
    rw [hruns] at hm
    cases hm
  intro k m hr
  rcases step_cases hs with ⟨hactivations, hruns⟩ | ⟨g, hg, hactivations, hruns⟩
    | ⟨g, hg, hactivations, hruns⟩
  · rw [hactivations]
    exact h k m (hruns k m hr)
  · have hstopped : s.EntryStopped g := by
      rcases hg with hg | hnone
      · exact hok g hg
      · intro n hn
        rw [hnone] at hn
        cases hn
    rw [hactivations]
    rcases hruns k m hr with hr | ⟨rfl, rfl⟩
    · have hkg : k ≠ g := fun hkg ↦ hgone g hstopped m (hkg ▸ hr)
      rw [Function.update_of_ne hkg]
      exact h k m hr
    · rw [Function.update_self]
  · have hkg : k ≠ g := fun hkg ↦ hgone g (hok g hg) m (hkg ▸ hruns k m hr)
    rw [hactivations, Function.update_of_ne hkg]
    exact h k m (hruns k m hr)

/-- However calls and deactivations interleave, a grain has at most one
activation with a running worker, as long as no such activation is written
over or removed from what the runtime holds. -/
theorem at_most_one_local_activation (classes : String → Option GrainTraits)
    (events : List LocalEvent) (s : LocalRuntime) (h : exec (step classes) empty events = some s)
    (hmeets : Meets (step classes) Orderly empty events) :
    ∀ g m n, s.Runs g m → s.Runs g n → m = n := by
  have hregistered : s.Registered := by
    refine (guarded_of_exec h hmeets).invariant (I := Registered) ?_ fun s e s' hi hok hs ↦
      hi.step hok hs
    rintro g n ⟨a, ha, -⟩
    cases ha
  intro g m n hm hn
  exact Option.some.inj ((hregistered g m hm).symm.trans (hregistered g n hn))

end

def counterClass (grainType : String) : Option GrainTraits :=
  if grainType = "Counter" then
    some {
      methods := ["get"], hasOnActivate := true, hasOnDeactivate := true, readsStorage := true }
  else none

def callTwice : List LocalEvent :=
  [.invoke counter1 "get", .resolved 0 true, .loaded 0 true, .take 0, .finish 0 true, .put 0,
    .inbound counter1 "get", .put 1, .take 0]

def callTogether : List LocalEvent :=
  [.invoke counter1 "get", .inbound counter1 "get", .resolved 0 true,
    .loaded 0 true, .loaded 1 true]

theorem at_most_one_local_activation_callTwice :
    ∃ s, exec (step counterClass) empty callTwice = some s ∧
      ∀ g m n, s.Runs g m → s.Runs g n → m = n := by
  have hruns : (exec (step counterClass) empty callTwice).isSome := by decide
  obtain ⟨s, hs⟩ := Option.isSome_iff_exists.mp hruns
  exact ⟨s, hs, at_most_one_local_activation counterClass callTwice s hs (by decide)⟩

theorem first_calls_activate_twice : ¬ ∀ classes events s,
    exec (step classes) empty events = some s →
    ∀ g m n, s.Runs g m → s.Runs g n → m = n := by
  intro h
  have hruns : (exec (step counterClass) empty callTogether).map
      (fun s ↦ s.instances.map fun a ↦ (a.grainId, a.stopped)) =
      some [(counter1, false), (counter1, false)] := by decide
  obtain ⟨s, hs, hend⟩ := Option.map_eq_some_iff.mp hruns
  obtain ⟨a, rest, ha, hga, hrest⟩ := List.map_eq_cons_iff.mp hend
  obtain ⟨b, rest', hb, hgb, -⟩ := List.map_eq_cons_iff.mp hrest
  have hfirst : s.Runs counter1 0 :=
    ⟨a, by rw [ha]; rfl, congrArg Prod.fst hga, congrArg Prod.snd hga⟩
  have hsecond : s.Runs counter1 1 :=
    ⟨b, by rw [ha, hb]; rfl, congrArg Prod.fst hgb, congrArg Prod.snd hgb⟩
  exact absurd (h counterClass callTogether s hs counter1 0 1 hfirst hsecond) (by decide)

end LocalRuntime

end Pyleans
