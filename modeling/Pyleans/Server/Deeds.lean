import Pyleans.Server.LocalRuntime

namespace Pyleans

open Library

/-- The activation, with its grain, that a `deactivate_grain` has looked up and
not yet removed. -/
def LocalTask.inHand : LocalTask → Option (ℕ × GrainId)
  | .onDeactivate n g _ | .puttingSentinel n g _ | .stopping n g _ => some (n, g)
  | _ => none

def LocalTask.waitsFor : LocalTask → Option (ℕ × GrainId)
  | .stopping n g _ => some (n, g)
  | _ => none

/-- The grain of which an activation is in the making. -/
def LocalTask.making : LocalTask → Option GrainId
  | .loading g _ => some g
  | _ => none

/-- What an event does about activations. `takeUp` is a look-up by
`deactivate_grain` that finds one; it calls `on_deactivate` at once. `tell` puts
the sentinel; `breakOff` is a `deactivate_grain` that is cancelled or raises
before it has removed what it looked up. -/
inductive Deed
  | other
  | load (g : GrainId)
  | insertNow (g : GrainId)
  | insert (g : GrainId)
  | takeUp (n : ℕ) (g : GrainId)
  | tell (n : ℕ) (g : GrainId)
  | pop (n : ℕ) (g : GrainId)
  | breakOff (n : ℕ) (g : GrainId)
deriving DecidableEq

def hasHook (classes : String → Option GrainTraits) (g : GrainId) : Bool :=
  (classes g.grainType).any GrainTraits.hasOnDeactivate

namespace Deed

def loads : Deed → Option GrainId
  | .load g => some g
  | _ => none

def inserts : Deed → Option GrainId
  | .insertNow g | .insert g => some g
  | _ => none

def up : Deed → Option (ℕ × GrainId)
  | .takeUp n g => some (n, g)
  | _ => none

def told : Deed → Option (ℕ × GrainId)
  | .tell n g => some (n, g)
  | _ => none

def down : Deed → Option (ℕ × GrainId)
  | .pop n g | .breakOff n g => some (n, g)
  | _ => none

def pops : Deed → Option (ℕ × GrainId)
  | .pop n g => some (n, g)
  | _ => none

def hooks (classes : String → Option GrainTraits) : Deed → Option ℕ
  | .takeUp n g => if hasHook classes g then some n else none
  | _ => none

def breaks : Deed → Option ℕ
  | .breakOff n _ => some n
  | _ => none

theorem takeUp_of_hooks {classes : String → Option GrainTraits} {d : Deed} {n : ℕ}
    (h : d.hooks classes = some n) :
    ∃ g, d = .takeUp n g ∧ hasHook classes g = true := by
  cases d with
  | takeUp m g =>
    simp only [hooks] at h
    split_ifs at h with hhook
    exact ⟨g, by rw [Option.some.inj h], hhook⟩
  | _ => cases h

theorem hooks_of_up {classes : String → Option GrainTraits} {d : Deed} {n : ℕ} {g : GrainId}
    (h : d.up = some (n, g)) (hhook : hasHook classes g = true) : d.hooks classes = some n := by
  cases d with
  | takeUp m k =>
    cases h
    exact if_pos hhook
  | _ => cases h

theorem only_inserts {d : Deed} {g : GrainId} (h : d.inserts = some g) :
    d.up = none ∧ d.pops = none := by
  cases d with
  | insertNow k | insert k => exact ⟨rfl, rfl⟩
  | _ => cases h

/-- The table after the deed, with the number that a new activation gets. -/
def table (activations : GrainId → Option ℕ) (next : ℕ) : Deed → GrainId → Option ℕ
  | .insertNow g | .insert g => Function.update activations g (some next)
  | .pop _ g => Function.update activations g none
  | _ => activations

theorem table_of_ne {d : Deed} {activations : GrainId → Option ℕ} {next : ℕ} {g : GrainId}
    (hinserts : d.inserts ≠ some g) (hpops : ∀ n, d.pops ≠ some (n, g)) :
    d.table activations next g = activations g := by
  cases d with
  | insertNow k | insert k =>
    exact Function.update_of_ne (fun h ↦ hinserts (congrArg some h.symm)) _ _
  | pop n k => exact Function.update_of_ne (fun h ↦ hpops n (by rw [h]; rfl)) _ _
  | _ => rfl

theorem table_inserts {d : Deed} {activations : GrainId → Option ℕ} {next : ℕ} {g : GrainId}
    (h : d.inserts = some g) : d.table activations next g = some next := by
  cases d with
  | insertNow k | insert k =>
    cases h
    exact Function.update_self _ _ _
  | _ => cases h

theorem table_eq_some {d : Deed} {activations : GrainId → Option ℕ} {next m : ℕ} {g : GrainId}
    (h : d.table activations next g = some m) :
    (d.inserts = some g ∧ m = next) ∨ (activations g = some m ∧ ∀ n, d.pops ≠ some (n, g)) := by
  cases d with
  | insertNow k | insert k =>
    simp only [table, Function.update_apply] at h
    split_ifs at h with hk
    · exact .inl ⟨congrArg some hk.symm, (Option.some.inj h).symm⟩
    · exact .inr ⟨h, nofun⟩
  | pop n k =>
    simp only [table, Function.update_apply] at h
    split_ifs at h with hk
    refine .inr ⟨h, fun m hm ↦ hk ?_⟩
    cases hm
    rfl
  | _ => exact .inr ⟨h, nofun⟩

end Deed

namespace LocalRuntime

/-- A `deactivate_grain` that took up the `n`th activation, of `g`, is before its `pop`. -/
def Deactivating (s : LocalRuntime) (n : ℕ) (g : GrainId) : Prop :=
  ∃ t ∈ s.tasks, t.inHand = some (n, g)

def WaitingFor (s : LocalRuntime) (n : ℕ) (g : GrainId) : Prop :=
  ∃ t ∈ s.tasks, t.waitsFor = some (n, g)

def Making (s : LocalRuntime) (g : GrainId) : Prop := ∃ t ∈ s.tasks, t.making = some g

instance (s : LocalRuntime) (n : ℕ) (g : GrainId) : Decidable (s.Deactivating n g) :=
  inferInstanceAs (Decidable (∃ t ∈ s.tasks, t.inHand = some (n, g)))

instance (s : LocalRuntime) (g : GrainId) : Decidable (s.Making g) :=
  inferInstanceAs (Decidable (∃ t ∈ s.tasks, t.making = some g))

/-- No deactivation has an activation of the grain in hand. -/
def Undisturbed (s : LocalRuntime) (g : GrainId) : Prop := ∀ t ∈ s.tasks, ∀ d ∈ t.inHand, d.2 ≠ g

instance (s : LocalRuntime) (g : GrainId) : Decidable (s.Undisturbed g) := by
  unfold Undisturbed; infer_instance

theorem undisturbed_iff {s : LocalRuntime} {g : GrainId} :
    s.Undisturbed g ↔ ∀ n, ¬ s.Deactivating n g := by
  constructor
  · exact fun h n ⟨t, ht, hd⟩ ↦ h t ht (n, g) hd rfl
  · rintro h t ht ⟨n, k⟩ hd rfl
    exact h n ⟨t, ht, hd⟩

def grains (s : LocalRuntime) : List GrainId := s.instances.map LocalActivation.grainId

def Finds (s : LocalRuntime) : Deed → Prop
  | .load g | .insertNow g => s.activations g = none
  | .insert g => s.Making g
  | .takeUp n g => s.activations g = some n
  | .pop n g => s.WaitingFor n g
  | _ => True

theorem Finds.up {s : LocalRuntime} {d : Deed} {n : ℕ} {g : GrainId} (h : s.Finds d)
    (hup : d.up = some (n, g)) :
    s.activations g = some n := by
  cases d with
  | takeUp m k =>
    cases hup
    exact h
  | _ => cases hup

theorem Finds.pops {s : LocalRuntime} {d : Deed} {n : ℕ} {g : GrainId} (h : s.Finds d)
    (hpops : d.pops = some (n, g)) :
    s.WaitingFor n g := by
  cases d with
  | pop m k =>
    cases hpops
    exact h
  | _ => cases hpops

theorem deactivating_of_waitingFor {s : LocalRuntime} {n : ℕ} {g : GrainId} (h : s.WaitingFor n g) :
    s.Deactivating n g := by
  obtain ⟨t, ht, hw⟩ := h
  refine ⟨t, ht, ?_⟩
  cases t with
  | stopping m k rest => exact hw
  | _ => cases hw

section

variable (classes : String → Option GrainTraits)

def firstCall (s : LocalRuntime) (g : GrainId) : Deed :=
  match s.activations g, classes g.grainType with
  | none, some c => if c.readsStorage then .load g else .insertNow g
  | _, _ => .other

def deed (s : LocalRuntime) : LocalEvent → Deed
  | .inbound g _ => s.firstCall classes g
  | .activate g => s.firstCall classes g
  | .resolved task true =>
    match s.tasks[task]? with
    | some (.resolving g _ _) => s.firstCall classes g
    | _ => .other
  | .loaded task true =>
    match s.tasks[task]? with
    | some (.loading g _) => .insert g
    | _ => .other
  | .next task =>
    match s.tasks[task]? with
    | some (.deactivating (g :: _)) =>
      (s.activations g).elim .other fun n ↦ .takeUp n g
    | _ => .other
  | .put task =>
    match s.tasks[task]? with
    | some (.puttingSentinel n g _) => .tell n g
    | _ => .other
  | .pop task =>
    match s.tasks[task]? with
    | some (.stopping n g _) => .pop n g
    | _ => .other
  | .drop task => ((s.tasks[task]?).bind LocalTask.inHand).elim .other fun d ↦ .breakOff d.1 d.2
  | _ => .other

end

/-- What a step does, as far as its deed says it. -/
structure Does (s s' : LocalRuntime) (d : Deed) : Prop where
  finds : s.Finds d
  activations : s'.activations = d.table s.activations s.grains.length
  grains : s'.grains = s.grains ++ d.inserts.toList
  up : ∀ n g, s'.Deactivating n g → s.Deactivating n g ∨ d.up = some (n, g)
  down : ∀ n g, s.Deactivating n g → s'.Deactivating n g ∨ d.down = some (n, g)
  taken : ∀ n g, d.up = some (n, g) → s'.Deactivating n g
  told : ∀ n g, s'.WaitingFor n g → s.WaitingFor n g ∨ d.told = some (n, g)
  loads : ∀ g, s'.Making g → s.Making g ∨ d.loads = some g

/-- Activations in the table and in the hands of deactivations are of the grain
they are filed under. -/
structure Labelled (s : LocalRuntime) : Prop where
  active : ∀ g n, s.activations g = some n → s.grains[n]? = some g
  inHand : ∀ n g, s.Deactivating n g → s.grains[n]? = some g

theorem not_deactivating_empty (n : ℕ) (g : GrainId) : ¬ empty.Deactivating n g :=
  fun ⟨_, ht, _⟩ ↦ nomatch ht

theorem labelled_empty : empty.Labelled :=
  ⟨nofun, fun n g h ↦ absurd h (not_deactivating_empty n g)⟩

/-- What a deactivation took up is what the table has for the grain, if anything. -/
def OwnOnly (s : LocalRuntime) : Prop :=
  ∀ n g, s.Deactivating n g → ∀ m, s.activations g = some m → m = n

/-- What the deed says about the one task that goes on. -/
structure Fits (d : Deed) (t t' : LocalTask) : Prop where
  up : ∀ p, t'.inHand = some p → t.inHand = some p ∨ d.up = some p
  down : ∀ p, t.inHand = some p → t'.inHand = some p ∨ d.down = some p
  taken : ∀ p, d.up = some p → t'.inHand = some p
  told : ∀ p, t'.waitsFor = some p → t.waitsFor = some p ∨ d.told = some p
  loads : ∀ g, t'.making = some g → t.making = some g ∨ d.loads = some g

section

variable {classes : String → Option GrainTraits} {s s' : LocalRuntime} {task : ℕ}
  {t t' : LocalTask} {d : Deed}

theorem Does.grain (h : s.Does s' d) {n : ℕ} {g : GrainId} (hn : s.grains[n]? = some g) :
    s'.grains[n]? = some g := by
  rw [h.grains]
  exact List.getElem?_append_left (List.getElem?_eq_some_iff.mp hn).1 ▸ hn

theorem Does.grain_cases (h : s.Does s' d) {n : ℕ} {g : GrainId} (hn : s'.grains[n]? = some g) :
    s.grains[n]? = some g ∨ n = s.grains.length ∧ d.inserts = some g := by
  rw [h.grains] at hn
  cases hinserts : d.inserts with
  | none =>
    rw [hinserts, Option.toList_none, List.append_nil] at hn
    exact .inl hn
  | some k =>
    rw [hinserts, Option.toList_some] at hn
    exact (getElem?_grown.mp hn).imp_right fun ⟨hlen, hk⟩ ↦ ⟨hlen, congrArg some hk⟩

theorem Does.labelled (h : s.Does s' d) (hlabelled : s.Labelled) : s'.Labelled := by
  constructor
  · intro g n hn
    rw [h.activations] at hn
    rcases Deed.table_eq_some hn with ⟨hinserts, rfl⟩ | ⟨hactive, -⟩
    · rw [h.grains, hinserts]
      exact List.getElem?_concat_length
    · exact h.grain (hlabelled.active g n hactive)
  · intro n g hn
    rcases h.up n g hn with hn | hup
    · exact h.grain (hlabelled.inHand n g hn)
    · exact h.grain (hlabelled.active g n (h.finds.up hup))

theorem exists_task_of_set (ht : s.tasks[task]? = some t) {p : LocalTask → Prop} {r : Prop}
    (htasks : s'.tasks = s.tasks.set task t') (hgoes : p t' → p t ∨ r) :
    (∃ u ∈ s'.tasks, p u) → (∃ u ∈ s.tasks, p u) ∨ r := by
  rw [htasks, exists_mem_set ht, exists_mem_of_getElem? ht]
  rintro (h | h)
  · exact (hgoes h).imp_left .inl
  · exact .inl (.inr h)

theorem Does.of_fits (ht : s.tasks[task]? = some t) (htasks : s'.tasks = s.tasks.set task t')
    (hfits : Fits d t t') (hfinds : s.Finds d)
    (hactivations : s'.activations = d.table s.activations s.grains.length)
    (hgrains : s'.grains = s.grains ++ d.inserts.toList) : s.Does s' d where
  finds := hfinds
  activations := hactivations
  grains := hgrains
  up n g := exists_task_of_set ht htasks (hfits.up (n, g))
  down n g := by
    intro h
    rw [Deactivating, exists_mem_of_getElem? ht] at h
    rw [Deactivating, htasks, exists_mem_set ht]
    rcases h with h | h
    · exact (hfits.down _ h).imp_left .inl
    · exact .inl (.inr h)
  taken n g h := by
    rw [Deactivating, htasks, exists_mem_set ht]
    exact .inl (hfits.taken _ h)
  told n g := exists_task_of_set ht htasks (hfits.told (n, g))
  loads g := exists_task_of_set ht htasks (hfits.loads g)

theorem Does.own (h : s.Does s' d) (hown : s.OwnOnly)
    (hinserts : ∀ g, d.inserts = some g → ∀ n, ¬ s.Deactivating n g) : s'.OwnOnly := by
  intro n g hn m hm
  rcases Deed.table_eq_some (h.activations ▸ hm) with ⟨hg, rfl⟩ | ⟨hm, -⟩
  · rcases h.up n g hn with hn | hup
    · exact absurd hn (hinserts g hg n)
    · cases hup.symm.trans (Deed.only_inserts hg).1
  · rcases h.up n g hn with hn | hup
    · exact hown n g hn m hm
    · exact Option.some.inj (hm.symm.trans (h.finds.up hup))

theorem Does.other_of_task (ht : s.tasks[task]? = some t) (htasks : s'.tasks = s.tasks.set task t')
    (hactivations : s'.activations = s.activations) (hgrains : s'.grains = s.grains)
    (hin : t'.inHand = t.inHand) (hwaits : t'.waitsFor = t.waitsFor) (hmaking : t'.making = none) :
    s.Does s' .other := by
  refine .of_fits ht htasks ⟨?_, ?_, nofun, ?_, ?_⟩ trivial hactivations
    (hgrains.trans (List.append_nil _).symm)
  · exact fun p hp ↦ .inl (hin ▸ hp)
  · exact fun p hp ↦ .inl (hin ▸ hp)
  · exact fun p hp ↦ .inl (hwaits ▸ hp)
  · intro g hg
    rw [hmaking] at hg
    cases hg

theorem Does.other_of_tasks (htasks : s'.tasks = s.tasks)
    (hactivations : s'.activations = s.activations) (hgrains : s'.grains = s.grains) :
    s.Does s' .other where
  finds := trivial
  activations := hactivations
  grains := hgrains.trans (List.append_nil _).symm
  up n g h := .inl (by rwa [Deactivating, ← htasks])
  down n g h := .inl (by rwa [Deactivating, htasks])
  taken n g h := nomatch h
  told n g h := .inl (by rwa [WaitingFor, ← htasks])
  loads g h := .inl (by rwa [Making, ← htasks])

theorem Does.spawn (s : LocalRuntime) (hin : t.inHand = none) (hwaits : t.waitsFor = none)
    (hmaking : t.making = none) :
    s.Does (s.spawn t) .other where
  finds := trivial
  activations := rfl
  grains := (List.append_nil _).symm
  up n g h := by
    rcases exists_mem_append_singleton.mp h with h | h
    · exact .inl h
    · cases hin.symm.trans h
  down n g h := .inl (exists_mem_append_singleton.mpr (.inl h))
  taken n g h := nomatch h
  told n g h := by
    rcases exists_mem_append_singleton.mp h with h | h
    · exact .inl h
    · cases hwaits.symm.trans h
  loads g h := by
    rcases exists_mem_append_singleton.mp h with h | h
    · exact .inl h
    · cases hmaking.symm.trans h

theorem grains_setInstance {n : ℕ} {a a' : LocalActivation} (h : s.instances[n]? = some a)
    (hg : a'.grainId = a.grainId) : (s.setInstance n a').grains = s.grains := by
  obtain ⟨hn, rfl⟩ := List.getElem?_eq_some_iff.mp h
  have hlt : n < (s.instances.map LocalActivation.grainId).length := by rwa [List.length_map]
  have hself : (s.instances.map LocalActivation.grainId)[n] = a'.grainId := by
    rw [List.getElem_map, hg]
  rw [grains, grains, setInstance, List.map_set, ← hself, List.set_getElem_self hlt]

variable (classes) in
theorem afterActivate_plain (n : ℕ) (g : GrainId) (method : Option String) :
    (afterActivate classes n g method).inHand = none ∧
      (afterActivate classes n g method).waitsFor = none ∧
      (afterActivate classes n g method).making = none := by
  unfold afterActivate
  split
  · exact ⟨rfl, rfl, rfl⟩
  · split_ifs <;> exact ⟨rfl, rfl, rfl⟩

theorem Does.insertActivation (ht : s.tasks[task]? = some t) (hin : t.inHand = none)
    (c : GrainTraits) (g : GrainId) (method : Option String) (hd : d = .insertNow g ∨ d = .insert g)
    (hfinds : s.Finds d) :
    s.Does (s.insertActivation classes task c g method) d := by
  have hactivations : (s.insertActivation classes task c g method).activations =
      Function.update s.activations g (some s.grains.length) := by
    rw [LocalRuntime.grains, List.length_map]
    rfl
  have hgrains : (s.insertActivation classes task c g method).grains = s.grains ++ [g] :=
    List.map_append
  obtain ⟨t', htasks, hin', hwaits', hmaking'⟩ : ∃ t',
    (s.insertActivation classes task c g method).tasks =
      s.tasks.set task t' ∧ t'.inHand = none ∧ t'.waitsFor = none ∧ t'.making = none := by
    refine ⟨_, rfl, ?_⟩
    split_ifs
    · exact ⟨rfl, rfl, rfl⟩
    · exact afterActivate_plain classes _ g method
  have hfits : Fits d t t' := by
    refine ⟨?_, ?_, ?_, ?_, ?_⟩
    · exact fun p hp ↦ nomatch hin'.symm.trans hp
    · exact fun p hp ↦ nomatch hin.symm.trans hp
    · rcases hd with rfl | rfl <;> exact nofun
    · exact fun p hp ↦ nomatch hwaits'.symm.trans hp
    · exact fun k hk ↦ nomatch hmaking'.symm.trans hk
  rcases hd with rfl | rfl
  · exact .of_fits ht htasks hfits hfinds hactivations hgrains
  · exact .of_fits ht htasks hfits hfinds hactivations hgrains

theorem Does.activateGrain (ht : s.tasks[task]? = some t) (hin : t.inHand = none)
    (hwaits : t.waitsFor = none) (g : GrainId) (method : Option String) :
    s.Does (s.activateGrain classes task g method) (s.firstCall classes g) := by
  unfold LocalRuntime.activateGrain firstCall
  cases hnone : s.activations g with
  | some n =>
    obtain ⟨hin', hwaits', hmaking'⟩ := afterActivate_plain classes n g method
    exact .other_of_task ht rfl rfl rfl (hin'.trans hin.symm) (hwaits'.trans hwaits.symm) hmaking'
  | none =>
    cases hc : classes g.grainType with
    | none => exact .other_of_task ht rfl rfl rfl hin.symm hwaits.symm rfl
    | some c =>
      dsimp only
      split_ifs
      · refine .of_fits ht rfl ⟨nofun, ?_, nofun, nofun, ?_⟩ hnone rfl (List.append_nil _).symm
        · exact fun p hp ↦ nomatch hin.symm.trans hp
        · exact fun k hk ↦ .inr hk
      · exact .insertActivation ht hin c g method (.inl rfl) hnone

theorem Does.after_other {s₁ : LocalRuntime} (h : s.Does s₁ .other) (h' : s₁.Does s' d) :
    s.Does s' d where
  finds := by
    have hfinds := h'.finds
    have hactivations : s₁.activations = s.activations := h.activations
    cases d with
    | load g | insertNow g | takeUp n g => exact (congrFun hactivations g).symm.trans hfinds
    | insert g => exact (h.loads g hfinds).resolve_right nofun
    | pop n g => exact (h.told n g hfinds).resolve_right nofun
    | other | tell n g | breakOff n g => trivial
  activations := by
    rw [h'.activations, h.activations, h.grains]
    simp only [Deed.table, Deed.inserts, Option.toList_none, List.append_nil]
  grains := by
    rw [h'.grains, h.grains]
    simp only [Deed.inserts, Option.toList_none, List.append_nil]
  up n g hn := (h'.up n g hn).imp_left fun hn ↦ (h.up n g hn).resolve_right nofun
  down n g hn := h'.down n g ((h.down n g hn).resolve_right nofun)
  taken := h'.taken
  told n g hn := (h'.told n g hn).imp_left fun hn ↦ (h.told n g hn).resolve_right nofun
  loads g hg := (h'.loads g hg).imp_left fun hg ↦ (h.loads g hg).resolve_right nofun

theorem does_of_step {e : LocalEvent} (h : step classes s e = some s') :
    s.Does s' (s.deed classes e) := by
  cases moves_of_step h with
  | invoke g method | deactivate grains => exact .spawn s rfl rfl rfl
  | inbound g method | activate g =>
    have ht : (s.spawn .finished).tasks[s.tasks.length]? = some .finished :=
      List.getElem?_concat_length
    exact .after_other (.spawn s rfl rfl rfl) (Does.activateGrain ht rfl rfl g _)
  | @resolvedHere g method retry task ht =>
    have hd : s.deed classes (.resolved task true) = s.firstCall classes g := by
      simp only [deed, ht]
    rw [hd]
    exact .activateGrain ht rfl rfl g (some method)
  | resolvedAway task ht => exact .other_of_task ht rfl rfl rfl rfl rfl rfl
  | @connectionLost g method retry task ht =>
    cases retry <;> exact .other_of_task ht rfl rfl rfl rfl rfl rfl
  | @loaded g method c task ht hc =>
    have hd : s.deed classes (.loaded task true) = .insert g := by simp only [deed, ht]
    rw [hd]
    exact .insertActivation ht rfl c g method (.inr rfl) ⟨_, List.mem_of_getElem? ht, rfl⟩
  | loadFailed task ht => exact .other_of_task ht rfl rfl rfl rfl rfl rfl
  | put task ht ha hsize =>
    have hd : s.deed classes (.put task) = .other := by simp only [deed, ht]
    rw [hd]
    exact .other_of_task ht rfl rfl (grains_setInstance ha rfl) rfl rfl rfl
  | @putSentinel n g rest a task ht ha hsize =>
    have hd : s.deed classes (.put task) = .tell n g := by simp only [deed, ht]
    rw [hd]
    have hgrains : (s.setInstance n { a with inbox := a.inbox ++ [.sentinel] }).grains =
      s.grains ++ [] := by
      rw [List.append_nil]
      exact grains_setInstance ha rfl
    exact .of_fits ht rfl ⟨fun p hp ↦ .inl hp, fun p hp ↦ .inl hp, nofun, fun p hp ↦ .inr hp, nofun⟩
      trivial rfl hgrains
  | takeTurn n ha | takeSentinel n ha | finish n ok ha =>
    exact .other_of_tasks rfl rfl (grains_setInstance ha rfl)
  | @activated g k inbox m task method n ok ha ht =>
    obtain ⟨hin, hwaits, hmaking⟩ := afterActivate_plain classes n g method
    have hgrains : (s.setInstance n ⟨g, inbox, none, false⟩).grains = s.grains :=
      grains_setInstance ha rfl
    cases ok with
    | true => exact .other_of_task ht rfl rfl hgrains hin hwaits hmaking
    | false => exact .other_of_task ht rfl rfl hgrains rfl rfl rfl
  | noneLeft task ht =>
    have hd : s.deed classes (.next task) = .other := by simp only [deed, ht]
    rw [hd]
    exact .other_of_task ht rfl rfl rfl rfl rfl rfl
  | nextAbsent task ht hn =>
    have hd : s.deed classes (.next task) = .other := by simp only [deed, ht, hn, Option.elim_none]
    rw [hd]
    exact .other_of_task ht rfl rfl rfl rfl rfl rfl
  | @nextHook n g rest task ht hn hhook | @nextPlain n g rest task ht hn hhook =>
    have hd : s.deed classes (.next task) = .takeUp n g := by
      simp only [deed, ht, hn, Option.elim_some]
    rw [hd]
    exact .of_fits ht rfl ⟨fun p hp ↦ .inr hp, nofun, fun p hp ↦ hp, nofun, nofun⟩ hn rfl
      (List.append_nil _).symm
  | deactivated task ht => exact .other_of_task ht rfl rfl rfl rfl rfl rfl
  | shutdownTimeout task ht ha => exact .other_of_tasks rfl rfl (grains_setInstance ha rfl)
  | @pop n g rest task ht hstopped =>
    have hd : s.deed classes (.pop task) = .pop n g := by simp only [deed, ht]
    rw [hd]
    exact .of_fits ht rfl ⟨nofun, fun p hp ↦ .inr hp, nofun, nofun, nofun⟩
      ⟨_, List.mem_of_getElem? ht, rfl⟩ rfl
      (List.append_nil _).symm
  | unregistered task ht => exact .other_of_task ht rfl rfl rfl rfl rfl rfl
  | @drop t task ht hstopping =>
    have hd : s.deed classes (.drop task) = t.inHand.elim .other fun d ↦ .breakOff d.1 d.2 := by
      simp only [deed, ht, Option.bind_some]
    rw [hd]
    cases t with
    | onDeactivate n g rest | puttingSentinel n g rest =>
      exact .of_fits ht rfl ⟨nofun, fun p hp ↦ .inr hp, nofun, nofun, nofun⟩ trivial rfl
        (List.append_nil _).symm
    | stopping n g rest => exact absurd rfl (hstopping n g rest)
    | _ => exact .other_of_task ht rfl rfl rfl rfl rfl rfl

end

end LocalRuntime

end Pyleans
