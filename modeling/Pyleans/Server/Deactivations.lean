import Pyleans.Server.Deeds
import Pyleans.Server.LocalActivation
import Pyleans.Server.LocalDirectory

namespace Pyleans

open Library

/-- A runtime and the directory, with every call of an `on_deactivate`, the
deactivations that were broken off before they had removed anything, and the
unregistrations under way. -/
structure Deactivations where
  runtime : LocalRuntime
  localSilo : SiloAddress
  directory : GrainId → Option DirectoryEntry
  hooked : List ℕ
  brokenOff : List ℕ
  unregisters : List (ℕ × GrainId)

/-- `directory` is whatever else goes on there. An unregistration reaches the
directory, or is lost, at any time after the `pop`. -/
inductive DeactivationEvent
  | runtime (e : LocalEvent)
  | directory (g : GrainId) (entry : Option DirectoryEntry)
  | unregister (i : ℕ)
  | lose (i : ℕ)

namespace Deactivations

def empty (localSilo : SiloAddress) : Deactivations := ⟨.empty, localSilo, fun _ ↦ none, [], [], []⟩

def unregistered (directory : GrainId → Option DirectoryEntry) (g : GrainId) (silo : SiloAddress) :
    GrainId → Option DirectoryEntry :=
  Function.update directory g ((directory g).filter fun e ↦ e.silo ≠ silo)

theorem unregister_local (d : LocalGrainDirectory) (g : GrainId) (silo : SiloAddress) :
    (d.unregister g silo).lookup = unregistered d.lookup g silo := by
  funext k
  by_cases hk : k = g
  · subst hk
    simp only [unregistered, Function.update_self, LocalGrainDirectory.lookup,
      LocalGrainDirectory.unregister]
    cases hget : d.entries.get k with
    | none => simp only [hget, Option.filter_none]
    | some entry =>
      by_cases hsilo : entry.silo = silo
      · simp [hsilo, Table.get_pop, Option.filter_some]
      · simp [hsilo, hget, Option.filter_some]
  · rw [unregistered, Function.update_of_ne hk]
    exact LocalGrainDirectory.unregister_get_of_ne d g k silo hk

theorem unregister_distributed (d : DistributedGrainDirectory) (g : GrainId) (silo : SiloAddress) :
    (d.unregisterLocal g silo).owned.get = unregistered d.owned.get g silo := by
  funext k
  rw [DistributedGrainDirectory.unregisterLocal_get, unregistered, Function.update_apply]
  split_ifs with hk
  · rw [hk]
  · rfl

/-- No deactivation of the grain is under way, nor its unregistration. -/
def Settled (s : Deactivations) (g : GrainId) : Prop :=
  s.runtime.Undisturbed g ∧ ∀ d ∈ s.unregisters, d.2 ≠ g

instance (s : Deactivations) (g : GrainId) : Decidable (s.Settled g) := by
  unfold Settled; infer_instance

variable (classes : String → Option GrainTraits)

def after (s : Deactivations) (runtime : LocalRuntime) (d : Deed) : Deactivations :=
  { s with
    runtime := runtime
    hooked := s.hooked ++ (d.hooks classes).toList
    brokenOff := s.brokenOff ++ d.breaks.toList
    unregisters := s.unregisters ++ d.pops.toList }

def step (s : Deactivations) : DeactivationEvent → Option Deactivations
  | .runtime e =>
    (LocalRuntime.step classes s.runtime e).map fun runtime ↦
      s.after classes runtime (s.runtime.deed classes e)
  | .directory g entry => some { s with directory := Function.update s.directory g entry }
  | .unregister i =>
    (s.unregisters[i]?).map fun d ↦
      { s with
        directory := unregistered s.directory d.2 s.localSilo
        unregisters := s.unregisters.eraseIdx i }
  | .lose i => some { s with unregisters := s.unregisters.eraseIdx i }

/-- An activation begins only when no deactivation of the grain is under way,
and a deactivation only when none is in the making, and, where it calls
`on_deactivate`, when no other deactivation of the activation is under way or
was broken off. -/
def ApartFrom (s : Deactivations) : Deed → Prop
  | .load g | .insertNow g => s.Settled g
  | .takeUp n g =>
    ¬ s.runtime.Making g ∧
      (hasHook classes g = true → ¬ s.runtime.Deactivating n g ∧ n ∉ s.brokenOff)
  | _ => True

instance (s : Deactivations) : ∀ d, Decidable (s.ApartFrom classes d)
  | .load g | .insertNow g => inferInstanceAs (Decidable (s.Settled g))
  | .takeUp n g => inferInstanceAs
      (Decidable (¬ s.runtime.Making g ∧
        (hasHook classes g = true → ¬ s.runtime.Deactivating n g ∧ n ∉ s.brokenOff)))
  | .other | .insert _ | .tell _ _ | .pop _ _ | .breakOff _ _ => .isTrue trivial

def Apart (s : Deactivations) : DeactivationEvent → Prop
  | .runtime e => s.ApartFrom classes (s.runtime.deed classes e)
  | _ => True

instance (s : Deactivations) : ∀ event, Decidable (s.Apart classes event)
  | .runtime e => inferInstanceAs (Decidable (s.ApartFrom classes (s.runtime.deed classes e)))
  | .directory _ _ | .unregister _ | .lose _ => .isTrue trivial

/-- A `pop` removes the activation that was taken up, and an unregistration
takes this silo's entry away only when there is no other activation, nor one
in the making. -/
def RemovesOwn (s : Deactivations) : DeactivationEvent → Prop
  | .runtime e =>
    (LocalRuntime.step classes s.runtime e).isSome → ∀ n g, s.runtime.deed classes e = .pop n g →
      ∀ m, s.runtime.activations g = some m → m = n
  | .unregister i =>
    ∀ n g, s.unregisters[i]? = some (n, g) → ∀ entry ∈ s.directory g, entry.silo = s.localSilo →
      (∀ m, s.runtime.activations g = some m → m = n) ∧ ¬ s.runtime.Making g
  | _ => True

/-- Activations and deactivations of a grain keep apart. -/
structure KeptApart (s : Deactivations) : Prop where
  own : s.runtime.OwnOnly
  ownEntry : ∀ n g, (n, g) ∈ s.unregisters → ∀ m, s.runtime.activations g = some m → m = n
  settled : ∀ g, s.runtime.Making g → s.Settled g

/-- An activation whose `on_deactivate` was called is still being deactivated,
or is no longer in the table, unless the deactivation was broken off. -/
structure HookedOnce (s : Deactivations) : Prop where
  nodup : s.hooked.Nodup
  made : ∀ n ∈ s.hooked, n < s.runtime.grains.length
  spent : ∀ n ∈ s.hooked, (∃ g, s.runtime.Deactivating n g) ∨ n ∈ s.brokenOff ∨
    ∀ g, s.runtime.activations g ≠ some n

section

variable {classes : String → Option GrainTraits} {s s' : Deactivations} {r : LocalRuntime}
  {d : Deed} {g : GrainId}
  {n : ℕ}

theorem settled_iff :
    s.Settled g ↔ (∀ n, ¬ s.runtime.Deactivating n g) ∧ ∀ n, (n, g) ∉ s.unregisters := by
  refine and_congr LocalRuntime.undisturbed_iff ⟨fun hunder n hn ↦ hunder (n, g) hn rfl, ?_⟩
  rintro hunder ⟨n, k⟩ hd rfl
  exact hunder n hd

theorem KeptApart.settled_of_inserts (h : s.KeptApart) (hok : s.ApartFrom classes d)
    (hfinds : s.runtime.Finds d) (hinserts : d.inserts = some g) : s.Settled g := by
  cases d with
  | insertNow k =>
    cases hinserts
    exact hok
  | insert k =>
    cases hinserts
    exact h.settled g hfinds
  | _ => cases hinserts

theorem KeptApart.after (h : s.KeptApart) (hok : s.ApartFrom classes d)
    (hdoes : s.runtime.Does r d) :
    (s.after classes r d).KeptApart where
  own := hdoes.own h.own fun g hg ↦ (settled_iff.mp (h.settled_of_inserts hok hdoes.finds hg)).1
  ownEntry n g hn m hm := by
    rcases Deed.table_eq_some (hdoes.activations ▸ hm) with ⟨hinserts, rfl⟩ | ⟨hm, hpops⟩
    · have hsettled := settled_iff.mp (h.settled_of_inserts hok hdoes.finds hinserts)
      rcases List.mem_append.mp hn with hn | hn
      · exact absurd hn (hsettled.2 n)
      · rw [(Deed.only_inserts hinserts).2] at hn
        cases hn
    · rcases List.mem_append.mp hn with hn | hn
      · exact h.ownEntry n g hn m hm
      · exact absurd (Option.mem_toList.mp hn) (hpops n)
  settled g hg := by
    have hsettled : s.Settled g ∧ d.up.map Prod.snd ≠ some g := by
      rcases hdoes.loads g hg with hmaking | hloads
      · refine ⟨h.settled g hmaking, fun hup ↦ ?_⟩
        cases d with
        | takeUp n k =>
          cases hup
          exact hok.1 hmaking
        | _ => cases hup
      · cases d with
        | load k =>
          cases hloads
          exact ⟨hok, nofun⟩
        | _ => cases hloads
    obtain ⟨hin, hunder⟩ := settled_iff.mp hsettled.1
    refine settled_iff.mpr ⟨fun n hn ↦ ?_, fun n hn ↦ ?_⟩
    · rcases hdoes.up n g hn with hn | hup
      · exact hin n hn
      · exact hsettled.2 (congrArg (Option.map Prod.snd) hup)
    · rcases List.mem_append.mp hn with hn | hn
      · exact hunder n hn
      · exact hin n (LocalRuntime.deactivating_of_waitingFor
          (hdoes.finds.pops (Option.mem_toList.mp hn)))

theorem HookedOnce.not_hooked (h : s.HookedOnce) (hlabelled : s.runtime.Labelled)
    (hactive : s.runtime.activations g = some n) (hok : s.ApartFrom classes (.takeUp n g))
    (hhook : hasHook classes g = true) : n ∉ s.hooked := by
  intro hn
  obtain ⟨hin, hbroken⟩ := hok.2 hhook
  rcases h.spent n hn with ⟨k, hk⟩ | hbreak | hgone
  · have hlabels := (hlabelled.inHand n k hk).symm.trans (hlabelled.active g n hactive)
    exact hin (Option.some.inj hlabels ▸ hk)
  · exact hbroken hbreak
  · exact hgone g hactive

theorem HookedOnce.after (h : s.HookedOnce) (hlabelled : s.runtime.Labelled)
    (hok : s.ApartFrom classes d) (hdoes : s.runtime.Does r d) :
    (s.after classes r d).HookedOnce where
  nodup := by
    cases hhooks : d.hooks classes with
    | none =>
      simp only [Deactivations.after, hhooks, Option.toList_none, List.append_nil]
      exact h.nodup
    | some n =>
      obtain ⟨g, rfl, hhook⟩ := Deed.takeUp_of_hooks hhooks
      have hfresh := h.not_hooked hlabelled hdoes.finds hok hhook
      rw [Deactivations.after, hhooks]
      exact List.nodup_append.mpr ⟨h.nodup, List.nodup_singleton n, fun a ha b hb hab ↦
        hfresh (List.mem_singleton.mp hb ▸ hab ▸ ha)⟩
  made n hn := by
    have hgrows : s.runtime.grains.length ≤ r.grains.length := by
      rw [hdoes.grains, List.length_append]
      exact Nat.le_add_right _ _
    rcases List.mem_append.mp hn with hn | hn
    · exact (h.made n hn).trans_le hgrows
    · obtain ⟨g, rfl, -⟩ := Deed.takeUp_of_hooks (Option.mem_toList.mp hn)
      exact (List.getElem?_eq_some_iff.mp (hlabelled.active g n hdoes.finds)).1.trans_le hgrows
  spent n hn := by
    rcases List.mem_append.mp hn with hn | hn
    · rcases h.spent n hn with ⟨g, hin⟩ | hbroken | hgone
      · rcases hdoes.down n g hin with hin' | hdown
        · exact .inl ⟨g, hin'⟩
        · cases d with
          | pop m k =>
            cases hdown
            refine .inr (.inr fun k hk ↦ ?_)
            rcases Deed.table_eq_some (hdoes.activations ▸ hk) with ⟨hinserts, -⟩ | ⟨hactive, hpops⟩
            · cases hinserts
            · have hlabels := (hlabelled.inHand n g hin).symm.trans (hlabelled.active k n hactive)
              exact hpops n (by rw [Option.some.inj hlabels]; rfl)
          | breakOff m k =>
            cases hdown
            exact .inr (.inl (List.mem_append_right _ (List.mem_singleton_self n)))
          | _ => cases hdown
      · exact .inr (.inl (List.mem_append_left _ hbroken))
      · refine .inr (.inr fun k hk ↦ ?_)
        rcases Deed.table_eq_some (hdoes.activations ▸ hk) with ⟨-, rfl⟩ | ⟨hactive, -⟩
        · exact absurd (h.made _ hn) (lt_irrefl _)
        · exact hgone k hactive
    · obtain ⟨g, rfl, -⟩ := Deed.takeUp_of_hooks (Option.mem_toList.mp hn)
      exact .inl ⟨g, hdoes.taken n g rfl⟩

/-- What holds as long as activations and deactivations keep apart. -/
structure Sound (s : Deactivations) : Prop where
  labelled : s.runtime.Labelled
  apart : s.KeptApart
  hooked : s.HookedOnce

theorem Sound.of_runtime (h : s.Sound) (hruntime : s'.runtime = s.runtime)
    (hhooked : s'.hooked = s.hooked) (hbroken : s'.brokenOff = s.brokenOff)
    (hunder : ∀ p ∈ s'.unregisters, p ∈ s.unregisters) :
      s'.Sound := by
  obtain ⟨hlabelled, hapart, hhook⟩ := h
  refine ⟨hruntime ▸ hlabelled, ⟨?_, ?_, ?_⟩, ⟨hhooked ▸ hhook.nodup, ?_, ?_⟩⟩
  · rw [hruntime]
    exact hapart.own
  · rw [hruntime]
    exact fun n g hn ↦ hapart.ownEntry n g (hunder _ hn)
  · intro g hg
    obtain ⟨hin, hold⟩ := hapart.settled g (hruntime ▸ hg)
    exact ⟨hruntime ▸ hin, fun p hp ↦ hold p (hunder p hp)⟩
  · rw [hruntime, hhooked]
    exact hhook.made
  · rw [hruntime, hhooked, hbroken]
    exact hhook.spent

theorem Sound.step {event : DeactivationEvent} (h : s.Sound) (hok : s.Apart classes event)
    (hs : step classes s event = some s') : s'.Sound := by
  cases event with
  | runtime e =>
    obtain ⟨r, hr, rfl⟩ := Option.map_eq_some_iff.mp hs
    have hdoes := LocalRuntime.does_of_step hr
    exact ⟨hdoes.labelled h.labelled, h.apart.after hok hdoes, h.hooked.after h.labelled hok hdoes⟩
  | directory g entry =>
    obtain rfl := Option.some.inj hs
    exact h.of_runtime rfl rfl rfl fun p hp ↦ hp
  | unregister i =>
    obtain ⟨p, hp, rfl⟩ := Option.map_eq_some_iff.mp hs
    exact h.of_runtime rfl rfl rfl fun p hp ↦ List.mem_of_mem_eraseIdx hp
  | lose i =>
    obtain rfl := Option.some.inj hs
    exact h.of_runtime rfl rfl rfl fun p hp ↦ List.mem_of_mem_eraseIdx hp

theorem Sound.removesOwn (h : s.Sound) (event : DeactivationEvent) :
    s.RemovesOwn classes event := by
  cases event with
  | runtime e =>
    intro hs n g hpop m hm
    obtain ⟨r, hr⟩ := Option.isSome_iff_exists.mp hs
    have hfinds := (LocalRuntime.does_of_step hr).finds
    have hwaiting := hfinds.pops (congrArg Deed.pops hpop)
    exact h.apart.own n g (LocalRuntime.deactivating_of_waitingFor hwaiting) m hm
  | unregister i =>
    intro n g hi entry _ _
    have hmem := List.mem_of_getElem? hi
    refine ⟨h.apart.ownEntry n g hmem, fun hmaking ↦ ?_⟩
    exact (settled_iff.mp (h.apart.settled g hmaking)).2 n hmem
  | directory g entry => trivial
  | lose i => trivial

theorem sound_empty (localSilo : SiloAddress) : (empty localSilo).Sound where
  labelled := LocalRuntime.labelled_empty
  apart := ⟨nofun, nofun, fun _ h ↦ nomatch h.choose_spec.1⟩
  hooked := ⟨List.nodup_nil, nofun, nofun⟩

end

/-- However calls, deactivations and the directory interleave, `on_deactivate`
is called at most once for an activation, and a deactivation removes only what
it took up, as long as activations and deactivations of one grain keep apart. -/
theorem deactivation_once_and_own (classes : String → Option GrainTraits) (localSilo : SiloAddress)
    (events : List DeactivationEvent) (s : Deactivations)
    (h : exec (step classes) (empty localSilo) events = some s)
    (hmeets : Meets (step classes) (Apart classes) (empty localSilo) events) :
    s.hooked.Nodup ∧ Meets (step classes) (RemovesOwn classes) (empty localSilo) events := by
  have hsound := (guarded_of_exec h hmeets).invariant (I := Sound) (sound_empty localSilo)
    fun s e s' hi hok hs ↦ hi.step hok hs
  refine ⟨hsound.hooked.nodup, hmeets.imp (sound_empty localSilo) ?_ ?_⟩
  · exact fun s e s' hi hok hs ↦ hi.step hok hs
  · exact fun s e hi _ ↦ hi.removesOwn e

def callAgain : List DeactivationEvent :=
  [.directory counter1 (some ⟨counter1, siloA, 1⟩), .runtime (.inbound counter1 "get"),
    .runtime (.loaded 0 true), .runtime (.take 0), .runtime (.finish 0 true), .runtime (.put 0),
    .runtime (.take 0), .runtime (.finish 0 true), .runtime (.deactivate [counter1]),
    .runtime (.next 1), .runtime (.deactivated 1), .runtime (.put 1), .runtime (.take 0),
    .runtime (.pop 1), .unregister 0, .runtime (.unregistered 1), .runtime (.next 1),
    .directory counter1 (some ⟨counter1, siloA, 2⟩), .runtime (.inbound counter1 "get"),
    .runtime (.loaded 2 true)]

/-- Two deactivations of a grain, one of which is still in `on_deactivate` when
the other is over and the grain active again. -/
def deactivateTwice : List DeactivationEvent :=
  [.directory counter1 (some ⟨counter1, siloA, 1⟩), .runtime (.inbound counter1 "get"),
    .runtime (.loaded 0 true), .runtime (.take 0), .runtime (.finish 0 true), .runtime (.put 0),
    .runtime (.take 0), .runtime (.finish 0 true), .runtime (.deactivate [counter1]),
    .runtime (.next 1), .runtime (.deactivate [counter1]), .runtime (.next 2),
    .runtime (.deactivated 1), .runtime (.put 1), .runtime (.take 0), .runtime (.pop 1),
    .unregister 0, .runtime (.unregistered 1), .directory counter1 (some ⟨counter1, siloA, 2⟩),
    .runtime (.inbound counter1 "get"), .runtime (.loaded 3 true), .runtime (.deactivated 2),
    .runtime (.put 2)]

theorem deactivation_once_and_own_callAgain :
    ∃ s, exec (step LocalRuntime.counterClass) (empty siloA) callAgain = some s ∧
      s.hooked.Nodup ∧ Meets (step LocalRuntime.counterClass)
        (RemovesOwn LocalRuntime.counterClass) (empty siloA)
        callAgain := by
  have hruns : (exec (step LocalRuntime.counterClass) (empty siloA) callAgain).isSome := by decide
  obtain ⟨s, hs⟩ := Option.isSome_iff_exists.mp hruns
  exact ⟨s, hs, deactivation_once_and_own LocalRuntime.counterClass siloA callAgain
    s hs (by decide)⟩

theorem second_deactivation_hits_next_activation :
    (¬ ∀ classes localSilo events s, exec (step classes) (empty localSilo) events = some s →
      s.hooked.Nodup) ∧
      ¬ ∀ classes localSilo events s, exec (step classes) (empty localSilo) events = some s →
        Meets (step classes) (RemovesOwn classes) (empty localSilo) events := by
  have hruns : (exec (step LocalRuntime.counterClass) (empty siloA) deactivateTwice).map
      (fun s ↦
        (s.hooked, s.runtime.activations counter1,
          s.runtime.deed LocalRuntime.counterClass (.pop 2),
        (LocalRuntime.step LocalRuntime.counterClass s.runtime (.pop 2)).isSome)) =
      some ([0, 0], some 1, .pop 0 counter1, true) := by decide
  obtain ⟨s, hs, hend⟩ := Option.map_eq_some_iff.mp hruns
  simp only [Prod.mk.injEq] at hend
  obtain ⟨hhooked, hactive, hpop, henabled⟩ := hend
  constructor
  · intro h
    have hnodup := h LocalRuntime.counterClass siloA deactivateTwice s hs
    rw [hhooked] at hnodup
    exact absurd hnodup (by decide)
  · intro h
    obtain ⟨r, hr⟩ := Option.isSome_iff_exists.mp henabled
    have hstep : step LocalRuntime.counterClass s (.runtime (.pop 2)) =
        some (s.after LocalRuntime.counterClass r
          (s.runtime.deed LocalRuntime.counterClass (.pop 2))) := by
      rw [step, hr, Option.map_some]
    have hrun := exec_append.mpr ⟨s, hs, exec_cons.mpr ⟨_, hstep, exec_nil _⟩⟩
    obtain ⟨-, hlast⟩ := meets_append.mp (h LocalRuntime.counterClass siloA _ _ hrun)
    exact absurd ((hlast s hs).1 henabled 0 counter1 hpop 1 hactive) (by decide)

end Deactivations

end Pyleans
