import Pyleans.Membership.Agent

namespace Pyleans

open Library

namespace Silo

/-- The directory runs on the silos of the snapshot that was accepted last. -/
def InStep (s : Silo) : Prop :=
  ∀ snapshot ∈ s.lastSnapshot, s.directory.activeSilos.toFinset = (s.activeSilos snapshot).toFinset

/-- Started, and no step of the agent in progress. -/
def Quiet (s : Silo) : Prop :=
  s.start.isDone ∧ (∀ loop, (s.loops loop).isAsleep) ∧ s.handlers.length = 0

instance (s : Silo) : Decidable s.Quiet := by unfold Quiet; infer_instance

/-- A read of the silo's own is installed only when it names the silos that
the directory has, and the start does not come after a snapshot that names
others. -/
def Carried (s : Silo) : SiloEvent → Prop
  | .install loop => ∀ snapshot ∈ (s.loops loop).answer,
      s.directory.activeSilos.toFinset = (s.activeSilos snapshot).toFinset
  | .startChange => ∀ snapshot ∈ s.start.answer, ∀ last ∈ s.lastSnapshot,
      (s.activeSilos snapshot).toFinset = (s.activeSilos last).toFinset
  | _ => True

instance (s : Silo) : ∀ e, Decidable (s.Carried e)
  | .install loop => inferInstanceAs (Decidable (∀ snapshot ∈ (s.loops loop).answer,
      s.directory.activeSilos.toFinset = (s.activeSilos snapshot).toFinset))
  | .startChange =>
    inferInstanceAs (Decidable (∀ snapshot ∈ s.start.answer, ∀ last ∈ s.lastSnapshot,
      (s.activeSilos snapshot).toFinset = (s.activeSilos last).toFinset))
  | .startRead | .startAgent | .wake _ | .answer _ | .readFailed _ | .probed _ | .wroteIAmAlive _
  | .sent _ | .peerBroadcast | .receive _ | .handled _ | .stopAgent | .membership _
  | .directory _ | .rebuilt _ => .isTrue trivial

theorem activeSilos_congr {s s' : Silo} (h : s'.siloAddress = s.siloAddress)
    (snapshot : MembershipSnapshot) :
    s'.activeSilos snapshot = s.activeSilos snapshot := by
  simp only [activeSilos, h]

theorem inStep_congr {s s' : Silo} (ha : s'.siloAddress = s.siloAddress) (hv : s'.view = s.view) :
    s'.InStep ↔ s.InStep := by
  obtain ⟨hlast, hactive⟩ := Prod.mk.inj hv
  simp only [InStep, hlast, hactive, activeSilos_congr ha]

section

variable [StableHash] [SeededRandom]

theorem InStep.step {s s' : Silo} {e : SiloEvent} (h : s.InStep) (hok : s.Carried e)
    (hs : step s e = some s') :
    s'.InStep := by
  obtain ⟨haddress, hcases⟩ := step_cases hs
  rcases hcases with ⟨snapshot, rfl, hstart, hview⟩ | ⟨loop, snapshot, rfl, hl, hview⟩ |
    ⟨i, snapshot, rfl, -, -, hview⟩ | ⟨-, -, hview⟩
  · obtain ⟨hlast, hactive⟩ := Prod.mk.inj hview
    intro last hm
    rw [hactive, activeSilos_congr haddress]
    exact hok snapshot hstart last (hlast ▸ hm)
  · obtain ⟨hlast, hactive⟩ := Prod.mk.inj hview
    intro last hm
    obtain rfl := Option.some.inj (hlast.symm.trans hm)
    rw [hactive, activeSilos_congr haddress]
    exact hok snapshot hl
  · obtain ⟨hlast, hactive⟩ := Prod.mk.inj hview
    intro last hm
    obtain rfl := Option.some.inj (hlast.symm.trans hm)
    rw [hactive, activeSilos_congr haddress]
  · exact (inStep_congr haddress hview).mpr h

/-- The condition is exact: any other step leaves the silo out of step. -/
theorem not_inStep_of_not_carried {s s' : Silo} {e : SiloEvent} (hok : ¬ s.Carried e)
    (hs : step s e = some s') : ¬ s'.InStep := by
  intro h
  obtain ⟨haddress, hcases⟩ := step_cases hs
  apply hok
  rcases hcases with ⟨snapshot, rfl, hstart, hview⟩ | ⟨loop, snapshot, rfl, hl, hview⟩ |
    ⟨i, snapshot, rfl, -, -, -⟩ | ⟨hstart, hinstall, -⟩
  · obtain ⟨hlast, hactive⟩ := Prod.mk.inj hview
    intro snapshot' hstart' last hm
    obtain rfl := Option.some.inj (hstart.symm.trans hstart')
    have hin := h last (hlast ▸ hm)
    rwa [hactive, activeSilos_congr haddress] at hin
  · obtain ⟨hlast, hactive⟩ := Prod.mk.inj hview
    intro snapshot' hl'
    obtain rfl := Option.some.inj (hl.symm.trans hl')
    have hin := h snapshot hlast
    rwa [hactive, activeSilos_congr haddress] at hin
  · trivial
  · cases e with
    | startChange => exact absurd rfl hstart
    | install loop => exact absurd rfl (hinstall loop)
    | _ => trivial

/-- The directory follows the membership all along a run, also while steps of
the agent are in progress, exactly when every change is carried to it. -/
theorem directory_in_step_iff (siloAddress : SiloAddress) (options : FailureDetectorOptions)
    (membership : Membership) (events : List SiloEvent) (s : Silo)
    (h : exec step (init siloAddress options membership) events = some s) :
    Meets step Carried (init siloAddress options membership) events ↔
      ∀ before t, before <+: events → exec step (init siloAddress options membership) before =
        some t → t.InStep := by
  apply meets_iff_always h
  · intro last hm
    cases hm
  · exact fun s e s' hi hs ↦
      ⟨fun hok ↦ hi.step hok hs, fun hi' ↦ by_contra fun hok ↦ not_inStep_of_not_carried hok hs hi'⟩

end

def registers (id : ℕ) (silo : SiloAddress) : List SiloEvent :=
  [.membership (.start id (.register silo "dev" 30000 0)), .membership (.read id 0),
    .membership (.write id)]

def startSilo : List SiloEvent := registers 0 siloA ++ [.startRead, .startChange, .startAgent]

def pollAfterBroadcast : List SiloEvent :=
  startSilo ++ registers 1 siloB ++
    [.peerBroadcast, .receive 0, .handled 0, .wake .tablePoll, .answer .tablePoll,
      .install .tablePoll]

theorem directory_in_step_pollAfterBroadcast :
    letI := sampleHash
    letI := sampleRandom
    ∃ s, exec step (init siloA .defaults .empty) pollAfterBroadcast = some s ∧ s.InStep := by
  let _ := sampleHash
  let _ := sampleRandom
  have hruns : (exec step (init siloA .defaults .empty) pollAfterBroadcast).isSome := by
    decide +kernel
  obtain ⟨s, hs⟩ := Option.isSome_iff_exists.mp hruns
  exact ⟨s, hs, (directory_in_step_iff siloA .defaults .empty pollAfterBroadcast s hs).mp
    (by decide +kernel) _ s (List.prefix_refl _) hs⟩

def pollSeesJoin : List SiloEvent :=
  startSilo ++ registers 1 siloB ++ [.wake .tablePoll, .answer .tablePoll, .install .tablePoll]

theorem poll_leaves_directory_behind :
    ¬ ∀ [StableHash] [SeededRandom] siloAddress options membership events s,
    exec step (init siloAddress options membership) events = some s → s.Quiet → s.InStep := by
  intro h
  let _ := sampleHash
  let _ := sampleRandom
  have hruns : (exec step (init siloA .defaults .empty) pollSeesJoin).map (fun s ↦ (decide s.Quiet,
      s.lastSnapshot.map fun snapshot ↦
        decide (s.directory.activeSilos.toFinset = (s.activeSilos snapshot).toFinset))) =
      some (true, some false) := by decide +kernel
  obtain ⟨s, hs, hend⟩ := Option.map_eq_some_iff.mp hruns
  obtain ⟨hquiet, hlast⟩ := Prod.mk.inj hend
  obtain ⟨snapshot, hm, hbehind⟩ := Option.map_eq_some_iff.mp hlast
  have hin := h siloA .defaults .empty pollSeesJoin s hs (of_decide_eq_true hquiet)
  exact of_decide_eq_false hbehind (hin snapshot hm)

end Silo

end Pyleans
