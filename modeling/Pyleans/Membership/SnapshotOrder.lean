import Pyleans.Membership.DirectoryInStep

namespace Pyleans

open Library

namespace Silo

/-- From `s` to `s'` the version of the accepted snapshot did not go down. -/
def VersionKept (s s' : Silo) : Prop :=
  ∀ last ∈ s.lastSnapshot, ∃ last' ∈ s'.lastSnapshot, last.version ≤ last'.version

/-- A read of the silo's own that comes back is not older than the snapshot it
replaces. -/
def NotOvertaken (s : Silo) : SiloEvent → Prop
  | .install loop =>
    ∀ snapshot ∈ (s.loops loop).answer, ∀ last ∈ s.lastSnapshot, last.version ≤ snapshot.version
  | _ => True

instance (s : Silo) : ∀ e, Decidable (s.NotOvertaken e)
  | .install loop =>
    inferInstanceAs (Decidable (∀ snapshot ∈ (s.loops loop).answer, ∀ last ∈ s.lastSnapshot,
      last.version ≤ snapshot.version))
  | .startRead | .startChange | .startAgent | .wake _ | .answer _ | .readFailed _ | .probed _
  | .wroteIAmAlive _ | .sent _ | .peerBroadcast | .receive _ | .handled _ | .stopAgent
  | .membership _ | .directory _ | .rebuilt _ => .isTrue trivial

theorem VersionKept.refl (s : Silo) : s.VersionKept s := fun last hm ↦ ⟨last, hm, le_rfl⟩

theorem VersionKept.trans {s t u : Silo} (h : s.VersionKept t) (h' : t.VersionKept u) :
    s.VersionKept u := by
  intro last hm
  obtain ⟨mid, hmid, hle⟩ := h last hm
  obtain ⟨last', hm', hle'⟩ := h' mid hmid
  exact ⟨last', hm', hle.trans hle'⟩

theorem VersionKept.of_eq {s s' : Silo} (h : s'.lastSnapshot = s.lastSnapshot) : s.VersionKept s' :=
  fun last hm ↦ ⟨last, h ▸ hm, le_rfl⟩

theorem versionKept_iff {s s' : Silo} {snapshot : MembershipSnapshot}
    (h : s'.lastSnapshot = some snapshot) :
    s.VersionKept s' ↔ ∀ last ∈ s.lastSnapshot, last.version ≤ snapshot.version := by
  simp only [VersionKept, h, Option.mem_some_iff, exists_eq_left']

theorem version_le_of_not_stale {s : Silo} {snapshot : MembershipSnapshot}
    (h : s.isStale snapshot = false) :
    ∀ last ∈ s.lastSnapshot, last.version ≤ snapshot.version := by
  intro last hm
  rw [Option.mem_def] at hm
  simpa [isStale, hm] using h

section

variable [StableHash] [SeededRandom]

/-- The broadcasts of peers are guarded, so it all depends on the silo's own reads. -/
theorem notOvertaken_iff {s s' : Silo} {e : SiloEvent} (hs : step s e = some s') :
    s.NotOvertaken e ↔ s.VersionKept s' := by
  obtain ⟨-, hcases⟩ := step_cases hs
  rcases hcases with ⟨snapshot, rfl, -, hview⟩ | ⟨loop, snapshot, rfl, hl, hview⟩ |
    ⟨i, snapshot, rfl, -, hfresh, hview⟩ | ⟨-, hinstall, hview⟩
  · exact iff_of_true trivial (.of_eq (Prod.mk.inj hview).1)
  · rw [versionKept_iff (Prod.mk.inj hview).1]
    simp only [NotOvertaken, hl, Option.mem_some_iff, forall_eq']
  · rw [versionKept_iff (Prod.mk.inj hview).1]
    exact iff_of_true trivial (version_le_of_not_stale hfresh)
  · refine iff_of_true ?_ (.of_eq (Prod.mk.inj hview).1)
    cases e with
    | install loop => exact absurd rfl (hinstall loop)
    | _ => trivial

/-- The version never goes down along a run exactly when no read of the silo's
own is overtaken by a newer snapshot. -/
theorem versions_ordered_iff (start : Silo) (events : List SiloEvent) (s : Silo)
    (h : exec step start events = some s) :
    Meets step NotOvertaken start events ↔
      ∀ l m t u, l ++ m <+: events → exec step start l = some t → exec step t m = some u →
        t.VersionKept u :=
  meets_iff_along h VersionKept.refl (fun _ _ _ ↦ .trans) fun _ _ _ ↦ notOvertaken_iff

end

theorem versions_ordered_pollAfterBroadcast :
    letI := sampleHash
    letI := sampleRandom
    ∃ s, exec step (init siloA .defaults .empty) pollAfterBroadcast = some s ∧
      ∀ l m t u, l ++ m <+: pollAfterBroadcast →
        exec step (init siloA .defaults .empty) l = some t →
        exec step t m = some u → t.VersionKept u := by
  let _ := sampleHash
  let _ := sampleRandom
  have hruns : (exec step (init siloA .defaults .empty) pollAfterBroadcast).isSome := by
    decide +kernel
  obtain ⟨s, hs⟩ := Option.isSome_iff_exists.mp hruns
  exact ⟨s, hs, (versions_ordered_iff _ pollAfterBroadcast s hs).mp (by decide +kernel)⟩

def overtakenPoll : List SiloEvent :=
  startSilo ++ [.wake .tablePoll, .answer .tablePoll] ++ registers 1 siloB ++
    [.peerBroadcast, .receive 0]

theorem late_read_goes_back :
    ¬ ∀ [StableHash] [SeededRandom] siloAddress options membership l m t u,
    exec step (init siloAddress options membership) l = some t → exec step t m = some u →
      t.VersionKept u := by
  intro h
  let _ := sampleHash
  let _ := sampleRandom
  have hruns : (exec step (init siloA .defaults .empty) overtakenPoll).bind (fun t ↦
      (exec step t [.install .tablePoll]).bind fun u ↦
        t.lastSnapshot.bind fun last ↦
          u.lastSnapshot.map fun last' ↦ decide (last.version ≤ last'.version)) =
      some false := by decide +kernel
  obtain ⟨t, ht, hruns⟩ := Option.bind_eq_some_iff.mp hruns
  obtain ⟨u, hu, hruns⟩ := Option.bind_eq_some_iff.mp hruns
  obtain ⟨last, hm, hruns⟩ := Option.bind_eq_some_iff.mp hruns
  obtain ⟨last', hm', hback⟩ := Option.map_eq_some_iff.mp hruns
  have hkept :=
    (versionKept_iff hm').mp
      (h siloA .defaults .empty overtakenPoll [.install .tablePoll] t u ht hu)
  exact of_decide_eq_false hback (hkept last hm)

end Silo

end Pyleans
