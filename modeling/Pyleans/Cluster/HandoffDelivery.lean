import Pyleans.Cluster.DistributedDirectory
import Pyleans.Library.Transition

namespace Pyleans.HandoffDelivery

open Library DistributedGrainDirectory

/-- The directories of a cluster that is changing its ring, the handoffs on
the wire, and the silos that have processed the change. -/
structure Handover where
  directories : SiloAddress → DistributedGrainDirectory
  inFlight : List (SiloAddress × DirectoryEntry)
  changed : List SiloAddress

inductive HandoverAction
  | change (silo : SiloAddress)
  | deliver (target : SiloAddress) (entry : DirectoryEntry)

variable [StableHash] (silos active : List SiloAddress)

def step (s : Handover) : HandoverAction → Option Handover
  | .change t =>
    if t ∈ silos ∧ t ∉ s.changed then
      match (s.directories t).onMembershipChanged active (fun _ ↦ true) with
      | (d, .error _) => some ⟨Function.update s.directories t d, s.inFlight, t :: s.changed⟩
      | (d, .ok handoffs) =>
        some ⟨Function.update s.directories t d, s.inFlight ++ handoffs, t :: s.changed⟩
    else none
  | .deliver target entry =>
    if target ∈ silos ∧ (target, entry) ∈ s.inFlight then
      match (s.directories target).applyHandoff entry with
      | .error _ => some { s with inFlight := s.inFlight.erase (target, entry) }
      | .ok (d, _) => some
        { s with
          directories := Function.update s.directories target d
          inFlight := s.inFlight.erase (target, entry) }
    else none

/-- Every silo shares the ring, and every entry is at its owner under it. -/
structure AtOwners (old : ConsistentHashRing) (initial : SiloAddress → DistributedGrainDirectory) :
    Prop where
  localSilo : ∀ t, (initial t).localSilo = t
  ring : ∀ t, (initial t).ring = old
  owned : ∀ t, ∀ e ∈ (initial t).owned.items,
    t ∈ silos ∧ old.ownerOf (hashGrainId e.grainId) = some t

def Complete (s : Handover) : Prop := (∀ t ∈ silos, t ∈ s.changed) ∧ s.inFlight = []

/-- Every entry held before is held by its owner under the new ring. -/
def NoneLost (initial : SiloAddress → DistributedGrainDirectory) (s : Handover) : Prop :=
  ∀ t, ∀ e ∈ (initial t).owned.items, ∀ o,
    (ConsistentHashRing.withDefaults active).ownerOf (hashGrainId e.grainId) = some o →
    (s.directories o).owned.get e.grainId = some e

/-- A handoff is delivered only to a silo that has processed the change. -/
def DeliversLate (s : Handover) : HandoverAction → Prop
  | .change _ => True
  | .deliver target _ => target ∈ s.changed

def HeldOnlyAt (s : Handover) (t : SiloAddress) (e : DirectoryEntry) : Prop :=
  ∀ t', (s.directories t').owned.get e.grainId = if t' = t then some e else none

def HeldNowhere (s : Handover) (g : GrainId) : Prop := ∀ t, (s.directories t).owned.get g = none

def onWire (s : Handover) (g : GrainId) : List (SiloAddress × DirectoryEntry) :=
  s.inFlight.filter (fun m ↦ m.2.grainId = g)

def Lost (s : Handover) (e : DirectoryEntry) : Prop :=
  HeldNowhere s e.grainId ∧ onWire s e.grainId = []

def SomeLost (initial : SiloAddress → DistributedGrainDirectory) (s : Handover) : Prop :=
  ∃ t, ∃ e ∈ (initial t).owned.items, Lost s e

/-- Where an entry is on its way from its old owner to its new one. -/
inductive Whereabouts (s : Handover) (home dest : SiloAddress) (e : DirectoryEntry) : Prop
  | home : home ∉ s.changed → HeldOnlyAt s home e → onWire s e.grainId = [] →
      Whereabouts s home dest e
  | moving : home ≠ dest → HeldNowhere s e.grainId → onWire s e.grainId = [(dest, e)] →
      Whereabouts s home dest e
  | settled : dest ∈ s.changed → HeldOnlyAt s dest e → onWire s e.grainId = [] →
      Whereabouts s home dest e

structure Rings (old : ConsistentHashRing) (s : Handover) : Prop where
  localSilo : ∀ t, (s.directories t).localSilo = t
  unchanged : ∀ t, t ∉ s.changed → (s.directories t).ring = old
  changed : ∀ t, t ∈ s.changed → (s.directories t).ring = .withDefaults active

/-- No entry is lost, and nothing is on the wire that was not held before. -/
structure Good (old : ConsistentHashRing) (initial : SiloAddress → DistributedGrainDirectory)
    (s : Handover) : Prop where
  rings : Rings active old s
  traced : ∀ m ∈ s.inFlight, ∃ t, m.2 ∈ (initial t).owned.items
  heldTraced : ∀ t, ∀ e ∈ (s.directories t).owned.items, ∃ t₀, e ∈ (initial t₀).owned.items
  whereabouts : ∀ t, ∀ e ∈ (initial t).owned.items, ∀ o,
    (ConsistentHashRing.withDefaults active).ownerOf (hashGrainId e.grainId) = some o →
    Whereabouts s t o e

variable {silos active} {old : ConsistentHashRing}
  {initial : SiloAddress → DistributedGrainDirectory}
  {s s' : Handover}

theorem change_spec (ha : active ≠ []) {t : SiloAddress}
    (h : step silos active s (.change t) = some s') :
    t ∈ silos ∧ t ∉ s.changed ∧ s'.changed = t :: s.changed ∧
    s'.inFlight = s.inFlight ++ (s.directories t).handoffsFor active ∧
    ∃ d, s'.directories = Function.update s.directories t d ∧
      d.owned = (s.directories t).keptAfter active ∧ d.ring = .withDefaults active ∧
      d.localSilo = (s.directories t).localSilo := by
  obtain ⟨d, hd, howned, hring, -, hlocal⟩ :=
    onMembershipChanged_ok (s.directories t) ha fun _ ↦ true
  simp only [step, hd, List.filter_true] at h
  split_ifs at h with hg
  obtain rfl := Option.some.inj h
  exact ⟨hg.1, hg.2, rfl, rfl, d, rfl, howned, hring, hlocal⟩

theorem deliver_spec {target : SiloAddress} {x : DirectoryEntry}
    (h : step silos active s (.deliver target x) = some s') :
    (target, x) ∈ s.inFlight ∧ s'.changed = s.changed ∧ s'.inFlight = s.inFlight.erase (target, x) ∧
    ∃ d, s'.directories = Function.update s.directories target d ∧
      ((∃ error, (s.directories target).applyHandoff x = .error error) ∧ d = s.directories target ∨
        ∃ losers, (s.directories target).applyHandoff x = .ok (d, losers)) := by
  simp only [step] at h
  split_ifs at h with hg
  split at h
  · next error he =>
    obtain rfl := Option.some.inj h
    exact ⟨hg.2, rfl, rfl, s.directories target, by simp, .inl ⟨⟨error, he⟩, rfl⟩⟩
  · next d losers hd =>
    obtain rfl := Option.some.inj h
    exact ⟨hg.2, rfl, rfl, d, rfl, .inr ⟨losers, hd⟩⟩

theorem rings_step (ha : active ≠ []) {a : HandoverAction} (h : Rings active old s)
    (hs : step silos active s a = some s') : Rings active old s' := by
  cases a with
  | change t =>
    obtain ⟨-, ht, hc, -, d, hd, -, hring, hlocal⟩ := change_spec ha hs
    refine ⟨fun t' ↦ ?_, fun t' ht' ↦ ?_, fun t' ht' ↦ ?_⟩
    · rw [hd]
      by_cases he : t' = t
      · rw [he, Function.update_self, hlocal, h.localSilo]
      · rw [Function.update_of_ne he, h.localSilo]
    · rw [hc, List.mem_cons, not_or] at ht'
      rw [hd, Function.update_of_ne ht'.1, h.unchanged t' ht'.2]
    · rw [hd]
      by_cases he : t' = t
      · rw [he, Function.update_self, hring]
      · rw [hc] at ht'
        rw [Function.update_of_ne he, h.changed t' ((List.mem_cons.mp ht').resolve_left he)]
  | deliver target x =>
    obtain ⟨-, hc, -, d, hd, happ⟩ := deliver_spec hs
    have hstatic : d.ring = (s.directories target).ring ∧
        d.localSilo = (s.directories target).localSilo := by
      rcases happ with ⟨-, rfl⟩ | ⟨losers, happ⟩
      · exact ⟨rfl, rfl⟩
      · exact ⟨(applyHandoff_static happ).1, (applyHandoff_static happ).2.1⟩
    have hall : ∀ t', (s'.directories t').ring = (s.directories t').ring ∧
        (s'.directories t').localSilo = (s.directories t').localSilo := by
      intro t'
      rw [hd]
      by_cases he : t' = target
      · rw [he, Function.update_self]
        exact hstatic
      · rw [Function.update_of_ne he]
        exact ⟨rfl, rfl⟩
    refine ⟨fun t' ↦ (hall t').2.trans (h.localSilo t'), fun t' ht' ↦ ?_, fun t' ht' ↦ ?_⟩
    · exact (hall t').1.trans (h.unchanged t' (hc ▸ ht'))
    · exact (hall t').1.trans (h.changed t' (hc ▸ ht'))

theorem change_frame (ha : active ≠ []) {t : SiloAddress} {g : GrainId}
    (hs : step silos active s (.change t) = some s') (hg : (s.directories t).owned.get g = none) :
    (∀ t', (s'.directories t').owned.get g = (s.directories t').owned.get g) ∧
      onWire s' g = onWire s g := by
  obtain ⟨-, -, -, hf, d, hd, howned, -⟩ := change_spec ha hs
  constructor
  · intro t'
    rw [hd]
    by_cases he : t' = t
    · rw [he, Function.update_self, howned, keptAfter_get ha, hg, Option.filter_none]
    · rw [Function.update_of_ne he]
  · rw [onWire, hf, List.filter_append, handoffsFor_filter, hg]
    exact List.append_nil _

theorem deliver_frame {target : SiloAddress} {x : DirectoryEntry} {g : GrainId}
    (hs : step silos active s (.deliver target x) = some s') (hg : g ≠ x.grainId) :
    (∀ t', (s'.directories t').owned.get g = (s.directories t').owned.get g) ∧
      onWire s' g = onWire s g := by
  obtain ⟨-, -, hf, d, hd, happ⟩ := deliver_spec hs
  constructor
  · intro t'
    rw [hd]
    by_cases he : t' = target
    · rw [he, Function.update_self]
      rcases happ with ⟨-, rfl⟩ | ⟨losers, happ⟩
      · rfl
      · exact applyHandoff_get_of_ne happ hg
    · rw [Function.update_of_ne he]
  · rw [onWire, onWire, hf, ← List.erase_filter]
    refine List.erase_of_not_mem (fun hm ↦ hg ?_)
    have hx : x.grainId = g := by simpa using List.of_mem_filter hm
    exact hx.symm

omit [StableHash] in
theorem Whereabouts.frame {h o : SiloAddress} {e : DirectoryEntry} (hw : Whereabouts s h o e)
    (hc : s'.changed = s.changed)
    (hget : ∀ t', (s'.directories t').owned.get e.grainId = (s.directories t').owned.get e.grainId)
    (hwire : onWire s' e.grainId = onWire s e.grainId) : Whereabouts s' h o e := by
  cases hw with
  | home hn hh hl => exact .home (hc ▸ hn) (fun t' ↦ (hget t').trans (hh t')) (hwire.trans hl)
  | moving hn hh hl => exact .moving hn (fun t' ↦ (hget t').trans (hh t')) (hwire.trans hl)
  | settled hn hh hl => exact .settled (hc ▸ hn) (fun t' ↦ (hget t').trans (hh t')) (hwire.trans hl)

omit [StableHash] in
theorem Lost.frame {e : DirectoryEntry} (hl : Lost s e)
    (hget : ∀ t', (s'.directories t').owned.get e.grainId = (s.directories t').owned.get e.grainId)
    (hwire : onWire s' e.grainId = onWire s e.grainId) : Lost s' e :=
  ⟨fun t' ↦ (hget t').trans (hl.1 t'), hwire.trans hl.2⟩

theorem whereabouts_change (ha : active ≠ []) (hr : Rings active old s) {t h o : SiloAddress}
    {e : DirectoryEntry} (hs : step silos active s (.change t) = some s')
    (ho : (ConsistentHashRing.withDefaults active).ownerOf (hashGrainId e.grainId) = some o)
    (hw : Whereabouts s h o e) : Whereabouts s' h o e := by
  obtain ⟨-, ht, hc, hf, d, hd, howned, -⟩ := change_spec ha hs
  by_cases hg : (s.directories t).owned.get e.grainId = none
  · obtain ⟨hget, hwire⟩ := change_frame ha hs hg
    cases hw with
    | home hn hh hl =>
      have hne : h ≠ t := by
        rintro rfl
        rw [hh h, if_pos rfl] at hg
        exact Option.some_ne_none e hg
      refine .home ?_ (fun t' ↦ (hget t').trans (hh t')) (hwire.trans hl)
      rw [hc, List.mem_cons, not_or]
      exact ⟨hne, hn⟩
    | moving hn hh hl => exact .moving hn (fun t' ↦ (hget t').trans (hh t')) (hwire.trans hl)
    | settled hn hh hl =>
      exact .settled (hc ▸ List.mem_cons_of_mem t hn) (fun t' ↦ (hget t').trans (hh t'))
        (hwire.trans hl)
  · cases hw with
    | moving hn hh hl => exact absurd (hh t) hg
    | settled hn hh hl =>
      have hne : t ≠ o := fun he ↦ ht (he ▸ hn)
      exact absurd ((hh t).trans (if_neg hne)) hg
    | home hn hh hl =>
      have hth : t = h := by
        by_contra hne
        exact hg ((hh t).trans (if_neg hne))
      subst hth
      have hget : (s.directories t).owned.get e.grainId = some e := (hh t).trans (if_pos rfl)
      have hothers : ∀ t', t' ≠ t → (s'.directories t').owned.get e.grainId = none := by
        intro t' hne
        rw [hd, Function.update_of_ne hne, hh t', if_neg hne]
      have hself : (s'.directories t).owned.get e.grainId = if o = t then some e else none := by
        rw [hd, Function.update_self, howned, keptAfter_get ha, hget, ho, hr.localSilo,
          Option.filter_some]
        simp
      have hwire : onWire s' e.grainId = if o = t then [] else [(o, e)] := by
        rw [onWire, hf, List.filter_append, handoffsFor_filter, hget, Option.bind_some, handoffOf,
          ho, Option.bind_some, hr.localSilo]
        rw [onWire] at hl
        rw [hl]
        by_cases hot : o = t <;> simp [hot]
      by_cases hot : o = t
      · subst hot
        refine .settled (hc ▸ List.mem_cons_self) (fun t' ↦ ?_) (hwire.trans (if_pos rfl))
        by_cases hne : t' = o
        · rw [hne, hself, if_pos rfl]
        · rw [hothers t' hne, if_neg hne]
      · refine .moving (Ne.symm hot) (fun t' ↦ ?_) (hwire.trans (if_neg hot))
        by_cases hne : t' = t
        · rw [hne, hself, if_neg hot]
        · exact hothers t' hne

omit [StableHash] in
/-- An entry with a message on the wire is moving, and the message is its own. -/
theorem Whereabouts.of_inFlight {h o target : SiloAddress} {e x : DirectoryEntry}
    (hw : Whereabouts s h o e) (hm : (target, x) ∈ s.inFlight) (hg : e.grainId = x.grainId) :
    target = o ∧ x = e ∧ h ≠ o ∧ HeldNowhere s e.grainId ∧ onWire s e.grainId = [(o, e)] := by
  have hx : (target, x) ∈ onWire s e.grainId := List.mem_filter.mpr ⟨hm, by simp [hg]⟩
  cases hw with
  | home _ _ hl => rw [hl] at hx; exact absurd hx List.not_mem_nil
  | settled _ _ hl => rw [hl] at hx; exact absurd hx List.not_mem_nil
  | moving hne hh hl =>
    rw [hl, List.mem_singleton, Prod.mk.injEq] at hx
    exact ⟨hx.1, hx.2, hne, hh, hl⟩

theorem onWire_deliver {target : SiloAddress} {e : DirectoryEntry}
    (hs : step silos active s (.deliver target e) = some s')
    (hl : onWire s e.grainId = [(target, e)]) : onWire s' e.grainId = [] := by
  obtain ⟨-, -, hf, -⟩ := deliver_spec hs
  rw [onWire] at hl ⊢
  rw [hf, ← List.erase_filter, hl, List.erase_cons_head]

theorem settled_of_deliver (hr : Rings active old s) {o : SiloAddress} {e : DirectoryEntry}
    (hs : step silos active s (.deliver o e) = some s') (hc : o ∈ s.changed)
    (ho : (ConsistentHashRing.withDefaults active).ownerOf (hashGrainId e.grainId) = some o)
    (hn : HeldNowhere s e.grainId) : HeldOnlyAt s' o e := by
  obtain ⟨-, -, -, d, hd, happ⟩ := deliver_spec hs
  have howner : (s.directories o).ownerOf e.grainId = .ok (s.directories o).localSilo := by
    rw [DistributedGrainDirectory.ownerOf, hr.changed o hc, hr.localSilo o]
    exact ownerOfWithRing_ok_iff.mpr ho
  intro t'
  rw [hd]
  by_cases hne : t' = o
  · rw [hne, Function.update_self, if_pos rfl]
    rcases happ with ⟨⟨error, he⟩, -⟩ | ⟨losers, happ⟩
    · obtain ⟨d', losers, hok⟩ := exists_applyHandoff howner
      rw [he] at hok
      cases hok
    · rcases applyHandoff_cases happ with ⟨hno, -⟩ | ⟨-, ⟨c, hc', -⟩ | ⟨-, rfl, -⟩⟩
      · exact absurd howner hno
      · rw [hn o] at hc'
        cases hc'
      · exact Table.get_put_self _ _
  · rw [Function.update_of_ne hne, hn t', if_neg hne]

/-- A silo that is still on the old ring drops what it does not own there. -/
theorem nowhere_of_deliver (hr : Rings active old s) {h o : SiloAddress} {e : DirectoryEntry}
    (hs : step silos active s (.deliver o e) = some s') (hc : o ∉ s.changed)
    (hold : old.ownerOf (hashGrainId e.grainId) = some h) (hne : h ≠ o)
    (hn : HeldNowhere s e.grainId) : HeldNowhere s' e.grainId := by
  obtain ⟨-, -, -, d, hd, happ⟩ := deliver_spec hs
  have howner : (s.directories o).ownerOf e.grainId ≠ .ok (s.directories o).localSilo := by
    rw [DistributedGrainDirectory.ownerOf, hr.unchanged o hc, hr.localSilo o,
      ownerOfWithRing_ok_iff.mpr hold]
    exact fun hok ↦ hne (Except.ok.inj hok)
  have hsame : d = s.directories o := by
    rcases happ with ⟨-, hd'⟩ | ⟨losers, happ⟩
    · exact hd'
    · rcases applyHandoff_cases happ with ⟨-, hd', -⟩ | ⟨hok, -⟩
      · exact hd'
      · exact absurd hok howner
  intro t'
  rw [hd, hsame, Function.update_eq_self]
  exact hn t'

theorem inFlight_traced_step (ha : active ≠ []) {a : HandoverAction}
    (hg : Good active old initial s) (hs : step silos active s a = some s') :
    ∀ m ∈ s'.inFlight, ∃ t, m.2 ∈ (initial t).owned.items := by
  intro m hm
  cases a with
  | change t =>
    obtain ⟨-, -, -, hf, -⟩ := change_spec ha hs
    rw [hf] at hm
    rcases List.mem_append.mp hm with hm | hm
    · exact hg.traced m hm
    · exact hg.heldTraced t m.2 (mem_handoffsFor.mp hm).1
  | deliver target x =>
    obtain ⟨-, -, hf, -⟩ := deliver_spec hs
    rw [hf] at hm
    exact hg.traced m (List.mem_of_mem_erase hm)

theorem held_traced_step (ha : active ≠ []) {a : HandoverAction} (hg : Good active old initial s)
    (hs : step silos active s a = some s') :
    ∀ t, ∀ e ∈ (s'.directories t).owned.items, ∃ t₀, e ∈ (initial t₀).owned.items := by
  intro t' e he
  cases a with
  | change t =>
    obtain ⟨-, -, -, -, d, hd, howned, -⟩ := change_spec ha hs
    rw [hd] at he
    by_cases hne : t' = t
    · rw [hne, Function.update_self, howned, Table.mem_iff_get, keptAfter_get ha,
        Option.filter_eq_some_iff] at he
      exact hg.heldTraced t e (Table.mem_of_get he.1)
    · rw [Function.update_of_ne hne] at he
      exact hg.heldTraced t' e he
  | deliver target x =>
    obtain ⟨hm, -, -, d, hd, happ⟩ := deliver_spec hs
    rw [hd] at he
    by_cases hne : t' = target
    · rw [hne, Function.update_self] at he
      rcases happ with ⟨-, rfl⟩ | ⟨losers, happ⟩
      · exact hg.heldTraced target e he
      · rcases applyHandoff_cases happ with ⟨-, rfl, -⟩ | ⟨-, ⟨c, -, -, rfl, -⟩ | ⟨-, rfl, -⟩⟩
        · exact hg.heldTraced target e he
        · exact hg.heldTraced target e he
        · rcases Table.mem_put.mp he with rfl | ⟨he, -⟩
          · exact hg.traced _ hm
          · exact hg.heldTraced target e he
    · rw [Function.update_of_ne hne] at he
      exact hg.heldTraced t' e he

theorem good_step (ha : active ≠ []) {a : HandoverAction} (hg : Good active old initial s)
    (hok : DeliversLate s a) (hs : step silos active s a = some s') :
    Good active old initial s' := by
  refine ⟨rings_step ha hg.rings hs, inFlight_traced_step ha hg hs, held_traced_step ha hg hs,
    fun h e he o ho ↦ ?_⟩
  have hw := hg.whereabouts h e he o ho
  cases a with
  | change t => exact whereabouts_change ha hg.rings hs ho hw
  | deliver target x =>
    obtain ⟨hm, hc, -⟩ := deliver_spec hs
    by_cases hx : e.grainId = x.grainId
    · obtain ⟨rfl, rfl, -, hn, hl⟩ := hw.of_inFlight hm hx
      exact .settled (hc ▸ hok) (settled_of_deliver hg.rings hs hok ho hn) (onWire_deliver hs hl)
    · obtain ⟨hget, hwire⟩ := deliver_frame hs hx
      exact hw.frame hc hget hwire

theorem lost_of_early (ha : active ≠ []) (hi : AtOwners silos old initial) {a : HandoverAction}
    (hg : Good active old initial s) (hok : ¬ DeliversLate s a)
    (hs : step silos active s a = some s') : SomeLost initial s' := by
  cases a with
  | change t => exact absurd trivial hok
  | deliver target x =>
    obtain ⟨hm, -⟩ := deliver_spec hs
    obtain ⟨h, hx⟩ := hg.traced _ hm
    obtain ⟨o, ho⟩ := ConsistentHashRing.exists_ownerOf
      (ConsistentHashRing.withDefaults_silos_ne_nil ha) (hashGrainId x.grainId)
    obtain ⟨rfl, -, hne, hn, hl⟩ := (hg.whereabouts h x hx o ho).of_inFlight hm rfl
    exact ⟨h, x, hx, nowhere_of_deliver hg.rings hs hok (hi.owned h x hx).2 hne hn,
      onWire_deliver hs hl⟩

theorem lost_step (ha : active ≠ []) {a : HandoverAction} {e : DirectoryEntry} (hl : Lost s e)
    (hs : step silos active s a = some s') : Lost s' e := by
  cases a with
  | change t =>
    obtain ⟨hget, hwire⟩ := change_frame ha hs (hl.1 t)
    exact hl.frame hget hwire
  | deliver target x =>
    obtain ⟨hm, -⟩ := deliver_spec hs
    have hx : e.grainId ≠ x.grainId := by
      intro he
      have hmem : (target, x) ∈ onWire s e.grainId := List.mem_filter.mpr ⟨hm, by simp [he]⟩
      rw [hl.2] at hmem
      exact List.not_mem_nil hmem
    obtain ⟨hget, hwire⟩ := deliver_frame hs hx
    exact hl.frame hget hwire

theorem someLost_step (ha : active ≠ []) {a : HandoverAction} (hl : SomeLost initial s)
    (hs : step silos active s a = some s') : SomeLost initial s' := by
  obtain ⟨t, e, he, hl⟩ := hl
  exact ⟨t, e, he, lost_step ha hl hs⟩

def start (initial : SiloAddress → DistributedGrainDirectory) : Handover := ⟨initial, [], []⟩

theorem good_start (hi : AtOwners silos old initial) : Good active old initial (start initial) := by
  refine ⟨⟨hi.localSilo, fun t _ ↦ hi.ring t, fun t ht ↦ absurd ht List.not_mem_nil⟩,
    fun m hm ↦ absurd hm List.not_mem_nil, fun t e he ↦ ⟨t, he⟩, fun t e he o _ ↦ ?_⟩
  refine .home List.not_mem_nil (fun t' ↦ ?_) rfl
  by_cases hne : t' = t
  · rw [hne, if_pos rfl]
    exact Table.get_of_mem he
  · rw [if_neg hne, Table.get_eq_none_iff]
    intro c hc hg
    have hown := (hi.owned t' c hc).2
    rw [hg, (hi.owned t e he).2] at hown
    exact hne (Option.some.inj hown).symm

theorem noneLost_of_good (hi : AtOwners silos old initial) (hc : Complete silos s)
    (hg : Good active old initial s) : NoneLost active initial s := by
  intro t e he o ho
  cases hg.whereabouts t e he o ho with
  | home hn _ _ => exact absurd (hc.1 t (hi.owned t e he).1) hn
  | moving _ _ hl => rw [onWire, hc.2] at hl; cases hl
  | settled _ hh _ => exact (hh o).trans (if_pos rfl)

theorem not_noneLost (ha : active ≠ []) (hl : SomeLost initial s) :
    ¬ NoneLost active initial s := by
  intro hnone
  obtain ⟨t, e, he, hl⟩ := hl
  obtain ⟨o, ho⟩ := ConsistentHashRing.exists_ownerOf
    (ConsistentHashRing.withDefaults_silos_ne_nil ha) (hashGrainId e.grainId)
  have hget := hnone t e he o ho
  rw [hl.1 o] at hget
  cases hget

/-- Every entry reaches its new owner exactly in the runs in which no handoff
overtakes its receiver's own change of ring. -/
theorem no_entry_lost_iff (silos active : List SiloAddress) (ha : active ≠ [])
    (old : ConsistentHashRing) (initial : SiloAddress → DistributedGrainDirectory)
    (hi : AtOwners silos old initial) (as : List HandoverAction) (s' : Handover)
    (h : exec (step silos active) (start initial) as = some s') (hc : Complete silos s') :
    NoneLost active initial s' ↔ Meets (step silos active) DeliversLate (start initial) as := by
  obtain ⟨hgood, hbad⟩ := exec_good_or_bad h (good_start hi)
    (fun _ _ _ hg hok hs ↦ good_step ha hg hok hs)
    (fun _ _ _ hg hok hs ↦ lost_of_early ha hi hg hok hs)
    (fun _ _ _ hl hs ↦ someLost_step ha hl hs)
  constructor
  · intro hnone
    by_contra hm
    exact not_noneLost ha (hbad hm) hnone
  · exact fun hm ↦ noneLost_of_good hi hc (hgood hm)

theorem exists_change (ha : active ≠ []) {t : SiloAddress} (ht : t ∈ silos) (hn : t ∉ s.changed) :
    ∃ s', step silos active s (.change t) = some s' := by
  obtain ⟨d, hd, -⟩ := onMembershipChanged_ok (s.directories t) ha fun _ ↦ true
  simp only [step, if_pos (And.intro ht hn), hd]
  exact ⟨_, rfl⟩

theorem exists_deliver {target : SiloAddress} {x : DirectoryEntry} (ht : target ∈ silos)
    (hm : (target, x) ∈ s.inFlight) : ∃ s', step silos active s (.deliver target x) = some s' := by
  simp only [step, if_pos (And.intro ht hm)]
  split <;> exact ⟨_, rfl⟩

def movingEntry : DirectoryEntry := ⟨counter1, siloB, 1⟩

def leaving (t : SiloAddress) : DistributedGrainDirectory where
  localSilo := t
  ring := .withDefaults [siloA]
  activeSilos := [siloA]
  owned := if t = siloA then Table.empty.put movingEntry else .empty
  epoch := 1
  rebuild := none

theorem leaving_atOwners : AtOwners [siloA, siloB] (.withDefaults [siloA]) leaving := by
  refine ⟨fun _ ↦ rfl, fun _ ↦ rfl, fun t e he ↦ ?_⟩
  by_cases ht : t = siloA
  · subst ht
    exact ⟨List.mem_cons_self, ConsistentHashRing.ownerOf_singleton siloA _⟩
  · simp only [leaving, if_neg ht] at he
    exact absurd he List.not_mem_nil

theorem leaving_handoffs {s : Handover} (hs : s.directories siloA = leaving siloA) :
    (s.directories siloA).handoffsFor [siloB] = [(siloB, movingEntry)] := by
  have hitems : (leaving siloA).owned.items = [movingEntry] := rfl
  have hne : siloB ≠ siloA := by decide
  rw [hs, handoffsFor, hitems]
  simp [handoffOf, ConsistentHashRing.ownerOf_singleton, leaving, hne]

theorem handoffsFor_sole {d : DistributedGrainDirectory} {t : SiloAddress} (h : d.localSilo = t) :
    d.handoffsFor [t] = [] := by
  rw [handoffsFor, List.filterMap_eq_nil_iff]
  intro e _
  simp [handoffOf, ConsistentHashRing.ownerOf_singleton, h]

theorem leaving_late : ∃ s', exec (step [siloA, siloB] [siloB]) (start leaving)
      [.change siloB, .change siloA, .deliver siloB movingEntry] = some s' ∧
    Complete [siloA, siloB] s' ∧ Meets (step [siloA, siloB] [siloB]) DeliversLate (start leaving)
      [.change siloB, .change siloA, .deliver siloB movingEntry] := by
  have ha : [siloB] ≠ [] := List.cons_ne_nil _ _
  have hba : siloA ≠ siloB := by decide
  obtain ⟨s₁, h₁⟩ := @exists_change _ [siloA, siloB] _ (start leaving) ha siloB
    (by decide) List.not_mem_nil
  obtain ⟨-, -, hc₁, hf₁, d₁, hd₁, -⟩ := change_spec ha h₁
  have hleft : s₁.directories siloA = leaving siloA := by rw [hd₁, Function.update_of_ne hba]; rfl
  have hnone : ((start leaving).directories siloB).handoffsFor [siloB] = [] := handoffsFor_sole rfl
  obtain ⟨s₂, h₂⟩ := @exists_change _ [siloA, siloB] _ s₁ ha siloA (by decide)
    (by rw [hc₁]; decide)
  obtain ⟨-, -, hc₂, hf₂, -⟩ := change_spec ha h₂
  rw [leaving_handoffs hleft, hf₁, hnone] at hf₂
  obtain ⟨s₃, h₃⟩ := @exists_deliver _ [siloA, siloB] [siloB] s₂ siloB movingEntry (by decide)
    (by rw [hf₂]; exact List.mem_singleton_self _)
  obtain ⟨-, hc₃, hf₃, -⟩ := deliver_spec h₃
  refine ⟨s₃, ?_, ⟨?_, ?_⟩, trivial, fun t₁ ht₁ ↦ ⟨trivial, fun t₂ ht₂ ↦ ⟨?_, fun _ _ ↦ trivial⟩⟩⟩
  · simp only [exec_cons, exec_nil, Option.some.injEq]
    exact ⟨s₁, h₁, s₂, h₂, s₃, h₃, rfl⟩
  · rw [hc₃, hc₂, hc₁]
    decide
  · rw [hf₃, hf₂]
    exact List.erase_cons_head ..
  · obtain rfl := Option.some.inj (h₁.symm.trans ht₁)
    obtain rfl := Option.some.inj (h₂.symm.trans ht₂)
    rw [DeliversLate, hc₂, hc₁]
    decide

theorem leaving_early : ∃ s', exec (step [siloA, siloB] [siloB]) (start leaving)
      [.change siloA, .deliver siloB movingEntry, .change siloB] = some s' ∧
    Complete [siloA, siloB] s' ∧ SomeLost leaving s' := by
  have ha : [siloB] ≠ [] := List.cons_ne_nil _ _
  have hi := @leaving_atOwners _
  obtain ⟨s₁, h₁⟩ := @exists_change _ [siloA, siloB] _ (start leaving) ha siloA
    (by decide) List.not_mem_nil
  obtain ⟨-, -, hc₁, hf₁, -⟩ := change_spec ha h₁
  rw [leaving_handoffs rfl] at hf₁
  obtain ⟨s₂, h₂⟩ := @exists_deliver _ [siloA, siloB] [siloB] s₁ siloB movingEntry (by decide)
    (by rw [hf₁]; exact List.mem_singleton_self _)
  obtain ⟨-, hc₂, hf₂, -⟩ := deliver_spec h₂
  obtain ⟨s₃, h₃⟩ := @exists_change _ [siloA, siloB] _ s₂ ha siloB (by decide)
    (by rw [hc₂, hc₁]; decide)
  obtain ⟨-, -, hc₃, hf₃, d₃, hd₃, -⟩ := change_spec ha h₃
  have hrings := rings_step ha (rings_step ha (good_start hi).rings h₁) h₂
  have hlate : DeliversLate (start leaving) (.change siloA) := trivial
  have hlost := lost_of_early ha hi (good_step ha (good_start hi) hlate h₁)
    (by rw [DeliversLate, hc₁]; decide) h₂
  refine ⟨s₃, ?_, ⟨?_, ?_⟩, someLost_step ha hlost h₃⟩
  · simp only [exec_cons, exec_nil, Option.some.injEq]
    exact ⟨s₁, h₁, s₂, h₂, s₃, h₃, rfl⟩
  · rw [hc₃, hc₂, hc₁]
    decide
  · rw [hf₃, hf₂, hf₁, handoffsFor_sole (hrings.localSilo siloB), List.append_nil]
    exact List.erase_cons_head ..

omit [StableHash]

theorem no_entry_lost_late :
    letI := sampleHash
    ∃ s', exec (step [siloA, siloB] [siloB]) (start leaving)
        [.change siloB, .change siloA, .deliver siloB movingEntry] = some s' ∧
      Complete [siloA, siloB] s' ∧ NoneLost [siloB] leaving s' := by
  obtain ⟨s', h, hc, hm⟩ := @leaving_late sampleHash
  exact ⟨s', h, hc, (@no_entry_lost_iff sampleHash [siloA, siloB] [siloB] (List.cons_ne_nil _ _)
    (.withDefaults [siloA]) leaving (@leaving_atOwners sampleHash) _ s' h hc).mpr hm⟩

/-- The handoff reaches a silo that still has the old ring and is dropped. -/
theorem early_handoff_lost :
    letI := sampleHash
    ¬ ∀ as s', exec (step [siloA, siloB] [siloB]) (start leaving) as = some s' →
      Complete [siloA, siloB] s' → NoneLost [siloB] leaving s' := by
  intro hall
  obtain ⟨s', h, hc, hl⟩ := @leaving_early sampleHash
  exact @not_noneLost sampleHash [siloB] leaving s' (List.cons_ne_nil _ _) hl (hall _ s' h hc)

end Pyleans.HandoffDelivery
