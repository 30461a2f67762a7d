import Mathlib.Data.Prod.Lex
import Pyleans.Cluster.DistributedDirectory
import Pyleans.Library.FirstLeast

namespace Pyleans

open Library

/-- The order of preference among competing entries: the lower epoch wins, and
the smaller silo id among equal epochs. -/
def DirectoryEntry.rank (e : DirectoryEntry) : ℤ ×ₗ String :=
  toLex (e.activationEpoch, e.silo.siloId)

theorem DirectoryEntry.rank_lt {e c : DirectoryEntry} : e.rank < c.rank ↔
    e.activationEpoch < c.activationEpoch ∨
      e.activationEpoch = c.activationEpoch ∧ e.silo.siloId < c.silo.siloId :=
  Prod.Lex.toLex_lt_toLex

theorem DirectoryEntry.epoch_le_of_rank_le {e c : DirectoryEntry} (h : e.rank ≤ c.rank) :
    e.activationEpoch ≤ c.activationEpoch := Prod.Lex.monotone_fst e.rank c.rank h

theorem DirectoryEntry.eq_of_rank {e c : DirectoryEntry} (hg : e.grainId = c.grainId)
    (h : e.rank = c.rank) : e = c := by
  have hp : e.activationEpoch = c.activationEpoch ∧ e.silo.siloId = c.silo.siloId :=
    Prod.ext_iff.mp (toLex.injective h)
  have hs := siloId_injective hp.2
  cases e
  cases c
  simp_all

namespace Reconciliation

def mergeOne (acc : Option DirectoryEntry × List Loser) (entry : DirectoryEntry) :
    Option DirectoryEntry × List Loser :=
  match acc.1 with
  | none => (some entry, acc.2)
  | some current =>
    if entry.rank < current.rank then (some entry, acc.2 ++ [loserOf current])
    else if entry.silo ≠ current.silo then (acc.1, acc.2 ++ [loserOf entry])
    else acc

def project (g : GrainId) (acc : EntryTable × List Loser) : Option DirectoryEntry × List Loser :=
  (acc.1.get g, acc.2.filter (fun l ↦ l.2.1 = g))

theorem project_put_self (t : EntryTable) (ls : List Loser) (e : DirectoryEntry) :
    project e.grainId (t.put e, ls) = (some e, ls.filter (fun l ↦ l.2.1 = e.grainId)) := by
  simp only [project, Table.get_put_self]

theorem project_put_ne {g : GrainId} {e : DirectoryEntry} (hg : e.grainId ≠ g) (t : EntryTable)
    (ls : List Loser) : project g (t.put e, ls) = project g (t, ls) := by
  simp only [project, Table.get_put, if_neg (Ne.symm hg)]

theorem project_loser_self {e : DirectoryEntry} {g : GrainId} (hg : e.grainId = g) (t : EntryTable)
    (ls : List Loser) : project g (t, ls ++ [loserOf e]) =
      ((project g (t, ls)).1, (project g (t, ls)).2 ++ [loserOf e]) := by
  simp [project, loserOf, hg]

theorem project_loser_ne {e : DirectoryEntry} {g : GrainId} (hg : e.grainId ≠ g) (t : EntryTable)
    (ls : List Loser) : project g (t, ls ++ [loserOf e]) = project g (t, ls) := by
  simp [project, loserOf, hg]

theorem project_mergeCandidate_self (acc : EntryTable × List Loser) (e : DirectoryEntry) :
    project e.grainId (mergeCandidate acc e) = mergeOne (project e.grainId acc) e := by
  obtain ⟨t, ls⟩ := acc
  have hfst : (project e.grainId (t, ls)).1 = t.get e.grainId := rfl
  unfold mergeCandidate mergeOne
  simp only [hfst]
  cases hc : t.get e.grainId with
  | none => exact project_put_self _ _ _
  | some c =>
    have hcg := Table.key_of_get hc
    have hput : project e.grainId (t.put e, ls ++ [loserOf c]) =
        (some e, (project e.grainId (t, ls)).2 ++ [loserOf c]) := by
      rw [project_loser_self hcg, project_put_self]
      rfl
    have hkeep : project e.grainId (t, ls ++ [loserOf e]) =
        (some c, (project e.grainId (t, ls)).2 ++ [loserOf e]) := by
      rw [project_loser_self rfl, hfst, hc]
    simp only [DirectoryEntry.rank_lt]
    rcases lt_trichotomy e.activationEpoch c.activationEpoch with h | h | h
    · simp only [h, true_or, if_true, hput]
    · by_cases hs : e.silo = c.silo
      · simp [h, hs]
      · by_cases hid : e.silo.siloId < c.silo.siloId
        · simp only [h, lt_irrefl, if_false, ne_eq, hs, not_false_eq_true, if_true, hid, hput,
            true_and, or_true]
        · simp only [h, lt_irrefl, if_false, ne_eq, hs, not_false_eq_true, if_true, hid, hkeep,
            and_false, or_self]
    · by_cases hs : e.silo = c.silo
      · simp [h.not_gt, h.ne', hs]
      · simp only [h, h.not_gt, h.ne', false_and, or_self, if_false, if_true, ne_eq, hs,
          not_false_eq_true, hkeep]

theorem project_mergeCandidate_ne {g : GrainId} {e : DirectoryEntry} (hg : e.grainId ≠ g)
    (acc : EntryTable × List Loser) : project g (mergeCandidate acc e) = project g acc := by
  obtain ⟨t, ls⟩ := acc
  unfold mergeCandidate
  cases hc : t.get e.grainId with
  | none => exact project_put_ne hg _ _
  | some c =>
    have hcg : c.grainId ≠ g := Table.key_of_get hc ▸ hg
    simp only
    split_ifs <;> simp only [project_put_ne hg, project_loser_ne hg, project_loser_ne hcg]

theorem project_foldl (g : GrainId) (candidates : List DirectoryEntry)
    (acc : EntryTable × List Loser) :
    project g (candidates.foldl mergeCandidate acc) =
      (candidates.filter (fun e ↦ e.grainId = g)).foldl mergeOne (project g acc) := by
  induction candidates generalizing acc with
  | nil => rfl
  | cons e es ih =>
    rw [List.foldl_cons, ih]
    by_cases hg : e.grainId = g
    · subst hg
      rw [List.filter_cons_of_pos (by simp), List.foldl_cons, project_mergeCandidate_self]
    · rw [List.filter_cons_of_neg (by simpa using hg), project_mergeCandidate_ne hg]

def contenders (g : GrainId) (candidates : List DirectoryEntry) (existing : EntryTable) :
    List DirectoryEntry :=
  (existing.get g).toList ++ candidates.filter (fun e ↦ e.grainId = g)

theorem grainId_of_mem_contenders {g : GrainId} {candidates : List DirectoryEntry}
    {existing : EntryTable} {e : DirectoryEntry} (h : e ∈ contenders g candidates existing) :
    e.grainId = g := by
  rcases List.mem_append.mp h with h | h
  · exact Table.key_of_get (Option.mem_toList.mp h)
  · simpa using List.of_mem_filter h

theorem project_merge (g : GrainId) (candidates : List DirectoryEntry) (existing : EntryTable) :
    project g (mergeRebuildCandidates candidates existing) =
      (contenders g candidates existing).foldl mergeOne (none, []) := by
  rw [mergeRebuildCandidates, project_foldl, contenders, List.foldl_append]
  congr 1
  cases h : existing.get g <;> simp [project, h, mergeOne]

theorem mergeOne_of_lt {ls : List Loser} {w e : DirectoryEntry} (h : e.rank < w.rank) :
    mergeOne (some w, ls) e = (some e, ls ++ [loserOf w]) := by
  simp only [mergeOne, if_pos h]

theorem mergeOne_of_le {ls : List Loser} {w e : DirectoryEntry} (h : w.rank ≤ e.rank) :
    mergeOne (some w, ls) e = (some w, if e.silo ≠ w.silo then ls ++ [loserOf e] else ls) := by
  simp only [mergeOne, if_neg h.not_gt]
  split_ifs <;> rfl

theorem foldl_mergeOne_fst (l : List DirectoryEntry) :
    (l.foldl mergeOne (none, [])).1 = l.argmin DirectoryEntry.rank := by
  induction l using List.reverseRecOn with
  | nil => rfl
  | append_singleton l e ih =>
    rw [List.foldl_append, List.foldl_cons, List.foldl_nil, List.argmin_concat, ← ih]
    generalize l.foldl mergeOne (none, []) = acc
    obtain ⟨held, ls⟩ := acc
    cases held with
    | none => rfl
    | some w =>
      rcases lt_or_ge e.rank w.rank with h | h
      · simp only [mergeOne_of_lt h, if_pos h]
      · simp only [mergeOne_of_le h, if_neg h.not_gt]

/-- Told to stand down are the silos of all entries, but the winner's own silo
only when an entry for it came before the winner. -/
theorem foldl_mergeOne_snd {l : List DirectoryEntry} {w : DirectoryEntry}
    (hw : l.argmin DirectoryEntry.rank = some w) (s : SiloAddress) :
    s ∈ (l.foldl mergeOne (none, [])).2.map Prod.fst ↔
      s ∈ (before w l).map DirectoryEntry.silo ∨ s ≠ w.silo ∧ s ∈ l.map DirectoryEntry.silo := by
  induction l using List.reverseRecOn generalizing w with
  | nil => simp at hw
  | append_singleton l e ih =>
    rw [List.foldl_append, List.foldl_cons, List.foldl_nil]
    by_cases hl : l = []
    · subst hl
      obtain rfl : e = w := by simpa using hw
      simp [mergeOne, before]
    obtain ⟨v, hv⟩ := exists_argmin hl DirectoryEntry.rank
    have hvl := List.argmin_mem hv
    have hacc : l.foldl mergeOne (none, []) = (some v, (l.foldl mergeOne (none, [])).2) :=
      Prod.ext ((foldl_mergeOne_fst l).trans hv) rfl
    have hlosers := ih hv
    rw [hacc]
    rcases lt_or_ge e.rank v.rank with h | h
    · have hnew : e ∉ l := fun he ↦ (List.le_of_mem_argmin he hv).not_gt h
      obtain rfl : e = w := Option.some.inj ((argmin_snoc_of_lt hv h).symm.trans hw)
      have hsilo : v.silo ∈ l.map DirectoryEntry.silo := List.mem_map_of_mem hvl
      have hbefore : s ∈ (before v l).map DirectoryEntry.silo → s ∈ l.map DirectoryEntry.silo := by
        intro hs
        obtain ⟨x, hx, rfl⟩ := List.mem_map.mp hs
        exact List.mem_map_of_mem (mem_of_mem_before hx)
      rw [mergeOne_of_lt h, before_snoc_of_not_mem hnew, List.map_append, List.mem_append, hlosers,
        List.map_append, List.mem_append]
      by_cases hs : s = v.silo
      · simp [hs, hsilo, loserOf]
      · have hnew : s ≠ e.silo ∧ (s ∈ l.map DirectoryEntry.silo ∨ s = e.silo) →
          s ∈ l.map DirectoryEntry.silo :=
          fun h ↦ h.2.resolve_right h.1
        simp only [List.map_cons, List.map_nil, List.mem_singleton, loserOf, ne_eq, hs,
          not_false_eq_true, true_and, or_false, or_iff_right_of_imp hbefore]
        exact (or_iff_left_of_imp hnew).symm
    · obtain rfl : v = w := Option.some.inj ((argmin_snoc_of_le hv h).symm.trans hw)
      rw [mergeOne_of_le h, before_snoc_of_mem hvl, List.map_append, List.mem_append]
      by_cases hs : e.silo = v.silo
      · simp only [hs, ne_eq, not_true_eq_false, if_false, hlosers, List.map_cons, List.map_nil,
          List.mem_singleton]
        exact or_congr_right (and_congr_right fun hne ↦ (or_iff_left hne).symm)
      · simp only [ne_eq, hs, not_false_eq_true, if_true, List.map_append, List.mem_append, hlosers,
          List.map_cons, List.map_nil, List.mem_singleton, loserOf]
        have hne : s = e.silo → s ≠ v.silo := fun h ↦ h ▸ hs
        rw [and_or_left, and_iff_right_of_imp hne, or_assoc]

theorem merge_get (g : GrainId) (candidates : List DirectoryEntry) (existing : EntryTable) :
    (mergeRebuildCandidates candidates existing).1.get g =
      (contenders g candidates existing).argmin DirectoryEntry.rank := by
  rw [← foldl_mergeOne_fst, ← project_merge]
  rfl

theorem mem_merge_losers {g : GrainId} {candidates : List DirectoryEntry} {existing : EntryTable}
    {w : DirectoryEntry} (hw : (mergeRebuildCandidates candidates existing).1.get g = some w)
    (s : SiloAddress) :
    (∃ x ∈ (mergeRebuildCandidates candidates existing).2, x.2.1 = g ∧ x.1 = s) ↔
      s ∈ (before w (contenders g candidates existing)).map DirectoryEntry.silo ∨
        s ≠ w.silo ∧ s ∈ (contenders g candidates existing).map DirectoryEntry.silo := by
  rw [merge_get] at hw
  rw [← foldl_mergeOne_snd hw, ← project_merge]
  simp [project]

theorem mem_of_merge_get {g : GrainId} {candidates : List DirectoryEntry} {existing : EntryTable}
    {w : DirectoryEntry} (hw : (mergeRebuildCandidates candidates existing).1.get g = some w) :
    w ∈ contenders g candidates existing := List.argmin_mem (merge_get g candidates existing ▸ hw)

theorem merge_get_iff {g : GrainId} {candidates : List DirectoryEntry} {existing : EntryTable}
    {w : DirectoryEntry} :
    (mergeRebuildCandidates candidates existing).1.get g = some w ↔
      w ∈ contenders g candidates existing ∧ ∀ e ∈ contenders g candidates existing,
        w.rank ≤ e.rank := by
  rw [merge_get]
  constructor
  · exact fun h ↦ ⟨List.argmin_mem h, fun e he ↦ List.le_of_mem_argmin he h⟩
  · rintro ⟨hm, hle⟩
    obtain ⟨v, hv⟩ := exists_argmin (List.ne_nil_of_mem hm) DirectoryEntry.rank
    have hvl := List.argmin_mem hv
    have hr := le_antisymm (hle v hvl) (List.le_of_mem_argmin hm hv)
    have hgr := (grainId_of_mem_contenders hm).trans (grainId_of_mem_contenders hvl).symm
    rw [hv, DirectoryEntry.eq_of_rank hgr hr]

theorem mem_contenders_perm {g : GrainId} {candidates candidates' : List DirectoryEntry}
    (existing : EntryTable) (h : candidates'.Perm candidates) (e : DirectoryEntry) :
    e ∈ contenders g candidates' existing ↔ e ∈ contenders g candidates existing := by
  simp only [contenders, List.mem_append, List.mem_filter, h.mem_iff]

/-- For any candidates in any order. -/
theorem merge_is_min (candidates : List DirectoryEntry) (existing : EntryTable) (g : GrainId) :
    (∀ w, (mergeRebuildCandidates candidates existing).1.get g = some w ↔
      w ∈ contenders g candidates existing ∧ ∀ e ∈ contenders g candidates existing,
        w.rank ≤ e.rank) ∧
    ((mergeRebuildCandidates candidates existing).1.get g = none ↔
      contenders g candidates existing = []) ∧
    (∀ candidates', candidates'.Perm candidates →
      (mergeRebuildCandidates candidates' existing).1.get g =
      (mergeRebuildCandidates candidates existing).1.get g) ∧
    ∀ w, (mergeRebuildCandidates candidates existing).1.get g = some w →
      ∀ e ∈ contenders g candidates existing, e.silo ≠ w.silo →
        ∃ x ∈ (mergeRebuildCandidates candidates existing).2, x.2.1 = g ∧ x.1 = e.silo := by
  refine ⟨fun w ↦ merge_get_iff, ?_, fun candidates' hperm ↦ ?_, fun w hw e he hs ↦ ?_⟩
  · rw [merge_get, List.argmin_eq_none]
  · refine Option.ext fun w ↦ ?_
    rw [merge_get_iff, merge_get_iff]
    simp only [mem_contenders_perm existing hperm]
  · exact (mem_merge_losers hw e.silo).mpr (.inr ⟨hs, List.mem_map_of_mem he⟩)

theorem finishRebuild_cases (d : DistributedGrainDirectory)
    (responses : SiloAddress → Option (List DirectoryEntry)) :
    d.finishRebuild responses = ({ d with rebuild := none }, []) ∨
    ∃ task ∈ d.rebuild, d.finishRebuild responses =
      ({ d.applyRebuildEntries
          (mergeRebuildCandidates (collectCandidates task.peers responses) task.existingEntries).1
            with
        rebuild := none },
        (mergeRebuildCandidates (collectCandidates task.peers responses)
        task.existingEntries).2) := by
  unfold DistributedGrainDirectory.finishRebuild
  split
  · exact .inl rfl
  · next merged duplicates hrun =>
    obtain ⟨task, htask, hrun⟩ := Option.bind_eq_some_iff.mp hrun
    unfold RebuildTask.run at hrun
    split_ifs at hrun
    obtain ⟨rfl, rfl⟩ := Prod.mk.inj (Option.some.inj hrun)
    exact .inr ⟨task, htask, rfl⟩

theorem finishRebuild_static (d : DistributedGrainDirectory)
    (responses : SiloAddress → Option (List DirectoryEntry)) :
    (d.finishRebuild responses).1.ring = d.ring ∧
      (d.finishRebuild responses).1.localSilo = d.localSilo ∧
      (d.finishRebuild responses).1.activeSilos = d.activeSilos := by
  rcases finishRebuild_cases d responses with hf | ⟨task, -, hf⟩ <;>
    rw [hf] <;> exact ⟨rfl, rfl, rfl⟩

theorem finishRebuild_get {d : DistributedGrainDirectory}
    {responses : SiloAddress → Option (List DirectoryEntry)} {g : GrainId} {e : DirectoryEntry}
    (h : (d.finishRebuild responses).1.owned.get g = some e) :
    d.owned.get g = some e ∨ ∃ task ∈ d.rebuild,
      e ∈ task.existingEntries.items ++ collectCandidates task.peers responses := by
  rcases finishRebuild_cases d responses with hf | ⟨task, htask, hf⟩
  · rw [hf] at h
    exact .inl h
  · rw [hf] at h
    simp only [DistributedGrainDirectory.applyRebuildEntries_get, Option.or_eq_some_iff] at h
    rcases h with h | ⟨-, h⟩
    · refine .inr ⟨task, htask, List.mem_append.mpr ?_⟩
      rcases List.mem_append.mp (mem_of_merge_get h) with hm | hm
      · exact .inl (Table.mem_of_get (Option.mem_toList.mp hm))
      · exact .inr (List.mem_of_mem_filter hm)
    · exact .inl h

/-- No entry for the silo of the least entry precedes it. -/
def LeastComesFirst (l : List DirectoryEntry) : Prop :=
  ∀ w ∈ l, (∀ e ∈ l, w.rank ≤ e.rank) → ∀ e ∈ before w l, e.silo ≠ w.silo

theorem merge_spares_winner_iff (g : GrainId) (candidates : List DirectoryEntry)
    (existing : EntryTable) :
    (∀ w, (mergeRebuildCandidates candidates existing).1.get g = some w →
      ∀ x ∈ (mergeRebuildCandidates candidates existing).2, x.2.1 = g → x.1 ≠ w.silo) ↔
    LeastComesFirst (contenders g candidates existing) := by
  constructor
  · intro h w hm hle e he hs
    have hw := merge_get_iff.mpr ⟨hm, hle⟩
    obtain ⟨x, hx, hxg, hxs⟩ := (mem_merge_losers hw w.silo).mpr
      (.inl (List.mem_map.mpr ⟨e, he, hs⟩))
    exact h w hw x hx hxg hxs
  · intro h w hw x hx hxg hxs
    obtain ⟨hm, hle⟩ := merge_get_iff.mp hw
    rcases (mem_merge_losers hw w.silo).mp ⟨x, hx, hxg, hxs⟩ with hb | ⟨hn, -⟩
    · obtain ⟨e, he, hs⟩ := List.mem_map.mp hb
      exact h w hm hle e he hs
    · exact hn rfl

variable [StableHash]

theorem applyHandoff_spares_survivor_iff (d : DistributedGrainDirectory)
    (incoming : DirectoryEntry) :
    (∀ d' losers, d.applyHandoff incoming = .ok (d', losers) →
      ∀ x ∈ losers, ∀ w, d'.owned.get x.2.1 = some w → x.1 ≠ w.silo) ↔
    (d.ownerOf incoming.grainId = .ok d.localSilo →
      ∀ e, d.owned.get incoming.grainId = some e → e.silo ≠ incoming.silo) := by
  constructor
  · intro h ho e he hs
    obtain ⟨d', losers, ha⟩ := DistributedGrainDirectory.exists_applyHandoff ho
    have heg := Table.key_of_get he
    rcases DistributedGrainDirectory.applyHandoff_cases ha with
      ⟨hn, -, -⟩ | ⟨-, ⟨e', he', -, rfl, rfl⟩ | ⟨-, rfl, rfl⟩⟩
    · exact hn ho
    · exact h _ _ ha _ (List.mem_singleton_self _) e he hs.symm
    · refine h _ _ ha (loserOf e) (by simp [he]) incoming ?_ hs
      simp only [loserOf, heg]
      exact Table.get_put_self _ _
  · intro h d' losers ha x hx w hw
    rcases DistributedGrainDirectory.applyHandoff_cases ha with
      ⟨-, -, rfl⟩ | ⟨ho, ⟨e, he, -, rfl, rfl⟩ | ⟨-, rfl, rfl⟩⟩
    · simp at hx
    · obtain rfl := List.mem_singleton.mp hx
      rw [loserOf, he] at hw
      exact Option.some.inj hw ▸ (h ho e he).symm
    · obtain ⟨e, he, rfl⟩ := List.mem_map.mp hx
      have heg := Option.mem_toList.mp he
      simp only [loserOf, Table.key_of_get heg, Table.get_put_self, Option.some.injEq] at hw
      exact hw ▸ h ho e heg

/-- A `DEACTIVATE` never goes to the survivor's silo when, and only when, the
merge meets the least entry before any other of its silo, and a handoff is
never weighed against an entry of its own silo. -/
theorem survivor_spared_iff (g : GrainId) (candidates : List DirectoryEntry) (existing : EntryTable)
    (d : DistributedGrainDirectory) (incoming : DirectoryEntry) :
    ((∀ w, (mergeRebuildCandidates candidates existing).1.get g = some w →
        ∀ x ∈ (mergeRebuildCandidates candidates existing).2, x.2.1 = g → x.1 ≠ w.silo) ↔
      LeastComesFirst (contenders g candidates existing)) ∧
    ((∀ d' losers, d.applyHandoff incoming = .ok (d', losers) →
        ∀ x ∈ losers, ∀ w, d'.owned.get x.2.1 = some w → x.1 ≠ w.silo) ↔
      (d.ownerOf incoming.grainId = .ok d.localSilo →
        ∀ e, d.owned.get incoming.grainId = some e → e.silo ≠ incoming.silo)) :=
  ⟨merge_spares_winner_iff g candidates existing, applyHandoff_spares_survivor_iff d incoming⟩

omit [StableHash] in
/-- A silo that reports its own activation is told to deactivate it. -/
theorem merge_deactivates_survivor :
    ¬ ∀ w,
      (mergeRebuildCandidates [⟨counter1, siloA, 0⟩] (Table.empty.put ⟨counter1, siloA, 5⟩)).1.get
        counter1 = some w →
      ∀ x ∈ (mergeRebuildCandidates [⟨counter1, siloA, 0⟩]
        (Table.empty.put ⟨counter1, siloA, 5⟩)).2,
        x.2.1 = counter1 → x.1 ≠ w.silo :=
  fun h ↦ h ⟨counter1, siloA, 0⟩ (by decide) (siloA, counter1, 5) (by decide) rfl rfl

def applyHandoffs : DistributedGrainDirectory → List DirectoryEntry →
    Except DirectoryError (DistributedGrainDirectory × List Loser)
  | d, [] => .ok (d, [])
  | d, entry :: entries => do
    let (d', losers) ← d.applyHandoff entry
    let (d'', losers') ← applyHandoffs d' entries
    return (d'', losers ++ losers')

theorem applyHandoff_get {d d' : DistributedGrainDirectory} {e : DirectoryEntry}
    {losers : List Loser} (ho : d.ownerOf e.grainId = .ok d.localSilo)
    (h : d.applyHandoff e = .ok (d', losers)) :
    d'.owned.get e.grainId = List.argAux
      (fun b c ↦ b.activationEpoch < c.activationEpoch) (d.owned.get e.grainId) e := by
  rcases DistributedGrainDirectory.applyHandoff_cases h with
    ⟨hn, -, -⟩ | ⟨-, ⟨c, hc, hle, rfl, -⟩ | ⟨hlt, rfl, -⟩⟩
  · exact absurd ho hn
  · simp only [hc, List.argAux, if_neg hle.not_gt]
  · simp only [Table.get_put_self]
    cases hc : d.owned.get e.grainId with
    | none => rfl
    | some c => simp only [List.argAux, if_pos (hlt c hc)]

theorem applyHandoffs_get {g : GrainId} {entries : List DirectoryEntry}
    (hg : ∀ e ∈ entries, e.grainId = g) (d : DistributedGrainDirectory)
    (ho : d.ownerOf g = .ok d.localSilo) : ∃ d' losers, applyHandoffs d entries = .ok (d', losers) ∧
      d'.owned.get g = entries.foldl
        (List.argAux fun b c ↦ b.activationEpoch < c.activationEpoch) (d.owned.get g) := by
  induction entries generalizing d with
  | nil => exact ⟨d, [], rfl, rfl⟩
  | cons e es ih =>
    obtain rfl := hg e List.mem_cons_self
    obtain ⟨d', losers, hd'⟩ := DistributedGrainDirectory.exists_applyHandoff ho
    obtain ⟨hring, hlocal, -⟩ := DistributedGrainDirectory.applyHandoff_static hd'
    have ho' : d'.ownerOf e.grainId = .ok d'.localSilo := by
      rw [DistributedGrainDirectory.ownerOf, hring, hlocal]
      exact ho
    obtain ⟨d'', losers', hd'', hget⟩ := ih (fun c hc ↦ hg c (List.mem_cons_of_mem _ hc)) d' ho'
    refine ⟨d'', losers ++ losers', ?_, ?_⟩
    · simp only [applyHandoffs, hd', hd'', bind, Except.bind, pure, Except.pure]
    · rw [hget, applyHandoff_get ho hd', List.foldl_cons]

/-- All entries of lowest epoch are for one silo. -/
def OneSiloAtLeastEpoch (entries : List DirectoryEntry) : Prop :=
  ∀ e ∈ entries, ∀ c ∈ entries, (∀ x ∈ entries, e.activationEpoch ≤ x.activationEpoch) →
    c.activationEpoch = e.activationEpoch → c.silo = e.silo

instance (entries : List DirectoryEntry) : Decidable (OneSiloAtLeastEpoch entries) := by
  unfold OneSiloAtLeastEpoch; infer_instance

theorem applyHandoffs_argmin {d : DistributedGrainDirectory} {g : GrainId}
    {entries : List DirectoryEntry} (hg : ∀ e ∈ entries, e.grainId = g)
    (ho : d.ownerOf g = .ok d.localSilo) (hnone : d.owned.get g = none) (w : DirectoryEntry) :
    (∃ d' losers, applyHandoffs d entries = .ok (d', losers) ∧ d'.owned.get g = some w) ↔
      entries.argmin DirectoryEntry.activationEpoch = some w := by
  obtain ⟨d', losers, hd', hget⟩ := applyHandoffs_get hg d ho
  have hheld : d'.owned.get g = entries.argmin DirectoryEntry.activationEpoch := by
    rw [hget, hnone]
    rfl
  constructor
  · rintro ⟨d'', losers', hd'', hw⟩
    obtain ⟨rfl, -⟩ := Prod.mk.inj (Except.ok.inj (hd'.symm.trans hd''))
    exact hheld.symm.trans hw
  · exact fun hw ↦ ⟨d', losers, hd', hheld.trans hw⟩

omit [StableHash] in
theorem merge_empty_get {g : GrainId} {entries : List DirectoryEntry}
    (hg : ∀ e ∈ entries, e.grainId = g) :
    (mergeRebuildCandidates entries .empty).1.get g = entries.argmin DirectoryEntry.rank := by
  have hf : entries.filter (fun e ↦ e.grainId = g) = entries :=
    List.filter_eq_self.mpr (fun e he ↦ by simpa using hg e he)
  rw [merge_get, contenders, hf]
  rfl

/-- Handoffs converge to the winner of the merge for every order of their
arrival exactly when no two silos tie on the lowest epoch. -/
theorem handoffs_converge_iff (d : DistributedGrainDirectory) (g : GrainId)
    (entries : List DirectoryEntry) (hne : entries ≠ []) (hg : ∀ e ∈ entries, e.grainId = g)
    (ho : d.ownerOf g = .ok d.localSilo) (hnone : d.owned.get g = none) :
    (∃ winner ∈ entries, (∀ e ∈ entries, winner.rank ≤ e.rank) ∧
      ∀ entries' : List DirectoryEntry, entries'.Perm entries →
        (mergeRebuildCandidates entries' .empty).1.get g = some winner ∧
        ∃ d' losers, applyHandoffs d entries' = .ok (d', losers) ∧ d'.owned.get g = some winner) ↔
    OneSiloAtLeastEpoch entries := by
  have hperm : ∀ entries' : List DirectoryEntry, entries'.Perm entries → ∀ e ∈ entries',
    e.grainId = g :=
    fun entries' hp e he ↦ hg e (hp.mem_iff.mp he)
  constructor
  · rintro ⟨w, -, -, hall⟩ e he c hc hle hce
    obtain ⟨hw, hwle, huniq⟩ := forall_perm_argmin_iff.mp (fun entries' hp ↦
      (applyHandoffs_argmin (hperm _ hp) ho hnone w).mp (hall entries' hp).2)
    have hew := le_antisymm (hle w hw) (hwle e he)
    rw [huniq e he hew, huniq c hc (hce.trans hew)]
  · intro hone
    obtain ⟨w, hw⟩ := exists_argmin hne DirectoryEntry.rank
    have hwm := List.argmin_mem hw
    have hrank : ∀ e ∈ entries, w.rank ≤ e.rank := fun e he ↦ List.le_of_mem_argmin he hw
    have hepoch : ∀ e ∈ entries, w.activationEpoch ≤ e.activationEpoch :=
      fun e he ↦ DirectoryEntry.epoch_le_of_rank_le (hrank e he)
    have hgw : ∀ e ∈ entries, e.grainId = w.grainId := fun e he ↦ (hg e he).trans (hg w hwm).symm
    have hsame : ∀ e ∈ entries, e.activationEpoch = w.activationEpoch → e = w := by
      intro e he hew
      have hs := hone w hwm e he hepoch hew
      exact DirectoryEntry.eq_of_rank (hgw e he)
        (by rw [DirectoryEntry.rank, DirectoryEntry.rank, hew, hs])
    refine ⟨w, hwm, hrank, fun entries' hp ↦ ⟨?_, ?_⟩⟩
    · rw [merge_empty_get (hperm _ hp)]
      exact forall_perm_argmin_iff.mpr
        ⟨hwm, hrank, fun e he hr ↦ DirectoryEntry.eq_of_rank (hgw e he) hr⟩ entries' hp
    · exact (applyHandoffs_argmin (hperm _ hp) ho hnone w).mpr
        (forall_perm_argmin_iff.mpr ⟨hwm, hepoch, hsame⟩ entries' hp)

def soleDirectory (silo : SiloAddress) : DistributedGrainDirectory :=
  .init silo (.withDefaults [silo]) [silo]

theorem soleDirectory_ownerOf (silo : SiloAddress) (g : GrainId) :
    (soleDirectory silo).ownerOf g = .ok silo :=
  DistributedGrainDirectory.ownerOfWithRing_ok_iff.mpr (ConsistentHashRing.ownerOf_singleton _ _)

omit [StableHash] in
theorem handoffs_converge_distinct :
    letI := sampleHash
    ∃ winner ∈ [⟨counter1, siloB, 2⟩, (⟨counter1, siloA, 3⟩ : DirectoryEntry)],
      (∀ e ∈ [⟨counter1, siloB, 2⟩, (⟨counter1, siloA, 3⟩ : DirectoryEntry)],
        winner.rank ≤ e.rank) ∧
      ∀ entries' : List DirectoryEntry, entries'.Perm [⟨counter1, siloB, 2⟩, ⟨counter1, siloA, 3⟩] →
        (mergeRebuildCandidates entries' .empty).1.get counter1 = some winner ∧
        ∃ d' losers, applyHandoffs (soleDirectory siloA) entries' = .ok (d', losers) ∧
          d'.owned.get counter1 = some winner :=
  letI := sampleHash
  (handoffs_converge_iff (soleDirectory siloA) counter1 _ (by decide) (by decide)
    (soleDirectory_ownerOf siloA counter1) rfl).mpr (by decide)

omit [StableHash] in
/-- With a tie on the epoch, handoffs keep the entry that came first. -/
theorem handoffs_diverge_on_tie :
    letI := sampleHash
    ¬ ∃ winner ∈ [⟨counter1, siloB, 1⟩, (⟨counter1, siloA, 1⟩ : DirectoryEntry)],
      (∀ e ∈ [⟨counter1, siloB, 1⟩, (⟨counter1, siloA, 1⟩ : DirectoryEntry)],
        winner.rank ≤ e.rank) ∧
      ∀ entries' : List DirectoryEntry, entries'.Perm [⟨counter1, siloB, 1⟩, ⟨counter1, siloA, 1⟩] →
        (mergeRebuildCandidates entries' .empty).1.get counter1 = some winner ∧
        ∃ d' losers, applyHandoffs (soleDirectory siloA) entries' = .ok (d', losers) ∧
          d'.owned.get counter1 = some winner := by
  let := sampleHash
  rintro ⟨w, -, -, hall⟩
  obtain ⟨hmerge, hheld⟩ := hall _ (List.Perm.refl _)
  rw [merge_empty_get (g := counter1) (by decide)] at hmerge
  have hfirst :=
    (applyHandoffs_argmin (by decide) (soleDirectory_ownerOf siloA counter1) rfl w).mp hheld
  have hne : List.argmin DirectoryEntry.rank [⟨counter1, siloB, 1⟩, ⟨counter1, siloA, 1⟩] ≠
      List.argmin DirectoryEntry.activationEpoch [⟨counter1, siloB, 1⟩, ⟨counter1, siloA, 1⟩] := by
        decide
  exact hne (hmerge.trans hfirst.symm)

end Reconciliation

end Pyleans
