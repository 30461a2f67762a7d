import Pyleans.Cluster.DirectoryCache
import Pyleans.Library.LeastRecent

namespace Pyleans

open Library

namespace CacheTable

variable {Time : Type} {g : GrainId}

theorem keys_pop (t : CacheTable Time) (g : GrainId) :
    (t.pop g).items.map Prod.fst = (t.items.map Prod.fst).filter fun k ↦ !decide (k = g) := by
  simp only [Table.pop, Table.filter, List.filter_map, decide_not, Function.comp_def]

theorem items_put_of_notMem {t : CacheTable Time} {c : CacheEntry Time}
    (h : g ∉ t.items.map Prod.fst) :
    (t.put (g, c)).items = t.items ++ [(g, c)] := by
  rw [Table.put, dif_neg h]

theorem keys_moveToEnd {t : CacheTable Time} (h : g ∈ t.items.map Prod.fst) :
    (CacheTable.moveToEnd t g).items.map Prod.fst = (t.items.map Prod.fst).erase g ++ [g] := by
  obtain ⟨⟨k, c⟩, hc, rfl⟩ := List.mem_map.mp h
  have hget : Table.get t k = some (k, c) := Table.get_of_mem hc
  have hpopped : (t.pop k).items.map Prod.fst = (t.items.map Prod.fst).erase k := by
    rw [keys_pop, List.Nodup.erase_eq_filter t.nodup]
    rfl
  have hnew : k ∉ (t.pop k).items.map Prod.fst := by
    rw [hpopped]
    exact List.Nodup.not_mem_erase t.nodup
  simp only [CacheTable.moveToEnd, hget]
  rw [items_put_of_notMem hnew, List.map_append, hpopped, List.map_singleton]

theorem keys_put_of_mem {t : CacheTable Time} {c : CacheEntry Time} (h : g ∈ t.items.map Prod.fst) :
    (t.put (g, c)).items.map Prod.fst = t.items.map Prod.fst := by
  rw [Table.put, dif_pos h, Table.map_replace]

end CacheTable

namespace DirectoryCache

variable {D Error Time : Type} [Zero Time] [Add Time] [LE Time] [DecidableLE Time]

def keys (s : DirectoryCache D Time) : List GrainId := s.cache.items.map Prod.fst

section

variable (p : IGrainDirectory D Error) (s : DirectoryCache D Time)

/-- A lookup meets an entry of the grain that is past its time. -/
def meetsExpired (g : GrainId) : Bool :=
  (Table.get s.cache g).any fun c ↦ decide (s.now s.reads ≥ c.2.expiresAt)

def drops : CacheCall → GrainId → Bool
  | .directory (.register _ _), _ => false
  | .directory (.lookup g), k => k = g && s.meetsExpired g
  | .directory (.unregister g _), k => k = g
  | .directory (.resolveOrActivate g _ _), k => k = g && s.meetsExpired g
  | .invalidate g, k => k = g
  | .invalidateAll, _ => true
  | .invalidateSilo silo, k => (Table.get s.cache k).any fun c ↦ decide (c.2.value.silo = silo)

/-- The key that a call inserts, refreshes or hits. -/
def touched : CacheCall → Option GrainId
  | .directory (.register g silo) =>
    match (p.register s.inner g silo).1 with
    | .ok _ => some g
    | .error _ => none
  | .directory (.lookup g) =>
    if (s.hit g).1.isSome then some g
    else
      match (p.lookup s.inner g).1 with
      | .ok (some _) => some g
      | _ => none
  | .directory (.resolveOrActivate g placement caller) =>
    if (s.hit g).1.isSome then some g
    else
      match (p.resolveOrActivate s.inner g placement caller).1 with
      | .ok _ => some g
      | .error _ => none
  | _ => none

def kept (c : CacheCall) : List GrainId := s.keys.filter fun k ↦ !s.drops c k

def apply (c : CacheCall) : DirectoryCache D Time := (run p s [c]).2

end

def touches (p : IGrainDirectory D Error) : DirectoryCache D Time → List CacheCall → List GrainId
  | _, [] => []
  | s, c :: calls => (s.touched p c).toList ++ touches p (s.apply p c) calls

structure Recent (s : DirectoryCache D Time) (history : List GrainId) : Prop where
  size : s.keys.length ≤ s.maxSize
  order : s.keys.Sublist history.dedup

/-- The keys are in the order of their last touches, the key touched last at the
end. A call moves the touched key there, and one key leaves only to make room:
the one whose last touch lies back furthest. -/
structure Lru (p : IGrainDirectory D Error) (s : DirectoryCache D Time) (history : List GrainId) :
    Prop where
  size : s.keys.length ≤ s.maxSize
  nodup : s.keys.Nodup
  touched : ∀ k ∈ s.keys, k ∈ history
  order : s.keys.Pairwise (TouchedBefore history)
  untouched : ∀ c, s.touched p c = none → (s.apply p c).keys = s.kept c
  room : ∀ c g, s.touched p c = some g → g ∈ s.kept c ∨ (s.kept c).length < s.maxSize →
    (s.apply p c).keys = (s.kept c).erase g ++ [g]
  evict : ∀ c g, s.touched p c = some g → g ∉ s.kept c → (s.kept c).length = s.maxSize →
    ∃ k rest, s.kept c = k :: rest ∧ (s.apply p c).keys = rest ++ [g] ∧ ∀ l ∈ rest,
      TouchedBefore history k l

/-- What a call makes of the keys. -/
structure Turnover (s s' : DirectoryCache D Time) (dropped : GrainId → Bool)
    (touched : Option GrainId) : Prop where
  maxSize : s'.maxSize = s.maxSize
  keys : s'.keys = touched.elim (s.keys.filter fun k ↦ !dropped k) fun g ↦
    touch s.maxSize g (s.keys.filter fun k ↦ !dropped k)

section

variable {p : IGrainDirectory D Error} {s s' : DirectoryCache D Time} {g : GrainId}
  {history : List GrainId}

omit [Add Time] [DecidableLE Time] in
theorem mem_keys_iff : g ∈ s.keys ↔ ∃ c, Table.get s.cache g = some (g, c) := by
  constructor
  · intro h
    obtain ⟨⟨k, c⟩, hc, rfl⟩ := List.mem_map.mp h
    exact ⟨c, Table.get_of_mem hc⟩
  · rintro ⟨c, hget⟩
    exact List.mem_map_of_mem (Table.mem_of_get hget)

omit [DecidableLE Time] in
theorem turnover_put (hsize : s.keys.length ≤ s.maxSize) (g : GrainId) (value : DirectoryEntry) :
    Turnover s (s.put g value) (fun _ ↦ false) (some g) := by
  have hkept : s.keys.filter (fun _ ↦ !false) = s.keys := List.filter_true _
  unfold DirectoryCache.put
  split
  · next k hget =>
    have hmem : g ∈ s.keys := List.mem_map.mpr ⟨k, Table.mem_of_get hget, Table.key_of_get hget⟩
    refine ⟨rfl, ?_⟩
    rw [Option.elim_some, hkept, touch_of_room hsize (.inl hmem)]
    refine (CacheTable.keys_moveToEnd ?_).trans ?_
    · rw [CacheTable.keys_put_of_mem hmem]
      exact hmem
    · rw [CacheTable.keys_put_of_mem hmem]
      rfl
  · next hget =>
    have hnew : g ∉ s.keys := fun hmem ↦ by
      obtain ⟨k, hk, hg⟩ := List.mem_map.mp hmem
      exact Table.get_eq_none_iff.mp hget k hk hg
    refine ⟨rfl, ?_⟩
    rw [Option.elim_some, hkept, touch, List.erase_of_not_mem hnew]
    simp only [keys, CacheTable.evict]
    rw [CacheTable.items_put_of_notMem hnew, List.map_drop, List.map_append, List.map_singleton,
      List.length_append, List.length_append, List.length_map, List.length_singleton,
      List.length_singleton]

omit [DecidableLE Time] in
theorem Turnover.put {dropped : GrainId → Bool} {d : D} (h : Turnover s s' dropped none)
    (hsize : s.keys.length ≤ s.maxSize) (g : GrainId) (value : DirectoryEntry) :
    Turnover s ({ s' with inner := d }.put g value) dropped (some g) := by
  have hkeys : s'.keys = s.keys.filter fun k ↦ !dropped k := h.keys
  have hroom : s'.keys.length ≤ s'.maxSize := by
    rw [h.maxSize, hkeys]
    exact (List.length_filter_le _ _).trans hsize
  have hput := turnover_put (s := { s' with inner := d }) hroom g value
  refine ⟨hput.maxSize.trans h.maxSize, hput.keys.trans ?_⟩
  rw [Option.elim_some, Option.elim_some, ← hkeys, ← h.maxSize]
  exact congrArg (touch s'.maxSize g) (List.filter_true _)

omit [Add Time] in
theorem hit_inner (s : DirectoryCache D Time) (g : GrainId) : (s.hit g).2.inner = s.inner := by
  unfold DirectoryCache.hit
  split
  · rfl
  · split_ifs <;> rfl

omit [Add Time] in
theorem turnover_hit (hsize : s.keys.length ≤ s.maxSize) (g : GrainId) :
    Turnover s (s.hit g).2 (fun k ↦ k = g && s.meetsExpired g) ((s.hit g).1.map fun _ ↦ g) := by
  unfold DirectoryCache.hit
  split
  · next hget =>
    have hfresh : s.meetsExpired g = false := by rw [meetsExpired, hget, Option.any_none]
    refine ⟨rfl, ?_⟩
    simp [hfresh]
  · next k cached hget =>
    obtain rfl : k = g := Table.key_of_get hget
    have hmem : k ∈ s.keys := mem_keys_iff.mpr ⟨cached, hget⟩
    have hmeets : s.meetsExpired k = decide (s.now s.reads ≥ cached.expiresAt) := by
      rw [meetsExpired, hget, Option.any_some]
    split_ifs with hexpired
    · refine ⟨rfl, (CacheTable.keys_pop s.cache k).trans ?_⟩
      simp [hmeets, hexpired, keys]
    · have hkept : s.keys.filter (fun l ↦ !(decide (l = k) && s.meetsExpired k)) = s.keys := by
        simp [hmeets, hexpired]
      refine ⟨rfl, (CacheTable.keys_moveToEnd hmem).trans ?_⟩
      rw [Option.map_some, Option.elim_some, hkept, touch_of_room hsize (.inl hmem)]
      rfl

theorem turnover_lookup (hsize : s.keys.length ≤ s.maxSize) (g : GrainId) :
    Turnover s (s.lookup p g).2 (s.drops (.directory (.lookup g)))
      (s.touched p (.directory (.lookup g))) := by
  have hhit := turnover_hit hsize g
  have hinner := hit_inner s g
  simp only [DirectoryCache.lookup, touched]
  cases hs : s.hit g with
  | mk found s₁ =>
    rw [hs] at hhit hinner
    cases found with
    | some value => exact hhit
    | none =>
      simp only at hinner
      simp only [Option.isSome_none, Bool.false_eq_true, if_false, hinner]
      rcases p.lookup s.inner g with ⟨_ | _ | value, d⟩
      · exact ⟨hhit.maxSize, hhit.keys⟩
      · exact ⟨hhit.maxSize, hhit.keys⟩
      · exact hhit.put hsize g value

theorem turnover_resolveOrActivate (hsize : s.keys.length ≤ s.maxSize) (g : GrainId)
    (placement : PlacementStrategy) (caller : Option SiloAddress) :
    Turnover s (s.resolveOrActivate p g placement caller).2
      (s.drops (.directory (.resolveOrActivate g placement caller)))
      (s.touched p (.directory (.resolveOrActivate g placement caller))) := by
  have hhit := turnover_hit hsize g
  have hinner := hit_inner s g
  simp only [DirectoryCache.resolveOrActivate, touched]
  cases hs : s.hit g with
  | mk found s₁ =>
    rw [hs] at hhit hinner
    cases found with
    | some value => exact hhit
    | none =>
      simp only at hinner
      simp only [Option.isSome_none, Bool.false_eq_true, if_false, hinner]
      rcases p.resolveOrActivate s.inner g placement caller with ⟨_ | value, d⟩
      · exact ⟨hhit.maxSize, hhit.keys⟩
      · exact hhit.put hsize g value

omit [Add Time] [DecidableLE Time] in
theorem turnover_same (s : DirectoryCache D Time) : Turnover s s (fun _ ↦ false) none :=
  ⟨rfl, (List.filter_true _).symm⟩

theorem turnover_apply (hsize : s.keys.length ≤ s.maxSize) (c : CacheCall) :
    Turnover s (s.apply p c) (s.drops c) (s.touched p c) := by
  cases c with
  | directory c =>
    cases c with
    | register g silo =>
      simp only [apply, run, port, IGrainDirectory.call, Prod.map_snd, id,
        DirectoryCache.register, touched]
      rcases p.register s.inner g silo with ⟨_ | value, d⟩
      · exact ⟨(turnover_same s).maxSize, (turnover_same s).keys⟩
      · exact (turnover_same s).put hsize g value
    | lookup g => exact turnover_lookup hsize g
    | unregister g silo => exact ⟨rfl, CacheTable.keys_pop s.cache g⟩
    | resolveOrActivate g placement caller =>
      exact turnover_resolveOrActivate hsize g placement caller
  | invalidate g => exact ⟨rfl, CacheTable.keys_pop s.cache g⟩
  | invalidateAll =>
    exact
      ⟨rfl, by simp [apply, run, DirectoryCache.invalidateAll, keys, Table.empty, touched, drops]⟩
  | invalidateSilo silo =>
    have hdrops : ∀ c ∈ s.cache.items,
      decide (c.2.value.silo ≠ silo) = !s.drops (.invalidateSilo silo) c.1 := by
      intro c hc
      rw [drops, Table.get_of_mem hc, Option.any_some, decide_not]
    refine ⟨rfl, ?_⟩
    calc ((s.cache.items.filter fun c ↦ c.2.value.silo ≠ silo).map Prod.fst)
      _ = (s.cache.items.filter fun c ↦ !s.drops (.invalidateSilo silo) c.1).map Prod.fst :=
        congrArg _ (List.filter_congr hdrops)
      _ = s.keys.filter fun k ↦ !s.drops (.invalidateSilo silo) k := by
        rw [keys, List.filter_map]
        rfl

theorem Recent.apply (h : s.Recent history) (c : CacheCall) :
    (s.apply p c).Recent (history ++ (s.touched p c).toList) := by
  have hturn := turnover_apply (p := p) h.size c
  have hkept : (s.kept c).Sublist history.dedup := List.filter_sublist.trans h.order
  have hkeys := hturn.keys
  cases htouched : s.touched p c with
  | none =>
    rw [htouched] at hkeys
    rw [Option.toList_none, List.append_nil]
    refine ⟨?_, hkeys ▸ hkept⟩
    rw [hkeys, hturn.maxSize]
    exact (List.length_filter_le _ _).trans h.size
  | some g =>
    rw [htouched] at hkeys
    refine ⟨?_, hkeys ▸ touch_sublist hkept⟩
    rw [hkeys, hturn.maxSize]
    exact length_touch_le _ _ _

theorem run_cons (s : DirectoryCache D Time) (c : CacheCall) (calls : List CacheCall) :
    (run p s (c :: calls)).2 = (run p (s.apply p c) calls).2 := by
  cases c <;> rfl

theorem Recent.after (h : s.Recent history) (calls : List CacheCall) :
    (run p s calls).2.Recent (history ++ touches p s calls) ∧
      (run p s calls).2.maxSize = s.maxSize := by
  induction calls generalizing s history with
  | nil => exact ⟨by rwa [touches, List.append_nil], rfl⟩
  | cons c calls ih =>
    obtain ⟨hrecent, hsize⟩ := ih (h.apply (p := p) c)
    rw [run_cons, touches, ← List.append_assoc]
    exact ⟨hrecent, hsize.trans (turnover_apply h.size c).maxSize⟩

theorem Recent.lru (h : s.Recent history) : s.Lru p history where
  size := h.size
  nodup := s.cache.nodup
  touched k hk := List.mem_dedup.mp (h.order.subset hk)
  order := List.pairwise_iff_forall_sublist.mpr fun hsub ↦
    touchedBefore_of_sublist (hsub.trans h.order)
  untouched c hc := by
    have hkeys := (turnover_apply (p := p) h.size c).keys
    rwa [hc] at hkeys
  room c g hc hroom := by
    have hkeys := (turnover_apply (p := p) h.size c).keys
    rw [hc] at hkeys
    exact hkeys.trans (touch_of_room ((List.length_filter_le _ _).trans h.size) hroom)
  evict c g hc hnew hfull := by
    have hkeys := (turnover_apply (p := p) h.size c).keys
    rw [hc] at hkeys
    obtain ⟨k, rest, hkept, htouch⟩ := touch_of_full (not_le.mp s.maxSize_ok) hfull hnew
    refine ⟨k, rest, hkept, hkeys.trans htouch, fun l hl ↦ touchedBefore_of_cons ?_ hl⟩
    rw [← hkept]
    exact List.filter_sublist.trans h.order

/-- Over any directory, of any size and TTL and with any clock: after any calls
the cache is what the history of its touches says. -/
theorem cache_least_recent (p : IGrainDirectory D Error) (inner : D) (maxSize : ℕ) (ttl : Time)
    (now : ℕ → Time) (maxSize_ok : ¬ maxSize ≤ 0) (ttl_ok : ¬ ttl ≤ 0) (calls : List CacheCall) :
    let start := init inner maxSize ttl now maxSize_ok ttl_ok
    let s := (run p start calls).2
    s.maxSize = maxSize ∧ s.Lru p (touches p start calls) := by
  have hstart : (init inner maxSize ttl now maxSize_ok ttl_ok).Recent [] :=
    ⟨Nat.zero_le _, List.Sublist.refl _⟩
  obtain ⟨hrecent, hsize⟩ := hstart.after (p := p) calls
  exact ⟨hsize, hrecent.lru⟩

theorem cache_least_recent_crowdedCalls :
    let start := init (LocalGrainDirectory.init siloA) 1 (5 : ℤ)
      (fun n ↦ if n % 2 = 0 then 0 else 9) (by decide) (by decide)
    let s := (run LocalGrainDirectory.port start crowdedCalls).2
    s.maxSize = 1 ∧ s.Lru LocalGrainDirectory.port
      (touches LocalGrainDirectory.port start crowdedCalls) :=
  cache_least_recent LocalGrainDirectory.port (.init siloA) 1 (5 : ℤ)
    (fun n ↦ if n % 2 = 0 then 0 else 9) (by decide)
    (by decide) crowdedCalls

end

end DirectoryCache

end Pyleans
