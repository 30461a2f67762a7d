import Pyleans.Server.LocalDirectory

namespace Pyleans

open Library

/-- A `_CacheEntry`. Times are whatever the clock returns. -/
structure CacheEntry (Time : Type) where
  value : DirectoryEntry
  expiresAt : Time

/-- The `OrderedDict`, the entry that was not used for longest first. -/
abbrev CacheTable (Time : Type) := Table (Prod.fst : GrainId × CacheEntry Time → GrainId)

namespace CacheTable

variable {Time : Type} (t : CacheTable Time)

def moveToEnd (g : GrainId) : CacheTable Time :=
  match Table.get t g with
  | none => t
  | some cached => (t.pop g).put cached

def evict (maxSize : ℕ) : CacheTable Time :=
  ⟨t.items.drop (t.items.length - maxSize), t.nodup.sublist ((List.drop_sublist _ _).map _)⟩

theorem mem_moveToEnd {g : GrainId} {c : GrainId × CacheEntry Time}
    (h : c ∈ (moveToEnd t g).items) : c ∈ t.items := by
  unfold moveToEnd at h
  split at h
  · exact h
  · next cached hget =>
    rcases Table.mem_put.mp h with rfl | ⟨hold, -⟩
    · exact Table.mem_of_get hget
    · exact List.mem_of_mem_filter hold

end CacheTable

/-- The source raises `ValueError` on a size or a TTL that is not positive,
which the last two fields rule out. `now` is the clock: what it returns each
time it is read, `reads` how often it has been. -/
structure DirectoryCache (D Time : Type) [Zero Time] [LE Time] where
  inner : D
  maxSize : ℕ
  ttl : Time
  now : ℕ → Time
  reads : ℕ
  cache : CacheTable Time
  maxSize_ok : ¬ maxSize ≤ 0
  ttl_ok : ¬ ttl ≤ 0

namespace DirectoryCache

variable {D Error Time : Type} [Zero Time] [Add Time] [LE Time] [DecidableLE Time]

def init (inner : D) (maxSize : ℕ) (ttl : Time) (now : ℕ → Time) (maxSize_ok : ¬ maxSize ≤ 0)
    (ttl_ok : ¬ ttl ≤ 0) :
    DirectoryCache D Time := ⟨inner, maxSize, ttl, now, 0, .empty, maxSize_ok, ttl_ok⟩

section

variable (s : DirectoryCache D Time)

/-- `_put`. A present entry is overwritten and moved to the end. -/
def put (g : GrainId) (value : DirectoryEntry) : DirectoryCache D Time :=
  let new : GrainId × CacheEntry Time := (g, ⟨value, s.now s.reads + s.ttl⟩)
  match Table.get s.cache g with
  | some _ => { s with reads := s.reads + 1, cache := CacheTable.moveToEnd (s.cache.put new) g }
  | none => { s with reads := s.reads + 1, cache := CacheTable.evict (s.cache.put new) s.maxSize }

def invalidate (g : GrainId) : DirectoryCache D Time := { s with cache := s.cache.pop g }

def invalidateAll : DirectoryCache D Time := { s with cache := .empty }

def invalidateSilo (silo : SiloAddress) : DirectoryCache D Time :=
  { s with cache := s.cache.filter fun c ↦ c.2.value.silo ≠ silo }

/-- A fresh entry, which becomes the one used last; an expired one is dropped.
The clock is read only when there is an entry. -/
def hit (g : GrainId) : Option DirectoryEntry × DirectoryCache D Time :=
  match Table.get s.cache g with
  | none => (none, s)
  | some (_, cached) =>
    if s.now s.reads ≥ cached.expiresAt then
      (none, { s with reads := s.reads + 1, cache := s.cache.pop g })
    else (some cached.value,
      { s with reads := s.reads + 1, cache := CacheTable.moveToEnd s.cache g })

end

section

variable (p : IGrainDirectory D Error) (s : DirectoryCache D Time)

/-- What the inner directory has returned goes into the cache, and what it has raised on. -/
def remember (g : GrainId) :
    Except Error DirectoryEntry × D → Except Error DirectoryEntry × DirectoryCache D Time
  | (.error e, d) => (.error e, { s with inner := d })
  | (.ok value, d) => (.ok value, { s with inner := d }.put g value)

def register (g : GrainId) (silo : SiloAddress) :
    Except Error DirectoryEntry × DirectoryCache D Time :=
  s.remember g (p.register s.inner g silo)

def lookup (g : GrainId) : Except Error (Option DirectoryEntry) × DirectoryCache D Time :=
  match s.hit g with
  | (some value, s) => (.ok (some value), s)
  | (none, s) =>
    match p.lookup s.inner g with
    | (.error e, d) => (.error e, { s with inner := d })
    | (.ok none, d) => (.ok none, { s with inner := d })
    | (.ok (some value), d) => (.ok (some value), { s with inner := d }.put g value)

def unregister (g : GrainId) (silo : SiloAddress) : Except Error Unit × DirectoryCache D Time :=
  let r := p.unregister s.inner g silo
  (r.1, { s with inner := r.2 }.invalidate g)

def resolveOrActivate (g : GrainId) (placement : PlacementStrategy) (caller : Option SiloAddress) :
    Except Error DirectoryEntry × DirectoryCache D Time :=
  match s.hit g with
  | (some value, s) => (.ok value, s)
  | (none, s) => s.remember g (p.resolveOrActivate s.inner g placement caller)

end

def port (p : IGrainDirectory D Error) : IGrainDirectory (DirectoryCache D Time) Error where
  register s g silo := s.register p g silo
  lookup s g := s.lookup p g
  unregister s g silo := s.unregister p g silo
  resolveOrActivate s g placement caller := s.resolveOrActivate p g placement caller

end DirectoryCache

/-- What is asked of a cache: a call of its port, or to forget. -/
inductive CacheCall
  | directory (c : DirectoryCall)
  | invalidate (g : GrainId)
  | invalidateAll
  | invalidateSilo (silo : SiloAddress)

def CacheCall.directoryCall : CacheCall → Option DirectoryCall
  | .directory c => some c
  | _ => none

namespace DirectoryCache

variable {D Error Time : Type} [Zero Time] [Add Time] [LE Time] [DecidableLE Time]
  (p : IGrainDirectory D Error)

def run : DirectoryCache D Time → List CacheCall → List
    (Except Error DirectoryAnswer) × DirectoryCache D Time
  | s, [] => ([], s)
  | s, .directory c :: calls =>
    let r := (port p).call s c
    (r.1 :: (run r.2 calls).1, (run r.2 calls).2)
  | s, .invalidate g :: calls => run (s.invalidate g) calls
  | s, .invalidateAll :: calls => run s.invalidateAll calls
  | s, .invalidateSilo silo :: calls => run (s.invalidateSilo silo) calls

variable {p} {entry : D → GrainId → Option DirectoryEntry} {s : DirectoryCache D Time} {g : GrainId}

/-- What the cache holds, a grain perhaps apart, is what the directory holds. -/
def CoherentBut (entry : D → GrainId → Option DirectoryEntry) (s : DirectoryCache D Time)
    (g : GrainId) : Prop :=
  ∀ c ∈ s.cache.items, c.1 ≠ g → entry s.inner c.1 = some c.2.value

def Coherent (entry : D → GrainId → Option DirectoryEntry) (s : DirectoryCache D Time) : Prop :=
  ∀ c ∈ s.cache.items, entry s.inner c.1 = some c.2.value

omit [Add Time] [DecidableLE Time] in
theorem Coherent.forget (h : Coherent entry s) {cache : CacheTable Time}
    (hsub : ∀ c ∈ cache.items, c ∈ s.cache.items) :
    Coherent entry { s with cache := cache } := fun c hc ↦ h c (hsub c hc)

omit [Add Time] [DecidableLE Time] in
theorem Coherent.frame (h : Coherent entry s) {d : D}
    (hframe : ∀ k ≠ g, entry d k = entry s.inner k) :
    CoherentBut entry { s with inner := d } g := fun c hc hg ↦ (hframe c.1 hg).trans (h c hc)

omit [DecidableLE Time] in
theorem CoherentBut.put {value : DirectoryEntry} (h : CoherentBut entry s g)
    (hvalue : entry s.inner g = some value) :
    (s.put g value).inner = s.inner ∧ Coherent entry (s.put g value) := by
  have hput : ∀ c ∈ (s.cache.put (g, ⟨value, s.now s.reads + s.ttl⟩)).items,
    entry s.inner c.1 = some c.2.value := by
    intro c hc
    rcases Table.mem_put.mp hc with rfl | ⟨hold, hg⟩
    · exact hvalue
    · exact h c hold hg
  unfold DirectoryCache.put
  split
  · exact ⟨rfl, fun c hc ↦ hput c (CacheTable.mem_moveToEnd _ hc)⟩
  · exact ⟨rfl, fun c hc ↦ hput c (List.mem_of_mem_drop hc)⟩

omit [Add Time] [DecidableLE Time] in
theorem CoherentBut.invalidate (h : CoherentBut entry s g) : Coherent entry (s.invalidate g) := by
  intro c hc
  exact h c (List.mem_of_mem_filter hc) (by simpa using List.of_mem_filter hc)

omit [Add Time] in
theorem Coherent.hit (h : Coherent entry s) (g : GrainId) :
    (s.hit g).2.inner = s.inner ∧ Coherent entry (s.hit g).2 ∧
      ∀ value, (s.hit g).1 = some value → entry s.inner g = some value := by
  unfold DirectoryCache.hit
  split
  · exact ⟨rfl, h, fun value hv ↦ by cases hv⟩
  · next k cached hget =>
    have hheld := h _ (Table.mem_of_get hget)
    obtain rfl : k = g := Table.key_of_get hget
    split_ifs
    · exact ⟨rfl, fun c hc ↦ h c (List.mem_of_mem_filter hc), fun value hv ↦ by cases hv⟩
    · exact ⟨rfl, fun c hc ↦ h c (CacheTable.mem_moveToEnd _ hc), fun value hv ↦
        Option.some.inj hv ▸ hheld⟩

omit [DecidableLE Time] in
theorem Coherent.remember (h : Coherent entry s) {r : Except Error DirectoryEntry × D}
    (hfound : ∀ e, entry s.inner g = some e → r = (.ok e, s.inner))
    (hok : ∀ e, r.1 = .ok e → entry r.2 g = some e)
    (hframe : ∀ k ≠ g, entry r.2 k = entry s.inner k) :
    (s.remember g r).1 = r.1 ∧ (s.remember g r).2.inner = r.2 ∧ Coherent entry
      (s.remember g r).2 := by
  obtain ⟨result, d⟩ := r
  cases result with
  | ok value =>
    obtain ⟨hinner, hcoherent⟩ := (h.frame hframe).put (hok value rfl)
    exact ⟨rfl, hinner, hcoherent⟩
  | error e =>
    refine ⟨rfl, rfl, fun c hc ↦ h.frame hframe c hc ?_⟩
    rintro rfl
    -- a grain with an entry in the cache has one in the directory, whose call then succeeds
    cases congrArg Prod.fst (hfound c.2.value (h c hc))

/-- A call through the cache is the call on the directory. -/
def Transparent (p : IGrainDirectory D Error) (entry : D → GrainId → Option DirectoryEntry)
    (s : DirectoryCache D Time) (c : DirectoryCall) : Prop :=
  ((port p).call s c).1 = (p.call s.inner c).1 ∧
    ((port p).call s c).2.inner = (p.call s.inner c).2 ∧
    Coherent entry ((port p).call s c).2

theorem transparent_register (hp : p.Contract entry) (h : Coherent entry s) (silo : SiloAddress) :
    Transparent p entry s (.register g silo) := by
  obtain ⟨hresult, hinner, hcoherent⟩ :=
    h.remember (hp.register s.inner g silo) (hp.registered s.inner g silo)
    (hp.register_frame s.inner g silo)
  exact ⟨congrArg (Except.map DirectoryAnswer.entry) hresult, hinner, hcoherent⟩

theorem lookup_eq (hp : p.Contract entry) (h : Coherent entry s) (g : GrainId) :
    ∃ s', s.lookup p g = (.ok (entry s.inner g), s') ∧ s'.inner = s.inner ∧ Coherent entry s' := by
  obtain ⟨hinner, hcoherent, hvalue⟩ := h.hit g
  cases hhit : s.hit g with
  | mk found s' =>
    rw [hhit] at hinner hcoherent hvalue
    dsimp only at hinner hcoherent hvalue
    cases found with
    | some value =>
      refine ⟨s', ?_, hinner, hcoherent⟩
      simp only [DirectoryCache.lookup, hhit, hvalue value rfl]
    | none =>
      have hlookup := hp.lookup s'.inner g
      rw [← hinner]
      cases hentry : entry s'.inner g with
      | none =>
        refine ⟨s', ?_, rfl, hcoherent⟩
        simp only [DirectoryCache.lookup, hhit, hlookup, hentry]
      | some value =>
        obtain ⟨hinner', hcoherent'⟩ := CoherentBut.put (fun c hc _ ↦ hcoherent c hc) hentry
        refine ⟨s'.put g value, ?_, hinner', hcoherent'⟩
        simp only [DirectoryCache.lookup, hhit, hlookup, hentry]

theorem transparent_lookup (hp : p.Contract entry) (h : Coherent entry s) :
    Transparent p entry s (.lookup g) := by
  obtain ⟨s', hlookup, hinner, hcoherent⟩ := lookup_eq hp h g
  simp only [Transparent, IGrainDirectory.call, port, hlookup, hp.lookup]
  exact ⟨rfl, hinner, hcoherent⟩

theorem transparent_unregister (hp : p.Contract entry) (h : Coherent entry s) (silo : SiloAddress) :
    Transparent p entry s (.unregister g silo) :=
  ⟨rfl, rfl, (h.frame (hp.unregister_frame s.inner g silo)).invalidate⟩

theorem transparent_resolveOrActivate (hp : p.Contract entry) (h : Coherent entry s)
    (placement : PlacementStrategy) (caller : Option SiloAddress) :
    Transparent p entry s (.resolveOrActivate g placement caller) := by
  obtain ⟨hinner, hcoherent, hvalue⟩ := h.hit g
  cases hhit : s.hit g with
  | mk found s' =>
    rw [hhit] at hinner hcoherent hvalue
    dsimp only at hinner hcoherent hvalue
    simp only [Transparent, IGrainDirectory.call, port, DirectoryCache.resolveOrActivate, hhit]
    cases found with
    | some value =>
      rw [hp.resolve s.inner g placement caller value (hvalue value rfl)]
      exact ⟨rfl, hinner, hcoherent⟩
    | none =>
      rw [← hinner]
      obtain ⟨hresult, hinner', hcoherent'⟩ :=
        hcoherent.remember (hp.resolve s'.inner g placement caller)
        (hp.resolved s'.inner g placement caller) (hp.resolve_frame s'.inner g placement caller)
      exact ⟨congrArg (Except.map DirectoryAnswer.entry) hresult, hinner', hcoherent'⟩

theorem transparent (hp : p.Contract entry) (h : Coherent entry s) (c : DirectoryCall) :
    Transparent p entry s c := by
  cases c with
  | register g silo => exact transparent_register hp h silo
  | lookup g => exact transparent_lookup hp h
  | unregister g silo => exact transparent_unregister hp h silo
  | resolveOrActivate g placement caller =>
    exact transparent_resolveOrActivate hp h placement caller

theorem run_transparent (hp : p.Contract entry) (h : Coherent entry s) (calls : List CacheCall) :
    (run p s calls).1 = (p.run s.inner (calls.filterMap CacheCall.directoryCall)).1 ∧
      (run p s calls).2.inner = (p.run s.inner (calls.filterMap CacheCall.directoryCall)).2 := by
  induction calls generalizing s with
  | nil => exact ⟨rfl, rfl⟩
  | cons call calls ih =>
    cases call with
    | directory c =>
      obtain ⟨hresult, hinner, hcoherent⟩ := transparent hp h c
      obtain ⟨hresults, hlast⟩ := ih hcoherent
      rw [hinner] at hresults hlast
      exact ⟨congrArg₂ List.cons hresult hresults, hlast⟩
    | invalidate g => exact ih (h.forget fun c hc ↦ List.mem_of_mem_filter hc)
    | invalidateAll => exact ih (h.forget fun c hc ↦ absurd hc List.not_mem_nil)
    | invalidateSilo silo => exact ih (h.forget fun c hc ↦ List.mem_of_mem_filter hc)

/-- Through one cache, of any size and TTL and with any clock, the calls return
what they return on the local directory itself, and leave it the same. -/
theorem cache_transparent (localSilo : SiloAddress) (maxSize : ℕ) (ttl : Time) (now : ℕ → Time)
    (maxSize_ok : ¬ maxSize ≤ 0) (ttl_ok : ¬ ttl ≤ 0) (calls : List CacheCall) :
    let s := run LocalGrainDirectory.port
      (init (.init localSilo) maxSize ttl now maxSize_ok ttl_ok) calls
    let direct := LocalGrainDirectory.port.run (.init localSilo)
      (calls.filterMap CacheCall.directoryCall)
    s.1 = direct.1 ∧ s.2.inner = direct.2 :=
  run_transparent LocalGrainDirectory.port_contract (fun _ hc ↦ absurd hc List.not_mem_nil) calls

def crowdedCalls : List CacheCall :=
  [.directory (.register counter1 siloB), .directory (.register counter4 siloA),
    .directory (.lookup counter1), .directory (.unregister counter1 siloB),
    .directory (.lookup counter1), .invalidate counter4, .directory (.lookup counter4)]

theorem cache_transparent_crowdedCalls :
    let s := run LocalGrainDirectory.port
      (init (.init siloA) 1 (5 : ℤ) (fun n ↦ if n % 2 = 0 then 0 else 9) (by decide) (by decide))
        crowdedCalls
    let direct := LocalGrainDirectory.port.run (.init siloA)
      (crowdedCalls.filterMap CacheCall.directoryCall)
    s.1 = direct.1 ∧ s.2.inner = direct.2 :=
  cache_transparent siloA 1 (5 : ℤ) (fun n ↦ if n % 2 = 0 then 0 else 9) (by decide)
    (by decide) crowdedCalls

end DirectoryCache

end Pyleans
