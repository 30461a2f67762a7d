import Mathlib.Algebra.Order.Ring.Rat
import Mathlib.Data.List.Induction
import Pyleans.Library.Pool
import Pyleans.Library.Table

namespace Pyleans

open Library

variable {ρ ε : Type}

inductive FutureState (ρ ε : Type)
  | pending
  | result (value : ρ)
  | exception (error : ε)
  | cancelled
deriving DecidableEq

def FutureState.IsSet : FutureState ρ ε → Prop
  | .result _ | .exception _ => True
  | .pending | .cancelled => False

/-- A future and the correlation id it was handed out with. -/
structure RequestFuture (ρ ε : Type) where
  correlationId : ℕ
  state : FutureState ρ ε
deriving DecidableEq

inductive TimerState
  | armed
  | cancelled
  | fired
deriving DecidableEq

/-- The call that set a future. -/
inductive Resolver
  | complete (correlationId : ℕ)
  | fail (correlationId : ℕ)
  | expire (correlationId : ℕ)
  | failAll
deriving DecidableEq

def Resolver.Names (id : ℕ) : Resolver → Prop
  | complete correlationId | fail correlationId | expire correlationId => correlationId = id
  | failAll => True

/-- The registry, with every future and timer it ever made and every time it set one of its
futures. -/
structure PendingRequests (ρ ε : Type) where
  defaultTimeout : ℚ
  nextId : ℕ
  pending : Table (Prod.fst : ℕ × ℕ → ℕ)
  timeouts : Table (Prod.fst : ℕ × ℕ → ℕ)
  futures : List (RequestFuture ρ ε)
  timers : List TimerState
  resolutions : List (ℕ × Resolver)

namespace PendingRequests

def UINT64_MAX : ℕ := 2 ^ 64 - 1

def new (defaultTimeout : ℚ) : PendingRequests ρ ε :=
  ⟨defaultTimeout, 1, .empty, .empty, [], [], []⟩

def advanceNextId (nextId : ℕ) : ℕ := if nextId + 1 > UINT64_MAX then 1 else nextId + 1

/-- `allocate`; the future is known by its place among all of them. -/
def allocate (s : PendingRequests ρ ε) (timeout : Option ℚ) : (ℕ × ℕ) × PendingRequests ρ ε :=
  let correlationId := s.nextId
  let future := s.futures.length
  let s := { s with
    nextId := advanceNextId s.nextId
    futures := s.futures ++ [⟨correlationId, .pending⟩]
    pending := s.pending.put (correlationId, future) }
  let resolved := timeout.getD s.defaultTimeout
  if resolved > 0 then
    ((correlationId, future), { s with
      timeouts := s.timeouts.put (correlationId, s.timers.length)
      timers := s.timers ++ [.armed] })
  else ((correlationId, future), s)

def done (s : PendingRequests ρ ε) (future : ℕ) : Bool :=
  match s.futures[future]? with
  | some ⟨_, .pending⟩ => false
  | _ => true

/-- `set_result` and `set_exception`, whether or not the future is done. -/
def setFuture (s : PendingRequests ρ ε) (future : ℕ) (state : FutureState ρ ε)
    (resolver : Resolver) :
    PendingRequests ρ ε :=
  { s with
    futures := s.futures.modify future fun p ↦ { p with state := state }
    resolutions := s.resolutions ++ [(future, resolver)] }

def popTimeout (s : PendingRequests ρ ε) (correlationId : ℕ) (state : TimerState) :
    PendingRequests ρ ε :=
  match s.timeouts.get correlationId with
  | none => s
  | some (_, handle) =>
    { s with
      timeouts := s.timeouts.pop correlationId
      timers := s.timers.set handle state }

def cancelTimeout (s : PendingRequests ρ ε) (correlationId : ℕ) : PendingRequests ρ ε :=
  s.popTimeout correlationId .cancelled

def resolve (s : PendingRequests ρ ε) (correlationId : ℕ) (state : FutureState ρ ε)
    (resolver : Resolver) :
    PendingRequests ρ ε :=
  let popped := { s with pending := s.pending.pop correlationId }
  match s.pending.get correlationId with
  | none => popped
  | some (_, future) => if s.done future then popped else popped.setFuture future state resolver

def complete (s : PendingRequests ρ ε) (correlationId : ℕ) (result : ρ) : PendingRequests ρ ε :=
  (s.cancelTimeout correlationId).resolve correlationId (.result result) (.complete correlationId)

def fail (s : PendingRequests ρ ε) (correlationId : ℕ) (error : ε) : PendingRequests ρ ε :=
  (s.cancelTimeout correlationId).resolve correlationId (.exception error) (.fail correlationId)

/-- `_expire`, called by the timer of the id with the error of a timeout. -/
def expire (s : PendingRequests ρ ε) (correlationId : ℕ) (timedOut : ε) : PendingRequests ρ ε :=
  (s.popTimeout correlationId .fired).resolve correlationId (.exception timedOut)
    (.expire correlationId)

def failEach (error : ε) (s : PendingRequests ρ ε) (entry : ℕ × ℕ) : PendingRequests ρ ε :=
  if s.done entry.2 then s else s.setFuture entry.2 (.exception error) .failAll

def emptied (s : PendingRequests ρ ε) : PendingRequests ρ ε :=
  { s with
    pending := .empty
    timeouts := .empty
    timers := s.timeouts.items.foldl (fun timers entry ↦ timers.set entry.2 .cancelled) s.timers }

def failAll (s : PendingRequests ρ ε) (error : ε) : PendingRequests ρ ε :=
  s.pending.items.foldl (failEach error) s.emptied

def discard (s : PendingRequests ρ ε) (correlationId : ℕ) : PendingRequests ρ ε :=
  let s := s.cancelTimeout correlationId
  { s with pending := s.pending.pop correlationId }

def cancelFuture (s : PendingRequests ρ ε) (future : ℕ) : PendingRequests ρ ε :=
  if s.done future then s
  else { s with futures := s.futures.modify future fun p ↦ { p with state := .cancelled } }

end PendingRequests

inductive PendingOp (ρ ε : Type)
  | allocate (timeout : Option ℚ)
  | complete (correlationId : ℕ) (result : ρ)
  | fail (correlationId : ℕ) (error : ε)
  | expire (correlationId : ℕ) (timedOut : ε)
  | discard (correlationId : ℕ)
  | failAll (error : ε)
  | cancelFuture (future : ℕ)

def PendingOp.isAllocate : PendingOp ρ ε → Bool
  | allocate _ => true
  | _ => false

namespace PendingRequests

def step (s : PendingRequests ρ ε) : PendingOp ρ ε → PendingRequests ρ ε
  | .allocate timeout => (s.allocate timeout).2
  | .complete correlationId result => s.complete correlationId result
  | .fail correlationId error => s.fail correlationId error
  | .expire correlationId timedOut => s.expire correlationId timedOut
  | .discard correlationId => s.discard correlationId
  | .failAll error => s.failAll error
  | .cancelFuture future => s.cancelFuture future

def run (defaultTimeout : ℚ) (ops : List (PendingOp ρ ε)) : PendingRequests ρ ε :=
  ops.foldl step (new defaultTimeout)

section

variable {s : PendingRequests ρ ε} {correlationId future : ℕ} {state : FutureState ρ ε}
  {resolver : Resolver} {error : ε}

theorem done_eq_false : s.done future = false ↔ ∃ id, s.futures[future]? = some ⟨id, .pending⟩ := by
  unfold done
  split
  · next id h => exact iff_of_true rfl ⟨id, h⟩
  · next hne => exact iff_of_false (by decide) fun ⟨id, h⟩ ↦ hne id h

theorem popTimeout_timeouts (s : PendingRequests ρ ε) (correlationId : ℕ) (state : TimerState) :
    (s.popTimeout correlationId state).timeouts = s.timeouts.pop correlationId := by
  unfold popTimeout
  split
  · next h => exact (Table.pop_of_get_eq_none h).symm
  · rfl

theorem popTimeout_frame (s : PendingRequests ρ ε) (correlationId : ℕ) (state : TimerState) :
    (s.popTimeout correlationId state).pending = s.pending ∧
      (s.popTimeout correlationId state).futures = s.futures ∧
      (s.popTimeout correlationId state).resolutions = s.resolutions ∧
      (s.popTimeout correlationId state).nextId = s.nextId := by
  unfold popTimeout
  split <;> exact ⟨rfl, rfl, rfl, rfl⟩

theorem popTimeout_armed {state : TimerState} {handle : ℕ} (hstate : state ≠ .armed)
    (h : (s.popTimeout correlationId state).timers[handle]? = some .armed) :
    s.timers[handle]? = some .armed ∧
      s.timeouts.get correlationId ≠ some (correlationId, handle) := by
  unfold popTimeout at h
  split at h
  · next hnone => exact ⟨h, by rw [hnone]; exact (Option.some_ne_none _).symm⟩
  · next id handle' hget =>
    dsimp only at h
    obtain rfl : id = correlationId := Table.key_of_get hget
    by_cases hhandle : handle' = handle
    · subst hhandle
      rw [List.getElem?_set, if_pos rfl] at h
      split_ifs at h
      exact absurd (Option.some.inj h) hstate
    · rw [List.getElem?_set_ne hhandle] at h
      exact ⟨h, fun he ↦ hhandle (congrArg Prod.snd (Option.some.inj (hget.symm.trans he)))⟩

theorem resolve_frame (s : PendingRequests ρ ε) (correlationId : ℕ) (state : FutureState ρ ε)
    (resolver : Resolver) :
    (s.resolve correlationId state resolver).pending = s.pending.pop correlationId ∧
      (s.resolve correlationId state resolver).timeouts = s.timeouts ∧
      (s.resolve correlationId state resolver).timers = s.timers ∧
      (s.resolve correlationId state resolver).nextId = s.nextId ∧
      (s.resolve correlationId state resolver).futures.length = s.futures.length := by
  simp only [resolve]
  split
  · exact ⟨rfl, rfl, rfl, rfl, rfl⟩
  · split_ifs
    · exact ⟨rfl, rfl, rfl, rfl, rfl⟩
    · exact ⟨rfl, rfl, rfl, rfl, List.length_modify _ _ _⟩

/-- Failing an outstanding request changes nothing but its future. -/
def SameTables (s t : PendingRequests ρ ε) : Prop :=
  t.pending = s.pending ∧ t.timeouts = s.timeouts ∧ t.timers = s.timers ∧ t.nextId = s.nextId ∧
    t.futures.length = s.futures.length

theorem sameTables_failEach {t : PendingRequests ρ ε} (h : SameTables s t) (entry : ℕ × ℕ) :
    SameTables s (failEach error t entry) := by
  obtain ⟨hpending, htimeouts, htimers, hnext, hlength⟩ := h
  unfold failEach
  split_ifs
  · exact ⟨hpending, htimeouts, htimers, hnext, hlength⟩
  · exact ⟨hpending, htimeouts, htimers, hnext, (List.length_modify _ _ _).trans hlength⟩

theorem failAll_frame (s : PendingRequests ρ ε) (error : ε) :
    SameTables s.emptied (s.failAll error) := by
  have hstart : SameTables s.emptied s.emptied := ⟨rfl, rfl, rfl, rfl, rfl⟩
  exact List.foldlRecOn s.pending.items (failEach error) hstart fun _ ht entry _ ↦
    sameTables_failEach ht entry

theorem foldl_cancelled_armed {entries : List (ℕ × ℕ)} {timers : List TimerState} {handle : ℕ}
    (h : (entries.foldl (fun timers entry ↦ timers.set entry.2 .cancelled) timers)[handle]? =
      some .armed) :
    timers[handle]? = some .armed ∧ ∀ e ∈ entries, e.2 ≠ handle := by
  induction entries generalizing timers with
  | nil => exact ⟨h, nofun⟩
  | cons entry entries ih =>
    obtain ⟨harmed, hrest⟩ := ih h
    by_cases hhandle : entry.2 = handle
    · dsimp only at harmed
      rw [hhandle, List.getElem?_set, if_pos rfl] at harmed
      split_ifs at harmed
      cases harmed
    · dsimp only at harmed
      rw [List.getElem?_set_ne hhandle] at harmed
      exact ⟨harmed, List.forall_mem_cons.mpr ⟨hhandle, hrest⟩⟩

/-- What was set was set once, by a call for its own id. -/
structure Settled (futures : List (RequestFuture ρ ε)) (resolutions : List (ℕ × Resolver)) :
    Prop where
  ids : ∀ f p, futures[f]? = some p → p.correlationId = f + 1
  once : (resolutions.map Prod.fst).Nodup
  resolver : ∀ r ∈ resolutions, r.1 < futures.length ∧ r.2.Names (r.1 + 1)
  isSet : ∀ f p, futures[f]? = some p → (p.state.IsSet ↔ f ∈ resolutions.map Prod.fst)

variable {futures : List (RequestFuture ρ ε)} {resolutions : List (ℕ × Resolver)}

theorem Settled.grow (h : Settled futures resolutions) :
    Settled (futures ++ [⟨futures.length + 1, .pending⟩]) resolutions where
  ids f p hp := by
    rcases getElem?_grown.mp hp with hp | ⟨rfl, rfl⟩
    · exact h.ids f p hp
    · rfl
  once := h.once
  resolver r hr := by
    obtain ⟨hlt, hnames⟩ := h.resolver r hr
    rw [List.length_append]
    exact ⟨by omega, hnames⟩
  isSet f p hp := by
    rcases getElem?_grown.mp hp with hp | ⟨rfl, rfl⟩
    · exact h.isSet f p hp
    · refine iff_of_false id fun hmem ↦ ?_
      obtain ⟨r, hr, he⟩ := List.mem_map.mp hmem
      have hlt := (h.resolver r hr).1
      omega

theorem getElem?_modify_state {f : ℕ} {p : RequestFuture ρ ε}
    (hp : (futures.modify future fun p ↦ { p with state := state })[f]? = some p) :
    ∃ q, futures[f]? = some q ∧ p.correlationId = q.correlationId ∧
      ((f = future ∧ p.state = state) ∨ (f ≠ future ∧ p = q)) := by
  rw [List.getElem?_modify] at hp
  obtain ⟨q, hq, rfl⟩ := Option.map_eq_some_iff.mp hp
  refine ⟨q, hq, ?_⟩
  by_cases hf : future = f
  · rw [if_pos hf]
    exact ⟨rfl, .inl ⟨hf.symm, rfl⟩⟩
  · rw [if_neg hf]
    exact ⟨rfl, .inr ⟨Ne.symm hf, rfl⟩⟩

theorem Settled.set (h : Settled futures resolutions) {id : ℕ}
    (hpending : futures[future]? = some ⟨id, .pending⟩) (hset : state.IsSet)
    (hnames : resolver.Names id) :
    Settled (futures.modify future fun p ↦ { p with state := state })
      (resolutions ++ [(future, resolver)]) where
  ids f p hp := by
    obtain ⟨q, hq, hid, -⟩ := getElem?_modify_state hp
    rw [hid, h.ids f q hq]
  once := by
    rw [List.map_append, List.map_singleton, List.nodup_append]
    refine ⟨h.once, List.nodup_singleton _, ?_⟩
    rintro f hf g hg rfl
    obtain rfl := List.mem_singleton.mp hg
    exact (h.isSet _ _ hpending).mpr hf
  resolver r hr := by
    rw [List.length_modify]
    rcases List.mem_append.mp hr with hr | hr
    · exact h.resolver r hr
    · obtain rfl := List.mem_singleton.mp hr
      refine ⟨(List.getElem?_eq_some_iff.mp hpending).1, ?_⟩
      rw [← h.ids future _ hpending]
      exact hnames
  isSet f p hp := by
    obtain ⟨q, hq, -, ⟨rfl, hstate⟩ | ⟨hf, rfl⟩⟩ := getElem?_modify_state hp
    · rw [hstate, List.map_append]
      exact iff_of_true hset (List.mem_append_right _ (List.mem_singleton.mpr rfl))
    · rw [h.isSet f p hq, List.map_append, List.mem_append]
      exact ⟨.inl, fun hmem ↦ hmem.resolve_right fun he ↦ hf (List.mem_singleton.mp he)⟩

theorem Settled.cancel (h : Settled futures resolutions) {id : ℕ}
    (hpending : futures[future]? = some ⟨id, .pending⟩) :
    Settled (futures.modify future fun p ↦ { p with state := .cancelled }) resolutions where
  ids f p hp := by
    obtain ⟨q, hq, hid, -⟩ := getElem?_modify_state hp
    rw [hid, h.ids f q hq]
  once := h.once
  resolver := by
    rw [List.length_modify]
    exact h.resolver
  isSet f p hp := by
    obtain ⟨q, hq, -, ⟨rfl, hstate⟩ | ⟨-, rfl⟩⟩ := getElem?_modify_state hp
    · rw [hstate]
      exact iff_of_false not_false fun hmem ↦ (h.isSet f _ hpending).mpr hmem
    · exact h.isSet f p hq

end

section

variable {s : PendingRequests ρ ε} {correlationId future : ℕ} {state : FutureState ρ ε}
  {resolver : Resolver} {error : ε}

theorem Settled.resolve (h : Settled s.futures s.resolutions) (hset : state.IsSet)
    (hnames : resolver.Names correlationId) (hentries : ∀ e ∈ s.pending.items, e.1 = e.2 + 1) :
    Settled (s.resolve correlationId state resolver).futures
      (s.resolve correlationId state resolver).resolutions := by
  simp only [PendingRequests.resolve]
  split
  · exact h
  · next id f hget =>
    obtain rfl : id = correlationId := Table.key_of_get hget
    split_ifs with hdone
    · exact h
    · obtain ⟨id', hf⟩ := done_eq_false.mp (Bool.not_eq_true _ ▸ hdone)
      have hentry : id = f + 1 := hentries _ (Table.mem_of_get hget)
      obtain rfl : id' = id := (h.ids f _ hf).trans hentry.symm
      exact h.set hf hset hnames

theorem Settled.failEach (h : Settled s.futures s.resolutions) (entry : ℕ × ℕ) :
    Settled (failEach error s entry).futures (failEach error s entry).resolutions := by
  unfold PendingRequests.failEach
  split_ifs with hdone
  · exact h
  · obtain ⟨id, hf⟩ := done_eq_false.mp (Bool.not_eq_true _ ▸ hdone)
    exact h.set hf trivial trivial

theorem Settled.failAll (h : Settled s.futures s.resolutions) :
    Settled (s.failAll error).futures (s.failAll error).resolutions := by
  have hstart : Settled s.emptied.futures s.emptied.resolutions := h
  exact List.foldlRecOn s.pending.items (PendingRequests.failEach error)
    (motive := fun t ↦ Settled t.futures t.resolutions) hstart fun _ ht entry _ ↦ ht.failEach entry

theorem Settled.cancelFuture (h : Settled s.futures s.resolutions) (future : ℕ) :
    Settled (s.cancelFuture future).futures (s.cancelFuture future).resolutions := by
  unfold PendingRequests.cancelFuture
  split_ifs with hdone
  · exact h
  · obtain ⟨id, hf⟩ := done_eq_false.mp (Bool.not_eq_true _ ▸ hdone)
    exact h.cancel hf

/-- What the two tables hold, as long as the ids have not wrapped around. -/
structure Sound (s : PendingRequests ρ ε) : Prop where
  next : s.nextId = s.futures.length + 1
  settled : Settled s.futures s.resolutions
  entries : ∀ e ∈ s.pending.items, e.1 = e.2 + 1 ∧ e.2 < s.futures.length
  timed : ∀ id, s.timeouts.get id ≠ none → s.pending.get id ≠ none
  armed : ∀ handle, s.timers[handle]? = some .armed → ∃ id, s.timeouts.get id = some (id, handle)

theorem sound_new (defaultTimeout : ℚ) : Sound (new defaultTimeout : PendingRequests ρ ε) where
  next := rfl
  settled := ⟨nofun, List.nodup_nil, nofun, nofun⟩
  entries := nofun
  timed _ h := absurd rfl h
  armed := nofun

theorem length_futures (s : PendingRequests ρ ε) (op : PendingOp ρ ε) :
    (s.step op).futures.length = s.futures.length + op.isAllocate.toNat := by
  have hpop := fun id state ↦ congrArg List.length (popTimeout_frame s id state).2.1
  have hresolve := fun (t : PendingRequests ρ ε) id state resolver ↦
    (resolve_frame t id state resolver).2.2.2.2
  cases op with
  | allocate timeout =>
    simp only [step, allocate]
    split <;> exact List.length_append
  | complete id result => exact (hresolve _ _ _ _).trans (hpop _ _)
  | fail id error => exact (hresolve _ _ _ _).trans (hpop _ _)
  | expire id timedOut => exact (hresolve _ _ _ _).trans (hpop _ _)
  | discard id => exact hpop _ _
  | failAll error => exact (failAll_frame s error).2.2.2.2
  | cancelFuture future =>
    simp only [step, PendingRequests.cancelFuture]
    split
    · rfl
    · exact List.length_modify _ _ _

theorem Sound.allocate (h : Sound s) (timeout : Option ℚ)
    (hbound : s.futures.length + 1 < UINT64_MAX) :
    Sound (s.allocate timeout).2 := by
  have hnext : advanceNextId s.nextId = s.futures.length + 2 := by
    rw [advanceNextId, h.next, if_neg (by omega)]
  have hfresh : s.timeouts.get s.nextId = none := by
    by_contra htimed
    obtain ⟨e, he⟩ := Option.ne_none_iff_exists'.mp (h.timed _ htimed)
    have hkey : e.1 = s.nextId := Table.key_of_get he
    obtain ⟨hentry, hlt⟩ := h.entries e (Table.mem_of_get he)
    rw [h.next] at hkey
    omega
  have hsettled : Settled (s.futures ++ [⟨s.nextId, .pending⟩]) s.resolutions :=
    h.next ▸ h.settled.grow
  have hentries : ∀ e ∈ (s.pending.put (s.nextId, s.futures.length)).items,
      e.1 = e.2 + 1 ∧ e.2 < (s.futures ++ [(⟨s.nextId, .pending⟩ : RequestFuture ρ ε)]).length := by
    intro e he
    rw [List.length_append, List.length_singleton]
    rcases Table.mem_put.mp he with rfl | ⟨he, -⟩
    · exact ⟨h.next, by omega⟩
    · obtain ⟨hentry, hlt⟩ := h.entries e he
      exact ⟨hentry, by omega⟩
  have hpending : ∀ id, id = s.nextId ∨ s.pending.get id ≠ none →
      (s.pending.put (s.nextId, s.futures.length)).get id ≠ none := by
    intro id hid
    rw [Table.get_put]
    split_ifs with hnew
    · exact Option.some_ne_none _
    · exact hid.resolve_left hnew
  have hlength : advanceNextId s.nextId =
    (s.futures ++ [(⟨s.nextId, .pending⟩ : RequestFuture ρ ε)]).length + 1 := by
    rw [hnext, List.length_append, List.length_singleton]
  simp only [PendingRequests.allocate]
  split
  · refine ⟨hlength, hsettled, hentries, fun id hid ↦ hpending id ?_, fun handle hhandle ↦ ?_⟩
    · rw [Table.get_put] at hid
      split_ifs at hid with hnew
      · exact .inl hnew
      · exact .inr (h.timed id hid)
    · rcases getElem?_grown.mp hhandle with hold | ⟨rfl, -⟩
      · obtain ⟨id, hid⟩ := h.armed handle hold
        refine ⟨id, ?_⟩
        rw [Table.get_put, if_neg, hid]
        rintro rfl
        rw [hfresh] at hid
        cases hid
      · exact ⟨s.nextId, Table.get_put_self _ _⟩
  · exact ⟨hlength, hsettled, hentries, fun id hid ↦ hpending id (.inr (h.timed id hid)), h.armed⟩

/-- An id leaves both tables at once, whatever becomes of its future. -/
theorem Sound.leave {t : PendingRequests ρ ε} {timer : TimerState} (h : Sound s)
    (htimer : timer ≠ .armed) (hpending : t.pending = s.pending.pop correlationId)
    (htimeouts : t.timeouts = (s.popTimeout correlationId timer).timeouts)
    (htimers : t.timers = (s.popTimeout correlationId timer).timers) (hnext : t.nextId = s.nextId)
    (hlength : t.futures.length = s.futures.length) (hsettled : Settled t.futures t.resolutions) :
    Sound t where
  next := by rw [hnext, hlength, h.next]
  settled := hsettled
  entries e he := by
    rw [hpending] at he
    rw [hlength]
    exact h.entries e (List.mem_of_mem_filter he)
  timed id hid := by
    rw [htimeouts, popTimeout_timeouts, Table.get_pop] at hid
    rw [hpending, Table.get_pop]
    by_cases hleft : id = correlationId
    · rw [if_pos hleft] at hid
      exact absurd rfl hid
    · rw [if_neg hleft] at hid ⊢
      exact h.timed id hid
  armed handle hhandle := by
    rw [htimers] at hhandle
    obtain ⟨hold, hother⟩ := popTimeout_armed htimer hhandle
    obtain ⟨id, hid⟩ := h.armed handle hold
    refine ⟨id, ?_⟩
    rw [htimeouts, popTimeout_timeouts, Table.get_pop, if_neg, hid]
    rintro rfl
    exact hother hid

theorem Sound.resolve {timer : TimerState} (h : Sound s) (htimer : timer ≠ .armed)
    (hset : state.IsSet) (hnames : resolver.Names correlationId) : Sound
      ((s.popTimeout correlationId timer).resolve correlationId state resolver) := by
  obtain ⟨hpending, hfutures, hresolutions, hnext⟩ := popTimeout_frame s correlationId timer
  obtain ⟨hpending', htimeouts', htimers', hnext', hlength'⟩ :=
    resolve_frame (s.popTimeout correlationId timer) correlationId state resolver
  refine h.leave htimer (hpending'.trans (by rw [hpending])) htimeouts' htimers'
    (hnext'.trans hnext)
    (hlength'.trans (by rw [hfutures])) ?_
  refine Settled.resolve ?_ hset hnames fun e he ↦ (h.entries e (hpending ▸ he)).1
  rw [hfutures, hresolutions]
  exact h.settled

theorem Sound.discard (h : Sound s) (correlationId : ℕ) : Sound (s.discard correlationId) := by
  obtain ⟨hpending, hfutures, hresolutions, hnext⟩ := popTimeout_frame s correlationId .cancelled
  have htimer : TimerState.cancelled ≠ .armed := nofun
  refine h.leave htimer ?_ rfl rfl hnext (congrArg List.length hfutures) ?_
  · exact congrArg (fun pending ↦ Table.pop pending correlationId) hpending
  · unfold PendingRequests.discard cancelTimeout
    dsimp only
    rw [hfutures, hresolutions]
    exact h.settled

theorem Sound.failAll (h : Sound s) (error : ε) : Sound (s.failAll error) := by
  obtain ⟨hpending, htimeouts, htimers, hnext, hlength⟩ := failAll_frame s error
  refine ⟨?_, h.settled.failAll, ?_, ?_, ?_⟩
  · rw [hnext, hlength]
    exact h.next
  · rw [hpending]
    nofun
  · rw [htimeouts]
    exact fun id hid ↦ absurd rfl hid
  · rw [htimers]
    intro handle hhandle
    obtain ⟨hold, hother⟩ := foldl_cancelled_armed hhandle
    obtain ⟨id, hid⟩ := h.armed handle hold
    exact absurd rfl (hother _ (Table.mem_of_get hid))

theorem Sound.cancelFuture (h : Sound s) (future : ℕ) : Sound (s.cancelFuture future) := by
  have hsettled := h.settled.cancelFuture future
  unfold PendingRequests.cancelFuture at hsettled ⊢
  split_ifs at hsettled ⊢
  · exact h
  · refine ⟨?_, hsettled, ?_, h.timed, h.armed⟩
    · rw [List.length_modify]
      exact h.next
    · rw [List.length_modify]
      exact h.entries

theorem Sound.step {op : PendingOp ρ ε} (h : Sound s)
    (hbound : (s.step op).futures.length < UINT64_MAX) :
    Sound (s.step op) := by
  cases op with
  | allocate timeout =>
    rw [length_futures] at hbound
    exact h.allocate timeout hbound
  | complete id result => exact h.resolve nofun trivial rfl
  | fail id error => exact h.resolve nofun trivial rfl
  | expire id timedOut => exact h.resolve nofun trivial rfl
  | discard id => exact h.discard id
  | failAll error => exact h.failAll error
  | cancelFuture future => exact h.cancelFuture future

theorem length_foldl (s : PendingRequests ρ ε) (ops : List (PendingOp ρ ε)) :
    (ops.foldl PendingRequests.step s).futures.length = s.futures.length +
      ops.countP PendingOp.isAllocate := by
  induction ops generalizing s with
  | nil => rfl
  | cons op ops ih =>
    rw [List.foldl_cons, ih, length_futures, List.countP_cons]
    cases op.isAllocate
    · rfl
    · rw [if_pos rfl, Bool.toNat_true]
      omega

theorem Sound.foldl {ops : List (PendingOp ρ ε)} (h : Sound s)
    (hbound : (ops.foldl PendingRequests.step s).futures.length < UINT64_MAX) :
    Sound (ops.foldl PendingRequests.step s) := by
  induction ops generalizing s with
  | nil => exact h
  | cons op ops ih =>
    refine ih (h.step ?_) hbound
    rw [List.foldl_cons, length_foldl] at hbound
    omega

theorem length_run (defaultTimeout : ℚ) (ops : List (PendingOp ρ ε)) :
    (run defaultTimeout ops).futures.length = ops.countP PendingOp.isAllocate :=
  (length_foldl (new defaultTimeout) ops).trans (Nat.zero_add _)

theorem sound_run (defaultTimeout : ℚ) (ops : List (PendingOp ρ ε))
    (hbound : ops.countP PendingOp.isAllocate < UINT64_MAX) :
    Sound (run defaultTimeout ops) :=
  (sound_new defaultTimeout).foldl ((length_run defaultTimeout ops).trans_lt hbound)

def Gone (s : PendingRequests ρ ε) (id : ℕ) : Prop :=
  id ≤ s.futures.length ∧ s.pending.get id = none

theorem Gone.step {op : PendingOp ρ ε} {id : ℕ} (hgone : s.Gone id) (h : Sound s) :
    (s.step op).Gone id := by
  obtain ⟨hid, hnone⟩ := hgone
  refine ⟨by rw [length_futures]; omega, ?_⟩
  have hpop : ∀ id', (s.pending.pop id').get id = none := by
    intro id'
    rw [Table.get_pop, hnone, ite_self]
  have hleave : ∀ id' timer, ((s.popTimeout id' timer).pending.pop id').get id = none := by
    intro id' timer
    rw [(popTimeout_frame s id' timer).1]
    exact hpop id'
  have hresolve := fun (t : PendingRequests ρ ε) id state resolver ↦
    (resolve_frame t id state resolver).1
  cases op with
  | allocate timeout =>
    have hput : (s.pending.put (s.nextId, s.futures.length)).get id = none := by
      rw [Table.get_put, if_neg, hnone]
      rw [h.next]
      omega
    simp only [PendingRequests.step, PendingRequests.allocate]
    split <;> exact hput
  | complete id' result => exact (congrArg (·.get id) (hresolve _ _ _ _)).trans (hleave _ _)
  | fail id' error => exact (congrArg (·.get id) (hresolve _ _ _ _)).trans (hleave _ _)
  | expire id' timedOut => exact (congrArg (·.get id) (hresolve _ _ _ _)).trans (hleave _ _)
  | discard id' => exact hleave _ _
  | failAll error =>
    exact (congrArg (·.get id) (failAll_frame s error).1).trans (Table.get_empty id)
  | cancelFuture future =>
    simp only [PendingRequests.step, PendingRequests.cancelFuture]
    split <;> exact hnone

theorem Gone.run {id : ℕ} {defaultTimeout : ℚ} {before after : List (PendingOp ρ ε)}
    (hgone : (PendingRequests.run defaultTimeout before).Gone id)
    (hbound : (before ++ after).countP PendingOp.isAllocate < UINT64_MAX) :
    (PendingRequests.run defaultTimeout (before ++ after)).Gone id := by
  induction after using List.reverseRecOn with
  | nil => rwa [List.append_nil]
  | append_singleton after op ih =>
    rw [← List.append_assoc] at hbound ⊢
    have hbound' : (before ++ after).countP PendingOp.isAllocate < UINT64_MAX := by
      rw [List.countP_append] at hbound
      omega
    rw [PendingRequests.run, List.foldl_append]
    exact (ih hbound').step (sound_run defaultTimeout _ hbound')

theorem resolve_gone (h : s.pending.get correlationId = none) :
    s.resolve correlationId state resolver = s := by
  simp only [PendingRequests.resolve, h, Table.pop_of_get_eq_none h]

theorem popTimeout_gone {timer : TimerState} (h : s.timeouts.get correlationId = none) :
    s.popTimeout correlationId timer = s := by
  rw [popTimeout, h]

/-- The calls that take an id out of the table without setting its future, or with every other
id. -/
def Removes (id : ℕ) : PendingOp ρ ε → Prop
  | .discard correlationId => correlationId = id
  | .failAll _ => True
  | _ => False

def IsLate (id : ℕ) : PendingOp ρ ε → Prop
  | .complete correlationId _ | .fail correlationId _ | .expire correlationId _ =>
    correlationId = id
  | _ => False

theorem Gone.late {op : PendingOp ρ ε} {id : ℕ} (hgone : s.Gone id) (h : Sound s)
    (hlate : IsLate id op) : s.step op = s := by
  have htimeouts : s.timeouts.get id = none := by
    by_contra htimed
    exact h.timed id htimed hgone.2
  cases op with
  | complete id' _ | fail id' _ | expire id' _ =>
    obtain rfl : id' = id := hlate
    simp only [PendingRequests.step, complete, fail, expire, cancelTimeout,
      popTimeout_gone htimeouts]
    exact resolve_gone hgone.2
  | allocate _ | discard _ | failAll _ | cancelFuture _ => exact hlate.elim

theorem gone_of_removes {op : PendingOp ρ ε} {id : ℕ} (hid : id ≤ s.futures.length)
    (hremoves : Removes id op) :
    (s.step op).Gone id := by
  refine ⟨by rw [length_futures]; omega, ?_⟩
  cases op with
  | discard id' =>
    obtain rfl : id' = id := hremoves
    exact (congrArg (Table.get · id')
      (congrArg (Table.pop · id') (popTimeout_frame s id' .cancelled).1)).trans
      (by rw [Table.get_pop, if_pos rfl])
  | failAll error =>
    exact (congrArg (·.get id) (failAll_frame s error).1).trans (Table.get_empty id)
  | allocate _ | complete _ _ | fail _ _ | expire _ _ | cancelFuture _ => exact hremoves.elim

end

section

variable {s : PendingRequests ρ ε} {correlationId future f : ℕ} {state : FutureState ρ ε}
  {resolver : Resolver} {error : ε}
  {entry : ℕ × ℕ}

theorem done_modify {g : RequestFuture ρ ε → RequestFuture ρ ε} {t : PendingRequests ρ ε}
    (hfutures : t.futures = s.futures.modify future g) (hg : ∀ p, (g p).state ≠ .pending)
    (h : s.done f = true ∨ f = future) : t.done f = true := by
  rw [← Bool.not_eq_false, done_eq_false, hfutures]
  rintro ⟨id, hf⟩
  rw [List.getElem?_modify] at hf
  obtain ⟨p, hp, he⟩ := Option.map_eq_some_iff.mp hf
  by_cases hfuture : future = f
  · rw [if_pos hfuture] at he
    exact hg p (he ▸ rfl)
  · rw [if_neg hfuture] at he
    rcases h with hdone | rfl
    · rw [done_eq_false.mpr ⟨id, he ▸ hp⟩] at hdone
      cases hdone
    · exact hfuture rfl

theorem done_setFuture (hset : state.IsSet) (h : s.done f = true ∨ f = future) :
    (s.setFuture future state resolver).done f = true := by
  refine done_modify (s := s) rfl (fun p hp ↦ ?_) h
  obtain rfl : state = .pending := hp
  exact hset

theorem done_failEach {e : ℕ × ℕ} (h : s.done f = true ∨ f = e.2) :
    (failEach error s e).done f = true := by
  unfold failEach
  split_ifs with hdone
  · rcases h with h | rfl
    · exact h
    · exact hdone
  · exact done_setFuture trivial h

theorem done_failAll (h : s.done f = true ∨ ∃ e ∈ s.pending.items, f = e.2) :
    (s.failAll error).done f = true := by
  have hfold : ∀ (entries : List (ℕ × ℕ)) (t : PendingRequests ρ ε),
      (t.done f = true ∨ ∃ e ∈ entries, f = e.2) →
        (entries.foldl (failEach error) t).done f = true := by
    intro entries
    induction entries with
    | nil =>
      rintro t (h | ⟨e, he, -⟩)
      · exact h
      · cases he
    | cons e entries ih =>
      rintro t (h | ⟨e', he', rfl⟩)
      · exact ih _ (.inl (done_failEach (.inl h)))
      · rcases List.mem_cons.mp he' with rfl | he'
        · exact ih _ (.inl (done_failEach (.inr rfl)))
        · exact ih _ (.inr ⟨e', he', rfl⟩)
  exact hfold _ _ h

theorem done_resolve (hset : state.IsSet)
    (h : s.done f = true ∨ s.pending.get correlationId = some (correlationId, f)) :
    (s.resolve correlationId state resolver).done f = true := by
  simp only [resolve]
  split
  · next hnone =>
    rw [hnone] at h
    exact h.resolve_right (Option.some_ne_none _).symm
  · next id future hget =>
    have hfuture : s.done f = true ∨ f = future :=
      h.imp_right fun h ↦ (congrArg Prod.snd (Option.some.inj (hget ▸ h))).symm
    split_ifs with hdone
    · rcases hfuture with h | rfl
      · exact h
      · exact hdone
    · exact done_setFuture hset hfuture

theorem items_nil_step {op : PendingOp ρ ε} (h : s.pending.items = [])
    (hop : op.isAllocate = false) :
    (s.step op).pending.items = [] := by
  have hpop : ∀ id, (s.pending.pop id).items = [] := by
    intro id
    have hitems : (s.pending.pop id).items = s.pending.items.filter fun e ↦ e.1 ≠ id := rfl
    rw [hitems, h]
    rfl
  have hresolve : ∀ id timer state resolver,
    ((s.popTimeout id timer).resolve id state resolver).pending.items = [] := by
    intro id timer state resolver
    rw [(resolve_frame _ id state resolver).1, (popTimeout_frame s id timer).1]
    exact hpop id
  cases op with
  | allocate timeout => cases hop
  | complete id result => exact hresolve _ _ _ _
  | fail id error => exact hresolve _ _ _ _
  | expire id timedOut => exact hresolve _ _ _ _
  | discard id =>
    exact (congrArg (fun p ↦ (Table.pop p id).items) (popTimeout_frame s id .cancelled).1).trans
      (hpop id)
  | failAll error => exact congrArg Table.items (failAll_frame s error).1
  | cancelFuture future =>
    simp only [step, PendingRequests.cancelFuture]
    split <;> exact h

theorem items_nil_foldl {ops : List (PendingOp ρ ε)} (h : s.pending.items = [])
    (hops : ∀ op ∈ ops, op.isAllocate = false) :
    (ops.foldl step s).pending.items = [] := by
  induction ops generalizing s with
  | nil => exact h
  | cons op ops ih =>
    obtain ⟨hop, hops⟩ := List.forall_mem_cons.mp hops
    exact ih (items_nil_step h hop) hops

/-- A future that was handed out with an id, and is done or still in the table. -/
structure Tracked (s : PendingRequests ρ ε) (entry : ℕ × ℕ) : Prop where
  id : entry.1 = entry.2 + 1
  made : entry.2 < s.futures.length
  done : s.done entry.2 = true ∨ s.pending.get entry.1 = some entry

theorem Tracked.resolve {timer : TimerState} (h : s.Tracked entry) (hset : state.IsSet) :
    ((s.popTimeout correlationId timer).resolve correlationId state resolver).Tracked entry := by
  obtain ⟨hpending, hfutures, -, -⟩ := popTimeout_frame s correlationId timer
  have hframe := resolve_frame (s.popTimeout correlationId timer) correlationId state resolver
  have hdone : (s.popTimeout correlationId timer).done entry.2 = s.done entry.2 := by
    unfold PendingRequests.done
    rw [hfutures]
  refine ⟨h.id, by rw [hframe.2.2.2.2, hfutures]; exact h.made, ?_⟩
  by_cases hid : entry.1 = correlationId
  · left
    refine done_resolve hset ?_
    rw [hdone, hpending, ← hid]
    exact h.done
  · rw [hframe.1, hpending, Table.get_pop, if_neg hid]
    exact h.done.imp_left fun h ↦ done_resolve hset (.inl (hdone.trans h))

theorem Tracked.step {op : PendingOp ρ ε} (h : s.Tracked entry) (hsound : Sound s)
    (hdiscard : ∀ id, op = .discard id → entry.1 ≠ id) : (s.step op).Tracked entry := by
  have hmade : entry.2 < (s.step op).futures.length := by
    rw [length_futures]
    exact Nat.lt_add_right _ h.made
  cases op with
  | allocate timeout =>
    have hdone : ∀ t : PendingRequests ρ ε, t.futures = s.futures ++ [⟨s.nextId, .pending⟩] →
        t.pending = s.pending.put (s.nextId, s.futures.length) →
        t.done entry.2 = true ∨ t.pending.get entry.1 = some entry := by
      intro t hfutures hpending
      have hsame : t.done entry.2 = s.done entry.2 := by
        unfold PendingRequests.done
        rw [hfutures, List.getElem?_append_left h.made]
      have hnew : entry.1 ≠ s.nextId := by
        have hid := h.id
        have hlt := h.made
        rw [hsound.next]
        omega
      rw [hsame, hpending, Table.get_put, if_neg hnew]
      exact h.done
    refine ⟨h.id, hmade, ?_⟩
    simp only [PendingRequests.step, PendingRequests.allocate]
    split <;> exact hdone _ rfl rfl
  | complete id result => exact h.resolve trivial
  | fail id error => exact h.resolve trivial
  | expire id timedOut => exact h.resolve trivial
  | discard id =>
    obtain ⟨hpending, hfutures, -, -⟩ := popTimeout_frame s id .cancelled
    refine ⟨h.id, hmade, ?_⟩
    have hdone : (s.discard id).done entry.2 = s.done entry.2 := by
      simp only [PendingRequests.done, PendingRequests.discard, cancelTimeout, hfutures]
    have hget : (s.discard id).pending.get entry.1 = s.pending.get entry.1 := by
      simp only [PendingRequests.discard, cancelTimeout, hpending, Table.get_pop,
        if_neg (hdiscard id rfl)]
    rw [PendingRequests.step, hdone, hget]
    exact h.done
  | failAll error =>
    refine ⟨h.id, hmade, .inl (done_failAll ?_)⟩
    exact h.done.imp_right fun hget ↦ ⟨entry, Table.mem_of_get hget, rfl⟩
  | cancelFuture future =>
    refine ⟨h.id, hmade, ?_⟩
    simp only [PendingRequests.step, PendingRequests.cancelFuture]
    split
    · exact h.done
    · refine h.done.imp_left fun hdone ↦ done_modify (s := s) rfl ?_ (.inl hdone)
      exact fun p hp ↦ absurd hp (by simp)

theorem Tracked.foldl {ops : List (PendingOp ρ ε)} (h : s.Tracked entry) (hsound : Sound s)
    (hbound : (ops.foldl PendingRequests.step s).futures.length < UINT64_MAX)
    (hdiscards : ∀ id, .discard id ∈ ops → entry.1 ≠ id) :
      (ops.foldl PendingRequests.step s).Tracked entry := by
  induction ops generalizing s with
  | nil => exact h
  | cons op ops ih =>
    have hshorter : (s.step op).futures.length < UINT64_MAX := by
      rw [List.foldl_cons, length_foldl] at hbound
      omega
    refine ih (h.step hsound fun id he ↦ hdiscards id (he ▸ List.mem_cons_self))
      (hsound.step hshorter) hbound ?_
    exact fun id hid ↦ hdiscards id (List.mem_cons_of_mem op hid)

end

/-- The books of a registry: its ids, its two tables, who set its futures, and
what comes too late for an id that was removed. -/
structure KeepsBooks (defaultTimeout : ℚ) (ops : List (PendingOp ρ ε)) : Prop where
  nonzero : ∀ p ∈ (run defaultTimeout ops).futures, p.correlationId ≠ 0
  distinct : ((run defaultTimeout ops).futures.map RequestFuture.correlationId).Nodup
  timed : ∀ id, (run defaultTimeout ops).timeouts.get id ≠ none →
    (run defaultTimeout ops).pending.get id ≠ none
  armed : ∀ handle : ℕ, (run defaultTimeout ops).timers[handle]? = some .armed →
    ∃ id, (run defaultTimeout ops).timeouts.get id = some (id, handle)
  once : ((run defaultTimeout ops).resolutions.map Prod.fst).Nodup
  resolver : ∀ r ∈ (run defaultTimeout ops).resolutions,
    ∃ p, (run defaultTimeout ops).futures[r.1]? = some p ∧ r.2.Names p.correlationId
  isSet : ∀ (f : ℕ) p, (run defaultTimeout ops).futures[f]? = some p →
    (p.state.IsSet ↔ f ∈ (run defaultTimeout ops).resolutions.map Prod.fst)
  late : ∀ before op after, ops = before ++ op :: after →
    ∀ p ∈ (run defaultTimeout before).futures, Removes p.correlationId op →
      ∀ op', IsLate p.correlationId op' → (run defaultTimeout ops).step op' = run defaultTimeout ops

theorem keepsBooks_of_few_allocations (defaultTimeout : ℚ) (ops : List (PendingOp ρ ε))
    (hbound : ops.countP PendingOp.isAllocate < UINT64_MAX) : KeepsBooks defaultTimeout ops := by
  have hsound := sound_run defaultTimeout ops hbound
  refine ⟨fun p hp ↦ ?_, ?_, hsound.timed, hsound.armed, hsound.settled.once, fun r hr ↦
    ?_, hsound.settled.isSet, ?_⟩
  · obtain ⟨f, hf⟩ := List.mem_iff_getElem?.mp hp
    rw [hsound.settled.ids f p hf]
    omega
  · have hids : (run defaultTimeout ops).futures.map RequestFuture.correlationId =
        List.range' 1 (run defaultTimeout ops).futures.length := by
      apply List.ext_getElem?
      intro f
      cases hf : (run defaultTimeout ops).futures[f]? with
      | none =>
        have hlt := List.getElem?_eq_none_iff.mp hf
        rw [List.getElem?_map, hf, List.getElem?_eq_none (by rw [List.length_range']; exact hlt)]
        rfl
      | some p =>
        have hlt := (List.getElem?_eq_some_iff.mp hf).1
        rw [List.getElem?_map, hf, List.getElem?_range' hlt, Option.map_some,
          hsound.settled.ids f p hf]
        congr 1
        omega
    rw [hids]
    exact List.nodup_range'
  · obtain ⟨hlt, hnames⟩ := hsound.settled.resolver r hr
    obtain ⟨p, hp⟩ : ∃ p, (run defaultTimeout ops).futures[r.1]? = some p :=
      ⟨_, List.getElem?_eq_getElem hlt⟩
    exact ⟨p, hp, hsound.settled.ids r.1 p hp ▸ hnames⟩
  · rintro before op after rfl p hp hremoves op' hlate
    have hbefore : before.countP PendingOp.isAllocate < UINT64_MAX := by
      rw [List.countP_append] at hbound
      omega
    obtain ⟨f, hf⟩ := List.mem_iff_getElem?.mp hp
    have hid : p.correlationId ≤ (run defaultTimeout before).futures.length := by
      rw [(sound_run defaultTimeout before hbefore).settled.ids f p hf]
      exact (List.getElem?_eq_some_iff.mp hf).1
    have hgone : (run defaultTimeout (before ++ [op])).Gone p.correlationId := by
      rw [run, List.foldl_append]
      exact gone_of_removes hid hremoves
    rw [← List.singleton_append, ← List.append_assoc] at hbound hsound ⊢
    exact (hgone.run hbound).late hsound hlate

theorem keepsBooks_late_reply :
    KeepsBooks 30
      ([.allocate none, .allocate (some 0), .discard 1, .complete 1 'a',
      .failAll (), .expire 2 ()] :
      List (PendingOp Char Unit)) :=
  keepsBooks_of_few_allocations 30 _ (by decide)

end PendingRequests

end Pyleans
