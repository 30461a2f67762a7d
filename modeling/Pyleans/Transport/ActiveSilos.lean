import Mathlib.Data.Finset.Lattice.Union
import Mathlib.Data.Finset.SDiff
import Pyleans.Identity
import Pyleans.Library.Pool
import Pyleans.Library.Transition

namespace Pyleans

open Library

/-- Where a call of `update_active_silos` waits, with the silos it has yet to disconnect. -/
inductive UpdatePhase
  | disconnecting (rest : List SiloAddress)
  | cancellingReconnect (silo : SiloAddress) (rest : List SiloAddress)
  | closing (silo : SiloAddress) (rest : List SiloAddress)
  | finished
deriving DecidableEq

/-- The silos a connection manager is to be connected to, and the calls that change them. -/
structure ActiveSilos where
  localSilo : SiloAddress
  active : Finset SiloAddress
  calls : List UpdatePhase

/-- What may happen next. A new call goes through the removed silos in an order of its own. -/
inductive ActiveSilosEvent
  | update (silos : Finset SiloAddress) (newlyGone : List SiloAddress)
  | disconnect (call : ℕ)
  | discard (call : ℕ)
  | closed (call : ℕ)
  | returned (call : ℕ)

def UpdatePhase.doomed : UpdatePhase → Finset SiloAddress
  | .disconnecting rest | .closing _ rest => rest.toFinset
  | .cancellingReconnect silo rest => (silo :: rest).toFinset
  | .finished => ∅

namespace ActiveSilos

def new (localSilo : SiloAddress) : ActiveSilos := ⟨localSilo, ∅, []⟩

def step (s : ActiveSilos) : ActiveSilosEvent → Option ActiveSilos
  | .update silos newlyGone =>
    let active := silos.erase s.localSilo
    if newlyGone.Nodup ∧ newlyGone.toFinset = s.active \ active then
      some { s with active := active, calls := s.calls ++ [.disconnecting newlyGone] }
    else none
  | .disconnect call =>
    match s.calls[call]? with
    | some (.disconnecting (silo :: rest)) =>
      some { s with calls := s.calls.set call (.cancellingReconnect silo rest) }
    | _ => none
  | .discard call =>
    match s.calls[call]? with
    | some (.cancellingReconnect silo rest) =>
      some { s with active := s.active.erase silo, calls := s.calls.set call (.closing silo rest) }
    | _ => none
  | .closed call =>
    match s.calls[call]? with
    | some (.closing _ rest) => some { s with calls := s.calls.set call (.disconnecting rest) }
    | _ => none
  | .returned call =>
    match s.calls[call]? with
    | some (.disconnecting []) => some { s with calls := s.calls.set call .finished }
    | _ => none

def Doomed (s : ActiveSilos) (silo : SiloAddress) : Prop := ∃ c ∈ s.calls, silo ∈ c.doomed

/-- The silos that stay active unless another call comes. -/
def Lasting (s : ActiveSilos) (silo : SiloAddress) : Prop := silo ∈ s.active ∧ ¬ s.Doomed silo

variable {s s' m : ActiveSilos} {silo localSilo : SiloAddress} {call : ℕ} {c c' : UpdatePhase}

theorem step_localSilo {e : ActiveSilosEvent} (h : s.step e = some s') :
    s'.localSilo = s.localSilo := by
  cases e <;> simp only [step] at h <;> split at h <;> cases h <;> rfl

theorem doomed_set (hc : s.calls[call]? = some c) (active : Finset SiloAddress) :
    Doomed { s with active := active, calls := s.calls.set call c' } silo ↔
      silo ∈ c'.doomed ∨ ∃ i d, i ≠ call ∧ s.calls[i]? = some d ∧ silo ∈ d.doomed := by
  constructor
  · rintro ⟨d, hd, hsilo⟩
    obtain ⟨i, hi⟩ := List.mem_iff_getElem?.mp hd
    rcases (getElem?_replaced hc).mp hi with ⟨-, rfl⟩ | ⟨hne, hi⟩
    · exact .inl hsilo
    · exact .inr ⟨i, d, hne, hi, hsilo⟩
  · rintro (hsilo | ⟨i, d, hne, hi, hsilo⟩)
    · exact ⟨c', List.mem_of_getElem? ((getElem?_replaced hc).mpr (.inl ⟨rfl, rfl⟩)), hsilo⟩
    · exact ⟨d, List.mem_of_getElem? ((getElem?_replaced hc).mpr (.inr ⟨hne, hi⟩)), hsilo⟩

theorem doomed_iff (hc : s.calls[call]? = some c) :
    s.Doomed silo ↔ silo ∈ c.doomed ∨ ∃ i d, i ≠ call ∧ s.calls[i]? = some d ∧ silo ∈ d.doomed := by
  have hset : s.calls.set call c = s.calls := by
    obtain ⟨hlt, rfl⟩ := List.getElem?_eq_some_iff.mp hc
    exact List.set_getElem_self hlt
  rw [← doomed_set hc s.active, hset]

theorem lasting_set (hc : s.calls[call]? = some c) (hsame : c'.doomed = c.doomed) :
    Lasting { s with calls := s.calls.set call c' } silo ↔ s.Lasting silo := by
  refine and_congr_right fun _ ↦ not_congr ?_
  rw [doomed_set hc s.active, doomed_iff hc, hsame]

theorem lasting_discard {gone : SiloAddress} {rest : List SiloAddress}
    (hc : s.calls[call]? = some (.cancellingReconnect gone rest)) :
    Lasting { s with active := s.active.erase gone, calls := s.calls.set call (.closing gone rest) }
      silo ↔
      s.Lasting silo := by
  unfold Lasting
  rw [doomed_set hc, doomed_iff hc]
  simp only [UpdatePhase.doomed, Finset.mem_erase, List.mem_toFinset, List.mem_cons]
  constructor
  · rintro ⟨⟨hne, hactive⟩, hrest⟩
    exact ⟨hactive, fun h ↦ hrest (h.imp_left fun h ↦ h.resolve_left hne)⟩
  · rintro ⟨hactive, hrest⟩
    exact ⟨⟨fun he ↦ hrest (.inl (.inl he)), hactive⟩, fun h ↦ hrest (h.imp_left .inr)⟩

theorem lasting_step {e : ActiveSilosEvent} (he : ∀ silos newlyGone, e ≠ .update silos newlyGone)
    (h : s.step e = some s') :
    s'.Lasting silo ↔ s.Lasting silo := by
  cases e with
  | update silos newlyGone => exact absurd rfl (he silos newlyGone)
  | disconnect call =>
    simp only [step] at h
    split at h
    · next hc =>
      cases h
      exact lasting_set hc rfl
    · cases h
  | discard call =>
    simp only [step] at h
    split at h
    · next hc =>
      cases h
      exact lasting_discard hc
    · cases h
  | closed call =>
    simp only [step] at h
    split at h
    · next hc =>
      cases h
      exact lasting_set hc rfl
    · cases h
  | returned call =>
    simp only [step] at h
    split at h
    · next hc =>
      cases h
      exact lasting_set hc rfl
    · cases h

theorem lasting_run {events : List ActiveSilosEvent}
    (he : ∀ silos newlyGone, .update silos newlyGone ∉ events) (h : exec step s events = some s') :
    s'.Lasting silo ↔ s.Lasting silo := by
  induction events generalizing s with
  | nil => rw [Option.some.inj h]
  | cons e events ih =>
    obtain ⟨m, hstep, hrest⟩ := exec_cons.mp h
    rw [ih (fun silos gone hmem ↦ he silos gone (List.mem_cons_of_mem e hmem)) hrest]
    exact lasting_step (fun silos gone heq ↦ he silos gone (heq ▸ List.mem_cons_self)) hstep

theorem localSilo_run {events : List ActiveSilosEvent} (h : exec step s events = some s') :
    s'.localSilo = s.localSilo :=
  (reachable_of_exec h).invariant (I := fun t ↦ t.localSilo = s.localSilo) rfl
    fun _ _ _ ht _ hstep ↦ (step_localSilo hstep).trans ht

/-- What lasts when a call has begun: its argument but for what an earlier call has yet to
discard. -/
theorem lasting_update {silos : Finset SiloAddress} {newlyGone : List SiloAddress}
    (h : s.step (.update silos newlyGone) = some s') :
    s'.Lasting silo ↔ silo ∈ silos.erase s.localSilo ∧ ¬ s.Doomed silo := by
  simp only [step] at h
  split_ifs at h with hgone
  cases h
  refine and_congr_right fun hactive ↦
    not_congr ⟨?_, fun ⟨c, hc, hsilo⟩ ↦ ⟨c, List.mem_append_left _ hc, hsilo⟩⟩
  rintro ⟨c, hc, hsilo⟩
  rcases List.mem_append.mp hc with hc | hc
  · exact ⟨c, hc, hsilo⟩
  · rw [List.mem_singleton.mp hc, UpdatePhase.doomed, hgone.2] at hsilo
    exact absurd hactive (Finset.mem_sdiff.mp hsilo).2

theorem lasting_of_finished (h : ∀ c ∈ s.calls, c = .finished) :
    s.Lasting silo ↔ silo ∈ s.active := by
  refine and_iff_left ?_
  rintro ⟨c, hc, hsilo⟩
  rw [h c hc] at hsilo
  cases hsilo

/-- After the last of the calls, once all have returned, the silos it asked for are active. -/
def KeepsLastAsked (localSilo : SiloAddress) (events : List ActiveSilosEvent) : Prop :=
  ∀ before silos newlyGone after s, events = before ++ .update silos newlyGone :: after →
    (∀ silos newlyGone, .update silos newlyGone ∉ after) →
      exec step (new localSilo) events = some s →
    (∀ c ∈ s.calls, c = .finished) → s.active = silos.erase localSilo

/-- The last of the calls asks for no silo that an earlier one has yet to disconnect. -/
def AsksForNoneDoomed (localSilo : SiloAddress) (events : List ActiveSilosEvent) : Prop :=
  ∀ before silos newlyGone after s, events = before ++ .update silos newlyGone :: after →
    (∀ silos newlyGone, .update silos newlyGone ∉ after) →
      exec step (new localSilo) before = some s →
    ∀ silo ∈ silos.erase localSilo, ¬ s.Doomed silo

/-- The set is what was last asked for if and only if it names no silo that is still to be
discarded. -/
theorem keepsLastAsked_iff (localSilo : SiloAddress) (events : List ActiveSilosEvent)
    {s : ActiveSilos} (hrun : exec step (new localSilo) events = some s)
    (hfinished : ∀ c ∈ s.calls, c = .finished) :
    KeepsLastAsked localSilo events ↔ AsksForNoneDoomed localSilo events := by
  have hactive : ∀ before silos newlyGone after m,
    events = before ++ .update silos newlyGone :: after →
      (∀ silos newlyGone, .update silos newlyGone ∉ after) →
        exec step (new localSilo) before = some m →
      ∀ silo, silo ∈ s.active ↔ silo ∈ silos.erase localSilo ∧ ¬ m.Doomed silo := by
    rintro before silos newlyGone after m rfl hlast hm silo
    obtain ⟨m', hm', hrest⟩ := exec_append.mp hrun
    obtain rfl := Option.some.inj (hm.symm.trans hm')
    obtain ⟨n, hupdate, hafter⟩ := exec_cons.mp hrest
    have hlocal : m.localSilo = localSilo := localSilo_run hm
    rw [← lasting_of_finished hfinished, lasting_run hlast hafter, lasting_update hupdate, hlocal]
  constructor
  · intro hkeeps before silos newlyGone after m hevents hlast hm silo hsilo
    have hsame := hkeeps before silos newlyGone after s hevents hlast hrun hfinished
    exact ((hactive before silos newlyGone after m hevents hlast hm silo).mp (hsame ▸ hsilo)).2
  · intro hnone before silos newlyGone after t hevents hlast ht _
    obtain rfl := Option.some.inj (hrun.symm.trans ht)
    obtain ⟨m, hm, -⟩ := exec_append.mp (hevents ▸ hrun)
    ext silo
    rw [hactive before silos newlyGone after m hevents hlast hm silo]
    exact and_iff_left_of_imp (hnone before silos newlyGone after m hevents hlast hm silo)

def otherDuringRemoval : List ActiveSilosEvent :=
  [.update {siloB} [], .returned 0, .update ∅ [siloB], .disconnect 1, .update {siloC} [],
    .discard 1, .returned 2, .closed 1, .returned 1]

theorem keepsLastAsked_otherDuringRemoval :
    KeepsLastAsked siloA otherDuringRemoval ↔ AsksForNoneDoomed siloA otherDuringRemoval :=
  keepsLastAsked_iff siloA otherDuringRemoval
    (s := ⟨siloA, {siloC}, [.finished, .finished, .finished]⟩) (by rfl) (by decide)

/-- Two silos are removed, and while the connection to the first is closed the second is added
again. -/
def addedDuringRemoval : List ActiveSilosEvent :=
  [.update {siloB, siloC} [], .returned 0, .update ∅ [siloB, siloC], .disconnect 1, .discard 1,
    .update {siloC} [], .returned 2, .closed 1, .disconnect 1, .discard 1, .closed 1, .returned 1]

theorem addedDuringRemoval_lost : ¬ ∀ localSilo events, KeepsLastAsked localSilo events := by
  intro h
  have hend : (exec step (new siloA) addedDuringRemoval).map (fun s ↦ (s.active, s.calls)) =
      some (∅, [.finished, .finished, .finished]) := by decide
  obtain ⟨s, hrun, hs⟩ := Option.map_eq_some_iff.mp hend
  obtain ⟨hactive, hcalls⟩ := Prod.mk.inj hs
  have hlast := h siloA addedDuringRemoval
    [.update {siloB, siloC} [], .returned 0, .update ∅ [siloB, siloC], .disconnect 1, .discard 1]
    {siloC} [] _ s rfl (by simp) hrun (by rw [hcalls]; decide)
  rw [hactive] at hlast
  exact absurd hlast (by decide)

end ActiveSilos

end Pyleans
