import Pyleans.Transport.ConnectionManager

namespace Pyleans

open Library

/-- Two silos that dial each other; a connection is named by the side that dialed it. -/
inductive Side
  | a
  | b
deriving DecidableEq

namespace Side

def other : Side → Side
  | a => b
  | b => a

@[simp] theorem other_ne (x : Side) : x.other ≠ x := by cases x <;> decide

theorem eq_or_eq_other (x y : Side) : x = y ∨ x = y.other := by cases x <;> cases y <;> decide

end Side

/-- How far an end of a connection is. While an open connection is closed for
it, a new one is in neither table of its manager. -/
inductive InstallStage
  | dialing
  | replacing (existing : Side)
  | installed
deriving DecidableEq

structure DialEnd where
  manager : ConnectionManager Side
  stage : Side → InstallStage

/-- `lost` is the end of stream that the read loop of a connection sees. -/
inductive DialEvent
  | install (conn : Side)
  | replaced (conn : Side)
  | lost (conn : Side)
  | monitor (conn : Side)

section

variable (silo : Side → SiloAddress)

namespace DialEnd

def start : DialEnd := ⟨.empty, fun _ ↦ .dialing⟩

def step (x : Side) (d : DialEnd) : DialEvent → Option DialEnd
  | .install conn =>
    match d.stage conn with
    | .dialing =>
      match d.manager.dedup (silo x.other) (silo conn) with
      | .free =>
        some ⟨d.manager.register conn (silo x.other) (silo conn),
          Function.update d.stage conn .installed⟩
      | .keep => some ⟨d.manager.close conn, Function.update d.stage conn .installed⟩
      | .replace existing =>
        some ⟨d.manager.takeOut (silo x.other), Function.update d.stage conn (.replacing existing)⟩
    | _ => none
  | .replaced conn =>
    match d.stage conn with
    | .replacing existing =>
      some ⟨(d.manager.close existing).register conn (silo x.other) (silo conn),
        Function.update d.stage conn .installed⟩
    | _ => none
  | .lost conn => if d.stage conn = .dialing then none else some ⟨d.manager.close conn, d.stage⟩
  | .monitor conn =>
    if d.manager.closed conn then some ⟨d.manager.monitorConnection (silo x.other) conn, d.stage⟩
    else none

end DialEnd

/-- Nothing is lost: an end sees its stream end only when the other end is closed. -/
def dialStep (s : Side → DialEnd) (e : Side × DialEvent) : Option (Side → DialEnd) :=
  match e with
  | (x, .lost conn) =>
    if (s x.other).manager.closed conn then
      ((s x).step silo x (.lost conn)).map fun d ↦ Function.update s x d
    else none
  | (x, e) => ((s x).step silo x e).map fun d ↦ Function.update s x d

end

/-- One end on its way to hold the connection `w` alone. -/
structure DialEnd.Leads (silo : Side → SiloAddress) (x w : Side) (d : DialEnd) : Prop where
  open_winner : d.manager.closed w = false
  loser e : d.stage w.other ≠ .replacing e
  replacing e : d.stage w = .replacing e → e = w.other ∧
    d.manager.connections (silo x.other) = none ∧
    d.stage w.other = .installed
  installed : d.stage w = .installed → d.manager.connections (silo x.other) = some w ∧
    d.manager.initiators (silo x.other) = some (silo w) ∧
    (d.stage w.other = .installed → d.manager.closed w.other = true)
  dialing : d.stage w = .dialing →
    (d.manager.connections (silo x.other) = some w.other ∧
      d.manager.initiators (silo x.other) = some (silo w.other) ∧ d.stage w.other = .installed) ∨
    (d.manager.connections (silo x.other) = none ∧
      (d.stage w.other = .installed → d.manager.closed w.other = true))

section

variable {silo : Side → SiloAddress} {x w : Side} {d d' : DialEnd}

theorem DialEnd.leads_start : DialEnd.start.Leads silo x w where
  open_winner := rfl
  loser _ h := nomatch h
  replacing _ h := nomatch h
  installed h := nomatch h
  dialing _ := .inr ⟨rfl, fun h ↦ nomatch h⟩

/-- The winner is registered as soon as nothing open is in its place. -/
theorem DialEnd.Leads.register (h : d.Leads silo x w)
    (hloser : d.stage w.other = .installed → d.manager.closed w.other = true) :
    (DialEnd.mk (d.manager.register w (silo x.other) (silo w))
      (Function.update d.stage w .installed)).Leads silo x w where
  open_winner := h.open_winner
  loser e := by
    dsimp only
    rw [Function.update_of_ne (Side.other_ne w)]
    exact h.loser e
  replacing e hstage := by
    dsimp only at hstage
    rw [Function.update_self] at hstage
    cases hstage
  installed _ := by
    dsimp only
    rw [Function.update_of_ne (Side.other_ne w)]
    exact ⟨ConnectionManager.register_connections, ConnectionManager.register_initiators, hloser⟩
  dialing hstage := by
    dsimp only at hstage
    rw [Function.update_self] at hstage
    cases hstage

theorem DialEnd.Leads.close_loser (h : d.Leads silo x w) :
    (DialEnd.mk (d.manager.close w.other) d.stage).Leads silo x w where
  open_winner := by
    dsimp only
    rw [ConnectionManager.close_closed, Function.update_of_ne (Side.other_ne w).symm]
    exact h.open_winner
  loser := h.loser
  replacing := h.replacing
  installed hstage := by
    obtain ⟨hconnection, hinitiator, -⟩ := h.installed hstage
    exact ⟨hconnection, hinitiator, fun _ ↦ Function.update_self ..⟩
  dialing hstage := by
    rcases h.dialing hstage with hloser | ⟨hnone, -⟩
    · exact .inl hloser
    · exact .inr ⟨hnone, fun _ ↦ Function.update_self ..⟩

/-- The winner finds no connection that is in its way, whatever was installed before. -/
theorem DialEnd.Leads.install_winner (h : d.Leads silo x w)
    (hlt : (silo w).siloId < (silo w.other).siloId) (hs : d.step silo x (.install w) = some d') :
    d'.Leads silo x w := by
  simp only [DialEnd.step] at hs
  split at hs
  next hstage =>
    rcases h.dialing hstage with ⟨hconnection, hinitiator, hinstalled⟩ | ⟨hnone, hloser⟩
    · cases hclosed : d.manager.closed w.other with
      | true =>
        rw [ConnectionManager.dedup_closed hconnection hclosed] at hs
        obtain rfl := Option.some.inj hs
        exact h.register fun _ ↦ hclosed
      | false =>
        rw [ConnectionManager.dedup_open hconnection hclosed hinitiator, if_neg (not_le.mpr hlt)]
          at hs
        obtain rfl := Option.some.inj hs
        have hother : Function.update d.stage w (.replacing w.other) w.other = d.stage w.other :=
          Function.update_of_ne (Side.other_ne w) ..
        refine ⟨h.open_winner, fun e ↦ ?_, fun e he ↦ ?_, fun he ↦ ?_, fun he ↦ ?_⟩
        · dsimp only
          rw [hother, hinstalled]
          exact InstallStage.noConfusion
        · dsimp only at he ⊢
          rw [Function.update_self] at he
          rw [hother]
          exact ⟨(InstallStage.replacing.inj he).symm,
            ConnectionManager.takeOut_connections, hinstalled⟩
        · dsimp only at he
          rw [Function.update_self] at he
          cases he
        · dsimp only at he
          rw [Function.update_self] at he
          cases he
    · rw [ConnectionManager.dedup_free hnone] at hs
      obtain rfl := Option.some.inj hs
      exact h.register hloser
  · cases hs

/-- The loser gives way to the winner, and takes the place only until the winner comes. -/
theorem DialEnd.Leads.install_loser (h : d.Leads silo x w)
    (hlt : (silo w).siloId < (silo w.other).siloId)
    (hs : d.step silo x (.install w.other) = some d') : d'.Leads silo x w := by
  simp only [DialEnd.step] at hs
  split at hs
  next hdialing =>
    have hwinner : ∀ e, Function.update d.stage w.other e w = d.stage w :=
      fun e ↦ Function.update_of_ne (Side.other_ne w).symm ..
    cases hstage : d.stage w with
    | replacing e =>
      rw [(h.replacing e hstage).2.2] at hdialing
      cases hdialing
    | dialing =>
      rcases h.dialing hstage with ⟨-, -, hinstalled⟩ | ⟨hnone, -⟩
      · rw [hinstalled] at hdialing
        cases hdialing
      rw [ConnectionManager.dedup_free hnone] at hs
      obtain rfl := Option.some.inj hs
      refine ⟨h.open_winner, fun e he ↦ ?_, fun e he ↦ ?_, fun he ↦ ?_, fun _ ↦ .inl ?_⟩
      · dsimp only at he
        rw [Function.update_self] at he
        cases he
      · dsimp only at he
        rw [hwinner, hstage] at he
        cases he
      · dsimp only at he
        rw [hwinner, hstage] at he
        cases he
      · exact ⟨ConnectionManager.register_connections, ConnectionManager.register_initiators,
          Function.update_self ..⟩
    | installed =>
      obtain ⟨hconnection, hinitiator, -⟩ := h.installed hstage
      rw [ConnectionManager.dedup_open hconnection h.open_winner hinitiator, if_pos hlt.le] at hs
      obtain rfl := Option.some.inj hs
      refine ⟨h.close_loser.open_winner, fun e he ↦ ?_, fun e he ↦ ?_, fun _ ↦ ?_, fun he ↦ ?_⟩
      · dsimp only at he
        rw [Function.update_self] at he
        cases he
      · dsimp only at he
        rw [hwinner, hstage] at he
        cases he
      · exact ⟨hconnection, hinitiator, fun _ ↦ Function.update_self ..⟩
      · dsimp only at he
        rw [hwinner, hstage] at he
        cases he
  · cases hs

theorem DialEnd.Leads.monitor (h : d.Leads silo x w) (hclosed : d.manager.closed w.other = true) :
    (DialEnd.mk (d.manager.monitorConnection (silo x.other) w.other) d.stage).Leads silo x w := by
  unfold ConnectionManager.monitorConnection
  split_ifs with hconnection
  · refine ⟨h.open_winner, h.loser, fun e he ↦ ?_, fun he ↦ ?_, fun _ ↦ ?_⟩
    · obtain ⟨rfl, -, hinstalled⟩ := h.replacing e he
      exact ⟨rfl, ConnectionManager.takeOut_connections, hinstalled⟩
    · have hw := (h.installed he).1.symm.trans hconnection
      exact absurd (Option.some.inj hw).symm (Side.other_ne w)
    · exact .inr ⟨ConnectionManager.takeOut_connections, fun _ ↦ hclosed⟩
  · exact h

theorem DialEnd.Leads.step {e : DialEvent} (h : d.Leads silo x w)
    (hlt : (silo w).siloId < (silo w.other).siloId) (hlost : e ≠ .lost w)
    (hs : d.step silo x e = some d') : d'.Leads silo x w := by
  cases e with
  | install conn =>
    rcases Side.eq_or_eq_other conn w with rfl | rfl
    · exact h.install_winner hlt hs
    · exact h.install_loser hlt hs
  | replaced conn =>
    simp only [DialEnd.step] at hs
    split at hs
    next existing hstage =>
      obtain rfl := Option.some.inj hs
      rcases Side.eq_or_eq_other conn w with rfl | rfl
      · obtain ⟨rfl, -, -⟩ := h.replacing existing hstage
        exact h.close_loser.register fun _ ↦ Function.update_self ..
      · exact absurd hstage (h.loser existing)
    · cases hs
  | lost conn =>
    simp only [DialEnd.step] at hs
    split_ifs at hs
    obtain rfl := Option.some.inj hs
    rcases Side.eq_or_eq_other conn w with rfl | rfl
    · exact absurd rfl hlost
    · exact h.close_loser
  | monitor conn =>
    simp only [DialEnd.step] at hs
    split_ifs at hs with hclosed
    obtain rfl := Option.some.inj hs
    rcases Side.eq_or_eq_other conn w with rfl | rfl
    · rw [h.open_winner] at hclosed
      cases hclosed
    · exact h.monitor hclosed

theorem leads_dialStep {s s' : Side → DialEnd} {e : Side × DialEvent}
    (h : ∀ x, (s x).Leads silo x w) (hlt : (silo w).siloId < (silo w.other).siloId)
    (hs : dialStep silo s e = some s') :
    ∀ x, (s' x).Leads silo x w := by
  obtain ⟨y, e⟩ := e
  have hstep : ∃ d, e ≠ .lost w ∧ (s y).step silo y e = some d ∧ Function.update s y d = s' := by
    cases e with
    | lost conn =>
      simp only [dialStep] at hs
      split_ifs at hs with hclosed
      obtain ⟨d, hd, hs'⟩ := Option.map_eq_some_iff.mp hs
      refine ⟨d, fun he ↦ ?_, hd, hs'⟩
      obtain rfl := DialEvent.lost.inj he
      rw [(h _).open_winner] at hclosed
      cases hclosed
    | install conn | replaced conn | monitor conn =>
      obtain ⟨d, hd, hs'⟩ := Option.map_eq_some_iff.mp hs
      exact ⟨d, DialEvent.noConfusion, hd, hs'⟩
  obtain ⟨d, hlost, hd, rfl⟩ := hstep
  intro x
  by_cases hx : x = y
  · subst hx
    rw [Function.update_self]
    exact (h x).step hlt hlost hd
  · rw [Function.update_of_ne hx]
    exact h x

/-- The same connection is left at both ends, the one that the silo with the smaller id dialed. -/
theorem ends_agree {s : Side → DialEnd} {events : List (Side × DialEvent)}
    (hlt : (silo w).siloId < (silo w.other).siloId)
    (h : exec (dialStep silo) (fun _ ↦ .start) events = some s)
    (hinstalled : ∀ x conn, (s x).stage conn = .installed) (x : Side) :
    (s x).manager.connections (silo x.other) = some w ∧ (s x).manager.closed w = false ∧
      (s x).manager.closed w.other = true := by
  have hleads : ∀ x, (s x).Leads silo x w :=
    (reachable_of_exec h).invariant (I := fun s ↦ ∀ x, (s x).Leads silo x w)
      (fun _ ↦ DialEnd.leads_start)
      fun s e s' hi _ hs ↦ leads_dialStep hi hlt hs
  obtain ⟨hconnection, -, hloser⟩ := (hleads x).installed (hinstalled x w)
  exact ⟨hconnection, (hleads x).open_winner, hloser (hinstalled x w.other)⟩

/-- Two silos that dial each other at the same time agree, whatever is installed
first at each end, on the connection of the silo with the smaller id. And at one
manager the first connection among those of the smallest initiator survives. -/
theorem simultaneous_dial_agreement :
    (∀ (silo : Side → SiloAddress) (w : Side), (silo w).siloId < (silo w.other).siloId →
      ∀ (events : List (Side × DialEvent)) (s : Side → DialEnd),
        exec (dialStep silo) (fun _ ↦ .start) events = some s →
          (∀ x conn, (s x).stage conn = .installed) →
          ∀ x, (s x).manager.connections (silo x.other) = some w ∧ (s x).manager.closed w = false ∧
            (s x).manager.closed w.other = true) ∧
    ∀ (κ : Type) [DecidableEq κ] (m : ConnectionManager κ) (remote : SiloAddress)
      (installs : List (κ × SiloAddress)),
      m.connections remote = none → (installs.map Prod.fst).Nodup →
        (∀ p ∈ installs, m.closed p.1 = false) →
        (m.installAll remote installs).connections remote =
          (installs.argmin fun p ↦ p.2.siloId).map Prod.fst ∧
          ∀ p ∈ installs, (m.installAll remote installs).closed p.1 = true ↔
            installs.argmin (fun p ↦ p.2.siloId) ≠ some p :=
  ⟨fun _ _ hlt _ _ h hinstalled ↦ ends_agree hlt h hinstalled,
    fun _ _ _ _ _ hnone hnodup hopen ↦ ConnectionManager.survivor_of_installs hnone hnodup hopen⟩

def dialedSilo : Side → SiloAddress
  | .a => siloA
  | .b => siloB

def dialTogether : List (Side × DialEvent) :=
  [(.a, .install .a), (.b, .install .b), (.a, .install .b), (.b, .lost .b), (.b, .install .a),
    (.b, .monitor .b)]

theorem simultaneous_dial_agreement_dialTogether : ∃ s,
    exec (dialStep dialedSilo) (fun _ ↦ .start) dialTogether = some s ∧
      (∀ x, (s x).manager.connections (dialedSilo x.other) = some .a ∧
        (s x).manager.closed .a = false ∧
        (s x).manager.closed .b = true) ∧
      ((ConnectionManager.empty.installAll siloB [(0, siloB), (1, siloA), (2, siloA)]).connections
        siloB = some 1) := by
  have hruns : (exec (dialStep dialedSilo) (fun _ ↦ .start) dialTogether).map
      (fun s ↦ ((s .a).stage .a, (s .a).stage .b, (s .b).stage .a, (s .b).stage .b)) =
      some (.installed, .installed, .installed, .installed) := by decide +kernel
  obtain ⟨s, hs, hend⟩ := Option.map_eq_some_iff.mp hruns
  have hinstalled : ∀ x conn, (s x).stage conn = .installed := by
    simp only [Prod.mk.injEq] at hend
    obtain ⟨haa, hab, hba, hbb⟩ := hend
    intro x conn
    cases x <;> cases conn <;> assumption
  have hlt : (dialedSilo .a).siloId < (dialedSilo .b).siloId := by decide +kernel
  refine ⟨s, hs, simultaneous_dial_agreement.1 dialedSilo .a hlt dialTogether s hs hinstalled, ?_⟩
  have hsurvivor := simultaneous_dial_agreement.2 ℕ .empty siloB
    [(0, siloB), (1, siloA), (2, siloA)] rfl (by decide)
    fun _ _ ↦ rfl
  rw [hsurvivor.1]
  decide +kernel

end

end Pyleans
