import Pyleans.Transport.LinkTasks

namespace Pyleans

open Library

namespace SiloLink

variable {s s' : SiloLink} {task t d v : ℕ} {p q : LinkPhase} {role : TaskRole} {who : Installer}
  {caller : Caller}

def attempt (s : SiloLink) (t : ℕ) : Option ℕ :=
  match s.tasks[t]? with
  | some (.awaiting _ d _) => some d
  | _ => none

def Awaits (s : SiloLink) (t d : ℕ) : Prop :=
  ∃ caller owner, s.tasks[t]? = some (.awaiting caller d owner)

theorem attempt_eq_some : s.attempt t = some d ↔ s.Awaits t d := by
  unfold attempt Awaits
  split
  · next ht => simp [ht]
  · next hother =>
    refine ⟨nofun, fun ⟨caller, owner, ht⟩ ↦ (hother caller d owner ht).elim⟩

def IsCancelled (s : SiloLink) (d : ℕ) : Prop :=
  d ∈ s.thrown ∨ s.tasks[d]? = some (.finished .cancelled)

def Flagged (s : SiloLink) : Prop := ∀ t ∈ s.thrown, t < s.tasks.length ∧ t ∈ s.asked

/-- Whoever waits for a cancelled attempt has been cancelled too. -/
structure Unharmed (s : SiloLink) : Prop where
  flagged : s.Flagged
  asked : ∀ t d, s.Awaits t d → s.IsCancelled d → t ∈ s.asked ∨ s.stopped = true

/-- What cancels no attempt that somebody waits for, and lets nobody wait for a cancelled one. -/
structure Spares (s s' : SiloLink) : Prop where
  flagged : s.Flagged → s'.Flagged
  stopped : s.stopped = true → s'.stopped = true
  asked : ∀ t ∈ s.asked, t ∈ s'.asked
  awaits : ∀ t d, s'.Awaits t d → s.Awaits t d ∨ ¬ s'.IsCancelled d
  cancelled : ∀ d, s'.IsCancelled d → s.IsCancelled d ∨ ∀ t, ¬ s.Awaits t d

theorem Unharmed.spare (h : s.Unharmed) (hspares : Spares s s') : s'.Unharmed := by
  refine ⟨hspares.flagged h.flagged, fun t d hawaits hcancelled ↦ ?_⟩
  have hold := (hspares.awaits t d hawaits).resolve_right fun hnot ↦ hnot hcancelled
  have hbefore := (hspares.cancelled d hcancelled).resolve_right fun hnone ↦ hnone t hold
  exact (h.asked t d hold hbefore).imp (hspares.asked t) hspares.stopped

theorem Typed.not_awaited (h : s.Typed) (hplays : s.Plays role v) (hrole : role ≠ .dial)
    (hdone : s.isDone v = false) (t : ℕ) :
    ¬ s.Awaits t v := by
  rintro ⟨caller, owner, ht⟩
  obtain ⟨p, hp, hdial⟩ := h.awaited t _ ht v (List.mem_singleton.mpr rfl) .dial rfl
  obtain ⟨p', hp', hother⟩ := hplays
  obtain rfl := Option.some.inj (hp.symm.trans hp')
  obtain ⟨p'', hp'', hunfinished⟩ := isDone_eq_false.mp hdone
  obtain rfl := Option.some.inj (hp.symm.trans hp'')
  have hsame := (hother.resolve_left hunfinished).symm.trans (hdial.resolve_left hunfinished)
  exact hrole (Option.some.inj hsame)

/-- What goes before a task comes to its next wait: all who waited still do. -/
structure Prepares (s s' : SiloLink) : Prop where
  flagged : s.Flagged → s'.Flagged
  stopped : s.stopped = true → s'.stopped = true
  asked : ∀ t ∈ s.asked, t ∈ s'.asked
  awaits : ∀ t d, s'.Awaits t d ↔ s.Awaits t d
  cancelled : ∀ d, s'.IsCancelled d → s.IsCancelled d ∨ ∀ t, ¬ s.Awaits t d

theorem Prepares.spares (h : Prepares s s') : Spares s s' :=
  ⟨h.flagged, h.stopped, h.asked, fun t d ht ↦ .inl ((h.awaits t d).mp ht), h.cancelled⟩

theorem Prepares.trans {m : SiloLink} (h : Prepares s m) (h' : Prepares m s') : Prepares s s' where
  flagged hs := h'.flagged (h.flagged hs)
  stopped hs := h'.stopped (h.stopped hs)
  asked t ht := h'.asked t (h.asked t ht)
  awaits t d := (h'.awaits t d).trans (h.awaits t d)
  cancelled d hd := by
    rcases h'.cancelled d hd with hd | hnone
    · exact h.cancelled d hd
    · exact .inr fun t ht ↦ hnone t ((h.awaits t d).mpr ht)

theorem Prepares.then {m : SiloLink} (h : Prepares s m) (h' : Spares m s') : Spares s s' where
  flagged hs := h'.flagged (h.flagged hs)
  stopped hs := h'.stopped (h.stopped hs)
  asked t ht := h'.asked t (h.asked t ht)
  awaits t d ht := (h'.awaits t d ht).imp_left (h.awaits t d).mp
  cancelled d hd := by
    rcases h'.cancelled d hd with hd | hnone
    · exact h.cancelled d hd
    · exact .inr fun t ht ↦ hnone t ((h.awaits t d).mpr ht)

theorem prepares_same (htasks : s'.tasks = s.tasks) (hthrown : ∀ t ∈ s'.thrown, t ∈ s.thrown)
    (hasked : s'.asked = s.asked) (hstopped : s.stopped = true → s'.stopped = true) :
      Prepares s s' := by
  refine ⟨fun hs t ht ↦ ?_, hstopped, hasked ▸ fun _ h ↦ h, fun t d ↦ ?_, fun d h ↦ .inl ?_⟩
  · rw [htasks, hasked]
    exact hs t (hthrown t ht)
  · unfold Awaits
    rw [htasks]
  · exact h.imp (hthrown d) fun h ↦ htasks ▸ h

theorem prepares_spawn (htasks : s'.tasks = s.tasks ++ [q]) (hthrown : s'.thrown = s.thrown)
    (hasked : s'.asked = s.asked) (hstopped : s.stopped = true → s'.stopped = true)
    (hwait : ∀ caller d owner, q ≠ .awaiting caller d owner) (hend : q ≠ .finished .cancelled) :
    Prepares s s' := by
  refine ⟨fun hs t ht ↦ ?_, hstopped, hasked ▸ fun _ h ↦ h, fun t d ↦ ?_, fun d h ↦ .inl ?_⟩
  · rw [htasks, hasked, List.length_append]
    exact (hs t (hthrown ▸ ht)).imp_left fun hlt ↦ hlt.trans_le (Nat.le_add_right _ _)
  · unfold Awaits
    rw [htasks]
    refine exists₂_congr fun caller owner ↦ ⟨fun h ↦ ?_, fun h ↦ getElem?_grown.mpr (.inl h)⟩
    exact (getElem?_grown.mp h).resolve_right fun hnew ↦ hwait caller d owner hnew.2
  · rcases h with h | h
    · exact .inl (hthrown ▸ h)
    · rw [htasks] at h
      exact .inr ((getElem?_grown.mp h).resolve_right fun hnew ↦ hend hnew.2)

theorem spares_goto (hp : s.tasks[task]? = some p)
    (hawait : ∀ caller d owner, q = .awaiting caller d owner → ¬ (s.goto task q).IsCancelled d)
    (hend : q = .finished .cancelled → s.IsCancelled task ∨ ∀ t, ¬ s.Awaits t task) : Spares s
      (s.goto task q) := by
  refine ⟨fun hs t ht ↦ ?_, id, fun _ h ↦ h, fun t d ht ↦ ?_, fun d hd ↦ ?_⟩
  · exact (hs t ht).imp_left fun hlt ↦ hlt.trans_eq List.length_set.symm
  · obtain ⟨caller, owner, ht⟩ := ht
    rcases (getElem?_replaced hp).mp ht with ⟨-, rfl⟩ | ⟨-, ht⟩
    · exact .inr (hawait caller d owner rfl)
    · exact .inl ⟨caller, owner, ht⟩
  · rcases hd with hd | hd
    · exact .inl (.inl hd)
    · rcases (getElem?_replaced hp).mp hd with ⟨rfl, rfl⟩ | ⟨-, hd⟩
      · exact hend rfl
      · exact .inl (.inr hd)

theorem spares_goto_other (hp : s.tasks[task]? = some p)
    (hwait : ∀ caller d owner, q ≠ .awaiting caller d owner) (hend : q ≠ .finished .cancelled) :
    Spares s (s.goto task q) :=
  spares_goto hp (fun caller d owner he ↦ absurd he (hwait caller d owner)) fun he ↦ absurd he hend

section

variable (hp : s.tasks[task]? = some p) (hnone : ∀ t, ¬ s.Awaits t task)
include hp hnone

theorem spares_finish (result : LinkEnd) : Spares s (s.goto task (.finished result)) :=
  spares_goto hp nofun fun _ ↦ .inr hnone

theorem spares_endLoop (result : LinkEnd) : Spares s (s.endLoop task result) := by
  have htable : ∀ entry,
    Spares s ({ s with reconnectTask := entry }.goto task (.finished result)) := by
    intro entry
    have hsame : Prepares s { s with reconnectTask := entry } :=
      prepares_same rfl (fun _ h ↦ h) rfl id
    exact hsame.then (spares_finish (s := { s with reconnectTask := entry }) hp hnone result)
  exact htable _

theorem spares_schedule_finish :
    Spares s (s.scheduleReconnect.goto task (.finished .returned)) := by
  unfold scheduleReconnect
  split
  · exact spares_finish hp hnone _
  · have hspawn : Prepares s
      ({ s with reconnectTask := some s.tasks.length }.spawn .reconnecting) :=
      prepares_spawn rfl rfl rfl id nofun nofun
    exact hspawn.then (spares_goto_other (getElem?_grown.mpr (.inl hp)) nofun nofun)

theorem spares_reconnectLoop (attempt : ℕ) : Spares s (s.reconnectLoop task attempt) := by
  unfold reconnectLoop
  split_ifs
  · exact spares_goto_other hp nofun nofun
  · exact spares_endLoop hp hnone _
  · exact spares_endLoop hp hnone _

theorem spares_connected (result : LinkEnd) : Spares s (s.connected task result caller) := by
  cases caller with
  | user => exact spares_finish hp hnone _
  | eager =>
    simp only [connected]
    split
    · exact spares_finish hp hnone _
    · split_ifs
      · exact spares_schedule_finish hp hnone
      · exact spares_finish hp hnone _
    · exact spares_finish hp hnone _
    · exact spares_finish hp hnone _
  | loop attempt =>
    simp only [connected]
    split
    · exact spares_reconnectLoop hp hnone _
    · exact spares_reconnectLoop hp hnone _
    · exact spares_endLoop hp hnone _
    · exact spares_endLoop hp hnone _
    · exact spares_endLoop hp hnone _

theorem spares_awaited (pending : ℕ) (owner : Bool) (result : LinkEnd) :
    Spares s (s.awaited task caller pending owner result) := by
  have htable : ∀ entry,
    Spares s ({ s with pendingConnect := entry }.connected task result caller) := by
    intro entry
    have hsame : Prepares s { s with pendingConnect := entry } :=
      prepares_same rfl (fun _ h ↦ h) rfl id
    exact hsame.then (spares_connected (s := { s with pendingConnect := entry }) hp hnone result)
  exact htable _

/-- A call joins an attempt that was not cancelled, or makes a new one. -/
theorem spares_connect (hjoins : ∀ d, s.pendingConnect = some d → ¬ s.IsCancelled d)
    (hflagged : s.Flagged) : Spares s (s.connect task caller) := by
  unfold connect
  split_ifs
  · exact spares_connected hp hnone _
  · split
    · exact spares_connected hp hnone _
    · split
      · next pending hpending =>
        refine spares_goto hp (fun caller' d owner he ↦ ?_) nofun
        cases he
        rintro (hd | hd)
        · exact hjoins _ hpending (.inl hd)
        · rcases (getElem?_replaced hp).mp hd with ⟨-, he⟩ | ⟨-, hd⟩
          · cases he
          · exact hjoins _ hpending (.inr hd)
      · have hspawn : Prepares s
          ({ s with pendingConnect := some s.tasks.length }.spawn (.handshaking .dial)) :=
          prepares_spawn rfl rfl rfl id nofun nofun
        refine hspawn.then (spares_goto (getElem?_grown.mpr (.inl hp))
          (fun caller' d owner he ↦ ?_) nofun)
        cases he
        rintro (hd | hd)
        · exact absurd (hflagged _ hd).1 (lt_irrefl _)
        · rcases (getElem?_replaced (getElem?_grown.mpr (.inl hp))).mp hd with ⟨-, he⟩ | ⟨-, hd⟩
          · cases he
          · rcases getElem?_grown.mp hd with hd | ⟨-, he⟩
            · exact absurd (List.getElem?_eq_some_iff.mp hd).1 (lt_irrefl _)
            · cases he

end

/-- The tasks whose `cancel` is called when that of a task is. -/
def reached : ℕ → SiloLink → ℕ → List ℕ
  | 0, _, _ => []
  | bound + 1, s, task =>
    if s.isDone task then []
    else
      task ::
        match (s.tasks[task]?).bind fun phase ↦ phase.waitsFor.find? fun t ↦ !s.isDone t with
        | some awaited => reached bound s awaited
        | none => []

def SparesOthers (s : SiloLink) (t : ℕ) : Prop :=
  ∀ d ∈ s.attempt t, s.isDone d = false → ∀ u ∈ List.range s.tasks.length, s.attempt u = some d →
    u = t ∨ u ∈ s.asked

theorem isDone_congr (htasks : s'.tasks = s.tasks) : s'.isDone = s.isDone := by
  funext t
  unfold isDone
  rw [htasks]

theorem reached_congr (htasks : s'.tasks = s.tasks) (bound task : ℕ) :
    reached bound s' task = reached bound s task := by
  induction bound generalizing task with
  | zero => rfl
  | succ bound ih =>
    unfold reached
    simp only [isDone_congr htasks, htasks, ih]

/-- `cancel` reaches a chain of tasks, and is thrown into the last. -/
theorem cancelTask_reaches (bound : ℕ) (s : SiloLink) (task : ℕ) :
    (∀ u ∈ s.asked, u ∈ (cancelTask bound s task).asked) ∧
    (∀ u ∈ reached bound s task, u ∈ (cancelTask bound s task).asked) ∧
    ∀ v ∈ (cancelTask bound s task).thrown, v ∈ s.thrown ∨
      (s.isDone v = false ∧ v ∈ (cancelTask bound s task).asked ∧
      (v = task ∨ ∃ u ∈ reached bound s task, ∃ p, s.tasks[u]? = some p ∧ v ∈ p.waitsFor)) := by
  induction bound generalizing s task with
  | zero => exact ⟨fun _ h ↦ h, fun _ h ↦ absurd h List.not_mem_nil, fun _ h ↦ .inl h⟩
  | succ bound ih =>
    unfold cancelTask reached
    by_cases hdone : s.isDone task
    · simp only [hdone, if_true]
      exact ⟨fun _ h ↦ h, fun _ h ↦ absurd h List.not_mem_nil, fun _ h ↦ .inl h⟩
    · simp only [hdone, if_false, Bool.false_eq_true]
      obtain ⟨p, hp, -⟩ := isDone_eq_false.mp (Bool.eq_false_iff.mpr hdone)
      have hsame : ∀ t, isDone { s with asked := task :: s.asked } t = s.isDone t := fun _ ↦ rfl
      simp only [hp, Option.bind_some, hsame]
      cases hfind : p.waitsFor.find? fun t ↦ !s.isDone t with
      | none =>
        have hasked : ∀ u ∈ s.asked, u ∈ task :: s.asked := fun u ↦ List.mem_cons_of_mem task
        have hself : ∀ u ∈ [task], u ∈ task :: s.asked :=
          fun u hu ↦ List.mem_cons.mpr (.inl (List.mem_singleton.mp hu))
        dsimp only
        split_ifs
        · exact ⟨hasked, hself, fun _ h ↦ .inl h⟩
        · refine ⟨hasked, hself, fun v hv ↦ ?_⟩
          rcases List.mem_cons.mp hv with rfl | hv
          · exact .inr ⟨Bool.eq_false_iff.mpr hdone, List.mem_cons_self, .inl rfl⟩
          · exact .inl hv
      | some awaited =>
        obtain ⟨hasked, hreached, hthrown⟩ := ih { s with asked := task :: s.asked } awaited
        have htasks : SiloLink.tasks { s with asked := task :: s.asked } = s.tasks := rfl
        rw [reached_congr htasks] at hreached hthrown
        refine ⟨fun u hu ↦ hasked u (List.mem_cons_of_mem task hu), fun u hu ↦ ?_, fun v hv ↦ ?_⟩
        · rcases List.mem_cons.mp hu with rfl | hu
          · exact hasked u List.mem_cons_self
          · exact hreached u hu
        · refine (hthrown v hv).imp_right ?_
          rintro ⟨hv, hcalled, hfrom⟩
          refine ⟨hv, hcalled, .inr ?_⟩
          rcases hfrom with rfl | ⟨u, hu, r, hr, hmem⟩
          · exact ⟨task, List.mem_cons_self, p, hp, List.mem_of_find?_eq_some hfind⟩
          · exact ⟨u, List.mem_cons_of_mem task hu, r, hr, hmem⟩

theorem Flagged.cancel (h : s.Flagged) (t : ℕ) : (s.cancel t).Flagged := by
  intro v hv
  have htasks : (s.cancel t).tasks = s.tasks := by
    obtain ⟨thrown, asked, hcancel⟩ := exists_cancel s t
    rw [hcancel]
  obtain ⟨hasked, -, hthrown⟩ := cancelTask_reaches (s.tasks.length + 1) s t
  rw [htasks]
  rcases hthrown v hv with hv | ⟨hv, hcalled, -⟩
  · exact (h v hv).imp_right (hasked v)
  · obtain ⟨p, hp, -⟩ := isDone_eq_false.mp hv
    exact ⟨(List.getElem?_eq_some_iff.mp hp).1, hcalled⟩

/-- A cancellation that only goes on to attempts nobody else waits for. -/
theorem Unharmed.cancel (h : s.Unharmed) (htyped : s.Typed) (hnone : ∀ u, ¬ s.Awaits u t)
    (hspares : ∀ u ∈ reached (s.tasks.length + 1) s t, s.SparesOthers u) :
    (s.cancel t).Unharmed := by
  obtain ⟨hasked, hreached, hthrown⟩ := cancelTask_reaches (s.tasks.length + 1) s t
  obtain ⟨thrown, asked, hcancel⟩ := exists_cancel s t
  change ∀ u ∈ s.asked, u ∈ (s.cancel t).asked at hasked
  change ∀ u ∈ reached _ s t, u ∈ (s.cancel t).asked at hreached
  change ∀ v ∈ (s.cancel t).thrown, _ at hthrown
  rw [hcancel] at hasked hreached hthrown ⊢
  refine ⟨hcancel ▸ h.flagged.cancel t, fun w d hw hd ↦ ?_⟩
  · have hold : s.IsCancelled d → w ∈ asked ∨ s.stopped = true :=
      fun hd ↦ (h.asked w d hw hd).imp_left (hasked w)
    rcases hd with hd | hd
    · rcases hthrown d hd with hd | ⟨hd, -, rfl | ⟨u, hu, p, hp, hmem⟩⟩
      · exact hold (.inl hd)
      · exact absurd hw (hnone w)
      · have hother : ∀ role, role ≠ .dial → p.awaitedRole = some role → w ∈ asked ∨
          s.stopped = true :=
          fun role hrole he ↦ absurd hw
            (htyped.not_awaited (htyped.awaited u p hp d hmem role he) hrole hd w)
        cases p with
        | awaiting caller pending owner =>
          obtain rfl := List.mem_singleton.mp hmem
          have hwaits : s.attempt u = some d := attempt_eq_some.mpr ⟨caller, owner, hp⟩
          obtain ⟨caller', owner', hw'⟩ := hw
          have hrange := List.mem_range.mpr (List.getElem?_eq_some_iff.mp hw').1
          rcases hspares u hu d hwaits hd w hrange
            (attempt_eq_some.mpr ⟨caller', owner', hw'⟩) with rfl | hw
          · exact .inl (hreached w hu)
          · exact .inl (hasked w hw)
        | awaitingMonitor who existing monitor => exact hother .monitor nofun rfl
        | cancellingReconnect loop => exact hother .loop nofun rfl
        | cancellingMonitor monitor => exact hother .monitor nofun rfl
        | stopping tasks => exact .inr (htyped.stopped u _ hp rfl)
        | _ => cases hmem
    · exact hold (.inr hd)

theorem sparesOthers_reached (hp : s.tasks[t]? = some p) (hwaits : p.waitsFor = []) (bound : ℕ) :
    ∀ u ∈ reached bound s t, s.SparesOthers u := by
  have hself : ∀ u ∈ reached bound s t, u = t := by
    intro u hu
    cases bound with
    | zero => cases hu
    | succ bound =>
      unfold reached at hu
      split_ifs at hu
      · cases hu
      · rw [hp, Option.bind_some, hwaits] at hu
        exact List.mem_singleton.mp hu
  intro u hu d hd
  obtain rfl := hself u hu
  obtain ⟨caller, owner, hawaits⟩ := attempt_eq_some.mp hd
  rw [Option.some.inj (hp.symm.trans hawaits)] at hwaits
  cases hwaits

theorem waitsFor_of_monitor (h : p.role = some .monitor) : p.waitsFor = [] := by
  cases p with
  | connecting caller | awaiting caller _ _ => cases caller <;> cases h
  | awaitingMonitor who _ _ => cases who <;> cases h
  | _ => first | rfl | cases h

theorem Unharmed.cancelMonitor (h : s.Unharmed) (htyped : s.Typed) (hplays : s.Plays .monitor t)
    (hdone : s.isDone t = false) :
    (s.cancel t).Unharmed := by
  obtain ⟨p, hp, hrole⟩ := hplays
  obtain ⟨p', hp', hunfinished⟩ := isDone_eq_false.mp hdone
  obtain rfl := Option.some.inj (hp.symm.trans hp')
  exact h.cancel htyped (htyped.not_awaited ⟨p, hp, hrole⟩ nofun hdone)
    (sparesOthers_reached hp (waitsFor_of_monitor (hrole.resolve_left hunfinished)) _)

section

variable (hp : s.tasks[task]? = some p)
include hp

theorem spares_register : Spares s (s.register task who) := by
  have hspawn : Prepares s ({ s with
      connection := some s.conns.length
      initiator := some (s.initiatorOf who)
      monitorTask := some s.tasks.length
      conns := s.conns ++ [{ SiloConnection.new s.options with state := .running }] }.spawn
        (.monitoring s.conns.length)) :=
    prepares_spawn rfl rfl rfl id nofun nofun
  exact hspawn.then (spares_goto_other (getElem?_grown.mpr (.inl hp)) nofun nofun)

theorem spares_move_goto (conn : ℕ) (e : ConnectionEvent)
    (hwait : ∀ caller d owner, q ≠ .awaiting caller d owner) (hend : q ≠ .finished .cancelled) :
    Spares s ((s.move conn e).goto task q) := by
  obtain ⟨conns, hmove⟩ := exists_move s conn e
  rw [hmove]
  have hsame : Prepares s { s with conns := conns } := prepares_same rfl (fun _ h ↦ h) rfl id
  exact hsame.then (spares_goto_other (s := { s with conns := conns }) hp hwait hend)

theorem spares_closeExisting (existing : ℕ) : Spares s (s.closeExisting task who existing) := by
  unfold closeExisting
  split_ifs
  · exact spares_register hp
  · exact spares_move_goto hp existing _ nofun nofun

theorem spares_closeAll : Spares s (s.closeAll task) := by
  have hclear : Prepares s
    { s with reconnectTask := none, monitorTask := none, pendingConnect := none } :=
    prepares_same rfl (fun _ h ↦ h) rfl id
  unfold closeAll
  dsimp only
  split
  · next conn _ =>
    exact hclear.then (spares_move_goto (q := .closingAll (some conn) false)
      (s := { s with reconnectTask := none, monitorTask := none, pendingConnect := none }) hp
        conn _ nofun nofun)
  · exact hclear.then (spares_goto_other
      (s := { s with reconnectTask := none, monitorTask := none, pendingConnect := none }) hp nofun
        nofun)

theorem spares_overdue : Spares s (s.overdue task) := by
  have hclear : Prepares s
    { s with reconnectTask := none, monitorTask := none, pendingConnect := none } :=
    prepares_same rfl (fun _ h ↦ h) rfl id
  exact hclear.then (spares_goto_other
    (s := { s with reconnectTask := none, monitorTask := none, pendingConnect := none }) hp nofun
      nofun)

theorem spares_clear : Spares s (s.clear task) := by
  have hpop : Prepares s { s with connection := none, initiator := none, stopReturned := true } :=
    prepares_same rfl (fun _ h ↦ h) rfl id
  exact hpop.then (spares_goto_other
    (s := { s with connection := none, initiator := none, stopReturned := true }) hp nofun nofun)

theorem spares_force : Spares s (s.force task) := by
  unfold force
  split
  · next conn _ => exact spares_move_goto (q := .forcing conn) hp conn _ nofun nofun
  · exact spares_clear hp

end

theorem Unharmed.tables (h : s.Unharmed) (htasks : s'.tasks = s.tasks)
    (hthrown : s'.thrown = s.thrown) (hasked : s'.asked = s.asked)
    (hstopped : s.stopped = true → s'.stopped = true) : s'.Unharmed :=
  h.spare (prepares_same htasks (hthrown ▸ fun _ h ↦ h) hasked hstopped).spares

theorem Unharmed.cancelOutside (h : s.Unharmed) (htyped : s.Typed)
    (houter : (s.tasks[t]?).any LinkPhase.isInner = false)
    (hspares : ∀ u ∈ reached (s.tasks.length + 1) s t, s.SparesOthers u) :
    (s.cancel t).Unharmed := by
  by_cases hdone : s.isDone t
  · have hsame : s.cancel t = s := by
      unfold SiloLink.cancel cancelTask
      rw [if_pos hdone]
    exact hsame.symm ▸ h
  · obtain ⟨p, hp, hrole⟩ := isDone_eq_false.mp (Bool.eq_false_iff.mpr hdone)
    rw [hp, Option.any_some] at houter
    obtain ⟨role, hrole⟩ := Option.ne_none_iff_exists'.mp hrole
    refine h.cancel htyped
      (htyped.not_awaited ⟨p, hp, .inr hrole⟩ ?_ (Bool.eq_false_iff.mpr hdone)) hspares
    rintro rfl
    rw [isInner_of_dial hrole] at houter
    cases houter

theorem Unharmed.cancel_goto (h : (s.cancel t).Unharmed) (hp : s.tasks[task]? = some p)
    (hwait : ∀ caller d owner, q ≠ .awaiting caller d owner) (hend : q ≠ .finished .cancelled) :
    ((s.cancel t).goto task q).Unharmed := by
  obtain ⟨thrown, asked, hcancel⟩ := exists_cancel s t
  rw [hcancel] at h ⊢
  exact h.spare (spares_goto_other (s := { s with thrown := thrown, asked := asked }) hp hwait hend)

theorem Unharmed.installConnection (h : s.Unharmed) (htyped : s.Typed)
    (hp : s.tasks[task]? = some p) :
    (s.installConnection task who).Unharmed := by
  unfold SiloLink.installConnection
  split
  · exact h.spare (spares_register hp)
  · next existing _ =>
    have hpop : Unharmed { s with connection := none, initiator := none, monitorTask := none } :=
      h.tables rfl rfl rfl id
    have hpopped : Typed { s with connection := none, initiator := none, monitorTask := none } :=
      htyped.tables rfl id (.inr rfl) (.inr rfl) (.inl rfl)
    split_ifs
    · exact h.spare (spares_goto_other hp nofun nofun)
    · dsimp only
      split
      · next monitor hmonitor =>
        obtain ⟨hentry, hdone⟩ := unfinished_eq_some.mp hmonitor
        exact Unharmed.cancel_goto
          (s := { s with connection := none, initiator := none, monitorTask := none })
          (hpop.cancelMonitor hpopped (htyped.monitorTask monitor hentry) hdone) hp nofun nofun
      · exact hpop.spare (spares_closeExisting
          (s := { s with connection := none, initiator := none, monitorTask := none })
          hp existing)

theorem Unharmed.dropMonitor (h : s.Unharmed) (htyped : s.Typed) (hp : s.tasks[task]? = some p) :
    (s.dropMonitor task).Unharmed := by
  have hpop : Unharmed { s with monitorTask := none } := h.tables rfl rfl rfl id
  have hpopped : Typed { s with monitorTask := none } :=
    htyped.tables rfl id (.inr rfl) (.inr rfl) (.inl rfl)
  unfold SiloLink.dropMonitor
  dsimp only
  split
  · next monitor hmonitor =>
    obtain ⟨hentry, hdone⟩ := unfinished_eq_some.mp hmonitor
    exact Unharmed.cancel_goto (s := { s with monitorTask := none })
      (hpop.cancelMonitor hpopped (htyped.monitorTask monitor hentry) hdone) hp nofun nofun
  · exact hpop.spare (spares_goto_other (s := { s with monitorTask := none }) hp nofun nofun)

theorem Unharmed.discard (h : s.Unharmed) (htyped : s.Typed) (hp : s.tasks[task]? = some p) :
    (s.discard task).Unharmed := by
  have hpop : ∀ connection initiator,
    Unharmed { s with active := false, connection := connection, initiator := initiator } :=
    fun _ _ ↦ h.tables rfl rfl rfl id
  have hpopped : ∀ connection initiator,
    Typed { s with active := false, connection := connection, initiator := initiator } :=
    fun _ _ ↦ htyped.tables rfl id (.inr rfl) (.inr rfl) (.inr rfl)
  unfold SiloLink.discard
  split
  · exact (hpop s.connection s.initiator).dropMonitor (hpopped _ _) hp
  · next conn _ =>
    dsimp only
    split_ifs
    · exact (hpop none none).dropMonitor (hpopped none none) hp
    · exact (hpop none none).spare (spares_move_goto (q := .disconnecting conn)
        (s := { s with active := false, connection := none, initiator := none }) hp
          conn _ nofun nofun)

theorem Unharmed.disconnect (h : s.Unharmed) (htyped : s.Typed) (hp : s.tasks[task]? = some p)
    (hspares : ∀ l ∈ s.unfinished s.reconnectTask, ∀ u ∈ reached (s.tasks.length + 1) s l,
      s.SparesOthers u) :
    (s.disconnect task).Unharmed := by
  have hpop : Unharmed { s with reconnectTask := none } := h.tables rfl rfl rfl id
  have hpopped : Typed { s with reconnectTask := none } :=
    htyped.tables rfl id (.inr rfl) (.inl rfl) (.inr rfl)
  unfold SiloLink.disconnect
  dsimp only
  split
  · next loop hloop =>
    obtain ⟨hentry, hdone⟩ := unfinished_eq_some.mp hloop
    refine Unharmed.cancel_goto (s := { s with reconnectTask := none })
      (q := .cancellingReconnect loop) ?_ hp nofun nofun
    refine hpop.cancel hpopped
      (hpopped.not_awaited (htyped.reconnectTask loop hentry) nofun hdone) ?_
    have htasks : SiloLink.tasks { s with reconnectTask := none } = s.tasks := rfl
    rw [reached_congr htasks]
    exact hspares loop hloop
  · exact hpop.discard hpopped hp

theorem Unharmed.spawn (h : s.Unharmed) (hwait : ∀ caller d owner, q ≠ .awaiting caller d owner)
    (hend : q ≠ .finished .cancelled) :
    (s.spawn q).Unharmed := by
  have hspawn : Prepares s (s.spawn q) := prepares_spawn rfl rfl rfl id hwait hend
  exact h.spare hspawn.spares

theorem Unharmed.stop (h : s.Unharmed) : s.stop.Unharmed := by
  unfold SiloLink.stop
  split_ifs
  · have hsame : Unharmed { s with stopReturned := true } := h.tables rfl rfl rfl id
    exact hsame.spawn nofun nofun
  · have hall : ∀ (tasks : List ℕ) (m : SiloLink), m.Flagged →
      (tasks.foldl SiloLink.cancel m).Flagged := by
      intro tasks
      induction tasks with
      | nil => exact fun _ hm ↦ hm
      | cons t tasks ih => exact fun m hm ↦ ih _ (hm.cancel t)
    have hflagged := hall s.backgroundTasks { s with stopped := true, active := false } h.flagged
    obtain ⟨thrown, asked, hcancel⟩ :=
      exists_cancelAll s.backgroundTasks { s with stopped := true, active := false }
    rw [hcancel] at hflagged ⊢
    refine ⟨fun v hv ↦ ?_, fun _ _ _ _ ↦ .inr rfl⟩
    exact (hflagged v hv).imp_left fun hlt ↦ hlt.trans_le (by simp [SiloLink.spawn])

/-- A caller is cancelled only when all the others of its attempt have been, and
so is the reconnect loop by a disconnect; no call joins a cancelled attempt. -/
def CancelsAlone (s : SiloLink) : LinkEvent → Prop
  | .cancel t => ∀ u ∈ reached (s.tasks.length + 1) s t, s.SparesOthers u
  | .resume t =>
    match s.tasks[t]? with
    | some .removing => t ∈ s.thrown ∨
      ∀ l ∈ s.unfinished s.reconnectTask, ∀ u ∈ reached (s.tasks.length + 1) s l, s.SparesOthers u
    | some (.connecting _) | some (.sleeping _) =>
      t ∈ s.thrown ∨ ∀ d ∈ s.pendingConnect, ¬ s.IsCancelled d
    | _ => True
  | _ => True

instance (s : SiloLink) (t : ℕ) : Decidable (s.SparesOthers t) := by
  unfold SparesOthers
  infer_instance

instance (s : SiloLink) (d : ℕ) : Decidable (s.IsCancelled d) := inferInstanceAs (Decidable (_ ∨ _))

instance (s : SiloLink) (e : LinkEvent) : Decidable (s.CancelsAlone e) := by
  unfold CancelsAlone
  rcases e with _ | _ <;> dsimp only
  case resume t =>
    rcases s.tasks[t]? with _ | p
    · exact .isTrue trivial
    · rcases p with _ | _ <;> dsimp only <;> infer_instance
  all_goals infer_instance

theorem Unharmed.proceed (h : s.Unharmed) (htyped : s.Typed) (hp : s.tasks[task]? = some p)
    (hremoves : p = .removing →
      ∀ l ∈ s.unfinished s.reconnectTask, ∀ u ∈ reached (s.tasks.length + 1) s l, s.SparesOthers u)
    (hjoins : ∀ caller attempt, p = .connecting caller ∨ p = .sleeping attempt →
      ∀ d ∈ s.pendingConnect, ¬ s.IsCancelled d)
    (hstep : s.proceed task p = some s') : s'.Unharmed := by
  have hnone : ∀ role, p.role = some role → role ≠ .dial → ∀ t, ¬ s.Awaits t task := by
    intro role hrole hne
    refine htyped.not_awaited ⟨p, hp, .inr hrole⟩ hne (isDone_eq_false.mpr ⟨p, hp, ?_⟩)
    rw [hrole]
    exact Option.some_ne_none _
  have hcaller : ∀ caller : Caller, caller.role ≠ .dial :=
    fun caller ↦ by cases caller <;> simp [Caller.role]
  have hfinish : ∀ result, result ≠ .cancelled → (s.goto task (.finished result)).Unharmed :=
    fun result hresult ↦ h.spare
      (spares_goto_other hp (by simp) fun he ↦ hresult (LinkPhase.finished.inj he))
  cases p with
  | connecting caller =>
    exact Option.some.inj hstep ▸ h.spare (spares_connect hp (hnone _ rfl (hcaller caller))
      (hjoins caller 0 (.inl rfl)) h.flagged)
  | reconnecting =>
    exact Option.some.inj hstep ▸ h.spare (spares_reconnectLoop hp (hnone .loop rfl (by decide)) _)
  | sleeping attempt =>
    obtain rfl := Option.some.inj hstep
    split_ifs
    · exact h.spare (spares_connect hp (hnone .loop rfl (by decide))
        (hjoins .user attempt (.inr rfl)) h.flagged)
    · exact h.spare (spares_endLoop hp (hnone .loop rfl (by decide)) _)
  | awaiting caller pending owner =>
    simp only [SiloLink.proceed] at hstep
    split at hstep
    · exact Option.some.inj hstep ▸
        h.spare (spares_awaited hp (hnone _ rfl (hcaller caller)) pending owner _)
    · cases hstep
  | handshaking who => exact Option.some.inj hstep ▸ h.installConnection htyped hp
  | refusing who error => cases who <;> exact Option.some.inj hstep ▸ hfinish _ (by simp)
  | dropping who existing => exact Option.some.inj hstep ▸ hfinish _ (by simp)
  | awaitingMonitor who existing monitor =>
    simp only [SiloLink.proceed] at hstep
    split_ifs at hstep
    exact Option.some.inj hstep ▸ h.spare (spares_closeExisting hp existing)
  | closingExisting who existing =>
    simp only [SiloLink.proceed] at hstep
    split_ifs at hstep
    exact Option.some.inj hstep ▸ h.spare (spares_register hp)
  | firingEstablished who conn => exact Option.some.inj hstep ▸ hfinish _ (by simp)
  | monitoring conn =>
    simp only [SiloLink.proceed] at hstep
    split_ifs at hstep
    obtain rfl := Option.some.inj hstep
    unfold monitorConnection
    split_ifs
    · have hpop : Unharmed { s with connection := none, initiator := none, monitorTask := none } :=
        h.tables rfl rfl rfl id
      exact hpop.spare (spares_goto_other
        (s := { s with connection := none, initiator := none, monitorTask := none })
        hp (by simp) (by simp))
    · exact hfinish _ (by simp)
  | firingLost reason =>
    obtain rfl := Option.some.inj hstep
    split_ifs
    · exact h.spare (spares_schedule_finish hp (hnone .monitor rfl (by decide)))
    · exact hfinish _ (by simp)
  | removing => exact Option.some.inj hstep ▸ h.disconnect htyped hp (hremoves rfl)
  | adding =>
    obtain rfl := Option.some.inj hstep
    have hspawn : Prepares s (s.spawn (.connecting .eager)) :=
      prepares_spawn rfl rfl rfl id (by simp) (by simp)
    exact h.spare (hspawn.then
      (spares_goto_other (getElem?_grown.mpr (.inl hp)) (by simp) (by simp)))
  | cancellingReconnect loop =>
    simp only [SiloLink.proceed] at hstep
    split_ifs at hstep
    exact Option.some.inj hstep ▸ h.discard htyped hp
  | disconnecting conn =>
    simp only [SiloLink.proceed] at hstep
    split_ifs at hstep
    exact Option.some.inj hstep ▸ h.dropMonitor htyped hp
  | cancellingMonitor monitor =>
    simp only [SiloLink.proceed] at hstep
    split_ifs at hstep
    exact Option.some.inj hstep ▸ hfinish _ (by simp)
  | stopping tasks =>
    simp only [SiloLink.proceed] at hstep
    split_ifs at hstep
    exact Option.some.inj hstep ▸ h.spare (spares_closeAll hp)
  | closingAll conn expired =>
    simp only [SiloLink.proceed] at hstep
    split_ifs at hstep
    · exact Option.some.inj hstep ▸ h.spare (spares_force hp)
    · exact Option.some.inj hstep ▸ h.spare (spares_clear hp)
  | forcing conn =>
    simp only [SiloLink.proceed] at hstep
    split_ifs at hstep
    exact Option.some.inj hstep ▸ h.spare (spares_clear hp)
  | finished result => cases hstep

/-- A cancelled task ends, or suppresses its cancellation. -/
theorem Unharmed.interrupt (h : s.Unharmed) (htyped : s.Typed) (hp : s.tasks[task]? = some p)
    (hthrown : task ∈ s.thrown) (hunfinished : p.role ≠ none) : (s.interrupt task p).Unharmed := by
  have hfinish : Spares s (s.goto task (.finished .cancelled)) :=
    spares_goto hp nofun fun _ ↦ .inl (.inl hthrown)
  have hclosing : ∀ conn,
    Spares s ((s.move conn .closeCancelled).goto task (.finished .cancelled)) := by
    intro conn
    obtain ⟨conns, hmove⟩ := exists_move s conn .closeCancelled
    rw [hmove]
    have hsame : Prepares s { s with conns := conns } := prepares_same rfl (fun _ h ↦ h) rfl id
    exact hsame.then (spares_goto (s := { s with conns := conns }) hp nofun fun _ ↦
      .inl (.inl hthrown))
  have hgoesOn : Spares s { s with thrown := s.thrown.filter fun t ↦ t ≠ task } := by
    have hsame : Prepares s { s with thrown := s.thrown.filter fun t ↦ t ≠ task } :=
      prepares_same rfl (fun _ ht ↦ (List.mem_filter.mp ht).1) rfl id
    exact hsame.spares
  have hnone : ∀ role, p.role = some role → role ≠ .dial → ∀ t, ¬ s.Awaits t task :=
    fun role hrole hne ↦ htyped.not_awaited ⟨p, hp, .inr hrole⟩ hne
      (isDone_eq_false.mpr ⟨p, hp, hunfinished⟩)
  refine h.spare ?_
  cases p with
  | awaiting caller pending owner =>
    exact spares_awaited hp (hnone _ rfl (by cases caller <;> nofun)) pending owner _
  | sleeping attempt => exact spares_endLoop hp (hnone .loop rfl nofun) _
  | awaitingMonitor who existing monitor | cancellingReconnect loop | cancellingMonitor monitor
    | stopping tasks =>
    exact hgoesOn
  | closingExisting who conn | disconnecting conn =>
    simp only [SiloLink.interrupt]
    split_ifs
    · exact hclosing conn
    · exact hgoesOn
  | closingAll conn expired =>
    cases conn with
    | none => exact hfinish
    | some conn =>
      simp only [SiloLink.interrupt]
      split_ifs
      · exact hclosing conn
      · exact hfinish
  | forcing conn =>
    simp only [SiloLink.interrupt]
    split_ifs
    · exact hclosing conn
    · exact hfinish
  | _ => exact hfinish

theorem Unharmed.step {e : LinkEvent} (h : s.Unharmed) (htyped : s.Typed) (hok : s.CancelsAlone e)
    (hstep : s.step e = some s') : s'.Unharmed := by
  have hgoto : ∀ {t : ℕ} {q r : LinkPhase}, s.tasks[t]? = some q →
      (∀ caller d owner, r ≠ .awaiting caller d owner) → r ≠ .finished .cancelled →
      (s.goto t r).Unharmed :=
    fun hq hwait hend ↦ h.spare (spares_goto_other hq hwait hend)
  cases e with
  | connect => exact Option.some.inj hstep ▸ h.spawn (by simp) (by simp)
  | acceptInbound =>
    obtain rfl := Option.some.inj hstep
    split_ifs
    · exact h.spawn (by simp) (by simp)
    · exact h.spawn (by simp) (by simp)
  | disconnect => exact Option.some.inj hstep ▸ h.spawn (by simp) (by simp)
  | updateActiveSilos included =>
    obtain rfl := Option.some.inj hstep
    have hsame : Unharmed { s with active := included } := h.tables rfl rfl rfl id
    refine hsame.spawn ?_ ?_
    · split_ifs <;> simp
    · split_ifs <;> simp
  | stop => exact Option.some.inj hstep ▸ h.stop
  | cancel t =>
    simp only [SiloLink.step] at hstep
    split_ifs at hstep with hinner
    obtain rfl := Option.some.inj hstep
    exact h.cancelOutside htyped (Bool.eq_false_iff.mpr hinner) hok
  | connection conn e =>
    simp only [SiloLink.step] at hstep
    split_ifs at hstep
    obtain ⟨c, -, rfl⟩ := Option.map_eq_some_iff.mp hstep
    exact h.tables rfl rfl rfl id
  | openFailed t =>
    simp only [SiloLink.step] at hstep
    split at hstep
    · next hp => exact Option.some.inj hstep ▸ hgoto hp (by simp) (by simp)
    · cases hstep
  | handshakeFailed t error =>
    simp only [SiloLink.step] at hstep
    split at hstep
    · next who hp =>
      obtain rfl := Option.some.inj hstep
      have hsame : Prepares s { s with
          rejected :=
            s.rejected || decide (who = Installer.dial ∧ error = ConnectError.rejected) } :=
        prepares_same rfl (fun _ h ↦ h) rfl id
      exact h.spare (hsame.then (spares_goto_other hp (by simp) (by simp)))
    · cases hstep
  | unexpected t =>
    simp only [SiloLink.step] at hstep
    split at hstep
    · next hp => exact Option.some.inj hstep ▸ hgoto hp (by simp) (by simp)
    · cases hstep
  | timeout t =>
    simp only [SiloLink.step] at hstep
    split at hstep
    · next tasks hp =>
      split_ifs at hstep
      exact Option.some.inj hstep ▸ h.spare (spares_overdue hp)
    · next conn hp =>
      split at hstep
      · next conn _ =>
          exact Option.some.inj hstep ▸ h.spare (spares_move_goto hp conn _ (by simp) (by simp))
      · exact Option.some.inj hstep ▸ hgoto hp (by simp) (by simp)
    · cases hstep
  | resume t =>
    simp only [SiloLink.step] at hstep
    split at hstep
    · cases hstep
    · cases hstep
    · next p hunfinished hp =>
      unfold CancelsAlone at hok
      simp only [hp] at hok
      split_ifs at hstep with hthrown
      · refine Option.some.inj hstep ▸ h.interrupt htyped hp hthrown ?_
        intro hrole
        obtain ⟨result, rfl⟩ := role_eq_none_iff.mp hrole
        exact hunfinished result rfl
      · refine h.proceed htyped hp ?_ ?_ hstep
        · rintro rfl
          exact hok.resolve_left hthrown
        · rintro caller attempt (rfl | rfl)
          · exact hok.resolve_left hthrown
          · exact hok.resolve_left hthrown

theorem unharmed_new (localSilo remote : SiloAddress) (options : ConnectionOptions) :
    (new localSilo remote options).Unharmed where
  flagged _ ht := absurd ht List.not_mem_nil
  asked _ _ := fun ⟨_, _, ht⟩ ↦ absurd (List.mem_of_getElem? ht) List.not_mem_nil

/-- A caller that was not cancelled is given what the attempt itself came to,
which is no cancellation unless the manager was stopped. -/
def Independent (s : SiloLink) : Prop :=
  ∀ task caller pending owner result, s.tasks[task]? = some (.awaiting caller pending owner) →
    task ∉ s.asked →
    s.tasks[pending]? = some (.finished result) →
    (s.stopped = false → result ≠ .cancelled) ∧
      s.step (.resume task) = some (s.awaited task caller pending owner result)

def KeepsIndependent (localSilo remote : SiloAddress) (options : ConnectionOptions)
    (events : List LinkEvent) : Prop :=
  ∀ before s, before <+: events → exec step (new localSilo remote options) before = some s →
    s.Independent

theorem keepsIndependent_of_cancelsAlone (localSilo remote : SiloAddress)
    (options : ConnectionOptions) (events : List LinkEvent)
    (hok : Meets step CancelsAlone (new localSilo remote options) events) :
      KeepsIndependent localSilo remote options events := by
  rintro before s ⟨after, rfl⟩ hrun
  have hreached := guarded_of_exec hrun (meets_append.mp hok).1
  obtain ⟨hunharmed, -⟩ : s.Unharmed ∧ s.Typed :=
    hreached.invariant (I := fun s ↦ s.Unharmed ∧ s.Typed)
    ⟨unharmed_new localSilo remote options, typed_new localSilo remote options⟩
    fun _ _ _ h hok hstep ↦ ⟨h.1.step h.2 hok hstep, h.2.step hstep⟩
  intro task caller pending owner result htask hasked hresult
  constructor
  · rintro hstopped rfl
    rcases hunharmed.asked task pending ⟨caller, owner, htask⟩ (.inr hresult) with hself | hself
    · exact hasked hself
    · rw [hstopped] at hself
      cases hself
  · have hthrown : task ∉ s.thrown := fun h ↦ hasked (hunharmed.flagged task h).2
    simp only [SiloLink.step, htask, if_neg hthrown, SiloLink.proceed, hresult]

/-- Two calls share an attempt that is refused, and a third is cancelled in the next one. -/
def sharedRefusal : List LinkEvent :=
  [.connect, .resume 0, .connect, .resume 2, .openFailed 1, .resume 0, .resume 2, .connect,
    .resume 3, .cancel 3, .resume 4, .resume 3]

theorem keepsIndependent_sharedRefusal :
    KeepsIndependent siloA siloB SiloConnection.onePermit sharedRefusal :=
  keepsIndependent_of_cancelsAlone siloA siloB _ sharedRefusal (by decide)

/-- Two calls share an attempt, and the first of them is cancelled. -/
def firstCancelled : List LinkEvent :=
  [.connect, .resume 0, .connect, .resume 2, .cancel 0, .resume 1]

theorem firstCancelled_harms :
    ¬ ∀ localSilo remote options events, KeepsIndependent localSilo remote options events := by
  intro h
  have hend : (exec step (new siloA siloB SiloConnection.onePermit) firstCancelled).map (fun s ↦
      (s.tasks[2]?, s.tasks[1]?, s.stopped, decide (2 ∈ s.asked))) =
      some (some (.awaiting .user 1 false), some (.finished .cancelled), false, false) := by decide
  obtain ⟨s, hrun, hs⟩ := Option.map_eq_some_iff.mp hend
  obtain ⟨hcaller, hs⟩ := Prod.mk.inj hs
  obtain ⟨hattempt, hs⟩ := Prod.mk.inj hs
  obtain ⟨hstopped, hasked⟩ := Prod.mk.inj hs
  exact (h siloA siloB _ firstCancelled firstCancelled s List.prefix_rfl hrun 2 .user 1 false
    .cancelled hcaller
    (of_decide_eq_false hasked) hattempt).1 hstopped rfl

end SiloLink

end Pyleans
