import Pyleans.Server.Cluster

namespace Pyleans.AtMostOnce

open Library Cluster

def carries (n : ℕ) : Task → Bool
  | .routing c _ => c.number = n
  | .resolving c _ _ _ => c.number = n
  | .resolved c _ _ => c.number = n
  | .calling c _ => c.number = n
  | .activating c _ => c.number = n
  | .activated c _ _ => c.number = n
  | _ => false

def queuedFor (n : ℕ) (q : Queued) : Bool :=
  match q.item with
  | .call c => c.number = n
  | .sentinel => false

def live (s : Cluster) (n : ℕ) : ℕ := s.tasks.countP (carries n) + s.inboxes.countP (queuedFor n)

/-- How often call `n` has been run or may still be. -/
def credit (s : Cluster) (n : ℕ) : ℕ := s.executions n + live s n

/-- A first attempt is retried only when its request was not run and no longer can be. -/
def Clean (s : Cluster) : ClusterAction → Prop
  | .connectionLost c false => s.executions c.number = 0 ∧ live s c.number = 0
  | _ => True

instance (s : Cluster) : ∀ a, Decidable (Clean s a)
  | .connectionLost c false =>
    inferInstanceAs (Decidable (s.executions c.number = 0 ∧ live s c.number = 0))
  | .connectionLost _ true | .invoke .. | .deactivate .. | .advance .. | .finish .. | .cacheHit ..
  | .turn .. => .isTrue trivial

variable {s s' : Cluster}

theorem countP_concat {α : Type} (p : α → Bool) (l : List α) (x : α) :
    (l ++ [x]).countP p = l.countP p + (p x).toNat := by
  rw [List.countP_append, List.countP_singleton]
  cases p x <;> rfl

theorem credit_spawn (s : Cluster) (t : Task) (n : ℕ) :
    credit (s.spawn t) n = credit s n + (carries n t).toNat := by
  simp only [credit, live, spawn, countP_concat]
  omega

theorem credit_enqueue (s : Cluster) (host : SiloAddress) (number : ℕ) (item : InboxItem) (n : ℕ) :
    credit (s.enqueue host number item) n = credit s n +
      (queuedFor n ⟨host, number, item⟩).toNat := by
  simp only [credit, live, enqueue, countP_concat]
  omega

theorem toNat_add_countP_erase {α : Type} [DecidableEq α] (p : α → Bool) {l : List α} {x : α}
    (h : x ∈ l) :
    (p x).toNat + (l.erase x).countP p = l.countP p := by
  rw [(List.perm_cons_erase h).countP_eq p, List.countP_cons]
  cases p x <;> simp [Nat.add_comm]

theorem credit_take {t : Task} (h : t ∈ s.tasks) (n : ℕ) :
    credit (s.take t) n + (carries n t).toNat = credit s n := by
  have := toNat_add_countP_erase (carries n) h
  simp only [credit, live, take]
  omega

@[simp] theorem credit_setDirectory (s : Cluster) (t : SiloAddress) (d : DistributedGrainDirectory)
    (n : ℕ) :
    credit (s.setDirectory t d) n = credit s n := rfl

@[simp] theorem credit_setRuntime (s : Cluster) (t : SiloAddress) (r : GrainRuntime) (n : ℕ) :
    credit (s.setRuntime t r) n = credit s n := rfl

@[simp] theorem credit_stopWorker (s : Cluster) (host : SiloAddress) (number n : ℕ) :
    credit (s.stopWorker host number) n = credit s n := rfl

theorem credit_invokeLocal (s : Cluster) (c : Call) (host : SiloAddress) (n : ℕ) :
    credit (s.invokeLocal c host) n = credit s n + (decide (c.number = n)).toNat := by
  unfold Cluster.invokeLocal
  split
  · exact credit_enqueue ..
  · exact credit_spawn ..

theorem credit_advance [StableHash] [SeededRandom] (placement : SiloAddress → PlacementStrategy)
    (s : Cluster) (t : Task) (n : ℕ) :
    credit (s.advance placement t) n ≤ credit s n + (carries n t).toNat := by
  cases t with
  | routing c retry =>
    simp only [advance, resolveOrActivate]
    split
    · exact Nat.le_add_right _ _
    · rw [credit_spawn, credit_setDirectory]
      rfl
    · rw [credit_spawn]
      rfl
  | resolving c retry owner placementClass =>
    simp only [advance, handleResolve]
    split
    · exact Nat.le_add_right _ _
    · split
      · exact Nat.le_add_right _ _
      · rw [credit_spawn, credit_setDirectory]
        rfl
  | resolved c retry entry =>
    simp only [advance, afterResolve]
    split
    · exact (credit_invokeLocal ..).le
    · rw [credit_spawn, credit_spawn]
      rfl
  | calling c host => exact (credit_invokeLocal ..).le
  | awaiting c retry => exact Nat.le_add_right _ _
  | activating c host =>
    rw [advance, finishActivation, credit_spawn, credit_setRuntime]
    rfl
  | activated c host number => exact (credit_enqueue ..).le
  | deactivating host g number =>
    rw [advance, credit_spawn, credit_enqueue]
    rfl
  | stopping host g number =>
    rw [advance, removeActivation, credit_spawn, credit_stopWorker, credit_setRuntime]
    rfl
  | leaving host g =>
    simp only [advance, Cluster.unregister]
    split
    · exact Nat.le_add_right _ _
    · exact Nat.le_add_right _ _
    · rw [credit_spawn]
      rfl
  | unregistering owner g silo => exact Nat.le_add_right _ _

theorem credit_turn {q : Queued} (h : s.turn q = some s') (n : ℕ) : credit s' n = credit s n := by
  unfold turn at h
  split_ifs at h with hq
  have hmem := List.mem_of_find?_eq_some hq.2
  have hcount := toNat_add_countP_erase (queuedFor n) hmem
  split at h
  · next c hc =>
    obtain rfl := Option.some.inj h
    simp only [queuedFor, hc] at hcount
    simp only [credit, live]
    by_cases hn : c.number = n
    · subst hn
      simp only [Function.update_self, decide_true, Bool.toNat_true] at hcount ⊢
      omega
    · simp only [Function.update_of_ne (Ne.symm hn), hn, decide_false, Bool.toNat_false] at hcount ⊢
      omega
  · next hc =>
    obtain rfl := Option.some.inj h
    simp only [queuedFor, hc, Bool.toNat_false] at hcount
    simp only [credit, live, stopWorker]
    omega

theorem tasks_invokeLocal (s : Cluster) (c : Call) (host : SiloAddress) :
    (s.invokeLocal c host).tasks = s.tasks ∨
      (s.invokeLocal c host).tasks = s.tasks ++ [.activating c host] := by
  unfold Cluster.invokeLocal
  split
  · exact .inl rfl
  · exact .inr rfl

theorem awaiting_advance [StableHash] [SeededRandom] {placement : SiloAddress → PlacementStrategy}
    {t : Task} {c : Call} {retry : Bool} (h : .awaiting c retry ∈ (s.advance placement t).tasks) :
    .awaiting c retry ∈ s.tasks ∨ carries c.number t = true := by
  cases t with
  | routing c' retry' =>
    simp only [advance, resolveOrActivate] at h
    split at h <;> simp_all [spawn, setDirectory]
  | resolving c' retry' owner placementClass =>
    simp only [advance, handleResolve] at h
    split at h
    · exact .inl h
    · split at h <;> simp_all [spawn, setDirectory]
  | resolved c' retry' entry =>
    simp only [advance, afterResolve] at h
    split at h
    · rcases tasks_invokeLocal s c' c'.caller with ht | ht <;> simp_all
    · simp only [spawn, List.mem_append, List.mem_singleton, reduceCtorEq, or_false] at h
      rcases h with h | h
      · exact .inl h
      · obtain ⟨rfl, -⟩ := Task.awaiting.inj h
        exact .inr (by simp [carries])
  | calling c' host =>
    rcases tasks_invokeLocal s c' host with ht | ht <;> simp_all [advance]
  | awaiting c' retry' => exact .inl h
  | activating c' host =>
    left
    simpa [advance, finishActivation, spawn, setRuntime] using h
  | activated c' host number => exact .inl h
  | deactivating host g number =>
    left
    simpa [advance, enqueue, spawn] using h
  | stopping host g number =>
    left
    simpa [advance, removeActivation, spawn, stopWorker, setRuntime] using h
  | leaving host g =>
    simp only [advance, Cluster.unregister] at h
    split at h <;> simp_all [spawn, setDirectory]
  | unregistering owner g silo => exact .inl h

/-- Every call has at most one run, done or to come, and none before it is made. -/
structure Accounted (s : Cluster) : Prop where
  once : ∀ n, credit s n ≤ 1
  fresh : ∀ n, s.nextCall ≤ n → credit s n = 0
  asked : ∀ c retry, .awaiting c retry ∈ s.tasks → c.number < s.nextCall

theorem Accounted.number_lt (hi : Accounted s) {t : Task} (ht : t ∈ s.tasks) {c : Call}
    (hc : carries c.number t = true) : c.number < s.nextCall := by
  by_contra hn
  have hz := hi.fresh c.number (not_lt.mp hn)
  have := credit_take ht c.number
  rw [hc, Bool.toNat_true] at this
  omega

theorem Accounted.of_le (hi : Accounted s) (hn : s'.nextCall = s.nextCall)
    (hc : ∀ n, credit s' n ≤ credit s n)
    (ha : ∀ c retry, .awaiting c retry ∈ s'.tasks → c.number < s.nextCall) : Accounted s' := by
  refine ⟨fun n ↦ (hc n).trans (hi.once n), fun n hle ↦ ?_, hn ▸ ha⟩
  have := hc n
  rw [hi.fresh n (hn ▸ hle)] at this
  omega

theorem nextCall_advance [StableHash] [SeededRandom] (placement : SiloAddress → PlacementStrategy)
    (s : Cluster) (t : Task) : (s.advance placement t).nextCall = s.nextCall := by
  cases t with
  | routing c retry =>
    simp only [advance, resolveOrActivate]
    split <;> rfl
  | resolving c retry owner placementClass =>
    simp only [advance, handleResolve]
    split
    · rfl
    · split <;> rfl
  | resolved c retry entry =>
    simp only [advance, afterResolve, Cluster.invokeLocal]
    split
    · split <;> rfl
    · rfl
  | calling c host =>
    simp only [advance, Cluster.invokeLocal]
    split <;> rfl
  | leaving host g =>
    simp only [advance, Cluster.unregister]
    split <;> rfl
  | _ => rfl

theorem Accounted.take (hi : Accounted s) {t : Task} (ht : t ∈ s.tasks) : Accounted (s.take t) :=
  hi.of_le rfl (fun n ↦ by have := credit_take ht n; omega)
    fun c retry h ↦ hi.asked c retry (List.mem_of_mem_erase h)

theorem accounted_advance [StableHash] [SeededRandom] {placement : SiloAddress → PlacementStrategy}
    (hi : Accounted s) {t : Task} (ht : t ∈ s.tasks) :
    Accounted ((s.take t).advance placement t) := by
  refine hi.of_le (nextCall_advance placement _ t) (fun n ↦ ?_) fun c retry h ↦ ?_
  · rw [← credit_take ht n]
    exact credit_advance placement _ t n
  · rcases awaiting_advance h with h | h
    · exact hi.asked c retry (List.mem_of_mem_erase h)
    · exact hi.number_lt ht h

theorem accounted_invoke (hi : Accounted s) (caller : SiloAddress) (g : GrainId) :
    Accounted ({ s with nextCall := s.nextCall + 1 }.spawn
      (.routing ⟨s.nextCall, caller, g⟩ false)) := by
  have hc : ∀ n, credit ({ s with nextCall := s.nextCall + 1 }.spawn
    (.routing ⟨s.nextCall, caller, g⟩ false)) n =
      credit s n + (decide (s.nextCall = n)).toNat := fun n ↦ credit_spawn _ _ n
  refine ⟨fun n ↦ ?_, fun n hn ↦ ?_, fun c retry h ↦ ?_⟩
  · rw [hc]
    by_cases hn : s.nextCall = n
    · rw [hi.fresh n hn.le, decide_eq_true hn]
      rfl
    · rw [decide_eq_false hn]
      exact hi.once n
  · have hle : s.nextCall + 1 ≤ n := hn
    rw [hc, hi.fresh n (by omega), decide_eq_false (by omega)]
    rfl
  · have hmem : .awaiting c retry ∈ s.tasks := by simpa [spawn] using h
    exact Nat.lt_succ_of_lt (hi.asked c retry hmem)

theorem accounted_retry (hi : Accounted s) {c : Call} (ht : .awaiting c false ∈ s.tasks)
    (hz : credit s c.number = 0) : Accounted
      ((s.take (.awaiting c false)).spawn (.routing c true)) := by
  have hc : ∀ n, credit ((s.take (.awaiting c false)).spawn (.routing c true)) n =
      credit s n + (decide (c.number = n)).toNat := by
    intro n
    rw [credit_spawn, ← credit_take ht n]
    rfl
  refine ⟨fun n ↦ ?_, fun n hn ↦ ?_, fun c' retry h ↦ ?_⟩
  · rw [hc]
    by_cases hn : c.number = n
    · subst hn
      rw [hz, decide_eq_true rfl]
      rfl
    · rw [decide_eq_false hn]
      exact hi.once n
  · have hle : s.nextCall ≤ n := hn
    have hlt := hi.asked c false ht
    rw [hc, hi.fresh n hle, decide_eq_false (by omega)]
    rfl
  · have hmem : .awaiting c' retry ∈ (s.take (.awaiting c false)).tasks := by simpa [spawn] using h
    exact hi.asked c' retry (List.mem_of_mem_erase hmem)

theorem accounted_turn {q : Queued} (hi : Accounted s) (h : s.turn q = some s') : Accounted s' := by
  have hsame : s'.tasks = s.tasks ∧ s'.nextCall = s.nextCall := by
    unfold turn at h
    split_ifs at h
    split at h <;>
      · obtain rfl := Option.some.inj h
        exact ⟨rfl, rfl⟩
  refine hi.of_le hsame.2 (fun n ↦ (credit_turn h n).le) fun c retry ha ↦ ?_
  rw [hsame.1] at ha
  exact hi.asked c retry ha

theorem accounted_step [StableHash] [SeededRandom] {placement : SiloAddress → PlacementStrategy}
    {a : ClusterAction} (hi : Accounted s) (hok : Clean s a) (hs : s.step placement a = some s') :
    Accounted s' := by
  cases a with
  | invoke caller g =>
    obtain rfl := Option.some.inj hs
    exact accounted_invoke hi caller g
  | deactivate host g =>
    obtain rfl := Option.some.inj hs
    split
    · exact hi
    · refine hi.of_le rfl (fun n ↦ (credit_spawn ..).le) fun c retry h ↦ ?_
      exact hi.asked c retry (by simpa [spawn] using h)
  | advance t =>
    obtain ⟨ht, rfl⟩ := step_advance.mp hs
    exact accounted_advance hi ht
  | finish t =>
    obtain ⟨ht, rfl⟩ := step_finish.mp hs
    exact hi.take ht
  | cacheHit c retry entry =>
    obtain ⟨ht, rfl⟩ := step_cacheHit.mp hs
    refine hi.of_le rfl (fun n ↦ ?_) fun c' retry' h ↦ ?_
    · rw [credit_spawn, ← credit_take ht n]
      rfl
    · have hmem : .awaiting c' retry' ∈ (s.take (.routing c retry)).tasks := by
        simpa [spawn] using h
      exact hi.asked c' retry' (List.mem_of_mem_erase hmem)
  | connectionLost c retry =>
    obtain ⟨ht, rfl⟩ := step_connectionLost.mp hs
    cases retry with
    | true => exact hi.take ht
    | false => exact accounted_retry hi ht (by rw [credit, hok.1, hok.2])
  | turn q => exact accounted_turn hi hs

theorem accounted_start (directories : SiloAddress → DistributedGrainDirectory)
    (runtimes : SiloAddress → GrainRuntime) : Accounted (start directories runtimes) :=
  ⟨fun _ ↦ Nat.zero_le 1, fun _ _ ↦ rfl, fun _ _ h ↦ absurd h List.not_mem_nil⟩

/-- No call is run twice, whatever the directories say and whatever is lost, as
long as a lost connection is blamed on no request that was run or still may be. -/
theorem at_most_once [StableHash] [SeededRandom] (placement : SiloAddress → PlacementStrategy)
    (directories : SiloAddress → DistributedGrainDirectory) (runtimes : SiloAddress → GrainRuntime)
    (s : Cluster) (h : Guarded (Cluster.step placement) Clean (start directories runtimes) s)
    (n : ℕ) :
    s.executions n ≤ 1 := by
  have hi := h.invariant (accounted_start directories runtimes)
    fun _ _ _ hi hok hs ↦ accounted_step hi hok hs
  exact (Nat.le_add_right _ _).trans (hi.once n)

def hosted (t : SiloAddress) : DistributedGrainDirectory :=
  { pair t with owned := if t = siloA then Table.empty.put ⟨counter1, siloB, 1⟩ else .empty }

def hostedRuntimes (t : SiloAddress) : GrainRuntime :=
  if t = siloB then (GrainRuntime.init t).insertActivation counter1 else .init t

def attempt (retry : Bool) : List ClusterAction :=
  [.advance (.routing (sampleCall 0 siloA) retry),
    .advance (.resolved (sampleCall 0 siloA) retry ⟨counter1, siloB, 1⟩)]

def served : List ClusterAction :=
  [.advance (.calling (sampleCall 0 siloA) siloB), .turn ⟨siloB, 0, .call (sampleCall 0 siloA)⟩]

def lost : ClusterAction := .connectionLost (sampleCall 0 siloA) false

def unsentRun : List ClusterAction :=
  .invoke siloA counter1 :: attempt false ++
    [.finish (.calling (sampleCall 0 siloA) siloB), lost] ++
    attempt true ++ served

def unansweredRun : List ClusterAction :=
  .invoke siloA counter1 :: attempt false ++ served ++ [lost] ++ attempt true ++ served

theorem unsentRun_executions :
    letI := sampleHash
    letI := sampleRandom
    (exec (Cluster.step fun _ ↦ preferLocalPlacement) (start hosted hostedRuntimes) unsentRun).map
      (fun s ↦ s.executions 0) = some 1 := by
  decide +kernel

theorem unsentRun_clean :
    letI := sampleHash
    letI := sampleRandom
    Meets (Cluster.step fun _ ↦ preferLocalPlacement) Clean
      (start hosted hostedRuntimes) unsentRun := by
  decide +kernel

theorem unansweredRun_executions :
    letI := sampleHash
    letI := sampleRandom
    (exec (Cluster.step fun _ ↦ preferLocalPlacement)
      (start hosted hostedRuntimes) unansweredRun).map
      (fun s ↦ s.executions 0) = some 2 := by
  decide +kernel

theorem at_most_once_unsent :
    letI := sampleHash
    letI := sampleRandom
    ∃ s, exec (Cluster.step fun _ ↦ preferLocalPlacement) (start hosted hostedRuntimes) unsentRun =
      some s ∧
      s.executions 0 = 1 ∧ ∀ n, s.executions n ≤ 1 := by
  obtain ⟨s, hs, he⟩ := Option.map_eq_some_iff.mp unsentRun_executions
  exact ⟨s, hs, he, @at_most_once sampleHash sampleRandom _ _ _ s
    (guarded_of_exec hs unsentRun_clean)⟩

/-- `siloB` has run the method when the connection breaks, and runs it again
for the retry. -/
theorem retry_runs_twice :
    letI := sampleHash
    letI := sampleRandom
    ¬ ∀ s, Reachable (Cluster.step fun _ ↦ preferLocalPlacement) (start hosted hostedRuntimes) s →
      ∀ n, s.executions n ≤ 1 := by
  intro h
  obtain ⟨s, hs, he⟩ := Option.map_eq_some_iff.mp unansweredRun_executions
  have hle := h s (reachable_of_exec hs) 0
  have htwo : s.executions 0 = 2 := he
  omega

end Pyleans.AtMostOnce
