import Pyleans.Identity
import Pyleans.Library.FirstLeast
import Pyleans.Library.Transition

namespace Pyleans

open Library

variable {κ : Type}

/-- The connections of one silo, by the silo at their other end, and which of
its own ends are closed. -/
structure ConnectionManager (κ : Type) where
  connections : SiloAddress → Option κ
  initiators : SiloAddress → Option SiloAddress
  closed : κ → Bool

/-- What becomes of a new connection to a silo. -/
inductive Dedup (κ : Type)
  | free
  | keep
  | replace (existing : κ)
deriving DecidableEq

def dedupKeepsExisting (existingInitiator newInitiator : SiloAddress) : Bool :=
  if existingInitiator = newInitiator then true else existingInitiator.siloId < newInitiator.siloId

namespace ConnectionManager

def empty : ConnectionManager κ := ⟨fun _ ↦ none, fun _ ↦ none, fun _ ↦ false⟩

def dedup (m : ConnectionManager κ) (remote initiator : SiloAddress) : Dedup κ :=
  match m.connections remote with
  | none => .free
  | some existing =>
    if m.closed existing then .free
    else if dedupKeepsExisting ((m.initiators remote).getD remote) initiator then .keep
    else .replace existing

def register (m : ConnectionManager κ) (conn : κ) (remote initiator : SiloAddress) :
    ConnectionManager κ :=
  { m with
    connections := Function.update m.connections remote (some conn)
    initiators := Function.update m.initiators remote (some initiator) }

def takeOut (m : ConnectionManager κ) (remote : SiloAddress) : ConnectionManager κ :=
  { m with
    connections := Function.update m.connections remote none
    initiators := Function.update m.initiators remote none }

def close [DecidableEq κ] (m : ConnectionManager κ) (conn : κ) : ConnectionManager κ :=
  { m with closed := Function.update m.closed conn true }

/-- An install that nothing else happens beside. -/
def installConnection [DecidableEq κ] (m : ConnectionManager κ) (conn : κ)
    (remote initiator : SiloAddress) : ConnectionManager κ :=
  match m.dedup remote initiator with
  | .free => m.register conn remote initiator
  | .keep => m.close conn
  | .replace existing => ((m.takeOut remote).close existing).register conn remote initiator

def installAll [DecidableEq κ] (m : ConnectionManager κ) (remote : SiloAddress)
    (installs : List (κ × SiloAddress)) :
    ConnectionManager κ :=
  installs.foldl (fun m p ↦ m.installConnection p.1 remote p.2) m

/-- The monitor of a closed connection removes it, unless another has taken its place. -/
def monitorConnection [DecidableEq κ] (m : ConnectionManager κ) (remote : SiloAddress) (conn : κ) :
    ConnectionManager κ :=
  if m.connections remote = some conn then m.takeOut remote else m

variable {m : ConnectionManager κ} {conn : κ} {remote initiator : SiloAddress}

@[simp] theorem register_connections :
    (m.register conn remote initiator).connections remote = some conn :=
  Function.update_self ..

@[simp] theorem register_initiators :
    (m.register conn remote initiator).initiators remote = some initiator :=
  Function.update_self ..

@[simp] theorem register_closed : (m.register conn remote initiator).closed = m.closed := rfl

@[simp] theorem takeOut_connections : (m.takeOut remote).connections remote = none :=
  Function.update_self ..

@[simp] theorem takeOut_closed : (m.takeOut remote).closed = m.closed := rfl

theorem dedup_free (h : m.connections remote = none) : m.dedup remote initiator = .free := by
  rw [dedup, h]

theorem dedup_closed (h : m.connections remote = some conn) (hc : m.closed conn = true) :
    m.dedup remote initiator = .free := by
  simp only [dedup, h, hc, if_true]

theorem dedup_open {existing : SiloAddress} (h : m.connections remote = some conn)
    (hc : m.closed conn = false) (hi : m.initiators remote = some existing) :
    m.dedup remote initiator = if existing.siloId ≤ initiator.siloId then .keep else
      .replace conn := by
  simp only [dedup, h, hc, hi, dedupKeepsExisting, Option.getD_some, Bool.false_eq_true, if_false]
  by_cases heq : existing = initiator
  · simp [heq]
  · have hne : existing.siloId ≠ initiator.siloId := fun h ↦ heq (siloId_injective h)
    simp [heq, hne.le_iff_lt]

variable [DecidableEq κ]

@[simp] theorem close_connections : (m.close conn).connections = m.connections := rfl

@[simp] theorem close_initiators : (m.close conn).initiators = m.initiators := rfl

@[simp] theorem close_closed : (m.close conn).closed = Function.update m.closed conn true := rfl

/-- What a manager holds for a silo, if the connections it was given are those in `installs`. -/
structure Holds (m : ConnectionManager κ) (remote : SiloAddress)
    (installs : List (κ × SiloAddress)) : Prop where
  connection : m.connections remote = (installs.argmin fun p ↦ p.2.siloId).map Prod.fst
  initiator : ∀ q ∈ installs.argmin fun p ↦ p.2.siloId, m.initiators remote = some q.2
  closed : ∀ p ∈ installs, m.closed p.1 = true ↔ installs.argmin (fun p ↦ p.2.siloId) ≠ some p

theorem Holds.install {installs : List (κ × SiloAddress)} {p : κ × SiloAddress}
    (h : m.Holds remote installs) (hnew : p.1 ∉ installs.map Prod.fst)
    (hopen : m.closed p.1 = false) :
    (m.installConnection p.1 remote p.2).Holds remote (installs ++ [p]) := by
  have hne : ∀ r ∈ installs, r.1 ≠ p.1 := fun r hr he ↦ hnew (he ▸ List.mem_map_of_mem hr)
  cases hmin : installs.argmin fun p ↦ p.2.siloId with
  | none =>
    obtain rfl := List.argmin_eq_none.mp hmin
    rw [installConnection, dedup_free h.connection]
    refine ⟨by simp, fun q hq ↦ ?_, fun r hr ↦ ?_⟩
    · obtain rfl := Option.some.inj hq
      exact register_initiators
    obtain rfl := List.mem_singleton.mp hr
    simp [hopen]
  | some q =>
    have hq : q ∈ installs := List.argmin_mem hmin
    have hconnection : m.connections remote = some q.1 := by rw [h.connection, hmin]; rfl
    have hinitiator : m.initiators remote = some q.2 := h.initiator q hmin
    have hqopen : m.closed q.1 = false := by
      have hclosed := h.closed q hq
      rw [hmin] at hclosed
      simpa using hclosed
    rw [installConnection, dedup_open hconnection hqopen hinitiator]
    by_cases hle : q.2.siloId ≤ p.2.siloId
    · have hlast := argmin_snoc_of_le hmin hle
      rw [if_pos hle]
      refine ⟨by simp [hlast, hconnection], fun q' hq' ↦ ?_, fun r hr ↦ ?_⟩
      · rw [hlast] at hq'
        obtain rfl := Option.some.inj hq'
        exact hinitiator
      rw [hlast]
      rcases List.mem_append.mp hr with hr | hr
      · rw [close_closed, Function.update_of_ne (hne r hr), h.closed r hr, hmin]
      · obtain rfl := List.mem_singleton.mp hr
        rw [close_closed, Function.update_self]
        exact iff_of_true rfl fun he ↦ hne q hq (congrArg Prod.fst (Option.some.inj he))
    · have hlast := argmin_snoc_of_lt hmin (not_le.mp hle)
      rw [if_neg hle]
      refine ⟨by simp [hlast], fun q' hq' ↦ ?_, fun r hr ↦ ?_⟩
      · rw [hlast] at hq'
        obtain rfl := Option.some.inj hq'
        exact register_initiators
      rw [hlast, register_closed, close_closed, takeOut_closed]
      rcases List.mem_append.mp hr with hr | hr
      · refine iff_of_true ?_ fun he ↦ hne r hr (congrArg Prod.fst (Option.some.inj he)).symm
        by_cases hrq : r.1 = q.1
        · rw [hrq, Function.update_self]
        · rw [Function.update_of_ne hrq, h.closed r hr, hmin]
          exact fun he ↦ hrq (congrArg Prod.fst (Option.some.inj he)).symm
      · obtain rfl := List.mem_singleton.mp hr
        rw [Function.update_of_ne (hne q hq).symm, hopen]
        simp

theorem installConnection_closed {c : κ} (hc : c ≠ conn) (h : m.connections remote ≠ some c) :
    (m.installConnection conn remote initiator).closed c = m.closed c := by
  have hdedup : ∀ existing, m.dedup remote initiator = .replace existing →
    m.connections remote = some existing := by
    intro existing he
    unfold dedup at he
    split at he
    · cases he
    · next e hconnection =>
      split_ifs at he
      rw [hconnection, Dedup.replace.inj he]
  rw [installConnection]
  split
  · rfl
  · rw [close_closed, Function.update_of_ne hc]
  · next existing he =>
    rw [register_closed, close_closed, Function.update_of_ne, takeOut_closed]
    rintro rfl
    exact h (hdedup c he)

theorem Holds.installAll {installs : List (κ × SiloAddress)} (h : m.Holds remote installs)
    (rest : List (κ × SiloAddress)) (hnodup : ((installs ++ rest).map Prod.fst).Nodup)
    (hopen : ∀ p ∈ rest, m.closed p.1 = false) :
    (m.installAll remote rest).Holds remote (installs ++ rest) := by
  induction rest generalizing m installs with
  | nil => rwa [List.append_nil]
  | cons p rest ih =>
    have hsplit : installs ++ p :: rest = (installs ++ [p]) ++ rest := by simp
    have hnew : p.1 ∉ installs.map Prod.fst := by
      rw [List.map_append, List.map_cons] at hnodup
      exact fun hp ↦ (List.nodup_append.mp hnodup).2.2 _ hp _ List.mem_cons_self rfl
    rw [hsplit] at hnodup ⊢
    refine ih (h.install hnew (hopen p List.mem_cons_self)) hnodup fun r hr ↦ ?_
    have hrest : r.1 ∉ (installs ++ [p]).map Prod.fst := by
      rw [List.map_append] at hnodup
      exact fun hp ↦ (List.nodup_append.mp hnodup).2.2 _ hp _ (List.mem_map_of_mem hr) rfl
    rw [installConnection_closed]
    · exact hopen r (List.mem_cons_of_mem p hr)
    · rintro he
      exact hrest (he ▸ List.mem_map_of_mem (List.mem_append_right _ List.mem_cons_self))
    · intro hc
      rw [h.connection] at hc
      obtain ⟨q, hq, he⟩ := Option.map_eq_some_iff.mp hc
      exact hrest (he ▸ List.mem_map_of_mem (List.mem_append_left _ (List.argmin_mem hq)))

/-- The connection that survives is the first one among those with the smallest initiator. -/
theorem survivor_of_installs {installs : List (κ × SiloAddress)}
    (hnone : m.connections remote = none) (hnodup : (installs.map Prod.fst).Nodup)
    (hopen : ∀ p ∈ installs, m.closed p.1 = false) :
    (m.installAll remote installs).connections remote =
        (installs.argmin fun p ↦ p.2.siloId).map Prod.fst ∧
      ∀ p ∈ installs, (m.installAll remote installs).closed p.1 = true ↔
        installs.argmin (fun p ↦ p.2.siloId) ≠ some p := by
  have hstart : m.Holds remote [] := ⟨hnone, fun q hq ↦ (nomatch hq), fun p hp ↦ (nomatch hp)⟩
  have hend := hstart.installAll installs hnodup hopen
  exact ⟨hend.connection, hend.closed⟩

end ConnectionManager

end Pyleans
