import Mathlib.Data.List.Nodup
import Pyleans.Library.Table

namespace Pyleans

open Library

abbrev StreamKey := String × String

/-- A stream and its list of subscribers, by the place of the list among `lists`. -/
abbrev Subscribed := StreamKey × ℕ

/-- The lists are objects that `publish` may hold on to after the dictionary has
dropped them; a subscription is its id. -/
structure InMemoryStreamProvider where
  lists : List (List ℕ)
  subscriptions : Table (Prod.fst : Subscribed → StreamKey)
  nextId : ℕ

inductive StreamOp
  | subscribe (key : StreamKey)
  | unsubscribe (key : StreamKey) (id : ℕ)
deriving DecidableEq

def appendsTo (key : StreamKey) : List StreamOp → ℕ
  | [] => 0
  | .subscribe k :: ops => (if k = key then 1 else 0) + appendsTo key ops
  | .unsubscribe k _ :: ops => if k = key then 0 else appendsTo key ops

namespace InMemoryStreamProvider

def new : InMemoryStreamProvider := ⟨[], Table.empty, 0⟩

variable (provider : InMemoryStreamProvider)

def content (list : ℕ) : List ℕ := provider.lists[list]?.getD []

def listOf (key : StreamKey) : Option ℕ := (provider.subscriptions.get key).map Prod.snd

def subscribers (key : StreamKey) : List ℕ := ((provider.listOf key).map provider.content).getD []

def subscribe (key : StreamKey) : InMemoryStreamProvider :=
  match provider.listOf key with
  | some list =>
    ⟨provider.lists.set list (provider.content list ++ [provider.nextId]), provider.subscriptions,
      provider.nextId + 1⟩
  | none =>
    ⟨provider.lists ++ [[provider.nextId]], provider.subscriptions.put (key, provider.lists.length),
      provider.nextId + 1⟩

def unsubscribe (key : StreamKey) (id : ℕ) : InMemoryStreamProvider :=
  let left := (provider.subscribers key).filter (fun s ↦ s ≠ id)
  let subscriptions := provider.subscriptions.put (key, provider.lists.length)
  ⟨provider.lists ++ [left], if left = [] then subscriptions.pop key else subscriptions,
    provider.nextId⟩

def perform : StreamOp → InMemoryStreamProvider
  | .subscribe key => provider.subscribe key
  | .unsubscribe key id => provider.unsubscribe key id

def performAll (ops : List StreamOp) : InMemoryStreamProvider := ops.foldl perform provider

end InMemoryStreamProvider

/-- What a callback raises: an `Exception`, or something that is none, such as a
`CancelledError`. -/
inductive CallbackError (E : Type)
  | exception (e : E)
  | base (e : E)
deriving DecidableEq

/-- What an invocation of a callback does to the streams before it ends, and how it ends. -/
structure Reaction (E : Type) where
  ops : List StreamOp
  raises : Option (CallbackError E)

def Reaction.breaksOff {E : Type} (r : Reaction E) : Bool := r.raises matches some (.base _)

/-- The loop of `publish` over the list it has found, before an invocation. -/
structure Publish (E : Type) where
  provider : InMemoryStreamProvider
  list : ℕ
  position : ℕ
  invoked : List ℕ
  errors : List E
  escaped : Option E

inductive PublishResult (E : Type)
  | returned
  | exceptionGroup (errors : List E)
  | raised (e : E)
deriving DecidableEq

namespace Publish

variable {E : Type}

/-- A stream without an entry gives a list of its own, which is in no dictionary. -/
def start (provider : InMemoryStreamProvider) (key : StreamKey) : Publish E :=
  match provider.listOf key with
  | some list => ⟨provider, list, 0, [], [], none⟩
  | none =>
    ⟨{ provider with lists := provider.lists ++ [[]] }, provider.lists.length, 0, [], [], none⟩

/-- The iterator of a list reads the list as it is now, at the place it has come to. -/
def next (p : Publish E) : Option ℕ :=
  if p.escaped.isSome then none else (p.provider.content p.list)[p.position]?

def step (p : Publish E) (r : Reaction E) : Publish E :=
  match p.next with
  | none => p
  | some id =>
    let provider := p.provider.performAll r.ops
    let invoked := p.invoked ++ [id]
    match r.raises with
    | none => ⟨provider, p.list, p.position + 1, invoked, p.errors, none⟩
    | some (.exception e) => ⟨provider, p.list, p.position + 1, invoked, p.errors ++ [e], none⟩
    | some (.base e) => ⟨provider, p.list, p.position + 1, invoked, p.errors, some e⟩

/-- The loop after at most `n` invocations, where `reactions k` is what the `k`-th of them does. -/
def after (reactions : ℕ → Reaction E) (p : Publish E) : ℕ → Publish E
  | 0 => p
  | n + 1 => (p.after reactions n).step (reactions n)

def result (p : Publish E) : Option (PublishResult E) :=
  match p.escaped, p.next with
  | some e, _ => some (.raised e)
  | none, some _ => none
  | none, none => some (if p.errors = [] then .returned else .exceptionGroup p.errors)

end Publish

namespace InMemoryStreamProvider

variable {provider : InMemoryStreamProvider} {key key' : StreamKey} {list list' id : ℕ}

/-- Ids are used once, and no two streams share a list. -/
structure Sound (provider : InMemoryStreamProvider) : Prop where
  below : ∀ l ∈ provider.lists, ∀ id ∈ l, id < provider.nextId
  nodup : ∀ l ∈ provider.lists, l.Nodup
  kept : ∀ {key list}, provider.listOf key = some list → list < provider.lists.length
  apart : ∀ {key key' list}, provider.listOf key = some list →
    provider.listOf key' = some list → key = key'

def Held (provider : InMemoryStreamProvider) (list : ℕ) : Prop :=
  ∃ key, provider.listOf key = some list

theorem listOf_put (lists : List (List ℕ)) (n : ℕ) :
    (⟨lists, provider.subscriptions.put (key, list), n⟩ : InMemoryStreamProvider).listOf key' =
      if key' = key then some list else provider.listOf key' := by
  simp only [listOf, Table.get_put]
  split_ifs <;> rfl

theorem listOf_put_pop (lists : List (List ℕ)) (n : ℕ) :
    (⟨lists, (provider.subscriptions.put (key, list)).pop key, n⟩ : InMemoryStreamProvider).listOf
      key' =
      if key' = key then none else provider.listOf key' := by
  simp only [listOf, Table.get_pop, Table.get_put]
  split_ifs <;> rfl

theorem content_eq (h : list < provider.lists.length) :
    provider.content list = provider.lists[list] := by
  rw [content, List.getElem?_eq_getElem h, Option.getD_some]

theorem content_mem (h : list < provider.lists.length) :
    provider.content list ∈ provider.lists := by
  rw [content_eq h]
  exact List.getElem_mem h

theorem content_append (l : List ℕ) (subscriptions : Table (Prod.fst : Subscribed → StreamKey))
    (n : ℕ) (h : list < provider.lists.length) :
    (⟨provider.lists ++ [l], subscriptions, n⟩ : InMemoryStreamProvider).content list =
      provider.content list := by
  simp only [content, List.getElem?_append_left h]

theorem Sound.put (hs : provider.Sound) {l : List ℕ} {n : ℕ} (hn : provider.nextId ≤ n)
    (hl : ∀ id ∈ l, id < n) (hd : l.Nodup) :
    Sound ⟨provider.lists ++ [l], provider.subscriptions.put (key, provider.lists.length), n⟩ where
  below l' hl' id hid := by
    rcases List.mem_append.mp hl' with h | h
    · exact Nat.lt_of_lt_of_le (hs.below l' h id hid) hn
    · exact hl id (List.mem_singleton.mp h ▸ hid)
  nodup l' hl' := by
    rcases List.mem_append.mp hl' with h | h
    · exact hs.nodup l' h
    · exact List.mem_singleton.mp h ▸ hd
  kept {k list} h := by
    rw [listOf_put] at h
    rw [List.length_append, List.length_singleton]
    split_ifs at h with hk
    · have := Option.some.inj h
      omega
    · have := hs.kept h
      omega
  apart {k k' list} h h' := by
    rw [listOf_put] at h h'
    split_ifs at h h' with hk hk' hk'
    · rw [hk, hk']
    · have := hs.kept h'
      have := Option.some.inj h
      omega
    · have := hs.kept h
      have := Option.some.inj h'
      omega
    · exact hs.apart h h'

theorem Sound.pop (hs : provider.Sound) {l : List ℕ} (hl : l = []) :
    Sound ⟨provider.lists ++ [l], (provider.subscriptions.put (key, provider.lists.length)).pop key,
      provider.nextId⟩ where
  below l' hl' id hid := by
    rcases List.mem_append.mp hl' with h | h
    · exact hs.below l' h id hid
    · rw [List.mem_singleton.mp h, hl] at hid
      exact absurd hid List.not_mem_nil
  nodup l' hl' := by
    rcases List.mem_append.mp hl' with h | h
    · exact hs.nodup l' h
    · rw [List.mem_singleton.mp h, hl]
      exact List.nodup_nil
  kept {k list} h := by
    rw [listOf_put_pop] at h
    rw [List.length_append]
    split_ifs at h with hk
    exact Nat.lt_add_right _ (hs.kept h)
  apart {k k' list} h h' := by
    rw [listOf_put_pop] at h h'
    split_ifs at h h' with hk hk'
    exact hs.apart h h'

theorem Sound.content_below (hs : provider.Sound) :
    ∀ id ∈ provider.content list, id < provider.nextId := by
  by_cases h : list < provider.lists.length
  · exact hs.below _ (content_mem h)
  · rw [content, List.getElem?_eq_none (by omega)]
    simp

theorem Sound.content_nodup (hs : provider.Sound) : (provider.content list).Nodup := by
  by_cases h : list < provider.lists.length
  · exact hs.nodup _ (content_mem h)
  · rw [content, List.getElem?_eq_none (by omega)]
    exact List.nodup_nil

theorem Sound.grow (hs : provider.Sound) :
    Sound ⟨provider.lists.set list (provider.content list ++ [provider.nextId]),
      provider.subscriptions,
      provider.nextId + 1⟩ where
  below l hl id hid := by
    rcases List.mem_or_eq_of_mem_set hl with h | rfl
    · exact Nat.lt_succ_of_lt (hs.below l h id hid)
    · rcases List.mem_append.mp hid with h | h
      · exact Nat.lt_succ_of_lt (hs.content_below id h)
      · rw [List.mem_singleton.mp h]
        exact Nat.lt_succ_self _
  nodup l hl := by
    rcases List.mem_or_eq_of_mem_set hl with h | rfl
    · exact hs.nodup l h
    · refine List.nodup_append.mpr ⟨hs.content_nodup, List.nodup_singleton _, ?_⟩
      rintro a ha b hb rfl
      exact Nat.ne_of_lt (hs.content_below a ha) (List.mem_singleton.mp hb)
  kept h := by
    rw [List.length_set]
    exact hs.kept h
  apart h h' := hs.apart h h'

theorem Sound.subscribers_nodup (hs : provider.Sound) : (provider.subscribers key).Nodup := by
  rw [subscribers]
  cases provider.listOf key with
  | none => exact List.nodup_nil
  | some list => exact hs.content_nodup

theorem Sound.subscribers_below (hs : provider.Sound) :
    ∀ id ∈ provider.subscribers key, id < provider.nextId := by
  rw [subscribers]
  cases provider.listOf key with
  | none => simp
  | some list => exact hs.content_below

theorem Sound.perform (hs : provider.Sound) (op : StreamOp) : (provider.perform op).Sound := by
  cases op with
  | subscribe key =>
    simp only [InMemoryStreamProvider.perform, subscribe]
    split
    · exact hs.grow
    · refine hs.put (Nat.le_succ _) (fun id hid ↦ ?_) (List.nodup_singleton _)
      rw [List.mem_singleton.mp hid]
      exact Nat.lt_succ_self _
  | unsubscribe key id =>
    simp only [InMemoryStreamProvider.perform, unsubscribe]
    split_ifs with h
    · exact hs.pop h
    · refine hs.put (Nat.le_refl _) (fun i hi ↦ ?_) (hs.subscribers_nodup.filter _)
      exact hs.subscribers_below i (List.mem_of_mem_filter hi)

theorem Sound.performAll (hs : provider.Sound) (ops : List StreamOp) :
    (provider.performAll ops).Sound := by
  induction ops generalizing provider with
  | nil => exact hs
  | cons op ops ih => exact ih (hs.perform op)

theorem sound_new : new.Sound where
  below _ h := absurd h List.not_mem_nil
  nodup _ h := absurd h List.not_mem_nil
  kept h := by simp [listOf, new] at h
  apart h := by simp [listOf, new] at h

theorem performAll_append (ops ops' : List StreamOp) :
    provider.performAll (ops ++ ops') = (provider.performAll ops).performAll ops' :=
  List.foldl_append

theorem content_perform_of_not_held (h : list < provider.lists.length) (hh : ¬ provider.Held list)
    (op : StreamOp) :
    (provider.perform op).content list = provider.content list ∧
      list < (provider.perform op).lists.length ∧ ¬ (provider.perform op).Held list := by
  cases op with
  | subscribe key =>
    simp only [perform, subscribe]
    split
    · next list' hl =>
      have hne : list' ≠ list := fun he ↦ hh ⟨key, he ▸ hl⟩
      refine ⟨?_, by rwa [List.length_set], hh⟩
      simp only [content, List.getElem?_set_ne hne]
    · refine ⟨content_append _ _ _ h, by rw [List.length_append]; omega, ?_⟩
      rintro ⟨k, hk⟩
      rw [listOf_put] at hk
      split_ifs at hk
      · have := Option.some.inj hk
        omega
      · exact hh ⟨k, hk⟩
  | unsubscribe key id =>
    simp only [perform, unsubscribe]
    refine ⟨content_append _ _ _ h, by rw [List.length_append]; omega, ?_⟩
    rintro ⟨k, hk⟩
    split_ifs at hk
    · rw [listOf_put_pop] at hk
      split_ifs at hk
      exact hh ⟨k, hk⟩
    · rw [listOf_put] at hk
      split_ifs at hk
      · have := Option.some.inj hk
        omega
      · exact hh ⟨k, hk⟩

theorem content_performAll_of_not_held (h : list < provider.lists.length)
    (hh : ¬ provider.Held list) (ops : List StreamOp) :
    (provider.performAll ops).content list = provider.content list := by
  induction ops generalizing provider with
  | nil => rfl
  | cons op ops ih =>
    obtain ⟨hc, hlt, hh⟩ := content_perform_of_not_held h hh op
    exact (ih hlt hh).trans hc

theorem Sound.content_subscribe (hs : provider.Sound) (h : provider.listOf key = some list)
    (k : StreamKey) :
    (provider.subscribe k).content list = provider.content list ++
      (if k = key then [provider.nextId] else []) ∧
      (provider.subscribe k).listOf key = some list := by
  rw [subscribe]
  split
  · next list' hl =>
    refine ⟨?_, h⟩
    by_cases hk : k = key
    · obtain rfl : list' = list := by rw [hk, h] at hl; exact (Option.some.inj hl).symm
      rw [if_pos hk]
      simp only [content, List.getElem?_set_self (hs.kept h), Option.getD_some]
    · have hne : list' ≠ list := fun he ↦ hk (hs.apart (he ▸ hl) h)
      rw [if_neg hk, List.append_nil]
      simp only [content, List.getElem?_set_ne hne]
  · next hl =>
    have hk : k ≠ key := by
      rintro rfl
      rw [h] at hl
      cases hl
    rw [if_neg hk, List.append_nil, listOf_put, if_neg (Ne.symm hk)]
    exact ⟨content_append _ _ _ (hs.kept h), h⟩

/-- `unsubscribe` leaves the list as it is and puts another in its place. -/
theorem Sound.content_unsubscribe (hs : provider.Sound) (h : provider.listOf key = some list)
    (k : StreamKey) (id : ℕ) :
    (provider.unsubscribe k id).content list = provider.content list ∧
      list < (provider.unsubscribe k id).lists.length ∧
      if k = key then ¬ (provider.unsubscribe k id).Held list
      else (provider.unsubscribe k id).listOf key = some list := by
  have hlt := hs.kept h
  rw [unsubscribe]
  refine ⟨content_append _ _ _ hlt, by rw [List.length_append]; omega, ?_⟩
  split_ifs with hk hl hl
  · rintro ⟨k', hk'⟩
    rw [listOf_put_pop] at hk'
    split_ifs at hk' with he
    exact he ((hs.apart hk' h).trans hk.symm)
  · rintro ⟨k', hk'⟩
    rw [listOf_put] at hk'
    split_ifs at hk' with he
    · have := Option.some.inj hk'
      omega
    · exact he ((hs.apart hk' h).trans hk.symm)
  · rw [listOf_put_pop, if_neg (Ne.symm hk)]
    exact h
  · rw [listOf_put, if_neg (Ne.symm hk)]
    exact h

/-- The list that is in use grows by what is subscribed to its stream until it is replaced. -/
theorem Sound.content_performAll (hs : provider.Sound) (h : provider.listOf key = some list)
    (ops : List StreamOp) : ∃ added, (provider.performAll ops).content list =
      provider.content list ++ added ∧
      added.length = appendsTo key ops := by
  induction ops generalizing provider with
  | nil => exact ⟨[], (List.append_nil _).symm, rfl⟩
  | cons op ops ih =>
    cases op with
    | subscribe k =>
      obtain ⟨hc, hl⟩ := hs.content_subscribe h k
      obtain ⟨added, ha, hn⟩ := ih (hs.perform (.subscribe k)) hl
      refine ⟨(if k = key then [provider.nextId] else []) ++ added, ?_, ?_⟩
      · rw [← List.append_assoc, ← hc]
        exact ha
      · rw [List.length_append, hn, appendsTo]
        split_ifs <;> rfl
    | unsubscribe k id =>
      obtain ⟨hc, hlt, hl⟩ := hs.content_unsubscribe h k id
      rw [appendsTo]
      split_ifs at hl ⊢ with hk
      · refine ⟨[], ?_, rfl⟩
        rw [List.append_nil, ← hc]
        exact content_performAll_of_not_held hlt hl ops
      · obtain ⟨added, ha, hn⟩ := ih (hs.perform (.unsubscribe k id)) hl
        exact ⟨added, hc ▸ ha, hn⟩

end InMemoryStreamProvider

namespace InMemoryStreamProvider

variable {provider : InMemoryStreamProvider} {key : StreamKey} {list : ℕ}

theorem Sound.lt_performAll (hs : provider.Sound) (h : list < provider.lists.length)
    (ops : List StreamOp) :
    list < (provider.performAll ops).lists.length := by
  induction ops generalizing provider with
  | nil => exact h
  | cons op ops ih =>
    refine ih (hs.perform op) ?_
    by_cases hh : provider.Held list
    · obtain ⟨key, hk⟩ := hh
      cases op with
      | subscribe k => exact (hs.perform (.subscribe k)).kept (hs.content_subscribe hk k).2
      | unsubscribe k id => exact (hs.content_unsubscribe hk k id).2.1
    · exact (content_perform_of_not_held h hh op).2.1

theorem Sound.content_prefix (hs : provider.Sound) (h : list < provider.lists.length)
    (ops : List StreamOp) :
    provider.content list <+: (provider.performAll ops).content list := by
  by_cases hh : provider.Held list
  · obtain ⟨key, hk⟩ := hh
    obtain ⟨added, ha, -⟩ := hs.content_performAll hk ops
    exact ⟨added, ha.symm⟩
  · exact (content_performAll_of_not_held h hh ops).symm ▸ List.prefix_rfl

end InMemoryStreamProvider

def opsUntil {E : Type} (reactions : ℕ → Reaction E) : ℕ → List StreamOp
  | 0 => []
  | n + 1 => opsUntil reactions n ++ (reactions n).ops

theorem opsUntil_isPrefix {E : Type} (reactions : ℕ → Reaction E) {m n : ℕ} (h : m ≤ n) :
    opsUntil reactions m <+: opsUntil reactions n := by
  induction h with
  | refl => exact List.prefix_rfl
  | step _ ih => exact ih.trans (List.prefix_append _ _)

namespace Publish

variable {E : Type} {provider : InMemoryStreamProvider} {key : StreamKey}
  {reactions : ℕ → Reaction E}
  {p : Publish E}

theorem sound_start (hs : provider.Sound) : (start provider key : Publish E).provider.Sound := by
  rw [start]
  split
  · exact hs
  · exact {
      below := fun l hl id hid ↦ by
        rcases List.mem_append.mp hl with h | h
        · exact hs.below l h id hid
        · rw [List.mem_singleton.mp h] at hid
          exact absurd hid List.not_mem_nil
      nodup := fun l hl ↦ by
        rcases List.mem_append.mp hl with h | h
        · exact hs.nodup l h
        · rw [List.mem_singleton.mp h]
          exact List.nodup_nil
      kept := fun h ↦ by
        rw [List.length_append]
        exact Nat.lt_add_right _ (hs.kept h)
      apart := hs.apart }

theorem start_list (hs : provider.Sound) :
    (start provider key : Publish E).list <
      (start provider key : Publish E).provider.lists.length := by
  rw [start]
  split
  · next list h => exact hs.kept h
  · rw [List.length_append]
    exact Nat.lt_succ_self _

/-- What is walked is what was subscribed, followed by what the callbacks have subscribed since. -/
theorem content_start (hs : provider.Sound) (key : StreamKey) (ops : List StreamOp) :
    ∃ added, ((start provider key : Publish E).provider.performAll ops).content
        (start provider key : Publish E).list = provider.subscribers key ++ added ∧
      (added.length = appendsTo key ops ∨ (provider.subscribers key = [] ∧ added = [])) := by
  cases h : provider.listOf key with
  | none =>
    have hp : (start provider key : Publish E) =
        ⟨{ provider with lists := provider.lists ++ [[]] }, provider.lists.length, 0,
          [], [], none⟩ := by
      simp only [start, h]
    have hs' : provider.subscribers key = [] := by rw [InMemoryStreamProvider.subscribers, h]; rfl
    refine ⟨[], ?_, .inr ⟨hs', rfl⟩⟩
    rw [hs', hp, List.append_nil]
    have hh :
      ¬ (⟨provider.lists ++ [[]], provider.subscriptions, provider.nextId⟩ :
      InMemoryStreamProvider).Held
        provider.lists.length := by
      rintro ⟨k, hk⟩
      exact Nat.ne_of_lt (hs.kept hk) rfl
    rw [InMemoryStreamProvider.content_performAll_of_not_held (by simp) hh]
    simp [InMemoryStreamProvider.content]
  | some list =>
    have hp : (start provider key : Publish E) = ⟨provider, list, 0, [], [], none⟩ := by
      simp only [start, h]
    have hs' : provider.subscribers key = provider.content list := by
      rw [InMemoryStreamProvider.subscribers, h]; rfl
    rw [hs', hp]
    obtain ⟨added, ha, hn⟩ := hs.content_performAll h ops
    exact ⟨added, ha, .inl hn⟩

/-- The loop after its invocations so far, by what they have done. -/
structure Walked (reactions : ℕ → Reaction E) (p₀ p : Publish E) : Prop where
  provider : p.provider = p₀.provider.performAll (opsUntil reactions p.position)
  list : p.list = p₀.list
  invoked : p.invoked = (p.provider.content p.list).take p.position
  length : p.invoked.length = p.position
  stopped : ∀ k < p.position, (reactions k).breaksOff → p.escaped.isSome ∧ k + 1 = p.position
  escaped : p.escaped.isSome → ∃ k, k + 1 = p.position ∧ (reactions k).breaksOff

theorem walked_start : Walked reactions (start provider key : Publish E) (start provider key) := by
  have hp : (start provider key : Publish E).position = 0 ∧
    (start provider key : Publish E).invoked = [] ∧
      (start provider key : Publish E).escaped = none := by
    rw [start]
    split <;> exact ⟨rfl, rfl, rfl⟩
  obtain ⟨hpos, hinv, hesc⟩ := hp
  refine ⟨by
    rw [hpos]; rfl, rfl, by rw [hpos, hinv, List.take_zero], by rw [hpos, hinv]; rfl, ?_, ?_⟩
  · rw [hpos]
    exact fun k hk ↦ absurd hk (Nat.not_lt_zero k)
  · rw [hesc]
    exact fun h ↦ absurd h Bool.false_ne_true

theorem next_eq_some {id : ℕ} :
    p.next = some id ↔ p.escaped = none ∧ (p.provider.content p.list)[p.position]? = some id := by
  rw [next]
  cases p.escaped <;> simp

theorem next_eq_none :
    p.next = none ↔ p.escaped.isSome ∨ (p.provider.content p.list).length ≤ p.position := by
  rw [next]
  cases p.escaped <;> simp

theorem step_of_next_eq_none (h : p.next = none) (r : Reaction E) : p.step r = p := by
  rw [step, h]

theorem step_of_next {id : ℕ} (h : p.next = some id) (r : Reaction E) :
    (p.step r).provider = p.provider.performAll r.ops ∧ (p.step r).list = p.list ∧
      (p.step r).position = p.position + 1 ∧ (p.step r).invoked = p.invoked ++ [id] ∧
      (p.step r).escaped.isSome = r.breaksOff := by
  rw [step, h, Reaction.breaksOff]
  cases r.raises with
  | none => exact ⟨rfl, rfl, rfl, rfl, rfl⟩
  | some e => cases e <;> exact ⟨rfl, rfl, rfl, rfl, rfl⟩

theorem Walked.step {p₀ : Publish E} (hs : p₀.provider.Sound)
    (hl : p₀.list < p₀.provider.lists.length) (hw : Walked reactions p₀ p) {id : ℕ}
    (h : p.next = some id) :
    Walked reactions p₀ (p.step (reactions p.position)) := by
  obtain ⟨hprovider, hlist, hposition, hinvoked, hescaped⟩ := step_of_next h (reactions p.position)
  obtain ⟨hesc, hid⟩ := next_eq_some.mp h
  have hlt : p.list < p.provider.lists.length := by
    rw [hw.provider, hw.list]
    exact hs.lt_performAll hl _
  have hsound : p.provider.Sound := hw.provider ▸ hs.performAll _
  have hgoes : ∀ k < p.position, ¬ (reactions k).breaksOff := fun k hk hb ↦ by
    have := (hw.stopped k hk hb).1
    rw [hesc] at this
    exact absurd this Bool.false_ne_true
  constructor
  · rw [hprovider, hposition, hw.provider, opsUntil, InMemoryStreamProvider.performAll_append]
  · rw [hlist, hw.list]
  · obtain ⟨added, ha⟩ := hsound.content_prefix hlt (reactions p.position).ops
    have hlen := (List.getElem?_eq_some_iff.mp hid).1
    rw [hinvoked, hprovider, hlist, hposition, ← ha, List.take_append_of_le_length hlen,
      List.take_add_one, hid, hw.invoked]
    rfl
  · rw [hinvoked, hposition, List.length_append, hw.length]
    rfl
  · intro k hk hb
    rw [hposition] at hk ⊢
    have hk : k = p.position := by
      rcases Nat.lt_succ_iff_lt_or_eq.mp hk with hk | hk
      · exact absurd hb (hgoes k hk)
      · exact hk
    subst hk
    exact ⟨hescaped.trans hb, rfl⟩
  · intro he
    exact ⟨p.position, hposition.symm, hescaped ▸ he⟩

theorem Walked.after {p₀ : Publish E} (hs : p₀.provider.Sound)
    (hl : p₀.list < p₀.provider.lists.length) (h₀ : Walked reactions p₀ p₀) (h0 : p₀.position = 0)
    (n : ℕ) :
    Walked reactions p₀ (p₀.after reactions n) ∧
      ((p₀.after reactions n).next ≠ none → (p₀.after reactions n).position = n) := by
  induction n with
  | zero => exact ⟨h₀, fun _ ↦ h0⟩
  | succ n ih =>
    obtain ⟨hw, hn⟩ := ih
    rw [Publish.after]
    cases h : (p₀.after reactions n).next with
    | none =>
      rw [step_of_next_eq_none h]
      exact ⟨hw, fun hne ↦ absurd h hne⟩
    | some id =>
      have hpos := hn (h ▸ Option.some_ne_none id)
      have hstep := hw.step hs hl h
      rw [hpos] at hstep
      exact ⟨hstep, fun _ ↦ by rw [(step_of_next h _).2.2.1, hpos]⟩

end Publish

/-- `publish` has ended, and has invoked each subscription of the time of the call once, in
order, save those unsubscribed before their turn. -/
structure Delivered {E : Type} (reactions : ℕ → Reaction E) (key : StreamKey) (present : List ℕ)
    (p : Publish E) : Prop where
  ended : p.result.isSome
  inOrder : (p.invoked.filter (fun id ↦ id ∈ present)).Sublist present
  once : ∀ id ∈ present, p.invoked.count id = 1 ∨
    (p.invoked.count id = 0 ∧ .unsubscribe key id ∈ opsUntil reactions p.invoked.length)

/-- The callbacks subscribe to the stream at most as much as the loop can catch up with, and one
that breaks the loop off has left nobody behind it on the list. -/
structure Harmless {E : Type} (reactions : ℕ → Reaction E) (key : StreamKey) (present : List ℕ) :
    Prop where
  catchesUp : ∃ n, present.length + appendsTo key (opsUntil reactions n) ≤ n ∨
    ∃ k < n, (reactions k).breaksOff
  sparesOthers : ∀ k, (reactions k).breaksOff → ∀ j id, k < j → present[j]? = some id →
    .unsubscribe key id ∈ opsUntil reactions (k + 1)

namespace Publish

variable {E : Type} {provider : InMemoryStreamProvider} {key : StreamKey}
  {reactions : ℕ → Reaction E}
  {p : Publish E}

theorem result_isSome : p.result.isSome ↔ p.next = none := by
  rw [result, next]
  cases he : p.escaped with
  | some e => simp
  | none => cases (p.provider.content p.list)[p.position]? <;> simp

theorem Walked.after_start (hs : provider.Sound) (key : StreamKey) (reactions : ℕ → Reaction E)
    (n : ℕ) :
    Walked reactions (start provider key) ((start provider key).after reactions n) ∧
      (((start provider key).after reactions n).next ≠ none →
        ((start provider key).after reactions n).position = n) := by
  refine Walked.after (sound_start hs) (start_list hs) walked_start ?_ n
  rw [start]
  split <;> rfl

theorem Walked.content (hs : provider.Sound) (hw : Walked reactions (start provider key) p) :
    ∃ added, p.provider.content p.list = provider.subscribers key ++ added ∧
      (provider.subscribers key ++ added).Nodup ∧
      (added.length = appendsTo key (opsUntil reactions p.position) ∨
        (provider.subscribers key = [] ∧ added = [])) := by
  obtain ⟨added, ha, hn⟩ := content_start (E := E) hs key (opsUntil reactions p.position)
  refine ⟨added, ?_, ha ▸ ((sound_start hs).performAll _).content_nodup, hn⟩
  rw [hw.provider, hw.list, ha]

/-- A subscription whose place the loop has not come to has not been invoked. -/
theorem Walked.count_eq_zero (hs : provider.Sound) (hw : Walked reactions (start provider key) p)
    {j id : ℕ} (hj : (provider.subscribers key)[j]? = some id) (h : p.position ≤ j) :
    p.invoked.count id = 0 := by
  obtain ⟨added, ha, hd, -⟩ := hw.content hs
  rw [List.count_eq_zero, hw.invoked, ha]
  intro hmem
  obtain ⟨i, hi, hid⟩ := List.mem_take_iff_getElem.mp hmem
  have hjlt := (List.getElem?_eq_some_iff.mp hj).1
  have hid' : (provider.subscribers key ++ added)[j]? = some id := by
    rw [List.getElem?_append_left hjlt, hj]
  obtain ⟨hj', hjid⟩ := List.getElem?_eq_some_iff.mp hid'
  have hi : i < (provider.subscribers key ++ added).length := by omega
  have := (@List.Nodup.getElem_inj_iff _ _ hd i hi j hj').mp (hid.trans hjid.symm)
  omega

theorem Walked.count_eq_one (hs : provider.Sound) (hw : Walked reactions (start provider key) p)
    {j id : ℕ} (hj : (provider.subscribers key)[j]? = some id) (h : j < p.position) :
    p.invoked.count id = 1 := by
  obtain ⟨added, ha, hd, -⟩ := hw.content hs
  rw [hw.invoked, ha]
  have hjlt := (List.getElem?_eq_some_iff.mp hj).1
  refine List.count_eq_one_of_mem (hd.sublist (List.take_sublist _ _))
    (List.mem_of_getElem? (i := j) ?_)
  rw [List.getElem?_take_of_lt h, List.getElem?_append_left hjlt, hj]

theorem Walked.inOrder (hs : provider.Sound) (hw : Walked reactions (start provider key) p) :
    (p.invoked.filter (fun id ↦ id ∈ provider.subscribers key)).Sublist
      (provider.subscribers key) := by
  obtain ⟨added, ha, hd, -⟩ := hw.content hs
  have hall : (provider.subscribers key ++ added).filter (fun id ↦ id ∈ provider.subscribers key) =
      provider.subscribers key := by
    have hout : added.filter (fun id ↦ id ∈ provider.subscribers key) = [] := by
      rw [List.filter_eq_nil_iff]
      intro id hid hmem
      exact (List.nodup_append.mp hd).2.2 id (of_decide_eq_true hmem) id hid rfl
    rw [List.filter_append, hout, List.append_nil, List.filter_eq_self]
    exact fun id hid ↦ decide_eq_true hid
  rw [hw.invoked, ha]
  have hsub := (List.take_sublist p.position (provider.subscribers key ++ added)).filter
    (fun id ↦ id ∈ provider.subscribers key)
  rwa [hall] at hsub

theorem harmless_of_delivered (hs : provider.Sound) {n : ℕ}
    (h : Delivered reactions key (provider.subscribers key)
      ((start provider key).after reactions n)) :
    Harmless reactions key (provider.subscribers key) := by
  obtain ⟨hw, -⟩ := Walked.after_start hs key reactions n
  generalize (start provider key : Publish E).after reactions n = p at h hw
  obtain ⟨added, ha, -, hn⟩ := hw.content hs
  have hend := next_eq_none.mp (result_isSome.mp h.ended)
  refine ⟨?_, ?_⟩
  · rcases hend with he | hlen
    · obtain ⟨k, hk, hb⟩ := hw.escaped he
      exact ⟨p.position, .inr ⟨k, by omega, hb⟩⟩
    · rcases hn with hn | ⟨hnil, -⟩
      · refine ⟨p.position, .inl ?_⟩
        rw [ha, List.length_append, hn] at hlen
        exact hlen
      · exact ⟨0, .inl (by rw [hnil]; exact Nat.le_refl 0)⟩
  · intro k hb j id hkj hj
    have hmem := List.mem_of_getElem? hj
    -- the loop ends at `k` at the latest, or has walked past the list
    have hle : p.position ≤ k + 1 := by
      by_contra hlt
      have := (hw.stopped k (by omega) hb).2
      omega
    rcases h.once id hmem with hone | ⟨-, hun⟩
    · rw [hw.count_eq_zero hs hj (by omega)] at hone
      exact absurd hone (by decide)
    · rw [hw.length] at hun
      exact (opsUntil_isPrefix reactions hle).subset hun

theorem delivered_of_harmless (hs : provider.Sound)
    (h : Harmless reactions key (provider.subscribers key)) :
    ∃ n, Delivered reactions key (provider.subscribers key)
      ((start provider key).after reactions n) := by
  obtain ⟨⟨n, hcatch⟩, hspares⟩ := h
  refine ⟨n, ?_⟩
  obtain ⟨hw, hpos⟩ := Walked.after_start hs key reactions n
  generalize (start provider key : Publish E).after reactions n = p at hw hpos
  obtain ⟨added, ha, -, hn⟩ := hw.content hs
  have hend : p.next = none := by
    by_contra hne
    obtain ⟨id, hid⟩ := Option.ne_none_iff_exists'.mp hne
    obtain ⟨hesc, hid⟩ := next_eq_some.mp hid
    have hp := hpos hne
    rcases hcatch with hle | ⟨k, hk, hb⟩
    · have hlen := (List.getElem?_eq_some_iff.mp hid).1
      rw [ha, List.length_append, hp] at hlen
      rcases hn with hn | ⟨hnil, had⟩
      · rw [hn, hp] at hlen
        omega
      · rw [hnil, had] at hlen
        exact absurd hlen (Nat.not_lt_zero _)
    · have := (hw.stopped k (hp ▸ hk) hb).1
      rw [hesc] at this
      exact absurd this Bool.false_ne_true
  refine ⟨result_isSome.mpr hend, hw.inOrder hs, fun id hid ↦ ?_⟩
  obtain ⟨j, hj⟩ := List.mem_iff_getElem?.mp hid
  by_cases hlt : j < p.position
  · exact .inl (hw.count_eq_one hs hj hlt)
  · refine .inr ⟨hw.count_eq_zero hs hj (by omega), ?_⟩
    rw [hw.length]
    rcases next_eq_none.mp hend with he | hlen
    · obtain ⟨k, hk, hb⟩ := hw.escaped he
      rw [← hk]
      exact hspares k hb j id (by omega) hj
    · have hjlt := (List.getElem?_eq_some_iff.mp hj).1
      rw [ha, List.length_append] at hlen
      omega

end Publish

/-- `publish` delivers to the subscribers it finds exactly when the callbacks do not keep the
loop going and do not break it off. -/
theorem publish_delivers_iff {E : Type} (history : List StreamOp) (key : StreamKey)
    (reactions : ℕ → Reaction E) :
    (∃ n, Delivered reactions key ((InMemoryStreamProvider.new.performAll history).subscribers key)
        ((Publish.start (InMemoryStreamProvider.new.performAll history) key).after reactions n)) ↔
      Harmless reactions key ((InMemoryStreamProvider.new.performAll history).subscribers key) :=
  have hs := InMemoryStreamProvider.sound_new.performAll history
  ⟨fun h ↦ h.elim fun _ hn ↦ Publish.harmless_of_delivered hs hn, Publish.delivered_of_harmless hs⟩

def resubscribing : ℕ → Reaction String := fun _ ↦ ⟨[.subscribe ("orders", "eu")], none⟩

theorem appendsTo_replicate (key : StreamKey) (n : ℕ) :
    appendsTo key (List.replicate n (.subscribe key)) = n := by
  induction n with
  | zero => rfl
  | succ n ih => rw [List.replicate_succ, appendsTo, ih, if_pos rfl, Nat.add_comm]

theorem opsUntil_resubscribing (n : ℕ) :
    opsUntil resubscribing n = List.replicate n (.subscribe ("orders", "eu")) := by
  induction n with
  | zero => rfl
  | succ n ih => rw [opsUntil, ih, List.replicate_succ']; rfl

theorem resubscribing_never_ends :
    ¬ ∃ n, Delivered resubscribing ("orders", "eu")
      ((InMemoryStreamProvider.new.performAll [.subscribe ("orders", "eu")]).subscribers
        ("orders", "eu"))
      ((Publish.start (InMemoryStreamProvider.new.performAll [.subscribe ("orders", "eu")])
        ("orders", "eu")).after
        resubscribing n) := by
  rintro ⟨n, h⟩
  have hs := InMemoryStreamProvider.sound_new.performAll [.subscribe ("orders", "eu")]
  obtain ⟨m, hm | ⟨k, -, hb⟩⟩ := (Publish.harmless_of_delivered hs h).catchesUp
  · rw [opsUntil_resubscribing, appendsTo_replicate] at hm
    have hone : ((InMemoryStreamProvider.new.performAll [.subscribe ("orders", "eu")]).subscribers
      ("orders", "eu")).length = 1 := by decide
    omega
  · exact absurd hb Bool.false_ne_true

end Pyleans
