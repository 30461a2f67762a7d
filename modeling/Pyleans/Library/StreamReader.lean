import Mathlib.Data.List.Basic
import Mathlib.Tactic.SplitIfs

namespace Pyleans.Library

variable {α : Type}

/-- The reading end of a stream: what has arrived and not been read yet, and the
chunks that are still to arrive before the stream ends. -/
structure StreamReader (α : Type) where
  buffer : List α
  arriving : List (List α)

namespace StreamReader

def remaining (r : StreamReader α) : List α := r.buffer ++ r.arriving.flatten

/-- `count` items as soon as they have arrived. A stream that ends before gives
up what there is. -/
def readexactly (r : StreamReader α) (count : ℕ) : Except (List α) (List α × StreamReader α) :=
  go r.buffer r.arriving
where
  go : List α → List (List α) → Except (List α) (List α × StreamReader α)
    | buffer, [] =>
      if count ≤ buffer.length then .ok (buffer.take count, ⟨buffer.drop count, []⟩)
        else .error buffer
    | buffer, chunk :: arriving =>
      if count ≤ buffer.length then .ok (buffer.take count, ⟨buffer.drop count, chunk :: arriving⟩)
      else go (buffer ++ chunk) arriving

/-- How the stream was cut into chunks makes no difference. -/
theorem readexactly_append {r : StreamReader α} {items rest : List α}
    (h : r.remaining = items ++ rest) :
    ∃ r', r.readexactly items.length = .ok (items, r') ∧ r'.remaining = rest := by
  obtain ⟨buffer, arriving⟩ := r
  simp only [remaining, readexactly] at h ⊢
  induction arriving generalizing buffer with
  | nil =>
    simp only [List.flatten_nil, List.append_nil] at h
    subst h
    refine ⟨⟨rest, []⟩, ?_, by simp⟩
    rw [readexactly.go, if_pos (by simp), List.take_left, List.drop_left]
  | cons chunk arriving ih =>
    rw [readexactly.go]
    split_ifs with hlen
    · have hbuffer : buffer = items ++ buffer.drop items.length := by
        have htake := congrArg (List.take items.length) h
        rw [List.take_left, List.take_append_of_le_length hlen] at htake
        conv_lhs => rw [← List.take_append_drop items.length buffer, htake]
      refine ⟨⟨buffer.drop items.length, chunk :: arriving⟩, ?_, ?_⟩
      · rw [hbuffer, List.take_left, List.drop_left]
      · rw [hbuffer, List.append_assoc] at h
        exact List.append_cancel_left h
    · exact ih (buffer ++ chunk) (by rw [← h, List.flatten_cons, List.append_assoc])

theorem readexactly_short {r : StreamReader α} {count : ℕ} (h : r.remaining.length < count) :
    r.readexactly count = .error r.remaining := by
  obtain ⟨buffer, arriving⟩ := r
  simp only [remaining, readexactly] at h ⊢
  induction arriving generalizing buffer with
  | nil =>
    simp only [List.flatten_nil, List.append_nil] at h ⊢
    rw [readexactly.go, if_neg (by omega)]
  | cons chunk arriving ih =>
    rw [List.flatten_cons, ← List.append_assoc] at h ⊢
    have hlen : ¬ count ≤ buffer.length := by
      simp only [List.length_append] at h
      omega
    rw [readexactly.go, if_neg hlen]
    exact ih (buffer ++ chunk) h

theorem readexactly_ok {r r' : StreamReader α} {count : ℕ} {items : List α}
    (h : r.readexactly count = .ok (items, r')) : items.length = count ∧
      r.remaining = items ++ r'.remaining := by
  rcases Nat.lt_or_ge r.remaining.length count with hlt | hge
  · rw [readexactly_short hlt] at h
    cases h
  · have hlen : (r.remaining.take count).length = count := List.length_take_of_le hge
    obtain ⟨r'', hr, hrest⟩ := readexactly_append (List.take_append_drop count r.remaining).symm
    rw [hlen, h] at hr
    obtain ⟨rfl, rfl⟩ := Prod.mk.inj (Except.ok.inj hr)
    rw [hrest]
    exact ⟨hlen, (List.take_append_drop count r.remaining).symm⟩

variable {ε : Type} (makeError : List α → ε)

/-- `count` items, or an error made of what there was. Nothing is read when
nothing is asked for. -/
def readexactlyOrRaise (r : StreamReader α) (count : ℕ) : Except ε (List α × StreamReader α) :=
  if count = 0 then .ok ([], r) else (r.readexactly count).mapError makeError

variable {makeError} {r r' : StreamReader α} {count : ℕ} {items rest : List α}

theorem readexactlyOrRaise_append (makeError : List α → ε) (h : r.remaining = items ++ rest) :
    ∃ r', r.readexactlyOrRaise makeError items.length = .ok (items, r') ∧ r'.remaining = rest := by
  unfold readexactlyOrRaise
  split_ifs with hzero
  · rw [List.length_eq_zero_iff.mp hzero] at h ⊢
    exact ⟨r, rfl, h⟩
  · obtain ⟨r', hr, hrest⟩ := readexactly_append h
    exact ⟨r', by rw [hr]; rfl, hrest⟩

theorem readexactlyOrRaise_ok (h : r.readexactlyOrRaise makeError count = .ok (items, r')) :
    items.length = count ∧ r.remaining = items ++ r'.remaining := by
  unfold readexactlyOrRaise at h
  split_ifs at h with hzero
  · obtain ⟨rfl, rfl⟩ := Prod.mk.inj (Except.ok.inj h)
    exact ⟨hzero.symm, rfl⟩
  · cases hr : r.readexactly count with
    | error e =>
      rw [hr] at h
      cases h
    | ok result =>
      rw [hr] at h
      obtain rfl := Except.ok.inj h
      exact readexactly_ok hr

theorem readexactlyOrRaise_error {e : ε} (h : r.readexactlyOrRaise makeError count = .error e) :
    ∃ partialItems, e = makeError partialItems := by
  unfold readexactlyOrRaise at h
  split_ifs at h
  cases hr : r.readexactly count with
  | error partialItems =>
    rw [hr] at h
    exact ⟨partialItems, (Except.error.inj h).symm⟩
  | ok result =>
    rw [hr] at h
    cases h

end StreamReader

end Pyleans.Library
