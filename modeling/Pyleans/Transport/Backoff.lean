import Mathlib.Algebra.Order.Field.Rat
import Mathlib.Tactic.Linarith
import Mathlib.Tactic.Ring
import Pyleans.Library.Fallible

namespace Pyleans.Backoff

open Library Fallible

/-- The options of the reconnect loop, which nothing checks. -/
structure ReconnectOptions where
  baseDelay : ℚ
  maxDelay : ℚ
  jitterFraction : ℚ

/-- A float that an integer is too large to be converted to. -/
inductive OverflowError
  | intTooLarge
deriving DecidableEq

/-- The exponent of the first power of two that is no float. -/
def MAX_EXPONENT : ℕ := 1024

def floatMul (x : ℚ) (n : ℕ) : Except OverflowError ℚ :=
  if n ≥ 2 ^ MAX_EXPONENT then .error .intTooLarge else .ok (x * n)

/-- `random.uniform`, with a number from 0 to 1 for its chance. -/
def uniform (a b chance : ℚ) : ℚ := a + (b - a) * chance

def backoff (options : ReconnectOptions) (attempt : ℕ) (chance : ℚ) : Except OverflowError ℚ := do
  let exponential ← floatMul options.baseDelay (2 ^ attempt)
  let delay := min exponential options.maxDelay
  let jitterFraction := options.jitterFraction
  let jitter := uniform (-delay * jitterFraction) (delay * jitterFraction) chance
  .ok (max 0 (delay + jitter))

/-- The loop over dials that fail: the number of attempts it has counted, unless it is dead. -/
def failedDials (options : ReconnectOptions) (attempt : ℕ) : List ℚ → Except OverflowError ℕ
  | [] => .ok attempt
  | chance :: chances => do
    let _ ← backoff options attempt chance
    failedDials options (attempt + 1) chances

/-- The delay is defined and keeps to its bounds, whatever the jitter. -/
def DelayBounded (options : ReconnectOptions) (attempt : ℕ) : Prop :=
  ∀ chance, 0 ≤ chance → chance ≤ 1 → ∃ delay, backoff options attempt chance = .ok delay ∧
    0 ≤ delay ∧ delay ≤ options.maxDelay * (1 + options.jitterFraction)

/-- Both ends of the jitter around the smaller of the two delays are within the bound. -/
structure WithinBound (options : ReconnectOptions) (attempt : ℕ) : Prop where
  nonneg : 0 ≤ options.maxDelay * (1 + options.jitterFraction)
  late : min (options.baseDelay * 2 ^ attempt) options.maxDelay * (1 + options.jitterFraction) ≤
    options.maxDelay * (1 + options.jitterFraction)
  early : min (options.baseDelay * 2 ^ attempt) options.maxDelay * (1 - options.jitterFraction) ≤
    options.maxDelay * (1 + options.jitterFraction)

variable {options : ReconnectOptions} {attempt : ℕ}

theorem backoff_of_lt (h : attempt < MAX_EXPONENT) (chance : ℚ) : backoff options attempt chance =
    .ok (max 0 (min (options.baseDelay * 2 ^ attempt) options.maxDelay +
      uniform (-min (options.baseDelay * 2 ^ attempt) options.maxDelay * options.jitterFraction)
        (min (options.baseDelay * 2 ^ attempt) options.maxDelay * options.jitterFraction)
          chance)) := by
  have hpow : ¬ 2 ^ attempt ≥ 2 ^ MAX_EXPONENT := not_le.mpr (Nat.pow_lt_pow_right (by decide) h)
  unfold backoff floatMul
  rw [if_neg hpow, ok_bind, Nat.cast_pow, Nat.cast_ofNat]

theorem backoff_of_le (h : MAX_EXPONENT ≤ attempt) (chance : ℚ) :
    backoff options attempt chance = .error .intTooLarge := by
  unfold backoff floatMul
  rw [if_pos (Nat.pow_le_pow_right (by decide) h), error_bind]

/-- The two ends bound everything between them. -/
theorem add_uniform_le {delay fraction bound chance : ℚ} (h0 : 0 ≤ chance) (h1 : chance ≤ 1)
    (hlate : delay * (1 + fraction) ≤ bound) (hearly : delay * (1 - fraction) ≤ bound) :
    delay + uniform (-delay * fraction) (delay * fraction) chance ≤ bound := by
  calc delay + uniform (-delay * fraction) (delay * fraction) chance
      = chance * (delay * (1 + fraction)) + (1 - chance) * (delay * (1 - fraction)) := by
        unfold uniform; ring
    _ ≤ chance * bound + (1 - chance) * bound :=
        add_le_add (mul_le_mul_of_nonneg_left hlate h0)
          (mul_le_mul_of_nonneg_left hearly (by linarith))
    _ = bound := by ring

/-- The delay is bounded for as long as the attempts are fewer than 1024, and the options make
sense. -/
theorem delayBounded_iff (options : ReconnectOptions) (attempt : ℕ) :
    DelayBounded options attempt ↔ attempt < MAX_EXPONENT ∧ WithinBound options attempt := by
  constructor
  · intro h
    have hlt : attempt < MAX_EXPONENT := by
      by_contra hge
      obtain ⟨delay, hdelay, -⟩ := h 0 le_rfl zero_le_one
      rw [backoff_of_le (not_lt.mp hge)] at hdelay
      cases hdelay
    have hbound : ∀ chance, 0 ≤ chance → chance ≤ 1 →
        max 0 (min (options.baseDelay * 2 ^ attempt) options.maxDelay +
          uniform (-min (options.baseDelay * 2 ^ attempt) options.maxDelay * options.jitterFraction)
            (min (options.baseDelay * 2 ^ attempt) options.maxDelay * options.jitterFraction)
              chance) ≤
          options.maxDelay * (1 + options.jitterFraction) := by
      intro chance h0 h1
      obtain ⟨delay, hdelay, -, hle⟩ := h chance h0 h1
      rw [backoff_of_lt hlt] at hdelay
      exact Except.ok.inj hdelay ▸ hle
    have hearly := max_le_iff.mp (hbound 0 le_rfl zero_le_one)
    have hlate := max_le_iff.mp (hbound 1 zero_le_one le_rfl)
    refine ⟨hlt, hearly.1, ?_, ?_⟩
    · refine le_of_eq_of_le ?_ hlate.2
      unfold uniform
      ring
    · refine le_of_eq_of_le ?_ hearly.2
      unfold uniform
      ring
  · rintro ⟨hlt, hwithin⟩ chance h0 h1
    refine ⟨_, backoff_of_lt hlt chance, le_max_left _ _, max_le hwithin.nonneg ?_⟩
    exact add_uniform_le h0 h1 hwithin.late hwithin.early

/-- The loop does not live to see its 1025th dial. -/
theorem failedDials_alive_iff (chances : List ℚ) (attempt : ℕ) (hattempt : attempt ≤ MAX_EXPONENT) :
    (∃ n, failedDials options attempt chances = .ok n) ↔
      attempt + chances.length ≤ MAX_EXPONENT := by
  induction chances generalizing attempt with
  | nil => exact iff_of_true ⟨attempt, rfl⟩ hattempt
  | cons chance chances ih =>
    rw [failedDials, List.length_cons]
    by_cases hlt : attempt < MAX_EXPONENT
    · rw [backoff_of_lt hlt, ok_bind, ih (attempt + 1) hlt]
      omega
    · rw [backoff_of_le (not_lt.mp hlt), error_bind]
      exact iff_of_false (fun ⟨_, h⟩ ↦ nomatch h) (by omega)

/-- Options that are not negative make sense at every attempt. -/
theorem withinBound_of_nonneg (hbase : 0 ≤ options.baseDelay) (hmax : 0 ≤ options.maxDelay)
    (hfraction : 0 ≤ options.jitterFraction) (attempt : ℕ) : WithinBound options attempt := by
  have hdelay : 0 ≤ min (options.baseDelay * 2 ^ attempt) options.maxDelay :=
    le_min (mul_nonneg hbase (pow_nonneg zero_le_two attempt)) hmax
  have hle := min_le_right (options.baseDelay * 2 ^ attempt) options.maxDelay
  have hlate := mul_le_mul_of_nonneg_right hle (by linarith : 0 ≤ 1 + options.jitterFraction)
  refine ⟨mul_nonneg hmax (by linarith), hlate, le_trans ?_ hlate⟩
  exact mul_le_mul_of_nonneg_left (by linarith) hdelay

def defaultOptions : ReconnectOptions := ⟨1 / 10, 30, 3 / 10⟩

theorem delay_overflows :
    ¬ ∀ (options : ReconnectOptions) (attempt : ℕ), DelayBounded options attempt := by
  intro h
  obtain ⟨delay, hdelay, -⟩ := h defaultOptions MAX_EXPONENT 0 le_rfl zero_le_one
  rw [backoff_of_le le_rfl] at hdelay
  cases hdelay

end Pyleans.Backoff
