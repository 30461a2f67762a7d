import Mathlib.Algebra.Order.Group.Unbundled.Abs
import Mathlib.Data.List.GetD
import Mathlib.Data.Nat.Find
import Mathlib.Tactic.IntervalCases
import Mathlib.Tactic.SplitIfs
import Pyleans.Library.Numerals

/-!
The proleptic Gregorian calendar, the second in which a clock reading lies, and
the text ISO 8601 has for a time in UTC to the
second. -/

namespace Pyleans.Library.Calendar

def isLeap (year : ℕ) : Bool := year % 4 = 0 && (year % 100 ≠ 0 || year % 400 = 0)

def daysInMonth (year month : ℕ) : ℕ :=
  if month = 2 ∧ isLeap year then 29
  else [0, 31, 28, 31, 30, 31, 30, 31, 31, 30, 31, 30, 31].getD month 0

def daysBeforeYear (year : ℕ) : ℕ :=
  let y := year - 1
  y * 365 + y / 4 - y / 100 + y / 400

def daysBeforeMonth (year : ℕ) : ℕ → ℕ
  | 0 => 0
  | month + 1 => daysBeforeMonth year month + daysInMonth year month

/-- The year a day lies in and the days of that year before it. Day one is the
first of January of the year one. -/
def yearDay (ordinal : ℕ) : ℕ × ℕ :=
  let n := ordinal - 1
  let n400 := n / 146097
  let n := n % 146097
  let n100 := n / 36524
  let n := n % 36524
  let n4 := n / 1461
  let n := n % 1461
  let n1 := n / 365
  let year := n400 * 400 + n100 * 100 + n4 * 4 + n1 + 1
  -- the last day of a leap year falls out of the division
  if n1 = 4 ∨ n100 = 4 then (year - 1, 365) else (year, n % 365)

def wholeSeconds (reading : ℚ) : ℤ := if 0 ≤ reading then ⌊reading⌋ else ⌈reading⌉

def microseconds (fraction : ℚ) : ℤ :=
  let product := (Numerals.nearestMagnitude (|fraction| * 10 ^ 6)).getD 0
  Numerals.roundHalfEven (if fraction < 0 then -product else product)

/-- The second in which `datetime.fromtimestamp` sees a clock reading, which it
first rounds to microseconds. -/
def secondOf (reading : ℚ) : ℤ :=
  let whole := wholeSeconds reading
  let us := microseconds (reading - whole)
  if 10 ^ 6 ≤ us then whole + 1 else if us < 0 then whole - 1 else whole

theorem secondOf_intCast (n : ℤ) : secondOf n = n := by
  have hwhole : wholeSeconds n = n := by
    rw [wholeSeconds, Int.floor_intCast, Int.ceil_intCast, ite_self]
  have hnone : microseconds ((n : ℚ) - (n : ℤ)) = 0 := by
    simp [microseconds, Numerals.nearestMagnitude, Numerals.roundHalfEven]
  rw [secondOf, hwhole, hnone]
  rfl

/-- A date and a time of day, in UTC. -/
structure DateTime where
  year : ℕ
  month : ℕ
  day : ℕ
  hour : ℕ
  minute : ℕ
  second : ℕ
deriving DecidableEq

namespace DateTime

structure Valid (d : DateTime) : Prop where
  year : 1 ≤ d.year ∧ d.year ≤ 9999
  month : 1 ≤ d.month ∧ d.month ≤ 12
  day : 1 ≤ d.day ∧ d.day ≤ daysInMonth d.year d.month
  hour : d.hour < 24
  minute : d.minute < 60
  second : d.second < 60

instance (d : DateTime) : Decidable d.Valid :=
  decidable_of_iff ((1 ≤ d.year ∧ d.year ≤ 9999) ∧ (1 ≤ d.month ∧ d.month ≤ 12) ∧
    (1 ≤ d.day ∧ d.day ≤ daysInMonth d.year d.month) ∧ d.hour < 24 ∧ d.minute < 60 ∧ d.second < 60)
    ⟨fun h ↦ ⟨h.1, h.2.1, h.2.2.1, h.2.2.2.1, h.2.2.2.2.1, h.2.2.2.2.2⟩,
      fun h ↦ ⟨h.year, h.month, h.day, h.hour, h.minute, h.second⟩⟩

def ordinal (d : DateTime) : ℕ := daysBeforeYear d.year + daysBeforeMonth d.year d.month + d.day

def timestamp (d : DateTime) : ℤ :=
  ((d.ordinal : ℤ) - 719163) * 86400 + d.hour * 3600 + d.minute * 60 + d.second

/-- There is a date for it from the year 1 to the year 9999. -/
def ofTimestamp (timestamp : ℤ) : Option DateTime :=
  let ordinal := 719163 + timestamp / 86400
  let second := (timestamp % 86400).toNat
  if 1 ≤ ordinal ∧ ordinal ≤ 3652059 then
    let year := (yearDay ordinal.toNat).1
    let day := (yearDay ordinal.toNat).2
    let month := Nat.findGreatest (fun m ↦ daysBeforeMonth year m ≤ day) 12
    some ⟨year, month, day - daysBeforeMonth year month + 1,
      second / 3600, second / 60 % 60, second % 60⟩
  else none

def two (n : ℕ) : List Char := [Nat.digitChar (n / 10 % 10), Nat.digitChar (n % 10)]

def four (n : ℕ) : List Char := two (n / 100) ++ two n

/-- `YYYY-MM-DDTHH:MM:SS+00:00`. -/
def isoformat (d : DateTime) : List Char :=
  four d.year ++ '-' :: two d.month ++ '-' :: two d.day ++
    'T' :: two d.hour ++ ':' :: two d.minute ++
    ':' :: two d.second ++ ['+', '0', '0', ':', '0', '0']

def number (digits : List Char) : ℕ := Nat.ofDigitChars 10 digits 0

def fields (cs : List Char) : DateTime where
  year := number (cs.take 4)
  month := number ((cs.drop 5).take 2)
  day := number ((cs.drop 8).take 2)
  hour := number ((cs.drop 11).take 2)
  minute := number ((cs.drop 14).take 2)
  second := number ((cs.drop 17).take 2)

def ofIsoformat (cs : List Char) : Option DateTime :=
  if (fields cs).Valid ∧ (fields cs).isoformat = cs then some (fields cs) else none

end DateTime

theorem daysInYear (year : ℕ) : daysBeforeMonth year 13 = if isLeap year then 366 else 365 := by
  cases h : isLeap year <;> simp [daysBeforeMonth, daysInMonth, h]

theorem isLeap_iff {year : ℕ} :
    isLeap year = true ↔ year % 4 = 0 ∧ (year % 100 ≠ 0 ∨ year % 400 = 0) := by
  simp [isLeap]

theorem daysBeforeYear_cycles {a b c d : ℕ} (hb : b ≤ 3) (hc : c ≤ 24) (hd : d ≤ 3) :
    daysBeforeYear (a * 400 + b * 100 + c * 4 + d + 1) = a * 146097 + b * 36524 + c *
      1461 + d * 365 := by
  have h4 : (a * 400 + b * 100 + c * 4 + d) / 4 = a * 100 + b * 25 + c := by omega
  have h100 : (a * 400 + b * 100 + c * 4 + d) / 100 = a * 4 + b := by omega
  have h400 : (a * 400 + b * 100 + c * 4 + d) / 400 = a := by omega
  rw [daysBeforeYear, Nat.add_sub_cancel, h4, h100, h400]
  omega

theorem yearDay_spec {ordinal : ℕ} (h : 1 ≤ ordinal) :
    1 ≤ (yearDay ordinal).1 ∧
      daysBeforeYear (yearDay ordinal).1 + (yearDay ordinal).2 + 1 = ordinal ∧
      (yearDay ordinal).2 < daysBeforeMonth (yearDay ordinal).1 13 := by
  obtain ⟨n, rfl⟩ : ∃ n, ordinal = n + 1 := ⟨ordinal - 1, by omega⟩
  have ha := Nat.div_add_mod n 146097
  have ha' := Nat.mod_lt n (show 0 < 146097 by decide)
  rw [yearDay, Nat.add_sub_cancel]
  generalize n / 146097 = a at *
  generalize n % 146097 = r at *
  have hb := Nat.div_add_mod r 36524
  have hb' := Nat.mod_lt r (show 0 < 36524 by decide)
  generalize r / 36524 = b at *
  generalize r % 36524 = r₁ at *
  have hc := Nat.div_add_mod r₁ 1461
  have hc' := Nat.mod_lt r₁ (show 0 < 1461 by decide)
  generalize r₁ / 1461 = c at *
  generalize r₁ % 1461 = r₂ at *
  have hd := Nat.div_add_mod r₂ 365
  have hd' := Nat.mod_lt r₂ (show 0 < 365 by decide)
  generalize r₂ / 365 = d at *
  generalize r₂ % 365 = day at *
  rw [daysInYear]
  by_cases hb4 : b = 4
  · -- the last day of four hundred years
    have hyear : a * 400 + b * 100 + c * 4 + d + 1 - 1 = a * 400 + 3 * 100 + 24 * 4 + 3 + 1 := by
      omega
    rw [if_pos (.inr hb4)]
    dsimp only
    rw [hyear, daysBeforeYear_cycles (b := 3) (c := 24) (d := 3) (by decide) (by decide)
      (by decide), isLeap_iff.mpr (by omega)]
    exact ⟨by omega, by omega, by decide⟩
  by_cases hd4 : d = 4
  · -- the last day of four years
    have hyear : a * 400 + b * 100 + c * 4 + d + 1 - 1 = a * 400 + b * 100 + c * 4 + 3 + 1 := by
      omega
    rw [if_pos (.inl hd4)]
    dsimp only
    rw [hyear, daysBeforeYear_cycles (d := 3) (by omega) (by omega) (by decide),
      isLeap_iff.mpr (by omega)]
    exact ⟨by omega, by omega, by decide⟩
  · rw [if_neg (by omega)]
    dsimp only
    rw [daysBeforeYear_cycles (by omega) (by omega) (by omega)]
    refine ⟨by omega, by omega, ?_⟩
    split_ifs <;> omega

theorem le_of_daysBeforeYear_lt {year : ℕ} (h : daysBeforeYear year < 3652059) : year ≤ 9999 := by
  by_contra hyear
  rw [daysBeforeYear] at h
  omega

theorem month_spec {year day : ℕ} (h : day < daysBeforeMonth year 13) :
    let month := Nat.findGreatest (fun m ↦ daysBeforeMonth year m ≤ day) 12
    (1 ≤ month ∧ month ≤ 12) ∧ daysBeforeMonth year month ≤ day ∧
      day < daysBeforeMonth year month + daysInMonth year month := by
  have hfirst : daysBeforeMonth year 1 ≤ day := by simp [daysBeforeMonth, daysInMonth]
  have hle := Nat.findGreatest_le (P := fun m ↦ daysBeforeMonth year m ≤ day) 12
  refine ⟨⟨Nat.le_findGreatest (by decide) hfirst, hle⟩,
    Nat.findGreatest_spec (P := fun m ↦ daysBeforeMonth year m ≤ day) (m := 1) (by decide) hfirst,
      ?_⟩
  change day < daysBeforeMonth year (Nat.findGreatest (fun m ↦ daysBeforeMonth year m ≤ day) 12 + 1)
  rcases Nat.lt_or_eq_of_le hle with hlt | heq
  · exact not_le.mp (Nat.findGreatest_is_greatest (P := fun m ↦ daysBeforeMonth year m ≤ day)
      (Nat.lt_succ_self _) hlt)
  · rw [heq]
    exact h

namespace DateTime

variable {d : DateTime} {timestamp : ℤ}

/-- The date of a time is one the calendar has, and it is the date of that time only. -/
theorem ofTimestamp_spec (h : ofTimestamp timestamp = some d) :
    d.Valid ∧ d.timestamp = timestamp := by
  rw [ofTimestamp] at h
  dsimp only at h
  split_ifs at h with hrange
  obtain ⟨hyear, hday, hlong⟩ := yearDay_spec (show 1 ≤ (719163 + timestamp / 86400).toNat by omega)
  generalize yearDay (719163 + timestamp / 86400).toNat = found at *
  obtain ⟨year, day⟩ := found
  obtain ⟨hmonth, hbefore, hafter⟩ := month_spec hlong
  dsimp only at *
  generalize Nat.findGreatest (fun m ↦ daysBeforeMonth year m ≤ day) 12 = month at *
  have hlast : year ≤ 9999 := le_of_daysBeforeYear_lt (by omega)
  cases h
  refine ⟨⟨⟨hyear, hlast⟩, hmonth, ?_, ?_, ?_, ?_⟩, ?_⟩
  · dsimp only
    omega
  · dsimp only
    omega
  · dsimp only
    omega
  · dsimp only
    omega
  · rw [DateTime.timestamp, ordinal]
    dsimp only
    omega

theorem number_two {n : ℕ} (h : n < 100) : number (two n) = n := by
  have htens : n / 10 % 10 < 10 := Nat.mod_lt _ (by decide)
  have hones : n % 10 < 10 := Nat.mod_lt _ (by decide)
  rw [number, two, Nat.ofDigitChars_cons_digitChar_of_lt_ten htens,
    Nat.ofDigitChars_cons_digitChar_of_lt_ten hones, Nat.ofDigitChars_nil]
  omega

theorem number_four {n : ℕ} (h : n < 10000) : number (four n) = n := by
  have hhigh := number_two (show n / 100 < 100 by omega)
  have hlow : Nat.ofDigitChars 10 (two n) (n / 100) = n := by
    have htens : n / 10 % 10 < 10 := Nat.mod_lt _ (by decide)
    have hones : n % 10 < 10 := Nat.mod_lt _ (by decide)
    rw [two, Nat.ofDigitChars_cons_digitChar_of_lt_ten htens,
      Nat.ofDigitChars_cons_digitChar_of_lt_ten hones, Nat.ofDigitChars_nil]
    omega
  rw [number, four, Nat.ofDigitChars_append]
  rw [number] at hhigh
  rw [hhigh, hlow]

theorem daysInMonth_le (year month : ℕ) : daysInMonth year month ≤ 31 := by
  rw [daysInMonth]
  split_ifs
  · decide
  · rcases Nat.lt_or_ge month 13 with h | h
    · interval_cases month <;> decide
    · rw [List.getD_eq_default _ _ h]
      exact Nat.zero_le _

theorem Valid.fields_isoformat (h : d.Valid) : fields d.isoformat = d := by
  have hdays := h.day.2.trans (daysInMonth_le _ _)
  have hyear : number (four d.year) = d.year := number_four (by have := h.year; omega)
  have hmonth : number (two d.month) = d.month := number_two (by have := h.month; omega)
  have hday : number (two d.day) = d.day := number_two (by omega)
  have hhour : number (two d.hour) = d.hour := number_two (by have := h.hour; omega)
  have hminute : number (two d.minute) = d.minute := number_two (by have := h.minute; omega)
  have hsecond : number (two d.second) = d.second := number_two (by have := h.second; omega)
  change DateTime.mk (number (four d.year)) (number (two d.month)) (number (two d.day))
    (number (two d.hour))
    (number (two d.minute)) (number (two d.second)) = d
  rw [hyear, hmonth, hday, hhour, hminute, hsecond]

example : (ofTimestamp 951868799).map isoformat = some "2000-02-29T23:59:59+00:00".toList := by
  decide

theorem Valid.ofIsoformat_isoformat (h : d.Valid) : ofIsoformat d.isoformat = some d := by
  rw [ofIsoformat, h.fields_isoformat, if_pos ⟨h, rfl⟩]

def isMark (c : Char) : Bool := c.isDigit || ['-', 'T', ':', '+'].contains c

theorem all_two (n : ℕ) : (two n).all isMark = true := by
  have hdigit : ∀ m, isMark (Nat.digitChar (m % 10)) = true := fun m ↦ by
    rw [isMark, Nat.isDigit_digitChar, decide_eq_true (Nat.mod_lt m (by decide)), Bool.true_or]
  rw [two, List.all_cons, List.all_cons, hdigit, hdigit]
  rfl

theorem all_isoformat (d : DateTime) : d.isoformat.all isMark = true := by
  have hmarks : isMark '-' = true ∧ isMark 'T' = true ∧ isMark ':' = true ∧
    ['+', '0', '0', ':', '0', '0'].all isMark = true := by decide
  simp only [isoformat, four, List.append_assoc, List.cons_append, List.all_append, List.all_cons,
    all_two, hmarks, Bool.and_self]

end DateTime

end Pyleans.Library.Calendar
