import Mathlib.Algebra.Order.Field.Rat
import Mathlib.Data.Int.Log
import Mathlib.Data.Rat.Floor
import Mathlib.Tactic.SplitIfs

namespace Pyleans.Library

/-- A floating-point number. Which rationals a double can hold makes no
difference to anything but rounding; a zero has no sign. -/
inductive PyFloat
  | finite (q : ℚ)
  | infinity (negative : Bool)
  | nan
deriving DecidableEq

namespace Numerals

/-- The zeros of the decimal digits of Unicode 15, each followed by its nine others. -/
def digitZeros : List ℕ :=
  [0x30, 0x660, 0x6f0, 0x7c0, 0x966, 0x9e6, 0xa66, 0xae6, 0xb66, 0xbe6, 0xc66, 0xce6, 0xd66, 0xde6,
    0xe50, 0xed0, 0xf20, 0x1040, 0x1090, 0x17e0, 0x1810, 0x1946, 0x19d0, 0x1a80, 0x1a90, 0x1b50,
    0x1bb0, 0x1c40, 0x1c50, 0xa620, 0xa8d0, 0xa900, 0xa9d0, 0xa9f0, 0xaa50, 0xabf0, 0xff10, 0x104a0,
    0x10d30, 0x11066, 0x110f0, 0x11136, 0x111d0, 0x112f0, 0x11450, 0x114d0, 0x11650, 0x116c0,
    0x11730, 0x118e0, 0x11950, 0x11c50, 0x11d50, 0x11da0, 0x11f50, 0x16a60, 0x16ac0, 0x16b50,
    0x1d7ce, 0x1d7d8, 0x1d7e2, 0x1d7ec, 0x1d7f6, 0x1e140, 0x1e2f0, 0x1e4f0, 0x1e950, 0x1fbf0]

def asciiDigit (c : Char) : Option Char :=
  (digitZeros.find? fun z ↦ z ≤ c.toNat ∧ c.toNat < z + 10).map fun z ↦
    Char.ofNat (48 + (c.toNat - z))

def isSpace (c : Char) : Bool :=
  (9 ≤ c.toNat && c.toNat ≤ 13) || (0x2000 ≤ c.toNat && c.toNat ≤ 0x200a) ||
    [0x20, 0x85, 0xa0, 0x1680, 0x2028, 0x2029, 0x202f, 0x205f, 0x3000].contains c.toNat

def strip (cs : List Char) : List Char :=
  (((cs.dropWhile isSpace).reverse).dropWhile isSpace).reverse

/-- A digit part: digits with single underscores between them. -/
def digits : Bool → List Char → Option (List Char)
  | afterDigit, [] => if afterDigit then some [] else none
  | afterDigit, c :: cs =>
    if c = '_' then if afterDigit then digits false cs else none
    else
      match asciiDigit c with
      | none => none
      | some d => (digits true cs).map (d :: ·)

def parseNat (cs : List Char) : Option ℕ := (digits false cs).map fun ds ↦ Nat.ofDigitChars 10 ds 0

def signed : List Char → Bool × List Char
  | '-' :: cs => (true, cs)
  | '+' :: cs => (false, cs)
  | cs => (false, cs)

/-- `int(text)`, but for the interpreter's limit on the number of digits. -/
def parseInt (text : String) : Option ℤ :=
  let (negative, cs) := signed (strip text.toList)
  (parseNat cs).map fun n : ℕ ↦ if negative then -(n : ℤ) else n

/-- The digits that count towards that limit, leading zeros too. -/
def digitCount (text : String) : ℕ := text.toList.countP fun c ↦ (asciiDigit c).isSome

/-- To the nearest integer, a half to the even one. -/
def roundHalfEven (q : ℚ) : ℤ :=
  if q - ⌊q⌋ < 1 / 2 then ⌊q⌋
  else if 1 / 2 < q - ⌊q⌋ then ⌊q⌋ + 1
  else if ⌊q⌋ % 2 = 0 then ⌊q⌋
  else ⌊q⌋ + 1

def nearestMagnitude (q : ℚ) : Option ℚ :=
  if q = 0 then some 0
  else
    let ulp : ℚ := 2 ^ max (Int.log 2 q - 52) (-1074)
    let nearest := roundHalfEven (q / ulp) * ulp
    if nearest < 2 ^ 1024 then some nearest else none

def nearestDouble (negative : Bool) (q : ℚ) : PyFloat :=
  match nearestMagnitude q with
  | none => .infinity negative
  | some nearest => .finite (if negative then -nearest else nearest)

def parseMantissa (cs : List Char) : Option (List Char × List Char) :=
  match cs.dropWhile (· ≠ '.') with
  | [] => (digits false cs).map (·, [])
  | _ :: fraction =>
    match cs.takeWhile (· ≠ '.'), fraction with
    | [], [] => none
    | [], fraction => (digits false fraction).map ([], ·)
    | whole, [] => (digits false whole).map (·, [])
    | whole, fraction => (digits false whole).bind fun w ↦ (digits false fraction).map (w, ·)

def parseExponent : List Char → Option ℤ
  | [] => some 0
  | _ :: cs =>
    let (negative, ds) := signed cs
    (parseNat ds).map fun n : ℕ ↦ if negative then -(n : ℤ) else n

def parseFloat (text : String) : Option PyFloat :=
  let (negative, cs) := signed (strip text.toList)
  let lower := String.ofList (cs.map Char.toLower)
  if lower = "inf" ∨ lower = "infinity" then some (.infinity negative)
  else if lower = "nan" then some .nan
  else
    match parseMantissa (cs.takeWhile fun c ↦ c.toLower ≠ 'e'),
      parseExponent (cs.dropWhile fun c ↦ c.toLower ≠ 'e') with
    | some (whole, fraction), some exponent =>
      some (nearestDouble negative
        (Nat.ofDigitChars 10 (whole ++ fraction) 0 * 10 ^ (exponent - fraction.length)))
    | _, _ => none

variable {c : Char} {cs : List Char}

theorem toNat_of_isDigit (h : c.isDigit = true) : 48 ≤ c.toNat ∧ c.toNat ≤ 57 := by
  simp only [Char.isDigit, Bool.and_eq_true, decide_eq_true_eq, ge_iff_le, UInt32.le_iff_toNat_le]
    at h
  exact h

theorem asciiDigit_of_isDigit (h : c.isDigit = true) : asciiDigit c = some c := by
  have hrange := toNat_of_isDigit h
  have hfind : digitZeros.find? (fun z ↦ z ≤ c.toNat ∧ c.toNat < z + 10) = some 48 :=
    List.find?_cons_of_pos (decide_eq_true ⟨hrange.1, by omega⟩)
  have hsame : 48 + (c.toNat - 48) = c.toNat := by omega
  rw [asciiDigit, hfind, Option.map_some, hsame, Char.ofNat_toNat]

theorem ne_of_isDigit {d : Char} (h : c.isDigit = true) (hd : d.isDigit = false) : c ≠ d := by
  rintro rfl
  rw [h] at hd
  cases hd

theorem isSpace_of_isDigit (h : c.isDigit = true) : isSpace c = false := by
  have hrange := toNat_of_isDigit h
  simp only [isSpace, List.contains_cons, List.contains_nil, Bool.or_eq_false_iff,
    Bool.and_eq_false_iff, decide_eq_false_iff_not, beq_eq_false_iff_ne, and_true]
  omega

theorem digits_of_isDigit (h : ∀ c ∈ cs, c.isDigit = true) : digits true cs = some cs := by
  induction cs with
  | nil => rfl
  | cons c cs ih =>
    have hc := h c List.mem_cons_self
    rw [digits, if_neg (ne_of_isDigit hc rfl), asciiDigit_of_isDigit hc]
    dsimp only
    rw [ih fun d hd ↦ h d (List.mem_cons_of_mem c hd), Option.map_some]

theorem isDigit_of_mem_toDigits (n : ℕ) : ∀ c ∈ Nat.toDigits 10 n, c.isDigit = true := fun _ hc ↦
  Nat.isDigit_of_mem_toDigits (by decide) (by decide) hc

theorem parseNat_toDigits (n : ℕ) : parseNat (Nat.toDigits 10 n) = some n := by
  have hdigits : digits false (Nat.toDigits 10 n) = some (Nat.toDigits 10 n) := by
    have hall := isDigit_of_mem_toDigits n
    cases hn : Nat.toDigits 10 n with
    | nil => exact absurd hn Nat.toDigits_ne_nil
    | cons c cs =>
      rw [hn] at hall
      have hc := hall c List.mem_cons_self
      rw [digits, if_neg (ne_of_isDigit hc rfl), asciiDigit_of_isDigit hc]
      dsimp only
      rw [digits_of_isDigit fun d hd ↦ hall d (List.mem_cons_of_mem c hd), Option.map_some]
  rw [parseNat, hdigits, Option.map_some, Nat.ofDigitChars_ten_toDigits]

theorem dropWhile_of_notSpace (h : ∀ c ∈ cs, isSpace c = false) : cs.dropWhile isSpace = cs := by
  cases cs with
  | nil => rfl
  | cons c cs => rw [List.dropWhile_cons_of_neg (by simp [h c List.mem_cons_self])]

theorem strip_of_notSpace (h : ∀ c ∈ cs, isSpace c = false) : strip cs = cs := by
  rw [strip, dropWhile_of_notSpace h, dropWhile_of_notSpace fun c hc ↦ h c (List.mem_reverse.mp hc),
    List.reverse_reverse]

theorem signed_of_isDigit (h : c.isDigit = true) (cs : List Char) :
    signed (c :: cs) = (false, c :: cs) := by
  unfold signed
  split
  · next heq => exact absurd (List.cons.inj heq).1 (ne_of_isDigit h rfl)
  · next heq => exact absurd (List.cons.inj heq).1 (ne_of_isDigit h rfl)
  · rfl

theorem signed_toDigits (n : ℕ) : signed (Nat.toDigits 10 n) = (false, Nat.toDigits 10 n) := by
  have hall := isDigit_of_mem_toDigits n
  cases hn : Nat.toDigits 10 n with
  | nil => exact absurd hn Nat.toDigits_ne_nil
  | cons c cs => exact signed_of_isDigit (hall c (hn ▸ List.mem_cons_self)) cs

theorem parseInt_repr (n : ℤ) : parseInt n.repr = some n := by
  have hspace : ∀ m, ∀ c ∈ Nat.toDigits 10 m, isSpace c = false := fun m c hc ↦
    isSpace_of_isDigit (isDigit_of_mem_toDigits m c hc)
  cases n with
  | ofNat m =>
    have htext : (Int.ofNat m).repr.toList = Nat.toDigits 10 m := Nat.toList_repr
    rw [parseInt, htext, strip_of_notSpace (hspace m), signed_toDigits]
    dsimp only
    rw [parseNat_toDigits]
    rfl
  | negSucc m =>
    have htext : (Int.negSucc m).repr.toList = '-' :: Nat.toDigits 10 (m + 1) := by
      simp [Int.repr, Nat.toList_repr]
    have hstrip : strip ('-' :: Nat.toDigits 10 (m + 1)) = '-' :: Nat.toDigits 10 (m + 1) :=
      strip_of_notSpace (List.forall_mem_cons.mpr ⟨by decide, hspace (m + 1)⟩)
    rw [parseInt, htext, hstrip, signed]
    dsimp only
    rw [parseNat_toDigits]
    rfl

example : parseInt " -1_024 " = some (-1024) := by decide

example : parseInt "1__0" = none := by decide

end Numerals

end Pyleans.Library
