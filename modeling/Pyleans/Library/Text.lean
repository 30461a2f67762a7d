import Mathlib.Data.List.DropRight
import Pyleans.Library.Numerals

namespace Pyleans.Library.Text

/-- `str.isspace` of one character, four controls more than `int` skips. -/
def isSpace (c : Char) : Bool := Numerals.isSpace c || (0x1c ≤ c.toNat && c.toNat ≤ 0x1f)

/-- Where `str.splitlines` ends a line. -/
def isLineBreak (c : Char) : Bool :=
  (10 ≤ c.toNat && c.toNat ≤ 13) || (0x1c ≤ c.toNat && c.toNat ≤ 0x1e) ||
    [0x85, 0x2028, 0x2029].contains c.toNat

def splitlines : List Char → List (List Char)
  | [] => []
  | '\r' :: '\n' :: cs => [] :: splitlines cs
  | c :: cs =>
    if isLineBreak c then [] :: splitlines cs
    else
      match splitlines cs with
      | [] => [[c]]
      | line :: lines => (c :: line) :: lines

def strip (chars : Char → Bool) (cs : List Char) : List Char :=
  (cs.dropWhile chars).rdropWhile chars

/-- `text.rsplit(sep, 1)`, nothing where `sep` is not in the text. -/
def rsplit (sep : Char) : List Char → Option (List Char × List Char)
  | [] => none
  | c :: cs =>
    match rsplit sep cs with
    | some (before, after) => some (c :: before, after)
    | none => if c = sep then some ([], cs) else none

theorem isSpace_of_isDigit {c : Char} (h : c.isDigit = true) : isSpace c = false := by
  have hrange := Numerals.toNat_of_isDigit h
  rw [isSpace, Numerals.isSpace_of_isDigit h, Bool.false_or, Bool.and_eq_false_iff]
  exact .inr (decide_eq_false (by omega))

theorem isLineBreak_of_not_isSpace {c : Char} (h : isSpace c = false) : isLineBreak c = false := by
  simp only [isSpace, Numerals.isSpace, isLineBreak, Bool.or_eq_false_iff, Bool.and_eq_false_iff,
    decide_eq_false_iff_not, List.contains_cons, List.contains_nil, beq_eq_false_iff_ne, and_true]
    at h ⊢
  omega

section Strip

variable {chars : Char → Bool} {c : Char} {cs ds : List Char}

theorem strip_cons_pos (h : chars c = true) : strip chars (c :: cs) = strip chars cs := by
  rw [strip, strip, List.dropWhile_cons_of_pos h]

theorem strip_concat_pos (h : chars c = true) : strip chars (cs ++ [c]) = strip chars cs := by
  rw [strip, strip, List.dropWhile_append]
  cases hcs : cs.dropWhile chars with
  | nil => simp [h]
  | cons d ds =>
    rw [List.isEmpty_cons, if_neg Bool.false_ne_true, List.rdropWhile_concat_pos _ _ _ h]

theorem strip_sublist (chars : Char → Bool) (cs : List Char) : (strip chars cs).Sublist cs :=
  (List.rdropWhile_prefix chars _).sublist.trans (List.dropWhile_sublist chars)

theorem strip_cons_neg (h : chars c = false) :
    strip chars (c :: cs) = (c :: cs).rdropWhile chars := by
  rw [strip, List.dropWhile_cons_of_neg (by simp [h])]

theorem strip_of_ends (hc : chars c = false) {d : Char} (hd : chars d = false)
    (h : c :: cs = ds ++ [d]) :
    strip chars (c :: cs) = c :: cs := by
  rw [strip_cons_neg hc, h, List.rdropWhile_concat_neg _ _ _ (by simp [hd])]

theorem strip_of_forall (h : ∀ c ∈ cs, chars c = false) : strip chars cs = cs := by
  cases cs with
  | nil => rfl
  | cons c cs =>
    have hlast := List.dropLast_append_getLast (List.cons_ne_nil c cs)
    exact strip_of_ends (h c List.mem_cons_self)
      (h _ (List.getLast_mem (List.cons_ne_nil c cs))) hlast.symm

theorem strip_concat_neg (h : chars c = false) :
    strip chars (cs ++ [c]) = cs.dropWhile chars ++ [c] := by
  rw [strip, List.dropWhile_append]
  cases hcs : cs.dropWhile chars with
  | nil => simp [h, List.rdropWhile_singleton]
  | cons d ds =>
    rw [List.isEmpty_cons, if_neg Bool.false_ne_true,
      List.rdropWhile_concat_neg _ _ _ (by simp [h])]

/-- A text whose last character is not stripped. -/
def Ends (chars : Char → Bool) (cs : List Char) : Prop :=
  ∃ init c, cs = init ++ [c] ∧ chars c = false

theorem Ends.ne_nil (h : Ends chars cs) : cs ≠ [] := by
  obtain ⟨init, c, rfl, -⟩ := h
  exact List.append_ne_nil_of_right_ne_nil init (List.cons_ne_nil c [])

theorem Ends.append (h : Ends chars ds) (cs : List Char) : Ends chars (cs ++ ds) := by
  obtain ⟨init, c, rfl, hc⟩ := h
  exact ⟨cs ++ init, c, by rw [List.append_assoc], hc⟩

theorem Ends.of_forall (hne : cs ≠ []) (h : ∀ c ∈ cs, chars c = false) : Ends chars cs :=
  ⟨cs.dropLast, cs.getLast hne, (List.dropLast_append_getLast hne).symm, h _ (List.getLast_mem hne)⟩

theorem Ends.strip (h : Ends chars cs) : strip chars cs = cs.dropWhile chars := by
  obtain ⟨init, c, rfl, hc⟩ := h
  rw [strip_concat_neg hc, List.dropWhile_append]
  cases hinit : init.dropWhile chars with
  | nil => simp [hc]
  | cons d ds => rfl

/-- At the end of a text, what follows a stripped character is stripped by
itself, and with all of it gone so is the character. -/
theorem rdropWhile_append_cons (h : chars c = true) (cs ds : List Char) :
    (cs ++ c :: ds).rdropWhile chars =
      if ds.rdropWhile chars = [] then cs.rdropWhile chars else cs ++ c :: ds.rdropWhile chars := by
  have hreverse : (cs ++ c :: ds).reverse = ds.reverse ++ c :: cs.reverse := by simp
  rw [List.rdropWhile, hreverse, List.dropWhile_append]
  cases hds : ds.reverse.dropWhile chars with
  | nil =>
    rw [if_pos (by rfl), if_pos (by rw [List.rdropWhile, hds]; rfl), List.dropWhile_cons_of_pos h,
      List.rdropWhile]
  | cons d rest =>
    have hds' : ds.rdropWhile chars = (d :: rest).reverse := by rw [List.rdropWhile, hds]
    rw [if_neg (by simp), hds', if_neg (by simp), List.reverse_append, List.reverse_cons,
      List.reverse_reverse, List.append_assoc]
    rfl

theorem Ends.intercalate {sep : List Char} {parts : List (List Char)} (hne : parts ≠ [])
    (h : ∀ part ∈ parts, Ends chars part) : Ends chars (sep.intercalate parts) := by
  induction parts with
  | nil => exact absurd rfl hne
  | cons part parts ih =>
    obtain ⟨hpart, hparts⟩ := List.forall_mem_cons.mp h
    cases parts with
    | nil =>
      rw [List.intercalate_singleton]
      exact hpart
    | cons part' parts =>
      rw [List.intercalate_cons_cons]
      exact (ih (List.cons_ne_nil _ _) hparts).append _

theorem dropWhile_append_neg (h : chars c = false) (cs ds : List Char) :
    (cs ++ c :: ds).dropWhile chars = cs.dropWhile chars ++ c :: ds := by
  rw [List.dropWhile_append]
  cases hcs : cs.dropWhile chars with
  | nil => simp [h]
  | cons d ds => rfl

end Strip

section Splitlines

variable {c : Char} {cs line rest : List Char}

theorem splitlines_cons_break (h : isLineBreak c = true) (hc : c ≠ '\r') (cs : List Char) :
    splitlines (c :: cs) = [] :: splitlines cs := by
  rw [splitlines, if_pos h]
  exact fun _ hr _ ↦ hc hr

theorem splitlines_line (hline : ∀ d ∈ line, isLineBreak d = false) (h : isLineBreak c = true)
    (hc : c ≠ '\r') (rest : List Char) :
    splitlines (line ++ c :: rest) = line :: splitlines rest := by
  induction line with
  | nil => exact splitlines_cons_break h hc rest
  | cons d line ih =>
    obtain ⟨hd, hline⟩ := List.forall_mem_cons.mp hline
    have hr : d ≠ '\r' := by
      rintro rfl
      exact absurd hd (by decide)
    rw [List.cons_append, splitlines, if_neg (by simp [hd]), ih hline]
    exact fun _ h _ ↦ hr h

theorem line_cases (cs : List Char) :
    (∀ d ∈ cs, isLineBreak d = false) ∨
      ∃ line c rest, cs = line ++ c :: rest ∧ (∀ d ∈ line, isLineBreak d = false) ∧
        isLineBreak c = true := by
  induction cs with
  | nil => exact .inl (List.forall_mem_nil _)
  | cons d cs ih =>
    cases hd : isLineBreak d with
    | true => exact .inr ⟨[], d, cs, rfl, List.forall_mem_nil _, hd⟩
    | false =>
      rcases ih with ih | ⟨line, c, rest, rfl, hline, hc⟩
      · exact .inl (List.forall_mem_cons.mpr ⟨hd, ih⟩)
      · exact .inr ⟨d :: line, c, rest, rfl, List.forall_mem_cons.mpr ⟨hd, hline⟩, hc⟩

theorem splitlines_append (h : '\r' ∉ cs) (rest : List Char) :
    splitlines (cs ++ '\n' :: rest) = splitlines (cs ++ ['\n']) ++ splitlines rest := by
  induction hn : cs.length using Nat.strong_induction_on generalizing cs with
  | _ n ih =>
    rcases line_cases cs with hline | ⟨line, c, after, rfl, hline, hc⟩
    · rw [splitlines_line hline rfl (by decide), splitlines_line hline rfl (by decide)]
      rfl
    · have hr : c ≠ '\r' := by
        rintro rfl
        exact h (List.mem_append_right line List.mem_cons_self)
      have hafter : '\r' ∉ after :=
        fun hm ↦ h (List.mem_append_right line (List.mem_cons_of_mem c hm))
      have hlt : after.length < n := by
        rw [← hn, List.length_append, List.length_cons]
        omega
      rw [List.append_assoc, List.append_assoc, List.cons_append, List.cons_append,
        splitlines_line hline hc hr, splitlines_line hline hc hr, ih _ hlt hafter rfl,
        List.cons_append]

/-- Lines that are joined, the last one ended, and parted again. -/
theorem splitlines_intercalate {lines : List (List Char)} (h : ∀ line ∈ lines, '\r' ∉ line) :
    splitlines (['\n'].intercalate (lines ++ [[]])) = lines.flatMap fun line ↦
      splitlines (line ++ ['\n']) := by
  induction lines with
  | nil => rfl
  | cons line lines ih =>
    obtain ⟨hline, hlines⟩ := List.forall_mem_cons.mp h
    rw [List.cons_append, List.intercalate_cons_of_ne_nil
      (List.append_ne_nil_of_right_ne_nil _ (List.cons_ne_nil _ _)), List.append_assoc,
      List.singleton_append, splitlines_append hline, ih hlines, List.flatMap_cons]

theorem flatMap_splitlines {lines : List (List Char)}
    (h : ∀ line ∈ lines, ∀ c ∈ line, isLineBreak c = false) :
    lines.flatMap (fun line ↦ splitlines (line ++ ['\n'])) = lines := by
  induction lines with
  | nil => rfl
  | cons line lines ih =>
    obtain ⟨hline, hlines⟩ := List.forall_mem_cons.mp h
    rw [List.flatMap_cons, splitlines_line hline rfl (by decide), ih hlines, splitlines,
      List.singleton_append]

end Splitlines

section Split

variable {sep : Char} {cs after : List Char}

theorem rsplit_eq_none : rsplit sep cs = none ↔ sep ∉ cs := by
  induction cs with
  | nil => simp [rsplit]
  | cons c cs ih =>
    rw [rsplit, List.mem_cons, not_or]
    cases h : rsplit sep cs with
    | some parts =>
      rw [h] at ih
      exact iff_of_false (by simp) fun hnot ↦ by simpa using ih.mpr hnot.2
    | none =>
      rw [h] at ih
      have hcs := ih.mp rfl
      by_cases hc : c = sep
      · simp [hc]
      · simp [hc, hcs, Ne.symm hc]

theorem rsplit_append (h : sep ∉ after) (cs : List Char) :
    rsplit sep (cs ++ sep :: after) = some (cs, after) := by
  induction cs with
  | nil =>
    rw [List.nil_append, rsplit, rsplit_eq_none.mpr h]
    exact if_pos rfl
  | cons c cs ih => rw [List.cons_append, rsplit, ih]

theorem length_splitOn (sep : Char) (cs : List Char) :
    (cs.splitOn sep).length = cs.count sep + 1 := by
  induction cs with
  | nil => rfl
  | cons c cs ih =>
    rw [List.splitOn_cons_eq_if_modifyHead, List.count_cons]
    cases hc : c == sep with
    | true => simp [ih]
    | false => simp [ih]

theorem exists_intercalate_cons (sep : List Char) (parts : List (List Char)) :
    ∃ rest, ∀ part, sep.intercalate (part :: parts) = part ++ rest := by
  cases parts with
  | nil => exact ⟨[], fun part ↦ by rw [List.intercalate_singleton, List.append_nil]⟩
  | cons part' parts =>
    exact ⟨sep ++ sep.intercalate (part' :: parts), fun part ↦
      by rw [List.intercalate_cons_cons, List.append_assoc]⟩

theorem intercalate_concat {parts : List (List Char)} (h : parts ≠ []) (sep part : List Char) :
    sep.intercalate (parts ++ [part]) = sep.intercalate parts ++ (sep ++ part) := by
  induction parts with
  | nil => exact absurd rfl h
  | cons part' parts ih =>
    cases parts with
    | nil => rw [List.singleton_append, List.intercalate_cons_cons, List.intercalate_singleton,
        List.intercalate_singleton, List.append_assoc]
    | cons part'' parts =>
      rw [List.cons_append, List.cons_append, List.intercalate_cons_cons, ← List.cons_append,
        ih (List.cons_ne_nil _ _), List.intercalate_cons_cons, List.append_assoc, List.append_assoc,
        List.append_assoc]

theorem mem_intercalate {sep : List Char} {parts : List (List Char)} {c : Char}
    (h : c ∈ sep.intercalate parts) :
    c ∈ sep ∨ ∃ part ∈ parts, c ∈ part := by
  induction parts with
  | nil => cases h
  | cons part parts ih =>
    cases parts with
    | nil =>
      rw [List.intercalate_singleton] at h
      exact .inr ⟨part, List.mem_cons_self, h⟩
    | cons part' parts =>
      rw [List.intercalate_cons_cons, List.mem_append, List.mem_append] at h
      rcases h with (h | h) | h
      · exact .inr ⟨part, List.mem_cons_self, h⟩
      · exact .inl h
      · exact (ih h).imp_right fun ⟨found, hmem, hc⟩ ↦ ⟨found, List.mem_cons_of_mem part hmem, hc⟩

theorem subset_intercalate {parts : List (List Char)} {part : List Char} (h : part ∈ parts)
    (sep : List Char) :
    part ⊆ sep.intercalate parts := by
  induction parts with
  | nil => cases h
  | cons part' parts ih =>
    obtain ⟨rest, hrest⟩ := exists_intercalate_cons sep parts
    rcases List.mem_cons.mp h with rfl | h
    · rw [hrest]
      exact List.subset_append_left _ _
    · cases parts with
      | nil => cases h
      | cons part'' parts =>
        rw [List.intercalate_cons_cons]
        exact List.Subset.trans (ih h) (List.subset_append_right _ _)

theorem count_intercalate {parts : List (List Char)} (h : parts ≠ []) :
    ([sep].intercalate parts).count sep + 1 = parts.length + (parts.map (List.count sep)).sum := by
  induction parts with
  | nil => exact absurd rfl h
  | cons part parts ih =>
    cases parts with
    | nil =>
      rw [List.intercalate_singleton, List.map_singleton, List.sum_singleton, List.length_singleton]
      exact Nat.add_comm _ _
    | cons part' parts =>
      have hrest := ih (List.cons_ne_nil _ _)
      rw [List.intercalate_cons_cons, List.count_append, List.count_append,
        List.count_singleton_self, List.map_cons, List.sum_cons, List.length_cons]
      omega

end Split

end Pyleans.Library.Text
