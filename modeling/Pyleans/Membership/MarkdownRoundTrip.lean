import Mathlib
import Pyleans.Membership.MarkdownTable

namespace Pyleans.MarkdownTable

open Library Library.Text

variable {other : OtherTimes} {progress progress' : Progress} {silo : SiloInfo}
  {line rest : List Char}

section Reading

theorem parseLine_silos (h : parseLine other progress line = .ok progress') :
    progress'.state.silos = progress.state.silos ∨
      ∃ silo, parseRow other (strip isSpace line) = .ok silo ∧
        (strip isSpace line).head? = some '|' ∧
        ¬ "| ---".toList <+: strip isSpace line ∧
          progress'.state.silos = progress.state.silos ++ [silo] := by
  rw [parseLine] at h
  split_ifs at h with hversion hheader hout hempty hseparator hbar
  · obtain ⟨version, -, h⟩ := Fallible.bind_eq_ok.mp h
    obtain rfl := Except.ok.inj h
    exact .inl rfl
  · obtain rfl := Except.ok.inj h
    exact .inl rfl
  · obtain rfl := Except.ok.inj h
    exact .inl rfl
  · obtain rfl := Except.ok.inj h
    exact .inl rfl
  · obtain rfl := Except.ok.inj h
    exact .inl rfl
  · obtain ⟨silo, hsilo, h⟩ := Fallible.bind_eq_ok.mp h
    obtain rfl := Except.ok.inj h
    exact .inr ⟨silo, hsilo, hbar, hseparator, rfl⟩
  · obtain rfl := Except.ok.inj h
    exact .inl rfl

/-- A row has twelve cells, and the last of them is the etag. -/
theorem parseRow_cells (h : parseRow other line = .ok silo) :
    ∃ cells last, ((strip (· == '|') line).splitOn '|').map (strip isSpace) = cells ++ [last] ∧
      cells.length = 11 ∧
      silo.etag = orNone last := by
  rw [parseRow] at h
  split at h
  · next cells _ _ _ _ _ _ _ _ _ _ _ etag hcells =>
    simp only [Fallible.bind_eq_ok] at h
    obtain ⟨_, _, _, _, _, _, _, _, _, _, _, _, _, _, _, _, h⟩ := h
    rw [hcells]
    refine ⟨[_, _, _, _, _, _, _, _, _, _, _], etag, rfl, rfl, ?_⟩
    rw [← Except.ok.inj h]
  · cases h

/-- The bars of a line that a row is read from. The one it begins with is
stripped, and so is one that it ends with. -/
theorem parseRow_bars (h : parseRow other line = .ok silo) (hhead : line.head? = some '|') :
    12 ≤ line.count '|' ∧ (line.getLast? = some '|' → 13 ≤ line.count '|') := by
  obtain ⟨cells, last, hcells, hlength, -⟩ := parseRow_cells h
  have hcount : (strip (· == '|') line).count '|' = 11 := by
    have hparts := congrArg List.length hcells
    rw [List.length_map, length_splitOn, List.length_append, hlength] at hparts
    exact Nat.succ.inj hparts
  obtain ⟨body, rfl⟩ := List.head?_eq_some_iff.mp hhead
  rw [strip_cons_pos rfl] at hcount
  rw [List.count_cons_self]
  refine ⟨?_, fun hlast ↦ ?_⟩
  · have := (strip_sublist (· == '|') body).count_le '|'
    omega
  · obtain ⟨init, hinit⟩ := List.getLast?_eq_some_iff.mp hlast
    cases init with
    | nil =>
      obtain rfl : body = [] := (List.cons.inj hinit).2
      cases hcount
    | cons c init =>
      obtain rfl : body = init ++ ['|'] := (List.cons.inj hinit).2
      rw [strip_concat_pos rfl] at hcount
      have := (strip_sublist (· == '|') init).count_le '|'
      rw [List.count_append, List.count_singleton_self]
      omega

def TooFewBars (line : List Char) : Prop :=
  line.count '|' < 12 ∨ (line.getLast? = some '|' ∧ line.count '|' < 13)

theorem parseLine_tooFewBars (hfew : TooFewBars line)
    (h : parseLine other progress line = .ok progress') :
    progress'.state.silos = progress.state.silos := by
  refine (parseLine_silos h).resolve_right fun ⟨silo, hrow, hhead, _⟩ ↦ ?_
  obtain ⟨hbars, hlast⟩ := parseRow_bars hrow hhead
  have hle := (strip_sublist isSpace line).count_le '|'
  rcases hfew with hfew | ⟨hend, hfew⟩
  · omega
  · obtain ⟨init, rfl⟩ := List.getLast?_eq_some_iff.mp hend
    have := hlast (by rw [strip_concat_neg (by decide), List.getLast?_concat])
    omega

theorem foldlM_tooFewBars {lines : List (List Char)} (hfew : ∀ line ∈ lines, TooFewBars line)
    (h : lines.foldlM (parseLine other) progress = .ok progress') :
    progress'.state.silos = progress.state.silos := by
  induction lines generalizing progress with
  | nil =>
    obtain rfl := Except.ok.inj h
    rfl
  | cons line lines ih =>
    obtain ⟨hline, hlines⟩ := List.forall_mem_cons.mp hfew
    rw [List.foldlM_cons] at h
    obtain ⟨middle, hmiddle, h⟩ := Fallible.bind_eq_ok.mp h
    exact (ih hlines h).trans (parseLine_tooFewBars hline hmiddle)

theorem tooFewBars_of_rest (hbars : rest.count '|' < 13) (hlast : rest.getLast? = some '|')
    (hr : '\r' ∉ rest) :
    ∀ line ∈ splitlines (rest ++ ['\n']), TooFewBars line := by
  induction hn : rest.length using Nat.strong_induction_on generalizing rest with
  | _ n ih =>
    rcases line_cases rest with hone | ⟨line, c, after, rfl, hline, hc⟩
    · rw [splitlines_line hone rfl (by decide)]
      exact List.forall_mem_singleton.mpr (.inr ⟨hlast, hbars⟩)
    · have hcr : c ≠ '\r' := by
        rintro rfl
        exact hr (List.mem_append_right line List.mem_cons_self)
      have hcbar : c ≠ '|' := by
        rintro rfl
        cases hc
      have hafter : after.getLast? = some '|' := by
        cases after with
        | nil =>
          rw [List.getLast?_concat] at hlast
          exact absurd (Option.some.inj hlast) hcbar
        | cons d after =>
          rwa [List.getLast?_append_of_ne_nil _ (by simp), List.getLast?_cons_cons] at hlast
      have hmem : 1 ≤ after.count '|' := List.one_le_count_iff.mpr (List.mem_of_getLast? hafter)
      rw [List.count_append, List.count_cons_of_ne hcbar] at hbars
      rw [List.append_assoc, List.cons_append, splitlines_line hline hc hcr]
      refine List.forall_mem_cons.mpr ⟨.inl (by omega), ih _ ?_ (by omega) hafter ?_ rfl⟩
      · rw [← hn, List.length_append, List.length_cons]
        omega
      · exact fun h ↦ hr (List.mem_append_right line (List.mem_cons_of_mem c h))

end Reading

section Row

variable {cell last lastHeartbeat iAmAlive startTime suspicions : List Char}
  {cells : List (List Char)}

theorem breaksTable_eq_false : breaksTable cell = false ↔ '|' ∉ cell ∧ '\n' ∉ cell ∧
    '\r' ∉ cell := by
  simp [breaksTable, and_assoc]

/-- What a row is made of. -/
structure RowOf (silo : SiloInfo) (line lastHeartbeat iAmAlive startTime suspicions : List Char) :
    Prop where
  heartbeat : formatTimestamp silo.lastHeartbeat = .ok lastHeartbeat
  alive : formatTimestamp silo.iAmAlive = .ok iAmAlive
  start : formatTimestamp silo.startTime = .ok startTime
  votes : renderSuspicions silo.suspicions = .ok suspicions
  clear : ∀ cell ∈ rowCells silo lastHeartbeat iAmAlive startTime suspicions,
    breaksTable cell = false
  line : line = joinRow (rowCells silo lastHeartbeat iAmAlive startTime suspicions)

theorem exists_rowOf (h : renderRow silo = .ok line) :
    ∃ lastHeartbeat iAmAlive startTime suspicions,
      RowOf silo line lastHeartbeat iAmAlive startTime suspicions := by
  rw [renderRow] at h
  obtain ⟨lastHeartbeat, hlast, h⟩ := Fallible.bind_eq_ok.mp h
  obtain ⟨iAmAlive, halive, h⟩ := Fallible.bind_eq_ok.mp h
  obtain ⟨startTime, hstart, h⟩ := Fallible.bind_eq_ok.mp h
  obtain ⟨suspicions, hvotes, h⟩ := Fallible.bind_eq_ok.mp h
  have hfind : (rowCells silo lastHeartbeat iAmAlive startTime suspicions).find? breaksTable =
    none := by
    cases hfind : (rowCells silo lastHeartbeat iAmAlive startTime suspicions).find? breaksTable with
    | none => rfl
    | some cell =>
      dsimp only at h
      rw [hfind] at h
      cases h
  dsimp only at h
  rw [hfind] at h
  exact ⟨lastHeartbeat, iAmAlive, startTime, suspicions, hlast, halive, hstart, hvotes,
    fun cell hcell ↦ Bool.eq_false_iff.mpr (List.find?_eq_none.mp hfind cell hcell),
      (Except.ok.inj h).symm⟩

theorem joinRow_concat (cell last : List Char) (cells : List (List Char)) :
    joinRow (cell :: (cells ++ [last])) = joinRow (cell :: cells) ++ (pad last ++ ['|']) := by
  have hpads : (cell :: (cells ++ [last])).map pad = (cell :: cells).map pad ++ [pad last] := by
    rw [← List.cons_append, List.map_append, List.map_singleton]
  have hne : (cell :: cells).map pad ≠ [] := List.cons_ne_nil _ _
  rw [joinRow_cons, joinRow_cons, hpads, intercalate_concat hne]
  simp only [List.append_assoc, List.cons_append, List.nil_append]

theorem count_joinRow (h : ∀ part ∈ cell :: cells, '|' ∉ part) :
    (joinRow (cell :: cells)).count '|' = cells.length + 2 := by
  have hbars := @count_intercalate '|' ((cell :: cells).map pad) (List.cons_ne_nil _ _)
  have hnone : (((cell :: cells).map pad).map (List.count '|')).sum = 0 := by
    rw [List.sum_eq_zero_iff, List.map_map]
    intro n hn
    obtain ⟨part, hpart, rfl⟩ := List.mem_map.mp hn
    exact List.count_eq_zero.mpr (not_mem_pad (h part hpart))
  rw [hnone, List.length_map, List.length_cons] at hbars
  rw [joinRow_cons, List.count_cons_self, List.count_append, List.count_singleton_self]
  omega

theorem getLast?_joinRow (cells : List (List Char)) : (joinRow cells).getLast? = some '|' := by
  rw [joinRow, List.getLast?_append_of_ne_nil _ (List.cons_ne_nil _ _)]
  rfl

theorem mem_joinRow {c : Char} (h : c ∈ joinRow cells) :
    c ∈ ['|', ' '] ∨ ∃ cell ∈ cells, c ∈ cell := by
  rw [joinRow, List.mem_append, List.mem_append] at h
  rcases h with (h | h) | h
  · exact .inl h
  · refine (mem_intercalate h).imp_left fun h ↦ ?_
    simpa [or_comm] using h
  · refine .inl ?_
    simpa [or_comm] using h

theorem subset_joinRow (h : cell ∈ cells) : cell ⊆ joinRow cells := fun _ hc ↦
  List.mem_append_left _ (List.mem_append_right _ (subset_intercalate h _ hc))

theorem RowOf.not_mem (h : RowOf silo line lastHeartbeat iAmAlive startTime suspicions) :
    (∀ cell ∈ rowCells silo lastHeartbeat iAmAlive startTime suspicions, '|' ∉ cell) ∧
      '\r' ∉ line := by
  refine ⟨fun cell hcell ↦ (breaksTable_eq_false.mp (h.clear cell hcell)).1, fun hmem ↦ ?_⟩
  rw [h.line] at hmem
  rcases mem_joinRow hmem with hmem | ⟨cell, hcell, hmem⟩
  · exact absurd hmem (by decide)
  · exact (breaksTable_eq_false.mp (h.clear cell hcell)).2.2 hmem

end Row

section Broken

variable {c : Char}
  {before kept etag bars last lastHeartbeat iAmAlive startTime suspicions : List Char}

/-- What is left of a row in front of a line boundary, if no bar but the last is
behind it: all cells but a part of the etag. -/
theorem exists_kept (hbars : bars.getLast? = some '|')
    (h : bars ++ (pad etag ++ ['|']) = before ++ c :: rest) (hc : isLineBreak c = true)
    (hcount : bars.count '|' ≤ before.count '|') :
    ∃ kept, before = bars ++ ' ' :: kept ∧ kept ⊆ etag ∧ kept.length < etag.length := by
  have hspace : c ≠ ' ' := by
    rintro rfl
    cases hc
  have hbar : c ≠ '|' := by
    rintro rfl
    cases hc
  rcases List.append_eq_append_iff.mp h with ⟨start, rfl, hrest⟩ | ⟨taken, rfl, hrest⟩
  · cases start with
    | nil => exact absurd (List.cons.inj hrest).1.symm hspace
    | cons d kept =>
      obtain rfl := (List.cons.inj hrest).1
      have hcell : etag ++ [' ', '|'] = kept ++ c :: rest := by
        have htail : (etag ++ [' ']) ++ ['|'] = kept ++ c :: rest := (List.cons.inj hrest).2
        rw [← htail, List.append_assoc]
        rfl
      rcases List.append_eq_append_iff.mp hcell with ⟨after, rfl, hafter⟩ | ⟨lost, rfl, hlost⟩
      · have hmem : c ∈ [' ', '|'] := hafter ▸ List.mem_append_right _ List.mem_cons_self
        simp only [List.mem_cons, List.not_mem_nil, or_false] at hmem
        exact (hmem.elim hspace hbar).elim
      · cases lost with
        | nil => exact absurd (List.cons.inj hlost).1 hspace
        | cons d lost =>
          refine ⟨kept, rfl, List.subset_append_left _ _, ?_⟩
          rw [List.length_append, List.length_cons]
          omega
  · cases taken with
    | nil => exact absurd (List.cons.inj hrest).1 hspace
    | cons d taken =>
      rw [List.getLast?_append_of_ne_nil _ (List.cons_ne_nil _ _)] at hbars
      have := List.one_le_count_iff.mpr (List.mem_of_getLast? hbars)
      rw [List.count_append] at hcount
      omega

/-- The part of the etag in front of a line boundary is read as the whole. -/
theorem etag_kept {inner : List Char} (hinner : inner.head? = some ' ')
    (hcount : inner.count '|' < 11) (hkept : '|' ∉ kept)
    (hrow : parseRow other (strip isSpace ('|' :: (inner ++ ['|']) ++ ' ' :: kept)) = .ok silo) :
    ∃ text, silo.etag = orNone text ∧ text.length ≤ kept.length := by
  have hstrip : strip isSpace ('|' :: (inner ++ ['|']) ++ ' ' :: kept) =
      if kept.rdropWhile isSpace = [] then '|' :: (inner ++ ['|'])
      else '|' :: (inner ++ ['|']) ++ ' ' :: kept.rdropWhile isSpace := by
    rw [List.cons_append, strip_cons_neg (by decide), ← List.cons_append,
      rdropWhile_append_cons (by decide), ← List.cons_append,
      List.rdropWhile_concat_neg _ _ _ (by decide)]
  rw [hstrip] at hrow
  split_ifs at hrow with hempty
  · have hbars := (parseRow_bars hrow rfl).2 (by rw [← List.cons_append, List.getLast?_concat])
    rw [List.count_cons_self, List.count_append, List.count_singleton_self] at hbars
    omega
  · obtain ⟨cells, last, hcells, -, hetag⟩ := parseRow_cells hrow
    have hsub : (kept.rdropWhile isSpace).Sublist kept := (List.rdropWhile_prefix _ _).sublist
    have hnone : '|' ∉ ' ' :: kept.rdropWhile isSpace := by
      rw [List.mem_cons, not_or]
      exact ⟨by decide, fun h ↦ hkept (hsub.subset h)⟩
    have hends : Ends (· == '|') (inner ++ '|' :: ' ' :: kept.rdropWhile isSpace) := by
      have hlast : Ends (· == '|') (' ' :: kept.rdropWhile isSpace) :=
        Ends.of_forall (List.cons_ne_nil _ _) fun c hc ↦
          beq_eq_false_iff_ne.mpr fun he ↦ hnone (he ▸ hc)
      exact (hlast.append ['|']).append inner
    have hbars : strip (· == '|') ('|' :: (inner ++ ['|']) ++ ' ' :: kept.rdropWhile isSpace) =
        inner ++ '|' :: ' ' :: kept.rdropWhile isSpace := by
      obtain ⟨body, rfl⟩ := List.head?_eq_some_iff.mp hinner
      rw [List.cons_append, List.append_assoc, strip_cons_pos rfl]
      exact hends.strip.trans (List.dropWhile_cons_of_neg (by decide))
    rw [hbars, List.splitOn_append_cons_self, List.splitOn_eq_singleton hnone, List.map_append,
      List.map_singleton] at hcells
    have hlast := (List.append_inj' hcells rfl).2
    refine ⟨last, hetag, ?_⟩
    rw [← List.singleton_inj.mp hlast, strip_cons_pos rfl]
    exact ((strip_sublist _ _).trans hsub).length_le

theorem RowOf.last_cell (h : RowOf silo line lastHeartbeat iAmAlive startTime suspicions) :
    ∃ inner, inner.head? = some ' ' ∧ inner.count '|' = 10 ∧
      line = '|' :: (inner ++ ['|']) ++ (pad (silo.etag.getD "").toList ++ ['|']) := by
  have hclear := h.not_mem.1
  obtain ⟨first, others, hfirst, hothers⟩ : ∃ first others, others.length = 10 ∧
      rowCells silo lastHeartbeat iAmAlive startTime suspicions =
        first :: (others ++ [(silo.etag.getD "").toList]) :=
    ⟨_, [_, _, _, _, _, _, _, _, _, _], rfl, rfl⟩
  rw [hothers, List.forall_mem_cons, List.forall_mem_append] at hclear
  have hcount := count_joinRow (List.forall_mem_cons.mpr ⟨hclear.1, hclear.2.1⟩)
  obtain ⟨inner, hinner⟩ := exists_intercalate_cons ['|'] (others.map pad)
  rw [joinRow_cons, List.count_cons_self, List.count_append, List.count_singleton_self, hfirst]
    at hcount
  refine ⟨['|'].intercalate ((first :: others).map pad), ?_, by omega, ?_⟩
  · rw [List.map_cons, hinner]
    rfl
  · rw [h.line, hothers, joinRow_concat, joinRow_cons]

theorem RowOf.broken (h : RowOf silo line lastHeartbeat iAmAlive startTime suspicions)
    (hline : line = before ++ c :: rest) (hc : isLineBreak c = true)
    (hparse : parseLine other progress before = .ok progress') :
    progress'.state.silos = progress.state.silos ∨
      ∃ read, progress'.state.silos = progress.state.silos ++ [read] ∧
      read ≠ silo.wholeSeconds := by
  refine (parseLine_silos hparse).imp_right fun ⟨read, hrow, hhead, _, hadded⟩ ↦ ⟨read, hadded, ?_⟩
  obtain ⟨inner, hinner, hcount, hcells⟩ := h.last_cell
  have hbars := (parseRow_bars hrow hhead).1.trans ((strip_sublist isSpace before).count_le '|')
  have hlast : ('|' :: (inner ++ ['|'])).getLast? = some '|' := by
    rw [← List.cons_append, List.getLast?_concat]
  have htwelve : ('|' :: (inner ++ ['|'])).count '|' = 12 := by
    rw [List.count_cons_self, List.count_append, List.count_singleton_self, hcount]
  obtain ⟨kept, rfl, hsub, hlength⟩ :=
    exists_kept hlast (hcells.symm.trans hline) hc (htwelve.trans_le hbars)
  have hnone : '|' ∉ (silo.etag.getD "").toList := by
    refine h.not_mem.1 _ ?_
    simp [rowCells]
  obtain ⟨text, hetag, hle⟩ := etag_kept hinner (by omega) (fun hmem ↦ hnone (hsub hmem)) hrow
  rintro rfl
  rw [show silo.wholeSeconds.etag = silo.etag from rfl, orNone] at hetag
  cases hsilo : silo.etag with
  | none =>
    rw [hsilo] at hlength
    exact absurd hlength (Nat.not_lt_zero _)
  | some etag =>
    rw [hsilo] at hlength hetag
    split_ifs at hetag
    rw [Option.getD_some, Option.some.inj hetag, String.toList_ofList] at hlength
    omega

end Broken

/-- A row that the file gives back: its fields keep their ends, no line ends in
it, and it does not look like the line under the header. -/
structure Tabular (silo : SiloInfo) : Prop where
  legible : Legible silo
  host : ∀ c ∈ silo.address.host.toList, isLineBreak c = false
  clusterId : ∀ text ∈ silo.clusterId, ∀ c ∈ text.toList, isLineBreak c = false
  etag : ∀ text ∈ silo.etag, ∀ c ∈ text.toList, isLineBreak c = false
  voters : ∀ vote ∈ silo.suspicions, ∀ c ∈ vote.suspectingSilo.toList, isLineBreak c = false
  notSeparator : ¬ "---".toList <+: silo.address.host.toList

section Unbroken

variable {lastHeartbeat iAmAlive startTime suspicions : List Char}

theorem encoded_toList (address : SiloAddress) : address.encoded.toList =
    address.host.toList ++ '_' ::
      (address.port.repr.toList ++ '_' :: address.epoch.repr.toList) := by
  simp [SiloAddress.encoded, toString]

theorem isLineBreak_of_mem_repr (n : ℤ) : ∀ c ∈ n.repr.toList, isLineBreak c = false := fun c hc ↦
  isLineBreak_of_not_isSpace (isSpace_of_mem_repr n c hc)

theorem isLineBreak_of_mem_timestamp {ts : ℚ} {text : List Char}
    (h : formatTimestamp ts = .ok text) :
    ∀ c ∈ text, isLineBreak c = false := fun c hc ↦
  isLineBreak_of_not_isSpace (isSpace_of_isMark (formatTimestamp_marks h c hc))

theorem RowOf.oneLine (h : RowOf silo line lastHeartbeat iAmAlive startTime suspicions)
    (hlegible : Legible silo) (hsep : ¬ "---".toList <+: silo.address.host.toList)
    (hline : ∀ c ∈ line, isLineBreak c = false) : Tabular silo := by
  rw [h.line] at hline
  have hcell : ∀ cell ∈ rowCells silo lastHeartbeat iAmAlive startTime suspicions, ∀ c ∈ cell,
    isLineBreak c = false :=
    fun cell hcell c hc ↦ hline c (subset_joinRow hcell hc)
  simp only [rowCells, List.forall_mem_cons] at hcell
  obtain ⟨-, hhost, -, -, -, hcluster, -, -, -, -, hvotes, hetag, -⟩ := hcell
  refine ⟨hlegible, hhost, ?_, ?_, ?_, hsep⟩
  · rintro text htext
    rw [htext] at hcluster
    exact hcluster
  · rintro text htext
    rw [htext] at hetag
    exact hetag
  · obtain ⟨chunks, hchunks, rfl⟩ := renderSuspicions_eq_ok.mp h.votes
    refine Fallible.forall_mem_right hchunks.flip fun chunk hmem vote hchunk c hc ↦ ?_
    obtain ⟨text, -, rfl⟩ := renderSuspicion_eq_ok.mp hchunk
    exact hvotes c (subset_intercalate hmem _ (List.mem_append_left _ hc))

theorem Tabular.oneLine (htabular : Tabular silo)
    (h : RowOf silo line lastHeartbeat iAmAlive startTime suspicions) :
    ∀ c ∈ line, isLineBreak c = false := by
  have hencoded : ∀ c ∈ silo.address.encoded.toList, isLineBreak c = false := by
    rw [encoded_toList, List.forall_mem_append, List.forall_mem_cons, List.forall_mem_append,
      List.forall_mem_cons]
    exact ⟨htabular.host, rfl, isLineBreak_of_mem_repr _, rfl, isLineBreak_of_mem_repr _⟩
  have hstatus : ∀ c ∈ silo.status.value.toList, isLineBreak c = false := by
    have hall : silo.status.value.toList.all (fun c ↦ !isLineBreak c) = true := by
      cases silo.status <;> rfl
    intro c hc
    simpa using List.all_eq_true.mp hall c hc
  have hcluster : ∀ c ∈ (silo.clusterId.getD "").toList, isLineBreak c = false := by
    cases hid : silo.clusterId with
    | none => exact List.forall_mem_nil _
    | some text => exact htabular.clusterId text hid
  have hetag : ∀ c ∈ (silo.etag.getD "").toList, isLineBreak c = false := by
    cases htag : silo.etag with
    | none => exact List.forall_mem_nil _
    | some text => exact htabular.etag text htag
  have hgateway : ∀ c ∈ (silo.gatewayPort.map fun port ↦ port.repr.toList).getD [],
    isLineBreak c = false := by
    cases silo.gatewayPort with
    | none => exact List.forall_mem_nil _
    | some port => exact isLineBreak_of_mem_repr port
  have hvotes : ∀ c ∈ suspicions, isLineBreak c = false := by
    obtain ⟨chunks, hchunks, rfl⟩ := renderSuspicions_eq_ok.mp h.votes
    have hall : ∀ chunk ∈ chunks, ∀ c ∈ chunk, isLineBreak c = false := by
      refine Fallible.forall_mem_right hchunks fun vote hvote chunk hchunk ↦ ?_
      obtain ⟨text, htext, rfl⟩ := renderSuspicion_eq_ok.mp hchunk
      rw [List.forall_mem_append, List.forall_mem_cons]
      exact ⟨htabular.voters vote hvote, rfl, isLineBreak_of_mem_timestamp htext⟩
    intro c hc
    rcases mem_intercalate hc with hc | ⟨chunk, hchunk, hc⟩
    · rw [List.mem_singleton.mp hc]
      rfl
    · exact hall chunk hchunk c hc
  have hcells : ∀ cell ∈ rowCells silo lastHeartbeat iAmAlive startTime suspicions, ∀ c ∈ cell,
    isLineBreak c = false := by
    simp only [rowCells, List.forall_mem_cons]
    exact ⟨hencoded, htabular.host, isLineBreak_of_mem_repr _, isLineBreak_of_mem_repr _, hstatus,
      hcluster, hgateway,
      isLineBreak_of_mem_timestamp h.heartbeat, isLineBreak_of_mem_timestamp h.alive,
        isLineBreak_of_mem_timestamp h.start,
      hvotes, hetag, List.forall_mem_nil _⟩
  rw [h.line]
  intro c hc
  rcases mem_joinRow hc with hc | ⟨cell, hcell, hc⟩
  · simp only [List.mem_cons, List.not_mem_nil, or_false] at hc
    rcases hc with rfl | rfl <;> rfl
  · exact hcells cell hcell c hc

theorem RowOf.parseRow_iff (h : RowOf silo line lastHeartbeat iAmAlive startTime suspicions) :
    parseRow other line = .ok silo.wholeSeconds ↔ Legible silo :=
  parseRow_eq_wholeSeconds h.heartbeat h.alive h.start h.votes h.not_mem.1 h.line

theorem dashes_append (host after : List Char) :
    ['-', '-', '-'] <+: host ++ '_' :: after ↔ ['-', '-', '-'] <+: host := by
  rcases host with _ | ⟨a, _ | ⟨b, _ | ⟨c, host⟩⟩⟩ <;> simp [List.cons_prefix_cons]

theorem RowOf.separator_iff (h : RowOf silo line lastHeartbeat iAmAlive startTime suspicions) :
    "| ---".toList <+: line ↔ "---".toList <+: silo.address.host.toList := by
  obtain ⟨after, hafter⟩ : ∃ after,
    line = '|' :: ' ' :: (silo.address.host.toList ++ '_' :: after) := by
    obtain ⟨others, hothers⟩ : ∃ others, rowCells silo lastHeartbeat iAmAlive startTime suspicions =
        silo.address.encoded.toList :: others := ⟨_, rfl⟩
    obtain ⟨rest, hrest⟩ := exists_intercalate_cons [' ', '|', ' '] others
    refine ⟨(silo.address.port.repr.toList ++ '_' :: silo.address.epoch.repr.toList) ++
      rest ++ [' ', '|'], ?_⟩
    rw [h.line, hothers, joinRow, hrest, encoded_toList]
    simp only [List.append_assoc, List.cons_append, List.nil_append]
  have hbar : "| ---".toList = '|' :: ' ' :: ['-', '-', '-'] := rfl
  rw [hafter, hbar, List.cons_prefix_cons, List.cons_prefix_cons, dashes_append, and_iff_right rfl,
    and_iff_right rfl]
  rfl

theorem RowOf.strip_line (h : RowOf silo line lastHeartbeat iAmAlive startTime suspicions) :
    strip isSpace line = line := by
  obtain ⟨inner, -, -, hline⟩ := h.last_cell
  rw [hline]
  exact strip_of_ends (by decide) (by decide)
    (List.append_assoc ('|' :: (inner ++ ['|'])) (pad _) ['|']).symm

end Unbroken

section Rows

variable {silos : List SiloInfo} {rows : List (List Char)}

/-- Whatever the reading has come to, the lines of a row yield one silo at most,
and the silo of the row only if the row is tabular. -/
theorem foldlM_row (h : renderRow silo = .ok line)
    (hparse : (splitlines (line ++ ['\n'])).foldlM (parseLine other) progress = .ok progress') :
    progress'.state.silos = progress.state.silos ∨
      ∃ read, progress'.state.silos = progress.state.silos ++ [read] ∧
        (read = silo.wholeSeconds → Tabular silo) := by
  obtain ⟨lastHeartbeat, iAmAlive, startTime, suspicions, hrow⟩ := exists_rowOf h
  rcases line_cases line with hone | ⟨before, c, rest, hsplit, hbefore, hc⟩
  · rw [splitlines_line hone rfl (by decide), splitlines, List.foldlM_cons] at hparse
    obtain ⟨middle, hmiddle, hrest⟩ := Fallible.bind_eq_ok.mp hparse
    obtain rfl := Except.ok.inj hrest
    rcases parseLine_silos hmiddle with hsame | ⟨read, hread, -, hsep, hadded⟩
    · exact .inl hsame
    · refine .inr ⟨read, hadded, ?_⟩
      rintro rfl
      rw [hrow.strip_line] at hread hsep
      exact hrow.oneLine (hrow.parseRow_iff.mp hread) (fun h ↦ hsep (hrow.separator_iff.mpr h)) hone
  · have hr : '\r' ∉ before ++ c :: rest := hsplit ▸ hrow.not_mem.2
    have hcr : c ≠ '\r' := by
      rintro rfl
      exact hr (List.mem_append_right before List.mem_cons_self)
    have hcbar : c ≠ '|' := by
      rintro rfl
      cases hc
    have hlast : rest.getLast? = some '|' := by
      have hend : line.getLast? = some '|' := by
        rw [hrow.line]
        exact getLast?_joinRow _
      rw [hsplit, List.getLast?_append_of_ne_nil _ (List.cons_ne_nil _ _)] at hend
      cases rest with
      | nil => exact absurd (Option.some.inj hend) hcbar
      | cons d rest => rwa [List.getLast?_cons_cons] at hend
    have hbars : rest.count '|' < 13 := by
      have hcount : line.count '|' = 13 := by
        rw [hrow.line]
        exact count_joinRow hrow.not_mem.1
      cases before with
      | nil =>
        rw [hrow.line] at hsplit
        exact absurd (List.cons.inj hsplit).1.symm hcbar
      | cons d before =>
        have hd : d = '|' := by
          rw [hrow.line] at hsplit
          exact (List.cons.inj hsplit).1.symm
        rw [hsplit, hd, List.cons_append, List.count_cons_self, List.count_append,
          List.count_cons_of_ne hcbar] at hcount
        omega
    rw [hsplit, List.append_assoc, List.cons_append, splitlines_line hbefore hc hcr,
      List.foldlM_cons] at hparse
    obtain ⟨middle, hmiddle, hrest⟩ := Fallible.bind_eq_ok.mp hparse
    have hsame := foldlM_tooFewBars (tooFewBars_of_rest hbars hlast fun hm ↦
      hr (List.mem_append_right before (List.mem_cons_of_mem c hm))) hrest
    rw [hsame]
    rcases hrow.broken hsplit hc hmiddle with hsame | ⟨read, hadded, hne⟩
    · exact .inl hsame
    · exact .inr ⟨read, hadded, fun he ↦ absurd he hne⟩

/-- As many silos as there are rows are read only if each row yields one. -/
theorem foldlM_rows (h : List.Forall₂ (fun silo row ↦ renderRow silo = .ok row) silos rows)
    (hparse : (rows.flatMap fun row ↦ splitlines (row ++ ['\n'])).foldlM
      (parseLine other) progress = .ok progress') :
    ∃ added, progress'.state.silos = progress.state.silos ++ added ∧ added.length ≤ silos.length ∧
      (added = silos.map SiloInfo.wholeSeconds → ∀ silo ∈ silos, Tabular silo) := by
  induction h generalizing progress with
  | nil =>
    obtain rfl := Except.ok.inj hparse
    exact ⟨[], (List.append_nil _).symm, Nat.le_refl _, fun _ ↦ List.forall_mem_nil _⟩
  | @cons silo row silos rows hrow _ ih =>
    rw [List.flatMap_cons, List.foldlM_append] at hparse
    obtain ⟨middle, hmiddle, hrest⟩ := Fallible.bind_eq_ok.mp hparse
    obtain ⟨added, hadded, hlength, htabular⟩ := ih hrest
    rcases foldlM_row hrow hmiddle with hsame | ⟨read, hread, hsilo⟩
    · refine ⟨added, by rw [hadded, hsame], by rw [List.length_cons]; omega, fun he ↦ ?_⟩
      rw [he, List.length_map, List.length_cons] at hlength
      omega
    · refine ⟨read :: added, by
        rw [hadded, hread, List.append_assoc, List.singleton_append], by simpa using hlength, ?_⟩
      intro he
      obtain ⟨hhead, htail⟩ := List.cons.inj he
      exact List.forall_mem_cons.mpr ⟨hsilo hhead, htabular htail⟩

theorem parseLine_tabular (h : renderRow silo = .ok line) (htabular : Tabular silo)
    (hin : progress.inTable = true) :
    parseLine other progress line =
      .ok ⟨⟨progress.state.version, progress.state.silos ++ [silo.wholeSeconds]⟩, true⟩ := by
  obtain ⟨lastHeartbeat, iAmAlive, startTime, suspicions, hrow⟩ := exists_rowOf h
  have hread : parseRow other line = .ok silo.wholeSeconds := hrow.parseRow_iff.mpr htabular.legible
  have hsep : ¬ "| ---".toList <+: line := fun h ↦ htabular.notSeparator (hrow.separator_iff.mp h)
  obtain ⟨body, hbody⟩ : ∃ body, line = '|' :: body := ⟨_, hrow.line⟩
  have hversion : (line.take 8).map Char.toLower ≠ "version:".toList := by
    rw [hbody]
    intro he
    exact absurd (List.cons.inj he).1 (by decide)
  have hheader : line ≠ header := by
    intro he
    have hmem : '_' ∈ line := by
      have hcell : silo.address.encoded.toList ∈
        rowCells silo lastHeartbeat iAmAlive startTime suspicions :=
        List.mem_cons_self
      rw [hrow.line]
      refine subset_joinRow hcell ?_
      rw [encoded_toList]
      exact List.mem_append_right _ List.mem_cons_self
    rw [he] at hmem
    exact absurd hmem (by decide +kernel)
  rw [parseLine, hrow.strip_line, if_neg hversion, if_neg hheader, hin, if_neg (by decide),
    if_neg (by rw [hbody]; exact List.cons_ne_nil _ _), if_neg hsep,
    if_pos (by rw [hbody]; rfl), hread]
  rfl

theorem foldlM_tabular (h : List.Forall₂ (fun silo row ↦ renderRow silo = .ok row) silos rows)
    (htabular : ∀ silo ∈ silos, Tabular silo) (hin : progress.inTable = true) :
    (rows.flatMap fun row ↦ splitlines (row ++ ['\n'])).foldlM (parseLine other) progress =
      .ok ⟨⟨progress.state.version, progress.state.silos ++ silos.map SiloInfo.wholeSeconds⟩,
        true⟩ := by
  induction h generalizing progress with
  | nil =>
    obtain ⟨state, inTable⟩ := progress
    obtain rfl : inTable = true := hin
    rw [List.map_nil, List.append_nil]
    rfl
  | @cons silo row silos rows hrow _ ih =>
    obtain ⟨hsilo, hsilos⟩ := List.forall_mem_cons.mp htabular
    obtain ⟨lastHeartbeat, iAmAlive, startTime, suspicions, hof⟩ := exists_rowOf hrow
    rw [List.flatMap_cons, splitlines_line (hsilo.oneLine hof) rfl (by decide), splitlines,
      List.singleton_append, List.foldlM_cons, parseLine_tabular hrow hsilo hin,
      Fallible.ok_bind, ih hsilos rfl]
    rw [List.append_assoc, List.singleton_append, List.map_cons]

end Rows

section File

variable {state : MarkdownState} {text : String}

def preamble (version : ℤ) : List (List Char) :=
  ["# Membership".toList, [], "Version: ".toList ++ version.repr.toList, [], header, separator]

theorem preamble_oneLine (version : ℤ) :
    ∀ line ∈ preamble version, ∀ c ∈ line, isLineBreak c = false := by
  have hfixed : ["# Membership".toList, "Version: ".toList, header, separator].all
    (·.all (!isLineBreak ·)) = true := by
    decide +kernel
  simp only [List.all_cons, List.all_nil, Bool.and_true, Bool.and_eq_true, List.all_eq_true,
    Bool.not_eq_true'] at hfixed
  obtain ⟨htitle, hversion, hheader, hseparator⟩ := hfixed
  simp only [preamble, List.forall_mem_cons, List.forall_mem_append]
  exact ⟨htitle, List.forall_mem_nil _, ⟨hversion, isLineBreak_of_mem_repr version⟩,
    List.forall_mem_nil _, hheader,
    hseparator, List.forall_mem_nil _⟩

theorem parse_version (version : ℤ) :
    parseLine other ⟨⟨0, []⟩, false⟩ ("Version: ".toList ++ version.repr.toList) =
      .ok ⟨⟨version, []⟩, false⟩ := by
  have hstrip : strip isSpace ("Version: ".toList ++ version.repr.toList) = "Version: ".toList ++
    version.repr.toList := by
    have hends : Ends isSpace ("Version: ".toList ++ version.repr.toList) :=
      (Ends.of_forall (repr_ne_nil version) (isSpace_of_mem_repr version)).append _
    exact hends.strip.trans (List.dropWhile_cons_of_neg (by decide))
  have hnumber : ((("Version: ".toList ++ version.repr.toList).dropWhile (· ≠ ':')).drop 1) = ' ' ::
    version.repr.toList :=
    rfl
  rw [parseLine, hstrip, if_pos (by rfl), parseVersion, hnumber, strip_cons_pos rfl, strip_repr,
    String.ofList_toList, Numerals.parseInt_repr]
  rfl

theorem parse_preamble (version : ℤ) :
    ((preamble version).flatMap fun line ↦ splitlines (line ++ ['\n'])).foldlM
    (parseLine other) ⟨⟨0, []⟩, false⟩ = .ok ⟨⟨version, []⟩, true⟩ := by
  have htitle : parseLine other ⟨⟨0, []⟩, false⟩ "# Membership".toList = .ok ⟨⟨0, []⟩, false⟩ := by
    have hstrip : strip isSpace "# Membership".toList = "# Membership".toList := by decide +kernel
    rw [parseLine, hstrip, if_neg (by decide +kernel), if_neg (by decide +kernel), if_pos rfl]
  have hempty : ∀ state, parseLine other ⟨state, false⟩ [] = .ok ⟨state, false⟩ := fun state ↦ by
    have hstrip : strip isSpace [] = [] := rfl
    rw [parseLine, hstrip, if_neg (by decide +kernel), if_neg (by decide +kernel), if_pos rfl]
  have hheader : ∀ state, parseLine other ⟨state, false⟩ header = .ok ⟨state, true⟩ :=
    fun state ↦ by
    have hstrip : strip isSpace header = header := by decide +kernel
    rw [parseLine, hstrip, if_neg (by decide +kernel), if_pos rfl]
  have hseparator : ∀ state, parseLine other ⟨state, true⟩ separator = .ok ⟨state, true⟩ :=
    fun state ↦ by
    have hstrip : strip isSpace separator = separator := by decide +kernel
    rw [parseLine, hstrip, if_neg (by decide +kernel), if_neg (by decide +kernel),
      if_neg Bool.true_eq_false.mp, if_neg (by decide +kernel), if_pos (by decide +kernel)]
  rw [flatMap_splitlines (preamble_oneLine version), preamble]
  simp only [List.foldlM_cons, List.foldlM_nil, htitle, hempty, parse_version, hheader, hseparator,
    Fallible.ok_bind]
  rfl

theorem parse_render (other : OtherTimes) (h : render state = .ok text) :
    ∃ rows, List.Forall₂ (fun silo row ↦ renderRow silo = .ok row) state.silos rows ∧
      parse other text = ((rows.flatMap fun row ↦ splitlines (row ++ ['\n'])).foldlM
        (parseLine other)
        ⟨⟨state.version, []⟩, true⟩ >>= fun progress ↦ .ok progress.state) := by
  rw [render] at h
  obtain ⟨rows, hrows, h⟩ := Fallible.bind_eq_ok.mp h
  have hforall := Fallible.mapM_eq_ok.mp hrows
  refine ⟨rows, hforall, ?_⟩
  have hclear : ∀ line ∈ preamble state.version ++ rows, '\r' ∉ line := by
    rw [List.forall_mem_append]
    refine ⟨fun line hline hmem ↦ ?_, Fallible.forall_mem_right hforall fun silo _ row hrow ↦ ?_⟩
    · exact absurd (preamble_oneLine _ line hline _ hmem) (by decide)
    · obtain ⟨lastHeartbeat, iAmAlive, startTime, suspicions, hof⟩ := exists_rowOf hrow
      exact hof.not_mem.2
  have hlines : splitlines text.toList =
      (preamble state.version ++ rows).flatMap fun line ↦ splitlines (line ++ ['\n']) := by
    rw [← Except.ok.inj h, String.toList_ofList]
    exact splitlines_intercalate hclear
  rw [parse, hlines, List.flatMap_append, List.foldlM_append, parse_preamble, Fallible.ok_bind]

theorem tabular_of_parse (h : render state = .ok text)
    (hparse : parse other text = .ok state.wholeSeconds) :
    ∀ silo ∈ state.silos, Tabular silo := by
  obtain ⟨rows, hrows, hrest⟩ := parse_render other h
  rw [hrest] at hparse
  obtain ⟨progress, hprogress, hstate⟩ := Fallible.bind_eq_ok.mp hparse
  obtain ⟨added, hadded, -, htabular⟩ := foldlM_rows hrows hprogress
  have hsilos : progress.state.silos = state.silos.map SiloInfo.wholeSeconds :=
    congrArg MarkdownState.silos (Except.ok.inj hstate)
  exact htabular (hadded.symm.trans hsilos)

end File

/-- The table is read back as it was written just when every row is tabular. -/
theorem parse_render_iff (other : OtherTimes) (state : MarkdownState) (text : String)
    (h : render state = .ok text) :
    parse other text = .ok state.wholeSeconds ↔ ∀ silo ∈ state.silos, Tabular silo := by
  refine ⟨tabular_of_parse h, fun htabular ↦ ?_⟩
  obtain ⟨rows, hrows, hparse⟩ := parse_render other h
  rw [hparse, Fallible.bind_eq_ok]
  exact ⟨_, foldlM_tabular hrows htabular rfl, rfl⟩

def accused : SiloInfo where
  address := ⟨"localhost", 11111, 1713441000⟩
  status := .shuttingDown
  lastHeartbeat := 1713441060
  startTime := 1713441000
  clusterId := some "dev"
  gatewayPort := some 30000
  version := 4
  iAmAlive := 1713441060
  suspicions := [⟨"localhost:11112:1713441001", 1713441075⟩, ⟨"localhost:11113:1713441002", 0⟩]
  etag := some "h-0123456789ab"

theorem parse_render_accused : ∃ text, render ⟨7, [accused]⟩ = .ok text ∧
    (parse (fun _ ↦ none) text = .ok (MarkdownState.wholeSeconds ⟨7, [accused]⟩) ↔
      ∀ silo ∈ [accused], Tabular silo) := by
  obtain ⟨text, htext⟩ :=
    Fallible.exists_of_isOk (show (render ⟨7, [accused]⟩).isOk = true by decide +kernel)
  exact ⟨text, htext, parse_render_iff _ _ text htext⟩

/-- A cluster id with a blank behind it is accepted, and not read back. -/
theorem blank_is_lost : ∃ text, render ⟨7, [{ accused with clusterId := some "dev " }]⟩ = .ok text ∧
    ∀ other, parse other text ≠
      .ok (MarkdownState.wholeSeconds ⟨7, [{ accused with clusterId := some "dev " }]⟩) := by
  obtain ⟨text, htext⟩ := Fallible.exists_of_isOk
    (show (render ⟨7, [{ accused with clusterId := some "dev " }]⟩).isOk = true by decide +kernel)
  refine ⟨text, htext, fun other hparse ↦ ?_⟩
  have hid := ((tabular_of_parse htext hparse _ List.mem_cons_self).legible.clusterId "dev " rfl).2
  exact absurd hid (by unfold Unpadded; decide)

end Pyleans.MarkdownTable
