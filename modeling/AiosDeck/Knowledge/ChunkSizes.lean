import AiosDeck.Knowledge.Coverage
import AiosDeck.Knowledge.Storable

/-!
# Sizes of chunks

Windows and short sections keep to the largest size. A heading and the text in
front of the first symbol are chunks of their own, however long they are.
-/

namespace AiosDeck.Knowledge

open Python

section Lengths

/-- The characters of some lines, each with its line break. -/
def lineLength (lines : List Text) : ℕ := (lines.map fun line => line.length + 1).sum

theorem lineLength_nil : lineLength [] = 0 := rfl

theorem lineLength_cons (line : Text) (lines : List Text) :
    lineLength (line :: lines) = line.length + 1 + lineLength lines := rfl

theorem length_joinLines (lines : List Text) : (joinLines lines).length = lineLength lines - 1 := by
  unfold joinLines
  induction lines with
  | nil => rfl
  | cons line lines ih =>
    cases lines with
    | nil => simp [List.intercalate, lineLength]
    | cons next lines =>
      have hjoin : ['\n'].intercalate (line :: next :: lines) =
          line ++ '\n' :: ['\n'].intercalate (next :: lines) := by
        simp [List.intercalate]
      rw [hjoin, List.length_append, List.length_cons, ih, lineLength_cons line,
        lineLength_cons next]
      omega

theorem lineLength_map_le {lines : List Text} {change : Text → Text}
    (h : ∀ line, (change line).length ≤ line.length) :
    lineLength (lines.map change) ≤ lineLength lines := by
  induction lines with
  | nil => exact le_refl _
  | cons line lines ih =>
    have hline := h line
    rw [List.map_cons, lineLength_cons, lineLength_cons]
    omega

theorem lineLength_sublist {lines more : List Text} (h : lines.Sublist more) :
    lineLength lines ≤ lineLength more := by
  induction h with
  | slnil => exact le_refl _
  | cons line _ ih =>
    rw [lineLength_cons]
    omega
  | cons_cons line _ ih =>
    rw [lineLength_cons, lineLength_cons]
    omega

theorem length_rstrip_le (text : Text) : (rstrip text).length ≤ text.length := by
  unfold rstrip
  rw [List.length_reverse]
  calc (text.reverse.dropWhile isSpace).length
      ≤ text.reverse.length := (List.dropWhile_sublist _).length_le
    _ = text.length := List.length_reverse

theorem length_unifyNewlines_le (text : Text) : (unifyNewlines text).length ≤ text.length := by
  induction text using unifyNewlines.induct with
  | case1 => exact le_refl _
  | case2 rest ih =>
    rw [unifyNewlines, List.length_cons, List.length_cons, List.length_cons]
    omega
  | case3 rest hnot ih =>
    rw [unifyNewlines.eq_3 rest hnot, List.length_cons, List.length_cons]
    omega
  | case4 c rest hpair hsingle ih =>
    rw [unifyNewlines.eq_4 c rest hpair hsingle, List.length_cons, List.length_cons]
    omega

theorem lineLength_splitlines_le (text : Text) : lineLength (splitlines text) ≤ text.length + 1 := by
  induction text using splitlines.induct with
  | case1 => exact Nat.zero_le _
  | case2 rest ih =>
    rw [splitlines, lineLength_cons, List.length_cons, List.length_cons, List.length_nil]
    omega
  | case3 c rest hnot hbreak ih =>
    rw [splitlines.eq_3 c rest hnot, if_pos hbreak, lineLength_cons, List.length_cons,
      List.length_nil]
    omega
  | case4 c rest hnot hbreak hrest ih =>
    rw [splitlines.eq_3 c rest hnot, if_neg hbreak, hrest]
    change 2 ≤ rest.length + 1 + 1
    omega
  | case5 c rest hnot hbreak line lines hrest ih =>
    rw [splitlines.eq_3 c rest hnot, if_neg hbreak, hrest]
    rw [hrest, lineLength_cons] at ih
    dsimp only
    rw [lineLength_cons, List.length_cons, List.length_cons]
    omega

theorem lineLength_splitOn (text : Text) : lineLength (text.splitOn '\n') ≤ text.length + 1 := by
  have hjoin := length_joinLines (text.splitOn '\n')
  unfold joinLines at hjoin
  rw [List.intercalate_splitOn] at hjoin
  omega

theorem collapseRuns_sublist (lines : List Text) :
    ∀ blankRun, (collapseRuns blankRun lines).Sublist lines := by
  induction lines with
  | nil => exact fun _ => List.Sublist.refl _
  | cons line lines ih =>
    intro blankRun
    rw [collapseRuns]
    split_ifs
    · exact (ih _).cons_cons line
    · exact (ih _).cons line
    · exact (ih _).cons_cons line

/-- Normalising makes no text longer. -/
theorem length_normalizeContent_le (text : Text) : (normalizeContent text).length ≤ text.length := by
  have hlines := lineLength_splitlines_le text
  have hfirst : lineLength ((splitlines text).map fun line => unifyNewlines (rstrip line)) ≤
      lineLength (splitlines text) :=
    lineLength_map_le fun line => (length_unifyNewlines_le _).trans (length_rstrip_le line)
  unfold normalizeContent collapseBlankLines
  dsimp only
  generalize hjoined : joinLines ((splitlines text).map fun line => unifyNewlines (rstrip line)) =
    joined
  have hlength := length_joinLines
    ((splitlines text).map fun line => unifyNewlines (rstrip line))
  rw [hjoined] at hlength
  have hsplit := lineLength_splitOn joined
  have hstripped : lineLength ((joined.splitOn '\n').map rstrip) ≤
      lineLength (joined.splitOn '\n') := lineLength_map_le length_rstrip_le
  have hdropped : lineLength
      (((joined.splitOn '\n').map rstrip).reverse.dropWhile (· = [])).reverse ≤
      lineLength ((joined.splitOn '\n').map rstrip) := by
    refine lineLength_sublist ?_
    have hsublist := (List.dropWhile_sublist (l := ((joined.splitOn '\n').map rstrip).reverse)
      fun line => decide (line = [])).reverse
    rw [List.reverse_reverse] at hsublist
    exact hsublist
  have hcollapsed := lineLength_sublist (((List.dropWhile_sublist
    fun line : Text => decide (line = [])).trans (collapseRuns_sublist
      (((joined.splitOn '\n').map rstrip).reverse.dropWhile (· = [])).reverse 0)))
  rw [length_joinLines]
  omega

end Lengths

section Strips

theorem length_strip_append_le (text more : Text) :
    (strip text).length ≤ (strip (text ++ more)).length := by
  unfold strip
  rw [List.length_reverse, List.length_reverse, List.dropWhile_append]
  split
  · rename_i hblank
    rw [List.isEmpty_iff] at hblank
    rw [hblank]
    exact Nat.zero_le _
  · rw [List.reverse_append, List.dropWhile_append]
    split
    · exact le_refl _
    · rw [List.length_append, List.length_reverse]
      have hsublist := (List.dropWhile_sublist isSpace (l := (text.dropWhile isSpace).reverse)).length_le
      rw [List.length_reverse] at hsublist
      omega

end Strips

section Matches

theorem literal_rest {text : Text} {start found : Regex.Match}
    (h : found ∈ (Regex.literal text).successes start) :
    start.rest.length = text.length + found.rest.length := by
  induction text generalizing start with
  | nil =>
    rw [List.mem_singleton.mp h, List.length_nil, Nat.zero_add]
  | cons c rest ih =>
    change found ∈ ((Regex.char c).successes start).flatMap (Regex.literal rest).successes at h
    obtain ⟨next, hnext, hfound⟩ := List.mem_flatMap.mp h
    have hrest := ih hfound
    unfold Regex.char Regex.successes at hnext
    split at hnext
    · exact absurd hnext List.not_mem_nil
    · rename_i d tail htext
      split at hnext
      · rw [List.mem_singleton.mp hnext] at hrest
        dsimp only at hrest
        rw [htext, List.length_cons, List.length_cons, hrest]
        omega
      · exact absurd hnext List.not_mem_nil

/-- A symbol is introduced by at most ten characters. -/
theorem symbolRe_rest {text : Text} {found : Regex.Match} (h : symbolRe.match? text = some found) :
    text.length ≤ 10 + found.rest.length := by
  have hmem := List.mem_of_head? h
  unfold symbolRe at hmem
  rw [Regex.successes, List.mem_append, Regex.successes, List.mem_append] at hmem
  have hclass : "class ".toList.length ≤ 10 := by decide
  have hdef : "def ".toList.length ≤ 10 := by decide
  have hasync : "async def ".toList.length ≤ 10 := by decide
  rcases hmem with hmem | hmem | hmem
  all_goals
    have hrest : text.length = _ := literal_rest hmem
    omega

theorem lineMatches_length {pattern : Regex} {bound : ℕ}
    (h : ∀ text found, pattern.match? text = some found → text.length ≤ bound + found.rest.length)
    (text : Text) :
    ∀ pos lineStart skip, ∀ found ∈ lineMatches pattern pos lineStart skip text,
      found.length ≤ bound := by
  induction text with
  | nil =>
    intro pos lineStart skip found hfound
    rw [lineMatches] at hfound
    exact absurd hfound List.not_mem_nil
  | cons c rest ih =>
    intro pos lineStart skip
    cases skip with
    | succ skip =>
      rw [lineMatches]
      exact ih _ _ _
    | zero =>
      rw [lineMatches]
      split
      · rename_i found hfound
        rw [List.forall_mem_cons]
        refine ⟨?_, ih _ _ _⟩
        split at hfound
        · have hbound := h _ _ hfound
          dsimp only
          omega
        · cases hfound
      · exact ih _ _ _

end Matches

section Bounds

variable {maxChars overlap : ℕ}

theorem windows_bounded (hpos : 0 < maxChars) (hmax : 2 * overlap ≤ maxChars) (text : Text) :
    ∀ fuel start, ∀ chunk ∈ windows text maxChars overlap fuel start, chunk.length ≤ maxChars := by
  intro fuel
  induction fuel with
  | zero => exact fun _ chunk hchunk => absurd hchunk List.not_mem_nil
  | succ fuel ih =>
    intro start
    by_cases hstart : start < text.length
    · rw [windows_succ _ hstart, List.forall_mem_append]
      refine ⟨fun chunk hchunk => ?_, ih _⟩
      split at hchunk
      · exact absurd hchunk List.not_mem_nil
      · have hstop := @windowEnd_spec text _ _ start hpos hmax
        have hslice := length_slice hstop.1 (a := start)
        rw [List.mem_singleton.mp hchunk]
        have hstrip := length_strip_le (slice text start (windowEnd text maxChars overlap start))
        omega
    · rw [windows_end _ hstart]
      exact fun chunk hchunk => absurd hchunk List.not_mem_nil

theorem chunkBySize_bounded (hpos : 0 < maxChars) (hmax : 2 * overlap ≤ maxChars) (text : Text) :
    ∀ chunk ∈ chunkBySize text maxChars overlap, chunk.length ≤ maxChars := by
  unfold chunkBySize
  split_ifs with hblank hshort
  · exact fun chunk hchunk => absurd hchunk List.not_mem_nil
  · exact List.forall_mem_singleton.mpr ((length_strip_le text).trans hshort)
  · exact windows_bounded hpos hmax text _ _

/-- Only the heading of a section can be too long. -/
theorem sectionChunks_bounded (text : Text) (found : Span) (stop : ℕ) :
    ∀ chunk ∈ sectionChunks text found stop, chunk.length ≤ maxChunkChars ∨
      chunk = strip (slice text found.start (found.start + found.length)) := by
  unfold sectionChunks
  dsimp only
  split_ifs with hlong
  · rw [List.forall_mem_cons]
    refine ⟨Or.inr rfl, fun chunk hchunk => Or.inl ?_⟩
    exact chunkBySize_bounded (by decide) (by decide) _ chunk hchunk
  · exact List.forall_mem_singleton.mpr (Or.inl (not_lt.mp hlong))

theorem slice_append_slice (text : Text) {a b c : ℕ} (hab : a ≤ b) (hbc : b ≤ c) :
    slice text a b ++ slice text b c = slice text a c := by
  unfold slice
  rw [List.drop_take, List.drop_take, List.drop_take, show c - a = (b - a) + (c - b) by omega,
    List.take_add, List.drop_drop, Nat.add_sub_cancel' hab]

/-- A heading that is too long is a chunk. -/
theorem mem_sectionChunks {text : Text} {found : Span} {stop : ℕ}
    (hstop : found.start + found.length ≤ stop)
    (hlong : maxChunkChars <
      (strip (slice text found.start (found.start + found.length))).length) :
    strip (slice text found.start (found.start + found.length)) ∈
      sectionChunks text found stop := by
  have hle := length_strip_append_le (slice text found.start (found.start + found.length))
    (slice text (found.start + found.length) stop)
  rw [slice_append_slice text (Nat.le_add_right _ _) hstop] at hle
  unfold sectionChunks
  dsimp only
  rw [if_pos (hlong.trans_le hle)]
  exact List.mem_cons_self

end Bounds

section Cuts

variable {pattern : Regex} {preambleChunks : Text → List Text} {text : Text}

/-- The text in front of the first match. -/
def preamble (pattern : Regex) (text : Text) : Text :=
  match lineMatches pattern 0 true 0 text with
  | [] => []
  | first :: _ => strip (text.take first.start)

/-- The matches, as texts. -/
def headings (pattern : Regex) (text : Text) : List Text :=
  (lineMatches pattern 0 true 0 text).map fun found =>
    strip (slice text found.start (found.start + found.length))

variable {first : Span} {rest : List Span}

theorem preamble_cons (hmatches : lineMatches pattern 0 true 0 text = first :: rest) :
    preamble pattern text = strip (text.take first.start) := by
  unfold preamble
  rw [hmatches]

theorem chunkAtMatches_cons (hmatches : lineMatches pattern 0 true 0 text = first :: rest) :
    chunkAtMatches pattern preambleChunks text =
      ((if 0 < first.start ∧ preamble pattern text ≠ [] then
          preambleChunks (preamble pattern text) else []) ++
        ((first :: rest).zip (rest.map Span.start ++ [text.length])).flatMap fun part =>
          sectionChunks text part.1 part.2).filter fun chunk => strip chunk ≠ [] := by
  unfold chunkAtMatches
  rw [preamble_cons hmatches, hmatches]

/-- A chunk that is too long comes from the preamble or is a heading. -/
theorem chunkAtMatches_bounded :
    ∀ chunk ∈ chunkAtMatches pattern preambleChunks text, chunk.length ≤ maxChunkChars ∨
      chunk ∈ preambleChunks (preamble pattern text) ∨ chunk ∈ headings pattern text := by
  intro chunk hchunk
  cases hmatches : lineMatches pattern 0 true 0 text with
  | nil =>
    unfold chunkAtMatches at hchunk
    rw [hmatches] at hchunk
    exact Or.inl (chunkBySize_bounded (by decide) (by decide) text chunk hchunk)
  | cons first rest =>
    rw [chunkAtMatches_cons hmatches] at hchunk
    rcases List.mem_append.mp (List.mem_of_mem_filter hchunk) with hchunk | hchunk
    · split at hchunk
      · exact Or.inr (Or.inl hchunk)
      · exact absurd hchunk List.not_mem_nil
    · obtain ⟨⟨found, stop⟩, hpart, hsection⟩ := List.mem_flatMap.mp hchunk
      rcases sectionChunks_bounded text found stop chunk hsection with hshort | rfl
      · exact Or.inl hshort
      · unfold headings
        rw [hmatches]
        exact Or.inr (Or.inr (List.mem_map_of_mem (List.of_mem_zip hpart).1))

theorem ne_nil_of_long {chunk : Text} (h : maxChunkChars < chunk.length) : chunk ≠ [] := by
  rintro rfl
  exact absurd h (Nat.not_lt_zero _)

theorem preamble_mem (hlong : maxChunkChars < (preamble pattern text).length)
    (hwhole : preamble pattern text ∈ preambleChunks (preamble pattern text)) :
    preamble pattern text ∈ chunkAtMatches pattern preambleChunks text := by
  have hsome := ne_nil_of_long hlong
  cases hmatches : lineMatches pattern 0 true 0 text with
  | nil =>
    unfold preamble at hsome
    rw [hmatches] at hsome
    exact absurd rfl hsome
  | cons first rest =>
    have hstrip := preamble_cons hmatches
    have hstart : 0 < first.start := by
      by_contra hzero
      rw [hstrip, Nat.eq_zero_of_not_pos hzero] at hsome
      exact hsome rfl
    have hkept : strip (preamble pattern text) ≠ [] := by
      rw [hstrip] at hsome ⊢
      exact strip_strip_ne_nil hsome
    rw [chunkAtMatches_cons hmatches, if_pos ⟨hstart, hsome⟩, List.mem_filter]
    exact ⟨List.mem_append_left _ hwhole, decide_eq_true hkept⟩

theorem mem_zip_ordered (rest : List Span) (first : Span) (last : ℕ) :
    (first :: rest).Pairwise (fun first second => first.start + first.length ≤ second.start) →
      (∀ found ∈ first :: rest, found.start + found.length ≤ last) →
      ∀ found ∈ first :: rest, ∃ stop, found.start + found.length ≤ stop ∧
        (found, stop) ∈ (first :: rest).zip (rest.map Span.start ++ [last]) := by
  induction rest generalizing first with
  | nil =>
    intro _ hbounds
    rw [List.forall_mem_singleton] at hbounds ⊢
    exact ⟨last, hbounds, List.mem_singleton_self _⟩
  | cons second rest ih =>
    intro hpairs hbounds
    rw [List.forall_mem_cons] at hbounds ⊢
    rw [List.pairwise_cons] at hpairs
    refine ⟨⟨second.start, hpairs.1 second List.mem_cons_self, List.mem_cons_self⟩, ?_⟩
    intro found hfound
    obtain ⟨stop, hstop, hmem⟩ := ih second hpairs.2 hbounds.2 found hfound
    exact ⟨stop, hstop, List.mem_cons_of_mem _ hmem⟩

theorem heading_mem {heading : Text} (hheading : heading ∈ headings pattern text)
    (hlong : maxChunkChars < heading.length) :
    heading ∈ chunkAtMatches pattern preambleChunks text := by
  have hsome := ne_nil_of_long hlong
  obtain ⟨hbounds, hpairs⟩ := lineMatches_ordered pattern text 0 true 0
  unfold headings at hheading
  cases hmatches : lineMatches pattern 0 true 0 text with
  | nil =>
    rw [hmatches] at hheading
    exact absurd hheading List.not_mem_nil
  | cons first rest =>
    rw [hmatches] at hbounds hpairs hheading
    obtain ⟨found, hfound, rfl⟩ := List.mem_map.mp hheading
    obtain ⟨stop, hstop, hmem⟩ := mem_zip_ordered rest first text.length hpairs
      (fun other hother => by have hbound := hbounds other hother; omega) found hfound
    rw [chunkAtMatches_cons hmatches, List.mem_filter]
    refine ⟨List.mem_append_right _ ?_, decide_eq_true (strip_strip_ne_nil hsome)⟩
    exact List.mem_flatMap.mpr ⟨(found, stop), hmem, mem_sectionChunks hstop hlong⟩

theorem forall_mem_mapIdx {α β : Type} {change : ℕ → α → β} {P : β → Prop} {Q : α → Prop}
    (h : ∀ i a, P (change i a) ↔ Q a) (items : List α) :
    (∀ b ∈ items.mapIdx change, P b) ↔ ∀ a ∈ items, Q a := by
  constructor
  · intro hall a ha
    obtain ⟨i, hi, rfl⟩ := List.mem_iff_getElem.mp ha
    exact (h i _).mp (hall _ (List.mem_mapIdx.mpr ⟨i, hi, rfl⟩))
  · intro hall b hb
    obtain ⟨i, hi, rfl⟩ := List.mem_mapIdx.mp hb
    exact (h i _).mpr (hall _ (List.getElem_mem hi))

/-- The chunks of a text are bounded once they are normalised. -/
theorem forall_chunkText {content sourceType sourceId : Text} {docMetadata : Metadata} :
    (∀ chunk ∈ chunkText content sourceType sourceId docMetadata,
        chunk.content.length ≤ maxChunkChars) ↔
      ∀ chunk ∈ (if sourceType = "code".toList then chunkCode content else chunkMarkdown content),
        (normalizeContent chunk).length ≤ maxChunkChars := by
  unfold chunkText
  refine forall_mem_mapIdx (fun i chunk => ?_) _
  exact Iff.rfl

/-- No heading of a symbol is long. -/
theorem headings_symbolRe_bounded {heading : Text} (h : heading ∈ headings symbolRe text) :
    heading.length ≤ maxChunkChars := by
  unfold headings at h
  obtain ⟨found, hfound, rfl⟩ := List.mem_map.mp h
  have hten := lineMatches_length (fun text found => symbolRe_rest) text 0 true 0 found hfound
  have hstrip := length_strip_le (slice text found.start (found.start + found.length))
  have hslice : (slice text found.start (found.start + found.length)).length ≤ found.length := by
    unfold slice
    rw [List.length_drop, List.length_take]
    omega
  have hsize : 10 ≤ maxChunkChars := by decide
  omega

/-- The chunks of a text keep to the largest size exactly when the text in front
of the first symbol does, for code, and when every heading does, for all other
sources. -/
theorem chunkText_bounded_iff (content sourceType sourceId : Text) (docMetadata : Metadata) :
    (∀ chunk ∈ chunkText content sourceType sourceId docMetadata,
        chunk.content.length ≤ maxChunkChars) ↔
      if sourceType = "code".toList then
        (normalizeContent (preamble symbolRe content)).length ≤ maxChunkChars
      else
        ∀ heading ∈ headings headingRe content,
          (normalizeContent heading).length ≤ maxChunkChars := by
  have hraw : ∀ {chunk : Text}, maxChunkChars < (normalizeContent chunk).length →
      maxChunkChars < chunk.length := fun h => h.trans_le (length_normalizeContent_le _)
  rw [forall_chunkText]
  split_ifs
  · constructor
    · intro h
      by_contra hlong
      rw [not_le] at hlong
      exact absurd (h _ (preamble_mem (hraw hlong) (List.mem_singleton_self _))) (not_le.mpr hlong)
    · intro h chunk hchunk
      rcases chunkAtMatches_bounded chunk hchunk with hshort | hpreamble | hheading
      · exact (length_normalizeContent_le _).trans hshort
      · rw [List.mem_singleton.mp hpreamble]
        exact h
      · exact (length_normalizeContent_le _).trans (headings_symbolRe_bounded hheading)
  · constructor
    · intro h heading hheading
      by_contra hlong
      rw [not_le] at hlong
      exact absurd (h _ (heading_mem hheading (hraw hlong))) (not_le.mpr hlong)
    · intro h chunk hchunk
      rcases chunkAtMatches_bounded chunk hchunk with hshort | hpreamble | hheading
      · exact (length_normalizeContent_le _).trans hshort
      · refine (length_normalizeContent_le _).trans ?_
        exact chunkBySize_bounded (by decide) (by decide) _ chunk hpreamble
      · exact h chunk hheading

/-- A text is at least as long as its words. -/
theorem length_word_le (text : Text) :
    ∀ pending, ∀ word ∈ wordsFrom pending text, word.length ≤ pending.length + text.length := by
  induction text with
  | nil =>
    intro pending word hword
    rw [wordsFrom] at hword
    split at hword
    · exact absurd hword List.not_mem_nil
    · rw [List.mem_singleton.mp hword, List.length_reverse]
      exact Nat.le_add_right _ _
  | cons c rest ih =>
    have hbehind : ∀ pending : Text, ∀ word ∈ wordsFrom [] rest,
        word.length ≤ pending.length + (c :: rest).length := by
      intro pending word hword
      have hrest := ih [] word hword
      rw [List.length_nil] at hrest
      rw [List.length_cons]
      omega
    intro pending word hword
    rw [wordsFrom] at hword
    split_ifs at hword
    · exact hbehind pending word hword
    · rcases List.mem_cons.mp hword with rfl | hword
      · rw [List.length_reverse]
        exact Nat.le_add_right _ _
      · exact hbehind pending word hword
    · have hrest := ih (c :: pending) word hword
      rw [List.length_cons] at *
      omega

/-- A line without a match. -/
theorem lineMatches_line {line : Text} (h : ∀ c ∈ line, c ≠ '\n') (rest : Text) :
    ∀ pos, lineMatches pattern pos false 0 (line ++ '\n' :: rest) =
      lineMatches pattern (pos + line.length + 1) true 0 rest := by
  induction line with
  | nil =>
    intro pos
    rw [List.nil_append, lineMatches]
    rfl
  | cons c line ih =>
    intro pos
    rw [List.forall_mem_cons] at h
    have hc : decide (c = '\n') = false := decide_eq_false h.1
    have hlength : pos + 1 + line.length + 1 = pos + (c :: line).length + 1 := by
      rw [List.length_cons]
      omega
    rw [List.cons_append, lineMatches, hc, ← hlength]
    exact ih h.2 (pos + 1)

/-- One long word in front of the first symbol. -/
theorem words_preamble {letters : Text} (h : ∀ c ∈ letters, isSpace c = false) :
    words (preamble symbolRe ('x' :: (letters ++ '\n' :: "def f():".toList))) =
      ['x' :: letters] := by
  have hline : ∀ c ∈ letters, c ≠ '\n' := by
    rintro c hc rfl
    exact absurd (h _ hc) (by decide)
  have hmatches : lineMatches symbolRe 0 true 0
      ('x' :: (letters ++ '\n' :: "def f():".toList)) = [⟨1 + letters.length + 1, 4⟩] := by
    have hbehind := @lineMatches_line symbolRe _ hline "def f():".toList 1
    have hnone : lineMatches symbolRe (1 + letters.length + 1) true 0 "def f():".toList =
        [⟨1 + letters.length + 1, 4⟩] := rfl
    rw [hnone] at hbehind
    exact hbehind
  have htake : ('x' :: (letters ++ '\n' :: "def f():".toList)).take (1 + letters.length + 1) =
      'x' :: letters ++ ['\n'] := by
    rw [show 'x' :: (letters ++ '\n' :: "def f():".toList) =
      ('x' :: letters ++ ['\n']) ++ "def f():".toList by simp]
    refine List.take_left' ?_
    rw [List.length_append, List.length_cons, List.length_singleton]
    omega
  have hword : IsWord ('x' :: letters) :=
    ⟨List.cons_ne_nil _ _, List.forall_mem_cons.mpr ⟨by decide, h⟩⟩
  have hjoined := words_joinWords (List.forall_mem_singleton.mpr hword)
  have hone : joinWords ['x' :: letters] = 'x' :: letters := by simp [joinWords, List.intercalate]
  have hblank : ∀ c ∈ ['\n'], isSpace c = true := List.forall_mem_singleton.mpr (by decide)
  rw [hone] at hjoined
  rw [preamble_cons hmatches, words_strip]
  dsimp only
  rw [htake, words, wordsFrom_trailing hblank]
  exact hjoined

/-- Code behind 4097 letters: the letters are one chunk. -/
theorem long_preamble : ¬∀ (content sourceType sourceId : Text) (docMetadata : Metadata),
    ∀ chunk ∈ chunkText content sourceType sourceId docMetadata,
      chunk.content.length ≤ maxChunkChars := by
  intro h
  obtain ⟨letters, hletters, hmany⟩ : ∃ letters : Text,
      (∀ c ∈ letters, isSpace c = false) ∧ letters.length = maxChunkChars := by
    refine ⟨List.replicate maxChunkChars 'x', fun c hc => ?_, List.length_replicate⟩
    rw [List.eq_of_mem_replicate hc]
    decide
  have hwords := words_preamble hletters
  have hlong : ∀ text : Text, words text = ['x' :: letters] → maxChunkChars < text.length := by
    intro text htext
    have hlength := length_word_le text [] ('x' :: letters)
      (by
        change 'x' :: letters ∈ words text
        rw [htext]
        exact List.mem_singleton_self _)
    rw [List.length_cons, List.length_nil, Nat.zero_add, hmany] at hlength
    exact hlength
  have hchunk : preamble symbolRe ('x' :: (letters ++ '\n' :: "def f():".toList)) ∈
      chunkCode ('x' :: (letters ++ '\n' :: "def f():".toList)) :=
    preamble_mem (hlong _ hwords) (List.mem_singleton_self _)
  have hbound := forall_chunkText.mp
    (h ('x' :: (letters ++ '\n' :: "def f():".toList)) "code".toList [] [])
  rw [if_pos rfl] at hbound
  rw [← words_normalizeContent] at hwords
  exact absurd (hlong _ hwords) (not_lt.mpr (hbound _ hchunk))

end Cuts

end AiosDeck.Knowledge
