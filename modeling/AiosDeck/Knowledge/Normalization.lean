import AiosDeck.Knowledge.Chunking
import AiosDeck.Python.LineEnds

/-!
# What normalising leaves out of a text

The normalised text depends on the lines of a text only up to the white space behind
them, the blank lines at both ends, and the length of the longer runs of blank lines.
-/

namespace AiosDeck.Knowledge

open Python

section Runs

/-- Whether a stripped line is blank. -/
def isBlank (line : Text) : Bool := decide (line = [])

/-- Without the blank lines at the start. -/
def trimStart (lines : List Text) : List Text := lines.dropWhile isBlank

/-- Without the blank lines at the end. -/
def trimEnd (lines : List Text) : List Text := lines.rdropWhile isBlank

theorem trimEnd_eq_nil {lines : List Text} : trimEnd lines = [] ↔ ∀ line ∈ lines, line = [] := by
  simp [trimEnd, isBlank, List.rdropWhile_eq_nil_iff]

theorem trimEnd_cons (line : Text) (lines : List Text) :
    trimEnd (line :: lines) =
      if line = [] ∧ trimEnd lines = [] then [] else line :: trimEnd lines := by
  have hcons := rdropWhile_cons isBlank line lines
  simp only [isBlank, decide_eq_true_eq] at hcons
  exact hcons

theorem trimStart_trimEnd (lines : List Text) :
    trimStart (trimEnd lines) = trimEnd (trimStart lines) :=
  dropWhile_rdropWhile isBlank lines

theorem collapseRuns_blank (blankRun : ℕ) (lines : List Text) :
    collapseRuns blankRun ([] :: lines) = if blankRun + 1 ≤ maxBlankRun then
      [] :: collapseRuns (blankRun + 1) lines else collapseRuns (blankRun + 1) lines := rfl

theorem collapseRuns_filled (blankRun : ℕ) {line : Text} (hline : line ≠ []) (lines : List Text) :
    collapseRuns blankRun (line :: lines) = line :: collapseRuns 0 lines := by
  rw [collapseRuns, if_neg hline]

/-- Behind a full run of blank lines it does not matter how many there were. -/
theorem collapseRuns_full (lines : List Text) : ∀ {m n : ℕ}, maxBlankRun ≤ m → maxBlankRun ≤ n →
    collapseRuns m lines = collapseRuns n lines := by
  induction lines with
  | nil => exact fun _ _ => rfl
  | cons line lines ih =>
    intro m n hm hn
    by_cases hline : line = []
    · subst hline
      rw [collapseRuns_blank, collapseRuns_blank, if_neg (by omega), if_neg (by omega)]
      exact ih (by omega) (by omega)
    · rw [collapseRuns_filled m hline, collapseRuns_filled n hline]

theorem trimStart_collapseRuns_blank (blankRun : ℕ) (lines : List Text) :
    trimStart (collapseRuns blankRun ([] :: lines)) =
      trimStart (collapseRuns (blankRun + 1) lines) := by
  rw [collapseRuns_blank]
  split_ifs <;> rfl

/-- At the start it does not matter how many blank lines there were. -/
theorem trimStart_collapseRuns (lines : List Text) : ∀ m n : ℕ,
    trimStart (collapseRuns m lines) = trimStart (collapseRuns n lines) := by
  induction lines with
  | nil => exact fun _ _ => rfl
  | cons line lines ih =>
    intro m n
    by_cases hline : line = []
    · subst hline
      rw [trimStart_collapseRuns_blank, trimStart_collapseRuns_blank]
      exact ih (m + 1) (n + 1)
    · rw [collapseRuns_filled m hline, collapseRuns_filled n hline]

theorem trimStart_collapseRuns_blanks {before : List Text} (hbefore : ∀ line ∈ before, line = [])
    (lines : List Text) : ∀ m n : ℕ,
    trimStart (collapseRuns m (before ++ lines)) = trimStart (collapseRuns n lines) := by
  induction before with
  | nil => exact trimStart_collapseRuns lines
  | cons line before ih =>
    intro m n
    rw [List.forall_mem_cons] at hbefore
    rw [hbefore.1, List.cons_append, trimStart_collapseRuns_blank]
    exact ih hbefore.2 (m + 1) n

/-- A longer run of blank lines is collapsed to the same lines. -/
theorem collapseRuns_longer (before : List Text) {more : List Text}
    (hmore : ∀ line ∈ more, line = []) (after : List Text) : ∀ blankRun : ℕ,
    collapseRuns blankRun (before ++ [] :: [] :: (more ++ after)) =
      collapseRuns blankRun (before ++ [] :: [] :: after) := by
  have hdrop : ∀ {m : ℕ}, maxBlankRun ≤ m → collapseRuns m (more ++ after) =
      collapseRuns m after := by
    induction more with
    | nil => exact fun _ => rfl
    | cons line more ih =>
      rw [List.forall_mem_cons] at hmore
      intro m hm
      rw [hmore.1, List.cons_append, collapseRuns_blank, if_neg (by omega), ih hmore.2 (by omega)]
      exact collapseRuns_full after (by omega) hm
  induction before with
  | nil =>
    intro blankRun
    have hfull : maxBlankRun ≤ blankRun + 1 + 1 := by
      unfold maxBlankRun
      omega
    rw [List.nil_append, List.nil_append, collapseRuns_blank, collapseRuns_blank,
      collapseRuns_blank, collapseRuns_blank, hdrop hfull]
  | cons line before ih =>
    intro blankRun
    by_cases hline : line = []
    · subst hline
      rw [List.cons_append, List.cons_append, collapseRuns_blank, collapseRuns_blank, ih]
    · rw [List.cons_append, List.cons_append, collapseRuns_filled _ hline,
        collapseRuns_filled _ hline, ih]

theorem collapseRuns_collapseRuns (lines : List Text) : ∀ blankRun : ℕ,
    collapseRuns blankRun (collapseRuns blankRun lines) = collapseRuns blankRun lines := by
  induction lines with
  | nil => exact fun _ => rfl
  | cons line lines ih =>
    intro blankRun
    by_cases hline : line = []
    · subst hline
      rw [collapseRuns_blank]
      split_ifs with hfew
      · rw [collapseRuns_blank, if_pos hfew, ih]
      · rw [collapseRuns_full _ (by omega) (by omega : maxBlankRun ≤ blankRun + 1), ih]
    · rw [collapseRuns_filled _ hline, collapseRuns_filled _ hline, ih]

theorem mem_collapseRuns {line : Text} (hline : line ≠ []) {lines : List Text}
    (hmem : line ∈ lines) : ∀ blankRun, line ∈ collapseRuns blankRun lines := by
  induction lines with
  | nil => exact absurd hmem List.not_mem_nil
  | cons first lines ih =>
    intro blankRun
    by_cases hfirst : first = []
    · have hrest := ih ((List.mem_cons.mp hmem).resolve_left fun heq => hline (heq.trans hfirst))
      subst hfirst
      rw [collapseRuns_blank]
      split_ifs
      · exact List.mem_cons_of_mem _ (hrest _)
      · exact hrest _
    · rw [collapseRuns_filled _ hfirst]
      rcases List.mem_cons.mp hmem with rfl | hrest
      · exact List.mem_cons_self
      · exact List.mem_cons_of_mem _ (ih hrest 0)

theorem of_mem_collapseRuns {line : Text} {lines : List Text} : ∀ {blankRun : ℕ},
    line ∈ collapseRuns blankRun lines → line ∈ lines := by
  induction lines with
  | nil => exact fun hmem => hmem
  | cons first lines ih =>
    intro blankRun hmem
    by_cases hfirst : first = []
    · subst hfirst
      rw [collapseRuns_blank] at hmem
      split_ifs at hmem
      · rcases List.mem_cons.mp hmem with rfl | hrest
        · exact List.mem_cons_self
        · exact List.mem_cons_of_mem _ (ih hrest)
      · exact List.mem_cons_of_mem _ (ih hmem)
    · rw [collapseRuns_filled _ hfirst] at hmem
      rcases List.mem_cons.mp hmem with rfl | hrest
      · exact List.mem_cons_self
      · exact List.mem_cons_of_mem _ (ih hrest)

/-- Blank lines at the end may go before or after the runs are collapsed. -/
theorem collapseRuns_trimEnd (lines : List Text) : ∀ blankRun : ℕ,
    collapseRuns blankRun (trimEnd lines) = trimEnd (collapseRuns blankRun lines) := by
  induction lines with
  | nil => exact fun _ => rfl
  | cons line lines ih =>
    intro blankRun
    by_cases hline : line = []
    · subst hline
      by_cases hrest : trimEnd lines = []
      · have hblank : trimEnd (collapseRuns blankRun ([] :: lines)) = [] := by
          refine trimEnd_eq_nil.mpr fun line hmem => ?_
          rcases List.mem_cons.mp (of_mem_collapseRuns hmem) with hline | hline
          · exact hline
          · exact trimEnd_eq_nil.mp hrest line hline
        rw [hblank, trimEnd_cons, if_pos ⟨rfl, hrest⟩]
        rfl
      · have hsome : trimEnd (collapseRuns (blankRun + 1) lines) ≠ [] := by
          intro hnil
          refine hrest (trimEnd_eq_nil.mpr fun line hmem => ?_)
          by_contra hline
          exact hline (trimEnd_eq_nil.mp hnil line (mem_collapseRuns hline hmem _))
        rw [trimEnd_cons, if_neg fun hnil => hrest hnil.2, collapseRuns_blank, collapseRuns_blank]
        split_ifs
        · rw [trimEnd_cons, if_neg fun hnil => hsome hnil.2, ih]
        · exact ih _
    · rw [trimEnd_cons, if_neg fun hnil => hline hnil.1, collapseRuns_filled _ hline,
        collapseRuns_filled _ hline, trimEnd_cons, if_neg fun hnil => hline hnil.1, ih]

end Runs

section Tidied

/-- Stripped lines as normalising leaves them. -/
def tidy (lines : List Text) : List Text := trimEnd (trimStart (collapseRuns 0 lines))

theorem mem_tidy {line : Text} {lines : List Text} (h : line ∈ tidy lines) : line ∈ lines :=
  of_mem_collapseRuns ((List.dropWhile_sublist _).subset
    ((List.rdropWhile_prefix isBlank _).subset h))

theorem tidy_trimEnd (lines : List Text) : tidy (trimEnd lines) = tidy lines := by
  unfold tidy
  rw [collapseRuns_trimEnd, trimStart_trimEnd]
  exact List.rdropWhile_idempotent _ _

theorem tidy_trimStart (lines : List Text) : tidy (trimStart lines) = tidy lines := by
  have hsplit := List.takeWhile_append_dropWhile (p := isBlank) (l := lines)
  have hblank : ∀ line ∈ lines.takeWhile isBlank, line = [] :=
    fun line hline => of_decide_eq_true (List.mem_takeWhile_imp (p := isBlank) hline)
  unfold tidy
  conv_rhs => rw [← hsplit, trimStart_collapseRuns_blanks hblank _ 0 0]
  rfl

theorem tidy_tidy (lines : List Text) : tidy (tidy lines) = tidy lines := by
  calc tidy (tidy lines)
      = tidy (collapseRuns 0 lines) := by
        rw [show tidy lines = trimEnd (trimStart (collapseRuns 0 lines)) from rfl, tidy_trimEnd,
          tidy_trimStart]
    _ = tidy lines := by
        unfold tidy
        rw [collapseRuns_collapseRuns]

/-- Blank lines at both ends are left out. -/
theorem tidy_ends {before behind : List Text} (hbefore : ∀ line ∈ before, line = [])
    (hbehind : ∀ line ∈ behind, line = []) (lines : List Text) :
    tidy (before ++ lines ++ behind) = tidy lines := by
  have hend : ∀ {more : List Text}, (∀ line ∈ more, line = []) →
      trimEnd (lines ++ more) = trimEnd lines := by
    intro more hmore
    induction more using List.reverseRecOn with
    | nil => rw [List.append_nil]
    | append_singleton more last ih =>
      rw [List.forall_mem_append] at hmore
      have hlast : last = [] := hmore.2 last List.mem_cons_self
      rw [← ih hmore.1, ← List.append_assoc]
      exact List.rdropWhile_concat_pos _ _ _ (decide_eq_true hlast)
  have hstart : tidy (before ++ (lines ++ behind)) = tidy (lines ++ behind) := by
    unfold tidy
    rw [trimStart_collapseRuns_blanks hbefore _ 0 0]
  rw [List.append_assoc, hstart, ← tidy_trimEnd, hend hbehind, tidy_trimEnd]

theorem tidy_longer (before : List Text) {more : List Text} (hmore : ∀ line ∈ more, line = [])
    (after : List Text) :
    tidy (before ++ [] :: [] :: (more ++ after)) = tidy (before ++ [] :: [] :: after) := by
  unfold tidy
  rw [collapseRuns_longer before hmore]

theorem getLast?_tidy (lines : List Text) : (tidy lines).getLast? ≠ some [] := by
  intro hlast
  have hne : tidy lines ≠ [] := by
    intro hnil
    rw [hnil] at hlast
    cases hlast
  have hfilled := List.rdropWhile_last_not isBlank _ hne
  have hget := List.getLast?_eq_some_getLast hne
  rw [hlast] at hget
  exact hfilled (decide_eq_true (Option.some.inj hget).symm)

end Tidied

section Normalised

theorem unifyNewlines_self {text : Text} (h : '\r' ∉ text) : unifyNewlines text = text := by
  induction text with
  | nil => rfl
  | cons c rest ih =>
    have hreturn : c ≠ '\r' := fun hc => h (hc ▸ List.mem_cons_self)
    rw [unifyNewlines.eq_4 c rest (fun _ hc => absurd hc hreturn) hreturn,
      ih fun hmem => h (List.mem_cons_of_mem c hmem)]

/-- A normalised text is the tidied lines of the text. -/
theorem normalizeContent_eq (text : Text) :
    normalizeContent text = joinLines (tidy ((splitlines text).map rstrip)) := by
  have hlines : ((splitlines text).map fun line => unifyNewlines (rstrip line)) =
      (splitlines text).map rstrip :=
    List.map_congr_left fun line hline =>
      unifyNewlines_self (isLine_splitlines text line hline).rstrip.not_return
  have hstripped : ((splitlines text).map rstrip).map rstrip = (splitlines text).map rstrip := by
    rw [List.map_map]
    exact List.map_congr_left fun line _ => rstrip_rstrip line
  have hsplit : tidy (((joinLines ((splitlines text).map rstrip)).splitOn '\n').map rstrip) =
      tidy ((splitlines text).map rstrip) := by
    cases hnil : splitlines text with
    | nil => rfl
    | cons line lines =>
      rw [← hnil]
      unfold joinLines
      rw [List.splitOn_intercalate '\n' _ (by simp [hnil]), hstripped]
      intro line hline
      obtain ⟨raw, hraw, rfl⟩ := List.mem_map.mp hline
      intro hbreak
      exact absurd ((isLine_splitlines text raw hraw).rstrip '\n' hbreak) (by decide)
  unfold normalizeContent collapseBlankLines
  rw [hlines]
  refine Eq.trans ?_ (congrArg joinLines hsplit)
  unfold tidy
  rw [← trimStart_trimEnd, ← collapseRuns_trimEnd]
  rfl

/-- A normalised text has the tidied lines. -/
theorem splitlines_normalizeContent (text : Text) :
    splitlines (normalizeContent text) = tidy ((splitlines text).map rstrip) := by
  rw [normalizeContent_eq]
  refine splitlines_intercalate (fun line hline => ?_) (getLast?_tidy _)
  obtain ⟨raw, hraw, rfl⟩ := List.mem_map.mp (mem_tidy hline)
  exact (isLine_splitlines text raw hraw).rstrip

theorem normalizeContent_normalizeContent (text : Text) :
    normalizeContent (normalizeContent text) = normalizeContent text := by
  have hstripped : (tidy ((splitlines text).map rstrip)).map rstrip =
      tidy ((splitlines text).map rstrip) := by
    conv_rhs => rw [← List.map_id (tidy _)]
    refine List.map_congr_left fun line hline => ?_
    obtain ⟨raw, _, rfl⟩ := List.mem_map.mp (mem_tidy hline)
    exact rstrip_rstrip raw
  rw [normalizeContent_eq, splitlines_normalizeContent, hstripped, tidy_tidy, normalizeContent_eq]

/-- A line of white space. -/
def Blank (line : Text) : Prop := ∀ c ∈ line, isSpace c = true

/-- Changes of a text that leave its normalised text as it is. -/
inductive Touched : Text → Text → Prop where
  /-- Every line break is replaced by a newline. -/
  | breaks (text : Text) : Touched text (withNewlines text)
  /-- White space is put behind lines, or taken off there. -/
  | spaces {text changed : Text}
      (h : List.Forall₂ (fun line new => rstrip line = rstrip new) (splitlines text)
        (splitlines changed)) : Touched text changed
  /-- Blank lines are put before the first line and behind the last. -/
  | ends {text changed : Text} {before behind : List Text}
      (hbefore : ∀ line ∈ before, Blank line) (hbehind : ∀ line ∈ behind, Blank line)
      (h : splitlines changed = before ++ splitlines text ++ behind) : Touched text changed
  /-- A run of at least two blank lines gets longer. -/
  | run {text changed first second : Text} {before more after : List Text}
      (hfirst : Blank first) (hsecond : Blank second) (hmore : ∀ line ∈ more, Blank line)
      (htext : splitlines text = before ++ first :: second :: after)
      (hchanged : splitlines changed = before ++ first :: second :: (more ++ after)) :
      Touched text changed

theorem map_rstrip_blank {lines : List Text} (h : ∀ line ∈ lines, Blank line) :
    ∀ line ∈ lines.map rstrip, line = [] := by
  intro line hline
  obtain ⟨raw, hraw, rfl⟩ := List.mem_map.mp hline
  exact rstrip_blank (h raw hraw)

theorem Touched.normalizeContent {text changed : Text} (h : Touched text changed) :
    normalizeContent changed = normalizeContent text := by
  rw [normalizeContent_eq, normalizeContent_eq]
  congr 1
  cases h with
  | breaks => rw [splitlines_withNewlines]
  | spaces h =>
    congr 1
    exact (List.forall₂_eq_eq_eq ▸ List.forall₂_map_left_iff.mpr (List.forall₂_map_right_iff.mpr h) :
      (splitlines text).map rstrip = (splitlines changed).map rstrip).symm
  | ends hbefore hbehind h =>
    rw [h, List.map_append, List.map_append]
    exact tidy_ends (map_rstrip_blank hbefore) (map_rstrip_blank hbehind) _
  | run hfirst hsecond hmore htext hchanged =>
    rw [htext, hchanged, List.map_append, List.map_append, List.map_cons, List.map_cons,
      List.map_cons, List.map_cons, List.map_append, rstrip_blank hfirst, rstrip_blank hsecond]
    exact tidy_longer _ (map_rstrip_blank hmore) _

/-- Normalising is idempotent, and neither the line breaks, the white space behind lines,
the blank lines at the ends nor the length of longer runs of blank lines matter to the
normalised text and its hash. -/
theorem normalizeContent_touched (text : Text) :
    normalizeContent (normalizeContent text) = normalizeContent text ∧
      ∀ changed, Touched text changed →
        normalizeContent changed = normalizeContent text ∧
          contentHash changed = contentHash text := by
  refine ⟨normalizeContent_normalizeContent text, fun changed h => ?_⟩
  have hsame := h.normalizeContent
  refine ⟨hsame, ?_⟩
  unfold contentHash
  rw [hsame]

/-- A third blank line changes nothing. -/
theorem normalizeContent_blanks :
    normalizeContent "a\n\n\n\t\nb".toList = normalizeContent "a\n\n\nb".toList ∧
      contentHash "a\n\n\n\t\nb".toList = contentHash "a\n\n\nb".toList :=
  (normalizeContent_touched "a\n\n\nb".toList).2 "a\n\n\n\t\nb".toList
    (@Touched.run _ _ [] [] [['a']] [['\t']] [['b']] (List.forall_mem_nil _) (List.forall_mem_nil _)
      (List.forall_mem_singleton.mpr (List.forall_mem_singleton.mpr (by decide))) (by decide)
      (by decide))

end Normalised

end AiosDeck.Knowledge
