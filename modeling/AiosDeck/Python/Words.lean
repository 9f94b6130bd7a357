import AiosDeck.Python.Lines

/-!
# Words

`text.split()` and `" ".join(words)` undo each other on words. White space at the
ends of a text or of its lines does not change its words.
-/

namespace AiosDeck.Python

/-- `" ".join(parts)`. -/
def joinWords (parts : List Text) : Text := [' '].intercalate parts

/-- A word has a letter, and no white space. -/
def IsWord (word : Text) : Prop := word ≠ [] ∧ ∀ c ∈ word, isSpace c = false

/-- The words of a text are words, given that the unfinished one has no space. -/
theorem wordsFrom_isWord {pending : Text} (hpending : ∀ c ∈ pending, isSpace c = false)
    (text : Text) : ∀ word ∈ wordsFrom pending text, IsWord word := by
  have hfinished : ∀ letters : Text, (∀ c ∈ letters, isSpace c = false) →
      letters.isEmpty = false → IsWord letters.reverse := by
    intro letters hletters hne
    refine ⟨fun hnil => ?_, fun c hc => hletters c (List.mem_reverse.mp hc)⟩
    rw [List.reverse_eq_nil_iff.mp hnil] at hne
    cases hne
  induction text generalizing pending with
  | nil =>
    intro word hword
    by_cases hempty : pending.isEmpty = true
    · rw [wordsFrom, if_pos hempty] at hword
      cases hword
    · rw [wordsFrom, if_neg hempty, List.mem_singleton] at hword
      rw [hword]
      exact hfinished pending hpending (by simpa using hempty)
  | cons c rest ih =>
    intro word hword
    by_cases hspace : isSpace c = true
    · have hnone : ∀ d ∈ ([] : Text), isSpace d = false := fun d hd => by cases hd
      by_cases hempty : pending.isEmpty = true
      · rw [wordsFrom, if_pos hspace, if_pos hempty] at hword
        exact ih hnone word hword
      · rw [wordsFrom, if_pos hspace, if_neg hempty, List.mem_cons] at hword
        obtain rfl | hlater := hword
        · exact hfinished pending hpending (by simpa using hempty)
        · exact ih hnone word hlater
    · rw [wordsFrom, if_neg hspace] at hword
      have hmore : ∀ d ∈ c :: pending, isSpace d = false := by
        intro d hd
        obtain rfl | hd := List.mem_cons.mp hd
        · simpa using hspace
        · exact hpending d hd
      exact ih hmore word hword

theorem words_isWord {text word : Text} (h : word ∈ words text) : IsWord word :=
  wordsFrom_isWord (fun c hc => by cases hc) text word h

/-- The letters of a word join the unfinished one. -/
theorem wordsFrom_append {letters : Text} (h : ∀ c ∈ letters, isSpace c = false) (pending rest : Text) :
    wordsFrom pending (letters ++ rest) = wordsFrom (letters.reverse ++ pending) rest := by
  induction letters generalizing pending with
  | nil => rfl
  | cons c letters ih =>
    have hc : ¬isSpace c = true := by simp [h c List.mem_cons_self]
    have hrest := ih (fun d hd => h d (List.mem_cons_of_mem _ hd)) (c :: pending)
    rw [List.cons_append, wordsFrom, if_neg hc, hrest]
    simp

/-- Splitting gives back the words that were joined. -/
theorem words_joinWords {parts : List Text} (h : ∀ part ∈ parts, IsWord part) :
    words (joinWords parts) = parts := by
  have hspace : isSpace ' ' = true := by decide
  induction parts with
  | nil => rfl
  | cons part rest ih =>
    obtain ⟨hne, hletters⟩ := h part List.mem_cons_self
    have hreverse : ¬part.reverse.isEmpty = true := by simpa using hne
    have hrest := ih fun other hother => h other (List.mem_cons_of_mem _ hother)
    cases rest with
    | nil =>
      have hjoin : joinWords [part] = part ++ [] := by simp [joinWords, List.intercalate]
      rw [hjoin, words, wordsFrom_append hletters, List.append_nil, wordsFrom, if_neg hreverse,
        List.reverse_reverse]
    | cons next rest =>
      have hjoin : joinWords (part :: next :: rest) = part ++ ' ' :: joinWords (next :: rest) := by
        simp [joinWords, List.intercalate]
      rw [hjoin, words, wordsFrom_append hletters, List.append_nil, wordsFrom, if_pos hspace,
        if_neg hreverse, List.reverse_reverse]
      exact congrArg (part :: ·) hrest

/-- White space parts the words. -/
theorem wordsFrom_space {c : Char} (h : isSpace c = true) (pending text rest : Text) :
    wordsFrom pending (text ++ c :: rest) = wordsFrom pending text ++ words rest := by
  induction text generalizing pending with
  | nil =>
    have hstep : wordsFrom pending (c :: rest) =
        if pending.isEmpty then words rest else pending.reverse :: words rest := by
      rw [wordsFrom, if_pos h]
      rfl
    rw [List.nil_append, hstep, wordsFrom]
    split <;> rfl
  | cons d text ih =>
    rw [List.cons_append, wordsFrom, wordsFrom]
    split
    · split
      · exact ih []
      · rw [ih []]
        rfl
    · exact ih (d :: pending)

theorem words_blank {text : Text} (h : ∀ c ∈ text, isSpace c = true) : words text = [] := by
  induction text with
  | nil => rfl
  | cons c text ih =>
    rw [List.forall_mem_cons] at h
    have hparted := wordsFrom_space h.1 [] [] text
    rw [List.nil_append] at hparted
    exact hparted.trans (ih h.2)

theorem wordsFrom_trailing {blanks : Text} (h : ∀ c ∈ blanks, isSpace c = true)
    (pending text : Text) : wordsFrom pending (text ++ blanks) = wordsFrom pending text := by
  cases blanks with
  | nil => rw [List.append_nil]
  | cons c blanks =>
    rw [List.forall_mem_cons] at h
    rw [wordsFrom_space h.1, words_blank h.2, List.append_nil]

theorem words_leading {blanks : Text} (h : ∀ c ∈ blanks, isSpace c = true) (text : Text) :
    words (blanks ++ text) = words text := by
  induction blanks with
  | nil => rfl
  | cons c blanks ih =>
    rw [List.forall_mem_cons] at h
    have hparted := wordsFrom_space h.1 [] [] (blanks ++ text)
    rw [List.nil_append] at hparted
    exact hparted.trans (ih h.2)

theorem words_strip (text : Text) : words (strip text) = words text := by
  obtain ⟨before, behind, htext, hbefore, hbehind⟩ := strip_spec text
  have hwords : words (before ++ strip text ++ behind) = words (strip text) := by
    rw [words, wordsFrom_trailing hbehind]
    exact words_leading hbefore _
  rw [← htext] at hwords
  exact hwords.symm

theorem words_rstrip (text : Text) : words (rstrip text) = words text := by
  have htext : rstrip text ++ (text.reverse.takeWhile isSpace).reverse = text := by
    unfold rstrip
    rw [← List.reverse_append, List.takeWhile_append_dropWhile, List.reverse_reverse]
  have hblank : ∀ c ∈ (text.reverse.takeWhile isSpace).reverse, isSpace c = true :=
    fun c hc => List.mem_takeWhile_imp (List.mem_reverse.mp hc)
  have hwords := wordsFrom_trailing hblank [] (rstrip text)
  rw [htext] at hwords
  exact hwords.symm

/-- The words of lines, the first of which goes on with an unfinished word. -/
def lineWords (pending : Text) : List Text → List Text
  | [] => wordsFrom pending []
  | line :: lines => wordsFrom pending line ++ lines.flatMap words

theorem lineWords_nil (lines : List Text) : lineWords [] lines = lines.flatMap words := by
  cases lines <;> rfl

theorem wordsFrom_splitlines (text : Text) :
    ∀ pending, wordsFrom pending text = lineWords pending (splitlines text) := by
  induction text using splitlines.induct with
  | case1 => exact fun _ => rfl
  | case2 rest ih =>
    intro pending
    have hfirst := wordsFrom_space (show isSpace '\r' = true by decide) pending [] ('\n' :: rest)
    have hsecond := wordsFrom_space (show isSpace '\n' = true by decide) [] [] rest
    rw [List.nil_append] at hfirst hsecond
    rw [hfirst, words, hsecond, splitlines]
    change _ = wordsFrom pending [] ++ (splitlines rest).flatMap words
    rw [← lineWords_nil, ← ih []]
    rfl
  | case3 c rest hnot hbreak ih =>
    intro pending
    have hfirst := wordsFrom_space (isSpace_of_lineBreak hbreak) pending [] rest
    rw [List.nil_append] at hfirst
    rw [hfirst, splitlines.eq_3 c rest hnot, if_pos hbreak]
    change _ = wordsFrom pending [] ++ (splitlines rest).flatMap words
    rw [← lineWords_nil, ← ih []]
    rfl
  | case4 c rest hnot hbreak hrest ih =>
    intro pending
    have hlines : splitlines (c :: rest) = [[c]] := by
      rw [splitlines.eq_3 c rest hnot, if_neg hbreak, hrest]
    rw [hrest] at ih
    rw [hlines]
    change _ = wordsFrom pending [c] ++ []
    rw [List.append_nil, wordsFrom, wordsFrom]
    split
    · have hwords : wordsFrom [] rest = wordsFrom [] [] := ih []
      rw [hwords]
    · exact ih (c :: pending)
  | case5 c rest hnot hbreak line lines hrest ih =>
    intro pending
    have hlines : splitlines (c :: rest) = (c :: line) :: lines :=
      splitlines_cons (Bool.eq_false_iff.mpr hbreak) hrest
    rw [hlines]
    rw [hrest] at ih
    change _ = wordsFrom pending (c :: line) ++ lines.flatMap words
    rw [wordsFrom, wordsFrom]
    split
    · have hwords := ih []
      change wordsFrom [] rest = wordsFrom [] line ++ lines.flatMap words at hwords
      rw [hwords]
      split <;> rfl
    · exact ih (c :: pending)

/-- The words of a text are those of its lines. -/
theorem words_splitlines (text : Text) : (splitlines text).flatMap words = words text := by
  rw [← lineWords_nil, ← wordsFrom_splitlines]
  rfl

theorem words_intercalate (lines : List Text) :
    words (['\n'].intercalate lines) = lines.flatMap words := by
  induction lines with
  | nil => rfl
  | cons line lines ih =>
    cases lines with
    | nil => simp [List.intercalate]
    | cons next lines =>
      have hjoin : ['\n'].intercalate (line :: next :: lines) =
          line ++ '\n' :: ['\n'].intercalate (next :: lines) := by
        simp [List.intercalate]
      rw [hjoin, words, wordsFrom_space (by decide), ih]
      rfl

theorem words_splitOn (text : Text) : (text.splitOn '\n').flatMap words = words text := by
  rw [← words_intercalate, List.intercalate_splitOn]

end AiosDeck.Python
