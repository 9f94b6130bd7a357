import AiosDeck.Python.Text

/-!
# Lines of a text

Lines that each end in a newline are what `splitlines` gives back.
-/

namespace AiosDeck.Python

/-- A text without line breaks. -/
def IsLine (text : Text) : Prop := ∀ c ∈ text, isLineBreak c = false

instance (text : Text) : Decidable (IsLine text) :=
  decidable_of_iff (text.all fun c => !isLineBreak c) (by simp [IsLine])

/-- Lines with a newline behind each. -/
def unlines (lines : List Text) : Text := lines.flatMap fun line => line ++ ['\n']

@[simp] theorem unlines_nil : unlines [] = [] := rfl

@[simp] theorem unlines_cons (line : Text) (lines : List Text) :
    unlines (line :: lines) = line ++ '\n' :: unlines lines := by
  simp [unlines]

theorem IsLine.nil : IsLine [] := fun _ h => absurd h List.not_mem_nil

theorem IsLine.tail {c : Char} {rest : Text} (h : IsLine (c :: rest)) : IsLine rest :=
  fun d hd => h d (List.mem_cons_of_mem c hd)

theorem splitlines_cons {c : Char} (h : isLineBreak c = false) {rest line : Text}
    {lines : List Text} (hrest : splitlines rest = line :: lines) :
    splitlines (c :: rest) = (c :: line) :: lines := by
  have hreturn : c ≠ '\r' := by
    rintro rfl
    exact absurd h (by decide)
  rw [splitlines.eq_3 c rest fun _ hc => absurd hc hreturn, if_neg (by simp [h]), hrest]

/-- A newline ends the first line. -/
theorem splitlines_append_newline {line : Text} (h : IsLine line) (rest : Text) :
    splitlines (line ++ '\n' :: rest) = line :: splitlines rest := by
  induction line with
  | nil => rfl
  | cons c line ih =>
    rw [List.cons_append]
    exact splitlines_cons (h c List.mem_cons_self) (ih h.tail)

theorem splitlines_unlines {lines : List Text} (h : ∀ line ∈ lines, IsLine line) :
    splitlines (unlines lines) = lines := by
  induction lines with
  | nil => rfl
  | cons line lines ih =>
    rw [List.forall_mem_cons] at h
    rw [unlines_cons, splitlines_append_newline h.1, ih h.2]

/-- The pieces of a text between its line breaks. -/
def pieces : Text → List Text
  | [] => [[]]
  | c :: rest =>
    if isLineBreak c then [] :: pieces rest
    else
      match pieces rest with
      | [] => [[c]]
      | piece :: others => (c :: piece) :: others

theorem pieces_break {c : Char} (h : isLineBreak c = true) (rest : Text) :
    pieces (c :: rest) = [] :: pieces rest := by
  rw [pieces, if_pos h]

theorem pieces_cons {c : Char} (h : isLineBreak c = false) {rest piece : Text}
    {others : List Text} (hrest : pieces rest = piece :: others) :
    pieces (c :: rest) = (c :: piece) :: others := by
  rw [pieces, if_neg (by simp [h]), hrest]

theorem pieces_ne_nil (text : Text) : ∃ piece others, pieces text = piece :: others := by
  induction text with
  | nil => exact ⟨[], [], rfl⟩
  | cons c rest ih =>
    obtain ⟨piece, others, hrest⟩ := ih
    cases hc : isLineBreak c with
    | true => exact ⟨[], pieces rest, pieces_break hc rest⟩
    | false => exact ⟨c :: piece, others, pieces_cons hc hrest⟩

theorem pieces_line {text : Text} (h : IsLine text) : pieces text = [text] := by
  induction text with
  | nil => rfl
  | cons c rest ih => exact pieces_cons (h c List.mem_cons_self) (ih h.tail)

/-- A text without carriage returns is cut at its line breaks. -/
theorem splitlines_pieces {text : Text} (h : '\r' ∉ text) (rest : Text) :
    splitlines (text ++ '\n' :: rest) = pieces text ++ splitlines rest := by
  induction text with
  | nil => rfl
  | cons c text ih =>
    have hreturn : c ≠ '\r' := fun hc => h (hc ▸ List.mem_cons_self)
    have hmore := ih fun hmem => h (List.mem_cons_of_mem c hmem)
    obtain ⟨piece, others, hpieces⟩ := pieces_ne_nil text
    cases hc : isLineBreak c with
    | true =>
      rw [List.cons_append, splitlines.eq_3 _ _ fun _ heq => absurd heq hreturn, if_pos hc, hmore,
        pieces_break hc]
      rfl
    | false =>
      rw [hpieces] at hmore
      rw [List.cons_append, splitlines_cons hc hmore, pieces_cons hc hpieces]
      rfl

theorem isSpace_of_lineBreak {c : Char} (h : isLineBreak c = true) : isSpace c = true := by
  unfold isLineBreak at h
  unfold isSpace
  simp only [Bool.or_eq_true, Bool.and_eq_true, decide_eq_true_eq, beq_iff_eq] at h ⊢
  omega

/-- What `strip` takes off is blank. -/
theorem strip_spec (text : Text) :
    ∃ before behind, text = before ++ strip text ++ behind ∧
      (∀ c ∈ before, isSpace c = true) ∧ ∀ c ∈ behind, isSpace c = true := by
  refine ⟨text.takeWhile isSpace,
    ((text.dropWhile isSpace).reverse.takeWhile isSpace).reverse, ?_, ?_, ?_⟩
  · unfold strip
    rw [List.append_assoc, ← List.reverse_append, List.takeWhile_append_dropWhile,
      List.reverse_reverse, List.takeWhile_append_dropWhile]
  · exact fun c hc => List.mem_takeWhile_imp hc
  · exact fun c hc => List.mem_takeWhile_imp (List.mem_reverse.mp hc)

/-- A text whose stripped part is blank is blank. -/
theorem blank_of_strip {text : Text} (h : ∀ c ∈ strip text, isSpace c = true) :
    ∀ c ∈ text, isSpace c = true := by
  obtain ⟨before, behind, htext, hbefore, hbehind⟩ := strip_spec text
  intro c hc
  rw [htext] at hc
  rcases List.mem_append.mp hc with hc | hc
  · rcases List.mem_append.mp hc with hc | hc
    · exact hbefore c hc
    · exact h c hc
  · exact hbehind c hc

theorem blank_of_strip_nil {text : Text} (h : strip text = []) : ∀ c ∈ text, isSpace c = true :=
  blank_of_strip (by rw [h]; exact fun c hc => absurd hc List.not_mem_nil)

theorem strip_blank {text : Text} (h : ∀ c ∈ text, isSpace c = true) : strip text = [] := by
  unfold strip
  rw [List.dropWhile_eq_nil_iff.mpr h]
  rfl

theorem strip_strip_ne_nil {text : Text} (h : strip text ≠ []) : strip (strip text) ≠ [] := by
  intro hnil
  exact h (strip_blank (blank_of_strip (blank_of_strip_nil hnil)))

theorem length_strip_le (text : Text) : (strip text).length ≤ text.length := by
  unfold strip
  rw [List.length_reverse]
  calc (((text.dropWhile isSpace).reverse).dropWhile isSpace).length
      ≤ ((text.dropWhile isSpace).reverse).length := (List.dropWhile_sublist _).length_le
    _ = (text.dropWhile isSpace).length := List.length_reverse
    _ ≤ text.length := (List.dropWhile_sublist _).length_le

/-- A text that neither begins nor ends with a blank is left as it is. -/
theorem strip_eq_self {first last : Char} {text : Text} (hfirst : text.head? = some first)
    (hlast : text.getLast? = some last) (hfirst' : isSpace first = false)
    (hlast' : isSpace last = false) : strip text = text := by
  have hkeep : ∀ {c : Char} {letters : Text}, letters.head? = some c → isSpace c = false →
      letters.dropWhile isSpace = letters := by
    intro c letters hhead hspace
    cases letters with
    | nil => rfl
    | cons c' rest =>
      cases hhead
      rw [List.dropWhile_cons_of_neg (by simp [hspace])]
  have hback : text.reverse.head? = some last := by rw [List.head?_reverse, hlast]
  unfold strip
  rw [hkeep hfirst hfirst', hkeep hback hlast', List.reverse_reverse]

end AiosDeck.Python
