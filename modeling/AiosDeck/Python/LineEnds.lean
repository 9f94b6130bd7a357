import AiosDeck.Python.Lines

/-!
# The ends of lines

What `splitlines` gives is made of lines, and lines that are joined with newlines
are what it gives back. Another line break in the place of one changes no line.
-/

namespace AiosDeck.Python

section Trimming

variable {α : Type*} (p : α → Bool)

theorem rdropWhile_cons (a : α) (rest : List α) : (a :: rest).rdropWhile p =
    if p a = true ∧ rest.rdropWhile p = [] then [] else a :: rest.rdropWhile p := by
  induction rest using List.reverseRecOn with
  | nil => cases ha : p a <;> simp [List.rdropWhile_singleton, ha]
  | append_singleton rest last ih =>
    rw [← List.cons_append, List.rdropWhile_concat, List.rdropWhile_concat]
    cases hlast : p last with
    | true => simpa using ih
    | false => simp

/-- Both ends may be trimmed in either order. -/
theorem dropWhile_rdropWhile (items : List α) :
    (items.rdropWhile p).dropWhile p = (items.dropWhile p).rdropWhile p := by
  induction items with
  | nil => rfl
  | cons a rest ih =>
    rw [rdropWhile_cons, List.dropWhile_cons]
    cases ha : p a with
    | true =>
      rw [if_pos rfl, ← ih]
      split_ifs with hnil
      · rw [hnil.2]
      · rw [List.dropWhile_cons, if_pos ha]
    | false =>
      rw [if_neg fun hnil => Bool.noConfusion hnil.1, if_neg Bool.false_ne_true,
        List.dropWhile_cons, if_neg (by simp [ha]), rdropWhile_cons, if_neg (by simp [ha])]

end Trimming

section Stripping

theorem rstrip_eq (text : Text) : rstrip text = text.rdropWhile isSpace := rfl

theorem rstrip_rstrip (text : Text) : rstrip (rstrip text) = rstrip text :=
  List.rdropWhile_idempotent isSpace text

theorem rstrip_prefix_text (text : Text) : rstrip text <+: text :=
  List.rdropWhile_prefix isSpace text

theorem strip_eq (text : Text) : strip text = rstrip (text.dropWhile isSpace) := rfl

theorem strip_rstrip (text : Text) : strip (rstrip text) = strip text := by
  rw [strip_eq, strip_eq, rstrip_eq text, dropWhile_rdropWhile]
  exact rstrip_rstrip _

theorem strip_space {c : Char} (hc : isSpace c = true) (rest : Text) :
    strip (c :: rest) = strip rest := by
  rw [strip_eq, strip_eq, List.dropWhile_cons, if_pos hc]

/-- What stands before something that is not blank stays. -/
theorem rstrip_append_cons (front : Text) {c : Char} (hc : isSpace c = false) (behind : Text) :
    rstrip (front ++ c :: behind) = front ++ c :: rstrip behind := by
  have hcons : rstrip (c :: behind) = c :: rstrip behind := by
    rw [rstrip_eq, rdropWhile_cons, if_neg (by simp [hc])]
    rfl
  induction front with
  | nil => exact hcons
  | cons d front ih =>
    rw [List.cons_append, rstrip_eq, rdropWhile_cons, if_neg]
    · exact congrArg (d :: ·) ih
    · intro hnil
      have hrest : rstrip (front ++ c :: behind) = [] := hnil.2
      rw [ih] at hrest
      exact absurd hrest (by simp)

theorem strip_cons {c : Char} (hc : isSpace c = false) (rest : Text) :
    strip (c :: rest) = c :: rstrip rest := by
  rw [strip_eq, List.dropWhile_cons, if_neg (by simp [hc])]
  exact rstrip_append_cons [] hc rest

theorem mem_rstrip {c : Char} (hc : isSpace c = false) {text : Text} :
    c ∈ rstrip text ↔ c ∈ text := by
  refine ⟨fun hmem => (List.rdropWhile_prefix isSpace text).subset hmem, fun hmem => ?_⟩
  obtain ⟨front, behind, rfl⟩ := List.append_of_mem hmem
  rw [rstrip_append_cons front hc]
  exact List.mem_append_right front List.mem_cons_self

theorem rstrip_blank {text : Text} (h : ∀ c ∈ text, isSpace c = true) : rstrip text = [] :=
  List.rdropWhile_eq_nil_iff.mpr h

theorem head_dropWhile {text : Text} {c : Char}
    (h : (text.dropWhile isSpace).head? = some c) : isSpace c = false := by
  have hnot := List.head?_dropWhile_not isSpace text
  rw [h] at hnot
  exact hnot

/-- A stripped text ends in no white space. -/
theorem last_strip {text : Text} {c : Char} (h : (strip text).getLast? = some c) :
    isSpace c = false := by
  unfold strip at h
  rw [List.getLast?_reverse] at h
  exact head_dropWhile h

/-- A stripped text is stripped at its end. -/
theorem rstrip_strip {text : Text} (h : strip text = text) : rstrip text = text := by
  conv_lhs => rw [← h, strip_eq]
  rw [rstrip_rstrip, ← strip_eq, h]

/-- A stripped text begins with no white space. -/
theorem head_strip {text : Text} {c : Char} (h : (strip text).head? = some c) :
    isSpace c = false := by
  have hfront : strip text <+: text.dropWhile isSpace := List.rdropWhile_prefix isSpace _
  obtain ⟨behind, hbehind⟩ := hfront
  refine @head_dropWhile text c ?_
  rw [← hbehind, List.head?_append, h, Option.some_or]

end Stripping

section Breaks

theorem splitlines_break {c : Char} (hbreak : isLineBreak c = true) {rest : Text}
    (hpair : c = '\r' → rest.head? ≠ some '\n') :
    splitlines (c :: rest) = [] :: splitlines rest := by
  rw [splitlines.eq_3 c rest fun more hc hrest => hpair hc (by rw [hrest]; rfl), if_pos hbreak]

theorem splitlines_line {line : Text} (h : IsLine line) (hne : line ≠ []) :
    splitlines line = [line] := by
  induction line with
  | nil => exact absurd rfl hne
  | cons c rest ih =>
    have hc := h c List.mem_cons_self
    cases rest with
    | nil =>
      have hreturn : c ≠ '\r' := by
        rintro rfl
        exact absurd hc (by decide)
      rw [splitlines.eq_3 c [] fun _ heq => absurd heq hreturn, if_neg (by simp [hc])]
      rfl
    | cons d rest => exact splitlines_cons hc (ih h.tail (List.cons_ne_nil d rest))

theorem IsLine.cons {c : Char} (hc : isLineBreak c = false) {line : Text} (h : IsLine line) :
    IsLine (c :: line) :=
  List.forall_mem_cons.mpr ⟨hc, h⟩

theorem IsLine.append {first second : Text} (hfirst : IsLine first) (hsecond : IsLine second) :
    IsLine (first ++ second) :=
  List.forall_mem_append.mpr ⟨hfirst, hsecond⟩

theorem IsLine.rstrip {line : Text} (h : IsLine line) : IsLine (rstrip line) :=
  fun c hc => h c ((rstrip_prefix_text line).subset hc)

theorem IsLine.not_return {line : Text} (h : IsLine line) : '\r' ∉ line :=
  fun hmem => absurd (h '\r' hmem) (by decide)

/-- The lines of a text have no line breaks. -/
theorem isLine_splitlines (text : Text) : ∀ line ∈ splitlines text, IsLine line := by
  induction text using splitlines.induct with
  | case1 => exact fun line hline => absurd hline List.not_mem_nil
  | case2 rest ih => exact List.forall_mem_cons.mpr ⟨IsLine.nil, ih⟩
  | case3 c rest hpair hbreak ih =>
    rw [splitlines.eq_3 c rest hpair, if_pos hbreak]
    exact List.forall_mem_cons.mpr ⟨IsLine.nil, ih⟩
  | case4 c rest hpair hbreak hrest ih =>
    rw [splitlines.eq_3 c rest hpair, if_neg hbreak, hrest]
    exact List.forall_mem_singleton.mpr (IsLine.cons (by simpa using hbreak) IsLine.nil)
  | case5 c rest hpair hbreak line lines hrest ih =>
    rw [splitlines.eq_3 c rest hpair, if_neg hbreak, hrest]
    rw [hrest, List.forall_mem_cons] at ih
    exact List.forall_mem_cons.mpr ⟨IsLine.cons (by simpa using hbreak) ih.1, ih.2⟩

/-- Every line break is replaced by a newline, a return with its newline by one. -/
def withNewlines : Text → Text
  | [] => []
  | '\r' :: '\n' :: rest => '\n' :: withNewlines rest
  | c :: rest => (if isLineBreak c then '\n' else c) :: withNewlines rest

theorem splitlines_withNewlines (text : Text) :
    splitlines (withNewlines text) = splitlines text := by
  have hnewline : ∀ rest, splitlines ('\n' :: rest) = [] :: splitlines rest :=
    fun rest => splitlines_append_newline IsLine.nil rest
  induction text using splitlines.induct with
  | case1 => rfl
  | case2 rest ih =>
    rw [withNewlines, hnewline, ih]
    rfl
  | case3 c rest hpair hbreak ih =>
    rw [withNewlines.eq_3 c rest hpair, if_pos hbreak, hnewline, ih,
      splitlines.eq_3 c rest hpair, if_pos hbreak]
  | case4 c rest hpair hbreak hrest ih =>
    have hc : c ≠ '\r' := by
      rintro rfl
      exact absurd rfl hbreak
    rw [withNewlines.eq_3 c rest hpair, if_neg hbreak,
      splitlines.eq_3 c _ fun _ heq => absurd heq hc, if_neg hbreak, ih,
      splitlines.eq_3 c rest hpair, if_neg hbreak]
  | case5 c rest hpair hbreak line lines hrest ih =>
    have hc : c ≠ '\r' := by
      rintro rfl
      exact absurd rfl hbreak
    rw [withNewlines.eq_3 c rest hpair, if_neg hbreak,
      splitlines.eq_3 c _ fun _ heq => absurd heq hc, if_neg hbreak, ih,
      splitlines.eq_3 c rest hpair, if_neg hbreak]

theorem isLine_digits (n : ℕ) : IsLine (Nat.toDigits 10 n) := by
  intro c hc
  have hdigit := Nat.isDigit_of_mem_toDigits (by decide) (by decide) hc
  unfold Char.isDigit at hdigit
  simp only [Bool.and_eq_true, decide_eq_true_eq, ge_iff_le, UInt32.le_iff_toNat_le] at hdigit
  have hcode : 48 ≤ c.toNat ∧ c.toNat ≤ 57 := hdigit
  unfold isLineBreak
  simp only [Bool.or_eq_false_iff, Bool.and_eq_false_iff, decide_eq_false_iff_not, beq_eq_false_iff_ne]
  omega

end Breaks

section Joining

/-- Lines joined with newlines, the last of which is not empty, are given back. -/
theorem splitlines_intercalate {lines : List Text} (h : ∀ line ∈ lines, IsLine line)
    (hlast : lines.getLast? ≠ some []) : splitlines (['\n'].intercalate lines) = lines := by
  induction lines with
  | nil => rfl
  | cons line lines ih =>
    rw [List.forall_mem_cons] at h
    cases lines with
    | nil =>
      rw [List.intercalate_singleton]
      exact splitlines_line h.1 fun hnil => hlast (by rw [hnil]; rfl)
    | cons next lines =>
      rw [List.getLast?_cons_cons] at hlast
      rw [List.intercalate_cons_cons, List.append_assoc, List.singleton_append,
        splitlines_append_newline h.1, ih h.2 hlast]

/-- A letter of joined lines is a newline or a letter of a line. -/
theorem mem_intercalate_newline {c : Char} {lines : List Text}
    (h : c ∈ ['\n'].intercalate lines) : c = '\n' ∨ ∃ line ∈ lines, c ∈ line := by
  induction lines with
  | nil => exact absurd h List.not_mem_nil
  | cons line lines ih =>
    cases lines with
    | nil =>
      rw [List.intercalate_singleton] at h
      exact .inr ⟨line, List.mem_cons_self, h⟩
    | cons next lines =>
      rw [List.intercalate_cons_cons, List.append_assoc] at h
      rcases List.mem_append.mp h with hline | hrest
      · exact .inr ⟨line, List.mem_cons_self, hline⟩
      · rcases List.mem_cons.mp hrest with hbreak | hrest
        · exact .inl hbreak
        · rcases ih hrest with hbreak | ⟨other, hother, hmem⟩
          · exact .inl hbreak
          · exact .inr ⟨other, List.mem_cons_of_mem line hother, hmem⟩

/-- What is stripped is a beginning of a text that begins with no white space. -/
theorem strip_prefix_text {c : Char} (hc : isSpace c = false) (rest : Text) :
    strip (c :: rest) <+: c :: rest := by
  have hkeep : (c :: rest).dropWhile isSpace = c :: rest :=
    List.dropWhile_cons_of_neg (by simp [hc])
  unfold strip
  rw [hkeep]
  exact rstrip_prefix_text (c :: rest)

end Joining

end AiosDeck.Python
