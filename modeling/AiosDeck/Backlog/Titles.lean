import AiosDeck.Backlog.Runner
import AiosDeck.Python.FirstMatch
import AiosDeck.Python.LineEnds

/-!
# Titles and commit messages

The parts of a conventional title, as the pattern finds them, and the message that is made
of them. The same parts are found in the message.
-/

namespace AiosDeck.Backlog

open Python Regex

section Parts

/-- `v`, and three numbers with dots between. -/
def IsVersion (version : Text) : Prop :=
  ∃ major minor micro : Text, (∀ number ∈ [major, minor, micro],
    number ≠ [] ∧ ∀ c ∈ number, isDecimal c = true) ∧
      version = 'v' :: (major ++ '.' :: (minor ++ '.' :: micro))

/-- What closes a title: a version in parentheses, or nothing. -/
inductive Closing : Option Text → Text → Prop
  | plain : Closing none []
  | version {space version : Text} (hspace : ∀ c ∈ space, isSpace c = true)
      (hversion : IsVersion version) :
      Closing (some version) (space ++ '(' :: (version ++ [')']))

/-- No white space at the end. -/
def Firm (text : Text) : Prop := ∀ c, text.getLast? = some c → isSpace c = false

theorem Firm.of_append (front : Text) {text : Text} (h : Firm (front ++ text)) : Firm text := by
  intro c hc
  refine h c ?_
  rw [List.getLast?_append, hc, Option.some_or]

theorem Firm.behind {front text : Text} (h : Firm (front ++ text)) : Firm text := h.of_append front

end Parts

section Versions

variable {next : Match → List Match} {text : Text} {captures : List (String × Text)}
  {found : Match}

theorem first_version (hnext : ∀ c rest, isDecimal c = true → next ⟨c :: rest, captures⟩ = []) :
    ((successes (all [char 'v', plus digit, char '.', plus digit, char '.', plus digit])
        ⟨text, captures⟩).flatMap next).head? = some found ↔
      ∃ version rest, IsVersion version ∧ text = version ++ rest ∧
        (next ⟨rest, captures⟩).head? = some found := by
  have hdot : ∀ (next : Match → List Match) (patterns : List Regex) c rest, isDecimal c = true →
      (successes (all (char '.' :: patterns)) ⟨c :: rest, captures⟩).flatMap next = [] := by
    intro next patterns c rest hc
    rw [first_all]
    refine first_char_other ?_ rest
    rintro rfl
    exact absurd hc (by decide)
  have hlast : ∀ c rest, isDecimal c = true →
      (successes (all []) ⟨c :: rest, captures⟩).flatMap next = [] := by
    intro c rest hc
    rw [first_all_nil]
    exact hnext c rest hc
  unfold digit
  constructor
  · intro h
    rw [first_all, first_char] at h
    obtain ⟨text, rfl, h⟩ := h
    rw [first_all, first_plus (hdot _ _)] at h
    obtain ⟨major, text, rfl, hmajor, hmajors, h⟩ := h
    rw [first_all, first_char] at h
    obtain ⟨text, rfl, h⟩ := h
    rw [first_all, first_plus (hdot _ _)] at h
    obtain ⟨minor, text, rfl, hminor, hminors, h⟩ := h
    rw [first_all, first_char] at h
    obtain ⟨text, rfl, h⟩ := h
    rw [first_all, first_plus hlast] at h
    obtain ⟨micro, rest, rfl, hmicro, hmicros, h⟩ := h
    rw [first_all_nil] at h
    refine ⟨'v' :: (major ++ '.' :: (minor ++ '.' :: micro)), rest,
      ⟨major, minor, micro, ?_, rfl⟩, by simp, h⟩
    simp only [List.forall_mem_cons]
    exact ⟨⟨hmajor, hmajors⟩, ⟨hminor, hminors⟩, ⟨hmicro, hmicros⟩, List.forall_mem_nil _⟩
  · rintro ⟨version, rest, ⟨major, minor, micro, hnumbers, rfl⟩, rfl, h⟩
    simp only [List.forall_mem_cons] at hnumbers
    obtain ⟨⟨hmajor, hmajors⟩, ⟨hminor, hminors⟩, ⟨hmicro, hmicros⟩, -⟩ := hnumbers
    have htext : 'v' :: (major ++ '.' :: (minor ++ '.' :: micro)) ++ rest =
        'v' :: (major ++ '.' :: (minor ++ '.' :: (micro ++ rest))) := by simp
    rw [htext, first_all, first_char]
    refine ⟨_, rfl, ?_⟩
    rw [first_all, first_plus (hdot _ _)]
    refine ⟨major, _, rfl, hmajor, hmajors, ?_⟩
    rw [first_all, first_char]
    refine ⟨_, rfl, ?_⟩
    rw [first_all, first_plus (hdot _ _)]
    refine ⟨minor, _, rfl, hminor, hminors, ?_⟩
    rw [first_all, first_char]
    refine ⟨_, rfl, ?_⟩
    rw [first_all, first_plus hlast]
    refine ⟨micro, rest, rfl, hmicro, hmicros, ?_⟩
    rw [first_all_nil]
    exact h

/-- The captures of a closing. -/
def closingCaptures : Option Text → List (String × Text)
  | none => []
  | some version => [("version", version)]

/-- The end of `_CONVENTIONAL_RE`. -/
def closingRe : List Regex :=
  [optional (all [.star true space, char '(',
    .capture "version" (all [char 'v', plus digit, char '.', plus digit, char '.', plus digit]),
    char ')']), .textEnd]

/-- The pattern of a version in parentheses. -/
theorem first_parenthesised :
    ((successes (all [.star true space, char '(', .capture "version" (all [char 'v', plus digit,
        char '.', plus digit, char '.', plus digit]), char ')']) ⟨text, captures⟩).flatMap
          next).head? = some found ↔
      ∃ front version rest, (∀ c ∈ front, isSpace c = true) ∧ IsVersion version ∧
        text = front ++ '(' :: (version ++ ')' :: rest) ∧
          (next ⟨rest, ("version", version) :: captures⟩).head? = some found := by
  have hspace : ∀ (next : Match → List Match) (patterns : List Regex) c rest, isSpace c = true →
      (successes (all (char '(' :: patterns)) ⟨c :: rest, captures⟩).flatMap next = [] := by
    intro next patterns c rest hc
    rw [first_all]
    refine first_char_other ?_ rest
    rintro rfl
    exact absurd hc (by decide)
  unfold space
  constructor
  · intro h
    rw [first_all, first_run (hspace _ _)] at h
    obtain ⟨front, text, rfl, hfront, h⟩ := h
    rw [first_all, first_char] at h
    obtain ⟨text, rfl, h⟩ := h
    rw [first_all, first_capture, first_version] at h
    · obtain ⟨version, rest, hversion, rfl, h⟩ := h
      rw [take_front, first_all, first_char] at h
      obtain ⟨rest, rfl, h⟩ := h
      rw [first_all_nil] at h
      exact ⟨front, version, rest, hfront, hversion, rfl, h⟩
    · intro c rest hc
      rw [first_all]
      refine first_char_other ?_ rest
      rintro rfl
      exact absurd hc (by decide)
  · rintro ⟨front, version, rest, hfront, hversion, rfl, h⟩
    rw [first_all, first_run (hspace _ _)]
    refine ⟨front, _, rfl, hfront, ?_⟩
    rw [first_all, first_char]
    refine ⟨_, rfl, ?_⟩
    rw [first_all, first_capture, first_version]
    · refine ⟨version, _, hversion, rfl, ?_⟩
      rw [take_front, first_all, first_char]
      refine ⟨rest, rfl, ?_⟩
      rw [first_all_nil]
      exact h
    · intro c rest hc
      rw [first_all]
      refine first_char_other ?_ rest
      rintro rfl
      exact absurd hc (by decide)

/-- What closes a text that does not end in white space. -/
theorem first_closing (hfirm : Firm text) :
    ((successes (all closingRe) ⟨text, captures⟩).flatMap next).head? = some found ↔
      ∃ version, Closing version text ∧
        (next ⟨[], closingCaptures version ++ captures⟩).head? = some found := by
  have hend : ∀ {front rest : Text}, text = front ++ rest → (rest = [] ∨ rest = ['\n']) →
      rest = [] := by
    intro front rest htext hrest
    refine hrest.resolve_right fun hnewline => ?_
    have hspace := (htext ▸ hfirm).behind '\n' (by rw [hnewline]; rfl)
    exact absurd hspace (by decide)
  unfold closingRe
  rw [first_all, first_optional]
  constructor
  · rintro (h | ⟨-, h⟩)
    · rw [first_parenthesised] at h
      obtain ⟨front, version, rest, hfront, hversion, htext, h⟩ := h
      rw [first_all, first_end] at h
      have hrest : rest = [] := @hend (front ++ '(' :: (version ++ [')'])) rest
        (by rw [htext]; simp) h.1
      rw [hrest, first_all_nil] at h
      refine ⟨some version, ?_, h.2⟩
      rw [htext, hrest]
      exact .version hfront hversion
    · rw [first_all, first_end] at h
      have htext : text = [] := @hend [] text rfl h.1
      rw [htext, first_all_nil] at h
      refine ⟨none, ?_, h.2⟩
      rw [htext]
      exact .plain
  · rintro ⟨version, hclosing, h⟩
    cases hclosing with
    | plain =>
      refine .inr ⟨?_, ?_⟩
      · rw [eq_nil_iff_first]
        intro found hfound
        obtain ⟨front, version, rest, -, -, htext, -⟩ := first_parenthesised.mp hfound
        exact absurd htext.symm (by simp)
      · rw [first_all, first_end, first_all_nil]
        exact ⟨.inl rfl, h⟩
    | version hspace hversion =>
      refine .inl (first_parenthesised.mpr ⟨_, _, [], hspace, hversion, rfl, ?_⟩)
      rw [first_all, first_end, first_all_nil]
      exact ⟨.inl rfl, h⟩

end Versions

section Subjects

variable {text : Text} {captures : List (String × Text)} {found : Match}

/-- The subject of a text: the shortest one behind which the text closes. -/
structure Subject (text subject : Text) (version : Option Text) (rest : Text) : Prop where
  split : text = subject ++ rest
  filled : subject ≠ []
  line : ∀ c ∈ subject, (c != '\n') = true
  closing : Closing version rest
  shortest : ∀ front behind, subject = front ++ behind → front ≠ [] → behind ≠ [] →
    ∀ version, ¬Closing version (behind ++ rest)

/-- `_CONVENTIONAL_RE` from the subject on. -/
def subjectRe : List Regex := .capture "subject" (.seq dot (.star false dot)) :: closingRe

theorem closing_eq_nil (hfirm : Firm text) :
    ((successes (all closingRe) ⟨text, captures⟩).flatMap fun way => [way]) = [] ↔
      ∀ version, ¬Closing version text := by
  rw [eq_nil_iff_first]
  constructor
  · exact fun h version hclosing => h _ ((first_closing hfirm).mpr ⟨version, hclosing, rfl⟩)
  · intro h found hfound
    obtain ⟨version, hclosing, -⟩ := (first_closing hfirm).mp hfound
    exact h version hclosing

theorem first_subject (hfirm : Firm text) :
    ((successes (all subjectRe) ⟨text, captures⟩).flatMap fun way => [way]).head? = some found ↔
      ∃ subject version rest, Subject text subject version rest ∧
        found = ⟨[], closingCaptures version ++ ("subject", subject) :: captures⟩ := by
  have htake : ∀ (c : Char) (front rest : Text),
      (c :: (front ++ rest)).take ((c :: (front ++ rest)).length - rest.length) = c :: front :=
    fun c front rest => take_front (c :: front) rest
  unfold subjectRe dot
  rw [first_all, first_capture, first_seq, first_chars]
  constructor
  · rintro ⟨c, behind, rfl, hc, h⟩
    obtain ⟨run, rest, rfl, hrun, hfirst, hshortest⟩ := first_reluctant.mp h
    have hrest : Firm rest := Firm.behind (show Firm ((c :: run) ++ rest) from hfirm)
    rw [htake] at hfirst
    obtain ⟨version, hclosing, hfound⟩ := (first_closing hrest).mp hfirst
    refine ⟨c :: run, version, rest, ⟨rfl, List.cons_ne_nil _ _,
      List.forall_mem_cons.mpr ⟨hc, hrun⟩, hclosing, ?_⟩, (Option.some.inj hfound).symm⟩
    intro front behind heq hfront hbehind
    cases front with
    | nil => exact absurd rfl hfront
    | cons d front =>
      have hnone := hshortest front behind (List.cons.inj heq).2 hbehind
      refine (closing_eq_nil ?_).mp hnone
      refine Firm.of_append (c :: front) ?_
      have hrun : run = front ++ behind := (List.cons.inj heq).2
      rw [List.cons_append, ← List.append_assoc, ← hrun]
      exact hfirm
  · rintro ⟨subject, version, rest, ⟨rfl, hfilled, hline, hclosing, hshortest⟩, rfl⟩
    cases subject with
    | nil => exact absurd rfl hfilled
    | cons c run =>
      obtain ⟨hc, hrun⟩ := List.forall_mem_cons.mp hline
      refine ⟨c, run ++ rest, rfl, hc, first_reluctant.mpr ⟨run, rest, rfl, hrun, ?_, ?_⟩⟩
      · rw [List.cons_append, htake]
        exact (first_closing hfirm.behind).mpr ⟨version, hclosing, rfl⟩
      · intro front behind heq hbehind
        refine (closing_eq_nil ?_).mpr (hshortest (c :: front) behind ?_ (List.cons_ne_nil _ _) hbehind)
        · refine Firm.of_append (c :: front) ?_
          rw [List.cons_append, ← List.append_assoc, ← heq]
          exact hfirm
        · rw [heq, List.cons_append]

/-- Where the rest of the pattern leads nowhere, no subject closes. -/
theorem subject_eq_nil (hfirm : Firm text)
    (h : ((successes (all subjectRe) ⟨text, captures⟩).flatMap fun way => [way]) = [])
    {subject rest : Text} (htext : text = subject ++ rest) (hfilled : subject ≠ [])
    (hline : ∀ c ∈ subject, (c != '\n') = true) (version : Option Text) :
    ¬Closing version rest := by
  subst htext
  unfold subjectRe dot at h
  rw [first_all, first_capture, first_seq] at h
  cases subject with
  | nil => exact absurd rfl hfilled
  | cons c run =>
    obtain ⟨hc, hrun⟩ := List.forall_mem_cons.mp hline
    have hway := List.flatMap_eq_nil_iff.mp h ⟨run ++ rest, captures⟩ (by simp [successes, hc])
    have hnone := star_chars_eq_nil.mp hway run rest rfl hrun
    exact (closing_eq_nil hfirm.behind).mp hnone version

/-- No line ends in a version. -/
theorem version_line {version : Text} (h : IsVersion version) : '\n' ∉ version := by
  have hdecimal : ¬isDecimal '\n' = true := by decide
  obtain ⟨major, minor, micro, hnumbers, rfl⟩ := h
  have hnot : ∀ number ∈ [major, minor, micro], '\n' ∉ number :=
    fun number hnumber hmem => hdecimal ((hnumbers number hnumber).2 _ hmem)
  simp only [List.forall_mem_cons] at hnot
  simp [hnot]

/-- `_CONVENTIONAL_RE` behind the colon. -/
def tailRe : List Regex := .star true space :: subjectRe

/-- No white space in front. -/
def Begins (text : Text) : Prop := ∀ c, text.head? = some c → isSpace c = false

/-- Behind the colon all white space is skipped. -/
theorem first_tail (hfirm : Firm text) :
    ((successes (all tailRe) ⟨text, captures⟩).flatMap fun way => [way]).head? = some found ↔
      ∃ front behind subject version rest, text = front ++ behind ∧
        (∀ c ∈ front, isSpace c = true) ∧ Begins behind ∧ Subject behind subject version rest ∧
          found = ⟨[], closingCaptures version ++ ("subject", subject) :: captures⟩ := by
  unfold tailRe space
  rw [first_all, first_greedy]
  constructor
  · rintro ⟨front, behind, rfl, hfront, hfirst, hlongest⟩
    have hbehind : Firm behind := hfirm.behind
    obtain ⟨subject, version, rest, hsubject, hfound⟩ := (first_subject hbehind).mp hfirst
    refine ⟨front, behind, subject, version, rest, rfl, hfront, ?_, hsubject, hfound⟩
    by_contra hbegins
    -- the white space in front of the subject could have been skipped
    have hmore : behind.takeWhile isSpace ≠ [] := by
      intro hnil
      refine hbegins fun c hc => ?_
      cases behind with
      | nil => cases hc
      | cons d behind =>
        cases hc
        by_contra hspace
        rw [Bool.not_eq_false] at hspace
        rw [List.takeWhile_cons_of_pos hspace] at hnil
        cases hnil
    have hspaces : ∀ c ∈ behind.takeWhile isSpace, isSpace c = true :=
      fun c hc => List.mem_takeWhile_imp hc
    have hnone := hlongest (behind.takeWhile isSpace) (behind.dropWhile isSpace)
      List.takeWhile_append_dropWhile.symm hmore hspaces
    have hdrop : Firm (behind.dropWhile isSpace) := by
      refine Firm.of_append (behind.takeWhile isSpace) ?_
      rw [List.takeWhile_append_dropWhile]
      exact hbehind
    have hnowhere := fun subject rest : Text => @subject_eq_nil _ captures hdrop hnone subject rest
    by_cases hlong : (subject.dropWhile isSpace) = []
    · -- the subject is white space, so what is left is the version in its parentheses
      have hblank := List.dropWhile_eq_nil_iff.mp hlong
      have hsame : behind.dropWhile isSpace = rest.dropWhile isSpace := by
        rw [hsubject.split, List.dropWhile_append, hlong]
        rfl
      cases hsubject.closing with
      | plain =>
        obtain ⟨start, c, hlast⟩ := List.eq_nil_or_concat subject |>.resolve_left hsubject.filled
        have hc := hbehind c (by rw [hsubject.split, hlast]; simp)
        rw [hblank c (by rw [hlast]; simp)] at hc
        cases hc
      | @version between number hspace hversion =>
        have hopen : isSpace '(' = false := by decide
        have hrest : behind.dropWhile isSpace = '(' :: (number ++ [')']) := by
          rw [hsame, List.dropWhile_append_of_pos hspace, List.dropWhile_cons_of_neg]
          rw [hopen]
          exact Bool.false_ne_true
        refine hnowhere _ [] (hrest.trans (List.append_nil _).symm) (List.cons_ne_nil _ _)
          ?_ none .plain
        intro c hc
        rw [bne_iff_ne]
        rintro rfl
        have hnumber := version_line hversion
        simp [hnumber] at hc
    · refine hnowhere (subject.dropWhile isSpace) rest ?_ hlong ?_ version
        hsubject.closing
      · rw [hsubject.split, List.dropWhile_append, if_neg]
        simpa using hlong
      · exact fun c hc => hsubject.line c ((List.dropWhile_suffix _).subset hc)
  · rintro ⟨front, behind, subject, version, rest, rfl, hfront, hbegins, hsubject, hfound⟩
    refine ⟨front, behind, rfl, hfront,
      (first_subject hfirm.behind).mpr ⟨subject, version, rest, hsubject, hfound⟩, ?_⟩
    intro more others heq hne hmore
    cases more with
    | nil => exact absurd rfl hne
    | cons c more =>
      have hc := hbegins c (by rw [heq]; rfl)
      rw [hmore c List.mem_cons_self] at hc
      cases hc

end Subjects

section Titles

variable {word : Char → Bool} {text : Text} {captures : List (String × Text)} {found : Match}

/-- A scope in its parentheses. -/
def scopeText : Option Text → Text
  | none => []
  | some scope => '(' :: (scope ++ [')'])

/-- The captures of a scope. -/
def scopeCaptures : Option Text → List (String × Text)
  | none => []
  | some scope => [("scope", scope)]

/-- `_CONVENTIONAL_RE` behind the type. -/
def scopeRe : List Regex :=
  optional (all [char '(', .capture "scope" (.star true (.chars (· != ')'))), char ')']) ::
    char ':' :: tailRe

theorem first_scope :
    ((successes (all scopeRe) ⟨text, captures⟩).flatMap fun way => [way]).head? = some found ↔
      ∃ scope rest, (∀ inner, scope = some inner → ∀ c ∈ inner, (c != ')') = true) ∧
        text = scopeText scope ++ ':' :: rest ∧
          ((successes (all tailRe) ⟨rest, scopeCaptures scope ++ captures⟩).flatMap
            fun way => [way]).head? = some found := by
  have hclose : ∀ (next : Match → List Match) (captures : List (String × Text)) c rest,
      (c != ')') = true →
        (successes (all [char ')']) ⟨c :: rest, captures⟩).flatMap next = [] := by
    intro next captures c rest hc
    rw [first_all]
    exact first_char_other (bne_iff_ne.mp hc) rest
  unfold scopeRe
  rw [first_all, first_optional]
  constructor
  · rintro (h | ⟨-, h⟩)
    · rw [first_all, first_char] at h
      obtain ⟨inside, rfl, h⟩ := h
      rw [first_all, first_capture, first_run (fun c rest hc => hclose _ _ c rest hc)] at h
      obtain ⟨inner, behind, rfl, hinner, h⟩ := h
      rw [take_front, first_all, first_char] at h
      obtain ⟨behind, rfl, h⟩ := h
      rw [first_all_nil, first_all, first_char] at h
      obtain ⟨rest, rfl, h⟩ := h
      refine ⟨some inner, rest, ?_, by simp [scopeText], h⟩
      rintro _ heq
      cases heq
      exact hinner
    · rw [first_all, first_char] at h
      obtain ⟨rest, rfl, h⟩ := h
      refine ⟨none, rest, ?_, rfl, h⟩
      rintro _ heq
      cases heq
  · rintro ⟨scope, rest, hscope, rfl, h⟩
    cases scope with
    | none =>
      refine .inr ⟨?_, ?_⟩
      · rw [first_all]
        exact first_char_other (by decide) rest
      · rw [first_all, first_char]
        exact ⟨rest, rfl, h⟩
    | some inner =>
      refine .inl ?_
      have htext : scopeText (some inner) ++ ':' :: rest = '(' :: (inner ++ ')' :: ':' :: rest) := by
        simp [scopeText]
      rw [htext, first_all, first_char]
      refine ⟨_, rfl, ?_⟩
      rw [first_all, first_capture, first_run (fun c rest hc => hclose _ _ c rest hc)]
      refine ⟨inner, _, rfl, hscope inner rfl, ?_⟩
      rw [take_front, first_all, first_char]
      refine ⟨_, rfl, ?_⟩
      rw [first_all_nil, first_all, first_char]
      exact ⟨rest, rfl, h⟩

/-- The parts of a title. -/
structure HasParts (word : Char → Bool) (text type : Text) (scope : Option Text) (subject : Text)
    (version : Option Text) : Prop where
  filled : type ≠ []
  letters : ∀ c ∈ type, word c = true
  enclosed : ∀ inner, scope = some inner → ∀ c ∈ inner, (c != ')') = true
  split : ∃ front behind rest, text = type ++ (scopeText scope ++ ':' :: (front ++ behind)) ∧
    (∀ c ∈ front, isSpace c = true) ∧ Begins behind ∧ Subject behind subject version rest

/-- The parts that the pattern finds are those of the title. -/
theorem match?_conventional (hopen : word '(' = false) (hcolon : word ':' = false)
    (hfirm : Firm text) : (conventionalRe word).match? text = some found ↔
      ∃ type scope subject version, HasParts word text type scope subject version ∧
        found = ⟨[], closingCaptures version ++ ("subject", subject) ::
          (scopeCaptures scope ++ [("type", type)])⟩ := by
  have hre : conventionalRe word = all (.capture "type" (plus (.chars word)) :: scopeRe) := rfl
  have hnext : ∀ (captures : List (String × Text)) c rest, word c = true →
      ((successes (all scopeRe) ⟨c :: rest, captures⟩).flatMap fun way => [way]) = [] := by
    intro captures c rest hc
    rw [eq_nil_iff_first]
    intro found hfound
    obtain ⟨scope, behind, -, htext, -⟩ := first_scope.mp hfound
    cases scope with
    | none =>
      rw [(List.cons.inj htext).1, hcolon] at hc
      cases hc
    | some inner =>
      rw [(List.cons.inj htext).1, hopen] at hc
      cases hc
  rw [match?_iff, hre, first_all, first_capture, first_plus (fun c rest hc => hnext _ c rest hc)]
  constructor
  · rintro ⟨type, behind, rfl, hfilled, hletters, h⟩
    rw [take_front] at h
    obtain ⟨scope, rest, hscope, rfl, h⟩ := first_scope.mp h
    have hrest : Firm rest := by
      refine Firm.of_append (type ++ (scopeText scope ++ [':'])) ?_
      have hsame : type ++ (scopeText scope ++ [':']) ++ rest =
          type ++ (scopeText scope ++ ':' :: rest) := by simp
      rw [hsame]
      exact hfirm
    obtain ⟨front, behind, subject, version, closing, rfl, hfront, hbegins, hsubject, hfound⟩ :=
      (first_tail hrest).mp h
    exact ⟨type, scope, subject, version,
      ⟨hfilled, hletters, hscope, front, behind, closing, rfl, hfront, hbegins, hsubject⟩, hfound⟩
  · rintro ⟨type, scope, subject, version,
      ⟨hfilled, hletters, hscope, front, behind, closing, rfl, hfront, hbegins, hsubject⟩, hfound⟩
    refine ⟨type, _, rfl, hfilled, hletters, ?_⟩
    rw [take_front]
    refine first_scope.mpr ⟨scope, _, hscope, rfl, (first_tail ?_).mpr
      ⟨front, behind, subject, version, closing, rfl, hfront, hbegins, hsubject, hfound⟩⟩
    refine Firm.of_append (type ++ (scopeText scope ++ [':'])) ?_
    have hsame : type ++ (scopeText scope ++ [':']) ++ (front ++ behind) =
        type ++ (scopeText scope ++ ':' :: (front ++ behind)) := by simp
    rw [hsame]
    exact hfirm

end Titles

section Messages

theorem strip_firm {text : Text} (hbegins : Begins text) (hfirm : Firm text) : strip text = text := by
  cases hlast : text.getLast? with
  | none =>
    rw [List.getLast?_eq_none_iff.mp hlast]
    rfl
  | some last =>
    have hne : text ≠ [] := by
      rintro rfl
      cases hlast
    obtain ⟨first, rest, rfl⟩ := List.exists_cons_of_ne_nil hne
    exact strip_eq_self rfl hlast (hbegins first rfl) (hfirm last hlast)

variable {word : Char → Bool} {text type subject : Text} {scope version : Option Text}

/-- A subject neither begins nor ends with white space. -/
theorem Subject.trimmed {rest : Text} (h : Subject text subject version rest)
    (hbegins : Begins text) (hfirm : Firm text) : Begins subject ∧ Firm subject := by
  have hfirst : Begins subject := by
    intro c hc
    refine hbegins c ?_
    rw [h.split, List.head?_append, hc, Option.some_or]
  refine ⟨hfirst, fun c hc => ?_⟩
  by_contra hspace
  rw [Bool.not_eq_false] at hspace
  have hsplit : subject = subject.dropLast ++ [c] := (List.dropLast_append_getLast? c hc).symm
  cases hclosing : h.closing with
  | plain =>
    have hlast := hfirm c (by rw [h.split, List.append_nil, hc])
    exact Bool.false_ne_true (hlast.symm.trans hspace)
  | @version between number hbetween hnumber =>
    by_cases hone : subject.dropLast = []
    · rw [hone, List.nil_append] at hsplit
      have hc' := hfirst c (by rw [hsplit]; rfl)
      exact Bool.false_ne_true (hc'.symm.trans hspace)
    · -- the version closes behind a shorter subject already
      exact h.shortest subject.dropLast [c] hsplit hone (List.cons_ne_nil _ _) (some number)
        (@Closing.version (c :: between) _ (List.forall_mem_cons.mpr ⟨hspace, hbetween⟩) hnumber)

theorem version_open {number : Text} (h : IsVersion number) : '(' ∉ number ++ [')'] := by
  have hdecimal : ¬isDecimal '(' = true := by decide
  obtain ⟨major, minor, micro, hnumbers, rfl⟩ := h
  have hnot : ∀ number ∈ [major, minor, micro], '(' ∉ number :=
    fun number hnumber hmem => hdecimal ((hnumbers number hnumber).2 _ hmem)
  simp only [List.forall_mem_cons] at hnot
  simp [hnot]

/-- The version part of a message. -/
def versionPart : Option Text → Text
  | none => []
  | some version => ' ' :: '(' :: (version ++ [')'])

/-- The subject closes with its version in the message too, and no earlier. -/
theorem Subject.message {rest : Text} (h : Subject text subject version rest)
    (hbegins : Begins text) (hfirm : Firm text) :
    Subject (subject ++ versionPart version) subject version (versionPart version) := by
  obtain ⟨-, hlast⟩ := h.trimmed hbegins hfirm
  cases hclosing : h.closing with
  | plain => exact ⟨rfl, h.filled, h.line, .plain, h.shortest⟩
  | @version between number hbetween hnumber =>
    have hblank : ∀ c ∈ [' '], isSpace c = true := List.forall_mem_singleton.mpr (by decide)
    refine ⟨rfl, h.filled, h.line, .version hblank hnumber, ?_⟩
    intro front behind heq hfront hbehind other hother
    -- the parenthesis that opens the version is the last one of the text
    generalize htail : behind ++ versionPart (some number) = tail at hother
    cases hother with
    | plain => simp [versionPart] at htail
    | @version space version hspace hversion =>
      have hsame : (behind ++ [' ']) ++ '(' :: (number ++ [')']) =
          space ++ '(' :: (version ++ [')']) := by
        rw [← htail, versionPart, List.append_assoc]
        rfl
      have hopen : '(' ∉ space := fun hmem => absurd (hspace _ hmem) (by decide)
      have hspaces : behind ++ [' '] = space :=
        ((List.append_cons_inj_of_notMem hopen (version_open hversion)).mp hsame.symm).1.symm
      obtain ⟨c, hc⟩ := List.getLast?_isSome.mpr hbehind |> Option.isSome_iff_exists.mp
      have hfirmc := hlast c (by rw [heq, List.getLast?_append, hc, Option.some_or])
      have hspacec := hspace c (by
        rw [← hspaces]
        exact List.mem_append_left _ (List.mem_of_getLast? hc))
      exact Bool.false_ne_true (hfirmc.symm.trans hspacec)

/-- The scope as `parse_conventional` gives it, and as the message keeps it. -/
def keptScope : Option Text → Option Text
  | none => none
  | some scope => if scope = [] then none else some scope

/-- What `parse_conventional` gives for a title with these parts. -/
theorem parseConventional_titled (hopen : word '(' = false) (hcolon : word ':' = false)
    (hfirm : Firm (strip text)) (h : HasParts word (strip text) type scope subject version) :
    ((conventionalRe word).match? (strip text)).isSome = true ∧
      parseConventional word text = (type, scope.getD [], strip subject, version.getD []) := by
  have hmatch := (match?_conventional hopen hcolon hfirm).mpr ⟨type, scope, subject, version, h, rfl⟩
  unfold parseConventional
  rw [hmatch]
  refine ⟨rfl, ?_⟩
  cases scope <;> cases version <;>
    simp [Match.group, closingCaptures, scopeCaptures, List.lookup]

/-- The message of the parts of a title has the same parts. -/
theorem HasParts.message (hfirm : Firm text) (h : HasParts word text type scope subject version)
    {task : BacklogTask} (htype : task.type = type) (hscope : task.scope = scope.getD [])
    (hsubject : task.subject = subject) (hversion : task.version = version.getD []) :
    HasParts word (BacklogRunner.commitMessage task) type (keptScope scope) subject version ∧
      Firm (BacklogRunner.commitMessage task) := by
  obtain ⟨front, behind, rest, htext, hfront, hbegins, hparts⟩ := h.split
  have hbehind : Firm behind := by
    refine Firm.of_append (type ++ (scopeText scope ++ ':' :: front)) ?_
    have hsame : type ++ (scopeText scope ++ ':' :: front) ++ behind = text := by
      rw [htext]
      simp
    rw [hsame]
    exact hfirm
  obtain ⟨hfirst, hlast⟩ := hparts.trimmed hbegins hbehind
  have hne : version.getD [] = [] ↔ version = none := by
    cases hclosing : hparts.closing with
    | plain => simp
    | version _ hnumber =>
      obtain ⟨major, minor, micro, -, rfl⟩ := hnumber
      simp
  have hscopePart : (if task.scope = [] then [] else '(' :: task.scope ++ [')']) =
      scopeText (keptScope scope) := by
    rw [hscope]
    cases scope with
    | none => rfl
    | some inner =>
      unfold keptScope
      by_cases hempty : inner = []
      · simp [hempty, scopeText]
      · simp [hempty, scopeText]
  have hversionPart : (if task.version = [] then [] else " (".toList ++ task.version ++ [')']) =
      versionPart version := by
    rw [hversion]
    cases version with
    | none => rfl
    | some number =>
      rw [if_neg fun hnil => by simpa using hne.mp hnil]
      rfl
  have hmessage : BacklogRunner.commitMessage task = type ++ (scopeText (keptScope scope) ++
      ':' :: ([' '] ++ (subject ++ versionPart version))) := by
    unfold BacklogRunner.commitMessage
    dsimp only
    rw [hscopePart, hversionPart, htype, hsubject]
    simp
  have hsubject' := hparts.message hbegins hbehind
  refine ⟨⟨h.filled, h.letters, ?_, [' '], _, _, hmessage,
    List.forall_mem_singleton.mpr (by decide), ?_, hsubject'⟩, ?_⟩
  · intro inner hinner
    cases scope with
    | none => cases hinner
    | some scope =>
      dsimp only [keptScope] at hinner
      split_ifs at hinner
      cases hinner
      exact h.enclosed _ rfl
  · intro c hc
    cases hsub : subject with
    | nil => exact absurd hsub hparts.filled
    | cons d rest =>
      refine hfirst c ?_
      rw [hsub, List.cons_append, List.head?_cons] at hc
      rw [hsub]
      exact hc
  · intro c hc
    rw [hmessage] at hc
    cases version with
    | none =>
      refine hlast c ?_
      obtain ⟨d, hd⟩ := List.getLast?_isSome.mpr hparts.filled |> Option.isSome_iff_exists.mp
      simp only [versionPart, List.append_nil, List.getLast?_append, List.getLast?_cons, hd] at hc
      rw [hd]
      simpa using hc
    | some number =>
      have hclose : c = ')' := by
        simp [versionPart, List.getLast?_append, List.getLast?_cons] at hc
        exact hc.symm
      rw [hclose]
      decide

/-- The message that is made of a title's parts is accepted again, with the same parts. -/
theorem parseConventional_commitMessage (word : Char → Bool) (hopen : word '(' = false)
    (hcolon : word ':' = false) (title : Text)
    (haccepted : ((conventionalRe word).match? (strip title)).isSome = true) (task : BacklogTask)
    (htask : (task.type, task.scope, task.subject, task.version) =
      parseConventional word title) :
    ((conventionalRe word).match? (strip (BacklogRunner.commitMessage task))).isSome = true ∧
      parseConventional word (BacklogRunner.commitMessage task) = parseConventional word title := by
  have hfirm : Firm (strip title) := fun c hc => last_strip hc
  obtain ⟨found, hfound⟩ := Option.isSome_iff_exists.mp haccepted
  obtain ⟨type, scope, subject, version, htitled, -⟩ :=
    (match?_conventional hopen hcolon hfirm).mp hfound
  obtain ⟨-, hparsed⟩ := parseConventional_titled hopen hcolon hfirm htitled
  obtain ⟨front, behind, rest, htext, hfront, hbegins, hparts⟩ := htitled.split
  have hbehind : Firm behind := by
    refine Firm.of_append (type ++ (scopeText scope ++ ':' :: front)) ?_
    have hsame : type ++ (scopeText scope ++ ':' :: front) ++ behind = strip title := by
      rw [htext]
      simp
    rw [hsame]
    exact hfirm
  obtain ⟨hfirst, hlast⟩ := hparts.trimmed hbegins hbehind
  have hsubject : strip subject = subject := strip_firm hfirst hlast
  rw [hsubject] at hparsed
  rw [hparsed] at htask ⊢
  obtain ⟨htype, hscope, hsub, hversion⟩ := Prod.mk.inj htask |>.imp id fun h =>
    (Prod.mk.inj h).imp id fun h => Prod.mk.inj h
  obtain ⟨hmessage, hfirm'⟩ := htitled.message hfirm htype hscope hsub hversion
  have hbegins' : Begins (BacklogRunner.commitMessage task) := by
    intro c hc
    obtain ⟨first, others, htype'⟩ := List.exists_cons_of_ne_nil htitled.filled
    refine @head_strip title c ?_
    obtain ⟨_, _, _, hmsg, -⟩ := hmessage.split
    rw [hmsg, htype', List.cons_append, List.head?_cons] at hc
    rw [htext, htype', List.cons_append, List.head?_cons]
    exact hc
  have hstrip := strip_firm hbegins' hfirm'
  rw [← hstrip] at hmessage hfirm'
  obtain ⟨haccepts, hagain⟩ := parseConventional_titled hopen hcolon hfirm' hmessage
  refine ⟨haccepts, ?_⟩
  rw [hagain, hsubject]
  cases scope with
  | none => rfl
  | some inner =>
    dsimp only [keptScope]
    split_ifs with hempty
    · rw [hempty]
      rfl
    · rfl

/-- Letters, digits and underscores. -/
def asciiWord (c : Char) : Bool := c.isAlphanum || c == '_'

/-- A task of the title `fix(ui):  a (b): c (v1.2.3)`. -/
def releaseTask : BacklogTask where
  title := "fix(ui):  a (b): c (v1.2.3)".toList
  type := "fix".toList
  scope := "ui".toList
  subject := "a (b): c".toList
  version := "v1.2.3".toList

set_option maxRecDepth 8000 in
/-- Parentheses and a colon in the subject stay there. -/
theorem parseConventional_release :
    parseConventional asciiWord (BacklogRunner.commitMessage releaseTask) =
      parseConventional asciiWord releaseTask.title :=
  (parseConventional_commitMessage asciiWord (by decide) (by decide) releaseTask.title (by decide)
    releaseTask (by decide)).2

end Messages

end AiosDeck.Backlog
