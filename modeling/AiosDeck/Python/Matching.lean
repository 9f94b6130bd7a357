import Mathlib
import AiosDeck.Python.Regex

/-!
# What a pattern takes

The texts that a pattern can take from the start of a text, whatever the order in
which backtracking tries them. A search succeeds where something can be taken.
-/

namespace AiosDeck.Python

namespace Regex

/-- The pattern can take `text` up to `rest`. -/
def Takes : Regex → Text → Text → Prop
  | .empty, text, rest => rest = text
  | .chars accepts, text, rest => ∃ c, accepts c = true ∧ text = c :: rest
  | .seq first second, text, rest => ∃ between, Takes first text between ∧ Takes second between rest
  | .alt first second, text, rest => Takes first text rest ∨ Takes second text rest
  | .star _ body, text, rest => Relation.ReflTransGen (Takes body) text rest
  | .capture _ body, text, rest => Takes body text rest
  | .textEnd, text, rest => (text = [] ∨ text = ['\n']) ∧ rest = text

/-- What is left is an end of the text. -/
theorem Takes.suffix {pattern : Regex} {text rest : Text} (h : Takes pattern text rest) :
    rest <:+ text := by
  induction pattern generalizing text rest with
  | empty =>
    have heq : rest = text := h
    rw [heq]
  | chars accepts =>
    obtain ⟨c, -, htext⟩ := h
    rw [htext]
    exact List.suffix_cons c rest
  | seq first second ihfirst ihsecond =>
    obtain ⟨between, hfirst, hsecond⟩ := h
    exact (ihsecond hsecond).trans (ihfirst hfirst)
  | alt first second ihfirst ihsecond =>
    cases h with
    | inl hfirst => exact ihfirst hfirst
    | inr hsecond => exact ihsecond hsecond
  | star greedy body ih =>
    have hstar : Relation.ReflTransGen (Takes body) text rest := h
    induction hstar with
    | refl => exact List.suffix_rfl
    | tail hrun hstep ihrun => exact (ih hstep).trans (ihrun hrun)
  | capture name body ih => exact ih h
  | textEnd =>
    obtain ⟨-, heq⟩ := h
    rw [heq]

section Repetition

variable {body : Match → List Match} {takes : Text → Text → Prop}

/-- Steps of a repetition that consume something. -/
def Consumes (takes : Text → Text → Prop) (text rest : Text) : Prop :=
  takes text rest ∧ rest.length < text.length

/-- Steps that consume nothing can be left out. -/
theorem consumes_of_takes (hsuffix : ∀ text rest, takes text rest → rest <:+ text)
    {text rest : Text} (h : Relation.ReflTransGen takes text rest) :
    Relation.ReflTransGen (Consumes takes) text rest := by
  induction h with
  | refl => exact .refl
  | @tail between last hrun hstep ih =>
    have hle : last.length ≤ between.length := (hsuffix _ _ hstep).length_le
    by_cases hlt : last.length < between.length
    · exact ih.tail ⟨hstep, hlt⟩
    · have heq : last = between := (hsuffix _ _ hstep).eq_of_length (by omega)
      rw [heq]
      exact ih

/-- The repetitions of a pattern, with fuel for the whole text. -/
theorem mem_repeated (greedy : Bool)
    (hbody : ∀ start rest, (∃ found ∈ body start, found.rest = rest) ↔ takes start.rest rest)
    (hsuffix : ∀ text rest, takes text rest → rest <:+ text) (fuel : ℕ) (start : Match)
    (hfuel : start.rest.length ≤ fuel) (rest : Text) :
    (∃ found ∈ repeated greedy body fuel start, found.rest = rest) ↔
      Relation.ReflTransGen takes start.rest rest := by
  induction fuel generalizing start with
  | zero =>
    have hnil : start.rest = [] := List.length_eq_zero_iff.mp (by omega)
    constructor
    · rintro ⟨found, hfound, hrest⟩
      have heq : found = start := List.mem_singleton.mp hfound
      rw [← hrest, heq]
    · intro hrun
      have hconsumes := consumes_of_takes hsuffix hrun
      cases Relation.ReflTransGen.cases_head hconsumes with
      | inl heq => exact ⟨start, List.mem_singleton.mpr rfl, heq⟩
      | inr hstep =>
        obtain ⟨between, ⟨-, hlt⟩, -⟩ := hstep
        simp [hnil] at hlt
  | succ fuel ih =>
    have hmem : ∀ found, found ∈ repeated greedy body (fuel + 1) start ↔
        found = start ∨ ∃ next ∈ body start, next.rest.length < start.rest.length ∧
          found ∈ repeated greedy body fuel next := by
      intro found
      cases greedy <;> simp [repeated, or_comm]
    constructor
    · rintro ⟨found, hfound, hrest⟩
      cases (hmem found).mp hfound with
      | inl heq => rw [← hrest, heq]
      | inr hmore =>
        obtain ⟨next, hnext, hlt, hfound⟩ := hmore
        have hstep : takes start.rest next.rest := (hbody start _).mp ⟨next, hnext, rfl⟩
        have hrun := (ih next (by omega)).mp ⟨found, hfound, hrest⟩
        exact hrun.head hstep
    · intro hrun
      have hconsumes := consumes_of_takes hsuffix hrun
      cases Relation.ReflTransGen.cases_head hconsumes with
      | inl heq => exact ⟨start, (hmem start).mpr (.inl rfl), heq⟩
      | inr hstep =>
        obtain ⟨between, ⟨hstep, hlt⟩, hmore⟩ := hstep
        obtain ⟨next, hnext, hbetween⟩ := (hbody start between).mpr hstep
        rw [← hbetween] at hlt hmore
        have htakes : Relation.ReflTransGen takes next.rest rest :=
          Relation.ReflTransGen.mono (fun _ _ h => And.left h) _ _ hmore
        obtain ⟨found, hfound, hrest⟩ := (ih next (by omega)).mpr htakes
        exact ⟨found, (hmem found).mpr (.inr ⟨next, hnext, hlt, hfound⟩), hrest⟩

end Repetition

/-- The matches at the start of a text are what the pattern can take. -/
theorem mem_successes (pattern : Regex) (start : Match) (rest : Text) :
    (∃ found ∈ successes pattern start, found.rest = rest) ↔ Takes pattern start.rest rest := by
  induction pattern generalizing start rest with
  | empty => simp [successes, Takes, eq_comm]
  | chars accepts =>
    cases htext : start.rest with
    | nil => simp [successes, Takes, htext]
    | cons c others =>
      by_cases haccepts : accepts c = true
      · simp [successes, Takes, htext, haccepts]
      · simp only [successes, htext, haccepts, Takes, List.cons.injEq]
        simp only [Bool.false_eq_true, if_false, List.not_mem_nil, false_and, exists_false,
          false_iff]
        rintro ⟨c', haccepts', hc, -⟩
        exact haccepts (hc ▸ haccepts')
  | seq first second ihfirst ihsecond =>
    simp only [successes, Takes, List.mem_flatMap]
    constructor
    · rintro ⟨found, ⟨between, hbetween, hfound⟩, hrest⟩
      exact ⟨between.rest, (ihfirst start _).mp ⟨between, hbetween, rfl⟩,
        (ihsecond between rest).mp ⟨found, hfound, hrest⟩⟩
    · rintro ⟨between, hfirst, hsecond⟩
      obtain ⟨next, hnext, heq⟩ := (ihfirst start between).mpr hfirst
      rw [← heq] at hsecond
      obtain ⟨found, hfound, hrest⟩ := (ihsecond next rest).mpr hsecond
      exact ⟨found, ⟨next, hnext, hfound⟩, hrest⟩
  | alt first second ihfirst ihsecond =>
    simp only [successes, Takes, List.mem_append, or_and_right, exists_or]
    rw [ihfirst, ihsecond]
  | star greedy body ih =>
    exact mem_repeated greedy ih (fun _ _ h => h.suffix) _ start (Nat.le_refl _) rest
  | capture name body ih =>
    rw [Takes, ← ih start rest]
    simp [successes]
  | textEnd =>
    by_cases hend : start.rest = [] ∨ start.rest = ['\n']
    · simp [successes, Takes, hend, eq_comm]
    · simp [successes, Takes, hend]

/-- A pattern matches where it can take something. -/
theorem match?_isSome {pattern : Regex} {text : Text} :
    (pattern.match? text).isSome = true ↔ ∃ rest, Takes pattern text rest := by
  constructor
  · intro h
    obtain ⟨found, hfound⟩ := Option.isSome_iff_exists.mp h
    have hmem : found ∈ successes pattern { rest := text } := List.mem_of_head? hfound
    exact ⟨found.rest, (mem_successes pattern _ _).mp ⟨found, hmem, rfl⟩⟩
  · rintro ⟨rest, htakes⟩
    obtain ⟨found, hmem, -⟩ := (mem_successes pattern { rest := text } rest).mpr htakes
    unfold match?
    rw [List.isSome_head?]
    exact List.ne_nil_of_mem hmem

/-- A search succeeds when the pattern can take something somewhere. -/
theorem search_isSome {pattern : Regex} {text : Text} :
    (pattern.search text).isSome = true ↔
      ∃ front behind rest, text = front ++ behind ∧ Takes pattern behind rest := by
  induction text with
  | nil =>
    rw [search, match?_isSome]
    constructor
    · rintro ⟨rest, htakes⟩
      exact ⟨[], [], rest, rfl, htakes⟩
    · rintro ⟨front, behind, rest, htext, htakes⟩
      have hbehind : behind = [] := (List.append_eq_nil_iff.mp htext.symm).2
      rw [hbehind] at htakes
      exact ⟨rest, htakes⟩
  | cons c others ih =>
    have hsearch : (pattern.search (c :: others)).isSome = true ↔
        (pattern.match? (c :: others)).isSome = true ∨
          (pattern.search others).isSome = true := by
      rw [search]
      cases pattern.match? (c :: others) <;> simp
    rw [hsearch, ih, match?_isSome]
    constructor
    · rintro (⟨rest, htakes⟩ | ⟨front, behind, rest, htext, htakes⟩)
      · exact ⟨[], c :: others, rest, rfl, htakes⟩
      · exact ⟨c :: front, behind, rest, by rw [htext, List.cons_append], htakes⟩
    · rintro ⟨front, behind, rest, htext, htakes⟩
      cases front with
      | nil =>
        rw [htext]
        exact .inl ⟨rest, htakes⟩
      | cons _ front =>
        obtain ⟨-, hothers⟩ := List.cons.inj htext
        exact .inr ⟨front, behind, rest, hothers, htakes⟩

section Parts

variable {text rest : Text}

theorem takes_char {c : Char} : Takes (char c) text rest ↔ text = c :: rest := by
  simp [char, Takes]

theorem takes_literal {letters : Text} :
    Takes (literal letters) text rest ↔ text = letters ++ rest := by
  induction letters generalizing text with
  | nil => exact eq_comm
  | cons c letters ih =>
    have hcons : Takes (literal (c :: letters)) text rest ↔
        ∃ between, Takes (char c) text between ∧ Takes (literal letters) between rest := Iff.rfl
    rw [hcons]
    simp [takes_char, ih]

theorem takes_all_nil : Takes (all []) text rest ↔ text = rest := eq_comm

theorem takes_all_cons {pattern : Regex} {patterns : List Regex} :
    Takes (all (pattern :: patterns)) text rest ↔
      ∃ between, Takes pattern text between ∧ Takes (all patterns) between rest := Iff.rfl

/-- Characters of one kind, as many as there are. -/
theorem takes_star_chars {greedy : Bool} {accepts : Char → Bool} :
    Takes (.star greedy (.chars accepts)) text rest ↔
      ∃ run, (∀ c ∈ run, accepts c = true) ∧ text = run ++ rest := by
  constructor
  · intro h
    have hstar : Relation.ReflTransGen (Takes (.chars accepts)) text rest := h
    induction hstar using Relation.ReflTransGen.head_induction_on with
    | refl => exact ⟨[], by simp, rfl⟩
    | head hstep hrun ih =>
      obtain ⟨c, haccepts, htext⟩ := hstep
      obtain ⟨run, hall, hbetween⟩ := ih hrun
      refine ⟨c :: run, ?_, ?_⟩
      · intro c' hmem
        cases List.mem_cons.mp hmem with
        | inl heq => rw [heq, haccepts]
        | inr hmem => exact hall c' hmem
      · rw [htext, hbetween, List.cons_append]
  · rintro ⟨run, hall, rfl⟩
    induction run with
    | nil => exact Relation.ReflTransGen.refl
    | cons c run ih =>
      have hstep : Takes (.chars accepts) (c :: run ++ rest) (run ++ rest) :=
        ⟨c, hall c List.mem_cons_self, rfl⟩
      have hrun : Relation.ReflTransGen (Takes (.chars accepts)) (run ++ rest) rest :=
        ih fun c' hmem => hall c' (List.mem_cons_of_mem c hmem)
      exact hrun.head hstep

end Parts

end Regex

end AiosDeck.Python
