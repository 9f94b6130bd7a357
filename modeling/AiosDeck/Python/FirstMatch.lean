import Mathlib
import AiosDeck.Python.Regex

/-!
# The match that comes first

Which way of matching backtracking finds first, in front of what the rest of a pattern does
with each way. A repetition of characters is followed through the run that it takes.
-/

namespace AiosDeck.Python

namespace Regex

variable {next : Match → List Match} {text : Text} {captures : List (String × Text)}
  {found : Match}

theorem head?_append_iff {α : Type} {first second : List α} {a : α} :
    (first ++ second).head? = some a ↔
      first.head? = some a ∨ first = [] ∧ second.head? = some a := by
  cases first <;> simp

/-- What leads nowhere has no first match. -/
theorem eq_nil_iff_first {ways : List Match} : ways = [] ↔ ∀ found, ways.head? ≠ some found := by
  cases ways <;> simp

section Steps

/-- The match of a pattern is the first way of it. -/
theorem match?_iff {pattern : Regex} : pattern.match? text = some found ↔
    ((successes pattern ⟨text, []⟩).flatMap fun way => [way]).head? = some found := by
  rw [List.flatMap_singleton']
  rfl

theorem first_seq {first second : Regex} {start : Match} :
    (successes (.seq first second) start).flatMap next =
      (successes first start).flatMap fun between => (successes second between).flatMap next :=
  List.flatMap_assoc

theorem first_capture {name : String} {body : Regex} {start : Match} :
    (successes (.capture name body) start).flatMap next =
      (successes body start).flatMap fun found => next { found with
        captures := (name, start.rest.take (start.rest.length - found.rest.length)) ::
          found.captures } :=
  List.flatMap_map _ _ _

theorem first_all {pattern : Regex} {patterns : List Regex} {start : Match} :
    (successes (all (pattern :: patterns)) start).flatMap next =
      (successes pattern start).flatMap fun way => (successes (all patterns) way).flatMap next :=
  first_seq

theorem first_all_nil {start : Match} : (successes (all []) start).flatMap next = next start :=
  List.flatMap_singleton _ _

/-- One character of a kind, and what comes behind it. -/
theorem first_chars {accepts : Char → Bool} :
    ((successes (.chars accepts) ⟨text, captures⟩).flatMap next).head? = some found ↔
      ∃ c rest, text = c :: rest ∧ accepts c = true ∧
        (next ⟨rest, captures⟩).head? = some found := by
  cases text with
  | nil => simp [successes]
  | cons c rest =>
    by_cases haccepts : accepts c = true
    · simp [successes, haccepts]
    · simp [successes, haccepts]

theorem first_char {c : Char} :
    ((successes (char c) ⟨text, captures⟩).flatMap next).head? = some found ↔
      ∃ rest, text = c :: rest ∧ (next ⟨rest, captures⟩).head? = some found := by
  unfold char
  rw [first_chars]
  constructor
  · rintro ⟨d, rest, htext, hd, hnext⟩
    rw [eq_of_beq hd] at htext
    exact ⟨rest, htext, hnext⟩
  · rintro ⟨rest, htext, hnext⟩
    exact ⟨c, rest, htext, beq_self_eq_true c, hnext⟩

theorem first_char_other {c d : Char} (h : d ≠ c) (rest : Text) :
    (successes (char c) ⟨d :: rest, captures⟩).flatMap next = [] := by
  rw [eq_nil_iff_first]
  intro found hfound
  obtain ⟨rest', heq, -⟩ := first_char.mp hfound
  exact h (List.cons.inj heq).1

theorem first_end : ((successes .textEnd ⟨text, captures⟩).flatMap next).head? = some found ↔
    (text = [] ∨ text = ['\n']) ∧ (next ⟨text, captures⟩).head? = some found := by
  by_cases hend : text = [] ∨ text = ['\n']
  · simp [successes, hend]
  · simp [successes, hend]

/-- An option is taken if that leads anywhere, and else left out. -/
theorem first_optional {body : Regex} {start : Match} :
    ((successes (optional body) start).flatMap next).head? = some found ↔
      ((successes body start).flatMap next).head? = some found ∨
        (successes body start).flatMap next = [] ∧ (next start).head? = some found := by
  unfold optional
  rw [successes, List.flatMap_append, head?_append_iff, successes, List.flatMap_singleton]

end Steps

section Repetition

variable {accepts : Char → Bool}

/-- The ways of a repetition of characters, from the first character on. -/
theorem successes_star_nil {greedy : Bool} :
    successes (.star greedy (.chars accepts)) ⟨[], captures⟩ = [⟨[], captures⟩] := rfl

theorem successes_star_cons {greedy : Bool} {c : Char} {rest : Text} :
    successes (.star greedy (.chars accepts)) ⟨c :: rest, captures⟩ =
      let more := if accepts c then
        successes (.star greedy (.chars accepts)) ⟨rest, captures⟩ else []
      if greedy then more ++ [⟨c :: rest, captures⟩] else ⟨c :: rest, captures⟩ :: more := by
  unfold successes
  rw [List.length_cons, repeated]
  by_cases haccepts : accepts c = true
  · simp [successes, haccepts]
  · simp [successes, haccepts]

/-- The ways of a repetition are the runs of such characters. -/
theorem mem_star_chars {greedy : Bool} {way : Match} :
    way ∈ successes (.star greedy (.chars accepts)) ⟨text, captures⟩ ↔
      ∃ run rest, text = run ++ rest ∧ (∀ c ∈ run, accepts c = true) ∧ way = ⟨rest, captures⟩ := by
  induction text with
  | nil =>
    rw [successes_star_nil, List.mem_singleton]
    constructor
    · exact fun h => ⟨[], [], rfl, List.forall_mem_nil _, h⟩
    · rintro ⟨run, rest, htext, -, rfl⟩
      rw [(List.append_eq_nil_iff.mp htext.symm).2]
  | cons c text ih =>
    have hcons : way ∈ successes (.star greedy (.chars accepts)) ⟨c :: text, captures⟩ ↔
        way = ⟨c :: text, captures⟩ ∨
          accepts c = true ∧ way ∈ successes (.star greedy (.chars accepts)) ⟨text, captures⟩ := by
      rw [successes_star_cons]
      cases greedy <;> cases accepts c <;> simp [or_comm]
    rw [hcons, ih]
    constructor
    · rintro (rfl | ⟨haccepts, run, rest, rfl, hrun, rfl⟩)
      · exact ⟨[], c :: text, rfl, List.forall_mem_nil _, rfl⟩
      · exact ⟨c :: run, rest, rfl, List.forall_mem_cons.mpr ⟨haccepts, hrun⟩, rfl⟩
    · rintro ⟨run, rest, htext, hrun, rfl⟩
      cases run with
      | nil => exact .inl (by rw [htext, List.nil_append])
      | cons d run =>
        obtain ⟨rfl, htail⟩ := List.cons.inj htext
        obtain ⟨haccepts, hrun⟩ := List.forall_mem_cons.mp hrun
        exact .inr ⟨haccepts, run, rest, htail, hrun, rfl⟩

/-- A repetition leads nowhere when no run does. -/
theorem star_chars_eq_nil {greedy : Bool} :
    (successes (.star greedy (.chars accepts)) ⟨text, captures⟩).flatMap next = [] ↔
      ∀ run rest, text = run ++ rest → (∀ c ∈ run, accepts c = true) →
        next ⟨rest, captures⟩ = [] := by
  rw [List.flatMap_eq_nil_iff]
  constructor
  · exact fun h run rest htext hrun => h _ (mem_star_chars.mpr ⟨run, rest, htext, hrun, rfl⟩)
  · intro h way hway
    obtain ⟨run, rest, htext, hrun, rfl⟩ := mem_star_chars.mp hway
    exact h run rest htext hrun

/-- A greedy repetition takes the longest run that leads anywhere. -/
theorem first_greedy :
    ((successes (.star true (.chars accepts)) ⟨text, captures⟩).flatMap next).head? = some found ↔
      ∃ run rest, text = run ++ rest ∧ (∀ c ∈ run, accepts c = true) ∧
        (next ⟨rest, captures⟩).head? = some found ∧
        ∀ more behind, rest = more ++ behind → more ≠ [] → (∀ c ∈ more, accepts c = true) →
          next ⟨behind, captures⟩ = [] := by
  induction text with
  | nil =>
    rw [successes_star_nil, List.flatMap_singleton]
    constructor
    · intro h
      refine ⟨[], [], rfl, List.forall_mem_nil _, h, fun more behind heq hmore => ?_⟩
      exact absurd (List.append_eq_nil_iff.mp heq.symm).1 hmore
    · rintro ⟨run, rest, htext, -, h, -⟩
      rw [(List.append_eq_nil_iff.mp htext.symm).2] at h
      exact h
  | cons c text ih =>
    have hcons : ((successes (.star true (.chars accepts)) ⟨c :: text, captures⟩).flatMap
        next).head? = some found ↔
        (accepts c = true ∧ ((successes (.star true (.chars accepts)) ⟨text, captures⟩).flatMap
          next).head? = some found) ∨
        (accepts c = true → (successes (.star true (.chars accepts)) ⟨text, captures⟩).flatMap
          next = []) ∧ (next ⟨c :: text, captures⟩).head? = some found := by
      rw [successes_star_cons]
      dsimp only
      rw [if_pos rfl, List.flatMap_append, head?_append_iff, List.flatMap_singleton]
      cases accepts c <;> simp
    rw [hcons, ih, star_chars_eq_nil]
    constructor
    · rintro (⟨haccepts, run, rest, rfl, hrun, hfirst, hlongest⟩ | ⟨hnone, hfirst⟩)
      · exact ⟨c :: run, rest, rfl, List.forall_mem_cons.mpr ⟨haccepts, hrun⟩, hfirst, hlongest⟩
      · refine ⟨[], c :: text, rfl, List.forall_mem_nil _, hfirst, ?_⟩
        intro more behind heq hne hall
        cases more with
        | nil => exact absurd rfl hne
        | cons d more =>
          obtain ⟨rfl, htext⟩ := List.cons.inj heq
          obtain ⟨haccepts, hall⟩ := List.forall_mem_cons.mp hall
          exact hnone haccepts more behind htext hall
    · rintro ⟨run, rest, htext, hrun, hfirst, hlongest⟩
      cases run with
      | nil =>
        rw [List.nil_append] at htext
        subst htext
        refine .inr ⟨fun haccepts more behind heq hall => ?_, hfirst⟩
        refine hlongest (c :: more) behind ?_ (List.cons_ne_nil _ _)
          (List.forall_mem_cons.mpr ⟨haccepts, hall⟩)
        rw [heq, List.cons_append]
      | cons d run =>
        obtain ⟨rfl, htail⟩ := List.cons.inj htext
        obtain ⟨haccepts, hrun⟩ := List.forall_mem_cons.mp hrun
        exact .inl ⟨haccepts, run, rest, htail, hrun, hfirst, hlongest⟩

/-- Where a longer run is all that leads anywhere, a greedy repetition takes it. -/
theorem first_run (hnext : ∀ c rest, accepts c = true → next ⟨c :: rest, captures⟩ = []) :
    ((successes (.star true (.chars accepts)) ⟨text, captures⟩).flatMap next).head? = some found ↔
      ∃ run rest, text = run ++ rest ∧ (∀ c ∈ run, accepts c = true) ∧
        (next ⟨rest, captures⟩).head? = some found := by
  rw [first_greedy]
  constructor
  · rintro ⟨run, rest, htext, hrun, hfirst, -⟩
    exact ⟨run, rest, htext, hrun, hfirst⟩
  · rintro ⟨run, rest, htext, hrun, hfirst⟩
    refine ⟨run, rest, htext, hrun, hfirst, fun more behind heq hne hall => ?_⟩
    cases more with
    | nil => exact absurd rfl hne
    | cons c more =>
      rw [heq, List.cons_append, hnext c _ (hall c List.mem_cons_self)] at hfirst
      cases hfirst

theorem first_plus (hnext : ∀ c rest, accepts c = true → next ⟨c :: rest, captures⟩ = []) :
    ((successes (plus (.chars accepts)) ⟨text, captures⟩).flatMap next).head? = some found ↔
      ∃ run rest, text = run ++ rest ∧ run ≠ [] ∧ (∀ c ∈ run, accepts c = true) ∧
        (next ⟨rest, captures⟩).head? = some found := by
  unfold plus
  rw [first_seq, first_chars]
  constructor
  · rintro ⟨c, behind, rfl, haccepts, hfirst⟩
    obtain ⟨run, rest, rfl, hrun, hfirst⟩ := (first_run hnext).mp hfirst
    exact ⟨c :: run, rest, rfl, List.cons_ne_nil _ _, List.forall_mem_cons.mpr ⟨haccepts, hrun⟩,
      hfirst⟩
  · rintro ⟨run, rest, rfl, hne, hrun, hfirst⟩
    cases run with
    | nil => exact absurd rfl hne
    | cons c run =>
      obtain ⟨haccepts, hrun⟩ := List.forall_mem_cons.mp hrun
      exact ⟨c, run ++ rest, rfl, haccepts, (first_run hnext).mpr ⟨run, rest, rfl, hrun, hfirst⟩⟩

/-- The text of a capture is what is gone in front. -/
theorem take_front (front rest : Text) :
    (front ++ rest).take ((front ++ rest).length - rest.length) = front := by
  rw [List.length_append, Nat.add_sub_cancel, List.take_left]

/-- A reluctant repetition takes the shortest run that leads anywhere. -/
theorem first_reluctant :
    ((successes (.star false (.chars accepts)) ⟨text, captures⟩).flatMap next).head? = some found ↔
      ∃ run rest, text = run ++ rest ∧ (∀ c ∈ run, accepts c = true) ∧
        (next ⟨rest, captures⟩).head? = some found ∧
        ∀ front behind, run = front ++ behind → behind ≠ [] →
          next ⟨behind ++ rest, captures⟩ = [] := by
  induction text with
  | nil =>
    rw [successes_star_nil, List.flatMap_singleton]
    constructor
    · intro h
      refine ⟨[], [], rfl, List.forall_mem_nil _, h, fun front behind heq hbehind => ?_⟩
      exact absurd (List.append_eq_nil_iff.mp heq.symm).2 hbehind
    · rintro ⟨run, rest, htext, -, h, -⟩
      rw [(List.append_eq_nil_iff.mp htext.symm).2] at h
      exact h
  | cons c text ih =>
    have hcons : ((successes (.star false (.chars accepts)) ⟨c :: text, captures⟩).flatMap
        next).head? = some found ↔
        (next ⟨c :: text, captures⟩).head? = some found ∨
          next ⟨c :: text, captures⟩ = [] ∧ accepts c = true ∧
            ((successes (.star false (.chars accepts)) ⟨text, captures⟩).flatMap
              next).head? = some found := by
      rw [successes_star_cons]
      dsimp only
      rw [if_neg Bool.false_ne_true, List.flatMap_cons, head?_append_iff]
      cases accepts c <;> simp
    rw [hcons, ih]
    constructor
    · rintro (hfirst | ⟨hnone, haccepts, run, rest, rfl, hrun, hfirst, hshortest⟩)
      · refine ⟨[], c :: text, rfl, List.forall_mem_nil _, hfirst, fun front behind heq hne => ?_⟩
        exact absurd (List.append_eq_nil_iff.mp heq.symm).2 hne
      · refine ⟨c :: run, rest, rfl, List.forall_mem_cons.mpr ⟨haccepts, hrun⟩, hfirst, ?_⟩
        intro front behind heq hne
        cases front with
        | nil =>
          rw [List.nil_append] at heq
          rw [← heq, List.cons_append]
          exact hnone
        | cons d front => exact hshortest front behind (List.cons.inj heq).2 hne
    · rintro ⟨run, rest, htext, hrun, hfirst, hshortest⟩
      cases run with
      | nil =>
        rw [List.nil_append] at htext
        rw [htext]
        exact .inl hfirst
      | cons d run =>
        obtain ⟨rfl, htail⟩ := List.cons.inj htext
        obtain ⟨haccepts, hrun⟩ := List.forall_mem_cons.mp hrun
        refine .inr ⟨?_, haccepts, run, rest, htail, hrun, hfirst, fun front behind heq hne => ?_⟩
        · have hnone := hshortest [] (c :: run) rfl (List.cons_ne_nil _ _)
          rw [htail]
          exact hnone
        · exact hshortest (c :: front) behind (by rw [heq, List.cons_append]) hne

end Repetition

end Regex

end AiosDeck.Python
