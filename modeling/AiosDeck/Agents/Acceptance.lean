import Mathlib
import AiosDeck.Agents.Planner
import AiosDeck.Python.JsonText
import AiosDeck.Python.Matching

/-!
# Acceptance of plans

The planner looks for a call of its tool before it looks for a plan, and in the whole
output. A plan is accepted where no text in it reads as such a call.
-/

namespace AiosDeck.Agents

open Python

namespace PlannerAgent

/-- Limits of the interpreter. -/
structure Limits where
  /-- An error of `json.loads` that is no `JSONDecodeError`: the text is too deep, or has
  too many digits in an integer. -/
  reading : Text → Option PyExc := fun _ => none
  /-- Whether a value is too deep for `json.dumps`. -/
  tooDeep : Json → Bool := fun _ => false

/-- `json.loads`, and `json.dumps` on a plan that is accepted. -/
def Limits.loads (limits : Limits) (text : Text) : Except PyExc Json :=
  match limits.reading text with
  | some exc => .error exc
  | none =>
    match JsonText.decode text with
    | none => .error ⟨.jsonDecodeError, "Expecting value"⟩
    | some value =>
      if hasSubtasks value ∧ limits.tooDeep value then
        .error ⟨.recursionError, "maximum recursion depth exceeded"⟩
      else .ok value

/-- How an iteration of the loop ends. -/
inductive Turn where
  /-- `execute` returns or raises; the question is the one the user was asked. -/
  | ends (asked : Option Text) (outcome : Except PyExc AgentResult)
  /-- The next iteration follows. -/
  | goesOn (asked : Option Text) (lastError : String)

/-- What `execute` did from some iteration on. -/
structure Conversation where
  /-- Calls of the runtime. -/
  calls : ℕ
  /-- Calls of `ask_user`, each with its iteration and its prompt. -/
  questions : List (ℕ × Text)
  outcome : Except PyExc AgentResult

section Converse

variable (loads : Text → Except PyExc Json) (task : AgentTask) (dialogue : Dialogue)

/-- One iteration of `PlannerAgent.execute`. -/
def turn (index : ℕ) (lastError : String) : Turn :=
  match dialogue.output index with
  | .error exc => .ends none (.error exc)
  | .ok output =>
    match TOOL_CALL.search output with
    | some found =>
      match dialogue.reply index with
      | .error exc => .ends (some (found.group "prompt")) (.error exc)
      | .ok _ => .goesOn (some (found.group "prompt")) lastError
    | none =>
      match parsePlan loads output with
      | .error exc => .ends none (.error exc)
      | .ok result =>
        if result.success then .ends none (.ok (identified task { result with status := .succeeded }))
        else .goesOn none (result.errors.head?.getD "")

/-- The question of one iteration. -/
def tagged (index : ℕ) (asked : Option Text) : List (ℕ × Text) :=
  asked.toList.map fun prompt => (index, prompt)

/-- `PlannerAgent.execute` from its iteration `index` on, with what it calls. -/
def converse : ℕ → ℕ → String → Conversation
  | 0, _, lastError =>
    { calls := 0, questions := []
      outcome := .ok (identified task
        { rejected ("Exceeded max iterations: " ++ lastError) with status := .failed }) }
  | left + 1, index, lastError =>
    match turn loads task dialogue index lastError with
    | .ends asked outcome => { calls := 1, questions := tagged index asked, outcome }
    | .goesOn asked error =>
      let rest := converse left (index + 1) error
      { rest with calls := rest.calls + 1, questions := tagged index asked ++ rest.questions }

/-- The whole conversation of `PlannerAgent.execute`. -/
def conversation : Conversation :=
  converse loads task dialogue MAX_ITERATIONS 0 "Model failed to produce a valid plan"

variable {loads task dialogue}

/-- The conversation ends as the iterations do. -/
theorem converse_outcome (left index : ℕ) (lastError : String) :
    (converse loads task dialogue left index lastError).outcome =
      reason loads task dialogue left index lastError := by
  induction left generalizing index lastError with
  | zero => rfl
  | succ left ih =>
    rw [converse, reason, turn]
    cases houtput : dialogue.output index with
    | error exc => rfl
    | ok output =>
      cases hsearch : TOOL_CALL.search output with
      | some found =>
        cases hreply : dialogue.reply index with
        | error exc => simp [hsearch, hreply, bind, Except.bind]
        | ok line => simp [hsearch, hreply, bind, Except.bind, ih]
      | none =>
        cases hparse : parsePlan loads output with
        | error exc => simp [hsearch, hparse, bind, Except.bind]
        | ok result =>
          by_cases hsuccess : result.success = true
          · simp [hsearch, hparse, hsuccess, bind, Except.bind, pure, Except.pure]
          · simp [hsearch, hparse, hsuccess, bind, Except.bind, ih]

/-- The conversation of `execute` ends as `execute` does. -/
theorem conversation_outcome :
    (conversation loads task dialogue).outcome = execute loads task dialogue :=
  converse_outcome _ _ _

/-- The runtime is called at most once an iteration. -/
theorem converse_calls_le (left index : ℕ) (lastError : String) :
    (converse loads task dialogue left index lastError).calls ≤ left := by
  induction left generalizing index lastError with
  | zero => exact Nat.le_refl 0
  | succ left ih =>
    rw [converse]
    split
    · exact Nat.succ_le_succ (Nat.zero_le left)
    · exact Nat.succ_le_succ (ih _ _)

/-- Questions carry the iteration they were asked in. -/
theorem le_of_mem_questions {left index : ℕ} {lastError : String} {question : ℕ × Text}
    (h : question ∈ (converse loads task dialogue left index lastError).questions) :
    index ≤ question.1 := by
  induction left generalizing index lastError with
  | zero => exact absurd h List.not_mem_nil
  | succ left ih =>
    have htagged : ∀ asked, question ∈ tagged index asked → index ≤ question.1 := by
      intro asked hmem
      obtain ⟨prompt, -, rfl⟩ := List.mem_map.mp hmem
      exact Nat.le_refl index
    rw [converse] at h
    split at h
    · exact htagged _ h
    · cases List.mem_append.mp h with
      | inl hmem => exact htagged _ hmem
      | inr hmem => exact (Nat.le_succ index).trans (ih hmem)

/-- An iteration that is reached continues what the iterations before it did. -/
theorem converse_reached {left first : ℕ} {lastError : String} (distance : ℕ)
    (hreached : distance < (converse loads task dialogue left first lastError).calls) :
    ∃ left' error earlier,
      (converse loads task dialogue left first lastError).calls =
        distance + (converse loads task dialogue (left' + 1) (first + distance) error).calls ∧
      (converse loads task dialogue left first lastError).outcome =
        (converse loads task dialogue (left' + 1) (first + distance) error).outcome ∧
      (converse loads task dialogue left first lastError).questions =
        earlier ++ (converse loads task dialogue (left' + 1) (first + distance) error).questions ∧
      ∀ question ∈ earlier, question.1 < first + distance := by
  induction distance generalizing left first lastError with
  | zero =>
    cases left with
    | zero => exact absurd hreached (Nat.lt_irrefl 0)
    | succ left => exact ⟨left, lastError, [], by simp, rfl, rfl, by simp⟩
  | succ distance ih =>
    cases left with
    | zero => exact absurd hreached (Nat.not_lt_zero _)
    | succ left =>
      cases hturn : turn loads task dialogue first lastError with
      | ends asked outcome =>
        simp only [converse, hturn] at hreached
        omega
      | goesOn asked error =>
        have hnext : distance <
            (converse loads task dialogue left (first + 1) error).calls := by
          simp only [converse, hturn] at hreached
          omega
        obtain ⟨left', error', earlier, hcalls, houtcome, hquestions, hearlier⟩ := ih hnext
        have hindex : first + 1 + distance = first + (distance + 1) := by omega
        rw [hindex] at hcalls houtcome hquestions hearlier
        refine ⟨left', error', tagged first asked ++ earlier, ?_, ?_, ?_, ?_⟩
        · rw [converse]
          simp only [hturn]
          omega
        · rw [converse]
          simp only [hturn]
          exact houtcome
        · rw [converse]
          simp only [hturn]
          rw [hquestions, List.append_assoc]
        · intro question hmem
          cases List.mem_append.mp hmem with
          | inl hmem =>
            obtain ⟨prompt, -, rfl⟩ := List.mem_map.mp hmem
            omega
          | inr hmem => exact hearlier question hmem

end Converse

section Extraction

/-- What comes before the first character of a kind. -/
theorem findIdx?_behind {c : Char} {front rest : Text} (h : c ∉ front) :
    (front ++ c :: rest).findIdx? (· == c) = some front.length := by
  have hnone : front.findIdx? (· == c) = none := by
    refine List.findIdx?_eq_none_iff.mpr fun c' hmem => ?_
    have hne : c' ≠ c := fun heq => h (heq ▸ hmem)
    simpa using hne
  rw [List.findIdx?_append, hnone, List.findIdx?_cons]
  simp

/-- The extraction finds an object that is surrounded by prose. -/
theorem extractJson_surrounded {before behind : Text} (inner : Text)
    (hbefore : '\x7b' ∉ before) (hbehind : '\x7d' ∉ behind) :
    extractJson (before ++ ('\x7b' :: inner ++ ['\x7d']) ++ behind) =
      '\x7b' :: inner ++ ['\x7d'] := by
  have hfirst : (before ++ ('\x7b' :: inner ++ ['\x7d']) ++ behind).findIdx? (· == '\x7b') =
      some before.length := by
    have hsplit : before ++ ('\x7b' :: inner ++ ['\x7d']) ++ behind =
        before ++ '\x7b' :: (inner ++ ['\x7d'] ++ behind) := by simp
    rw [hsplit]
    exact findIdx?_behind hbefore
  have hlast : (before ++ ('\x7b' :: inner ++ ['\x7d']) ++ behind).reverse.findIdx?
      (· == '\x7d') = some behind.length := by
    have hsplit : (before ++ ('\x7b' :: inner ++ ['\x7d']) ++ behind).reverse =
        behind.reverse ++ '\x7d' :: (before ++ '\x7b' :: inner).reverse := by simp
    rw [hsplit, findIdx?_behind (by simpa using hbehind), List.length_reverse]
  have hlength : (before ++ ('\x7b' :: inner ++ ['\x7d']) ++ behind).length =
      before.length + (inner.length + 2) + behind.length := by
    simp only [List.length_append, List.length_cons, List.length_nil]
  have hstop : before.length + (inner.length + 2) + behind.length - 1 - behind.length + 1 =
      (before ++ ('\x7b' :: inner ++ ['\x7d'])).length := by
    simp only [List.length_append, List.length_cons, List.length_nil]
    omega
  unfold extractJson
  simp only [hfirst, hlast, hlength]
  rw [if_neg (by omega), hstop, List.take_left, List.drop_left]

end Extraction

section ToolCalls

/-- Somewhere the text reads as a call of the tool, with a prompt between two quotes that
are the same. -/
def CallsTool (text : Text) : Prop :=
  ∃ front blanks mark prompt trailing rest,
    text = front ++ ("ask_user(".toList ++ (blanks ++ mark :: (prompt ++ mark ::
      (trailing ++ ')' :: rest)))) ∧
    (mark = '\'' ∨ mark = '"') ∧ '\n' ∉ prompt ∧
    (∀ c ∈ blanks, isSpace c = true) ∧ ∀ c ∈ trailing, isSpace c = true

/-- A text between two quotes. -/
theorem takes_quotedPrompt {mark : Char} {text rest : Text} :
    Regex.Takes (quotedPrompt mark) text rest ↔
      ∃ prompt, '\n' ∉ prompt ∧ text = mark :: (prompt ++ mark :: rest) := by
  have hdot : ∀ text rest, Regex.Takes (.capture "prompt" (.star false Regex.dot)) text rest ↔
      ∃ prompt, '\n' ∉ prompt ∧ text = prompt ++ rest := by
    intro text rest
    have hstar := @Regex.takes_star_chars text rest false (· != '\n')
    have hline : ∀ prompt : Text, (∀ c ∈ prompt, (c != '\n') = true) ↔ '\n' ∉ prompt := by
      intro prompt
      constructor
      · intro hall hmem
        exact absurd (hall _ hmem) (by decide)
      · intro hmem c hc
        have hne : c ≠ '\n' := fun heq => hmem (heq ▸ hc)
        simpa using hne
    simp only [hline] at hstar
    exact hstar
  unfold quotedPrompt
  simp only [Regex.takes_all_cons, Regex.takes_all_nil, Regex.takes_char, hdot]
  constructor
  · rintro ⟨_, rfl, _, ⟨prompt, hprompt, rfl⟩, _, rfl, rfl⟩
    exact ⟨prompt, hprompt, rfl⟩
  · rintro ⟨prompt, hprompt, rfl⟩
    exact ⟨_, rfl, _, ⟨prompt, hprompt, rfl⟩, _, rfl, rfl⟩

/-- What the pattern takes. -/
theorem takes_TOOL_CALL {text rest : Text} :
    Regex.Takes TOOL_CALL text rest ↔
      ∃ blanks mark prompt trailing,
        text = "ask_user(".toList ++ (blanks ++ mark :: (prompt ++ mark ::
          (trailing ++ ')' :: rest))) ∧
        (mark = '\'' ∨ mark = '"') ∧ '\n' ∉ prompt ∧
        (∀ c ∈ blanks, isSpace c = true) ∧ ∀ c ∈ trailing, isSpace c = true := by
  have hblanks : ∀ text rest, Regex.Takes (.star true Regex.space) text rest ↔
      ∃ run, (∀ c ∈ run, isSpace c = true) ∧ text = run ++ rest :=
    fun _ _ => Regex.takes_star_chars
  have hquoted : ∀ text rest,
      Regex.Takes (.alt (quotedPrompt '\'') (quotedPrompt '"')) text rest ↔
        ∃ mark prompt, (mark = '\'' ∨ mark = '"') ∧ '\n' ∉ prompt ∧
          text = mark :: (prompt ++ mark :: rest) := by
    intro text rest
    have halt : Regex.Takes (.alt (quotedPrompt '\'') (quotedPrompt '"')) text rest ↔
        Regex.Takes (quotedPrompt '\'') text rest ∨ Regex.Takes (quotedPrompt '"') text rest :=
      Iff.rfl
    rw [halt, takes_quotedPrompt, takes_quotedPrompt]
    constructor
    · rintro (⟨prompt, hprompt, htext⟩ | ⟨prompt, hprompt, htext⟩)
      · exact ⟨'\'', prompt, .inl rfl, hprompt, htext⟩
      · exact ⟨'"', prompt, .inr rfl, hprompt, htext⟩
    · rintro ⟨mark, prompt, hmark, hprompt, htext⟩
      cases hmark with
      | inl heq => exact .inl ⟨prompt, hprompt, heq ▸ htext⟩
      | inr heq => exact .inr ⟨prompt, hprompt, heq ▸ htext⟩
  unfold TOOL_CALL
  simp only [Regex.takes_all_cons, Regex.takes_all_nil, Regex.takes_char, Regex.takes_literal,
    hblanks, hquoted]
  constructor
  · rintro ⟨_, rfl, _, ⟨blanks, hblank, rfl⟩, _, ⟨mark, prompt, hmark, hprompt, rfl⟩, _,
      ⟨trailing, htrailing, rfl⟩, _, rfl, rfl⟩
    exact ⟨blanks, mark, prompt, trailing, rfl, hmark, hprompt, hblank, htrailing⟩
  · rintro ⟨blanks, mark, prompt, trailing, rfl, hmark, hprompt, hblank, htrailing⟩
    exact ⟨_, rfl, _, ⟨blanks, hblank, rfl⟩, _, ⟨mark, prompt, hmark, hprompt, rfl⟩, _,
      ⟨trailing, htrailing, rfl⟩, _, rfl, rfl⟩

/-- The search finds a call exactly where the text reads as one. -/
theorem search_TOOL_CALL {text : Text} :
    (TOOL_CALL.search text).isSome = true ↔ CallsTool text := by
  rw [Regex.search_isSome]
  simp only [takes_TOOL_CALL]
  constructor
  · rintro ⟨front, _, rest, rfl, blanks, mark, prompt, trailing, rfl, hrest⟩
    exact ⟨front, blanks, mark, prompt, trailing, rest, rfl, hrest⟩
  · rintro ⟨front, blanks, mark, prompt, trailing, rest, rfl, hrest⟩
    exact ⟨front, _, rest, rfl, blanks, mark, prompt, trailing, rfl, hrest⟩

end ToolCalls

section Plans

/-- The text of a dictionary with subtasks. -/
structure PlanText (text : Text) (plan : Json) : Prop where
  bracketed : ∃ inner, text = '\x7b' :: inner ++ ['\x7d']
  document : JsonText.decode text = some plan
  subtasks : hasSubtasks plan = true

/-- Prose without braces. -/
def Braceless (prose : Text) : Prop := '\x7b' ∉ prose ∧ '\x7d' ∉ prose

/-- `execute` succeeds with the plan in this iteration, in which it asks nothing. -/
structure AcceptedAt (talk : Conversation) (index : ℕ) (plan : Json) : Prop where
  success : ∃ result, talk.outcome = .ok result ∧ result.success = true ∧
    result.output = .json plan
  last : talk.calls = index + 1
  silent : ∀ question ∈ talk.questions, question.1 ≠ index

variable {limits : Limits} {task : AgentTask} {dialogue : Dialogue}
  {before text behind : Text} {plan : Json} {left index : ℕ} {lastError : String}

/-- What `json.loads` and `json.dumps` make of a plan. -/
theorem PlanText.loads_eq (h : PlanText text plan) :
    limits.loads text = .ok plan ↔ limits.reading text = none ∧ limits.tooDeep plan = false := by
  unfold Limits.loads
  cases hlimit : limits.reading text with
  | some exc => simp
  | none =>
    cases hdeep : limits.tooDeep plan with
    | true => simp [h.document, h.subtasks, hdeep]
    | false => simp [h.document, hdeep]

/-- The text that is parsed is the one of the plan. -/
theorem PlanText.extract (h : PlanText text plan) (hbefore : Braceless before)
    (hbehind : Braceless behind) : extractJson (before ++ text ++ behind) = text := by
  obtain ⟨inner, rfl⟩ := h.bracketed
  exact extractJson_surrounded inner hbefore.1 hbehind.2

/-- A plan that can be read is accepted. -/
theorem PlanText.parsePlan_ok (h : PlanText text plan) (hbefore : Braceless before)
    (hbehind : Braceless behind) (hloads : limits.loads text = .ok plan) :
    parsePlan limits.loads (before ++ text ++ behind) = .ok { output := .json plan } := by
  have hne : text ≠ [] := by
    obtain ⟨inner, rfl⟩ := h.bracketed
    simp
  unfold parsePlan
  rw [h.extract hbefore hbehind, if_neg hne]
  simp [hloads, h.subtasks]

/-- Nothing is accepted but what `json.loads` returns. -/
theorem PlanText.loads_of_success (h : PlanText text plan) (hbefore : Braceless before)
    (hbehind : Braceless behind) {result : AgentResult}
    (hparse : parsePlan limits.loads (before ++ text ++ behind) = .ok result)
    (hsuccess : result.success = true) : limits.loads text = .ok plan := by
  have hne : text ≠ [] := by
    obtain ⟨inner, rfl⟩ := h.bracketed
    simp
  unfold parsePlan at hparse
  rw [h.extract hbefore hbehind, if_neg hne] at hparse
  cases hloads : limits.loads text with
  | error exc =>
    simp only [hloads] at hparse
    split at hparse
    · cases hparse
      cases hsuccess
    · cases hparse
  | ok value =>
    have hvalue : value = plan := by
      unfold Limits.loads at hloads
      cases hlimit : limits.reading text with
      | some exc => simp [hlimit] at hloads
      | none =>
        simp only [hlimit, h.document] at hloads
        split at hloads
        · cases hloads
        · exact (Except.ok.inj hloads).symm
    rw [hvalue]

/-- An iteration that finds a call asks the user. -/
theorem mem_questions_of_callsTool {output : Text} (houtput : dialogue.output index = .ok output)
    (hcall : CallsTool output) :
    ∃ prompt, (index, prompt) ∈
      (converse limits.loads task dialogue (left + 1) index lastError).questions := by
  obtain ⟨found, hsearch⟩ := Option.isSome_iff_exists.mp (search_TOOL_CALL.mpr hcall)
  refine ⟨found.group "prompt", ?_⟩
  rw [converse, turn]
  cases dialogue.reply index with
  | error exc => simp [houtput, hsearch, tagged]
  | ok line => simp [houtput, hsearch, tagged]

/-- An iteration that finds no call parses the output. -/
theorem turn_of_not_callsTool {loads : Text → Except PyExc Json} {output : Text}
    (houtput : dialogue.output index = .ok output) (hcall : ¬ CallsTool output) :
    turn loads task dialogue index lastError =
      match parsePlan loads output with
      | .error exc => .ends none (.error exc)
      | .ok result =>
        if result.success then .ends none (.ok (identified task { result with status := .succeeded }))
        else .goesOn none (result.errors.head?.getD "") := by
  have hsearch : TOOL_CALL.search output = none := by
    rw [← Option.not_isSome_iff_eq_none, search_TOOL_CALL]
    exact hcall
  simp only [turn, houtput, hsearch]

/-- Where iterations are left, the runtime is called. -/
theorem converse_calls_pos {loads : Text → Except PyExc Json} :
    0 < (converse loads task dialogue (left + 1) index lastError).calls := by
  rw [converse]
  split <;> exact Nat.succ_pos _

/-- The last iteration that succeeds has parsed what it returns. -/
theorem parsePlan_of_success {loads : Text → Except PyExc Json} {output : Text}
    {result : AgentResult} (houtput : dialogue.output index = .ok output)
    (hcall : ¬ CallsTool output)
    (hlast : (converse loads task dialogue (left + 1) index lastError).calls = 1)
    (hresult : (converse loads task dialogue (left + 1) index lastError).outcome = .ok result)
    (hsuccess : result.success = true) :
    ∃ parsed, parsePlan loads output = .ok parsed ∧ parsed.success = true := by
  have hturn : turn loads task dialogue index lastError = _ := turn_of_not_callsTool houtput hcall
  cases hparse : parsePlan loads output with
  | error exc =>
    simp only [hparse] at hturn
    simp only [converse, hturn] at hresult
    cases hresult
  | ok parsed =>
    by_cases hparsed : parsed.success = true
    · exact ⟨parsed, rfl, hparsed⟩
    · simp only [hparse, hparsed] at hturn
      rw [if_neg Bool.false_ne_true] at hturn
      simp only [converse, hturn] at hlast hresult
      cases left with
      | zero =>
        cases hresult
        cases hsuccess
      | succ left =>
        have hpos := @converse_calls_pos task dialogue left (index + 1)
          (parsed.errors.head?.getD "") loads
        omega

/-- One iteration accepts a plan exactly when it takes nothing in the output for a call of
the tool, and the interpreter can read and write the plan. -/
theorem converse_accepts (hplan : PlanText text plan) (hbefore : Braceless before)
    (hbehind : Braceless behind)
    (houtput : dialogue.output index = .ok (before ++ text ++ behind)) :
    ((∃ result, (converse limits.loads task dialogue (left + 1) index lastError).outcome =
        .ok result ∧ result.success = true ∧ result.output = .json plan) ∧
      (converse limits.loads task dialogue (left + 1) index lastError).calls = 1 ∧
      ∀ question ∈ (converse limits.loads task dialogue (left + 1) index lastError).questions,
        question.1 ≠ index) ↔
    ¬ CallsTool (before ++ text ++ behind) ∧ limits.reading text = none ∧
      limits.tooDeep plan = false := by
  constructor
  · rintro ⟨⟨result, hresult, hsuccess, -⟩, hlast, hsilent⟩
    have hcall : ¬ CallsTool (before ++ text ++ behind) := by
      intro hcall
      obtain ⟨prompt, hmem⟩ := @mem_questions_of_callsTool limits task dialogue left index
        lastError _ houtput hcall
      exact hsilent _ hmem rfl
    obtain ⟨parsed, hparse, hparsed⟩ :=
      parsePlan_of_success houtput hcall hlast hresult hsuccess
    have hloads := hplan.loads_of_success hbefore hbehind hparse hparsed
    exact ⟨hcall, hplan.loads_eq.mp hloads⟩
  · rintro ⟨hcall, hlimits⟩
    have hparse := hplan.parsePlan_ok hbefore hbehind (hplan.loads_eq.mpr hlimits)
    have hturn := @turn_of_not_callsTool task dialogue index lastError limits.loads _ houtput hcall
    simp only [hparse, if_true] at hturn
    simp only [converse, hturn]
    exact ⟨⟨_, rfl, rfl, rfl⟩, trivial, by simp [tagged]⟩

/-- The runtime is called at most once an iteration, and an iteration that is reached and
whose output is a plan within prose accepts it, without a question, exactly when nothing in
the output reads as a call of the tool and the interpreter can read and write the plan. -/
theorem conversation_accepts_iff (limits : Limits) (task : AgentTask) :
    (∀ dialogue, (conversation limits.loads task dialogue).calls ≤ MAX_ITERATIONS) ∧
    ∀ dialogue index before text behind plan, PlanText text plan → Braceless before →
      Braceless behind → dialogue.output index = .ok (before ++ text ++ behind) →
      index < (conversation limits.loads task dialogue).calls →
      (AcceptedAt (conversation limits.loads task dialogue) index plan ↔
        ¬ CallsTool (before ++ text ++ behind) ∧ limits.reading text = none ∧
          limits.tooDeep plan = false) := by
  refine ⟨fun dialogue => converse_calls_le _ _ _, ?_⟩
  intro dialogue index before text behind plan hplan hbefore hbehind houtput hreached
  obtain ⟨left, error, earlier, hcalls, houtcome, hquestions, hearlier⟩ :=
    converse_reached index hreached
  rw [Nat.zero_add] at hcalls houtcome hquestions hearlier
  rw [← @converse_accepts limits task dialogue before text behind plan left index error hplan
    hbefore hbehind houtput]
  constructor
  · intro haccepted
    obtain ⟨result, hresult, hsuccess, houtput⟩ := haccepted.success
    refine ⟨⟨result, houtcome.symm.trans hresult, hsuccess, houtput⟩, ?_, ?_⟩
    · have hlast := haccepted.last
      unfold conversation at hlast
      omega
    · intro question hmem
      have hall : question ∈ (conversation limits.loads task dialogue).questions := by
        unfold conversation
        rw [hquestions]
        exact List.mem_append_right _ hmem
      exact haccepted.silent question hall
  · rintro ⟨⟨result, hresult, hsuccess, houtput⟩, hlast, hsilent⟩
    refine ⟨⟨result, houtcome.trans hresult, hsuccess, houtput⟩, ?_, ?_⟩
    · unfold conversation
      omega
    · intro question hmem
      unfold conversation at hmem
      rw [hquestions] at hmem
      cases List.mem_append.mp hmem with
      | inl hmem => exact (hearlier question hmem).ne
      | inr hmem => exact hsilent question hmem

end Plans

section Examples

/-- A task for the planner. -/
def planTask : AgentTask := { taskId := "t1", description := "plan" }

/-- A plan without subtasks to do. -/
def emptyPlan : Text := "\x7b\"subtasks\": []\x7d".toList

/-- A plan whose subtask quotes the tool. -/
def quotingPlan : Text := "\x7b\"subtasks\": [\"call ask_user('x')\"]\x7d".toList

/-- A model that keeps answering with one text. -/
def keepsSaying (text : Text) : Dialogue := { output := fun _ => .ok text }

theorem planText_emptyPlan : PlanText emptyPlan (.obj [("subtasks", .arr [])]) :=
  ⟨⟨"\"subtasks\": []".toList, by decide⟩, rfl, rfl⟩

theorem planText_quotingPlan :
    PlanText quotingPlan (.obj [("subtasks", .arr [.str "call ask_user('x')"])]) :=
  ⟨⟨"\"subtasks\": [\"call ask_user('x')\"]".toList, by decide⟩, rfl, rfl⟩

/-- Prose around the empty plan. -/
def plainProse : Text := "Here it is: ".toList

/-- A plan within prose is accepted at once. -/
theorem emptyPlan_accepted :
    AcceptedAt (conversation ({} : Limits).loads planTask
      (keepsSaying (plainProse ++ emptyPlan ++ []))) 0 (.obj [("subtasks", .arr [])]) := by
  have hprose : Braceless plainProse := ⟨by decide, by decide⟩
  have hcall : ¬ CallsTool (plainProse ++ emptyPlan ++ []) := by
    rw [← search_TOOL_CALL]
    decide
  exact ((conversation_accepts_iff {} planTask).2
    (keepsSaying (plainProse ++ emptyPlan ++ [])) 0 plainProse emptyPlan [] _
    planText_emptyPlan hprose ⟨List.not_mem_nil, List.not_mem_nil⟩ rfl
    converse_calls_pos).mpr ⟨hcall, rfl, rfl⟩

/-- A plan that quotes the tool is never accepted: the user is asked what the plan quotes. -/
theorem quotingPlan_not_accepted :
    PlanText quotingPlan (.obj [("subtasks", .arr [.str "call ask_user('x')"])]) ∧
    0 < (conversation ({} : Limits).loads planTask
      (keepsSaying quotingPlan)).calls ∧
    ¬ AcceptedAt (conversation ({} : Limits).loads planTask
      (keepsSaying quotingPlan)) 0 (.obj [("subtasks", .arr [.str "call ask_user('x')"])]) := by
  have hquestions : (conversation ({} : Limits).loads planTask
      (keepsSaying quotingPlan)).questions = [(0, ['x']), (1, ['x']), (2, ['x'])] := by
    decide
  refine ⟨planText_quotingPlan, converse_calls_pos, fun haccepted => ?_⟩
  have hasked : (0, ['x']) ∈ (conversation ({} : Limits).loads planTask
      (keepsSaying quotingPlan)).questions := by
    rw [hquestions]
    exact List.mem_cons_self
  exact haccepted.silent _ hasked rfl

end Examples

end PlannerAgent

end AiosDeck.Agents
