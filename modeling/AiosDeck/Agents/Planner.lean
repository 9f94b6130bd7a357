import AiosDeck.Agents.Models
import AiosDeck.Python.Regex

/-!
# The planner

What the planner makes of the output of the model: a tool call, a plan, or
an error that the model is told. A plan is accepted when it is a dictionary
with subtasks, whatever these are.
-/

namespace AiosDeck.Agents

open Python

namespace PlannerAgent

/-- `PlannerAgent.max_iterations`. -/
def MAX_ITERATIONS : ℕ := 3

/-- A text between two quotes `mark`, with no newline. -/
def quotedPrompt (mark : Char) : Regex :=
  Regex.all [Regex.char mark, .capture "prompt" (.star false Regex.dot), Regex.char mark]

/-- `_TOOL_CALL_RE`. -/
def TOOL_CALL : Regex :=
  Regex.all [Regex.literal "ask_user(".toList, .star true Regex.space,
    .alt (quotedPrompt '\'') (quotedPrompt '"'), .star true Regex.space, Regex.char ')']

/-- The model and the user, by what they answer in each iteration. -/
structure Dialogue where
  /-- Output of the runtime, or the exception it raises. -/
  output : ℕ → Except PyExc Text
  /-- The line that the user types, or the exception of `input`. -/
  reply : ℕ → Except PyExc Text := fun _ => .ok []

/-- `_extract_json`: from the first opening brace to the last closing one. -/
def extractJson (text : Text) : Text :=
  match text.findIdx? (· == '\x7b'), text.reverse.findIdx? (· == '\x7d') with
  | some start, some back =>
    let stop := text.length - 1 - back
    if stop ≤ start then [] else (text.take (stop + 1)).drop start
  | _, _ => []

/-- A result that tells the model what was wrong. -/
def rejected (message : String) : AgentResult :=
  { success := false, errors := [message], error := some ⟨RUNTIME_ERROR, message, false⟩
    errorCode := some RUNTIME_ERROR }

/-- `isinstance(plan, dict) and "subtasks" in plan`. -/
def hasSubtasks : Json → Bool
  | .obj fields => (fields.lookup "subtasks").isSome
  | _ => false

section Parse

variable (loads : Text → Except PyExc Json)

/-- `_parse_plan`; `loads` is `json.loads`. -/
def parsePlan (output : Text) : Except PyExc AgentResult :=
  if extractJson output = [] then .ok (rejected "Model output contains no JSON object")
  else
    match loads (extractJson output) with
    | .error exc =>
      if exc.cls = .jsonDecodeError then
        .ok (rejected ("Model returned invalid JSON: " ++ exc.message))
      else .error exc
    | .ok plan =>
      if hasSubtasks plan then .ok { output := .json plan }
      else .ok (rejected "Model output missing required field: \"subtasks\"")

/-- The plan that `_parse_plan` accepts this output as. -/
def Accepts (output : Text) (plan : Json) : Prop :=
  ∃ result, parsePlan loads output = .ok result ∧ result.success = true ∧
    result.output = .json plan

/-- Identity of the task on a result. -/
def identified (task : AgentTask) (result : AgentResult) : AgentResult :=
  { result with agent := "planner", taskId := task.taskId, correlationId := task.correlationId }

/-- `PlannerAgent.execute` from its iteration `index` on. The transcript only
feeds the prompts, and the last error ends up in the final message. -/
def reason (task : AgentTask) (dialogue : Dialogue) :
    ℕ → ℕ → String → Except PyExc AgentResult
  | 0, _, lastError =>
    .ok (identified task
      { rejected ("Exceeded max iterations: " ++ lastError) with status := .failed })
  | left + 1, index, lastError => do
    let output ← dialogue.output index
    match TOOL_CALL.search output with
    | some _ =>
      let _ ← dialogue.reply index
      reason task dialogue left (index + 1) lastError
    | none =>
      let result ← parsePlan loads output
      if result.success then return identified task { result with status := .succeeded }
      else reason task dialogue left (index + 1) (result.errors.head?.getD "")

/-- `PlannerAgent.execute`. -/
def execute (task : AgentTask) (dialogue : Dialogue) : Except PyExc AgentResult :=
  reason loads task dialogue MAX_ITERATIONS 0 "Model failed to produce a valid plan"

variable {loads}

/-- An accepted plan is a dictionary with subtasks. -/
theorem Accepts.subtasks {output : Text} {plan : Json} (h : Accepts loads output plan) :
    ∃ fields subtasks, plan = .obj fields ∧ fields.lookup "subtasks" = some subtasks := by
  obtain ⟨result, hparse, hsuccess, houtput⟩ := h
  unfold parsePlan at hparse
  split at hparse
  · cases hparse
    cases hsuccess
  · cases hloads : loads (extractJson output) with
    | error exc =>
      simp only [hloads] at hparse
      split at hparse
      · cases hparse
        cases hsuccess
      · cases hparse
    | ok parsed =>
      simp only [hloads] at hparse
      split at hparse
      · rename_i hsubtasks
        cases hparse
        have heq : parsed = plan := Output.json.inj houtput
        subst heq
        cases parsed with
        | obj fields =>
          obtain ⟨subtasks, hlookup⟩ := Option.isSome_iff_exists.mp hsubtasks
          exact ⟨fields, subtasks, rfl, hlookup⟩
        | _ => cases hsubtasks
      · cases hparse
        cases hsuccess

/-- A successful result of `_parse_plan` carries the accepted plan. -/
theorem parsePlan_success {output : Text} {result : AgentResult}
    (h : parsePlan loads output = .ok result) (hsuccess : result.success = true) :
    ∃ plan, result.output = .json plan ∧ Accepts loads output plan := by
  have hplan : ∃ plan, result.output = .json plan := by
    have hparse := h
    unfold parsePlan at hparse
    split at hparse
    · cases hparse
      cases hsuccess
    · split at hparse
      · split at hparse
        · cases hparse
          cases hsuccess
        · cases hparse
      · split at hparse
        · cases hparse
          exact ⟨_, rfl⟩
        · cases hparse
          cases hsuccess
  obtain ⟨plan, houtput⟩ := hplan
  exact ⟨plan, houtput, result, h, hsuccess, houtput⟩

/-- A planner that succeeds hands on a plan accepted from the model. -/
theorem execute_success {task : AgentTask} {dialogue : Dialogue} {result : AgentResult}
    (h : execute loads task dialogue = .ok result) (hsuccess : result.success = true) :
    ∃ index output plan, dialogue.output index = .ok output ∧ result.output = .json plan ∧
      Accepts loads output plan := by
  have hreason : ∀ left index lastError, reason loads task dialogue left index lastError = .ok result →
      ∃ index output plan, dialogue.output index = .ok output ∧ result.output = .json plan ∧
        Accepts loads output plan := by
    intro left
    induction left with
    | zero =>
      intro index lastError hrun
      cases hrun
      cases hsuccess
    | succ left ih =>
      intro index lastError hrun
      rw [reason] at hrun
      cases houtput : dialogue.output index with
      | error exc => simp [houtput, bind, Except.bind] at hrun
      | ok output =>
        simp only [houtput, bind, Except.bind] at hrun
        split at hrun
        · cases hreply : dialogue.reply index with
          | error exc => simp [hreply] at hrun
          | ok line =>
            simp only [hreply] at hrun
            exact ih _ _ hrun
        · cases hparse : parsePlan loads output with
          | error exc => simp [hparse] at hrun
          | ok parsed =>
            simp only [hparse] at hrun
            split at hrun
            · rename_i haccepted
              obtain ⟨plan, hplan, haccepts⟩ := parsePlan_success hparse haccepted
              cases hrun
              exact ⟨index, output, plan, houtput, hplan, haccepts⟩
            · exact ih _ _ hrun
  exact hreason _ _ _ h

end Parse

end PlannerAgent

end AiosDeck.Agents
