import AiosDeck.Agents.Executor
import AiosDeck.Python.Regex

/-!
# The tester agent

Runs `pytest` under a target and reads counts off its output. What the
subprocesses do is the adversary's choice.
-/

namespace AiosDeck.Agents

open Python

/-- What one `subprocess.run` does. -/
inductive ProcessOutcome where
  | completed (returncode : ℤ) (stdout stderr : Text)
  /-- `OSError` or `subprocess.TimeoutExpired`, by its text. -/
  | failed (message : String)
  /-- Any other exception, such as undecodable output. -/
  | raised (exc : PyExc)

/-- Everything one attempt of the tester meets. -/
structure TestSession where
  /-- Text of `Path(target).expanduser()`. -/
  expand : String → Except PyExc String := .ok
  /-- `target_path.exists()`. -/
  found : Bool := true
  /-- `pytest --collect-only`. -/
  collect : ProcessOutcome
  /-- `pytest`. -/
  tests : ProcessOutcome
  /-- The executor gives up before the attempt ends. -/
  overrun : Bool := false

/-- The structured report of a run. -/
structure TestReport where
  target : String
  dryRun : Json
  status : String
  returncode : Option ℤ
  collected : ℕ
  passed : ℕ
  failed : ℕ
  errors : List String

/-- The report as a dictionary. -/
def TestReport.toJson (report : TestReport) : Json :=
  .obj
    [("target", .str report.target), ("dry_run", report.dryRun), ("status", .str report.status),
     ("returncode", (report.returncode.map fun n => Json.num (.int n)).getD .null),
     ("collected", .ofNat report.collected), ("passed", .ofNat report.passed),
     ("failed", .ofNat report.failed), ("errors", .arr (report.errors.map Json.str))]

namespace TesterAgent

/-- `TesterAgent`, as the executor addresses it. -/
def agent : Agent where
  name := "tester"
  metadata := { name := "tester", timeout := some (.float (.finite 180)) }
  capabilities := { permissions := ["filesystem_read", "shell"] }

/-- The number that a pattern captures, zero without a match. -/
def capturedCount (pattern : Regex) (output : Text) : Except PyExc ℕ :=
  match pattern.search output with
  | some found => parseDigits (found.group "count")
  | none => .ok 0

/-- `(\d+)`. -/
def countGroup : Regex := .capture "count" (.plus .digit)

/-- `_parse_collected`. -/
def parseCollected (output : Text) : Except PyExc ℕ :=
  capturedCount
    (.all [.literal "collected".toList, .plus .space, countGroup, .plus .space,
      .literal "item".toList]) output

/-- `_parse_count`. -/
def parseCount (output : Text) (label : Text) : Except PyExc ℕ :=
  capturedCount (.all [countGroup, .plus .space, .literal label]) output

/-- The label of passed tests. -/
def passedLabel : Text := "passed".toList

/-- The label of failed tests. -/
def failedLabel : Text := "failed".toList

/-- `_error_report`. -/
def errorReport (target : String) (dryRun : Json) (message : String) : TestReport :=
  { target, dryRun, status := "error", returncode := none, collected := 0, passed := 0, failed := 0
    errors := [message] }

/-- `_collect_count`. -/
def collectCount (session : TestSession) : Except PyExc ℕ :=
  match session.collect with
  | .completed _ stdout stderr => parseCollected (stdout ++ stderr)
  | .failed _ => .ok 0
  | .raised exc => .error exc

/-- The report of a completed `pytest`. -/
def completedReport (target : String) (collected : ℕ) (returncode : ℤ) (output : Text) :
    Except PyExc TestReport := do
  let passed ← parseCount output passedLabel
  let failed ← parseCount output failedLabel
  return {
    target, dryRun := .bool false, status := if returncode = 0 then "ok" else "failed"
    returncode := some returncode, collected, passed, failed
    errors :=
      if returncode = 0 then []
      else ((splitlines output).filter fun line => !(strip line).isEmpty).map String.ofList }

/-- `_run` on an existing target. -/
def runFound (session : TestSession) (target : String) (dryRun : Json) :
    Except PyExc TestReport := do
  let collected ← collectCount session
  if dryRun.truthy then
    return { target, dryRun := .bool true, status := "ok", returncode := some 0, collected
             passed := 0, failed := 0, errors := [] }
  else
    match session.tests with
    | .completed returncode stdout stderr =>
      completedReport target collected returncode (stdout ++ stderr)
    | .failed message => return errorReport target dryRun message
    | .raised exc => throw exc

/-- `_run`. -/
def runTarget (session : TestSession) (target : Json) (dryRun : Json) :
    Except PyExc TestReport :=
  match target with
  | .str path => do
    let expanded ← session.expand path
    if session.found then runFound session expanded dryRun
    else return errorReport expanded dryRun ("target not found: " ++ path)
  | _ => throw ⟨.typeError, "expected str, bytes or os.PathLike object"⟩

/-- A failure with its errors, as the agent answers it. -/
def failure (task : AgentTask) (errors : List String) (message : String) : AgentResult :=
  { success := false, errors, error := some ⟨RUNTIME_ERROR, message, false⟩
    errorCode := some RUNTIME_ERROR, status := .failed, agent := "tester", taskId := task.taskId
    correlationId := task.correlationId }

/-- The target of a task: its parameter, or its first file. -/
def taskTarget (task : AgentTask) : Option Json :=
  match task.params.lookup "target" with
  | none | some .null => task.files.head?.map Json.str
  | some target => some target

/-- The answer to a report: an error report becomes a result without output. -/
def answer (task : AgentTask) (report : TestReport) : AgentResult :=
  if report.status = "error" then
    let message := join "; " report.errors
    failure task report.errors (if message = "" then "Test run failed" else message)
  else
    { output := .json report.toJson, agent := "tester", taskId := task.taskId
      correlationId := task.correlationId }

/-- `TesterAgent.execute`. -/
def execute (session : TestSession) (task : AgentTask) : Except PyExc AgentResult :=
  match taskTarget task with
  | none => return failure task ["target is required"] "target is required"
  | some target => do
    let report ← runTarget session target ((task.params.lookup "dry_run").getD (.bool true))
    return answer task report

/-- One attempt of the tester, as the executor sees it. -/
def attempt (session : TestSession) (task : AgentTask) : Attempt :=
  if session.overrun then .timedOut
  else
    match execute session task with
    | .ok result => .returned result
    | .error exc => .raised exc

end TesterAgent

namespace TestSession

/-- `pytest` was started and ran to its end, within the time of the attempt. -/
structure Completes (session : TestSession) (path : String) (returncode : ℤ) (output : Text) :
    Prop where
  inTime : session.overrun = false
  expanded : ∃ target, session.expand path = .ok target
  found : session.found = true
  collected : ∃ n, TesterAgent.collectCount session = .ok n
  tests : ∃ stdout stderr, session.tests = .completed returncode stdout stderr ∧
    output = stdout ++ stderr

/-- The test process ran to completion with return code zero. -/
def Green (session : TestSession) (path : String) : Prop :=
  ∃ output, session.Completes path 0 output

/-- The test process failed, and its output counts at least one failed test. -/
def Red (session : TestSession) (path : String) : Prop :=
  ∃ returncode output, session.Completes path returncode output ∧
    (∃ n, TesterAgent.parseCount output TesterAgent.passedLabel = .ok n) ∧
    ∃ n, TesterAgent.parseCount output TesterAgent.failedLabel = .ok n ∧ 0 < n

/-- A counted failure is in the report that the agent prints. -/
theorem Red.returned {session : TestSession} {path : String} (h : session.Red path)
    (task : AgentTask) (htarget : task.params.lookup "target" = some (.str path))
    (hdry : task.params.lookup "dry_run" = some (.bool false)) :
    ∃ (report : TestReport) (result : AgentResult), 0 < report.failed ∧
      result.output = .json report.toJson ∧ TesterAgent.attempt session task = .returned result := by
  obtain ⟨returncode, output, hcompletes, ⟨passed, hpassed⟩, failed, hfailed, hpos⟩ := h
  obtain ⟨htime, ⟨target, hexpand⟩, hfound, ⟨collected, hcollected⟩, stdout, stderr, htests, rfl⟩ :=
    hcompletes
  let report : TestReport :=
    { target, dryRun := .bool false, status := if returncode = 0 then "ok" else "failed"
      returncode := some returncode, collected, passed, failed
      errors :=
        if returncode = 0 then []
        else ((splitlines (stdout ++ stderr)).filter fun line => !(strip line).isEmpty).map
          String.ofList }
  have hreport : TesterAgent.completedReport target collected returncode (stdout ++ stderr) =
      .ok report := by
    unfold TesterAgent.completedReport
    rw [hpassed, hfailed]
    rfl
  have hrun : TesterAgent.runTarget session (.str path) (.bool false) = .ok report := by
    simp only [TesterAgent.runTarget, hexpand, bind, Except.bind, hfound, if_true,
      TesterAgent.runFound, hcollected, Json.truthy, Bool.false_eq_true, if_false, htests]
    exact hreport
  have hstatus : report.status ≠ "error" := by
    dsimp only [report]
    split <;> decide
  have htask : TesterAgent.taskTarget task = some (.str path) := by
    simp only [TesterAgent.taskTarget, htarget]
  have hexecute : TesterAgent.execute session task = .ok (TesterAgent.answer task report) := by
    simp only [TesterAgent.execute, htask, hdry, Option.getD_some, hrun, bind, Except.bind]
    rfl
  refine ⟨report, TesterAgent.answer task report, hpos, ?_, ?_⟩
  · simp only [TesterAgent.answer, if_neg hstatus]
  · simp only [TesterAgent.attempt, htime, Bool.false_eq_true, if_false, hexecute]

end TestSession

end AiosDeck.Agents
