import AiosDeck.Python.Regex
import AiosDeck.Quality.Contracts

/-!
# Concrete gates

The gates whose verdict is computed here: the code gate from what `ruff`
prints and returns, the test gate from the tester's report, and the release
gate that always skips.
-/

namespace AiosDeck.Quality

open Python

namespace CodeGate

/-- `[A-Z]`. -/
def upper : Regex := .chars fun c => 'A' ≤ c ∧ c ≤ 'Z'

/-- `_LINT_LINE_RE`: path, line, column, rule code, message. -/
def lintLineRe : Regex :=
  .all
    [.capture "path" (.seq .dot (.star false .dot)), .char ':',
     .capture "line" (.plus .digit), .char ':',
     .capture "col" (.plus .digit), .literal [':', ' '],
     .capture "code" (.all [upper, .optional (.seq upper (.optional upper)), .plus .digit]),
     .optional (.all [.literal [' ', '['], .plus (.chars (· != ']')), .char ']']),
     .char ' ', .capture "msg" (.star true .dot), .textEnd]

/-- `_REFORMAT_RE`, whose letters ignore case. -/
def reformatRe : Regex :=
  .all ("would reformat:".toList.map fun c => .chars fun d => d.toLower == c)

/-- `_severity_for_rule`: Pyflakes rules are errors, the rest is style. -/
def severityForRule (code : Text) : Severity :=
  if code.head? = some 'F' then .high else .medium

/-- The first text, or the second when the first is empty. -/
def orElse (first second : Text) : String :=
  String.ofList (if first.isEmpty then second else first)

/-- The finding of one line of `ruff check`, when the line has its shape. -/
def lintFinding (line : Text) : Option GateFinding :=
  match lintLineRe.match? line with
  | none => none
  | some found =>
    let code := found.group "code"
    some
      { id := String.ofList code
        title := orElse (strip (found.group "msg")) code
        severity := .canonical (severityForRule code)
        detail := String.ofList line
        category := "lint"
        evidence := String.ofList (found.group "path" ++ [':'] ++ found.group "line") }

/-- The finding of one line of `ruff format --check`. -/
def formatFinding (line : Text) : Option GateFinding :=
  match reformatRe.match? line with
  | none => none
  | some _ => some
      { id := "RUF-FMT"
        title := "file would be reformatted by ruff format"
        severity := .canonical .medium
        detail := String.ofList line
        category := "format"
        evidence := orElse (strip (afterFirst ':' line)) line }

/-- `_parse_ruff_check`. -/
def parseRuffCheck (output : Text) : List GateFinding := (splitlines output).filterMap lintFinding

/-- `_parse_ruff_format`. -/
def parseRuffFormat (output : Text) : List GateFinding :=
  (splitlines output).filterMap formatFinding

/-- What `run_cmd` gives: return code and output, or an exception. -/
abbrev CmdOutcome := Except PyExc (ℤ × Text)

/-- `OSError` with its subclasses, and `subprocess.SubprocessError`. -/
def cannotRun (exc : PyExc) : Bool :=
  exc.cls = .osError ∨ exc.cls = .permissionError ∨ exc.cls = .timeoutError ∨
    exc.cls = .user "SubprocessError"

/-- The two commands in order; the second runs only after the first. -/
def commands (check format : CmdOutcome) : Except PyExc ((ℤ × Text) × (ℤ × Text)) := do
  let checked ← check
  let formatted ← format
  return (checked, formatted)

/-- What Python prints for `-m ruff` when there is no such module. -/
def missingModule : Text := "No module named".toList

/-- The verdict on the return codes and outputs of the two commands. -/
def verdict (checkRc : ℤ) (checkOut : Text) (formatRc : ℤ) (formatOut : Text) : GateResult :=
  if checkRc ≠ 0 ∧ missingModule <:+: checkOut then
    { status := .error, reason := "ruff is not installed" }
  else
    let findings := parseRuffCheck checkOut ++ parseRuffFormat formatOut
    if checkRc = 0 ∧ formatRc = 0 then
      { status := .passed, reason := "ruff check and format clean"
        metadata := [("lint_issues", Json.ofNat (parseRuffCheck checkOut).length)] }
    else
      { status := .failed, reason := toString findings.length ++ " lint/format issue(s)"
        findings }

/-- `CodeGate.run`, given the Python files found and the two commands. -/
def run (pythonFiles : List String) (check format : CmdOutcome) : GateEvaluation :=
  if pythonFiles.isEmpty then
    .returned { status := .skipped, reason := "no python files to check" }
  else
    match commands check format with
    | .error exc =>
      if cannotRun exc then
        .returned { status := .error, reason := "cannot run ruff: " ++ exc.message }
      else .raised exc
    | .ok ((checkRc, checkOut), (formatRc, formatOut)) =>
      .returned (verdict checkRc checkOut formatRc formatOut)

end CodeGate

namespace TestGate

/-- `TestGate.run` on the report, which is a dictionary or absent. -/
def verdict (report : Option Json) : Except PyExc GateResult := do
  match report with
  | none => return { status := .skipped, reason := "no test report" }
  | some given =>
    let report := if given.truthy then given else .obj []
    match ← report.getD "status" .null with
    | .str "error" =>
      let errors ← report.getD "errors" .null
      let items ← (if errors.truthy then errors else .arr []).iter
      return {
        status := .error, reason := "test run errored"
        findings := items.zipIdx.map fun entry =>
          { id := "test-error-" ++ toString entry.2, title := entry.1.text
            severity := .canonical .high, category := "test-error", evidence := entry.1.text } }
    | _ =>
      let failed ← report.getD "failed" (.ofNat 0)
      let passed ← report.getD "passed" (.ofNat 0)
      if failed.eqZero then
        return {
          status := .passed, reason := passed.text ++ " test(s) passed"
          metadata := [("passed", passed), ("collected", ← report.getD "collected" (.ofNat 0))] }
      else
        return {
          status := .failed, reason := failed.text ++ " test(s) failed"
          findings :=
            [{ id := "test-failures", title := failed.text ++ " test(s) failed"
               severity := .canonical .high, category := "test-failure"
               evidence := failed.text }] }

/-- `TestGate.run`. -/
def run (input : GateInput) : GateEvaluation :=
  match verdict input.testReport with
  | .ok result => .returned result
  | .error exc => .raised exc

end TestGate

/-- `ReleaseGate.run`: a placeholder that is always skipped. -/
def ReleaseGate.run (_ : GateInput) : GateEvaluation :=
  .returned { status := .skipped, reason := "release gate not implemented" }

end AiosDeck.Quality
