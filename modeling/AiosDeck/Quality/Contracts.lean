import AiosDeck.Python.Text

/-!
# Quality gate contracts

The canonical types of the quality pipeline. The workflow sees a gate only
through the result it returns, or the exception or timeout it ends with.
-/

namespace AiosDeck.Quality

open Python

/-- `GateStatus`. -/
inductive GateStatus where
  | passed
  | failed
  | skipped
  | error
  deriving DecidableEq, Repr

/-- `Severity`. -/
inductive Severity where
  | low
  | medium
  | high
  | critical
  deriving DecidableEq, Repr

/-- `GateStatus.value`. -/
def GateStatus.value : GateStatus → String
  | .passed => "passed"
  | .failed => "failed"
  | .skipped => "skipped"
  | .error => "error"

/-- `Severity.value`. -/
def Severity.value : Severity → String
  | .low => "low"
  | .medium => "medium"
  | .high => "high"
  | .critical => "critical"

/-- A severity of a finding: canonical, or a plain label. -/
inductive SeverityLabel where
  | canonical (severity : Severity)
  | text (label : String)
  deriving DecidableEq, Repr

/-- What a gate may inspect. -/
structure GateInput where
  projectPath : Option String := none
  files : List String := []
  testReport : Option Json := none

structure GateFinding where
  id : String
  title : String
  detail : String := ""
  severity : SeverityLabel := .canonical .medium
  category : String := ""
  evidence : String := ""
  deriving DecidableEq, Repr

/-- Structured gate outcome. -/
structure GateResult where
  status : GateStatus
  reason : String := ""
  findings : List GateFinding := []
  metadata : List (String × Json) := []

/-- `GateFinding.to_dict`: a plain label has no `value`. -/
def GateFinding.toDict (finding : GateFinding) : Except PyExc Json :=
  match finding.severity with
  | .canonical severity => .ok (.obj
      [("id", .str finding.id), ("title", .str finding.title), ("detail", .str finding.detail),
       ("severity", .str severity.value), ("category", .str finding.category),
       ("evidence", .str finding.evidence)])
  | .text _ => .error ⟨.attributeError, "'str' object has no attribute 'value'"⟩

/-- `GateResult.to_dict`. -/
def GateResult.toDict (result : GateResult) : Except PyExc Json := do
  let findings ← result.findings.mapM GateFinding.toDict
  return .obj
    [("status", .str result.status.value), ("reason", .str result.reason),
     ("findings", .arr findings), ("metadata", .obj result.metadata)]

/-- The severity of a finding that can be serialized is canonical. -/
theorem GateFinding.toDict_ok {finding : GateFinding} {serialized : Json}
    (h : finding.toDict = .ok serialized) :
    ∃ severity, finding.severity = .canonical severity := by
  unfold GateFinding.toDict at h
  cases hs : finding.severity with
  | canonical severity => exact ⟨severity, rfl⟩
  | text label => simp [hs] at h

/-- When a list of findings is serialized, every severity is canonical. -/
theorem findings_canonical {findings : List GateFinding} {serialized : List Json}
    (h : findings.mapM GateFinding.toDict = .ok serialized) :
    ∀ finding ∈ findings, ∃ severity, finding.severity = .canonical severity := by
  induction findings generalizing serialized with
  | nil => exact fun _ hmem => nomatch hmem
  | cons first rest ih =>
    rw [List.mapM_cons] at h
    cases hfirst : first.toDict with
    | error exc => simp [hfirst, bind, Except.bind] at h
    | ok head =>
      cases hrest : rest.mapM GateFinding.toDict with
      | error exc => simp [hfirst, hrest, bind, Except.bind] at h
      | ok tail =>
        intro finding hmem
        rcases List.mem_cons.mp hmem with rfl | hmem
        · exact GateFinding.toDict_ok hfirst
        · exact ih hrest finding hmem

/-- When a result is serialized, every severity is canonical. -/
theorem GateResult.toDict_canonical {result : GateResult} {serialized : Json}
    (h : result.toDict = .ok serialized) :
    ∀ finding ∈ result.findings, ∃ severity, finding.severity = .canonical severity := by
  unfold GateResult.toDict at h
  cases hfindings : result.findings.mapM GateFinding.toDict with
  | error exc => simp [hfindings, bind, Except.bind] at h
  | ok items => exact findings_canonical hfindings

/-- A result without findings can be serialized. -/
theorem GateResult.toDict_nil {result : GateResult} (h : result.findings = []) :
    ∃ serialized, result.toDict = .ok serialized := by
  unfold GateResult.toDict
  rw [h]
  exact ⟨_, rfl⟩

/-- What awaiting a gate gives the workflow. -/
inductive GateEvaluation where
  | returned (result : GateResult)
  | raised (exc : PyExc)
  /-- No result within the timeout. -/
  | timedOut

end AiosDeck.Quality
