import AiosDeck.Learning.Models
import AiosDeck.Python.Sha256

/-!
# Extraction and review rules

What an event yields as observations, which observations become candidates,
and what the rules-based advisor recommends.
-/

namespace AiosDeck.Learning

open Python

/-- `dedupe_hash`. -/
def dedupeHash (content : String) : Text := sha256 (strip content.toList)

/-- `dedupe_hash(content)`, where only a string can be stripped. -/
def contentHash : Json → Except PyExc (String × Text)
  | .str content => .ok (content, dedupeHash content)
  | _ => .error ⟨.attributeError, "object has no attribute 'strip'"⟩

/-- `mapping.get(key, default)` with string keys. -/
def getOr {α : Type} (mapping : List (String × α)) (key : Json) (default : α) : Except PyExc α :=
  match key with
  | .str name => .ok ((mapping.lookup name).getD default)
  | .arr _ => .error ⟨.typeError, "unhashable type: 'list'"⟩
  | .obj _ => .error ⟨.typeError, "unhashable type: 'dict'"⟩
  | _ => .ok default

/-- `map_severity_to_risk`. -/
def mapSeverityToRisk (severity : Json) : Except PyExc RiskLevel :=
  getOr [("critical", .critical), ("high", .high), ("medium", .medium), ("low", .low)] severity .low

/-- `confidence_from_gate_severity`. -/
def confidenceFromGateSeverity (severity : Json) : Except PyExc PyFloat :=
  getOr [("critical", decimal (9 / 10)), ("high", decimal (7 / 10)), ("medium", decimal (5 / 10)),
    ("low", decimal (3 / 10))] severity (decimal (3 / 10))

/-- `map_gate_finding_to_type`. -/
def mapGateFindingToType : Json → CandidateType
  | .str "high" | .str "critical" => .mistake
  | _ => .pattern

/-- `payload.get(key, default)`. -/
def field (payload : List (String × Json)) (key : String) (default : Json) : Json :=
  (payload.lookup key).getD default

/-- `value or []`. -/
def orEmpty (value : Json) : Json := if value.truthy then value else .arr []

/-- The observation of one finding of a gate, unless it says nothing. -/
def gateObservation (payload : List (String × Json)) (finding : Json) :
    Except PyExc (Option ObservationRecord) := do
  let severity ← finding.getD "severity" (.str "low")
  let detail ← finding.getD "detail" .null
  let title ← finding.getD "title" (.str "")
  let content := if detail.truthy then detail else title
  if !content.truthy then return none
  let sourceId ← finding.getD "id" (.str "")
  let shown ← finding.getD "detail" (.str "")
  let confidence ← confidenceFromGateSeverity severity
  let riskLevel ← mapSeverityToRisk severity
  let (content, dedupeHash) ← contentHash content
  return some
    { sourceExecutionId := field payload "correlation_id" (.str "")
      sourceEvent := (field payload "source_event" (.str "quality.gate_failed")).text
      sourceId, content
      suggestedType := mapGateFindingToType severity
      evidenceRefs := [.obj [("source_event", .str "quality.gate_failed"), ("source_id", sourceId),
        ("severity", severity), ("detail", shown)]]
      confidence := .float confidence
      riskLevel, dedupeHash }

/-- The records that there are. -/
def collect {α : Type} (items : List (Option α)) : List α := items.filterMap id

/-- `extract_from_quality_event`. -/
def extractFromQualityEvent (payload : List (String × Json)) :
    Except PyExc (List ObservationRecord) := do
  let findings ← match orEmpty (field payload "findings" (.arr [])) with
    | .obj _ => pure []
    | findings => findings.iter
  return collect (← findings.mapM (gateObservation payload))

/-- `map_candidate_kind_to_type`. -/
def mapCandidateKindToType (kind : Json) : Except PyExc CandidateType :=
  getOr [("convention", .convention), ("decision", .decision), ("pattern", .pattern),
    ("mistake", .mistake), ("dependency-note", .architectureNote)] kind .pattern

/-- `value < x`, where only a number or a boolean compares with a float. -/
def ltFloat (value : Json) (x : PyFloat) : Except PyExc (PyNum × Bool) :=
  match value with
  | .num n => .ok (n, n.ltFloat x)
  | .bool b => .ok (.int (if b then 1 else 0), (PyNum.int (if b then 1 else 0)).ltFloat x)
  | _ => .error ⟨.typeError, "'<' not supported between instances"⟩

/-- The observation of one memory candidate of a research. -/
def researchObservation (payload : List (String × Json)) (position : ℕ) (candidate : Json) :
    Except PyExc (Option ObservationRecord) := do
  let content ← candidate.getD "content" (.str "")
  if !content.truthy then return none
  let kind ← candidate.getD "kind" (.str "pattern")
  let suggestedType ← mapCandidateKindToType kind
  let value ← candidate.getD "confidence" (.num (.float (decimal (1 / 2))))
  let (confidence, below) ← ltFloat value (decimal (7 / 10))
  let reason ← candidate.getD "reason" (.str "")
  let (content, dedupeHash) ← contentHash content
  return some
    { sourceExecutionId := field payload "correlation_id" (.str "")
      sourceEvent := "research.completed"
      sourceId := .str ("research-candidate-" ++ toString (position + 1))
      content, suggestedType
      evidenceRefs := [.obj [("source_event", .str "research.completed"), ("source_id", kind),
        ("confidence", value), ("detail", reason)]]
      confidence
      riskLevel := if below then .medium else .low
      dedupeHash }

/-- `extract_from_research_event`. -/
def extractFromResearchEvent (payload : List (String × Json)) :
    Except PyExc (List ObservationRecord) := do
  let candidates ← (orEmpty (field payload "memory_candidates" (.arr []))).iter
  return collect (← candidates.zipIdx.mapM fun entry => researchObservation payload entry.2 entry.1)

/-- The confidence in an error that has been seen so often. -/
def recurrenceConfidence (recurrenceCount : ℕ) (recurrenceThreshold : ℤ) : PyFloat :=
  if recurrenceThreshold ≤ recurrenceCount then
    let raised := double (double (6 / 10) + double (double (1 / 10) * (recurrenceCount - 2)))
    .finite (min raised (double (9 / 10)))
  else decimal (6 / 10)

/-- The observation of one error, the position of which counts those before it. -/
def failureObservation (payload : List (String × Json)) (confidence : PyFloat) (position : ℕ)
    (error : Json) : ObservationRecord where
  sourceExecutionId := field payload "correlation_id" (.str "")
  sourceEvent := "agent.execution.failed"
  sourceId := .str ("agent-error-" ++ toString (position + 1))
  content := error.text
  suggestedType := .mistake
  evidenceRefs := [.obj [("source_event", .str "agent.execution.failed"),
    ("source_id", .str "agent-execution"), ("severity", .str "high"), ("detail", .str error.text)]]
  confidence := .float confidence
  riskLevel := .high
  dedupeHash := dedupeHash error.text

/-- `extract_from_agent_failure`. -/
def extractFromAgentFailure (payload : List (String × Json)) (recurrenceCount : ℕ)
    (recurrenceThreshold : ℤ) : Except PyExc (List ObservationRecord) := do
  let errors ← match field payload "errors" (.arr []) with
    | .str error => pure [.str error]
    | errors => errors.iter
  let confidence := recurrenceConfidence recurrenceCount recurrenceThreshold
  return (errors.filter Json.truthy).zipIdx.map fun entry =>
    failureObservation payload confidence entry.2 entry.1

/-- `create_candidate_from_observation`: whether the observation is one. -/
def isCandidate (observation : ObservationRow) (confidenceThreshold : PyFloat) (minEvidence : ℤ) :
    Bool :=
  !observation.evidenceRefs.isEmpty && decide (minEvidence ≤ observation.evidenceRefs.length) &&
    !observation.confidence.lt confidenceThreshold

/-- `ReviewDecision`. -/
structure ReviewDecision where
  recommendation : String
  justification : String
  deriving DecidableEq

/-- `RulesAdvisor.name`. -/
abbrev advisorName : String := "rules-advisor"

/-- `default_review_logic`. -/
def defaultReviewLogic (candidate : CandidateRow) (confidenceThreshold : PyFloat) :
    ReviewDecision :=
  let shown := "confidence=" ++ formatTwo candidate.confidence ++ "; risk=" ++
    candidate.riskLevel.name ++ "; type=" ++ candidate.suggestedType.name
  if candidate.riskLevel ∈ [RiskLevel.high, .critical] ∨
      candidate.suggestedType ∈ [CandidateType.decision, .architectureNote, .dependencyNote] then
    ⟨"needs_human", shown ++ " → needs_human"⟩
  else if confidenceThreshold.le candidate.confidence then ⟨"approve", shown ++ " → approve"⟩
  else ⟨"reject", shown ++ " → reject (below threshold)"⟩

end AiosDeck.Learning
