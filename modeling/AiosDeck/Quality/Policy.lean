import AiosDeck.Quality.Contracts

/-!
# Quality gate policy

Resolution of a gate's findings against the severities that its environment
blocks, and the overrides that lift a block.
-/

namespace AiosDeck.Quality

open Python

/-- `GateDecision`. -/
inductive GateDecision where
  | block
  | pass
  | warn
  deriving DecidableEq, Repr

/-- `GateDecision.value`. -/
def GateDecision.value : GateDecision → String
  | .block => "block"
  | .pass => "pass"
  | .warn => "warn"

/-- Labels of `Severity`, in rank order: the keys of `_SEVERITY_RANK`. -/
def severityLabels : List String := ["low", "medium", "high", "critical"]

/-- `DEFAULT_POLICY`. -/
def DEFAULT_POLICY : List (String × List String) :=
  [("dev", ["critical", "high"]), ("release", ["critical", "high", "medium"])]

/-- An override that lifts a block for one gate and environment. -/
inductive GateOverride where
  /-- A `GateOverride` object. -/
  | record (gate environment reason : String)
  /-- A dictionary; each of its texts may be absent. -/
  | dict (gate environment reason : Option String)
  deriving DecidableEq, Repr

/-- Whether the override names this gate and environment. -/
def GateOverride.appliesTo (override : GateOverride) (gate environment : String) : Bool :=
  match override with
  | .record gate' environment' _ => gate' = gate ∧ environment' = environment
  | .dict gate' environment' _ => gate' = some gate ∧ environment' = some environment

/-- The reason an override gives. -/
def GateOverride.reason : GateOverride → String
  | .record _ _ reason => reason
  | .dict _ _ reason => reason.getD ""

/-- Outcome of resolving a gate's findings against a policy. -/
structure DecisionResult where
  decision : GateDecision
  gate : String
  environment : String
  findings : List (String × ℕ) := []
  overridden : Bool := false
  overrideReason : String := ""
  reason : String := ""
  deriving DecidableEq, Repr

/-- `DecisionResult.blocks`. -/
def DecisionResult.blocks (result : DecisionResult) : Bool :=
  result.decision = .block ∧ result.overridden = false

/-- `DecisionResult.to_dict`. -/
def DecisionResult.toDict (result : DecisionResult) : Json :=
  .obj
    [("decision", .str result.decision.value), ("gate", .str result.gate),
     ("environment", .str result.environment),
     ("findings", .obj (result.findings.map fun entry => (entry.1, Json.ofNat entry.2))),
     ("overridden", .bool result.overridden), ("override_reason", .str result.overrideReason),
     ("reason", .str result.reason)]

/-- Label of one severity, lowered when it is plain text. -/
def severityLabel : SeverityLabel → String
  | .canonical severity => severity.value
  | .text label => String.ofList (label.toList.map Char.toLower)

/-- `_normalize`: unknown labels are dropped. -/
def normalize (severities : List SeverityLabel) : List String :=
  (severities.map severityLabel).filter fun label => label ∈ severityLabels

/-- `_counts`. -/
def counts (labels : List String) : List (String × ℕ) :=
  severityLabels.map fun label => (label, labels.count label)

/-- `_find_override_reason`: the first override that matches decides. -/
def findOverrideReason (gate environment : String) (overrides : List GateOverride) : String :=
  match overrides.find? fun override => override.appliesTo gate environment with
  | some override => override.reason
  | none => ""

/-- `(policy or DEFAULT_POLICY).get(environment)`. -/
def environmentPolicy (policy : List (String × List String)) (environment : String) :
    Option (List String) :=
  (if policy.isEmpty then DEFAULT_POLICY else policy).lookup environment

/-- The decision before overrides. -/
def baseDecision (normalized : List String) (envPolicy : Option (List String)) : GateDecision :=
  match envPolicy with
  | none => if normalized.isEmpty then .pass else .block
  | some blockSet =>
    if normalized.isEmpty then .pass
    else if normalized.any fun label => label ∈ blockSet then .block
    else .warn

/-- The reason given with the decision before overrides. -/
def baseReason (normalized : List String) (envPolicy : Option (List String))
    (environment : String) : String :=
  match envPolicy with
  | none =>
    if normalized.isEmpty then "no findings"
    else "no policy for environment '" ++ environment ++ "'; fail-safe block"
  | some blockSet =>
    if normalized.isEmpty then "no findings"
    else if normalized.any fun label => label ∈ blockSet then
      "blocking severity: " ++ join ", "
        (((counts normalized).filter fun entry => entry.2 ≠ 0 ∧ entry.1 ∈ blockSet).map Prod.fst)
    else "findings below block threshold for environment"

/-- `resolve_decision`. No policy and no overrides are empty lists. -/
def resolveDecision (severities : List SeverityLabel) (gate environment : String)
    (policy : List (String × List String)) (overrides : List GateOverride) : DecisionResult :=
  let normalized := normalize severities
  let envPolicy := environmentPolicy policy environment
  let result : DecisionResult :=
    { decision := baseDecision normalized envPolicy, gate, environment
      findings := counts normalized
      reason := baseReason normalized envPolicy environment }
  let overrideReason := findOverrideReason gate environment overrides
  if overrideReason ≠ "" ∧ result.decision = .block then
    { result with
      decision := .pass, overridden := true, overrideReason
      reason := "overridden: " ++ overrideReason }
  else result

/-- The result blocks exactly when the findings do and the first matching
override gives no reason. -/
theorem resolveDecision_blocks (severities : List SeverityLabel) (gate environment : String)
    (policy : List (String × List String)) (overrides : List GateOverride) :
    (resolveDecision severities gate environment policy overrides).blocks = true ↔
      baseDecision (normalize severities) (environmentPolicy policy environment) = .block ∧
        findOverrideReason gate environment overrides = "" := by
  by_cases hreason : findOverrideReason gate environment overrides = ""
  · simp [resolveDecision, hreason, DecisionResult.blocks]
  · by_cases hblock : baseDecision (normalize severities) (environmentPolicy policy environment) =
      .block
    · simp [resolveDecision, hreason, hblock, DecisionResult.blocks]
    · simp [resolveDecision, hblock, DecisionResult.blocks]

/-- Without overrides the decision is the one on the findings. -/
theorem resolveDecision_nil (severities : List SeverityLabel) (gate environment : String)
    (policy : List (String × List String)) :
    (resolveDecision severities gate environment policy []).decision =
      baseDecision (normalize severities) (environmentPolicy policy environment) := by
  simp [resolveDecision, findOverrideReason]

/-- A reason can only come from an override that applies. -/
theorem findOverrideReason_eq_empty {gate environment : String} {overrides : List GateOverride}
    (h : ∀ override ∈ overrides, override.appliesTo gate environment = false) :
    findOverrideReason gate environment overrides = "" := by
  have hnone : (overrides.find? fun override => override.appliesTo gate environment) = none := by
    refine List.find?_eq_none.mpr fun override hmem => ?_
    simp [h override hmem]
  simp [findOverrideReason, hnone]

/-- Without a recognised severity nothing blocks. -/
theorem baseDecision_nil (envPolicy : Option (List String)) :
    baseDecision [] envPolicy = .pass := by
  cases envPolicy <;> rfl

end AiosDeck.Quality
