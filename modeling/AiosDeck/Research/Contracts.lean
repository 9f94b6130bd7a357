import Mathlib
import AiosDeck.Python.Floats
import AiosDeck.Python.Lines

/-!
# The contract of the researcher

Research tasks and results, and the validation of a result: every finding refers to a
source, identities are unique, and numbers are bounded.
-/

namespace AiosDeck.Research

open Python

/-- `VALID_SCOPES`. -/
def VALID_SCOPES : List String := ["repo", "docs", "web", "mixed"]

/-- `VALID_SOURCE_TYPES`. -/
def VALID_SOURCE_TYPES : List String := ["doc", "spec", "api", "blog", "adr", "code"]

/-- `VALID_STATUSES`. -/
def VALID_STATUSES : List String := ["ok", "partial", "source_unavailable", "error"]

/-- `VALID_PRIORITIES`. -/
def VALID_PRIORITIES : List String := ["high", "medium", "low"]

/-- `VALID_CANDIDATE_KINDS`. -/
def VALID_CANDIDATE_KINDS : List String :=
  ["convention", "decision", "pattern", "mistake", "dependency-note"]

section Models

/-- `ResearchTask`. -/
structure ResearchTask where
  question : Text
  scope : String := "mixed"
  constraints : Json := .obj []
  contextPacket : Json := .obj []

/-- `ResearchSource`. -/
structure ResearchSource where
  id : String
  title : Text
  url : Text
  type : String := "doc"
  retrievedAt : String := ""
  trustScore : PyFloat := decimal (1 / 2)
  snippet : Text := []
  tags : List String := []

/-- `Finding`. -/
structure Finding where
  id : String
  claim : Text
  evidenceSourceIds : List String
  confidence : PyFloat := decimal (1 / 2)
  appliesTo : String := ""
  tags : List String := []

/-- `Recommendation`. -/
structure Recommendation where
  action : String
  rationale : String
  risk : String := "low"
  priority : String := "medium"
  sourceIds : List String := []

/-- `MemoryCandidate`. -/
structure MemoryCandidate where
  kind : String
  content : Text
  reason : String := ""
  confidence : PyFloat := decimal (1 / 2)
  tags : List String := []

/-- `ResearchResult`. -/
structure ResearchResult where
  task : ResearchTask
  status : String := "ok"
  summaryShort : String := ""
  sources : List ResearchSource := []
  findings : List Finding := []
  confidenceOverall : PyFloat := .finite 0
  recommendations : List Recommendation := []
  memoryCandidates : List MemoryCandidate := []
  error : String := ""

/-- A text as JSON. -/
def textJson (text : Text) : Json := .str (String.ofList text)

/-- A list of texts as JSON. -/
def namesJson (names : List String) : Json := .arr (names.map Json.str)

/-- `dict(value)`; lists of pairs are left out. -/
def dictOf : Json → Except PyExc Json
  | .obj fields => .ok (.obj fields)
  | .arr [] | .str "" => .ok (.obj [])
  | _ => .error ⟨.typeError, "object is not iterable"⟩

/-- `ResearchTask.to_dict`. -/
def ResearchTask.toDict (task : ResearchTask) : Except PyExc Json := do
  let constraints ← dictOf task.constraints
  let contextPacket ← dictOf task.contextPacket
  return .obj [("question", textJson task.question), ("scope", .str task.scope),
    ("constraints", constraints), ("context_packet", contextPacket)]

/-- `ResearchSource.to_dict`. -/
def ResearchSource.toDict (source : ResearchSource) : Json :=
  .obj [("id", .str source.id), ("title", textJson source.title), ("url", textJson source.url),
    ("type", .str source.type), ("retrieved_at", .str source.retrievedAt),
    ("trust_score", .num (.float source.trustScore)), ("snippet", textJson source.snippet),
    ("tags", namesJson source.tags)]

/-- `Finding.to_dict`. -/
def Finding.toDict (finding : Finding) : Json :=
  .obj [("id", .str finding.id), ("claim", textJson finding.claim),
    ("evidence_source_ids", namesJson finding.evidenceSourceIds),
    ("confidence", .num (.float finding.confidence)), ("applies_to", .str finding.appliesTo),
    ("tags", namesJson finding.tags)]

/-- `Recommendation.to_dict`. -/
def Recommendation.toDict (recommendation : Recommendation) : Json :=
  .obj [("action", .str recommendation.action), ("rationale", .str recommendation.rationale),
    ("risk", .str recommendation.risk), ("priority", .str recommendation.priority),
    ("source_ids", namesJson recommendation.sourceIds)]

/-- `MemoryCandidate.to_dict`. -/
def MemoryCandidate.toDict (candidate : MemoryCandidate) : Json :=
  .obj [("kind", .str candidate.kind), ("content", textJson candidate.content),
    ("reason", .str candidate.reason), ("confidence", .num (.float candidate.confidence)),
    ("tags", namesJson candidate.tags)]

/-- `ResearchResult.to_dict`. -/
def ResearchResult.toDict (result : ResearchResult) : Except PyExc Json := do
  let task ← result.task.toDict
  return .obj [("task", task), ("status", .str result.status),
    ("summary_short", .str result.summaryShort),
    ("sources", .arr (result.sources.map ResearchSource.toDict)),
    ("findings", .arr (result.findings.map Finding.toDict)),
    ("confidence_overall", .num (.float result.confidenceOverall)),
    ("recommendations", .arr (result.recommendations.map Recommendation.toDict)),
    ("memory_candidates", .arr (result.memoryCandidates.map MemoryCandidate.toDict)),
    ("error", .str result.error)]

end Models

section Schema

/-- `SUMMARY_LIMIT`. -/
def SUMMARY_LIMIT : ℕ := 140

/-- An error, unless the condition holds. -/
def require (holds : Bool) (error : String) : List String := if holds then [] else [error]

@[simp] theorem require_eq_nil {holds : Bool} {error : String} :
    require holds error = [] ↔ holds = true := by
  cases holds <;> simp [require]

/-- `text.strip()` is not empty. -/
def filled (text : Text) : Bool := !text.all isSpace

/-- `0.0 <= x <= 1.0`. -/
def inUnit (x : PyFloat) : Bool := PyFloat.le (.finite 0) x && x.le (.finite 1)

/-- `validate_research_task`. -/
def validateResearchTask (task : ResearchTask) : List String :=
  require (filled task.question) "question is required" ++
  require (task.scope ∈ VALID_SCOPES) ("scope must be one of " ++ join ", " VALID_SCOPES)

/-- `_validate_sources`, with the identities seen. -/
def validateSources (seen : List String) : List ResearchSource → List String
  | [] => []
  | source :: rest =>
    require (source.id ∉ seen) ("duplicate source id: " ++ source.id) ++
    require (filled source.url) ("source " ++ source.id ++ ": url is required") ++
    require (source.type ∈ VALID_SOURCE_TYPES)
      ("source " ++ source.id ++ ": type must be one of " ++ join ", " VALID_SOURCE_TYPES) ++
    require (inUnit source.trustScore)
      ("source " ++ source.id ++ ": trust_score must be between 0.0 and 1.0") ++
    validateSources (source.id :: seen) rest

/-- `_validate_findings`, with the identities seen. -/
def validateFindings (sourceIds : List String) (seen : List String) : List Finding → List String
  | [] => []
  | finding :: rest =>
    require (finding.id ∉ seen) ("duplicate finding id: " ++ finding.id) ++
    require (filled finding.claim) ("finding " ++ finding.id ++ ": claim is required") ++
    require (finding.evidenceSourceIds ≠ [])
      ("finding " ++ finding.id ++ ": requires at least one evidence source") ++
    (finding.evidenceSourceIds.flatMap fun sid => require (sid ∈ sourceIds)
      ("finding " ++ finding.id ++ ": unknown evidence source id: " ++ sid)) ++
    require (inUnit finding.confidence)
      ("finding " ++ finding.id ++ ": confidence must be between 0.0 and 1.0") ++
    validateFindings sourceIds (finding.id :: seen) rest

/-- The errors of one recommendation. -/
def validateRecommendation (sourceIds : List String) (recommendation : Recommendation) :
    List String :=
  require (filled recommendation.action.toList) "recommendation: action is required" ++
  require (filled recommendation.rationale.toList)
    ("recommendation '" ++ recommendation.action ++ "': rationale is required") ++
  require (recommendation.priority ∈ VALID_PRIORITIES)
    ("recommendation '" ++ recommendation.action ++ "': priority must be one of " ++
      join ", " VALID_PRIORITIES) ++
  recommendation.sourceIds.flatMap fun sid => require (sid ∈ sourceIds)
    ("recommendation '" ++ recommendation.action ++ "': unknown source id: " ++ sid)

/-- The errors of one memory candidate. -/
def validateMemoryCandidate (candidate : MemoryCandidate) : List String :=
  require (candidate.kind ∈ VALID_CANDIDATE_KINDS)
    ("memory candidate '" ++ String.ofList candidate.content ++ "': kind must be one of " ++
      join ", " VALID_CANDIDATE_KINDS) ++
  require (filled candidate.content) "memory candidate: content is required" ++
  require (inUnit candidate.confidence)
    ("memory candidate '" ++ String.ofList candidate.content ++
      "': confidence must be between 0.0 and 1.0")

/-- `validate_research_result`. -/
def validateResearchResult (result : ResearchResult) : List String :=
  validateResearchTask result.task ++
  require (result.status ∈ VALID_STATUSES) ("status must be one of " ++ join ", " VALID_STATUSES) ++
  require (result.summaryShort.length ≤ SUMMARY_LIMIT)
    ("summary_short exceeds " ++ toString SUMMARY_LIMIT ++ " characters") ++
  require (inUnit result.confidenceOverall) "confidence_overall must be between 0.0 and 1.0" ++
  validateSources [] result.sources ++
  validateFindings (result.sources.map ResearchSource.id) [] result.findings ++
  result.recommendations.flatMap
    (validateRecommendation (result.sources.map ResearchSource.id)) ++
  result.memoryCandidates.flatMap validateMemoryCandidate

end Schema

section Validity

/-- What the validation asks of a source. -/
structure ResearchSource.Valid (source : ResearchSource) : Prop where
  url : filled source.url = true
  type : source.type ∈ VALID_SOURCE_TYPES
  trustScore : inUnit source.trustScore = true

/-- What the validation asks of a finding. -/
structure Finding.Valid (sourceIds : List String) (finding : Finding) : Prop where
  claim : filled finding.claim = true
  evidence : finding.evidenceSourceIds ≠ []
  known : ∀ sid ∈ finding.evidenceSourceIds, sid ∈ sourceIds
  confidence : inUnit finding.confidence = true

/-- Identities that are new and all different. -/
theorem nodup_seen_cons {id : String} {ids seen : List String} :
    (id ∉ seen ∧ ids.Nodup ∧ ∀ other ∈ ids, other ∉ id :: seen) ↔
      (id :: ids).Nodup ∧ ∀ other ∈ id :: ids, other ∉ seen := by
  constructor
  · rintro ⟨hid, hnodup, hfresh⟩
    refine ⟨List.nodup_cons.mpr ⟨fun hmem => ?_, hnodup⟩, fun other hmem => ?_⟩
    · exact hfresh id hmem List.mem_cons_self
    · cases List.mem_cons.mp hmem with
      | inl heq => exact heq ▸ hid
      | inr hmem => exact fun hseen => hfresh other hmem (List.mem_cons_of_mem id hseen)
  · rintro ⟨hnodup, hfresh⟩
    obtain ⟨hnew, hnodup⟩ := List.nodup_cons.mp hnodup
    refine ⟨hfresh id List.mem_cons_self, hnodup, fun other hmem hseen => ?_⟩
    cases List.mem_cons.mp hseen with
    | inl heq => exact hnew (heq ▸ hmem)
    | inr hseen => exact hfresh other (List.mem_cons_of_mem id hmem) hseen

/-- The sources are valid exactly when each of them is and no identity comes twice. -/
theorem validateSources_eq_nil {sources : List ResearchSource} {seen : List String} :
    validateSources seen sources = [] ↔
      (∀ source ∈ sources, source.Valid) ∧ (sources.map ResearchSource.id).Nodup ∧
        ∀ id ∈ sources.map ResearchSource.id, id ∉ seen := by
  induction sources generalizing seen with
  | nil => simp [validateSources]
  | cons source rest ih =>
    have hvalid : source.Valid ↔ filled source.url = true ∧ source.type ∈ VALID_SOURCE_TYPES ∧
        inUnit source.trustScore = true :=
      ⟨fun h => ⟨h.url, h.type, h.trustScore⟩, fun ⟨hurl, htype, htrust⟩ => ⟨hurl, htype, htrust⟩⟩
    rw [validateSources, List.map_cons, ← nodup_seen_cons]
    simp only [List.append_eq_nil_iff, require_eq_nil, decide_eq_true_eq, ih, List.forall_mem_cons,
      hvalid]
    tauto

/-- The findings are valid exactly when each of them is and no identity comes twice. -/
theorem validateFindings_eq_nil {sourceIds : List String} {findings : List Finding}
    {seen : List String} :
    validateFindings sourceIds seen findings = [] ↔
      (∀ finding ∈ findings, finding.Valid sourceIds) ∧ (findings.map Finding.id).Nodup ∧
        ∀ id ∈ findings.map Finding.id, id ∉ seen := by
  induction findings generalizing seen with
  | nil => simp [validateFindings]
  | cons finding rest ih =>
    have hvalid : finding.Valid sourceIds ↔ filled finding.claim = true ∧
        finding.evidenceSourceIds ≠ [] ∧ (∀ sid ∈ finding.evidenceSourceIds, sid ∈ sourceIds) ∧
        inUnit finding.confidence = true :=
      ⟨fun h => ⟨h.claim, h.evidence, h.known, h.confidence⟩,
        fun ⟨hclaim, hevidence, hknown, hconfidence⟩ => ⟨hclaim, hevidence, hknown, hconfidence⟩⟩
    rw [validateFindings, List.map_cons, ← nodup_seen_cons]
    simp only [List.append_eq_nil_iff, require_eq_nil, decide_eq_true_eq, ih, List.forall_mem_cons,
      hvalid, List.flatMap_eq_nil_iff]
    tauto

end Validity

end AiosDeck.Research
