import AiosDeck.Learning.Extractor
import AiosDeck.Storage.Script

/-!
# The learning engine

Observations are drafts, candidates are scored proposals. A candidate is
approved or rejected with a review, and an approved one is ingested into the
memory of the project. Each call reads the state of the candidate, tests it,
and writes the new state and the review as statements of their own.
-/

namespace AiosDeck.Learning

open Python Memory Storage

/-- `RuntimeError`. -/
def runtimeError (message : String) : PyExc := ⟨.runtimeError, message⟩

/-- Whether the memory engine has a store, and the exception that its next
write raises. -/
structure MemoryEngine where
  initialized : Bool := true
  fault : Option PyExc := none

/-- A learning engine with an open store. -/
structure LearningEngine where
  projectId : String
  memory : Option MemoryEngine := some {}
  confidenceThreshold : PyFloat := decimal (1 / 2)
  minEvidence : ℤ := 1
  recurrenceThreshold : ℤ := 2
  enabled : Bool := true
  errorCounts : List (String × ℕ) := []
  /-- The time at which the tables get one more row. -/
  clock : ℕ → String := fun _ => ""

/-- What a parameter of a text column is bound as; `NULL` equals nothing. -/
def boundText : Json → Except PyExc (Option String)
  | .null => .ok none
  | .bool b => .ok (some (if b then "1" else "0"))
  | .num (.int n) =>
    if -2 ^ 63 ≤ n ∧ n < 2 ^ 63 then .ok (some (toString n))
    else .error ⟨.overflowError, "Python int too large to convert to SQLite INTEGER"⟩
  | .num (.float .nan) => .ok none
  | .num (.float x) => .ok (some (Json.numText (.float x)))
  | .str content => .ok (some content)
  | .arr _ => .error ⟨.sqliteInterface, "Error binding parameter: type 'list' is not supported"⟩
  | .obj _ => .error ⟨.sqliteInterface, "Error binding parameter: type 'dict' is not supported"⟩

/-- What a parameter of a column of reals is stored as. -/
def boundReal : PyNum → Except PyExc (Option PyFloat)
  | .int n =>
    if -2 ^ 63 ≤ n ∧ n < 2 ^ 63 then .ok (some (.finite (double n)))
    else .error ⟨.overflowError, "Python int too large to convert to SQLite INTEGER"⟩
  | .float .nan => .ok none
  | .float x => .ok (some x)

/-- A column declared `NOT NULL`. -/
def notNull {α : Type} (column : String) : Option α → Except PyExc α
  | some value => .ok value
  | none => .error ⟨.sqliteIntegrity, "NOT NULL constraint failed: learning_observations." ++ column⟩

namespace LearningEngine

/-- A program of the engine. -/
abbrev Call (α : Type) := Script Db α

variable (engine : LearningEngine)

section Store

/-- `_now`. -/
def now (db : Db) : String := engine.clock db.size

/-- The row that an observation is stored as. -/
def observationRow (observation : ObservationRecord) (db : Db) : Except PyExc ObservationRow := do
  let sourceExecutionId ← boundText observation.sourceExecutionId
  let sourceId ← boundText observation.sourceId
  let confidence ← boundReal observation.confidence
  return {
    id := nextId ObservationRow.id db.observations
    sourceExecutionId := ← notNull "source_execution_id" sourceExecutionId
    sourceEvent := observation.sourceEvent
    sourceId := ← notNull "source_id" sourceId
    content := observation.content
    suggestedType := observation.suggestedType
    evidenceRefs := observation.evidenceRefs
    confidence := ← notNull "confidence" confidence
    riskLevel := observation.riskLevel
    dedupeHash := observation.dedupeHash
    projectId := engine.projectId
    createdAt := engine.now db }

/-- `insert_observation`. -/
def insertObservation (observation : ObservationRecord) : Call ℤ :=
  .change (fun db => do
    let row ← engine.observationRow observation db
    return { db with observations := db.observations ++ [row] })
    fun db => (db.observations.getLast?.map ObservationRow.id).getD 0

/-- `find_observation_by_source`; an unsupported parameter counts as a failed
query. -/
def findObservationBySource (sourceExecutionId sourceId : Json) : Call (Option ObservationRow) :=
  match boundText sourceExecutionId, boundText sourceId with
  | .ok execution, .ok source => .select (fun db => db.observations.find? fun row =>
      some row.sourceExecutionId = execution ∧ some row.sourceId = source ∧
        row.projectId = engine.projectId) none
  | .error exc, _ | _, .error exc => if exc.isSqlite then .select (fun _ => none) none else throw exc

/-- `get_observation`. -/
def getObservation (observationId : ℤ) : Call (Option ObservationRow) :=
  .select (fun db => db.observations.find? fun row =>
    row.id = observationId ∧ row.projectId = engine.projectId) none

/-- `list_observations_by_state("draft")`, latest first. -/
def draftObservations : Call (List ObservationRow) :=
  .select (fun db => (db.observations.filter fun row => row.projectId = engine.projectId).insertionSort
    fun a b => b.createdAt ≤ a.createdAt) []

/-- The row of the candidate that an observation gives. -/
def candidateRow (observation : ObservationRow) (db : Db) : CandidateRow where
  id := nextId CandidateRow.id db.candidates
  observationId := observation.id
  content := observation.content
  suggestedType := observation.suggestedType
  confidence := observation.confidence
  riskLevel := observation.riskLevel
  evidenceRefs := observation.evidenceRefs
  dedupeHash := observation.dedupeHash
  state := .scored
  ingestVersion := 0
  ingestedMemoryId := ""
  projectId := engine.projectId
  createdAt := engine.now db

/-- `insert_candidate`. -/
def insertCandidate (observation : ObservationRow) : Call ℤ :=
  .change (fun db => .ok { db with candidates := db.candidates ++ [engine.candidateRow observation db] })
    fun db => (db.candidates.getLast?.map CandidateRow.id).getD 0

/-- `find_candidate_by_hash`: any candidate with the hash that is not
rejected. -/
def findCandidateByHash (dedupeHash : Text) : Call (Option CandidateRow) :=
  .select (fun db => db.candidates.find? fun row => row.dedupeHash = dedupeHash ∧
    row.projectId = engine.projectId ∧ row.state ≠ .rejected) none

/-- A candidate of the project, by its id. -/
def candidate (candidateId : ℤ) (db : Db) : Option CandidateRow :=
  db.candidates.find? fun row => row.id = candidateId ∧ row.projectId = engine.projectId

/-- `get_candidate`. -/
def getCandidate (candidateId : ℤ) : Call (Option CandidateRow) :=
  .select (engine.candidate candidateId) none

/-- The tables after an update of a candidate. -/
def updated (candidateId : ℤ) (update : CandidateRow → CandidateRow) (db : Db) : Db :=
  { db with candidates := db.candidates.map fun row =>
      if row.id = candidateId ∧ row.projectId = engine.projectId then update row else row }

/-- `update_candidate_state`. -/
def updateCandidate (candidateId : ℤ) (update : CandidateRow → CandidateRow) : Call Unit :=
  .change (fun db => .ok (engine.updated candidateId update db)) fun _ => ()

/-- The fields of a review that its caller chooses. -/
structure Review where
  advisor : String
  recommendation : String
  justification : String
  reviewer : String
  decision : Decision
  reason : String

/-- The row of a review. -/
def reviewRow (candidateId : ℤ) (review : Review) (db : Db) : ReviewRow where
  id := nextId ReviewRow.id db.reviews
  candidateId := candidateId
  advisor := review.advisor
  recommendation := review.recommendation
  justification := review.justification
  reviewer := review.reviewer
  decision := review.decision
  reason := review.reason
  createdAt := engine.now db

/-- The tables with one more review. -/
def reviewed (candidateId : ℤ) (review : Review) (db : Db) : Db :=
  { db with reviews := db.reviews ++ [engine.reviewRow candidateId review db] }

/-- `insert_review`. -/
def insertReview (candidateId : ℤ) (review : Review) : Call ℤ :=
  .change (fun db => .ok (engine.reviewed candidateId review db))
    fun db => (db.reviews.getLast?.map ReviewRow.id).getD 0

end Store

section Observe

/-- `payload_with_source`. -/
def withSource (sourceEvent : String) (payload : List (String × Json)) : List (String × Json) :=
  ("source_event", .str sourceEvent) :: payload.filter fun entry => entry.1 ≠ "source_event"

/-- `payload.get("error", "") or payload.get("errors", ["unknown"])[0]`, as text. -/
def errorKey (payload : List (String × Json)) : Except PyExc String :=
  let error := field payload "error" (.str "")
  if error.truthy then .ok error.text
  else
    match field payload "errors" (.arr [.str "unknown"]) with
    | .arr (first :: _) => .ok first.text
    | .arr [] => .error ⟨.indexError, "list index out of range"⟩
    | .str content =>
      match content.toList with
      | first :: _ => .ok (String.singleton first)
      | [] => .error ⟨.indexError, "string index out of range"⟩
    | .obj _ => .error ⟨.keyError, "0"⟩
    | _ => .error ⟨.typeError, "object is not subscriptable"⟩

/-- How often an error has been seen, this time included. -/
def errorCount (key : String) : ℕ := (engine.errorCounts.lookup key).getD 0 + 1

/-- The observations of an event. -/
def observations (sourceEvent : String) (payload : List (String × Json)) :
    Except PyExc (List ObservationRecord) :=
  if "quality.gate_".toList.isPrefixOf sourceEvent.toList then extractFromQualityEvent payload
  else if sourceEvent = "research.completed" then extractFromResearchEvent payload
  else if sourceEvent = "agent.execution.failed" then do
    let key ← errorKey payload
    extractFromAgentFailure payload (engine.errorCount key) engine.recurrenceThreshold
  else .ok []

/-- The loop of `observe`. -/
def recordObservations : List ObservationRecord → Call (List ℤ)
  | [] => return []
  | observation :: rest => do
    match ← engine.findObservationBySource observation.sourceExecutionId observation.sourceId with
    | some _ => recordObservations rest
    | none =>
      let observationId ← engine.insertObservation observation
      let others ← recordObservations rest
      return observationId :: others

/-- `observe`. -/
def observe (sourceEvent : String) (payload : List (String × Json)) : Call (List ℤ) :=
  if engine.enabled then
    match engine.observations sourceEvent (withSource sourceEvent payload) with
    | .ok observations => engine.recordObservations observations
    | .error exc => throw exc
  else return []

/-- The engine after it has observed an event. -/
def observed (sourceEvent : String) (payload : List (String × Json)) : LearningEngine :=
  if engine.enabled ∧ sourceEvent = "agent.execution.failed" then
    match errorKey (withSource sourceEvent payload) with
    | .ok key => { engine with errorCounts :=
        (key, engine.errorCount key) :: engine.errorCounts.filter fun entry => entry.1 ≠ key }
    | .error _ => engine
  else engine

end Observe

section Extract

/-- The loop of `extract`. -/
def extractCandidates : List ObservationRow → Call (List ℤ)
  | [] => return []
  | observation :: rest =>
    if isCandidate observation engine.confidenceThreshold engine.minEvidence then do
      match ← engine.findCandidateByHash observation.dedupeHash with
      | some _ => extractCandidates rest
      | none =>
        let candidateId ← engine.insertCandidate observation
        let others ← extractCandidates rest
        return candidateId :: others
    else extractCandidates rest

/-- `extract`. -/
def extract (observationId : Option ℤ) : Call (List ℤ) := do
  match observationId with
  | some observationId =>
    let observation ← engine.getObservation observationId
    engine.extractCandidates observation.toList
  | none =>
    let observations ← engine.draftObservations
    engine.extractCandidates observations

end Extract

section Govern

/-- Update the state of a candidate and record the review of it. -/
def settle (candidateId : ℤ) (update : CandidateRow → CandidateRow) (review : Review) : Call ℤ := do
  engine.updateCandidate candidateId update
  engine.insertReview candidateId review

/-- The candidate, if it is not settled yet. -/
def openCandidate (verb : String) (candidateId : ℤ) : Call CandidateRow := do
  match ← engine.getCandidate candidateId with
  | none => throw (runtimeError ("Candidate " ++ toString candidateId ++ " not found"))
  | some candidate =>
    if candidate.state ∈ [CandidateState.approved, .rejected, .ingested] then
      throw (runtimeError ("Cannot " ++ verb ++ " candidate in state '" ++ candidate.state.name ++ "'"))
    else return candidate

/-- The part that `approve` and `reject` share. -/
def rule (verb : String) (candidateId : ℤ) (state : CandidateState)
    (review : CandidateRow → Review) : Call ℤ := do
  let candidate ← engine.openCandidate verb candidateId
  engine.settle candidateId (fun row => { row with state }) (review candidate)

/-- The review that `approve` records. -/
def approval (reviewer reason : String) (candidate : CandidateRow) : Review :=
  let decision := defaultReviewLogic candidate engine.confidenceThreshold
  ⟨advisorName, decision.recommendation, decision.justification, reviewer, .approve,
    if reason = "" then decision.justification else reason⟩

/-- The review that `reject` records. -/
def rejection (reason reviewer : String) (candidate : CandidateRow) : Review :=
  let decision := defaultReviewLogic candidate engine.confidenceThreshold
  ⟨advisorName, decision.recommendation, decision.justification, reviewer, .reject, reason⟩

/-- `approve`. -/
def approve (candidateId : ℤ) (reviewer reason : String) : Call ℤ :=
  engine.rule "approve" candidateId .approved (engine.approval reviewer reason)

/-- `reject`. -/
def reject (candidateId : ℤ) (reason reviewer : String) : Call ℤ :=
  if reason = "" then throw (runtimeError "Reason is required to reject a candidate")
  else engine.rule "reject" candidateId .rejected (engine.rejection reason reviewer)

/-- The first line of a content, at most 100 characters of it. -/
def firstLine (content : String) : String :=
  String.ofList ((strip (content.toList.takeWhile (· ≠ '\n'))).take 100)

/-- The id that `_write_to_memory` makes up. -/
def memoryId (kind content : String) : String :=
  kind ++ ":" ++ String.ofList ((firstLine content).toList.take 50)

/-- The memory with a candidate written to it. -/
def remembered (candidate : CandidateRow) (memories : Memories) : Memories :=
  let source := "learning:candidate:" ++ toString candidate.id
  let firstLine := firstLine candidate.content
  match candidate.suggestedType with
  | .convention =>
    memories.upsertConvention engine.projectId candidate.content "learning" source
  | .decision | .architectureNote | .dependencyNote =>
    memories.addDecision engine.projectId firstLine source candidate.content ""
  | .pattern => memories.addPattern engine.projectId firstLine candidate.content
  | .mistake =>
    memories.addMistake engine.projectId candidate.content "learning" candidate.riskLevel.name

/-- The kind of entry that a candidate is written as. -/
def memoryKind : CandidateType → String
  | .convention => "convention"
  | .decision | .architectureNote | .dependencyNote => "decision"
  | .pattern => "pattern"
  | .mistake => "mistake"

/-- `remember_convention`, `remember_decision`, `remember_pattern` and
`remember_mistake`: without a store nothing is written. -/
def remember (memory : MemoryEngine) (candidate : CandidateRow) : Call Unit :=
  if memory.initialized then
    .change (fun db =>
      match memory.fault with
      | some exc => .error exc
      | none => .ok { db with memories := engine.remembered candidate db.memories }) fun _ => ()
  else return ()

/-- `_write_to_memory`; every exception is turned into an id. -/
def writeToMemory (memory : MemoryEngine) (candidate : CandidateRow) : Call String :=
  tryCatch (do
    engine.remember memory candidate
    return memoryId (memoryKind candidate.suggestedType) candidate.content)
    fun exc => return "error:" ++ exc.message

/-- What `ingest` writes to the row of a candidate. -/
def ingested (candidate : CandidateRow) (memoryId : String) (row : CandidateRow) : CandidateRow :=
  { row with
    state := .ingested
    ingestVersion := candidate.ingestVersion + 1
    ingestedMemoryId := memoryId }

/-- The review that `ingest` records. -/
def ingestion (candidate : CandidateRow) (memoryId : String) : Review :=
  ⟨"engine", "ingest", "Ingested into memory as " ++ memoryId, "engine", .ingested,
    "version " ++ toString (candidate.ingestVersion + 1) ++ " → " ++ memoryId⟩

/-- `ingest`. -/
def ingest (candidateId : ℤ) : Call ℕ := do
  match ← engine.getCandidate candidateId with
  | none => throw (runtimeError ("Candidate " ++ toString candidateId ++ " not found"))
  | some candidate =>
    if candidate.state ≠ .approved then
      throw (runtimeError ("Candidate " ++ toString candidateId ++ " must be approved (current: " ++
        candidate.state.name ++ ")"))
    match engine.memory with
    | none => throw (runtimeError "Memory engine not available; cannot ingest")
    | some memory =>
      let memoryId ← engine.writeToMemory memory candidate
      let _ ← engine.settle candidateId (ingested candidate memoryId) (ingestion candidate memoryId)
      return candidate.ingestVersion + 1

end Govern

end LearningEngine

end AiosDeck.Learning
