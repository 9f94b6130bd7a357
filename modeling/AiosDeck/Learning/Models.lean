import AiosDeck.Memory.Store
import AiosDeck.Python.Floats

/-!
# Observations, candidates and reviews

The tables of learning governance, in the database that also holds the
memory of the project. Rows are never deleted, so that the next id follows
the largest one.
-/

namespace AiosDeck.Learning

open Python Memory

/-- `CandidateState`. -/
inductive CandidateState where
  | draft
  | scored
  | approved
  | rejected
  | ingested
  deriving DecidableEq, Repr

def CandidateState.name : CandidateState → String
  | draft => "draft"
  | scored => "scored"
  | approved => "approved"
  | rejected => "rejected"
  | ingested => "ingested"

/-- `CandidateType`. -/
inductive CandidateType where
  | convention
  | decision
  | pattern
  | mistake
  | dependencyNote
  | architectureNote
  deriving DecidableEq, Repr

def CandidateType.name : CandidateType → String
  | convention => "convention"
  | decision => "decision"
  | pattern => "pattern"
  | mistake => "mistake"
  | dependencyNote => "dependency-note"
  | architectureNote => "architecture_note"

/-- `RiskLevel`. -/
inductive RiskLevel where
  | low
  | medium
  | high
  | critical
  deriving DecidableEq, Repr

def RiskLevel.name : RiskLevel → String
  | low => "low"
  | medium => "medium"
  | high => "high"
  | critical => "critical"

/-- `decision` of a review. -/
inductive Decision where
  | approve
  | reject
  | ingested
  deriving DecidableEq, Repr

/-- `ObservationRecord`, before it is stored. -/
structure ObservationRecord where
  sourceExecutionId : Json
  sourceEvent : String
  sourceId : Json
  content : String
  suggestedType : CandidateType
  evidenceRefs : List Json
  confidence : PyNum
  riskLevel : RiskLevel
  dedupeHash : Text

/-- A row of `learning_observations`; its state is always `draft`. -/
structure ObservationRow where
  id : ℤ
  sourceExecutionId : String
  sourceEvent : String
  sourceId : String
  content : String
  suggestedType : CandidateType
  evidenceRefs : List Json
  confidence : PyFloat
  riskLevel : RiskLevel
  dedupeHash : Text
  projectId : String
  createdAt : String

/-- A row of `learning_candidates`. -/
structure CandidateRow where
  id : ℤ
  observationId : ℤ
  content : String
  suggestedType : CandidateType
  confidence : PyFloat
  riskLevel : RiskLevel
  evidenceRefs : List Json
  dedupeHash : Text
  state : CandidateState
  ingestVersion : ℕ
  ingestedMemoryId : String
  projectId : String
  createdAt : String

/-- A row of `learning_reviews`. -/
structure ReviewRow where
  id : ℤ
  candidateId : ℤ
  advisor : String
  recommendation : String
  justification : String
  reviewer : String
  decision : Decision
  reason : String
  createdAt : String
  deriving DecidableEq

/-- The database of a project directory. -/
structure Db where
  observations : List ObservationRow := []
  candidates : List CandidateRow := []
  reviews : List ReviewRow := []
  memories : Memories := {}

/-- How many rows the learning tables have. -/
def Db.size (db : Db) : ℕ := db.observations.length + db.candidates.length + db.reviews.length

end AiosDeck.Learning
