import AiosDeck.Security.Intent

/-!
# Agent execution models

The request that binds an agent to a task for one executor run, the result
that every agent returns, and the neutral outcome of the run.
-/

namespace AiosDeck.Agents

open Python Security

/-- The part of the shared context packet that the executor, the planner
and the workflow read or write. -/
structure Context where
  intent : Option IntentPolicy := none
  research : Json := .null
  /-- Whether attributes of the object can be assigned. -/
  settable : Bool := true

/-- A textual output, up to what `json.loads` makes of it. -/
inductive Output where
  /-- The empty text. -/
  | empty
  /-- Text of one JSON document. -/
  | json (document : Json)
  /-- Any other text. -/
  | text (content : String)

/-- `if output:`. -/
def Output.truthy : Output → Bool
  | .empty => false
  | .json _ => true
  | .text content => content != ""

/-- `json.loads(output)`. -/
def Output.loads : Output → Except PyExc Json
  | .json document => .ok document
  | _ => .error ⟨.jsonDecodeError, "Expecting value: line 1 column 1 (char 0)"⟩

/-- The runtime figures that the executor forwards in the event of a
completed execution. -/
structure Observability where
  toolCalls : ℕ := 0
  toolNames : List String := []
  llmTurns : ℕ := 0
  totalCost : PyNum := .float (.finite 0)
  tokens : List (String × ℕ) := []
  model : String := ""
  provider : String := ""
  fallbackUsed : Bool := false
  stepsUsed : ℕ := 0
  repeatedToolCalls : ℕ := 0
  turnSequence : List String := []
  exitReason : String := "stop"

/-- Canonical agent output. -/
structure AgentResult where
  success : Bool := true
  output : Output := .empty
  errors : List String := []
  error : Option AgentError := none
  status : AgentState := .succeeded
  errorCode : Option String := none
  agent : String := ""
  taskId : String := ""
  correlationId : String := ""
  usage : Option Json := none
  observability : Observability := {}

/-- Everything the executor needs to run one agent operation. -/
structure ExecutionRequest where
  agent : Agent
  task : AgentTask
  context : Option Context := none
  timeout : Option PyNum := none
  retryPolicy : Option RetryPolicy := none
  correlationId : String := ""
  /-- Progress hook: whether it raises on the event with this sequence number. -/
  onProgress : Option (ℕ → Option PyExc) := none
  intent : Option IntentPolicy := none

/-- `request.correlation_id or request.task.correlation_id`. -/
def ExecutionRequest.correlation (request : ExecutionRequest) : String :=
  if request.correlationId = "" then request.task.correlationId else request.correlationId

/-- Neutral result of an executor run. -/
structure ExecutionOutcome where
  status : AgentState := .created
  result : Option AgentResult := none
  error : Option AgentError := none
  attempts : ℕ := 1
  retried : Bool := false

end AiosDeck.Agents
