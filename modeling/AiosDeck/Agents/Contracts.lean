import AiosDeck.Python.Values

/-!
# Agent execution contracts

The vocabulary shared by every agent: tasks, errors with stable codes,
declared capabilities, the retry policy and the metadata that an agent
declares about itself.
-/

namespace AiosDeck.Agents

open Python

/-- Lifecycle states of one execution. -/
inductive AgentState where
  | created
  | validated
  | queued
  | running
  | succeeded
  | failed
  | timedOut
  | cancelled
  deriving DecidableEq, Repr

abbrev VALIDATION_ERROR : String := "VALIDATION_ERROR"
abbrev RUNTIME_ERROR : String := "RUNTIME_ERROR"
abbrev PERMISSION_DENIED : String := "PERMISSION_DENIED"
abbrev TIMEOUT : String := "TIMEOUT"

/-- `AgentValidationError`. -/
abbrev agentValidationError : ExcClass := .user "AgentValidationError"

/-- Canonical agent input. -/
structure AgentTask where
  description : String := ""
  taskType : Json := .str "code"
  files : List String := []
  params : List (String × Json) := []
  taskId : String
  correlationId : String := ""

/-- Contract violations of a task; none means valid. -/
def validateAgentTask (task : AgentTask) : List String :=
  (if isBlank task.description then ["description is required"] else []) ++
    (if task.taskId = "" then ["task_id is required"] else [])

/-- Standardized error; a transient one may be retried. -/
structure AgentError where
  code : String := RUNTIME_ERROR
  message : String := ""
  transient : Bool := false
  deriving DecidableEq, Repr

/-- `AgentError.retryable`. -/
def AgentError.retryable (error : AgentError) : Bool := error.transient

/-- Map an exception to the standardized error, in the order of the
source's `isinstance` tests. -/
def errorFromException (exc : PyExc) : AgentError :=
  if exc.cls = agentValidationError then ⟨VALIDATION_ERROR, exc.message, false⟩
  else if exc.cls = .permissionError then ⟨PERMISSION_DENIED, exc.message, false⟩
  else if exc.cls = .timeoutError then ⟨TIMEOUT, exc.message, true⟩
  else ⟨RUNTIME_ERROR, exc.message, true⟩

/-- Declared permissions of an agent, as coarse capability names. -/
structure AgentCapabilities where
  permissions : List String := []
  deriving DecidableEq, Repr

/-- Centralized retry policy; one attempt means no retry. -/
structure RetryPolicy where
  maxAttempts : ℤ := 1
  baseDelay : PyNum := .float (.finite (1 / 2))
  retryableCodes : List String := [RUNTIME_ERROR, TIMEOUT]
  deriving DecidableEq, Repr

/-- Static metadata that every agent declares about itself. -/
structure AgentMetadata where
  name : String
  version : String := "1.0"
  timeout : Option PyNum := none
  retryPolicy : Option RetryPolicy := some {}
  allowTimeoutOverride : Bool := false
  allowRetryOverride : Bool := false
  deriving DecidableEq, Repr

/-- An agent as the executor addresses it. What its `execute` does belongs
to the run, not to this record. -/
structure Agent where
  name : String
  metadata : AgentMetadata
  capabilities : AgentCapabilities
  deriving DecidableEq, Repr

end AiosDeck.Agents
