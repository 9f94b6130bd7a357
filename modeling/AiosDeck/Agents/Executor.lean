import AiosDeck.Agents.Lifecycle
import AiosDeck.Agents.Models

/-!
# The agent executor

The single execution boundary: it validates the task, enforces
capabilities and the intent, drives the lifecycle, and runs the attempt
loop with timeout, retry and cancellation. What the agent does at each
attempt, and when `cancel()` is called, is the adversary's choice.
-/

namespace AiosDeck.Agents

open Python Security

/-- What one invocation of `agent.execute` does. -/
inductive Attempt where
  | returned (result : AgentResult)
  | raised (exc : PyExc)
  /-- No result within the timeout of the request. -/
  | timedOut

/-- The adversary of one execution. Attempts are numbered from one. -/
structure AgentRun where
  behaviour : ℕ → Attempt
  /-- Whether `cancel()` was called before the loop tests for it. -/
  cancelled : ℕ → Bool

/-- Topics `agent.execution.*`. -/
inductive ExecutionTopic where
  | started
  | completed
  | failed
  | timedOut
  | retried
  | cancelled
  deriving DecidableEq, Repr

/-- Topics `security.*` of the executor. -/
inductive SecurityTopic where
  | intentApplied
  | checkDenied
  | checkPassed
  deriving DecidableEq, Repr

/-- Fields shared by lifecycle and execution events. -/
structure EventIdentity where
  agent : String
  taskId : String
  correlationId : String
  sequence : ℕ
  deriving DecidableEq, Repr

/-- An event published on the bus by the executor. -/
inductive Published where
  | lifecycle (identity : EventIdentity) (previous current : AgentState)
  | execution (identity : EventIdentity) (topic : ExecutionTopic) (status : AgentState)
      (attempt : ℕ) (errorCode : Option String) (message : String) (usage : Option Json)
      (observability : Option Observability)
  | security (topic : SecurityTopic) (agent action : String) (allowed : Bool) (reason : String)
      (violations : List String) (intentSource correlationId : String)

/-- One observable step of an execution. -/
inductive ExecEvent where
  | published (event : Published)
  /-- The intent was validated against the agent's capabilities. -/
  | checked (intent : IntentPolicy) (decision : SecurityDecision)
  /-- `agent.execute` was submitted to the pool. -/
  | invoked (attempt : ℕ)
  /-- The loop slept before this attempt. -/
  | slept (delay : PyNum)

/-- Mutable state of one `execute` call. -/
structure ExecState where
  lifecycle : AgentState := .created
  sequence : ℕ := 0
  events : List ExecEvent := []

/-- An executor: whether a bus is attached, and its capability enforcer. -/
structure AgentExecutor where
  bus : Bool := true
  enforcer : Option CapabilityEnforcer := none

abbrev ExecM := EStateM PyExc ExecState

namespace AgentExecutor

/-- Append one step to the record of the execution. -/
def record (event : ExecEvent) : ExecM Unit :=
  modify fun s => { s with events := s.events ++ [event] }

/-- `lifecycle.transition(next_state)`. -/
def transition (nextState : AgentState) : ExecM Unit := do
  let s ← get
  match s.lifecycle.transition nextState with
  | .ok state => set { s with lifecycle := state }
  | .error exc => throw exc

/-- `request.on_progress(event)`, when there is a callback. -/
def progress (request : ExecutionRequest) : ExecM Unit := do
  match request.onProgress with
  | none => pure ()
  | some handler =>
    let s ← get
    match handler s.sequence with
    | none => pure ()
    | some exc => throw exc

/-- `_event_identity`, with the sequence number just taken. -/
def eventIdentity (request : ExecutionRequest) (sequence : ℕ) : EventIdentity :=
  ⟨request.agent.name, request.task.taskId, request.correlation, sequence⟩

/-- Take the next sequence number and publish the event that carries it. -/
def publishNext (request : ExecutionRequest) (event : EventIdentity → Published) : ExecM Unit := do
  modify fun s => { s with
    sequence := s.sequence + 1
    events := s.events ++ [.published (event (eventIdentity request (s.sequence + 1)))] }
  progress request

/-- `_publish_lifecycle`. -/
def publishLifecycle (executor : AgentExecutor) (request : ExecutionRequest)
    (previous current : AgentState) : ExecM Unit :=
  if executor.bus then publishNext request fun identity => .lifecycle identity previous current
  else pure ()

/-- `_publish_execution`. -/
def publishExecution (executor : AgentExecutor) (request : ExecutionRequest)
    (topic : ExecutionTopic) (status : AgentState) (attempt : ℕ)
    (error : Option AgentError := none) (usage : Option Json := none)
    (observability : Option Observability := none) : ExecM Unit :=
  if executor.bus then
    publishNext request fun identity => .execution identity topic status attempt
      (error.map AgentError.code) ((error.map AgentError.message).getD "") usage observability
  else pure ()

/-- `_publish_security`; these events carry no sequence number. -/
def publishSecurity (executor : AgentExecutor) (request : ExecutionRequest)
    (topic : SecurityTopic) (action : String) (allowed : Bool) (reason : String)
    (violations : List String := []) : ExecM Unit :=
  if executor.bus then
    record (.published (.security topic request.agent.name action allowed reason violations
      ((request.intent.map IntentPolicy.source).getD "") request.correlation))
  else pure ()

/-- A lifecycle hop together with its event. -/
def hop (executor : AgentExecutor) (request : ExecutionRequest)
    (previous current : AgentState) : ExecM Unit := do
  transition current
  publishLifecycle executor request previous current

/-- `_resolve_timeout`: an override needs the agent's permission. -/
def resolveTimeout (request : ExecutionRequest) : Option PyNum :=
  match request.timeout with
  | some timeout =>
    if request.agent.metadata.allowTimeoutOverride then some timeout
    else request.agent.metadata.timeout
  | none => request.agent.metadata.timeout

/-- `request.retry_policy or request.agent.metadata.retry_policy`. -/
def resolveRetryPolicy (request : ExecutionRequest) : Option RetryPolicy :=
  match request.retryPolicy with
  | some policy => some policy
  | none => request.agent.metadata.retryPolicy

/-- `retry_policy.max_attempts if retry_policy else 1`. -/
def maxAttempts (policy : Option RetryPolicy) : ℤ :=
  match policy with
  | some policy => policy.maxAttempts
  | none => 1

/-- `_should_retry`. -/
def shouldRetry (error : AgentError) (policy : Option RetryPolicy) (attempt : ℕ) : Bool :=
  match policy with
  | none => false
  | some policy =>
    if policy.maxAttempts ≤ attempt then false
    else error.retryable && decide (error.code ∈ policy.retryableCodes)

/-- Product of a number and `2 ** k`. A `float` first converts the power,
which has no `float` from `2 ** 1024` on. -/
def timesPowerOfTwo (x : PyNum) (k : ℕ) : Except PyExc PyNum :=
  match x with
  | .int n => .ok (.int (n * 2 ^ k))
  | .float x =>
    if 1024 ≤ k then .error ⟨.overflowError, "int too large to convert to float"⟩
    else
      match x with
      | .finite q =>
        if 2 ^ 1024 ≤ q * 2 ^ k then .ok (.float .posInf)
        else if q * 2 ^ k ≤ -2 ^ 1024 then .ok (.float .negInf)
        else .ok (.float (.finite (q * 2 ^ k)))
      | other => .ok (.float other)

/-- `_backoff`: the base delay doubled for every retry after the first. -/
def backoff (policy : Option RetryPolicy) (attempt : ℕ) : Except PyExc PyNum :=
  match policy with
  | some policy => timesPowerOfTwo policy.baseDelay (attempt - 2)
  | none => timesPowerOfTwo (.float (.finite (1 / 2))) (attempt - 2)

/-- `time.sleep`: a number of seconds that is not negative and whose
nanoseconds fit a signed 64-bit integer. -/
def sleep (delay : PyNum) : Except PyExc Unit :=
  match delay with
  | .int n =>
    if n < 0 then .error ⟨.valueError, "sleep length must be non-negative"⟩
    else if 2 ^ 63 ≤ n * 10 ^ 9 then
      .error ⟨.overflowError, "timestamp too large to convert to C PyTime_t"⟩
    else .ok ()
  | .float (.finite q) =>
    if q < 0 then .error ⟨.valueError, "sleep length must be non-negative"⟩
    else if 2 ^ 63 ≤ ⌈q * 10 ^ 9⌉ then
      .error ⟨.overflowError, "timestamp too large to convert to C PyTime_t"⟩
    else .ok ()
  | .float .nan => .error ⟨.valueError, "Invalid value NaN (not a number)"⟩
  | .float _ => .error ⟨.overflowError, "timestamp too large to convert to C PyTime_t"⟩

/-- `time.sleep(self._backoff(retry_policy, attempt))`. -/
def pause (policy : Option RetryPolicy) (attempt : ℕ) : Except PyExc PyNum :=
  match backoff policy attempt with
  | .error exc => .error exc
  | .ok delay =>
    match sleep delay with
    | .error exc => .error exc
    | .ok () => .ok delay

/-- Text of a timeout in seconds. -/
def seconds : Option PyNum → String
  | none => "None"
  | some x => Json.numText x

/-- Identity fields that the executor writes on a returned result. -/
def stamp (request : ExecutionRequest) (result : AgentResult) : AgentResult :=
  { result with
    agent := request.agent.name
    taskId := request.task.taskId
    correlationId := request.correlation }

/-- The error of a failed result: its own, or one built from its fields. -/
def resultError (result : AgentResult) : AgentError :=
  match result.error with
  | some error => error
  | none =>
    { code := if result.errorCode.getD "" = "" then RUNTIME_ERROR else result.errorCode.getD ""
      message := if join "; " result.errors = "" then "Agent failed" else join "; " result.errors
      transient := false }

section Loop

variable (executor : AgentExecutor) (request : ExecutionRequest) (run : AgentRun)

/-- Conclude the execution with a result that the agent returned. -/
def conclude (attempt : ℕ) (retried : Bool) (result : AgentResult) : ExecM ExecutionOutcome :=
  if result.success then do
    hop executor request .running .succeeded
    publishExecution executor request .completed .succeeded attempt none result.usage
      (some result.observability)
    return { status := .succeeded, result := some result, attempts := attempt, retried := retried }
  else do
    hop executor request .running .failed
    publishExecution executor request .failed .failed attempt (some (resultError result))
    return { status := .failed, result := some result, error := some (resultError result),
             attempts := attempt, retried := retried }

/-- The `try` body of one attempt: `_invoke`, then the returned result. -/
def tryAttempt (attempt : ℕ) (retried : Bool) : ExecM ExecutionOutcome := do
  record (.invoked attempt)
  match run.behaviour attempt with
  | .returned result => conclude executor request attempt retried (stamp request result)
  | .raised exc => throw exc
  | .timedOut => throw ⟨.timeoutError, ""⟩

/-- Either retry, leaving the loop to continue, or end in `status`. -/
def retryOrEnd (attempt : ℕ) (retried : Bool) (error : AgentError) (topic : ExecutionTopic)
    (status : AgentState) : ExecM (Option ExecutionOutcome) :=
  let policy := resolveRetryPolicy request
  if shouldRetry error policy attempt then do
    publishExecution executor request .retried .running attempt (some error)
    hop executor request .running .running
    match pause policy (attempt + 1) with
    | .ok delay => record (.slept delay)
    | .error exc => throw exc
    return none
  else do
    hop executor request .running status
    publishExecution executor request topic status attempt (some error)
    return some { status := status, error := some error, attempts := attempt, retried := retried }

/-- The error recorded for an attempt that timed out. -/
def timeoutError : AgentError :=
  ⟨TIMEOUT, "Execution timed out after " ++ seconds (resolveTimeout request) ++ "s", true⟩

/-- The two handlers of an attempt: a timeout, or any other exception. -/
def handle (attempt : ℕ) (retried : Bool) (exc : PyExc) : ExecM (Option ExecutionOutcome) :=
  if exc.cls = .timeoutError then
    retryOrEnd executor request attempt retried (timeoutError request) .timedOut .timedOut
  else
    retryOrEnd executor request attempt retried (errorFromException exc) .failed .failed

/-- One turn of the attempt loop; no outcome means that it continues. -/
def turn (attempt : ℕ) (retried : Bool) : ExecM (Option ExecutionOutcome) :=
  if run.cancelled attempt then do
    hop executor request .running .cancelled
    publishExecution executor request .cancelled .cancelled attempt
    return some { status := .cancelled, attempts := attempt }
  else do
    publishExecution executor request .started .running attempt
    tryCatch (some <$> tryAttempt executor request run attempt retried)
      (handle executor request attempt retried)

/-- The attempt loop. Retries need `attempt < max_attempts`, so `fuel` set
to the attempts that remain is never exhausted. -/
def attemptLoop : ℕ → ℕ → Bool → ExecM ExecutionOutcome
  | 0, attempt, retried => do
    match ← turn executor request run attempt retried with
    | some outcome => return outcome
    | none => throw ⟨.runtimeError, "attempt loop exhausted"⟩
  | fuel + 1, attempt, retried => do
    match ← turn executor request run attempt retried with
    | some outcome => return outcome
    | none => attemptLoop fuel (attempt + 1) true

/-- Refuse the execution before it is validated. -/
def refuse (error : AgentError) : ExecM ExecutionOutcome := do
  hop executor request .created .failed
  publishExecution executor request .failed .failed 1 (some error)
  return { status := .failed, error := some error, attempts := 1 }

/-- From `validated` through `queued` to `running`, then the loop. -/
def proceed : ExecM ExecutionOutcome := do
  hop executor request .created .validated
  hop executor request .validated .queued
  hop executor request .queued .running
  attemptLoop executor request run
    (maxAttempts (resolveRetryPolicy request) - 1).toNat 1 false

/-- `'a', 'b'` inside brackets, as a list of strings is printed. -/
def quoted (names : List String) : String :=
  "[" ++ join ", " (names.map fun name => "'" ++ name ++ "'") ++ "]"

/-- Step 2.5: the intent against the agent's capabilities. -/
def enforceIntent (intent : IntentPolicy) : ExecM ExecutionOutcome := do
  let decision := validateIntent intent request.agent.capabilities
  record (.checked intent decision)
  publishSecurity executor request .intentApplied intent.label true
    ("intent '" ++ intent.label ++ "' applied to agent '" ++ request.agent.name ++ "'")
  if decision.allowed then do
    publishSecurity executor request .checkPassed intent.label true
      ("intent '" ++ intent.label ++ "' grants actions for agent '" ++ request.agent.name ++ "'")
    proceed executor request run
  else do
    let message := "intent '" ++ intent.label ++ "' grants no action for agent '" ++
      request.agent.name ++ "'; denied: " ++ quoted decision.violations
    publishSecurity executor request .checkDenied intent.label false message decision.violations
    refuse executor request ⟨PERMISSION_DENIED, message, false⟩

/-- Step 2: `self._enforcer.validate(request.agent)`. -/
def enforceCapabilities : Except PyExc Unit :=
  match executor.enforcer with
  | none => .ok ()
  | some enforcer => enforcer.validate request.agent

/-- `AgentExecutor.execute`. -/
def execute : ExecM ExecutionOutcome := do
  publishLifecycle executor request .created .created
  match validateAgentTask request.task with
  | first :: rest =>
    refuse executor request ⟨VALIDATION_ERROR, join "; " (first :: rest), false⟩
  | [] =>
    match enforceCapabilities executor request with
    | .error exc => refuse executor request ⟨PERMISSION_DENIED, exc.message, false⟩
    | .ok () =>
      match request.intent with
      | some intent => enforceIntent executor request run intent
      | none => proceed executor request run

end Loop

end AgentExecutor

end AiosDeck.Agents
