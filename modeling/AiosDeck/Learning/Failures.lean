import AiosDeck.Agents.Executor
import AiosDeck.Learning.Engine

/-!
# From a failed execution to the learning engine

The executor publishes the text of an error under `message`. The engine reads
`error` and `errors`, so that no failure of an agent becomes an observation.
-/

namespace AiosDeck.Learning

open Python Agents Storage

/-- What an executor makes up for one event: random ids and a duration. -/
structure Stamp where
  eventId : String := ""
  executionId : String := ""
  executorId : String := ""
  durationMs : Json := .null
  toolDurationsMs : List Json := []

/-- `STATE_CREATED` and the others. -/
def stateText : AgentState → String
  | .created => "created"
  | .validated => "validated"
  | .queued => "queued"
  | .running => "running"
  | .succeeded => "succeeded"
  | .failed => "failed"
  | .timedOut => "timed_out"
  | .cancelled => "cancelled"

/-- The topic of an execution event. -/
def topicText : ExecutionTopic → String
  | .started => "agent.execution.started"
  | .completed => "agent.execution.completed"
  | .failed => "agent.execution.failed"
  | .timedOut => "agent.execution.timed_out"
  | .retried => "agent.execution.retried"
  | .cancelled => "agent.execution.cancelled"

/-- The figures of a completed execution. -/
def observabilityJson (stamp : Stamp) (observability : Observability) : Json :=
  .obj [("tool_calls", .ofNat observability.toolCalls),
    ("tool_names", .arr (observability.toolNames.map .str)),
    ("tool_durations_ms", .arr stamp.toolDurationsMs),
    ("llm_turns", .ofNat observability.llmTurns),
    ("total_cost", .num observability.totalCost),
    ("tokens", .obj (observability.tokens.map fun entry => (entry.1, .ofNat entry.2))),
    ("model", .str observability.model),
    ("provider", .str observability.provider),
    ("fallback_used", .bool observability.fallbackUsed),
    ("steps_used", .ofNat observability.stepsUsed),
    ("repeated_tool_calls", .ofNat observability.repeatedToolCalls),
    ("turn_sequence", .arr (observability.turnSequence.map .str)),
    ("exit_reason", .str observability.exitReason)]

/-- `AgentExecutionEvent.to_dict`. -/
def executionPayload (stamp : Stamp) (identity : EventIdentity) (status : AgentState) (attempt : ℕ)
    (errorCode : Option String) (message : String) (usage : Option Json)
    (observability : Option Observability) : List (String × Json) :=
  [("event_id", .str stamp.eventId),
    ("execution_id", .str stamp.executionId),
    ("agent", .str identity.agent),
    ("task_id", .str identity.taskId),
    ("correlation_id", .str identity.correlationId),
    ("executor_id", .str stamp.executorId),
    ("sequence", .ofNat identity.sequence),
    ("status", .str (stateText status)),
    ("duration_ms", stamp.durationMs),
    ("error_code", (errorCode.map Json.str).getD .null),
    ("attempt", .ofNat attempt),
    ("message", .str message),
    ("usage", usage.getD .null),
    ("observability", (observability.map (observabilityJson stamp)).getD .null)]

/-- The topics that `_subscribe_events` subscribes to. -/
def subscribedTopics : List String :=
  ["quality.gate_failed", "quality.gate_blocked", "research.completed", "agent.execution.failed"]

/-- The payload with a correlation id, its own if it has one. -/
def withCorrelation (correlationId : String) (payload : List (String × Json)) :
    List (String × Json) :=
  match payload.lookup "correlation_id" with
  | some _ => payload
  | none => payload ++ [("correlation_id", .str correlationId)]

namespace LearningEngine

/-- Delivery of an event: the bus logs what the handler raises. -/
def handle (engine : LearningEngine) (topic correlationId : String)
    (payload : List (String × Json)) (db : Db) : LearningEngine × Db :=
  if topic ∈ subscribedTopics then
    let payload := withCorrelation correlationId payload
    (engine.observed topic payload, ((engine.observe topic payload).run db).2)
  else (engine, db)

/-- Delivery of what an executor publishes; its lifecycle and security events
have topics of their own. -/
def learn (stamp : ℕ → Stamp) (state : LearningEngine × Db) : ExecEvent → LearningEngine × Db
  | .published (.execution identity topic status attempt errorCode message usage observability) =>
    state.1.handle (topicText topic) identity.correlationId
      (executionPayload (stamp identity.sequence) identity status attempt errorCode message usage
        observability) state.2
  | _ => state

end LearningEngine

/-- The events of an execution, in the order of their publication. -/
def eventsOf (executor : AgentExecutor) (request : ExecutionRequest) (run : AgentRun) :
    List ExecEvent :=
  match AgentExecutor.execute executor request run {} with
  | .ok _ s => s.events
  | .error _ s => s.events

/-- An execution has published a failure with this message. -/
def Failed (events : List ExecEvent) (message : String) : Prop :=
  ∃ identity status attempt errorCode usage observability,
    .published (.execution identity .failed status attempt errorCode message usage observability) ∈
      events

/-- One more observation has this content. -/
def Observed (db db' : Db) (message : String) : Prop :=
  ∃ rows, db'.observations = db.observations ++ rows ∧ ∃ row ∈ rows, row.content = message

section Delivery

variable (engine : LearningEngine) (stamp : Stamp) (identity : EventIdentity) (status : AgentState)
  (attempt : ℕ) (errorCode : Option String) (message : String) (usage : Option Json)
  (observability : Option Observability)

/-- The payload has its correlation id already. -/
theorem withCorrelation_executionPayload (correlationId : String) :
    withCorrelation correlationId (executionPayload stamp identity status attempt errorCode message
      usage observability) =
    executionPayload stamp identity status attempt errorCode message usage observability := by
  unfold withCorrelation
  have hfound : (executionPayload stamp identity status attempt errorCode message usage
      observability).lookup "correlation_id" = some (.str identity.correlationId) := by
    simp [executionPayload, List.lookup]
  rw [hfound]

/-- Neither of the keys that the engine reads is in the payload. -/
theorem lookup_executionPayload {key : String} (hkey : key = "error" ∨ key = "errors") :
    (LearningEngine.withSource "agent.execution.failed" (executionPayload stamp identity status
      attempt errorCode message usage observability)).lookup key = none := by
  rcases hkey with rfl | rfl <;>
    simp [LearningEngine.withSource, executionPayload, List.filter, List.lookup]

/-- A failed execution yields no observation. -/
theorem observations_executionPayload :
    engine.observations "agent.execution.failed" (LearningEngine.withSource "agent.execution.failed"
      (executionPayload stamp identity status attempt errorCode message usage observability)) =
        .ok [] := by
  have herror := lookup_executionPayload stamp identity status attempt errorCode message usage
    observability (.inl rfl)
  have herrors := lookup_executionPayload stamp identity status attempt errorCode message usage
    observability (.inr rfl)
  generalize LearningEngine.withSource "agent.execution.failed" (executionPayload stamp identity
    status attempt errorCode message usage observability) = payload at herror herrors
  have hkey : LearningEngine.errorKey payload = .ok "unknown" := by
    simp [LearningEngine.errorKey, field, herror, herrors, Json.truthy, Json.text]
  have hnone : ∀ count threshold, extractFromAgentFailure payload count threshold = .ok [] := by
    intro count threshold
    simp only [extractFromAgentFailure, field, herrors, Option.getD_none]
    rfl
  unfold LearningEngine.observations
  rw [if_neg (by decide), if_neg (by decide), if_pos rfl, hkey]
  exact hnone _ _

/-- What an execution publishes leaves the database alone. -/
theorem learn_db (stamp : ℕ → Stamp) (state : LearningEngine × Db) (event : ExecEvent) :
    (LearningEngine.learn stamp state event).2 = state.2 := by
  cases event with
  | checked | invoked | slept => rfl
  | published event =>
    cases event with
    | lifecycle | security => rfl
    | execution identity topic status attempt errorCode message usage observability =>
      change (state.1.handle (topicText topic) identity.correlationId (executionPayload
        (stamp identity.sequence) identity status attempt errorCode message usage observability)
          state.2).2 = state.2
      unfold LearningEngine.handle
      cases topic with
      | failed =>
        rw [if_pos (by decide), withCorrelation_executionPayload]
        change ((LearningEngine.observe _ _ _).run state.2).2 = state.2
        unfold LearningEngine.observe
        split
        · rw [topicText, observations_executionPayload]
          rfl
        · rfl
      | started | completed | timedOut | retried | cancelled =>
        rw [if_neg (by decide)]

end Delivery

/-- Executions on one bus, one after the other, with a subscribed engine. -/
structure Session where
  executions : List (AgentExecutor × ExecutionRequest × AgentRun)
  stamp : ℕ → Stamp
  engine : LearningEngine
  db : Db

namespace Session

variable (session : Session)

/-- All events of the executions. -/
def events : List ExecEvent :=
  session.executions.flatMap fun execution => eventsOf execution.1 execution.2.1 execution.2.2

/-- The engine and the database after the last delivery. -/
def delivered : LearningEngine × Db :=
  session.events.foldl (LearningEngine.learn session.stamp) (session.engine, session.db)

/-- Every failure with a message becomes an observation of that message. -/
def Learns : Prop :=
  ∀ message, message ≠ "" → Failed session.events message →
    Observed session.db session.delivered.2 message

theorem delivered_db : session.delivered.2 = session.db := by
  have hfold : ∀ (events : List ExecEvent) (state : LearningEngine × Db),
      (events.foldl (LearningEngine.learn session.stamp) state).2 = state.2 := by
    intro events
    induction events with
    | nil => exact fun _ => rfl
    | cons event rest ih => exact fun state => (ih _).trans (learn_db session.stamp state event)
  exact hfold session.events _

theorem not_observed (message : String) :
    ¬ Observed session.db session.delivered.2 message := by
  rintro ⟨rows, hrows, row, hrow, -⟩
  rw [session.delivered_db] at hrows
  rw [List.self_eq_append_right.mp hrows] at hrow
  cases hrow

/-- No failure with a message is ever learnt. -/
theorem never_learns (hfailed : ∃ message, message ≠ "" ∧ Failed session.events message) :
    ¬ session.Learns := by
  obtain ⟨message, hmessage, hfailed⟩ := hfailed
  exact fun hlearns => session.not_observed message (hlearns message hmessage hfailed)

end Session

/-- One execution of an agent that raises. -/
def raisingSession : Session where
  executions := [({}, {
    agent := { name := "developer", metadata := { name := "developer" }, capabilities := {} }
    task := { description := "task", taskId := "t1", correlationId := "run-1" } },
    { behaviour := fun _ => .raised ⟨.runtimeError, "boom"⟩, cancelled := fun _ => false })]
  stamp := fun _ => {}
  engine := { projectId := "demo" }
  db := {}

theorem failed_raisingSession : Failed raisingSession.events "boom" :=
  ⟨_, _, _, _, _, _, List.mem_of_getLast? rfl⟩

theorem never_learns_raising : ¬ raisingSession.Learns :=
  raisingSession.never_learns ⟨"boom", by decide, failed_raisingSession⟩

/-- The failure `boom` is published, and no observation is stored. -/
theorem not_learns_raising : ¬ raisingSession.Learns ∧ raisingSession.delivered.2.observations = [] := by
  refine ⟨fun hlearns => ?_, by rw [Session.delivered_db]; rfl⟩
  exact raisingSession.not_observed "boom" (hlearns "boom" (by decide) failed_raisingSession)

end AiosDeck.Learning
