import AiosDeck.Agents.Executor
import AiosDeck.Quality.Policy
import AiosDeck.Scheduler.Engine

/-!
# Workflow models

The state of one workflow run, its result, and the record of everything the
run did to its collaborators, in order.
-/

namespace AiosDeck.Workflow

open Python Agents Security Quality Scheduler

/-- Unit of work assigned to the workflow. -/
structure Task where
  description : String := ""
  taskType : String := "code"
  files : List String := []
  deriving DecidableEq, Repr

/-- Outcome of a single pipeline stage. -/
structure WorkflowStage where
  name : String
  success : Bool
  error : Option String := none
  details : List (String × Json) := []

/-- `_WorkflowContext`: the execution state of one run. -/
structure WorkflowContext where
  task : Task
  runId : ℕ
  goal : String
  plan : Option Json := none
  branch : Option String := none
  board : Option KanbanBoard := none
  cards : List KanbanCard := []
  reviewReport : Option Json := none
  testReport : Option Json := none
  commit : Option Json := none
  researchResult : Option Json := none
  stages : List WorkflowStage := []
  errors : List String := []
  completedCount : ℕ := 0
  subtaskCount : ℕ := 0
  qualityActive : Bool := false
  intent : Option IntentPolicy := none
  changedFiles : List String := []
  producedChange : Bool := false

/-- Immutable final result of a workflow run. -/
structure WorkflowResult where
  runId : ℕ
  goal : String
  branch : Option String
  success : Bool
  plan : Option Json
  stages : List WorkflowStage
  subtaskCount : ℕ
  completedCount : ℕ
  errors : List String
  researchResult : Option Json
  changedFiles : List String

/-- `WorkflowResult.from_context`. -/
def WorkflowResult.fromContext (ctx : WorkflowContext) : WorkflowResult where
  runId := ctx.runId
  goal := ctx.goal
  branch := ctx.branch
  success := ctx.errors.isEmpty
  plan := ctx.plan
  stages := ctx.stages
  subtaskCount := ctx.subtaskCount
  completedCount := ctx.completedCount
  errors := ctx.errors
  researchResult := ctx.researchResult
  changedFiles := ctx.changedFiles

/-- The places of the engine that run an agent. -/
inductive CallSite where
  | research
  | planner
  | createBranch
  | developer (index : ℕ)
  | review
  | test
  | documentation
  | stage
  | commit
  deriving DecidableEq, Repr

/-- One call of the executor: the request, what the execution recorded, and
the outcome or the exception it ended with. -/
structure AgentCall where
  site : CallSite
  request : ExecutionRequest
  log : List ExecEvent
  outcome : Except PyExc ExecutionOutcome

/-- An operation on the board. -/
inductive CardOperation where
  | createBoard (name : String)
  | createCard (boardId : ℕ) (title : Json)
  | beginWork (cardId : ℕ)
  | completeWork (cardId : ℕ)
  | blockCard (cardId : ℕ) (reason : String)

/-- Payload of the terminal event of a gate. -/
structure GateVerdict where
  gate : String
  status : GateStatus
  findings : List (String × ℕ)
  blocked : Bool
  overridden : Bool
  reason : String
  deriving DecidableEq, Repr

/-- Events `quality.*`. -/
inductive QualityEvent where
  | started (environment : String)
  | gateStarted (gate : String)
  | gateCompleted (verdict : GateVerdict)
  | gateBlocked (verdict : GateVerdict)
  | completed (success : Bool) (errors : List String)
  deriving DecidableEq, Repr

/-- One step of a run, as seen by its collaborators. -/
inductive Event where
  | agent (call : AgentCall)
  /-- A configured gate was evaluated. -/
  | gate (name : String) (input : GateInput) (evaluation : GateEvaluation)
  | card (operation : CardOperation)
  /-- A stage was recorded and reported to `on_stage`. -/
  | stage (stage : WorkflowStage)
  | quality (event : QualityEvent)
  /-- `research.completed` was published with these numbers of items. -/
  | research (findings sources : ℕ)
  /-- The git agent was asked for the changed files. -/
  | probe (changed : List String)

/-- A quality gate, free to decide by everything that happened before. -/
abbrev Gate := List Event → GateInput → GateEvaluation

/-- `QualityConfig`. -/
structure QualityConfig where
  enabled : Bool := true
  environment : String := "dev"
  policy : List (String × List String) := []
  overrides : List GateOverride := []

/-- The configured engine. A git agent comes with its change-set query. -/
structure WorkflowEngine where
  planner : Agent
  developer : Agent
  reviewer : Agent
  researcher : Option Agent := none
  tester : Option Agent := none
  documentation : Option Agent := none
  git : Option Agent := none
  scheduler : KanbanEngine
  executor : AgentExecutor := {}
  projectPath : String := "."
  /-- `commit_factory`, which writes the commit message. -/
  commitFactory : WorkflowContext → Except PyExc String := fun ctx => .ok ("feat: " ++ ctx.goal)
  qualityConfig : Option QualityConfig := none
  /-- The gates by name; none asks for the default ones. -/
  qualityGates : Option (List (String × Gate)) := none
  bus : Bool := false

/-- Everything a run meets that the engine does not decide. Each choice may
depend on all that happened before it. -/
structure World where
  /-- `RunIdGenerator.next()`. -/
  runId : ℕ := 1
  /-- A fresh `uuid4`, as the number it is. -/
  uuid : List Event → ℕ := List.length
  /-- What the agent does at each attempt, and when `cancel()` is called. -/
  agentRun : List Event → CallSite → AgentRun
  /-- `git._changed_files()`. -/
  changedFiles : List Event → Except PyExc (List String) := fun _ => .ok []
  /-- Whether the directory `tests` exists. -/
  testsDir : List Event → Bool := fun _ => true
  /-- Whether the `on_stage` callback raises on this stage. -/
  onStage : WorkflowStage → Option PyExc := fun _ => none
  /-- The default gates. -/
  gates : List (String × Gate) := []

/-- State of a run. -/
structure EngineState where
  ctx : WorkflowContext
  /-- The context packet shared with the agents. -/
  context : Option Context
  /-- The kanban database. -/
  kanban : KanbanState
  trace : List Event := []

/-- How a run leaves the pipeline before its end. -/
inductive Stop where
  | returned (result : WorkflowResult)
  | raised (exc : PyExc)

abbrev EngineM := EStateM Stop EngineState

end AiosDeck.Workflow
