import AiosDeck.Python.Text
import AiosDeck.Workflow.Models

/-!
# The workflow engine

Planner, git branch, scheduler, developer, reviewer, tester, documentation,
git commit, with the quality gates between them. Every early exit of the
source throws the finished result; exceptions of collaborators are thrown
beside it.
-/

namespace AiosDeck.Workflow

open Python Agents Security Quality Scheduler

/-- `_NON_IMPLEMENTATION_TYPES`. -/
def NON_IMPLEMENTATION_TYPES : List String := ["docs", "chore", "release", "meta"]

/-- `_RELEVANT_PREFIXES`. -/
def RELEVANT_PREFIXES : List String := ["src/", "tests/"]

/-- `text.startswith(prefix)`. -/
def startsWith (text start : String) : Bool := start.toList.isPrefixOf text.toList

/-- `_STAGE_AGENT`. -/
def STAGE_AGENT : List (String × String) :=
  [("planner", "planner"), ("reviewer", "reviewer"), ("tester", "tester"),
   ("documentation", "documentation"), ("git", "git"), ("research", "research")]

/-- Assign one key of a dictionary in place. -/
def setKey (key : String) (value : Json) : List (String × Json) → List (String × Json)
  | [] => [(key, value)]
  | entry :: rest => if entry.1 = key then (key, value) :: rest else entry :: setKey key value rest

/-- `dict.setdefault`. -/
def setDefault (key : String) (value : Json) (fields : List (String × Json)) :
    List (String × Json) :=
  if (fields.lookup key).isSome then fields else setKey key value fields

/-- One call of the executor, with everything it recorded. -/
def executorCall (executor : AgentExecutor) (site : CallSite) (request : ExecutionRequest)
    (run : AgentRun) : AgentCall :=
  match executor.execute request run {} with
  | .ok outcome s => ⟨site, request, s.events, .ok outcome⟩
  | .error exc s => ⟨site, request, s.events, .error exc⟩

namespace WorkflowEngine

section Pure

variable (engine : WorkflowEngine) (world : World)

/-- `_quality_active`. -/
def qualityEnabled : Bool :=
  match engine.qualityConfig with
  | some config => config.enabled
  | none => false

/-- `_gates`. -/
def gates : List (String × Gate) :=
  if engine.qualityEnabled then
    match engine.qualityGates with
    | some gates => gates
    | none => world.gates
  else []

/-- Environment of the quality pipeline. -/
def environment : String :=
  match engine.qualityConfig with
  | some config => config.environment
  | none => "dev"

/-- `_resolve_gate`. -/
def resolveGate (name : String) (result : GateResult) : DecisionResult :=
  resolveDecision (result.findings.map GateFinding.severity) name engine.environment
    ((engine.qualityConfig.map QualityConfig.policy).getD [])
    ((engine.qualityConfig.map QualityConfig.overrides).getD [])

/-- `self._agents.get(name)`. -/
def agentNamed (name : String) : Option Agent :=
  if name = "planner" then some engine.planner
  else if name = "developer" then some engine.developer
  else if name = "reviewer" then some engine.reviewer
  else if name = "research" then engine.researcher
  else if name = "tester" then engine.tester
  else if name = "documentation" then engine.documentation
  else if name = "git" then engine.git
  else none

/-- Name of the agent behind a stage. -/
def stageAgent (stage : WorkflowStage) : Option String :=
  if startsWith stage.name "developer:" then some "developer" else STAGE_AGENT.lookup stage.name

/-- One stage with the effective permissions of its agent. -/
def enrich (intent : IntentPolicy) (stage : WorkflowStage) : WorkflowStage :=
  match (stageAgent stage).bind engine.agentNamed with
  | none => stage
  | some agent =>
    let effective := effectivePermissions intent agent.capabilities
    if effective = ∅ then stage
    else { stage with
      details := setDefault "intent" (.obj [("name", .str intent.name), ("source", .str intent.source)])
        (setKey "effective" (.arr ((effective.sort (· ≤ ·)).map Json.str)) stage.details) }

/-- `_enrich_stage_effective`. -/
def enrichStages (ctx : WorkflowContext) : WorkflowContext :=
  match ctx.intent with
  | none => ctx
  | some intent => { ctx with stages := ctx.stages.map (engine.enrich intent) }

end Pure

/-- The letter or digit that a slug keeps of a character of `goal.lower()`.
Outside ASCII only the Kelvin sign has such a lower case. -/
def slugLetter (c : Char) : Option Char :=
  if c = Char.ofNat 0x212A then some 'k'
  else if c.toLower.isLower ∨ c.isDigit then some c.toLower
  else none

/-- The characters that `goal.lower()` gives, as far as a slug sees them. -/
def slugChars (c : Char) : List (Option Char) :=
  -- the lower case of `İ` is an `i` and a combining dot
  if c = Char.ofNat 0x130 then [some 'i', none] else [slugLetter c]

/-- `_SLUG_RE.sub("-", text)`: one dash for each run of other characters. -/
def dashed : List (Option Char) → Text
  | [] => []
  | some c :: rest => c :: dashed rest
  | none :: none :: rest => dashed (none :: rest)
  | none :: rest => '-' :: dashed rest

/-- `_build_branch`. -/
def buildBranch (runId : ℕ) (goal : String) : String :=
  let slug := stripChar '-' ((stripChar '-' (dashed (goal.toList.flatMap slugChars))).take 50)
  "feature/" ++ (if slug.isEmpty then "task" else String.ofList slug) ++ "-" ++ toString runId

/-- `_git_operation`. -/
def gitOperation (result : AgentResult) : Option Json :=
  if result.output.truthy then
    match result.output.loads with
    | .ok operation => some operation
    | .error _ => none
  else none

/-- `_git_error`. -/
def gitError (result : AgentResult) : Except PyExc (Option String) :=
  let fallback := result.errors.head?
  match gitOperation result with
  | none => .ok fallback
  | some operation =>
    if operation.truthy then
      match operation.getD "stderr" .null with
      | .error exc => .error exc
      | .ok (.str stderr) =>
        if stderr = "" then .ok fallback else .ok (some (String.ofList (strip stderr.toList)))
      | .ok other =>
        if other.truthy then .error ⟨.attributeError, "object has no attribute 'strip'"⟩
        else .ok fallback
    else .ok fallback

/-- `len(serialized.get(key, []))`. -/
def itemCount (serialized : Json) (key : String) : Except PyExc ℕ :=
  match serialized.getD key (.arr []) with
  | .ok items => items.len
  | .error exc => .error exc

/-- Text of an optional error inside an f-string. -/
def errorText (error : Option String) : String := error.getD "None"

/-- `_first_error`. -/
def firstError (result : AgentResult) (fallback : String) : String :=
  result.errors.head?.getD fallback

/-- `_subtask_type`. -/
def subtaskType (subtask : Json) : Except PyExc Json := subtask.getD "type" (.str "code")

/-- `_compute_produced_files`. -/
def computeProducedFiles (before after : List String) : List String :=
  (after.toFinset \ before.toFinset).sort (· ≤ ·)

/-- `_has_relevant_change`. -/
def hasRelevantChange (produced : List String) : Bool :=
  produced.any fun path => RELEVANT_PREFIXES.any (startsWith path)

/-- `_noop_reason`. -/
def noopReason (produced : List String) : String :=
  "Developer produced no changes in src/ or tests/ (no-op); changed files: " ++
    if produced.isEmpty then "none" else join ", " produced

/-- `_is_implementation_task`. -/
def isImplementationTask (task : Task) : Bool :=
  decide ((if task.taskType = "" then "code" else task.taskType) ∉ NON_IMPLEMENTATION_TYPES)

/-- `_findings_counts`: only exact labels are counted. -/
def findingsCounts (result : GateResult) : List (String × ℕ) :=
  let labels := result.findings.map fun finding =>
    match finding.severity with
    | .canonical severity => severity.value
    | .text label => label
  severityLabels.map fun label => (label, labels.count label)

/-- `_apply_workflow_intent`. -/
def applyWorkflowIntent (context : Option Context) : Option Context :=
  context.map fun packet =>
    if packet.intent.isNone ∧ packet.settable then { packet with intent := some WORKFLOW_INTENT }
    else packet

/-- The result that stands for an execution without one. -/
def failedResult (request : ExecutionRequest) (outcome : ExecutionOutcome) : AgentResult :=
  { success := false
    errors := [((outcome.error.map AgentError.message).getD "Agent execution failed")]
    error := outcome.error
    errorCode := outcome.error.map AgentError.code
    status := outcome.status
    agent := request.agent.name
    taskId := request.task.taskId
    correlationId := request.task.correlationId }

/-- The result that `_run_agent` makes of an outcome. -/
def outcomeResult (request : ExecutionRequest) (outcome : ExecutionOutcome) : AgentResult :=
  match outcome.result with
  | some result => result
  | none => failedResult request outcome

section Run

variable (engine : WorkflowEngine) (world : World)

/-- Append to the record of the run. -/
def record (event : Event) : EngineM Unit :=
  modify fun s => { s with trace := s.trace ++ [event] }

/-- Update the execution state. -/
def update (change : WorkflowContext → WorkflowContext) : EngineM Unit :=
  modify fun s => { s with ctx := change s.ctx }

/-- A pure operation that may raise. -/
def liftPy {α : Type} (result : Except PyExc α) : EngineM α :=
  match result with
  | .ok value => return value
  | .error exc => throw (.raised exc)

/-- An operation of the scheduler. -/
def onBoard {α : Type} (operation : CardOperation) (program : KanbanM α) : EngineM α := do
  record (.card operation)
  let s ← get
  match program s.kanban with
  | .ok value kanban =>
    set { s with kanban }
    return value
  | .error exc kanban =>
    set { s with kanban }
    throw (.raised exc)

/-- `_publish_quality`. -/
def publishQuality (event : QualityEvent) : EngineM Unit :=
  if engine.bus then record (.quality event) else pure ()

/-- `ctx.stages.append(stage)` followed by `notify(stage)`. -/
def appendStage (stage : WorkflowStage) : EngineM Unit := do
  update fun ctx => { ctx with stages := ctx.stages ++ [stage] }
  record (.stage stage)
  match world.onStage stage with
  | some exc => throw (.raised exc)
  | none => pure ()

/-- `ctx.errors.append(error)`. -/
def appendError (error : String) : EngineM Unit :=
  update fun ctx => { ctx with errors := ctx.errors ++ [error] }

/-- The last quality event of a run. -/
def publishCompleted (ctx : WorkflowContext) : EngineM Unit :=
  if ctx.qualityActive then publishQuality engine (.completed ctx.errors.isEmpty ctx.errors)
  else pure ()

/-- `return self._finish(ctx)`. -/
def finish {α : Type} : EngineM α := do
  update engine.enrichStages
  let s ← get
  publishCompleted engine s.ctx
  throw (.returned (.fromContext s.ctx))

/-- A failed stage, its error, and the end of the run. -/
def fail {α : Type} (stage : WorkflowStage) (error : String) : EngineM α := do
  appendStage world stage
  appendError error
  finish engine

/-- Build an `AgentTask` with a fresh id. -/
def newTask (description : String) (taskType : Json) (params : List (String × Json) := [])
    (files : List String := []) (correlationId : String := "") : EngineM AgentTask := do
  let s ← get
  return { description, taskType, files, params, taskId := toString (world.uuid s.trace),
           correlationId }

/-- `_run_agent`. The context, when it is passed, brings its intent along. -/
def runAgent (site : CallSite) (agent : Agent) (task : AgentTask)
    (context : Option Context := none) : EngineM AgentResult := do
  let s ← get
  let request : ExecutionRequest :=
    { agent, task, context, intent := context.bind Context.intent }
  let call := executorCall engine.executor site request (world.agentRun s.trace site)
  record (.agent call)
  match call.outcome with
  | .ok outcome => return outcomeResult request outcome
  | .error exc => throw (.raised exc)

/-- What the engine makes of the outcome of a call. -/
def answer (request : ExecutionRequest) : Except PyExc ExecutionOutcome → EngineM AgentResult
  | .ok outcome => return outcomeResult request outcome
  | .error exc => throw (.raised exc)

/-- `_run_agent(agent, AgentTask(...))`: the call carries no context. -/
def runAlone (site : CallSite) (agent : Agent) (description : String) (taskType : String)
    (params : List (String × Json) := []) : EngineM AgentResult := do
  let task ← newTask world description (.str taskType) params
  runAgent engine world site agent task

/-- `_run_agent(agent, AgentTask(...), context)`: the call carries the shared context. -/
def runShared (site : CallSite) (agent : Agent) (description : String) (taskType : Json)
    (params : List (String × Json) := []) (files : List String := [])
    (correlationId : String := "") : EngineM AgentResult := do
  let task ← newTask world description taskType params files correlationId
  let s ← get
  runAgent engine world site agent task s.context

/-- Awaiting a gate within the timeout; a gate that times out or raises has
status `ERROR`. -/
def evaluateGate (evaluation : GateEvaluation) : GateResult :=
  match evaluation with
  | .returned result => result
  | .timedOut =>
    { status := .error, reason := "gate timed out after 30s"
      metadata := [("timeout_seconds", .num (.float (.finite 30)))] }
  | .raised exc => { status := .error, reason := "gate crashed: " ++ exc.message }

/-- The verdict of the policy on the result of a gate. -/
def gateVerdict (name : String) (result : GateResult) : GateVerdict :=
  let policy := engine.resolveGate name result
  let blocked := match result.status with
    | .error => true
    | .failed => policy.blocks
    | _ => false
  let reason := match result.status with
    | .error => if result.reason = "" then "gate error (fail-safe block)" else result.reason
    | .failed => if policy.blocks then policy.reason else result.reason ++ "; " ++ policy.reason
    | _ => result.reason
  { gate := name, status := result.status, findings := findingsCounts result, blocked
    overridden := decide (result.status = .failed) && policy.overridden, reason }

/-- Details of the stage of a gate. -/
def gateDetails (name : String) (result : GateResult) (serialized : Json) : List (String × Json) :=
  ("gate", serialized) ::
    match result.status with
    | .failed => [("policy", (engine.resolveGate name result).toDict)]
    | .skipped => [("skipped", .bool true)]
    | _ => []

/-- `_run_gate` for a configured gate: false stops the run. -/
def runConfiguredGate (name : String) (gate : Gate) (input : GateInput) : EngineM Bool := do
  publishQuality engine (.gateStarted name)
  let s ← get
  let evaluation := gate s.trace input
  record (.gate name input evaluation)
  let result := evaluateGate evaluation
  let serialized ← liftPy result.toDict
  let verdict := engine.gateVerdict name result
  let details := engine.gateDetails name result serialized
  if verdict.blocked then do
    publishQuality engine (.gateBlocked verdict)
    appendStage world { name, success := false, error := some verdict.reason, details }
    appendError (name ++ ": blocked by policy - " ++ verdict.reason)
    return false
  else do
    publishQuality engine (.gateCompleted verdict)
    appendStage world { name, success := true, details }
    return true

/-- `_run_gate`. -/
def runGate (name : String) (input : GateInput) : EngineM Bool :=
  match (engine.gates world).lookup name with
  | some gate => runConfiguredGate engine world name gate input
  | none => do
    appendStage world
      { name, success := true
        details := [("skipped", .bool true), ("reason", .str "gate not configured")] }
    return true

/-- `if gates and not self._run_gate(...): return self._finish(ctx)`. -/
def gatePhase (name : String) (input : GateInput) : EngineM Unit :=
  if (engine.gates world).isEmpty then pure ()
  else do
    let goesOn ← runGate engine world name input
    if goesOn then pure () else finish engine

/-- A stage that is skipped because its agent is absent. -/
def skippedStage (name : String) : WorkflowStage :=
  { name, success := true, details := [("skipped", .bool true)] }

/-- `_publish_research`. -/
def publishResearch (serialized : Json) : EngineM Unit :=
  if engine.bus then do
    let _ ← liftPy (serialized.getD "memory_candidates" (.arr []))
    let findings ← liftPy (itemCount serialized "findings")
    let sources ← liftPy (itemCount serialized "sources")
    record (.research findings sources)
  else pure ()

/-- `_run_research`: a failure is recorded and does not stop the run. -/
def runResearch (researcher : Agent) (task : Task) : EngineM Unit := do
  let s ← get
  let result ← runShared engine world .research researcher task.description (.str "research")
    [("scope", .str "mixed")] [] (toString s.ctx.runId)
  if result.success then do
    let serialized := match result.output.loads with
      | .ok document => document
      | .error _ => .obj []
    update fun ctx => { ctx with researchResult := some serialized }
    modify fun s => { s with context := s.context.map fun packet =>
      if packet.settable then { packet with research := serialized } else packet }
    let status ← liftPy (serialized.getD "status" .null)
    let summary ← liftPy (serialized.getD "summary_short" .null)
    let sources ← liftPy (itemCount serialized "sources")
    let findings ← liftPy (itemCount serialized "findings")
    appendStage world
      { name := "research", success := true
        details := [("status", status), ("summary_short", summary), ("sources", .ofNat sources),
          ("findings", .ofNat findings)] }
    publishResearch engine serialized
  else
    appendStage world
      { name := "research", success := false, error := some (firstError result "Research failed") }

/-- Research, when there is a research agent. -/
def researchPhase (task : Task) : EngineM Unit :=
  match engine.researcher with
  | some researcher => runResearch engine world researcher task
  | none => pure ()

/-- `_run_plan_phase` after research: the subtasks of the plan. -/
def plannerPhase (task : Task) : EngineM Json := do
  let planResult ← runShared engine world .planner engine.planner task.description
    (.str task.taskType) [] task.files
  if planResult.success then do
    let plan ← liftPy planResult.output.loads
    update fun ctx => { ctx with plan := some plan }
    let subtasks ← liftPy (plan.getD "subtasks" (.arr []))
    let count ← liftPy subtasks.len
    update fun ctx => { ctx with subtaskCount := count }
    appendStage world { name := "planner", success := true, details := [("plan", plan)] }
    return subtasks
  else fail engine world { name := "planner", success := false } (firstError planResult "Planner failed")

/-- Create the run branch before any scheduler persistence. -/
def branchPhase (createBranch : Bool) : EngineM Unit := do
  match engine.git, createBranch with
  | some git, true =>
    let s ← get
    let branch := buildBranch s.ctx.runId s.ctx.goal
    let gitResult ← runAlone engine world .createBranch git ("create branch " ++ branch)
      "create_branch" [("name", .str branch)]
    let error ← liftPy (gitError gitResult)
    if gitResult.success then do
      appendStage world { name := "git", success := true, error }
      update fun ctx => { ctx with branch := some branch }
    else
      fail engine world { name := "git", success := false, error }
        ("Git: failed to create branch " ++ branch ++ ": " ++ errorText error)
  | _, _ => appendStage world (skippedStage "git")

/-- One card for each subtask. -/
def createCards (boardId : ℕ) : List Json → EngineM Unit
  | [] => pure ()
  | subtask :: rest => do
    let title ← liftPy (subtask.item "description")
    let card ← onBoard (.createCard boardId title) (engine.scheduler.createCard boardId title)
    update fun ctx => { ctx with cards := ctx.cards ++ [card] }
    createCards boardId rest

/-- The board of the run with its cards. -/
def schedulerPhase (subtasks : Json) : EngineM (List Json) := do
  let s ← get
  let board ← onBoard (.createBoard s.ctx.goal) (engine.scheduler.createBoard s.ctx.goal)
  update fun ctx => { ctx with board := some board }
  let items ← liftPy subtasks.iter
  createCards engine board.id items
  appendStage world { name := "scheduler", success := true }
  return items

/-- `_changed_files`: a failed status probe must not crash the run. -/
def changedFiles : EngineM (List String) := do
  let s ← get
  let changed := match world.changedFiles s.trace with
    | .ok files => files
    | .error _ => []
  record (.probe changed)
  return changed

/-- Details of a developer stage. -/
def developerDetails (description : Json) (total : ℕ) : List (String × Json) :=
  [("description", description), ("subtask_total", .ofNat total)]

/-- One subtask: its card is worked, and done or blocked. -/
def developSubtask (total index : ℕ) (subtask : Json) : EngineM Unit := do
  let s ← get
  match s.ctx.cards[index]? with
  | none => throw (.raised ⟨.indexError, "list index out of range"⟩)
  | some card =>
    let _ ← onBoard (.beginWork card.id) (engine.scheduler.beginWork card.id)
    let description ← liftPy (subtask.item "description")
    let taskType ← liftPy (subtaskType subtask)
    match description with
    | .str text =>
      let result ← runShared engine world (.developer index) engine.developer text taskType
      if result.success then do
        let _ ← onBoard (.completeWork card.id) (engine.scheduler.completeWork card.id)
        update fun ctx => { ctx with completedCount := ctx.completedCount + 1 }
        appendStage world
          { name := "developer:" ++ toString (index + 1), success := true
            details := developerDetails description total }
      else do
        let _ ← onBoard (.blockCard card.id "execution failed")
          (engine.scheduler.blockCard card.id "execution failed")
        fail engine world
          { name := "developer:" ++ toString (index + 1), success := false
            error := some (firstError result "Developer failed")
            details := developerDetails description total }
          ("Developer [" ++ text ++ "]: " ++ firstError result "failed")
    -- the executor's task validation calls `description.strip()`
    | _ => throw (.raised ⟨.attributeError, "object has no attribute 'strip'"⟩)

/-- The subtasks in order, from position `index`. -/
def developSubtasks (total : ℕ) : ℕ → List Json → EngineM Unit
  | _, [] => pure ()
  | index, subtask :: rest => do
    developSubtask engine world total index subtask
    developSubtasks total (index + 1) rest

/-- Write the produced files on the developer stages. -/
def withFiles (produced : List String) (stage : WorkflowStage) : WorkflowStage :=
  if startsWith stage.name "developer:" then
    { stage with details := setKey "files" (.arr (produced.map Json.str)) stage.details }
  else stage

/-- Block the last card, when there is one. -/
def blockLast (cards : List KanbanCard) (reason : String) : EngineM Unit :=
  match cards.getLast? with
  | some card => do
    let _ ← onBoard (.blockCard card.id reason) (engine.scheduler.blockCard card.id reason)
    return ()
  | none => pure ()

/-- The no-op verdict on the before/after delta of the working tree. -/
def noopCheck (before : List String) : EngineM Unit := do
  let after ← changedFiles world
  let produced := computeProducedFiles before after
  update fun ctx => { ctx with
    changedFiles := produced
    producedChange := hasRelevantChange produced
    stages := ctx.stages.map (withFiles produced) }
  let s ← get
  if isImplementationTask s.ctx.task && !s.ctx.producedChange then do
    blockLast engine s.ctx.cards (noopReason produced)
    fail engine world
      { name := "developer:noop", success := false, error := some (noopReason produced)
        details := [("changed_files", .arr (produced.map Json.str))] }
      (noopReason produced)
  else pure ()

/-- The files changed before the developer works; only git knows them. -/
def filesBefore : EngineM (List String) :=
  if engine.git.isSome then changedFiles world else pure []

/-- The no-op verdict needs git. -/
def noopPhase (before : List String) : EngineM Unit :=
  if engine.git.isSome then noopCheck engine world before else pure ()

/-- `_run_developer_phase` up to its gate. -/
def develop (subtasks : List Json) : EngineM Unit := do
  let before ← filesBefore engine world
  developSubtasks engine world subtasks.length 0 subtasks
  noopPhase engine world before

/-- `_run_developer_phase`. -/
def developerPhase (subtasks : List Json) : EngineM Unit := do
  develop engine world subtasks
  gatePhase engine world "code_gate" { projectPath := some engine.projectPath }

/-- The report that an agent printed, or an empty one. -/
def reportOf (result : AgentResult) : Except PyExc Json :=
  if result.output.truthy then result.output.loads else .ok (.obj [])

/-- `report or {}`. -/
def orEmpty (report : Option Json) : Json :=
  match report with
  | some document => if document.truthy then document else .obj []
  | none => .obj []

/-- Review: a failed review does not stop the run. -/
def reviewerPhase : EngineM Unit := do
  let result ← runAlone engine world .review engine.reviewer "review project" "review"
    [("target", .str engine.projectPath)]
  let report ← liftPy (reportOf result)
  update fun ctx => { ctx with reviewReport := some report }
  appendStage world { name := "reviewer", success := result.success }

/-- The tester runs only when the project has a `tests` directory. -/
def runTests (tester : Agent) : EngineM Unit := do
  let s ← get
  if world.testsDir s.trace then do
    let result ← runAlone engine world .test tester "run test suite" "test"
      [("target", .str (engine.projectPath ++ "/tests")), ("dry_run", .bool false)]
    let report ← liftPy (reportOf result)
    update fun ctx => { ctx with testReport := some report }
  else pure ()

/-- `if failed > 0`: the run ends. The stage was already recorded. -/
def stopOnFailures (failed : Json) : EngineM Unit := do
  let stops ← liftPy failed.gtZero
  if stops then do
    appendError ("Tester: " ++ failed.text ++ " test(s) failed")
    finish engine
  else pure ()

/-- The test stage; its value is the number of failures it read. -/
def testerPhase : EngineM Json := do
  match engine.tester with
  | some tester =>
    runTests engine world tester
    let s ← get
    let failed ← liftPy ((orEmpty s.ctx.testReport).getD "failed" (.ofNat 0))
    appendStage world { name := "tester", success := failed.eqZero }
    stopOnFailures engine failed
    return failed
  | none =>
    appendStage world (skippedStage "tester")
    stopOnFailures engine (.ofNat 0)
    return .ofNat 0

/-- Documentation: a failed fragment does not stop the run. -/
def documentationPhase (failed : Json) : EngineM Unit := do
  match engine.documentation with
  | some documentation =>
    let s ← get
    let passed ← liftPy ((orEmpty s.ctx.testReport).getD "passed" (.ofNat 0))
    let items ← liftPy ((orEmpty s.ctx.reviewReport).getD "items" (.arr []))
    let result ← runAlone engine world .documentation documentation "generate changelog fragment"
      "documentation"
      [("report", .obj
          [("summary", .obj [("passed", passed), ("failed", failed)]), ("items", items)]),
       ("dry_run", .bool false)]
    appendStage world { name := "documentation", success := result.success }
  | none => appendStage world (skippedStage "documentation")

/-- The release gate is meaningful only at release time. -/
def releasePhase : EngineM Unit :=
  if engine.qualityConfig.isSome ∧ engine.environment = "release" then
    gatePhase engine world "release_gate" { projectPath := some engine.projectPath }
  else pure ()

/-- Stage and commit; the outcome of staging is only kept in the state. -/
def gitPhase : EngineM Unit := do
  match engine.git with
  | some git =>
    let stageResult ← runAlone engine world .stage git "stage changes" "stage"
    update fun ctx => { ctx with commit := gitOperation stageResult }
    let s ← get
    let message ← liftPy (engine.commitFactory s.ctx)
    let commitResult ← runAlone engine world .commit git "commit changes" "commit"
      [("message", .str message)]
    update fun ctx => { ctx with commit := gitOperation commitResult }
    let error ← liftPy (gitError commitResult)
    appendStage world { name := "git", success := commitResult.success, error }
    if commitResult.success then pure ()
    else appendError ("Git: commit failed: " ++ errorText error)
  | none => appendStage world (skippedStage "git")

/-- From the planner's subtasks to the last gate before the commit. -/
def implement (createBranch : Bool) (subtasks : Json) : EngineM Unit := do
  branchPhase engine world createBranch
  let items ← schedulerPhase engine world subtasks
  developerPhase engine world items
  reviewerPhase engine world
  gatePhase engine world "security_gate" { projectPath := some engine.projectPath }
  let failed ← testerPhase engine world
  let s ← get
  gatePhase engine world "test_gate" { testReport := s.ctx.testReport }
  documentationPhase engine world failed
  gatePhase engine world "documentation_gate" { projectPath := some engine.projectPath }
  releasePhase engine world

/-- The first quality event of a run. -/
def publishStarted : EngineM Unit :=
  if (engine.gates world).isEmpty then pure ()
  else publishQuality engine (.started engine.environment)

/-- Everything in front of the last git phase. -/
def prepare (task : Task) (createBranch : Bool) : EngineM Unit := do
  publishStarted engine world
  researchPhase engine world task
  let subtasks ← plannerPhase engine world task
  implement engine world createBranch subtasks

/-- The last git phase and the end of the run. -/
def deliver : EngineM Unit := do
  gitPhase engine world
  finish engine

/-- `_execute` after the execution state was set up. -/
def pipeline (task : Task) (createBranch : Bool) : EngineM Unit := do
  prepare engine world task createBranch
  deliver engine world

/-- The state in which the pipeline starts. -/
def begin (task : Task) (context : Option Context) (kanban : KanbanState) : EngineState where
  ctx :=
    { task, runId := world.runId, goal := task.description
      intent := (applyWorkflowIntent context).bind Context.intent
      qualityActive := !(engine.gates world).isEmpty }
  context := applyWorkflowIntent context
  kanban := kanban

/-- `WorkflowEngine.execute`: the result or exception, and the state left. -/
def execute (task : Task) (context : Option Context) (createBranch : Bool)
    (kanban : KanbanState) : Except PyExc WorkflowResult × EngineState :=
  match pipeline engine world task createBranch (begin engine world task context kanban) with
  | .ok _ s => (.ok (.fromContext s.ctx), s)
  | .error (.returned result) s => (.ok result, s)
  | .error (.raised exc) s => (.error exc, s)

end Run

end WorkflowEngine

end AiosDeck.Workflow
