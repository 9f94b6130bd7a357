import AiosDeck.Python.Regex
import AiosDeck.Scheduler.Engine

/-!
# Backlog runner

The tasks of a board are its cards in `Todo`. They run one after the other
through the kernel, and each update looks its card up again by title.
-/

namespace AiosDeck.Backlog

open Python Scheduler

/-- `BacklogTask`. -/
structure BacklogTask where
  title : Text
  type : Text := "feat".toList
  scope : Text := []
  subject : Text := []
  version : Text := []
  source : Text := []
  index : ℕ := 0

/-- Status of a `BacklogRunResult`. -/
inductive BacklogStatus where
  | succeeded
  | failed
  | skipped
  deriving DecidableEq, Repr

structure BacklogRunResult where
  task : BacklogTask
  status : BacklogStatus := .succeeded
  commitSha : Json := .str ""
  error : Text := []

section Parser

/-- `_CONVENTIONAL_RE`; `word` is the class of word characters. -/
def conventionalRe (word : Char → Bool) : Regex :=
  .all [.capture "type" (.plus (.chars word)),
    .optional (.all [.char '(', .capture "scope" (.star true (.chars (· != ')'))), .char ')']),
    .char ':', .star true .space,
    .capture "subject" (.seq .dot (.star false .dot)),
    .optional (.all [.star true .space, .char '(',
      .capture "version" (.all [.char 'v', .plus .digit, .char '.', .plus .digit, .char '.',
        .plus .digit]),
      .char ')']),
    .textEnd]

/-- `first or second` for texts. -/
def orElse (first second : Text) : Text := if first = [] then second else first

/-- `parse_conventional`: type, scope, subject and version. -/
def parseConventional (word : Char → Bool) (title : Text) : Text × Text × Text × Text :=
  match (conventionalRe word).match? (strip title) with
  | none => ([], [], [], [])
  | some m => (m.group "type", m.group "scope", strip (m.group "subject"), m.group "version")

/-- A title read from its column is a text. -/
def titleText : Json → Except PyExc Text
  | .str title => .ok title.toList
  | _ => .error ⟨.attributeError, "object has no attribute 'strip'"⟩

/-- The task of a card. -/
def taskOf (word : Char → Bool) (boardName title : Text) (index : ℕ) : BacklogTask :=
  let (typ, scope, subject, version) := parseConventional word title
  { title
    type := orElse typ "feat".toList
    scope
    subject := orElse subject title
    version
    source := "kanban:".toList ++ boardName
    index }

/-- The loop over the cards, from the card with this index on. -/
def tasksFrom (word : Char → Bool) (boardName : Text) : ℕ → List KanbanCard →
    Except PyExc (List BacklogTask)
  | _, [] => .ok []
  | i, card :: rest =>
    if card.column ≠ .todo then tasksFrom word boardName (i + 1) rest
    else do
      let title ← titleText card.title
      return taskOf word boardName title i :: (← tasksFrom word boardName (i + 1) rest)

/-- The first board with this name. -/
def boardNamed (boardName : Text) (boards : List KanbanBoard) : Option KanbanBoard :=
  boards.find? fun board => board.name.toList = boardName

/-- `load_tasks_from_kanban`. -/
def loadTasksFromKanban (word : Char → Bool) (engine : KanbanEngine) (boardName : Text) :
    KanbanM (List BacklogTask) := do
  match boardNamed boardName (← engine.listBoards) with
  | none => return []
  | some board =>
    match tasksFrom word boardName 0 (← engine.listCards board.id) with
    | .ok tasks => return tasks
    | .error exc => throw exc

end Parser

/-- Summary of a stage. -/
structure StageSummary where
  name : Text
  details : Json := .obj []

/-- What `Kernel.run` returns. -/
structure RunResult where
  success : Bool
  stages : List StageSummary := []
  errors : List Text := []

/-- What the runner hands to `Kernel.run`. -/
structure KernelTask where
  description : Text
  taskType : Text
  commitMessage : Text
  createBranch : Bool

/-- A kernel: what it answers to the task at this place of the backlog, and
what the run does to the boards. -/
structure Kernel where
  answer : ℕ → KernelTask → Except PyExc RunResult
  effect : ℕ → KernelTask → KanbanState → KanbanState

/-- The column that an update names, or `blocked`. -/
inductive Update where
  | inProgress
  | done
  | blocked (reason : Text)

structure BacklogRunner where
  kernel : Kernel
  kanban : Option KanbanEngine := none

namespace BacklogRunner

/-- The loop of `_extract_commit_sha` over the stages. -/
def shaOfStages : List StageSummary → Except PyExc Json
  | [] => .ok (.str "")
  | stage :: rest => do
    let details := if stage.details.truthy then stage.details else .obj []
    let found ← details.get? "commit"
    let commit := found.getD .null
    let commitInfo := if commit.truthy then commit else .obj []
    match commitInfo with
    | .obj fields => return (fields.lookup "sha").getD (.str "")
    | _ => shaOfStages rest

/-- `_extract_commit_sha`: a result has stages, and no commit of its own. -/
def extractCommitSha (result : RunResult) : Except PyExc Json := shaOfStages result.stages

/-- `_build_commit_factory`. -/
def commitMessage (task : BacklogTask) : Text :=
  let scopePart := if task.scope = [] then [] else '(' :: task.scope ++ [')']
  let versionPart := if task.version = [] then [] else " (".toList ++ task.version ++ [')']
  task.type ++ scopePart ++ ": ".toList ++ task.subject ++ versionPart

/-- The task of the kernel, as `_execute_task` builds it. -/
def kernelTask (task : BacklogTask) (createBranch : Bool) : KernelTask where
  description := orElse task.subject task.title
  taskType := task.type
  commitMessage := commitMessage task
  createBranch

/-- What became of a task. -/
structure Verdict where
  status : BacklogStatus
  commitSha : Json := .str ""
  error : Text := []

/-- The `try` block around the kernel. -/
def judge (answer : Except PyExc RunResult) : Verdict :=
  match answer with
  | .error exc => { status := .failed, error := exc.message.toList }
  | .ok result =>
    let error := if result.success then []
      else if result.errors = [] then "task failed".toList
      else "; ".toList.intercalate result.errors
    match extractCommitSha result with
    | .ok commitSha => { status := if result.success then .succeeded else .failed, commitSha, error }
    | .error exc => { status := .failed, error := exc.message.toList }

variable (runner : BacklogRunner)

/-- The name of the board that a task comes from. -/
def sourceBoard (task : BacklogTask) : Option Text :=
  if "kanban:".toList.isPrefixOf task.source then some (afterFirst ':' task.source) else none

/-- `card.title == task.title`. -/
def titled (title : Text) (card : KanbanCard) : Bool :=
  match card.title with
  | .str found => found.toList = title
  | _ => false

/-- The operation of the engine for an update. -/
def applyUpdate (engine : KanbanEngine) (cardId : ℕ) : Update → KanbanM (Option KanbanCard)
  | .blocked reason => engine.blockCard cardId (String.ofList reason)
  | .inProgress => engine.beginWork cardId
  | .done => engine.completeWork cardId

/-- `_update_kanban`. -/
def updateKanban (task : BacklogTask) (update : Update) : KanbanM Unit := do
  match runner.kanban with
  | none => return ()
  | some engine =>
    let boards ← engine.listBoards
    match (sourceBoard task).bind fun boardName => boardNamed boardName boards with
    | none => return ()
    | some board =>
      match (← engine.listCards board.id).find? (titled task.title) with
      | none => return ()
      | some card => do
        let _ ← applyUpdate engine card.id update
        return ()

/-- The verdict on the task at this place. -/
def verdict (createBranch : Bool) (i : ℕ) (task : BacklogTask) : Verdict :=
  judge (runner.kernel.answer i (kernelTask task createBranch))

/-- The update behind a run. -/
def Verdict.update (verdict : Verdict) : Update :=
  if verdict.status = .succeeded then .done else .blocked verdict.error

/-- One task that is not skipped. -/
def runTask (createBranch : Bool) (i : ℕ) (task : BacklogTask) : KanbanM BacklogRunResult := do
  runner.updateKanban task .inProgress
  modify (runner.kernel.effect i (kernelTask task createBranch))
  let verdict := runner.verdict createBranch i task
  runner.updateKanban task verdict.update
  return { task, status := verdict.status, commitSha := verdict.commitSha, error := verdict.error }

/-- The loop over the tasks, from the task with this number on. -/
def runFrom (stopOnError : Bool) (fromIndex : ℤ) (createBranch : Bool) :
    ℕ → List BacklogTask → KanbanM (List BacklogRunResult)
  | _, [] => return []
  | i, task :: rest =>
    if (i : ℤ) < fromIndex then do
      return { task, status := .skipped } ::
        (← runFrom stopOnError fromIndex createBranch (i + 1) rest)
    else do
      let result ← runner.runTask createBranch i task
      if result.status = .failed ∧ stopOnError = true then return [result]
      else return result :: (← runFrom stopOnError fromIndex createBranch (i + 1) rest)

/-- `run`. -/
def run (tasks : List BacklogTask) (stopOnError : Bool) (fromIndex : ℤ) (createBranch : Bool) :
    KanbanM (List BacklogRunResult) :=
  runner.runFrom stopOnError fromIndex createBranch 0 tasks

end BacklogRunner

end AiosDeck.Backlog
