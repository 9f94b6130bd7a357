import AiosDeck.Python.Values

/-!
# Kanban store

The rows of `kanban_boards`, `kanban_cards` and `kanban_subtasks`, and the
statements of `KanbanStore` over them. Each statement commits by itself.
Any statement may fail with an error of the database: a failed write raises
it, a failed read answers as if there were no row.
-/

namespace AiosDeck.Scheduler

open Python

/-- `COLUMNS`, in their order on the board. -/
inductive Column where
  | backlog
  | todo
  | inProgress
  | review
  | done
  deriving DecidableEq, Repr

/-- `COLUMNS.index(column)`. -/
def Column.index : Column → ℕ
  | .backlog => 0
  | .todo => 1
  | .inProgress => 2
  | .review => 3
  | .done => 4

/-- Name of a column as stored. -/
def Column.name : Column → String
  | .backlog => "Backlog"
  | .todo => "Todo"
  | .inProgress => "InProgress"
  | .review => "Review"
  | .done => "Done"

/-- The column with this name, when there is one. -/
def Column.parse (name : String) : Option Column :=
  [Column.backlog, .todo, .inProgress, .review, .done].find? fun column => column.name == name

@[simp] theorem Column.parse_name (column : Column) : Column.parse column.name = some column := by
  cases column <;> decide

/-- `KanbanError`. -/
abbrev kanbanError : ExcClass := .user "KanbanError"

structure KanbanSubtask where
  id : ℕ
  cardId : ℕ
  description : String
  done : Bool := false
  deriving DecidableEq, Repr

/-- A card. Its title is the value that was bound on insertion; `subtasks`
is filled by a read and is empty in a stored row. -/
structure KanbanCard where
  id : ℕ
  boardId : ℕ
  title : Json
  description : String := ""
  column : Column := .backlog
  tddGate : Bool := false
  projectId : String
  blocked : Bool := false
  blockReason : String := ""
  subtasks : List KanbanSubtask := []

structure KanbanBoard where
  id : ℕ
  name : String
  status : String := "active"
  projectId : String
  deriving DecidableEq, Repr

/-- An event on the bus, in the order of publication. -/
inductive KanbanEvent where
  | cardMoved (cardId : ℕ) (title : Json) (fromColumn : Option Column) (toColumn : Column)
      (boardId : ℕ)
  | cardBlocked (cardId : ℕ) (title : Json) (reason : String) (column : Column) (boardId : ℕ)
  | subtaskCreated (subtaskId cardId : ℕ) (description : String)
  | subtaskCompleted (subtaskId : ℕ)

/-- The three tables, the counters of their keys, the statements executed so
far and the events published. -/
structure KanbanState where
  boards : List KanbanBoard := []
  cards : List KanbanCard := []
  subtasks : List KanbanSubtask := []
  boardSeq : ℕ := 0
  cardSeq : ℕ := 0
  subtaskSeq : ℕ := 0
  statements : ℕ := 0
  events : List KanbanEvent := []

/-- An opened engine: its project, whether a bus is attached, and the error
with which the database answers the statement of that number. -/
structure KanbanEngine where
  projectId : String
  bus : Bool := false
  fault : ℕ → Option PyExc := fun _ => none

abbrev KanbanM := EStateM PyExc KanbanState

/-- Whether a value can be bound to a `TEXT NOT NULL` column. -/
def bindText : Json → Except PyExc Unit
  | .null => .error ⟨.sqliteIntegrity, "NOT NULL constraint failed"⟩
  | .num (.int n) =>
    if n < -2 ^ 63 ∨ 2 ^ 63 ≤ n then
      .error ⟨.overflowError, "Python int too large to convert to SQLite INTEGER"⟩
    else .ok ()
  | .num (.float .nan) => .error ⟨.sqliteIntegrity, "NOT NULL constraint failed"⟩
  | .arr _ => .error ⟨.sqliteInterface, "Error binding parameter: type 'list' is not supported"⟩
  | .obj _ => .error ⟨.sqliteInterface, "Error binding parameter: type 'dict' is not supported"⟩
  | _ => .ok ()

namespace KanbanStore

variable (engine : KanbanEngine)

/-- Count one statement and give the error it meets. -/
def statement : KanbanM (Option PyExc) := do
  let s ← get
  set { s with statements := s.statements + 1 }
  return engine.fault s.statements

/-- `_execute`: a write, which raises the error it meets. -/
def execute (effect : KanbanState → KanbanState) : KanbanM Unit := do
  match ← statement engine with
  | some exc => throw exc
  | none => modify effect

/-- `_fetch_all`: the rows found, none when the read fails. -/
def fetchAll {α : Type} (query : KanbanState → List α) : KanbanM (List α) := do
  match ← statement engine with
  | some _ => return []
  | none => return query (← get)

/-- `_fetch_one`: the first row found. -/
def fetchOne {α : Type} (query : KanbanState → List α) : KanbanM (Option α) := do
  return (← fetchAll engine query).head?

/-- `UPDATE kanban_cards SET ... WHERE id=?`. -/
def updateCard (cardId : ℕ) (change : KanbanCard → KanbanCard) : KanbanM Unit :=
  execute engine fun s => { s with
    cards := s.cards.map fun card => if card.id = cardId then change card else card }

def createBoard (name : String) : KanbanM KanbanBoard := do
  execute engine fun s => { s with
    boards := s.boards ++ [{ id := s.boardSeq + 1, name, projectId := engine.projectId }]
    boardSeq := s.boardSeq + 1 }
  return { id := (← get).boardSeq, name, projectId := engine.projectId }

def getBoard (boardId : ℕ) : KanbanM (Option KanbanBoard) :=
  fetchOne engine fun s => s.boards.filter fun board =>
    board.id = boardId ∧ board.projectId = engine.projectId

def listBoards : KanbanM (List KanbanBoard) :=
  fetchAll engine fun s => s.boards.filter fun board => board.projectId = engine.projectId

/-- `create_card`: the title is bound first, then the board must exist. -/
def createCard (boardId : ℕ) (title : Json) (description : String := "") : KanbanM KanbanCard := do
  match bindText title with
  | .error exc => throw exc
  | .ok () =>
    if (← get).boards.any fun board => board.id == boardId then
      execute engine fun s => { s with
        cards := s.cards ++
          [{ id := s.cardSeq + 1, boardId, title, description, projectId := engine.projectId }]
        cardSeq := s.cardSeq + 1 }
      return { id := (← get).cardSeq, boardId, title, description, projectId := engine.projectId }
    else throw ⟨.sqliteIntegrity, "FOREIGN KEY constraint failed"⟩

def getSubtasks (cardId : ℕ) : KanbanM (List KanbanSubtask) :=
  fetchAll engine fun s => s.subtasks.filter fun subtask => subtask.cardId = cardId

def getCard (cardId : ℕ) : KanbanM (Option KanbanCard) := do
  let row ← fetchOne engine fun s => s.cards.filter fun card =>
    card.id = cardId ∧ card.projectId = engine.projectId
  match row with
  | none => return none
  | some card => return some { card with subtasks := ← getSubtasks engine cardId }

/-- Complete the rows of a listing with their subtasks. -/
def withSubtasks : List KanbanCard → KanbanM (List KanbanCard)
  | [] => return []
  | card :: rest => do
    let subtasks ← getSubtasks engine card.id
    return { card with subtasks } :: (← withSubtasks rest)

def listCards (boardId : ℕ) : KanbanM (List KanbanCard) := do
  let rows ← fetchAll engine fun s => s.cards.filter fun card =>
    card.boardId = boardId ∧ card.projectId = engine.projectId
  withSubtasks engine rows

/-- `move_card`: a card of the project advances by at most one column, goes
back freely, and enters `Done` only with its gate passed. -/
def moveCard (cardId : ℕ) (column : String) : KanbanM (Option KanbanCard) := do
  match Column.parse column with
  | none => throw ⟨kanbanError, "Unknown kanban column: " ++ column⟩
  | some target =>
    match ← getCard engine cardId with
    | none => throw ⟨kanbanError, "Card not found: " ++ toString cardId⟩
    | some card =>
      if target = card.column then return some card
      else if target = .done ∧ card.tddGate = false then
        throw ⟨kanbanError, "TDD gate not passed: cannot move to 'Done' without green tests"⟩
      else if card.column.index + 1 < target.index then
        throw ⟨kanbanError, "Cannot skip columns: " ++ card.column.name ++ " -> " ++ target.name⟩
      else
        updateCard engine cardId fun row => { row with column := target }
        getCard engine cardId

def passTddGate (cardId : ℕ) : KanbanM Unit :=
  updateCard engine cardId fun row => { row with tddGate := true }

def setBlocked (cardId : ℕ) (reason : String := "") : KanbanM (Option KanbanCard) := do
  updateCard engine cardId fun row => { row with blocked := true, blockReason := reason }
  getCard engine cardId

def createSubtask (cardId : ℕ) (description : String) : KanbanM KanbanSubtask := do
  if (← get).cards.any fun card => card.id == cardId then
    execute engine fun s => { s with
      subtasks := s.subtasks ++ [{ id := s.subtaskSeq + 1, cardId, description }]
      subtaskSeq := s.subtaskSeq + 1 }
    return { id := (← get).subtaskSeq, cardId, description }
  else throw ⟨.sqliteIntegrity, "FOREIGN KEY constraint failed"⟩

def completeSubtask (subtaskId : ℕ) : KanbanM Unit :=
  execute engine fun s => { s with
    subtasks := s.subtasks.map fun subtask =>
      if subtask.id = subtaskId then { subtask with done := true } else subtask }

end KanbanStore

end AiosDeck.Scheduler
