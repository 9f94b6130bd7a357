import AiosDeck.Scheduler.Store

/-!
# Kanban engine

The public operations on boards and cards: they call the store and publish
what happened when a bus is attached. `begin_work` and `complete_work` chain
several moves, each of which may be refused.
-/

namespace AiosDeck.Scheduler

open Python

namespace KanbanEngine

variable (engine : KanbanEngine)

/-- `self._bus.publish(...)`. -/
def publish (event : KanbanEvent) : KanbanM Unit :=
  modify fun s => { s with events := s.events ++ [event] }

def createBoard (name : String) : KanbanM KanbanBoard := KanbanStore.createBoard engine name

def getBoard (boardId : ℕ) : KanbanM (Option KanbanBoard) := KanbanStore.getBoard engine boardId

def listBoards : KanbanM (List KanbanBoard) := KanbanStore.listBoards engine

def createCard (boardId : ℕ) (title : Json) (description : String := "") : KanbanM KanbanCard :=
  KanbanStore.createCard engine boardId title description

def getCard (cardId : ℕ) : KanbanM (Option KanbanCard) := KanbanStore.getCard engine cardId

def listCards (boardId : ℕ) : KanbanM (List KanbanCard) := KanbanStore.listCards engine boardId

/-- Attribute access on a result that may be `None`. -/
def deref (result : Option KanbanCard) : KanbanM KanbanCard :=
  match result with
  | some card => return card
  | none => throw ⟨.attributeError, "'NoneType' object has no attribute 'column'"⟩

/-- The refused move is announced when it aimed at `Done`, whatever the
reason of the refusal. -/
def announceRefusal (cardId : ℕ) (column : String) : KanbanM Unit := do
  if column = "Done" ∧ engine.bus = true then
    match ← KanbanStore.getCard engine cardId with
    | some card =>
      publish (.cardBlocked card.id card.title
        "TDD gate not passed: cannot move to 'Done' without green tests" card.column card.boardId)
    | none => pure ()
  else pure ()

/-- Column of the card before a move; read only for the bus. -/
def columnBefore (cardId : ℕ) : KanbanM (Option Column) :=
  if engine.bus then do
    return (← KanbanStore.getCard engine cardId).map KanbanCard.column
  else return none

/-- A refused move: `KanbanError` is announced, and every error passes on. -/
def onRefusal (cardId : ℕ) (column : String) (exc : PyExc) : KanbanM (Option KanbanCard) :=
  if exc.cls = kanbanError then do
    announceRefusal engine cardId column
    throw exc
  else throw exc

/-- A move is announced when the column changed. -/
def announceMove (oldColumn : Option Column) (result : Option KanbanCard) : KanbanM Unit :=
  if engine.bus then do
    let card ← deref result
    if oldColumn ≠ some card.column then
      publish (.cardMoved card.id card.title oldColumn card.column card.boardId)
    else pure ()
  else pure ()

def moveCard (cardId : ℕ) (column : String) : KanbanM (Option KanbanCard) := do
  let oldColumn ← columnBefore engine cardId
  let result ← tryCatch (KanbanStore.moveCard engine cardId column) (onRefusal engine cardId column)
  announceMove engine oldColumn result
  return result

/-- A block is announced with the card as it is now. -/
def announceBlock (reason : String) (result : Option KanbanCard) : KanbanM Unit :=
  if engine.bus then do
    let card ← deref result
    publish (.cardBlocked card.id card.title reason card.column card.boardId)
  else pure ()

def blockCard (cardId : ℕ) (reason : String := "") : KanbanM (Option KanbanCard) := do
  let result ← KanbanStore.setBlocked engine cardId reason
  announceBlock engine reason result
  return result

def passTddGate (cardId : ℕ) : KanbanM Unit := KanbanStore.passTddGate engine cardId

/-- Move a card to the active work column for the current flow. -/
def beginWork (cardId : ℕ) : KanbanM (Option KanbanCard) := do
  let _ ← moveCard engine cardId "Todo"
  moveCard engine cardId "InProgress"

/-- Move a card to the done column for the current flow, gate included. -/
def completeWork (cardId : ℕ) : KanbanM (Option KanbanCard) := do
  let _ ← moveCard engine cardId "Review"
  passTddGate engine cardId
  moveCard engine cardId "Done"

/-- `if self._bus is not None: self._bus.publish(...)`. -/
def publishWhenWired (event : KanbanEvent) : KanbanM Unit :=
  if engine.bus then publish event else pure ()

def createSubtask (cardId : ℕ) (description : String) : KanbanM KanbanSubtask := do
  let subtask ← KanbanStore.createSubtask engine cardId description
  publishWhenWired engine (.subtaskCreated subtask.id subtask.cardId subtask.description)
  return subtask

def completeSubtask (subtaskId : ℕ) : KanbanM Unit := do
  KanbanStore.completeSubtask engine subtaskId
  publishWhenWired engine (.subtaskCompleted subtaskId)

end KanbanEngine

end AiosDeck.Scheduler
