import Mathlib
import AiosDeck.Memory.Store

/-!
# Deletions from the memory

Every store of a connection adds to one counter of changed rows, and a deletion
answers by that counter. The rows that it removes are right in every history; its
answer is right as long as nothing has changed before or there is something to
remove.
-/

namespace AiosDeck.Memory

/-- A connection since it was opened, with the sequences of its tables. -/
structure Connection where
  memories : Memories := {}
  conventionSequence : ℤ := 0
  patternSequence : ℤ := 0
  /-- `total_changes`. -/
  totalChanges : ℕ := 0

/-- One of the tables: its rows, and the key and the project of a row. -/
structure MemoryTable (α : Type) where
  rows : Memories → List α
  replace : List α → Memories → Memories
  key : α → String
  owner : α → String

def conventionsTable : MemoryTable ConventionRow where
  rows := Memories.conventions
  replace := fun conventions memories => { memories with conventions }
  key := ConventionRow.rule
  owner := ConventionRow.projectId

def decisionsTable : MemoryTable DecisionRow where
  rows := Memories.decisions
  replace := fun decisions memories => { memories with decisions }
  key := DecisionRow.title
  owner := DecisionRow.projectId

def patternsTable : MemoryTable PatternRow where
  rows := Memories.patterns
  replace := fun patterns memories => { memories with patterns }
  key := PatternRow.name
  owner := PatternRow.projectId

def mistakesTable : MemoryTable MistakeRow where
  rows := Memories.mistakes
  replace := fun mistakes memories => { memories with mistakes }
  key := MistakeRow.description
  owner := MistakeRow.projectId

namespace MemoryTable

variable {α : Type} (table : MemoryTable α)

/-- `key=? AND project_id=?`. -/
def isKeyed (projectId key : String) (row : α) : Bool :=
  decide (table.key row = key) && decide (table.owner row = projectId)

/-- The body of a `delete_*`: the statement, the commit, and the counter. -/
def delete (projectId key : String) (connection : Connection) : Bool × Connection :=
  let rows := table.rows connection.memories
  let after : Connection :=
    { connection with
      memories := table.replace (rows.filter fun row => !table.isKeyed projectId key row)
        connection.memories
      totalChanges := connection.totalChanges + rows.countP (table.isKeyed projectId key) }
  (decide (0 < after.totalChanges), after)

end MemoryTable

namespace Connection

variable (projectId : String)

/-- `delete_convention`. -/
def deleteConvention (rule : String) : Connection → Bool × Connection :=
  conventionsTable.delete projectId rule

/-- `delete_decision`. -/
def deleteDecision (title : String) : Connection → Bool × Connection :=
  decisionsTable.delete projectId title

/-- `delete_pattern`. -/
def deletePattern (name : String) : Connection → Bool × Connection :=
  patternsTable.delete projectId name

/-- `delete_mistake`. -/
def deleteMistake (description : String) : Connection → Bool × Connection :=
  mistakesTable.delete projectId description

/-- `upsert_convention`. -/
def upsertConvention (rule category source : String) (connection : Connection) : Connection :=
  let conventions := connection.memories.conventions
  match conventions.find? (conventionsTable.isKeyed projectId rule) with
  | some existing =>
    { connection with
      memories := { connection.memories with
        conventions := conventions.map fun row =>
          if row.id = existing.id then { row with category, source } else row }
      totalChanges := connection.totalChanges +
        conventions.countP fun row => decide (row.id = existing.id) }
  | none =>
    { connection with
      memories := { connection.memories with
        conventions := conventions ++
          [⟨connection.conventionSequence + 1, category, rule, source, projectId⟩] }
      conventionSequence := connection.conventionSequence + 1
      totalChanges := connection.totalChanges + 1 }

/-- `add_decision`. -/
def addDecision (title context decision consequences : String) (connection : Connection) :
    Connection :=
  { connection with
    memories := connection.memories.addDecision projectId title context decision consequences
    totalChanges := connection.totalChanges + 1 }

/-- `add_pattern`. -/
def addPattern (name description : String) (connection : Connection) : Connection :=
  let patterns := connection.memories.patterns
  match patterns.find? (patternsTable.isKeyed projectId name) with
  | some existing =>
    { connection with
      memories := { connection.memories with
        patterns := patterns.map fun row =>
          if row.id = existing.id then { row with usageCount := row.usageCount + 1 } else row }
      totalChanges := connection.totalChanges +
        patterns.countP fun row => decide (row.id = existing.id) }
  | none =>
    { connection with
      memories := { connection.memories with
        patterns := patterns ++ [⟨connection.patternSequence + 1, name, description, 1, projectId⟩] }
      patternSequence := connection.patternSequence + 1
      totalChanges := connection.totalChanges + 1 }

/-- `add_mistake`. -/
def addMistake (description category severity : String) (connection : Connection) : Connection :=
  { connection with
    memories := connection.memories.addMistake projectId description category severity
    totalChanges := connection.totalChanges + 1 }

end Connection

/-- What is deleted: an entry of one of the tables, by its key. -/
inductive Deletion where
  | convention (rule : String)
  | decision (title : String)
  | pattern (name : String)
  | mistake (description : String)
  deriving DecidableEq

namespace Deletion

/-- The deletion as the stores run it. -/
def run (projectId : String) : Deletion → Connection → Bool × Connection
  | convention rule => Connection.deleteConvention projectId rule
  | decision title => Connection.deleteDecision projectId title
  | pattern name => Connection.deletePattern projectId name
  | mistake description => Connection.deleteMistake projectId description

/-- The project has a row with the key. -/
def Exists (projectId : String) (memories : Memories) : Deletion → Prop
  | convention rule => ∃ row ∈ memories.conventions, row.rule = rule ∧ row.projectId = projectId
  | decision title => ∃ row ∈ memories.decisions, row.title = title ∧ row.projectId = projectId
  | pattern name => ∃ row ∈ memories.patterns, row.name = name ∧ row.projectId = projectId
  | mistake description =>
    ∃ row ∈ memories.mistakes, row.description = description ∧ row.projectId = projectId

/-- The memory without the rows of the project that have the key. -/
def without (projectId : String) (memories : Memories) : Deletion → Memories
  | convention rule => { memories with
      conventions := memories.conventions.filter fun row => ¬(row.rule = rule ∧ row.projectId = projectId) }
  | decision title => { memories with
      decisions := memories.decisions.filter fun row => ¬(row.title = title ∧ row.projectId = projectId) }
  | pattern name => { memories with
      patterns := memories.patterns.filter fun row => ¬(row.name = name ∧ row.projectId = projectId) }
  | mistake description => { memories with
      mistakes := memories.mistakes.filter fun row =>
        ¬(row.description = description ∧ row.projectId = projectId) }

/-- The deletion removes the rows of the project that have the key and no others, and
says whether there were any. -/
structure Right (projectId : String) (deletion : Deletion) (connection : Connection) : Prop where
  removed : (deletion.run projectId connection).2.memories =
    deletion.without projectId connection.memories
  answer : (deletion.run projectId connection).1 = true ↔
    deletion.Exists projectId connection.memories

end Deletion

/-- One operation of a store of the connection. -/
inductive Operation where
  | upsertConvention (projectId rule category source : String)
  | addDecision (projectId title context decision consequences : String)
  | addPattern (projectId name description : String)
  | addMistake (projectId description category severity : String)
  | delete (projectId : String) (deletion : Deletion)
  /-- A store of other tables changes this many rows. -/
  | other (changes : ℕ)

namespace Operation

/-- What the operation makes of the connection. -/
def step (connection : Connection) : Operation → Connection
  | upsertConvention projectId rule category source =>
    connection.upsertConvention projectId rule category source
  | addDecision projectId title context decision consequences =>
    connection.addDecision projectId title context decision consequences
  | addPattern projectId name description => connection.addPattern projectId name description
  | addMistake projectId description category severity =>
    connection.addMistake projectId description category severity
  | delete projectId deletion => (deletion.run projectId connection).2
  | other changes => { connection with totalChanges := connection.totalChanges + changes }

end Operation

/-- The connection after a history. -/
def history (operations : List Operation) (connection : Connection) : Connection :=
  operations.foldl Operation.step connection

/-- Every deletion of the history is right where it is made. -/
def DeletesRight (operations : List Operation) (connection : Connection) : Prop :=
  ∀ before projectId deletion behind, operations = before ++ .delete projectId deletion :: behind →
    deletion.Right projectId (history before connection)

section Deletions

variable {projectId : String} {connection : Connection}

namespace MemoryTable

variable {α : Type} {table : MemoryTable α} {key : String}

theorem isKeyed_iff {row : α} :
    table.isKeyed projectId key row = true ↔ table.key row = key ∧ table.owner row = projectId := by
  unfold isKeyed
  rw [Bool.and_eq_true, decide_eq_true_iff, decide_eq_true_iff]

theorem countP_isKeyed_pos {rows : List α} :
    0 < rows.countP (table.isKeyed projectId key) ↔
      ∃ row ∈ rows, table.key row = key ∧ table.owner row = projectId := by
  rw [List.countP_pos_iff]
  exact exists_congr fun row => and_congr_right fun _ => isKeyed_iff

/-- A deletion that finds a row, or comes behind a change, says that it removed one. -/
theorem delete_answer : (table.delete projectId key connection).1 = true ↔
    0 < connection.totalChanges ∨
      ∃ row ∈ table.rows connection.memories, table.key row = key ∧ table.owner row = projectId := by
  unfold delete
  rw [decide_eq_true_iff, ← countP_isKeyed_pos]
  dsimp only
  omega

/-- A deletion counts the rows that it removes. -/
theorem delete_totalChanges :
    (table.delete projectId key connection).2.totalChanges = connection.totalChanges ↔
      ¬∃ row ∈ table.rows connection.memories,
        table.key row = key ∧ table.owner row = projectId := by
  unfold delete
  rw [← countP_isKeyed_pos]
  dsimp only
  omega

theorem filter_isKeyed (table : MemoryTable α) (projectId key : String) (rows : List α) :
    (rows.filter fun row => !table.isKeyed projectId key row) =
      rows.filter fun row => ¬(table.key row = key ∧ table.owner row = projectId) := by
  refine List.filter_congr fun row _ => ?_
  rw [Bool.eq_iff_iff, Bool.not_eq_true', decide_eq_true_iff, ← isKeyed_iff, Bool.not_eq_true]

end MemoryTable

namespace Deletion

variable {deletion : Deletion}

theorem run_memories : (deletion.run projectId connection).2.memories =
    deletion.without projectId connection.memories := by
  cases deletion with
  | convention rule =>
    exact congrArg (fun conventions => { connection.memories with conventions })
      (conventionsTable.filter_isKeyed projectId rule _)
  | decision title =>
    exact congrArg (fun decisions => { connection.memories with decisions })
      (decisionsTable.filter_isKeyed projectId title _)
  | pattern name =>
    exact congrArg (fun patterns => { connection.memories with patterns })
      (patternsTable.filter_isKeyed projectId name _)
  | mistake description =>
    exact congrArg (fun mistakes => { connection.memories with mistakes })
      (mistakesTable.filter_isKeyed projectId description _)

theorem run_answer : (deletion.run projectId connection).1 = true ↔
    0 < connection.totalChanges ∨ deletion.Exists projectId connection.memories := by
  cases deletion with
  | convention rule => exact MemoryTable.delete_answer
  | decision title => exact MemoryTable.delete_answer
  | pattern name => exact MemoryTable.delete_answer
  | mistake description => exact MemoryTable.delete_answer

theorem run_totalChanges : (deletion.run projectId connection).2.totalChanges =
    connection.totalChanges ↔ ¬deletion.Exists projectId connection.memories := by
  cases deletion with
  | convention rule => exact MemoryTable.delete_totalChanges
  | decision title => exact MemoryTable.delete_totalChanges
  | pattern name => exact MemoryTable.delete_totalChanges
  | mistake description => exact MemoryTable.delete_totalChanges

theorem totalChanges_le_run :
    connection.totalChanges ≤ (deletion.run projectId connection).2.totalChanges := by
  cases deletion with
  | convention rule => exact Nat.le_add_right _ _
  | decision title => exact Nat.le_add_right _ _
  | pattern name => exact Nat.le_add_right _ _
  | mistake description => exact Nat.le_add_right _ _

/-- Without a row to remove the memory stays as it is. -/
theorem without_of_not_exists {memories : Memories} (h : ¬deletion.Exists projectId memories) :
    deletion.without projectId memories = memories := by
  have hkept : ∀ {α : Type} {P : α → Prop} [DecidablePred P] (rows : List α),
      (¬∃ row ∈ rows, P row) → (rows.filter fun row => ¬P row) = rows := by
    intro α P _ rows hnone
    refine List.filter_eq_self.mpr fun row hrow => decide_eq_true fun hmatch => ?_
    exact hnone ⟨row, hrow, hmatch⟩
  cases deletion with
  | convention rule =>
    exact congrArg (fun conventions => { memories with conventions }) (hkept _ h)
  | decision title => exact congrArg (fun decisions => { memories with decisions }) (hkept _ h)
  | pattern name => exact congrArg (fun patterns => { memories with patterns }) (hkept _ h)
  | mistake description =>
    exact congrArg (fun mistakes => { memories with mistakes }) (hkept _ h)

theorem right_iff : deletion.Right projectId connection ↔
    deletion.Exists projectId connection.memories ∨ connection.totalChanges = 0 := by
  constructor
  · intro h
    by_contra hnone
    rw [not_or] at hnone
    exact hnone.1 (h.answer.mp (run_answer.mpr (Or.inl (Nat.pos_of_ne_zero hnone.2))))
  · intro h
    refine ⟨run_memories, ?_⟩
    rw [run_answer]
    refine ⟨fun hsome => ?_, Or.inr⟩
    rcases hsome with hpositive | hexists
    · rcases h with hexists | hzero
      · exact hexists
      · omega
    · exact hexists

end Deletion

namespace Operation

/-- The operation changes no row of a database with these memories. -/
def Idle (memories : Memories) : Operation → Prop
  | delete projectId deletion => ¬deletion.Exists projectId memories
  | other changes => changes = 0
  | _ => False

variable {operation : Operation}

theorem totalChanges_le_step : connection.totalChanges ≤ (operation.step connection).totalChanges := by
  cases operation with
  | upsertConvention projectId rule category source =>
    unfold step Connection.upsertConvention
    dsimp only
    split
    · exact Nat.le_add_right _ _
    · exact Nat.le_add_right _ _
  | addDecision projectId title context decision consequences => exact Nat.le_add_right _ _
  | addPattern projectId name description =>
    unfold step Connection.addPattern
    dsimp only
    split
    · exact Nat.le_add_right _ _
    · exact Nat.le_add_right _ _
  | addMistake projectId description category severity => exact Nat.le_add_right _ _
  | delete projectId deletion => exact Deletion.totalChanges_le_run
  | other changes => exact Nat.le_add_right _ _

/-- Exactly the idle operations leave the counter as it is. -/
theorem step_totalChanges : (operation.step connection).totalChanges = connection.totalChanges ↔
    operation.Idle connection.memories := by
  have hself : ∀ {α : Type} {rows : List α} {row : α} (id : α → ℤ), row ∈ rows →
      0 < rows.countP fun other => decide (id other = id row) := by
    intro α rows row id hrow
    exact List.countP_pos_iff.mpr ⟨row, hrow, decide_eq_true rfl⟩
  cases operation with
  | upsertConvention projectId rule category source =>
    refine iff_of_false (fun hsame => ?_) id
    unfold step Connection.upsertConvention at hsame
    dsimp only at hsame
    split at hsame
    · rename_i existing hfind
      have hpositive := hself ConventionRow.id (List.mem_of_find?_eq_some hfind)
      dsimp only at hsame
      omega
    · dsimp only at hsame
      omega
  | addDecision projectId title context decision consequences =>
    exact iff_of_false (Nat.succ_ne_self _) id
  | addPattern projectId name description =>
    refine iff_of_false (fun hsame => ?_) id
    unfold step Connection.addPattern at hsame
    dsimp only at hsame
    split at hsame
    · rename_i existing hfind
      have hpositive := hself PatternRow.id (List.mem_of_find?_eq_some hfind)
      dsimp only at hsame
      omega
    · dsimp only at hsame
      omega
  | addMistake projectId description category severity => exact iff_of_false (Nat.succ_ne_self _) id
  | delete projectId deletion => exact Deletion.run_totalChanges
  | other changes =>
    change connection.totalChanges + changes = connection.totalChanges ↔ changes = 0
    omega

/-- An idle operation leaves the memory as it is. -/
theorem step_memories (h : operation.Idle connection.memories) :
    (operation.step connection).memories = connection.memories := by
  cases operation with
  | upsertConvention projectId rule category source => exact h.elim
  | addDecision projectId title context decision consequences => exact h.elim
  | addPattern projectId name description => exact h.elim
  | addMistake projectId description category severity => exact h.elim
  | delete projectId deletion =>
    exact Deletion.run_memories.trans (Deletion.without_of_not_exists h)
  | other changes => rfl

end Operation

theorem totalChanges_le_history (operations : List Operation) :
    ∀ connection : Connection, connection.totalChanges ≤ (history operations connection).totalChanges := by
  induction operations with
  | nil => exact fun connection => le_rfl
  | cons operation operations ih =>
    exact fun connection => Operation.totalChanges_le_step.trans (ih (operation.step connection))

/-- The counter stands where it stood exactly when every operation was idle. -/
theorem history_totalChanges (operations : List Operation) :
    ∀ connection : Connection, (history operations connection).totalChanges = connection.totalChanges ↔
      ∀ operation ∈ operations, operation.Idle connection.memories := by
  induction operations with
  | nil =>
    exact fun connection => iff_of_true rfl fun operation hmem => absurd hmem List.not_mem_nil
  | cons operation operations ih =>
    intro connection
    have hfirst := @Operation.totalChanges_le_step connection operation
    have hrest := totalChanges_le_history operations (operation.step connection)
    change (history operations (operation.step connection)).totalChanges = _ ↔ _
    rw [List.forall_mem_cons]
    constructor
    · intro hsame
      have hstep : (operation.step connection).totalChanges = connection.totalChanges := by omega
      have hidle := Operation.step_totalChanges.mp hstep
      have hlater := (ih (operation.step connection)).mp (by omega)
      rw [Operation.step_memories hidle] at hlater
      exact ⟨hidle, hlater⟩
    · rintro ⟨hidle, hlater⟩
      rw [← Operation.step_memories hidle] at hlater
      exact ((ih (operation.step connection)).mpr hlater).trans (Operation.step_totalChanges.mpr hidle)

/-- A connection that was just opened. -/
def opened (memories : Memories) (conventionSequence patternSequence : ℤ) : Connection :=
  { memories, conventionSequence, patternSequence }

/-- Every deletion of a history is right exactly when each of them finds a row to
remove, or no operation before it changed a row. -/
theorem deletesRight_iff (memories : Memories) (conventionSequence patternSequence : ℤ)
    (operations : List Operation) :
    DeletesRight operations (opened memories conventionSequence patternSequence) ↔
      ∀ before projectId deletion behind,
        operations = before ++ .delete projectId deletion :: behind →
        deletion.Exists projectId
            (history before (opened memories conventionSequence patternSequence)).memories ∨
          ∀ operation ∈ before, operation.Idle memories := by
  unfold DeletesRight
  refine forall₄_congr fun before projectId deletion behind => imp_congr_right fun _ => ?_
  rw [Deletion.right_iff]
  exact or_congr_right
    (history_totalChanges before (opened memories conventionSequence patternSequence))

/-- A mistake is remembered, and a convention that no one knows is deleted. -/
theorem deletesRight_unknown : ¬∀ operations memories,
    DeletesRight operations (opened memories 0 0) := by
  intro h
  have hright := h [.addMistake "alpha" "race" "bug" "high", .delete "alpha" (.convention "tabs")] {}
    [.addMistake "alpha" "race" "bug" "high"] "alpha" (.convention "tabs") [] rfl
  obtain ⟨row, hrow, -⟩ := hright.answer.mp (by decide)
  cases hrow

end Deletions

end AiosDeck.Memory
