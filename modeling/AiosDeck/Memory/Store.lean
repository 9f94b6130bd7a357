import AiosDeck.Python.Text

/-!
# Project memory

Conventions, decisions, patterns and mistakes of the projects of one
database. A convention is keyed by its rule and a pattern by its name; what
is remembered again under the key updates the entry that is there.
-/

namespace AiosDeck.Memory

open Python

/-- A row of `conventions`. -/
structure ConventionRow where
  id : ℤ
  category : String
  rule : String
  source : String
  projectId : String
  deriving DecidableEq

/-- A row of `decisions`. -/
structure DecisionRow where
  title : String
  context : String
  decision : String
  consequences : String
  status : String
  projectId : String
  deriving DecidableEq

/-- A row of `patterns`. -/
structure PatternRow where
  id : ℤ
  name : String
  description : String
  usageCount : ℕ
  projectId : String
  deriving DecidableEq

/-- A row of `mistakes`. -/
structure MistakeRow where
  description : String
  category : String
  severity : String
  projectId : String
  deriving DecidableEq

/-- The tables of the memory. -/
structure Memories where
  conventions : List ConventionRow := []
  decisions : List DecisionRow := []
  patterns : List PatternRow := []
  mistakes : List MistakeRow := []

/-- The next id of a table that loses no rows. -/
def nextId {α : Type} (id : α → ℤ) (rows : List α) : ℤ := (rows.map id).foldr max 0 + 1

namespace Memories

variable (projectId : String) (memories : Memories)

/-- `upsert_convention`. -/
def upsertConvention (rule category source : String) : Memories :=
  match memories.conventions.find? fun row => row.rule = rule ∧ row.projectId = projectId with
  | some existing =>
    { memories with conventions := memories.conventions.map fun row =>
        if row.id = existing.id then { row with category, source } else row }
  | none =>
    { memories with conventions := memories.conventions ++
        [⟨nextId ConventionRow.id memories.conventions, category, rule, source, projectId⟩] }

/-- `add_decision`. -/
def addDecision (title context decision consequences : String) : Memories :=
  { memories with decisions := memories.decisions ++
      [⟨title, context, decision, consequences, "active", projectId⟩] }

/-- `add_pattern`: the description of a pattern that is there stays. -/
def addPattern (name description : String) : Memories :=
  match memories.patterns.find? fun row => row.name = name ∧ row.projectId = projectId with
  | some existing =>
    { memories with patterns := memories.patterns.map fun row =>
        if row.id = existing.id then { row with usageCount := row.usageCount + 1 } else row }
  | none =>
    { memories with patterns := memories.patterns ++
        [⟨nextId PatternRow.id memories.patterns, name, description, 1, projectId⟩] }

/-- `add_mistake`. -/
def addMistake (description category severity : String) : Memories :=
  { memories with mistakes := memories.mistakes ++ [⟨description, category, severity, projectId⟩] }

/-- The memory of a project has an entry with the text. -/
def Holds (text : String) : Prop :=
  (∃ row ∈ memories.conventions, row.projectId = projectId ∧ row.rule = text) ∨
  (∃ row ∈ memories.decisions, row.projectId = projectId ∧ row.decision = text) ∨
  (∃ row ∈ memories.patterns, row.projectId = projectId ∧ row.description = text) ∨
  ∃ row ∈ memories.mistakes, row.projectId = projectId ∧ row.description = text

instance (text : String) : Decidable (memories.Holds projectId text) :=
  inferInstanceAs (Decidable (_ ∨ _))

/-- A project has a pattern of the name. -/
def HasPattern (name : String) : Prop :=
  ∃ row ∈ memories.patterns, row.name = name ∧ row.projectId = projectId

instance (name : String) : Decidable (memories.HasPattern projectId name) :=
  inferInstanceAs (Decidable (∃ row ∈ _, _))

variable {projectId memories} {owner text : String}

/-- A row appended to a table. -/
theorem exists_mem_append_singleton {α : Type} {rows : List α} {row : α} {P : α → Prop} :
    (∃ x ∈ rows ++ [row], P x) ↔ (∃ x ∈ rows, P x) ∨ P row := by
  simp only [List.mem_append, List.mem_singleton, or_and_right, exists_or, exists_eq_left]

/-- Rows changed in a way that does not matter. -/
theorem exists_mem_map_of_iff {α : Type} {rows : List α} {update : α → α} {P : α → Prop}
    (h : ∀ row, P (update row) ↔ P row) : (∃ x ∈ rows.map update, P x) ↔ ∃ x ∈ rows, P x := by
  simp only [List.mem_map, exists_exists_and_eq_and, h]

theorem holds_upsertConvention (rule category source : String) :
    (memories.upsertConvention owner rule category source).Holds projectId text ↔
      memories.Holds projectId text ∨ owner = projectId ∧ rule = text := by
  unfold upsertConvention
  cases hfind : memories.conventions.find? fun row => row.rule = rule ∧ row.projectId = owner with
  | none =>
    unfold Holds
    simp only [exists_mem_append_singleton, or_assoc, or_comm]
  | some existing =>
    have hexisting : existing.rule = rule ∧ existing.projectId = owner := by
      simpa using List.find?_some hfind
    have hmem := List.mem_of_find?_eq_some hfind
    have hsame : (∃ row ∈ memories.conventions.map (fun row =>
        if row.id = existing.id then { row with category, source } else row),
          row.projectId = projectId ∧ row.rule = text) ↔
        ∃ row ∈ memories.conventions, row.projectId = projectId ∧ row.rule = text := by
      refine exists_mem_map_of_iff fun row => ?_
      split <;> rfl
    have hheld : owner = projectId ∧ rule = text → memories.Holds projectId text := by
      rintro ⟨rfl, rfl⟩
      exact .inl ⟨existing, hmem, hexisting.2, hexisting.1⟩
    rw [or_iff_left_of_imp hheld]
    unfold Holds
    rw [hsame]

theorem holds_addDecision (title context decision consequences : String) :
    (memories.addDecision owner title context decision consequences).Holds projectId text ↔
      memories.Holds projectId text ∨ owner = projectId ∧ decision = text := by
  unfold addDecision Holds
  simp only [exists_mem_append_singleton, or_assoc, or_left_comm, or_comm]

/-- A pattern of a name that is taken adds no text. -/
theorem holds_addPattern (name description : String) :
    (memories.addPattern owner name description).Holds projectId text ↔
      memories.Holds projectId text ∨
        (owner = projectId ∧ description = text) ∧ ¬ memories.HasPattern owner name := by
  unfold addPattern
  cases hfind : memories.patterns.find? fun row => row.name = name ∧ row.projectId = owner with
  | none =>
    have hnew : ¬ memories.HasPattern owner name := by
      rintro ⟨row, hrow, hmatch⟩
      exact List.find?_eq_none.mp hfind row hrow (decide_eq_true hmatch)
    rw [and_iff_left hnew]
    unfold Holds
    simp only [exists_mem_append_singleton, or_left_comm, or_comm]
  | some existing =>
    have hexisting : existing.name = name ∧ existing.projectId = owner := by
      simpa using List.find?_some hfind
    have htaken : memories.HasPattern owner name :=
      ⟨existing, List.mem_of_find?_eq_some hfind, hexisting⟩
    have hsame : (∃ row ∈ memories.patterns.map (fun row =>
        if row.id = existing.id then { row with usageCount := row.usageCount + 1 } else row),
          row.projectId = projectId ∧ row.description = text) ↔
        ∃ row ∈ memories.patterns, row.projectId = projectId ∧ row.description = text := by
      refine exists_mem_map_of_iff fun row => ?_
      split <;> rfl
    rw [or_iff_left fun h => h.2 htaken]
    unfold Holds
    rw [hsame]

theorem holds_addMistake (description category severity : String) :
    (memories.addMistake owner description category severity).Holds projectId text ↔
      memories.Holds projectId text ∨ owner = projectId ∧ description = text := by
  unfold addMistake Holds
  simp only [exists_mem_append_singleton, or_assoc, or_left_comm, or_comm]

end Memories

end AiosDeck.Memory
